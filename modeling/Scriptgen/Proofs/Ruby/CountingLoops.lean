import Scriptgen.Proofs.Iterations.Source
import Scriptgen.Proofs.StableBounds
import Scriptgen.Proofs.Switch.Lowering
/-!
# Counting loops in Ruby

A counting loop of the program tests its variable before each round and moves it after each one
(`Visits`). The call that it becomes knows all numbers at once (`Expr.counted?`).
`countingLoops_visit` says that these are the same numbers, if the variable stays below `2 ^ 53`.
-/

namespace Scriptgen

open Option CountingLoop Binary64

/-! ## Rounded sums -/

namespace Binary64

theorem ofRatio?_sign (num den : Nat) :
    (∃ mantissa exponent, ∀ negative,
      ofRatio? negative num den = some ⟨negative, mantissa, exponent⟩) ∨
    ∀ negative, ofRatio? negative num den = none := by
  simp only [ofRatio?]
  by_cases hzero : (num == 0) = true
  · exact .inl ⟨_, _, fun _ => if_pos hzero⟩
  · simp only [if_neg hzero]
    split <;> split
    · exact .inl ⟨_, _, fun _ => rfl⟩
    · exact .inr fun _ => rfl
    · exact .inl ⟨_, _, fun _ => rfl⟩
    · exact .inr fun _ => rfl

theorem truncate_ofInt_neg {n : Nat} (hn : 0 < n) : (ofInt (-n)).truncate = -(ofInt n).truncate := by
  have hneg : decide (-(n : Int) < 0) = true := by simp [hn]
  have hpos : decide ((n : Int) < 0) = false := by simp
  simp only [ofInt, hneg, hpos, Int.natAbs_neg, Int.natAbs_natCast]
  rcases ofRatio?_sign n 1 with ⟨mantissa, exponent, h⟩ | h
  · simp [h, truncate, ratio]
  · have hzero : zero.truncate = 0 := by decide +kernel
    simp [h, hzero]

theorem le_truncate_ofInt {n : Nat} (hlow : 2 ^ 53 ≤ n) (hhigh : n < 2 ^ 54) :
    2 ^ 53 ≤ (ofInt n).truncate := by
  have hlog : n.log2 = 53 := (Nat.log2_eq_iff (by omega)).2 ⟨hlow, hhigh⟩
  have hone : Nat.log2 1 = 0 := rfl
  have hgrid : gridExponent n 1 = 1 := by
    simp only [gridExponent, hlog, hone, scaled, minExponent]
    rw [if_neg (by simp; omega)]
    rfl
  have hround : 2 ^ 52 ≤ roundQuotient n 2 := by
    simp only [roundQuotient]
    split_ifs <;> omega
  have hpos : decide ((n : Int) < 0) = false := by simp
  have hscaled : scaled n 1 1 = (n, 2) := by rfl
  have hzero : ¬ (n == 0) = true := by simp; omega
  simp only [ofInt, hpos, Int.natAbs_natCast, ofRatio?, if_neg hzero, hgrid, hscaled]
  split
  · decide
  · simp only [maxExponent, truncate, ratio]
    simp
    omega

theorem truncate_ne_zero {x : Binary64} (hwhole : x.isIntegral = true) (hpos : x.le 0 = false) :
    x.truncate ≠ 0 := by
  simp only [isIntegral, le, truncate] at hwhole hpos ⊢
  generalize x.ratio = ratio at hwhole hpos ⊢
  generalize x.negative = negative at hpos ⊢
  obtain ⟨n, d⟩ := ratio
  have hdiv := Nat.div_add_mod n d
  cases negative
  · simp only [beq_iff_eq] at hwhole
    simp only [Bool.false_eq_true, if_false, zero_mul, decide_eq_false_iff_not] at hpos ⊢
    intro hzero
    simp only [Nat.cast_eq_zero] at hzero
    rw [hzero, hwhole] at hdiv
    omega
  · simp at hpos

end Binary64

/-- The sum of whole numbers in the program, which is rounded. -/
def roundedSum (x y : Int) : Int := (ofInt (x + y)).truncate

variable {x n : Int}

/-- A sum that stays below `2 ^ 53` is exact. -/
theorem roundedSum_eq {y : Int} (hx : |x| < 2 ^ 53) (hy : |y| < 2 ^ 53)
    (h : |roundedSum x y| < 2 ^ 53) : roundedSum x y = x + y := by
  have hbelow : (x + y).natAbs < 2 ^ 54 := by
    rw [abs_lt] at hx hy
    omega
  have hexact {n : Nat} (hn : n < 2 ^ 54) (h : (ofInt n).truncate < 2 ^ 53) :
      (ofInt n).truncate = n := by
    refine truncate_ofInt (Nat.lt_of_not_le fun hlow => ?_)
    exact absurd (le_truncate_ofInt hlow hn) (by omega)
  rw [roundedSum, abs_lt] at h
  rw [roundedSum]
  generalize x + y = sum at h hbelow ⊢
  obtain ⟨n, rfl | rfl⟩ := sum.eq_nat_or_neg
  · exact hexact (by simpa using hbelow) h.2
  · rcases Nat.eq_zero_or_pos n with rfl | hpos
    · exact hexact (by norm_num) h.2
    · rw [truncate_ofInt_neg hpos] at h ⊢
      rw [hexact (by simpa using hbelow) (by omega)]

/-! ## What a loop does in the program -/

def compares (symbol : String) (x y : Int) : Bool :=
  match symbol with
  | "===" => x = y
  | "!==" => x ≠ y
  | "<" => x < y
  | "<=" => x ≤ y
  | ">" => y < x
  | ">=" => y ≤ x
  | _ => false

/-- The value of a variable after the update of a loop. -/
def Node.moved? (update : Node) (x : Int) : Option Int :=
  let amount := (update.child? "right" >>= (·.unwrapped.number? "value")).map truncate
  match update.text? "operator" with
  | some "++" => some (roundedSum x 1)
  | some "--" => some (roundedSum x (-1))
  | some "+=" => amount.map (roundedSum x ·)
  | some "-=" => amount.map (roundedSum x <| -·)
  | _ => none

theorem Node.amount_of_stepLiteral? {right : Node} (h : right.stepLiteral? = some n)
    (hn : |n| < 2 ^ 53) :
    n ≠ 0 ∧ (right.unwrapped.number? "value").map truncate = some n := by
  simp only [stepLiteral?, bind_eq_bind, bind_eq_some_iff] at h
  obtain ⟨_, _, value, hvalue, h⟩ := h
  split at h
  · rename_i hwhole
    have hmin := some.inj h
    have htruncate : value.truncate = n := by
      have := (abs_lt.1 hn).2
      rw [maxStep] at hmin
      omega
    refine ⟨?_, by rw [hvalue, map_some, htruncate]⟩
    rw [← htruncate]
    simp only [Bool.and_eq_true, Bool.not_eq_true'] at hwhole
    exact truncate_ne_zero hwhole.1 hwhole.2
  · cases h

/-- An update that is read as a step moves the variable by it, as a double. -/
theorem Node.moved?_of_loopStep? {update : Node} {var : String} {k : Int}
    (h : update.loopStep? var = some k) (hk : |k| < 2 ^ 53) :
    k ≠ 0 ∧ ∀ x, update.moved? x = some (roundedSum x k) := by
  simp only [loopStep?, bind_eq_bind] at h
  split at h
  · simp only [bind_eq_some_iff] at h
    obtain ⟨_, _, _, _, operator, hop, h⟩ := h
    split at h <;> cases h <;> simp [moved?, hop]
  · simp only [bind_eq_some_iff] at h
    obtain ⟨_, _, _, _, right, hright, n, hn, operator, hop, h⟩ := h
    have habs : |n| = |k| := by
      split at h <;> cases h <;> simp
    obtain ⟨hzero, hamount⟩ := amount_of_stepLiteral? hn (habs ▸ hk)
    have hamount : (update.child? "right" >>= (·.unwrapped.number? "value")).map
        truncate = some n := by rwa [hright]
    refine ⟨fun hk => hzero (abs_eq_zero.1 (by rw [habs, hk]; rfl)), fun x => ?_⟩
    split at h <;> cases h <;> simp only [moved?, hop, hamount, map_some]
  · cases h

section

variable (holds : Int → Bool) (move : Int → Option Int)

/-- The values that the variable of a loop takes from one on, also that with which the loop ends. -/
inductive Attains (first : Int) : Int → Prop
  | first : Attains first first
  | next {x y : Int} : Attains first x → holds x = true → move x = some y → Attains first y

/-- **A loop runs its body with values of its variable, from one on until its test fails.** -/
inductive Visits : Int → List Int → Prop
  | stop {x : Int} : holds x = false → Visits x []
  | round {x y : Int} {rest : List Int} :
      holds x = true → move x = some y → Visits y rest → Visits x (x :: rest)

variable {holds move}

theorem Visits.unique {visited visited' : List Int} (h : Visits holds move x visited)
    (h' : Visits holds move x visited') : visited = visited' := by
  induction h generalizing visited' with
  | stop hstop =>
    cases h' with
    | stop => rfl
    | round hholds => simp [hstop] at hholds
  | round hholds hmove _ ih =>
    cases h' with
    | stop hstop => simp [hstop] at hholds
    | round _ hmove' hrest =>
      obtain rfl := some.inj (hmove.symm.trans hmove')
      rw [ih hrest]

end

/-! ## Numbers at a distance -/

/-- The numbers from a first one to a last one at a distance. -/
def spaced (first last step : Int) : List Int :=
  (List.range ((last - first).fdiv step + 1).toNat).map fun (j : Nat) => first + step * j

variable {step : Int} {first last : Int}

theorem spaced_eq_nil (h : (last - first).fdiv step < 0) : spaced first last step = [] := by
  rw [spaced, Int.toNat_of_nonpos (by omega)]
  rfl

theorem spaced_eq_cons (hstep : step ≠ 0) (h : 0 ≤ (last - first).fdiv step) :
    spaced first last step = first :: spaced (first + step) last step := by
  have hless : (last - (first + step)).fdiv step = (last - first).fdiv step - 1 := by
    have := Int.add_mul_fdiv_right (last - first) (-1) hstep
    rw [← Int.sub_eq_add_neg] at this
    rw [← this]
    congr 1
    ring
  have hcount : ((last - first).fdiv step + 1).toNat =
      ((last - (first + step)).fdiv step + 1).toNat + 1 := by omega
  rw [spaced, hcount, List.range_succ_eq_map, List.map_cons, List.map_map, spaced]
  congr 1
  · simp
  · refine List.map_congr_left fun j _ => ?_
    simp only [Function.comp_apply, Nat.succ_eq_add_one, Nat.cast_add, Nat.cast_one]
    ring

theorem fdiv_nonneg_iff (hstep : step ≠ 0) :
    0 ≤ x.fdiv step ↔ if 0 < step then 0 ≤ x else x ≤ 0 := by
  have hpos {y k : Int} (hk : 0 < k) : 0 ≤ y.fdiv k ↔ 0 ≤ y := by
    rw [Int.fdiv_eq_ediv_of_nonneg _ hk.le, Int.ediv_nonneg_iff_of_pos hk]
  split
  · exact hpos ‹_›
  · rw [← Int.neg_fdiv_neg, hpos (by omega), Int.neg_nonneg]

/-- **A loop runs its body with the numbers at the distance of its steps.** -/
theorem visits_spaced {holds : Int → Bool} {move : Int → Option Int} (hstep : step ≠ 0)
    (hholds : ∀ x, holds x = if 0 < step then decide (x ≤ last) else decide (last ≤ x))
    (hmove : ∀ x, Attains holds move first x → holds x = true → move x = some (x + step)) :
    Visits holds move first (spaced first last step) := by
  have hrun (count : Nat) : ∀ x, Attains holds move first x → ((last - x).fdiv step + 1).toNat = count →
      Visits holds move x (spaced x last step) := by
    induction count with
    | zero =>
      intro x _ hcount
      have hless : (last - x).fdiv step < 0 := by omega
      rw [spaced_eq_nil hless]
      have hnot := (fdiv_nonneg_iff hstep).not.1 (not_le.2 hless)
      refine .stop ?_
      rw [hholds]
      split at hnot <;> simp_all
    | succ count ih =>
      intro x hx hcount
      have hle : 0 ≤ (last - x).fdiv step := by omega
      have hnext := spaced_eq_cons hstep hle
      have htest : holds x = true := by
        have := (fdiv_nonneg_iff hstep).1 hle
        rw [hholds]
        split at this <;> simp_all
      have hmoved := hmove x hx htest
      rw [hnext]
      refine .round htest hmoved (ih _ (.next hx htest hmoved) ?_)
      have hlength := congrArg List.length hnext
      simp only [spaced, List.length_cons, List.length_map, List.length_range] at hlength
      omega
  exact hrun _ first .first rfl

namespace Ruby

open Switch Lowering

/-! ## What a call counts -/

/-- The integer that an expression gives, where all but literals and sums give what they are told
to. -/
def Expr.whole? (other : Expr → Option Int) : Expr → Option Int
  | .number text => integerOf? text
  | .binary .add left right _ _ => do return (← left.whole? other) + (← right.whole? other)
  | expr => other expr

/-- **The numbers that a call passes to its block.** -/
def Expr.counted? (other : Expr → Option Int) : Expr → Option (List Int)
  | .call (some first) "downto" [last] (some _) => do
    return spaced (← first.whole? other) (← last.whole? other) (-1)
  | .call (some first) "step" [last, step] (some _) => do
    return spaced (← first.whole? other) (← last.whole? other) (← step.whole? other)
  | .call (some (.range first (some last) exclusive)) method args (some _) => do
    let first ← first.whole? other
    let last ← last.whole? other
    let last := if exclusive then last - 1 else last
    match method, args with
    | "each", [] => return spaced first last 1
    | "step", [step] => return spaced first last (← step.whole? other)
    | _, _ => none
  | _ => none

/-- An expression gives an integer. If it is a literal, whoever reads its digits gets the same. -/
structure Gives (other : Expr → Option Int) (expr : Expr) (v : Int) : Prop where
  value : expr.whole? other = some v
  literal : ∀ text, expr = .number text → ∀ n, integerOfText? text = some n → n = v

variable {other : Expr → Option Int} {start stop : Expr} {a b : Int}

theorem Gives.of_spellsInt {text : String} (h : SpellsInt text n) :
    Gives other (.number text) n := by
  have hvalue : integerOf? text = some n := @operand?_number (fun _ _ => 0) _ _ h
  refine ⟨hvalue, ?_⟩
  rintro _ ⟨⟩ m hm
  cases h with
  | natural h =>
    rw [integerOfText?] at hm
    split at hm
    · rename_i digits htext
      exact absurd htext (ne_minus_of_denotes h digits)
    · obtain ⟨digits, hdigits, rfl⟩ := map_eq_some_iff.1 hm
      rw [h.digits _ _ hdigits]
      rfl
  | @negated text n h =>
    rw [integerOfText?, String.toList_append,
      show ("-" : String).toList ++ text.toList = '-' :: text.toList from rfl] at hm
    simp only [String.ofList_toList] at hm
    split at hm
    · cases hm
    · simp only [map_eq_some_iff, bind_eq_bind, bind_eq_some_iff] at hm
      obtain ⟨_, ⟨digits, hdigits, ⟨⟩⟩, rfl⟩ := hm
      rw [h.digits _ _ hdigits]

theorem gives_integerLabel {node : Node} {height : Nat} {context : Context}
    (h : IntegerLabel node n) (hh : node.height ≤ height) (s : State) :
    Gives other (value node (level height) context s).1 n := by
  obtain ⟨text, hlower, hspells⟩ := @lowers_integerLabel _ _ context _ h hh s
  rw [value_of_expr hlower]
  exact .of_spellsInt hspells

theorem whole?_int (n : Int) : (Expr.int n).whole? other = some n := by
  have hspells : SpellsInt (Text.decimalInt n) n := by
    rw [Text.decimalInt]
    split
    · have h := SpellsInt.negated (Text.denotes_decimal n.natAbs)
      rwa [show -(n.natAbs : Int) = n by omega] at h
    · have h := SpellsInt.natural (Text.denotes_decimal n.natAbs)
      rwa [show (n.natAbs : Int) = n by omega] at h
  exact (Gives.of_spellsInt hspells).value

theorem whole?_plusOne (h : Gives other stop b) : (plusOne stop).whole? other = some (b + 1) := by
  have hsum : (binary .add stop (.int 1)).whole? other = some (b + 1) := by
    rw [binary, Expr.whole?, h.value, whole?_int]
    rfl
  unfold plusOne
  split
  · split
    · rename_i hread
      rw [whole?_int, h.literal _ rfl _ hread]
    · exact hsum
  · exact hsum

/-- The last number that the variable of a loop can have in a round. -/
def lastNumber (loop : CountingLoop) (bound : Int) : Int :=
  if loop.inclusive then bound else if loop.step > 0 then bound - 1 else bound + 1

/-- The call counts from the start to the last number of the loop. -/
theorem counted?_countingCall (loop : CountingLoop) (block : Block)
    (ha : start.whole? other = some a) (hb : Gives other stop b) :
    (Expr.withBlock (countingCall loop start stop).1 (countingCall loop start stop).2.1
      (countingCall loop start stop).2.2 block).counted? other =
      some (spaced a (lastNumber loop b) loop.step) := by
  have hlast : (if loop.inclusive then stop else plusOne stop).whole? other =
      some (if loop.inclusive then b else b + 1) := by
    split
    · exact hb.value
    · exact whole?_plusOne hb
  simp only [countingCall, lastNumber]
  by_cases hup : loop.step > 0
  · simp only [if_pos hup]
    by_cases hone : loop.step = 1
    · cases loop.inclusive <;>
        simp [hone, rangeThrough, rangeUpTo, Expr.withBlock, Expr.counted?, ha, hb.value]
    · cases loop.inclusive <;>
        simp [hone, rangeThrough, rangeUpTo, Expr.withBlock, Expr.counted?, ha, hb.value, whole?_int]
  · simp only [if_neg hup]
    by_cases hone : loop.step = -1
    · simp [hone, Expr.withBlock, Expr.counted?, ha, hlast]
    · simp [hone, Expr.withBlock, Expr.counted?, ha, hlast, whole?_int]

theorem compares_eq {loop : CountingLoop} {symbol : String}
    (h : comparison? symbol = some (decide (loop.step > 0), loop.inclusive)) (x : Int) :
    compares symbol x b = if 0 < loop.step then decide (x ≤ lastNumber loop b)
      else decide (lastNumber loop b ≤ x) := by
  simp only [comparison?] at h
  split at h <;> simp_all [compares, lastNumber]

/-- **Counting loops visit the numbers of the program.** -/
theorem countingLoops_visit {node test update : Node} {loop : CountingLoop} {symbol : String}
    {below : Below} {context : Context} {s : State} (label : Option String)
    (hloop : ofNode? node = some loop) (htest : node.child? "test" = some test)
    (hsymbol : test.unwrapped.text? "operator" = some symbol)
    (hupdate : node.child? "update" = some update)
    (ha : (value loop.start below context s).1.whole? other = some a)
    (hb : Gives other (value loop.bound below context (value loop.start below context s).2).1 b)
    (hstep : |loop.step| < 2 ^ 53)
    (hattains : ∀ x, Attains (compares symbol · b) update.unwrapped.moved? a x → |x| < 2 ^ 53) :
    ∃ tag receiver method args body visited,
      (forStmt node label below context s).1 = catching tag
        [.ofExpr (.withBlock receiver method args (.ofBody [localName loop.var] body))] ∧
      (Expr.withBlock receiver method args (.ofBody [localName loop.var] body)).counted? other =
        some visited ∧
      ∀ numbers, Visits (compares symbol · b) update.unwrapped.moved? a numbers ↔
        numbers = visited := by
  obtain ⟨_, _, _, _, upward, hfrom⟩ := exists_isFrom hloop
  obtain rfl := some.inj (htest.symm.trans hfrom.test)
  obtain rfl := some.inj (hsymbol.symm.trans hfrom.operator)
  obtain rfl := some.inj (hupdate.symm.trans hfrom.update)
  obtain ⟨hzero, hmoved⟩ := Node.moved?_of_loopStep? hfrom.step hstep
  have hvisits : Visits (compares symbol · b) update.unwrapped.moved? a
      (spaced a (lastNumber loop b) loop.step) := by
    refine visits_spaced hzero (compares_eq (hfrom.upward ▸ hfrom.comparison)) fun x hx hholds => ?_
    have hnext := hattains _ (.next hx hholds (hmoved x))
    rw [hmoved, roundedSum_eq (hattains x hx) hstep hnext]
  simp only [forStmt, hloop]
  exact ⟨_, _, _, _, _, _, rfl, counted?_countingCall loop _ ha hb,
    fun numbers => ⟨fun h => h.unique hvisits, fun h => h ▸ hvisits⟩⟩

/-- The update `i -= 2`. -/
def fallingUpdate : Node :=
  .of "AssignmentExpression" [("operator", .string "-="),
    ("left", (Jumps.nameNode "i").toJson), ("right", (labelNode 2).toJson)]

/-- The loop `for (let i = 8; i > 3; i -= 2) {}`. -/
def fallingLoop : Node :=
  .of "ForStatement" [
    ("init", .node "VariableDeclaration" [("kind", .string "let"),
      ("declarations", .array [.node "VariableDeclarator" [
        ("id", (Jumps.nameNode "i").toJson), ("init", (labelNode 8).toJson)]])]),
    ("test", .node "BinaryExpression" [("operator", .string ">"),
      ("left", (Jumps.nameNode "i").toJson), ("right", (labelNode 3).toJson)]),
    ("update", fallingUpdate.toJson), ("body", (Jumps.blockNode []).toJson)]

theorem countingLoops_visit_fallingLoop :
    ∃ loop tag receiver method args body visited, ofNode? fallingLoop = some loop ∧
      (forStmt fallingLoop none (level 9) .initial .initial).1 = catching tag
        [.ofExpr (.withBlock receiver method args (.ofBody [localName loop.var] body))] ∧
      (Expr.withBlock receiver method args (.ofBody [localName loop.var] body)).counted?
        (fun _ => none) = some visited ∧
      ∀ numbers, Visits (compares ">" · 3) fallingUpdate.unwrapped.moved? 8 numbers ↔
        numbers = visited := by
  have haccepted : (ofNode? fallingLoop).isSome = true := by decide +kernel
  obtain ⟨loop, hloop⟩ := isSome_iff_exists.1 haccepted
  obtain ⟨test, right, update, symbol, _, hfrom⟩ := exists_isFrom hloop
  obtain rfl : fallingUpdate = update := some.inj hfrom.update
  have hstart : labelNode 8 = loop.start := congrArg Prod.snd (some.inj hfrom.counter)
  have hvar : "i" = loop.var := congrArg Prod.fst (some.inj hfrom.counter)
  have hoperator := hfrom.operator
  have hright := hfrom.right
  rw [← some.inj hfrom.test, Node.unwrapped_of_wrapped? rfl] at hoperator hright
  obtain rfl : ">" = symbol := some.inj hoperator
  have hbound : loop.bound = labelNode 3 := by
    rw [hfrom.bound, ← some.inj hright]
    exact Node.unwrapped_of_wrapped? rfl
  have hstep : loop.step = -2 := by
    have htwo : fallingUpdate.unwrapped.loopStep? "i" = some (-2) := by decide +kernel
    exact some.inj (hfrom.step.symm.trans (hvar ▸ htwo))
  have hattains : ∀ x, Attains (compares ">" · 3) fallingUpdate.unwrapped.moved? 8 x →
      x = 8 ∨ x = 6 ∨ x = 4 ∨ x = 2 := by
    obtain ⟨height, hsix, hfour⟩ : fallingUpdate.unwrapped.moved? 8 = some 6 ∧
        fallingUpdate.unwrapped.moved? 6 = some 4 ∧ fallingUpdate.unwrapped.moved? 4 = some 2 := by
      decide +kernel
    intro x hx
    induction hx with
    | first => exact .inl rfl
    | next _ hholds hmove ih =>
      rcases ih with rfl | rfl | rfl | rfl
      · exact .inr (.inl (some.inj (hmove.symm.trans height)))
      · exact .inr (.inr (.inl (some.inj (hmove.symm.trans hsix))))
      · exact .inr (.inr (.inr (some.inj (hmove.symm.trans hfour))))
      · cases hholds
  obtain ⟨tag, receiver, method, args, body, visited, h⟩ :=
    @countingLoops_visit (fun _ => none) 8 3 _ _ _ _ _ (level 9) .initial
      .initial none hloop hfrom.test hfrom.operator hfrom.update
      (hstart ▸ (gives_integerLabel (integerLabel_labelNode (by decide)) (by decide) _).value)
      (hbound ▸ gives_integerLabel (integerLabel_labelNode (by decide)) (by decide) _)
      (by rw [hstep]; decide) fun x hx => by
        rcases hattains x hx with rfl | rfl | rfl | rfl <;> decide
  exact ⟨loop, tag, receiver, method, args, body, visited, hloop, h⟩

end Ruby

end Scriptgen
