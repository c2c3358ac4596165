import Scriptgen.Proofs.Perl.Computation
import Scriptgen.Proofs.Ruby.Computation
/-!
# Rotations in both targets

A rotation binds the low bits of its value and, unless it is a small literal, its amount modulo the
width, and joins two shifts. It is the same computation in both targets (`Perl.compute_rotate`,
`Ruby.compute_rotate`). The amount is evaluated where the value is already bound, so it must have
nothing to do with the name that is made up for it.
-/

namespace Scriptgen.Perl

open Words Lowering

variable {W : Type} {other : Expr → Computation String W Int} {m : Memory String W}
variable {rotation : Rotation} {value amount : Expr}

/-! ### What a rotation becomes -/

theorem rotate_cases (value amount : Expr) (rotation : Rotation) (below : Below) (c : Context)
    (s : State) : ∃ s',
    (∃ text, amount = .number text ∧ rotation.inRange text = true ∧
      rotate value amount rotation below c s =
        (.doBlock [.my (s.names.fresh "value").1 .scalar (some (dialect.maskedBy rotation.mask value)),
          .ofExpr (dialect.joinedShifts rotation (.scalar (s.names.fresh "value").1)
            (.number text))], s')) ∨
    rotate value amount rotation below c s =
      (.doBlock [.my (s.names.fresh "value").1 .scalar (some (dialect.maskedBy rotation.mask value)),
        .my ((s.names.fresh "value").2.fresh "shift").1 .scalar
          (some (dialect.binary .mod amount (dialect.int rotation.bits))),
        .ofExpr (dialect.joinedShifts rotation (.scalar (s.names.fresh "value").1)
          (.scalar ((s.names.fresh "value").2.fresh "shift").1))], s') := by
  have hmasked : (binary .bitAnd value (hex rotation.mask)).isSimple = false := rfl
  have hreduced : (binary .mod amount (.int rotation.bits)).isSimple = false := rfl
  unfold rotate Dialect.joinedShifts
  simp only [run_bind, shared_of_not_isSimple hmasked]
  split
  · rename_i text
    cases htext : rotation.inRange text with
    | true => cases rotation.left <;> exact ⟨_, .inl ⟨text, rfl, htext, rfl⟩⟩
    | false =>
      simp only [Bool.false_eq_true, if_false, run_bind, shared_of_not_isSimple hreduced]
      cases rotation.left <;> exact ⟨_, .inr rfl⟩
  · simp only [run_bind, shared_of_not_isSimple hreduced]
    cases rotation.left <;> exact ⟨_, .inr rfl⟩

/-! ### What it does -/

theorem withLocal_literal (hbits : rotation.bits ≤ 64) {text : String}
    (htext : rotation.inRange text = true) (name : String) (v : Int) :
    withLocal name (lowBits rotation.bits v)
        ((dialect.joinedShifts rotation (.scalar name) (.number text)).compute other) = (do
      let n ← (Expr.number text).compute other
      return rotation.apply v n) := by
  funext m
  have hjoined := (runs_dialect other).joinedShifts_literal (rotates_wrapping64 hbits) (v := v) htext
    ((compute_scalar name (m.set name (lowBits rotation.bits v))).trans (by rw [Memory.vars_set_self]))
  change ((dialect.joinedShifts rotation (.scalar name) (dialect.number text)).compute other _).map _ = _
  rw [hjoined, compute_number]
  cases Text.integerLiteral? text.toList with
  | none => rfl
  | some n =>
    simp only [Option.map_some, Memory.set_set, Memory.set_vars]
    rfl

/-- Any other amount is evaluated once, and counts modulo the width. -/
theorem withLocal_amount (hwidth : 1 ≤ rotation.bits ∧ rotation.bits ≤ 64) {name shift : String}
    (hne : name ≠ shift) (hamount : Ignores name (amount.compute other)) (v : Int) :
    withLocal name (lowBits rotation.bits v) (do
        let y ← (dialect.binary .mod amount (dialect.int rotation.bits)).compute other
        withLocal shift y
          ((dialect.joinedShifts rotation (.scalar name) (.scalar shift)).compute other)) = (do
      let n ← amount.compute other
      return rotation.apply v n) := by
  funext m
  change (((dialect.binary .mod amount (dialect.int rotation.bits)).compute other
      (m.set name (lowBits rotation.bits v))).bind _).map _ =
    (amount.compute other m).bind fun result => some (rotation.apply v result.1, result.2)
  cases hrun : amount.compute other m with
  | none =>
    rw [(runs_dialect other).reduced_none hamount hrun]
    rfl
  | some result =>
    obtain ⟨n, m'⟩ := result
    obtain ⟨hreduced, hjoined⟩ := (runs_dialect other).joinedShifts_amount
      (rotates_wrapping64 hwidth.2) (v := v) hwidth.1 hne hamount hrun (compute_scalar name)
      (compute_scalar shift)
    rw [hreduced]
    change ((((dialect.joinedShifts rotation (.scalar name) (.scalar shift)).compute other _).map _).map
      _) = _
    rw [hjoined]
    simp only [Option.map_some, Memory.set_set, Memory.set_vars, hamount.set_eq hrun, Option.bind_some]

/-- **A rotation evaluates its value and then its amount, and gives the rotated word.** -/
theorem compute_rotate (hwidth : 1 ≤ rotation.bits ∧ rotation.bits ≤ 64) (below : Below) (c : Context)
    (s : State) (hamount : Ignores (s.names.fresh "value").1 (amount.compute other)) :
    (rotate value amount rotation below c s).1.compute other = (do
      let v ← value.compute other
      let n ← amount.compute other
      return rotation.apply v n) := by
  have hmasked := (runs_dialect other).masked (rotates_wrapping64 hwidth.2) value
  obtain ⟨s', ⟨text, rfl, htext, hrotate⟩ | hrotate⟩ := rotate_cases value amount rotation below c s
  · rw [hrotate, compute_doBlock, compute_block, hmasked, compute_result, bind_assoc]
    simp only [pure_bind, withLocal_literal hwidth.2 htext]
  · have hne : (s.names.fresh "value").1 ≠ ((s.names.fresh "value").2.fresh "shift").1 :=
      fresh_ne (a := 'v') (b := 's') (by decide)
    rw [hrotate, compute_doBlock, compute_block, hmasked, compute_block, compute_result,
      bind_assoc]
    simp only [pure_bind, withLocal_amount hwidth hne hamount]

end Scriptgen.Perl

namespace Scriptgen.Ruby

open Words Lowering

variable {W : Type} {other : Expr → Computation Var W Int}
variable {m : Memory Var W} {rotation : Rotation} {value amount : Expr}

/-! ### What a rotation becomes -/

theorem rotate_cases (value amount : Expr) (rotation : Rotation) (below : Below) (c : Context)
    (s : State) : ∃ s',
    (∃ text, amount = .number text ∧ rotation.inRange text = true ∧
      rotate value amount rotation below c s =
        (.begin [.set (.localVar (s.names.fresh "value").1) (dialect.maskedBy rotation.mask value),
          .ofExpr (dialect.joinedShifts rotation (.localVar (s.names.fresh "value").1)
            (.number text))], s')) ∨
    rotate value amount rotation below c s =
      (.begin [.set (.localVar (s.names.fresh "value").1) (dialect.maskedBy rotation.mask value),
        .set (.localVar ((s.names.fresh "value").2.fresh "shift").1)
          (dialect.binary .mod amount (dialect.int rotation.bits)),
        .ofExpr (dialect.joinedShifts rotation (.localVar (s.names.fresh "value").1)
          (.localVar ((s.names.fresh "value").2.fresh "shift").1))], s') := by
  have hmasked : (binary .bitAnd value (hex rotation.mask)).isSimple = false := rfl
  have hreduced : (binary .mod amount (.int rotation.bits)).isSimple = false := rfl
  unfold rotate Dialect.joinedShifts
  simp only [run_bind, shared_of_not_isSimple hmasked]
  split
  · rename_i text
    cases htext : rotation.inRange text with
    | true => cases rotation.left <;> exact ⟨_, .inl ⟨text, rfl, htext, rfl⟩⟩
    | false =>
      simp only [Bool.false_eq_true, if_false, run_bind, shared_of_not_isSimple hreduced]
      cases rotation.left <;> exact ⟨_, .inr rfl⟩
  · simp only [run_bind, shared_of_not_isSimple hreduced]
    cases rotation.left <;> exact ⟨_, .inr rfl⟩

/-! ### What it does -/

theorem setting_literal {text : String} (htext : rotation.inRange text = true) (name : String) (v : Int) :
    (do
      modify (·.set (.plain, name) (lowBits rotation.bits v : Int))
      (dialect.joinedShifts rotation (.localVar name) (.number text)).compute other :
        Computation Var W Int) = (do
      let n ← (Expr.number text).compute other
      modify (·.set (.plain, name) (lowBits rotation.bits v : Int))
      return rotation.apply v n) := by
  funext m
  refine ((runs_dialect other).joinedShifts_literal (rotates_unbounded _) (v := v) htext
    ((compute_localVar name (m.set (.plain, name) (lowBits rotation.bits v))).trans
      (by rw [Memory.vars_set_self]))).trans ?_
  rw [compute_number]
  cases Text.integerLiteral? text.toList <;> rfl

theorem setting_amount (hbits : 1 ≤ rotation.bits) {name shift : String} (hne : name ≠ shift)
    (hamount : Ignores (.plain, name) (amount.compute other)) (v : Int) :
    (do
      modify (·.set (.plain, name) (lowBits rotation.bits v : Int))
      let y ← (dialect.binary .mod amount (dialect.int rotation.bits)).compute other
      modify (·.set (.plain, shift) y)
      (dialect.joinedShifts rotation (.localVar name) (.localVar shift)).compute other :
        Computation Var W Int) = (do
      let n ← amount.compute other
      modify fun m => (m.set (.plain, name) (lowBits rotation.bits v : Int)).set (.plain, shift)
        (n % rotation.bits)
      return rotation.apply v n) := by
  funext m
  change ((dialect.binary .mod amount (dialect.int rotation.bits)).compute other
      (m.set (.plain, name) (lowBits rotation.bits v))).bind _ = (amount.compute other m).bind _
  cases hrun : amount.compute other m with
  | none =>
    rw [(runs_dialect other).reduced_none hamount hrun]
    rfl
  | some result =>
    have hkey : ((.plain, name) : Var) ≠ (.plain, shift) := fun h => hne (congrArg Prod.snd h)
    obtain ⟨hreduced, hjoined⟩ := (runs_dialect other).joinedShifts_amount (rotates_unbounded _)
      (v := v) hbits hkey hamount hrun (compute_localVar name) (compute_localVar shift)
    rw [hreduced]
    exact hjoined

/-- **A rotation evaluates its value and then its amount, and gives the rotated word.** Apart from
its operands it only sets variables that are made up. -/
theorem compute_rotate (hbits : 1 ≤ rotation.bits) (below : Below) (c : Context) (s : State)
    (hamount : Ignores (.plain, (s.names.fresh "value").1) (amount.compute other)) :
    ∃ after : Int → Int → Memory Var W → Memory Var W,
      (∀ v n, SetsOnly IsTemporaryVar (after v n)) ∧
      (rotate value amount rotation below c s).1.compute other = (do
        let v ← value.compute other
        let n ← amount.compute other
        modify (after v n)
        return rotation.apply v n) := by
  have hvalueName : IsTemporaryVar (.plain, (s.names.fresh "value").1) := ⟨rfl, isTemporary_fresh _ _⟩
  have hmasked := (runs_dialect other).masked (rotates_unbounded rotation.bits) value
  obtain ⟨s', ⟨text, rfl, htext, hrotate⟩ | hrotate⟩ := rotate_cases value amount rotation below c s
  · refine ⟨_, fun v n => .set hvalueName (lowBits rotation.bits v), ?_⟩
    rw [hrotate, compute_begin, compute_set, hmasked, compute_result, bind_assoc]
    simp only [pure_bind, setting_literal htext]
  · have hne : (s.names.fresh "value").1 ≠ ((s.names.fresh "value").2.fresh "shift").1 :=
      fresh_ne (a := 'v') (b := 's') (by decide)
    have hshiftName : IsTemporaryVar (.plain, ((s.names.fresh "value").2.fresh "shift").1) :=
      ⟨rfl, isTemporary_fresh _ _⟩
    refine ⟨_, fun v n => .comp (.set hvalueName (lowBits rotation.bits v))
      (.set hshiftName (n % rotation.bits)), ?_⟩
    rw [hrotate, compute_begin, compute_set, hmasked, compute_set, compute_result, bind_assoc]
    simp only [pure_bind, setting_amount hbits hne hamount]

end Scriptgen.Ruby

namespace Scriptgen

open Words Lowering

/-- **Rotations rotate, and evaluate their operands once.** In both targets a rotation of a width
from 1 to 64 is the computation that evaluates the value, then the amount, and gives the low bits of
the value rotated by the amount modulo the width, whatever the operands are and do. The amount is one
that has nothing to do with the name that is made up for the value. In Ruby that name and one for the
amount keep what they are set to. -/
theorem rotations_evaluate {W : Type} {rotation : Rotation}
    (hwidth : 1 ≤ rotation.bits ∧ rotation.bits ≤ 64) :
    (∀ (other : Perl.Expr → Computation String W Int) (value amount : Perl.Expr) below c
        (s : Perl.State), Ignores (s.names.fresh "value").1 (amount.compute other) →
      (Perl.rotate value amount rotation below c s).1.compute other = (do
        let v ← value.compute other
        let n ← amount.compute other
        return rotation.apply v n)) ∧
    ∀ (other : Ruby.Expr → Computation (Ruby.VarKind × String) W Int) (value amount : Ruby.Expr) below
        c (s : Ruby.State), Ignores (.plain, (s.names.fresh "value").1) (amount.compute other) →
      ∃ after : Int → Int → Memory (Ruby.VarKind × String) W → Memory (Ruby.VarKind × String) W,
        (∀ v n, SetsOnly Ruby.IsTemporaryVar (after v n)) ∧
        (Ruby.rotate value amount rotation below c s).1.compute other = (do
          let v ← value.compute other
          let n ← amount.compute other
          modify (after v n)
          return rotation.apply v n) :=
  ⟨fun _ _ _ below c s hamount => Perl.compute_rotate hwidth below c s hamount,
    fun _ _ _ below c s hamount => Ruby.compute_rotate hwidth.1 below c s hamount⟩

/-! ## A name that is made up and a name of the program -/

theorem Perl.ignores_scalar {W : Type} (other : Perl.Expr → Computation String W Int) {x name : String}
    (h : x ≠ name) : Ignores name ((Perl.Expr.scalar x).compute other) := by
  intro m v
  rw [Perl.compute_scalar, Perl.compute_scalar, Memory.vars_set_of_ne _ _ h]
  rfl

/-- A memory where `a` is 5 and all other variables are 3. -/
def fiveAndThrees : Memory String Unit := ⟨fun x => if x = "a" then 5 else 3, ()⟩

/-- Five is rotated by three to the left. -/
theorem rotations_evaluate_by_three :
    (Perl.rotate (.scalar "a") (.scalar "n") ⟨32, true⟩ (Perl.level 0) .initial
        .initial).1.compute (fun _ => failure) fiveAndThrees =
      some (40, fiveAndThrees) := by
  have hwidth : 1 ≤ (⟨32, true⟩ : Rotation).bits ∧ (⟨32, true⟩ : Rotation).bits ≤ 64 := by decide
  have hn : Ignores (Perl.State.initial.names.fresh "value").1
      ((Perl.Expr.scalar "n").compute fun _ => (failure : Computation String Unit Int)) :=
    Perl.ignores_scalar _ (by decide)
  rw [(rotations_evaluate hwidth).1 _ _ _ _ _ _ hn]
  rfl

/-- **A name that is made up may be one of the program.** If the amount is the variable that has the
name that is made up for the value, five is not rotated by three, which gives 40, but by itself. -/
theorem rotation_captures_amount :
    (⟨32, true⟩ : Rotation).apply 5 3 = 40 ∧
    (Perl.Expr.scalar "__value_1").compute (fun _ => failure) fiveAndThrees = some (3, fiveAndThrees) ∧
    ((Perl.rotate (.scalar "a") (.scalar "__value_1") ⟨32, true⟩ (Perl.level 0) .initial
        .initial).1.compute (fun _ => failure) fiveAndThrees).map Prod.fst =
      some 160 := by
  refine ⟨by decide, Perl.compute_scalar _ _, ?_⟩
  decide +kernel

end Scriptgen
