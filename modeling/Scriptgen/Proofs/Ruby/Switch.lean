import Scriptgen.Proofs.Ruby.Words
import Scriptgen.Proofs.Switch.Arms
/-!
# Switches in Ruby

A switch becomes a chain of conditions after its value is set to a variable, in a loop if an arm
breaks out of it, and under a tag if a jump needs one. `Runs` says what a chain runs, and
`switchStmt_selects` that this is the arm of the case that the switch selects.
-/

namespace Scriptgen.Ruby

open Switch Lowering

/-! ## What a chain runs -/

/-- The integer that an operand of a comparison is. A literal may have a sign. -/
def Expr.operand? (env : VarKind → String → Int) : Expr → Option Int
  | .number text =>
    match text.toList with
    | '-' :: digits => (Text.integerLiteral? digits).map fun n => -Int.ofNat n
    | digits => (Text.integerLiteral? digits).map Int.ofNat
  | e => e.integer? env

def Expr.holds? (env : VarKind → String → Int) : Expr → Option Bool
  | .binary .or left right _ _ => do
    if ← left.holds? env then return true
    else right.holds? env
  | .binary .eq left right _ _ => do
    return decide ((← left.operand? env) = (← right.operand? env))
  | _ => none

/-- What a chain runs where variables have these values. -/
abbrev Runs (env : VarKind → String → Int) : Bool → List Stmt → List Stmt → Prop :=
  Switch.Runs (Expr.holds? env) fun cond body rest last => .plain (.ifElse cond body rest last)

variable {env : VarKind → String → Int} {label : Node → Int} {text : String}

theorem ne_minus_of_denotes {n : Nat} (h : Text.Denotes text n)
    (digits : List Char) : text.toList ≠ '-' :: digits := by
  intro htext
  have hminus : Text.integerLiteral? ('-' :: digits) = none := by
    simp [Text.integerLiteral?, Text.numeral?, Text.isNumeralIn, Text.isDigitIn, Text.hexDigit?]
  have hread := h.read
  rw [htext, hminus] at hread
  cases hread

/-- **A text spells an integer**: the digits of a number, after a minus if it is a negative. -/
inductive SpellsInt : String → Int → Prop
  | natural {text : String} {n : Nat} : Text.Denotes text n → SpellsInt text n
  | negated {text : String} {n : Nat} : Text.Denotes text n → SpellsInt ("-" ++ text) (-n)

theorem operand?_number {n : Int} (h : SpellsInt text n) :
    (Expr.number text).operand? env = some n := by
  rw [Expr.operand?]
  cases h with
  | natural h =>
    split
    · rename_i digits htext
      exact absurd htext (ne_minus_of_denotes h digits)
    · rw [h.read]
      rfl
  | @negated text n h =>
    rw [String.toList_append, show ("-" : String).toList ++ text.toList = '-' :: text.toList from rfl]
    simp only [h.read, Option.map_some]
    rfl

theorem negate_of_denotes {n : Nat} (h : Text.Denotes text n) :
    unary .neg (.number text) = .number ("-" ++ text) := by
  change Expr.number (negatedText text) = _
  rw [negatedText]
  split
  · rename_i digits htext
    exact absurd htext (ne_minus_of_denotes h digits)
  · rfl

theorem holds?_or (a b : Expr) (x y : Bool) (ha : a.holds? env = some x)
    (hb : b.holds? env = some y) : (binary .or a b).holds? env = some (x || y) := by
  rw [binary, Expr.holds?, ha]
  cases x
  · exact hb
  · rfl

theorem holds?_eq {var : String} {e : Expr} {n : Int} (he : e.operand? env = some n) :
    (binary .eq (.localVar var) e).holds? env = some (decide (n = env .plain var)) := by
  have hvar : (Expr.localVar var).operand? env = some (env .plain var) := by
    rw [Expr.localVar, Expr.operand?, Expr.integer?]
    rintro _ ⟨⟩
  rw [binary, Expr.holds?, hvar, he]
  simp [eq_comm]

theorem switchChain_eq (arms : List (Option (List Expr) × List Stmt)) :
    switchChain arms =
      chainOf (binary .or) (fun cond body rest last => .plain (.ifElse cond body rest last)) arms := by
  rw [switchChain, filterMap_eq_conditions (binary .or) arms, chainOf]
  · cases conditions (binary .or) arms <;> rfl
  · exact fun _ => rfl
  · exact fun _ => rfl
  · exact fun _ _ _ => rfl

/-! ## Lowering -/

variable {node : Node} {height : Nat} {context : Context}

theorem level_expr_of_untagged (h : node.unwrapped.tagged = false) (hh : node.height ≤ height) :
    ∃ lower, height = lower + 1 ∧ ∀ context s, (level height).expr node context s =
      (plainExpr node.unwrapped).run (level lower) context s := by
  obtain ⟨lower, rfl⟩ := Node.exists_lower hh
  exact ⟨lower, rfl, lowerExpr_of_untagged h (level lower)⟩

theorem lowers_number {number : Json.Number} (h : IsNumber node number) (hh : node.height ≤ height)
    (s : State) : (level height).expr node context s =
      (some (.number (numberText number.toBinary64 (node.unwrapped.text? "raw"))), s) := by
  obtain ⟨lower, rfl, heq⟩ := level_expr_of_untagged h.tagged hh
  rw [heq, plainExpr, h.type]
  change (some (literal node.unwrapped), s) = _
  simp only [literal, h.regex, h.bigint, h.value]

theorem lowers_integerLiteral {n : Nat} (h : IntegerLiteral node n) (hh : node.height ≤ height)
    (s : State) : ∃ text, (level height).expr node context s = (some (.number text), s) ∧
      Text.Denotes text n := by
  obtain ⟨number, hnumber, hdenotes⟩ := h.denotes
  exact ⟨_, lowers_number hnumber hh s, hdenotes⟩

theorem lowers_integerLabel {n : Int} (h : IntegerLabel node n) (hh : node.height ≤ height)
    (s : State) : ∃ text, (level height).expr node context s = (some (.number text), s) ∧
      SpellsInt text n := by
  cases h with
  | @literal n h =>
    obtain ⟨text, hlower, hdenotes⟩ := lowers_integerLiteral h hh s
    exact ⟨text, hlower, .natural hdenotes⟩
  | @negated argument n htag htype hop harg h =>
    obtain ⟨lower, rfl, heq⟩ := level_expr_of_untagged htag hh
    have hargument := Node.height_le_lower harg hh
    obtain ⟨text, hlower, hdenotes⟩ := @lowers_integerLiteral _ _ context _ h hargument s
    rw [← level_expr_unwrapped] at hlower
    refine ⟨_, ?_, .negated hdenotes⟩
    rw [← negate_of_denotes hdenotes, heq, plainExpr, htype]
    change (unaryExpr node.unwrapped).run (level lower) context s = _
    rw [unaryExpr]
    simp only [attempt_bind, need_run, hop, harg, attempt_lift, value_of_expr hlower]
    rfl

theorem value_integerLabel {n : Int} (h : IntegerLabel node n) (hh : node.height ≤ height)
    (s : State) : ∀ env, (value node (level height) context s).1.operand? env = some n := by
  intro env
  obtain ⟨text, hlower, hspells⟩ := @lowers_integerLabel _ _ context _ h hh s
  rw [value_of_expr hlower]
  exact operand?_number hspells

theorem ensures_switchArm {arm : SwitchArm} (var : String)
    (htests : ∀ test ∈ arm.tests, IntegerLabel test (label test) ∧ test.height ≤ height) :
    Ensures (fun _ => True) (level height) context (switchArm (.localVar var) arm)
      (LowersArm (level height) context scopedStmts
        (fun test cond => ∀ env, cond.holds? env = some (decide (label test = env .plain var)))
        arm) := by
  refine ensures_arm fun test htest s _ => ⟨trivial, fun env => ?_⟩
  obtain ⟨hlabel, hheight⟩ := htests test htest
  exact holds?_eq (value_integerLabel hlabel hheight _ env)

theorem switchStmt_selects (h : Labelled label (node.children "cases"))
    (hh : node.height ≤ height) (name : Option String) (s : State) :
    ∃ tag var tested stmts bodies,
      (switchStmt node name (level height) context s).1 =
        catching tag (.set (.localVar var)
            (valueOf (node.child? "discriminant") (level height) context s).1 ::
          if hasOwnBreak (switchArms (node.children "cases")) then [inSingleLoop stmts]
          else stmts) ∧
      List.Forall₂ (fun (arm : SwitchArm) body =>
          ∃ s, (scopedStmts arm.body (level height) context s).1 = body)
        (switchArms (node.children "cases")) bodies ∧
      Selects label (node.children "cases") bodies
        (fun v body => ∀ env, env .plain var = v → Runs env tested stmts body) [] := by
  -- The state in which the arms are lowered, and what they are lowered to.
  let start := (valueOf (node.child? "discriminant") (level height) context s).2
  let var := (fresh "switch" (level height) context start).1
  let inside := (fresh "switch" (level height) context start).2
  let frame : Frame :=
    { kind := .switch (hasOwnBreak (switchArms (node.children "cases"))), label := name }
  let entered : State := { inside with frames := frame :: inside.frames }
  let lowered := ((switchArms (node.children "cases")).mapM (switchArm (.localVar var))
    (level height) context entered).1
  have hlowered := (Ensures.mapM (fun arm harm =>
    @ensures_switchArm _ _ context arm var (h.of_mem_tests hh harm)) entered trivial).2
  exact ⟨_, var, _, switchChain lowered, lowered.map (·.2), rfl,
    Selects.of_lowered h hlowered fun env v arms harms => by
      rw [switchChain_eq]
      exact runs_chainOf (@holds?_or env) harms⟩

end Scriptgen.Ruby
