import Scriptgen.Proofs.Perl.Words
import Scriptgen.Proofs.Switch.Arms
/-!
# Switches in Perl

A switch becomes a block that binds its value to a variable and goes through a chain of conditions.
`Runs` says what such a chain runs where the variables have given values, and `switchStmt_selects`
that this is the arm of the case that the switch selects.
-/

namespace Scriptgen.Perl

open Switch Lowering

/-! ## What a chain runs -/

def Expr.operand? (env : String → Int) : Expr → Option Int
  | .unary .neg operand _ => (operand.integer? env).map fun n => -n
  | e => e.integer? env

def Expr.holds? (env : String → Int) : Expr → Option Bool
  | .binary .or left right _ _ => do
    if ← left.holds? env then return true
    else right.holds? env
  | .binary .numEq left right _ _ => do
    return decide ((← left.operand? env) = (← right.operand? env))
  | _ => none

/-- What a chain runs where variables have these values. -/
abbrev Runs (env : String → Int) : Bool → List Stmt → List Stmt → Prop :=
  Switch.Runs (Expr.holds? env) fun cond body rest last => .plain (.ifElse cond body rest last)

variable {env : String → Int}

theorem holds?_or (a b : Expr) (x y : Bool) (ha : a.holds? env = some x)
    (hb : b.holds? env = some y) : (binary .or a b).holds? env = some (x || y) := by
  rw [binary, Expr.holds?, ha]
  cases x
  · exact hb
  · rfl

theorem holds?_numEq {var : String} {e : Expr} {n : Int} (he : e.operand? env = some n) :
    (binary .numEq (.scalar var) e).holds? env = some (decide (n = env var)) := by
  have hvar : (Expr.scalar var).operand? env = some (env var) := integer?_scalar var
  rw [binary, Expr.holds?, hvar, he]
  simp [eq_comm]

theorem switchChain_eq (arms : List (Option (List Expr) × List Stmt)) :
    switchChain arms =
      chainOf (binary .or) (fun cond body rest last => .plain (.ifElse cond body rest last)) arms := by
  rw [switchChain, filterMap_eq_conditions (binary .or) arms, chainOf]
  · cases conditions (binary .or) arms <;> rfl
  · exact fun _ => rfl
  · exact fun _ => rfl
  · exact fun _ _ _ => rfl

variable {label : Node → Int}

/-! ## Lowering -/

variable {node : Node} {height : Nat} {context : Context}

theorem lowers_number {number : Json.Number} (h : IsNumber node number) (hh : node.height ≤ height)
    (s : State) : (level height).expr node context s =
      (some (.number (numberText number.toBinary64 (node.unwrapped.text? "raw"))), s) := by
  obtain ⟨lower, rfl, heq⟩ := level_expr_of_untagged h.tagged hh
  rw [heq, plainExpr, h.type]
  change (some (literal node.unwrapped), s) = _
  simp only [literal, h.regex, h.bigint, h.value]

theorem lowers_integerLiteral {n : Nat} (h : IntegerLiteral node n) (hh : node.height ≤ height)
    (s : State) : ∃ text, (level height).expr node context s = (some (.number text), s) ∧
      Text.Denotes text n := by
  obtain ⟨number, hnumber, hdenotes⟩ := h.denotes
  exact ⟨_, lowers_number hnumber hh s, hdenotes⟩

theorem value_integerLabel {n : Int} (h : IntegerLabel node n) (hh : node.height ≤ height)
    (s : State) : ∀ env, (value node (level height) context s).1.operand? env = some n := by
  intro env
  cases h with
  | @literal n h =>
    obtain ⟨text, hlower, hdenotes⟩ := @lowers_integerLiteral _ _ context _ h hh s
    rw [value_of_expr hlower, Expr.operand?, Expr.integer?, hdenotes.read]
    · rfl
    · rintro _ _ ⟨⟩
  | @negated argument n htag htype hop harg h =>
    obtain ⟨lower, rfl, heq⟩ := level_expr_of_untagged htag hh
    have hargument := Node.height_le_lower harg hh
    obtain ⟨text, hlower, hdenotes⟩ := @lowers_integerLiteral _ _ context _ h hargument s
    have hneg : (level (lower + 1)).expr node context s =
        (some (unary .neg (.number text)), s) := by
      rw [heq, plainExpr, htype]
      change (unaryExpr node.unwrapped).run (level lower) context s = _
      rw [unaryExpr]
      simp only [attempt_bind, need_run, hop, harg, attempt_lift, value_of_expr hlower]
      rfl
    rw [value_of_expr hneg, unary, Expr.operand?, Expr.integer?, hdenotes.read]
    rfl

theorem ensures_switchArm {arm : SwitchArm} (var : String)
    (htests : ∀ test ∈ arm.tests, IntegerLabel test (label test) ∧ test.height ≤ height) :
    Ensures (fun _ => True) (level height) context (switchArm var arm)
      (LowersArm (level height) context scopedStmts
        (fun test cond => ∀ env, cond.holds? env = some (decide (label test = env var))) arm) := by
  refine ensures_arm fun test htest s _ => ⟨trivial, fun env => ?_⟩
  obtain ⟨hlabel, hheight⟩ := htests test htest
  rw [caseTest]
  cases test.stringValue? <;> exact holds?_numEq (value_integerLabel hlabel hheight _ env)

/-- **A switch runs the arm of the case that it selects.** -/
theorem switchStmt_selects (h : Labelled label (node.children "cases"))
    (hh : node.height ≤ height) (name : Option String) (s : State) :
    ∃ target var tested stmts bodies,
      (switchStmt node name (level height) context s).1 =
        .plain (.block target (.my var .scalar
          (some (valueOf (node.child? "discriminant") (level height) context s).1) :: stmts)) ∧
      List.Forall₂ (fun (arm : SwitchArm) body =>
          ∃ s, (scopedStmts arm.body (level height) context s).1 = body)
        (switchArms (node.children "cases")) bodies ∧
      Selects label (node.children "cases") bodies
        (fun v body => ∀ env, env var = v → Runs env tested stmts body) [] := by
  -- The state in which the arms are lowered, and what they are lowered to.
  let start := (valueOf (node.child? "discriminant") (level height) context s).2
  let var := (fresh "switch" (level height) context start).1
  let inside := (fresh "switch" (level height) context start).2
  let entered : State := { inside with frames := ⟨.switch, name⟩ :: inside.frames }
  let lowered := ((switchArms (node.children "cases")).mapM (switchArm var) (level height) context
    entered).1
  have hlowered := (Ensures.mapM (fun arm harm =>
    @ensures_switchArm _ _ context arm var (h.of_mem_tests hh harm)) entered trivial).2
  exact ⟨_, var, _, switchChain lowered, lowered.map (·.2), rfl,
    Selects.of_lowered h hlowered fun env v arms harms => by
      rw [switchChain_eq]
      exact runs_chainOf (@holds?_or env) harms⟩

end Scriptgen.Perl
