import Scriptgen.Proofs.Perl.Switch
import Scriptgen.Proofs.Ruby.Switch
import Scriptgen.Proofs.Words.Lowering
/-!
# Switches run the arm of the selected case

Every switch whose labels are different integers runs the arm of the selected case, in both targets
(`switch_runs_selected_arm`). An integer from `2 ^ 53` on is only a label there if its spelling is
kept: the shortest decimal of its double is another integer to the targets (`hugeLabel_missed`).
-/

namespace Scriptgen

open Switch

/-- **A switch runs the arm of the case that it selects.** The chain that follows the variable with
the value of the switch runs what the arm with that case was lowered to, and nothing if no case is
selected, whatever integer the variable has. -/
theorem switch_runs_selected_arm {node : Node} {label : Node → Int}
    (h : Labelled label (node.children "cases")) {height : Nat} (hh : node.height ≤ height) :
    (∀ (name : Option String) (context : Perl.Context) (s : Perl.State),
      ∃ target var tested stmts bodies,
        (Perl.switchStmt node name (Perl.level height) context s).1 =
          .plain (.block target (.my var .scalar
            (some (Perl.valueOf (node.child? "discriminant") (Perl.level height) context s).1) ::
              stmts)) ∧
        List.Forall₂ (fun (arm : SwitchArm) body =>
            ∃ s, (Perl.scopedStmts arm.body (Perl.level height) context s).1 = body)
          (switchArms (node.children "cases")) bodies ∧
        Selects label (node.children "cases") bodies
          (fun v body => ∀ env, env var = v → Perl.Runs env tested stmts body) []) ∧
    (∀ (name : Option String) (context : Ruby.Context) (s : Ruby.State),
      ∃ tag var tested stmts bodies,
        (Ruby.switchStmt node name (Ruby.level height) context s).1 =
          Ruby.catching tag (.set (.localVar var)
              (Ruby.valueOf (node.child? "discriminant") (Ruby.level height) context s).1 ::
            if hasOwnBreak (switchArms (node.children "cases")) then [Ruby.inSingleLoop stmts]
            else stmts) ∧
        List.Forall₂ (fun (arm : SwitchArm) body =>
            ∃ s, (Ruby.scopedStmts arm.body (Ruby.level height) context s).1 = body)
          (switchArms (node.children "cases")) bodies ∧
        Selects label (node.children "cases") bodies
          (fun v body => ∀ env, env .plain var = v → Ruby.Runs env tested stmts body) []) :=
  ⟨fun name _ s => Perl.switchStmt_selects h hh name s,
    fun name _ s => Ruby.switchStmt_selects h hh name s⟩

namespace Switch

/-- The literal of a number, or its negative. -/
def labelNode : Int → Node
  | .ofNat n => (Words.Tree.literal n).node
  | .negSucc n =>
    .of "UnaryExpression" [("operator", .string "-"),
      ("argument", (Words.Tree.literal (n + 1)).node.toJson)]

/-- The label that a node of `labelNode` has. -/
def labelOf (node : Node) : Int :=
  match node.child? "argument", node.field? "value" with
  | some argument, _ =>
    match argument.field? "value" with
    | some (.number (.integer n)) => -n
    | _ => 0
  | none, some (.number (.integer n)) => n
  | _, _ => 0

def caseNode (label : Option Int) (body : List Node) : Node :=
  ⟨("type", .string "SwitchCase") :: ("consequent", .array (body.map Node.toJson)) ::
    (label.map fun n => ("test", (labelNode n).toJson)).toList⟩

/-- The switch `switch (x) { case 2: a; case 1: default: b; break; case -3: case 4: }`. -/
def mixedSwitch : Node :=
  let name (x : String) : Node := .of "Identifier" [("name", .string x)]
  let run (x : String) : Node :=
    .of "ExpressionStatement" [("expression", (name x).toJson)]
  .of "SwitchStatement" [("discriminant", (name "x").toJson),
    ("cases", .array ([caseNode (some 2) [run "a"], caseNode (some 1) [],
      caseNode none [run "b", .of "BreakStatement" []],
      caseNode (some (-3)) [], caseNode (some 4) []].map Node.toJson))]

theorem integerLabel_labelNode {n : Int} (h : n.natAbs < 2 ^ 53) :
    IntegerLabel (labelNode n) n := by
  cases n with
  | ofNat n => exact .literal (.exact (Words.writes_node (by simpa [Words.Tree.isExact] using h)))
  | negSucc n =>
    have hself : (labelNode (.negSucc n)).unwrapped = labelNode (.negSucc n) :=
      Node.unwrapped_of_wrapped? rfl
    have hliteral : IntegerLiteral (Words.Tree.literal (n + 1)).node (n + 1) :=
      .exact (Words.writes_node (by simpa [Words.Tree.isExact] using h))
    exact .negated (by rw [hself]; rfl) (by rw [hself]; rfl) (by rw [hself]; rfl)
      (by rw [hself]; rfl) hliteral

theorem labelled_mixedSwitch : Labelled labelOf (mixedSwitch.children "cases") where
  integer case hcase test htest := by
    have hmem : test ∈ (mixedSwitch.children "cases").filterMap testOf :=
      List.mem_filterMap.2 ⟨case, hcase, htest⟩
    have htests : (mixedSwitch.children "cases").filterMap testOf =
        [2, 1, -3, 4].map labelNode := rfl
    rw [htests, List.mem_map] at hmem
    obtain ⟨n, hn, rfl⟩ := hmem
    have hlabel : ∀ n ∈ [2, 1, -3, 4], labelOf (labelNode n) = n ∧ n.natAbs < 2 ^ 53 := by decide
    rw [(hlabel n hn).1]
    exact integerLabel_labelNode (hlabel n hn).2
  distinct := by decide
  default := by decide

end Switch

theorem switch_runs_selected_arm_mixedSwitch :
    selectedCase labelOf 7 (mixedSwitch.children "cases") = (mixedSwitch.children "cases")[2]? ∧
    (∃ target var tested stmts bodies,
        (Perl.switchStmt mixedSwitch none (Perl.level 9) .initial .initial).1 =
          .plain (.block target (.my var .scalar
            (some (Perl.valueOf (mixedSwitch.child? "discriminant") (Perl.level 9) .initial
              .initial).1) :: stmts)) ∧
        List.Forall₂ (fun (arm : SwitchArm) body =>
            ∃ s, (Perl.scopedStmts arm.body (Perl.level 9) .initial s).1 = body)
          (switchArms (mixedSwitch.children "cases")) bodies ∧
        Selects labelOf (mixedSwitch.children "cases") bodies
          (fun v body => ∀ env, env var = v → Perl.Runs env tested stmts body) []) ∧
    ∃ tag var tested stmts bodies,
        (Ruby.switchStmt mixedSwitch none (Ruby.level 9) .initial .initial).1 =
          Ruby.catching tag (.set (.localVar var)
              (Ruby.valueOf (mixedSwitch.child? "discriminant") (Ruby.level 9)
                .initial .initial).1 ::
            if hasOwnBreak (switchArms (mixedSwitch.children "cases"))
            then [Ruby.inSingleLoop stmts] else stmts) ∧
        List.Forall₂ (fun (arm : SwitchArm) body =>
            ∃ s, (Ruby.scopedStmts arm.body (Ruby.level 9) .initial s).1 =
              body)
          (switchArms (mixedSwitch.children "cases")) bodies ∧
        Selects labelOf (mixedSwitch.children "cases") bodies
          (fun v body => ∀ env, env .plain var = v → Ruby.Runs env tested stmts body) [] := by
  have h := @switch_runs_selected_arm mixedSwitch labelOf labelled_mixedSwitch 9 (by decide)
  exact ⟨rfl, h.1 none _ _, h.2 none _ _⟩

/-! ## A label that is not kept -/

/-- The switch `switch (x) { case 1152921504606846976: return; }`, its label without a spelling. -/
def hugeSwitch : Node :=
  .of "SwitchStatement" [
    ("discriminant", .node "Identifier" [("name", .string "x")]),
    ("cases", .array [(caseNode (some (2 ^ 60)) [.of "ReturnStatement" []]).toJson])]

/-- The condition for the label `2 ^ 60` does not hold for it. -/
theorem hugeLabel_missed :
    selectedCase labelOf (2 ^ 60) (hugeSwitch.children "cases") =
      (hugeSwitch.children "cases")[0]? ∧
    (∃ target var value cond body,
      (Perl.switchStmt hugeSwitch none (Perl.level 9) .initial .initial).1 =
        .plain (.block target [.my var .scalar (some value), .plain (.ifElse cond body [] none)]) ∧
      ∀ env, env var = 2 ^ 60 → Perl.Expr.holds? env cond = some false) ∧
    ∃ tag var value cond body,
      (Ruby.switchStmt hugeSwitch none (Ruby.level 9) .initial .initial).1 =
        Ruby.catching tag (.set (.localVar var) value ::
          if hasOwnBreak (switchArms (hugeSwitch.children "cases"))
          then [Ruby.inSingleLoop [.plain (.ifElse cond body [] none)]]
          else [.plain (.ifElse cond body [] none)]) ∧
      ∀ env, env .plain var = 2 ^ 60 → Ruby.Expr.holds? env cond = some false := by
  have hself : (labelNode (2 ^ 60)).unwrapped = labelNode (2 ^ 60) :=
    Node.unwrapped_of_wrapped? rfl
  have hnumber : IsNumber (labelNode (2 ^ 60)) (.integer ((2 ^ 60 : Nat) : Int)) := by
    constructor <;> rw [hself] <;> rfl
  have htext : numberText (Json.Number.integer ((2 ^ 60 : Nat) : Int)).toBinary64
      ((labelNode (2 ^ 60)).unwrapped.text? "raw") = "1152921504606847000" := by
    rw [hself]
    decide +kernel
  refine ⟨rfl, ⟨_, _, _, _, _, rfl, fun env henv => ?_⟩,
    ⟨_, _, _, _, _, rfl, fun env henv => ?_⟩⟩
  · have hvalue (s : Perl.State) : (Perl.value (labelNode (2 ^ 60)) (Perl.level 9) .initial
        s).1.operand? env = some 1152921504606847000 := by
      rw [Perl.value_of_expr (Perl.lowers_number hnumber (by decide) s), htext]
      rfl
    refine (Perl.holds?_numEq (hvalue _)).trans ?_
    rw [henv]
    decide
  · have hvalue (s : Ruby.State) : (Ruby.value (labelNode (2 ^ 60)) (Ruby.level 9)
        .initial s).1.operand? env = some 1152921504606847000 := by
      rw [Ruby.value_of_expr (Ruby.lowers_number hnumber (by decide) s), htext]
      rfl
    refine (Ruby.holds?_eq (hvalue _)).trans ?_
    rw [henv]
    decide

end Scriptgen
