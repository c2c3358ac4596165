import Mathlib.Data.List.Basic
import Mathlib.Data.List.Induction
import Scriptgen.Source.Hoist
/-!
# Hoisted variables

`nestedVars` goes through the statements of a function block by block and leaves out names that it
has met. Here they are walked in the order of the text (`Node.walk`), and the scan is shown to give
the first variable of each name on the walk (`nestedVars_first_of_name`).
-/

namespace Scriptgen

open List

/-- The statements that a statement is made of, in the order of the text. What stands in functions,
classes, expressions and the heads of loops is no part. -/
def Node.innerParts (stmt : Node) : List Node :=
  match stmt.type with
  | "BlockStatement" => stmt.children "body"
  | "IfStatement" => (stmt.child? "consequent").toList ++ (stmt.child? "alternate").toList
  | "ForStatement" | "ForOfStatement" | "ForInStatement" | "WhileStatement" | "DoWhileStatement"
  | "LabeledStatement" => (stmt.child? "body").toList
  | "TryStatement" =>
    (stmt.child? "block").toList ++ (stmt.child? "handler" >>= (·.child? "body")).toList ++
      (stmt.child? "finalizer").toList
  | "SwitchStatement" => (stmt.children "cases").flatMap (·.children "consequent")
  | _ => []

theorem height_of_mem_innerParts {stmt part : Node} (h : part ∈ stmt.innerParts) :
    part.height < stmt.height := by
  have hchild (name : String) : stmt.child? name = some part → part.height < stmt.height :=
    Node.height_of_child?
  unfold Node.innerParts at h
  split at h
  case h_1 => exact Node.height_of_mem_children h
  case h_9 =>
    simp only [mem_append, Option.mem_toList, Option.bind_eq_bind,
      Option.bind_eq_some_iff] at h
    obtain (h | ⟨handler, hhandler, hbody⟩) | h := h
    · exact hchild _ h
    · exact Nat.lt_trans (Node.height_of_child? hbody) (Node.height_of_child? hhandler)
    · exact hchild _ h
  case h_10 =>
    obtain ⟨case, hcase, hpart⟩ := mem_flatMap.1 h
    exact Nat.lt_trans (Node.height_of_mem_children hpart) (Node.height_of_mem_children hcase)
  all_goals grind

/-- **A walk through a statement**: the statement itself, and then its parts from left to right. -/
def Node.walk (stmt : Node) : List Node :=
  stmt :: stmt.innerParts.attach.flatMap fun part => walk part.1
termination_by stmt.height
decreasing_by exact height_of_mem_innerParts part.2

/-- The declarators of the `var` statements below the statements of a body, in the order of the
text. -/
def varDeclarators (body : List Node) : List Node :=
  let walked := body.flatMap (·.innerParts.flatMap Node.walk)
  let statements := walked.filter fun stmt =>
    stmt.type = "VariableDeclaration" ∧ stmt.text? "kind" = some "var"
  statements.flatMap (·.children "declarations")

/-- A declarator of the variable `x`. One that takes a value apart is for no single variable. -/
def DeclaresVar (declarator : Node) (x : String) : Prop :=
  ∃ id, declarator.child? "id" = some id ∧ id.name? = some x

/-- **The shape of a variable that starts with the value of an initializer**: that of an array or an
object literal, in parentheses or not. Anything else, and nothing, is a scalar. -/
def StartsAs (init : Option Node) : Shape → Prop
  | .list => ∃ node ∈ init, node.unwrapped.type = "ArrayExpression"
  | .map => ∃ node ∈ init, node.unwrapped.type = "ObjectExpression"
  | .scalar => ∀ node ∈ init, node.unwrapped.type ∉ ["ArrayExpression", "ObjectExpression"]

/-- **The variables of declarators**, one for each that is for a single variable, with the shape that
it starts with there. -/
inductive VarsOf : List Node → List (String × Shape) → Prop
  | nil : VarsOf [] []
  | skip {declarator : Node} {rest : List Node} {vars : List (String × Shape)} :
      (∀ x, ¬ DeclaresVar declarator x) → VarsOf rest vars → VarsOf (declarator :: rest) vars
  | var {declarator : Node} {rest : List Node} {vars : List (String × Shape)} {x : String}
      {shape : Shape} : DeclaresVar declarator x → StartsAs (declarator.child? "init") shape →
      VarsOf rest vars → VarsOf (declarator :: rest) ((x, shape) :: vars)

/-! ## The scan by blocks -/

theorem flatMap_asStatements (stmt : Node) :
    stmt.asStatements.flatMap varsWithin = varsWithin stmt := by
  unfold Node.asStatements
  split
  · rename_i hblock
    rw [varsWithin, ownVars]
    simp_all [Node.nestedStatements]
  · exact flatMap_singleton ..

theorem flatMap_statementsIn (stmt : Node) (name : String) :
    (stmt.statementsIn name).flatMap varsWithin = (stmt.child? name).toList.flatMap varsWithin := by
  cases h : stmt.child? name <;> simp [Node.statementsIn, h, flatMap_asStatements]

theorem flatMap_nestedStatements (stmt : Node) :
    stmt.nestedStatements.flatMap varsWithin = stmt.innerParts.flatMap varsWithin := by
  unfold Node.nestedStatements Node.innerParts
  generalize stmt.type = type
  split
  case h_9 => cases stmt.child? "handler" <;> simp [flatMap_statementsIn]
  all_goals simp [flatMap_statementsIn]

/-- **A scan by blocks finds what the walk finds.** -/
theorem varsWithin_eq_walk (stmt : Node) : varsWithin stmt = stmt.walk.flatMap ownVars := by
  have hparts : stmt.innerParts.flatMap varsWithin =
      stmt.innerParts.flatMap fun part => part.walk.flatMap ownVars :=
    flatMap_congr fun part _h => varsWithin_eq_walk part
  rw [varsWithin, Node.walk]
  simpa [flatMap_nestedStatements, flatMap_assoc] using hparts
termination_by stmt.height
decreasing_by exact height_of_mem_innerParts _h

/-! ## Declarators -/

/-- The variable of a declarator, as the scan records it. -/
def declaredVar? (declarator : Node) : Option (String × Shape) := do
  let name ← (← declarator.child? "id").name?
  some (name, Shape.ofInitializer (declarator.child? "init"))

theorem startsAs_ofInitializer (init : Option Node) : StartsAs init (Shape.ofInitializer init) := by
  cases init with
  | none => simp [StartsAs, Shape.ofInitializer]
  | some init =>
    unfold Shape.ofInitializer
    split <;> simp_all [StartsAs]

/-- **The scan records the variables of declarators.** -/
theorem varsOf_filterMap (declarators : List Node) :
    VarsOf declarators (declarators.filterMap declaredVar?) := by
  induction declarators with
  | nil => exact .nil
  | cons declarator rest ih =>
    rw [filterMap_cons]
    cases hvar : declaredVar? declarator with
    | none =>
      refine .skip ?_ ih
      rintro x ⟨id, hid, hname⟩
      simp [declaredVar?, hid, hname] at hvar
    | some var =>
      simp only [declaredVar?, Option.bind_eq_bind, Option.bind_eq_some_iff, Option.some.injEq] at hvar
      obtain ⟨id, hid, name, hname, rfl⟩ := hvar
      exact .var ⟨id, hid, hname⟩ (startsAs_ofInitializer _) ih

/-- **The scan of a body** goes through the declarators below its statements. -/
theorem nestedVars_eq (body : List Node) :
    nestedVars body = firstOfName ((varDeclarators body).filterMap declaredVar?) := by
  have hown (nodes : List Node) : nodes.flatMap ownVars =
      ((nodes.filter fun stmt => stmt.type = "VariableDeclaration" ∧
        stmt.text? "kind" = some "var").flatMap (·.children "declarations")).filterMap
          declaredVar? := by
    induction nodes with
    | nil => rfl
    | cons stmt nodes ih =>
      rw [flatMap_cons, ih, ownVars, filter_cons]
      simp only [Bool.and_eq_true, beq_iff_eq, decide_eq_true_eq]
      split
      · rw [flatMap_cons, filterMap_append]
        rfl
      · rfl
  rw [varDeclarators, ← hown, nestedVars]
  simp only [flatMap_nestedStatements]
  simp only [funext varsWithin_eq_walk, flatMap_assoc]

/-! ## The first of each name -/

theorem firstOfName_concat (vars : List (String × Shape)) (var : String × Shape) :
    firstOfName (vars ++ [var]) =
      if (firstOfName vars).any (·.1 == var.1) then firstOfName vars
      else firstOfName vars ++ [var] := by
  rw [firstOfName, foldl_append]
  rfl

theorem any_firstOfName (vars : List (String × Shape)) (x : String) :
    (firstOfName vars).any (·.1 == x) = vars.any (·.1 == x) := by
  induction vars using reverseRecOn with
  | nil => rfl
  | append_singleton vars var ih =>
    rw [firstOfName_concat]
    grind

theorem mem_firstOfName_iff (vars : List (String × Shape)) (var : String × Shape) :
    var ∈ firstOfName vars ↔ vars.find? (·.1 == var.1) = some var := by
  induction vars using reverseRecOn with
  | nil => simp [firstOfName]
  | append_singleton vars last ih =>
    rw [firstOfName_concat, any_firstOfName, find?_append]
    cases hfind : vars.find? (·.1 == var.1) <;> split <;> grind

theorem pairwise_firstOfName (vars : List (String × Shape)) :
    (firstOfName vars).Pairwise fun a b =>
      vars.findIdx (·.1 == a.1) < vars.findIdx (·.1 == b.1) := by
  induction vars using reverseRecOn with
  | nil => exact .nil
  | append_singleton vars last ih =>
    have hlt {a} (ha : a ∈ firstOfName vars) : vars.findIdx (·.1 == a.1) < vars.length := by
      have hany : vars.any (·.1 == a.1) = true := by
        rw [← any_firstOfName]
        exact any_eq_true.2 ⟨a, ha, beq_self_eq_true _⟩
      exact findIdx_lt_length.2 (any_eq_true.1 hany)
    -- The names that are kept stand where they stood.
    have hkept : (firstOfName vars).Pairwise fun a b =>
        (vars ++ [last]).findIdx (·.1 == a.1) < (vars ++ [last]).findIdx (·.1 == b.1) := by
      refine ih.imp_of_mem fun ha hb hab => ?_
      rwa [findIdx_append, findIdx_append, if_pos (hlt ha), if_pos (hlt hb)]
    rw [firstOfName_concat, any_firstOfName]
    split
    · exact hkept
    · rename_i hnew
      refine pairwise_append.2 ⟨hkept, pairwise_singleton _ _, fun a ha b hb => ?_⟩
      have hnot : ¬ vars.findIdx (·.1 == last.1) < vars.length := by
        rwa [findIdx_lt_length, ← any_eq_true]
      rw [mem_singleton.1 hb, findIdx_append, findIdx_append, if_pos (hlt ha),
        if_neg hnot]
      exact Nat.lt_add_left _ (hlt ha)

/-- **Hoisted variables.** The declarators of the `var` statements below a body have variables. What
the scan of the body gives is the first of these variables of each name, in their order. -/
theorem nestedVars_first_of_name (body : List Node) :
    ∃ vars, VarsOf (varDeclarators body) vars ∧
      ((nestedVars body).map Prod.fst).Nodup ∧
      (∀ var, var ∈ nestedVars body ↔ vars.find? (·.1 == var.1) = some var) ∧
      (nestedVars body).Pairwise fun a b =>
        vars.findIdx (·.1 == a.1) < vars.findIdx (·.1 == b.1) := by
  refine ⟨_, varsOf_filterMap _, ?_⟩
  rw [nestedVars_eq]
  refine ⟨pairwise_map.2 ((pairwise_firstOfName _).imp fun hlt heq => ?_),
    mem_firstOfName_iff _, pairwise_firstOfName _⟩
  rw [heq] at hlt
  exact Nat.lt_irrefl _ hlt

end Scriptgen
