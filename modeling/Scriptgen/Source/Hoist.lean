import Scriptgen.Source.Shape
/-!
# Hoisted names

Functions, classes and `var` variables are known in the whole of the body that declares them.
These scans find the names before the statements are read.
-/

namespace Scriptgen

def declaredFunctions (stmts : List Node) : List String :=
  (stmts.filter (·.type == "FunctionDeclaration")).filterMap fun stmt =>
    stmt.child? "id" >>= Node.name?

/-- The name of the class that a statement declares, also as `const C = class …`. -/
def declaredClass? (stmt : Node) : Option String :=
  if stmt.type == "ClassDeclaration" then stmt.child? "id" >>= Node.name?
  else do
    let declaration ← (stmt.children "declarations").find? fun declaration =>
      (declaration.child? "init").any (·.type == "ClassExpression")
    declaration.child? "id" >>= Node.name?

def declaredClasses (stmts : List Node) : List String := stmts.filterMap declaredClass?

namespace Node

/-- The statements of a block, or a single statement. -/
def asStatements (node : Node) : List Node :=
  if node.type == "BlockStatement" then node.children "body" else [node]

/-- The statements in a field that holds a block or a single statement. -/
def statementsIn (node : Node) (name : String) : List Node :=
  (node.child? name).elim [] asStatements

/-- The statements one block level below a statement. -/
def nestedStatements (stmt : Node) : List Node :=
  match stmt.type with
  | "BlockStatement" => stmt.children "body"
  | "IfStatement" => stmt.statementsIn "consequent" ++ stmt.statementsIn "alternate"
  | "ForStatement" | "ForOfStatement" | "ForInStatement" | "WhileStatement" | "DoWhileStatement"
  | "LabeledStatement" => stmt.statementsIn "body"
  | "TryStatement" =>
    stmt.statementsIn "block" ++
      (stmt.child? "handler").elim [] (·.statementsIn "body") ++
      stmt.statementsIn "finalizer"
  | "SwitchStatement" => (stmt.children "cases").flatMap (·.children "consequent")
  | _ => []

theorem height_of_mem_asStatements {node stmt : Node} (h : stmt ∈ node.asStatements) :
    stmt.height ≤ node.height := by
  unfold asStatements at h
  split at h
  · exact Nat.le_of_lt (height_of_mem_children h)
  · simp only [List.mem_singleton] at h
    subst h
    exact Nat.le_refl _

theorem height_of_mem_statementsIn {node stmt : Node} {name : String}
    (h : stmt ∈ node.statementsIn name) : stmt.height < node.height := by
  unfold statementsIn at h
  cases hc : node.child? name with
  | none => simp [hc] at h
  | some child =>
    simp only [hc, Option.elim_some] at h
    have := height_of_child? hc
    have := height_of_mem_asStatements h
    omega

theorem height_of_mem_nestedStatements {stmt nested : Node} (h : nested ∈ stmt.nestedStatements) :
    nested.height < stmt.height := by
  unfold nestedStatements at h
  split at h
  · exact height_of_mem_children h
  · rcases List.mem_append.1 h with h | h <;> exact height_of_mem_statementsIn h
  all_goals try exact height_of_mem_statementsIn h
  · rcases List.mem_append.1 h with h | h
    · rcases List.mem_append.1 h with h | h
      · exact height_of_mem_statementsIn h
      · cases hc : stmt.child? "handler" with
        | none => simp [hc] at h
        | some handler =>
          simp only [hc, Option.elim_some] at h
          have := height_of_child? hc
          have := height_of_mem_statementsIn h
          omega
    · exact height_of_mem_statementsIn h
  · obtain ⟨case, hc, hn⟩ := List.mem_flatMap.1 h
    have := height_of_mem_children hc
    have := height_of_mem_children hn
    omega
  · simp at h

end Node

/-- The `var` variables that a statement declares itself, with their shapes. -/
def ownVars (stmt : Node) : List (String × Shape) :=
  if stmt.type == "VariableDeclaration" && stmt.text? "kind" == some "var" then
    (stmt.children "declarations").filterMap fun declaration => do
      let name ← (← declaration.child? "id").name?
      some (name, Shape.ofInitializer (declaration.child? "init"))
  else []

/-- The `var` variables that a statement declares, itself or in nested blocks. -/
def varsWithin (stmt : Node) : List (String × Shape) :=
  ownVars stmt ++ stmt.nestedStatements.attach.flatMap fun ⟨nested, _h⟩ => varsWithin nested
termination_by stmt.height
decreasing_by exact Node.height_of_mem_nestedStatements _h

def firstOfName (vars : List (String × Shape)) : List (String × Shape) :=
  vars.foldl (fun seen var => if seen.any (·.1 == var.1) then seen else seen ++ [var]) []

/-- The `var` variables declared in blocks within a function body. They belong to the whole
function, so they are declared before it starts. -/
def nestedVars (body : List Node) : List (String × Shape) :=
  firstOfName (body.flatMap fun stmt => stmt.nestedStatements.flatMap varsWithin)

end Scriptgen
