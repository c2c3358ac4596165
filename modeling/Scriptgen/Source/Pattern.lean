import Scriptgen.Source.Form
import Scriptgen.Source.Usage
/-!
# Declared names

The names that a destructuring pattern binds, and what else the top level of a program declares.
-/

namespace Scriptgen

namespace Node

/-- What stands for a property of an object pattern. -/
def boundPart? (property : Node) : Option Node :=
  (property.child? "value").or (property.child? "argument")

theorem height_of_boundPart? {property part : Node} (h : property.boundPart? = some part) :
    part.height < property.height := by
  rcases Option.or_eq_some_iff.1 h with h | ⟨_, h⟩ <;> exact height_of_child? h

/-- The names that a pattern binds, from left to right. -/
def patternNames (pattern : Node) : List String :=
  match pattern.name? with
  | some name => [name]
  | none =>
    match pattern.type with
    | "ArrayPattern" =>
      (pattern.children "elements").attach.flatMap fun ⟨element, _h⟩ => element.patternNames
    | "ObjectPattern" =>
      (pattern.children "properties").attach.flatMap fun ⟨property, _h⟩ =>
        match _hp : property.boundPart? with
        | some part => part.patternNames
        | none => []
    | "RestElement" =>
      match _h : pattern.child? "argument" with
      | some argument => argument.patternNames
      | none => []
    | "AssignmentPattern" =>
      match _h : pattern.child? "left" with
      | some left => left.patternNames
      | none => []
    | _ => []
termination_by pattern.height
decreasing_by
  · exact height_of_mem_children _h
  · exact Nat.lt_trans (height_of_boundPart? _hp) (height_of_mem_children _h)
  · exact height_of_child? _h
  · exact height_of_child? _h

/-- The variable that a property of an object pattern is bound to, and its default. -/
def propertyBinding? (property : Node) (key : String) : Option (String × Option Node) :=
  match property.child? "value" with
  | none => some (key, none)
  | some target =>
    if target.type == "AssignmentPattern" then
      (target.child? "left" >>= Node.name?).map (·, target.child? "right")
    else target.name?.map (·, none)

end Node

/-- The variables with function literals that `const` statements declare. -/
def constFunctions (stmts : List Node) : List String :=
  stmts.flatMap fun stmt =>
    if stmt.type == "VariableDeclaration" && stmt.text? "kind" == some "const" then
      (stmt.children "declarations").filterMap fun declaration =>
        if (declaration.child? "init").any Node.isFunctionLiteral then
          declaration.child? "id" >>= Node.name?
        else none
    else []

/-- The class that a statement defines, also as the value of a variable. -/
def definedClass? (stmt : Node) : Option Node :=
  match stmt.type with
  | "ClassDeclaration" => some stmt
  | "VariableDeclaration" =>
    ((stmt.children "declarations").filterMap fun declaration =>
      (declaration.child? "init").map Node.unwrapped).find? (·.type == "ClassExpression")
  | _ => none

def classMethodNames (stmts : List Node) : List String :=
  (stmts.filterMap definedClass?).flatMap fun cls =>
    (classMembers cls).filterMap fun member =>
      if member.type == "MethodDefinition" && member.text? "kind" == some "method" then
        member.keyName?
      else none

end Scriptgen
