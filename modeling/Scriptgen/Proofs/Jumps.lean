import Scriptgen.Source.Node
/-!
# Statements with jumps

What the trees of the source are made of in which jumps and their targets stand: loops, switches,
branches and blocks, with jumps in them and statements that have no others in them.
-/

namespace Scriptgen.Jumps

/-- The statements without statements in them. The body of a function is apart from what is around
it. -/
def leafTypes : List String :=
  ["ExpressionStatement", "VariableDeclaration", "FunctionDeclaration", "ClassDeclaration",
    "EmptyStatement", "DebuggerStatement", "ReturnStatement", "ThrowStatement"]

def loopTypes : List String :=
  ["ForStatement", "ForOfStatement", "ForInStatement", "WhileStatement", "DoWhileStatement"]

/-- The loops over the elements or keys of what stands in their head. -/
def rangeTypes : List String := ["ForOfStatement", "ForInStatement"]

/-! ## Trees -/

def nameNode (x : String) : Node := .of "Identifier" [("name", .string x)]

def jumpNode (type : String) (label : Option String) : Node :=
  ⟨("type", .string type) :: (label.map fun x => ("label", (nameNode x).toJson)).toList⟩

def breakNode (label : Option String) : Node := jumpNode "BreakStatement" label

def continueNode (label : Option String) : Node := jumpNode "ContinueStatement" label

def blockNode (body : List Node) : Node :=
  .of "BlockStatement" [("body", .array (body.map Node.toJson))]

def whileNode (test body : Node) : Node :=
  .of "WhileStatement" [("test", test.toJson), ("body", body.toJson)]

def ifNode (test body : Node) : Node :=
  .of "IfStatement" [("test", test.toJson), ("consequent", body.toJson)]

def nameCase (test : Option String) (body : List Node) : Node :=
  ⟨("type", .string "SwitchCase") :: ("consequent", .array (body.map Node.toJson)) ::
    (test.map fun x => ("test", (nameNode x).toJson)).toList⟩

def switchNode (value : Node) (cases : List Node) : Node :=
  .of "SwitchStatement" [("discriminant", value.toJson),
    ("cases", .array (cases.map Node.toJson))]

end Scriptgen.Jumps
