import Scriptgen.Source.Node
/-!
# Callbacks

A function literal that is passed to an array method. If it needs only the element and computes
one expression it can become a native block.
-/

namespace Scriptgen

/-- What a callback does when it is called. -/
inductive CallbackBody where
  /-- An arrow function that is one expression. -/
  | expr (node : Node)
  /-- A block of statements. -/
  | block (node : Node)

/-- A function literal passed as a callback. -/
structure Callback where
  node : Node
  body : CallbackBody

namespace Callback

/-- An arrow function or function expression as a callback. -/
def ofNode? (node : Node) : Option Callback :=
  let node := node.unwrapped
  if node.type == "ArrowFunctionExpression" || node.type == "FunctionExpression" then
    (node.child? "body").map fun body =>
      ⟨node, if body.type == "BlockStatement" then .block body else .expr body⟩
  else none

def params (callback : Callback) : List Node := callback.node.children "params"

def paramName? (callback : Callback) (i : Nat) : Option String :=
  callback.params[i]? >>= Node.name?

def hasNamedParams (callback : Callback) : Bool := callback.params.all (·.name?.isSome)

def paramNames (callback : Callback) : List String := callback.params.filterMap Node.name?

def blockStatements (callback : Callback) : List Node :=
  match callback.body with
  | .block block => block.children "body"
  | .expr _ => []

/-- The expression that the callback returns, if it does nothing else. -/
def resultExpr? (callback : Callback) : Option Node :=
  match callback.body with
  | .expr expr => some expr
  | .block _ =>
    match callback.blockStatements with
    | [only] => if only.type == "ReturnStatement" then only.child? "argument" else none
    | _ => none

/-- Whether the callback needs at most the element and computes one expression. -/
def isElementOnly (callback : Callback) : Bool :=
  callback.params.length ≤ 1 && callback.params.all (·.name?.isSome) && callback.resultExpr?.isSome

end Callback

end Scriptgen
