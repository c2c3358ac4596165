import Scriptgen.Source.Guard
/-!
# Forms of expressions

Small questions about the form of a node: whether it is a literal of some kind, which name it
carries, and whether a name has a meaning of its own in the source language.
-/

namespace Scriptgen

def isErrorClass (name : String) : Bool :=
  ["Error", "TypeError", "RangeError", "SyntaxError", "ReferenceError", "EvalError"].contains name

def typedArrays : List String :=
  ["Uint8Array", "Uint8ClampedArray", "Uint16Array", "Uint32Array", "Int8Array", "Int16Array",
    "Int32Array", "Float32Array", "Float64Array"]

def textOnlyMethods : List String :=
  ["charAt", "charCodeAt", "codePointAt", "substring", "substr", "toUpperCase", "toLowerCase",
    "trim", "trimStart", "trimEnd", "repeat", "padStart", "padEnd", "startsWith", "endsWith",
    "split", "replace", "replaceAll", "localeCompare"]

namespace Node

def isZero (node : Node) : Bool :=
  node.type == "Literal" && (node.number? "value").any (·.isInt 0)

/-- Whether this is `undefined`, `null` or a `void` expression. -/
def isNullish (node : Node) : Bool :=
  node.isIdentifier "undefined" ||
    (node.type == "Literal" && !node.has "value" && !node.has "regex" && !node.has "bigint") ||
    (node.type == "UnaryExpression" && node.text? "operator" == some "void")

/-- Whether this is a number with a minus sign before it. -/
def isNegativeLiteral (expr : Node) : Bool :=
  let node := expr.unwrapped
  node.type == "UnaryExpression" && node.text? "operator" == some "-" &&
    (node.child? "argument").any fun argument => (argument.number? "value").isSome

/-- Whether this can be called with `call` and `apply`. -/
def isCallable (node : Node) : Bool :=
  node.type == "Identifier" || node.type == "FunctionExpression"

def isFunctionLiteral (expr : Node) : Bool :=
  let type := expr.unwrapped.type
  type == "FunctionExpression" || type == "ArrowFunctionExpression"

/-- The name that a property or member is stored under. -/
def keyName? (node : Node) : Option String :=
  node.child? "key" >>= fun key => key.name?.or key.stringValue?

/-- A name that is given as text or as an identifier. -/
def nameIn? (node : Node) (field : String) : Option String :=
  (node.text? field).or (node.child? field >>= name?)

def thisMember? (node : Node) : Option String :=
  if node.kind == "ThisPropertyAccess" then node.nameIn? "property"
  else do
    let object := (← node.child? "object").unwrapped
    if object.type == "ThisExpression" then node.staticMember? else none

/-- The path `A::B` of a chain of names `A.B`, each name spelled by `spell`. -/
def qualifiedName? (spell : String → String) (ref : Node) : Option String :=
  let node := ref.unwrapped
  match node.type with
  | "Identifier" => node.name?.map spell
  | "MemberExpression" =>
    if node.flag "computed" then none
    else
      match _h : node.child? "object" with
      | some object => do
        let path ← object.qualifiedName? spell
        some (path ++ "::" ++ spell (← node.staticMember?))
      | none => none
  | _ => none
termination_by ref.height
decreasing_by exact Nat.lt_of_lt_of_le (height_of_child? _h) ref.height_unwrapped_le

/-- The text of a field in a regular expression literal. -/
def regexPart (regex : Json) (name : String) : String :=
  (regex.get? name >>= Json.asString?).getD ""

def quasiText (quasi : Node) : String :=
  let value := quasi.field? "value"
  (((value >>= (·.get? "cooked")).or (value >>= (·.get? "raw"))) >>= Json.asString?).getD ""

end Node

end Scriptgen
