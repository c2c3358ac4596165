import Scriptgen.Source.Node
/-!
# Programs

Code is generated for a `Program` node with a list of statements. `programRoot` says what was
found instead.
-/

namespace Scriptgen

/-- What stands in the place of a program. -/
inductive RootError where
  /-- A program whose `body` is not an array. -/
  | noBody
  /-- A node of another type. -/
  | otherNode (type : String)
  /-- An object without a type. -/
  | untyped
  | array
  | string
  | number
  | boolean
  | null
deriving DecidableEq, Repr

namespace RootError

def found : RootError → String
  | .noBody => "Program without a body array"
  | .otherNode type => "'" ++ type ++ "' node"
  | .untyped => "object without a type"
  | .array => "array"
  | .string => "string"
  | .number => "number"
  | .boolean => "boolean"
  | .null => "null"

def message (error : RootError) : String :=
  "expected a Program node at the root, found " ++ error.found

end RootError

def programRoot : Json → Except RootError Node
  | .object fields =>
    let node : Node := ⟨fields⟩
    match node.text? "type" with
    | some "Program" =>
      if (node.get? "body" >>= Json.asArray?).isSome then .ok node else .error .noBody
    | some other => .error (.otherNode other)
    | none => .error .untyped
  | .array _ => .error .array
  | .string _ => .error .string
  | .number _ => .error .number
  | .bool _ => .error .boolean
  | .null => .error .null

end Scriptgen
