import Scriptgen.Source.Node
/-!
# Text-valued expressions

Whether an expression is text can often be seen from its form. This decides between the
operators on text and those on numbers.
-/

namespace Scriptgen

/-- Methods that give text for any receiver. -/
def textMethods : List String :=
  ["toString", "toUpperCase", "toLowerCase", "trim", "substring", "substr", "charAt", "join",
    "padStart", "padEnd", "repeat", "replace", "toFixed", "fromCharCode"]

/-- Tags of nodes that give text. -/
def textKinds : List String :=
  ["StringSubstring", "StringCharAt", "StringToUpperCase", "StringToLowerCase", "StringTrim",
    "StringRepeat", "StringFromCharCode", "StringReplace", "ArrayJoin", "HexEncode",
    "BytesToString", "JsonStringify"]

namespace Node

def returnsText (callee : Node) : Bool :=
  callee.isIdentifier "String" || callee.staticMember?.any textMethods.contains

def isTextual (expr : Node) : Bool :=
  let node := expr.unwrapped
  if node.resultType? == some "string" || textKinds.contains node.kind then true
  else
    match node.type with
    | "Literal" => node.stringValue?.isSome
    | "TemplateLiteral" => true
    | "BinaryExpression" =>
      if node.text? "operator" == some "+" then
        let left :=
          match _h : node.child? "left" with
          | some left => left.isTextual
          | none => false
        let right :=
          match _h : node.child? "right" with
          | some right => right.isTextual
          | none => false
        left || right
      else false
    | "CallExpression" => (node.child? "callee").any returnsText
    | _ => false
termination_by expr.height
decreasing_by
  all_goals exact Nat.lt_of_lt_of_le (height_of_child? _h) expr.height_unwrapped_le

end Node

end Scriptgen
