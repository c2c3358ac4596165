import Scriptgen.Source.Node
/-!
# Inferred types

A guess at the type of a value from the form of its expression. What a type is called is up to the
target, which gives a `TypeSystem`. The result is only written in comments.
-/

namespace Scriptgen

/-- The types of a target, by what they describe. -/
structure TypeSystem (τ : Type) where
  /-- The type of a note of the type-inference pass. -/
  ofNote? : String → Option τ
  text : τ
  bool : τ
  integer : τ
  fraction : τ
  unknown : τ
  array : τ → τ
  object : τ
  function : τ
  /-- The type of the objects of a class. -/
  ofClass : String → τ

/-- The classes whose objects are arrays of integers. -/
def integerArrays : List String :=
  ["Array", "Uint8Array", "Uint16Array", "Uint32Array", "Int32Array"]

namespace TypeSystem

variable {τ : Type} (types : TypeSystem τ)

/-- The type that the type-inference pass has found for a node. -/
def noted? (node : Node) : Option τ := node.resultType? >>= types.ofNote?

def ofLiteral? : Json → Option τ
  | .string _ => some types.text
  | .bool _ => some types.bool
  | .number n => some (if n.toBinary64.isIntegral then types.integer else types.fraction)
  | _ => none

def ofNew (className : String) : τ :=
  if integerArrays.contains className then types.array types.integer else types.ofClass className

variable [BEq τ]

/-- The type of an expression, as far as its form tells. -/
def infer? (expr : Node) : Option τ :=
  let node := expr.unwrapped
  match types.noted? node with
  | some type => some type
  | none =>
    match node.type with
    | "Literal" => node.field? "value" >>= types.ofLiteral?
    | "TemplateLiteral" => some types.text
    | "ArrayExpression" =>
      let elements := (node.children "elements").attach.map fun ⟨element, _h⟩ => infer? element
      some (types.array
        (if !elements.isEmpty && elements.all (· == some types.integer) then types.integer
          else types.unknown))
    | "ObjectExpression" => some types.object
    | "FunctionExpression" | "ArrowFunctionExpression" => some types.function
    | "NewExpression" => (node.child? "callee" >>= Node.name?).map types.ofNew
    | _ => none
termination_by expr.height
decreasing_by
  exact Nat.lt_of_lt_of_le (Node.height_of_mem_children _h) expr.height_unwrapped_le

/-- The type of what a function returns, by its first `return` whose type can be told. -/
def returned? (function : Node) : Option τ :=
  match types.noted? function with
  | some type => some type
  | none => do
    let body ← function.child? "body"
    if body.type != "BlockStatement" then types.infer? body
    else
      ((body.children "body").filter (·.type == "ReturnStatement")).findSome? fun stmt =>
        stmt.child? "argument" >>= types.infer?

end TypeSystem

end Scriptgen
