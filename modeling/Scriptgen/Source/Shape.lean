import Scriptgen.Source.Node
/-!
# Shapes

A variable holds a scalar, a list or a map. Its shape is fixed by the initializer of its first
declaration.
-/

namespace Scriptgen

/-- What a variable holds. -/
inductive Shape where
  | scalar
  | list
  | map
deriving DecidableEq, Repr, Inhabited

/-- The shape of a variable that starts with the value of `init`. -/
def Shape.ofInitializer (init : Option Node) : Shape :=
  match init.map (·.unwrapped.type) with
  | some "ArrayExpression" => .list
  | some "ObjectExpression" => .map
  | _ => .scalar

end Scriptgen
