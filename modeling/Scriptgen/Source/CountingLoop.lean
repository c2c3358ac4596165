import Scriptgen.Source.Form
import Scriptgen.Source.Usage
/-!
# Counting loops

A `for` loop that counts a variable of its own up or down to a bound in constant steps. If the
body changes neither the variable nor the bound, the numbers are known when the loop starts.
-/

namespace Scriptgen

/-- A loop over numbers at a constant distance. -/
structure CountingLoop where
  var : String
  start : Node
  bound : Node
  /-- Whether the bound itself is one of the numbers. -/
  inclusive : Bool
  /-- The distance of the numbers, negative if they go down. -/
  step : Int
  body : Node

/-- The methods that change the length of an array. -/
def resizingMethods : List String := ["push", "pop", "shift", "unshift", "splice"]

/-- The greatest distance, which greater ones are reduced to. -/
def maxStep : Int := 0x7FFFFFFFFFFFFFFF

namespace Node

/-- The distance that a literal gives, if it is a positive integer. -/
def stepLiteral? (expr : Node) : Option Int := do
  let node := expr.unwrapped
  guard (node.type == "Literal")
  let value ← node.number? "value"
  if value.isIntegral && !value.le 0 then some (min value.truncate maxStep) else none

/-- The distance by which an update moves a variable: `i++` is 1 and `i -= 2` is -2. -/
def loopStep? (update : Node) (var : String) : Option Int := do
  match update.type with
  | "UpdateExpression" =>
    guard ((← update.child? "argument").isIdentifier var)
    match ← update.text? "operator" with
    | "++" => some 1
    | "--" => some (-1)
    | _ => none
  | "AssignmentExpression" =>
    guard ((← update.child? "left").isIdentifier var)
    let step ← (← update.child? "right").stepLiteral?
    match ← update.text? "operator" with
    | "+=" => some step
    | "-=" => some (-step)
    | _ => none
  | _ => none

/-- Whether a bound keeps its value while the body of a loop over `var` runs. -/
def isStableBound (var : String) (body expr : Node) : Bool :=
  let bound := expr.unwrapped
  match bound.type with
  | "Literal" => (bound.number? "value").isSome
  | "Identifier" => bound.name?.any fun name => name != var && !assignsTo [body] name
  | "MemberExpression" =>
    bound.staticMember? == some "length" &&
      ((bound.child? "object").bind (·.unwrapped.name?)).any fun name =>
        name != var && !assignsTo [body] name && !callsMethod [body] resizingMethods
  | "BinaryExpression" =>
    if (bound.text? "operator").any ["+", "-", "*"].contains then
      let left :=
        match _h : bound.child? "left" with
        | some left => isStableBound var body left
        | none => false
      let right :=
        match _h : bound.child? "right" with
        | some right => isStableBound var body right
        | none => false
      left && right
    else false
  | "UnaryExpression" =>
    if bound.text? "operator" == some "-" then
      match _h : bound.child? "argument" with
      | some argument => isStableBound var body argument
      | none => false
    else false
  | _ => false
termination_by expr.height
decreasing_by
  all_goals exact Nat.lt_of_lt_of_le (height_of_child? _h) expr.height_unwrapped_le

end Node

namespace CountingLoop

/-- Whether a comparison with the bound is for a loop upwards, and whether it holds at the
bound. -/
def comparison? : String → Option (Bool × Bool)
  | "<" => some (true, false)
  | "<=" => some (true, true)
  | ">" => some (false, false)
  | ">=" => some (false, true)
  | _ => none

/-- The only variable that a `let` declaration declares, with its start. -/
def counter? (init : Node) : Option (String × Node) :=
  if init.type == "VariableDeclaration" && init.text? "kind" == some "let" then
    match init.children "declarations" with
    | [declaration] => do
      some (← (← declaration.child? "id").name?, ← declaration.child? "init")
    | _ => none
  else none

def ofNode? (node : Node) : Option CountingLoop := do
  let (var, start) ← counter? (← node.child? "init")
  let test := (← node.child? "test").unwrapped
  guard (test.type == "BinaryExpression")
  guard ((← test.child? "left").unwrapped.isIdentifier var)
  let (ascending, inclusive) ← comparison? (← test.text? "operator")
  let bound := (← test.child? "right").unwrapped
  let step ← (← node.child? "update").unwrapped.loopStep? var
  let body ← node.child? "body"
  guard (ascending == decide (step > 0))
  guard (!assignsTo [body] var && Node.isStableBound var body bound)
  some ⟨var, start, bound, inclusive, step, body⟩

end CountingLoop

end Scriptgen
