import Scriptgen.Source.Node
/-!
# Feature guards

Programs that run in several hosts test which globals exist: `typeof module !== 'undefined'`
and the like. In generated code the answers are known in advance, and `evaluateGuard` gives them.
A guard that depends on anything else has no answer.
-/

namespace Scriptgen

/-- Globals that generated code always provides. -/
def alwaysAvailable : List String := ["OpCodes", "AlgorithmFramework"]

/-- Globals of a host, which generated code never has. -/
def neverAvailable : List String :=
  ["module", "exports", "require", "define", "window", "self", "global", "globalThis", "process",
    "document"]

/-- Whether a guard can be decided on this global. -/
def isFrameworkName (name : String) : Bool :=
  alwaysAvailable.contains name || neverAvailable.contains name

/-- Whether a global exists in generated code, if that is known. -/
def availability? (name : String) : Option Bool :=
  if alwaysAvailable.contains name then some true
  else if neverAvailable.contains name then some false
  else none

namespace Node

/-- The leftmost identifier of a chain of member accesses. -/
def chainRoot? (node : Node) : Option String :=
  match node.unwrapped.type with
  | "Identifier" => node.unwrapped.name?
  | "MemberExpression" =>
    match _h : node.unwrapped.child? "object" with
    | some object => object.chainRoot?
    | none => none
  | _ => none
termination_by node.height
decreasing_by exact Nat.lt_of_lt_of_le (height_of_child? _h) node.height_unwrapped_le

def isTypeof (node : Node) : Bool :=
  node.type == "UnaryExpression" && node.text? "operator" == some "typeof"

end Node

/-- Whether a comparison operator asks for equality or for the opposite. -/
def negatesEquality? : String → Option Bool
  | "===" | "==" => some false
  | "!==" | "!=" => some true
  | _ => none

/-- Whether `typeof x` is `expected`, where `x` is available or not. An available global may be
an object or a function. -/
def typeofEquals? (available : Bool) (expected : String) : Option Bool :=
  if available then if expected == "undefined" then some false else none
  else some (expected == "undefined")

/-- The answer to a comparison of `typeof x` with a string, in either order. -/
def evaluateTypeof (test : Node) : Option Bool := do
  let negated ← negatesEquality? (← test.text? "operator")
  let left := (← test.child? "left").unwrapped
  let right := (← test.child? "right").unwrapped
  let (query, literal) ←
    if left.isTypeof then some (left, right)
    else if right.isTypeof then some (right, left)
    else none
  let expected ← literal.stringValue?
  let available ← availability? (← (← query.child? "argument").chainRoot?)
  let equal ← typeofEquals? available expected
  some (equal != negated)

/-- Conjunction of answers, one of which may be unknown. -/
def bothHold : Option Bool → Option Bool → Option Bool
  | some false, _ => some false
  | _, some false => some false
  | some true, some true => some true
  | _, _ => none

/-- Disjunction of answers, one of which may be unknown. -/
def eitherHolds : Option Bool → Option Bool → Option Bool
  | some true, _ => some true
  | _, some true => some true
  | some false, some false => some false
  | _, _ => none

/-- The answer to a guard, or `none` if it depends on the state of the running program. -/
def evaluateGuard (guard : Node) : Option Bool :=
  let test := guard.unwrapped
  match test.type with
  | "BinaryExpression" => evaluateTypeof test
  | "UnaryExpression" =>
    if test.text? "operator" == some "!" then
      match _h : test.child? "argument" with
      | some argument => (evaluateGuard argument).map (!·)
      | none => none
    else none
  | "LogicalExpression" =>
    let left :=
      match _h : test.child? "left" with
      | some left => evaluateGuard left
      | none => none
    let right :=
      match _h : test.child? "right" with
      | some right => evaluateGuard right
      | none => none
    match test.text? "operator" with
    | some "&&" => bothHold left right
    | some "||" => eitherHolds left right
    | _ => none
  | "Identifier" => test.name? >>= availability?
  | "MemberExpression" =>
    match test.chainRoot? >>= availability? with
    | some false => some false
    | _ => none
  | _ => none
termination_by guard.height
decreasing_by
  all_goals exact Nat.lt_of_lt_of_le (Node.height_of_child? _h) guard.height_unwrapped_le

end Scriptgen
