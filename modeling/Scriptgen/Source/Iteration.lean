/-!
# Iterations

The array methods that call a function for the elements.
-/

namespace Scriptgen

/-- An array method that takes a callback. -/
inductive Iteration where
  | map
  | filter
  | forEach
  | any
  | all
  | find
  | findIndex
  | reduce
deriving DecidableEq, Repr

namespace Iteration

def ofMethod? : String → Option Iteration
  | "map" => some .map
  | "filter" => some .filter
  | "forEach" => some .forEach
  | "some" => some .any
  | "every" => some .all
  | "find" => some .find
  | "findIndex" => some .findIndex
  | "reduce" => some .reduce
  | _ => none

def ofTag? : String → Option Iteration
  | "ArrayMap" => some .map
  | "ArrayFilter" => some .filter
  | "ArrayForEach" => some .forEach
  | "ArraySome" => some .any
  | "ArrayEvery" => some .all
  | "ArrayFind" => some .find
  | "ArrayFindIndex" => some .findIndex
  | "ArrayReduce" => some .reduce
  | _ => none

end Iteration

end Scriptgen
