import Scriptgen.Binary64
/-!
# JSON values

The input of the generator is a JSON value. The fields of an object are kept sorted by key
without repetition, so that walking them visits the keys in code point order. A number is an
integer if it has 64 bits and is written without fraction and exponent, and a double otherwise.
-/

namespace Scriptgen

/-- A JSON number. -/
inductive Json.Number where
  /-- A whole number between `-2 ^ 63` and `2 ^ 64 - 1`. -/
  | integer (i : Int)
  | double (x : Binary64)
deriving Repr

/-- A JSON value. -/
inductive Json where
  | null
  | bool (b : Bool)
  | number (n : Json.Number)
  | string (s : String)
  | array (items : List Json)
  | object (fields : List (String × Json))

namespace Json

def Number.toBinary64 : Number → Binary64
  | .integer i => .ofInt i
  | .double x => x

/-- Adds a field at its place in the order of keys, instead of any field of the same key. -/
def insertField (key : String) (value : Json) : List (String × Json) → List (String × Json)
  | [] => [(key, value)]
  | (k, v) :: rest =>
    if key < k then (key, value) :: (k, v) :: rest
    else if key == k then (key, value) :: rest
    else (k, v) :: insertField key value rest

/-- Sorted fields from fields in any order; of fields with one key the last one stays. -/
def sortFields (fields : List (String × Json)) : List (String × Json) :=
  fields.foldl (fun sorted (k, v) => insertField k v sorted) []

/-- The value of a field, if this is an object with that field. -/
def get? (j : Json) (key : String) : Option Json :=
  match j with
  | .object fields => fields.lookup key
  | _ => none

def asString? : Json → Option String
  | .string s => some s
  | _ => none

def asBool? : Json → Option Bool
  | .bool b => some b
  | _ => none

def asArray? : Json → Option (List Json)
  | .array items => some items
  | _ => none

def asBinary64? : Json → Option Binary64
  | .number n => some n.toBinary64
  | _ => none

/-- The number, if this is an integer and not negative. -/
def asNat? : Json → Option Nat
  | .number (.integer i) => if 0 ≤ i then some i.toNat else none
  | _ => none

def isNull : Json → Bool
  | .null => true
  | _ => false

def isObject : Json → Bool
  | .object _ => true
  | _ => false

mutual

def height : Json → Nat
  | .array items => heightItems items + 1
  | .object fields => heightFields fields + 1
  | _ => 0

def heightItems : List Json → Nat
  | [] => 0
  | item :: rest => max item.height (heightItems rest)

def heightFields : List (String × Json) → Nat
  | [] => 0
  | (_, value) :: rest => max value.height (heightFields rest)

end

end Json

end Scriptgen
