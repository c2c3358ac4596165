import Scriptgen.Json
import Scriptgen.Json.Raw
/-!
# Reading JSON values

`Json.parse?` turns text into a value. Beyond the grammar it asks that strings spell characters,
that numbers lie in the range of doubles and that arrays and objects are nested at most
`maxDepth` deep.

A number with a fraction or an exponent is read from at most 64 bits of its digits and is
then scaled by a power of ten, with one rounding for each step.
-/

namespace Scriptgen.Json

/-- The number of levels that arrays and objects may be nested. -/
def maxDepth : Nat := 127

/-! ## Numbers -/

/-- Appends digits to a significand as long as it stays within 64 bits. The second part is the
list of digits that did not fit. -/
def absorb : Nat → List Char → Nat × List Char
  | significand, [] => (significand, [])
  | significand, c :: rest =>
    let next := significand * 10 + Text.digitValue c
    if next ≤ Text.maxNat64 then absorb next rest else (significand, c :: rest)

def maxScale : Int := 0x7FFFFFFF

/-- `x * 10 ^ scale`, or `none` beyond the range of doubles. A scale below `-308` is reached in
steps of `308`. -/
def scaleBy? : Nat → Binary64 → Int → Option Binary64
  | 0, x, _ => some x
  | fuel + 1, x, scale =>
    if scale.natAbs ≤ 308 then
      if 0 ≤ scale then x.timesPowTen? scale.natAbs else x.overPowTen? scale.natAbs
    else if x.mantissa == 0 then some x
    else if 0 ≤ scale then none
    else do scaleBy? fuel (← x.overPowTen? 308) (scale + 308)

/-- The double `± significand * 10 ^ scale`. Four steps of `308` take any significand to zero. -/
def doubleOf? (negative : Bool) (significand : Nat) (scale : Int) : Option Binary64 := do
  let x ← scaleBy? 5 (.ofInt significand) scale
  some { x with negative }

namespace Numeral

/-- The value of a number written with fraction or exponent, or with too many digits. -/
def toBinary64? (n : Numeral) : Option Binary64 :=
  let (significand, beyond) := absorb 0 n.whole
  let (significand, ignored) := absorb significand n.fraction
  let scale : Int := beyond.length - (n.fraction.length - ignored.length : Nat)
  match n.exponent with
  | none => doubleOf? n.negative significand scale
  | some (down, ds) =>
    let exponent : Int := Text.decimalValue ds
    if maxScale < exponent then
      if significand != 0 && !down then none else some { Binary64.zero with negative := n.negative }
    else
      let total := if down then scale - exponent else scale + exponent
      doubleOf? n.negative significand (max (-maxScale - 1) (min maxScale total))

def toNumber? (n : Numeral) : Option Number :=
  let (significand, beyond) := absorb 0 n.whole
  if beyond.isEmpty && n.fraction.isEmpty && n.exponent.isNone then
    if !n.negative then some (.integer significand)
    else if significand == 0 || 0x8000000000000000 < significand then
      some (.double { Binary64.ofInt significand with negative := true })
    else some (.integer (-significand))
  else n.toBinary64?.map .double

end Numeral

/-! ## Values -/

namespace Raw

mutual

/-- The value of a tree with at most `depth` levels of arrays and objects. -/
def toJson? (depth : Nat) : Raw → Option Json
  | .null => some .null
  | .bool b => some (.bool b)
  | .number n => n.toNumber?.map .number
  | .string s => s.map .string
  | .array items =>
    if depth == 0 then none else (toItems? (depth - 1) items).map .array
  | .object fields =>
    if depth == 0 then none
    else (toFields? (depth - 1) fields).map fun fields => .object (sortFields fields)

def toItems? (depth : Nat) : List Raw → Option (List Json)
  | [] => some []
  | item :: rest => do
    let item ← item.toJson? depth
    let rest ← toItems? depth rest
    some (item :: rest)

/-- The values of a list of fields, in the order written. -/
def toFields? (depth : Nat) : List (Option String × Raw) → Option (List (String × Json))
  | [] => some []
  | (key, value) :: rest => do
    let key ← key
    let value ← value.toJson? depth
    let rest ← toFields? depth rest
    some ((key, value) :: rest)

end

end Raw

def parse? (text : String) : Option Json :=
  Raw.parse? text >>= Raw.toJson? maxDepth

end Scriptgen.Json
