import Scriptgen.Binary64
/-!
# Shortest decimals

The shortest decimal of a double is the one with the fewest digits among those that are
nearer to it than to any other double. Of two such decimals the nearer one is taken, and
the larger one if they are equally near. `Binary64.decimalText` writes it without an exponent.
-/

namespace Scriptgen.Binary64

/-- A positive number with the ends of the interval of numbers that round to it, all over one
denominator. -/
structure Rounding where
  low : Nat
  value : Nat
  high : Nat
  den : Nat
  /-- Whether the ends themselves round to the number. -/
  closed : Bool

/-- The interval around a nonzero double, ignoring its sign. Just above a power of two the
doubles below are twice as dense. -/
def rounding (x : Binary64) : Rounding :=
  let atPower := x.mantissa == 0x10000000000000 && minExponent < x.exponent
  let value := 4 * x.mantissa
  let low := value - (if atPower then 1 else 2)
  let high := value + 2
  let closed := x.mantissa % 2 == 0
  let shift := x.exponent - 2
  if shift < 0 then ⟨low, value, high, Nat.pow 2 shift.natAbs, closed⟩
  else
    let scale := Nat.pow 2 shift.natAbs
    ⟨low * scale, value * scale, high * scale, 1, closed⟩

/-- Whether `num / den` lies in the interval. -/
def Rounding.holds (r : Rounding) (num den : Nat) : Bool :=
  let n := num * r.den
  let low := r.low * den
  let high := r.high * den
  if r.closed then low ≤ n && n ≤ high else low < n && n < high

def powTen (k : Int) : Nat × Nat :=
  if k < 0 then (1, Nat.pow 10 k.natAbs) else (Nat.pow 10 k.natAbs, 1)

/-- The multiple of `10 ^ k` in the interval that is nearest to the value, as the factor. -/
def Rounding.onGrid? (r : Rounding) (k : Int) : Option Nat :=
  let (p, q) := powTen k
  let below := r.value * q / (r.den * p)
  let above := below + 1
  let belowHolds := r.holds (below * p) q
  let aboveHolds := r.holds (above * p) q
  if belowHolds && aboveHolds then
    let down := r.value * q - below * p * r.den
    let up := above * p * r.den - r.value * q
    if down < up then some below else some above
  else if belowHolds then some below
  else if aboveHolds then some above
  else none

/-- Tries the grids `10 ^ k`, `10 ^ (k - 1)`, … and takes the first with a point in the
interval. -/
def Rounding.search (r : Rounding) : Nat → Int → Nat × Int
  | 0, k => (0, k)
  | fuel + 1, k =>
    match r.onGrid? k with
    | some factor => (factor, k)
    | none => r.search fuel (k - 1)

/-- The shortest decimal `factor * 10 ^ k` of a nonzero double, ignoring its sign. The first
grid tried is coarser than the number; a grid of 17 digits always has a point. -/
def shortest (x : Binary64) : Nat × Int :=
  let r := x.rounding
  let start := (Nat.toDigits 10 (r.value / r.den)).length
  r.search (start + 400) (start : Int)

def positional (factor : Nat) (k : Int) : String :=
  let digits := Nat.toDigits 10 factor
  if 0 ≤ k then String.ofList (digits ++ List.replicate k.natAbs '0')
  else
    let places := k.natAbs
    let padded := List.replicate (places + 1 - digits.length) '0' ++ digits
    let whole := padded.take (padded.length - places)
    let fraction := padded.drop (padded.length - places)
    String.ofList (whole ++ '.' :: fraction)

/-- The shortest decimal of a double, without an exponent. -/
def decimalText (x : Binary64) : String :=
  let sign := if x.negative then "-" else ""
  if x.mantissa == 0 then sign ++ "0"
  else
    let (factor, k) := x.shortest
    sign ++ positional factor k

end Scriptgen.Binary64
