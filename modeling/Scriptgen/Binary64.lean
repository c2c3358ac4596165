/-!
# Double precision numbers

A finite double is a sign, a mantissa below `2 ^ 53` and a power of two. Arithmetic is done
exactly on natural numbers and then rounded once, to nearest with ties to even, by
`Binary64.ofRatio?`; a result beyond the largest finite double is `none`.
-/

namespace Scriptgen

/-- The finite double `± mantissa * 2 ^ exponent`. Zero has either sign. -/
structure Binary64 where
  negative : Bool
  mantissa : Nat
  exponent : Int
deriving DecidableEq, Repr

namespace Binary64

/-- The least power of two in a double, that of the subnormal numbers. -/
def minExponent : Int := -1074

/-- The greatest power of two that goes with a mantissa below `2 ^ 53`. -/
def maxExponent : Int := 971

/-- A quotient rounded to the nearest natural number, a tie to the even one. -/
def roundQuotient (num den : Nat) : Nat :=
  let q := num / den
  let r := num % den
  if 2 * r < den then q
  else if den < 2 * r then q + 1
  else if q % 2 == 0 then q
  else q + 1

/-- `num / den / 2 ^ exponent` as a fraction of natural numbers. -/
def scaled (num den : Nat) (exponent : Int) : Nat × Nat :=
  if exponent < 0 then (num * Nat.pow 2 exponent.natAbs, den)
  else (num, den * Nat.pow 2 exponent.natAbs)

/-- The power of two with which `num / den` has its 53 binary digits before the point, or the
least one if the number is too small for that. -/
def gridExponent (num den : Nat) : Int :=
  let guess := max minExponent ((num.log2 : Int) - (den.log2 : Int) - 53)
  let (n, d) := scaled num den guess
  if n / d < 0x20000000000000 then guess else guess + 1

/-- The double nearest to `± num / den`, if that is finite. -/
def ofRatio? (negative : Bool) (num den : Nat) : Option Binary64 :=
  if num == 0 then some ⟨negative, 0, minExponent⟩
  else
    let exponent := gridExponent num den
    let (n, d) := scaled num den exponent
    let mantissa := roundQuotient n d
    let (mantissa, exponent) :=
      if mantissa == 0x20000000000000 then (0x10000000000000, exponent + 1) else (mantissa, exponent)
    if exponent ≤ maxExponent then some ⟨negative, mantissa, exponent⟩ else none

def zero : Binary64 := ⟨false, 0, minExponent⟩

/-- The double nearest to an integer of at most 64 bits. -/
def ofInt (i : Int) : Binary64 :=
  (ofRatio? (i < 0) i.natAbs 1).getD zero

/-- The magnitude as a fraction of natural numbers. -/
def ratio (x : Binary64) : Nat × Nat :=
  if x.exponent < 0 then (x.mantissa, Nat.pow 2 x.exponent.natAbs)
  else (x.mantissa * Nat.pow 2 x.exponent.natAbs, 1)

/-- The rounded product of a double and a power of ten that is itself rounded to a double. -/
def timesPowTen? (x : Binary64) (k : Nat) : Option Binary64 := do
  let power ← ofRatio? false (Nat.pow 10 k) 1
  let (n, d) := x.ratio
  let (n', d') := power.ratio
  ofRatio? x.negative (n * n') (d * d')

/-- The rounded quotient of a double by a power of ten that is itself rounded to a double. -/
def overPowTen? (x : Binary64) (k : Nat) : Option Binary64 := do
  let power ← ofRatio? false (Nat.pow 10 k) 1
  let (n, d) := x.ratio
  let (n', d') := power.ratio
  ofRatio? x.negative (n * d') (d * n')

def isIntegral (x : Binary64) : Bool :=
  let (n, d) := x.ratio
  n % d == 0

def truncate (x : Binary64) : Int :=
  let (n, d) := x.ratio
  if x.negative then -((n / d : Nat) : Int) else ((n / d : Nat) : Int)

/-- The integer part, kept between `0` and `limit`. -/
def truncateToNat (x : Binary64) (limit : Nat) : Nat :=
  min x.truncate.toNat limit

/-- Comparison with an integer by value, so that both zeros are equal to `0`. -/
def le (x : Binary64) (i : Int) : Bool :=
  let (n, d) := x.ratio
  let v : Int := if x.negative then -(n : Int) else n
  v ≤ i * d

/-- Comparison with an integer by value. -/
def ge (x : Binary64) (i : Int) : Bool :=
  let (n, d) := x.ratio
  let v : Int := if x.negative then -(n : Int) else n
  i * d ≤ v

def isInt (x : Binary64) (i : Int) : Bool := x.le i && x.ge i

end Binary64

end Scriptgen
