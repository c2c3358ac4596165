import Scriptgen.Source.Node
import Scriptgen.Text.Numeral
/-!
# Words of fixed width

The bitwise operators of the source work on words of 32 bits in two's complement, which the
targets' operators do not. These facts tell where generated code has to mask, and how it
restores the sign.
-/

namespace Scriptgen

def signBit32 : Nat := 0x80000000

/-- A rotation of a word of `bits` bits. -/
structure Rotation where
  bits : Nat
  left : Bool
deriving DecidableEq, Repr

namespace Rotation

def ofWidth? (bits : Nat) (left : Bool) : Option Rotation :=
  if 1 ≤ bits && bits ≤ 64 then some ⟨bits, left⟩ else none

def mask (rotation : Rotation) : Nat := 1 <<< rotation.bits - 1

/-- Whether an amount written as a literal is below the width and so needs no reduction. -/
def inRange (rotation : Rotation) (literal : String) : Bool :=
  (Text.natOfDigits? Text.maxNat32 literal).any (· < rotation.bits)

def ofHelper? : String → Option Rotation
  | "RotL32" => some ⟨32, true⟩
  | "RotR32" => some ⟨32, false⟩
  | "RotL16" => some ⟨16, true⟩
  | "RotR16" => some ⟨16, false⟩
  | "RotL8" => some ⟨8, true⟩
  | "RotR8" => some ⟨8, false⟩
  | _ => none

end Rotation

/-- The width of a rotation as it is given by a number, if it is one of 1 to 64. -/
def rotationWidth? (value : Binary64) : Option Nat :=
  if value.isIntegral && value.ge 1 && value.le 64 then some value.truncate.toNat else none

/-- Whether this is a literal integer from zero up to the sign bit. Masking with such a number
leaves no sign to restore. -/
def Node.isInt31Literal (expr : Node) : Bool :=
  let node := expr.unwrapped
  node.type == "Literal" &&
    (node.number? "value").any fun v => v.isIntegral && v.ge 0 && !v.ge signBit32

/-- The sign bit of a 32-bit word after it has been shifted right with its sign. Only the low five
bits of the amount count. -/
def shiftedSign (amount : Nat) : Nat := signBit32 >>> (amount % 32)

end Scriptgen
