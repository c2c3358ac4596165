import Scriptgen.Perl.Build
import Scriptgen.Source.Word
/-!
# Words in Perl

The integers of Perl have 64 bits and its bitwise operators have no sign. The source computes with
signed words of 32 bits, so that generated code masks its operands and restores the sign.
-/

namespace Scriptgen.Perl

def mask32 : Expr := hex 0xFFFFFFFF

def maskedBy (mask : Nat) (value : Expr) : Expr := binary .bitAnd value (hex mask)

def low32 (value : Expr) : Expr := binary .bitAnd value mask32

/-- A value less `sign` after `sign` has been flipped in it, which moves it into the signed
range. -/
def withSign (value sign : Expr) : Expr := binary .sub (binary .bitXor value sign) sign

/-- The low 32 bits of a value read as a signed integer. -/
def int32 (value : Expr) : Expr := withSign (low32 value) (hex signBit32)

def Expr.literalNat? : Expr → Option Nat
  | .number text => Text.natOfDigits? Text.maxNat32 text
  | _ => none

/-- The amount of a shift. Only its low five bits count. -/
def shiftAmount (amount : Expr) : Expr :=
  if amount.literalNat?.any (· < 32) then amount else binary .bitAnd amount (.int 31)

def Expr.isZeroText : Expr → Bool
  | .number text => text == "0"
  | _ => false

def unsignedShift (value amount : Expr) : Expr :=
  if amount.isZeroText then low32 value else binary .shr (low32 value) (shiftAmount amount)

def leftShift (value amount : Expr) : Expr := int32 (binary .shl value (shiftAmount amount))

/-- A right shift that keeps the sign. The amount is below 32, and `sign` is the sign bit shifted
by as much. -/
def signedShift (value amount sign : Expr) : Expr :=
  withSign (binary .shr (low32 value) amount) sign

/-- The bytes of a word as shifts of it, from the least significant one. -/
def byteShifts (bits : Nat) : List Nat := (List.range (bits / 8)).map (· * 8)

def byteAt (word : Expr) (shift : Nat) : Expr :=
  maskedBy 0xFF (if shift == 0 then word else binary .shr word (.int shift))

def wordBytes (word : Expr) (bits : Nat) (bigEndian : Bool) : List Expr :=
  let shifts := byteShifts bits
  (if bigEndian then shifts.reverse else shifts).map (byteAt word)

def byteInPlace (byte : Expr) (position : Nat) : Expr :=
  let masked := maskedBy 0xFF byte
  if position == 0 then masked else binary .shl masked (.int (position * 8))

def packBytes (bytes : List Expr) (bigEndian : Bool) : Expr :=
  let positions := List.range bytes.length
  chain .bitOr (.int 0)
    ((bytes.zip (if bigEndian then positions.reverse else positions)).map fun (byte, position) =>
      byteInPlace byte position)

/-- A value converted to the type with a given name. -/
def cast (value : Expr) (target : String) : Expr :=
  match target with
  | "uint8" | "byte" => maskedBy 0xFF value
  | "uint16" => maskedBy 0xFFFF value
  | "uint32" => low32 value
  | "int32" => int32 value
  | "float" | "number" | "double" => binary .add value (.int 0)
  | "string" => binary .concat (.string "") value
  | "bool" | "boolean" => ternary value (.int 1) (.int 0)
  | _ => .call "int" [value]

end Scriptgen.Perl
