import Scriptgen.Ruby.Build
import Scriptgen.Source.Word
/-!
# Words in Ruby

The integers of Ruby have any number of bits, and its bitwise operators work on them in two's
complement. The source computes with signed words of 32 bits, so that generated code cuts its
results down to their low bits and restores the sign.
-/

namespace Scriptgen.Ruby

def mask32 : Expr := hex 0xFFFFFFFF

def maskedBy (mask : Nat) (value : Expr) : Expr := binary .bitAnd value (hex mask)

def low32 (value : Expr) : Expr := binary .bitAnd value mask32

def int32 (value : Expr) : Expr :=
  binary .sub (binary .bitXor (low32 value) (hex signBit32)) (hex signBit32)

def Expr.literalNat? : Expr → Option Nat
  | .number text => Text.natOfDigits? Text.maxNat32 text
  | _ => none

def shiftAmount (amount : Expr) : Expr :=
  if amount.literalNat?.any (· < 32) then amount else binary .bitAnd amount (.int 31)

def Expr.isZeroText : Expr → Bool
  | .number text => text == "0"
  | _ => false

def unsignedShift (value amount : Expr) : Expr :=
  if amount.isZeroText then low32 value else binary .shr (low32 value) (shiftAmount amount)

def leftShift (value amount : Expr) : Expr := int32 (binary .shl value (shiftAmount amount))

def signedShift (value amount : Expr) : Expr :=
  if amount.isZeroText then int32 value else binary .shr (int32 value) (shiftAmount amount)

def bitwise (operator : String) (left right : Expr) (narrow : Bool) : Expr :=
  match operator with
  | ">>>" => unsignedShift left right
  | "<<" => leftShift left right
  | ">>" => signedShift left right
  | "&" => if narrow then binary .bitAnd left right else int32 (binary .bitAnd left right)
  | "|" => int32 (binary .bitOr left right)
  | _ => int32 (binary .bitXor left right)

def byteShifts (bits : Nat) : List Nat := (List.range (bits / 8)).map (· * 8)

def byteAt (word : Expr) (shift : Nat) : Expr :=
  maskedBy 0xFF (if shift == 0 then word else binary .shr word (.int shift))

def wordBytes (word : Expr) (bits : Nat) (bigEndian : Bool) : List Expr :=
  let shifts := byteShifts bits
  (if bigEndian then shifts.reverse else shifts).map (byteAt word)

def byteInPlace (byte : Expr) (position : Nat) : Expr :=
  let masked := maskedBy 0xFF byte
  if position == 0 then masked else binary .shl masked (.int (position * 8))

def packBytes (bytes : List Expr) (bigEndian : Bool) : Expr :=
  let positions := List.range bytes.length
  chain .bitOr (.int 0)
    ((bytes.zip (if bigEndian then positions.reverse else positions)).map fun (byte, position) =>
      byteInPlace byte position)

def cast (value : Expr) (target : String) : Expr :=
  match target with
  | "uint8" | "byte" => maskedBy 0xFF value
  | "uint16" => maskedBy 0xFFFF value
  | "uint32" => low32 value
  | "int32" => int32 value
  | "float" | "number" | "double" => value.read "to_f"
  | "string" => value.read "to_s"
  | "bool" | "boolean" => unary .not (unary .not value)
  | _ => value.read "to_i"

end Scriptgen.Ruby
