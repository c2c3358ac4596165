import Scriptgen.Perl.Lower.Container
import Scriptgen.Perl.Texts
import Scriptgen.Perl.Words
/-!
# Lowering to Perl: words and bytes

Rotations, bytes of words and the other helpers on machine words that programs call through
`OpCodes`.
-/

namespace Scriptgen.Perl

def rotate (value amount : Expr) (rotation : Rotation) : Lower Expr := do
  let mask := hex rotation.mask
  let bits := Expr.int rotation.bits
  let (valueSetup, value) ← shared (binary .bitAnd value mask) "value"
  let (amountSetup, amount) ←
    match amount with
    | .number text =>
      if rotation.inRange text then pure ([], amount)
      else shared (binary .mod amount bits) "shift"
    | _ => shared (binary .mod amount bits) "shift"
  let back := binary .sub bits amount
  let (first, second) :=
    if rotation.left then (binary .shl value amount, binary .shr value back)
    else (binary .shr value amount, binary .shl value back)
  return withSetup (valueSetup ++ amountSetup)
    (binary .bitAnd (binary .bitOr first second) mask)

def unpackBytes (value : Expr) (bits : Nat) (bigEndian : Bool) : Lower Expr := do
  let (setup, word) ← shared value "word"
  return withSetup setup (.arrayRef (wordBytes word bits bigEndian))

/-- A right shift that keeps the sign, by a literal amount or by one that is reduced when it is
known. -/
def signedShiftBy (value amount : Expr) : Lower Expr := do
  match amount.literalNat? with
  | some n =>
    if n % 32 == 0 then return int32 value
    else return signedShift value (.int (n % 32 : Nat)) (hex (shiftedSign n))
  | none =>
    let (valueSetup, value) ← shared value "value"
    let (amountSetup, amount) ← shared (binary .bitAnd amount (.int 31)) "shift"
    let sign := binary .shr (hex signBit32) amount
    return withSetup (valueSetup ++ amountSetup) (signedShift value amount sign)

/-- An operator on signed words of 32 bits. With `narrow`, one operand is a mask that leaves no sign
to restore. -/
def bitwise (operator : String) (left right : Expr) (narrow : Bool) : Lower Expr := do
  match operator with
  | ">>>" => return unsignedShift left right
  | "<<" => return leftShift left right
  | ">>" => signedShiftBy left right
  | "&" =>
    let both := binary .bitAnd left right
    return if narrow then both else int32 both
  | "|" => return int32 (binary .bitOr left right)
  | _ => return int32 (binary .bitXor left right)

/-- The product in the field of 256 elements modulo `x ^ 8 + x ^ 4 + x ^ 3 + x + 1`, bit by bit. -/
def fieldProduct (a b : Expr) : Lower Expr := do
  let x ← fresh "a"
  let y ← fresh "b"
  let product ← fresh "product"
  let high ← fresh "high"
  let round ← fresh "round"
  let body : List Stmt := [
    .when (binary .bitAnd (.scalar y) (.int 1)) [.change product .bitXor (.scalar x)],
    .my high .scalar (some (maskedBy 0x80 (.scalar x))),
    .setScalar x (maskedBy 0xFF (binary .shl (.scalar x) (.int 1))),
    .when (.scalar high) [.change x .bitXor (hex 0x1B)],
    .change y .shr (.int 1)]
  return .doBlock [
    .my x .scalar (some (maskedBy 0xFF a)),
    .my y .scalar (some (maskedBy 0xFF b)),
    .my product .scalar (some (.int 0)),
    .plain (.foreach none round (binary .range (.int 1) (.int 8)) body),
    .ofExpr (.scalar product)]

def xorArrays (left right : Expr) : Lower Expr := do
  let (leftSetup, left) ← shared left "left"
  let (rightSetup, right) ← shared right "right"
  let xored := binary .bitXor (.index left current) (.index right current)
  return withSetup (leftSetup ++ rightSetup)
    (.arrayRef [blockList .map xored (indicesFrom 0 left)])

def clearedArray (array : Expr) : Lower Expr := do
  let (setup, array) ← shared array "list"
  let list := elementsOf array
  let clear := Stmt.ofExpr (.set list (binary .repeated (.list [.int 0]) (countOf list)))
  return withSetup (setup ++ [clear]) array

/-- Lowers the call of a helper on words or bytes. One without a form of its own is called in the
module of helpers. -/
def wordHelper (method : String) (args : List Node) : Lower Expr := do
  let values ← arguments args
  let first := values[0]?.getD .undefined
  let second := values[1]?.getD .undefined
  if let some rotation := Rotation.ofHelper? method then
    return ← rotate first second rotation
  match method with
  | "Pack32BE" | "Pack16BE" => return packBytes values true
  | "Pack32LE" | "Pack16LE" => return packBytes values false
  | "Unpack32BE" => unpackBytes first 32 true
  | "Unpack32LE" => unpackBytes first 32 false
  | "Unpack16BE" => unpackBytes first 16 true
  | "Unpack16LE" => unpackBytes first 16 false
  | "XorArrays" => xorArrays first second
  | "AnsiToBytes" | "StringToBytes" | "AsciiToBytes" => return textToBytes first
  | "BytesToAnsi" | "BytesToString" => return bytesToText (elementsOf first)
  | "BytesToHex8" | "BytesToHex" => return bytesToHex (elementsOf first)
  | "Hex8ToBytes" | "HexToBytes" => return hexToBytes first
  | "ToUint32" => return low32 first
  | "ToUint16" => return maskedBy 0xFFFF first
  | "ToByte" | "ToUint8" => return maskedBy 0xFF first
  | "CopyArray" => return .arrayRef [elementsOf first]
  | "ClearArray" => clearedArray first
  | "GF256Mul" => fieldProduct first second
  | other =>
    requireModule "OpCodes"
    return .call ("OpCodes::" ++ other) values

end Scriptgen.Perl
