import Scriptgen.Ruby.Lower.Basic
import Scriptgen.Ruby.Texts
import Scriptgen.Ruby.Words
/-!
# Lowering to Ruby: words and bytes

Rotations, bytes of words and the other helpers on machine words that programs call through
`OpCodes`.
-/

namespace Scriptgen.Ruby

def rotate (value amount : Expr) (rotation : Rotation) : Lower Expr := do
  let mask := hex rotation.mask
  let bits := Expr.int rotation.bits
  let (valueSetup, value) ← shared (binary .bitAnd value mask) "value"
  let (amountSetup, amount) ←
    match amount with
    | .number text =>
      if rotation.inRange text then pure ([], amount)
      else shared (binary .mod amount bits) "shift"
    | _ => shared (binary .mod amount bits) "shift"
  let back := binary .sub bits amount
  let (first, second) :=
    if rotation.left then (binary .shl value amount, binary .shr value back)
    else (binary .shr value amount, binary .shl value back)
  return withSetup (valueSetup ++ amountSetup)
    (binary .bitAnd (binary .bitOr first second) mask)

def unpackBytes (value : Expr) (bits : Nat) (bigEndian : Bool) : Lower Expr := do
  let (setup, word) ← shared value "word"
  return withSetup setup (.array (wordBytes word bits bigEndian))

def fieldProduct (a b : Expr) : Lower Expr := do
  let x := Expr.localVar (← fresh "a")
  let y := Expr.localVar (← fresh "b")
  let product := Expr.localVar (← fresh "product")
  let high := Expr.localVar (← fresh "high")
  let body : List Stmt := [
    .when (binary .ne (binary .bitAnd y (.int 1)) (.int 0))
      [.ofExpr (.compound product .bitXor x)],
    .set high (maskedBy 0x80 x),
    .set x (maskedBy 0xFF (binary .shl x (.int 1))),
    .when (binary .ne high (.int 0)) [.ofExpr (.compound x .bitXor (hex 0x1B))],
    .ofExpr (.compound y .shr (.int 1))]
  return withSetup [
    .set x (maskedBy 0xFF a),
    .set y (maskedBy 0xFF b),
    .set product (.int 0),
    .ofExpr (.withBlock (.int 8) "times" [] (.ofBody [] body))] product

def xorArrays (left right : Expr) : Expr :=
  callWith (.method left "zip" [right]) "map" [] ["x", "y"]
    (binary .bitXor (.localVar "x") (.localVar "y"))

def wordHelper (method : String) (args : List Node) : Lower Expr := do
  let values ← arguments args
  let first := values[0]?.getD .nil
  let second := values[1]?.getD .nil
  if let some rotation := Rotation.ofHelper? method then
    return ← rotate first second rotation
  match method with
  | "Pack32BE" | "Pack16BE" => return packBytes values true
  | "Pack32LE" | "Pack16LE" => return packBytes values false
  | "Unpack32BE" => unpackBytes first 32 true
  | "Unpack32LE" => unpackBytes first 32 false
  | "Unpack16BE" => unpackBytes first 16 true
  | "Unpack16LE" => unpackBytes first 16 false
  | "XorArrays" => return xorArrays first second
  | "AnsiToBytes" | "StringToBytes" | "AsciiToBytes" => return first.read "bytes"
  | "BytesToAnsi" | "BytesToString" => return bytesToText first
  | "BytesToHex8" | "BytesToHex" => return bytesToHex first
  | "Hex8ToBytes" | "HexToBytes" => return hexToBytes first
  | "ToUint32" => return low32 first
  | "ToUint16" => return maskedBy 0xFFFF first
  | "ToByte" | "ToUint8" => return maskedBy 0xFF first
  | "ToInt32" => return int32 first
  | "CopyArray" => return first.read "dup"
  | "ClearArray" => return .method first "fill" [.int 0]
  | "GF256Mul" => fieldProduct first second
  | other =>
    requireLibrary "OpCodes"
    return constantCall "OpCodes" other values

end Scriptgen.Ruby
