/-!
# Numerals

Reading and writing natural numbers in decimal and hexadecimal notation. Digits are ASCII
digits only.
-/

namespace Scriptgen.Text

def digitValue (c : Char) : Nat := c.toNat - '0'.toNat

/-- The number that a list of decimal digits denotes. -/
def decimalValue (digits : List Char) : Nat :=
  digits.foldl (fun n c => 10 * n + digitValue c) 0

/-- The value of a hexadecimal digit of either case. -/
def hexDigit? (c : Char) : Option Nat :=
  if c.isDigit then some (digitValue c)
  else if 'a' ≤ c && c ≤ 'f' then some (c.toNat - 'a'.toNat + 10)
  else if 'A' ≤ c && c ≤ 'F' then some (c.toNat - 'A'.toNat + 10)
  else none

/-- Whether a character is a hexadecimal digit of either case. -/
def isHexDigit (c : Char) : Bool := (hexDigit? c).isSome

/-- A number of at most `limit`, written as decimal digits after an optional plus sign. -/
def natOfDigits? (limit : Nat) (text : String) : Option Nat :=
  let digits :=
    match text.toList with
    | '+' :: rest => rest
    | cs => cs
  if !digits.isEmpty && digits.all Char.isDigit then
    let n := decimalValue digits
    if n ≤ limit then some n else none
  else none

def maxNat32 : Nat := 0xFFFFFFFF

def maxNat64 : Nat := 0xFFFFFFFFFFFFFFFF

def hexLower (n : Nat) : String := String.ofList (Nat.toDigits 16 n)

def hexUpper (n : Nat) : String :=
  String.ofList ((Nat.toDigits 16 n).map Char.toUpper)

def decimal (n : Nat) : String := String.ofList (Nat.toDigits 10 n)

/-- An integer in decimal digits, with a minus sign if it is negative. -/
def decimalInt (i : Int) : String :=
  if i < 0 then "-" ++ decimal i.natAbs else decimal i.natAbs

/-- ASCII letters in lower case, all other characters as they are. -/
def lowerAscii (text : String) : String :=
  String.ofList (text.toList.map Char.toLower)

end Scriptgen.Text
