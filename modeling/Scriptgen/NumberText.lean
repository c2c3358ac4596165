import Scriptgen.Binary64.Shortest
import Scriptgen.Text.Blank
import Scriptgen.Text.Numeral
/-!
# Text of number literals

A number literal keeps its spelling if the targets read it as the source does. All other numbers
are written in decimal notation without an exponent.
-/

namespace Scriptgen

/-- Whether the targets read a spelling, in lower case, as the source does: a hexadecimal, binary or
decimal integer. A leading zero would make it octal. -/
def isPortable : List Char → Bool
  | '0' :: 'x' :: digits =>
    !digits.isEmpty && digits.all fun c => Text.isHexDigit c || c == '_'
  | '0' :: 'b' :: digits =>
    !digits.isEmpty && digits.all fun c => c == '0' || c == '1' || c == '_'
  | digits =>
    !digits.isEmpty && (digits.all fun c => c.isDigit || c == '_') &&
      (digits == ['0'] || digits.head? != some '0')

/-- A number in decimal notation. Whole numbers below `10 ^ 15` are written as integers, so that
zero has no sign. -/
def formatNumber (value : Binary64) : String :=
  if value.isIntegral && !value.ge 1000000000000000 && !value.le (-1000000000000000) then
    Text.decimalInt value.truncate
  else value.decimalText

/-- The text of a number literal with this value and spelling. The mark of a big integer is
left out. -/
def numberText (value : Binary64) (spelling : Option String) : String :=
  match spelling with
  | none => formatNumber value
  | some raw =>
    let digits := Text.dropEndWhile (· == 'n') raw.toList
    if isPortable (digits.map Char.toLower) then String.ofList digits else formatNumber value

end Scriptgen
