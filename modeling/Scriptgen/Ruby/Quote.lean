import Scriptgen.Text.Numeral
/-!
# Ruby string literals

A text of printable ASCII characters is written in single quotes, where only the backslash and the
quote itself are escaped. Any other text is written in double quotes: there `#` is escaped as
well, so that nothing is interpolated, and other characters are given by number.
-/

namespace Scriptgen.Ruby

def isPrintable (c : Char) : Bool := ' ' ≤ c && c ≤ '~'

def escapeSingle (c : Char) : List Char :=
  if c == '\\' || c == '\'' then ['\\', c] else [c]

def escapeDouble (c : Char) : List Char :=
  if c == '\\' || c == '"' || c == '#' then ['\\', c]
  else if c == '\n' then ['\\', 'n']
  else if c == '\t' then ['\\', 't']
  else if c == '\r' then ['\\', 'r']
  else if c == '\x1b' then ['\\', 'e']
  else if isPrintable c then [c]
  else ['\\', 'u', '\x7b'] ++ (Text.hexLower c.toNat).toList ++ ['\x7d']

/-- A text between double quotes, without the quotes. -/
def escapeText (text : String) : String := String.ofList (text.toList.flatMap escapeDouble)

def doubleQuoted (text : String) : String := "\"" ++ escapeText text ++ "\""

def quoteString (text : String) : String :=
  let cs := text.toList
  if cs.all isPrintable then String.ofList ('\'' :: cs.flatMap escapeSingle ++ ['\''])
  else doubleQuoted text

/-- Whether a text can be the name of a method, variable or symbol. -/
def isIdentifier (text : String) : Bool :=
  match text.toList with
  | [] => false
  | c :: rest => (c.isAlpha || c == '_') && rest.all fun c => c.isAlphanum || c == '_'

def quoteSymbol (text : String) : String :=
  if isIdentifier text then ":" ++ text else ":" ++ doubleQuoted text

end Scriptgen.Ruby
