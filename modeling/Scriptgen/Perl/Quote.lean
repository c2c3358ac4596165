import Scriptgen.Text.Numeral
/-!
# Perl string literals

A text of printable ASCII characters is written in single quotes, where only the backslash and the
quote itself are escaped. Any other text is written in double quotes: there `$` and `@` are
escaped as well, and other characters are given by number.
-/

namespace Scriptgen.Perl

def isPrintable (c : Char) : Bool := ' ' ≤ c && c ≤ '~'

def escapeSingle (c : Char) : List Char :=
  if c == '\\' || c == '\'' then ['\\', c] else [c]

def escapeDouble (c : Char) : List Char :=
  if c == '\\' || c == '"' || c == '$' || c == '@' then ['\\', c]
  else if c == '\n' then ['\\', 'n']
  else if c == '\t' then ['\\', 't']
  else if c == '\r' then ['\\', 'r']
  else if isPrintable c then [c]
  else ['\\', 'x', '\x7b'] ++ (Text.hexLower c.toNat).toList ++ ['\x7d']

def quoteString (text : String) : String :=
  let cs := text.toList
  if cs.all isPrintable then String.ofList ('\'' :: cs.flatMap escapeSingle ++ ['\''])
  else String.ofList ('"' :: cs.flatMap escapeDouble ++ ['"'])

end Scriptgen.Perl
