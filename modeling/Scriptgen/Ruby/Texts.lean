import Scriptgen.Ruby.Build
/-!
# Text in Ruby

Idioms on text: patterns, replacement texts, positions that may be missing, and conversions
between text and bytes.
-/

namespace Scriptgen.Ruby

/-! ## Patterns -/

/-- A pattern whose line anchors stand for the ends of the text. `inClass` tells whether the rest
starts inside a class of characters. -/
def wholeTextAnchors (inClass : Bool) : List Char → List Char
  | '\\' :: c :: rest => '\\' :: c :: wholeTextAnchors inClass rest
  | '[' :: rest => '[' :: wholeTextAnchors true rest
  | ']' :: rest => ']' :: wholeTextAnchors false rest
  | '^' :: rest => (if inClass then ['^'] else ['\\', 'A']) ++ wholeTextAnchors inClass rest
  | '$' :: rest => (if inClass then ['$'] else ['\\', 'z']) ++ wholeTextAnchors inClass rest
  | c :: rest => c :: wholeTextAnchors inClass rest
  | [] => []

def rubyFlag? : Char → Option Char
  | 'i' => some 'i'
  | 'x' => some 'x'
  | 's' => some 'm'
  | _ => none

/-- A regular expression. Without the flag `m`, its anchors are those of the whole text. -/
def regexLiteral (pattern flags : String) : Expr :=
  .regex
    (if flags.toList.contains 'm' then pattern
      else String.ofList (wholeTextAnchors false pattern.toList))
    (String.ofList (flags.toList.filterMap rubyFlag?))

def pattern (text : String) : Expr := .regex text ""

/-- The characters of a replacement text. `$1` is a group, `$&` the match and `$$` a dollar sign,
and a backslash is written twice. -/
def replacementChars : List Char → List Char
  | '\\' :: rest => '\\' :: '\\' :: replacementChars rest
  | '$' :: '$' :: rest => '$' :: replacementChars rest
  | '$' :: '&' :: rest => '\\' :: '0' :: replacementChars rest
  | '$' :: d :: rest => if d.isDigit then '\\' :: replacementChars (d :: rest)
    else '$' :: replacementChars (d :: rest)
  | c :: rest => c :: replacementChars rest
  | [] => []

def replacementText (text : String) : String := String.ofList (replacementChars text.toList)

/-! ## Searches -/

def orMinusOne (position : Expr) : Expr := binary .or position (.int (-1))

def indexOf (receiver : Expr) (method : String) (args : List Expr) : Expr :=
  orMinusOne (.method receiver method args)

def isArray (value : Expr) : Expr := .method value "is_a?" [.constant "Array"]

/-! ## Bytes -/

def bytesToText (bytes : Expr) : Expr := .method bytes "pack" [.string "C*"]

def bytesToHex (bytes : Expr) : Expr :=
  (callWith bytes "map" [] ["b"] (.function "format" [.string "%02x", .localVar "b"])).read "join"

def hexToBytes (text : Expr) : Expr :=
  .method (.method text "scan" [pattern ".."]) "map" [symbolBlock "hex"]

end Scriptgen.Ruby
