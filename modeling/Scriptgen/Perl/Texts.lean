import Scriptgen.Perl.Build
/-!
# Text in Perl

Idioms on text: patterns for literal text, the value of a replacement text, parts of a text, and
conversions between text and bytes.
-/

namespace Scriptgen.Perl

/-! ## Patterns -/

/-- Whether a character stands for itself in a pattern, whatever is around it. -/
def isPatternLiteral (c : Char) : Bool := c.isAlphanum || c == '_' || 128 ≤ c.toNat

/-- The pattern that matches a text and nothing else. -/
def quoteMeta (text : String) : String :=
  String.ofList (text.toList.flatMap fun c => if isPatternLiteral c then [c] else ['\\', c])

def knownFlags (flags : String) : String :=
  String.ofList (flags.toList.filter fun c => c == 'i' || c == 'm' || c == 's' || c == 'x')

def Expr.isEmptyText : Expr → Bool
  | .string text => text.isEmpty
  | _ => false

/-- The parts of a replacement text. `$$` is a dollar sign, `$&` the match and `$1` a group; text
that has been read so far is in `literal`, from its end. -/
def replacementParts (literal : List Char) : List Char → List Expr
  | '$' :: '$' :: rest => replacementParts ('$' :: literal) rest
  | '$' :: '&' :: rest =>
    .string (String.ofList literal.reverse) :: .scalar "&" :: replacementParts [] rest
  | '$' :: d :: rest =>
    if d.isDigit then
      .string (String.ofList literal.reverse) ::
        .scalar (String.ofList (d :: rest.takeWhile Char.isDigit)) ::
        replacementParts [] (rest.dropWhile Char.isDigit)
    else replacementParts ('$' :: literal) (d :: rest)
  | c :: rest => replacementParts (c :: literal) rest
  | [] => [.string (String.ofList literal.reverse)]
termination_by text => text.length
decreasing_by
  all_goals
    have := (List.dropWhile_suffix (l := rest) Char.isDigit).length_le
    simp only [List.length_cons]
    omega

def replacementExpr (text : String) : Expr :=
  chain .concat (.string "") ((replacementParts [] text.toList).filter (!·.isEmptyText))

def without (text : Expr) (matched : String) : Expr :=
  .substitute text (.pattern matched) (.string "") true

/-! ## Parts of a text -/

def substring (text start : Expr) : Option Expr → Expr
  | some stop => .call "substr" [text, start, binary .sub stop start]
  | none => .call "substr" [text, start]

def charAt (text index : Expr) : Expr := .call "substr" [text, index, .int 1]

def charCodeAt (text index : Expr) : Expr := .call "ord" [charAt text index]

/-! ## Bytes -/

def textToBytes (text : Expr) : Expr := .arrayRef [.call "unpack" [.string "C*", text]]

def bytesToText (list : Expr) : Expr := .call "pack" [.string "C*", list]

def bytesToHex (list : Expr) : Expr :=
  .call "join"
    [.string "", blockList .map (.call "sprintf" [.string "%02x", current]) list]

def hexToBytes (text : Expr) : Expr :=
  .arrayRef [blockList .map (.call "hex" [current]) (.call "unpack" [.string "(A2)*", text])]

end Scriptgen.Perl
