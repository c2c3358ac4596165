import Scriptgen.Perl.Lower.Container
import Scriptgen.Perl.Texts
/-!
# Lowering to Perl: text

The methods of text.
-/

namespace Scriptgen.Perl

def splitText (text : Expr) (separator : Option Node) : Lower Expr := do
  match separator.map Node.unwrapped with
  | none => return .arrayRef [text]
  | some separator =>
    match separator.stringValue? with
    | some "" => return .arrayRef [charactersOf text]
    | some literal => return parts (pattern (quoteMeta literal))
    | none =>
      if separator.has "regex" then return parts (← value separator)
      else return parts (.regex (.quoted (← value separator)) "")
where
  /-- The parts, empty ones at the end included. -/
  parts (separator : Expr) : Expr := .arrayRef [.call "split" [separator, text, .int (-1)]]

/-- What a replacement looks for, and whether it replaces all matches. -/
def searchedPattern (node : Node) (all : Bool) : Lower (RegexSource × Bool) := do
  let node := node.unwrapped
  match node.field? "regex" with
  | some regex =>
    let text := Node.regexPart regex "pattern"
    let flags := Node.regexPart regex "flags"
    let inner := knownFlags flags
    let text := if inner.isEmpty then text else "(?" ++ inner ++ ")" ++ text
    return (.pattern text, all || flags.toList.contains 'g')
  | none =>
    match node.stringValue? with
    | some text => return (.pattern (quoteMeta text), all)
    | none => return (.quoted (← value node), all)

def replacementValue (node : Node) : Lower Expr := do
  match node.unwrapped.stringValue? with
  | some text => return replacementExpr text
  | none =>
    if node.isFunctionLiteral then
      warnLossy "replacement callbacks receive the whole match only"
      return .callCode (← value node) [.scalar "&"]
    else value node

def replaceText (text : Expr) (searched replacement : Node) (all : Bool) : Lower Expr := do
  let (source, everywhere) ← searchedPattern searched all
  return .substitute text source (← replacementValue replacement) everywhere

def paddedText (text : Expr) (args : List Node) (atStart : Bool) : Lower Expr := do
  let (setup, text) ← shared text "text"
  let width ← valueOf args[0]?
  let fill ← valueOr (.string " ") args[1]?
  let padding := binary .repeated fill (binary .sub width (.call "length" [text]))
  return withSetup setup
    (if atStart then binary .concat padding text else binary .concat text padding)

def endsWithTest (text : Expr) (ending : Option Node) : Lower Expr := do
  let (setup, ending) ← shared (← valueOf ending) "suffix"
  let tail := Expr.call "substr" [text, unary .neg (.call "length" [ending])]
  return withSetup setup (binary .strEq tail ending)

/-- A slice of a text. A negative end that is written as such counts from the end. -/
def slicedText (text : Expr) (args : List Node) : Lower Expr := do
  let start ← valueOf args[0]?
  match args[1]? with
  | some stop =>
    let stopValue ← value stop
    if stop.isNegativeLiteral then return .call "substr" [text, start, stopValue]
    else return substring text start (some stopValue)
  | none => return .call "substr" [text, start]

def charsOfCodes (args : List Node) : Lower Expr := do
  let codes ← arguments args
  if args.any (·.type == "SpreadElement") then
    return .call "join" [.string "", blockList .map (.call "chr" [current]) (.list codes)]
  else return chain .concat (.string "") (codes.map fun code => .call "chr" [code])

def textMethod (receiver : Node) (method : String) (args : List Node) : Attempt Expr := do
  let text ← value receiver
  let indexOf : Lower Expr := return .call "index" [text, ← valueOf args[0]?]
  match method with
  | "charAt" => return charAt text (← valueOf args[0]?)
  | "charCodeAt" | "codePointAt" => return charCodeAt text (← valueOr (.int 0) args[0]?)
  | "substring" =>
    let start ← valueOf args[0]?
    return substring text start (← args[1]?.mapM fun node => value node)
  | "slice" => slicedText text args
  | "substr" =>
    let start ← valueOf args[0]?
    return .call "substr" ([text, start] ++ (← args[1]?.toList.mapM fun node => value node))
  | "indexOf" => indexOf
  | "lastIndexOf" => return .call "rindex" [text, ← valueOf args[0]?]
  | "includes" => return binary .numNe (← indexOf) (.int (-1))
  | "startsWith" => return binary .numEq (← indexOf) (.int 0)
  | "endsWith" => endsWithTest text args[0]?
  | "toUpperCase" | "toLocaleUpperCase" => return .call "uc" [text]
  | "toLowerCase" | "toLocaleLowerCase" => return .call "lc" [text]
  | "trim" => return without text "^\\s+|\\s+$"
  | "trimStart" => return without text "^\\s+"
  | "trimEnd" => return without text "\\s+$"
  | "repeat" => return binary .repeated text (← valueOf args[0]?)
  | "padStart" => paddedText text args true
  | "padEnd" => paddedText text args false
  | "split" => splitText text args[0]?
  | "replace" => replaceText text (← need args[0]?) (← need args[1]?) false
  | "replaceAll" => replaceText text (← need args[0]?) (← need args[1]?) true
  | "concat" => return (← arguments args).foldl (binary .concat) text
  | "localeCompare" => return binary .strCmp text (← valueOf args[0]?)
  | "toString" | "valueOf" => return text
  | _ => failure

end Scriptgen.Perl
