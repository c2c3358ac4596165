import Scriptgen.Ruby.Lower.Array
/-!
# Lowering to Ruby: text

The methods of text.
-/

namespace Scriptgen.Ruby

/-- The parts of a text between separators, empty ones at the end included. -/
def splitBy (text separator : Expr) : Expr := .method text "split" [separator, .int (-1)]

/-- Lowers the parts of a text between separators. A single blank is a pattern, since the text of
one would stand for any run of blanks. -/
def splitText (text : Expr) (separator : Option Node) : Lower Expr := do
  match separator with
  | none => return .array [text]
  | some separator =>
    match separator.stringValue? with
    | some "" => return text.read "chars"
    | some " " => return splitBy text (pattern " ")
    | some literal => return splitBy text (.string literal)
    | none => return splitBy text (← value separator)

/-- The regular expression that a node is, by its pattern and its flags. -/
def regexOf? (node : Node) : Option (String × String) := do
  let regex ← node.unwrapped.field? "regex"
  let pattern ← regex.get? "pattern" >>= Json.asString?
  some (pattern, Node.regexPart regex "flags")

/-- Lowers what a replacement looks for, and tells whether it replaces all matches. -/
def searchedPattern (node : Node) (all : Bool) : Lower (Expr × Bool) := do
  match regexOf? node with
  | some (pattern, flags) => return (regexLiteral pattern flags, all || flags.toList.contains 'g')
  | none => return (← value node, all)

def matchedGroup (i : Nat) : Expr := constantCall "Regexp" "last_match" [.int i]

/-- Lowers a function that gives the replacement of a match. The groups of the match are bound at
the start. -/
def replacementBlock (function : Node) : Lower Block := do
  match namedCallback? function with
  | none => return .single ["match"] (.method (← value function) "call" [.localVar "match"])
  | some callback =>
    let names := callback.paramNames
    inScope do
      declareParams names
      let groups := (names.zipIdx.drop 1).map fun (name, i) =>
        Stmt.set (.localVar (localName name)) (matchedGroup i)
      callbackBlock callback [(names.head?.map localName).getD "_match"] groups

def replacedText (text : Expr) (searched replacement : Node) (all : Bool) : Lower Expr := do
  let (pattern, all) ← searchedPattern searched all
  let method := if all then "gsub" else "sub"
  match replacement.stringValue? with
  | some literal => return .method text method [pattern, .string (replacementText literal)]
  | none =>
    if replacement.isFunctionLiteral then
      return .withBlock text method [pattern] (← replacementBlock replacement)
    else return .method text method [pattern, ← value replacement]

/-- The method of Ruby that does the same for a text and takes the same arguments. -/
def plainTextMethod? : String → Option String
  | "includes" => some "include?"
  | "startsWith" => some "start_with?"
  | "endsWith" => some "end_with?"
  | "padStart" => some "rjust"
  | "padEnd" => some "ljust"
  | _ => none

/-- The method of Ruby without arguments that does the same for a text. -/
def textConversion? : String → Option String
  | "toUpperCase" | "toLocaleUpperCase" => some "upcase"
  | "toLowerCase" | "toLocaleLowerCase" => some "downcase"
  | "trim" => some "strip"
  | "trimStart" => some "lstrip"
  | "trimEnd" => some "rstrip"
  | _ => none

/-- Lowers a method of a text that needs its arguments in another form. -/
def textMethodOn (text : Expr) (method : String) (args : List Node) : Attempt Expr := do
  match method with
  | "charAt" | "at" => return .index text (← valueOr (.int 0) args[0]?)
  | "charCodeAt" | "codePointAt" =>
    return (Expr.index text (← valueOr (.int 0) args[0]?)).read "ord"
  | "substring" | "slice" => sliced text args[0]? args[1]?
  | "substr" =>
    match args[1]? with
    | some length =>
      let start ← valueOr (.int 0) args[0]?
      return .method text "slice" [start, ← value length]
    | none => sliced text args[0]? none
  | "indexOf" => return indexOf text "index" (← arguments args)
  | "lastIndexOf" => return indexOf text "rindex" (← arguments args)
  | "repeat" => return binary .mul text (← valueOf args[0]?)
  | "split" => splitText text args[0]?
  | "replace" => replacedText text (← need args[0]?) (← need args[1]?) false
  | "replaceAll" => replacedText text (← need args[0]?) (← need args[1]?) true
  | "concat" => return (← arguments args).foldl concat text
  | "localeCompare" => return binary .cmp text (← valueOf args[0]?)
  | "search" => return orMinusOne (binary .matches text (← valueOf args[0]?))
  | _ => return text

def textMethodNames : List String :=
  ["charAt", "at", "charCodeAt", "codePointAt", "substring", "slice", "substr", "indexOf",
    "lastIndexOf", "includes", "startsWith", "endsWith", "toUpperCase", "toLocaleUpperCase",
    "toLowerCase", "toLocaleLowerCase", "trim", "trimStart", "trimEnd", "repeat", "padStart",
    "padEnd", "split", "replace", "replaceAll", "concat", "localeCompare", "search", "toString",
    "valueOf"]

def textMethod (receiver : Node) (method : String) (args : List Node) : Attempt Expr := do
  if !textMethodNames.contains method then failure
  let text ← value receiver
  if let some name := textConversion? method then return text.read name
  if let some name := plainTextMethod? method then return .method text name (← arguments args)
  textMethodOn text method args

end Scriptgen.Ruby
