import Scriptgen.Binary64
import Scriptgen.Text.Blank
import Scriptgen.Text.Numeral
import Scriptgen.Toml
/-!
# Reading TOML

`Toml.parse?` reads a document by the grammar of TOML 1.0. Integers have 64 bits with sign.
-/

namespace Scriptgen.Toml

/-- The greatest number of keys in a dotted key, and of arrays and inline tables around a value. -/
def maxNesting : Nat := 79

/-! ## Blanks, comments and lines -/

def isSpace (c : Char) : Bool := c == ' ' || c == '\t'

def skipSpace (cs : List Char) : List Char := cs.dropWhile isSpace

def newline? : List Char → Option (List Char)
  | '\n' :: rest => some rest
  | '\r' :: '\n' :: rest => some rest
  | _ => none

/-- A character other than a control character; the tab counts as one that is not. -/
def isPrintable (c : Char) : Bool := c == '\t' || (0x20 ≤ c.toNat && c.toNat != 0x7F)

/-- The text after a comment, if one stands at its start. -/
def skipComment (cs : List Char) : List Char :=
  match cs with
  | '#' :: rest => rest.dropWhile isPrintable
  | _ => cs

/-- The text after the blanks and the comment that may follow a complete line, and after its
end. -/
def lineEnd? (cs : List Char) : Option (List Char) :=
  match skipComment (skipSpace cs) with
  | [] => some []
  | rest => newline? rest

def skipLines : Nat → List Char → List Char
  | 0, cs => cs
  | fuel + 1, cs =>
    match skipComment (skipSpace cs) with
    | [] => []
    | rest =>
      match newline? rest with
      | some rest => skipLines fuel rest
      | none => rest

/-! ## Strings -/

def scalar? (digits : List Char) : Option Char := do
  let values ← digits.mapM Text.hexDigit?
  let code := values.foldl (fun n d => 16 * n + d) 0
  if code < 0xD800 || (0xDFFF < code && code < 0x110000) then some (Char.ofNat code) else none

def escape? : List Char → Option (Char × List Char)
  | 'b' :: rest => some ('\x08', rest)
  | 't' :: rest => some ('\t', rest)
  | 'n' :: rest => some ('\n', rest)
  | 'f' :: rest => some ('\x0c', rest)
  | 'r' :: rest => some ('\r', rest)
  | '"' :: rest => some ('"', rest)
  | '\\' :: rest => some ('\\', rest)
  | 'u' :: rest =>
    if rest.length < 4 then none else (scalar? (rest.take 4)).map (·, rest.drop 4)
  | 'U' :: rest =>
    if rest.length < 8 then none else (scalar? (rest.take 8)).map (·, rest.drop 8)
  | _ => none

def basic? : Nat → List Char → Option (List Char × List Char)
  | 0, _ => none
  | _ + 1, [] => none
  | fuel + 1, c :: rest =>
    if c == '"' then some ([], rest)
    else if c == '\\' then do
      let (c, rest) ← escape? rest
      let (cs, rest) ← basic? fuel rest
      some (c :: cs, rest)
    else if isPrintable c then do
      let (cs, rest) ← basic? fuel rest
      some (c :: cs, rest)
    else none

def literal? : List Char → Option (List Char × List Char)
  | [] => none
  | c :: rest =>
    if c == '\'' then some ([], rest)
    else if isPrintable c then (literal? rest).map fun (cs, rest) => (c :: cs, rest)
    else none

/-- The text after an escaped line end and all blanks and line ends that follow it. -/
def foldedLine? (cs : List Char) : Option (List Char) :=
  (newline? (skipSpace cs)).map fun rest =>
    rest.dropWhile fun c => isSpace c || c == '\n' || c == '\r'

/-- Whether every carriage return in the skipped part is followed by a line feed. -/
def returnsPaired : List Char → Bool
  | '\r' :: '\n' :: rest => returnsPaired rest
  | '\r' :: _ => false
  | _ :: rest => returnsPaired rest
  | [] => true

/-- The rest of a string of several lines, where `quote` delimits it and `escapes` tells whether
a backslash is special. Up to two quotes may stand before the closing three. -/
def multiline? (quote : Char) (escapes : Bool) : Nat → List Char → Option (List Char × List Char)
  | 0, _ => none
  | _ + 1, [] => none
  | fuel + 1, c :: rest =>
    if c == quote then
      let run := rest.takeWhile (· == quote)
      let after := rest.dropWhile (· == quote)
      let count := run.length + 1
      if count < 3 then do
        let (cs, rest) ← multiline? quote escapes fuel after
        some (c :: run ++ cs, rest)
      else if count ≤ 5 then some (List.replicate (count - 3) quote, after)
      else none
    else if c == '\\' && escapes then
      match escape? rest with
      | some (c, rest) => do
        let (cs, rest) ← multiline? quote escapes fuel rest
        some (c :: cs, rest)
      | none => do
        let after ← foldedLine? rest
        if returnsPaired (rest.take (rest.length - after.length)) then
          multiline? quote escapes fuel after
        else none
    else
      match newline? (c :: rest) with
      | some rest => do
        let (cs, rest) ← multiline? quote escapes fuel rest
        some ('\n' :: cs, rest)
      | none =>
        if isPrintable c then do
          let (cs, rest) ← multiline? quote escapes fuel rest
          some (c :: cs, rest)
        else none

/-- The text of a string of several lines, whose first line end is left out. -/
def multilineBody? (quote : Char) (escapes : Bool) (cs : List Char) :
    Option (List Char × List Char) :=
  let body := (newline? cs).getD cs
  multiline? quote escapes (body.length + 1) body

def string? : List Char → Option (String × List Char)
  | '"' :: '"' :: '"' :: rest =>
    (multilineBody? '"' true rest).map fun (cs, rest) => (String.ofList cs, rest)
  | '\'' :: '\'' :: '\'' :: rest =>
    (multilineBody? '\'' false rest).map fun (cs, rest) => (String.ofList cs, rest)
  | cs => shortString? cs
where
  /-- The string of one line at the start of a text. -/
  shortString? : List Char → Option (String × List Char)
    | '"' :: rest =>
      (basic? (rest.length + 1) rest).map fun (cs, rest) => (String.ofList cs, rest)
    | '\'' :: rest => (literal? rest).map fun (cs, rest) => (String.ofList cs, rest)
    | _ => none

/-! ## Numbers -/

/-- Digits with single underscores between them, without the underscores. -/
def separated? (isDigit : Char → Bool) : List Char → Option (List Char)
  | [] => none
  | [c] => if isDigit c then some [c] else none
  | c :: '_' :: rest => if isDigit c then (separated? isDigit rest).map (c :: ·) else none
  | c :: rest => if isDigit c then (separated? isDigit rest).map (c :: ·) else none

def inBase (base : Nat) (digits : List Char) : Nat :=
  digits.foldl (fun n c => base * n + (Text.hexDigit? c).getD 0) 0

/-- A sign at the start of a text, as whether it is a minus. -/
def sign : List Char → Bool × List Char
  | '+' :: rest => (false, rest)
  | '-' :: rest => (true, rest)
  | cs => (false, cs)

/-- Decimal digits without a leading zero, underscores left out. -/
def wholeDigits? (cs : List Char) : Option (List Char) :=
  match cs with
  | '0' :: _ :: _ => none
  | _ => separated? Char.isDigit cs

def integer? (token : List Char) : Option Int :=
  let prefixed (base : Nat) (isDigit : Char → Bool) (rest : List Char) : Option Int := do
    let n := inBase base (← separated? isDigit rest)
    if n < 0x8000000000000000 then some n else none
  match token with
  | '0' :: 'x' :: rest => prefixed 16 Text.isHexDigit rest
  | '0' :: 'o' :: rest => prefixed 8 (fun c => '0' ≤ c && c ≤ '7') rest
  | '0' :: 'b' :: rest => prefixed 2 (fun c => c == '0' || c == '1') rest
  | _ => do
    let (negative, rest) := sign token
    let n := Text.decimalValue (← wholeDigits? rest)
    if negative then if n ≤ 0x8000000000000000 then some (-n) else none
    else if n < 0x8000000000000000 then some n else none

/-- Whether `digits * 10 ^ scale` is too large for a double. -/
def overflows (digits : List Char) (scale : Int) : Bool :=
  let significant := digits.dropWhile (· == '0')
  let magnitude : Int := significant.length + scale
  if significant.isEmpty || magnitude < 0 then false
  else if 400 < magnitude then true
  else
    let n := Text.decimalValue significant
    let ratio := if scale < 0 then (n, Nat.pow 10 scale.natAbs) else (n * Nat.pow 10 scale.natAbs, 1)
    (Binary64.ofRatio? false ratio.1 ratio.2).isNone

/-- The digits after the mark of an exponent, with its sign. -/
def exponent? (cs : List Char) : Option Int := do
  let (negative, rest) := sign cs
  let n := Text.decimalValue (← separated? Char.isDigit rest)
  some (if negative then -n else n)

/-- Whether a whole token spells a floating point number. One too large for a double is an error
unless it is negative. -/
def isFloat (token : List Char) : Bool :=
  let (negative, rest) := sign token
  if rest == "inf".toList || rest == "nan".toList then true
  else
    let isMark (c : Char) := c == 'e' || c == 'E'
    let mantissa := rest.takeWhile (!isMark ·)
    let power := rest.dropWhile (!isMark ·)
    let whole := mantissa.takeWhile (· != '.')
    let point := mantissa.dropWhile (· != '.')
    let parts? : Option (List Char × List Char × Int) := do
      let whole ← wholeDigits? whole
      let fraction ← match point with
        | [] => some []
        | _ :: digits => separated? Char.isDigit digits
      let exponent ← match power with
        | [] => if point.isEmpty then none else some 0
        | _ :: digits => exponent? digits
      some (whole, fraction, exponent)
    match parts? with
    | some (whole, fraction, exponent) =>
      negative || !overflows (whole ++ fraction) (exponent - fraction.length)
    | none => false

/-! ## Dates and times -/

/-- A number of exactly `count` digits between `low` and `high`. -/
def field? (count low high : Nat) (cs : List Char) : Option (Nat × List Char) :=
  let digits := cs.take count
  if digits.length == count && digits.all Char.isDigit then
    let n := Text.decimalValue digits
    if low ≤ n && n ≤ high then some (n, cs.drop count) else none
  else none

def one? (allowed : List Char) : List Char → Option (List Char)
  | c :: rest => if allowed.contains c then some rest else none
  | [] => none

def monthDays (year month : Nat) : Nat :=
  let leap := year % 4 == 0 && (year % 100 != 0 || year % 400 == 0)
  if month == 2 then if leap then 29 else 28
  else if [4, 6, 9, 11].contains month then 30
  else 31

def date? (cs : List Char) : Option (List Char) := do
  let (year, cs) ← field? 4 0 9999 cs
  let cs ← one? ['-'] cs
  let (month, cs) ← field? 2 1 12 cs
  let cs ← one? ['-'] cs
  let (_, cs) ← field? 2 1 (monthDays year month) cs
  some cs

def time? (cs : List Char) : Option (List Char) := do
  let (_, cs) ← field? 2 0 23 cs
  let cs ← one? [':'] cs
  let (_, cs) ← field? 2 0 59 cs
  let cs ← one? [':'] cs
  let (_, cs) ← field? 2 0 60 cs
  match cs with
  | '.' :: rest =>
    if (rest.takeWhile Char.isDigit).isEmpty then none else some (rest.dropWhile Char.isDigit)
  | _ => some cs

/-- The text after the offset of a time zone, if there is one. -/
def offset? : List Char → Option (List Char)
  | [] => some []
  | 'Z' :: rest | 'z' :: rest => some rest
  | cs => do
    let cs ← one? ['+', '-'] cs
    let (_, cs) ← field? 2 0 23 cs
    let cs ← one? [':'] cs
    let (_, cs) ← field? 2 0 59 cs
    some cs

/-- Whether a whole token spells a date, a time or both. -/
def isMoment (token : List Char) : Bool :=
  match date? token with
  | some [] => true
  | some rest => (one? ['T', 't', ' '] rest >>= time? >>= offset?) == some []
  | none => time? token == some []

/-! ## Values -/

def isTokenChar (c : Char) : Bool :=
  c.isAlphanum || c == '+' || c == '-' || c == '_' || c == '.' || c == ':'

/-- The token at the start of a text. A date goes on over one blank if a time follows it. -/
def token (cs : List Char) : List Char × List Char :=
  let word := cs.takeWhile isTokenChar
  let rest := cs.dropWhile isTokenChar
  match date? word, rest with
  | some [], ' ' :: a :: b :: ':' :: more =>
    if a.isDigit && b.isDigit then
      let tail := a :: b :: ':' :: more
      (word ++ ' ' :: tail.takeWhile isTokenChar, tail.dropWhile isTokenChar)
    else (word, rest)
  | _, _ => (word, rest)

def plain? (cs : List Char) : Option (Toml × List Char) :=
  let (word, rest) := token cs
  if word == "true".toList then some (.boolean true, rest)
  else if word == "false".toList then some (.boolean false, rest)
  else if isMoment word then some (.moment, rest)
  else if isFloat word then some (.float, rest)
  else (integer? word).map fun i => (.integer i, rest)

def simpleKey? (cs : List Char) : Option (String × List Char) :=
  match cs with
  | '"' :: _ | '\'' :: _ => string?.shortString? cs
  | _ =>
    let isKeyChar (c : Char) := c.isAlphanum || c == '-' || c == '_'
    let word := cs.takeWhile isKeyChar
    if word.isEmpty then none else some (String.ofList word, cs.dropWhile isKeyChar)

/-- The keys of a dotted key, with blanks around each. -/
def keys? : Nat → List Char → Option (List String × List Char)
  | 0, _ => none
  | fuel + 1, cs => do
    let (key, rest) ← simpleKey? (skipSpace cs)
    match skipSpace rest with
    | '.' :: rest =>
      let (keys, rest) ← keys? fuel rest
      some (key :: keys, rest)
    | rest => some ([key], rest)

/-- A dotted key, as the keys before the last one and the last one. -/
def dottedKey? (cs : List Char) : Option ((List String × String) × List Char) := do
  let (keys, rest) ← keys? maxNesting cs
  let last ← keys.getLast?
  some ((keys.dropLast, last), rest)

mutual

/-- The value at the start of a text, with at most `depth` arrays and inline tables around the
values inside it. -/
def value? : Nat → Nat → List Char → Option (Toml × List Char)
  | 0, _, _ => none
  | fuel + 1, depth, cs =>
    match cs with
    | '"' :: _ | '\'' :: _ => (string? cs).map fun (s, rest) => (.string s, rest)
    | '[' :: rest =>
      if depth == 0 then none
      else (items? fuel (depth - 1) rest).map fun (items, rest) => (.array items, rest)
    | '\x7b' :: rest =>
      if depth == 0 then none
      else
        match skipSpace rest with
        | '\x7d' :: rest => some (.inline [], rest)
        | rest => do
          let (entries, rest) ← entries? fuel (depth - 1) rest
          let fields ← insertAll? [] entries
          some (.inline fields, rest)
    | _ => plain? cs

/-- The items of an array up to its closing bracket. A comma may follow the last one. -/
def items? : Nat → Nat → List Char → Option (List Toml × List Char)
  | 0, _, _ => none
  | fuel + 1, depth, cs =>
    match skipLines cs.length cs with
    | ']' :: rest => some ([], rest)
    | cs => do
      let (item, rest) ← value? fuel depth cs
      match skipLines rest.length rest with
      | ']' :: rest => some ([item], rest)
      | ',' :: rest =>
        let (items, rest) ← items? fuel depth rest
        some (item :: items, rest)
      | _ => none

/-- The keys and values of an inline table up to its closing brace. -/
def entries? : Nat → Nat → List Char →
    Option (List (List String × String × Toml) × List Char)
  | 0, _, _ => none
  | fuel + 1, depth, cs => do
    let ((path, key), rest) ← dottedKey? cs
    match rest with
    | '=' :: rest =>
      let (value, rest) ← value? fuel depth (skipSpace rest)
      match skipSpace rest with
      | '\x7d' :: rest => some ([(path, key, value)], rest)
      | ',' :: rest =>
        let (entries, rest) ← entries? fuel depth rest
        some ((path, key, value) :: entries, rest)
      | _ => none
    | _ => none

end

/-! ## Documents -/

/-- One line of a document that holds something. -/
inductive Line where
  | entry (path : List String) (key : String) (value : Toml)
  | header (path : List String) (key : String) (isArray : Bool)

/-- The line at the start of a text, and the text after it. -/
def line? (cs : List Char) : Option (Line × List Char) :=
  match cs with
  | '[' :: '[' :: rest => do
    let ((path, key), rest) ← dottedKey? rest
    match rest with
    | ']' :: ']' :: rest => (lineEnd? rest).map (.header path key true, ·)
    | _ => none
  | '[' :: rest => do
    let ((path, key), rest) ← dottedKey? rest
    match rest with
    | ']' :: rest => (lineEnd? rest).map (.header path key false, ·)
    | _ => none
  | _ => do
    let ((path, key), rest) ← dottedKey? cs
    match rest with
    | '=' :: rest =>
      let (value, rest) ← value? (2 * rest.length + 2) maxNesting (skipSpace rest)
      (lineEnd? rest).map (.entry path key value, ·)
    | _ => none

def lines? : Nat → List Char → Option (List Line)
  | 0, _ => none
  | fuel + 1, cs =>
    match skipLines cs.length cs with
    | [] => some []
    | cs => do
      let (line, rest) ← line? cs
      let lines ← lines? fuel rest
      some (line :: lines)

/-- The entries before the first header, and the sections after it. -/
def split : List Line → List (List String × String × Toml) × List Section
  | [] => ([], [])
  | .entry path key value :: rest =>
    let (entries, sections) := split rest
    ((path, key, value) :: entries, sections)
  | .header path key isArray :: rest =>
    let (entries, sections) := split rest
    ([], ⟨path, key, isArray, entries⟩ :: sections)

/-- The root table of a document. A byte order mark may stand before it. -/
def parse? (text : String) : Option Fields := do
  let cs := match text.toList with
    | '\uFEFF' :: rest => rest
    | cs => cs
  let lines ← lines? (cs.length + 1) cs
  let (entries, sections) := split lines
  assemble? entries sections

end Scriptgen.Toml
