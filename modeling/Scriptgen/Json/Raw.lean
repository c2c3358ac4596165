import Scriptgen.Text.Numeral
/-!
# JSON text

`Raw.parse?` reads JSON text by the grammar alone. The tree it gives keeps what the grammar
does not decide: repeated keys, numbers as they are written, and strings whose escapes spell
half of a surrogate pair. A reader that skips a value asks no more of it than to be such a tree.
-/

namespace Scriptgen.Json

/-- A number as it is written. An absent fraction has no digits. -/
structure Numeral where
  negative : Bool
  whole : List Char
  fraction : List Char
  /-- Whether the exponent is negative, and its digits. -/
  exponent : Option (Bool × List Char)

/-- JSON text as a tree. A string is `none` if its escapes do not spell characters. -/
inductive Raw where
  | null
  | bool (b : Bool)
  | number (n : Numeral)
  | string (s : Option String)
  | array (items : List Raw)
  | object (fields : List (Option String × Raw))

namespace Raw

def isSpace (c : Char) : Bool := c == ' ' || c == '\n' || c == '\t' || c == '\r'

def skipSpace (cs : List Char) : List Char := cs.dropWhile isSpace

/-! ## Strings -/

/-- A character of a string, or a code unit that an escape gives by number. -/
inductive Piece where
  | char (c : Char)
  | unit (n : Nat)

/-- The code unit that four hexadecimal digits denote. -/
def hexUnit? : List Char → Option (Nat × List Char)
  | a :: b :: c :: d :: rest => do
    let a ← Text.hexDigit? a
    let b ← Text.hexDigit? b
    let c ← Text.hexDigit? c
    let d ← Text.hexDigit? d
    some (((a * 16 + b) * 16 + c) * 16 + d, rest)
  | _ => none

def escape? : List Char → Option (Piece × List Char)
  | '"' :: rest => some (.char '"', rest)
  | '\\' :: rest => some (.char '\\', rest)
  | '/' :: rest => some (.char '/', rest)
  | 'b' :: rest => some (.char '\x08', rest)
  | 'f' :: rest => some (.char '\x0c', rest)
  | 'n' :: rest => some (.char '\n', rest)
  | 'r' :: rest => some (.char '\r', rest)
  | 't' :: rest => some (.char '\t', rest)
  | 'u' :: rest => (hexUnit? rest).map fun (n, rest) => (.unit n, rest)
  | _ => none

/-- The pieces up to the closing quote. Control characters have to be escaped. -/
def pieces? : Nat → List Char → Option (List Piece × List Char)
  | 0, _ => none
  | _ + 1, [] => none
  | fuel + 1, c :: rest =>
    if c == '"' then some ([], rest)
    else if c == '\\' then do
      let (piece, rest) ← escape? rest
      let (more, rest) ← pieces? fuel rest
      some (piece :: more, rest)
    else if c.toNat < 0x20 then none
    else do
      let (more, rest) ← pieces? fuel rest
      some (.char c :: more, rest)

/-- The text that the pieces spell. Surrogates have to come in pairs. -/
def spell? : List Piece → Option (List Char)
  | [] => some []
  | .char c :: rest => (spell? rest).map (c :: ·)
  | .unit n :: rest =>
    if 0xDC00 ≤ n && n ≤ 0xDFFF then none
    else if 0xD800 ≤ n && n ≤ 0xDBFF then
      match rest with
      | .unit low :: rest =>
        if 0xDC00 ≤ low && low ≤ 0xDFFF then
          let code := 0x10000 + (n - 0xD800) * 0x400 + (low - 0xDC00)
          (spell? rest).map (Char.ofNat code :: ·)
        else none
      | _ => none
    else (spell? rest).map (Char.ofNat n :: ·)

def stringBody? (cs : List Char) : Option (Option String × List Char) := do
  let (pieces, rest) ← pieces? (cs.length + 1) cs
  some ((spell? pieces).map String.ofList, rest)

/-! ## Numbers -/

/-- The digits at the start of a text, and the rest. -/
def digits (cs : List Char) : List Char × List Char :=
  (cs.takeWhile Char.isDigit, cs.dropWhile Char.isDigit)

def fraction? : List Char → Option (List Char × List Char)
  | '.' :: rest =>
    let (ds, rest) := digits rest
    if ds.isEmpty then none else some (ds, rest)
  | cs => some ([], cs)

def exponent? : List Char → Option (Option (Bool × List Char) × List Char)
  | c :: rest =>
    if c == 'e' || c == 'E' then
      let (negative, rest) :=
        match rest with
        | '+' :: rest => (false, rest)
        | '-' :: rest => (true, rest)
        | rest => (false, rest)
      let (ds, rest) := digits rest
      if ds.isEmpty then none else some (some (negative, ds), rest)
    else some (none, c :: rest)
  | [] => some (none, [])

/-- A number without its sign. A leading zero stands alone. -/
def numeral? (negative : Bool) (cs : List Char) : Option (Numeral × List Char) := do
  let (whole, rest) := digits cs
  match whole with
  | [] => none
  | '0' :: _ :: _ => none
  | _ =>
    let (fraction, rest) ← fraction? rest
    let (exponent, rest) ← exponent? rest
    some (⟨negative, whole, fraction, exponent⟩, rest)

/-! ## Values -/

def keyword? (word : String) (value : Raw) (cs : List Char) : Option (Raw × List Char) :=
  if word.toList.isPrefixOf cs then some (value, cs.drop word.length) else none

mutual

def value? : Nat → List Char → Option (Raw × List Char)
  | 0, _ => none
  | fuel + 1, cs =>
    match skipSpace cs with
    | [] => none
    | '"' :: rest => (stringBody? rest).map fun (s, rest) => (.string s, rest)
    | '[' :: rest =>
      match skipSpace rest with
      | ']' :: rest => some (.array [], rest)
      | rest => (items? fuel rest).map fun (items, rest) => (.array items, rest)
    | '\x7b' :: rest =>
      match skipSpace rest with
      | '\x7d' :: rest => some (.object [], rest)
      | rest => (fields? fuel rest).map fun (fields, rest) => (.object fields, rest)
    | '-' :: rest => (numeral? true rest).map fun (n, rest) => (.number n, rest)
    | 'n' :: rest => keyword? "ull" .null rest
    | 't' :: rest => keyword? "rue" (.bool true) rest
    | 'f' :: rest => keyword? "alse" (.bool false) rest
    | rest => (numeral? false rest).map fun (n, rest) => (.number n, rest)

def items? : Nat → List Char → Option (List Raw × List Char)
  | 0, _ => none
  | fuel + 1, cs => do
    let (item, rest) ← value? fuel cs
    match skipSpace rest with
    | ']' :: rest => some ([item], rest)
    | ',' :: rest =>
      let (more, rest) ← items? fuel rest
      some (item :: more, rest)
    | _ => none

def fields? : Nat → List Char → Option (List (Option String × Raw) × List Char)
  | 0, _ => none
  | fuel + 1, cs =>
    match skipSpace cs with
    | '"' :: rest => do
      let (key, rest) ← stringBody? rest
      match skipSpace rest with
      | ':' :: rest =>
        let (value, rest) ← value? fuel rest
        match skipSpace rest with
        | '\x7d' :: rest => some ([(key, value)], rest)
        | ',' :: rest =>
          let (more, rest) ← fields? fuel rest
          some ((key, value) :: more, rest)
        | _ => none
      | _ => none
    | _ => none

end

/-- The tree of a text that holds one value and nothing else. Every step of the reader uses up
a character or is the first of a value, so twice the length of the text is fuel enough. -/
def parse? (text : String) : Option Raw :=
  let cs := text.toList
  match value? (2 * cs.length + 2) cs with
  | some (value, rest) => if (skipSpace rest).isEmpty then some value else none
  | none => none

end Raw

end Scriptgen.Json
