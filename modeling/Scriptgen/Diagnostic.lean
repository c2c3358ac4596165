import Scriptgen.Text.Blank
import Scriptgen.Text.Numeral
/-!
# Diagnostics

What the compilers and interpreters of the targets print about a program they reject, and how
to read it. Each of them puts the line number in a different place.
-/

namespace Scriptgen

/-- One thing that a checker reports. -/
structure Diagnostic where
  /-- The checker. -/
  tool : String
  line : Option Nat
  column : Option Nat
  message : String
deriving DecidableEq, Repr

namespace Diagnostic

def text (d : Diagnostic) : String :=
  match d.line, d.column with
  | some line, some column =>
    Text.decimal line ++ ":" ++ Text.decimal column ++ ": " ++ d.message
  | some line, none => Text.decimal line ++ ": " ++ d.message
  | none, _ => d.message

/-! ## Splitting lines -/

/-- The parts before and after the first occurrence of a text. -/
def splitFirst? (mark : List Char) : List Char → Option (List Char × List Char)
  | [] => if mark.isEmpty then some ([], []) else none
  | c :: rest =>
    match Text.afterLead? mark (c :: rest) with
    | some after => some ([], after)
    | none => (splitFirst? mark rest).map fun (before, after) => (c :: before, after)

/-- The parts before and after the last occurrence of a text. -/
def splitLast? (mark : List Char) : List Char → Option (List Char × List Char)
  | [] => if mark.isEmpty then some ([], []) else none
  | c :: rest =>
    match splitLast? mark rest with
    | some (before, after) => some (c :: before, after)
    | none => (Text.afterLead? mark (c :: rest)).map ([], ·)

/-! ## Perl -/

/-- The message and line number in `<message> at <file> line <number>[,.] <more>`. -/
def locatePerl? (line : List Char) : Option (String × Nat) := do
  let (head, after) ← splitLast? " line ".toList line
  let digits := after.takeWhile Char.isDigit
  let number ← Text.natOfDigits? Text.maxNat64 (String.ofList digits)
  let message := ((splitLast? " at ".toList head).map (·.1)).getD head
  let more := (after.dropWhile Char.isDigit).dropWhile fun c => c == '.' || c == ','
  let more := Text.trim (String.ofList more)
  let message := String.ofList message
  some (if more.isEmpty then message else message ++ ", " ++ more, number)

def isPerlSummary (line : List Char) : Bool :=
  line.isEmpty || "syntax OK".toList.isSuffixOf line ||
    "had compilation errors.".toList.isSuffixOf line

def ofPerl (output : String) : List Diagnostic :=
  ((Text.lineChars output.toList).map (Text.dropEndWhile Text.isBlank)).filterMap fun line =>
    if isPerlSummary line then none
    else
      match locatePerl? line with
      | some (message, number) => some ⟨"perl", some number, none, message⟩
      | none => some ⟨"perl", none, none, Text.trim (String.ofList line)⟩

/-! ## Ruby -/

/-- The diagnostic in `<file>.rb:<number>: <message>`. -/
def locateRuby? (line : List Char) : Option Diagnostic := do
  let (_, rest) ← splitFirst? ".rb:".toList line
  let (number, message) ← splitFirst? [':'] rest
  let number ← Text.natOfDigits? Text.maxNat64 (Text.trim (String.ofList number))
  some ⟨"ruby", some number, none, Text.trim (String.ofList message)⟩

def ofRuby (output : String) : List Diagnostic :=
  (Text.lineChars output.toList).filterMap locateRuby?

/-! ## TypeScript -/

/-- The diagnostic in `<file>(<line>,<column>): <message>`. The message starts after the word
for its severity. -/
def locateTypeScript? (line : List Char) : Option Diagnostic := do
  let (place, rest) ← splitFirst? "): ".toList line
  let (_, position) ← splitLast? ['('] place
  let (row, column) ← splitFirst? [','] position
  let row := (Text.natOfDigits? Text.maxNat64 (String.ofList row)).getD 1
  let column := Text.natOfDigits? Text.maxNat64 (String.ofList column)
  let message :=
    ((Text.afterLead? "error ".toList rest).or (Text.afterLead? "warning ".toList rest)).getD rest
  some ⟨"tsc", some row, column, String.ofList message⟩

def ofTypeScript (output : String) : List Diagnostic :=
  (Text.lineChars output.toList).filterMap locateTypeScript?

end Diagnostic

end Scriptgen
