import Scriptgen.Text.Blank
import Scriptgen.Text.Numeral
/-!
# Balanced brackets

A weak check of generated code for hosts without the target's own checker: brackets have to
match outside strings and comments. Strings end on the line on which they start.
-/

namespace Scriptgen

/-- What the check knows of the language of the code. -/
inductive Dialect where
  /-- Documentation from `=word` to `=cut`, the end mark `__END__`, and `$#array`. -/
  | perl
  /-- Documentation from `=begin` to `=end`. -/
  | ruby
  /-- Only comments. -/
  | plain
deriving DecidableEq, Repr

def Dialect.ofLanguage : String → Dialect
  | "perl" => .perl
  | "ruby" => .ruby
  | _ => .plain

namespace Brackets

/-- Something that is wrong with the brackets or strings of a line. -/
inductive Problem where
  | unterminated (line : Nat)
  | mismatch (line : Nat) (closing opening : Char) (openLine : Nat)
  | unexpected (line : Nat) (closing : Char)
  | unclosed (line : Nat) (opening : Char)
deriving DecidableEq, Repr

def Problem.message : Problem → String
  | .unterminated line => "line " ++ Text.decimal line ++ ": unterminated string"
  | .mismatch line closing opening openLine =>
    "line " ++ Text.decimal line ++ ": '" ++ closing.toString ++ "' does not match '" ++
      opening.toString ++ "' opened at line " ++ Text.decimal openLine
  | .unexpected line closing =>
    "line " ++ Text.decimal line ++ ": unexpected '" ++ closing.toString ++ "'"
  | .unclosed line opening =>
    "line " ++ Text.decimal line ++ ": unclosed '" ++ opening.toString ++ "'"

def closerOf : Char → Char
  | '(' => ')'
  | '[' => ']'
  | _ => '\x7d'

/-- The open brackets with their lines, the innermost first, and the problems so far. -/
structure State where
  stack : List (Char × Nat)
  problems : List Problem

def State.start : State := ⟨[], []⟩

def State.report (state : State) (problem : Problem) : State :=
  { state with problems := state.problems ++ [problem] }

def State.close (state : State) (line : Nat) (closing : Char) : State :=
  match state.stack with
  | [] => state.report (.unexpected line closing)
  | (opening, openLine) :: rest =>
    let state := { state with stack := rest }
    if closerOf opening == closing then state
    else state.report (.mismatch line closing opening openLine)

/-- The rest of a line after a string, from behind its opening quote. A backslash hides the
character after it. -/
def afterString? (quote : Char) : List Char → Option (List Char)
  | [] => none
  | '\\' :: _ :: rest => afterString? quote rest
  | ['\\'] => none
  | c :: rest => if c == quote then some rest else afterString? quote rest

theorem length_afterString? {quote : Char} {cs rest : List Char}
    (h : afterString? quote cs = some rest) : rest.length < cs.length := by
  fun_induction afterString? quote cs with
  | case1 => simp at h
  | case2 _ _ ih =>
    have := ih h
    simp only [List.length_cons]
    omega
  | case3 => simp at h
  | case4 c cs _ _ hc =>
    simp only [Option.some.injEq] at h
    subst h
    simp
  | case5 c cs _ _ hc ih =>
    have := ih h
    simp only [List.length_cons]
    omega

/-- Reads a line, or the rest of one after `previous`. -/
def scanLine (dialect : Dialect) (line : Nat) (state : State) (previous : Option Char) :
    List Char → State
  | [] => state
  | c :: rest =>
    match c with
    | '#' =>
      if dialect == .perl && previous == some '$' then scanLine dialect line state (some c) rest
      else state
    | '\'' | '"' =>
      match _h : afterString? c rest with
      | some after => scanLine dialect line state (some c) after
      | none => state.report (.unterminated line)
    | '\\' => scanLine dialect line state rest.head? rest.tail
    | '(' | '[' | '\x7b' =>
      scanLine dialect line { state with stack := (c, line) :: state.stack } (some c) rest
    | ')' | ']' | '\x7d' => scanLine dialect line (state.close line c) (some c) rest
    | _ => scanLine dialect line state (some c) rest
termination_by cs => cs.length
decreasing_by
  all_goals simp only [List.length_cons, List.length_tail]
  all_goals first
    | omega
    | have := length_afterString? _h
      omega

def startsDocumentation (dialect : Dialect) (line : List Char) : Bool :=
  match dialect, line with
  | .perl, '=' :: c :: _ => c.isAlpha
  | .ruby, line => "=begin".toList.isPrefixOf line
  | _, _ => false

def endsDocumentation (dialect : Dialect) (line : List Char) : Bool :=
  match dialect with
  | .perl => "=cut".toList.isPrefixOf line
  | .ruby => "=end".toList.isPrefixOf line
  | .plain => false

def endsCode (dialect : Dialect) (line : List Char) : Bool :=
  dialect == .perl && "__END__".toList.isPrefixOf line

/-- Reads the lines from number `number` on, within documentation or not. -/
def scanLines (dialect : Dialect) (number : Nat) (inDocumentation : Bool) (state : State) :
    List (List Char) → State
  | [] => state
  | line :: rest =>
    if inDocumentation then
      scanLines dialect (number + 1) (!endsDocumentation dialect line) state rest
    else if endsCode dialect line then state
    else if startsDocumentation dialect line then scanLines dialect (number + 1) true state rest
    else scanLines dialect (number + 1) false (scanLine dialect number state none line) rest

/-- The problems of a text. Brackets that are still open at its end come last, the outermost
first. -/
def problems (dialect : Dialect) (code : String) : List Problem :=
  let state := scanLines dialect 1 false .start (Text.lineChars code.toList)
  state.problems ++ state.stack.reverse.map fun (opening, line) => .unclosed line opening

def scan (dialect : Dialect) (code : String) : List String :=
  (problems dialect code).map Problem.message

end Brackets

end Scriptgen
