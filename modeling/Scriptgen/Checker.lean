import Scriptgen.Diagnostic
/-!
# Syntax checkers

A checker runs the compiler or interpreter of a language on a program without executing it.
What the external program does is given as a `Tool`; the checker decides what it means.
-/

namespace Scriptgen

/-- What a program that has ended leaves behind. -/
structure ToolOutput where
  stdout : String
  stderr : String
  /-- Whether its exit status is zero. -/
  success : Bool
deriving DecidableEq, Repr

/-- What a program on this host does when it is run. -/
inductive Tool where
  | ends (output : ToolOutput)
  /-- It does not end in time. -/
  | hangs
deriving DecidableEq, Repr

/-- Why a check has no outcome. -/
inductive CheckError where
  | notAvailable (tool : String)
  /-- The tool was stopped after this many milliseconds. -/
  | timedOut (tool : String) (milliseconds : Nat)
deriving DecidableEq, Repr

/-- A duration in seconds, or in milliseconds if it is shorter. -/
def durationText (milliseconds : Nat) : String :=
  if milliseconds == 0 then "0ns"
  else if milliseconds < 1000 then Text.decimal milliseconds ++ "ms"
  else
    let fraction := (Nat.toDigits 10 (1000 + milliseconds % 1000)).tail
    let fraction := Text.dropEndWhile (· == '0') fraction
    let point := if fraction.isEmpty then "" else "."
    Text.decimal (milliseconds / 1000) ++ point ++ String.ofList fraction ++ "s"

def CheckError.message : CheckError → String
  | .notAvailable tool => tool ++ " is not available on this host"
  | .timedOut tool milliseconds => tool ++ " timed out after " ++ durationText milliseconds

/-- The outcome of a check. -/
structure CheckOutcome where
  tool : String
  success : Bool
  diagnostics : List Diagnostic
  /-- All that the tool printed. -/
  rawOutput : String
deriving DecidableEq, Repr

/-- The diagnostics, one on a line. Output in which none was recognised stands for itself. -/
def CheckOutcome.messages (outcome : CheckOutcome) : List String :=
  if outcome.diagnostics.isEmpty && !outcome.success then
    (Text.lines outcome.rawOutput).filter fun line => !(Text.trim line).isEmpty
  else outcome.diagnostics.map Diagnostic.text

/-- A syntax checker. -/
inductive Checker where
  | perl
  | ruby
  | typeScript
deriving DecidableEq, Repr

namespace Checker

def all : List Checker := [.perl, .ruby, .typeScript]

def name : Checker → String
  | .perl => "perl"
  | .ruby => "ruby"
  | .typeScript => "tsc"

def language : Checker → String
  | .perl => "perl"
  | .ruby => "ruby"
  | .typeScript => "typescript"

def suffix : Checker → String
  | .perl => ".pl"
  | .ruby => ".rb"
  | .typeScript => ".ts"

def command : Checker → List String
  | .perl => ["perl", "-c"]
  | .ruby => ["ruby", "-c"]
  | .typeScript => ["tsc", "--noEmit", "--pretty", "false"]

def website : Checker → String
  | .perl => "https://www.perl.org/"
  | .ruby => "https://www.ruby-lang.org/"
  | .typeScript => "https://www.typescriptlang.org/"

/-- The checker of a language, whose name may be in any case. -/
def ofLanguage? (language : String) : Option Checker :=
  all.find? fun checker => checker.language == Text.lowerAscii language

/-- The diagnostics in the output of the external program. The interpreters report errors on the
second stream only. -/
def diagnose (checker : Checker) (output : ToolOutput) : List Diagnostic :=
  match checker with
  | .perl => Diagnostic.ofPerl output.stderr
  | .ruby => Diagnostic.ofRuby output.stderr
  | .typeScript => Diagnostic.ofTypeScript (output.stdout ++ output.stderr)

/-- The outcome that the output of the external program means. -/
def outcome (checker : Checker) (output : ToolOutput) : CheckOutcome :=
  { tool := checker.name
    success := output.success
    diagnostics := if output.success then [] else checker.diagnose output
    rawOutput := output.stdout ++ output.stderr }

def check (checker : Checker) (tool : Option Tool) (timeout : Nat) :
    Except CheckError CheckOutcome :=
  match tool with
  | none => .error (.notAvailable checker.name)
  | some .hangs => .error (.timedOut checker.name timeout)
  | some (.ends output) => .ok (checker.outcome output)

/-- A text without all repetitions of a lead at its start. -/
def dropLeads (lead : List Char) : Nat → List Char → List Char
  | 0, cs => cs
  | fuel + 1, cs =>
    match Text.afterLead? lead cs with
    | some rest => dropLeads lead fuel rest
    | none => cs

/-- The version that the external program prints when it is asked. -/
def version? (checker : Checker) (tool : Option Tool) : Option String :=
  match tool with
  | some (.ends output) =>
    let text := Text.trim output.stdout
    if !output.success || text.isEmpty then none
    else
      match checker with
      | .typeScript => some (String.ofList (dropLeads "Version ".toList text.length text.toList))
      | _ => some text
  | _ => none

end Checker

end Scriptgen
