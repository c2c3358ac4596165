import Scriptgen.Brackets
import Scriptgen.Checker
import Scriptgen.Target
/-!
# Validation of generated code

Generated code is checked by the interpreter of its language. Without one, or if it does not end
in time, the bracket scanner takes its place.
-/

namespace Scriptgen

/-- The outcome of a validation. -/
structure Validation where
  success : Bool
  /-- What checked the code. -/
  method : String
  errors : List String
deriving DecidableEq, Repr

/-- What is known about the interpreter of a target. -/
structure CompilerInfo where
  name : String
  available : Bool
  version : Option String
  checkCommand : String
  installHint : String
  website : String
deriving DecidableEq, Repr

namespace Target

def checker : Target → Checker
  | .perl => .perl
  | .ruby => .ruby

def scan (target : Target) (code : String) : Validation :=
  let errors := Brackets.scan (.ofLanguage target.language) code
  ⟨errors.isEmpty, "basic", errors⟩

/-- Checks code, with a limit in milliseconds on the interpreter. -/
def validate (target : Target) (tool : Option Tool) (timeout : Nat) (code : String) : Validation :=
  match target.checker.check tool timeout with
  | .ok outcome => ⟨outcome.success, outcome.tool, outcome.messages⟩
  | .error _ => target.scan code

def compilerInfo (target : Target) (tool : Option Tool) : CompilerInfo where
  name := target.checker.name
  available := tool.isSome
  version := target.checker.version? tool
  checkCommand := " ".intercalate target.checker.command
  installHint := target.installHint
  website := target.checker.website

end Target

end Scriptgen
