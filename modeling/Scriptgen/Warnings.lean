import Scriptgen.Source.Node
import Scriptgen.Text.Numeral
/-!
# Warnings

What could not be carried over to the target, or not faithfully. It is noted only if the caller
asked for strict input; generation goes on in either case.
-/

namespace Scriptgen

/-- Something that the generated code does not do as the program does. -/
inductive Warning where
  /-- A node that was dropped. -/
  | unsupported (kind : String) (line : Option Nat)
  /-- Reduced fidelity, in words. -/
  | lossy (note : String)
deriving DecidableEq, Repr

def Warning.message : Warning → String
  | .unsupported kind (some line) =>
    "unsupported node type '" ++ kind ++ "' at line " ++ Text.decimal line
  | .unsupported kind none => "unsupported node type '" ++ kind ++ "'"
  | .lossy note => note

def Node.dropped (node : Node) : Warning :=
  .unsupported node.kind (node.location?.map (·.line))

/-- The warnings so far, in order. -/
structure WarningLog where
  /-- Whether warnings are kept. -/
  strict : Bool
  entries : List Warning
deriving DecidableEq, Repr

namespace WarningLog

def empty (strict : Bool) : WarningLog := ⟨strict, []⟩

/-- Notes a warning if the log is strict. -/
def note (log : WarningLog) (warning : Warning) : WarningLog :=
  if log.strict then { log with entries := log.entries ++ [warning] } else log

def messages (log : WarningLog) : List String := log.entries.map Warning.message

def cleared (log : WarningLog) : WarningLog := { log with entries := [] }

end WarningLog

/-- A supply of names for generated code, by a number. A program may use such a name as well. -/
structure NameSupply where
  used : Nat
deriving DecidableEq, Repr

namespace NameSupply

def start : NameSupply := ⟨0⟩

/-- The next name on a stem, and the supply after it. -/
def fresh (supply : NameSupply) (stem : String) : String × NameSupply :=
  let number := supply.used + 1
  ("__" ++ stem ++ "_" ++ Text.decimal number, ⟨number⟩)

end NameSupply

end Scriptgen
