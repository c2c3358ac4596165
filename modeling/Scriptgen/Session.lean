import Scriptgen.Target
/-!
# Sessions

A session generates code for one program after the other, and remembers the warnings and the
dependencies of the last one.
-/

namespace Scriptgen

/-- A target with options, and what is remembered of the last program. -/
structure Session where
  target : Target
  options : Options
  warnings : List String
  dependencies : List String

namespace Session

def start (target : Target) (options : Options) : Session := ⟨target, options, [], []⟩

/-- Generates code for a program. One that fails leaves what is remembered as it is. -/
def transform (session : Session) (ast : Json) : Except RootError String × Session :=
  match session.target.generate session.options ast with
  | .ok generated =>
    (.ok generated.code,
      { session with warnings := generated.warnings, dependencies := generated.dependencies })
  | .error error => (.error error, session)

def takeWarnings (session : Session) : List String × Session :=
  (session.warnings, { session with warnings := [] })

end Session

end Scriptgen
