import Scriptgen.Source.Shape
/-!
# Scopes

Which names are declared, and with which shape, in each of the scopes around a place in the
program. There is always an outermost scope. The first declaration of a name in a scope fixes
its shape.
-/

namespace Scriptgen

/-- The names declared in one scope. -/
abbrev Scope := List (String × Shape)

/-- The scopes around a place, the innermost first and the outermost apart. -/
structure Scopes where
  inner : List Scope
  outermost : Scope
deriving Repr

namespace Scopes

/-- The outermost scope alone, with nothing declared. -/
def empty : Scopes := ⟨[], []⟩

def push (scopes : Scopes) : Scopes := { scopes with inner := [] :: scopes.inner }

/-- Closes the innermost scope. The outermost one stays. -/
def pop (scopes : Scopes) : Scopes := { scopes with inner := scopes.inner.tail }

def depth (scopes : Scopes) : Nat := scopes.inner.length + 1

def innermost (scopes : Scopes) : Scope := scopes.inner.headD scopes.outermost

def declaredHere (scopes : Scopes) (name : String) : Bool :=
  (scopes.innermost.lookup name).isSome

/-- Declares a name in the innermost scope, unless it is declared there already. -/
def declare (scopes : Scopes) (name : String) (shape : Shape) : Scopes :=
  if scopes.declaredHere name then scopes
  else
    match scopes.inner with
    | [] => { scopes with outermost := (name, shape) :: scopes.outermost }
    | scope :: rest => { scopes with inner := ((name, shape) :: scope) :: rest }

/-- The shape of a name in the nearest scope that declares it. -/
def lookup? (scopes : Scopes) (name : String) : Option Shape :=
  (scopes.inner ++ [scopes.outermost]).findSome? (·.lookup name)

/-- The shape of a name. A name that is not declared is a scalar. -/
def shapeOf (scopes : Scopes) (name : String) : Shape := (scopes.lookup? name).getD .scalar

/-- Whether a name is declared in the outermost scope and in none inside it. -/
def resolvesOutermost (scopes : Scopes) (name : String) : Bool :=
  !scopes.inner.any (fun scope => (scope.lookup name).isSome) &&
    (scopes.outermost.lookup name).isSome

end Scopes

end Scriptgen
