/-!
# Imports

The modules that generated code needs, with the symbols it takes from each. Modules and symbols
are kept sorted and appear once.
-/

namespace Scriptgen

/-- Adds a text to a sorted list, unless it is there. -/
def insertSorted (text : String) : List String → List String
  | [] => [text]
  | first :: rest =>
    if text < first then text :: first :: rest
    else if text == first then first :: rest
    else first :: insertSorted text rest

/-- Modules and the symbols taken from them. -/
structure Imports where
  entries : List (String × List String)
deriving DecidableEq, Repr

namespace Imports

def empty : Imports := ⟨[]⟩

/-- Changes the symbols of a module, which is added at its place if it is new. -/
def alter (f : List String → List String) (module : String) :
    List (String × List String) → List (String × List String)
  | [] => [(module, f [])]
  | (name, symbols) :: rest =>
    if module < name then (module, f []) :: (name, symbols) :: rest
    else if module == name then (name, f symbols) :: rest
    else (name, symbols) :: alter f module rest

def require (imports : Imports) (module : String) : Imports :=
  ⟨alter id module imports.entries⟩

def useSymbol (imports : Imports) (module symbol : String) : Imports :=
  ⟨alter (insertSorted symbol) module imports.entries⟩

def contains (imports : Imports) (module : String) : Bool :=
  (imports.entries.lookup module).isSome

def isEmpty (imports : Imports) : Bool := imports.entries.isEmpty

def modules (imports : Imports) : List String := imports.entries.map (·.1)

end Imports

end Scriptgen
