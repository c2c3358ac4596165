import Scriptgen.Ruby.Names
import Scriptgen.Ruby.Type
import Scriptgen.Source.Infer
/-!
# Inferred Ruby types

What the inferred types are called in Ruby.
-/

namespace Scriptgen.Ruby

def types : TypeSystem RubyType where
  ofNote? := RubyType.ofResultType?
  text := .string
  bool := .bool
  integer := .integer
  fraction := .float
  unknown := .untyped
  array := .array
  object := .hash .string .untyped
  function := .proc
  ofClass := fun name =>
    if name == "Map" then .hash .untyped .untyped else .instanceOf (constantName name)

end Scriptgen.Ruby
