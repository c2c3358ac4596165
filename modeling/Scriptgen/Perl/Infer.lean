import Scriptgen.Perl.Type
import Scriptgen.Source.Infer
/-!
# Inferred Perl types

What the inferred types are called in Perl.
-/

namespace Scriptgen.Perl

def types : TypeSystem PerlType where
  ofNote? := PerlType.ofResultType?
  text := .str
  bool := .bool
  integer := .int
  fraction := .num
  unknown := .any
  array := .arrayRef
  object := .hashRef .any
  function := .codeRef
  ofClass := .instanceOf

end Scriptgen.Perl
