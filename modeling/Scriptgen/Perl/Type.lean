/-!
# Perl types

The type names that stand in annotation comments of Perl code.
-/

namespace Scriptgen.Perl

/-- A type of Perl values. -/
inductive PerlType where
  | any
  | int
  | num
  | str
  | bool
  | arrayRef (element : PerlType)
  | hashRef (value : PerlType)
  | codeRef
  | instanceOf (className : String)
  | maybe (type : PerlType)
deriving DecidableEq, Repr

namespace PerlType

/-- The type of an inferred result type that is not an array of another. -/
def ofPlainName? : String → Option PerlType
  | "string" => some .str
  | "boolean" | "bool" => some .bool
  | "int" | "int8" | "int16" | "int32" | "uint8" | "uint16" | "uint32" | "byte" => some .int
  | "number" | "float" | "double" | "float32" | "float64" => some .num
  | "array" | "Uint8Array" | "Uint16Array" | "Uint32Array" | "Int32Array" =>
    some (.arrayRef .int)
  | "object" => some (.hashRef .any)
  | "function" => some .codeRef
  | _ => none

/-- The type of a result type that is given from its end. Each `[]` at the end makes an array. -/
def ofReversed? : List Char → Option PerlType
  | ']' :: '[' :: rest => some (.arrayRef ((ofReversed? rest).getD .any))
  | cs => ofPlainName? (String.ofList cs.reverse)

def ofResultType? (name : String) : Option PerlType := ofReversed? name.toList.reverse

def print : PerlType → String
  | .any => "Any"
  | .int => "Int"
  | .num => "Num"
  | .str => "Str"
  | .bool => "Bool"
  | .arrayRef element => "ArrayRef[" ++ element.print ++ "]"
  | .hashRef value => "HashRef[" ++ value.print ++ "]"
  | .codeRef => "CodeRef"
  | .instanceOf className => "InstanceOf['" ++ className ++ "']"
  | .maybe type => "Maybe[" ++ type.print ++ "]"

end PerlType

end Scriptgen.Perl
