/-!
# Ruby types

The type names that stand in annotation comments of Ruby code.
-/

namespace Scriptgen.Ruby

/-- A type of Ruby values. -/
inductive RubyType where
  | untyped
  | integer
  | float
  | numeric
  | string
  | bool
  | array (element : RubyType)
  | hash (key value : RubyType)
  | proc
  | instanceOf (className : String)
  | optional (type : RubyType)
deriving DecidableEq, Repr

namespace RubyType

def ofPlainName? : String → Option RubyType
  | "string" => some .string
  | "boolean" | "bool" => some .bool
  | "int" | "int8" | "int16" | "int32" | "uint8" | "uint16" | "uint32" | "byte" => some .integer
  | "float" | "double" | "float32" | "float64" => some .float
  | "number" => some .numeric
  | "array" | "Uint8Array" | "Uint16Array" | "Uint32Array" | "Int32Array" =>
    some (.array .integer)
  | "object" => some (.hash .string .untyped)
  | "function" => some .proc
  | _ => none

def ofReversed? : List Char → Option RubyType
  | ']' :: '[' :: rest => some (.array ((ofReversed? rest).getD .untyped))
  | cs => ofPlainName? (String.ofList cs.reverse)

def ofResultType? (name : String) : Option RubyType := ofReversed? name.toList.reverse

def print : RubyType → String
  | .untyped => "untyped"
  | .integer => "Integer"
  | .float => "Float"
  | .numeric => "Numeric"
  | .string => "String"
  | .bool => "bool"
  | .array element => "Array[" ++ element.print ++ "]"
  | .hash key value => "Hash[" ++ key.print ++ ", " ++ value.print ++ "]"
  | .proc => "Proc"
  | .instanceOf className => className
  | .optional type => type.print ++ "?"

end RubyType

end Scriptgen.Ruby
