/-!
# Ruby names

How the names of a program are spelled in Ruby. The first letter of a name tells what it is in
Ruby, and some names would hide a keyword or a method that every object has.
-/

namespace Scriptgen.Ruby

def keywords : List String :=
  ["BEGIN", "END", "alias", "and", "begin", "break", "case", "class", "def", "defined?", "do",
    "else", "elsif", "end", "ensure", "false", "for", "if", "in", "module", "next", "nil", "not",
    "or", "redo", "rescue", "retry", "return", "self", "super", "then", "true", "undef", "unless",
    "until", "when", "while", "yield"]

/-- The functions that a function or variable of the same name would hide. -/
def globalMethods : List String :=
  ["puts", "print", "p", "format", "sprintf", "rand", "loop", "raise", "require", "lambda", "proc",
    "sleep", "exit", "catch", "throw", "gets", "open", "system", "select", "test", "method", "send",
    "hash", "class", "freeze", "display", "inspect", "to_s", "dup", "clone", "object_id", "then",
    "tap", "warn", "Integer", "Float", "String", "Array", "Hash"]

/-- The methods of every object that a class must not define anew. -/
def objectMethods : List String :=
  ["class", "send", "method", "hash", "object_id", "initialize", "freeze", "dup", "clone", "then",
    "display", "instance_variables"]

/-- A name without dollar signs, which Ruby names do not have. -/
def plainName (name : String) : String :=
  String.ofList (name.toList.map fun c => if c == '$' then '_' else c)

/-- A name with an underscore behind it if it is one of those given. -/
def avoiding (taken : List String) (name : String) : String :=
  if taken.contains name then name ++ "_" else name

def startsUpper (name : String) : Bool := name.toList.head?.any Char.isUpper

def startsWithDigit (name : String) : Bool := name.toList.head?.any Char.isDigit

/-- The name of a local variable. A capital or a digit cannot come first. -/
def localName (name : String) : String :=
  let name := plainName name
  avoiding (keywords ++ globalMethods)
    (if startsUpper name || startsWithDigit name then "_" ++ name else name)

/-- The name of a constant, a class or a module, which starts with a capital. -/
def constantName (name : String) : String :=
  match (plainName name).toList with
  | first :: rest =>
    if first.isAlpha then String.ofList (first.toUpper :: rest) else "C" ++ plainName name
  | [] => "C"

def functionName (name : String) : String := avoiding (keywords ++ globalMethods) (plainName name)

def methodName (name : String) : String :=
  if name == "toString" then "to_s" else avoiding (keywords ++ objectMethods) (plainName name)

def tagName (label : String) : String :=
  String.ofList (label.toList.map fun c => if c.isAlphanum then c else '_')

def errorClass : String → String
  | "TypeError" => "TypeError"
  | "RangeError" => "RangeError"
  | "Error" => "RuntimeError"
  | _ => "StandardError"

end Scriptgen.Ruby
