import Scriptgen.Ruby.Lower.Text
import Scriptgen.Ruby.Lower.Word
/-!
# Lowering to Ruby: global objects and functions

The functions and objects that every program has, such as `Math`, `JSON`, `Object` and `parseInt`,
the constructors of built-in classes, and methods that depend on what they are called on.
-/

namespace Scriptgen.Ruby

/-! ## Terms -/

def infinity : Expr := .raw "Float::INFINITY"

def nan : Expr := .raw "Float::NAN"

def now : Expr := (Expr.constant "Time").read "now"

def epochMillis : Expr := (binary .mul (now.read "to_f") (.int 1000)).read "to_i"

def mathCall (method : String) (args : List Expr) : Expr := constantCall "Math" method args

def euler : Expr := .raw "Math::E"

def globalMember? : String → String → Option Expr
  | "Math", "PI" => some (.raw "Math::PI")
  | "Math", "E" => some euler
  | "Math", "LN2" => some (mathCall "log" [.int 2])
  | "Math", "LN10" => some (mathCall "log" [.int 10])
  | "Math", "LOG2E" => some (mathCall "log2" [euler])
  | "Math", "LOG10E" => some (mathCall "log10" [euler])
  | "Math", "SQRT2" => some (mathCall "sqrt" [.int 2])
  | "Math", "SQRT1_2" => some (mathCall "sqrt" [.number "0.5"])
  | "Number", "MAX_SAFE_INTEGER" => some (.int 9007199254740991)
  | "Number", "MIN_SAFE_INTEGER" => some (.int (-9007199254740991))
  | "Number", "EPSILON" => some (.raw "Float::EPSILON")
  | "Number", "MAX_VALUE" => some (.raw "Float::MAX")
  | "Number", "MIN_VALUE" => some (.number "5e-324")
  | "Number", "POSITIVE_INFINITY" => some infinity
  | "Number", "NEGATIVE_INFINITY" => some (unary .neg infinity)
  | "Number", "NaN" => some nan
  | _, _ => none

/-! ## Objects -/

/-- A function on numbers. A half is rounded up. -/
def mathValue (method : String) (values : List Expr) : Expr :=
  let first := values[0]?.getD .nil
  match method with
  | "floor" | "ceil" | "abs" => first.read method
  | "round" => (binary .add first (.number "0.5")).read "floor"
  | "trunc" => first.read "truncate"
  | "fround" => first.read "to_f"
  | "pow" => binary .pow first (values[1]?.getD (.int 1))
  | "min" | "max" => (Expr.array values).read method
  | "random" => .function "rand" []
  | "sign" => binary .cmp first (.int 0)
  | "imul" => int32 (binary .mul first (values.getLast?.getD (.int 0)))
  | "clz32" => binary .sub (.int 32) ((low32 first).read "bit_length")
  | other => mathCall other values

def mathFunction (method : String) (args : List Node) : Lower Expr :=
  return mathValue method (← arguments args)

def jsonCall (method : String) (value : Expr) : Lower Expr := do
  requireLibrary "json"
  return constantCall "JSON" method [value]

def objectFunction (method : String) (args : List Node) : Attempt Expr := do
  match method with
  | "create" => return .hash []
  | "keys" | "getOwnPropertyNames" => return (← value (← need args.head?)).read "keys"
  | "values" => return (← value (← need args.head?)).read "values"
  | "entries" => return (← value (← need args.head?)).read "to_a"
  | "fromEntries" => return (← value (← need args.head?)).read "to_h"
  | "assign" =>
    let object ← value (← need args.head?)
    return .method object "merge!" (← arguments (args.drop 1))
  | "freeze" | "seal" | "preventExtensions" => value (← need args.head?)
  | _ => failure

def outputFunction? : String → Option String
  | "log" | "info" | "debug" | "trace" => some "puts"
  | "warn" | "error" => some "warn"
  | _ => none

def outputLine (values : List Expr) : List Expr :=
  if values.length ≤ 1 then values else [.method (.array values) "join" [.string " "]]

def consoleCall (method : String) (args : List Node) : Attempt Expr := do
  let function ← need (outputFunction? method)
  return .function function (outputLine (← arguments args))

def charsOfCodes (args : List Node) : Lower Expr := do
  match args with
  | [code] => if code.type == "SpreadElement" then packed else return single (← value code)
  | _ => packed
where
  /-- The text of one character. -/
  single (code : Expr) : Expr := .method code "chr" [.raw "Encoding::UTF_8"]
  /-- The text of a list of codes. -/
  packed : Lower Expr := return .method (.array (← arguments args)) "pack" [.string "U*"]

/-! ## Functions and constructors -/

def arrayConstructor (args : List Node) : Lower Expr := do
  match args with
  | [size] => if isSizeArgument size then return newArray [← value size] else elements
  | _ => elements
where
  /-- The array of the arguments. -/
  elements : Lower Expr := return .array (← arguments args)

def truthValue (node : Option Node) : Lower Expr := do
  let cond ←
    match node with
    | some node => test node
    | none => pure (.bool false)
  return .ternary cond (.bool true) (.bool false)

def globalCall (name : String) (args : List Node) : Attempt Expr := do
  let first := args[0]?
  match name with
  | "parseInt" =>
    let value ← valueOf first
    return .method value "to_i" (← values args[1]?.toList)
  | "parseFloat" => return (← valueOf first).read "to_f"
  | "Number" =>
    let numeric ←
      match first with
      | some node => isNumber node
      | none => pure false
    let value ← valueOf first
    return if numeric then value else value.read "to_f"
  | "String" => return (← valueOf first).read "to_s"
  | "Boolean" => truthValue first
  | "isNaN" => return ((← valueOf first).read "to_f").read "nan?"
  | "isFinite" => return ((← valueOf first).read "to_f").read "finite?"
  | "Array" => arrayConstructor args
  | _ => failure

def regexConstructor (args : List Node) : Attempt Expr := do
  let source ← need args.head?
  match source.stringValue? with
  | some pattern => return regexLiteral pattern ((args[1]? >>= Node.stringValue?).getD "")
  | none => return constantCall "Regexp" "new" [← value source]

def builtinConstructor (name : String) (args : List Node) : Attempt Expr := do
  if typedArrays.contains name then
    match args.head? with
    | some arg => return ← sizedOrCopied arg
    | none => return .array []
  match name with
  | "Array" => arrayConstructor args
  | "Map" | "WeakMap" =>
    match args.head? with
    | some entries => return (← value entries).read "to_h"
    | none => return .hash []
  | "Set" | "WeakSet" =>
    requireLibrary "set"
    return .new "Set" (← arguments args)
  | "Object" => return .hash []
  | "Date" =>
    if !args.isEmpty then
      warnLossy "arguments of new Date() are dropped; the current time is used"
    return now
  | "RegExp" => regexConstructor args
  | "String" | "Number" | "Boolean" => globalCall name args
  | _ => failure

def jsonFunction (method : String) (args : List Node) : Attempt Expr := do
  let value ← valueOf args.head?
  match method with
  | "stringify" => jsonCall (if args.length > 2 then "pretty_generate" else "generate") value
  | "parse" => jsonCall "parse" value
  | _ => failure

def arrayFunction (method : String) (args : List Node) : Attempt Expr := do
  match method with
  | "isArray" => return isArray (← valueOf args.head?)
  | "from" => arrayFrom (← need args.head?) args[1]?
  | "of" => return .array (← arguments args)
  | _ => failure

def numberFunction (method : String) (args : List Node) : Attempt Expr := do
  match method with
  | "isInteger" | "isSafeInteger" =>
    return (binary .mod (← valueOf args.head?) (.int 1)).read "zero?"
  | "isNaN" | "parseInt" | "parseFloat" | "isFinite" => globalCall method args
  | _ => failure

def globalMethod (object method : String) (args : List Node) : Attempt Expr := do
  match object with
  | "Math" => mathFunction method args
  | "JSON" => jsonFunction method args
  | "Object" => objectFunction method args
  | "Array" => arrayFunction method args
  | "String" =>
    if method == "fromCharCode" || method == "fromCodePoint" then charsOfCodes args else failure
  | "Number" => numberFunction method args
  | "console" => consoleCall method args
  | "Date" => if method == "now" then return epochMillis else failure
  | "OpCodes" => wordHelper method args
  | _ => failure

/-! ## Methods -/

def fixedFormat (digits : Option Node) : Lower Expr := do
  match digits with
  | none => return .string "%.0f"
  | some digits =>
    match digits.number? "value" with
    | some n => return .string ("%." ++ Text.decimal (n.truncateToNat Text.maxNat32) ++ "f")
    | none => return interpolation [.text "%.", .expr (← value digits), .text "f"]

def valueMethod (receiver : Node) (method : String) (args : List Node) : Attempt Expr := do
  match method with
  | "toString" =>
    let value ← value receiver
    if receiver.type == "ArrayExpression" || (← hasShape receiver .list) then
      return .method value "join" [.string ","]
    else return .method value "to_s" (← arguments args)
  | "toFixed" =>
    let value ← value receiver
    return .function "format" [← fixedFormat args.head?, value]
  | "hasOwnProperty" =>
    let object ← value receiver
    return .method object "key?" [← value (← need args.head?)]
  | "valueOf" => value receiver
  | _ => arrayMethod receiver method args

def knownMethod (object : Node) (method : String) (args : List Node) : Attempt Expr := do
  let receiver := object.unwrapped
  match (← get).known.collectionOf? receiver with
  | some collection => collectionMethod collection receiver method args
  | none =>
    if textOnlyMethods.contains method || (← get).known.isText receiver then
      textMethod receiver method args
    else valueMethod receiver method args

def methodStmts (receiver : Node) (method : String) (args : List Node) : Attempt (List Stmt) := do
  if method != "forEach" || (← get).known.isText receiver then failure
  else foreachStmts receiver (← need args.head?)

end Scriptgen.Ruby
