import Scriptgen.Perl.Lower.Array
import Scriptgen.Perl.Lower.Text
import Scriptgen.Perl.Lower.Word
/-!
# Lowering to Perl: the standard library

Global functions and the members of the global objects `Math`, `JSON`, `Object`, `Array`,
`String`, `Number`, `console` and `Date`.
-/

namespace Scriptgen.Perl

/-! ## Constants -/

def constant? : String → String → Option Expr
  | "Math", "PI" => some (.raw "4 * atan2(1, 1)")
  | "Math", "E" => some (.call "exp" [.int 1])
  | "Math", "LN2" => some (.call "log" [.int 2])
  | "Math", "LN10" => some (.call "log" [.int 10])
  | "Math", "LOG2E" => some (binary .div (.int 1) (.call "log" [.int 2]))
  | "Math", "SQRT2" => some (.call "sqrt" [.int 2])
  | "Number", "MAX_SAFE_INTEGER" => some (.int 9007199254740991)
  | "Number", "MIN_SAFE_INTEGER" => some (.int (-9007199254740991))
  | "Number", "EPSILON" => some (.raw "2**-52")
  | "Number", "MAX_VALUE" => some (.raw "1.7976931348623157e308")
  | "Number", "POSITIVE_INFINITY" => some infinity
  | "Number", "NEGATIVE_INFINITY" => some (unary .neg infinity)
  | "Number", "NaN" => some nan
  | _, _ => none

/-! ## Mathematics -/

def leadingZeros (value : Expr) : Expr :=
  let masked := low32 value
  let width := Expr.call "length" [.call "sprintf" [.string "%b", masked]]
  ternary masked (binary .sub (.int 32) width) (.int 32)

def mathCall (method : String) (args : List Node) : Lower Expr := do
  let values ← arguments args
  let first := values[0]?.getD .undefined
  match method with
  | "floor" | "ceil" =>
    requireModule "POSIX"
    return .call ("POSIX::" ++ method) [first]
  | "round" =>
    requireModule "POSIX"
    return .call "POSIX::floor" [binary .add first (.raw "0.5")]
  | "trunc" => return .call "int" [first]
  | "abs" | "sqrt" | "log" | "exp" | "sin" | "cos" => return .call method [first]
  | "atan2" => return .call "atan2" values
  | "pow" => return binary .pow first (values[1]?.getD (.int 1))
  | "min" | "max" =>
    requireModule "List::Util"
    return .call ("List::Util::" ++ method) values
  | "random" => return .call "rand" []
  | "sign" => return binary .numCmp first (.int 0)
  | "imul" =>
    warnLossy "Math.imul is exact only while the product fits in 53 bits"
    return low32 (binary .mul first (values.getLast?.getD (.int 0)))
  | "clz32" => return leadingZeros first
  | "hypot" =>
    return .call "sqrt" [chain .add (.int 0) (values.map fun v => binary .pow v (.int 2))]
  | other =>
    requireModule "POSIX"
    return .call ("POSIX::" ++ other) values

/-! ## Objects and output -/

/-- Writes or reads a value as JSON, with sorted keys. -/
def jsonCall (method : String) (value : Expr) : Lower Expr := do
  requireModule "JSON::PP"
  let canonical := Expr.callMethod (.callClass "JSON::PP" "new" []) "canonical" []
  return .callMethod (.callMethod canonical "allow_nonref" []) method [value]

def objectCall (method : String) (args : List Node) : Attempt Expr := do
  let (setup, base) ← shared (← hashBase (← need args.head?)) "obj"
  let hash := pairsOf base
  let sortedKeys := Expr.call "sort" [.call "keys" [hash]]
  let currentValue := Expr.key base current
  match method with
  | "keys" | "getOwnPropertyNames" => return withSetup setup (.arrayRef [sortedKeys])
  | "values" => return withSetup setup (.arrayRef [blockList .map currentValue sortedKeys])
  | "entries" =>
    return withSetup setup
      (.arrayRef [blockList .map (.arrayRef [current, currentValue]) sortedKeys])
  | "assign" =>
    let sources ← args.tail.mapM fun source => hashOf source
    let merge := Stmt.ofExpr (.set hash (.list (hash :: sources)))
    return withSetup (setup ++ [merge]) (hashRefTo base)
  | "freeze" | "seal" | "preventExtensions" => return withSetup setup (hashRefTo base)
  | "create" => return withSetup setup (.hashRef [])
  | _ => failure

def consoleCall (method : String) (args : List Node) : Attempt Expr := do
  let line :=
    match ← arguments args with
    | [] => Expr.string ""
    | [only] => only
    | values => .call "join" (.string " " :: values)
  match method with
  | "log" | "info" | "debug" | "trace" =>
    if (← options).modernSyntax then return .call "say" [line]
    else return .call "print" [line, .string "\n"]
  | "warn" | "error" => return .call "warn" [line, .string "\n"]
  | _ => failure

/-! ## Global functions and constructors -/

def parsedInt (text : Expr) (radix : Option Nat) : Expr :=
  match radix with
  | some 16 => .call "hex" [text]
  | some 8 => .call "oct" [text]
  | some 2 => .call "oct" [binary .concat (.string "0b") text]
  | _ => .call "int" [text]

def radix? (args : List Node) : Option Nat :=
  (args[1]? >>= (·.number? "value")).map (·.truncateToNat Text.maxNat32)

def conversion (name : String) (args : List Node) : Attempt Expr := do
  match name with
  | "parseInt" => return parsedInt (← valueOf args[0]?) (radix? args)
  | "parseFloat" | "Number" => return binary .add (← valueOf args[0]?) (.int 0)
  | "String" => return binary .concat (.string "") (← valueOf args[0]?)
  | "Boolean" => return ternary (← valueOf args[0]?) (.int 1) (.int 0)
  | "isNaN" =>
    let value ← valueOf args[0]?
    return binary .numNe value value
  | "isFinite" =>
    let value ← valueOf args[0]?
    return binary .and (binary .numEq value value)
      (binary .numNe (.call "abs" [value]) infinity)
  | _ => failure

def newArray (args : List Node) : Lower Expr := do
  match args with
  | [] => return .arrayRef []
  | [size] =>
    if size.type != "ArrayExpression" && !size.isTextual then sizedArray size .undefined
    else return .arrayRef (← arguments args)
  | _ => return .arrayRef (← arguments args)

def globalCall (name : String) (args : List Node) : Attempt Expr := do
  if name == "Array" then newArray args else conversion name args

def builtinNew (name : String) (args : List Node) : Attempt Expr := do
  if typedArrays.contains name then
    match args with
    | arg :: _ => return ← sizedOrCopied arg (.int 0)
    | [] => return .arrayRef []
  match name with
  | "Array" => newArray args
  | "Map" | "Set" | "WeakMap" | "WeakSet" | "Object" =>
    if !args.isEmpty then
      warnLossy ("initial contents of new " ++ name ++ "() are dropped")
    return .hashRef []
  | "Date" => return .call "time" []
  | "RegExp" =>
    let text ← need (args[0]? >>= Node.stringValue?)
    let flags := (args[1]? >>= Node.stringValue?).getD ""
    return .regex (.pattern text) (knownFlags flags)
  | "String" | "Number" | "Boolean" => conversion name args
  | _ => failure

/-! ## Members of global objects -/

def arrayCall (method : String) (args : List Node) : Attempt Expr := do
  match method with
  | "isArray" => return isArray (← valueOf args[0]?)
  | "from" =>
    let source ← need args[0]?
    match args[1]? with
    | some mapper => iterate .map source mapper none
    | none => return .arrayRef [← listOf source]
  | "of" => return .arrayRef (← arguments args)
  | _ => failure

def numberCall (method : String) (args : List Node) : Attempt Expr := do
  match method with
  | "isInteger" | "isSafeInteger" =>
    let value ← valueOf args[0]?
    return binary .numEq (.call "int" [value]) value
  | "isNaN" | "parseInt" | "parseFloat" | "isFinite" => conversion method args
  | _ => failure

def staticCall (object method : String) (args : List Node) : Attempt Expr := do
  match object with
  | "Math" => mathCall method args
  | "JSON" =>
    let value ← valueOf args[0]?
    match method with
    | "stringify" => jsonCall "encode" value
    | "parse" => jsonCall "decode" value
    | _ => failure
  | "Object" => objectCall method args
  | "Array" => arrayCall method args
  | "String" =>
    if method == "fromCharCode" || method == "fromCodePoint" then charsOfCodes args else failure
  | "Number" => numberCall method args
  | "console" => consoleCall method args
  | "Date" => if method == "now" then return binary .mul (.call "time" []) (.int 1000) else failure
  | "OpCodes" => wordHelper method args
  | _ => failure

def methodCall (receiver : Node) (method : String) (args : List Node) : Attempt Expr := do
  let receiver := receiver.unwrapped
  if textOnlyMethods.contains method || receiver.isTextual then
    textMethod receiver method args <|> arrayMethod receiver method args
  else arrayMethod receiver method args

end Scriptgen.Perl
