import Scriptgen.Perl.Lower.Function
import Scriptgen.Perl.Lower.Global
/-!
# Lowering to Perl: tagged nodes

The type-inference pass tags nodes that stand for operations of the standard library. An attempt
that does not apply leaves the node to its plain form.
-/

namespace Scriptgen.Perl

def thisValue : Lower Expr := return .scalar (← get).place.invocant.name

def getterValue (name : String) : Attempt Expr := do
  if (← get).place.enclosingClass.any (·.getters.contains name) then
    return .callMethod (← thisValue) name []
  else failure

def taggedArray (node : Node) (tag : String) : Attempt Expr := do
  let array : Attempt Node := need (node.child? "array")
  if let some op := Iteration.ofTag? tag then
    let array ← array
    return ← iterate op array (← need (node.child? "callback")) (node.child? "initialValue")
  match tag with
  | "ArrayJoin" => joinedArray (← array) (node.child? "separator")
  | "ArraySlice" => slicedArray (← array) (node.child? "start") (node.child? "end")
  | "ArrayPush" => callOnArray "push" (← array) (node.children "elements")
  | "ArrayUnshift" => callOnArray "unshift" (← array) (node.children "elements")
  | "ArrayPop" => callOnArray "pop" (← array) []
  | "ArrayShift" => callOnArray "shift" (← array) []
  | "ArrayReverse" => reverseValue (← array)
  | "ArrayLength" => lengthOf (← array)
  | "ArrayClear" => return .set (← arrayTarget (← array)) (.list [])
  | "ArrayConcat" => concatenated (← array) (node.children "arrays")
  | "ArrayIndexOf" => arrayIndexOf (← array) (← need (node.child? "value"))
  | "ArrayIncludes" => arrayIncludes (← array) (← need (node.child? "value"))
  | "ArrayFill" => fillValue (← array) (← need (node.child? "value")) none none
  | "ArraySort" => sortValue (← array) (node.child? "compareFn")
  | "ArrayCreation" =>
    match node.child? "size" with
    | some size => sizedArray size .undefined
    | none => return .arrayRef (← arguments (node.children "elements"))
  | "TypedArrayCreation" =>
    match node.child? "source", node.child? "size" with
    | some source, _ => return .arrayRef [← listOf source]
    | none, some size => sizedOrCopied size (.int 0)
    | none, none => return .arrayRef []
  | _ => failure

def taggedText (node : Node) (tag : String) : Attempt Expr := do
  let text : Attempt Expr := do value (← need (node.child? "string"))
  match tag with
  | "StringReplace" =>
    let text ← text
    let searched ← need (node.child? "pattern")
    replaceText text searched (← need (node.child? "replacement")) (node.flag "all")
  | "StringSplit" => splitText (← text) (node.child? "separator")
  | "StringSubstring" =>
    let text ← text
    let start ← value (← need (node.child? "start"))
    return substring text start (← (node.child? "end").mapM fun node => value node)
  | "StringCharAt" =>
    let text ← text
    return charAt text (← value (← need (node.child? "index")))
  | "StringCharCodeAt" =>
    let text ← text
    return charCodeAt text (← value (← need (node.child? "index")))
  | "StringIndexOf" =>
    let text ← text
    return .call "index" [text, ← value (← need (node.child? "search"))]
  | "StringToUpperCase" => return .call "uc" [← text]
  | "StringToLowerCase" => return .call "lc" [← text]
  | "StringTrim" => return without (← text) "^\\s+|\\s+$"
  | "StringLength" => return .call "length" [← text]
  | "StringRepeat" =>
    let text ← text
    return binary .repeated text (← value (← need (node.child? "count")))
  | "StringFromCharCode" => charsOfCodes (node.children "arguments")
  | "HexEncode" => return bytesToHex (← listOf (← need (node.child? "bytes")))
  | "HexDecode" => return hexToBytes (← text)
  | "StringToBytes" => return textToBytes (← text)
  | "BytesToString" => return bytesToText (← listOf (← need (node.child? "bytes")))
  | _ => failure

/-- Lowers a rotation. One whose width is not that of a word is dropped. -/
def taggedRotation (node : Node) (left : Bool) : Attempt Expr := do
  let value ← value (← need (node.child? "value"))
  let amount ← Perl.value (← need (node.child? "amount"))
  let width := (node.number? "bits").getD (.ofInt 32)
  match rotationWidth? width >>= (Rotation.ofWidth? · left) with
  | some rotation => rotate value amount rotation
  | none =>
    warn node.dropped
    return .undefined

def taggedNumber (node : Node) (tag : String) : Attempt Expr := do
  let argumentNodes := node.children "arguments"
  let ofArgument (method : String) : Attempt Expr := do
    mathCall method [← need (node.child? "argument")]
  match tag with
  | "RotateLeft" => taggedRotation node true
  | "RotateRight" => taggedRotation node false
  | "PackBytes" =>
    return packBytes (← arguments argumentNodes) (node.text? "endian" != some "little")
  | "UnpackBytes" =>
    let word ← value (← need (node.child? "value"))
    let bits := ((node.number? "bits").getD (.ofInt 32)).truncateToNat Text.maxNat32
    unpackBytes word bits (node.text? "endian" != some "little")
  | "Cast" =>
    let inner ← value (← need (node.child? "expression"))
    return cast inner ((node.text? "targetType").getD "int")
  | "MathCall" => mathCall (← need (node.nameIn? "method")) argumentNodes
  | "Floor" => ofArgument "floor"
  | "Ceil" => ofArgument "ceil"
  | "Abs" => ofArgument "abs"
  | "Sqrt" => ofArgument "sqrt"
  | "Round" => ofArgument "round"
  | "Trunc" => ofArgument "trunc"
  | "Min" => mathCall "min" argumentNodes
  | "Max" => mathCall "max" argumentNodes
  | "Power" =>
    let base ← value (← need (node.child? "base"))
    return binary .pow base (← value (← need (node.child? "exponent")))
  | _ => failure

/-- Lowers an operation on objects or on the world around the program. -/
def taggedObject (node : Node) (tag : String) : Attempt Expr := do
  let onObject (method : String) : Attempt Expr := do
    objectCall method [← need (node.child? "object")]
  match tag with
  | "JsonStringify" => jsonCall "encode" (← valueOf (node.child? "value"))
  | "JsonParse" => jsonCall "decode" (← valueOf (node.child? "value"))
  | "ObjectKeys" => onObject "keys"
  | "ObjectValues" => onObject "values"
  | "ObjectEntries" => onObject "entries"
  | "ObjectFreeze" => value (← need (node.child? "object"))
  | "IsArray" => return isArray (← value (← need (node.child? "value")))
  | "ErrorCreation" =>
    valueOr (.string ((node.text? "errorType").getD "Error")) (node.child? "message")
  | "DebugOutput" => consoleCall ((node.text? "method").getD "log") (node.children "arguments")
  | _ => failure

/-- Lowers a use of the object that a method is called on, or of its base class. -/
def taggedThis (node : Node) (tag : String) : Attempt Expr := do
  let argumentNodes := node.children "arguments"
  match tag with
  | "ThisPropertyAccess" =>
    let name ← need node.thisMember?
    getterValue name <|> return .key (← thisValue) (.string name)
  | "ThisMethodCall" =>
    let method ← need (node.nameIn? "method")
    return .callMethod (← thisValue) method (← arguments argumentNodes)
  | "ParentConstructorCall" => return superNew (← arguments argumentNodes)
  | "ParentMethodCall" =>
    let method ← need (node.nameIn? "method")
    return .callMethod (← thisValue) ("SUPER::" ++ method) (← arguments argumentNodes)
  | _ => failure

def taggedExpr (node : Node) : Attempt Expr := do
  let tag ← need (node.text? "ilNodeType")
  taggedArray node tag <|> taggedText node tag <|> taggedNumber node tag <|>
    taggedObject node tag <|> taggedThis node tag

/-- Calls the constructor of the base class. The fields are set after it. -/
def superConstructor (args : List Expr) : Lower (List Stmt) := do
  match ← takePendingFields with
  | some fields => return .my "self" .scalar (some (superNew args)) :: fields
  | none => return [.setScalar "self" (superNew args)]

def taggedStmts (node : Node) : Attempt (List Stmt) := do
  let tag ← need (node.text? "ilNodeType")
  let array : Attempt Node := need (node.child? "array")
  match tag with
  | "ArrayForEach" =>
    let array ← array
    foreachStmt array (← need (node.child? "callback"))
  | "ArraySort" => sortStmts (← array) (node.child? "compareFn")
  | "ArrayReverse" => reverseStmts (← array)
  | "ArrayFill" =>
    let filler ← need (node.child? "value")
    fillStmts (← array) filler none none
  | "ArrayClear" => return [.ofExpr (.set (← arrayTarget (← array)) (.list []))]
  | "ParentConstructorCall" => superConstructor (← arguments (node.children "arguments"))
  | _ => failure

end Scriptgen.Perl
