import Scriptgen.Ruby.Lower.Class
import Scriptgen.Ruby.Lower.Global
/-!
# Lowering to Ruby: tagged nodes

The type-inference pass tags nodes that stand for operations of the standard library. An attempt
that does not apply leaves the node to its plain form.
-/

namespace Scriptgen.Ruby

def valueIn (node : Node) (field : String) : Attempt Expr := do value (← need (node.child? field))

def taggedTypedArray (node : Node) : Lower Expr := do
  match node.child? "source", node.child? "size" with
  | some source, _ => return (← value source).read "dup"
  | none, some size => sizedOrCopied size
  | none, none => return .array []

def taggedArray (node : Node) (tag : String) : Attempt Expr := do
  let array : Attempt Node := need (node.child? "array")
  let list : Attempt Expr := valueIn node "array"
  if let some op := Iteration.ofTag? tag then
    let array ← array
    return ← iterate op array (← need (node.child? "callback")) (node.child? "initialValue")
  match tag with
  | "ArrayJoin" => joinedArray (← list) (node.child? "separator")
  | "ArraySlice" => sliced (← list) (node.child? "start") (node.child? "end")
  | "ArrayPush" =>
    let list ← list
    return .method list "push" (← arguments (node.children "elements"))
  | "ArrayUnshift" =>
    let list ← list
    return .method list "unshift" (← arguments (node.children "elements"))
  | "ArrayPop" => return (← list).read "pop"
  | "ArrayShift" => return (← list).read "shift"
  | "ArrayClear" => return (← list).read "clear"
  | "ArrayReverse" => return (← list).read "reverse!"
  | "ArrayLength" => return (← list).read "length"
  | "ArrayConcat" => concatenated (← array) (node.children "arrays")
  | "ArrayIndexOf" =>
    let list ← list
    return indexOf list "index" [← valueIn node "value"]
  | "ArrayIncludes" =>
    let list ← list
    return .method list "include?" [← valueIn node "value"]
  | "ArrayFill" =>
    let array ← array
    filledArray array (← need (node.child? "value")) (node.child? "start") (node.child? "end")
  | "ArraySort" => sortedArray (← array) (node.child? "compareFn")
  | "ArrayCreation" =>
    match node.child? "size" with
    | some size => return newArray [← value size]
    | none => return .array (← arguments (node.children "elements"))
  | "TypedArrayCreation" => taggedTypedArray node
  | _ => failure

def taggedText (node : Node) (tag : String) : Attempt Expr := do
  let text : Attempt Expr := valueIn node "string"
  match tag with
  | "StringReplace" =>
    let text ← text
    let searched ← need (node.child? "pattern")
    replacedText text searched (← need (node.child? "replacement")) (node.flag "all")
  | "StringSplit" => splitText (← text) (node.child? "separator")
  | "StringSubstring" => sliced (← text) (node.child? "start") (node.child? "end")
  | "StringCharAt" =>
    let text ← text
    return .index text (← valueIn node "index")
  | "StringCharCodeAt" =>
    let text ← text
    return (Expr.index text (← valueIn node "index")).read "ord"
  | "StringIndexOf" =>
    let text ← text
    return indexOf text "index" [← valueIn node "search"]
  | "StringToUpperCase" => return (← text).read "upcase"
  | "StringToLowerCase" => return (← text).read "downcase"
  | "StringTrim" => return (← text).read "strip"
  | "StringLength" => return (← text).read "length"
  | "StringRepeat" =>
    let text ← text
    return binary .mul text (← valueIn node "count")
  | "StringFromCharCode" => charsOfCodes (node.children "arguments")
  | "HexEncode" => return bytesToHex (← valueIn node "bytes")
  | "HexDecode" => return hexToBytes (← text)
  | "StringToBytes" => return (← text).read "bytes"
  | "BytesToString" => return bytesToText (← valueIn node "bytes")
  | _ => failure

def taggedRotation (node : Node) (left : Bool) : Attempt Expr := do
  let value ← valueIn node "value"
  let amount ← valueIn node "amount"
  let width := (node.number? "bits").getD (.ofInt 32)
  match rotationWidth? width >>= (Rotation.ofWidth? · left) with
  | some rotation => rotate value amount rotation
  | none =>
    warn node.dropped
    return .nil

def taggedNumber (node : Node) (tag : String) : Attempt Expr := do
  let argumentNodes := node.children "arguments"
  let isBigEndian := node.text? "endian" != some "little"
  let ofArgument (method : String) : Attempt Expr := do
    mathFunction method [← need (node.child? "argument")]
  match tag with
  | "RotateLeft" => taggedRotation node true
  | "RotateRight" => taggedRotation node false
  | "PackBytes" => return packBytes (← arguments argumentNodes) isBigEndian
  | "UnpackBytes" =>
    let word ← valueIn node "value"
    let bits := ((node.number? "bits").getD (.ofInt 32)).truncateToNat Text.maxNat32
    unpackBytes word bits isBigEndian
  | "Cast" => return cast (← valueIn node "expression") ((node.text? "targetType").getD "int")
  | "MathCall" => mathFunction (← need (node.nameIn? "method")) argumentNodes
  | "Floor" => ofArgument "floor"
  | "Ceil" => ofArgument "ceil"
  | "Abs" => ofArgument "abs"
  | "Sqrt" => ofArgument "sqrt"
  | "Round" => ofArgument "round"
  | "Trunc" => ofArgument "trunc"
  | "Min" => mathFunction "min" argumentNodes
  | "Max" => mathFunction "max" argumentNodes
  | "Power" =>
    let base ← valueIn node "base"
    return binary .pow base (← valueIn node "exponent")
  | _ => failure

def taggedObject (node : Node) (tag : String) : Attempt Expr := do
  let onObject (method : String) : Attempt Expr := do
    objectFunction method [← need (node.child? "object")]
  match tag with
  | "JsonStringify" => jsonCall "generate" (← valueOf (node.child? "value"))
  | "JsonParse" => jsonCall "parse" (← valueOf (node.child? "value"))
  | "ObjectKeys" => onObject "keys"
  | "ObjectValues" => onObject "values"
  | "ObjectEntries" => onObject "entries"
  | "ObjectFreeze" => valueIn node "object"
  | "IsArray" => return isArray (← valueIn node "value")
  | "ErrorCreation" =>
    let message ← values (node.child? "message").toList
    return .new (errorClass ((node.text? "errorType").getD "Error")) message
  | "DebugOutput" => consoleCall ((node.text? "method").getD "log") (node.children "arguments")
  | _ => failure

def taggedThis (node : Node) (tag : String) : Attempt Expr := do
  let argumentNodes := node.children "arguments"
  match tag with
  | "ThisPropertyAccess" => thisProperty (← need node.thisMember?)
  | "ThisMethodCall" =>
    let method ← need (node.nameIn? "method")
    thisCall method (← arguments argumentNodes)
  | "ParentConstructorCall" => return .super (← arguments argumentNodes)
  | "ParentMethodCall" =>
    let method ← need (node.nameIn? "method")
    superCall method (← arguments argumentNodes)
  | _ => failure

def taggedExpr (node : Node) : Attempt Expr := do
  let tag ← need (node.text? "ilNodeType")
  taggedArray node tag <|> taggedText node tag <|> taggedNumber node tag <|>
    taggedObject node tag <|> taggedThis node tag

def taggedStmts (node : Node) : Attempt (List Stmt) := do
  match ← need (node.text? "ilNodeType") with
  | "ArrayForEach" =>
    let array ← need (node.child? "array")
    foreachStmts array (← need (node.child? "callback"))
  | "ParentConstructorCall" => superConstructor (← arguments (node.children "arguments"))
  | _ => failure

end Scriptgen.Ruby
