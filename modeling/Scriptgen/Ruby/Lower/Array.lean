import Scriptgen.Ruby.Lower.Iterate
/-!
# Lowering to Ruby: arrays and collections

The methods of arrays, maps and sets.
-/

namespace Scriptgen.Ruby

/-! ## Making arrays -/

def newArray (args : List Expr) : Expr := constantCall "Array" "new" args

def isSizeArgument (arg : Node) : Bool := arg.type != "ArrayExpression" && !arg.isTextual

def newArraySize? (expr : Node) : Option Node :=
  let array := expr.unwrapped
  if array.type == "NewExpression" &&
      (array.child? "callee" >>= Node.name?).any fun name =>
        name == "Array" || typedArrays.contains name then
    match array.children "arguments" with
    | [size] => if isSizeArgument size then some size else none
    | _ => none
  else none

def lengthOnly? (expr : Node) : Option Node :=
  let node := expr.unwrapped
  if node.type == "ObjectExpression" then
    match node.children "properties" with
    | [property] => if property.keyName? == some "length" then property.child? "value" else none
    | _ => none
  else none

/-- Lowers a new array from a size or from an array to copy. Where the program does not tell which,
the generated code does. -/
def sizedOrCopied (arg : Node) : Lower Expr := do
  if arg.type == "ArrayExpression" || (← hasShape arg .list) then return (← value arg).read "dup"
  else if ← isNumber arg then return newArray [← value arg, .int 0]
  else
    let (setup, source) ← shared (← value arg) "source"
    return withSetup setup
      (.ternary (isArray source) (source.read "dup") (newArray [source, .int 0]))

/-- Lowers an array of the elements that an iterable value or a length gives. -/
def arrayFrom (source : Node) (mapper : Option Node) : Lower Expr := do
  match lengthOnly? source, mapper with
  | some length, some mapper => generatedArray length mapper
  | none, some mapper => iterate .map source mapper none
  | some length, none => return newArray [← value length]
  | none, none =>
    let text ← isText source
    return (← value source).read (if text then "chars" else "to_a")

/-! ## Changing arrays -/

def sortedArray (array : Node) (compare : Option Node) : Lower Expr := do
  let list ← value array
  match compare with
  | none => return list.read "sort!"
  | some compare =>
    match (namedCallback? compare).filter (·.params.length == 2) with
    | some callback =>
      let block ← inScope do
        declareParams callback.paramNames
        callbackBlock callback (callback.paramNames.map localName) []
      return .withBlock list "sort!" [] block
    | none => return .method list "sort!" [.blockPass (← value compare)]

def fillRange (start stop : Option Node) : Lower (List Expr) := do
  match start, stop with
  | some start, some stop =>
    let start ← value start
    return [rangeUpTo start (← value stop)]
  | some start, none => return [← value start]
  | none, _ => return []

/-- Lowers the filling of an array with one value. A new array is made with its elements. -/
def filledArray (array filler : Node) (start stop : Option Node) : Lower Expr := do
  match if start.isNone then newArraySize? array else none with
  | some size =>
    let size ← value size
    return newArray [size, ← value filler]
  | none =>
    let list ← value array
    let filler ← value filler
    return .method list "fill" (filler :: (← fillRange start stop))

/-- Lowers the removal and insertion of elements, which gives those that are removed. -/
def splicedArray (array : Node) (args : List Node) : Attempt Expr := do
  let list ← value array
  let start ← value (← need args.head?)
  match args[1]? with
  | none => return .method list "slice!" [rangeFrom start]
  | some count =>
    let count ← value count
    let items ← arguments (args.drop 2)
    if items.isEmpty then return .method list "slice!" [start, count]
    let (listSetup, list) ← shared list "list"
    let (startSetup, start) ← shared start "start"
    let removed := Expr.localVar (← fresh "removed")
    return withSetup
      (listSetup ++ startSetup ++
        [.set removed (.method list "slice!" [start, count]),
          .ofExpr (.method list "insert" (start :: items))])
      removed

/-! ## Parts of arrays -/

def joinedArray (list : Expr) (separator : Option Node) : Lower Expr :=
  return .method list "join" [← valueOr (.string ",") separator]

/-- Lowers the part of an array or text from one position up to another. -/
def sliced (list : Expr) (start stop : Option Node) : Lower Expr := do
  match start with
  | none => return list.read "dup"
  | some start =>
    let start ← value start
    match stop with
    | some stop => return .index list (rangeUpTo start (← value stop))
    | none => return .index list (rangeFrom start)

def isSingleElement (node : Node) : Lower Bool := do
  let known := (← get).known
  return node.type == "Literal" || known.isText node || known.isNumber node

def concatenated (array : Node) (others : List Node) : Lower Expr := do
  let first ← value array
  if others.isEmpty then return first.read "dup"
  let rest ← others.mapM fun other => do
    let single ← isSingleElement other
    let value ← value other
    return if single then .array [value] else value
  return rest.foldl (binary .add) first

/-! ## Methods -/

def arrayMethod (receiver : Node) (method : String) (args : List Node) : Attempt Expr := do
  if let some op := Iteration.ofMethod? method then
    return ← iterate op receiver (← need args.head?) args[1]?
  match method with
  | "flatMap" =>
    let callback ← need args.head?
    return .method (← iterate .map receiver callback none) "flatten" [.int 1]
  | "join" => joinedArray (← value receiver) args[0]?
  | "slice" => sliced (← value receiver) args[0]? args[1]?
  | "splice" => splicedArray receiver args
  | "concat" => concatenated receiver args
  | "indexOf" =>
    let list ← value receiver
    return indexOf list "index" (← arguments args)
  | "lastIndexOf" =>
    let list ← value receiver
    return indexOf list "rindex" (← arguments args)
  | "includes" =>
    let list ← value receiver
    return .method list "include?" (← arguments args)
  | "reverse" => return (← value receiver).read "reverse!"
  | "sort" => sortedArray receiver args[0]?
  | "fill" => filledArray receiver (← need args[0]?) args[1]? args[2]?
  | "at" =>
    let list ← value receiver
    return .index list (← value (← need args[0]?))
  | "flat" =>
    let list ← value receiver
    return .method list "flatten" [← valueOr (.int 1) args[0]?]
  | "keys" => return ((← value receiver).read "each_index").read "to_a"
  | "entries" =>
    return callWith ((← value receiver).read "each_with_index") "map" [] ["x", "i"]
      (.array [.localVar "i", .localVar "x"])
  | _ => failure

/-- The method of Ruby that does the same for a collection. -/
def collectionMethodName? : Collection → String → Option String
  | .map, "has" => some "key?"
  | .set, "has" => some "include?"
  | .set, "add" => some "add"
  | _, "delete" => some "delete"
  | _, "clear" => some "clear"
  | .map, "keys" => some "keys"
  | .map, "values" => some "values"
  | .map, "entries" => some "to_a"
  | .set, "values" | .set, "keys" => some "to_a"
  | _, _ => none

def mapSlot (receiver : Node) (args : List Node) : Attempt Expr := do
  let base ← value receiver
  return .index base (← value (← need args.head?))

def collectionMethod (collection : Collection) (receiver : Node) (method : String)
    (args : List Node) : Attempt Expr := do
  match collection, method with
  | _, "forEach" => return withSetup (← foreachStmts receiver (← need args.head?)) .nil
  | .map, "get" => mapSlot receiver args
  | .map, "set" =>
    let slot ← mapSlot receiver args
    return .set slot (← valueOf args[1]?)
  | _, _ =>
    let name ← need (collectionMethodName? collection method)
    let base ← value receiver
    return .method base name (← arguments args)

end Scriptgen.Ruby
