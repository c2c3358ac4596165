import Scriptgen.Perl.Lower.Iterate
/-!
# Lowering to Perl: arrays

The methods of arrays. Methods that change an array in place have a plain form as statements, and
one as a value that gives the array afterwards.
-/

namespace Scriptgen.Perl

/-! ## Sorting and reversing -/

def isComparison (callback : Callback) : Bool :=
  callback.params.length == 2 && callback.hasNamedParams && callback.resultExpr?.isSome

/-- A sorted list, after the statements that set up a comparison that is not put in place. -/
def sorted (list : Expr) (compare : Option Node) : Lower (List Stmt × Expr) := do
  match compare with
  | none => return ([], .call "sort" [list])
  | some compare =>
    match (Callback.ofNode? compare).filter isComparison with
    | some callback =>
      let left := (callback.paramName? 0).getD "a"
      let right := (callback.paramName? 1).getD "b"
      inScope do
        declareScalar left
        declareScalar right
        let body : List Stmt :=
          if left == "a" && right == "b" then []
          else [.unpack [⟨left, .scalar⟩, ⟨right, .scalar⟩] (.list [.scalar "a", .scalar "b"])]
        let result ← valueOf callback.resultExpr?
        return ([], .blockList .sort body result list)
    | none =>
      let (setup, code) ← shared (← value compare) "cmp"
      return (setup, blockList .sort (.callCode code [.scalar "a", .scalar "b"]) list)

def sortStmts (array : Node) (compare : Option Node) : Lower (List Stmt) := do
  let target ← arrayTarget array
  let (setup, result) ← sorted target compare
  return setup ++ [.ofExpr (.set target result)]

def sortValue (array : Node) (compare : Option Node) : Lower Expr := do
  let (setup, base) ← stableArray array
  let list := elementsOf base
  let (compareSetup, result) ← sorted list compare
  return .doBlock (setup ++ compareSetup ++ [.ofExpr (.set list result), .ofExpr (arrayRefTo base)])

def reverseStmts (array : Node) : Lower (List Stmt) := do
  let target ← arrayTarget array
  return [.ofExpr (.set target (.call "reverse" [target]))]

def reverseValue (array : Node) : Lower Expr := do
  let (setup, base) ← stableArray array
  let list := elementsOf base
  return .doBlock
    (setup ++ [.ofExpr (.set list (.call "reverse" [list])), .ofExpr (arrayRefTo base)])

/-! ## Filling -/

def fillStmt (base : Expr) (filler : Node) (start stop : Option Node) : Lower Stmt := do
  let filler := Expr.list [← value filler]
  let list := elementsOf base
  if start.isNone && stop.isNone then
    return .ofExpr (.set list (binary .repeated filler (countOf list)))
  let start ← valueOr (.int 0) start
  let stop ← valueOr (countOf list) stop
  let indices := binary .range start (binary .sub stop (.int 1))
  return .ofExpr
    (.set (.slice base indices) (binary .repeated filler (binary .sub stop start)))

def fillStmts (array filler : Node) (start stop : Option Node) : Lower (List Stmt) := do
  let (setup, base) ← stableArray array
  return Stmt.after setup (← fillStmt base filler start stop)

def sizedArray (size : Node) (filler : Expr) : Lower Expr := do
  return .arrayRef [binary .repeated (.list [filler]) (← value size)]

def newArraySize? (array : Node) : Option Node :=
  if array.type == "NewExpression" &&
      (array.child? "callee" >>= Node.name?).any fun name =>
        name == "Array" || typedArrays.contains name then
    match array.children "arguments" with
    | [size] => if size.type != "ArrayExpression" then some size else none
    | _ => none
  else none

/-- Fills an array and gives it. A new array is made with its elements. -/
def fillValue (array filler : Node) (start stop : Option Node) : Lower Expr := do
  let array := array.unwrapped
  match if start.isNone && stop.isNone then newArraySize? array else none with
  | some size =>
    let filler ← value filler
    sizedArray size filler
  | none =>
    let (setup, base) ← stableArray array
    let fill ← fillStmt base filler start stop
    return .doBlock (setup ++ [fill, .ofExpr (arrayRefTo base)])

def isArrayType (type : String) : Bool :=
  type == "array" || type.endsWith "[]" || type.endsWith "Array"

/-- Whether the argument of an array of numbers is its size by its form. -/
def isSizeLike (arg : Node) : Bool :=
  arg.resultType?.isSome ||
    ["Literal", "BinaryExpression", "UpdateExpression", "UnaryExpression"].contains arg.type ||
    arg.staticMember? == some "length"

/-- A new array from a size or from an array to copy. Where the program does not tell which, the
generated code does. -/
def sizedOrCopied (arg : Node) (filler : Expr) : Lower Expr := do
  let arg := arg.unwrapped
  if arg.type == "ArrayExpression" || (← hasShape arg .list) || arg.resultType?.any isArrayType then
    return .arrayRef [← listOf arg]
  if isSizeLike arg then sizedArray arg filler
  else
    let (setup, init) ← shared (← value arg) "init"
    let copied := Expr.arrayRef [.deref init .list]
    let sized := Expr.arrayRef [binary .repeated (.list [filler]) init]
    return withSetup setup (ternary (refOf init) copied sized)

/-! ## Parts and searches -/

def joinedArray (array : Node) (separator : Option Node) : Lower Expr := do
  let separator ← valueOr (.string ",") separator
  return .call "join" [separator, ← listOf array]

/-- A position, which counts from the end of the list if it is written with a minus sign. -/
def position (base : Expr) (node : Node) : Lower Expr := do
  let position ← value node
  return if node.isNegativeLiteral then binary .add (countOf (elementsOf base)) position
    else position

def slicedArray (array : Node) (start stop : Option Node) : Lower Expr := do
  let (setup, base) ← stableArray array
  match start with
  | none => return withSetup setup (.arrayRef [elementsOf base])
  | some start =>
    let first ← position base start
    let last ←
      match stop with
      | some stop => pure (binary .sub (← position base stop) (.int 1))
      | none => pure (.lastIndex base)
    return withSetup setup (.arrayRef [.slice base (binary .range first last)])

/-- An array followed by others, or by single values if they are such by their form. -/
def concatenated (array : Node) (others : List Node) : Lower Expr := do
  let first ← listOf array
  let rest ← others.mapM fun other => do
    let other := other.unwrapped
    if other.type == "Literal" || other.isTextual then value other else listOf other
  return .arrayRef (first :: rest)

def elementEquals (element value : Expr) (valueNode : Node) : Expr :=
  binary (if valueNode.isTextual then .strEq else .numEq) element value

/-- The first of some indices for which a test holds, or `-1`. -/
def firstIndex (test indices : Expr) : Expr :=
  binary .definedOr (blockList .first test indices) (.int (-1))

def arrayIndexOf (array valueNode : Node) : Lower Expr := do
  let (setup, base) ← stableArray array
  let (valueSetup, value) ← shared (← value valueNode) "needle"
  useSymbol "List::Util" "first"
  let test := elementEquals (.index base current) value valueNode
  return withSetup (setup ++ valueSetup) (firstIndex test (indicesFrom 0 base))

def arrayLastIndexOf (array : Node) (valueNode : Option Node) : Attempt Expr := do
  let (setup, base) ← stableArray array
  let valueNode ← need valueNode
  let value ← value valueNode
  useSymbol "List::Util" "first"
  let test := elementEquals (.index base current) value valueNode
  return withSetup setup (firstIndex test (.call "reverse" [indicesFrom 0 base]))

def arrayIncludes (array valueNode : Node) : Lower Expr := do
  let (setup, value) ← shared (← value valueNode) "needle"
  let list ← listOf array
  useSymbol "List::Util" "any"
  let found := blockList .any (elementEquals current value valueNode) list
  return withSetup setup (ternary found (.int 1) (.int 0))

def callOnArray (name : String) (array : Node) (args : List Node) : Lower Expr := do
  let target ← arrayTarget array
  return .call name (target :: (← arguments args))

/-! ## Methods -/

def arrayMethod (receiver : Node) (method : String) (args : List Node) : Attempt Expr := do
  if let some op := Iteration.ofMethod? method then
    return ← iterate op receiver (← need args.head?) args[1]?
  match method with
  | "push" | "unshift" => callOnArray method receiver args
  | "pop" | "shift" => callOnArray method receiver []
  | "slice" => slicedArray receiver args[0]? args[1]?
  | "splice" => return .arrayRef [← callOnArray "splice" receiver args]
  | "concat" => concatenated receiver args
  | "join" => joinedArray receiver args[0]?
  | "indexOf" => arrayIndexOf receiver (← need args[0]?)
  | "lastIndexOf" => arrayLastIndexOf receiver args[0]?
  | "includes" => arrayIncludes receiver (← need args[0]?)
  | "reverse" => reverseValue receiver
  | "sort" => sortValue receiver args[0]?
  | "fill" => fillValue receiver (← need args[0]?) args[1]? args[2]?
  | "at" =>
    let base ← arrayBase receiver
    return .index base (← value (← need args[0]?))
  | "toString" => return .call "join" [.string ",", ← listOf receiver]
  | "keys" =>
    if args.isEmpty then return .arrayRef [indicesFrom 0 (← arrayBase receiver)] else failure
  | _ => failure

def methodStmts (receiver : Node) (method : String) (args : List Node) : Attempt (List Stmt) := do
  if receiver.isTextual || receiver.type == "Super" then failure
  else
    match method, args with
    | "forEach", callback :: _ => foreachStmt receiver callback
    | "sort", _ => sortStmts receiver args.head?
    | "reverse", [] => reverseStmts receiver
    | "fill", filler :: rest => fillStmts receiver filler rest[0]? rest[1]?
    | _, _ => failure

end Scriptgen.Perl
