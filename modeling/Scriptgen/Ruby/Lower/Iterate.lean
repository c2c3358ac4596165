import Scriptgen.Ruby.Lower.Jump
import Scriptgen.Ruby.Texts
import Scriptgen.Source.Callback
import Scriptgen.Source.Iteration
/-!
# Lowering to Ruby: iteration

Array methods with a callback become the methods of Ruby that do the same. A callback that is a
function literal becomes the block of the call, where `return` continues with the next element.
-/

namespace Scriptgen.Ruby

/-! ## Blocks -/

/-- Declares the parameters of a callback, of which nothing is known. -/
def declareParams (names : List String) : Lower Unit := names.forM declareScalar

/-- Lowers the body of a callback that has become a block. The jumps that continue it are caught. -/
def callbackStmts (opening : List Stmt) (body : Lower (List Stmt)) : Lower (List Stmt) := do
  let (body, _) ← loopBody .ofCallback do
    return opening ++ (← within ({ · with inLoopCallback := true }) body)
  return body

/-- Lowers a callback to a block whose parameters are declared. What the callback returns last is
the value of the block. -/
def callbackBlock (callback : Callback) (params : List String) (opening : List Stmt) :
    Lower Block := do
  match callback.resultExpr? with
  | some result => return .ofBody params (opening ++ [.ofExpr (← value result)])
  | none =>
    let body ← callbackStmts opening (stmts callback.blockStatements)
    return .ofBody params (withBlockResult body)

/-- The callback that a node is, if all its parameters are plain names. -/
def namedCallback? (node : Node) : Option Callback :=
  (Callback.ofNode? node).filter Callback.hasNamedParams

/-! ## Iterations -/

def iterationMethod : Iteration → String
  | .map => "map"
  | .filter => "select"
  | .forEach => "each"
  | .any => "any?"
  | .all => "all?"
  | .find => "find"
  | .findIndex => "find_index"
  | .reduce => "reduce"

/-- Whether an index is added after the method rather than before it. -/
def indexedAfter : Iteration → Bool
  | .map | .filter | .forEach | .find => true
  | .any | .all | .findIndex | .reduce => false

/-- The receiver and the method of the call that does an iteration, with an index if there has to be
one. -/
def iterationCall (op : Iteration) (list : Expr) (indexed : Bool) : Expr × String :=
  if !indexed then (list, iterationMethod op)
  else if op == .forEach then (list, "each_with_index")
  else if indexedAfter op then (list.read (iterationMethod op), "with_index")
  else (list.read "each_with_index", iterationMethod op)

def iterationArgs (op : Iteration) (initial : Option Expr) : List Expr :=
  if op == .reduce then initial.toList else []

/-- The result of the call that does an iteration. A position that is not found is `-1`. -/
def iterationResult (op : Iteration) (call : Expr) : Expr :=
  if op == .findIndex then orMinusOne call else call

/-- The parameters of a block. The element and its index come as a pair after an accumulator. -/
def blockParams (op : Iteration) (names : List String) : List String :=
  match op, names with
  | .reduce, acc :: element :: index :: _ =>
    [localName acc, "(" ++ localName element ++ ", " ++ localName index ++ ")"]
  | _, names => (names.take 2).map localName

/-- Lowers what an iteration goes over. Text is iterated by its characters. -/
def iterable (array : Node) : Lower Expr := do
  let text ← isText array
  let list ← value array
  return if text then list.read "chars" else list

def leadingParams (op : Iteration) : Nat := if op == .reduce then 1 else 0

/-- Declares the parameters of an iteration. Of an accumulator its first value is known. -/
def declareIterationParams (op : Iteration) (names : List String) (initial : Option Node) :
    Lower Unit := do
  let leading := leadingParams op
  (names.take leading).forM fun name => declareWith name .scalar initial
  declareParams (names.drop leading)

def iterateWith (op : Iteration) (list : Expr) (callback : Callback) (initialNode : Option Node)
    (initial : Option Expr) : Lower Expr := do
  let names := callback.paramNames
  let last := leadingParams op + 2
  let (setup, list) ← if names.length > last then shared list "list" else pure ([], list)
  let block ← inScope do
    declareIterationParams op names initialNode
    let opening := names[last]?.toList.map fun name => Stmt.set (.localVar (localName name)) list
    callbackBlock callback (blockParams op names) opening
  let (receiver, method) := iterationCall op list (names.length > leadingParams op + 1)
  let call := Expr.withBlock receiver method (iterationArgs op initial) block
  return withSetup setup (iterationResult op call)

def iterate (op : Iteration) (array callback : Node) (initial : Option Node) : Lower Expr := do
  let list ← iterable array
  let initialValue ← initial.mapM value
  match namedCallback? callback with
  | some literal => iterateWith op list literal initial initialValue
  | none =>
    let code ← value callback
    let (receiver, method) := iterationCall op list false
    return iterationResult op
      (.method receiver method (iterationArgs op initialValue ++ [.blockPass code]))

/-! ## Loops -/

/-- What a loop that was a callback calls, after the statements that set it up: the receiver, the
method, the parameters, and the statements at the start of its body. A map gives a key before its
value, and a set its elements alone. -/
def loopHead (collection : Option Collection) (list : Expr) (names : List String) :
    Lower (List Stmt × Expr × String × List String × List Stmt) := do
  let locals := names.map localName
  match collection with
  | some .map =>
    return ([], list, "each", [locals[1]?.getD "_key", locals[0]?.getD "_value"], [])
  | some .set =>
    let copy : List Stmt :=
      match locals with
      | first :: second :: _ => [.set (.localVar second) (.localVar first)]
      | _ => []
    return ([], list, "each", locals.take 1, copy)
  | none =>
    let (setup, list) ← if names.length > 2 then shared list "list" else pure ([], list)
    let copy := locals[2]?.toList.map fun name => Stmt.set (.localVar name) list
    let method := if names.length > 1 then "each_with_index" else "each"
    return (setup, list, method, locals.take 2, copy)

def foreachStmts (array callback : Node) : Lower (List Stmt) := do
  match namedCallback? callback with
  | none => return [.ofExpr (← iterate .forEach array callback none)]
  | some literal =>
    let collection ← collectionOf? array
    let list ← iterable array
    let (setup, receiver, method, params, opening) ← loopHead collection list literal.paramNames
    let body ← inScope do
      declareParams literal.paramNames
      callbackStmts opening <|
        match literal.body with
        | .block block => stmts (block.children "body")
        | .expr expr => exprStmt expr
    let loop := Expr.withBlock receiver method [] (.ofBody params (dropFinalNext body))
    return setup ++ [.ofExpr loop]

/-- Lowers an array of a length whose elements a function gives for their indices. -/
def generatedArray (length mapper : Node) : Lower Expr := do
  let length ← value length
  match namedCallback? mapper with
  | none =>
    let code ← value mapper
    return callWith (.constant "Array") "new" [length] ["i"]
      (.method code "call" [.nil, .localVar "i"])
  | some callback =>
    let names := callback.paramNames
    let block ← inScope do
      declareParams names
      let opening : List Stmt :=
        match names with
        | element :: _ :: _ => [.set (.localVar (localName element)) .nil]
        | _ => []
      callbackBlock callback [(names[1]?.map localName).getD "_i"] opening
    return .withBlock (.constant "Array") "new" [length] block

end Scriptgen.Ruby
