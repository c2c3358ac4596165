import Scriptgen.Perl.Lower.Container
import Scriptgen.Source.Callback
import Scriptgen.Source.Iteration
/-!
# Lowering to Perl: iteration

Array methods with a callback. A callback that only looks at the element becomes the block of a
native function. Other iterations become a loop over the indices, with the body of the callback
inside it where possible.
-/

namespace Scriptgen.Perl

/-- The block function that does the same for callbacks that only look at the element. -/
def blockOp? : Iteration → Option BlockListOp
  | .map => some .map
  | .filter => some .grep
  | .any => some .any
  | .all => some .all
  | .find => some .first
  | .forEach | .findIndex | .reduce => none

def collects (op : Iteration) : Bool := op == .map || op == .filter

/-- Declares parameters and gives them the values in their places. -/
def bindParams (params : List Node) (positional : List Expr) : Lower (List Stmt) := do
  let decls ← (params.zip positional).mapM fun (param, arg) => do
    match param.name? with
    | none => return none
    | some name =>
      declareScalar name
      return some (Stmt.my name .scalar (some arg))
  return decls.filterMap id

def nativeIteration (op : Iteration) (blockOp : BlockListOp) (callback : Callback) (list : Expr) :
    Lower Expr := do
  let (body, result) ← inScope do
    let body ←
      match callback.paramName? 0 with
      | none => pure []
      | some name =>
        declareScalar name
        pure [Stmt.my name .scalar (some current)]
    return (body, ← valueOf callback.resultExpr?)
  if blockOp == .any || blockOp == .all || blockOp == .first then
    useSymbol "List::Util" blockOp.name
  let block := Expr.blockList blockOp body result list
  return if collects op then .arrayRef [block] else block

/-- What one round of an iteration does with the value of the callback. -/
def iterationStep (op : Iteration) (result : String) (element index value : Expr) : Stmt :=
  let found (newResult : Expr) : List Stmt :=
    [.setScalar result newResult, .plain (.jump .last none)]
  let keep (item : Expr) : Stmt := .ofExpr (.call "push" [.var result .list, item])
  match op with
  | .map => keep value
  | .filter => .when value [keep element]
  | .forEach => .ofExpr value
  | .any => .when value (found (.int 1))
  | .all => .when (not value) (found (.int 0))
  | .find => .when value (found element)
  | .findIndex => .when value (found index)
  | .reduce => .setScalar result value

/-- The result of an iteration before its first round, and the index of that round. -/
def iterationStart (op : Iteration) (list : Expr) (initial : Option Node) :
    Lower (Option Expr × Int) := do
  match op, initial with
  | .reduce, some initial => return (some (← value initial), 0)
  | .reduce, none => return (some (.index list (.int 0)), 1)
  | .any, _ => return (some (.int 0), 0)
  | .all, _ => return (some (.int 1), 0)
  | .findIndex, _ => return (some (.int (-1)), 0)
  | _, _ => return (none, 0)

/-- The value of a callback for given arguments, after the statements that bind them. A callback
that is one expression is put in place; any other is called, by a name that is set up before. -/
def callbackValue (callback : Node) (literal : Option Callback) (positional : List Expr) :
    Lower (List Stmt × List Stmt × Expr) := do
  match literal.filter fun c => c.resultExpr?.isSome && c.hasNamedParams with
  | some literal =>
    inScope do
      let bindings ← bindParams literal.params positional
      return ([], bindings, ← valueOf literal.resultExpr?)
  | none =>
    let (setup, code) ← shared (← value callback) "fn"
    return (setup, [], .callCode code positional)

def indexedIteration (op : Iteration) (array callback : Node) (literal : Option Callback)
    (initial : Option Node) : Lower Expr := do
  let (listSetup, list) ← stableArray array
  let index ← fresh "i"
  let result ← fresh "result"
  let element := Expr.index list (.scalar index)
  let (start, first) ← iterationStart op list initial
  let resultDecl : List Stmt :=
    if collects op then [.my result .list none]
    else if op == .forEach then []
    else [.my result .scalar start]
  let positional :=
    (if op == .reduce then [Expr.scalar result] else []) ++
      [element, .scalar index, arrayRefTo list]
  let (codeSetup, bindings, value) ← callbackValue callback literal positional
  let loop : Stmt := .plain (.foreach none index (indicesFrom first list)
    (bindings ++ [iterationStep op result element (.scalar index) value]))
  let final :=
    if collects op then unary .ref (.var result .list)
    else if op == .forEach then .undefined
    else .scalar result
  return .doBlock (listSetup ++ resultDecl ++ codeSetup ++ [loop, .ofExpr final])

def iterate (op : Iteration) (array callback : Node) (initial : Option Node) : Lower Expr := do
  let literal := Callback.ofNode? callback
  match literal.filter (·.isElementOnly), blockOp? op with
  | some literal, some blockOp => nativeIteration op blockOp literal (← listOf array)
  | _, _ => indexedIteration op array callback literal initial

/-- The variable and the list of a loop that was a callback, after the statements that set it up,
and the statements at the start of its body. -/
def loopHead (array : Node) (callback : Callback) :
    Lower (List Stmt × String × Expr × List Stmt) := do
  if callback.params.length ≤ 1 then
    let list ← listOf array
    let var ←
      match callback.paramName? 0 with
      | some name => pure name
      | none => fresh "item"
    declareScalar var
    return ([], var, list, [])
  else
    let (setup, list) ← stableArray array
    let index ← fresh "i"
    let bindings ← bindParams callback.params
      [.index list (.scalar index), .scalar index, arrayRefTo list]
    return (setup, index, indicesFrom 0 list, bindings)

/-- Statements in a block of their own if something has to be set up before the last of them. -/
def Stmt.after (setup : List Stmt) (last : Stmt) : List Stmt :=
  if setup.isEmpty then [last] else [.block (setup ++ [last])]

def inCallback {α : Type} (step : Lower α) : Lower α :=
  atPlace ({ · with inLoopCallback := true })
    (fun before after => { after with inLoopCallback := before.inLoopCallback }) step

/-- Lowers `forEach` to a loop whose body is that of the callback. -/
def foreachStmt (array callback : Node) : Lower (List Stmt) := do
  match (Callback.ofNode? callback).filter Callback.hasNamedParams with
  | none => return [.ofExpr (← iterate .forEach array callback none)]
  | some literal =>
    inScope do
      let (setup, var, list, bindings) ← loopHead array literal
      let (label, body) ← inFrame .callback none <| inCallback do
        match literal.body with
        | .block block => stmts (block.children "body")
        | .expr expr => exprStmt expr
      return Stmt.after setup (.plain (.foreach label var list (bindings ++ body)))

end Scriptgen.Perl
