import Scriptgen.Ruby.Lower.Expr
import Scriptgen.Source.CountingLoop
import Scriptgen.Source.Switch
/-!
# Lowering to Ruby: statements
-/

namespace Scriptgen.Ruby

/-! ## Declarations -/

/-- Records a declaration, and tells whether it makes a new variable. A variable that the function
assigns before its first statement is not made again. -/
def declareAs (name : String) (shape : Shape) (isVar : Bool) : Lower Bool := do
  if isVar && (← readThe Context).hoisted.contains name then return false
  else declare name shape

/-- Whether a function literal that starts a variable here is a function at the top level. -/
def startsFunction (name : String) : Lower Bool := do
  let s ← get
  return !(← readThe Context).inFunction && s.scopes.depth == 1 && s.functions.contains name

def topLevelFunction (name : String) (node : Node) : Lower Stmt :=
  return .plain (.method (← lowerFunction (functionName name) node .topLevel))

/-- Declares a variable that starts with a function. It is declared before the body is lowered, so
that the function can call itself. -/
def declareFunction (name : String) (init : Node) (isVar : Bool) : Lower Stmt := do
  if ← startsFunction name then topLevelFunction name init
  else
    let _ ← declareAs name .scalar isVar
    let target ← variableHere name
    return .set target (← lowerLambda init)

def declareValue (name : String) (init : Option Node) (isVar : Bool) : Lower (List Stmt) := do
  let isNew ← declareAs name (.ofInitializer init) isVar
  relearn name init
  match init with
  | some init =>
    let value ← value init
    return [.set (← variableHere name) value]
  | none => if isNew then return [.set (← variableHere name) .nil] else return []

/-- Declares a variable, which may start with a function or a class. -/
def declareOne (name : String) (init : Option Node) (isVar : Bool) : Lower (List Stmt) := do
  match init with
  | none => declareValue name none isVar
  | some node =>
    if node.type == "ClassExpression" then
      return (← lowerClass node (some name)).toList
    else if node.isFunctionLiteral then return [← declareFunction name node isVar]
    else declareValue name init isVar

def declarator (node : Node) (isVar : Bool) : Lower (List Stmt) := do
  let init := (node.child? "init").map Node.unwrapped
  match node.child? "id" with
  | none => return []
  | some id =>
    match id.type with
    | "Identifier" =>
      match id.name? with
      | some name => declareOne name init isVar
      | none => return []
    | "ArrayPattern" =>
      let list ← valueOr (.array []) init
      return [.ofExpr (.multiAssign (← patternTargets true id) list)]
    | "ObjectPattern" =>
      let source ← valueOf init
      if source.isVar then destructureObject id source
      else
        let temp := Expr.localVar (← fresh "obj")
        return .set temp source :: (← destructureObject id temp)
    | _ =>
      warn id.dropped
      return []

def varDecl (node : Node) : Lower (List Stmt) := do
  let isVar := node.text? "kind" == some "var"
  return (← (node.children "declarations").mapM (declarator · isVar)).flatten

def functionDecl (node : Node) : Lower (List Stmt) := do
  match node.child? "id" >>= Node.name? with
  | none =>
    warn node.dropped
    return []
  | some name =>
    let context ← readThe Context
    if !context.inFunction then
      modify fun s => { s with functions := name :: s.functions }
      return [← topLevelFunction name node]
    else if context.hoisted.contains name then return []
    else
      let _ ← declare name .scalar
      let target ← variableHere name
      return [.set target (← lowerLambda node)]

/-! ## Branches -/

/-- Lowers `return`. A constructor returns nothing. -/
def returnStmt (node : Node) : Lower Stmt := do
  let context ← readThe Context
  if !context.inLoopCallback && context.inConstructor then return .ret none
  let result ← (node.child? "argument").mapM value
  if context.inLoopCallback then callbackReturn result else return .ret result

def branch (node : Option Node) : Lower (List Stmt) := do
  match node with
  | some node => scopedStmts node.asStatements
  | none => return []

def alternative (node : Node) : Lower (List Stmt) :=
  if node.type == "IfStatement" then inScope (stmt node) else branch (some node)

def ifStmt (node : Node) : Lower (List Stmt) := do
  match node.child? "test" with
  | none => return []
  | some testNode =>
    match evaluateGuard testNode with
    | some decided =>
      match node.child? (if decided then "consequent" else "alternate") with
      | some taken => stmts taken.asStatements
      | none => return []
    | none =>
      let cond ← test testNode
      let thenBranch ← branch (node.child? "consequent")
      let elseBranch ← (node.child? "alternate").mapM alternative
      return [.plain (.ifElse cond thenBranch [] elseBranch)]

/-! ## Loops -/

def loopTest (node : Node) : Lower Expr := do
  match node.child? "test" with
  | some testNode => test testNode
  | none => return .bool true

def loopInit (init : Option Node) : Lower (List Stmt) := do
  match init with
  | none => return []
  | some init =>
    if init.type == "VariableDeclaration" then varDecl init else exprStmt init

def steppedLoop (node : Node) (label : Option String) : Lower (List Stmt) := do
  inScope do
    let init ← loopInit (node.child? "init")
    let cond ← loopTest node
    let update := node.child? "update"
    let frame : Frame := { kind := .loop, label := label, stepLoop := update.isSome }
    let (body, tag) ← loopBody frame (branch (node.child? "body"))
    let step ←
      match update with
      | some update => exprStmt update
      | none => pure []
    return init ++ catching tag [.plain (.while cond (body ++ step) false)]

/-- The receiver, the method and the arguments of the call that counts. -/
def countingCall (loop : CountingLoop) (start stop : Expr) : Expr × String × List Expr :=
  if loop.step > 0 then
    let range := if loop.inclusive then rangeThrough start stop else rangeUpTo start stop
    if loop.step == 1 then (range, "each", []) else (range, "step", [.int loop.step])
  else
    let last := if loop.inclusive then stop else plusOne stop
    if loop.step == -1 then (start, "downto", [last])
    else (start, "step", [last, .int loop.step])

def countingStmts (loop : CountingLoop) (label : Option String) : Lower (List Stmt) := do
  let start ← value loop.start
  let stop ← value loop.bound
  let (receiver, method, args) := countingCall loop start stop
  inScope do
    declareScalar loop.var
    modify fun s => { s with known := s.known.addNumber loop.var }
    let (body, tag) ← loopBody { kind := .loop, label := label } (branch (some loop.body))
    let block := Block.ofBody [localName loop.var] body
    return catching tag [.ofExpr (.withBlock receiver method args block)]

def forStmt (node : Node) (label : Option String) : Lower (List Stmt) :=
  match CountingLoop.ofNode? node with
  | some loop => countingStmts loop label
  | none => steppedLoop node label

def whileStmt (node : Node) (label : Option String) : Lower (List Stmt) := do
  let postTest := node.type == "DoWhileStatement"
  let cond ← loopTest node
  let frame : Frame := { kind := .loop, label := label, stepLoop := postTest }
  let (body, tag) ← loopBody frame (branch (node.child? "body"))
  return catching tag [.plain (.while cond body postTest)]

def loopTarget? (left : Option Node) : Option Node :=
  left >>= fun left =>
    if left.type == "VariableDeclaration" then
      (left.children "declarations").head? >>= (·.child? "id")
    else some left

/-- Declares the variables of a loop over elements or keys. Gives the parameters of the block and
the statements that unpack them. -/
def loopBinding (left : Option Node) : Lower (List String × List Stmt) := do
  match loopTarget? left with
  | none => return ([← fresh "item"], [])
  | some target =>
    match target.name? with
    | some name =>
      declareScalar name
      return ([localName name], [])
    | none =>
      if target.type == "ArrayPattern" then
        let params ← (target.childrenWithHoles "elements").mapM fun element => do
          match element >>= Node.name? with
          | some name =>
            declareScalar name
            return localName name
          | none => return "_"
        return (params, [])
      else
        let param ← fresh "item"
        if target.type == "ObjectPattern" then
          return ([param], ← destructureObject target (.localVar param))
        else return ([param], [])

def blockLoop (node : Node) (label : Option String) (receiver : Expr) (method : String) :
    Lower (List Stmt) := do
  inScope do
    let (params, unpacking) ← loopBinding (node.child? "left")
    let (body, tag) ← loopBody { kind := .loop, label := label } do
      return unpacking ++ (← branch (node.child? "body"))
    return catching tag [.ofExpr (.withBlock receiver method [] (.ofBody params body))]

def forOfStmt (node : Node) (label : Option String) : Lower (List Stmt) := do
  match (node.child? "right").map Node.unwrapped with
  | none => return []
  | some right =>
    let method := if ← isText right then "each_char" else "each"
    blockLoop node label (← value right) method

def forInStmt (node : Node) (label : Option String) : Lower (List Stmt) := do
  match (node.child? "right").map Node.unwrapped with
  | none => return []
  | some right =>
    if ← hasShape right .list then blockLoop node label (← value right) "each_index"
    else if ← isText right then blockLoop node label ((← value right).read "length") "times"
    else blockLoop node label (← value right) "each_key"

/-! ## Switches -/

def switchArm (var : Expr) (arm : SwitchArm) : Lower (Option (List Expr) × List Stmt) := do
  let body ← scopedStmts arm.body
  if arm.isDefault then return (none, body)
  else
    let tests ← arm.tests.mapM fun test => return binary .eq var (← value test)
    return (some tests, body)

def switchChain (arms : List (Option (List Expr) × List Stmt)) : List Stmt :=
  let default := (arms.reverse.find? (·.1.isNone)).map (·.2)
  let cases := arms.filterMap fun (tests, body) =>
    match tests with
    | some (first :: rest) => some (rest.foldl (binary .or) first, body)
    | _ => none
  match cases with
  | [] => default.getD []
  | (cond, body) :: rest => [.plain (.ifElse cond body rest default)]

/-- Statements in a loop that runs once, which a `break` leaves. -/
def inSingleLoop (body : List Stmt) : Stmt :=
  .ofExpr (.call none "loop" [] (some (.ofBody [] (body ++ [.jump .leave]))))

def switchStmt (node : Node) (label : Option String) : Lower (List Stmt) := do
  let discriminant ← valueOf (node.child? "discriminant")
  let var := Expr.localVar (← fresh "switch")
  let arms := switchArms (node.children "cases")
  let wrapped := hasOwnBreak arms
  let (frame, lowered) ← inFrame { kind := .switch wrapped, label := label }
    (arms.mapM (switchArm var))
  let chain := switchChain lowered
  return catching frame.breakTag
    (.set var discriminant :: (if wrapped then [inSingleLoop chain] else chain))

/-! ## Labels -/

def labelIn (node : Node) : Option String := node.child? "label" >>= Node.name?

/-- The statements that handle their labels themselves. -/
def labelTakers : List String :=
  ["ForStatement", "ForOfStatement", "ForInStatement", "WhileStatement", "DoWhileStatement",
    "SwitchStatement"]

def labeledStmt (node : Node) : Lower (List Stmt) := do
  match node.child? "body" with
  | none => return []
  | some body =>
    if labelTakers.contains body.type then fun below => below.stmt (labelIn node) body
    else
      let (frame, stmts) ← inFrame { kind := .labeled, label := labelIn node } <|
        if body.type == "BlockStatement" then scopedStmts (body.children "body") else stmt body
      return catching frame.breakTag stmts

/-! ## Errors -/

/-- The class and the message of an error that is made on the spot. -/
def thrownError? (classes : List String) (thrown : Node) : Option (String × Option Node) :=
  match thrown.kind with
  | "ErrorCreation" => some ((thrown.text? "errorType").getD "Error", thrown.child? "message")
  | "NewExpression" =>
    ((thrown.child? "callee" >>= Node.name?).filter fun name =>
      isErrorClass name && !classes.contains name).map fun name =>
        (name, (thrown.children "arguments").head?)
  | _ => none

/-- Lowers `throw`. A message alone is raised as a runtime error. -/
def throwStmt (node : Node) : Lower Stmt := do
  match (node.child? "argument").map Node.unwrapped with
  | none => return .plain (.raise none none)
  | some thrown =>
    match thrownError? (← get).classes thrown with
    | some (name, message) =>
      let message ← message.mapM value
      let className := if name == "Error" && message.isSome then none else some (errorClass name)
      return .plain (.raise className message)
    | none => return .plain (.raise none (some (← value thrown)))

def handlerClause (handler : Node) : Lower (Option String × List Stmt) := do
  let body := (handler.child? "body").elim [] (·.children "body")
  match handler.child? "param" >>= Node.name? with
  | none => return (none, ← scopedStmts body)
  | some name =>
    inScope do
      let _ ← declare name .scalar
      let body ← within (fun context => { context with catchVars := name :: context.catchVars })
        (stmts body)
      return (some (localName name), body)

def tryStmt (node : Node) : Lower Stmt := do
  let body ← branch (node.child? "block")
  let handler ← (node.child? "handler").mapM handlerClause
  let cleanup ← (node.child? "finalizer").mapM fun finalizer => branch (some finalizer)
  return .plain (.begin body handler cleanup)

/-! ## Expressions as statements -/

/-- Lowers `array.length = n`, which removes the elements from there on. -/
def lengthAssignment (node : Node) : Attempt (List Stmt) := do
  let left := (← need (node.child? "left")).unwrapped
  if node.text? "operator" != some "=" || left.staticMember? != some "length" then failure
  else
    let object ← need (left.child? "object")
    if (← get).known.isText object then failure
    else
      let right := (← need (node.child? "right")).unwrapped
      let list ← value object
      if (right.number? "value").any (·.isInt 0) then return [.ofExpr (list.read "clear")]
      else
        warnLossy "assigning a larger array length does not extend the array"
        return [.ofExpr (.method list "slice!" [rangeFrom (← value right)])]

def callStmts (node : Node) : Attempt (List Stmt) := do
  match (node.child? "callee").map Node.unwrapped with
  | none => return []
  | some callee =>
    let args := node.children "arguments"
    if callee.type == "Super" then superConstructor (← arguments args)
    else
      let method ← need callee.staticMember?
      methodStmts (← need (callee.child? "object")) method args

def updateStmts (node : Node) : Attempt (List Stmt) := do
  let place ← target (← need (node.child? "argument"))
  let op : BinaryOp := if node.text? "operator" == some "--" then .sub else .add
  return [.ofExpr (.compound place op (.int 1))]

def logicalStmts (node : Node) : Attempt (List Stmt) := do
  let operator ← need (node.text? "operator")
  let left ← need (node.child? "left")
  let right ← need (node.child? "right")
  if operator == "&&" || operator == "||" then
    let cond ← test left
    return [.when (if operator == "&&" then cond else not cond) (← exprStmt right)]
  else failure

def specialStmts (node : Node) : Attempt (List Stmt) := do
  match node.type with
  | "SequenceExpression" =>
    return (← (node.children "expressions").mapM fun part => exprStmt part).flatten
  | "CallExpression" => callStmts node
  | "AssignmentExpression" => lengthAssignment node
  | "UpdateExpression" => updateStmts node
  | "ConditionalExpression" =>
    let decided ← need (node.child? "test" >>= evaluateGuard)
    match node.child? (if decided then "consequent" else "alternate") with
    | some taken => exprStmt taken
    | none => return []
  | "LogicalExpression" => logicalStmts node
  | _ => failure

def lowerExprStmt (node : Node) : Lower (List Stmt) := do
  let node := node.unwrapped
  orUse (taggedStmts node <|> specialStmts node) do
    return ((← (lowerExpr node).run).map Stmt.ofExpr).toList

/-! ## Statements -/

def lowerStmt (label : Option String) (node : Node) : Lower (List Stmt) := do
  match node.type with
  | "VariableDeclaration" => varDecl node
  | "FunctionDeclaration" => functionDecl node
  | "ClassDeclaration" => return (← lowerClass node none).toList
  | "ExpressionStatement" =>
    match node.child? "expression" with
    | some expr => exprStmt expr
    | none => return []
  | "BlockStatement" => scopedStmts (node.children "body")
  | "EmptyStatement" | "DebuggerStatement" => return []
  | "ReturnStatement" => return [← returnStmt node]
  | "IfStatement" => ifStmt node
  | "ForStatement" => forStmt node label
  | "ForOfStatement" => forOfStmt node label
  | "ForInStatement" => forInStmt node label
  | "WhileStatement" | "DoWhileStatement" => whileStmt node label
  | "SwitchStatement" => switchStmt node label
  | "BreakStatement" => return [← breakStmt (labelIn node)]
  | "ContinueStatement" => return [← continueStmt (labelIn node)]
  | "LabeledStatement" => labeledStmt node
  | "ThrowStatement" => return [← throwStmt node]
  | "TryStatement" => return [← tryStmt node]
  | _ =>
    warn node.dropped
    return []

end Scriptgen.Ruby
