import Scriptgen.Perl.Lower.Expr
import Scriptgen.Source.Switch
/-!
# Lowering to Perl: statements
-/

namespace Scriptgen.Perl

/-! ## Declarations -/

/-- Records a declaration, and tells whether it makes a new variable. A variable that the function
declares before its first statement is not made again. -/
def declareAs (name : String) (shape : Shape) (isVar : Bool) : Lower Bool := do
  if isVar && (← get).place.isHoisted name then return false
  else declare name shape

/-- Sets the variable of a function, after its declaration if it is new. -/
def functionVar (name : String) (isNew : Bool) (sub : Sub) : List Stmt :=
  (if isNew then [Stmt.my name .scalar none] else []) ++ [assignSub name sub]

/-- Declares a variable, which may start with a function or a class. A function is declared before
its body is lowered, so that it can call itself. -/
def declareOne (name : String) (init : Option Node) (isVar : Bool) : Lower (List Stmt) := do
  match init with
  | none =>
    if ← declareAs name .scalar isVar then return [.my name .scalar none] else return []
  | some init =>
    if init.type == "ClassExpression" then
      return [← lowerClassNamed init name]
    else if init.isFunctionLiteral then
      let isNew ← declareAs name .scalar isVar
      return functionVar name isNew (← lowerFunction "" init .plain)
    else
      let shape := Shape.ofInitializer (some init)
      if ← declareAs name shape isVar then
        return [.my name shape (some (← shapedValue shape init))]
      else
        let shape := (← get).scopes.shapeOf name
        return [.ofExpr (.set (.var name shape) (← shapedValue shape init))]

def declarator (node : Node) (isVar : Bool) : Lower (List Stmt) := do
  let init := (node.child? "init").map Node.unwrapped
  match node.child? "id" with
  | none => return []
  | some id =>
    match id.type with
    | "Identifier" =>
      match id.name? with
      | some name => declareOne name init isVar
      | none => return []
    | "ArrayPattern" =>
      let list ←
        match init with
        | some init => listOf init
        | none => pure (.list [])
      return [.unpack (← patternTargets id) list]
    | "ObjectPattern" =>
      let temp ← fresh "obj"
      let source ← valueOf init
      return .my temp .scalar (some source) :: (← destructureObject id (.scalar temp))
    | _ =>
      warn id.dropped
      return []

def varDecl (node : Node) : Lower (List Stmt) := do
  let isVar := node.text? "kind" == some "var"
  return (← (node.children "declarations").mapM (declarator · isVar)).flatten

/-- Lowers a declaration of a function. Inside a function it becomes a variable. -/
def functionDecl (node : Node) : Lower (List Stmt) := do
  match node.child? "id" >>= Node.name? with
  | none =>
    warn node.dropped
    return []
  | some name =>
    let place := (← get).place
    if place.functionDepth == 0 then
      modify fun s => { s with functions := name :: s.functions }
      return [.plain (.sub (← lowerFunction name node .plain))]
    else if place.isHoisted name then return []
    else
      let isNew ← declare name .scalar
      return functionVar name isNew (← lowerFunction "" node .plain)

/-! ## Jumps -/

/-- A jump to the next round of the nearest loop. The bare block of a switch would catch it, so that
it needs a label there. -/
def nextStmt : Lower Stmt := do
  let crossed := ((← get).frames.takeWhile (·.kind == .switch)).length
  let label ← if crossed == 0 then pure none else frameLabel crossed
  return .plain (.jump .next label)

/-- A jump to the next round of the nearest loop that was a callback. -/
def callbackNext : Lower Stmt := do
  match (← get).frames.findIdx? (·.kind == .callback) with
  | none => nextStmt
  | some crossed =>
    let label ← if crossed == 0 then pure none else frameLabel crossed
    return .plain (.jump .next label)

def returnStmt (node : Node) : Lower Stmt := do
  let place := (← get).place
  if place.inLoopCallback then callbackNext
  else
    match node.child? "argument" with
    | some argument => return .ret (some (← value argument))
    | none => return .ret (if place.inConstructor then some (.scalar "self") else none)

def labelIn (node : Node) : Option String := (node.child? "label" >>= Node.name?).map labelOf

def continueStmt (node : Node) : Lower Stmt := do
  match labelIn node with
  | some label => return .plain (.jump .next (some label))
  | none => nextStmt

/-! ## Branches and loops -/

def branch (node : Option Node) : Lower (List Stmt) := do
  match node with
  | some node => scopedStmts node.asStatements
  | none => return []

def alternative (node : Node) : Lower (List Stmt) :=
  if node.type == "IfStatement" then inScope (stmt node) else branch (some node)

/-- Lowers a branch. A guard that can be decided leaves one side, whose declarations then belong to
the scope around it. -/
def ifStmt (node : Node) : Lower (List Stmt) := do
  match node.child? "test" with
  | none => return []
  | some test =>
    match evaluateGuard test with
    | some decided =>
      match node.child? (if decided then "consequent" else "alternate") with
      | some taken => stmts taken.asStatements
      | none => return []
    | none =>
      let cond ← value test
      let thenBranch ← branch (node.child? "consequent")
      let elseBranch ← (node.child? "alternate").mapM alternative
      return [.plain (.ifElse cond thenBranch [] elseBranch)]

/-- Lowers the body of a loop, and gives the label that the loop needs. -/
def loopBody (label : Option String) (body : Option Node) : Lower (Option String × List Stmt) :=
  inFrame .loop label (branch body)

/-- The initializer of a loop, or the statements before it if it is not a single one. -/
def loopInit (init : Option Node) : Lower (List Stmt × Option Stmt) := do
  let decls ←
    match init with
    | none => pure []
    | some init =>
      if init.type == "VariableDeclaration" then varDecl init
      else pure ((← sequence init).map .ofExpr)
  match decls with
  | [only] => return ([], some only)
  | _ => return (decls, none)

def forStmt (node : Node) (label : Option String) : Lower (List Stmt) := do
  inScope do
    let (before, init) ← loopInit (node.child? "init")
    let cond ← (node.child? "test").mapM value
    let step ←
      match node.child? "update" with
      | some update => sequence update
      | none => pure []
    let (label, body) ← loopBody label (node.child? "body")
    return Stmt.after before (.plain (.loop label init cond step body))

/-- Declares the variable of a loop over elements or keys, and unpacks a pattern. -/
def loopBinding (left : Option Node) : Lower (String × List Stmt) := do
  let target :=
    match left with
    | some left =>
      if left.type == "VariableDeclaration" then
        (left.children "declarations").head? >>= (·.child? "id")
      else some left
    | none => none
  match target >>= Node.name? with
  | some name =>
    declareScalar name
    return (name, [])
  | none =>
    let item ← fresh "item"
    match target with
    | some target =>
      if target.type == "ArrayPattern" || target.type == "ObjectPattern" then
        return (item, ← unpackPattern target (.scalar item))
      else return (item, [])
    | none => return (item, [])

def foreachOver (node : Node) (label : Option String) (list : Expr) : Lower (List Stmt) := do
  inScope do
    let (var, unpacking) ← loopBinding (node.child? "left")
    let (label, body) ← loopBody label (node.child? "body")
    return [.plain (.foreach label var list (unpacking ++ body))]

def forOfStmt (node : Node) (label : Option String) : Lower (List Stmt) := do
  match node.child? "right" with
  | none => return []
  | some right => foreachOver node label (← listOf right)

def forInStmt (node : Node) (label : Option String) : Lower (List Stmt) := do
  match (node.child? "right").map Node.unwrapped with
  | none => return []
  | some right =>
    let list ←
      if ← hasShape right .list then pure (indicesFrom 0 (← arrayBase right))
      else pure (.call "sort" [.call "keys" [← hashOf right]])
    foreachOver node label list

def whileStmt (node : Node) (label : Option String) : Lower Stmt := do
  let cond ← valueOr (.int 1) (node.child? "test")
  let (label, body) ← loopBody label (node.child? "body")
  return .plain (.while label cond body (node.type == "DoWhileStatement"))

/-! ## Switches -/

def caseTest (var : String) (test : Node) : Lower Expr := do
  if let some text := test.stringValue? then
    warnLossy ("switch case '" ++ text ++ "' is compared with numeric ==")
  return binary .numEq (.scalar var) (← value test)

/-- Lowers an arm of a switch: its tests, unless it is the default one, and its body. -/
def switchArm (var : String) (arm : SwitchArm) : Lower (Option (List Expr) × List Stmt) := do
  let body ← scopedStmts arm.body
  if arm.isDefault then return (none, body)
  else return (some (← arm.tests.mapM (caseTest var)), body)

/-- The chain of conditions of a switch. The last default arm counts, and arms without a label are
left out. -/
def switchChain (arms : List (Option (List Expr) × List Stmt)) : List Stmt :=
  let default := (arms.reverse.find? (·.1.isNone)).map (·.2)
  let cases := arms.filterMap fun (tests, body) =>
    match tests with
    | some (first :: rest) => some (rest.foldl (binary .or) first, body)
    | _ => none
  match cases with
  | [] => default.getD []
  | (cond, body) :: rest => [.plain (.ifElse cond body rest default)]

/-- Lowers a switch to a bare block, which a `break` leaves. -/
def switchStmt (node : Node) (label : Option String) : Lower Stmt := do
  let discriminant ← valueOf (node.child? "discriminant")
  let var ← fresh "switch"
  let (label, arms) ← inFrame .switch label
    ((switchArms (node.children "cases")).mapM (switchArm var))
  return .plain (.block label (.my var .scalar (some discriminant) :: switchChain arms))

/-! ## Errors -/

/-- The message of an error that is made on the spot. Nothing inside means that it has none. -/
def errorMessage? (thrown : Node) : Option (Option Node) :=
  match thrown.kind with
  | "ErrorCreation" => some (thrown.child? "message")
  | "NewExpression" =>
    if (thrown.child? "callee" >>= Node.name?).any isErrorClass then
      some (thrown.children "arguments").head?
    else none
  | _ => none

/-- Lowers `throw`. A message ends with a line break, which keeps Perl from adding the place. -/
def throwStmt (node : Node) : Lower Stmt := do
  match (node.child? "argument").map Node.unwrapped with
  | none => return .plain (.die (.string "Died\n"))
  | some thrown =>
    match errorMessage? thrown with
    | some message =>
      let message ← valueOr (.string "Error") message
      return .plain (.die (binary .concat message (.string "\n")))
    | none => return .plain (.die (← value thrown))

def handling {α : Type} (var : String) (step : Lower α) : Lower α :=
  atPlace (fun place => { place with catchVars := var :: place.catchVars })
    (fun _ after => { after with catchVars := after.catchVars.tail }) step

def handlerBody (handler : Node) (var : String) : Lower (String × List Stmt) := do
  declareScalar var
  let body ← handling var do
    match handler.child? "body" with
    | some body => stmts (body.children "body")
    | none => return []
  return (var, body)

def handlerClause (handler : Node) : Lower (String × List Stmt) := do
  let var ←
    match handler.child? "param" >>= Node.name? with
    | some name => pure name
    | none => fresh "error"
  inScope (handlerBody handler var)

def tryStmt (node : Node) : Lower Stmt := do
  let native := (← options).modernSyntax
  if native then
    modify fun s => { s with nativeTry := true }
  let body ← branch (node.child? "block")
  let handler ← (node.child? "handler").mapM handlerClause
  let cleanup ← (node.child? "finalizer").mapM fun finalizer => branch (some finalizer)
  return .plain (.protect body handler cleanup native)

/-! ## Expressions as statements -/

/-- Lowers `array.length = n`, which makes the array shorter or longer. -/
def lengthAssignment (node : Node) : Attempt (List Stmt) := do
  let left := (← need (node.child? "left")).unwrapped
  if node.text? "operator" != some "=" || left.staticMember? != some "length" then failure
  else
    let object ← need (left.child? "object")
    if object.isTextual then failure
    else
      let length ← value (← need (node.child? "right"))
      let base ← arrayBase object
      return [.ofExpr (.set (.lastIndex base) (binary .sub length (.int 1)))]

/-- Lowers a call that has a form of its own as a statement. A call of nothing is left out. -/
def callStmts (node : Node) : Attempt (List Stmt) := do
  match (node.child? "callee").map Node.unwrapped with
  | none => return []
  | some callee =>
    let args := node.children "arguments"
    if callee.type == "Super" then superConstructor (← arguments args)
    else
      let method ← need callee.staticMember?
      methodStmts (← need (callee.child? "object")) method args

/-- Lowers an expression that has a form of its own as a statement. -/
def specialStmts (node : Node) : Attempt (List Stmt) := do
  match node.type with
  | "SequenceExpression" =>
    return (← (node.children "expressions").mapM fun item => exprStmt item).flatten
  | "CallExpression" => callStmts node
  | "AssignmentExpression" => lengthAssignment node
  | "ConditionalExpression" =>
    let decided ← need (node.child? "test" >>= evaluateGuard)
    match node.child? (if decided then "consequent" else "alternate") with
    | some taken => exprStmt taken
    | none => return []
  | _ => failure

def lowerExprStmt (node : Node) : Lower (List Stmt) := do
  let node := node.unwrapped
  orUse (taggedStmts node <|> specialStmts node) do
    return ((← (lowerExpr node).run).map Stmt.ofExpr).toList

/-! ## Statements -/

def lowerStmt (label : Option String) (node : Node) : Lower (List Stmt) := do
  match node.type with
  | "VariableDeclaration" => varDecl node
  | "FunctionDeclaration" => functionDecl node
  | "ClassDeclaration" => return (← lowerClass node none).toList
  | "ExpressionStatement" =>
    match node.child? "expression" with
    | some expr => exprStmt expr
    | none => return []
  | "BlockStatement" => return [.plain (.block label (← scopedStmts (node.children "body")))]
  | "EmptyStatement" | "DebuggerStatement" => return []
  | "ReturnStatement" => return [← returnStmt node]
  | "IfStatement" => ifStmt node
  | "ForStatement" => forStmt node label
  | "ForOfStatement" => forOfStmt node label
  | "ForInStatement" => forInStmt node label
  | "WhileStatement" | "DoWhileStatement" => return [← whileStmt node label]
  | "SwitchStatement" => return [← switchStmt node label]
  | "BreakStatement" => return [.plain (.jump .last (labelIn node))]
  | "ContinueStatement" => return [← continueStmt node]
  | "LabeledStatement" =>
    match node.child? "body" with
    | some body => fun below => below.stmt (labelIn node) body
    | none => return []
  | "ThrowStatement" => return [← throwStmt node]
  | "TryStatement" => return [← tryStmt node]
  | _ =>
    warn node.dropped
    return []

end Scriptgen.Perl
