import Scriptgen.NumberText
import Scriptgen.Ruby.Lower.Operator
import Scriptgen.Ruby.Lower.Tagged
/-!
# Lowering to Ruby: expressions
-/

namespace Scriptgen.Ruby

/-! ## Names and literals -/

def freeName (name : String) : Lower Expr := do
  let s ← get
  if s.functions.contains name then return .function "method" [.symbol (functionName name)]
  else if s.classes.contains name || startsUpper name then return .constant (constantName name)
  else
    if name == "arguments" then
      warnLossy "'arguments' is not available; declare a rest parameter"
    return .localVar (localName name)

def identifier (name : String) : Lower Expr := do
  match name with
  | "undefined" => return .nil
  | "NaN" => return nan
  | "Infinity" => return infinity
  | _ => if ← isVariable name then variableHere name else freeName name

def literal (node : Node) : Expr :=
  match node.field? "regex" with
  | some regex => regexLiteral (Node.regexPart regex "pattern") (Node.regexPart regex "flags")
  | none =>
    match node.text? "bigint" with
    | some digits => .number digits
    | none =>
      match node.field? "value" with
      | some (.string text) => .string text
      | some (.bool b) => .bool b
      | some (.number n) => .number (numberText n.toBinary64 (node.text? "raw"))
      | _ => .nil

def template (node : Node) : Lower Expr := do
  let exprs := node.children "expressions"
  let parts ← (node.children "quasis").zipIdx.mapM fun (quasi, i) => do
    let text := quasi.quasiText
    let before := if text.isEmpty then [] else [InterpPart.text text]
    return before ++ (← values exprs[i]?.toList).map .expr
  return interpolation parts.flatten

/-- Lowers the elements of an array literal. Holes are `nil`. -/
def arrayItems (node : Node) : Lower (List Expr) :=
  (node.childrenWithHoles "elements").mapM fun element =>
    match element with
    | some element => item element
    | none => return .nil

/-! ## Object literals -/

/-- A part of an object literal. -/
inductive ObjectPart where
  | pair (key value : Expr)
  /-- All pairs of another object. -/
  | spread (object : Expr)

/-- Adds a part to what an object literal has so far: pairs, and the object before them once
another one has been spread. -/
def ObjectPart.addTo (built : Option Expr × List (Expr × Expr)) :
    ObjectPart → Option Expr × List (Expr × Expr)
  | .spread object =>
    match built with
    | (some base, pairs) => (some (.method base "merge" [object]), pairs)
    | (none, []) => (some (object.read "dup"), [])
    | (none, pairs) => (some (.method (.hash pairs) "merge" [object]), [])
  | .pair key value =>
    match built with
    | (some base, pairs) => (some (.method base "merge" [.hash [(key, value)]]), pairs)
    | (none, pairs) => (none, pairs ++ [(key, value)])

/-- The object of the parts of a literal, later ones over earlier ones. -/
def objectOf (parts : List ObjectPart) : Expr :=
  match parts.foldl ObjectPart.addTo (none, []) with
  | (some base, _) => base
  | (none, pairs) => .hash pairs

def propertyKey (property key : Node) : Lower Expr := do
  if property.flag "computed" then value key
  else
    match key.name? with
    | some name => return .string name
    | none =>
      match key.text? "value" with
      | some text => return .string text
      | none => value key

def objectPart (property : Node) : Lower (Option ObjectPart) := do
  if property.type == "SpreadElement" then
    match property.child? "argument" with
    | some argument => return some (.spread (← value argument))
    | none => return none
  else if property.text? "kind" == some "get" || property.text? "kind" == some "set" then
    warnLossy "accessors in object literals are not supported"
    return none
  else
    match property.child? "key" with
    | none => return none
    | some key =>
      let key ← propertyKey property key
      return some (.pair key (← valueOf (property.child? "value")))

def objectLiteral (node : Node) : Lower Expr := do
  return objectOf ((← (node.children "properties").mapM objectPart).filterMap id)

/-! ## Members -/

def ownerMember (object : Node) (name : String) : Attempt Expr := do
  let objectName ← need object.name?
  if ← isVariable objectName then failure
  else if ← isClass objectName then
    return .read (.constant (constantName objectName)) (← calledName name)
  else need (globalMember? objectName name)

def errorMember (object : Node) (name : String) : Attempt Expr := do
  let var ← need object.name?
  if (← readThe Context).catchVars.contains var then
    let error := Expr.localVar (localName var)
    match name with
    | "message" => return error.read "message"
    | "name" => return (error.read "class").read "name"
    | "stack" => return error.read "full_message"
    | _ => failure
  else failure

/-- Lowers a member that has no other form. Attributes of classes are methods, and all others are
entries of a hash. -/
def plainMember (object : Node) (name : String) : Attempt Expr := do
  let isCollection := ((← get).known.collectionOf? object).isSome
  let base ← value object
  if name == "length" || (name == "size" && isCollection) then return base.read name
  let isMember := (← readThe Context).outline.members.contains name
  if (← hasShape object .map) || !isMember then return .index base (.string name)
  else return base.read (plainName name)

def memberExpr (node : Node) : Attempt Expr := do
  let object := (← need (node.child? "object")).unwrapped
  let property ← need (node.child? "property")
  if node.flag "computed" then
    let base ← value object
    return .index base (← value property)
  else
    let name ← need property.name?
    if object.type == "ThisExpression" then thisProperty name
    else if object.type == "Super" then return superMethod name
    else ownerMember object name <|> errorMember object name <|> plainMember object name

/-! ## Calls -/

def callValue (code : Expr) (args : List Expr) : Expr := .method code "call" args

/-- The call of a function of the program. Within a class the functions of a module are called
through it. -/
def Context.callFunction (context : Context) (name : String) (args : List Expr) : Expr :=
  match context.enclosingClass, context.options.moduleName with
  | some _, some module => constantCall (constantName module) (functionName name) args
  | _, _ => .function (functionName name) args

def callsVariable (name : String) : Lower Bool := do
  let s ← get
  let kinds := (← readThe Context).outline.varKinds
  return (s.scopes.lookup? name).isSome ||
    ((kinds.lookup name).isSome && !s.functions.contains name)

def nameCall (name : String) (args : List Node) : Lower Expr := do
  if ← callsVariable name then
    let code ← variableHere name
    return callValue code (← arguments args)
  else if ← isFunctionName name then
    return (← readThe Context).callFunction name (← arguments args)
  else if ← isClass name then return .new (constantName name) (← arguments args)
  else orUse (globalCall name args) (return .function (functionName name) (← arguments args))

def objectLiteralMethods : List String := ["hasOwnProperty", "toString", "valueOf"]

def ownerCall (object : Node) (method : String) (args : List Node) : Attempt Expr := do
  let name ← need object.name?
  if ← isVariable name then
    if (← get).scopes.lookup? name == some .map && !objectLiteralMethods.contains method then
      let code := Expr.index (← variableHere name) (.string method)
      return callValue code (← arguments args)
    else failure
  else if ← isClass name then
    let args ← arguments args
    return constantCall (constantName name) (← calledName method) args
  else globalMethod name method args

def indirectArguments (method : String) (args : List Node) : Lower (List Expr) := do
  if method == "apply" then return (← values args.head?.toList).map .splat else arguments args

def indirectCall (object : Node) (method : String) (args : List Node) : Attempt Expr := do
  let isCollection := ((← get).known.collectionOf? object).isSome
  if (method == "call" || method == "apply") && object.isCallable && !isCollection then
    let code ← value object
    return callValue code (← indirectArguments method (args.drop 1))
  else failure

def plainMethodCall (object : Node) (method : String) (args : List Node) : Attempt Expr := do
  let receiver ← value object
  let args ← arguments args
  return .method receiver (← calledName method) args

def memberCall (callee : Node) (args : List Node) : Attempt Expr := do
  let object := (← need (callee.child? "object")).unwrapped
  match callee.staticMember? with
  | none =>
    let code ← memberExpr callee
    return callValue code (← arguments args)
  | some method =>
    if object.type == "Super" then superCall method (← arguments args)
    else if object.type == "ThisExpression" then thisCall method (← arguments args)
    else
      ownerCall object method args <|> indirectCall object method args <|>
        knownMethod object method args <|> plainMethodCall object method args

def callExpr (node : Node) : Attempt Expr := do
  let callee := (← need (node.child? "callee")).unwrapped
  let args := node.children "arguments"
  match callee.type with
  | "Super" => return .super (← arguments args)
  | "Identifier" => nameCall (← need callee.name?) args
  | "MemberExpression" => memberCall callee args
  | _ =>
    let code ← value callee
    return callValue code (← arguments args)

/-- Lowers `new` of a class that is the value of a variable, of a class of errors or of one of the
standard library. -/
def libraryNew (callee : Node) (args : List Node) : Attempt Expr := do
  let name ← need callee.name?
  if ← isVariable name then
    let cls ← variableHere name
    return .method cls "new" (← arguments args)
  else if ← isClass name then failure
  else if isErrorClass name then return .new (errorClass name) (← arguments args)
  else builtinConstructor name args

def newExpr (node : Node) : Attempt Expr := do
  let callee := (← need (node.child? "callee")).unwrapped
  let args := node.children "arguments"
  libraryNew callee args <|> do
    let className ← need (callee.qualifiedName? constantName)
    return .new className (← arguments args)

/-! ## Other forms -/

def conditionalExpr (node : Node) : Attempt Expr := do
  let testNode ← need (node.child? "test")
  match evaluateGuard testNode with
  | some decided => expr (← need (node.child? (if decided then "consequent" else "alternate")))
  | none =>
    let cond ← test testNode
    let thenExpr ← value (← need (node.child? "consequent"))
    return .ternary cond thenExpr (← value (← need (node.child? "alternate")))

/-- Lowers a sequence, whose value is the last one. What is not supported is left out. -/
def sequenceExpr (node : Node) : Attempt Expr := do
  let exprs : List (Option Expr) ← (node.children "expressions").mapM fun part => expr? part
  match exprs.filterMap id with
  | [] => failure
  | [only] => return only
  | exprs => return .begin (exprs.map .ofExpr)

def plainExpr (node : Node) : Attempt Expr := do
  match node.type with
  | "Identifier" => identifier (← need node.name?)
  | "Literal" => return literal node
  | "TemplateLiteral" => template node
  | "ThisExpression" => return .self
  | "ArrayExpression" => return .array (← arrayItems node)
  | "ObjectExpression" => objectLiteral node
  | "BinaryExpression" => binaryExpr node
  | "LogicalExpression" => logicalExpr node
  | "UnaryExpression" => unaryExpr node
  | "UpdateExpression" => updateExpr node
  | "AssignmentExpression" => assignmentExpr node
  | "MemberExpression" => memberExpr node
  | "CallExpression" => callExpr node
  | "NewExpression" => newExpr node
  | "ConditionalExpression" => conditionalExpr node
  | "SequenceExpression" => sequenceExpr node
  | "FunctionExpression" | "ArrowFunctionExpression" => lowerLambda node
  | "ClassExpression" => classValue node
  | "SpreadElement" => return .splat (← value (← need (node.child? "argument")))
  | _ => unsupported node

def lowerExpr (node : Node) : Attempt Expr :=
  let node := node.unwrapped
  taggedExpr node <|> plainExpr node

/-! ## Conditions -/

def literalTruth (node : Node) : Bool :=
  match node.field? "value" with
  | some (.number n) => !n.toBinary64.isInt 0
  | some (.string text) => !text.isEmpty
  | some (.bool b) => b
  | _ => false

def comparisonOperators : List String :=
  ["==", "===", "!=", "!==", "<", ">", "<=", ">=", "instanceof", "in"]

/-- Lowers a condition whose truth is put together from those of its parts, or is known. -/
def compositeTest (node : Node) : Attempt Expr := do
  match node.type, node.text? "operator" with
  | "LogicalExpression", some "&&" =>
    let left ← need (node.child? "left")
    let right ← need (node.child? "right")
    let first ← test left
    return binary .and first (← test right)
  | "LogicalExpression", some "||" =>
    let left ← need (node.child? "left")
    let right ← need (node.child? "right")
    let first ← test left
    return binary .or first (← test right)
  | "UnaryExpression", some "!" => return not (← test (← need (node.child? "argument")))
  | "Literal", _ => if node.has "regex" then failure else return .bool (literalTruth node)
  | _, _ => failure

/-- Lowers a condition by its value. The empty text and zero are false. -/
def valueTest (node : Node) : Lower Expr := do
  let known := (← get).known
  let value ← orUse (lowerExpr node) (return .nil)
  let compares := (node.text? "operator").any comparisonOperators.contains
  if node.type == "BinaryExpression" && compares then return value
  else if known.isText node then return not (value.read "empty?")
  else if known.isNumber node then return binary .ne value (.int 0)
  else return value

def lowerTest (node : Node) : Lower Expr := do
  let node := node.unwrapped
  match evaluateGuard node with
  | some decided => return .bool decided
  | none => orUse (compositeTest node) (valueTest node)

end Scriptgen.Ruby
