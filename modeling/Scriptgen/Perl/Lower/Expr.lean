import Scriptgen.Perl.Lower.Class
import Scriptgen.Perl.Lower.Operator
import Scriptgen.Perl.Lower.Tagged
/-!
# Lowering to Perl: expressions
-/

namespace Scriptgen.Perl

/-! ## Names and literals -/

def identifier (name : String) : Lower Expr := do
  let s ← get
  match name with
  | "undefined" => return .undefined
  | "NaN" => return nan
  | "Infinity" => return infinity
  | _ =>
    match s.scopes.lookup? name with
    | some shape => return varValue name shape
    | none =>
      if name == "arguments" then return unary .ref (.var "_" .list)
      else if s.functions.contains name then
        return .raw ("\\&" ++ (← readThe Context).qualify s.place name)
      else if s.classes.contains name then return .string name
      else return .scalar name

def literal (node : Node) : Expr :=
  match node.field? "regex" with
  | some regex =>
    .regex (.pattern (Node.regexPart regex "pattern")) (knownFlags (Node.regexPart regex "flags"))
  | none =>
    match node.text? "bigint" with
    | some digits => .number digits
    | none =>
      match node.field? "value" with
      | some (.string text) => .string text
      | some (.bool b) => .bool b
      | some (.number n) => .number (numberText n.toBinary64 (node.text? "raw"))
      | _ => .undefined

/-- Joins the parts of a template. A single value is made text. -/
def joinedParts : List Expr → Expr
  | [] => .string ""
  | [.string text] => .string text
  | [only] => binary .concat (.string "") only
  | first :: rest => rest.foldl (binary .concat) first

def template (node : Node) : Lower Expr := do
  let exprs := node.children "expressions"
  let parts ← (node.children "quasis").zipIdx.mapM fun (quasi, i) => do
    let text := quasi.quasiText
    let before := if text.isEmpty then [] else [Expr.string text]
    return before ++ (← exprs[i]?.toList.mapM value)
  return joinedParts parts.flatten

/-! ## Members -/

/-- A static field: a variable of the package of the class. -/
def staticField (className name : String) : Expr := .scalar (className ++ "::" ++ name)

def computedMember (object property : Node) : Lower Expr := do
  let index := property.unwrapped
  if index.isTextual || (← hasShape object .map) then
    let base ← hashBase object
    return .key base (← value index)
  else
    let base ← arrayBase object
    return .index base (← value index)

def thisMemberValue (name : String) : Lower Expr := do
  let place := (← get).place
  orUse (getterValue name) do
    match place.invocant with
    | .package => return staticField ((place.enclosingClass.map (·.name)).getD "main") name
    | .object => return .key (← thisValue) (.string name)

/-- Lowers a member of a class of the program or of a global object. -/
def globalMember (object : Node) (name : String) : Attempt Expr := do
  let objectName ← need object.name?
  let s ← get
  if (s.scopes.lookup? objectName).isSome then failure
  else if s.classes.contains objectName then return staticField objectName name
  else need (constant? objectName name)

def errorMember (object : Node) (name : String) : Attempt Expr := do
  let var ← need object.name?
  if (← get).place.catchVars.contains var then
    match name with
    | "message" => return .substitute (.scalar var) (.pattern "\\n\\z") (.string "") false
    | "stack" => return .scalar var
    | "name" => return refOf (.scalar var)
    | _ => failure
  else failure

def plainMember (object : Node) (name : String) : Attempt Expr := do
  if name == "length" then lengthOf object
  else return .key (← hashBase object) (.string name)

def memberExpr (node : Node) : Attempt Expr := do
  let object := (← need (node.child? "object")).unwrapped
  let property ← need (node.child? "property")
  if node.flag "computed" then computedMember object property
  else
    let name ← need property.name?
    if object.type == "ThisExpression" then thisMemberValue name
    else if object.type == "Super" then
      return .callMethod (← thisValue) ("SUPER::" ++ name) []
    else globalMember object name <|> errorMember object name <|> plainMember object name

/-! ## Calls -/

def nameCall (name : String) (args : List Node) : Lower Expr := do
  let s ← get
  match s.scopes.lookup? name with
  | some shape => return .callCode (varValue name shape) (← arguments args)
  | none =>
    if s.functions.contains name then
      return .call ((← readThe Context).qualify s.place name) (← arguments args)
    else if s.classes.contains name then return .new name (← arguments args)
    else orUse (globalCall name args) (return .call name (← arguments args))

/-- Lowers a call on a class of the program, a global object or a map variable. -/
def ownerCall (object : Node) (method : String) (args : List Node) : Attempt Expr := do
  let name ← need object.name?
  let s ← get
  match s.scopes.lookup? name with
  | none =>
    if s.classes.contains name then return .callClass name method (← arguments args)
    else staticCall name method args
  | some .map => return .callCode (.key (.var name .map) (.string method)) (← arguments args)
  | some _ => failure

def indirectCall (object : Node) (method : String) (args : List Node) : Attempt Expr := do
  if (method == "call" || method == "apply") && object.isCallable then
    let code ← value object
    let rest := args.drop 1
    if method == "apply" then return .callCode code (← rest.head?.toList.mapM fun arg => listOf arg)
    else return .callCode code (← arguments rest)
  else failure

def plainMethodCall (object : Node) (method : String) (args : List Node) : Attempt Expr := do
  let invocant ← value object
  return .callMethod invocant method (← arguments args)

def memberCall (callee : Node) (args : List Node) : Attempt Expr := do
  let object := (← need (callee.child? "object")).unwrapped
  match callee.staticMember? with
  | none =>
    let code ← memberExpr callee
    return .callCode code (← arguments args)
  | some method =>
    if object.type == "Super" then
      return .callMethod (← thisValue) ("SUPER::" ++ method) (← arguments args)
    else if object.type == "ThisExpression" then
      return .callMethod (← thisValue) method (← arguments args)
    else
      ownerCall object method args <|> indirectCall object method args <|>
        methodCall object method args <|> plainMethodCall object method args

def callExpr (node : Node) : Attempt Expr := do
  let callee := (← need (node.child? "callee")).unwrapped
  let args := node.children "arguments"
  match callee.type with
  | "Super" => return superNew (← arguments args)
  | "Identifier" => nameCall (← need callee.name?) args
  | "MemberExpression" => memberCall callee args
  | _ =>
    let code ← value callee
    return .callCode code (← arguments args)

/-- Lowers `new` of a class of errors or of the standard library, if the program does not use the
name otherwise. -/
def libraryNew (callee : Node) (args : List Node) : Attempt Expr := do
  let name ← need callee.name?
  let s ← get
  if (s.scopes.lookup? name).isSome || s.classes.contains name then failure
  else if isErrorClass name then valueOr (.string name) args.head?
  else builtinNew name args

def newExpr (node : Node) : Attempt Expr := do
  let callee := (← need (node.child? "callee")).unwrapped
  let args := node.children "arguments"
  libraryNew callee args <|> do
    let className ← need (callee.qualifiedName? id)
    return .new className (← arguments args)

/-! ## Other forms -/

/-- Lowers a choice between two values. A guard that can be decided leaves one of them. -/
def conditionalExpr (node : Node) : Attempt Expr := do
  let test ← need (node.child? "test")
  match evaluateGuard test with
  | some decided => expr (← need (node.child? (if decided then "consequent" else "alternate")))
  | none =>
    let cond ← value test
    let thenExpr ← value (← need (node.child? "consequent"))
    return ternary cond thenExpr (← value (← need (node.child? "alternate")))

/-- Lowers a sequence, whose value is the last one. -/
def sequenceExpr (node : Node) : Attempt Expr := do
  match ← sequence node with
  | [] => failure
  | [only] => return only
  | exprs => return .doBlock (exprs.map .ofExpr)

def classExpr (node : Node) : Lower Expr := do
  let name ←
    match node.child? "id" >>= Node.name? with
    | some name => pure name
    | none => pure (labelOf (← fresh "class"))
  return .doBlock [← lowerClassNamed node name, .ofExpr (.string name)]

def plainExpr (node : Node) : Attempt Expr := do
  match node.type with
  | "Identifier" => identifier (← need node.name?)
  | "Literal" => return literal node
  | "TemplateLiteral" => template node
  | "ThisExpression" => thisValue
  | "ArrayExpression" => return .arrayRef (← lowerItems node)
  | "ObjectExpression" => return .hashRef (← objectPairs node)
  | "BinaryExpression" => binaryExpr node
  | "LogicalExpression" => logicalExpr node
  | "UnaryExpression" => unaryExpr node
  | "UpdateExpression" => updateExpr node
  | "AssignmentExpression" => assignmentExpr node
  | "MemberExpression" => memberExpr node
  | "CallExpression" => callExpr node
  | "NewExpression" => newExpr node
  | "ConditionalExpression" => conditionalExpr node
  | "SequenceExpression" => sequenceExpr node
  | "FunctionExpression" | "ArrowFunctionExpression" =>
    return .anonSub (← lowerFunction "" node .plain)
  | "ClassExpression" => classExpr node
  | "SpreadElement" => listOf (← need (node.child? "argument"))
  | _ => unsupported node

def lowerExpr (node : Node) : Attempt Expr :=
  let node := node.unwrapped
  taggedExpr node <|> plainExpr node

end Scriptgen.Perl
