import Scriptgen.Ruby.Infer
import Scriptgen.Ruby.Lower.Basic
import Scriptgen.Source.Hoist
import Scriptgen.Source.Pattern
/-!
# Lowering to Ruby: functions

A function becomes a method or a lambda. Destructured parameters are bound to one name and unpacked
on entry, and nested functions and variables of inner blocks are assigned before the first
statement.
-/

namespace Scriptgen.Ruby

/-! ## Patterns -/

def target (node : Node) : Attempt Expr := do
  let place := node.unwrapped
  match if place.type == "Identifier" then place.name? else none with
  | some name => variableHere name
  | none => expr node

/-- The place that stands for a value that is not used. -/
def ignored : Expr := .localVar "_"

/-- Lowers one element of an array pattern. A declaring pattern introduces its names, and any other
writes to places that exist. -/
def patternTarget (declaring : Bool) (element : Option Node) (shape : Shape) : Lower Expr := do
  match element with
  | none => return ignored
  | some element =>
    match element.name? with
    | some name =>
      if declaring then declareWith name shape none
      variableHere name
    | none =>
      if declaring then
        warn element.dropped
        return ignored
      else orUse (target element) (return ignored)

def patternTargets (declaring : Bool) (patternNode : Node) : Lower (List Expr) :=
  (patternNode.childrenWithHoles "elements").mapM fun element => do
    match element with
    | none => return ignored
    | some element =>
      if element.type == "RestElement" then
        return .splat (← patternTarget declaring (element.child? "argument") .list)
      else patternTarget declaring (some element) .scalar

def orIfNil (value fallback : Expr) : Expr := .ternary (value.read "nil?") fallback value

/-- Lowers the value that a property of an object pattern takes from `source`. -/
def propertyValue (source : Expr) (key : String) (default : Option Node) : Lower Expr := do
  let isMember := (← readThe Context).outline.members.contains key
  let found := if isMember then source.read key else .index source (.string key)
  match default with
  | some default => return orIfNil found (← value default)
  | none => return found

def destructureObject (patternNode : Node) (source : Expr) : Lower (List Stmt) := do
  let decls ← (patternNode.children "properties").mapM fun property => do
    if property.type == "RestElement" then
      warnLossy "object rest pattern is not supported"
      return none
    match property.keyName? with
    | none => return none
    | some key =>
      match property.propertyBinding? key with
      | none => return none
      | some (name, default) =>
        let value ← propertyValue source key default
        declareWith name .scalar default
        return some (Stmt.set (← variableHere name) value)
  return decls.filterMap id

/-! ## Parameters -/

/-- Lowers a parameter that is destructured on entry, with the statements that do so. -/
def patternParam (patternNode : Node) : Lower (Param × List Stmt) := do
  let name ← fresh "args"
  let _ ← declare name .scalar
  if patternNode.type == "ObjectPattern" then
    return (.plain name, ← destructureObject patternNode (.localVar name))
  else
    let targets ← patternTargets true patternNode
    return (.plain name, [.ofExpr (.multiAssign targets (.localVar name))])

def defaultParam (left : Node) (default : Option Node) : Lower (Param × List Stmt) := do
  let (param, unpacking) ←
    match left.name? with
    | some name =>
      declareWith name .scalar default
      pure (Param.plain (localName name), [])
    | none => patternParam left
  let fallback ←
    match default with
    | some default => pure (some (← value default))
    | none => pure none
  let type := if (← options).typeAnnotations then default >>= types.infer? else none
  return ({ param with fallback := fallback, type := type }, unpacking)

def param (node : Node) : Attempt (Param × List Stmt) := do
  match node.type with
  | "Identifier" =>
    let name := node.name?.getD ""
    declareScalar name
    if node.resultType?.isSome then learn name (some node)
    return (.plain (localName name), [])
  | "AssignmentPattern" => defaultParam (← need (node.child? "left")) (node.child? "right")
  | "RestElement" =>
    let name := (node.child? "argument" >>= Node.name?).getD "rest"
    declareWith name .list none
    return ({ Param.plain (localName name) with variadic := true }, [])
  | "ObjectPattern" | "ArrayPattern" => patternParam node
  | _ => unsupported node

/-- A parameter with the type that the type-inference pass has found, if it has no other. -/
def Param.withNote (param : Param) (node : Node) : Param :=
  { param with type := param.type.or (types.noted? node) }

/-- Lowers the parameters of a function, with the statements that unpack them. -/
def params (nodes : List Node) : Lower (List Param × List Stmt) := do
  let annotate := (← options).typeAnnotations
  let lowered ← nodes.mapM fun node => do
    match ← (param node).run with
    | none => return none
    | some (param, unpacking) =>
      return some (if annotate then param.withNote node else param, unpacking)
  let kept := lowered.filterMap id
  return (kept.map (·.1), kept.flatMap (·.2))

/-! ## Hoisting -/

def startAsNil (name : String) (shape : Shape) : Lower (List Stmt) := do
  if ← declare name shape then return [.set (← variableHere name) .nil] else return []

def functionDecls (body : List Node) : List Node := body.filter (·.type == "FunctionDeclaration")

/-- Assigns the nested functions and the variables of inner blocks of a body before it starts.
Functions that may call each other need all their names first. -/
def hoist (body : List Node) : Lower (List Stmt) := do
  let functions := functionDecls body
  let bound ←
    if functions.length > 1 then (declaredFunctions body).mapM (startAsNil · .scalar) else pure []
  let vars ← (nestedVars body).mapM fun (name, shape) => startAsNil name shape
  let lambdas ← functions.mapM fun function => do
    match function.child? "id" >>= Node.name? with
    | none => return none
    | some name =>
      let _ ← declare name .scalar
      let target ← variableHere name
      let code ← lambda function
      return some { Stmt.set target code with remarks := .ofNode function }
  return bound.flatten ++ vars.flatten ++ lambdas.filterMap id

def hoistedNames (body : List Node) : List String :=
  (nestedVars body).map (·.1) ++ declaredFunctions body

/-! ## Functions -/

/-- What a function becomes. -/
inductive FunctionRole where
  /-- A function at the top level. -/
  | topLevel
  | lambda
  | method
  | staticMethod
  | setter
  /-- A constructor, with the fields that it initializes. -/
  | constructor (fields : List (String × Option Node))

namespace FunctionRole

def isConstructor : FunctionRole → Bool
  | .constructor _ => true
  | _ => false

def isLambda : FunctionRole → Bool
  | .lambda => true
  | _ => false

/-- Whether the function can be written on one line. -/
def canBeEndless : FunctionRole → Bool
  | .topLevel | .method | .staticMethod => true
  | _ => false

def isStatic : FunctionRole → Bool
  | .staticMethod => true
  | _ => false

/-- The method around the places in a function, given that around the function itself. -/
def methodAround (role : FunctionRole) (name : String) (outer : Option String) : Option String :=
  match role with
  | .topLevel => none
  | .lambda => outer
  | _ => some name

end FunctionRole

def fieldInits (fields : List (String × Option Node)) : Lower (List Stmt) := do
  let inits ← fields.mapM fun (field, init) => do
    match init with
    | none => return none
    | some init =>
      learn ("@" ++ field) (some init)
      return some (Stmt.set (.instanceVar (plainName field)) (← value init))
  return inits.filterMap id

/-- Lowers the body of a constructor. The fields are set where the base class has been set up, or
else first. -/
def constructorBody (fields : List (String × Option Node)) (body : List Node) :
    Lower (List Stmt) := do
  let inits ← fieldInits fields
  modify fun s => { s with pendingFields := some inits }
  let main ← stmts body
  return (← takePendingFields).getD [] ++ main

def plainBody (body : Option Node) (statements : List Node) : Lower (List Stmt) := do
  match body with
  | none => return []
  | some body =>
    if body.type == "BlockStatement" then stmts statements else return [.ofExpr (← value body)]

def Context.inside (context : Context) (role : FunctionRole) (name : String) : Context :=
  { context with
    hoisted := []
    inFunction := true
    inConstructor := role.isConstructor
    inLoopCallback := false
    currentMethod := role.methodAround name context.currentMethod }

def paramsAndBody (node : Node) (role : FunctionRole) : Lower (List Param × List Stmt) := do
  let (params, unpacking) ← params (node.children "params")
  let body := node.child? "body"
  let statements :=
    match body with
    | some body => if body.type == "BlockStatement" then body.children "body" else []
    | none => []
  let hoisted ← hoist statements
  let main ← within ({ · with hoisted := hoistedNames statements }) <|
    match role with
    | .constructor fields => constructorBody fields statements
    | _ => plainBody body statements
  let all := unpacking ++ hoisted ++ main
  return (params, if role.isConstructor then all else implicitReturn all)

def lowerFunction (name : String) (node : Node) (role : FunctionRole) : Lower Method := do
  let (params, body) ← within (·.inside role name) <| isolated <| inScope <|
    paramsAndBody node role
  let options ← options
  return {
    name := name
    params := params
    body := body
    isStatic := role.isStatic
    returnType :=
      if options.typeAnnotations && !role.isLambda then types.returned? node else none
    endless := options.modernSyntax && role.canBeEndless && isEndless body
    remarks := .ofNode node }

def lowerLambda (node : Node) : Lower Expr := do
  let method ← lowerFunction "" node .lambda
  return .lambda ⟨method.params, [], method.body⟩

/-- Lowers the default constructor of a class whose fields have initializers. -/
def defaultConstructor (hasBase : Bool) (fields : List (String × Option Node)) : Lower Method := do
  let inits ← inScope (fieldInits fields)
  if hasBase then
    return .ofBody "initialize" [{ Param.plain "args" with variadic := true }]
      (.ofExpr (.super [.splat (.localVar "args")]) :: inits)
  else return .ofBody "initialize" [] inits

end Scriptgen.Ruby
