import Scriptgen.Perl.Infer
import Scriptgen.Perl.Lower.Container
import Scriptgen.Source.Hoist
import Scriptgen.Source.Pattern
/-!
# Lowering to Perl: functions

A function becomes a sub. Destructured parameters are bound to a scalar and unpacked on entry, and
nested functions and variables of inner blocks are declared before the first statement.
-/

namespace Scriptgen.Perl

/-! ## Patterns -/

/-- Declares the variables of an array pattern. Places without a name get a fresh one. -/
def patternTargets (patternNode : Node) : Lower (List VarTarget) :=
  (patternNode.childrenWithHoles "elements").mapM fun item => do
    let (name?, shape) : Option String × Shape :=
      match item with
      | some item =>
        if item.type == "RestElement" then (item.child? "argument" >>= Node.name?, .list)
        else (item.name?, .scalar)
      | none => (none, .scalar)
    match name? with
    | some name =>
      let _ ← declare name shape
      return ⟨name, shape⟩
    | none => return ⟨← fresh "skip", shape⟩

/-- Declares the variables of an object pattern and takes their values from `source`. -/
def destructureObject (patternNode : Node) (source : Expr) : Lower (List Stmt) := do
  let decls ← (patternNode.children "properties").mapM fun property => do
    if property.type == "RestElement" then
      warnLossy "object rest pattern is not supported"
      return none
    match property.keyName? with
    | none => return none
    | some key =>
      match property.propertyBinding? key with
      | none => return none
      | some (name, default) =>
        let plain := Expr.key source (.string key)
        let bound ←
          match default with
          | some default => pure (binary .definedOr plain (← value default))
          | none => pure plain
        declareScalar name
        return some (Stmt.my name .scalar (some bound))
  return decls.filterMap id

def unpackPattern (patternNode : Node) (source : Expr) : Lower (List Stmt) := do
  if patternNode.type == "ObjectPattern" then destructureObject patternNode source
  else return [.unpack (← patternTargets patternNode) (.deref source .list)]

/-! ## Parameters -/

/-- A parameter that is destructured, with the statements that do it. -/
def patternParam (patternNode : Node) : Lower (Param × List Stmt) := do
  let name ← fresh "args"
  declareScalar name
  return (.scalar name, ← unpackPattern patternNode (.scalar name))

def namedParam (node : Node) : Lower (Param × List Stmt) := do
  match node.name? with
  | some name =>
    declareScalar name
    return (.scalar name, [])
  | none => patternParam node

/-- A parameter before its type is added, with the statements that unpack it. -/
def bareParam (node : Node) : Attempt (Param × List Stmt) := do
  match node.type with
  | "Identifier" =>
    let name := node.name?.getD ""
    declareScalar name
    return (.scalar name, [])
  | "AssignmentPattern" =>
    let (param, unpacking) ← namedParam (← need (node.child? "left"))
    match node.child? "right" with
    | none => return (param, unpacking)
    | some default =>
      let fallback ← value default
      let type := if (← options).typeAnnotations then types.infer? default else none
      return ({ param with fallback := some fallback, type := type }, unpacking)
  | "RestElement" =>
    let name := (node.child? "argument" >>= Node.name?).getD "rest"
    let _ ← declare name .list
    return ({ Param.scalar name with shape := .list, variadic := true }, [])
  | "ObjectPattern" | "ArrayPattern" => patternParam node
  | _ => unsupported node

def param? (node : Node) : Lower (Option (Param × List Stmt)) := do
  match ← (bareParam node).run with
  | none => return none
  | some (param, unpacking) =>
    if (← options).typeAnnotations && param.type.isNone then
      return some ({ param with type := types.noted? node }, unpacking)
    else return some (param, unpacking)

/-- The parameters of a function with the statements that unpack them. -/
def params (nodes : List Node) : Lower (List Param × List Stmt) := do
  let found := (← nodes.mapM param?).filterMap id
  return (found.map (·.1), found.flatMap (·.2))

/-! ## Bodies -/

def namedFunctions (body : List Node) : List (String × Node) :=
  (body.filter (·.type == "FunctionDeclaration")).filterMap fun node =>
    (node.child? "id" >>= Node.name?).map (·, node)

/-- Declares a variable without a value, unless it is declared. -/
def declareEmpty (name : String) (shape : Shape) : Lower (List Stmt) := do
  if ← declare name shape then return [.my name shape none] else return []

def assignSub (name : String) (sub : Sub) : Stmt := .setScalar name (.anonSub sub)

/-- What a function declares before its first statement: nested functions and the variables of
inner blocks. -/
def hoist (body : List Node) : Lower (List Stmt) := do
  let functions := namedFunctions body
  let functionDecls ← functions.mapM fun (name, _) => declareEmpty name .scalar
  let varDecls ← (nestedVars body).mapM fun (name, shape) => declareEmpty name shape
  let definitions ← functions.mapM fun (name, node) => do
    return { assignSub name (← function node) with remarks := .ofNode node }
  return functionDecls.flatten ++ varDecls.flatten ++ definitions

/-- The names that a function declares before its first statement. -/
def hoistedNames (body : List Node) : List String :=
  (nestedVars body).map (·.1) ++ (namedFunctions body).map (·.1)

/-- What a function is for. -/
inductive SubKind where
  | plain
  | method
  | static
  /-- A constructor, with the fields of its class. -/
  | constructor (hasBase : Bool) (fields : List (String × Option Node))

namespace SubKind

def isMethod : SubKind → Bool
  | .plain => false
  | _ => true

def isStatic : SubKind → Bool
  | .static | .constructor .. => true
  | _ => false

def isConstructor : SubKind → Bool
  | .constructor .. => true
  | _ => false

def invocant (kind : SubKind) (around : Invocant) : Invocant :=
  match kind with
  | .plain => around
  | .static => .package
  | .method | .constructor .. => .object

end SubKind

def superNew (args : List Expr) : Expr := .callMethod (.scalar "class") "SUPER::new" args

def emptyObject : Expr := .bless (.hashRef []) (.scalar "class")

/-- The object that a constructor makes when it does not call that of a base class itself. -/
def newObject (forwards : Bool) : Expr :=
  if forwards then superNew [.var "args" .list] else emptyObject

def fieldInits (fields : List (String × Option Node)) : Lower (List Stmt) :=
  fields.mapM fun (name, init) => do
    return .ofExpr (.set (.key (.scalar "self") (.string name)) (← valueOf init))

/-- The statements of a function, none if its body is an expression. -/
def bodyStatements (function : Node) : List Node :=
  match function.child? "body" with
  | some body => if body.type == "BlockStatement" then body.children "body" else []
  | none => []

/-- The body of a constructor. Fields are set once the object exists: after the call of the base
class, or at the start if there is none. -/
def constructorBody (node : Node) (hasBase : Bool) (fields : List (String × Option Node)) :
    Lower (List Stmt) := do
  let inits ← fieldInits fields
  modify fun s => { s with pendingFields := some inits }
  let main ← stmts (bodyStatements node)
  let creation :=
    match ← takePendingFields with
    | some inits =>
      let create := newObject (hasBase && (node.child? "body").isNone)
      Stmt.my "self" .scalar (some create) :: inits
    | none => []
  return creation ++ main ++ [.ret (some (.scalar "self"))]

def functionBody (node : Node) (kind : SubKind) : Lower (List Stmt) := do
  match kind with
  | .constructor hasBase fields => constructorBody node hasBase fields
  | _ =>
    match node.child? "body" with
    | none => return []
    | some body =>
      if body.type == "BlockStatement" then stmts (bodyStatements node)
      else return [.ret (some (← value body))]

/-- A place inside a function. -/
def Place.inside (place : Place) (kind : SubKind) : Place :=
  { place with
    invocant := kind.invocant place.invocant
    hoisted := [] :: place.hoisted
    functionDepth := place.functionDepth + 1
    inConstructor := kind.isConstructor
    inLoopCallback := false }

/-- The place after a function. -/
def Place.outside (before after : Place) : Place :=
  { after with
    invocant := before.invocant
    hoisted := after.hoisted.tail
    functionDepth := after.functionDepth - 1
    inConstructor := before.inConstructor
    inLoopCallback := before.inLoopCallback }

def noteHoisted (names : List String) : Lower Unit :=
  modify fun s => { s with
    place := { s.place with hoisted := s.place.hoisted.modifyHead (names ++ ·) } }

/-- The parameters of a function and all its statements. -/
def functionCode (node : Node) (kind : SubKind) : Lower (List Param × List Stmt) := do
  let (params, unpacking) ← params (node.children "params")
  let statements := bodyStatements node
  let hoistedStmts ← hoist statements
  noteHoisted (hoistedNames statements)
  let body ← functionBody node kind
  return (params, unpacking ++ hoistedStmts ++ body)

def lowerFunction (name : String) (node : Node) (kind : SubKind) : Lower Sub := do
  let (params, body) ← atPlace (·.inside kind) Place.outside <| isolated <|
    inScope (functionCode node kind)
  return {
    name := name
    params := params
    body := body
    isMethod := kind.isMethod
    isStatic := kind.isStatic
    returnType := if (← options).typeAnnotations then types.returned? node else none
    remarks := .ofNode node }

end Scriptgen.Perl
