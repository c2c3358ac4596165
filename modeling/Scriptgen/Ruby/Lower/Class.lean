import Scriptgen.Ruby.Lower.Function
/-!
# Lowering to Ruby: classes

A class keeps its methods and accessors. Its fields become instance variables with attributes, and
static fields are variables of the class itself. A class within a function moves to the top level.
-/

namespace Scriptgen.Ruby

/-! ## What a class declares -/

def methodKeys (members : List Node) (p : Option String → Bool) : List String :=
  (members.filter fun member => member.type == "MethodDefinition" && p (member.text? "kind"))
    |>.filterMap Node.keyName?

def isPlainMethod (kind : Option String) : Bool :=
  !(kind == some "get" || kind == some "set" || kind == some "constructor")

/-- What a class declares, with the attributes that its methods assign. -/
def ClassScope.ofMembers (members : List Node) (assigned : List String) : ClassScope where
  getters := methodKeys members (· == some "get")
  setters := methodKeys members (· == some "set")
  methods := methodKeys members isPlainMethod
  fields :=
    (members.filter (·.type == "PropertyDefinition")).filterMap Node.keyName? ++ assigned

def ClassScope.hasMethod (scope : ClassScope) (name : String) : Bool :=
  scope.getters.contains name || scope.setters.contains name || scope.methods.contains name

/-- Adds an attribute, unless the class has a member of its name. -/
def ClassScope.addAttribute (scope : ClassScope) (fields : List Field) (name : String) :
    List Field :=
  if fields.any (·.name == plainName name) || scope.hasMethod name then fields
  else fields ++ [⟨plainName name, none, false⟩]

/-! ## Members -/

/-- What the members of a class contribute to it. -/
structure ClassParts where
  fields : List Field
  instanceFields : List (String × Option Node)
  staticInit : List Stmt
  methods : List Method
  construct : Option Node

namespace ClassParts

def empty : ClassParts := ⟨[], [], [], [], none⟩

def append (first second : ClassParts) : ClassParts :=
  ⟨first.fields ++ second.fields, first.instanceFields ++ second.instanceFields,
    first.staticInit ++ second.staticInit, first.methods ++ second.methods,
    second.construct.or first.construct⟩

end ClassParts

def fieldMember (member : Node) (key : String) : Lower ClassParts := do
  let init := member.child? "value"
  let isStatic := member.flag "static"
  let type := if (← options).typeAnnotations then init >>= types.infer? else none
  let field : Field := ⟨plainName key, type, isStatic⟩
  if isStatic then
    learn ("@" ++ key) init
    let set := Stmt.set (.instanceVar (plainName key)) (← valueOf init)
    return { ClassParts.empty with
      fields := [field], staticInit := [{ set with remarks := .ofNode member }] }
  else return { ClassParts.empty with fields := [field], instanceFields := [(key, init)] }

def memberRole (member : Node) (key : String) : String × FunctionRole :=
  let (name, role) : String × FunctionRole :=
    match member.text? "kind" with
    | some "set" => (plainName key ++ "=", .setter)
    | some "get" => (plainName key, .method)
    | _ => (methodName key, .method)
  (name, if member.flag "static" then .staticMethod else role)

def methodMember (member function : Node) (key : String) : Lower ClassParts := do
  if member.text? "kind" == some "constructor" then
    return { ClassParts.empty with construct := some function }
  let (name, role) := memberRole member key
  let method ← lowerFunction name function role
  let remarks := { method.remarks with comments := (Remarks.ofNode member).comments }
  return { ClassParts.empty with methods := [{ method with remarks := remarks }] }

def classMember (member : Node) : Lower ClassParts := do
  match member.type with
  | "PropertyDefinition" =>
    match member.keyName? with
    | some key => fieldMember member key
    | none => return .empty
  | "StaticBlock" =>
    return { ClassParts.empty with staticInit := ← scopedStmts (member.children "body") }
  | "MethodDefinition" =>
    match member.child? "value", member.keyName? with
    | some function, some key => methodMember member function key
    | _, _ => return .empty
  | _ =>
    warn member.dropped
    return .empty

/-! ## Classes -/

/-- The class of errors that a base class or a test for an error stands for. -/
def handledErrorClass (name : String) : String :=
  if name == "Error" then "StandardError" else errorClass name

def baseClass? (classes : List String) (node : Node) : Option String :=
  match node.name?.filter fun name => isErrorClass name && !classes.contains name with
  | some name => some (handledErrorClass name)
  | none => node.qualifiedName? constantName

def constructorOf (parts : ClassParts) (hasBase : Bool) : Lower (List Method) := do
  match parts.construct with
  | some function =>
    return [← lowerFunction "initialize" function (.constructor parts.instanceFields)]
  | none =>
    if parts.instanceFields.any (·.2.isSome) then
      return [← defaultConstructor hasBase parts.instanceFields]
    else return []

def lowerClassNamed (node : Node) (name : String) : Lower Stmt := do
  addClass name
  let base := (node.child? "superClass").map Node.unwrapped >>= baseClass? (← get).classes
  let members := classMembers node
  let assigned := thisAssignments node
  let scope := ClassScope.ofMembers members assigned
  let (parts, new) ← within ({ · with enclosingClass := some scope }) do
    let parts : ClassParts := (← members.mapM classMember).foldl ClassParts.append .empty
    return (parts, ← constructorOf parts base.isSome)
  return .plain (.classDef {
    name := constantName name
    base := base
    fields := assigned.foldl scope.addAttribute parts.fields
    methods := new ++ parts.methods
    staticInit := parts.staticInit
    remarks := .ofNode node })

/-- Lowers a class under a given name or its own. One without a name is left out, and one within a
function moves to the top level. -/
def lowerClass (node : Node) (name : Option String) : Lower (Option Stmt) := do
  match name.or (node.child? "id" >>= Node.name?) with
  | none => return none
  | some name =>
    let cls ← lowerClassNamed node name
    if (← readThe Context).inFunction then
      warnLossy ("class " ++ name ++ " declared inside a function is defined at the top level")
      moveClassToTop cls
      return none
    else return some cls

/-- Lowers a class as a value. It is defined at the top level under its name or a fresh one. -/
def classValue (node : Node) : Lower Expr := do
  let name ←
    match node.child? "id" >>= Node.name? with
    | some name => pure name
    | none => pure (constantName (← fresh "class"))
  if let some cls ← lowerClass node (some name) then moveClassToTop cls
  return .constant (constantName name)

/-! ## `this` and `super` -/

def thisProperty (name : String) : Lower Expr := do
  match (← readThe Context).enclosingClass with
  | none => return .instanceVar (plainName name)
  | some scope =>
    if scope.getters.contains name then return .read .self (plainName name)
    else if scope.methods.contains name && !scope.fields.contains name then
      return .function "method" [.symbol (methodName name)]
    else return .instanceVar (plainName name)

/-- Lowers the call of a method of `this`, or of a function that is kept in an attribute. -/
def thisCall (name : String) (args : List Expr) : Lower Expr := do
  let isStored := (← readThe Context).enclosingClass.any fun scope =>
    scope.fields.contains name && !scope.methods.contains name
  if isStored then return .method (.instanceVar (plainName name)) "call" args
  else return .function (methodName name) args

def superMethod (name : String) : Expr :=
  (Expr.function "method" [.symbol (methodName name)]).read "super_method"

def superCall (name : String) (args : List Expr) : Lower Expr := do
  if (← readThe Context).currentMethod == some (methodName name) then return .super args
  else return .method (superMethod name) "call" args

/-- The call of the base class's constructor, followed by the initializers of the fields. -/
def superConstructor (args : List Expr) : Lower (List Stmt) := do
  return .ofExpr (.super args) :: (← takePendingFields).getD []

end Scriptgen.Ruby
