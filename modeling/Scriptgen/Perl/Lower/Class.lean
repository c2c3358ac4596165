import Scriptgen.Perl.Lower.Function
/-!
# Lowering to Perl: classes

A class becomes a package with a constructor `new`. Accessors become methods, and static fields
become variables of the package.
-/

namespace Scriptgen.Perl

def accessorKeys (members : List Node) (kind : String) : List String :=
  (members.filter (·.text? "kind" == some kind)).filterMap Node.keyName?

/-- What the members of a class contribute to its package. -/
structure ClassParts where
  fields : List Field
  instanceFields : List (String × Option Node)
  staticInit : List Stmt
  methods : List Sub
  /-- The function of the constructor. -/
  construct : Option Node

namespace ClassParts

def empty : ClassParts := ⟨[], [], [], [], none⟩

/-- What two lists of members contribute. The last constructor counts. -/
def append (first second : ClassParts) : ClassParts :=
  ⟨first.fields ++ second.fields, first.instanceFields ++ second.instanceFields,
    first.staticInit ++ second.staticInit, first.methods ++ second.methods,
    second.construct.or first.construct⟩

end ClassParts

def withInvocant {α : Type} (invocant : Invocant) (step : Lower α) : Lower α :=
  atPlace ({ · with invocant := invocant })
    (fun before after => { after with invocant := before.invocant }) step

def fieldMember (member : Node) (key : String) : Lower ClassParts := do
  let init := member.child? "value"
  let isStatic := member.flag "static"
  let type := if (← options).typeAnnotations then init >>= types.infer? else none
  let field : Field := ⟨key, type, isStatic⟩
  if isStatic then
    let init ← withInvocant .package (init.mapM value)
    return { ClassParts.empty with
      fields := [field], staticInit := [.plain (.varDecl [⟨key, .scalar⟩] init .our)] }
  else return { ClassParts.empty with fields := [field], instanceFields := [(key, init)] }

def staticBlock (member : Node) : Lower ClassParts := do
  let body ← withInvocant .package (scopedStmts (member.children "body"))
  let self := Stmt.my "class" .scalar (some (.raw "__PACKAGE__"))
  return { ClassParts.empty with staticInit := [.block (self :: body)] }

def methodMember (member function : Node) (key : String) : Lower ClassParts := do
  if member.text? "kind" == some "constructor" then
    return { ClassParts.empty with construct := some function }
  let name := if member.text? "kind" == some "set" then "set_" ++ key else key
  let sub ← lowerFunction name function (if member.flag "static" then .static else .method)
  let remarks := { sub.remarks with comments := (Remarks.ofNode member).comments }
  return { ClassParts.empty with methods := [{ sub with remarks := remarks }] }

def classMember (member : Node) : Lower ClassParts := do
  match member.type with
  | "PropertyDefinition" =>
    match member.keyName? with
    | some key => fieldMember member key
    | none => return .empty
  | "StaticBlock" => staticBlock member
  | "MethodDefinition" =>
    match member.child? "value", member.keyName? with
    | some function, some key => methodMember member function key
    | _, _ => return .empty
  | _ =>
    warn member.dropped
    return .empty

/-- The constructor of a class that declares none. It hands its arguments to the base class. -/
def defaultConstructor (hasBase : Bool) (fields : List (String × Option Node)) : Lower Sub := do
  let inits ← withInvocant .object (inScope (fieldInits fields))
  let rest := { Param.scalar "args" with shape := .list, variadic := true }
  let params := if hasBase then [rest] else []
  let body := Stmt.my "self" .scalar (some (newObject hasBase)) :: inits ++
    [.ret (some (.scalar "self"))]
  return { Sub.function "new" params body with isMethod := true, isStatic := true }

def constructorOf (parts : ClassParts) (hasBase : Bool) : Lower Sub :=
  match parts.construct with
  | some function => lowerFunction "new" function (.constructor hasBase parts.instanceFields)
  | none => defaultConstructor hasBase parts.instanceFields

def lowerClassNamed (node : Node) (name : String) : Lower Stmt := do
  addClass name
  let base := node.child? "superClass" >>= Node.qualifiedName? id
  let members := classMembers node
  let scope : ClassScope := ⟨name, accessorKeys members "get", accessorKeys members "set"⟩
  let (parts, new) ← atPlace ({ · with enclosingClass := some scope })
      (fun before after => { after with enclosingClass := before.enclosingClass }) do
    let parts : ClassParts := (← members.mapM classMember).foldl ClassParts.append .empty
    return (parts, ← constructorOf parts base.isSome)
  return .plain (.package {
    name := name
    base := base
    fields := parts.fields
    methods := new :: parts.methods
    staticInit := parts.staticInit
    blockForm := (← options).modernSyntax
    remarks := .ofNode node })

/-- Lowers a class under a given name or its own. One without a name is left out. -/
def lowerClass (node : Node) (name : Option String) : Lower (Option Stmt) := do
  match name.or (node.child? "id" >>= Node.name?) with
  | some name => return some (← lowerClassNamed node name)
  | none => return none

end Scriptgen.Perl
