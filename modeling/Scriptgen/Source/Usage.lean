import Scriptgen.Source.Node
/-!
# Uses of names

Which names a part of the program reads, writes or exposes as attributes. All questions are
asked of `Json.nodesWithin`, the nodes below a value in the order in which a walk meets them.
-/

namespace Scriptgen

namespace Json

mutual

/-- The nodes in a value, a node before those inside it. The walk does not go on into a node for
which `enter` is false, and leaves source positions out. -/
def nodesWithin (enter : Node → Bool) : Json → List Node
  | .object fields =>
    if (fields.lookup "type").isSome then
      if enter ⟨fields⟩ then ⟨fields⟩ :: nodesInFields enter fields else [⟨fields⟩]
    else nodesInFields enter fields
  | .array items => nodesInItems enter items
  | _ => []

def nodesInItems (enter : Node → Bool) : List Json → List Node
  | [] => []
  | item :: rest => item.nodesWithin enter ++ nodesInItems enter rest

def nodesInFields (enter : Node → Bool) : List (String × Json) → List Node
  | [] => []
  | (key, value) :: rest =>
    if key == "loc" || key == "range" then nodesInFields enter rest
    else value.nodesWithin enter ++ nodesInFields enter rest

end

end Json

namespace Node

def allNodes (node : Node) : List Node := node.toJson.nodesWithin fun _ => true

def isFunction (node : Node) : Bool :=
  node.type == "FunctionDeclaration" || node.type == "FunctionExpression" ||
    node.type == "ArrowFunctionExpression"

/-- What an assignment, an update or a declaration writes to. -/
def writeTarget? (node : Node) : Option Node :=
  match node.type with
  | "AssignmentExpression" => node.child? "left"
  | "UpdateExpression" => node.child? "argument"
  | "VariableDeclarator" => node.child? "id"
  | _ => none

/-- The name of the method that a call `x.method(…)` calls. -/
def calledMethod? (node : Node) : Option String :=
  if node.type == "CallExpression" then
    (node.child? "callee") >>= fun callee => callee.unwrapped.staticMember?
  else none

end Node

/-- Whether anything in `nodes` assigns, updates or declares `name`. -/
def assignsTo (nodes : List Node) (name : String) : Bool :=
  nodes.any fun node => node.allNodes.any fun n =>
    n.writeTarget?.any (·.unwrapped.isIdentifier name)

def callsMethod (nodes : List Node) (methods : List String) : Bool :=
  nodes.any fun node => node.allNodes.any fun n => n.calledMethod?.any methods.contains

/-! ## Definitions -/

/-- The function or class that a statement defines, also as the value of a variable. -/
def definition? (stmt : Node) : Option Node :=
  match stmt.type with
  | "FunctionDeclaration" | "ClassDeclaration" => some stmt
  | "VariableDeclaration" =>
    ((stmt.children "declarations").filterMap (·.child? "init")).find? fun init =>
      let type := init.unwrapped.type
      type == "ClassExpression" || type == "FunctionExpression" ||
        type == "ArrowFunctionExpression"
  | _ => none

def namesInDefinitions (stmts : List Node) : List String :=
  (stmts.filterMap definition?).flatMap fun definition =>
    definition.allNodes.filterMap fun n => if n.type == "Identifier" then n.name? else none

/-! ## Attributes -/

def thisTarget? (node : Node) : Option String := do
  guard (node.type == "AssignmentExpression")
  let left := (← node.child? "left").unwrapped
  guard (left.type == "MemberExpression" && !left.flag "computed")
  guard ((left.child? "object").any (·.type == "ThisExpression"))
  (← left.child? "property").name?

/-- Whether `this` inside the node is still that of the method around it. -/
def keepsThis (node : Node) : Bool :=
  !(node.type == "FunctionExpression" || node.type == "FunctionDeclaration" ||
    node.type == "ClassExpression")

def classMembers (cls : Node) : List Node := (cls.child? "body").elim [] (·.children "body")

def distinct (names : List String) : List String :=
  names.foldl (fun seen name => if seen.contains name then seen else seen ++ [name]) []

/-- The names that the methods of a class assign through `this`. -/
def thisAssignments (cls : Node) : List String :=
  distinct ((classMembers cls).flatMap fun member =>
    match (member.child? "value").filter Node.isFunction >>= (·.child? "body") with
    | some body => (body.toJson.nodesWithin keepsThis).filterMap thisTarget?
    | none => [])

/-- The name of a member that a class exposes as an attribute: a field or an accessor. -/
def exposedName? (member : Node) : Option String :=
  let exposed :=
    match member.type with
    | "PropertyDefinition" => true
    | "MethodDefinition" => member.text? "kind" == some "get" || member.text? "kind" == some "set"
    | _ => false
  if exposed then member.child? "key" >>= fun key => key.name?.or key.stringValue? else none

/-- The names that the classes in `stmts` expose as attributes. -/
def classMemberNames (stmts : List Node) : List String :=
  stmts.flatMap fun stmt => stmt.allNodes.flatMap fun n =>
    if n.type == "ClassDeclaration" || n.type == "ClassExpression" then
      thisAssignments n ++ (classMembers n).filterMap exposedName?
    else []

end Scriptgen
