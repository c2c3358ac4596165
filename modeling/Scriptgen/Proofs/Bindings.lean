import Scriptgen.Source.Hoist
import Scriptgen.Source.Known
import Scriptgen.Source.Pattern
/-!
# What nodes bind

`boundNames` are the names that a node binds by itself, and `setKeys` adds what an assignment and a
field set. What is bound in a part of the program is what the nodes in it bind (`IsPartOf`). Names
are taken from the fields where a lowering looks for them, whatever else a node has.
-/

namespace Scriptgen

open List

namespace Node

/-- A node is another one, or stands somewhere in its fields. -/
inductive IsPartOf (part : Node) : Node → Prop
  | refl : IsPartOf part part
  | child {node child : Node} {key : String} :
      node.child? key = some child → IsPartOf part child → IsPartOf part node
  | item {node item : Node} {key : String} :
      item ∈ node.children key → IsPartOf part item → IsPartOf part node

/-! ## Names -/

/-- The name that an item of an array pattern, or what it collects, has. -/
def itemNames (item : Node) : List String :=
  item.name?.toList ++ (item.child? "argument" >>= name?).toList

/-- The name that a property of an object pattern is bound to. -/
def propertyNames (property : Node) : List String :=
  ((property.keyName? >>= property.propertyBinding?).map (·.1)).toList

/-- The names that are bound where a node is the target of a declaration. -/
def targetNames (target : Node) : List String :=
  target.itemNames ++ (target.children "elements").flatMap itemNames ++
    (target.children "properties").flatMap propertyNames

def namelessParam (param : Node) : List String :=
  match param.type with
  | "Identifier" => [param.name?.getD ""]
  | "RestElement" => [(param.child? "argument" >>= name?).getD "rest"]
  | _ => []

/-- Whether the field `left` of a node is a target of a declaration. -/
def bindsLeft (node : Node) : Bool :=
  ["AssignmentPattern", "ForOfStatement", "ForInStatement"].contains node.type

/-- The targets of the declarations that a node makes by itself. -/
def targets (node : Node) : List Node :=
  (node.child? "id").toList ++ (node.child? "param").toList ++ node.children "params" ++
    if node.bindsLeft then (node.child? "left").toList else []

def boundNames (node : Node) : List String :=
  node.targets.flatMap targetNames ++ (node.children "params").flatMap namelessParam

def fieldKey? (member : Node) : Option String :=
  if member.type == "PropertyDefinition" then member.keyName?.map ("@" ++ ·) else none

def assignedKey? (node : Node) : Option String :=
  if node.type == "AssignmentExpression" then node.child? "left" >>= (·.unwrapped.valueKey?) else none

/-- The variables and attributes that a node sets by itself. -/
def setKeys (node : Node) : List String :=
  node.boundNames ++ node.assignedKey?.toList ++ node.fieldKey?.toList

section

variable {node target item child : Node} {name : String}

theorem mem_boundNames_of_target (htarget : target ∈ node.targets) (hname : name ∈ target.targetNames) :
    name ∈ node.boundNames :=
  mem_append_left _ (mem_flatMap.2 ⟨target, htarget, hname⟩)

theorem mem_targets_of_id (h : node.child? "id" = some child) : child ∈ node.targets := by
  simp [targets, h]

theorem mem_targets_of_param (h : node.child? "param" = some child) : child ∈ node.targets := by
  simp [targets, h]

theorem mem_targets_of_params (h : child ∈ node.children "params") : child ∈ node.targets := by
  simp [targets, h]

theorem mem_targets_of_left (hnode : node.bindsLeft = true) (h : node.child? "left" = some child) :
    child ∈ node.targets := by
  simp [targets, h, hnode]

theorem mem_targetNames_of_name? (h : target.name? = some name) : name ∈ target.targetNames := by
  simp [targetNames, itemNames, h]

theorem mem_targetNames_of_item (hitem : item ∈ target.children "elements")
    (h : name ∈ item.itemNames) : name ∈ target.targetNames := by
  refine mem_append_left _ (mem_append_right _ ?_)
  exact mem_flatMap.2 ⟨item, hitem, h⟩

theorem mem_targetNames_of_property {key : String} {default : Option Node}
    (hitem : item ∈ target.children "properties") (hkey : item.keyName? = some key)
    (h : item.propertyBinding? key = some (name, default)) : name ∈ target.targetNames := by
  refine mem_append_right _ (mem_flatMap.2 ⟨item, hitem, ?_⟩)
  simp [propertyNames, hkey, h]

theorem mem_boundNames_of_namelessParam (h : child ∈ node.children "params")
    (hname : name ∈ child.namelessParam) : name ∈ node.boundNames :=
  mem_append_right _ (mem_flatMap.2 ⟨child, h, hname⟩)

end

end Node

end Scriptgen
