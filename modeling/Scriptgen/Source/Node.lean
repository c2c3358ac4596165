import Scriptgen.Json
/-!
# Syntax tree nodes

The program to generate code for is an ESTree document: a JSON object is a node, its `type`
names the construct, and other fields hold its parts. A type-inference pass may have tagged a
node with an `ilNodeType`, which then takes the place of the type, and with a `resultType`.

Nothing is asked of the shape of a node. Each accessor gives nothing for a field that is missing
or of another kind, and a reader treats that as a construct it does not know.

`Node.height` decreases from a node to its children (`height_of_child?`,
`height_of_mem_children`), so that walks down the tree end.
-/

namespace Scriptgen

/-- The object for a node of a type with other fields. -/
abbrev Json.node (type : String) (fields : List (String × Json)) : Json :=
  .object (("type", .string type) :: fields)

/-- A node of the syntax tree, by its fields. -/
structure Node where
  fields : List (String × Json)

/-- A node of a type with other fields. -/
abbrev Node.of (type : String) (fields : List (String × Json)) : Node :=
  ⟨("type", .string type) :: fields⟩

/-- Where a node starts in the program text. -/
structure Location where
  line : Nat
  column : Nat
deriving DecidableEq, Repr

/-- A comment that stands before a node. -/
structure Comment where
  text : String
  /-- Whether it is delimited rather than ended by its line. -/
  block : Bool
deriving DecidableEq, Repr

namespace Node

/-- A JSON object is a node, and nothing else is. -/
def ofJson? : Json → Option Node
  | .object fields => some ⟨fields⟩
  | _ => none

def toJson (node : Node) : Json := .object node.fields

def height (node : Node) : Nat := node.toJson.height

/-! ## Fields -/

/-- The value of a field, `null` included. -/
def get? (node : Node) (name : String) : Option Json := node.fields.lookup name

/-- The value of a field that is not `null`. -/
def field? (node : Node) (name : String) : Option Json :=
  (node.get? name).filter (!·.isNull)

/-- Whether a field is present and not `null`. -/
def has (node : Node) (name : String) : Bool := (node.field? name).isSome

def child? (node : Node) (name : String) : Option Node := node.get? name >>= ofJson?

/-- The items of an array field, none if the field is not an array. -/
def items (node : Node) (name : String) : List Json :=
  (node.get? name >>= Json.asArray?).getD []

/-- The nodes in an array field, other items left out. -/
def children (node : Node) (name : String) : List Node :=
  (node.items name).filterMap ofJson?

/-- The items of an array field, those that are not nodes as holes. -/
def childrenWithHoles (node : Node) (name : String) : List (Option Node) :=
  (node.items name).map ofJson?

def text? (node : Node) (name : String) : Option String := node.get? name >>= Json.asString?

/-- A flag, which an absent field does not raise. -/
def flag (node : Node) (name : String) : Bool := (node.get? name >>= Json.asBool?).getD false

def number? (node : Node) (name : String) : Option Binary64 :=
  node.get? name >>= Json.asBinary64?

/-! ## What a node is -/

/-- The construct, whatever the type-inference pass has added. -/
def type (node : Node) : String := (node.text? "type").getD ""

/-- The tag of the type-inference pass, or else the construct. -/
def kind (node : Node) : String := (node.text? "ilNodeType").getD node.type

/-- Whether the type-inference pass has tagged the node. -/
def tagged (node : Node) : Bool := (node.text? "ilNodeType").isSome

/-- The type of the node's value, if the type-inference pass has found one. -/
def resultType? (node : Node) : Option String := node.text? "resultType"

def name? (node : Node) : Option String :=
  if ["Identifier", "PrivateIdentifier", "PrivateName"].contains node.type then node.text? "name"
  else none

def isIdentifier (node : Node) (name : String) : Bool := node.name? == some name

def stringValue? (node : Node) : Option String :=
  if node.type == "Literal" then node.text? "value" else none

/-- The property name of a member access that is not computed. -/
def staticMember? (node : Node) : Option String :=
  if node.type != "MemberExpression" || node.flag "computed" then none
  else node.child? "property" >>= name?

/-- The start of the node. Line and column are numbers of 32 bits. -/
def location? (node : Node) : Option Location := do
  let start ← (← node.get? "loc").get? "start"
  let line ← (← start.get? "line").asNat?
  let column := (start.get? "column" >>= Json.asNat?).getD 0
  some ⟨line % 0x100000000, column % 0x100000000⟩

def leadingComments (node : Node) : List Comment :=
  (node.items "leadingComments").filterMap fun item => do
    let text ← (← item.get? "value").asString?
    some ⟨text, (item.get? "type" >>= Json.asString?) == some "Block"⟩

/-! ## Heights -/

theorem height_le_of_lookup {fields : List (String × Json)} {key : String} {value : Json}
    (h : fields.lookup key = some value) : value.height ≤ Json.heightFields fields := by
  induction fields with
  | nil => simp at h
  | cons field rest ih =>
    obtain ⟨k, v⟩ := field
    rw [List.lookup_cons] at h
    rw [Json.heightFields]
    split at h
    · simp only [Option.some.injEq] at h
      subst h
      omega
    · have := ih h
      omega

theorem height_le_of_mem_items {items : List Json} {item : Json} (h : item ∈ items) :
    item.height ≤ Json.heightItems items := by
  induction items with
  | nil => simp at h
  | cons first rest ih =>
    rw [Json.heightItems]
    rcases List.mem_cons.1 h with rfl | h
    · omega
    · have := ih h
      omega

theorem height_ofJson? {j : Json} {node : Node} (h : ofJson? j = some node) :
    node.height = j.height := by
  cases j <;> simp [ofJson?] at h
  subst h
  rfl

theorem height_eq (node : Node) : node.height = Json.heightFields node.fields + 1 := by
  rw [height, toJson, Json.height]

theorem height_of_child? {node child : Node} {name : String} (h : node.child? name = some child) :
    child.height < node.height := by
  simp only [child?, Option.bind_eq_bind, Option.bind_eq_some_iff] at h
  obtain ⟨value, hv, hc⟩ := h
  have := height_le_of_lookup hv
  rw [height_ofJson? hc, height_eq]
  omega

theorem height_of_mem_children {node child : Node} {name : String}
    (h : child ∈ node.children name) : child.height < node.height := by
  simp only [children, items, List.mem_filterMap] at h
  obtain ⟨item, hi, hc⟩ := h
  cases hf : node.get? name with
  | none => simp [hf] at hi
  | some value =>
    cases value <;> simp [hf, Json.asArray?] at hi
    have hv := height_le_of_lookup hf
    have := height_le_of_mem_items hi
    rw [height_ofJson? hc, height_eq]
    rw [Json.height] at hv
    omega

/-! ## Wrappers -/

/-- The expression inside parentheses, an optional chain or an `await`, unless the node is
tagged. -/
def wrapped? (node : Node) : Option Node :=
  if node.tagged then none
  else
    match node.type with
    | "ParenthesizedExpression" | "ChainExpression" => node.child? "expression"
    | "AwaitExpression" => node.child? "argument"
    | _ => none

theorem height_of_wrapped? {node inner : Node} (h : node.wrapped? = some inner) :
    inner.height < node.height := by
  unfold wrapped? at h
  split at h
  · simp at h
  · split at h
    · exact height_of_child? h
    · exact height_of_child? h
    · exact height_of_child? h
    · simp at h

/-- The node without the wrappers around it. -/
def unwrapped (node : Node) : Node :=
  match _h : node.wrapped? with
  | some inner => inner.unwrapped
  | none => node
termination_by node.height
decreasing_by exact height_of_wrapped? _h

theorem height_unwrapped_le (node : Node) : node.unwrapped.height ≤ node.height := by
  fun_induction unwrapped node with
  | case1 node inner h ih =>
    have := height_of_wrapped? h
    omega
  | case2 => exact Nat.le_refl _

end Node

end Scriptgen
