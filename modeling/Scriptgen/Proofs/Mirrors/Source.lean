import Scriptgen.Proofs.Words.Source
import Scriptgen.Source.Iteration
/-!
# Operations that are written in two ways

A call of a method of an array or a text may be tagged. It then keeps what the method is called on
and its arguments in fields of its own. `mirrors` lists these operations. `Mirror.TaggedAs` and
`IsMethodCall` say that a node is one, tagged and not.
-/

namespace Scriptgen

/-- Where a tagged node keeps the arguments of a method. -/
inductive ArgumentFields where
  /-- All of them in one field. -/
  | listed (field : String)
  /-- Each in a field of its own. There are at least `least` and at most `most` of them. -/
  | placed (least most : Nat) (fields : List String)

def ArgumentFields.Hold (fields : ArgumentFields) (node : Node) (args : List Node) : Prop :=
  match fields with
  | .listed field => node.children field = args
  | .placed least most fields =>
    least ≤ args.length ∧ args.length ≤ most ∧ ∀ i : Nat, args[i]? = fields[i]? >>= node.child?

variable {args : List Node} {node : Node} {receiver : Node} {method field : String}

theorem ArgumentFields.Hold.single {rest : List String}
    (h : (placed 1 1 (field :: rest)).Hold node args) :
    ∃ arg, args = [arg] ∧ node.child? field = some arg ∧ ∀ other ∈ rest, node.child? other = none := by
  obtain ⟨hleast, hmost, hfields⟩ := h
  obtain ⟨arg, rfl⟩ := List.length_eq_one_iff.1 (Nat.le_antisymm hmost hleast)
  refine ⟨arg, rfl, (hfields 0).symm, fun other hother => ?_⟩
  obtain ⟨i, hi⟩ := List.mem_iff_getElem?.1 hother
  have hnone := hfields (i + 1)
  rw [List.getElem?_cons_succ, List.getElem?_cons_succ, hi] at hnone
  exact hnone.symm

theorem ArgumentFields.Hold.pair {other : String} (h : (placed 2 2 [field, other]).Hold node args) :
    ∃ first second, args = [first, second] ∧ node.child? field = some first ∧
      node.child? other = some second := by
  obtain ⟨hleast, hmost, hfields⟩ := h
  obtain ⟨first, second, rfl⟩ := List.length_eq_two.1 (Nat.le_antisymm hmost hleast)
  exact ⟨first, second, rfl, (hfields 0).symm, (hfields 1).symm⟩

/-- An operation that is a method of arrays or of texts. -/
structure Mirror where
  tag : String
  method : String
  /-- Whether it is a method of texts. -/
  onText : Bool
  arguments : ArgumentFields
  /-- Which of two methods with the same tag it is. -/
  all : Option Bool

/-- The field of what the method is called on. -/
def Mirror.subject (op : Mirror) : String := if op.onText then "string" else "array"

/-- The methods of arrays that call a function for the elements. -/
def iterationMirrors : List Mirror :=
  [("ArrayMap", "map"), ("ArrayFilter", "filter"), ("ArraySome", "some"), ("ArrayEvery", "every"),
    ("ArrayFind", "find"), ("ArrayFindIndex", "findIndex"), ("ArrayReduce", "reduce")].map
    fun (tag, method) => ⟨tag, method, false, .placed 1 2 ["callback", "initialValue"], none⟩

def arrayMirrors : List Mirror :=
  [⟨"ArrayPush", "push", false, .listed "elements", none⟩,
    ⟨"ArrayUnshift", "unshift", false, .listed "elements", none⟩,
    ⟨"ArrayPop", "pop", false, .placed 0 0 [], none⟩,
    ⟨"ArrayShift", "shift", false, .placed 0 0 [], none⟩,
    ⟨"ArraySlice", "slice", false, .placed 0 2 ["start", "end"], none⟩,
    ⟨"ArrayJoin", "join", false, .placed 0 1 ["separator"], none⟩,
    ⟨"ArrayConcat", "concat", false, .listed "arrays", none⟩,
    ⟨"ArrayIndexOf", "indexOf", false, .placed 1 1 ["value"], none⟩,
    ⟨"ArrayIncludes", "includes", false, .placed 1 1 ["value"], none⟩,
    ⟨"ArrayReverse", "reverse", false, .placed 0 0 [], none⟩,
    ⟨"ArraySort", "sort", false, .placed 0 1 ["compareFn"], none⟩,
    ⟨"ArrayFill", "fill", false, .placed 1 1 ["value", "start", "end"], none⟩]

def textMirrors : List Mirror :=
  [⟨"StringReplace", "replace", true, .placed 2 2 ["pattern", "replacement"], some false⟩,
    ⟨"StringReplace", "replaceAll", true, .placed 2 2 ["pattern", "replacement"], some true⟩,
    ⟨"StringSplit", "split", true, .placed 0 1 ["separator"], none⟩,
    ⟨"StringSubstring", "substring", true, .placed 1 2 ["start", "end"], none⟩,
    ⟨"StringCharAt", "charAt", true, .placed 1 1 ["index"], none⟩,
    ⟨"StringCharCodeAt", "charCodeAt", true, .placed 1 1 ["index"], none⟩,
    ⟨"StringTrim", "trim", true, .placed 0 0 [], none⟩,
    ⟨"StringRepeat", "repeat", true, .placed 1 1 ["count"], none⟩,
    ⟨"StringToUpperCase", "toUpperCase", true, .placed 0 0 [], none⟩,
    ⟨"StringToLowerCase", "toLowerCase", true, .placed 0 0 [], none⟩]

/-- **The operations that are methods.** -/
def mirrors : List Mirror := iterationMirrors ++ arrayMirrors ++ textMirrors

variable {op : Mirror}

theorem iteration_of_mem (hop : op ∈ iterationMirrors) :
    ∃ iteration, Iteration.ofTag? op.tag = some iteration ∧
      Iteration.ofMethod? op.method = some iteration ∧ op.subject = "array" ∧
      op.arguments = .placed 1 2 ["callback", "initialValue"] := by
  simp only [iterationMirrors, List.map_cons, List.map_nil, List.mem_cons, List.not_mem_nil,
    or_false] at hop
  rcases hop with rfl | rfl | rfl | rfl | rfl | rfl | rfl <;> exact ⟨_, rfl, rfl, rfl, rfl⟩

/-- The methods of texts are those that only texts have, and no method calls what it is a method
of. -/
theorem method_of_mem (hop : op ∈ mirrors) :
    textOnlyMethods.contains op.method = op.onText ∧ op.method ≠ "call" ∧ op.method ≠ "apply" := by
  have hall : ∀ op ∈ mirrors, textOnlyMethods.contains op.method = op.onText ∧
      op.method ≠ "call" ∧ op.method ≠ "apply" := by decide
  exact hall op hop

theorem onText_of_mem : (op ∈ iterationMirrors ++ arrayMirrors → op.onText = false) ∧
      (op ∈ textMirrors → op.onText = true) := by
  have harray : ∀ op ∈ iterationMirrors ++ arrayMirrors, op.onText = false := by decide
  have htext : ∀ op ∈ textMirrors, op.onText = true := by decide
  exact ⟨harray op, htext op⟩

/-- A node is tagged as an operation on a receiver with arguments. -/
structure Mirror.TaggedAs (op : Mirror) (node receiver : Node) (args : List Node) : Prop where
  tag : node.text? "ilNodeType" = some op.tag
  subject : node.child? op.subject = some receiver
  arguments : op.arguments.Hold node args
  all : ∀ all ∈ op.all, node.flag "all" = all

/-- A node that is not tagged calls a method of a receiver with arguments. -/
structure IsMethodCall (node receiver : Node) (method : String) (args : List Node) : Prop where
  untagged : node.text? "ilNodeType" = none
  type : node.type = "CallExpression"
  callee : ∃ callee object, node.child? "callee" = some callee ∧
    callee.unwrapped.type = "MemberExpression" ∧ callee.unwrapped.staticMember? = some method ∧
    callee.unwrapped.child? "object" = some object ∧ object.unwrapped = receiver
  arguments : node.children "arguments" = args

theorem IsMethodCall.unwrapped_eq
    (h : IsMethodCall node receiver method args) : node.unwrapped = node := by
  refine Node.unwrapped_of_wrapped? ?_
  rw [Node.wrapped?, h.type]
  split <;> rfl

theorem IsMethodCall.tagged_unwrapped
    (h : IsMethodCall node receiver method args) : node.unwrapped.tagged = false := by
  rw [h.unwrapped_eq, Node.tagged, h.untagged]
  rfl

structure IsVariable (node : Node) (name : String) : Prop where
  type : node.type = "Identifier"
  name : node.name? = some name

theorem IsVariable.unwrapped_eq {name : String} (h : IsVariable node name) :
    node.unwrapped = node := by
  refine Node.unwrapped_of_wrapped? ?_
  rw [Node.wrapped?, h.type]
  split <;> rfl

end Scriptgen
