import Scriptgen.Proofs.Perl.Mirrors
import Scriptgen.Proofs.Ruby.Mirrors
/-!
# Tagged operations and calls of methods

Both targets make the same expression of a call of a method, tagged or not, and go on from the same
state (`tagged_lowers_as_called`).
-/

namespace Scriptgen

variable {op : Mirror} {receiver tagged call : Node} {args : List Node}

/-- **Tags do not change what is generated.** An operation on a variable is lowered, and to the same
expression and the same state whether its node is tagged or calls the method. This is so at every
level, in every context and in every state in which the variable may be one of the operation. -/
theorem tagged_lowers_as_called (hop : op ∈ mirrors)
    (hspread : ∀ arg ∈ args, arg.type ≠ "SpreadElement") (htagged : op.TaggedAs tagged receiver args)
    (hcall : IsMethodCall call receiver op.method args) :
    (∀ (b : Perl.Below) (c : Perl.Context) (s : Perl.State), Perl.Receives s op receiver →
      ∃ e s', (Perl.taggedExpr tagged).run b c s = (some e, s') ∧
        (Perl.lowerExpr call).run b c s = (some e, s')) ∧
    (∀ (b : Ruby.Below) (c : Ruby.Context) (s : Ruby.State), Ruby.Receives c s op receiver →
      ∃ e s', (Ruby.taggedExpr tagged).run b c s = (some e, s') ∧
        (Ruby.lowerExpr call).run b c s = (some e, s')) :=
  ⟨fun _ _ _ hreceives => Perl.lowers_mirror hop hreceives htagged hcall,
    fun _ _ _ hreceives => Ruby.lowers_mirror hop hreceives hspread htagged hcall⟩

/-! ## Part of an array -/

namespace Mirror

/-- The variable `xs`. -/
def listVariable : Node := .of "Identifier" [("name", .string "xs")]

/-- The increment `j++`. -/
def firstIndex : Node :=
  .of "UpdateExpression" [("operator", .string "++"),
    ("argument", .node "Identifier" [("name", .string "j")])]

/-- The literal `5`. -/
def lastIndex : Node := .of "Literal" [("value", .number (.integer 5))]

/-- The call `xs.slice(j++, 5)`. -/
def sliceCall : Node :=
  .of "CallExpression" [
    ("callee", .node "MemberExpression" [("object", listVariable.toJson),
      ("property", .node "Identifier" [("name", .string "slice")])]),
    ("arguments", .array [firstIndex.toJson, lastIndex.toJson])]

/-- The same with its tag. -/
def taggedSlice : Node :=
  ⟨[("ilNodeType", .string "ArraySlice"), ("array", listVariable.toJson),
    ("start", firstIndex.toJson), ("end", lastIndex.toJson)]⟩

theorem taggedAs_taggedSlice :
    TaggedAs ⟨"ArraySlice", "slice", false, .placed 0 2 ["start", "end"], none⟩ taggedSlice
      listVariable [firstIndex, lastIndex] where
  tag := rfl
  subject := rfl
  arguments := ⟨by decide, by decide, fun
    | 0 => rfl
    | 1 => rfl
    | _ + 2 => rfl⟩
  all := nofun

theorem isMethodCall_sliceCall :
    IsMethodCall sliceCall listVariable "slice" [firstIndex, lastIndex] where
  untagged := rfl
  type := rfl
  callee := by
    refine ⟨_, listVariable, rfl, ?_⟩
    rw [Node.unwrapped_of_wrapped? rfl]
    exact ⟨rfl, rfl, rfl, Node.unwrapped_of_wrapped? rfl⟩
  arguments := rfl

theorem isVariable_listVariable : IsVariable listVariable "xs" := ⟨rfl, rfl⟩

theorem isTextual_listVariable : listVariable.isTextual = false := by
  rw [Node.isTextual, isVariable_listVariable.unwrapped_eq]
  rfl

theorem valueKey?_listVariable : listVariable.valueKey? = some "xs" := by
  unfold Node.valueKey?
  rw [isVariable_listVariable.unwrapped_eq]
  rfl

end Mirror

open Mirror

/-- In `xs.slice(j++, 5)` the tag may be left out. -/
theorem tagged_lowers_as_called_slice :
    (∃ e s', (Perl.taggedExpr taggedSlice).run (Perl.level 5) .initial
        { Perl.State.initial with scopes := ⟨[], [("xs", .list)]⟩ } = (some e, s') ∧
      (Perl.lowerExpr sliceCall).run (Perl.level 5) .initial
        { Perl.State.initial with scopes := ⟨[], [("xs", .list)]⟩ } = (some e, s')) ∧
    ∃ e s', (Ruby.taggedExpr taggedSlice).run (Ruby.level 5) .initial
        { Ruby.State.initial with scopes := ⟨[], [("xs", .list)]⟩ } = (some e, s') ∧
      (Ruby.lowerExpr sliceCall).run (Ruby.level 5) .initial
        { Ruby.State.initial with scopes := ⟨[], [("xs", .list)]⟩ } = (some e, s') := by
  have hspread : ∀ arg ∈ [firstIndex, lastIndex], arg.type ≠ "SpreadElement" := by
    simp only [List.forall_mem_cons]
    exact ⟨by decide, by decide, nofun⟩
  have h := tagged_lowers_as_called (by simp [mirrors, arrayMirrors]) hspread taggedAs_taggedSlice
    isMethodCall_sliceCall
  refine ⟨h.1 _ _ _ ⟨⟨"xs", .list, isVariable_listVariable, rfl, by decide⟩, fun _ => isTextual_listVariable⟩,
    h.2 _ _ _ ⟨⟨"xs", isVariable_listVariable, rfl, by decide⟩, ?_, fun _ => ?_, rfl⟩⟩
  · rw [Known.collectionOf?, isVariable_listVariable.unwrapped_eq, valueKey?_listVariable]
    rfl
  · rw [Known.isText, isVariable_listVariable.unwrapped_eq, isTextual_listVariable,
      valueKey?_listVariable]
    rfl

end Scriptgen
