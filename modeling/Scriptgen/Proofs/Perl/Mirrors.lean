import Scriptgen.Proofs.Mirrors.Source
import Scriptgen.Proofs.Perl.Words
/-!
# Tagged operations in generated Perl

An operation is lowered by the same step whether its node is tagged or calls a method
(`takes_iteration`, `takes_array`, `takes_text`). A call of a method gets there if it is called on a
variable (`takes_lowerExpr`), and `lowers_mirror` puts both together.
-/

namespace Scriptgen.Perl

open Lowering List

variable {b : Below} {c : Context} {s : State} {step : Lower Expr}
variable {op : Mirror} {node receiver : Node} {method name tag : String} {args : List Node}

/-! ## Calls of methods -/

variable {shape : Shape}

/-- The methods of a variable are not those of a class, unless it is a map. -/
theorem passes_ownerCall (hname : receiver.name? = some name)
    (hdecl : s.scopes.lookup? name = some shape) (hshape : shape ≠ .map) :
    Passes b c s (ownerCall receiver method args) := by
  rw [Passes, ownerCall, attempt_bind, need_run, hname]
  dsimp only
  rw [attempt_bind, attempt_get]
  dsimp only
  rw [hdecl]
  cases shape with
  | map => exact absurd rfl hshape
  | scalar => rfl
  | list => rfl

theorem takes_call (hcall : IsMethodCall node receiver method args)
    (h : ∀ callee object, callee.staticMember? = some method →
      callee.child? "object" = some object → object.unwrapped = receiver →
      Takes b c s (memberCall callee args) step) : Takes b c s (lowerExpr node) step := by
  obtain ⟨callee, object, hcallee, hmember, hstatic, hobject, hreceiver⟩ := hcall.callee
  have hplain : Takes b c s (plainExpr node) step := by
    rw [plainExpr, hcall.type]
    refine .need hcallee ?_
    simp only [hmember, hcall.arguments]
    exact h _ _ hstatic hobject hreceiver
  rw [Takes, lowerExpr_of_untagged hcall.tagged_unwrapped, hcall.unwrapped_eq]
  exact hplain

theorem takes_lowerExpr (hcall : IsMethodCall node receiver method args)
    (hvar : IsVariable receiver name) (hdecl : s.scopes.lookup? name = some shape)
    (hshape : shape ≠ .map) (hmethod : method ≠ "call" ∧ method ≠ "apply")
    (h : Takes b c s (methodCall receiver method args) step) :
    Takes b c s (lowerExpr node) step := by
  refine takes_call hcall fun callee object hstatic hobject hreceiver => ?_
  subst hreceiver
  have hindirect : Passes b c s (indirectCall object.unwrapped method args) := by
    rw [Passes, indirectCall, beq_eq_false_iff_ne.2 hmethod.1, beq_eq_false_iff_ne.2 hmethod.2]
    rfl
  refine .need hobject ?_
  simp only [hstatic, hvar.type]
  exact .after (passes_ownerCall hvar.name hdecl hshape) (.after hindirect (.orElse h))

/-! ## Operations -/

theorem takes_iteration (hop : op ∈ iterationMirrors) (h : op.TaggedAs node receiver args) :
    ∃ step, Takes b c s (taggedArray node op.tag) step ∧
      Takes b c s (arrayMethod receiver op.method args) step := by
  obtain ⟨iteration, htag, hmethod, hfield, hlayout⟩ := iteration_of_mem hop
  obtain ⟨-, hsubject, hargs, -⟩ := h
  rw [hfield] at hsubject
  rw [hlayout] at hargs
  obtain ⟨hleast, -, hfields⟩ := hargs
  obtain ⟨callback, rest, rfl⟩ := exists_cons_of_length_pos hleast
  have hcallback : node.child? "callback" = some callback := (hfields 0).symm
  have hinitial : (callback :: rest)[1]? = node.child? "initialValue" := hfields 1
  refine ⟨iterate iteration receiver callback (node.child? "initialValue"), ?_, ?_⟩
  · unfold taggedArray
    simp only [htag]
    exact .need hsubject (.need hcallback .lift)
  · unfold arrayMethod
    simp only [hmethod, hinitial]
    exact .lift

theorem takes_array (hop : op ∈ arrayMirrors) (h : op.TaggedAs node receiver args) :
    ∃ step, Takes b c s (taggedArray node op.tag) step ∧
      Takes b c s (arrayMethod receiver op.method args) step := by
  obtain ⟨-, hsubject, hargs, -⟩ := h
  simp only [arrayMirrors, mem_cons, not_mem_nil, or_false] at hop
  rcases hop with rfl | rfl | rfl | rfl | rfl | rfl | rfl | rfl | rfl | rfl | rfl | rfl
  -- What adds elements, and what takes one.
  iterate 2
    · obtain rfl : node.children "elements" = args := hargs
      exact ⟨callOnArray _ receiver _, .need hsubject .lift, .lift⟩
  iterate 2
    · exact ⟨callOnArray _ receiver [], .need hsubject .lift, .lift⟩
  · obtain ⟨-, -, hfields⟩ := hargs
    refine ⟨slicedArray receiver args[0]? args[1]?, .need hsubject ?_, .lift⟩
    rw [hfields 0, hfields 1]
    exact .lift
  · obtain ⟨-, -, hfields⟩ := hargs
    refine ⟨joinedArray receiver args[0]?, .need hsubject ?_, .lift⟩
    rw [hfields 0]
    exact .lift
  · obtain rfl : node.children "arrays" = args := hargs
    exact ⟨concatenated receiver _, .need hsubject .lift, .lift⟩
  iterate 2
    · obtain ⟨value, rfl, hvalue, -⟩ := hargs.single
      exact ⟨_, .need hsubject (.need hvalue .lift), .need rfl .lift⟩
  · exact ⟨reverseValue receiver, .need hsubject .lift, .lift⟩
  · obtain ⟨-, -, hfields⟩ := hargs
    refine ⟨sortValue receiver args[0]?, .need hsubject ?_, .lift⟩
    rw [hfields 0]
    exact .lift
  · obtain ⟨value, rfl, hvalue, -⟩ := hargs.single
    exact ⟨fillValue receiver value none none, .need hsubject (.need hvalue .lift), .need rfl .lift⟩

theorem takes_text (hop : op ∈ textMirrors) (h : op.TaggedAs node receiver args) :
    ∃ step, Takes b c s (taggedText node op.tag) step ∧
      Takes b c s (textMethod receiver op.method args) step := by
  obtain ⟨-, hsubject, hargs, hall⟩ := h
  simp only [textMirrors, mem_cons, not_mem_nil, or_false] at hop
  rcases hop with rfl | rfl | rfl | rfl | rfl | rfl | rfl | rfl | rfl | rfl
  iterate 2
    · obtain ⟨searched, replacement, rfl, hsearched, hreplacement⟩ := hargs.pair
      refine ⟨do replaceText (← value receiver) searched replacement _,
        .bind (.need hsubject .lift) fun text s' => .need hsearched (.need hreplacement ?_), rfl⟩
      rw [hall _ rfl]
      exact .lift
  · obtain ⟨-, -, hfields⟩ := hargs
    refine ⟨do splitText (← value receiver) args[0]?, ?_, rfl⟩
    rw [hfields 0]
    exact .bind (.need hsubject .lift) fun text s' => .lift
  · obtain ⟨hleast, -, hfields⟩ := hargs
    obtain ⟨start, rest, rfl⟩ := exists_cons_of_length_pos hleast
    have hstart : node.child? "start" = some start := (hfields 0).symm
    have hstop : node.child? "end" = rest[0]? := (hfields 1).symm
    refine ⟨do
      let text ← value receiver
      let start ← value start
      return substring text start (← rest[0]?.mapM fun node => value node), ?_, ?_⟩
    · refine .bind (.need hsubject .lift) fun text s' => .need hstart (.bind .lift fun start s'' => ?_)
      rw [hstop]
      cases rest[0]? with
      | none => rfl
      | some stop => rfl
    · cases rest with
      | nil => rfl
      | cons stop rest => rfl
  iterate 2
    · obtain ⟨index, rfl, hindex, -⟩ := hargs.single
      exact ⟨_, .bind (.need hsubject .lift) fun text s' =>
        .need hindex (.bind .lift fun index s'' => .pure _), rfl⟩
  · exact ⟨_, .bind (.need hsubject .lift) fun text s' => .pure _, rfl⟩
  · obtain ⟨count, rfl, hcount, -⟩ := hargs.single
    exact ⟨_, .bind (.need hsubject .lift) fun text s' =>
      .need hcount (.bind .lift fun count s'' => .pure _), rfl⟩
  iterate 2
    · exact ⟨_, .bind (.need hsubject .lift) fun text s' => .pure _, rfl⟩

/-! ## Both ways -/

/-- What an operation may be called on: a variable that is no map, nor a text if the operation is one
of arrays. -/
structure Receives (s : State) (op : Mirror) (receiver : Node) : Prop where
  declared : ∃ name shape, IsVariable receiver name ∧ s.scopes.lookup? name = some shape ∧
    shape ≠ .map
  notText : op.onText = false → receiver.isTextual = false

theorem exists_takes (hop : op ∈ mirrors) (hreceives : Receives s op receiver)
    (h : op.TaggedAs node receiver args) :
    ∃ step, Takes b c s (taggedExpr node) step ∧
      Takes b c s (methodCall receiver op.method args) step := by
  obtain ⟨name, shape, hvar, -, -⟩ := hreceives.declared
  have hmethod := (method_of_mem hop).1
  rcases mem_append.1 hop with harray | htext
  · have hside := onText_of_mem.1 harray
    have htakes : ∃ step, Takes b c s (taggedArray node op.tag) step ∧
        Takes b c s (arrayMethod receiver op.method args) step := by
      rcases mem_append.1 harray with hiteration | harray
      · exact takes_iteration hiteration h
      · exact takes_array harray h
    obtain ⟨step, htagged, hplain⟩ := htakes
    refine ⟨step, .need h.tag (.orElse htagged), ?_⟩
    unfold methodCall
    dsimp only
    rw [hvar.unwrapped_eq, hmethod, hside, hreceives.notText hside]
    exact hplain
  · have hside := onText_of_mem.2 htext
    obtain ⟨step, htagged, hplain⟩ := takes_text (b := b) (c := c) (s := s) htext h
    refine ⟨step, .need h.tag (.after ?_ (.orElse htagged)), ?_⟩
    · have hpasses : ∀ op ∈ textMirrors, Passes b c s (taggedArray node op.tag) := by
        simp only [textMirrors, forall_mem_cons]
        exact ⟨rfl, rfl, rfl, rfl, rfl, rfl, rfl, rfl, rfl, rfl, fun _ h => nomatch h⟩
      exact hpasses op htext
    · unfold methodCall
      rw [hvar.unwrapped_eq, hmethod, hside]
      exact .orElse hplain

/-- **An operation is lowered alike whether it is tagged or not.** -/
theorem lowers_mirror {tagged call : Node} (hop : op ∈ mirrors)
    (hreceives : Receives s op receiver) (htagged : op.TaggedAs tagged receiver args)
    (hcall : IsMethodCall call receiver op.method args) :
    ∃ e s', (taggedExpr tagged).run b c s = (some e, s') ∧
      (lowerExpr call).run b c s = (some e, s') := by
  obtain ⟨name, shape, hvar, hdecl, hshape⟩ := hreceives.declared
  obtain ⟨step, htakes, hmethod⟩ := exists_takes (b := b) (c := c) hop hreceives htagged
  exact ⟨_, _, htakes, takes_lowerExpr hcall hvar hdecl hshape (method_of_mem hop).2 hmethod⟩

end Scriptgen.Perl
