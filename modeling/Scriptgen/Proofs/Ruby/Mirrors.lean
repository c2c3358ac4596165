import Scriptgen.Proofs.Mirrors.Source
import Scriptgen.Proofs.Ruby.Words
/-!
# Tagged operations in generated Ruby

An operation is lowered by the same step whether its node is tagged or calls a method, as in
`Scriptgen.Proofs.Perl.Mirrors`. Methods that arrays have under the same name in Ruby are not known
of (`takes_plain`): the call is lowered as that of any other method, under the name that it has.
-/

namespace Scriptgen.Ruby

open Lowering List

variable {b : Below} {c : Context} {s : State} {step : Lower Expr}
variable {op : Mirror} {node receiver : Node} {method name : String} {args : List Node}

/-! ## Calls of methods -/

/-- What an operation may be called on: a variable that is no map and of which no collection is
known, nor a text if the operation is one of arrays. No class has a method of its name. -/
structure Receives (c : Context) (s : State) (op : Mirror) (receiver : Node) : Prop where
  declared : ∃ name, IsVariable receiver name ∧
    ((s.scopes.lookup? name).isSome || (c.outline.varKinds.lookup name).isSome) = true ∧
    s.scopes.lookup? name ≠ some .map
  noCollection : s.known.collectionOf? receiver = none
  notText : op.onText = false → s.known.isText receiver = false
  notDefined : c.outline.classMethods.contains op.method = false

theorem passes_ownerCall (hname : receiver.name? = some name)
    (hdecl : ((s.scopes.lookup? name).isSome || (c.outline.varKinds.lookup name).isSome) = true)
    (hshape : s.scopes.lookup? name ≠ some .map) :
    Passes b c s (ownerCall receiver method args) := by
  have hmap : (s.scopes.lookup? name == some .map) = false := beq_eq_false_iff_ne.2 hshape
  rw [Passes, ownerCall, attempt_bind, need_run, hname]
  refine Passes.look (a := true) (Prod.ext hdecl rfl) ?_
  change ((if (s.scopes.lookup? name == some .map && !objectLiteralMethods.contains method) = true
    then _ else failure : Attempt Expr)).run b c s = _
  rw [hmap]
  rfl

theorem takes_call (hcall : IsMethodCall node receiver method args)
    (h : ∀ callee object, callee.staticMember? = some method →
      callee.child? "object" = some object → object.unwrapped = receiver →
      Takes b c s (memberCall callee args) step) : Takes b c s (lowerExpr node) step := by
  obtain ⟨callee, object, hcallee, hmember, hstatic, hobject, hreceiver⟩ := hcall.callee
  have hplain : Takes b c s (plainExpr node) step := by
    rw [plainExpr, hcall.type]
    refine .need hcallee ?_
    simp only [hmember, hcall.arguments]
    exact h _ _ hstatic hobject hreceiver
  rw [Takes, lowerExpr_of_untagged hcall.tagged_unwrapped, hcall.unwrapped_eq]
  exact hplain

/-- The call of a method of a variable is left to what is known of the method, or else is that of a
method of any name. -/
theorem takes_lowerExpr (hcall : IsMethodCall node receiver method args)
    (hvar : IsVariable receiver name)
    (hdecl : ((s.scopes.lookup? name).isSome || (c.outline.varKinds.lookup name).isSome) = true)
    (hshape : s.scopes.lookup? name ≠ some .map) (hmethod : method ≠ "call" ∧ method ≠ "apply")
    (h : Takes b c s (knownMethod receiver method args <|> plainMethodCall receiver method args)
      step) :
    Takes b c s (lowerExpr node) step := by
  refine takes_call hcall fun callee object hstatic hobject hreceiver => ?_
  subst hreceiver
  have hindirect : Passes b c s (indirectCall object.unwrapped method args) := by
    rw [Passes, indirectCall, beq_eq_false_iff_ne.2 hmethod.1, beq_eq_false_iff_ne.2 hmethod.2]
    rfl
  refine .need hobject ?_
  simp only [hstatic, hvar.type]
  exact .after (passes_ownerCall hvar.name hdecl hshape) (.after hindirect h)

/-- Of a variable that is no collection, the methods of texts and of arrays are known. -/
theorem knownMethod_run (method : String) (args : List Node) (hvar : IsVariable receiver name)
    (hcollection : s.known.collectionOf? receiver = none) :
    (knownMethod receiver method args).run b c s =
      (if textOnlyMethods.contains method || s.known.isText receiver then
        textMethod receiver method args else valueMethod receiver method args).run b c s := by
  unfold knownMethod
  dsimp only
  rw [hvar.unwrapped_eq]
  rw [attempt_bind, attempt_get]
  dsimp only
  rw [hcollection]
  rfl

/-! ## Operations -/

/-- A method that calls a function for the elements is one of arrays only. -/
theorem valueMethod_of_iteration {iteration : Iteration}
    (h : Iteration.ofMethod? method = some iteration) :
    valueMethod receiver method args = arrayMethod receiver method args := by
  unfold valueMethod
  split
  · exact nomatch h
  · exact nomatch h
  · exact nomatch h
  · exact nomatch h
  · rfl

theorem takes_iteration (hop : op ∈ iterationMirrors) (h : op.TaggedAs node receiver args) :
    ∃ step, Takes b c s (taggedArray node op.tag) step ∧
      Takes b c s (valueMethod receiver op.method args) step := by
  obtain ⟨iteration, htag, hmethod, hfield, hlayout⟩ := iteration_of_mem hop
  obtain ⟨-, hsubject, hargs, -⟩ := h
  rw [hfield] at hsubject
  rw [hlayout] at hargs
  obtain ⟨hleast, -, hfields⟩ := hargs
  obtain ⟨callback, rest, rfl⟩ := exists_cons_of_length_pos hleast
  have hcallback : node.child? "callback" = some callback := (hfields 0).symm
  have hinitial : (callback :: rest)[1]? = node.child? "initialValue" := hfields 1
  refine ⟨iterate iteration receiver callback (node.child? "initialValue"), ?_, ?_⟩
  · unfold taggedArray
    simp only [htag]
    exact .need hsubject (.need hcallback .lift)
  · rw [valueMethod_of_iteration hmethod]
    unfold arrayMethod
    simp only [hmethod, hinitial]
    exact .lift

theorem takes_plain (hdefined : c.outline.classMethods.contains method = false) :
    Takes b c s (plainMethodCall receiver method args) (do
      let list ← value receiver
      return .method list (plainName method) (← arguments args)) := by
  have hcalled (s : State) : calledName method b c s = (plainName method, s) := by
    change (if c.outline.classMethods.contains method = true then _ else plainName method, s) = _
    rw [hdefined]
    rfl
  exact .bind .lift fun list s' => .bind .lift fun args s'' => .look (hcalled s'') (.pure _)

theorem arguments_single {arg : Node} (hspread : arg.type ≠ "SpreadElement") :
    arguments [arg] = do return [← value arg] := by
  have hitem : item arg = value arg := by
    unfold item
    rw [beq_eq_false_iff_ne.2 hspread]
    rfl
  rw [← hitem]
  rfl

theorem takes_array (hop : op ∈ arrayMirrors) (h : op.TaggedAs node receiver args)
    (hspread : ∀ arg ∈ args, arg.type ≠ "SpreadElement")
    (hdefined : c.outline.classMethods.contains op.method = false) :
    ∃ step, Takes b c s (taggedArray node op.tag) step ∧
      Takes b c s (valueMethod receiver op.method args <|>
        plainMethodCall receiver op.method args) step := by
  obtain ⟨-, hsubject, hargs, -⟩ := h
  simp only [arrayMirrors, mem_cons, not_mem_nil, or_false] at hop
  rcases hop with rfl | rfl | rfl | rfl | rfl | rfl | rfl | rfl | rfl | rfl | rfl | rfl
  -- What adds elements, and what takes one.
  iterate 2
    · obtain rfl : node.children "elements" = args := hargs
      exact ⟨_, .bind (.need hsubject .lift) fun list s' => .bind .lift fun args s'' => .pure _,
        .after rfl (takes_plain hdefined)⟩
  iterate 2
    · obtain rfl : args = [] := length_eq_zero_iff.1 (Nat.le_zero.1 hargs.2.1)
      exact ⟨_, .bind (.need hsubject .lift) fun list s' => .pure _,
        .after rfl (takes_plain hdefined)⟩
  · obtain ⟨-, -, hfields⟩ := hargs
    refine ⟨do sliced (← value receiver) args[0]? args[1]?, ?_, .orElse rfl⟩
    rw [hfields 0, hfields 1]
    exact .bind (.need hsubject .lift) fun list s' => .lift
  · obtain ⟨-, -, hfields⟩ := hargs
    refine ⟨do joinedArray (← value receiver) args[0]?, ?_, .orElse rfl⟩
    rw [hfields 0]
    exact .bind (.need hsubject .lift) fun list s' => .lift
  · obtain rfl : node.children "arrays" = args := hargs
    exact ⟨concatenated receiver _, .need hsubject .lift, .orElse .lift⟩
  iterate 2
    · obtain ⟨value, rfl, hvalue, -⟩ := hargs.single
      refine ⟨_, .bind (.need hsubject .lift) fun list s' =>
        .bind (.need hvalue .lift) fun value s'' => .pure _, .orElse (.bind .lift fun list s' => ?_)⟩
      rw [arguments_single (hspread value mem_cons_self)]
      rfl
  · exact ⟨do return (← value receiver).read "reverse!",
      .bind (.need hsubject .lift) fun list s' => .pure _, .orElse rfl⟩
  · obtain ⟨-, -, hfields⟩ := hargs
    refine ⟨sortedArray receiver args[0]?, .need hsubject ?_, .orElse .lift⟩
    rw [hfields 0]
    exact .lift
  · obtain ⟨value, rfl, hvalue, hrest⟩ := hargs.single
    refine ⟨filledArray receiver value none none, .need hsubject (.need hvalue ?_),
      .orElse (.need rfl .lift)⟩
    rw [hrest "start" (by decide), hrest "end" (by decide)]
    exact .lift

theorem takes_text (hop : op ∈ textMirrors) (h : op.TaggedAs node receiver args) :
    ∃ step, Takes b c s (taggedText node op.tag) step ∧
      Takes b c s (textMethod receiver op.method args) step := by
  obtain ⟨-, hsubject, hargs, hall⟩ := h
  simp only [textMirrors, mem_cons, not_mem_nil, or_false] at hop
  rcases hop with rfl | rfl | rfl | rfl | rfl | rfl | rfl | rfl | rfl | rfl
  iterate 2
    · obtain ⟨searched, replacement, rfl, hsearched, hreplacement⟩ := hargs.pair
      refine ⟨do replacedText (← value receiver) searched replacement _,
        .bind (.need hsubject .lift) fun text s' => .need hsearched (.need hreplacement ?_), rfl⟩
      rw [hall _ rfl]
      exact .lift
  · obtain ⟨-, -, hfields⟩ := hargs
    refine ⟨do splitText (← value receiver) args[0]?, ?_, rfl⟩
    rw [hfields 0]
    exact .bind (.need hsubject .lift) fun text s' => .lift
  · obtain ⟨-, -, hfields⟩ := hargs
    refine ⟨do sliced (← value receiver) args[0]? args[1]?, ?_, rfl⟩
    rw [hfields 0, hfields 1]
    exact .bind (.need hsubject .lift) fun text s' => .lift
  iterate 2
    · obtain ⟨index, rfl, hindex, -⟩ := hargs.single
      exact ⟨_, .bind (.need hsubject .lift) fun text s' =>
        .bind (.need hindex .lift) fun index s'' => .pure _, rfl⟩
  · exact ⟨_, .bind (.need hsubject .lift) fun text s' => .pure _, rfl⟩
  · obtain ⟨count, rfl, hcount, -⟩ := hargs.single
    exact ⟨_, .bind (.need hsubject .lift) fun text s' =>
      .bind (.need hcount .lift) fun count s'' => .pure _, rfl⟩
  iterate 2
    · exact ⟨_, .bind (.need hsubject .lift) fun text s' => .pure _, rfl⟩

/-! ## Both ways -/

/-- What is known of a method, or else its name, is asked where it has its step. -/
theorem exists_takes (hop : op ∈ mirrors) (hreceives : Receives c s op receiver)
    (hspread : ∀ arg ∈ args, arg.type ≠ "SpreadElement") (h : op.TaggedAs node receiver args) :
    ∃ step, Takes b c s (taggedExpr node) step ∧
      Takes b c s (knownMethod receiver op.method args <|> plainMethodCall receiver op.method args)
        step := by
  obtain ⟨name, hvar, -, -⟩ := hreceives.declared
  have hknown := knownMethod_run (b := b) (c := c) op.method args hvar
    hreceives.noCollection
  rw [(method_of_mem hop).1] at hknown
  rcases mem_append.1 hop with harray | htext
  · have hside := onText_of_mem.1 harray
    rw [hside, hreceives.notText hside] at hknown
    have htakes : ∃ step, Takes b c s (taggedArray node op.tag) step ∧
        Takes b c s (valueMethod receiver op.method args <|>
          plainMethodCall receiver op.method args) step := by
      rcases mem_append.1 harray with hiteration | harray
      · obtain ⟨step, htagged, hplain⟩ := takes_iteration (b := b) (c := c) (s := s) hiteration h
        exact ⟨step, htagged, .orElse hplain⟩
      · exact takes_array harray h hspread hreceives.notDefined
    obtain ⟨step, htagged, hplain⟩ := htakes
    refine ⟨step, .need h.tag (.orElse htagged), ?_⟩
    rw [Takes, attempt_orElse, hknown, ← hplain, attempt_orElse]
    rfl
  · have hside := onText_of_mem.2 htext
    rw [hside] at hknown
    obtain ⟨step, htagged, hplain⟩ := takes_text (b := b) (c := c) (s := s) htext h
    refine ⟨step, .need h.tag (.after ?_ (.orElse htagged)), .orElse (hknown.trans hplain)⟩
    have hpasses : ∀ op ∈ textMirrors, Passes b c s (taggedArray node op.tag) := by
      simp only [textMirrors, forall_mem_cons]
      exact ⟨rfl, rfl, rfl, rfl, rfl, rfl, rfl, rfl, rfl, rfl, forall_mem_nil _⟩
    exact hpasses op htext

theorem lowers_mirror {tagged call : Node} (hop : op ∈ mirrors)
    (hreceives : Receives c s op receiver) (hspread : ∀ arg ∈ args, arg.type ≠ "SpreadElement")
    (htagged : op.TaggedAs tagged receiver args)
    (hcall : IsMethodCall call receiver op.method args) :
    ∃ e s', (taggedExpr tagged).run b c s = (some e, s') ∧
      (lowerExpr call).run b c s = (some e, s') := by
  obtain ⟨name, hvar, hdecl, hshape⟩ := hreceives.declared
  obtain ⟨step, htakes, hmethod⟩ := exists_takes (b := b) hop hreceives hspread htagged
  exact ⟨_, _, htakes, takes_lowerExpr hcall hvar hdecl hshape (method_of_mem hop).2 hmethod⟩

end Scriptgen.Ruby
