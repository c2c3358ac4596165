import Scriptgen.Proofs.Perl.TwinCode
/-!
# Expressions of two runs

The lowering of an expression is twin to itself if that of its parts is, and its code is allowed if
that of its parts is. There is one lemma for each function of the lowering, in the order in which they
call one another.
-/

namespace Scriptgen.Perl

open Lowering Fitting

variable {P : Policy} {H : Prop} {node : Node}

/-! ## Nodes -/

variable {callback : Callback} {initial compare : Option Node} {filler : Node}

section Nodes

variable {n m : Node} {key : String}

@[grind →]
theorem allowed_callbackExpr (h : Fits P callback)
    (hbody : callback.body = .expr n) : Fits P n := by
  have hfits := h.2
  rw [hbody] at hfits
  exact hfits

@[grind →]
theorem allowed_callbackBlock (h : Fits P callback)
    (hbody : callback.body = .block n) : Fits P n := by
  have hfits := h.2
  rw [hbody] at hfits
  exact hfits

@[grind →]
theorem allowed_of_filter {α : Type} [Fitting Policy α] {o : Option α} {p : α → Bool} {a : α}
    (h : Fits P o) (ha : o.filter p = some a) : Fits P a := h a (Option.filter_eq_some_iff.1 ha).1

theorem fits_zip {α β : Type} [Fitting Policy α] [Fitting Policy β] {l : List α} {l' : List β}
    (h : Fits P l) (h' : Fits P l') : Fits P (l.zip l') :=
  fun _ hpair => ⟨h _ (List.of_mem_zip hpair).1, h' _ (List.of_mem_zip hpair).2⟩

@[grind ←]
theorem allowed_options {c : Context} (h : Fits P c) : Fits P c.options := h

variable [P.Lawful]

instance : Hereditary P := ⟨Policy.Lawful.child, Policy.Lawful.item⟩

grind_pattern fits_ofNode? => Fits P n, Callback.ofNode? n

@[grind ←]
theorem allowed_callbackParams (h : Fits P callback) : Fits P callback.params := fits_children h.1

end Nodes

/-! ## Values -/

@[grind ←]
theorem makes_options : Same P H options := by
  unfold options
  grind

@[grind ←]
theorem makes_value (hnode : H → Fits P node) : Same P H (value node) := by
  unfold value
  grind

@[grind ←]
theorem makes_shared {e e' : Expr} (stem : String) (he : H → Fits P e) (heq : e' = twin P e) :
    Makes P H (shared e stem) (shared e' stem) := by
  subst heq
  unfold shared
  grind

@[grind ←]
theorem makes_hasShape (node : Node) (shape : Shape) : Same P H (hasShape node shape) := by
  unfold hasShape
  grind

@[grind ←]
theorem makes_valueOr {d d' : Expr} {node : Option Node} (hd : H → Fits P d) (heq : d' = twin P d)
    (hnode : H → Fits P node) : Makes P H (valueOr d node) (valueOr d' node) := by
  subst heq
  unfold valueOr
  grind

@[grind ←]
theorem makes_valueOf {node : Option Node} (hnode : H → Fits P node) : Same P H (valueOf node) := by
  unfold valueOf
  grind

variable [P.Lawful]

section

variable (hnode : H → Fits P node)

include hnode

@[grind ←]
theorem makes_sequence : Same P H (sequence node) := by
  unfold sequence
  grind +splitImp

@[grind ←]
theorem makes_arrayBase : Same P H (arrayBase node) := by
  unfold arrayBase
  grind

@[grind ←]
theorem makes_hashBase : Same P H (hashBase node) := by
  unfold hashBase
  grind

@[grind ←]
theorem makes_arrayTarget :
    Same P H (arrayTarget node) := by
  unfold arrayTarget
  grind

@[grind ←]
theorem makes_hashOf : Same P H (hashOf node) := by
  unfold hashOf
  grind

@[grind ←]
theorem makes_listOf : Same P H (listOf node) := by
  unfold listOf
  grind +splitImp

@[grind ←]
theorem makes_lengthOf : Same P H (lengthOf node) := by
  unfold lengthOf
  grind +splitImp

@[grind ←]
theorem makes_element : Same P H (element node) := by
  unfold element
  grind

omit hnode in
@[grind ←]
theorem makes_arguments {nodes : List Node} (hnodes : H → Fits P nodes) :
    Same P H (arguments nodes) := by
  unfold arguments
  grind

@[grind ←]
theorem makes_lowerItems : Same P H (lowerItems node) := by
  unfold lowerItems
  grind +splitImp

omit hnode [P.Lawful] in
@[grind ←]
theorem makes_propertyKey (property : Node) {key : Node} (hkey : H → Fits P key) :
    Same P H (propertyKey property key) := by
  unfold propertyKey
  grind

@[grind ←]
theorem makes_objectPairs :
    Same P H (objectPairs node) := by
  unfold objectPairs
  grind +splitImp

end

@[grind ←]
theorem makes_shapedValue (shape : Shape) {init : Node} (hinit : H → Fits P init) :
    Same P H (shapedValue shape init) := by
  unfold shapedValue
  grind +splitImp

variable {array : Node}

@[grind ←]
theorem makes_stableArray (harray : H → Fits P array) : Same P H (stableArray array) := by
  unfold stableArray
  grind

/-! ## Iteration -/

variable {positional positional' : List Expr}

omit [P.Lawful] in
@[grind ←]
theorem makes_bindParams [P.Free] {params : List Node} (hparams : H → Fits P params)
    (hpositional : H → Fits P positional) (heq : positional' = twin P positional) :
    Makes P H (bindParams params positional) (bindParams params positional') := by
  subst heq
  unfold bindParams
  have hzip : params.zip (twin P positional) = twin P (params.zip positional) := by
    rw [twin_list, twin_list, List.zip_map_right]
    rfl
  refine .bind (.mapM (fun hH => fits_zip (hparams hH) (hpositional hH)) hzip fun pair => ?_)
    fun decls => ?_
  · obtain ⟨param, arg⟩ := pair
    grind +splitImp -funext
  · grind

theorem allows_first (h : P.asksFor "List::Util" "first") : P.allows (.block .first) :=
  Policy.Lawful.askedFor h

grind_pattern allows_first => P.asksFor "List::Util" "first"

theorem allows_any (h : P.asksFor "List::Util" "any") : P.allows (.block .any) :=
  Policy.Lawful.askedFor h

grind_pattern allows_any => P.asksFor "List::Util" "any"

theorem allows_all (h : P.asksFor "List::Util" "all") : P.allows (.block .all) :=
  Policy.Lawful.askedFor h

grind_pattern allows_all => P.asksFor "List::Util" "all"

theorem makes_currentValue [P.Free] (hcallback : H → Fits P callback) : Same P H (do
      let body ←
        match callback.paramName? 0 with
        | none => pure []
        | some name =>
          declareScalar name
          pure [Stmt.my name .scalar (some current)]
      return (body, ← valueOf callback.resultExpr?)) := by
  grind +splitImp

variable (op : Iteration) {literal : Option Callback} {list' list : Expr}

@[grind ←]
theorem makes_nativeIteration (blockOp : BlockListOp)
    (hcallback : H → Fits P callback) (hlist : H → Fits P list) (heq : list' = twin P list) :
    Makes P H (nativeIteration op blockOp callback list)
      (nativeIteration op blockOp callback list') := by
  subst heq
  unfold nativeIteration
  refine .bind (makes_inScope_of_free (makes_currentValue (P := P.free) hcallback) (fun _ => rfl)
    fun _ h => h) fun ⟨body, result⟩ => ?_
  cases blockOp <;> grind [BlockListOp.name]

omit [P.Lawful] in
@[grind ←]
theorem makes_iterationStart (hlist : H → Fits P list)
    (heq : list' = twin P list) (hinitial : H → Fits P initial) :
    Makes P H (iterationStart op list initial) (iterationStart op list' initial) := by
  subst heq
  unfold iterationStart
  grind +splitImp

theorem makes_inlined [P.Free] (hcallback : H → Fits P callback)
    (hpositional : H → Fits P positional) (heq : positional' = twin P positional) :
    Makes P H (do
      let bindings ← bindParams callback.params positional
      return (([] : List Stmt), bindings, ← valueOf callback.resultExpr?)) (do
      let bindings ← bindParams callback.params positional'
      return ([], bindings, ← valueOf callback.resultExpr?)) := by
  subst heq
  grind +splitImp

@[grind ←]
theorem makes_callbackValue {callback : Node}
    (hcallback : H → Fits P callback) (hliteral : H → Fits P literal)
    (hpositional : H → Fits P positional) (heq : positional' = twin P positional) :
    Makes P H (callbackValue callback literal positional)
      (callbackValue callback literal positional') := by
  subst heq
  unfold callbackValue
  cases hfound : literal.filter fun c => c.resultExpr?.isSome && c.hasNamedParams with
  | none => grind +splitImp
  | some found =>
    have hfits : H → Fits P found := fun hH => allowed_of_filter (hliteral hH) hfound
    exact makes_inScope_of_free (makes_inlined (P := P.free) hfits hpositional rfl) (fun _ => rfl) fun _ h => h

@[grind ←]
theorem makes_indexedIteration {callback : Node} (harray : H → Fits P array) (hcallback : H → Fits P callback)
    (hliteral : H → Fits P literal) (hinitial : H → Fits P initial) :
    Same P H (indexedIteration op array callback literal initial) := by
  unfold indexedIteration
  grind +splitImp -funext

@[grind ←]
theorem makes_iterate {callback : Node} (harray : H → Fits P array)
    (hcallback : H → Fits P callback) (hinitial : H → Fits P initial) :
    Same P H (iterate op array callback initial) := by
  unfold iterate
  grind +splitImp

@[grind ←]
theorem makes_sorted (hlist : H → Fits P list)
    (heq : list' = twin P list) (hcompare : H → Fits P compare) :
    Makes P H (sorted list compare) (sorted list' compare) := by
  subst heq
  unfold sorted
  cases compare with
  | none => grind
  | some compare =>
    cases hcallback : (Callback.ofNode? compare).filter isComparison with
    | none => grind +splitImp
    | some callback =>
      have hfits : H → Fits P.free callback := fun hH =>
        allowed_of_filter (P := P.free) (fits_ofNode? (hcompare hH compare rfl)) hcallback
      have hlist : H → Fits P.free list := hlist
      have htwin : twin P list = twin P.free list := rfl
      simp only [hcallback]
      refine makes_inScope_of_free ?_ (fun _ => rfl) fun _ h => h
      rw [htwin]
      grind +splitImp

/-! ## Arrays -/

variable (harray : H → Fits P array)

include harray

@[grind ←]
theorem makes_sortStmts (hcompare : H → Fits P compare) : Same P H (sortStmts array compare) := by
  unfold sortStmts
  grind +splitImp

@[grind ←]
theorem makes_sortValue (hcompare : H → Fits P compare) : Same P H (sortValue array compare) := by
  unfold sortValue
  grind +splitImp

@[grind ←]
theorem makes_reverseStmts : Same P H (reverseStmts array) := by
  unfold reverseStmts
  grind

@[grind ←]
theorem makes_reverseValue : Same P H (reverseValue array) := by
  unfold reverseValue
  grind

omit harray

variable {start stop : Option Node} {valueNode size : Node} {args : List Node}
  {filler' base' base : Expr}

@[grind ←]
theorem makes_fillStmt (hbase : H → Fits P base)
    (heq : base' = twin P base) (hfiller : H → Fits P filler) (hstart : H → Fits P start)
    (hstop : H → Fits P stop) :
    Makes P H (fillStmt base filler start stop) (fillStmt base' filler start stop) := by
  subst heq
  unfold fillStmt
  grind +splitImp -funext

@[grind ←]
theorem makes_fillStmts (harray : H → Fits P array)
    (hfiller : H → Fits P filler) (hstart : H → Fits P start) (hstop : H → Fits P stop) :
    Same P H (fillStmts array filler start stop) := by
  unfold fillStmts
  grind +splitImp

omit [P.Lawful] in
@[grind ←]
theorem makes_sizedArray {filler : Expr} (hsize : H → Fits P size)
    (hfiller : H → Fits P filler) (heq : filler' = twin P filler) :
    Makes P H (sizedArray size filler) (sizedArray size filler') := by
  subst heq
  unfold sizedArray
  grind

@[grind →]
theorem allowed_newArraySize? (harray : Fits P array)
    (hsize : newArraySize? array = some size) : Fits P size := by
  unfold newArraySize? at hsize
  have hargs : Fits P (array.children "arguments") := fits_children harray
  grind

@[grind ←]
theorem makes_fillValue (harray : H → Fits P array)
    (hfiller : H → Fits P filler) (hstart : H → Fits P start) (hstop : H → Fits P stop) :
    Same P H (fillValue array filler start stop) := by
  unfold fillValue
  grind +splitImp

@[grind ←]
theorem makes_sizedOrCopied {arg : Node} {filler : Expr} (harg : H → Fits P arg)
    (hfiller : H → Fits P filler) (heq : filler' = twin P filler) :
    Makes P H (sizedOrCopied arg filler) (sizedOrCopied arg filler') := by
  subst heq
  unfold sizedOrCopied
  grind +splitImp -funext

@[grind ←]
theorem makes_joinedArray {separator : Option Node} (harray : H → Fits P array)
    (hseparator : H → Fits P separator) : Same P H (joinedArray array separator) := by
  unfold joinedArray
  grind +splitImp

@[grind ←]
theorem makes_position (hbase : H → Fits P base)
    (heq : base' = twin P base) (hnode : H → Fits P node) :
    Makes P H (position base node) (position base' node) := by
  subst heq
  unfold position
  grind

include harray

@[grind ←]
theorem makes_slicedArray (hstart : H → Fits P start)
    (hstop : H → Fits P stop) : Same P H (slicedArray array start stop) := by
  unfold slicedArray
  cases start with
  | none => grind
  | some start => cases stop <;> grind +splitImp

@[grind ←]
theorem makes_concatenated {others : List Node}
    (hothers : H → Fits P others) : Same P H (concatenated array others) := by
  unfold concatenated
  grind +splitImp

@[grind ←]
theorem makes_arrayIndexOf
    (hvalueNode : H → Fits P valueNode) : Same P H (arrayIndexOf array valueNode) := by
  unfold arrayIndexOf
  grind +splitImp

@[grind ←]
theorem makesTry_arrayLastIndexOf {valueNode : Option Node}
    (hvalueNode : H → Fits P valueNode) : SameTry P H (arrayLastIndexOf array valueNode) := by
  unfold arrayLastIndexOf
  grind +splitImp

@[grind ←]
theorem makes_arrayIncludes
    (hvalueNode : H → Fits P valueNode) : Same P H (arrayIncludes array valueNode) := by
  unfold arrayIncludes
  grind +splitImp

omit harray

@[grind ←]
theorem makes_callOnArray {name : String} (hname : H → P.allows (.call name))
    (harray : H → Fits P array) (hargs : H → Fits P args) :
    Same P H (callOnArray name array args) := by
  unfold callOnArray
  grind +splitImp

@[grind ←]
theorem makesTry_arrayMethod {receiver : Node} (method : String)
    (hreceiver : H → Fits P receiver) (hargs : H → Fits P args) :
    SameTry P H (arrayMethod receiver method args) := by
  unfold arrayMethod
  split
  · grind +splitImp
  · split <;> grind +splitImp

end Scriptgen.Perl
