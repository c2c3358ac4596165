import Scriptgen.Source.Callback
import Scriptgen.Source.Hoist
import Scriptgen.Source.Pattern
/-!
# What fits a place

What it means to fit a place is said once for each kind of thing that a lowering hands on
(`Fitting`), and here for lists, pairs and options. Nodes hand it on to what is in them
(`Hereditary`).
-/

namespace Scriptgen

open List

universe u

/-- What may be asked to fit a place. -/
class Fitting (π : Type u) (α : Type) where
  Fits : π → α → Prop

namespace Fitting

variable {π : Type u} {α β : Type} {P : π}

/-- Other things hold no code. -/
instance (priority := low) fittingOther : Fitting π α := ⟨fun _ _ => True⟩

instance fittingOption [Fitting π α] : Fitting π (Option α) := ⟨fun P o => ∀ a, o = some a → Fits P a⟩

instance fittingList [Fitting π α] : Fitting π (List α) := ⟨fun P l => ∀ a ∈ l, Fits P a⟩

instance [Fitting π α] [Fitting π β] : Fitting π (α × β) :=
  ⟨fun P pair => Fits P pair.1 ∧ Fits P pair.2⟩

@[simp, grind norm]
theorem fits_other (a : α) : @Fits π α fittingOther P a ↔ True := Iff.rfl

section Containers

variable [Fitting π α] [Fitting π β]

theorem fits_list {l : List α} : Fits P l ↔ ∀ a ∈ l, Fits P a := Iff.rfl

theorem fits_option {o : Option α} : Fits P o ↔ ∀ a, o = some a → Fits P a := Iff.rfl

@[simp, grind norm]
theorem fits_none : Fits P (none : Option α) ↔ True := by simp [fits_option]

@[simp, grind norm]
theorem fits_some (a : α) : Fits P (some a) ↔ Fits P a := by simp [fits_option]

@[simp, grind norm]
theorem fits_pair (a : α) (b : β) : Fits P (a, b) ↔ Fits P a ∧ Fits P b := Iff.rfl

@[simp, grind norm]
theorem fits_nil : Fits P ([] : List α) ↔ True := by simp [fits_list]

@[simp, grind norm]
theorem fits_cons (a : α) (l : List α) : Fits P (a :: l) ↔ Fits P a ∧ Fits P l := by
  simp [fits_list]

@[simp, grind norm]
theorem fits_append (l l' : List α) : Fits P (l ++ l') ↔ Fits P l ∧ Fits P l' := by
  simp [fits_list, or_imp, forall_and]

@[grind →]
theorem fits_of_eq_some {o : Option α} {a : α} (h : Fits P o) (ho : o = some a) : Fits P a := h a ho

@[grind →]
theorem fits_of_eq_cons {l l' : List α} {a : α} (h : Fits P l) (hl : l = a :: l') :
    Fits P a ∧ Fits P l' := by
  subst hl
  exact (fits_cons a l').1 h

@[simp, grind norm]
theorem fits_ite (p : Prop) [Decidable p] (a b : α) :
    Fits P (if p then a else b) ↔ if p then Fits P a else Fits P b := by
  split <;> rfl

@[grind ←]
theorem fits_getD {a : Option α} {default : α} (ha : Fits P a) (hdefault : Fits P default) :
    Fits P (a.getD default) := by
  cases a with
  | none => exact hdefault
  | some a => exact ha a rfl

@[simp, grind norm]
theorem fits_toList (a : Option α) : Fits P a.toList ↔ Fits P a := by
  cases a <;> simp

@[simp, grind norm]
theorem fits_filterMap_id (l : List (Option α)) : Fits P (l.filterMap id) ↔ Fits P l := by
  induction l with
  | nil => simp
  | cons a l ih => cases a <;> simp_all

@[simp, grind norm]
theorem fits_flatten (l : List (List α)) : Fits P l.flatten ↔ Fits P l := by
  induction l with
  | nil => simp
  | cons first rest ih => rw [flatten_cons, fits_append, ih, fits_cons]

@[grind ←]
theorem fits_getElem? {l : List α} (h : Fits P l) (i : Nat) : Fits P l[i]? :=
  fun a ha => h a (mem_of_getElem? ha)

@[grind →]
theorem fits_of_getElem? {l : List α} {a : α} {i : Nat} (h : Fits P l) (ha : l[i]? = some a) :
    Fits P a := h a (mem_of_getElem? ha)

@[grind ←]
theorem fits_head? {l : List α} (h : Fits P l) : Fits P l.head? :=
  fun a ha => h a (mem_of_head? ha)

@[grind →]
theorem fits_of_head? {l : List α} {a : α} (h : Fits P l) (ha : l.head? = some a) : Fits P a :=
  h a (mem_of_head? ha)

theorem fits_zipIdx {l : List α} (h : Fits P l) : Fits P l.zipIdx :=
  fun a ha => ⟨h a.1 (fst_mem_of_mem_zipIdx ha), trivial⟩

@[grind ←]
theorem fits_tail {l : List α} (h : Fits P l) : Fits P l.tail :=
  fun a ha => h a (mem_of_mem_tail ha)

@[grind ←]
theorem fits_drop {l : List α} (h : Fits P l) (n : Nat) : Fits P (l.drop n) :=
  fun a ha => h a (mem_of_mem_drop ha)

end Containers

@[simp, grind norm]
theorem fits_option_other (a : Option α) :
    @Fits π _ (@fittingOption π α fittingOther) P a ↔ True := by
  cases a <;> simp

@[simp, grind norm]
theorem fits_list_other (l : List α) : @Fits π _ (@fittingList π α fittingOther) P l ↔ True := by
  simp [fits_list]

/-! ## Nodes -/

section Nodes

variable [Fitting π Node]

/-- What is in a node fits where the node does. -/
class Hereditary (P : π) : Prop where
  child : ∀ {n m : Node} {key}, Fits P n → n.child? key = some m → Fits P m
  item : ∀ {n m : Node} {key}, Fits P n → m ∈ n.children key → Fits P m

instance : Fitting π CallbackBody where
  Fits P body := match body with
    | .expr node => Fits P node
    | .block node => Fits P node

instance : Fitting π Callback := ⟨fun P callback => Fits P callback.node ∧ Fits P callback.body⟩

variable [Hereditary P] {n m : Node} {key : String} {callback : Callback}

variable (h : Fits P n)

include h

theorem fits_child (hm : n.child? key = some m) : Fits P m := Hereditary.child h hm

grind_pattern fits_child => Fits P n, n.child? key, some m

@[grind ←]
theorem fits_child? : Fits P (n.child? key) := fun _ hm => fits_child h hm

@[grind ←]
theorem fits_children : Fits P (n.children key) := fun _ hm => Hereditary.item h hm

@[grind ←]
theorem fits_childrenWithHoles : Fits P (n.childrenWithHoles key) := by
  intro hole hhole m hm
  subst hm
  obtain ⟨item, hitem, hm⟩ := mem_map.1 hhole
  exact Hereditary.item h (mem_filterMap.2 ⟨item, hitem, hm⟩)

theorem fits_wrapped? : Fits P n.wrapped? := by
  unfold Node.wrapped?
  split
  · simp
  · split <;> first | exact fits_child? h | simp

theorem fits_unwrapped : Fits P n.unwrapped := by
  fun_induction Node.unwrapped n with
  | case1 n inner hinner ih => exact ih (fits_wrapped? h inner hinner)
  | case2 => exact h

grind_pattern fits_unwrapped => Fits P n, n.unwrapped

omit h

@[grind ←]
theorem fits_map_unwrapped {o : Option Node} (h : Fits P o) : Fits P (o.map Node.unwrapped) := by
  intro m hm
  obtain ⟨inner, hinner, rfl⟩ := Option.map_eq_some_iff.1 hm
  exact fits_unwrapped (h inner hinner)

theorem fits_of_map_unwrapped (h : Fits P n) (hm : (n.child? key).map Node.unwrapped = some m) :
    Fits P m := fits_map_unwrapped (fits_child? h) m hm

grind_pattern fits_of_map_unwrapped => Fits P n, (n.child? key).map Node.unwrapped, some m

@[grind ←]
theorem fits_asStatements (h : Fits P n) : Fits P n.asStatements := by
  unfold Node.asStatements
  split
  · exact fits_children h
  · simpa using h

theorem fits_propertyBinding? {property : Node} {name : String} {default : Option Node}
    (h : Fits P property) (hbinding : property.propertyBinding? key = some (name, default)) :
    Fits P default := by
  unfold Node.propertyBinding? at hbinding
  split at hbinding
  · cases hbinding
    exact fits_none.2 trivial
  · rename_i target htarget
    split at hbinding <;> obtain ⟨_, -, heq⟩ := Option.map_eq_some_iff.1 hbinding <;> cases heq
    · exact fits_child? (fits_child h htarget)
    · exact fits_none.2 trivial

theorem fits_ofNode? (h : Fits P n) : Fits P (Callback.ofNode? n) := by
  intro callback hcallback
  unfold Callback.ofNode? at hcallback
  dsimp only at hcallback
  split at hcallback
  · obtain ⟨body, hbody, rfl⟩ := Option.map_eq_some_iff.1 hcallback
    refine ⟨fits_unwrapped h, ?_⟩
    split <;> exact fits_child (fits_unwrapped h) hbody
  · cases hcallback

@[grind ←]
theorem fits_blockStatements (h : Fits P callback) : Fits P callback.blockStatements := by
  obtain ⟨node, body⟩ := callback
  cases body with
  | expr => exact fits_nil.2 trivial
  | block block => exact fits_children h.2

theorem fits_resultExpr? (h : Fits P callback) : Fits P callback.resultExpr? := by
  have hstmts := fits_blockStatements h
  unfold Callback.resultExpr?
  split
  · rename_i result hbody
    have hresult := h.2
    rw [hbody] at hresult
    exact (fits_some result).2 hresult
  · split
    · rename_i only honly
      rw [honly, fits_cons] at hstmts
      split
      · exact fits_child? hstmts.1
      · exact fits_none.2 trivial
    · exact fits_none.2 trivial

grind_pattern fits_resultExpr? => Fits P callback, callback.resultExpr?

end Nodes

end Fitting

end Scriptgen
