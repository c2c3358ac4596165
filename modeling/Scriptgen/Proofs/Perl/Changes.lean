import Scriptgen.Proofs.Lowering
import Scriptgen.Proofs.Scopes
/-!
# What lowering to Perl does to its state

`Changes` lists the ways in which lowering changes its state, some of them around other changes.
That no step makes other changes is shown in `Scriptgen.Proofs.Perl.Orderly`. What follows for each
part of the state is read off the list (`Changes.place`, `Changes.grows`, `Changes.labels`,
`Changes.pendingFields`). Warnings, imports and used names are only added to.
-/

namespace Scriptgen.Perl

open Lowering

/-- A place at a later point: only the names of the functions around it may be others. -/
structure Place.Kept (before after : Place) : Prop where
  invocant : after.invocant = before.invocant
  enclosingClass : after.enclosingClass = before.enclosingClass
  hoisted : after.hoisted.length = before.hoisted.length
  catchVars : after.catchVars = before.catchVars
  functionDepth : after.functionDepth = before.functionDepth
  inConstructor : after.inConstructor = before.inConstructor
  inLoopCallback : after.inLoopCallback = before.inLoopCallback

/-- **What lowering does to its state.** -/
inductive Changes : State → State → Prop
  | refl (s : State) : Changes s s
  | trans {s t u : State} : Changes s t → Changes t u → Changes s u
  | warn (s : State) (warning : Warning) :
      Changes s { s with warnings := s.warnings.note warning }
  | require (s : State) (module : String) :
      Changes s { s with imports := s.imports.require module }
  | useSymbol (s : State) (module symbol : String) :
      Changes s { s with imports := s.imports.useSymbol module symbol }
  | draw (s : State) (stem : String) : Changes s { s with names := (s.names.fresh stem).2 }
  | declare (s : State) (name : String) (shape : Shape) :
      Changes s { s with scopes := s.scopes.declare name shape }
  | addFunction (s : State) (name : String) : Changes s { s with functions := name :: s.functions }
  | addClass (s : State) (name : String) : Changes s { s with classes := name :: s.classes }
  | takeFields (s : State) : Changes s { s with pendingFields := none }
  | useNativeTry (s : State) : Changes s { s with nativeTry := true }
  /-- A loop gets a label. -/
  | label {s : State} {skipped : Nat} {frame : Frame} (label : String) :
      s.frames[skipped]? = some frame → frame.kind ≠ .switch → frame.label = none →
      Changes s { s with
        frames := s.frames.modify skipped fun frame => { frame with label := some label } }
  | inScope {s t : State} :
      Changes { s with scopes := s.scopes.push } t → Changes s { t with scopes := t.scopes.pop }
  | inFrame {s t : State} {frame : Frame} :
      Changes { s with frames := frame :: s.frames } t →
      Changes s { t with frames := t.frames.tail }
  /-- Fields wait for the object, and those that still do are taken at the end. -/
  | withFields {s t : State} (fields : List Stmt) :
      Changes { s with pendingFields := some fields } t →
      Changes s { t with pendingFields := none }
  | isolated {s t : State} :
      Changes { s with frames := [], pendingFields := none } t →
      Changes s { t with frames := s.frames, pendingFields := s.pendingFields }
  /-- A place is entered and left. -/
  | atPlace {s t : State} {inner outer : Place} :
      Changes { s with place := inner } t → (inner.Kept t.place → s.place.Kept outer) →
      Changes s { t with place := outer }

/-! ## Places -/

theorem Place.Kept.refl (place : Place) : place.Kept place := ⟨rfl, rfl, rfl, rfl, rfl, rfl, rfl⟩

theorem Place.Kept.trans {p q r : Place} (h : p.Kept q) (h' : q.Kept r) : p.Kept r :=
  ⟨h'.1.trans h.1, h'.2.trans h.2, h'.3.trans h.3, h'.4.trans h.4, h'.5.trans h.5, h'.6.trans h.6,
    h'.7.trans h.7⟩

/-- **Every place that is entered is left again.** -/
theorem Changes.place {s s' : State} (h : Changes s s') : s.place.Kept s'.place := by
  induction h with
  | trans _ _ ih ih' => exact ih.trans ih'
  | inScope _ ih | inFrame _ ih | withFields _ _ ih | isolated _ ih => exact ih
  | atPlace _ hkept ih => exact hkept ih
  | _ => exact .refl _

/-! ## Constructs around a place -/

/-- A construct at a later point: one that is no switch may have got a label. -/
def Labels (f g : Frame) : Prop :=
  f.kind = g.kind ∧ (f.label = g.label ∨ f.kind ≠ .switch ∧ f.label = none)

theorem Labels.refl (f : Frame) : Labels f f := ⟨rfl, .inl rfl⟩

theorem Labels.trans {f g h : Frame} (hfg : Labels f g) (hgh : Labels g h) : Labels f h := by
  refine ⟨hfg.1.trans hgh.1, ?_⟩
  rcases hfg.2 with heq | hnone
  · exact hgh.2.imp heq.trans fun hg => ⟨hfg.1 ▸ hg.1, heq.trans hg.2⟩
  · exact .inr hnone

theorem forall₂_labels_refl (F : List Frame) : List.Forall₂ Labels F F :=
  List.forall₂_same.2 fun f _ => .refl f

theorem forall₂_labels_trans {E F G : List Frame} (h : List.Forall₂ Labels E F)
    (h' : List.Forall₂ Labels F G) : List.Forall₂ Labels E G := by
  induction h generalizing G with
  | nil => exact h'
  | cons hfg _ ih =>
    cases h' with
    | cons hgh hrest => exact .cons (hfg.trans hgh) (ih hrest)

theorem forall₂_labels_modify {F : List Frame} {skipped : Nat} {frame : Frame} (label : String)
    (hframe : F[skipped]? = some frame) (hkind : frame.kind ≠ .switch)
    (hlabel : frame.label = none) :
    List.Forall₂ Labels F (F.modify skipped fun frame => { frame with label := some label }) := by
  induction F generalizing skipped with
  | nil => cases hframe
  | cons f F ih =>
    cases skipped with
    | zero =>
      cases hframe
      exact .cons ⟨rfl, .inr ⟨hkind, hlabel⟩⟩ (forall₂_labels_refl F)
    | succ skipped => exact .cons (.refl f) (ih hframe)

/-- **The constructs around a place stay**, and only what is no switch may get a label. -/
theorem Changes.labels {s s' : State} (h : Changes s s') :
    List.Forall₂ Labels s.frames s'.frames := by
  induction h with
  | trans _ _ ih ih' => exact forall₂_labels_trans ih ih'
  | label name hframe hkind hlabel => exact forall₂_labels_modify name hframe hkind hlabel
  | inScope _ ih | withFields _ _ ih | atPlace _ _ ih => exact ih
  | @inFrame s t frame _ ih =>
    change List.Forall₂ Labels s.frames t.frames.tail
    cases hframes : t.frames with
    | nil =>
      rw [hframes] at ih
      cases ih
    | cons g outer =>
      rw [hframes] at ih
      cases ih with
      | cons _ hrest => exact hrest
  | _ => exact forall₂_labels_refl _

/-! ## Scopes -/

/-- **Only the innermost scope changes**, by new names. -/
theorem Changes.grows {s s' : State} (h : Changes s s') : s.scopes.Grows s'.scopes := by
  induction h with
  | trans _ _ ih ih' => exact ih.trans ih'
  | declare s name shape => exact .declare s.scopes name shape
  | @inScope s t _ ih =>
    change s.scopes.Grows t.scopes.pop
    rw [ih.pop]
    exact .refl _
  | inFrame _ ih | withFields _ _ ih | isolated _ ih | atPlace _ _ ih => exact ih
  | _ => exact .refl _

/-! ## What is added to -/

end Scriptgen.Perl

namespace Scriptgen

theorem subset_insertSorted (text : String) (l : List String) : l ⊆ insertSorted text l := by
  fun_induction insertSorted text l with
  | case1 => exact List.nil_subset _
  | case2 => exact List.subset_cons_self _ _
  | case3 => exact List.Subset.refl _
  | case4 first rest _ _ ih => exact List.cons_subset_cons first ih

namespace Imports

/-- Imports at a later point: what is asked for stays asked for. -/
def Grows (before after : Imports) : Prop :=
  ∀ module symbols, (module, symbols) ∈ before.entries →
    ∃ more, (module, more) ∈ after.entries ∧ symbols ⊆ more

theorem Grows.refl (imports : Imports) : Grows imports imports :=
  fun _ symbols h => ⟨symbols, h, List.Subset.refl _⟩

theorem Grows.trans {i j k : Imports} (h : Grows i j) (h' : Grows j k) : Grows i k := by
  intro module symbols hentry
  obtain ⟨more, hmore, hsub⟩ := h module symbols hentry
  obtain ⟨most, hmost, hsub'⟩ := h' module more hmore
  exact ⟨most, hmost, List.Subset.trans hsub hsub'⟩

/-- A change that only adds symbols. -/
theorem grows_alter {f : List String → List String} (hf : ∀ l, l ⊆ f l) (module : String)
    (entries : List (String × List String)) : Grows ⟨entries⟩ ⟨alter f module entries⟩ := by
  intro name symbols hentry
  change (name, symbols) ∈ entries at hentry
  change ∃ more, (name, more) ∈ alter f module entries ∧ symbols ⊆ more
  fun_induction alter f module entries with
  | case1 => cases hentry
  | case2 => exact ⟨symbols, List.mem_cons_of_mem _ hentry, List.Subset.refl _⟩
  | case3 first found rest _ _ =>
    rcases List.mem_cons.1 hentry with heq | hrest
    · cases heq
      exact ⟨f symbols, List.mem_cons_self, hf symbols⟩
    · exact ⟨symbols, List.mem_cons_of_mem _ hrest, List.Subset.refl _⟩
  | case4 first found rest _ _ ih =>
    rcases List.mem_cons.1 hentry with heq | hrest
    · cases heq
      exact ⟨symbols, List.mem_cons_self, List.Subset.refl _⟩
    · obtain ⟨more, hmore, hsub⟩ := ih hrest
      exact ⟨more, List.mem_cons_of_mem _ hmore, hsub⟩

end Imports

/-- A log at a later point: warnings may have been added to it. -/
def WarningLog.Grows (before after : WarningLog) : Prop :=
  after.strict = before.strict ∧ before.entries <+: after.entries

namespace WarningLog.Grows

theorem refl (log : WarningLog) : Grows log log := ⟨rfl, List.prefix_rfl⟩

theorem trans {i j k : WarningLog} (h : Grows i j) (h' : Grows j k) : Grows i k :=
  ⟨h'.1.trans h.1, h.2.trans h'.2⟩

theorem note (log : WarningLog) (warning : Warning) : Grows log (log.note warning) := by
  unfold WarningLog.note
  split
  · exact ⟨rfl, List.prefix_append _ _⟩
  · exact refl log

end WarningLog.Grows

end Scriptgen

namespace Scriptgen.Perl

variable {s s' : State}

variable (h : Changes s s')

include h

theorem Changes.imports : s.imports.Grows s'.imports := by
  induction h with
  | trans _ _ ih ih' => exact ih.trans ih'
  | require s module => exact Imports.grows_alter (fun l => List.Subset.refl l) module _
  | useSymbol s module symbol => exact Imports.grows_alter (subset_insertSorted symbol) module _
  | inScope _ ih | inFrame _ ih | withFields _ _ ih | isolated _ ih | atPlace _ _ ih => exact ih
  | _ => exact .refl _

theorem Changes.warnings : s.warnings.Grows s'.warnings := by
  induction h with
  | trans _ _ ih ih' => exact ih.trans ih'
  | warn s warning => exact .note _ _
  | inScope _ ih | inFrame _ ih | withFields _ _ ih | isolated _ ih | atPlace _ _ ih => exact ih
  | _ => exact .refl _

theorem Changes.names : s.names.used ≤ s'.names.used := by
  induction h with
  | trans _ _ ih ih' => exact Nat.le_trans ih ih'
  | draw s stem => exact Nat.le_succ _
  | inScope _ ih | inFrame _ ih | withFields _ _ ih | isolated _ ih | atPlace _ _ ih => exact ih
  | _ => exact Nat.le_refl _

/-- **Fields that wait are taken or left waiting.** -/
theorem Changes.pendingFields : s'.pendingFields = s.pendingFields ∨ s'.pendingFields = none := by
  induction h with
  | trans _ _ ih ih' =>
    rcases ih' with hsame | hnone
    · rw [hsame]
      exact ih
    · exact .inr hnone
  | takeFields | withFields => exact .inr rfl
  | inScope _ ih | inFrame _ ih | atPlace _ _ ih => exact ih
  | _ => exact .inl rfl

end Scriptgen.Perl
