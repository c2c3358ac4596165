import Mathlib.Data.List.Forall2
import Scriptgen.Perl.Generate
import Scriptgen.Ruby.Generate
/-!
# Running a lowering

Both targets are lowered to in steps that read the level below and a context, and change a state. An
attempt is a step that may find that it does not apply. These equations run steps and attempts one
operation at a time. `Ensures` says what a step keeps and gives.
-/

namespace Scriptgen

/-- The names that generated code makes up. -/
def IsTemporary (name : String) : Prop := ['_', '_'] <+: name.toList

instance : DecidablePred IsTemporary := fun name =>
  inferInstanceAs (Decidable (['_', '_'] <+: name.toList))

theorem isTemporary_fresh (supply : NameSupply) (stem : String) :
    IsTemporary (supply.fresh stem).1 := by
  simp only [NameSupply.fresh, IsTemporary, String.toList_append]
  exact ⟨_, by rw [List.append_assoc, List.append_assoc]; rfl⟩

theorem fresh_ne {supply supply' : NameSupply} {a b : Char} {stem stem' : List Char} (h : a ≠ b) :
    (supply.fresh (String.ofList (a :: stem))).1 ≠ (supply'.fresh (String.ofList (b :: stem'))).1 := by
  intro heq
  have hchars := congrArg (fun name => name.toList[2]?) heq
  simp only [NameSupply.fresh, String.toList_append, String.toList_ofList] at hchars
  exact h (Option.some.inj hchars)

/-! Where lowering starts in an empty program. -/

abbrev Perl.Context.initial : Context := .top .defaults

abbrev Perl.State.initial : State := .start .defaults [] []

abbrev Ruby.Context.initial : Context := .top .defaults ⟨[], [], []⟩ []

abbrev Ruby.State.initial : State := .start .defaults [] []

theorem Node.exists_lower {node : Node} {height : Nat} (h : node.height ≤ height) :
    ∃ lower, height = lower + 1 := by
  have := node.height_eq
  exact ⟨height - 1, by omega⟩

/-- The parts of a node are lowered at the level below. -/
theorem Node.height_le_lower {node child : Node} {name : String} {lower : Nat}
    (h : node.unwrapped.child? name = some child) (hh : node.height ≤ lower + 1) :
    child.height ≤ lower := by
  have := height_of_child? h
  have := node.height_unwrapped_le
  omega

end Scriptgen

namespace Scriptgen.Lowering

/-- Steps that read a level and a context and change a state. -/
abbrev Steps (B C S : Type) := ReaderT B (ReaderT C (StateM S))

variable {B C S α β : Type}

theorem run_bind (x : Steps B C S α) (f : α → Steps B C S β) (b : B) (c : C) (s : S) :
    (x >>= f) b c s = f (x b c s).1 b c (x b c s).2 := rfl

theorem step_bind (x : ReaderT C (StateM S) α) (f : α → ReaderT C (StateM S) β) (c : C) (s : S) :
    (x >>= f) c s = f (x c s).1 c (x c s).2 := rfl

theorem run_pure (a : α) (b : B) (c : C) (s : S) :
    (pure a : Steps B C S α) b c s = (a, s) := rfl

theorem run_get (b : B) (c : C) (s : S) :
    (get : Steps B C S S) b c s = (s, s) := rfl

/-! ## Attempts -/

theorem attempt_pure (a : α) (b : B) (c : C) (s : S) :
    (pure a : OptionT (Steps B C S) α).run b c s = (some a, s) := rfl

theorem attempt_lift (x : Steps B C S α) (b : B) (c : C) (s : S) :
    (liftM x : OptionT (Steps B C S) α).run b c s = (some (x b c s).1, (x b c s).2) := rfl

theorem attempt_get (b : B) (c : C) (s : S) :
    (get : OptionT (Steps B C S) S).run b c s = (some s, s) := rfl

theorem attempt_given (a : α) (f : α → OptionT (Steps B C S) β) :
    OptionT.mk (pure (some a)) >>= f = f a := rfl

/-- An attempt goes on with its first part's result, and ends where that part does not apply. -/
theorem attempt_bind (x : OptionT (Steps B C S) α) (f : α → OptionT (Steps B C S) β) (b : B) (c : C)
    (s : S) :
    (x >>= f).run b c s =
      match x.run b c s with
      | (some a, s') => (f a).run b c s'
      | (none, s') => (none, s') := by
  rw [OptionT.run_bind, Option.elimM, run_bind]
  rcases x.run b c s with ⟨_ | a, s'⟩ <;> rfl

/-- The second attempt is made if the first does not apply, in the state that it leaves. -/
theorem attempt_orElse (x y : OptionT (Steps B C S) α) (b : B) (c : C) (s : S) :
    (x <|> y).run b c s =
      match x.run b c s with
      | (some a, s') => (some a, s')
      | (none, s') => y.run b c s' := by
  rw [OptionT.run_orElse, Option.elimM, run_bind]
  rcases x.run b c s with ⟨_ | a, s'⟩ <;> rfl

/-! ## What a step ensures -/

variable (I : S → Prop) (b : B) (c : C)

/-- **A step keeps a property of the state**, and its result has another. -/
def Ensures (x : Steps B C S α) (Q : α → Prop) : Prop :=
  ∀ s, I s → I (x b c s).2 ∧ Q (x b c s).1

variable {I b c} {l : List α}

namespace Ensures

variable {x : Steps B C S α} {f : α → Steps B C S β}
variable {P : α → Prop} {Q : β → Prop} {a : α}

theorem pure (h : P a) : Ensures I b c (pure a) P := fun _ hs => ⟨hs, h⟩

theorem bind (hx : Ensures I b c x P) (hf : ∀ a, P a → Ensures I b c (f a) Q) :
    Ensures I b c (x >>= f) Q := fun s hs =>
  have ⟨hs', ha⟩ := hx s hs
  hf _ ha _ hs'

theorem modify {g : S → S} (h : ∀ s, I s → I (g s)) :
    Ensures I b c (modify g : Steps B C S PUnit) fun _ => True :=
  fun s hs => ⟨h s hs, trivial⟩

/-- What holds of each step holds of the steps one after the other. -/
theorem mapM {R : α → β → Prop} (h : ∀ a ∈ l, Ensures I b c (f a) (R a)) :
    Ensures I b c (l.mapM f) (List.Forall₂ R l) := by
  induction l with
  | nil => exact pure .nil
  | cons a l ih =>
    rw [List.mapM_cons]
    refine bind (h a List.mem_cons_self) fun y hy => ?_
    exact bind (ih fun a ha => h a (List.mem_cons_of_mem _ ha)) fun ys hys => pure (.cons hy hys)

end Ensures

/-! ## Attempts that are steps -/

/-- **An attempt applies and does what a step does.** -/
def Takes (b : B) (c : C) (s : S) (x : OptionT (Steps B C S) α) (step : Steps B C S α) :
    Prop :=
  x.run b c s = (some (step b c s).1, (step b c s).2)

/-- An attempt does not apply, and has done nothing. -/
def Passes (b : B) (c : C) (s : S) (x : OptionT (Steps B C S) α) : Prop :=
  x.run b c s = (none, s)

variable {ask : Steps B C S β}

/-- An attempt that only looks at the state does not apply. -/
theorem Passes.look {a : β} {s : S} {f : β → OptionT (Steps B C S) α} (hask : ask b c s = (a, s))
    (hf : Passes b c s (f a)) : Passes b c s (liftM ask >>= f) := by
  rw [Passes, attempt_bind, attempt_lift, hask]
  exact hf

namespace Takes

variable {x y : OptionT (Steps B C S) α} {s : S} {step : Steps B C S α}

theorem pure (a : α) : Takes b c s (pure a) (Pure.pure a) := rfl

theorem lift : Takes b c s (liftM step) step := rfl

theorem bind {f : α → OptionT (Steps B C S) β} {g : α → Steps B C S β} (hx : Takes b c s x step)
    (hf : ∀ a s', Takes b c s' (f a) (g a)) : Takes b c s (x >>= f) (step >>= g) := by
  rw [Takes, attempt_bind, hx]
  exact hf _ _

variable {f : β → OptionT (Steps B C S) α}

theorem need {v : Option β} {a : β} (hv : v = some a) (hf : Takes b c s (f a) step) :
    Takes b c s (OptionT.mk (Pure.pure v) >>= f) step := by
  subst hv
  exact hf

/-- A step that only looks at the state gives what it sees. -/
theorem look {a : β} (hask : ask b c s = (a, s))
    (hf : Takes b c s (f a) step) : Takes b c s (liftM ask >>= f) step := by
  rw [Takes, attempt_bind, attempt_lift, hask]
  exact hf

theorem orElse (hx : Takes b c s x step) : Takes b c s (x <|> y) step := by
  rw [Takes, attempt_orElse, hx]

theorem after (hx : Passes b c s x) (hy : Takes b c s y step) : Takes b c s (x <|> y) step := by
  rw [Takes, attempt_orElse, hx]
  exact hy

end Takes

/-! ## Orderly steps -/

/-- Which changes of the state are allowed, and what is then known of the level below. -/
structure Order (B S : Type) where
  below : B → Prop
  changes : S → S → Prop
  refl : ∀ s, changes s s
  trans : ∀ {s t u}, changes s t → changes t u → changes s u

variable {o : Order B S}

variable (o) in
/-- **A step makes only allowed changes** if the level below does, in every context. -/
def OrderlyStep (x : Steps B C S α) : Prop :=
  ∀ b, o.below b → ∀ c s, o.changes s (x b c s).2

namespace OrderlyStep

variable {x : Steps B C S α} {k : α → Steps B C S β}

@[grind ←]
theorem pure (a : α) : OrderlyStep o (pure a : Steps B C S α) := fun _ _ _ s => o.refl s

@[grind ←]
theorem bind (hx : OrderlyStep o x) (hk : ∀ a, OrderlyStep o (k a)) : OrderlyStep o (x >>= k) := by
  intro b hb c s
  exact o.trans (hx b hb c s) (hk _ b hb c _)

@[grind ←]
theorem get : OrderlyStep o (get : Steps B C S S) := fun _ _ _ s => o.refl s

@[grind ←]
theorem mapM (hk : ∀ a, OrderlyStep o (k a)) : OrderlyStep o (l.mapM k) := by
  induction l with
  | nil => exact pure []
  | cons a l ih =>
    rw [List.mapM_cons]
    exact bind (hk a) fun y => bind ih fun ys => pure (y :: ys)

end OrderlyStep

/-! ## Places in a stack -/

theorem findIdx?_append_cons {p : α → Bool} {before after : List α} {e : α}
    (hbefore : ∀ x ∈ before, p x = false) (he : p e = true) :
    (before ++ e :: after).findIdx? p = some before.length := by
  induction before with
  | nil => simp [List.findIdx?_cons, he]
  | cons x before ih =>
    have hx := hbefore x List.mem_cons_self
    rw [List.cons_append, List.findIdx?_cons, hx,
      ih fun y hy => hbefore y (List.mem_cons_of_mem _ hy)]
    rfl

theorem modify_append_cons (g : α → α) (before after : List α) (e : α) :
    (before ++ e :: after).modify before.length g = before ++ g e :: after := by
  induction before with
  | nil => rfl
  | cons x before ih =>
    rw [List.cons_append, List.length_cons, List.modify_succ_cons, ih]
    rfl

end Scriptgen.Lowering

namespace Scriptgen.Perl

open Lowering

/-- Statements with the remarks of the node that they come from. -/
def remarked (node : Node) (stmts : List Stmt) : List Stmt :=
  stmts.modifyHead fun first =>
    if first.remarks = .none then { first with remarks := .ofNode node } else first

theorem stmt_run (node : Node) (b : Below) (c : Context) (s : State) :
    stmt node b c s = (remarked node (b.stmt none node c s).1, (b.stmt none node c s).2) := by
  unfold stmt
  rw [step_bind]
  cases (b.stmt none node c s).1 <;> rfl

end Scriptgen.Perl

namespace Scriptgen.Ruby

open Lowering

def remarked (node : Node) (stmts : List Stmt) : List Stmt :=
  stmts.modifyHead fun first =>
    if first.remarks = .none then { first with remarks := .ofNode node } else first

theorem stmt_run (node : Node) (b : Below) (c : Context) (s : State) :
    stmt node b c s = (remarked node (b.stmt none node c s).1, (b.stmt none node c s).2) := by
  unfold stmt
  rw [step_bind]
  cases (b.stmt none node c s).1 <;> rfl

end Scriptgen.Ruby
