import Scriptgen.Proofs.Bindings
import Scriptgen.Proofs.Fitting
import Scriptgen.Proofs.Lowering
import Scriptgen.Proofs.Ruby.Changes
/-!
# Places of a Ruby program

A place says which nodes may be lowered there, and of which variables something may be learned.

`Yields` says what a step of the lowering does at a place: it makes only changes that `Changes`
lists, does not look at the warnings, and what it gives fits the place. `Tries` says it of an
attempt. The rules are tagged, so that `grind` follows the text of a lowering.
-/

namespace Scriptgen.Ruby

open Lowering Fitting List

variable {α β : Type}

/-- What may be done at a place. -/
structure Place where
  node : Node → Prop
  /-- The variables and attributes of which something may be learned. -/
  learns : String → Prop
  child : ∀ {n m key}, node n → n.child? key = some m → node m
  item : ∀ {n m key}, node n → m ∈ n.children key → node m
  set : ∀ {n key}, node n → key ∈ n.setKeys → learns key

instance : Fitting Place Node := ⟨Place.node⟩

def State.muted (s : State) : State := { s with warnings := .empty false }

/-- What a step does at a place, from a state. Without the warnings it does the same. -/
structure Regular [Fitting Place α] (P : Place) (x : Step α) (c : Context) (s : State) : Prop where
  changes : Changes P.learns s (x c s).2
  muted : x c s.muted = (x c s).map id State.muted
  fits : Fits P (x c s).1

structure Sound (P : Place) (b : Below) : Prop where
  expr : ∀ {n} c s, P.node n → Regular P (b.expr n) c s
  test : ∀ {n} c s, P.node n → Regular P (b.test n) c s
  stmt : ∀ {n} label c s, P.node n → Regular P (b.stmt label n) c s
  exprStmt : ∀ {n} c s, P.node n → Regular P (b.exprStmt n) c s
  lambda : ∀ {n} c s, P.node n → Regular P (b.lambda n) c s

/-- **What a step does at a place**, if the level below does the same. -/
def Yields [Fitting Place α] (P : Place) (x : Lower α) : Prop :=
  ∀ b, Sound P b → ∀ c s, Regular P (x b) c s

/-- What an attempt does at a place. -/
def Tries [Fitting Place α] (P : Place) (x : Attempt α) : Prop := Yields P x.run

variable {P : Place}

/-! ## Nodes -/

section Nodes

variable {n : Node} {name : String}

instance : Hereditary P := ⟨P.child, P.item⟩

theorem learns_of_bound (h : Fits P n) (hname : name ∈ n.boundNames) : P.learns name :=
  P.set h (mem_append_left _ (mem_append_left _ hname))

end Nodes

/-! ## Steps -/

variable [Fitting Place α] [Fitting Place β]

theorem Regular.bind {x : Lower α} {k : α → Lower β} {b : Below} {c : Context} {s : State}
    (hx : Regular P (x b) c s) (hk : Regular P (k (x b c s).1 b) c (x b c s).2) :
    Regular P ((x >>= k) b) c s := by
  refine ⟨hx.changes.trans hk.changes, ?_, hk.fits⟩
  calc (x >>= k) b c s.muted = k (x b c s.muted).1 b c (x b c s.muted).2 := rfl
    _ = k (x b c s).1 b c (x b c s).2.muted := by rw [hx.muted]; rfl
    _ = ((x >>= k) b c s).map id State.muted := hk.muted

theorem Regular.getBind {k : State → Lower α} {b : Below} {c : Context} {s : State}
    (h : Regular P (k s b) c s) (hblind : k s.muted = k s) : Regular P ((get >>= k) b) c s := by
  refine ⟨h.changes, ?_, h.fits⟩
  calc (get >>= k) b c s.muted = k s.muted b c s.muted := rfl
    _ = k s b c s.muted := by rw [hblind]
    _ = ((get >>= k) b c s).map id State.muted := h.muted

variable {l : List α} {a : Option α}

namespace Yields

variable {x : Lower α} {k : α → Lower β}

@[grind ←]
theorem pure {a : α} (h : Fits P a) : Yields P (pure a : Lower α) := fun _ _ _ s => ⟨.refl s, rfl, h⟩

@[grind ←]
theorem bind (hx : Yields P x) (hk : ∀ a, Fits P a → Yields P (k a)) : Yields P (x >>= k) :=
  fun b hb c s => (hx b hb c s).bind (hk _ (hx b hb c s).fits b hb c _)

omit [Fitting Place α] in
theorem mapM_of_mem (hk : ∀ a ∈ l, Yields P (k a)) : Yields P (l.mapM k) := by
  induction l with
  | nil => exact pure (fits_nil.2 trivial)
  | cons a l ih =>
    rw [mapM_cons]
    refine bind (hk a mem_cons_self) fun y hy => ?_
    refine bind (ih fun a ha => hk a (mem_cons_of_mem _ ha)) fun ys hys => pure ?_
    exact (fits_cons y ys).2 ⟨hy, hys⟩

@[grind ←]
theorem mapM (hl : Fits P l) (hk : ∀ a, Fits P a → Yields P (k a)) :
    Yields P (l.mapM k) := mapM_of_mem fun a ha => hk a (hl a ha)

@[grind ←]
theorem optionMapM (ha : Fits P a) (hk : ∀ a, Fits P a → Yields P (k a)) : Yields P (a.mapM k) := by
  cases a with
  | none => exact pure (fits_none.2 trivial)
  | some a => exact bind (hk a (ha a rfl)) fun y hy => pure (a := some y) ((fits_some y).2 hy)

omit [Fitting Place α] in
theorem forM {k : α → Lower PUnit} (hk : ∀ a ∈ l, Yields P (k a)) : Yields P (l.forM k) := by
  induction l with
  | nil => exact pure trivial
  | cons a l ih =>
    exact bind (hk a mem_cons_self) fun _ _ => ih fun a ha => hk a (mem_cons_of_mem _ ha)

@[grind ←]
theorem orUse {attempt : Attempt α} (hattempt : Tries P attempt) (hx : Yields P x) :
    Yields P (orUse attempt x) := by
  refine bind hattempt fun result hresult => ?_
  cases result with
  | some a => exact pure (hresult a rfl)
  | none => exact hx

@[grind ←]
theorem context : Yields P (readThe Context : Lower Context) := fun _ _ _ s => ⟨.refl s, rfl, trivial⟩

@[grind ←]
theorem getBind {k : State → Lower α} (hk : ∀ s, Yields P (k s))
    (hblind : ∀ s log, k { s with warnings := log } = k s) : Yields P (get >>= k) :=
  fun b hb c s => .getBind (hk s b hb c s) (hblind s _)

@[grind ←]
theorem within (change : Context → Context) (hx : Yields P x) : Yields P (within change x) :=
  fun b hb c s =>
    have h := hx b hb (change c) s
    ⟨h.changes, h.muted, h.fits⟩

@[grind ←]
theorem inScope (hx : Yields P x) : Yields P (inScope x) := fun b hb c s =>
  have h := hx b hb c { s with scopes := s.scopes.push }
  ⟨.inScope h.changes, congrArg (fun r : α × State =>
    (r.1, ({ r.2 with scopes := r.2.scopes.pop } : State))) h.muted, h.fits⟩

@[grind ←]
theorem inFrame {frame : Frame} (hbreak : frame.breakTag = none) (hnext : frame.nextTag = none)
    (hx : Yields P x) : Yields P (inFrame frame x) := fun b hb c s =>
  have h := hx b hb c { s with frames := frame :: s.frames }
  ⟨.inFrame hbreak hnext h.changes, congrArg (fun r : α × State =>
    ((r.2.frames.headD frame, r.1), ({ r.2 with frames := r.2.frames.tail } : State))) h.muted,
    trivial, h.fits⟩

@[grind ←]
theorem isolated (hx : Yields P x) : Yields P (isolated x) := fun b hb c s =>
  have h := hx b hb c { s with frames := [], pendingFields := none }
  ⟨.isolated h.changes, congrArg (fun r : α × State => (r.1, ({ r.2 with
    frames := s.frames
    pendingFields := s.pendingFields
    known := { r.2.known with numbers := s.known.numbers, texts := s.known.texts } } : State)))
    h.muted, h.fits⟩

end Yields

/-! ## Attempts -/

namespace Tries

variable {x : Attempt α} {k : α → Attempt β}

@[grind ←]
theorem pure {a : α} (h : Fits P a) : Tries P (pure a : Attempt α) :=
  Yields.pure (a := some a) ((fits_some a).2 h)

@[grind ←]
theorem failure : Tries P (failure : Attempt α) := Yields.pure (a := none) (fits_none.2 trivial)

@[grind ←]
theorem lift {x : Lower α} (hx : Yields P x) : Tries P (liftM x : Attempt α) :=
  Yields.bind (k := fun a => Pure.pure (some a)) hx fun a ha => .pure ((fits_some a).2 ha)

@[grind ←]
theorem bind (hx : Tries P x) (hk : ∀ a, Fits P a → Tries P (k a)) : Tries P (x >>= k) := by
  rw [Tries, OptionT.run_bind]
  refine Yields.bind hx fun result hresult => ?_
  cases result with
  | none => exact failure (α := β)
  | some a => exact hk a (hresult a rfl)

@[grind ←]
theorem orElse {y : Unit → Attempt α} (hx : Tries P x) (hy : ∀ u, Tries P (y u)) :
    Tries P (HOrElse.hOrElse x y) := by
  change Tries P (x <|> y ())
  rw [Tries, OptionT.run_orElse]
  refine Yields.bind hx fun result hresult => ?_
  cases result with
  | none => exact hy ()
  | some a => exact pure (hresult a rfl)

omit [Fitting Place α] in
theorem needBind (hk : ∀ value, a = some value → Tries P (k value)) : Tries P (need a >>= k) := by
  cases a with
  | none => exact failure (α := β)
  | some a => exact hk a rfl

@[grind ←]
theorem mapM (hl : Fits P l) (hk : ∀ a, Fits P a → Tries P (k a)) : Tries P (l.mapM k) := by
  induction l with
  | nil => exact pure (fits_nil.2 trivial)
  | cons a l ih =>
    rw [fits_cons] at hl
    rw [mapM_cons]
    refine bind (hk a hl.1) fun y hy => bind (ih hl.2) fun ys hys => pure ?_
    exact (fits_cons y ys).2 ⟨hy, hys⟩

@[grind ←]
theorem context : Tries P (readThe Context : Attempt Context) := .lift .context

@[grind ←]
theorem getBind {k : State → Attempt α} (hk : ∀ s, Tries P (k s))
    (hblind : ∀ s log, k { s with warnings := log } = k s) :
    Tries P ((get : Attempt State) >>= k) :=
  Yields.getBind (k := fun s => (k s).run) hk fun s log => congrArg OptionT.run (hblind s log)

@[grind ←]
theorem need (h : Fits P a) : Tries P (need a) := Yields.pure h

end Tries

/-! ## Steps that change the state -/

section State

variable {key : String}

@[grind ←]
theorem yields_warn (warning) : Yields P (warn warning) :=
  fun _ _ _ s => ⟨.warn s warning, rfl, trivial⟩

@[grind ←]
theorem yields_warnLossy (note) : Yields P (warnLossy note) := yields_warn _

@[grind ←]
theorem tries_unsupported (node) : Tries P (unsupported node : Attempt α) :=
  .bind (.lift (yields_warn _)) fun _ _ => .failure

@[grind ←]
theorem yields_requireLibrary (library) : Yields P (requireLibrary library) :=
  fun _ _ _ s => ⟨.require s library, rfl, trivial⟩

@[grind ←]
theorem yields_fresh (stem) : Yields P (fresh stem) := fun _ _ _ s => ⟨.draw s stem, rfl, trivial⟩

@[grind ←]
theorem yields_takePendingFields : Yields P takePendingFields :=
  fun _ _ _ s => ⟨.setFields s none, rfl, fun _ _ _ _ => trivial⟩

theorem yields_setPendingFields (inits) :
    Yields P (modify fun s => { s with pendingFields := some inits } : Lower Unit) :=
  fun _ _ _ s => ⟨.setFields s inits, rfl, trivial⟩

theorem yields_addFunction (name) :
    Yields P (modify fun s => { s with functions := name :: s.functions } : Lower Unit) :=
  fun _ _ _ s => ⟨.addFunction s name, rfl, trivial⟩

@[grind ←]
theorem yields_addClass (name) : Yields P (addClass name) :=
  fun _ _ _ s => ⟨.addClass s name, rfl, trivial⟩

@[grind ←]
theorem yields_moveClassToTop (cls) : Yields P (moveClassToTop cls) :=
  fun _ _ _ s => ⟨.moveClass s cls, rfl, trivial⟩

@[grind ←]
theorem yields_declare (name shape) : Yields P (declare name shape) :=
  fun _ _ _ s => ⟨.declare s name shape, rfl, trivial⟩

theorem yields_forget (h : P.learns key) :
    Yields P (modify fun s => { s with known := s.known.forget key } : Lower Unit) := fun _ _ _ s =>
  ⟨.know s fun _ hother => lookup_forget s.known fun heq => hother (heq ▸ h), rfl, trivial⟩

@[grind ←]
theorem yields_learn (value) (h : P.learns key) : Yields P (learn key value) := by
  cases value with
  | none => exact .pure trivial
  | some value => exact fun _ _ _ s =>
      ⟨.know s fun _ hother => lookup_learn s.known value fun heq => hother (heq ▸ h), rfl, trivial⟩

theorem yields_addNumber (name) :
    Yields P (modify fun s => { s with known := s.known.addNumber name } : Lower Unit) :=
  fun _ _ _ s => ⟨.know s fun _ _ => rfl, rfl, trivial⟩

end State

/-! ## The level below -/

section Below

variable {node : Node}

@[grind ←]
theorem yields_expr? (h : Fits P node) : Yields P (expr? node) := fun _ hb c s => hb.expr c s h

@[grind ←]
theorem tries_expr (h : Fits P node) : Tries P (expr node) := yields_expr? h

@[grind ←]
theorem yields_test (h : Fits P node) : Yields P (test node) := fun _ hb c s => hb.test c s h

theorem yields_stmtBelow (label) (h : Fits P node) : Yields P fun below => below.stmt label node :=
  fun _ hb c s => hb.stmt label c s h

@[grind ←]
theorem yields_exprStmt (h : Fits P node) : Yields P (exprStmt node) :=
  fun _ hb c s => hb.exprStmt c s h

@[grind ←]
theorem yields_lambda (h : Fits P node) : Yields P (lambda node) := fun _ hb c s => hb.lambda c s h

@[grind ←]
theorem yields_stmt (h : Fits P node) : Yields P (stmt node) := by
  have hrun : stmt node = (do return remarked node (← fun below => below.stmt none node)) := by
    funext b c s
    exact stmt_run node b c s
  rw [hrun]
  exact .bind (yields_stmtBelow none h) fun _ _ => .pure (fun _ _ => trivial)

end Below

/-! ## Jumps -/

section Jumps

variable {b : Below} {c : Context} {s : State} {skipped : Nat} {frame : Frame}

theorem regular_breakTag (h : s.frames[skipped]? = some frame) :
    Regular P (breakTag skipped frame b) c s := by
  rw [breakTag]
  cases htag : frame.breakTag with
  | some tag => exact ⟨.refl s, rfl, trivial⟩
  | none => exact ⟨.tagBreak _ h htag, rfl, trivial⟩

theorem regular_nextTag (h : s.frames[skipped]? = some frame) :
    Regular P (nextTag skipped frame b) c s := by
  rw [nextTag]
  cases htag : frame.nextTag with
  | some tag => exact ⟨.refl s, rfl, trivial⟩
  | none => exact ⟨.tagNext _ h htag, rfl, trivial⟩

theorem regular_pure (stmt : Stmt) : Regular P ((pure stmt : Lower Stmt) b) c s :=
  ⟨.refl s, rfl, trivial⟩

theorem regular_jump (target : Option Nat) (jump : Stmt) (k : Nat → Frame → Lower Stmt) :
    (∀ skipped frame, s.frames[skipped]? = some frame → Regular P (k skipped frame b) c s) →
    Regular P ((match target with
      | none => pure jump
      | some skipped =>
        match s.frames[skipped]? with
        | none => pure jump
        | some frame => k skipped frame : Lower Stmt) b) c s := by
  intro hk
  cases target with
  | none => exact regular_pure jump
  | some skipped =>
    cases hframe : s.frames[skipped]? with
    | none =>
      simp only [hframe]
      exact regular_pure jump
    | some frame =>
      simp only [hframe]
      exact hk skipped frame hframe

@[grind ←]
theorem yields_breakStmt (label) : Yields P (breakStmt label) := by
  intro b _ c s
  refine .getBind (regular_jump _ _ (fun skipped frame =>
    if frame.breaksNatively && !crossesBlock s.frames skipped then pure (.jump .leave)
    else do return .throwTo (← breakTag skipped frame)) fun skipped frame hframe => ?_) rfl
  split
  · exact regular_pure _
  · exact .bind (regular_breakTag hframe) (regular_pure _)

@[grind ←]
theorem yields_continueStmt (label) : Yields P (continueStmt label) := by
  intro b _ c s
  refine .getBind (regular_jump _ _ (fun skipped frame =>
    if frame.stepLoop || crossesBlock s.frames skipped then do
      return .throwTo (← nextTag skipped frame)
    else pure (.jump .next)) fun skipped frame hframe => ?_) rfl
  split
  · exact .bind (regular_nextTag hframe) (regular_pure _)
  · exact regular_pure _

@[grind ←]
theorem yields_callbackReturn (result) : Yields P (callbackReturn result) := by
  intro b _ c s
  refine .getBind (regular_jump _ _ (fun skipped frame =>
    if crossesBlock s.frames skipped then do
      if result.isSome then
        warnLossy "callback result returned from a nested loop is dropped"
      return .throwTo (← nextTag skipped frame)
    else pure (.plain (.jump .next result))) fun skipped frame hframe => ?_) rfl
  split
  · -- A warning leaves the constructs as they are.
    cases result with
    | none => exact .bind (regular_nextTag hframe) (regular_pure _)
    | some result =>
      exact .bind (x := warnLossy _) ⟨.warn s _, rfl, trivial⟩
        (.bind (regular_nextTag hframe) (regular_pure _))
  · exact regular_pure _

end Jumps

/-! ## Any place -/

def anywhere : Place where
  node _ := True
  learns _ := True
  child _ _ := trivial
  item _ _ := trivial
  set _ _ := trivial

@[grind .]
theorem fits_anywhere (node : Node) : Fits anywhere node := trivial

@[grind .]
theorem learns_anywhere (key : String) : anywhere.learns key := trivial

theorem fits_option_anywhere (node : Option Node) : Fits anywhere node := fun _ _ => trivial

end Scriptgen.Ruby
