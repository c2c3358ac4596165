import Scriptgen.Proofs.Fitting
import Scriptgen.Proofs.Perl.Changes
import Scriptgen.Proofs.Perl.Constructs
import Scriptgen.Proofs.Perl.Returns
/-!
# Two runs of a lowering

A program is lowered twice, with options that keep other types or other warnings. What one run has
in the place of something that the other one has is its `twin`. The constructs of the code are
watched at the same time: those that are allowed are the ones that the run has asked for by its end.
And where only expressions are lowered, no names are declared and the code does not return from the
sub around it.

`Makes` says all this of a step. The rules are tagged, so that `grind` follows the text of a
lowering.
-/

namespace Scriptgen.Perl

open Lowering Fitting Returning List

/-- What two runs have in common, and what the code of the first one may contain. -/
structure Policy where
  /-- Whether the other run keeps types. -/
  types : Bool
  /-- Whether the other run keeps warnings. -/
  warnings : Bool
  /-- The nodes that are lowered. -/
  node : Node → Prop
  choices : Choices → Prop
  /-- The imports that the run has at some time before its end, and whether a protected block in the
  newer form is used by then. -/
  before : Imports → Bool → Prop
  allows : Construct → Prop
  /-- Whether code must not return from the sub around it. -/
  silent : Bool := false
  /-- Whether no names may be declared. -/
  calm : Bool := false

/-! ## Twins -/

/-- What the other run has in the place of something. -/
class Twinned (α : Type) where
  twin : Policy → α → α

export Twinned (twin)

instance (priority := low) twinnedOther (α : Type) : Twinned α := ⟨fun _ a => a⟩

instance : Twinned Expr := ⟨fun P e => e.retype P.types⟩

instance : Twinned RegexSource := ⟨fun P source => source.retype P.types⟩

instance : Twinned Stmt := ⟨fun P stmt => stmt.retype P.types⟩

instance : Twinned StmtKind := ⟨fun P kind => kind.retype P.types⟩

instance : Twinned Sub := ⟨fun P sub => sub.retype P.types⟩

instance : Twinned Param := ⟨fun P param => param.retype P.types⟩

instance : Twinned Field := ⟨fun P field => field.retype P.types⟩

instance : Twinned Package := ⟨fun P made => made.retype P.types⟩

instance twinnedOption {α : Type} [Twinned α] : Twinned (Option α) := ⟨fun P => Option.map (twin P)⟩

instance twinnedList {α : Type} [Twinned α] : Twinned (List α) := ⟨fun P => map (twin P)⟩

instance {α β : Type} [Twinned α] [Twinned β] : Twinned (α × β) :=
  ⟨fun P pair => (twin P pair.1, twin P pair.2)⟩

instance : Twinned Choices :=
  ⟨fun P options => { options with typeAnnotations := P.types && options.typeAnnotations }⟩

instance : Twinned Context := ⟨fun P c => { c with options := twin P c.options }⟩

instance : Twinned WarningLog := ⟨fun P log => if P.warnings then log else .empty false⟩

instance : Twinned State :=
  ⟨fun P s => { s with warnings := twin P s.warnings, pendingFields := twin P s.pendingFields }⟩

/-! ## What is allowed -/

/-- Code with allowed constructs that is as silent as it has to be. -/
def Policy.Passes {α : Type} [Returning α] (P : Policy)
    (constructs : String → Uses) (code : α) : Prop :=
  (∀ package, ∀ use ∈ constructs package, P.allows use.2) ∧
    (P.silent = true → ∀ t, returns t code = false)

instance : Fitting Policy Expr := ⟨fun P e => P.Passes e.constructs e⟩

instance : Fitting Policy RegexSource := ⟨fun P source => P.Passes source.constructs source⟩

instance : Fitting Policy Stmt := ⟨fun P stmt => P.Passes stmt.constructs stmt⟩

instance : Fitting Policy StmtKind := ⟨fun P kind => P.Passes kind.constructs kind⟩

instance : Fitting Policy Sub :=
  ⟨fun P sub => ∀ package, ∀ use ∈ sub.constructs package, P.allows use.2⟩

instance : Fitting Policy Param := ⟨fun P param => P.Passes param.constructs param⟩

instance : Fitting Policy Package := ⟨fun P made => ∀ use ∈ made.constructs, P.allows use.2⟩

instance : Fitting Policy Node := ⟨Policy.node⟩

instance : Fitting Policy Choices := ⟨Policy.choices⟩

instance : Fitting Policy Context := ⟨fun P c => P.choices c.options⟩

instance : Fitting Policy State := ⟨fun P s => Fits P s.pendingFields⟩

/-- A state that the run is in before its end. -/
def Policy.reaches (P : Policy) (s : State) : Prop := P.before s.imports s.nativeTry

def Policy.asks (P : Policy) (module : String) : Prop :=
  ∃ imports native, P.before (Imports.require imports module) native

def Policy.asksFor (P : Policy) (module symbol : String) : Prop :=
  ∃ imports native, P.before (Imports.useSymbol imports module symbol) native

/-- A protected block in the newer form is used before the end. -/
def Policy.usesTry (P : Policy) : Prop := ∃ imports, P.before imports true

/-- The functions that lowering calls by itself and that no module has to be asked for. -/
def ownFunctions : List String :=
  ["substr", "length", "join", "int", "sort", "reverse", "log", "keys", "unpack", "uc", "time", "sqrt",
    "sprintf", "split", "oct", "lc", "index", "hex", "chr", "warn", "scalar", "say", "rindex", "ref",
    "rand", "push", "unshift", "pop", "shift", "splice", "print", "pack", "ord", "exp", "exists",
    "delete", "defined", "atan2", "abs", "sin", "cos"]

/-- The modules whose functions are called by their full names. -/
def libraries : List String := ["POSIX", "List::Util", "Scalar::Util", "OpCodes"]

/-- What is asked of a policy. -/
class Policy.Lawful (P : Policy) : Prop where
  child : ∀ {n m key}, P.node n → n.child? key = some m → P.node m
  item : ∀ {n m key}, P.node n → m ∈ n.children key → P.node m
  require : ∀ {imports native module}, P.before (Imports.require imports module) native →
    P.before imports native
  useSymbol : ∀ {imports native module symbol},
    P.before (Imports.useSymbol imports module symbol) native → P.before imports native
  useTry : ∀ {imports native}, P.before imports true → P.before imports native
  own : ∀ {name}, name ∈ ownFunctions → P.allows (.call name)
  named : ∀ {n name}, P.node n → n.name? = some name → P.allows (.call name)
  namedClass : ∀ {n name}, P.node n → n.name? = some name → P.allows (.callClass name)
  qualified : ∀ {n name place} {c : Context}, P.node n → n.name? = some name → P.choices c.options →
    P.allows (.call (c.qualify place name))
  asked : ∀ {module name}, module ∈ libraries → P.asks module →
    P.allows (.call (module ++ "::" ++ name))
  askedClass : ∀ {module}, P.asks module → P.allows (.callClass module)
  askedFor : ∀ {op : BlockListOp}, P.asksFor "List::Util" op.name → P.allows (.block op)
  listOp : ∀ {op}, op ∈ [BlockListOp.map, .grep, .sort] → P.allows (.block op)
  new : ∀ className, P.allows (.new className)
  nativeTry : P.usesTry → P.allows .nativeTry

/-- The policy for other code. -/
def Policy.tuned (P : Policy) (silent calm : Bool) : Policy := { P with silent, calm }

/-- The policy for code that may return. -/
abbrev Policy.vocal (P : Policy) : Policy := P.tuned false P.calm

/-- The policy for code that may declare names. -/
abbrev Policy.free (P : Policy) : Policy := P.tuned P.silent false

/-- Code may return. -/
class Policy.Vocal (P : Policy) : Prop where
  vocal : P.silent = false

/-- Names may be declared. -/
class Policy.Free (P : Policy) : Prop where
  free : P.calm = false

section Tuned

variable {P : Policy} {silent calm : Bool}

instance [h : P.Lawful] : (P.tuned silent calm).Lawful :=
  ⟨h.child, h.item, h.require, h.useSymbol, h.useTry, h.own, h.named, h.namedClass, h.qualified,
    h.asked, h.askedClass, h.askedFor, h.listOp, h.new, h.nativeTry⟩

instance : (P.tuned false calm).Vocal := ⟨rfl⟩

instance : (P.tuned silent false).Free := ⟨rfl⟩

instance [h : P.Vocal] : (P.tuned P.silent calm).Vocal := ⟨h.vocal⟩

instance [h : P.Free] : (P.tuned silent P.calm).Free := ⟨h.free⟩

@[simp, grind norm]
theorem silent_eq [h : P.Vocal] : P.silent = false := h.vocal

@[simp, grind norm]
theorem calm_eq [h : P.Free] : P.calm = false := h.free

theorem free_eq [h : P.Free] : P.free = P := by
  rw [Policy.free, ← h.free]
  rfl

@[simp, grind norm]
theorem vocal_eq [h : P.Vocal] : P.vocal = P := by
  rw [Policy.vocal, ← h.vocal]
  rfl

/-- What is silent may also stand where code may return. -/
theorem fits_vocal {l : List Stmt} (h : Fits P l) : Fits P.vocal l :=
  fun stmt hstmt => ⟨(h stmt hstmt).1, fun h => absurd h Bool.false_ne_true⟩

end Tuned

/-! ## Containers -/

@[simp, grind norm]
theorem twin_other {α : Type} (P : Policy) (a : α) : @twin α (twinnedOther α) P a = a := rfl

section Containers

variable {α β : Type} [Twinned α] [Twinned β] {P : Policy}

@[simp, grind norm]
theorem twin_option : twin P (none : Option α) = none ∧ ∀ a : α, twin P (some a) = some (twin P a) :=
  ⟨rfl, fun _ => rfl⟩

@[simp, grind norm]
theorem twin_pair (a : α) (b : β) : twin P (a, b) = (twin P a, twin P b) := rfl

@[simp, grind norm]
theorem twin_nil : twin P ([] : List α) = [] := rfl

@[simp, grind norm]
theorem twin_cons (a : α) (l : List α) : twin P (a :: l) = twin P a :: twin P l := rfl

@[simp, grind norm]
theorem twin_append (l l' : List α) : twin P (l ++ l') = twin P l ++ twin P l' := map_append

theorem twin_list (l : List α) : twin P l = l.map (twin P) := rfl

@[simp, grind norm]
theorem twin_ite (p : Prop) [Decidable p] (a b : α) :
    twin P (if p then a else b) = if p then twin P a else twin P b := apply_ite ..

@[simp, grind norm]
theorem twin_getD (o : Option α) :
    (∀ a, twin P (o.getD a) = (twin P o).getD (twin P a)) ∧
      twin P o.toList = (twin P o).toList := by
  cases o <;> exact ⟨fun _ => rfl, rfl⟩

@[simp, grind norm]
theorem twin_filterMap_id (l : List (Option α)) :
    twin P (l.filterMap id) = (twin P l).filterMap id := by
  induction l with
  | nil => rfl
  | cons a l ih =>
    cases a with
    | none => exact ih
    | some a => exact congrArg (twin P a :: ·) ih

@[simp, grind norm]
theorem twin_flatten (l : List (List α)) : twin P l.flatten = (twin P l).flatten := by
  induction l with
  | nil => rfl
  | cons first rest ih => simp [ih]

@[simp, grind norm]
theorem twin_item (l : List α) :
    (∀ i : Nat, twin P l[i]? = (twin P l)[i]?) ∧ twin P l.head? = (twin P l).head? ∧
      twin P l.getLast? = (twin P l).getLast? :=
  ⟨fun _ => getElem?_map.symm, head?_map.symm, getLast?_map.symm⟩

@[simp, grind norm]
theorem size_twin :
    (∀ o : Option α, (twin P o).isSome = o.isSome) ∧ (∀ o : Option α, (twin P o).isNone = o.isNone) ∧
    (∀ l : List α, (twin P l).isEmpty = l.isEmpty) ∧ ∀ l : List α, (twin P l).length = l.length :=
  ⟨fun _ => Option.isSome_map, fun _ => Option.isNone_map, fun _ => isEmpty_map,
    fun _ => length_map _⟩

end Containers

/-- What both runs have in the same form. -/
class Untouched (α : Type) [Twinned α] : Prop where
  twin_eq : ∀ (P : Policy) (a : α), twin P a = a

instance (priority := low) (α : Type) : @Untouched α (twinnedOther α) :=
  @Untouched.mk α (twinnedOther α) fun _ _ => rfl

instance {α : Type} [Twinned α] [Untouched α] : Untouched (Option α) :=
  ⟨fun P o => by cases o <;> simp [Untouched.twin_eq]⟩

instance {α : Type} [Twinned α] [Untouched α] : Untouched (List α) :=
  ⟨fun P l => by induction l <;> simp_all [Untouched.twin_eq]⟩

instance {α β : Type} [Twinned α] [Twinned β] [Untouched α] [Untouched β] : Untouched (α × β) :=
  ⟨fun P pair => Prod.ext (Untouched.twin_eq P pair.1) (Untouched.twin_eq P pair.2)⟩

@[simp, grind =]
theorem twin_plain {α : Type} [Twinned α] [Untouched α] (P : Policy) (a : α) : twin P a = a :=
  Untouched.twin_eq P a

/-! ## States and contexts -/

section

variable {P : Policy} (s : State) (c : Context)

@[simp, grind norm]
theorem state_twin :
    (twin P s).scopes = s.scopes ∧ (twin P s).functions = s.functions ∧
    (twin P s).classes = s.classes ∧ (twin P s).frames = s.frames ∧ (twin P s).place = s.place :=
  ⟨rfl, rfl, rfl, rfl, rfl⟩

@[simp, grind norm]
theorem context_twin :
    (twin P c).options = twin P c.options ∧
      ∀ place name, (twin P c).qualify place name = c.qualify place name := ⟨rfl, fun _ _ => rfl⟩

@[simp, grind norm]
theorem choices_twin (options : Choices) :
    (twin P options).modernSyntax = options.modernSyntax ∧
      (twin P options).typeAnnotations = (P.types && options.typeAnnotations) := ⟨rfl, rfl⟩

end

/-! ## Steps -/

variable {module : String} {symbol : String}

section

variable {α β : Type} [Twinned α] [Fitting Policy α] [Twinned β] [Fitting Policy β]
variable {P : Policy} {H : Prop}

/-- What may happen to the state from one point to a later one. -/
structure Policy.Leads (P : Policy) (s t : State) : Prop where
  changes : Changes s t
  scopes : P.calm = true → t.scopes = s.scopes
  before : P.reaches t → P.reaches s

theorem Policy.Leads.refl (s : State) : P.Leads s s := ⟨.refl s, fun _ => rfl, id⟩

theorem Policy.Leads.trans {s t u : State} (h : P.Leads s t) (h' : P.Leads t u) : P.Leads s u :=
  ⟨h.changes.trans h'.changes, fun hcalm => (h'.scopes hcalm).trans (h.scopes hcalm),
    h.before ∘ h'.before⟩

/-- **Two steps are twins.** The second one does in the other run what the first one does in the
first run, and if the premise holds and the run goes on to its end, what the first one gives is
allowed. -/
structure MakesStep (P : Policy) (H : Prop) (x y : Step α) : Prop where
  same : ∀ c s, y (twin P c) (twin P s) = (twin P (x c s).1, twin P (x c s).2)
  leads : ∀ c s, P.Leads s (x c s).2
  fits : ∀ c s, P.reaches (x c s).2 → H → Fits P c → Fits P s →
    Fits P (x c s).1 ∧ Fits P (x c s).2

theorem MakesStep.pure {a d : α} (ha : H → Fits P a) (h : d = twin P a) :
    MakesStep P H (pure a) (pure d) := by
  subst h
  exact ⟨fun _ _ => rfl, fun _ s => .refl s, fun _ _ _ hH _ hs => ⟨ha hH, hs⟩⟩

theorem MakesStep.mono {H' : Prop} {x y : Step α} (hx : MakesStep P H x y) (h : H' → H) :
    MakesStep P H' x y := ⟨hx.same, hx.leads, fun c s hs hH => hx.fits c s hs (h hH)⟩

/-- What is known of the level below, for one kind of code. -/
structure Below.MakesAt (P : Policy) (b : Below) : Prop where
  expr : ∀ n, MakesStep P (Fits P n) (b.expr n) (b.expr n)
  items : ∀ n, MakesStep P (Fits P n) (b.items n) (b.items n)
  function : ∀ n, MakesStep P (Fits P n) (b.function n) (b.function n)
  stmt : P.silent = false → P.calm = false →
    ∀ label n, MakesStep P (Fits P n) (b.stmt label n) (b.stmt label n)
  exprStmt : P.silent = false → P.calm = false →
    ∀ n, MakesStep P (Fits P n) (b.exprStmt n) (b.exprStmt n)

def Below.Makes (P : Policy) (b : Below) : Prop := ∀ silent calm, b.MakesAt (P.tuned silent calm)

theorem Below.Makes.here {b : Below} (h : b.Makes P) : b.MakesAt P := h P.silent P.calm

/-- Two steps are twins if the level below is twin to itself. -/
def Makes (P : Policy) (H : Prop) (x y : Lower α) : Prop :=
  ∀ b : Below, b.Makes P → MakesStep P H (x b) (y b)

def MakesTry (P : Policy) (H : Prop) (x y : Attempt α) : Prop := Makes P H x.run y.run

/-- A step is its own twin. -/
abbrev Same (P : Policy) (H : Prop) (x : Lower α) : Prop := Makes P H x x

abbrev SameTry (P : Policy) (H : Prop) (x : Attempt α) : Prop := MakesTry P H x x

namespace Makes

variable {x x' : Lower α} {k j : α → Lower β}

@[grind ←]
theorem pure {a d : α} (ha : H → Fits P a) (h : d = twin P a) :
    Makes P H (pure a) (pure d) := fun _ _ => MakesStep.pure ha h

@[grind ←]
theorem bind (hx : Makes P H x x')
    (hk : ∀ a, Makes P (H ∧ Fits P a) (k a) (j (twin P a))) :
    Makes P H (x >>= k) (x' >>= j) := by
  intro b hb
  refine ⟨fun c s => ?_, fun c s => ?_, fun c s h hH hc hs => ?_⟩
  · change j (x' b (twin P c) (twin P s)).1 b (twin P c) (x' b (twin P c) (twin P s)).2 = _
    rw [(hx b hb).same]
    exact (hk _ b hb).same c _
  · exact ((hx b hb).leads c s).trans ((hk _ b hb).leads c _)
  · have hmid := ((hk _ b hb).leads c _).before h
    obtain ⟨ha, hs'⟩ := (hx b hb).fits c s hmid hH hc hs
    exact (hk _ b hb).fits c _ h ⟨hH, ha⟩ hc hs'

theorem mono {H' : Prop} (hx : Makes P H x x') (h : H' → H) : Makes P H' x x' :=
  fun b hb => (hx b hb).mono h

/-- What a step gives may be fit for any place, even if code on the way to it is not. -/
theorem of_vocal (hx : Makes P.vocal H x x') (htwin : ∀ a : α, twin P.vocal a = twin P a)
    (hfits : ∀ a : α, Fits P.vocal a → Fits P a) : Makes P H x x' := by
  intro b hb
  have h := hx b hb
  refine ⟨fun c s => ?_, fun c s => ⟨(h.leads c s).changes, (h.leads c s).scopes,
    (h.leads c s).before⟩, fun c s hend hH hc hs => ⟨?_, ?_⟩⟩
  · rw [← htwin]
    exact h.same c s
  · exact hfits _ (h.fits c s hend hH hc fun l hl => fits_vocal (hs l hl)).1
  · change Fits P (x b c s).2.pendingFields
    rcases (h.leads c s).changes.pendingFields with heq | heq <;> rw [heq]
    · exact hs
    · exact fits_none.2 trivial

/-- A step that only changes the state. -/
theorem modify {g g' : State → State} (hsame : ∀ s, g' (twin P s) = twin P (g s))
    (hleads : ∀ s, P.Leads s (g s)) (hfits : ∀ s, H → Fits P s → Fits P (g s)) :
    Makes P H (modify g : Lower Unit) (modify g') :=
  fun _ _ => ⟨fun _ s => Prod.ext rfl (hsame s), fun _ s => hleads s,
    fun _ s _ hH _ hs => ⟨trivial, hfits s hH hs⟩⟩

omit [Twinned α] [Fitting Policy α] in
theorem getBind {k j : State → Lower β} (hk : ∀ s, Makes P H (k s) (j (twin P s))) :
    Makes P H (get >>= k) (get >>= j) :=
  fun b hb => ⟨fun c s => (hk s b hb).same c s, fun c s => (hk s b hb).leads c s,
    fun c s => (hk s b hb).fits c s⟩

/-- A step with changes of the state before it and after it. -/
theorem around (hx : Makes P H x x') {f : State → State} {g : State → State → State}
    (hf : ∀ s, f (twin P s) = twin P (f s)) (hg : ∀ s t, g (twin P s) (twin P t) = twin P (g s t))
    (hleads : ∀ s t, P.Leads (f s) t → P.Leads s (g s t))
    (hbefore : ∀ s t, P.reaches (g s t) → P.reaches t)
    (hfits : ∀ s, Fits P s → Fits P (f s)) (hfits' : ∀ s t, Fits P s → Fits P t → Fits P (g s t)) :
    Makes P H (fun b c s => ((x b c (f s)).1, g s (x b c (f s)).2))
      (fun b c s => ((x' b c (f s)).1, g s (x' b c (f s)).2)) := by
  intro b hb
  refine ⟨fun c s => ?_, fun c s => hleads s _ ((hx b hb).leads c (f s)), fun c s h hH hc hs => ?_⟩
  · simp only [hf, (hx b hb).same, hg]
  · obtain ⟨ha, ht⟩ := (hx b hb).fits c (f s) (hbefore s _ h) hH hc (hfits s hs)
    exact ⟨ha, hfits' s _ hs ht⟩

omit [Twinned α] [Fitting Policy α] in
theorem contextBind {k j : Context → Lower β}
    (hk : ∀ c, Makes P (H ∧ Fits P c) (k c) (j (twin P c))) :
    Makes P H (readThe Context >>= k) (readThe Context >>= j) :=
  fun b hb => ⟨fun c s => (hk c b hb).same c s, fun c s => (hk c b hb).leads c s,
    fun c s h hH hc hs => (hk c b hb).fits c s h ⟨hH, hc⟩ hc hs⟩

theorem mapM {l l' : List α} (hl : H → Fits P l) (heq : l' = twin P l)
    (hk : ∀ a, Makes P (H ∧ Fits P a) (k a) (j (twin P a))) :
    Makes P H (l.mapM k) (l'.mapM j) := by
  subst heq
  induction l with
  | nil => exact pure (fun _ => fits_nil.2 trivial) rfl
  | cons a l ih =>
    rw [twin_cons, mapM_cons, mapM_cons]
    have hfirst : Makes P H (k a) (j (twin P a)) :=
      (hk a).mono fun hH => ⟨hH, ((fits_cons a l).1 (hl hH)).1⟩
    refine bind hfirst fun y => bind ?_ fun ys => pure (fun h => ?_) rfl
    · exact (ih fun hH => ((fits_cons a l).1 (hl hH)).2).mono And.left
    · exact (fits_cons y ys).2 ⟨h.1.2, h.2⟩

theorem optionMapM {o o' : Option α} (ho : H → Fits P o) (heq : o' = twin P o)
    (hk : ∀ a, Makes P (H ∧ Fits P a) (k a) (j (twin P a))) :
    Makes P H (o.mapM k) (o'.mapM j) := by
  subst heq
  cases o with
  | none => exact pure (a := none) (fun _ => fits_none.2 trivial) rfl
  | some a =>
    have hfirst : Makes P H (k a) (j (twin P a)) :=
      (hk a).mono fun hH => ⟨hH, (fits_some a).1 (ho hH)⟩
    exact bind (k := fun y => Pure.pure (some y)) (j := fun y => Pure.pure (some y)) hfirst
      fun y => pure (fun h => (fits_some y).2 h.2) rfl

end Makes

attribute [grind ←] Makes.getBind Makes.contextBind Makes.mapM Makes.optionMapM

/-! ## Attempts -/

namespace MakesTry

variable {x x' : Attempt α} {k j : α → Attempt β}

@[grind ←]
theorem pure {a d : α} (ha : H → Fits P a) (h : d = twin P a) :
    MakesTry P H (pure a) (pure d) :=
  Makes.pure (a := some a) (d := some d) (fun hH => (fits_some a).2 (ha hH)) (by simp [h])

@[grind ←]
theorem failure : MakesTry P H (failure : Attempt α) failure :=
  Makes.pure (a := none) (d := none) (fun _ => fits_none.2 trivial) rfl

@[grind ←]
theorem lift {x x' : Lower α} (hx : Makes P H x x') :
    MakesTry P H (liftM x : Attempt α) (liftM x') :=
  Makes.bind (k := fun a => Pure.pure (some a)) (j := fun a => Pure.pure (some a)) hx fun a =>
    .pure (fun h => (fits_some a).2 h.2) rfl

@[grind ←]
theorem bind (hx : MakesTry P H x x')
    (hk : ∀ a, MakesTry P (H ∧ Fits P a) (k a) (j (twin P a))) :
    MakesTry P H (x >>= k) (x' >>= j) := by
  rw [MakesTry, OptionT.run_bind, OptionT.run_bind]
  refine Makes.bind hx fun result => ?_
  cases result with
  | none => exact failure (α := β)
  | some a => exact Makes.mono (hk a) fun h => ⟨h.1, (fits_some a).1 h.2⟩

@[grind ←]
theorem orElse {y y' : Unit → Attempt α} (hx : MakesTry P H x x')
    (hy : MakesTry P H (y ()) (y' ())) :
    MakesTry P H (HOrElse.hOrElse x y) (HOrElse.hOrElse x' y') := by
  change MakesTry P H (x <|> y ()) (x' <|> y' ())
  rw [MakesTry, OptionT.run_orElse, OptionT.run_orElse]
  refine Makes.bind hx fun result => ?_
  cases result with
  | none => exact Makes.mono hy And.left
  | some a => exact pure (fun h => (fits_some a).1 h.2) rfl

@[grind ←]
theorem getBind {k j : State → Attempt β} (hk : ∀ s, MakesTry P H (k s) (j (twin P s))) :
    MakesTry P H (get >>= k) (get >>= j) :=
  Makes.getBind (k := fun s => (k s).run) (j := fun s => (j s).run) hk

@[grind ←]
theorem contextBind {k j : Context → Attempt β}
    (hk : ∀ c, MakesTry P (H ∧ Fits P c) (k c) (j (twin P c))) :
    MakesTry P H (readThe Context >>= k) (readThe Context >>= j) :=
  Makes.contextBind (k := fun c => (k c).run) (j := fun c => (j c).run) hk

@[grind ←]
theorem need {o o' : Option α} (ho : H → Fits P o) (heq : o' = twin P o) :
    MakesTry P H (need o) (Perl.need o') := Makes.pure ho heq

theorem needBind {γ : Type} {o : Option γ} {k j : γ → Attempt β}
    (hk : ∀ a, o = some a → MakesTry P H (k a) (j a)) :
    MakesTry P H (Perl.need o >>= k) (Perl.need o >>= j) := by
  cases o with
  | none => exact failure (α := β)
  | some a => exact hk a rfl

@[grind ←]
theorem mapM {l l' : List α} (hl : H → Fits P l) (heq : l' = twin P l)
    (hk : ∀ a, MakesTry P (H ∧ Fits P a) (k a) (j (twin P a))) :
    MakesTry P H (l.mapM k) (l'.mapM j) := by
  subst heq
  induction l with
  | nil => exact pure (fun _ => fits_nil.2 trivial) rfl
  | cons a l ih =>
    rw [twin_cons, mapM_cons, mapM_cons]
    have hfirst : MakesTry P H (k a) (j (twin P a)) :=
      Makes.mono (hk a) fun hH => ⟨hH, ((fits_cons a l).1 (hl hH)).1⟩
    refine bind hfirst fun y => bind ?_ fun ys => pure (fun h => ?_) rfl
    · exact Makes.mono (ih fun hH => ((fits_cons a l).1 (hl hH)).2) And.left
    · exact (fits_cons y ys).2 ⟨h.1.2, h.2⟩

@[grind ←]
theorem optionMapM {o o' : Option α} (ho : H → Fits P o) (heq : o' = twin P o)
    (hk : ∀ a, MakesTry P (H ∧ Fits P a) (k a) (j (twin P a))) :
    MakesTry P H (o.mapM k) (o'.mapM j) := by
  subst heq
  cases o with
  | none => exact pure (a := none) (fun _ => fits_none.2 trivial) rfl
  | some a =>
    have hfirst : MakesTry P H (k a) (j (twin P a)) :=
      Makes.mono (hk a) fun hH => ⟨hH, (fits_some a).1 (ho hH)⟩
    exact bind (k := fun y => Pure.pure (some y)) (j := fun y => Pure.pure (some y)) hfirst
      fun y => pure (fun h => (fits_some y).2 h.2) rfl

end MakesTry

/-! ## Steps that change the state -/

@[grind ←]
theorem makes_warn (warning : Warning) : Same P H (warn warning) := by
  refine .modify (fun s => ?_) (fun s => ⟨.warn s warning, fun _ => rfl, id⟩) (fun _ _ h => h)
  change { twin P s with warnings := (twin P s.warnings).note warning } =
    { twin P s with warnings := twin P (s.warnings.note warning) }
  cases hkeep : P.warnings <;> simp [twin, hkeep, WarningLog.note, WarningLog.empty]

@[grind ←]
theorem makes_warnLossy (note : String) : Same P H (warnLossy note) := makes_warn _

@[grind ←]
theorem makesTry_unsupported (node : Node) :
    MakesTry P H (unsupported node : Attempt α) (unsupported node) :=
  .bind (.lift (makes_warn _)) fun _ => .failure

@[grind ←]
theorem makes_fresh (stem : String) : Same P H (fresh stem) :=
  fun _ _ => ⟨fun _ _ => rfl, fun _ s => ⟨.draw s stem, fun _ => rfl, id⟩, fun _ _ _ _ _ hs => ⟨trivial, hs⟩⟩

variable (name : String)

@[grind ←]
theorem makes_declare [P.Free] (shape : Shape) : Same P H (declare name shape) :=
  fun _ _ => ⟨fun _ _ => rfl, fun _ s => ⟨.declare s name shape, by simp, id⟩,
    fun _ _ _ _ _ hs => ⟨trivial, hs⟩⟩

@[grind ←]
theorem makes_declareScalar [P.Free] : Same P H (declareScalar name) :=
  fun _ _ => ⟨fun _ _ => rfl, fun _ s => ⟨.declare s name .scalar, by simp, id⟩,
    fun _ _ _ _ _ hs => ⟨trivial, hs⟩⟩

@[grind ←]
theorem makes_lookup? : Same P H (lookup? name) :=
  fun _ _ => ⟨fun _ _ => Prod.ext (twin_plain P _).symm rfl, fun _ s => .refl s,
    fun _ _ _ _ _ hs => ⟨fun _ _ => trivial, hs⟩⟩

@[grind ←]
theorem makes_addClass : Same P H (addClass name) :=
  fun _ _ => ⟨fun _ _ => rfl, fun _ s => ⟨.addClass s name, fun _ => rfl, id⟩,
    fun _ _ _ _ _ hs => ⟨trivial, hs⟩⟩

theorem makes_addFunction :
    Makes P H (modify fun s => { s with functions := name :: s.functions } : Lower Unit)
      (modify fun s => { s with functions := name :: s.functions }) :=
  fun _ _ => ⟨fun _ _ => rfl, fun _ s => ⟨.addFunction s name, fun _ => rfl, id⟩,
    fun _ _ _ _ _ hs => ⟨trivial, hs⟩⟩

/-- Initializers wait for an object, and those that still do are taken in the end. -/
theorem makes_withFields {inits inits' : List Stmt} {x x' : Lower α}
    {k j : α → Option (List Stmt) → Lower β} (h : H → Fits P inits) (heq : inits' = twin P inits)
    (hx : Makes P H x x') (hk : ∀ a waiting,
      Makes P (H ∧ Fits P a ∧ Fits P waiting) (k a waiting) (j (twin P a) (twin P waiting))) :
    Makes P H
      (do
        modify fun s => { s with pendingFields := some inits }
        let a ← x
        let waiting ← takePendingFields
        k a waiting)
      (do
        modify fun s => { s with pendingFields := some inits' }
        let a ← x'
        let waiting ← takePendingFields
        j a waiting) := by
  subst heq
  intro b hb
  have hleads (c : Context) (s : State) :
      P.Leads s { (x b c { s with pendingFields := some inits }).2 with pendingFields := none } :=
    have h := (hx b hb).leads c { s with pendingFields := some inits }
    ⟨.withFields inits h.changes, h.scopes, h.before⟩
  refine ⟨fun c s => ?_, fun c s => (hleads c s).trans ((hk _ _ b hb).leads c _),
    fun c s hend hH hc _ => ?_⟩
  · change j (x' b (twin P c) (twin P { s with pendingFields := some inits })).1
      (x' b (twin P c) (twin P { s with pendingFields := some inits })).2.pendingFields b (twin P c)
      { (x' b (twin P c) (twin P { s with pendingFields := some inits })).2 with
        pendingFields := none } = _
    rw [(hx b hb).same]
    have hrest (r : α × State) := (hk r.1 r.2.pendingFields b hb).same c
      { r.2 with pendingFields := none }
    exact hrest (x b c { s with pendingFields := some inits })
  · have hmid := ((hk _ _ b hb).leads c _).before hend
    obtain ⟨ha, hs⟩ := (hx b hb).fits c _ hmid hH hc ((fits_some inits).2 (h hH))
    exact (hk _ _ b hb).fits c _ hend ⟨hH, ha, hs⟩ hc (fits_none (α := List Stmt).2 trivial)

@[grind ←]
theorem makes_takePendingFields : Same P H takePendingFields :=
  fun _ _ => ⟨fun _ _ => rfl, fun _ s => ⟨.takeFields s, fun _ => rfl, id⟩,
    fun _ _ _ _ _ hs => ⟨hs, fits_none (α := List Stmt).2 trivial⟩⟩

/-- What a step declares in a scope of its own is gone at its end. -/
theorem makes_inScope_of_free {x x' : Lower α} (hx : Makes P.free H x x')
    (htwin : ∀ a : α, twin P.free a = twin P a) (hfits : ∀ a : α, Fits P.free a → Fits P a) :
    Makes P H (inScope x) (inScope x') := by
  intro b hb
  have hleads (c : Context) (s : State) := (hx b hb).leads c { s with scopes := s.scopes.push }
  refine ⟨fun c s => ?_, fun c s => ?_, fun c s h hH hc hs => ?_⟩
  · change ((x' b (twin P.free c) (twin P.free { s with scopes := s.scopes.push })).1, _) = _
    rw [(hx b hb).same, htwin]
    have hstate := congrArg (fun r : α × State => { r.2 with scopes := r.2.scopes.pop })
      ((hx b hb).same c { s with scopes := s.scopes.push })
    exact Prod.ext rfl hstate
  · exact ⟨.inScope (hleads c s).changes, fun _ => (hleads c s).changes.grows.pop, (hleads c s).before⟩
  · obtain ⟨ha, ht⟩ := (hx b hb).fits c { s with scopes := s.scopes.push } h hH hc hs
    exact ⟨hfits _ ha, ht⟩

@[grind ←]
theorem makes_inScope [P.Free] {x x' : Lower α} (hx : Makes P H x x') :
    Makes P H (inScope x) (inScope x') := by
  refine makes_inScope_of_free ?_ (fun _ => by rw [free_eq]) fun _ h => ?_
  · rwa [free_eq]
  · rwa [free_eq] at h

@[grind ←]
theorem makes_isolated {x x' : Lower α} (hx : Makes P H x x') :
    Makes P H (isolated x) (isolated x') :=
  .around hx (f := fun s => { s with frames := [], pendingFields := none })
    (g := fun s t => { t with frames := s.frames, pendingFields := s.pendingFields })
    (fun _ => rfl) (fun _ _ => rfl) (fun _ _ h => ⟨.isolated h.changes, h.scopes, h.before⟩)
    (fun _ _ h => h) (fun _ _ => fits_none (α := List Stmt).2 trivial) fun _ _ h _ => h

@[grind ←]
theorem makes_inFrame {x x' : Lower α} (kind : FrameKind) (label : Option String)
    (hx : Makes P H x x') : Makes P H (inFrame kind label x) (inFrame kind label x') := by
  intro b hb
  have hleads (c : Context) (s : State) :=
    (hx b hb).leads c { s with frames := ⟨kind, label⟩ :: s.frames }
  refine ⟨fun c s => ?_, fun c s => ?_, fun c s h hH hc hs => ?_⟩
  · have hrun := (hx b hb).same c { s with frames := ⟨kind, label⟩ :: s.frames }
    have hlast := congrArg (fun r : α × State => ((r.2.frames.head?.bind (·.label), r.1),
      ({ r.2 with frames := r.2.frames.tail } : State))) hrun
    exact hlast.trans (Prod.ext (Prod.ext (twin_plain P _).symm rfl) rfl)
  · exact ⟨.inFrame (hleads c s).changes, (hleads c s).scopes, (hleads c s).before⟩
  · obtain ⟨ha, ht⟩ := (hx b hb).fits c { s with frames := ⟨kind, label⟩ :: s.frames } h hH hc hs
    exact ⟨⟨fun _ _ => trivial, ha⟩, ht⟩

/-- A step at a place of its own, which is put back at its end. -/
theorem makes_atPlace {x x' : Lower α} {enter : Place → Place} {leave : Place → Place → Place}
    (hkept : ∀ p q, (enter p).Kept q → p.Kept (leave p q)) (hx : Makes P H x x') :
    Makes P H (atPlace enter leave x) (atPlace enter leave x') :=
  .around hx (f := fun s => { s with place := enter s.place })
    (g := fun s t => { t with place := leave s.place t.place }) (fun _ => rfl) (fun _ _ => rfl)
    (fun _ _ h => ⟨.atPlace h.changes (hkept _ _), h.scopes, h.before⟩) (fun _ _ h => h)
    (fun _ h => h) fun _ _ _ h => h


section Imports

variable [P.Lawful] {k j : Unit → Lower β}

omit [Twinned α] [Fitting Policy α] in
@[grind ←]
theorem makes_requireBind (hk : Makes P (H ∧ P.asks module) (k ()) (j ())) :
    Makes P H (requireModule module >>= k) (requireModule module >>= j) := by
  intro b hb
  have hleads (s : State) : P.Leads s { s with imports := s.imports.require module } :=
    ⟨.require s module, fun _ => rfl, Policy.Lawful.require⟩
  refine ⟨fun c s => (hk b hb).same c { s with imports := s.imports.require module },
    fun c s => (hleads s).trans ((hk b hb).leads c _), fun c s h hH hc hs => ?_⟩
  exact (hk b hb).fits c _ h ⟨hH, _, _, ((hk b hb).leads c _).before h⟩ hc hs

omit [Twinned α] [Fitting Policy α] in
@[grind ←]
theorem makes_useSymbolBind (hk : Makes P (H ∧ P.asksFor module symbol) (k ()) (j ())) :
    Makes P H (useSymbol module symbol >>= k) (useSymbol module symbol >>= j) := by
  intro b hb
  have hleads (s : State) : P.Leads s { s with imports := s.imports.useSymbol module symbol } :=
    ⟨.useSymbol s module symbol, fun _ => rfl, Policy.Lawful.useSymbol⟩
  refine ⟨fun c s => (hk b hb).same c { s with imports := s.imports.useSymbol module symbol },
    fun c s => (hleads s).trans ((hk b hb).leads c _), fun c s h hH hc hs => ?_⟩
  exact (hk b hb).fits c _ h ⟨hH, _, _, ((hk b hb).leads c _).before h⟩ hc hs

omit [Twinned α] [Fitting Policy α] in
@[grind ←]
theorem makesTry_useSymbolBind {k j : Unit → Attempt β}
    (hk : MakesTry P (H ∧ P.asksFor module symbol) (k ()) (j ())) :
    MakesTry P H ((liftM (useSymbol module symbol) : Attempt Unit) >>= k)
      ((liftM (useSymbol module symbol) : Attempt Unit) >>= j) :=
  makes_useSymbolBind (k := fun u => (k u).run) (j := fun u => (j u).run) hk

omit [Twinned α] [Fitting Policy α] in
theorem makes_useTryBind (hk : Makes P (H ∧ P.usesTry) (k ()) (j ())) :
    Makes P H ((modify fun s => { s with nativeTry := true } : Lower Unit) >>= k)
      ((modify fun s => { s with nativeTry := true } : Lower Unit) >>= j) := by
  intro b hb
  have hleads (s : State) : P.Leads s { s with nativeTry := true } :=
    ⟨.useNativeTry s, fun _ => rfl, Policy.Lawful.useTry⟩
  refine ⟨fun c s => (hk b hb).same c { s with nativeTry := true },
    fun c s => (hleads s).trans ((hk b hb).leads c _), fun c s h hH hc hs => ?_⟩
  exact (hk b hb).fits c _ h ⟨hH, _, ((hk b hb).leads c _).before h⟩ hc hs

end Imports

/-! ## The level below -/

section Below

variable {n : Node}

variable (h : H → Fits P n)

include h

@[grind ←]
theorem makes_expr? : Same P H (expr? n) := fun _ hb => (hb.here.expr n).mono h

@[grind ←]
theorem makesTry_expr : SameTry P H (expr n) := makes_expr? h

@[grind ←]
theorem makes_items : Same P H (items n) := fun _ hb => (hb.here.items n).mono h

@[grind ←]
theorem makes_function : Same P H (function n) :=
  fun _ hb => (hb.here.function n).mono h

omit h

variable [hvocal : P.Vocal] [hfree : P.Free]

theorem makes_stmtBelow (label : Option String) (h : H → Fits P n) :
    Same P H (fun below => below.stmt label n) :=
  fun _ hb => (hb.here.stmt hvocal.vocal hfree.free label n).mono h

@[grind ←]
theorem makes_exprStmt (h : H → Fits P n) : Same P H (exprStmt n) :=
  fun _ hb => (hb.here.exprStmt hvocal.vocal hfree.free n).mono h

end Below

@[grind ←]
theorem makes_orUse {attempt attempt' : Attempt α} {x x' : Lower α}
    (hattempt : MakesTry P H attempt attempt') (hx : Makes P H x x') :
    Makes P H (orUse attempt x) (orUse attempt' x') := by
  refine .bind hattempt fun result => ?_
  cases result with
  | some a => exact .pure (fun h => (fits_some a).1 h.2) rfl
  | none => exact hx.mono And.left

end

end Scriptgen.Perl
