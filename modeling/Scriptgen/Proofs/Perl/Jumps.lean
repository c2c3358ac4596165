import Scriptgen.Proofs.Jumps
import Scriptgen.Proofs.Perl.Orderly
/-!
# Jumps in Perl

A `last` or `next` without a label acts on the innermost loop or bare block around it, and one with
a label on the innermost statement with that label (`actsOn`). A `break` of the source is for the
innermost loop or switch, and a `continue` for the innermost loop (`breakTarget`, `continueTarget`).
As a block of the source becomes a bare block, which is no target, a jump can act on the wrong
statement.

`Follows` relates statements of the source to the code that they become, and says of every jump when
it acts on its target: `clearBreak` and `clearContinue`. A label is given to a loop while its body
is lowered, so all facts about the code of a body are about every later state of the enclosures
(`Grows`, `Reaches`).
-/

namespace Scriptgen.Perl

open Lowering Node Jumps List

/-! ## Enclosures -/

/-- What a loop or bare block was in the source. -/
inductive Origin where
  | loop
  | switch
  | block
deriving DecidableEq, Repr

/-- A loop or bare block around a place. -/
structure Enclosure where
  origin : Origin
  label : Option String
deriving DecidableEq, Repr

/-- The enclosure that a jump acts on, by the number of those inside it. -/
def actsOn (E : List Enclosure) : Option String → Option Nat
  | none => if E.isEmpty then none else some 0
  | some label => E.findIdx? (·.label == some label)

def breakTarget (E : List Enclosure) : Option Nat := E.findIdx? (·.origin != .block)

def continueTarget (E : List Enclosure) : Option Nat := E.findIdx? (·.origin == .loop)

/-- Whether no bare block is between a `break` and its target. -/
def clearBreak (origins : List Origin) : Bool := origins.head? != some .block

/-- Whether no bare block is between a `continue` and its loop, or a switch is the first to be
left. -/
def clearContinue (origins : List Origin) : Bool :=
  origins.head? == some .loop || origins.find? (· != .block) == some .switch

/-! ## Code that follows statements -/

def kindsOf (stmts : List Stmt) : List StmtKind := stmts.map (·.kind)

def StmtKind.loop? : StmtKind → Option (Option String × List Stmt)
  | .loop label _ _ _ body | .foreach label _ _ body | .while label _ body _ => some (label, body)
  | _ => none

mutual

/-- **Code that follows a statement** inside given enclosures. Each jump acts on its target exactly
if its way is clear. -/
inductive Follows : List Enclosure → Node → List StmtKind → Prop
  /-- A statement without statements in it. -/
  | leaf {E : List Enclosure} {node : Node} {kinds : List StmtKind} :
      node.type ∈ leafTypes → Follows E node kinds
  | leave {E : List Enclosure} {node : Node} {label : Option String} :
      node.type = "BreakStatement" → (breakTarget E).isSome = true →
      (actsOn E label = breakTarget E ↔ clearBreak (E.map (·.origin)) = true) →
      Follows E node [.jump .last label]
  | again {E : List Enclosure} {node : Node} {label : Option String} :
      node.type = "ContinueStatement" → (continueTarget E).isSome = true →
      (actsOn E label = continueTarget E ↔ clearContinue (E.map (·.origin)) = true) →
      Follows E node [.jump .next label]
  | block {E : List Enclosure} {node : Node} {label : Option String} {body : List Stmt} :
      node.type = "BlockStatement" →
      FollowsAll (⟨.block, label⟩ :: E) (node.children "body") (kindsOf body) →
      Follows E node [.block label body]
  | branch {E : List Enclosure} {node : Node} {cond : Expr} {thenBody : List Stmt}
      {elseBody : Option (List Stmt)} :
      node.type = "IfStatement" →
      FollowsAll E (node.statementsIn "consequent") (kindsOf thenBody) →
      FollowsAll E (node.statementsIn "alternate") (kindsOf (elseBody.getD [])) →
      Follows E node [.ifElse cond thenBody [] elseBody]
  /-- A branch whose test is known becomes one of its sides. -/
  | decided {E : List Enclosure} {node test : Node} {side : Bool} {kinds : List StmtKind} :
      node.type = "IfStatement" → node.child? "test" = some test →
      evaluateGuard test = some side →
      FollowsAll E (node.statementsIn (if side then "consequent" else "alternate")) kinds →
      Follows E node kinds
  /-- The body of a loop comes after what unpacks the item of a round. -/
  | loop {E : List Enclosure} {node : Node} {kind : StmtKind} {label : Option String}
      {unpacking body : List Stmt} :
      node.type ∈ loopTypes → kind.loop? = some (label, unpacking ++ body) →
      FollowsAll (⟨.loop, label⟩ :: E) (node.statementsIn "body") (kindsOf body) →
      Follows E node [kind]
  /-- A loop with several initializers is in a bare block after them. -/
  | loopAfter {E : List Enclosure} {node : Node} {kind : StmtKind} {label : Option String}
      {init body : List Stmt} {remarks : Remarks} :
      node.type ∈ loopTypes → kind.loop? = some (label, body) →
      FollowsAll (⟨.loop, label⟩ :: ⟨.block, none⟩ :: E) (node.statementsIn "body")
        (kindsOf body) →
      Follows E node [.block none (init ++ [⟨kind, remarks⟩])]
  | switch {E : List Enclosure} {node : Node} {label : Option String} {decl : Stmt}
      {arms : List (Option (List Expr) × List Stmt)} :
      node.type = "SwitchStatement" →
      FollowsArms (⟨.switch, label⟩ :: E) (switchArms (node.children "cases")) (arms.map (·.2)) →
      Follows E node [.block label (decl :: switchChain arms)]

inductive FollowsAll : List Enclosure → List Node → List StmtKind → Prop
  | nil {E : List Enclosure} : FollowsAll E [] []
  | cons {E : List Enclosure} {node : Node} {nodes : List Node} {first rest : List StmtKind} :
      Follows E node first → FollowsAll E nodes rest → FollowsAll E (node :: nodes) (first ++ rest)

inductive FollowsArms : List Enclosure → List SwitchArm → List (List Stmt) → Prop
  | nil {E : List Enclosure} : FollowsArms E [] []
  | cons {E : List Enclosure} {arm : SwitchArm} {arms : List SwitchArm} {body : List Stmt}
      {bodies : List (List Stmt)} :
      FollowsAll E arm.body (kindsOf body) → FollowsArms E arms bodies →
      FollowsArms E (arm :: arms) (body :: bodies)

end

/-! ## The source -/

/-- **Statements with jumps** without labels, nested in any way. Each jump has a target. What stands
in between, such as conditions and statements without others in them, is any node. -/
inductive Nests : List Origin → Node → Prop
  | leaf {origins : List Origin} {node : Node} :
      node.type ∈ leafTypes → Nests origins node
  | leave {origins : List Origin} {node : Node} :
      node.type = "BreakStatement" → node.child? "label" = none →
      (∃ origin ∈ origins, origin ≠ .block) → Nests origins node
  | again {origins : List Origin} {node : Node} :
      node.type = "ContinueStatement" → node.child? "label" = none → .loop ∈ origins →
      Nests origins node
  | block {origins : List Origin} {node : Node} :
      node.type = "BlockStatement" →
      (∀ child ∈ node.children "body", Nests (.block :: origins) child) → Nests origins node
  | branch {origins : List Origin} {node test : Node} :
      node.type = "IfStatement" → node.child? "test" = some test → evaluateGuard test = none →
      (∀ child ∈ node.statementsIn "consequent", Nests origins child) →
      (∀ child ∈ node.statementsIn "alternate", Nests origins child) → Nests origins node
  | decided {origins : List Origin} {node test : Node} {side : Bool} :
      node.type = "IfStatement" → node.child? "test" = some test →
      evaluateGuard test = some side →
      (∀ child ∈ node.statementsIn (if side then "consequent" else "alternate"),
        Nests origins child) →
      Nests origins node
  | loop {origins : List Origin} {node : Node} :
      node.type ∈ loopTypes → (node.type ∈ rangeTypes → (node.child? "right").isSome = true) →
      (∀ child ∈ node.statementsIn "body", Nests (.loop :: origins) child) → Nests origins node
  | switch {origins : List Origin} {node : Node} :
      node.type = "SwitchStatement" →
      (∀ case ∈ node.children "cases", ∀ child ∈ case.children "consequent",
        Nests (.switch :: origins) child) →
      Nests origins node

/-! ## Enclosures that grow -/

/-- Enclosures at a later point: loops may have got labels. -/
def Grows : List Enclosure → List Enclosure → Prop :=
  List.Forall₂ fun a b =>
    a.origin = b.origin ∧ (a.label = b.label ∨ a.origin = .loop ∧ a.label = none)

def OnlyLoops (E : List Enclosure) : Prop := ∀ e ∈ E, e.origin ≠ .loop → e.label = none

/-- The frames of enclosures, which bare blocks do not have. -/
def framesOf (E : List Enclosure) : List Frame :=
  E.filterMap fun e =>
    match e.origin with
    | .loop => some ⟨.loop, e.label⟩
    | .switch => some ⟨.switch, e.label⟩
    | .block => none

variable {E F G : List Enclosure}

theorem Grows.refl (E : List Enclosure) : Grows E E :=
  forall₂_same.2 fun _ _ => ⟨rfl, .inl rfl⟩

theorem Grows.trans (h : Grows E F) (h' : Grows F G) : Grows E G := by
  induction h generalizing G with
  | nil => exact h'
  | cons hab _ ih =>
    cases h' with
    | cons hbc hrest =>
      refine .cons ⟨hab.1.trans hbc.1, ?_⟩ (ih hrest)
      rcases hab.2 with heq | hloop
      · rcases hbc.2 with heq' | hloop'
        · exact .inl (heq.trans heq')
        · exact .inr ⟨hab.1.trans hloop'.1, heq.trans hloop'.2⟩
      · exact .inr hloop

theorem Grows.map_origin (h : Grows E F) : E.map (·.origin) = F.map (·.origin) := by
  induction h with
  | nil => rfl
  | cons hab _ ih => rw [map_cons, map_cons, hab.1, ih]

theorem Grows.onlyLoops (h : Grows E F) (hE : OnlyLoops E) : OnlyLoops F := by
  induction h with
  | nil => exact hE
  | @cons a b _ _ hab _ ih =>
    intro e he hloop
    rcases mem_cons.1 he with rfl | he
    · have ha : a.label = none := hE a mem_cons_self (by rw [hab.1]; exact hloop)
      rcases hab.2 with heq | ⟨horigin, -⟩
      · rw [← heq, ha]
      · exact absurd (hab.1 ▸ horigin) hloop
    · exact ih (fun e he => hE e (mem_cons_of_mem _ he)) e he hloop

/-- Frames that get labels are those of enclosures that have grown. -/
theorem exists_grows {frames : List Frame} (h : List.Forall₂ Labels (framesOf E) frames) :
    ∃ E', Grows E E' ∧ frames = framesOf E' := by
  induction E generalizing frames with
  | nil =>
    cases h
    exact ⟨[], .nil, rfl⟩
  | cons e E ih =>
    obtain ⟨origin, label⟩ := e
    cases origin with
    | block =>
      obtain ⟨E', hgrows, rfl⟩ := ih h
      exact ⟨⟨.block, label⟩ :: E', .cons ⟨rfl, .inl rfl⟩ hgrows, rfl⟩
    | loop =>
      cases h with
      | @cons _ frame _ frames hframe hrest =>
        obtain ⟨E', hgrows, rfl⟩ := ih hrest
        obtain ⟨kind, label'⟩ := frame
        obtain ⟨rfl, hlabel⟩ := hframe
        refine ⟨⟨.loop, label'⟩ :: E', .cons ⟨rfl, ?_⟩ hgrows, rfl⟩
        exact hlabel.imp id fun hnone => ⟨rfl, hnone.2⟩
    | switch =>
      cases h with
      | @cons _ frame _ frames hframe hrest =>
        obtain ⟨E', hgrows, rfl⟩ := ih hrest
        obtain ⟨kind, label'⟩ := frame
        obtain ⟨rfl, hlabel⟩ := hframe
        refine ⟨⟨.switch, label'⟩ :: E', .cons ⟨rfl, .inl ?_⟩ hgrows, rfl⟩
        exact hlabel.resolve_right fun hnone => hnone.1 rfl

/-! ## Steps inside enclosures -/

variable {α β : Type} {b : Below} {c : Context}

variable (E b c) in
/-- **A step inside enclosures** lets them grow, and its result has a property in all of their later
states. -/
def Reaches (x : Lower α) (Q : List Enclosure → α → Prop) : Prop :=
  ∀ s, s.frames = framesOf E → ∃ E', Grows E E' ∧ (x b c s).2.frames = framesOf E' ∧
    ∀ F, Grows E' F → Q F (x b c s).1

namespace Reaches

variable {x : Lower α} {f : α → Lower β} {P : List Enclosure → α → Prop}
variable {Q : List Enclosure → β → Prop}

theorem pure {a : α} (h : ∀ F, Grows E F → P F a) : Reaches E b c (pure a) P :=
  fun _ hs => ⟨E, .refl E, hs, h⟩

theorem bind (hx : Reaches E b c x P)
    (hf : ∀ E' a, Grows E E' → (∀ F, Grows E' F → P F a) → Reaches E' b c (f a) Q) :
    Reaches E b c (x >>= f) Q := by
  intro s hs
  obtain ⟨E', hgrows, hframes, hP⟩ := hx s hs
  obtain ⟨E'', hgrows', hframes', hQ⟩ := hf E' _ hgrows hP _ hframes
  exact ⟨E'', hgrows.trans hgrows', hframes', hQ⟩

theorem imp {P' : List Enclosure → α → Prop} (hx : Reaches E b c x P)
    (h : ∀ F a, Grows E F → P F a → P' F a) : Reaches E b c x P' := by
  intro s hs
  obtain ⟨E', hgrows, hframes, hP⟩ := hx s hs
  exact ⟨E', hgrows, hframes, fun F hF => h F _ (hgrows.trans hF) (hP F hF)⟩

/-- A step that only gives labels to loops lets the enclosures grow. -/
theorem of_orderly (hb : Sound b) (hx : Orderly x) : Reaches E b c x fun _ _ => True := by
  intro s hs
  obtain ⟨E', hgrows, hframes⟩ := exists_grows (hs ▸ (hx b hb c s).labels)
  exact ⟨E', hgrows, hframes, fun _ _ => trivial⟩

theorem inScope (hx : Reaches E b c x P) : Reaches E b c (inScope x) P := by
  intro s hs
  obtain ⟨E', hgrows, hframes, hP⟩ := hx { s with scopes := s.scopes.push } hs
  exact ⟨E', hgrows, hframes, hP⟩

/-- Inside a block of the source, which has no frame. -/
theorem inBlock (hx : Reaches (⟨.block, none⟩ :: E) b c x P) :
    Reaches E b c x fun F a => P (⟨.block, none⟩ :: F) a := by
  intro s hs
  obtain ⟨E', hgrows, hframes, hP⟩ := hx s hs
  cases hgrows with
  | @cons _ e _ E' he hgrows =>
    obtain ⟨origin, label⟩ := e
    obtain ⟨rfl, hlabel⟩ := he
    obtain rfl : none = label := by simpa using hlabel
    exact ⟨E', hgrows, hframes, fun F hF => hP _ (.cons ⟨rfl, .inl rfl⟩ hF)⟩

/-- Inside a construct, whose label is that of its frame in the end. -/
theorem inFrame {kind : FrameKind} {origin : Origin} (hkind : ∀ label E,
      framesOf (⟨origin, label⟩ :: E) = ⟨kind, label⟩ :: framesOf E)
    (hx : Reaches (⟨origin, none⟩ :: E) b c x P) :
    Reaches E b c (inFrame kind none x) fun F r => P (⟨origin, r.1⟩ :: F) r.2 := by
  intro s hs
  have hentered : ({ s with frames := ⟨kind, none⟩ :: s.frames } : State).frames =
      framesOf (⟨origin, none⟩ :: E) := by
    rw [hkind, hs]
  obtain ⟨E', hgrows, hframes, hP⟩ := hx _ hentered
  cases hgrows with
  | @cons _ e _ E' he hgrows =>
    obtain ⟨origin', label⟩ := e
    obtain ⟨rfl, -⟩ := he
    rw [hkind] at hframes
    refine ⟨E', hgrows, congrArg tail hframes, fun F hF => ?_⟩
    have hlabel : (Perl.inFrame kind none x b c s).1 = (label, (x b c
        { s with frames := ⟨kind, none⟩ :: s.frames }).1) :=
      congrArg (fun frames : List Frame => (frames.head?.bind (·.label), (x b c
        { s with frames := ⟨kind, none⟩ :: s.frames }).1)) hframes
    rw [hlabel]
    exact hP _ (.cons ⟨rfl, .inl rfl⟩ hF)

/-- What each step reaches is reached by the steps one after the other. -/
theorem mapM {R : List Enclosure → α → β → Prop} {l : List α}
    (h : ∀ a ∈ l, ∀ E', Grows E E' → Reaches E' b c (f a) fun F y => R F a y) :
    Reaches E b c (l.mapM f) fun F ys => List.Forall₂ (R F) l ys := by
  induction l generalizing E with
  | nil => exact .pure fun _ _ => .nil
  | cons a l ih =>
    rw [mapM_cons]
    refine .bind (h a mem_cons_self E (.refl E)) fun E₁ y hE₁ hy => ?_
    have hrest : ∀ a ∈ l, ∀ E', Grows E₁ E' → Reaches E' b c (f a) fun F y => R F a y :=
      fun a ha E' hE' => h a (mem_cons_of_mem _ ha) E' (hE₁.trans hE')
    refine .bind (ih hrest) fun E₂ ys hE₂ hys => .pure fun F hF => ?_
    exact .cons (hy F (hE₂.trans hF)) (hys F hF)

end Reaches

/-! ## Jumps -/

theorem breakTarget_eq (E : List Enclosure) :
    breakTarget E = (E.map (·.origin)).findIdx? (· != .block) := by
  rw [breakTarget, findIdx?_map]
  rfl

theorem continueTarget_eq (E : List Enclosure) :
    continueTarget E = (E.map (·.origin)).findIdx? (· == .loop) := by
  rw [continueTarget, findIdx?_map]
  rfl

/-- A `break` acts on the innermost enclosure. -/
theorem follows_leave {node : Node} (htype : node.type = "BreakStatement")
    (htarget : ∃ origin ∈ E.map (·.origin), origin ≠ .block) :
    Follows E node [.jump .last none] := by
  refine .leave htype ?_ ?_
  · rw [breakTarget_eq, findIdx?_isSome, any_eq_true]
    obtain ⟨origin, hmem, hne⟩ := htarget
    exact ⟨origin, hmem, by simpa using hne⟩
  · cases E with
    | nil => simp at htarget
    | cons e E =>
      rw [actsOn, if_neg (by simp), breakTarget, findIdx?_cons, clearBreak]
      cases horigin : e.origin <;> simp [horigin]

theorem exists_first_loop (h : .loop ∈ E.map (·.origin)) : ∃ inner label outer,
    E = inner ++ ⟨.loop, label⟩ :: outer ∧ ∀ e ∈ inner, e.origin ≠ .loop := by
  obtain ⟨before, after, heq, hbefore⟩ := eq_append_cons_of_mem h
  obtain ⟨inner, rest, rfl, rfl, hrest⟩ := map_eq_append_iff.1 heq
  obtain ⟨e, outer, rfl, horigin, -⟩ := map_eq_cons_iff.1 hrest
  refine ⟨inner, e.label, outer, ?_, fun x hx hloop => hbefore ?_⟩
  · obtain ⟨origin, label⟩ := e
    obtain rfl : origin = .loop := horigin
    rfl
  · rw [← hloop]
    exact mem_map_of_mem hx

theorem framesOf_append (E F : List Enclosure) : framesOf (E ++ F) = framesOf E ++ framesOf F :=
  filterMap_append

theorem takeWhile_framesOf {inner outer : List Enclosure} {label : Option String}
    (hinner : ∀ e ∈ inner, e.origin ≠ .loop) :
    (framesOf (inner ++ ⟨.loop, label⟩ :: outer)).takeWhile (·.kind == .switch) =
      framesOf inner := by
  have hswitch : ∀ frame ∈ framesOf inner, (frame.kind == .switch) = true := by
    intro frame hframe
    obtain ⟨e, he, hof⟩ := mem_filterMap.1 hframe
    obtain ⟨origin, label⟩ := e
    cases origin with
    | loop => exact absurd rfl (hinner _ he)
    | switch => cases hof; rfl
    | block => cases hof
  rw [framesOf_append, takeWhile_append_of_pos hswitch]
  exact append_nil _

variable {inner outer : List Enclosure}

theorem Grows.of_append_cons {e : Enclosure} (h : Grows (inner ++ e :: outer) F) :
    ∃ inner' e' outer', F = inner' ++ e' :: outer' ∧
      Grows inner inner' ∧ e.origin = e'.origin ∧
        (e.label = e'.label ∨ e.origin = .loop ∧ e.label = none) := by
  induction inner generalizing F with
  | nil =>
    cases h with
    | @cons _ e' _ outer' he _ => exact ⟨[], e', outer', rfl, .nil, he⟩
  | cons x inner ih =>
    cases h with
    | @cons _ x' _ _ hx hrest =>
      obtain ⟨inner', e', outer', rfl, hinner, he⟩ := ih hrest
      exact ⟨x' :: inner', e', outer', rfl, .cons hx hinner, he⟩

/-- Without a switch to leave, the way is clear if the loop is the innermost enclosure. -/
theorem clearContinue_of_blocks {label : Option String} (hinner : ∀ e ∈ inner, e.origin = .block) :
    clearContinue ((inner ++ ⟨.loop, label⟩ :: outer).map (·.origin)) = true ↔ inner = [] := by
  cases inner with
  | nil => simp [clearContinue]
  | cons e inner =>
    have he := hinner e mem_cons_self
    have hfind : ((e :: inner).map (·.origin)).find? (· != Origin.block) = none := by
      rw [find?_eq_none]
      intro origin horigin
      obtain ⟨x, hx, rfl⟩ := mem_map.1 horigin
      simp [hinner x hx]
    rw [clearContinue, map_append, find?_append, hfind]
    simp [he]

theorem clearContinue_of_switch (hinner : ∀ e ∈ inner, e.origin ≠ .loop)
    (hframes : framesOf inner ≠ []) : clearContinue ((inner ++ outer).map (·.origin)) = true := by
  have hsome : ((inner.map (·.origin)).find? (· != Origin.block)).isSome = true := by
    obtain ⟨frame, hframe⟩ := exists_mem_of_ne_nil _ hframes
    obtain ⟨e, he, hof⟩ := mem_filterMap.1 hframe
    rw [find?_isSome]
    refine ⟨e.origin, mem_map_of_mem he, ?_⟩
    cases horigin : e.origin <;> simp [horigin] at hof ⊢
  obtain ⟨origin, hfind⟩ := Option.isSome_iff_exists.1 hsome
  obtain ⟨e, he, rfl⟩ := mem_map.1 (mem_of_find?_eq_some hfind)
  have hne := find?_some hfind
  have hswitch : e.origin = .switch := by
    have := hinner e he
    cases horigin : e.origin <;> simp_all
  rw [clearContinue, map_append, find?_append, hfind, hswitch]
  simp

theorem frameLabel_loop {inner outer : List Enclosure} {label : Option String} {s : State}
    (hs : s.frames = framesOf (inner ++ ⟨.loop, label⟩ :: outer)) :
    ∃ name, (frameLabel (framesOf inner).length b c s).1 = some name ∧
      (frameLabel (framesOf inner).length b c s).2.frames =
        framesOf (inner ++ ⟨.loop, some name⟩ :: outer) ∧ (label = none ∨ label = some name) := by
  have hcons (label : Option String) : framesOf (inner ++ ⟨.loop, label⟩ :: outer) =
      framesOf inner ++ ⟨.loop, label⟩ :: framesOf outer := framesOf_append _ _
  rw [hcons] at hs
  have hframe : s.frames[(framesOf inner).length]? = some ⟨.loop, label⟩ := by
    rw [hs, getElem?_append_right (Nat.le_refl _), Nat.sub_self]
    rfl
  unfold frameLabel
  simp only [run_bind, run_get]
  rw [hframe]
  cases label with
  | some name => exact ⟨name, rfl, hs.trans (hcons _).symm, .inr rfl⟩
  | none =>
    refine ⟨_, rfl, ?_, .inl rfl⟩
    change s.frames.modify _ _ = _
    rw [hs, modify_append_cons, hcons]

theorem nextStmt_of_nil {s : State} (h : s.frames.takeWhile (·.kind == .switch) = []) :
    nextStmt b c s = (.plain (.jump .next none), s) := by
  rw [nextStmt, run_bind]
  change (if ((s.frames.takeWhile (·.kind == .switch)).length == 0) = true then _
    else _ : Lower Stmt) b c s = _
  rw [h]
  rfl

theorem nextStmt_of_ne_nil {s : State} {crossed : List Frame}
    (h : s.frames.takeWhile (·.kind == .switch) = crossed) (hne : crossed ≠ []) :
    nextStmt b c s = (.plain (.jump .next (frameLabel crossed.length b c s).1),
      (frameLabel crossed.length b c s).2) := by
  rw [nextStmt, run_bind]
  change (if ((s.frames.takeWhile (·.kind == .switch)).length == 0) = true then _
    else frameLabel (s.frames.takeWhile (·.kind == .switch)).length >>= _ : Lower Stmt) b c s = _
  rw [h, if_neg (by simpa using hne)]
  rfl

/-- A jump without a label goes on with the innermost loop. -/
theorem reaches_nextStmt {node : Node} (htype : node.type = "ContinueStatement")
    (hloop : .loop ∈ E.map (·.origin)) (hlabels : OnlyLoops E) :
    Reaches E b c nextStmt fun F stmt => Follows F node [stmt.kind] := by
  obtain ⟨inner, label, outer, rfl, hinner⟩ := exists_first_loop hloop
  have htarget : ∀ F, Grows (inner ++ ⟨.loop, label⟩ :: outer) F →
      continueTarget F = some inner.length := by
    intro F hF
    rw [continueTarget_eq, ← hF.map_origin, ← continueTarget_eq]
    exact findIdx?_append_cons (fun e he => by simpa using hinner e he) rfl
  intro s hs
  have hcrossed := @takeWhile_framesOf inner outer label hinner
  rw [← hs] at hcrossed
  by_cases hempty : framesOf inner = []
  · -- Only bare blocks are in between, and the jump has no label.
    rw [nextStmt_of_nil (hcrossed.trans hempty)]
    refine ⟨_, .refl _, hs, fun F hF => .again htype (by rw [htarget F hF]; rfl) ?_⟩
    have hblocks : ∀ e ∈ inner, e.origin = .block := by
      intro e he
      have hnone := filterMap_eq_nil_iff.1 hempty e he
      have hne := hinner e he
      cases horigin : e.origin <;> simp_all
    have hF' : F.isEmpty = false := by
      obtain ⟨_, _, _, rfl, -⟩ := hF.of_append_cons
      simp
    rw [htarget F hF, ← hF.map_origin, clearContinue_of_blocks hblocks, actsOn, hF']
    simp [eq_comm]
  · -- A switch is in between, and the jump has the label of the loop.
    rw [nextStmt_of_ne_nil hcrossed hempty]
    obtain ⟨name, hname, hframes, hlabel⟩ := @frameLabel_loop b c inner outer label s hs
    have hgrows : Grows (inner ++ ⟨.loop, label⟩ :: outer)
        (inner ++ ⟨.loop, some name⟩ :: outer) := by
      refine rel_append (Grows.refl inner) (.cons ⟨rfl, ?_⟩ (Grows.refl outer))
      exact hlabel.symm.imp id fun h => ⟨rfl, h⟩
    refine ⟨_, hgrows, hframes, fun F hF => ?_⟩
    have hF' := hgrows.trans hF
    rw [hname]
    refine .again htype (by rw [htarget F hF']; rfl) (iff_of_true ?_ ?_)
    · rw [htarget F hF']
      obtain ⟨inner', e, outer', rfl, hgrown, horigin, hkept⟩ := hF.of_append_cons
      have hlength : inner'.length = inner.length := hgrown.length_eq.symm
      rw [actsOn, ← hlength]
      refine findIdx?_append_cons (fun x hx => ?_) ?_
      · have hnone : x.label = none := by
          refine hF'.onlyLoops hlabels x (mem_append_left _ hx) fun hx' => ?_
          have hmem : x.origin ∈ inner.map (·.origin) := by
            rw [hgrown.map_origin]
            exact mem_map_of_mem hx
          obtain ⟨y, hy, hyx⟩ := mem_map.1 hmem
          exact hinner y hy (hyx.trans hx')
        simp [hnone]
      · have hkept : e.label = some name := by simpa [eq_comm] using hkept
        simp [hkept]
    · rw [← hF'.map_origin]
      exact clearContinue_of_switch hinner hempty

end Scriptgen.Perl
