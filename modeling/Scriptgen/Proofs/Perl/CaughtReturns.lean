import Scriptgen.Proofs.Jumps
import Scriptgen.Proofs.Perl.Orderly
/-!
# Returns in protected blocks

A `return` in an `eval` block leaves the block and not the sub. The code of a function has such a
`return` exactly if blocks are not protected natively and a `return` of the function itself stands
in one, at any depth (`CaughtReturn`). `Traces` says it of all statements at once, and code that
comes from elsewhere is `Hushed`: it returns nothing. Main result: `returnsInEval_iff_caughtReturn`.
-/

namespace Scriptgen.Perl

open Lowering Fitting Returning Switch Ensures Node List

variable {α β : Type} {b : Below} {c : Context} {t : Bool}

/-! ## Returns of the program -/

/-- The arms that the chain of a switch keeps: those with labels, and the last default one. -/
def keptArms (arms : List SwitchArm) : List SwitchArm :=
  arms.filter (!·.isDefault) ++ (arms.reverse.find? (·.isDefault)).toList

/-- The statements of a branch that its code keeps. A guard that can be decided leaves one side. -/
def keptSides (node : Node) : List Node :=
  match node.child? "test" with
  | none => []
  | some test =>
    match evaluateGuard test with
    | some decided => node.statementsIn (if decided then "consequent" else "alternate")
    | none => node.statementsIn "consequent" ++ node.statementsIn "alternate"

def handlerStatements (handler : Node) : List Node :=
  (handler.child? "body").elim [] (·.children "body")

/-- The statements of the handler and the cleanup of a protected block. -/
def clauseStatements (node : Node) : List Node :=
  (node.child? "handler").elim [] handlerStatements ++ node.statementsIn "finalizer"

/-- The statements right below a statement whose code is part of its code, those of a protected
block apart. -/
def openStatements (node : Node) : List Node :=
  match node.type with
  | "BlockStatement" => node.children "body"
  | "IfStatement" => keptSides node
  | "ForStatement" | "WhileStatement" | "DoWhileStatement" => node.statementsIn "body"
  | "ForOfStatement" | "ForInStatement" =>
    if (node.child? "right").isSome then node.statementsIn "body" else []
  | "LabeledStatement" => (node.child? "body").toList
  | "SwitchStatement" => (keptArms (switchArms (node.children "cases"))).flatMap (·.body)
  | "TryStatement" => clauseStatements node
  | _ => []

def protectedStatements (node : Node) : List Node :=
  if node.type == "TryStatement" then node.statementsIn "block" else []

/-- **A return of a statement stands in a protected block that catches it.** `caught` tells whether
the statement stands in one itself. A native block lets returns through. -/
inductive CaughtReturn (native : Bool) : Bool → Node → Prop
  | here {node : Node} : node.type = "ReturnStatement" → CaughtReturn native true node
  | nested {caught : Bool} {node inner : Node} : inner ∈ openStatements node →
      CaughtReturn native caught inner → CaughtReturn native caught node
  | guarded {caught : Bool} {node inner : Node} : inner ∈ protectedStatements node →
      CaughtReturn native (caught || !native) inner → CaughtReturn native caught node

/-- The same down to some depth. -/
def caughtWithin (native : Bool) : Nat → Bool → Node → Bool
  | 0, _, _ => false
  | depth + 1, caught, node =>
    (caught && node.type == "ReturnStatement") ||
      (openStatements node).any (caughtWithin native depth caught) ||
      (protectedStatements node).any (caughtWithin native depth (caught || !native))

variable {kind : FrameKind} {arm : SwitchArm} {a : α}

theorem mem_of_mem_keptArms {arms : List SwitchArm} (h : arm ∈ keptArms arms) : arm ∈ arms := by
  rcases mem_append.1 h with h | h
  · exact mem_of_mem_filter h
  · rw [Option.mem_toList] at h
    exact mem_reverse.1 (mem_of_find?_eq_some h)

variable {inner : Node} {γ : Type}

theorem height_of_mem_keptSides {node : Node} (h : inner ∈ keptSides node) :
    inner.height < node.height := by
  unfold keptSides at h
  split at h
  · simp at h
  · split at h
    · exact height_of_mem_statementsIn h
    · rcases mem_append.1 h with h | h <;> exact height_of_mem_statementsIn h

theorem height_of_mem_clauseStatements {node : Node} (h : inner ∈ clauseStatements node) :
    inner.height < node.height := by
  rcases mem_append.1 h with h | h
  · cases hhandler : node.child? "handler" with
    | none => simp [hhandler] at h
    | some handler =>
      simp only [hhandler, Option.elim_some, handlerStatements] at h
      cases hbody : handler.child? "body" with
      | none => simp [hbody] at h
      | some body =>
        rw [hbody] at h
        have hinner : inner.height < body.height := height_of_mem_children h
        exact hinner.trans ((height_of_child? hbody).trans (height_of_child? hhandler))
  · exact height_of_mem_statementsIn h

theorem height_of_mem_openStatements {node : Node} (h : inner ∈ openStatements node) :
    inner.height < node.height := by
  unfold openStatements at h
  split at h
  · exact height_of_mem_children h
  · exact height_of_mem_keptSides h
  iterate 3 exact height_of_mem_statementsIn h
  iterate 2
    split at h
    · exact height_of_mem_statementsIn h
    · simp at h
  · exact height_of_child? (Option.mem_toList.1 h)
  · obtain ⟨arm, harm, hinner⟩ := mem_flatMap.1 h
    obtain ⟨case, hcase, hmem⟩ := exists_case_of_mem_switchArms (mem_of_mem_keptArms harm) hinner
    exact (height_of_mem_children hmem).trans (height_of_mem_children hcase)
  · exact height_of_mem_clauseStatements h
  · simp at h

theorem height_of_mem_protectedStatements {node : Node}
    (h : inner ∈ protectedStatements node) : inner.height < node.height := by
  unfold protectedStatements at h
  split at h
  · exact height_of_mem_statementsIn h
  · simp at h

theorem caughtWithin_iff {native caught : Bool} {depth : Nat} {node : Node}
    (h : node.height ≤ depth) :
    caughtWithin native depth caught node = true ↔ CaughtReturn native caught node := by
  induction depth generalizing caught node with
  | zero =>
    rw [node.height_eq] at h
    omega
  | succ depth ih =>
    simp only [caughtWithin, Bool.or_eq_true, Bool.and_eq_true, beq_iff_eq, any_eq_true]
    constructor
    · rintro ((⟨rfl, htype⟩ | ⟨inner, hinner, hcaught⟩) | ⟨inner, hinner, hcaught⟩)
      · exact .here htype
      · have := height_of_mem_openStatements hinner
        exact .nested hinner ((ih (by omega)).1 hcaught)
      · have := height_of_mem_protectedStatements hinner
        exact .guarded hinner ((ih (by omega)).1 hcaught)
    · intro hcaught
      cases hcaught with
      | here htype => exact .inl (.inl ⟨rfl, htype⟩)
      | nested hinner hcaught =>
        have := height_of_mem_openStatements hinner
        exact .inl (.inr ⟨_, hinner, (ih (by omega)).2 hcaught⟩)
      | guarded hinner hcaught =>
        have := height_of_mem_protectedStatements hinner
        exact .inr ⟨_, hinner, (ih (by omega)).2 hcaught⟩

theorem not_caughtReturn_native {node : Node} : ¬ CaughtReturn true false node := by
  generalize hcaught : false = caught
  intro h
  induction h with
  | here => cases hcaught
  | nested _ _ ih => exact ih hcaught
  | guarded _ _ ih => exact ih (by rw [← hcaught]; rfl)

/-! ## Steps -/

/-- The initializers that wait for an object do not return, in a callback that has become a loop or
elsewhere. -/
def Waiting (l : Bool) (s : State) : Prop :=
  s.place.inLoopCallback = l ∧ ∀ t, returns t s.pendingFields = false

variable {l : Bool}

theorem Waiting.changes {s s' : State} (h : Waiting l s) (hs : Changes s s') : Waiting l s' := by
  refine ⟨hs.place.inLoopCallback.trans h.1, fun t => ?_⟩
  rcases hs.pendingFields with heq | heq
  · rw [heq]
    exact h.2 t
  · rw [heq]
    rfl

/-- Silent code of the type does not return. -/
class Silent (α : Type) [Fitting Policy α] [Returning α] : Prop where
  quiet : ∀ {a : α}, Fits (anywhere true false) a → ∀ t, returns t a = false

instance : Silent Expr := ⟨fun h => h.2 rfl⟩

instance : Silent Stmt := ⟨fun h => h.2 rfl⟩

instance : Silent Param := ⟨fun h => h.2 rfl⟩

instance (priority := low) {α : Type} [Fitting Policy α] : @Silent α _ returningOther :=
  ⟨fun _ _ => rfl⟩

section Containers

variable [Fitting Policy α] [Returning α] [Silent α] [Fitting Policy β] [Returning β] [Silent β]

instance : Silent (Option α) where
  quiet {a} h t := by
    cases a with
    | none => rfl
    | some a => exact Silent.quiet (h a rfl) t

instance : Silent (List α) := ⟨fun h t => returns_list_eq_false.2 fun a ha => Silent.quiet (h a ha) t⟩

instance : Silent (α × β) :=
  ⟨fun h t => Bool.or_eq_false_iff.2 ⟨Silent.quiet h.1 t, Silent.quiet h.2 t⟩⟩

end Containers

theorem Waiting.fits {s : State} (h : Waiting l s) : Fits (anywhere true false) s := by
  intro inits hinits stmt hstmt
  refine ⟨fun _ _ _ => trivial, fun _ t => ?_⟩
  have hall := h.2 t
  rw [hinits, returns_some] at hall
  exact returns_list_eq_false.1 hall stmt hstmt

variable (b c t) in
/-- The code that a step gives has no returns. -/
def Hushed [Returning α] (x : Lower α) : Prop :=
  ∀ l, Ensures (Waiting l) b c x fun a => returns t a = false

variable (b c t) in
/-- The code that an attempt may give has no returns. -/
def HushedTry [Returning α] (x : Attempt α) : Prop := Hushed b c t x.run

namespace Hushed

variable [Returning α] [Returning β] {x : Lower α} {k : α → Lower β}

@[grind ←]
theorem pure (h : returns t a = false) : Hushed b c t (pure a) := fun _ => Ensures.pure h

@[grind ←]
theorem bind (hx : Hushed b c t x) (hk : ∀ a, returns t a = false → Hushed b c t (k a)) :
    Hushed b c t (x >>= k) :=
  fun l => Ensures.bind (hx l) fun a ha => hk a ha l

@[grind ←]
theorem inScope (hx : Hushed b c t x) : Hushed b c t (inScope x) :=
  fun l s hs => hx l { s with scopes := s.scopes.push } hs

@[grind ←]
theorem of_makes [Twinned α] [Fitting Policy α] [Silent α] (hb : Sound b)
    (hx : Same (anywhere true false) True x) : Hushed b c t x :=
  fun _ s hs => ⟨hs.changes ((hx b hb).leads c s).changes,
    Silent.quiet ((hx b hb).fits c s trivial trivial trivial hs.fits).1 t⟩

end Hushed

namespace HushedTry

variable [Returning α] [Returning β] {x : Attempt α} {k : α → Attempt β}

@[grind ←]
theorem pure (h : returns t a = false) : HushedTry b c t (pure a) := fun _ _ hs => ⟨hs, h⟩

@[grind ←]
theorem failure : HushedTry b c t (failure : Attempt α) := fun _ _ hs => ⟨hs, rfl⟩

@[grind ←]
theorem lift {x : Lower α} (hx : Hushed b c t x) : HushedTry b c t (liftM x : Attempt α) := hx

@[grind ←]
theorem bind (hx : HushedTry b c t x) (hk : ∀ a, returns t a = false → HushedTry b c t (k a)) :
    HushedTry b c t (x >>= k) := by
  intro l s hs
  obtain ⟨hs', hfirst⟩ := hx l s hs
  rw [attempt_bind]
  rcases hrun : x.run b c s with ⟨_ | a, s'⟩ <;> rw [hrun] at hs' hfirst
  · exact ⟨hs', rfl⟩
  · exact hk a hfirst l s' hs'

@[grind ←]
theorem orElse {y : Unit → Attempt α} (hx : HushedTry b c t x) (hy : ∀ u, HushedTry b c t (y u)) :
    HushedTry b c t (HOrElse.hOrElse x y) := by
  intro l s hs
  obtain ⟨hs', hfirst⟩ := hx l s hs
  change Waiting l ((x <|> y ()).run b c s).2 ∧ _
  rw [show HOrElse.hOrElse x y = (x <|> y ()) from rfl, attempt_orElse]
  rcases hrun : x.run b c s with ⟨_ | a, s'⟩ <;> rw [hrun] at hs' hfirst
  · exact hy () l s' hs'
  · exact ⟨hs', hfirst⟩

@[grind ←]
theorem need (a : Option γ) : @HushedTry γ b c t returningOther (need a) :=
  fun _ _ hs => ⟨hs, returns_option_other _⟩

theorem mapM {l : List γ} {k : γ → Attempt β} (hk : ∀ a, HushedTry b c t (k a)) :
    HushedTry b c t (l.mapM k) := by
  induction l with
  | nil => exact pure returns_nil
  | cons a l ih =>
    rw [mapM_cons]
    refine bind (hk a) fun y hy => bind ih fun ys hys => pure ?_
    rw [returns_cons, hy, hys]
    rfl

end HushedTry

@[grind ←]
theorem Hushed.orUse [Returning α] {attempt : Attempt α} {x : Lower α}
    (hattempt : HushedTry b c t attempt) (hx : Hushed b c t x) :
    Hushed b c t (orUse attempt x) := by
  refine .bind hattempt fun result hresult => ?_
  cases result with
  | some a => exact .pure hresult
  | none => exact hx

/-! ## Statements -/

/-- What is known of the level below: the returns of its code that are caught. Expressions have no
returns of their own, and in a callback that has become a loop a return is a jump. -/
structure Traces (b : Below) (depth : Nat) : Prop where
  sound : Sound b
  exprStmt : ∀ node c s t l, Waiting l s → returns t (b.exprStmt node c s).1 = false
  stmt : ∀ label node c s t l, Waiting l s → returns t (b.stmt label node c s).1 =
    (!l && caughtWithin c.options.modernSyntax depth t node)

def anyCaught (l : Bool) (c : Context) (depth : Nat) (t : Bool) (nodes : List Node) : Bool :=
  !l && nodes.any (caughtWithin c.options.modernSyntax depth t)

@[simp]
theorem anyCaught_nil (depth : Nat) : anyCaught l c depth t [] = false := Bool.and_false _

@[simp]
theorem anyCaught_append (depth : Nat) (nodes nodes' : List Node) :
    anyCaught l c depth t (nodes ++ nodes') =
      (anyCaught l c depth t nodes || anyCaught l c depth t nodes') := by
  rw [anyCaught, any_append, Bool.and_or_distrib_left]
  rfl

theorem anyCaught_cons (depth : Nat) (node : Node) (nodes : List Node) :
    anyCaught l c depth t (node :: nodes) =
      (anyCaught l c depth t [node] || anyCaught l c depth t nodes) :=
  anyCaught_append depth [node] nodes

theorem ensures_inFrame {x : Lower α} {Q : α → Prop} {label : Option String}
    (hx : Ensures (Waiting l) b c x Q) :
    Ensures (Waiting l) b c (inFrame kind label x) fun result => Q result.2 :=
  fun s hs => hx { s with frames := ⟨kind, label⟩ :: s.frames } hs

theorem ensures_atPlace {x : Lower α} {Q : α → Prop} {enter : Place → Place}
    {leave : Place → Place → Place} (l' : Bool)
    (henter : ∀ p : Place, p.inLoopCallback = l → (enter p).inLoopCallback = l')
    (hleave : ∀ p q : Place, p.inLoopCallback = l → q.inLoopCallback = l' →
      (leave p q).inLoopCallback = l) (hx : Ensures (Waiting l') b c x Q) :
    Ensures (Waiting l) b c (atPlace enter leave x) Q := by
  intro s hs
  obtain ⟨hs', hresult⟩ := hx { s with place := enter s.place } ⟨henter _ hs.1, hs.2⟩
  exact ⟨⟨hleave _ _ hs.1 hs'.1, hs'.2⟩, hresult⟩

variable (b c t l) in
/-- The code that a step gives has the caught returns of some statements. -/
def Catches [Returning α] (depth : Nat) (nodes : List Node) (x : Lower α) : Prop :=
  Ensures (Waiting l) b c x fun a => returns t a = anyCaught l c depth t nodes

namespace Catches

variable [Returning α] [Returning β] {depth : Nat} {nodes : List Node} {x : Lower α}

theorem of_hushed (hx : Hushed b c t x) : Catches b c t l depth [] x :=
  fun s hs => ⟨(hx l s hs).1, (hx l s hs).2.trans (anyCaught_nil depth).symm⟩

variable {k : α → Lower β}

theorem after (hx : Hushed b c t x)
    (hk : ∀ a, returns t a = false → Catches b c t l depth nodes (k a)) :
    Catches b c t l depth nodes (x >>= k) := Ensures.bind (hx l) hk

theorem bind {nodes' : List Node} (hx : Catches b c t l depth nodes x)
    (hk : ∀ a, returns t a = anyCaught l c depth t nodes → Catches b c t l depth nodes' (k a)) :
    Catches b c t l depth nodes' (x >>= k) := Ensures.bind hx hk

theorem pure (h : returns t a = anyCaught l c depth t nodes) :
    Catches b c t l depth nodes (pure a) := Ensures.pure h

theorem inScope (hx : Catches b c t l depth nodes x) : Catches b c t l depth nodes (inScope x) :=
  fun s hs => hx { s with scopes := s.scopes.push } hs

theorem inFrame {label : Option String} (hx : Catches b c t l depth nodes x) :
    Catches b c t l depth nodes (inFrame kind label x) := by
  intro s hs
  obtain ⟨hs', hreturns⟩ := ensures_inFrame hx s hs
  refine ⟨hs', ?_⟩
  rw [← hreturns]
  exact congrArg (· || _) (returns_option_other _)

theorem mapM {o : Option γ} {f : γ → List Node} {k : γ → Lower α}
    (hk : ∀ a, Catches b c t l depth (f a) (k a)) :
    Catches b c t l depth (o.elim [] f) (o.mapM k) := by
  cases o with
  | none => exact .of_hushed (.pure rfl)
  | some a => exact .bind (hk a) fun code hcode => .pure hcode

end Catches

section Statements

variable {depth : Nat} (hb : Traces b depth) (node : Node) (node? : Option Node)
  (label : Option String)
include hb

theorem catches_below : Catches b c t l depth [node] (fun below => below.stmt label node) := by
  intro s hs
  refine ⟨hs.changes
    (Orderly.of_makes (makes_stmtBelow label fun _ => fits_node node) b hb.sound c s), ?_⟩
  rw [anyCaught, any_cons, any_nil, Bool.or_false]
  exact hb.stmt label node c s t l hs

theorem catches_stmt : Catches b c t l depth [node] (stmt node) := by
  intro s hs
  refine ⟨hs.changes (Orderly.of_makes (makes_stmt fun _ => fits_node node) b hb.sound c s), ?_⟩
  have hcode := (catches_below (c := c) (t := t) hb node none s hs).2
  rw [← hcode, stmt_run]
  cases (b.stmt none node c s).1 with
  | nil => rfl
  | cons first rest =>
    obtain ⟨kind, remarks⟩ := first
    change returns t ((if remarks = .none then _ else _) :: rest) = _
    split <;> rfl

theorem catches_stmts (nodes : List Node) : Catches b c t l depth nodes (stmts nodes) := by
  refine bind (mapM fun node _ => catches_stmt (t := t) hb node)
    fun codes hcodes => ?_
  refine pure ?_
  rw [returns_flatten]
  induction hcodes with
  | nil => simp
  | cons hcode _ ih => rw [returns_cons, hcode, ih, ← anyCaught_cons]

theorem catches_scopedStmts (nodes : List Node) : Catches b c t l depth nodes (scopedStmts nodes) :=
  (catches_stmts hb nodes).inScope

theorem catches_branch : Catches b c t l depth (node?.elim [] asStatements) (branch node?) := by
  cases node? with
  | none => exact .of_hushed (.pure rfl)
  | some node => exact catches_scopedStmts hb _

theorem catches_alternative : Catches b c t l depth node.asStatements (alternative node) := by
  unfold alternative
  split
  · rename_i htype
    have hsingle : node.asStatements = [node] := by
      rw [asStatements, beq_iff_eq.1 htype]
      rfl
    rw [hsingle]
    exact (catches_stmt hb node).inScope
  · exact catches_branch hb (some node)

theorem catches_loopBody :
    Catches b c t l depth (node?.elim [] asStatements) (loopBody label node?) :=
  (catches_branch hb node?).inFrame

theorem catches_ifStmt : Catches b c t l depth (keptSides node) (ifStmt node) := by
  unfold keptSides ifStmt
  cases node.child? "test" with
  | none => exact .of_hushed (.pure rfl)
  | some test =>
    dsimp only
    cases evaluateGuard test with
    | some decided =>
      dsimp only [statementsIn]
      cases node.child? (if decided then "consequent" else "alternate") with
      | none => exact .of_hushed (.pure rfl)
      | some taken => exact catches_stmts hb _
    | none =>
      refine .after (.of_makes hb.sound (by grind)) fun cond hcond => ?_
      refine .bind (catches_branch hb _) fun thenBranch hthen => ?_
      refine .bind (.mapM (catches_alternative hb)) fun elseBranch helse => .pure ?_
      simp [hcond, hthen, helse, statementsIn]

theorem catches_forStmt : Catches b c t l depth (node.statementsIn "body") (forStmt node label) := by
  unfold forStmt
  refine .inScope (.after (.of_makes hb.sound (by grind)) fun head hinit => ?_)
  obtain ⟨before, init⟩ := head
  simp only [returns_pair, Bool.or_eq_false_iff] at hinit
  have hsound := hb.sound
  refine .after (by grind) fun cond hcond => ?_
  split
  on_goal 1 => refine .after (.of_makes hsound (by grind)) fun step hstep => ?_
  on_goal 2 => refine .after (.pure rfl) fun step hstep => ?_
  all_goals
    refine .bind (catches_loopBody hb _ _) fun loop hbody => ?_
    obtain ⟨label, body⟩ := loop
    refine .pure ?_
    simp only [returns_pair, returns_option_other, Bool.false_or] at hbody
    simp [hinit, hcond, hstep, hbody, statementsIn]

theorem catches_foreachOver {list : Expr} (hlist : returns t list = false) :
    Catches b c t l depth (node.statementsIn "body") (foreachOver node label list) := by
  unfold foreachOver
  refine .inScope (.after (.of_makes hb.sound (by grind)) fun ⟨var, unpacking⟩ hunpacking => ?_)
  refine .bind (catches_loopBody hb _ _) fun ⟨label, body⟩ hbody => .pure ?_
  simp only [returns_pair, returns_option_other, returns_other, Bool.false_or] at hbody hunpacking
  simp [hlist, hunpacking, hbody, statementsIn]

theorem catches_whileStmt :
    Catches b c t l depth (node.statementsIn "body") (whileStmt node label) := by
  unfold whileStmt
  have hsound := hb.sound
  refine .after (.of_makes hsound (by grind)) fun cond hcond => ?_
  refine .bind (catches_loopBody hb _ _) fun ⟨label, body⟩ hbody => .pure ?_
  simp only [returns_pair, returns_option_other, Bool.false_or] at hbody
  simp [hcond, hbody, statementsIn]

theorem catches_forOfStmt :
    Catches b c t l depth (if (node.child? "right").isSome then node.statementsIn "body" else [])
      (forOfStmt node label) := by
  unfold forOfStmt
  cases node.child? "right" with
  | none => exact .of_hushed (.pure rfl)
  | some right =>
    exact .after (.of_makes hb.sound (by grind)) fun list hlist =>
      catches_foreachOver hb node label hlist

theorem catches_forInStmt :
    Catches b c t l depth (if (node.child? "right").isSome then node.statementsIn "body" else [])
      (forInStmt node label) := by
  unfold forInStmt
  cases node.child? "right" with
  | none => exact .of_hushed (.pure rfl)
  | some right =>
    have hsound := hb.sound
    have hover (list : Expr) (hlist : returns t list = false) :=
      catches_foreachOver (c := c) (l := l) hb node label hlist
    rw [Option.isSome_some, if_pos rfl]
    refine .after (.of_makes hsound (by grind)) fun isList _ => ?_
    dsimp only
    split
    · refine .after (.of_makes hsound (x := arrayBase _) (by grind)) fun base hbase => ?_
      exact .after (.pure (by simpa [indicesFrom] using hbase)) hover
    · refine .after (.of_makes hsound (x := hashOf _) (by grind)) fun base hbase => ?_
      exact .after (.pure (by simpa using hbase)) hover

end Statements

/-! ## Switches -/

variable (c t l) in
structure ArmCode (depth : Nat) (arm : SwitchArm) (code : Option (List Expr) × List Stmt) :
    Prop where
  isDefault : code.1.isNone = arm.isDefault
  labelled : code.1 ≠ some []
  tests : returns t code.1 = false
  body : returns t code.2 = anyCaught l c depth t arm.body

section Switches

variable {depth : Nat} {arms : List SwitchArm} {codes : List (Option (List Expr) × List Stmt)}

theorem returns_of_forall₂ {tests : List Node} {exprs : List Expr}
    (h : List.Forall₂ (fun _ expr => returns t expr = false) tests exprs) :
    returns t exprs = false := by
  induction h with
  | nil => rfl
  | cons hexpr _ ih => rw [returns_cons, hexpr, ih, Bool.or_false]

theorem returns_foldl_binary (e : Expr) (rest : List Expr) (op : BinaryOp) :
    returns t (rest.foldl (binary op) e) = (returns t e || returns t rest) := by
  induction rest generalizing e with
  | nil => simp
  | cons first rest ih => simp [ih, Bool.or_assoc]

variable (h : List.Forall₂ (ArmCode c t l depth) arms codes)

include h

theorem returns_cases : returns t (codes.filterMap fun (tests, body) => match tests with
      | some (first :: rest) => some (rest.foldl (binary .or) first, body)
      | _ => none) = anyCaught l c depth t ((arms.filter (!·.isDefault)).flatMap (·.body)) := by
  induction h with
  | nil => simp
  | @cons arm code arms codes hcode _ ih =>
    obtain ⟨tests, body⟩ := code
    have hdefault := hcode.isDefault
    match tests, hcode.labelled, hcode.tests with
    | none, _, _ =>
      rw [filter_cons_of_neg (by simp [← hdefault])]
      exact ih
    | some (first :: rest), _, htests =>
      rw [filter_cons_of_pos (by simp [← hdefault]), flatMap_cons, anyCaught_append,
        ← hcode.body, ← ih]
      change (returns t _ || returns t body || _) = _
      have hfirst : returns t (first :: rest) = false := htests
      rw [returns_foldl_binary, ← returns_cons, hfirst, Bool.false_or]
      rfl
    | some [], hne, _ => exact absurd rfl hne

theorem returns_default : returns t ((codes.find? (·.1.isNone)).map (·.2)) =
      anyCaught l c depth t ((arms.find? (·.isDefault)).toList.flatMap (·.body)) := by
  induction h with
  | nil => simp
  | @cons arm code arms codes hcode _ ih =>
    have hdefault := hcode.isDefault
    cases harm : arm.isDefault with
    | false =>
      rw [find?_cons_of_neg (by simp [hdefault, harm]),
        find?_cons_of_neg (by simp [harm]), ih]
    | true =>
      rw [find?_cons_of_pos (by simp [hdefault, harm]),
        find?_cons_of_pos (by simp [harm])]
      simpa using hcode.body

theorem returns_switchChain :
    returns t (switchChain codes) = anyCaught l c depth t ((keptArms arms).flatMap (·.body)) := by
  rw [keptArms, flatMap_append, anyCaught_append, ← returns_cases h,
    ← returns_default (forall₂_reverse_iff.2 h)]
  unfold switchChain
  dsimp only
  split
  · rename_i hcases
    refine Eq.trans ?_ (congrArg (returns t · || _) hcases).symm
    cases (codes.reverse.find? (·.1.isNone)).map (·.2) <;> simp
  · rename_i hcases
    refine Eq.trans ?_ (congrArg (returns t · || _) hcases).symm
    simp

omit h

variable (hb : Traces b depth)
include hb

theorem catches_switchArm (var : String) (hlabelled : arm.isDefault = false → arm.tests ≠ []) :
    Ensures (Waiting l) b c (switchArm var arm) (ArmCode c t l depth arm) := by
  unfold switchArm
  refine bind (catches_scopedStmts (t := t) hb arm.body) fun body hbody => ?_
  split
  · rename_i hdefault
    exact pure ⟨hdefault.symm, by simp, rfl, hbody⟩
  · rename_i hdefault
    rw [Bool.not_eq_true] at hdefault
    have hsound := hb.sound
    have htests : Ensures (Waiting l) b c (arm.tests.mapM (caseTest var))
        (List.Forall₂ (fun _ code => returns t code = false) arm.tests) := by
      refine mapM fun test _ => ?_
      refine (show Hushed b c t _ from ?_) l
      unfold caseTest
      grind
    refine bind htests fun codes hcodes => pure ⟨hdefault.symm, ?_, ?_, hbody⟩
    · rintro ⟨⟩
      exact hlabelled hdefault (forall₂_nil_right_iff.1 hcodes)
    · exact returns_of_forall₂ hcodes

theorem catches_switchStmt (node : Node) (label : Option String) :
    Catches b c t l depth ((keptArms (switchArms (node.children "cases"))).flatMap (·.body))
      (switchStmt node label) := by
  have hsound := hb.sound
  refine .after (.of_makes hsound (by grind)) fun discriminant hdiscriminant => ?_
  refine .after (.of_makes hsound (makes_fresh _)) fun var _ => ?_
  have harms : Ensures (Waiting l) b c ((switchArms (node.children "cases")).mapM (switchArm var))
      (List.Forall₂ (ArmCode c t l depth) (switchArms (node.children "cases"))) :=
    mapM fun arm harm => catches_switchArm hb var (tests_ne_nil_of_mem_switchArms harm)
  refine bind (ensures_inFrame harms) fun ⟨label, codes⟩ hcodes => pure ?_
  simp [hdiscriminant, returns_switchChain hcodes]

end Switches

/-! ## Errors and returns -/

section Errors

variable {depth : Nat} (hb : Traces b depth) (node : Node)
include hb

theorem catches_handlerClause :
    Catches b c t l depth (handlerStatements node) (handlerClause node) := by
  have hsound := hb.sound
  unfold handlerClause
  dsimp only
  split
  on_goal 1 => refine .after (.pure rfl) fun var _ => ?_
  on_goal 2 => refine .after (.of_makes hsound (makes_fresh _)) fun var _ => ?_
  all_goals
    refine .inScope (.after (.of_makes hsound (makes_declareScalar _)) fun _ _ => ?_)
    -- The place of the handler is another one, but for returns it is the same.
    refine bind (Q := _) (P := fun body =>
      returns t body = anyCaught l c depth t (handlerStatements node)) ?_ fun body hbody =>
        pure (by simp [hbody])
    refine ensures_atPlace l (fun _ h => h) (fun _ _ _ h => h) ?_
    show Catches b c t l depth (handlerStatements node) _
    unfold handlerStatements
    cases node.child? "body" with
    | none => exact .of_hushed (.pure rfl)
    | some body => exact catches_stmts hb _

/-- A protected block that is not native catches the returns in it. Its handler and its cleanup
come after it. -/
theorem ensures_tryStmt :
    Ensures (Waiting l) b c (tryStmt node) fun code => returns t code =
      (anyCaught l c depth (t || !c.options.modernSyntax) (node.statementsIn "block") ||
        anyCaught l c depth t (clauseStatements node)) := by
  have hhandler : Catches b c t l depth _ ((node.child? "handler").mapM handlerClause) :=
    .mapM (catches_handlerClause hb)
  have hcleanup : Catches b c t l depth (node.statementsIn "finalizer")
      ((node.child? "finalizer").mapM fun finalizer => branch (some finalizer)) :=
    .mapM fun body => catches_branch hb (some body)
  refine bind (P := fun options => options = c.options) (fun s hs => ⟨hs, rfl⟩) ?_
  rintro options rfl
  dsimp only
  split
  on_goal 1 => refine bind (Ensures.modify fun s hs => hs) fun _ _ => ?_
  all_goals
    refine bind (catches_branch (t := t || !c.options.modernSyntax) hb _)
      fun body hbody => ?_
    refine bind hhandler fun handler hhandler => ?_
    refine bind hcleanup fun cleanup hcleanup => pure ?_
    rw [returns_stmt.1, returns_protect, hbody, hhandler, hcleanup, clauseStatements,
      anyCaught_append, Bool.or_assoc]
    rfl

/-- In a callback that has become a loop, a return is a jump to the next round. -/
theorem ensures_returnStmt :
    Ensures (Waiting l) b c (returnStmt node) fun code =>
      returns t code = (!l && t) := by
  have hsound := hb.sound
  refine bind (P := fun s => s.place.inLoopCallback = l) (fun s hs => ⟨hs, hs.1⟩) fun s hs => ?_
  dsimp only
  rw [hs]
  cases l with
  | true => exact Hushed.of_makes hsound makes_callbackNext true
  | false =>
    simp only [Bool.false_eq_true, if_false]
    split
    · refine bind (Hushed.of_makes (t := t) hsound (makes_value fun _ => fits_node _) false)
        fun value hvalue => pure ?_
      simp [Stmt.ret, hvalue]
    · refine pure ?_
      simp [Stmt.ret]

end Errors

/-! ## Expressions as statements -/

section ExpressionStatements

variable {depth : Nat} (hb : Traces b depth) (node : Node)
include hb

theorem hushed_exprStmt : Hushed b c t (exprStmt node) := fun l s hs =>
  ⟨hs.changes (Orderly.of_makes (makes_exprStmt fun _ => fits_node node) b hb.sound c s),
    hb.exprStmt node c s t l hs⟩

theorem hushed_foreachStmt (callback) : Hushed b c t (foreachStmt node callback) := by
  have hsound := hb.sound
  unfold foreachStmt
  split
  · exact .bind (.of_makes hsound (by grind)) fun value hvalue => .pure (by simpa using hvalue)
  · rename_i literal _
    have hliteral : Fits (anywhere true false) literal := by
      refine ⟨trivial, ?_⟩
      cases literal.body <;> trivial
    have hloop := makes_loopHead (H := True) (fun _ => fits_node node) fun _ => hliteral
    refine .inScope (.bind (.of_makes hsound hloop) fun head hhead => ?_)
    obtain ⟨setup, var, list, bindings⟩ := head
    simp only [returns_pair, Bool.or_eq_false_iff] at hhead
    refine fun l => bind (ensures_inFrame (Q := fun body => returns t body = false) ?_)
      fun loop hbody => pure (by simp [hhead, hbody])
    refine ensures_atPlace true (fun _ _ => rfl) (fun _ _ h _ => h) ?_
    cases literal.body with
    | block block => exact catches_stmts hb _
    | expr expr => exact hushed_exprStmt hb expr true

theorem hushed_methodStmts (method args) : HushedTry b c t (methodStmts node method args) := by
  have hsound := hb.sound
  unfold methodStmts
  split
  · exact .failure
  · split
    · exact .lift (hushed_foreachStmt hb _ _)
    iterate 3 exact .lift (.of_makes hsound (by grind))
    · exact .failure

omit hb in
theorem hushed_takePendingFields : Hushed b c t takePendingFields :=
  fun _ _ hs => ⟨⟨hs.1, fun _ => rfl⟩, hs.2 t⟩

omit hb in
theorem hushed_superConstructor {args : List Expr} (h : returns t args = false) :
    Hushed b c t (superConstructor args) := by
  unfold superConstructor
  refine .bind hushed_takePendingFields fun fields hfields => ?_
  split
  · rw [returns_some] at hfields
    exact .pure (by simp [superNew, h, hfields])
  · exact .pure (by simp [superNew, h])

theorem hushed_taggedStmts : HushedTry b c t (taggedStmts node) := by
  have hsound := hb.sound
  unfold taggedStmts
  refine .bind (.need _) fun tag _ => ?_
  dsimp only
  split
  · refine .bind (.need _) fun array _ => .bind (.need _) fun callback _ => ?_
    exact .lift (hushed_foreachStmt hb _ _)
  · exact .bind (.need _) fun array _ => .lift (.of_makes hsound (by grind))
  · exact .bind (.need _) fun array _ => .lift (.of_makes hsound (by grind))
  · refine .bind (.need _) fun filler _ => .bind (.need _) fun array _ => ?_
    exact .lift (.of_makes hsound (by grind))
  · refine .bind (.need _) fun array _ => ?_
    refine .bind (.lift (.of_makes hsound (x := arrayTarget array) (by grind)))
      fun target htarget => ?_
    exact .pure (by simpa using htarget)
  · refine .bind (.lift (.of_makes hsound (by grind))) fun args hargs => ?_
    exact .lift (hushed_superConstructor hargs)
  · exact .failure

theorem hushed_callStmts : HushedTry b c t (callStmts node) := by
  have hsound := hb.sound
  unfold callStmts
  split
  · exact .pure rfl
  · dsimp only
    split
    · refine .bind (.lift (.of_makes hsound (by grind))) fun args hargs => ?_
      exact .lift (hushed_superConstructor hargs)
    · refine .bind (.need _) fun method _ => .bind (.need _) fun object _ => ?_
      exact hushed_methodStmts hb _ _ _

theorem hushed_specialStmts : HushedTry b c t (specialStmts node) := by
  unfold specialStmts
  split
  · refine .bind (.mapM fun item => .lift (hushed_exprStmt hb item)) fun codes hcodes => ?_
    exact .pure (by simpa using hcodes)
  · exact hushed_callStmts hb node
  · exact Hushed.of_makes hb.sound (makesTry_lengthAssignment fun _ => fits_node node)
  · refine .bind (.need _) fun decided _ => ?_
    split
    · exact .lift (hushed_exprStmt hb _)
    · exact .pure rfl
  · exact .failure

theorem hushed_lowerExprStmt : Hushed b c t (lowerExprStmt node) := by
  unfold lowerExprStmt
  refine .orUse (.orElse (hushed_taggedStmts hb _) fun _ => hushed_specialStmts hb _) ?_
  refine .bind (.of_makes hb.sound (makesTry_lowerExpr fun _ => fits_node _)) fun value hvalue => ?_
  exact .pure (by simpa using hvalue)

end ExpressionStatements

/-! ## All levels -/

section Levels

variable {depth : Nat} (hb : Traces b depth) (node : Node) (label : Option String)
  {x : Lower (List Stmt)} {nodes : List Node}

/-- A statement that is neither a return nor a protected block has the caught returns of the
statements right below it. -/
theorem Catches.of_open (hx : Catches b c t l depth nodes x) (hopen : openStatements node = nodes)
    (hreturn : node.type ≠ "ReturnStatement") (htry : node.type ≠ "TryStatement") :
    Catches b c t l (depth + 1) [node] x := by
  have hcaught : anyCaught l c (depth + 1) t [node] = anyCaught l c depth t nodes := by
    simp [anyCaught, caughtWithin, protectedStatements, beq_false_of_ne hreturn, htry, hopen]
  intro s hs
  rw [hcaught]
  exact hx s hs

theorem Catches.single {x : Lower Stmt} (hx : Catches b c t l depth nodes x) :
    Catches b c t l depth nodes (do return [← x]) :=
  .bind hx fun code hcode => .pure (by simpa using hcode)

theorem Catches.of_leaf (hx : Hushed b c t x)
    (hopen : openStatements node = []) (hreturn : node.type ≠ "ReturnStatement")
    (htry : node.type ≠ "TryStatement") : Catches b c t l (depth + 1) [node] x :=
  .of_open node (.of_hushed hx) hopen hreturn htry

include hb

theorem catches_lowerStmt : Catches b c t l (depth + 1) [node] (lowerStmt label node) := by
  have hsound := hb.sound
  unfold lowerStmt
  split <;> rename_i htype
  case h_8 =>
    refine bind (ensures_returnStmt (t := t) hb node) fun code hcode => pure ?_
    simp [anyCaught, caughtWithin, protectedStatements, htype, hcode, openStatements]
  case h_20 =>
    refine bind (ensures_tryStmt (t := t) hb node) fun code hcode => pure ?_
    simp only [returns_cons, returns_nil, Bool.or_false, hcode]
    simp [anyCaught, caughtWithin, protectedStatements, htype, openStatements,
      ← Bool.and_or_distrib_left, Bool.or_comm]
  case h_21 =>
    have hopen : openStatements node = [] := by
      unfold openStatements
      split <;> simp_all
    refine .of_leaf node ?_ hopen (by simp_all) (by simp_all)
    exact .bind (.of_makes hsound (makes_warn _)) fun _ _ => .pure rfl
  case h_18 =>
    have hopen : openStatements node = (node.child? "body").toList := by
      simp only [openStatements, htype]
    refine .of_open node ?_ hopen (by simp [htype]) (by simp [htype])
    cases node.child? "body" with
    | none => exact .of_hushed (.pure rfl)
    | some body => exact catches_below hb body (labelIn node)
  all_goals
    have hreturn : node.type ≠ "ReturnStatement" := by simp [htype]
    have htry : node.type ≠ "TryStatement" := by simp [htype]
  case h_5 =>
    have hopen : openStatements node = node.children "body" := by
      simp only [openStatements, htype]
    refine .of_open node ?_ hopen hreturn htry
    exact .bind (catches_scopedStmts hb _) fun code hcode => .pure (by simpa using hcode)
  case h_9 =>
    exact .of_open node (catches_ifStmt hb node) (by simp only [openStatements, htype]) hreturn htry
  case h_10 =>
    exact .of_open node (catches_forStmt hb node label) (by simp only [openStatements, htype])
      hreturn htry
  case h_11 =>
    exact .of_open node (catches_forOfStmt hb node label) (by simp only [openStatements, htype])
      hreturn htry
  case h_12 =>
    exact .of_open node (catches_forInStmt hb node label) (by simp only [openStatements, htype])
      hreturn htry
  case h_13 | h_14 =>
    exact .of_open node (.single (catches_whileStmt hb node label))
      (by simp only [openStatements, htype]) hreturn htry
  case h_15 =>
    exact .of_open node (.single (catches_switchStmt hb node label))
      (by simp only [openStatements, htype]) hreturn htry
  all_goals refine .of_leaf node ?_ (by simp [openStatements, htype]) hreturn htry
  · exact .of_makes hsound (makes_varDecl fun _ => fits_node node)
  · exact .of_makes hsound (makes_functionDecl fun _ => fits_node node)
  · exact .bind (.of_makes hsound (makes_lowerClass none fun _ => fits_node node))
      fun code hcode => .pure (by simpa using hcode)
  · split
    · exact hushed_exprStmt hb _
    · exact .pure rfl
  · exact .pure rfl
  · exact .pure rfl
  · exact .pure (by simp)
  · have hjump : Hushed b c t (continueStmt node) := by
      unfold continueStmt
      grind
    exact .bind hjump fun code hcode => .pure (by simpa using hcode)
  · exact .bind (.of_makes hsound (makes_throwStmt fun _ => fits_node node))
      fun code hcode => .pure (by simpa using hcode)

end Levels

theorem traces_level (height : Nat) : Traces (level height) height := by
  induction height with
  | zero => exact ⟨sound_level 0, fun _ _ _ _ _ _ => rfl, fun _ _ _ _ _ _ _ => (Bool.and_false _).symm⟩
  | succ height ih =>
    refine ⟨sound_level _, fun node c s t l hs => ?_, fun label node c s t l hs => ?_⟩
    · exact (hushed_lowerExprStmt ih node l s hs).2
    · refine (catches_lowerStmt ih node label s hs).2.trans ?_
      rw [anyCaught, any_cons, any_nil, Bool.or_false]

/-! ## Functions -/

section Functions

variable {depth : Nat} (hb : Traces b depth) (node : Node)
include hb

theorem catches_constructorBody (hasBase fields) :
    Catches b c false l depth (bodyStatements node) (constructorBody node hasBase fields) := by
  have hsound := hb.sound
  have hinits : Ensures (Waiting l) b c (fieldInits fields) fun inits => ∀ t, returns t inits = false :=
    fun s hs => ⟨hs.changes
      (Orderly.of_makes (makes_fieldInits fun _ => fits_fields fields) b hsound c s), fun t =>
      (Hushed.of_makes (t := t) hsound (makes_fieldInits fun _ => fits_fields fields) l s hs).2⟩
  unfold constructorBody
  refine bind hinits fun inits hinits => ?_
  refine bind (Ensures.modify fun s hs => ⟨hs.1, hinits⟩) fun _ _ => ?_
  refine bind (catches_stmts (t := false) hb _) fun main hmain => ?_
  refine Catches.after hushed_takePendingFields fun fields hfields => .pure ?_
  cases fields with
  | none => simp [hmain, Stmt.ret]
  | some inits =>
    rw [returns_some] at hfields
    simp [hmain, Stmt.ret, hfields, newObject, superNew, emptyObject]

theorem catches_functionBody (kind : SubKind) :
    Catches b c false l depth (bodyStatements node) (functionBody node kind) := by
  unfold functionBody
  split
  · exact catches_constructorBody hb node _ _
  · cases hbody : node.child? "body" with
    | none =>
      rw [bodyStatements, hbody]
      exact .of_hushed (.pure rfl)
    | some body =>
      cases hblock : body.type == "BlockStatement" with
      | true =>
        simp only [hblock, if_true]
        exact catches_stmts hb _
      | false =>
        simp only [bodyStatements, hbody, hblock, Bool.false_eq_true, if_false]
        refine .of_hushed (.bind (.of_makes hb.sound (by grind)) fun value hvalue => .pure ?_)
        simpa [Stmt.ret] using hvalue

theorem catches_functionCode (node : Node) (kind : SubKind) :
    Catches b c false l depth (bodyStatements node) (functionCode node kind) := by
  refine .after (.of_makes hb.sound (by grind)) fun parts hparts => ?_
  obtain ⟨params, unpacking⟩ := parts
  rw [returns_pair, Bool.or_eq_false_iff] at hparts
  refine .after (.of_makes hb.sound (by grind)) fun hoisted hhoisted => ?_
  refine .after (.of_makes hb.sound (makes_noteHoisted _)) fun _ _ => ?_
  refine .bind (catches_functionBody hb node kind) fun body hbody => .pure ?_
  simp [hparts, hhoisted, hbody]

theorem returnsInEval_lowerFunction (name : String) (kind : SubKind) (s : State) :
    (lowerFunction name node kind b c s).1.returnsInEval =
      (bodyStatements node).any (caughtWithin c.options.modernSyntax depth false) := by
  obtain ⟨-, hreturns⟩ := (catches_functionCode (c := c) (l := false) hb node kind).inScope
    { s with frames := [], pendingFields := none, place := s.place.inside kind } ⟨rfl, fun _ => rfl⟩
  have hcaught : anyCaught false c depth false (bodyStatements node) =
      (bodyStatements node).any (caughtWithin c.options.modernSyntax depth false) :=
    Bool.true_and _
  rw [← hcaught, ← hreturns, Sub.returnsInEval, stmtsReturn_eq]
  rfl

end Functions

theorem height_of_mem_bodyStatements {node stmt : Node} (h : stmt ∈ bodyStatements node) :
    stmt.height < node.height := by
  unfold bodyStatements at h
  split at h
  · rename_i body hbody
    split at h
    · exact (height_of_mem_children h).trans (height_of_child? hbody)
    · simp at h
  · simp at h

/-- **A return is caught by an `eval` block exactly if it stands in a protected block**, directly or
in statements of it, and blocks are not native. The handler and the cleanup of a block are outside
of it, and so is each function in it. -/
theorem returnsInEval_iff_caughtReturn (name : String) (node : Node) (kind : SubKind)
    (height : Nat) (c : Context) (s : State) :
    (lowerFunction name node kind (level (node.height + height)) c s).1.returnsInEval = true ↔
      c.options.modernSyntax = false ∧
        ∃ stmt ∈ bodyStatements node, CaughtReturn false false stmt := by
  have hlow (stmt : Node) (hstmt : stmt ∈ bodyStatements node) :
      stmt.height ≤ node.height + height := by
    have := height_of_mem_bodyStatements hstmt
    omega
  rw [returnsInEval_lowerFunction (traces_level _), List.any_eq_true]
  cases c.options.modernSyntax with
  | true =>
    simp only [Bool.true_eq_false, false_and, iff_false]
    rintro ⟨stmt, hstmt, hcaught⟩
    exact not_caughtReturn_native ((caughtWithin_iff (hlow stmt hstmt)).1 hcaught)
  | false =>
    simp only [true_and]
    exact exists_congr fun stmt => and_congr_right fun hstmt => caughtWithin_iff (hlow stmt hstmt)

/-- The function `function f() { try { return x; } catch (e) { } }`. -/
def returnInTry : Node :=
  .of "FunctionDeclaration" [("id", (Jumps.nameNode "f").toJson),
    ("params", .array []),
    ("body", (Jumps.blockNode [.of "TryStatement" [
      ("block", (Jumps.blockNode [.of "ReturnStatement" [
        ("argument", (Jumps.nameNode "x").toJson)]]).toJson),
      ("handler", .node "CatchClause" [
        ("param", (Jumps.nameNode "e").toJson),
        ("body", (Jumps.blockNode []).toJson)])]]).toJson)]

/-- In `function f() { try { return x; } catch (e) { } }` the return only leaves the protected
block. -/
theorem returnInTry_leaves_block :
    (lowerFunction "f" returnInTry .plain (level 12) .initial .initial).1.returnsInEval = true :=
  (returnsInEval_lowerFunction (traces_level 12) returnInTry "f" .plain _).trans rfl

end Scriptgen.Perl
