import Scriptgen.Proofs.Perl.Jumps
/-!
# The targets of jumps in Perl

Each kind of statement is lowered to code that follows it if the statements in it are, and so all
statements are (`carries_level`). Main result: `jumps_act_on_targets_iff`. The way is not clear in
`blockedBreak`, whose `break` only leaves the block that it is in (`blockedBreak_leaves_block`).
-/

namespace Scriptgen.Perl

open Lowering Node Switch Jumps List

variable {E F : List Enclosure} {b : Below} {c : Context} {height : Nat} {node : Node}

/-! ## Statements one after the other -/

theorem kindsOf_append (first rest : List Stmt) :
    kindsOf (first ++ rest) = kindsOf first ++ kindsOf rest :=
  map_append

variable {nodes : List Node}

theorem FollowsAll.of_forall₂ {results : List (List Stmt)}
    (h : List.Forall₂ (fun node stmts => Follows E node (kindsOf stmts)) nodes results) :
    FollowsAll E nodes (kindsOf results.flatten) := by
  induction h with
  | nil => exact .nil
  | cons hfirst _ ih =>
    rw [flatten_cons, kindsOf_append]
    exact .cons hfirst ih

theorem FollowsArms.of_forall₂ {arms : List SwitchArm}
    {lowered : List (Option (List Expr) × List Stmt)}
    (h : List.Forall₂ (fun arm result => FollowsAll E arm.body (kindsOf result.2)) arms lowered) :
    FollowsArms E arms (lowered.map (·.2)) := by
  induction h with
  | nil => exact .nil
  | cons hfirst _ ih => exact .cons hfirst ih

/-! ## What a level does -/

variable (b c) in
/-- A level lowers the statements up to a height to code that follows them. -/
def Carries (height : Nat) : Prop :=
  ∀ node, node.height ≤ height → ∀ E, OnlyLoops E → Nests (E.map (·.origin)) node →
    Reaches E b c (fun below => below.stmt none node) fun F stmts => Follows F node (kindsOf stmts)

theorem kindsOf_stmt (node : Node) (s : State) :
    kindsOf (stmt node b c s).1 = kindsOf (b.stmt none node c s).1 ∧
      (stmt node b c s).2 = (b.stmt none node c s).2 := by
  rw [stmt_run]
  refine ⟨?_, rfl⟩
  cases (b.stmt none node c s).1 with
  | nil => rfl
  | cons first rest =>
    change kindsOf ((if first.remarks = .none then _ else _) :: rest) = _
    split <;> rfl

theorem Carries.stmt (h : Carries b c height) (hh : node.height ≤ height) (hE : OnlyLoops E)
    (hnests : Nests (E.map (·.origin)) node) :
    Reaches E b c (stmt node) fun F stmts => Follows F node (kindsOf stmts) := by
  intro s hs
  obtain ⟨E', hgrows, hframes, hfollows⟩ := h node hh E hE hnests s hs
  obtain ⟨hkinds, hstate⟩ := @kindsOf_stmt b c node s
  refine ⟨E', hgrows, hstate ▸ hframes, fun F hF => ?_⟩
  change Follows F node (kindsOf _)
  rw [hkinds]
  exact hfollows F hF

theorem Carries.stmts (h : Carries b c height) (hE : OnlyLoops E)
    (hnodes : ∀ node ∈ nodes, node.height ≤ height ∧ Nests (E.map (·.origin)) node) :
    Reaches E b c (Perl.stmts nodes) fun F stmts => FollowsAll F nodes (kindsOf stmts) := by
  have hmap : Reaches E b c (nodes.mapM Perl.stmt) fun F results =>
      List.Forall₂ (fun node stmts => Follows F node (kindsOf stmts)) nodes results := by
    refine .mapM fun node hnode E' hE' => ?_
    obtain ⟨hheight, hnests⟩ := hnodes node hnode
    exact h.stmt hheight (hE'.onlyLoops hE) (hE'.map_origin ▸ hnests)
  exact .bind hmap fun E' results _ hresults => .pure fun F hF => .of_forall₂ (hresults F hF)

theorem OnlyLoops.cons {origin : Origin} (hE : OnlyLoops E) : OnlyLoops (⟨origin, none⟩ :: E) := by
  intro e he hne
  rcases mem_cons.1 he with rfl | he
  · rfl
  · exact hE e he hne

section Level

variable (h : Carries b c height) (hh : node.height ≤ height + 1) (hE : OnlyLoops E)

include h hh hE

theorem Carries.branch {name : String}
    (hnests : ∀ child ∈ node.statementsIn name, Nests (E.map (·.origin)) child) :
    Reaches E b c (Perl.branch (node.child? name)) fun F body =>
      FollowsAll F (node.statementsIn name) (kindsOf body) := by
  have hnodes : ∀ child ∈ node.statementsIn name,
      child.height ≤ height ∧ Nests (E.map (·.origin)) child := by
    intro child hchild
    have := height_of_mem_statementsIn hchild
    exact ⟨by omega, hnests child hchild⟩
  rw [statementsIn] at hnodes ⊢
  cases hc : node.child? name with
  | none => exact .pure fun _ _ => .nil
  | some child =>
    rw [hc] at hnodes
    exact .inScope (h.stmts hE hnodes)

/-- A branch after `else` is lowered like a block with it. -/
theorem Carries.alternative
    (hnests : ∀ child ∈ node.statementsIn "alternate", Nests (E.map (·.origin)) child) :
    Reaches E b c ((node.child? "alternate").mapM Perl.alternative) fun F body =>
      FollowsAll F (node.statementsIn "alternate") (kindsOf (body.getD [])) := by
  have hbranch := h.branch hh hE hnests
  cases hc : node.child? "alternate" with
  | none =>
    rw [statementsIn, hc]
    exact .pure fun _ _ => .nil
  | some child =>
    have hbody : Reaches E b c (Perl.alternative child) fun F body =>
        FollowsAll F (node.statementsIn "alternate") (kindsOf body) := by
      rw [Perl.alternative]
      split
      · rename_i htype
        have hchild : node.statementsIn "alternate" = [child] := by
          rw [statementsIn, hc, Option.elim_some, asStatements, if_neg]
          rw [beq_iff_eq.1 htype]
          decide
        have hheight := height_of_child? hc
        rw [hchild] at hnests ⊢
        refine .inScope (.imp (h.stmt (by omega) hE (hnests child mem_cons_self)) ?_)
        intro F stmts _ hfollows
        rw [← append_nil (kindsOf stmts)]
        exact .cons hfollows .nil
      · rwa [hc] at hbranch
    exact .bind hbody fun E' body _ hfollows => .pure hfollows

theorem Carries.loopBody
    (hnests : ∀ child ∈ node.statementsIn "body", Nests (.loop :: E.map (·.origin)) child) :
    Reaches E b c (Perl.loopBody none (node.child? "body")) fun F r =>
      FollowsAll (⟨.loop, r.1⟩ :: F) (node.statementsIn "body") (kindsOf r.2) := by
  exact .inFrame (fun _ _ => rfl) (h.branch hh hE.cons hnests)

end Level

/-! ## Loops -/

/-- What nests under some constructs nests under others that have the same kinds of targets. -/
theorem Nests.imp {origins origins' : List Origin} (h : Nests origins node)
    (hleave : (∃ origin ∈ origins, origin ≠ .block) → ∃ origin ∈ origins', origin ≠ .block)
    (hagain : .loop ∈ origins → .loop ∈ origins') : Nests origins' node := by
  induction h generalizing origins' with
  | leaf htype => exact .leaf htype
  | leave htype hlabel htarget => exact .leave htype hlabel (hleave htarget)
  | again htype hlabel htarget => exact .again htype hlabel (hagain htarget)
  | block htype _ ih =>
    refine .block htype fun child hchild => ih child hchild ?_ ?_
    · simpa using hleave
    · simpa using hagain
  | branch htype htest hguard _ _ ihthen ihelse =>
    exact .branch htype htest hguard (fun child hchild => ihthen child hchild hleave hagain)
      fun child hchild => ihelse child hchild hleave hagain
  | decided htype htest hguard _ ih =>
    exact .decided htype htest hguard fun child hchild => ih child hchild hleave hagain
  | loop htype hright _ ih =>
    exact .loop htype hright fun child hchild => ih child hchild (by simp) (by simp)
  | switch htype _ ih =>
    refine .switch htype fun case hcase child hchild => ih case hcase child hchild ?_ ?_
    · simp
    · simpa using hagain

theorem reaches_of_makes {α : Type} [Twinned α] [Fitting Policy α] {x : Lower α}
    (hx : Same (anywhere false false) True x) : Reaches E (level height) c x fun _ _ => True :=
  .of_orderly (sound_level height) (.of_makes hx)

section Statements

variable (h : Carries (level height) c height) (hh : node.height ≤ height + 1) (hE : OnlyLoops E)

include h hh hE

section Loops

variable (hnests : ∀ child ∈ node.statementsIn "body", Nests (.loop :: E.map (·.origin)) child)

include hnests

/-- A loop after its initializers. Several of them are put in a bare block with it. -/
theorem Carries.loopAfter (htype : node.type ∈ loopTypes)
    (before : List Stmt) (init : Option Stmt) (cond : Option Expr) (step : List Expr) :
    Reaches E (level height) c (do
      let (label, body) ← Perl.loopBody none (node.child? "body")
      return Stmt.after before (.plain (.loop label init cond step body))) fun F stmts =>
        Follows F node (kindsOf stmts) := by
  cases before with
  | nil =>
    refine .bind (h.loopBody hh hE hnests) fun _ r _ hfollows => .pure fun F hF => ?_
    exact @Follows.loop _ _ _ r.1 [] _ htype rfl (hfollows F hF)
  | cons first rest =>
    have hinside : ∀ child ∈ node.statementsIn "body",
        Nests (.loop :: .block :: E.map (·.origin)) child :=
      fun child hchild => (hnests child hchild).imp (by simp) (by simp)
    refine .bind (.inBlock (h.loopBody hh hE.cons hinside)) fun _ r _ hfollows =>
      .pure fun F hF => ?_
    exact .loopAfter htype rfl (hfollows F hF)

theorem Carries.forStmt (htype : node.type = "ForStatement") :
    Reaches E (level height) c (Perl.forStmt node none) fun F stmts =>
      Follows F node (kindsOf stmts) := by
  have hloop : node.type ∈ loopTypes := by rw [htype]; decide
  refine .inScope (.bind (reaches_of_makes (by grind)) fun E₁ before hE₁ _ => ?_)
  refine .bind (reaches_of_makes (by grind)) fun E₂ cond hE₂ _ => ?_
  have hgrows := hE₁.trans hE₂
  have hrest : ∀ E' step, Grows E₂ E' → Reaches E' (level height) c _ _ := fun E' step hE' =>
    h.loopAfter hh ((hgrows.trans hE').onlyLoops hE) ((hgrows.trans hE').map_origin ▸ hnests)
      hloop before.1 before.2 cond step
  cases hc : node.child? "update" with
  | none => exact hrest E₂ [] (.refl E₂)
  | some update =>
    exact .bind (reaches_of_makes (by grind)) fun E₃ step hE₃ _ => hrest E₃ step hE₃

theorem Carries.foreachOver (htype : node.type ∈ loopTypes) (list : Expr) :
    Reaches E (level height) c (Perl.foreachOver node none list) fun F stmts =>
      Follows F node (kindsOf stmts) := by
  refine .inScope (.bind (reaches_of_makes (by grind)) fun E₁ binding hE₁ _ => ?_)
  have hbody := h.loopBody hh (hE₁.onlyLoops hE) (hE₁.map_origin ▸ hnests)
  refine .bind hbody fun _ r _ hfollows => .pure fun F hF => ?_
  exact .loop htype rfl (hfollows F hF)

theorem Carries.forOfStmt (htype : node.type = "ForOfStatement")
    (hright : (node.child? "right").isSome = true) :
    Reaches E (level height) c (Perl.forOfStmt node none) fun F stmts =>
      Follows F node (kindsOf stmts) := by
  have hloop : node.type ∈ loopTypes := by rw [htype]; decide
  obtain ⟨right, hright⟩ := Option.isSome_iff_exists.1 hright
  rw [Perl.forOfStmt, hright]
  refine .bind (reaches_of_makes (by grind)) fun E₁ list hE₁ _ => ?_
  exact h.foreachOver hh (hE₁.onlyLoops hE) (hE₁.map_origin ▸ hnests) hloop list

theorem Carries.forInStmt (htype : node.type = "ForInStatement")
    (hright : (node.child? "right").isSome = true) :
    Reaches E (level height) c (Perl.forInStmt node none) fun F stmts =>
      Follows F node (kindsOf stmts) := by
  have hloop : node.type ∈ loopTypes := by rw [htype]; decide
  obtain ⟨right, hright⟩ := Option.isSome_iff_exists.1 hright
  have hrest : ∀ E' list, Grows E E' → Reaches E' (level height) c _ _ := fun E' list hE' =>
    h.foreachOver hh (hE'.onlyLoops hE) (hE'.map_origin ▸ hnests) hloop list
  rw [Perl.forInStmt, hright]
  refine .bind (reaches_of_makes (by grind)) fun E₁ isList hE₁ _ => ?_
  cases isList with
  | true =>
    exact .bind (reaches_of_makes (by grind)) fun E₂ base hE₂ _ => hrest E₂ _ (hE₁.trans hE₂)
  | false =>
    exact .bind (reaches_of_makes (by grind)) fun E₂ hash hE₂ _ => hrest E₂ _ (hE₁.trans hE₂)

theorem Carries.whileStmt (htype : node.type ∈ loopTypes) :
    Reaches E (level height) c (Perl.whileStmt node none) fun F stmt =>
      Follows F node [stmt.kind] := by
  refine .bind (reaches_of_makes (by grind)) fun E₁ cond hE₁ _ => ?_
  have hbody := h.loopBody hh (hE₁.onlyLoops hE) (hE₁.map_origin ▸ hnests)
  refine .bind hbody fun _ r _ hfollows => .pure fun F hF => ?_
  exact @Follows.loop _ _ _ r.1 [] _ htype rfl (hfollows F hF)

end Loops

/-! ## Switches -/

omit hh in
theorem Carries.switchArm {arm : SwitchArm}
    (hbody : ∀ child ∈ arm.body, child.height ≤ height ∧ Nests (E.map (·.origin)) child)
    (var : String) :
    Reaches E (level height) c (Perl.switchArm var arm) fun F lowered =>
      FollowsAll F arm.body (kindsOf lowered.2) := by
  rw [Perl.switchArm]
  refine .bind (.inScope (h.stmts hE hbody)) fun E₁ body _ hfollows => ?_
  split
  · exact .pure hfollows
  · refine .bind (.mapM fun test _ E' _ => reaches_of_makes (by grind)) fun E₂ conds hE₂ _ => ?_
    exact .pure fun F hF => hfollows F (hE₂.trans hF)

theorem Carries.switchStmt (htype : node.type = "SwitchStatement")
    (hnests : ∀ case ∈ node.children "cases", ∀ child ∈ case.children "consequent",
      Nests (.switch :: E.map (·.origin)) child) :
    Reaches E (level height) c (Perl.switchStmt node none) fun F stmt =>
      Follows F node [stmt.kind] := by
  refine .bind (reaches_of_makes (by grind)) fun E₁ discriminant hE₁ _ => ?_
  refine .bind (reaches_of_makes (by grind)) fun E₂ var hE₂ _ => ?_
  have hgrows := hE₁.trans hE₂
  rw [hgrows.map_origin] at hnests
  have harms : Reaches (⟨.switch, none⟩ :: E₂) (level height) c
      ((switchArms (node.children "cases")).mapM (Perl.switchArm var)) fun F lowered =>
        List.Forall₂ (fun arm result => FollowsAll F arm.body (kindsOf result.2))
          (switchArms (node.children "cases")) lowered := by
    refine .mapM fun arm harm E' hE' => ?_
    refine h.switchArm (hE'.onlyLoops (hgrows.onlyLoops hE).cons) (fun child hchild => ?_) var
    obtain ⟨case, hcase, hin⟩ := exists_case_of_mem_switchArms harm hchild
    have := height_of_mem_children hcase
    have := height_of_mem_children hin
    exact ⟨by omega, hE'.map_origin ▸ hnests case hcase child hin⟩
  refine .bind (.inFrame (fun _ _ => rfl) harms) fun _ r _ hfollows => .pure fun F hF => ?_
  exact .switch htype (.of_forall₂ (hfollows F hF))

/-! ## Branches -/

variable {test : Node} (htype : node.type = "IfStatement") (htest : node.child? "test" = some test)

include htype htest

theorem Carries.ifStmt (hguard : evaluateGuard test = none)
    (hthen : ∀ child ∈ node.statementsIn "consequent", Nests (E.map (·.origin)) child)
    (helse : ∀ child ∈ node.statementsIn "alternate", Nests (E.map (·.origin)) child) :
    Reaches E (level height) c (Perl.ifStmt node) fun F stmts => Follows F node (kindsOf stmts) := by
  rw [Perl.ifStmt, htest]
  simp only [hguard]
  refine .bind (reaches_of_makes (by grind)) fun E₁ cond hE₁ _ => ?_
  refine .bind (h.branch hh (hE₁.onlyLoops hE) (hE₁.map_origin ▸ hthen)) fun E₂ body hE₂ hbody => ?_
  have hgrows := hE₁.trans hE₂
  refine .bind (h.alternative hh (hgrows.onlyLoops hE) (hgrows.map_origin ▸ helse))
    fun E₃ other hE₃ hother => .pure fun F hF => ?_
  exact .branch htype (hbody F (hE₃.trans hF)) (hother F hF)

theorem Carries.ifStmt_decided {side : Bool} (hguard : evaluateGuard test = some side)
    (hbody : ∀ child ∈ node.statementsIn (if side then "consequent" else "alternate"),
      Nests (E.map (·.origin)) child) :
    Reaches E (level height) c (Perl.ifStmt node) fun F stmts => Follows F node (kindsOf stmts) := by
  have hnodes : ∀ child ∈ node.statementsIn (if side then "consequent" else "alternate"),
      child.height ≤ height ∧ Nests (E.map (·.origin)) child := by
    intro child hchild
    have := height_of_mem_statementsIn hchild
    exact ⟨by omega, hbody child hchild⟩
  have htaken := (h.stmts hE hnodes).imp fun F stmts _ hfollows =>
    Follows.decided htype htest hguard hfollows
  rw [Perl.ifStmt, htest]
  simp only [hguard]
  rw [statementsIn] at htaken
  cases hc : node.child? (if side then "consequent" else "alternate") with
  | none => rwa [hc] at htaken
  | some taken => rwa [hc] at htaken

end Statements

/-! ## Statements -/

/-- **Statements are lowered to code that follows them**, at every level above them. -/
theorem carries_level (c : Context) (height : Nat) : Carries (level height) c height := by
  induction height with
  | zero =>
    intro node hh
    have := node.height_eq
    omega
  | succ height ih =>
    intro node hh E hE hnests
    suffices Reaches E (level height) c (lowerStmt none node) fun F stmts =>
      Follows F node (kindsOf stmts) from this
    have hreaches : Reaches E (level height) c (lowerStmt none node) fun _ _ => True :=
      reaches_of_makes (makes_lowerStmt (fun _ => fits_node node) none)
    rw [lowerStmt] at hreaches ⊢
    cases hnests with
    | leaf htype => exact .imp hreaches fun F stmts _ _ => .leaf htype
    | leave htype hlabel htarget =>
      rw [htype]
      have hnone : labelIn node = none := by rw [labelIn, hlabel]; rfl
      refine .pure fun F hF => ?_
      rw [hnone]
      exact follows_leave htype (hF.map_origin ▸ htarget)
    | again htype hlabel htarget =>
      rw [htype]
      have hnone : labelIn node = none := by rw [labelIn, hlabel]; rfl
      have hnext : continueStmt node = nextStmt := by rw [continueStmt, hnone]
      change Reaches E (level height) c (continueStmt node >>= _) _
      rw [hnext]
      exact .bind (reaches_nextStmt htype htarget hE) fun _ stmt _ hfollows => .pure hfollows
    | block htype hbody =>
      rw [htype]
      have hnodes : ∀ child ∈ node.children "body",
          child.height ≤ height ∧ Nests (.block :: E.map (·.origin)) child := by
        intro child hchild
        have := height_of_mem_children hchild
        exact ⟨by omega, hbody child hchild⟩
      refine .bind (.inBlock (.inScope (ih.stmts hE.cons hnodes))) fun _ body _ hfollows =>
        .pure fun F hF => ?_
      exact .block htype (hfollows F hF)
    | branch htype htest hguard hthen helse =>
      rw [htype]
      exact ih.ifStmt hh hE htype htest hguard hthen helse
    | decided htype htest hguard hbody =>
      rw [htype]
      exact ih.ifStmt_decided hh hE htype htest hguard hbody
    | loop htype hright hbody =>
      have hcases : node.type = "ForStatement" ∨ node.type = "ForOfStatement" ∨
          node.type = "ForInStatement" ∨ node.type = "WhileStatement" ∨
            node.type = "DoWhileStatement" := by
        simpa [loopTypes] using htype
      rcases hcases with h | h | h | h | h <;> rw [h]
      · exact ih.forStmt hh hE hbody h
      · exact ih.forOfStmt hh hE hbody h (hright (by rw [h]; decide))
      · exact ih.forInStmt hh hE hbody h (hright (by rw [h]; decide))
      all_goals
        exact .bind (ih.whileStmt hh hE hbody htype) fun _ stmt _ hfollows => .pure hfollows
    | switch htype hbody =>
      rw [htype]
      exact .bind (ih.switchStmt hh hE htype hbody) fun _ stmt _ hfollows =>
        .pure hfollows

/-! ## Statements with jumps -/

theorem unwrapped_nameNode (x : String) : (nameNode x).unwrapped = nameNode x :=
  Node.unwrapped_of_wrapped? rfl

/-- The loop
`while (c) { if (d) { break; } switch (x) { case y: { continue; } default: { break; } } }`. -/
def nestedJumps : Node :=
  whileNode (nameNode "c") (blockNode
    [ifNode (nameNode "d") (blockNode [breakNode none]),
      switchNode (nameNode "x")
        [nameCase (some "y") [blockNode [continueNode none]],
          nameCase none [blockNode [breakNode none]]]])

theorem nests_nestedJumps : Nests [] nestedJumps := by
  have hguard : evaluateGuard (nameNode "d") = none := by
    rw [evaluateGuard, unwrapped_nameNode]
    rfl
  refine .loop (by decide) (absurd · (by decide)) (forall_mem_cons.2 ⟨?_, ?_⟩)
  · refine .branch rfl rfl hguard ?_ nofun
    exact forall_mem_singleton.2 (.leave rfl rfl ⟨.loop, by simp⟩)
  · refine forall_mem_singleton.2 (.switch rfl (forall_mem_cons.2 ⟨?_, forall_mem_singleton.2 ?_⟩))
    · exact forall_mem_singleton.2 (.block rfl (forall_mem_singleton.2
        (.again rfl rfl (by simp))))
    · exact forall_mem_singleton.2 (.block rfl (forall_mem_singleton.2
        (.leave rfl rfl ⟨.switch, by simp⟩)))

/-! ## Targets -/

/-- **Each jump acts on its target exactly if its way is clear.** A statement outside of all loops
and switches, with others nested in it in any way, is lowered to code that follows it. -/
theorem jumps_act_on_targets_iff {node : Node} (h : Nests [] node) {height : Nat}
    (hh : node.height ≤ height) (c : Context) {s : State} (hs : s.frames = []) :
    Follows [] node (kindsOf ((level height).stmt none node c s).1) := by
  obtain ⟨E, hgrows, -, hfollows⟩ := carries_level c height node hh [] nofun h s hs
  obtain rfl : E = [] := List.forall₂_nil_left_iff.1 hgrows
  exact hfollows [] .nil

theorem jumps_act_on_targets_iff_nestedJumps :
    Nests [] nestedJumps ∧ State.initial.frames = [] ∧
      Follows [] nestedJumps (kindsOf ((level 12).stmt none nestedJumps .initial .initial).1) :=
  ⟨nests_nestedJumps, rfl, jumps_act_on_targets_iff nests_nestedJumps (by decide) _ rfl⟩

/-- The loop `while (c) { { break; } }`. -/
def blockedBreak : Node :=
  whileNode (nameNode "c") (blockNode [blockNode [breakNode none]])

/-- In `while (c) { { break; } }` the block is left, and not the loop. -/
theorem blockedBreak_leaves_block :
    (∃ cond, kindsOf ((level 9).stmt none blockedBreak .initial .initial).1 =
      [.while none cond [.block [.plain (.jump .last none)]] false]) ∧
    actsOn [⟨.block, none⟩, ⟨.loop, none⟩] none = some 0 ∧
    breakTarget [⟨.block, none⟩, ⟨.loop, none⟩] = some 1 :=
  ⟨⟨_, rfl⟩, rfl, rfl⟩

end Scriptgen.Perl
