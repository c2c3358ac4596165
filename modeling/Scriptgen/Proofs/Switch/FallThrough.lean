import Scriptgen.Proofs.Switch.Arms
/-!
# What an arm runs

From a case on, a switch runs the statements of that case and of all cases after it, up to one that
does not let control go on. The arm of the case has as many of them as can be reached, without the
`break` at their end. `Execution` is any way to run statements in which jumps do not complete
normally. Main result: `switchArms_covers`.
-/

namespace Scriptgen.Switch

open Node List

variable {σ ε : Type}

/-! ## Running statements -/

/-- How a statement completes: normally, by a `break` of the switch around it, or in another way. -/
inductive Completion (ε : Type)
  | normal
  | leave
  | jump (reason : ε)

/-- What a switch makes of it. -/
def Completion.outside : Completion ε → Completion ε
  | .leave => .normal
  | c => c

/-- Statements one after the other, up to the first that does not complete normally. The second list
has those that were run. -/
inductive RunsAll (runs : Node → σ → Completion ε → σ → Prop) :
    List Node → σ → List Node → Completion ε → σ → Prop
  | nil {s : σ} : RunsAll runs [] s [] .normal s
  | next {stmt : Node} {rest ran : List Node} {s t u : σ} {c : Completion ε} :
      runs stmt s .normal t → RunsAll runs rest t ran c u →
      RunsAll runs (stmt :: rest) s (stmt :: ran) c u
  | stop {stmt : Node} {rest : List Node} {s t : σ} {c : Completion ε} :
      runs stmt s c t → c ≠ .normal → RunsAll runs (stmt :: rest) s [stmt] c t

def jumpTypes : List String :=
  ["BreakStatement", "ReturnStatement", "ThrowStatement", "ContinueStatement"]

/-- **A way to run statements in which jumps do not complete normally.** A block completes normally
only if its last statement does, and a branch with two sides only if one of them does. -/
structure Execution (σ ε : Type) where
  runs : Node → σ → Completion ε → σ → Prop
  jump {stmt : Node} {s t : σ} : stmt.type ∈ jumpTypes → ¬ runs stmt s .normal t
  plainBreak {stmt : Node} {s t : σ} {c : Completion ε} :
    stmt.isPlainBreak = true → (runs stmt s c t ↔ c = .leave ∧ t = s)
  block {stmt last : Node} {s t : σ} :
    stmt.type = "BlockStatement" → (stmt.children "body").getLast? = some last →
    runs stmt s .normal t → ∃ s' t', runs last s' .normal t'
  branch {stmt first second : Node} {s t : σ} :
    stmt.type = "IfStatement" → stmt.child? "consequent" = some first →
    stmt.child? "alternate" = some second → runs stmt s .normal t →
    ∃ s' t', runs first s' .normal t' ∨ runs second s' .normal t'

variable {cases : List Node} {stmt : Node} {last : Node}

theorem diverts_block (htype : stmt.type = "BlockStatement")
    (hlast : (stmt.children "body").getLast? = some last) : stmt.diverts = last.diverts := by
  rw [diverts, htype]
  simp only
  split <;> simp_all

theorem diverts_branch {first second : Node} (htype : stmt.type = "IfStatement")
    (hfirst : stmt.child? "consequent" = some first)
    (hsecond : stmt.child? "alternate" = some second) :
    stmt.diverts = (first.diverts && second.diverts) := by
  rw [diverts, htype]
  simp only
  split <;> split <;> simp_all

theorem diverts_of_jump (htype : stmt.type ∈ jumpTypes) : stmt.diverts = true := by
  rw [diverts]
  split <;> simp_all [jumpTypes]

/-- Statements that divert control jump. The others complete normally, and their types are noted. -/
def Notes (stmt : Node) (s : List String) (c : Completion Unit) (t : List String) : Prop :=
  if stmt.isPlainBreak then c = .leave ∧ t = s
  else if stmt.diverts then c = .jump () ∧ t = s
  else c = .normal ∧ t = s ++ [stmt.type]

theorem notes_normal_iff {s t : List String} :
    Notes stmt s .normal t ↔ stmt.diverts = false ∧ t = s ++ [stmt.type] := by
  rw [Notes]
  split
  · rename_i hplain
    rw [isPlainBreak, Bool.and_eq_true, beq_iff_eq] at hplain
    simp [diverts_of_jump (show stmt.type ∈ jumpTypes by simp [hplain.1, jumpTypes])]
  · split <;> simp_all

instance : Inhabited (Execution (List String) Unit) where
  default :=
    { runs := Notes
      jump := fun htype h => by simp [notes_normal_iff, diverts_of_jump htype] at h
      plainBreak := fun hplain => by simp [Notes, hplain]
      block := fun {_ last s _} htype hlast h => by
        have hlast : last.diverts = false := diverts_block htype hlast ▸ (notes_normal_iff.1 h).1
        exact ⟨s, _, notes_normal_iff.2 ⟨hlast, rfl⟩⟩
      branch := fun {_ first second s _} htype hfirst hsecond h => by
        have hsides : (first.diverts && second.diverts) = false :=
          diverts_branch htype hfirst hsecond ▸ (notes_normal_iff.1 h).1
        rcases Bool.and_eq_false_iff.1 hsides with hside | hside
        · exact ⟨s, _, .inl (notes_normal_iff.2 ⟨hside, rfl⟩)⟩
        · exact ⟨s, _, .inr (notes_normal_iff.2 ⟨hside, rfl⟩)⟩ }

/-- **Running statements of a switch, and then leaving it.** A `break` at the end of what was run
only leaves the switch, and is not counted. -/
def Execution.Leaves (x : Execution σ ε) (stmts : List Node) (s : σ) (ran : List Node)
    (c : Completion ε) (t : σ) : Prop :=
  ∃ all c', RunsAll x.runs stmts s all c' t ∧ dropFinalBreak all = ran ∧ c'.outside = c

section RunsAll

variable {runs : Node → σ → Completion ε → σ → Prop} {first second stmts ran : List Node} {s t : σ}
variable {c : Completion ε}

/-- The first statements complete normally and the others follow, or they never get their turn. -/
theorem runsAll_append : RunsAll runs (first ++ second) s ran c t ↔
    (c ≠ .normal ∧ RunsAll runs first s ran c t) ∨
      ∃ before m after, RunsAll runs first s before .normal m ∧ RunsAll runs second m after c t ∧
        ran = before ++ after := by
  induction first generalizing s ran with
  | nil =>
    constructor
    · exact fun h => .inr ⟨[], s, ran, .nil, h, rfl⟩
    · rintro (⟨hc, h⟩ | ⟨before, m, after, hfirst, hsecond, rfl⟩)
      · cases h
        exact absurd rfl hc
      · cases hfirst
        exact hsecond
  | cons stmt first ih =>
    rw [cons_append]
    constructor
    · intro h
      cases h with
      | next hstmt hrest =>
        rcases ih.1 hrest with ⟨hc, hfirst⟩ | ⟨before, m, after, hfirst, hsecond, rfl⟩
        · exact .inl ⟨hc, .next hstmt hfirst⟩
        · exact .inr ⟨_, m, after, .next hstmt hfirst, hsecond, rfl⟩
      | stop hstmt hc => exact .inl ⟨hc, .stop hstmt hc⟩
    · rintro (⟨hc, h⟩ | ⟨before, m, after, hfirst, hsecond, rfl⟩)
      · cases h with
        | next hstmt hrest => exact .next hstmt (ih.2 (.inl ⟨hc, hrest⟩))
        | stop hstmt _ => exact .stop hstmt hc
      · cases hfirst with
        | next hstmt hrest => exact .next hstmt (ih.2 (.inr ⟨_, m, after, hrest, hsecond, rfl⟩))
        | stop _ hnormal => exact absurd rfl hnormal

theorem RunsAll.eq_of_normal (h : RunsAll runs stmts s ran .normal t) : ran = stmts := by
  induction stmts generalizing s ran with
  | nil =>
    cases h
    rfl
  | cons stmt stmts ih =>
    cases h with
    | next _ hrest => rw [ih hrest]
    | stop _ hnormal => exact absurd rfl hnormal

theorem RunsAll.last_normal (h : RunsAll runs stmts s ran .normal t)
    (hlast : stmts.getLast? = some last) : ∃ s', runs last s' .normal t := by
  obtain ⟨init, rfl⟩ := getLast?_eq_some_iff.1 hlast
  rcases runsAll_append.1 h with ⟨hnormal, -⟩ | ⟨_, m, _, -, hsecond, -⟩
  · exact absurd rfl hnormal
  · cases hsecond with
    | next hrun hnil =>
      cases hnil
      exact ⟨m, hrun⟩
    | stop _ hnormal => exact absurd rfl hnormal

end RunsAll

/-! ## Statements that divert control -/

variable {x : Execution σ ε} {s t : σ} {c : Completion ε} {ran : List Node}

theorem Execution.not_normal_of_diverts (h : stmt.diverts = true) : ¬ x.runs stmt s .normal t := by
  induction hheight : stmt.height using Nat.strong_induction_on generalizing stmt s t with
  | _ height ih =>
  intro hruns
  rw [diverts] at h
  split at h
  iterate 4
    rename_i htype
    exact x.jump (by simp [jumpTypes, htype]) hruns
  · rename_i htype
    split at h
    · rename_i last hlast
      obtain ⟨s', t', hrun⟩ := x.block htype hlast hruns
      have hbelow := height_of_mem_children (mem_of_getLast? hlast)
      exact ih _ (hheight ▸ hbelow) h rfl hrun
    · cases h
  · rename_i htype
    simp only [Bool.and_eq_true] at h
    obtain ⟨hthen, helse⟩ := h
    split at hthen
    · rename_i first hfirst
      split at helse
      · rename_i second hsecond
        obtain ⟨s', t', hrun | hrun⟩ := x.branch htype hfirst hsecond hruns
        · exact ih _ (hheight ▸ height_of_child? hfirst) hthen rfl hrun
        · exact ih _ (hheight ▸ height_of_child? hsecond) helse rfl hrun
      · cases helse
    · cases hthen
  · cases h

theorem Execution.not_normal_of_terminates {stmts : List Node} (h : terminates stmts = true) :
    ¬ RunsAll x.runs stmts s ran .normal t := by
  intro hruns
  obtain ⟨last, hlast, hdiverts⟩ := (Option.any_eq_true _ _).1 h
  obtain ⟨s', hrun⟩ := hruns.last_normal hlast
  exact x.not_normal_of_diverts hdiverts hrun

theorem Execution.runsAll_append_of_terminates {stmts rest : List Node}
    (h : terminates stmts = true) :
    RunsAll x.runs (stmts ++ rest) s ran c t ↔ RunsAll x.runs stmts s ran c t := by
  rw [runsAll_append]
  constructor
  · rintro (⟨-, hruns⟩ | ⟨_, _, _, hnormal, -⟩)
    · exact hruns
    · exact absurd hnormal (x.not_normal_of_terminates h)
  · intro hruns
    refine .inl ⟨?_, hruns⟩
    rintro rfl
    exact x.not_normal_of_terminates h hruns

/-- The `break` at the end of the statements of a switch only leaves it. -/
theorem Execution.leaves_dropFinalBreak {stmts : List Node} :
    x.Leaves (dropFinalBreak stmts) s ran c t ↔ x.Leaves stmts s ran c t := by
  by_cases hbreak : stmts.getLast?.any isPlainBreak = true
  swap
  · rw [dropFinalBreak, if_neg hbreak]
  obtain ⟨stop, hlast, hstop⟩ := (Option.any_eq_true _ _).1 hbreak
  obtain ⟨init, rfl⟩ := getLast?_eq_some_iff.1 hlast
  have hdrop : ∀ init : List Node, dropFinalBreak (init ++ [stop]) = init := fun init => by
    rw [dropFinalBreak, if_pos (by simp [hstop]), dropLast_concat]
  -- what completes normally does not end in a `break`
  have hkeep {m : σ} {all : List Node} (h : RunsAll x.runs init s all .normal m) :
      dropFinalBreak all = all := by
    rw [h.eq_of_normal, dropFinalBreak, if_neg]
    intro hany
    obtain ⟨last, hlast, hplain⟩ := (Option.any_eq_true _ _).1 hany
    obtain ⟨s', hrun⟩ := h.last_normal hlast
    cases ((x.plainBreak hplain).1 hrun).1
  rw [hdrop]
  constructor
  · rintro ⟨all, c', hruns, hran, hc⟩
    by_cases hnormal : c' = .normal
    · subst hnormal
      refine ⟨all ++ [stop], .leave, runsAll_append.2 (.inr ⟨all, t, [stop], hruns, ?_, rfl⟩), ?_, hc⟩
      · exact .stop ((x.plainBreak hstop).2 ⟨rfl, rfl⟩) (by simp)
      · rw [hdrop, ← hran, hkeep hruns]
    · exact ⟨all, c', runsAll_append.2 (.inl ⟨hnormal, hruns⟩), hran, hc⟩
  · rintro ⟨all, c', hruns, hran, hc⟩
    rcases runsAll_append.1 hruns with ⟨-, hfirst⟩ | ⟨before, m, after, hfirst, hsecond, rfl⟩
    · exact ⟨all, c', hfirst, hran, hc⟩
    · cases hsecond with
      | next hrun _ => cases ((x.plainBreak hstop).1 hrun).1
      | stop hrun _ =>
        obtain ⟨rfl, rfl⟩ := (x.plainBreak hstop).1 hrun
        refine ⟨before, .normal, hfirst, ?_, hc⟩
        rw [hkeep hfirst, ← hran, hdrop]

/-! ## Arms and cases -/

def bodyOf (case : Node) : List Node := case.children "consequent"

/-- **An arm runs statements as far as they are reached.** With the `break` at its end put back, its
body is a first part of the statements, all of them or one whose end is not reached. However they are
run, the same statements are run and the switch is left in the same way. -/
def Enters (arm : SwitchArm) (stmts : List Node) : Prop :=
  ∃ body, dropFinalBreak body = arm.body ∧ body <+: stmts ∧
    (body = stmts ∨ terminates body = true) ∧
    ∀ {σ ε : Type} (x : Execution σ ε) (s : σ) (ran : List Node) (c : Completion ε) (t : σ),
      x.Leaves arm.body s ran c t ↔ x.Leaves stmts s ran c t

/-- An arm has the labels of cases. -/
structure Holds (arm : SwitchArm) (group : List Node) : Prop where
  nonempty : group ≠ []
  tests : arm.tests = group.filterMap testOf
  isDefault : arm.isDefault = group.any fun case => (testOf case).isNone

/-- **Arms stand for cases, in order.** Each arm has the labels of the next cases, and from each of
them on it runs the statements of that case and of all after it. -/
inductive Covers : List SwitchArm → List Node → Prop
  | nil : Covers [] []
  | cons {arm : SwitchArm} {arms : List SwitchArm} {group rest : List Node} :
      Holds arm group →
      (∀ earlier case later, group = earlier ++ case :: later →
        Enters arm ((case :: later ++ rest).flatMap bodyOf)) →
      Covers arms rest → Covers (arm :: arms) (group ++ rest)

theorem fallThrough_stops (body : List Node) (later : List (List Node)) :
    fallThrough body later <+: body ++ later.flatten ∧
      (fallThrough body later = body ++ later.flatten ∨
        terminates (fallThrough body later) = true) := by
  induction later generalizing body with
  | nil => simp [fallThrough]
  | cons next later ih =>
    rw [fallThrough]
    split
    · rename_i hterminates
      exact ⟨prefix_append _ _, .inr hterminates⟩
    · simpa using ih (body ++ next)

theorem enters_fallThrough {arm : SwitchArm} {body : List Node} {later : List (List Node)}
    (h : arm.body = dropFinalBreak (fallThrough body later)) :
    Enters arm (body ++ later.flatten) := by
  obtain ⟨⟨rest, hrest⟩, hstops⟩ := fallThrough_stops body later
  refine ⟨fallThrough body later, h.symm, ⟨rest, hrest⟩, hstops, fun x s ran c t => ?_⟩
  rw [h, x.leaves_dropFinalBreak]
  rcases hstops with heq | hterminates
  · rw [heq]
  · simp only [← hrest, Execution.Leaves, x.runsAll_append_of_terminates hterminates]

/-- The arms of a list of groups: each group ends with the only case in it that may have
statements. -/
inductive Groups : List SwitchArm → List Node → Prop
  | nil : Groups [] []
  | cons {arm : SwitchArm} {arms : List SwitchArm} {silent rest : List Node} {last : Node} :
      Holds arm (silent ++ [last]) → (∀ case ∈ silent, bodyOf case = []) →
      arm.body = bodyOf last → Groups arms rest →
      Groups (arm :: arms) (silent ++ [last] ++ rest)

/-- Grouping puts cases without statements before the next one. -/
theorem groups_groupCases (waiting : List Node) {tests : List Node} {isDefault : Bool}
    (hsilent : ∀ case ∈ waiting, bodyOf case = []) (htests : tests = waiting.filterMap testOf)
    (hdefault : isDefault = waiting.any fun case => (testOf case).isNone) :
    Groups (groupCases tests isDefault cases) (waiting ++ cases) := by
  induction cases generalizing waiting tests isDefault with
  | nil =>
    rw [groupCases, append_nil]
    rcases eq_nil_or_concat waiting with rfl | ⟨silent, last, rfl⟩
    · subst htests hdefault
      exact .nil
    · have hany : (!tests.isEmpty || isDefault) = true := by
        subst htests hdefault
        cases htest : testOf last <;> simp [htest]
      rw [if_pos hany, ← append_nil (silent.concat last), concat_eq_append]
      rw [concat_eq_append] at hsilent htests hdefault
      refine .cons ⟨by simp, htests, hdefault⟩ (fun case hcase => hsilent case ?_) ?_ .nil
      · exact mem_append_left _ hcase
      · exact (hsilent last (by simp)).symm
  | cons case rest ih =>
    rw [groupCases, addLabel_eq]
    have htests' : tests ++ (testOf case).toList = (waiting ++ [case]).filterMap testOf := by
      subst htests
      cases htest : testOf case <;> simp [htest]
    have hdefault' : (isDefault || (testOf case).isNone) =
        (waiting ++ [case]).any fun case => (testOf case).isNone := by
      simp [hdefault]
    rw [← singleton_append, ← append_assoc]
    simp only
    split
    · rename_i hbody
      refine ih _ (fun other hother => ?_) htests' hdefault'
      rcases mem_append.1 hother with hother | hother
      · exact hsilent other hother
      · rw [mem_singleton.1 hother]
        exact List.isEmpty_iff.1 hbody
    · exact .cons ⟨by simp, htests', hdefault'⟩ hsilent rfl (ih [] (by simp) rfl rfl)

variable {arms : List SwitchArm}

theorem Groups.flatten_bodies (h : Groups arms cases) :
    (arms.map (·.body)).flatten = cases.flatMap bodyOf := by
  induction h with
  | nil => rfl
  | cons _ hsilent hbody _ ih =>
    rw [map_cons, flatten_cons, ih, hbody, flatMap_append, flatMap_append,
      flatMap_eq_nil_iff.2 hsilent]
    simp

/-- **Complete arms stand for the cases.** -/
theorem Groups.covers_completeArms (h : Groups arms cases) : Covers (completeArms arms) cases := by
  induction h with
  | nil => exact .nil
  | @cons arm arms silent rest last hholds hsilent hbody hgroups ih =>
    rw [completeArms]
    refine .cons ⟨hholds.nonempty, hholds.tests, hholds.isDefault⟩ (fun earlier case later hsplit => ?_)
      ih
    -- of the case and those after it in the group, only the last has statements
    have hgroup : (case :: later).flatMap bodyOf = bodyOf last := by
      obtain ⟨init, hinit⟩ : ∃ init, case :: later = init ++ [last] := by
        refine getLast?_eq_some_iff.1 ?_
        have hlast := congrArg getLast? hsplit
        rwa [getLast?_concat, getLast?_append_of_ne_nil _ (cons_ne_nil _ _),
          eq_comm] at hlast
      have hsub : ∀ other ∈ init, bodyOf other = [] := fun other hother => by
        rw [hinit, ← append_assoc] at hsplit
        exact hsilent other (append_cancel_right hsplit ▸ mem_append_right _ hother)
      rw [hinit, flatMap_append, flatMap_eq_nil_iff.2 hsub]
      simp
    rw [flatMap_append, hgroup, ← hgroups.flatten_bodies]
    exact enters_fallThrough (by rw [hbody])

/-- **Cases lose and duplicate no label, and arms run what the cases run.** -/
theorem switchArms_covers (cases : List Node) :
    (switchArms cases).flatMap (·.tests) = cases.filterMap testOf ∧
      ((∃ arm ∈ switchArms cases, arm.isDefault = true) ↔ ∃ case ∈ cases, testOf case = none) ∧
      Covers (switchArms cases) cases := by
  have hcovers : Covers (switchArms cases) cases :=
    (groups_groupCases [] nofun rfl rfl).covers_completeArms
  refine ⟨flatMap_tests_switchArms cases, ⟨?_, ?_⟩, hcovers⟩
  · rintro ⟨arm, harm, hdefault⟩
    have hcount : 0 < (switchArms cases).countP (·.isDefault) :=
      List.countP_pos_iff.2 ⟨arm, harm, hdefault⟩
    obtain ⟨case, hcase, hnone⟩ :=
      List.countP_pos_iff.1 (hcount.trans_le (countP_isDefault_switchArms cases))
    exact ⟨case, hcase, Option.isNone_iff_eq_none.1 hnone⟩
  · rintro ⟨case, hcase, hnone⟩
    obtain ⟨arm, harm, hcontains⟩ := exists_contains_switchArms hcase
    rw [Contains, hnone] at hcontains
    exact ⟨arm, harm, hcontains⟩

end Scriptgen.Switch
