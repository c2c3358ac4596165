import Scriptgen.Proofs.Lowering
import Scriptgen.Proofs.Words.Source
/-!
# The arm of a case

A switch selects the first case with the label of its value, or else the default one
(`selectedCase`). The cases are grouped into arms, and a chain of conditions goes through the arms
(`takenArm`). Grouping keeps the labels in order and apart, so that the chain comes to the arm of
the selected case: `takenArm_of_contains` and `takenArm_of_none`.
-/

namespace Scriptgen.Switch

open Node List Lowering

/-! ## Labels -/

/-- A literal writes a whole number that a double holds: one below `2 ^ 53` in any spelling, or one
of any size whose spelling is kept. -/
inductive IntegerLiteral : Node → Nat → Prop
  | exact {node : Node} {n : Nat} : Words.Writes node (.literal n) → IntegerLiteral node n
  | spelled {node : Node} {value : Json.Number} {raw : String} {n : Nat} :
      node.unwrapped.tagged = false → node.unwrapped.type = "Literal" →
      node.unwrapped.field? "regex" = none → node.unwrapped.text? "bigint" = none →
      node.unwrapped.field? "value" = some (.number value) →
      value.toBinary64.isIntegral = true → value.toBinary64.truncate = n →
      node.unwrapped.text? "raw" = some raw → Text.Spells raw.toList n →
      isPortable ((Text.dropEndWhile (· == 'n') raw.toList).map Char.toLower) = true →
      IntegerLiteral node n

/-- A label is an integer: a literal, or a literal with a minus before it. -/
inductive IntegerLabel : Node → Int → Prop
  | literal {node : Node} {n : Nat} : IntegerLiteral node n → IntegerLabel node n
  | negated {node argument : Node} {n : Nat} :
      node.unwrapped.tagged = false → node.unwrapped.type = "UnaryExpression" →
      node.unwrapped.text? "operator" = some "-" →
      node.unwrapped.child? "argument" = some argument →
      IntegerLiteral argument n → IntegerLabel node (-n)

variable {node : Node}

/-- A node is the literal of a number. -/
structure IsNumber (node : Node) (number : Json.Number) : Prop where
  tagged : node.unwrapped.tagged = false
  type : node.unwrapped.type = "Literal"
  regex : node.unwrapped.field? "regex" = none
  bigint : node.unwrapped.text? "bigint" = none
  value : node.unwrapped.field? "value" = some (.number number)

/-- What a literal is to the targets: that of a number whose text denotes it. -/
theorem IntegerLiteral.denotes {n : Nat} (h : IntegerLiteral node n) :
    ∃ number, IsNumber node number ∧
      Text.Denotes (numberText number.toBinary64 (node.unwrapped.text? "raw")) n := by
  cases h with
  | exact h =>
    cases h with
    | literal htag htype hregex hbig hvalue hn hlt hraw =>
      refine ⟨_, ⟨htag, htype, hregex, hbig, hvalue⟩, ?_⟩
      rw [hn]
      exact denotes_numberText hlt hraw
  | spelled htag htype hregex hbig hvalue _ _ hraw hspells hport =>
    refine ⟨_, ⟨htag, htype, hregex, hbig, hvalue⟩, ?_⟩
    simp only [hraw, numberText, hport, if_true]
    exact Text.denotes_of_isPortable hspells hport

/-- The test of a case, which the default one lacks. -/
def testOf (case : Node) : Option Node := case.child? "test"

variable (label : Node → Int) (v : Int)

/-- The case that a switch goes to: the first one with the label, or else the default one. -/
def selectedCase (cases : List Node) : Option Node :=
  (cases.find? fun case => (testOf case).any fun test => label test = v).or
    (cases.find? fun case => (testOf case).isNone)

/-- Whether a case belongs to an arm. -/
def Contains (arm : SwitchArm) (case : Node) : Prop :=
  match testOf case with
  | some test => test ∈ arm.tests
  | none => arm.isDefault = true

/-- The cases of a switch have integer labels, all of them different, and there is at most one
default case. -/
structure Labelled (cases : List Node) : Prop where
  integer : ∀ case ∈ cases, ∀ test ∈ testOf case, IntegerLabel test (label test)
  distinct : ((cases.filterMap testOf).map label).Nodup
  default : cases.countP (fun case => (testOf case).isNone) ≤ 1

/-! ## Grouping -/

variable {label v}

theorem addLabel_eq (tests : List Node) (isDefault : Bool) (case : Node) :
    addLabel tests isDefault case =
      (tests ++ (testOf case).toList, isDefault || (testOf case).isNone) := by
  rw [addLabel, testOf]
  cases case.child? "test" <;> simp

theorem flatMap_tests_groupCases (tests : List Node) (isDefault : Bool) (cases : List Node) :
    (groupCases tests isDefault cases).flatMap (·.tests) = tests ++ cases.filterMap testOf := by
  induction cases generalizing tests isDefault with
  | nil =>
    rw [groupCases]
    split
    · simp
    · rename_i h
      have htests : tests = [] := by
        simp only [Bool.or_eq_true, not_or, Bool.not_eq_true', Bool.not_eq_false] at h
        exact List.isEmpty_iff.1 h.1
      simp [htests]
  | cons case rest ih =>
    have hcons : (case :: rest).filterMap testOf =
        (testOf case).toList ++ rest.filterMap testOf := by
      cases htest : testOf case <;> simp [htest]
    rw [groupCases, addLabel_eq, hcons]
    simp only
    split
    · rw [ih, append_assoc]
    · rw [flatMap_cons, ih, nil_append, append_assoc]

theorem countP_isDefault_groupCases (tests : List Node) (isDefault : Bool) (cases : List Node) :
    (groupCases tests isDefault cases).countP (·.isDefault) ≤
      isDefault.toNat + cases.countP fun case => (testOf case).isNone := by
  induction cases generalizing tests isDefault with
  | nil =>
    rw [groupCases]
    split
    · cases isDefault <;> simp
    · simp
  | cons case rest ih =>
    have hor : (isDefault || (testOf case).isNone).toNat ≤
        isDefault.toNat + (testOf case).isNone.toNat := by
      cases isDefault <;> cases (testOf case).isNone <;> decide
    have hcount : (case :: rest).countP (fun case => (testOf case).isNone) =
        rest.countP (fun case => (testOf case).isNone) + (testOf case).isNone.toNat := by
      rw [countP_cons]
      cases (testOf case).isNone <;> rfl
    rw [groupCases, addLabel_eq, hcount]
    simp only
    split
    · have := ih (tests ++ (testOf case).toList) (isDefault || (testOf case).isNone)
      omega
    · have hrest := ih [] false
      rw [Bool.toNat_false, Nat.zero_add] at hrest
      rw [countP_cons]
      cases hd : (isDefault || (testOf case).isNone) <;> rw [hd] at hor <;> simp at hor ⊢ <;> omega

theorem exists_isDefault_groupCases (tests cases : List Node) :
    ∃ arm ∈ groupCases tests true cases, arm.isDefault = true := by
  induction cases generalizing tests with
  | nil => exact ⟨⟨tests, true, []⟩, by simp [groupCases], rfl⟩
  | cons case rest ih =>
    rw [groupCases, addLabel_eq]
    simp only [Bool.true_or]
    split
    · exact ih _
    · exact ⟨_, mem_cons_self, rfl⟩

variable {case : Node} {tests : List Node} {isDefault : Bool}

theorem exists_contains_groupCases {cases : List Node} (h : case ∈ cases) :
    ∃ arm ∈ groupCases tests isDefault cases, Contains arm case := by
  cases htest : testOf case with
  | some test =>
    -- The labels of all arms together are those of the cases.
    have hmem : test ∈ (groupCases tests isDefault cases).flatMap (·.tests) := by
      rw [flatMap_tests_groupCases]
      exact mem_append_right _ (mem_filterMap.2 ⟨case, h, htest⟩)
    obtain ⟨arm, harm, hin⟩ := mem_flatMap.1 hmem
    exact ⟨arm, harm, by rwa [Contains, htest]⟩
  | none =>
    have hdefault : ∃ arm ∈ groupCases tests isDefault cases, arm.isDefault = true := by
      induction cases generalizing tests isDefault with
      | nil => cases h
      | cons first rest ih =>
        rw [groupCases, addLabel_eq]
        simp only
        rcases mem_cons.1 h with rfl | hrest
        · simp only [htest, Option.isNone_none, Bool.or_true]
          split
          · exact exists_isDefault_groupCases _ _
          · exact ⟨_, mem_cons_self, rfl⟩
        · split
          · exact ih hrest
          · obtain ⟨arm, harm, hd⟩ := ih hrest
            exact ⟨arm, mem_cons_of_mem _ harm, hd⟩
    obtain ⟨arm, harm, hd⟩ := hdefault
    exact ⟨arm, harm, by rwa [Contains, htest]⟩

/-! ## Arms -/

theorem map_completeArms {β : Type} (f : List Node → Bool → β) (arms : List SwitchArm) :
    (completeArms arms).map (fun arm => f arm.tests arm.isDefault) =
      arms.map fun arm => f arm.tests arm.isDefault := by
  induction arms with
  | nil => rfl
  | cons arm rest ih => rw [completeArms, map_cons, map_cons, ih]

theorem flatMap_tests_switchArms (cases : List Node) :
    (switchArms cases).flatMap (·.tests) = cases.filterMap testOf := by
  rw [switchArms, flatMap_def, map_completeArms fun tests _ => tests, ← flatMap_def,
    flatMap_tests_groupCases, nil_append]

variable {arm : SwitchArm} {test : Node}

theorem exists_case_of_mem_tests {cases : List Node} (harm : arm ∈ switchArms cases)
    (htest : test ∈ arm.tests) : ∃ case ∈ cases, testOf case = some test := by
  have hmem : test ∈ (switchArms cases).flatMap (·.tests) :=
    mem_flatMap.2 ⟨arm, harm, htest⟩
  rwa [flatMap_tests_switchArms, mem_filterMap] at hmem

/-- The tests of arms are labels, and stand below the switch. -/
theorem Labelled.of_mem_tests {height : Nat} (hh : node.height ≤ height)
    (h : Labelled label (node.children "cases")) (harm : arm ∈ switchArms (node.children "cases"))
    (test : Node) (htest : test ∈ arm.tests) :
    IntegerLabel test (label test) ∧ test.height ≤ height := by
  obtain ⟨case, hcase, hof⟩ := exists_case_of_mem_tests harm htest
  have hin := height_of_mem_children hcase
  have hbelow := height_of_child? hof
  exact ⟨h.integer case hcase test hof, by omega⟩

theorem countP_isDefault_switchArms (cases : List Node) :
    (switchArms cases).countP (·.isDefault) ≤ cases.countP fun case => (testOf case).isNone := by
  have hsame : (switchArms cases).countP (·.isDefault) =
      (groupCases [] false cases).countP (·.isDefault) := by
    have hmap := congrArg (countP id)
      (map_completeArms (fun _ isDefault => isDefault) (groupCases [] false cases))
    rwa [countP_map, countP_map] at hmap
  have hgroup := countP_isDefault_groupCases [] false cases
  rw [Bool.toNat_false, Nat.zero_add] at hgroup
  omega

theorem tests_ne_nil_of_mem_groupCases {cases : List Node}
    (harm : arm ∈ groupCases tests isDefault cases) (hdefault : arm.isDefault = false) :
    arm.tests ≠ [] := by
  induction cases generalizing tests isDefault with
  | nil =>
    rw [groupCases] at harm
    split at harm
    · rename_i h
      obtain rfl := mem_singleton.1 harm
      obtain rfl : isDefault = false := hdefault
      simpa using h
    · cases harm
  | cons case rest ih =>
    rw [groupCases, addLabel_eq] at harm
    simp only at harm
    split at harm
    · exact ih harm
    · rcases mem_cons.1 harm with rfl | harm
      · cases htest : testOf case with
        | none => simp [htest] at hdefault
        | some test => simp
      · exact ih harm

theorem tests_ne_nil_of_mem_switchArms {cases : List Node} (harm : arm ∈ switchArms cases)
    (hdefault : arm.isDefault = false) : arm.tests ≠ [] := by
  have hmem : (arm.tests, arm.isDefault) ∈
      (switchArms cases).map fun arm => (arm.tests, arm.isDefault) :=
    mem_map_of_mem harm
  rw [switchArms, map_completeArms Prod.mk, mem_map] at hmem
  obtain ⟨own, hown, heq⟩ := hmem
  obtain ⟨htests, hsame⟩ := Prod.mk.inj heq
  rw [← htests]
  exact tests_ne_nil_of_mem_groupCases hown (hsame.trans hdefault)

variable {stmt : Node}

theorem exists_case_of_mem_groupCases {cases : List Node}
    (harm : arm ∈ groupCases tests isDefault cases) (hstmt : stmt ∈ arm.body) :
    ∃ case ∈ cases, stmt ∈ case.children "consequent" := by
  induction cases generalizing tests isDefault with
  | nil =>
    rw [groupCases] at harm
    split at harm
    · rw [mem_singleton.1 harm] at hstmt
      cases hstmt
    · cases harm
  | cons case rest ih =>
    have hlater : ∀ {tests isDefault}, arm ∈ groupCases tests isDefault rest →
        ∃ case' ∈ case :: rest, stmt ∈ case'.children "consequent" := by
      intro tests isDefault harm
      obtain ⟨case', hcase', hin⟩ := ih harm
      exact ⟨case', mem_cons_of_mem _ hcase', hin⟩
    rw [groupCases] at harm
    simp only at harm
    split at harm
    · exact hlater harm
    · rcases mem_cons.1 harm with rfl | harm
      · exact ⟨case, mem_cons_self, hstmt⟩
      · exact hlater harm

theorem mem_fallThrough {body : List Node} {later : List (List Node)}
    (h : stmt ∈ fallThrough body later) : stmt ∈ body ∨ ∃ next ∈ later, stmt ∈ next := by
  induction later generalizing body with
  | nil => exact .inl h
  | cons next later ih =>
    rw [fallThrough] at h
    split at h
    · exact .inl h
    · rcases ih h with h | ⟨other, hother, hin⟩
      · rcases mem_append.1 h with h | h
        · exact .inl h
        · exact .inr ⟨next, mem_cons_self, h⟩
      · exact .inr ⟨other, mem_cons_of_mem _ hother, hin⟩

theorem exists_arm_of_mem_completeArms {arms : List SwitchArm} (harm : arm ∈ completeArms arms)
    (hstmt : stmt ∈ arm.body) : ∃ own ∈ arms, stmt ∈ own.body := by
  induction arms with
  | nil => cases harm
  | cons first rest ih =>
    rw [completeArms] at harm
    rcases mem_cons.1 harm with rfl | harm
    · have hfall : stmt ∈ fallThrough first.body (rest.map (·.body)) := by
        rw [dropFinalBreak] at hstmt
        split at hstmt
        · exact mem_of_mem_dropLast hstmt
        · exact hstmt
      rcases mem_fallThrough hfall with hin | ⟨body, hbody, hin⟩
      · exact ⟨first, mem_cons_self, hin⟩
      · obtain ⟨own, hown, rfl⟩ := mem_map.1 hbody
        exact ⟨own, mem_cons_of_mem _ hown, hin⟩
    · obtain ⟨own, hown, hin⟩ := ih harm
      exact ⟨own, mem_cons_of_mem _ hown, hin⟩

/-- **The statements of arms are those of cases.** -/
theorem exists_case_of_mem_switchArms {cases : List Node} (harm : arm ∈ switchArms cases)
    (hstmt : stmt ∈ arm.body) :
    ∃ case ∈ cases, stmt ∈ case.children "consequent" := by
  obtain ⟨own, hown, hin⟩ := exists_arm_of_mem_completeArms harm hstmt
  exact exists_case_of_mem_groupCases hown hin

/-- **Every case has an arm.** -/
theorem exists_contains_switchArms {cases : List Node} (h : case ∈ cases) :
    ∃ arm ∈ switchArms cases, Contains arm case := by
  obtain ⟨arm, harm, hcontains⟩ := @exists_contains_groupCases case [] false cases h
  have hmem : (arm.tests, arm.isDefault) ∈
      (switchArms cases).map fun arm => (arm.tests, arm.isDefault) := by
    rw [switchArms, map_completeArms fun tests isDefault => (tests, isDefault)]
    exact mem_map_of_mem harm
  obtain ⟨arm', harm', heq⟩ := mem_map.1 hmem
  rw [Prod.mk.injEq] at heq
  refine ⟨arm', harm', ?_⟩
  rwa [Contains, heq.1, heq.2]

/-! ## The arm that is taken -/

variable {β : Type}

variable (label v) in
/-- What a chain of conditions over arms takes: the first arm with the label that is not the default
one, or else the last default one. -/
def takenArm (arms : List (SwitchArm × β)) : Option β :=
  ((arms.find? fun arm => !arm.1.isDefault && arm.1.tests.any fun test => label test = v).or
    (arms.reverse.find? fun arm => arm.1.isDefault)).map (·.2)

variable {cases : List Node} {bodies : List β}

theorem eq_of_countP_le_one {γ : Type} {p : γ → Bool} {l : List γ} {x y : γ}
    (h : l.countP p ≤ 1) (hx : x ∈ l) (hy : y ∈ l) (hpx : p x = true) (hpy : p y = true) :
    x = y := by
  rw [countP_eq_length_filter] at h
  have hxf : x ∈ l.filter p := mem_filter.2 ⟨hx, hpx⟩
  have hyf : y ∈ l.filter p := mem_filter.2 ⟨hy, hpy⟩
  match hfilter : l.filter p with
  | [] => rw [hfilter] at hxf; cases hxf
  | [only] =>
    rw [hfilter] at hxf hyf
    rw [mem_singleton.1 hxf, mem_singleton.1 hyf]
  | _ :: _ :: _ => rw [hfilter] at h; simp at h

/-- Where no case has the label, no arm has. -/
theorem label_ne_of_find? (hnone : (cases.find? fun case =>
      (testOf case).any fun test => label test = v) = none)
    {p : SwitchArm × β} (hp : p ∈ (switchArms cases).zip bodies)
    (htest : test ∈ p.1.tests) : label test ≠ v := by
  obtain ⟨case, hcase, hof⟩ := exists_case_of_mem_tests (of_mem_zip hp).1 htest
  have hfalse := find?_eq_none.1 hnone case hcase
  rw [hof] at hfalse
  simpa using hfalse

section Taken

variable (h : Labelled label cases) (hlen : bodies.length = (switchArms cases).length)
variable {p : SwitchArm × β} (hp : p ∈ (switchArms cases).zip bodies)

include hlen in
theorem map_fst_arms : ((switchArms cases).zip bodies).map Prod.fst = switchArms cases :=
  map_fst_zip (by omega)

include h hlen hp

theorem eq_of_label {q : SwitchArm × β} (hq : q ∈ (switchArms cases).zip bodies) {a b : Node}
    (ha : a ∈ p.1.tests) (hb : b ∈ q.1.tests) (hab : label a = label b) : p = q := by
  have hnodup : (((switchArms cases).zip bodies).flatMap fun p => p.1.tests.map label).Nodup := by
    have heq : (((switchArms cases).zip bodies).flatMap fun p => p.1.tests.map label) =
        (cases.filterMap testOf).map label := by
      rw [← flatMap_tests_switchArms, ← map_fst_arms hlen, map_flatMap, flatMap_map]
      rw [map_fst_arms hlen]
    rw [heq]
    exact h.distinct
  have hdisjoint := (nodup_flatMap.1 hnodup).2
  have hsymm : Std.Symm (Function.onFun List.Disjoint
      fun p : SwitchArm × β => p.1.tests.map label) := ⟨fun _ _ h => List.Disjoint.symm h⟩
  by_contra hne
  have happart : List.Disjoint (p.1.tests.map label) (q.1.tests.map label) :=
    hdisjoint.forall hp hq hne
  exact happart (mem_map_of_mem ha) (hab ▸ mem_map_of_mem hb)

theorem eq_of_isDefault {q : SwitchArm × β} (hq : q ∈ (switchArms cases).zip bodies)
    (hpd : p.1.isDefault = true) (hqd : q.1.isDefault = true) : p = q := by
  have hcount : ((switchArms cases).zip bodies).countP (fun p => p.1.isDefault) ≤ 1 := by
    have hmap : (((switchArms cases).zip bodies).map Prod.fst).countP (·.isDefault) =
        ((switchArms cases).zip bodies).countP (fun p => p.1.isDefault) := countP_map
    rw [← hmap, map_fst_arms hlen]
    exact le_trans (countP_isDefault_switchArms cases) h.default
  exact eq_of_countP_le_one hcount hp hq hpd hqd

theorem takenArm_of_label (hd : p.1.isDefault = false) (htest : test ∈ p.1.tests)
    (hv : label test = v) :
    takenArm label v ((switchArms cases).zip bodies) = some p.2 := by
  have hsome : (((switchArms cases).zip bodies).find? fun arm =>
      !arm.1.isDefault && arm.1.tests.any fun test => label test = v).isSome = true := by
    rw [find?_isSome]
    refine ⟨p, hp, ?_⟩
    rw [hd, Bool.not_false, Bool.true_and, any_eq_true]
    exact ⟨test, htest, by simpa using hv⟩
  obtain ⟨q, hq⟩ := Option.isSome_iff_exists.1 hsome
  have hq' := find?_some hq
  rw [Bool.and_eq_true, any_eq_true] at hq'
  obtain ⟨-, other, hother, hlabel⟩ := hq'
  have hpq : p = q :=
    eq_of_label h hlen hp (mem_of_find?_eq_some hq) htest hother
      (by rw [hv]; exact (by simpa using hlabel : label other = v).symm)
  rw [takenArm, hq, Option.some_or, Option.map_some, hpq]

theorem takenArm_of_isDefault (hd : p.1.isDefault = true)
    (hother : ∀ q ∈ (switchArms cases).zip bodies, q.1.isDefault = false →
      ∀ test ∈ q.1.tests, label test ≠ v) :
    takenArm label v ((switchArms cases).zip bodies) = some p.2 := by
  have hnone : (((switchArms cases).zip bodies).find? fun arm =>
      !arm.1.isDefault && arm.1.tests.any fun test => label test = v) = none := by
    rw [find?_eq_none]
    intro q hq htrue
    rw [Bool.and_eq_true, Bool.not_eq_true', any_eq_true] at htrue
    obtain ⟨hqd, test, htest, hlabel⟩ := htrue
    exact hother q hq hqd test htest (by simpa using hlabel)
  have hsome : (((switchArms cases).zip bodies).reverse.find? fun arm =>
      arm.1.isDefault).isSome = true := by
    rw [find?_isSome]
    exact ⟨p, mem_reverse.2 hp, hd⟩
  obtain ⟨q, hq⟩ := Option.isSome_iff_exists.1 hsome
  have hqd : q.1.isDefault = true := by simpa using find?_some hq
  have hpq : p = q :=
    eq_of_isDefault h hlen hp (mem_reverse.1 (mem_of_find?_eq_some hq)) hd hqd
  rw [takenArm, hnone, hq, Option.none_or, Option.map_some, hpq]

/-- **The arm of the selected case is taken.** -/
theorem takenArm_of_contains (hselected : selectedCase label v cases = some case)
    (hcontains : Contains p.1 case) :
    takenArm label v ((switchArms cases).zip bodies) = some p.2 := by
  rw [selectedCase] at hselected
  cases hfind : cases.find? fun case => (testOf case).any fun test => label test = v with
  | some found =>
    obtain rfl : found = case := by simpa [hfind] using hselected
    obtain ⟨test, htest, hv⟩ : ∃ test, testOf found = some test ∧ label test = v := by
      simpa [Option.any_eq_true] using find?_some hfind
    rw [Contains, htest] at hcontains
    cases hd : p.1.isDefault with
    | false => exact takenArm_of_label h hlen hp hd hcontains hv
    | true =>
      refine takenArm_of_isDefault h hlen hp hd fun q hq hqd other hother heq => ?_
      have hpq : p = q := eq_of_label h hlen hp hq hcontains hother (hv.trans heq.symm)
      rw [← hpq, hd] at hqd
      cases hqd
  | none =>
    rw [hfind, Option.none_or] at hselected
    have htest : testOf case = none := by simpa using find?_some hselected
    rw [Contains, htest] at hcontains
    exact takenArm_of_isDefault h hlen hp hcontains fun q hq _ test htest =>
      label_ne_of_find? hfind hq htest

end Taken

/-- **No arm is taken if no case is selected.** -/
theorem takenArm_of_none (hselected : selectedCase label v cases = none) :
    takenArm label v ((switchArms cases).zip bodies) = none := by
  rw [selectedCase, Option.or_eq_none_iff] at hselected
  obtain ⟨hlabel, hdefault⟩ := hselected
  have hcount : (switchArms cases).countP (·.isDefault) = 0 := by
    have hle := countP_isDefault_switchArms cases
    have hzero : cases.countP (fun case => (testOf case).isNone) = 0 :=
      countP_eq_zero.2 fun case hcase => find?_eq_none.1 hdefault case hcase
    omega
  rw [takenArm, Option.map_eq_none_iff, Option.or_eq_none_iff, find?_eq_none,
    find?_eq_none]
  refine ⟨fun p hp htrue => ?_, fun p hp => ?_⟩
  · rw [Bool.and_eq_true, any_eq_true] at htrue
    obtain ⟨-, test, htest, hv⟩ := htrue
    exact label_ne_of_find? hlabel hp htest (by simpa using hv)
  · exact countP_eq_zero.1 hcount p.1 (of_mem_zip (mem_reverse.1 hp)).1

/-! ## Chains of conditions -/

variable {C : Type}

/-- The conditions of a chain: those of each arm that has any, joined. -/
def conditions (join : C → C → C) (arms : List (Option (List C) × β)) : List (C × β) :=
  arms.filterMap fun (tests, body) =>
    match tests with
    | some (first :: rest) => some (rest.foldl join first, body)
    | _ => none

theorem filterMap_eq_conditions (join : C → C → C) (arms : List (Option (List C) × β))
    {F : Option (List C) × β → Option (C × β)} (hnone : ∀ body, F (none, body) = none)
    (hnil : ∀ body, F (some [], body) = none)
    (hcons : ∀ first rest body, F (some (first :: rest), body) =
      some (rest.foldl join first, body)) : arms.filterMap F = conditions join arms := by
  refine filterMap_congr fun arm _ => ?_
  obtain ⟨_ | _ | ⟨first, rest⟩, body⟩ := arm
  · exact hnone body
  · exact hnil body
  · exact hcons first rest body

/-- The last default arm. -/
def defaultArm (arms : List (Option (List C) × β)) : Option β :=
  (arms.reverse.find? fun arm => arm.1.isNone).map (·.2)

/-- The chain of conditions over arms. -/
def chainOf {σ : Type} (join : C → C → C) (ifElse : C → List σ → List (C × List σ) → Option (List σ) → σ)
    (arms : List (Option (List C) × List σ)) : List σ :=
  match conditions join arms with
  | [] => (defaultArm arms).getD []
  | (cond, body) :: rest => [ifElse cond body rest (defaultArm arms)]

/-- What stands under the first condition that holds, if there is one. All conditions before it have
to be true or false. -/
def firstHolding (holds : C → Option Bool) : List (C × β) → Option (Option β)
  | [] => some none
  | (cond, body) :: rest => do
    if ← holds cond then return some body
    else firstHolding holds rest

variable (holds : C → Option Bool) (label v)

/-- What an arm with a body is lowered to: the body, and a condition for each label unless it is the
default arm. -/
structure LoweredAs (arm : SwitchArm × β) (lowered : Option (List C) × β) : Prop where
  body_eq : lowered.2 = arm.2
  isNone_eq : lowered.1.isNone = arm.1.isDefault
  tests : ∀ conds, lowered.1 = some conds →
    List.Forall₂ (fun test cond => holds cond = some (decide (label test = v))) arm.1.tests conds

variable {holds label v} {join : C → C → C} {arms : List (SwitchArm × β)}
variable {lowered : List (Option (List C) × β)}

theorem find?_isNone (h : List.Forall₂ (LoweredAs label v holds) arms lowered) :
    (lowered.find? fun arm => arm.1.isNone).map (·.2) =
      (arms.find? fun arm => arm.1.isDefault).map (·.2) := by
  induction h with
  | nil => rfl
  | @cons arm lowered arms rest harm _ ih =>
    rw [find?_cons, find?_cons, harm.isNone_eq]
    cases arm.1.isDefault with
    | true => exact congrArg some harm.body_eq
    | false => exact ih

/-- **What a chain of conditions runs**: what the first condition that holds leads to, or else the
last block. The flag tells whether there are conditions at all. -/
inductive Runs {σ : Type} (holds : C → Option Bool)
    (ifElse : C → List σ → List (C × List σ) → Option (List σ) → σ) : Bool → List σ → List σ → Prop
  | plain (body : List σ) : Runs holds ifElse false body body
  | branch {cond : C} {body : List σ} {rest : List (C × List σ)} {last chosen : Option (List σ)} :
      firstHolding holds ((cond, body) :: rest) = some chosen →
      Runs holds ifElse true [ifElse cond body rest last] ((chosen.or last).getD [])

section Join

variable
    (hjoin : ∀ a b x y, holds a = some x → holds b = some y → holds (join a b) = some (x || y))

include hjoin

theorem holds_foldl {conds : List C} {first : C} {x : Bool} (hfirst : holds first = some x)
    (h : List.Forall₂ (fun test cond => holds cond = some (decide (label test = v))) tests conds) :
    holds (conds.foldl join first) = some (x || tests.any fun test => label test = v) := by
  induction h generalizing first x with
  | nil => simpa using hfirst
  | cons hcond _ ih =>
    rw [foldl_cons, ih (hjoin _ _ _ _ hfirst hcond), any_cons, Bool.or_assoc]

theorem firstHolding_conditions (h : List.Forall₂ (LoweredAs label v holds) arms lowered) :
    firstHolding holds (conditions join lowered) =
      some ((arms.find? fun arm =>
        !arm.1.isDefault && arm.1.tests.any fun test => label test = v).map (·.2)) := by
  induction h with
  | nil => rfl
  | @cons arm lowered arms rest harm _ ih =>
    obtain ⟨⟨tests, isDefault, own⟩, body⟩ := arm
    obtain ⟨conds, body'⟩ := lowered
    obtain ⟨hbody, hnone, htests⟩ := harm
    obtain rfl : body' = body := hbody
    rw [find?_cons]
    match conds with
    | none =>
      have hd : isDefault = true := hnone.symm
      simpa [conditions, hd] using ih
    | some [] =>
      have hempty : tests = [] := forall₂_nil_right_iff.1 (htests [] rfl)
      simpa [conditions, hempty] using ih
    | some (first :: conds) =>
      have hd : isDefault = false := hnone.symm
      obtain ⟨test, tests', hfirst, hrest, rfl⟩ := forall₂_cons_right_iff.1 (htests _ rfl)
      have hcond := holds_foldl hjoin hfirst hrest
      have hcons : conditions join ((some (first :: conds), body') :: rest) =
          (conds.foldl join first, body') :: conditions join rest := rfl
      rw [hcons, firstHolding, hcond, hd, any_cons]
      cases decide (label test = v) || tests'.any fun test => decide (label test = v) with
      | false => simpa using ih
      | true => rfl

/-- **A chain of conditions comes to the arm that is taken**: what its first condition that holds
leads to, or else the last default arm. -/
theorem takenArm_eq (h : List.Forall₂ (LoweredAs label v holds) arms lowered) :
    ∃ chosen, firstHolding holds (conditions join lowered) = some chosen ∧
      takenArm label v arms = chosen.or (defaultArm lowered) := by
  refine ⟨_, firstHolding_conditions hjoin h, ?_⟩
  rw [defaultArm, find?_isNone (forall₂_reverse_iff.2 h), takenArm, Option.map_or]

theorem runs_chainOf {σ : Type} {ifElse : C → List σ → List (C × List σ) → Option (List σ) → σ}
    {arms : List (SwitchArm × List σ)} {lowered : List (Option (List C) × List σ)}
    (h : List.Forall₂ (LoweredAs label v holds) arms lowered) :
    Runs holds ifElse (!(conditions join lowered).isEmpty) (chainOf join ifElse lowered)
      ((takenArm label v arms).getD []) := by
  obtain ⟨chosen, hchosen, htaken⟩ := takenArm_eq hjoin h
  rw [htaken, chainOf]
  cases hconds : conditions join lowered with
  | nil =>
    rw [hconds] at hchosen
    obtain rfl : none = chosen := Option.some.inj hchosen
    exact .plain _
  | cons branch rest =>
    rw [hconds] at hchosen
    exact .branch hchosen

end Join

theorem forall₂_zip {P : SwitchArm → Option (List C) × β → Prop} {arms : List SwitchArm}
    (h : List.Forall₂ P arms lowered)
    (himp : ∀ arm lowered, P arm lowered → LoweredAs label v holds (arm, lowered.2) lowered) :
    List.Forall₂ (LoweredAs label v holds) (arms.zip (lowered.map (·.2))) lowered := by
  induction h with
  | nil => exact .nil
  | cons harm _ ih => exact .cons (himp _ _ harm) ih

variable (label cases bodies) in
/-- **Bodies are run as a switch selects cases**: that of the arm that contains the selected case,
which there is, and nothing if no case is selected. -/
structure Selects (runs : Int → β → Prop) (nothing : β) : Prop where
  contains : ∀ case ∈ cases, ∃ p ∈ (switchArms cases).zip bodies, Contains p.1 case
  selected : ∀ v case, selectedCase label v cases = some case →
    ∀ p ∈ (switchArms cases).zip bodies, Contains p.1 case → runs v p.2
  unselected : ∀ v, selectedCase label v cases = none → runs v nothing

theorem Selects.of_takenArm (h : Labelled label cases)
    (hlen : bodies.length = (switchArms cases).length) {runs : Int → β → Prop} {nothing : β}
    (htaken : ∀ v, runs v ((takenArm label v ((switchArms cases).zip bodies)).getD nothing)) :
    Selects label cases bodies runs nothing where
  contains case hcase := by
    obtain ⟨arm, harm, hcontains⟩ := exists_contains_switchArms hcase
    obtain ⟨i, hi, rfl⟩ := getElem_of_mem harm
    have hzip : i < ((switchArms cases).zip bodies).length := by
      rw [length_zip]
      omega
    refine ⟨((switchArms cases).zip bodies)[i], getElem_mem hzip, ?_⟩
    rwa [getElem_zip]
  selected v case hselected p hp hcontains := by
    have hruns := htaken v
    rwa [takenArm_of_contains h hlen hp hselected hcontains] at hruns
  unselected v hselected := by
    have hruns := htaken v
    rwa [takenArm_of_none hselected] at hruns

/-! ## Lowered arms -/

section Lowered

variable {B K S : Type} (b : B) (k : K) (block : List Node → Steps B K S β)
variable (isTest : Node → C → Prop)

/-- What an arm is lowered to: the body that its statements give in the state at that point, and a
condition for each label unless it is the default arm. -/
structure LowersArm (arm : SwitchArm) (lowered : Option (List C) × β) : Prop where
  body : ∃ s, (block arm.body b k s).1 = lowered.2
  isNone_eq : lowered.1.isNone = arm.isDefault
  tests : ∀ conds, lowered.1 = some conds → List.Forall₂ isTest arm.tests conds

variable {b k block isTest}

theorem ensures_arm {lower : Node → Steps B K S C}
    (htests : ∀ test ∈ arm.tests, Ensures (fun _ => True) b k (lower test) (isTest test)) :
    Ensures (fun _ => True) b k
      (do
        let body ← block arm.body
        if arm.isDefault then return (none, body)
        else return (some (← arm.tests.mapM lower), body))
      (LowersArm b k block isTest arm) := by
  refine .bind (P := fun body => ∃ s, (block arm.body b k s).1 = body)
    (fun s _ => ⟨trivial, s, rfl⟩) fun body hbody => ?_
  split
  · rename_i hd
    exact .pure ⟨hbody, hd.symm, nofun⟩
  · rename_i hd
    refine .bind (.mapM htests) fun conds hconds => .pure ⟨hbody, ?_, ?_⟩
    · simpa using hd
    · rintro _ ⟨⟩
      exact hconds

/-- A chain that runs the arm that is taken runs what the switch selects. -/
theorem Selects.of_lowered {ε : Type} {value : ε → Int} {holds : ε → C → Option Bool}
    {runs : ε → β → Prop} {nothing : β} (h : Labelled label cases)
    (hlowered : List.Forall₂ (LowersArm b k block fun test cond =>
      ∀ env, holds env cond = some (decide (label test = value env))) (switchArms cases) lowered)
    (hruns : ∀ env v arms, List.Forall₂ (LoweredAs label v (holds env)) arms lowered →
      runs env ((takenArm label v arms).getD nothing)) :
    List.Forall₂ (fun (arm : SwitchArm) body => ∃ s, (block arm.body b k s).1 = body)
        (switchArms cases) (lowered.map (·.2)) ∧
      Selects label cases (lowered.map (·.2)) (fun v body => ∀ env, value env = v → runs env body)
        nothing := by
  refine ⟨forall₂_map_right_iff.2 (hlowered.imp fun _ _ harm => harm.body), .of_takenArm h
    (by rw [length_map, hlowered.length_eq]) ?_⟩
  rintro _ env rfl
  refine hruns env _ _ (forall₂_zip hlowered fun arm lowered harm => ⟨rfl, harm.isNone_eq, ?_⟩)
  exact fun conds hconds => (harm.tests conds hconds).imp fun test cond hcond => hcond env

end Lowered

end Scriptgen.Switch
