import Scriptgen.Proofs.Guards
/-!
# Decisions are true

A guard turns out to be what it is decided to be, as long as the names of the host are missing where
the program runs and those that generated code provides are objects. `Gives` says what an expression
may give in such a run; what guards are not built from may give anything.

Main result: `decided_guards_hold`. To wait for a value has to give the value itself
(`promisedGuard_fails`).
-/

namespace Scriptgen

open Node Option
open Jumps (nameNode)

/-! ## Running programs -/

/-- What a guard can see of a value: whether it counts as true, its type, and its characters if it is
text. -/
structure Seen where
  truthy : Bool
  type : String
  text : Option String

namespace Seen

def ofBool (b : Bool) : Seen := ⟨b, "boolean", none⟩

def ofText (characters : String) : Seen := ⟨characters != "", "string", some characters⟩

def undefined : Seen := ⟨false, "undefined", none⟩

def object : Seen := ⟨true, "object", none⟩

end Seen

/-- A run of a program, as far as its guards depend on it. -/
structure Running where
  /-- What an expression may give that guards are not built from. -/
  gives : Node → Seen → Prop
  gives_some : ∀ node, ∃ seen, gives node seen
  /-- What waiting for a value may give. -/
  awaits : Seen → Seen → Prop

/-- The form of an expression, as far as guards are built from it. -/
inductive GuardForm where
  | text (characters : String)
  /-- Parentheses, and operators with one operand. -/
  | unary (apply : Seen → Seen) (operand : Node)
  | awaited (operand : Node)
  /-- A conjunction or a disjunction, by the value that decides it alone. -/
  | logical (decisive : Bool) (left right : Option Node)
  /-- A comparison for equality, or for the opposite. -/
  | equality (negated : Bool) (left right : Node)
  | other

/-- The expressions that a form is put together from. -/
def GuardForm.operands : GuardForm → List Node
  | .unary _ operand | .awaited operand => [operand]
  | .logical _ left right => left.toList ++ right.toList
  | .equality _ left right => [left, right]
  | .text _ | .other => []

namespace Node

/-- The form of an expression that guards are built from. -/
def guardForm? (node : Node) : Option GuardForm :=
  match node.type with
  | "ParenthesizedExpression" | "ChainExpression" => (node.child? "expression").map (.unary id)
  | "AwaitExpression" => (node.child? "argument").map .awaited
  | "Literal" => node.stringValue?.map .text
  | "UnaryExpression" => do
    let argument ← node.child? "argument"
    match ← node.text? "operator" with
    | "!" => some (.unary (fun seen => .ofBool !seen.truthy) argument)
    | "typeof" => some (.unary (fun seen => .ofText seen.type) argument)
    | _ => none
  | "LogicalExpression" => do
    let decisive ← decisive? (← node.text? "operator")
    some (.logical decisive (node.child? "left") (node.child? "right"))
  | "BinaryExpression" => do
    let negated ← negatesEquality? (← node.text? "operator")
    some (.equality negated (← node.child? "left") (← node.child? "right"))
  | _ => none

def guardForm (node : Node) : GuardForm := node.guardForm?.getD .other

/-- A node is a name, or a chain of member accesses that starts with it. -/
inductive RootedAt (x : String) : Node → Prop
  | name {node : Node} : node.type = "Identifier" → node.name? = some x → RootedAt x node
  | member {node object : Node} :
      node.type = "MemberExpression" → node.child? "object" = some object → RootedAt x object →
      RootedAt x node
  | wrapper {node inner : Node} : node.wrapped? = some inner → RootedAt x inner → RootedAt x node

end Node

/-- **What an expression may give** in a run. Operands that do not matter are not evaluated. Values
that are not text may be equal or not, and an operand that is missing may be anything. -/
inductive Running.Gives (run : Running) : Node → Seen → Prop
  | text {node : Node} {characters : String} :
      node.guardForm = .text characters → Gives run node (.ofText characters)
  | unary {node operand : Node} {apply : Seen → Seen} {v : Seen} :
      node.guardForm = .unary apply operand → Gives run operand v → Gives run node (apply v)
  | awaited {node operand : Node} {v w : Seen} :
      node.guardForm = .awaited operand → Gives run operand v → run.awaits v w → Gives run node w
  | left {node : Node} {decisive : Bool} {left right : Option Node} {v : Seen} :
      node.guardForm = .logical decisive left right → (∀ l, left = some l → Gives run l v) →
      v.truthy = decisive → Gives run node v
  | right {node : Node} {decisive : Bool} {left right : Option Node} {v w : Seen} :
      node.guardForm = .logical decisive left right → (∀ l, left = some l → Gives run l v) →
      v.truthy = !decisive → (∀ r, right = some r → Gives run r w) → Gives run node w
  | equality {node left right : Node} {negated equal : Bool} {v w : Seen} :
      node.guardForm = .equality negated left right → Gives run left v → Gives run right w →
      (∀ s t, v.text = some s → w.text = some t → equal = (s == t)) →
      Gives run node (.ofBool (equal != negated))
  | other {node : Node} {v : Seen} :
      node.guardForm = .other → run.gives node v → Gives run node v

/-- **A run of generated code**: the names of the host are undefined there, with all that is reached
through them, and the names that generated code provides are objects whose members are defined. -/
structure Running.Hostless (run : Running) : Prop where
  missing {x : String} {node : Node} {v : Seen} :
    x ∈ neverAvailable → RootedAt x node → run.gives node v → v.type = "undefined" ∧ v.truthy = false
  provided {x : String} {node : Node} {v : Seen} :
    x ∈ alwaysAvailable → node.type = "Identifier" → node.name? = some x → run.gives node v →
    v.truthy = true
  defined {x : String} {node : Node} {v : Seen} :
    x ∈ alwaysAvailable → RootedAt x node → run.gives node v → v.type ≠ "undefined"

/-! ## Forms -/

variable {characters : String} {negated : Bool}

section

variable {run : Running} {node operand : Node} {x : String} {v : Seen}

theorem guardForm_of_wrapped? (h : node.wrapped? = some operand) :
    node.guardForm = .unary id operand ∨ node.guardForm = .awaited operand := by
  unfold wrapped? at h
  split at h
  · cases h
  · split at h <;> simp_all [guardForm, guardForm?]

theorem guardForm_of_isTypeof (h : node.isTypeof = true)
    (harg : node.child? "argument" = some operand) :
    node.guardForm = .unary (fun seen => .ofText seen.type) operand := by
  simp only [isTypeof, Bool.and_eq_true, beq_iff_eq] at h
  simp [guardForm, guardForm?, h.1, h.2, harg]

theorem guardForm_of_stringValue? (h : node.stringValue? = some characters) :
    node.guardForm = .text characters := by
  have htype : node.type = "Literal" := by
    by_contra hne
    simp [stringValue?, hne] at h
  simp [guardForm, guardForm?, htype, h]

theorem height_of_mem_operands (h : operand ∈ node.guardForm.operands) :
    operand.height < node.height := by
  suffices hchild : ∃ name, node.child? name = some operand by
    obtain ⟨name, hname⟩ := hchild
    exact height_of_child? hname
  cases hform : node.guardForm? with
  | none => simp [guardForm, hform, GuardForm.operands] at h
  | some form =>
    rw [guardForm, hform, getD_some] at h
    simp only [guardForm?, bind_eq_bind] at hform
    split at hform <;>
      grind [GuardForm.operands, map_eq_some_iff, bind_eq_some_iff]

theorem Node.RootedAt.of_unwrapped (h : RootedAt x node.unwrapped) : RootedAt x node := by
  fun_induction unwrapped node with
  | case1 node inner hinner ih => exact .wrapper hinner (ih h)
  | case2 => exact h

theorem rootedAt_of_chainRoot? (h : node.chainRoot? = some x) :
    RootedAt x node.unwrapped ∧ node.unwrapped.guardForm = .other := by
  fun_induction chainRoot? node with
  | case1 node htype => exact ⟨.name htype h, by simp [guardForm, guardForm?, htype]⟩
  | case2 node htype object hobject ih =>
    exact ⟨.member htype hobject (ih h).1.of_unwrapped, by simp [guardForm, guardForm?, htype]⟩
  | case3 => cases h
  | case4 => cases h

/-! ## What guards give -/

namespace Running.Gives

section

variable (h : run.Gives node v)

include h

theorem of_text (hform : node.guardForm = .text characters) : v = .ofText characters := by
  cases h <;> simp_all

theorem of_unary {apply : Seen → Seen} (hform : node.guardForm = .unary apply operand) :
    ∃ u, run.Gives operand u ∧ v = apply u := by
  cases h <;> simp_all
  exact ⟨_, ‹_›, rfl⟩

theorem of_other (hform : node.guardForm = .other) : run.gives node v := by
  cases h <;> simp_all

/-- A logical operator gives what its left operand does, or else what the right one does. -/
theorem of_logical {left right : Option Node} {decisive : Bool}
    (hform : node.guardForm = .logical decisive left right) :
    ∃ u, (∀ l, left = some l → run.Gives l u) ∧
      (u.truthy = decisive ∧ v = u ∨
        u.truthy = !decisive ∧ ∀ r, right = some r → run.Gives r v) := by
  cases h <;> simp_all
  · exact ⟨_, ‹_›, by simp_all⟩
  · exact ⟨_, ‹_›, by simp_all⟩

theorem of_equality {left right : Node} (hform : node.guardForm = .equality negated left right) :
    ∃ u w equal, run.Gives left u ∧ run.Gives right w ∧ v = .ofBool (equal != negated) ∧
      ∀ s t, u.text = some s → w.text = some t → equal = (s == t) := by
  cases h with
  | equality hother hleft hright hequal =>
    rw [hform] at hother
    cases hother
    exact ⟨_, _, _, hleft, hright, rfl, hequal⟩
  | _ => simp_all

theorem unwrapped (hawaits : ∀ v w, run.awaits v w ↔ w = v) :
    run.Gives node.unwrapped v := by
  fun_induction Node.unwrapped node with
  | case1 node inner hinner ih =>
    apply ih
    rcases guardForm_of_wrapped? hinner with hform | hform <;> cases h <;> simp_all
  | case2 => exact h

theorem of_typeQuery? {expected : String}
    (hawaits : ∀ v w, run.awaits v w ↔ w = v) (htype : node.type = "BinaryExpression")
    (hquery : typeQuery? node = some (negated, x, expected)) :
    ∃ argument u, argument.chainRoot? = some x ∧ run.Gives argument u ∧
      v.truthy = ((u.type == expected) != negated) := by
  simp only [typeQuery?, bind_eq_bind, bind_eq_some_iff] at hquery
  obtain ⟨operator, hop, negated', hnegated, left, hleft, right, hright, hquery⟩ := hquery
  have hform : node.guardForm = .equality negated' left right := by
    simp [guardForm, guardForm?, htype, hop, hnegated, hleft, hright]
  obtain ⟨u, w, equal, hu, hw, rfl, hequal⟩ := h.of_equality hform
  have hu := hu.unwrapped hawaits
  have hw := hw.unwrapped hawaits
  split at hquery
  · rename_i hl
    simp only [bind_some, bind_eq_some_iff, some.injEq, Prod.mk.injEq] at hquery
    obtain ⟨_, hexpected, argument, hargument, _, hroot, rfl, rfl, rfl⟩ := hquery
    obtain ⟨t, ht, rfl⟩ := hu.of_unary (guardForm_of_isTypeof hl hargument)
    obtain rfl := hw.of_text (guardForm_of_stringValue? hexpected)
    exact ⟨argument, t, hroot, ht, by rw [hequal _ _ rfl rfl]; rfl⟩
  · split at hquery
    · rename_i hr
      simp only [bind_some, bind_eq_some_iff, some.injEq, Prod.mk.injEq] at hquery
      obtain ⟨_, hexpected, argument, hargument, _, hroot, rfl, rfl, rfl⟩ := hquery
      obtain ⟨t, ht, rfl⟩ := hw.of_unary (guardForm_of_isTypeof hr hargument)
      obtain rfl := hu.of_text (guardForm_of_stringValue? hexpected)
      exact ⟨argument, t, hroot, ht, by rw [hequal _ _ rfl rfl, Bool.beq_comm]; rfl⟩
    · simp at hquery

end

end Running.Gives

theorem Running.exists_gives (hawaits : ∀ v w, run.awaits v w ↔ w = v) (node : Node) :
    ∃ v, run.Gives node v := by
  induction hheight : node.height using Nat.strongRecOn generalizing node with
  | _ height ih =>
  have hoperand (inner : Node) (h : inner ∈ node.guardForm.operands) : ∃ v, run.Gives inner v :=
    ih _ (hheight ▸ height_of_mem_operands h) inner rfl
  have hoption (inner : Option Node) (h : ∀ n ∈ inner, n ∈ node.guardForm.operands) :
      ∃ v, ∀ n, inner = some n → run.Gives n v := by
    cases inner with
    | none => exact ⟨.undefined, nofun⟩
    | some n =>
      obtain ⟨v, hv⟩ := hoperand n (h n rfl)
      exact ⟨v, by rintro _ ⟨⟩; exact hv⟩
  cases hform : node.guardForm with simp only [hform, GuardForm.operands] at hoperand hoption
  | text characters => exact ⟨_, .text hform⟩
  | unary apply operand =>
    obtain ⟨v, hv⟩ := hoperand operand (by simp)
    exact ⟨_, .unary hform hv⟩
  | awaited operand =>
    obtain ⟨v, hv⟩ := hoperand operand (by simp)
    exact ⟨v, .awaited hform hv ((hawaits v v).2 rfl)⟩
  | logical decisive left right =>
    obtain ⟨v, hv⟩ := hoption left (by simp_all)
    obtain ⟨w, hw⟩ := hoption right (by simp_all)
    by_cases hdecides : v.truthy = decisive
    · exact ⟨v, .left hform hv hdecides⟩
    · exact ⟨w, .right hform hv (Bool.eq_not.2 hdecides) hw⟩
  | equality negated left right =>
    obtain ⟨v, hv⟩ := hoperand left (by simp)
    obtain ⟨w, hw⟩ := hoperand right (by simp)
    exact ⟨.ofBool ((v.text == w.text) != negated),
      .equality hform hv hw fun s t hs ht => by simp [hs, ht]⟩
  | other =>
    obtain ⟨v, hv⟩ := run.gives_some node
    exact ⟨v, .other hform hv⟩

theorem notMem_neverAvailable : ∀ x ∈ alwaysAvailable, x ∉ neverAvailable := by decide

theorem isKnown_iff {available : Bool} :
    IsKnown x available ↔ x ∈ if available then alwaysAvailable else neverAvailable := by
  have hdisjoint := notMem_neverAvailable
  cases available <;> simp only [IsKnown, availability?, List.contains_eq_mem] <;> grind

/-- What is decided of a guard is its truth wherever it gives a value. -/
theorem Decides.truthy {guard : Node} {decided : Bool} (h : Decides IsKnown guard decided)
    (hrun : run.Hostless) (hawaits : ∀ v w, run.awaits v w ↔ w = v) (hgives : run.Gives guard v) :
    v.truthy = decided := by
  induction h generalizing v with
  | @name guard x available htype hname hknown =>
    have hform : guard.unwrapped.guardForm = .other := by simp [guardForm, guardForm?, htype]
    have hv := (hgives.unwrapped hawaits).of_other hform
    cases available with
    | false => exact (hrun.missing (isKnown_iff.1 hknown) (.name htype hname) hv).2
    | true => exact hrun.provided (isKnown_iff.1 hknown) htype hname hv
  | @member guard x htype hroot hknown =>
    obtain ⟨hrooted, hform⟩ := rootedAt_of_chainRoot? hroot
    rw [unwrapped_unwrapped] at hrooted hform
    have hv := (hgives.unwrapped hawaits).of_other hform
    exact (hrun.missing (isKnown_iff.1 hknown) hrooted hv).2
  | @comparison guard x expected negated available equal htype hquery hknown hequal =>
    obtain ⟨argument, u, hroot, hu, hv⟩ :=
      (hgives.unwrapped hawaits).of_typeQuery? hawaits htype hquery
    obtain ⟨hrooted, hform⟩ := rootedAt_of_chainRoot? hroot
    have hu := (hu.unwrapped hawaits).of_other hform
    suffices (u.type == expected) = equal by rw [hv, this]
    cases available with
    | false =>
      have hmissing := (hrun.missing (isKnown_iff.1 hknown) hrooted hu).1
      simp_all [typeofEquals?, eq_comm]
    | true =>
      have hdefined := hrun.defined (isKnown_iff.1 hknown) hrooted hu
      simp only [typeofEquals?, if_true] at hequal
      split at hequal <;> simp_all
  | @negation guard argument decided htype hop harg _ ih =>
    have hform : guard.unwrapped.guardForm = .unary (fun seen => .ofBool !seen.truthy) argument := by
      simp [guardForm, guardForm?, htype, hop, harg]
    obtain ⟨u, hu, rfl⟩ := (hgives.unwrapped hawaits).of_unary hform
    exact congrArg (!·) (ih hu)
  | @either guard operand operator side value htype hop hvalue hside hoperand _ ih =>
    have hform : guard.unwrapped.guardForm =
        .logical value (guard.unwrapped.child? "left") (guard.unwrapped.child? "right") := by
      simp [guardForm, guardForm?, htype, hop, hvalue]
    obtain ⟨u, hu, ⟨htruthy, rfl⟩ | ⟨htruthy, hv⟩⟩ := (hgives.unwrapped hawaits).of_logical hform
    · exact htruthy
    · rcases List.mem_cons.1 hside with rfl | hside
      · exact absurd (ih (hu operand hoperand)) (by simp [htruthy])
      · obtain rfl := List.mem_singleton.1 hside
        exact ih (hv operand hoperand)
  | @both guard left right operator value htype hop hvalue hleft hright _ _ ihleft ihright =>
    have hform : guard.unwrapped.guardForm = .logical value (some left) (some right) := by
      simp [guardForm, guardForm?, htype, hop, hvalue, hleft, hright]
    obtain ⟨u, hu, ⟨htruthy, rfl⟩ | ⟨htruthy, hv⟩⟩ := (hgives.unwrapped hawaits).of_logical hform
    · exact ihleft (hu left rfl)
    · exact ihright (hv right rfl)

end

/-- **What is decided of a guard is what it turns out to be**, whatever the expressions give that are
not decided. -/
theorem decided_guards_hold {run : Running} (hrun : run.Hostless)
    (hawaits : ∀ v w, run.awaits v w ↔ w = v) {guard : Node} {decided : Bool}
    (h : evaluateGuard guard = some decided) :
    (∃ v, run.Gives guard v) ∧ ∀ v, run.Gives guard v → v.truthy = decided :=
  ⟨run.exists_gives hawaits guard, fun _ hgives =>
    (evaluateGuard_eq_some_iff.1 h).truthy hrun hawaits hgives⟩

/-! ## Sample runs -/

theorem chainRoot?_of_rootedAt {x : String} {node : Node} (h : RootedAt x node) :
    node.chainRoot? = some x := by
  induction h with
  | @name node htype hname =>
    have hself : node.unwrapped = node := unwrapped_of_wrapped? (by simp [wrapped?, htype])
    rw [chainRoot?, hself, htype]
    exact hname
  | @member node object htype hobject _ ih =>
    have hself : node.unwrapped = node := unwrapped_of_wrapped? (by simp [wrapped?, htype])
    rw [chainRoot?, hself, htype]
    simp only
    split <;> simp_all
  | @wrapper node inner hinner _ ih =>
    have hsame : node.unwrapped = inner.unwrapped := by
      rw [Node.unwrapped]
      split <;> simp_all
    rwa [chainRoot?, ← hsame, ← chainRoot?] at ih

/-- The run in which everything is an object but what the host would provide. -/
def objectRun (awaits : Seen → Seen → Prop) : Running where
  gives node seen := seen = if node.chainRoot?.any neverAvailable.contains then .undefined else .object
  gives_some _ := ⟨_, rfl⟩
  awaits := awaits

theorem hostless_objectRun (awaits : Seen → Seen → Prop) : (objectRun awaits).Hostless where
  missing hx hrooted := by
    rintro rfl
    simp [chainRoot?_of_rootedAt hrooted, hx, Seen.undefined]
  provided hx htype hname := by
    rintro rfl
    simp [chainRoot?_of_rootedAt (.name htype hname), notMem_neverAvailable _ hx, Seen.object]
  defined hx hrooted := by
    rintro rfl
    simp [chainRoot?_of_rootedAt hrooted, notMem_neverAvailable _ hx, Seen.object]

/-- The guard `!(p && typeof module !== 'undefined')`. -/
def negatedGuard : Node :=
  .of "UnaryExpression" [("operator", .string "!"), ("argument", .node "LogicalExpression" [
    ("operator", .string "&&"), ("left", (nameNode "p").toJson),
    ("right", .node "BinaryExpression" [("operator", .string "!=="),
      ("left", .node "UnaryExpression" [("operator", .string "typeof"),
        ("argument", (nameNode "module").toJson)]),
      ("right", .node "Literal" [("value", .string "undefined")])])])]

theorem decided_guards_hold_negatedGuard :
    evaluateGuard negatedGuard = some true ∧
    (∃ v, (objectRun fun v w => w = v).Gives negatedGuard v) ∧
      ∀ v, (objectRun fun v w => w = v).Gives negatedGuard v → v.truthy = true := by
  have hdecided : evaluateGuard negatedGuard = some true := by decide +kernel
  exact ⟨hdecided, decided_guards_hold (hostless_objectRun _) (fun _ _ => Iff.rfl) hdecided⟩

/-- The expression `p || OpCodes`. -/
def promisedChoice : Node :=
  .of "LogicalExpression" [("operator", .string "||"),
    ("left", (nameNode "p").toJson), ("right", (nameNode "OpCodes").toJson)]

/-- The guard `await (p || OpCodes)`. -/
def promisedGuard : Node :=
  .of "AwaitExpression" [("argument", promisedChoice.toJson)]

/-- A promise counts as true, but what it promises may be false. -/
theorem promisedGuard_fails :
    ∃ run : Running, run.Hostless ∧ evaluateGuard promisedGuard = some true ∧
      ∃ v, run.Gives promisedGuard v ∧ v.truthy = false := by
  let run := objectRun fun v w => w = v ∨ v = .object ∧ w = .ofBool false
  have hpromise : run.Gives (nameNode "p") .object := by
    refine .other rfl ?_
    change Seen.object = ite _ _ _
    rw [chainRoot?_of_rootedAt (.name rfl rfl)]
    rfl
  have hchoice : run.Gives promisedChoice .object := .left rfl (by rintro _ ⟨⟩; exact hpromise) rfl
  refine ⟨run, hostless_objectRun _, by decide +kernel, .ofBool false, ?_, rfl⟩
  exact .awaited rfl hchoice (.inr ⟨rfl, rfl⟩)

end Scriptgen
