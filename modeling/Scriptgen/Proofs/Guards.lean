import Scriptgen.Proofs.Bindings
import Scriptgen.Proofs.Jumps
import Scriptgen.Proofs.Lowering
import Scriptgen.Proofs.Words.Source
/-!
# Guards and scopes

`Decides` derives decisions on guards from what is known of names of the host, and `evaluateGuard`
finds exactly those that can be derived (`evaluateGuard_eq_some_iff`). It does not ask whether the
program binds such a name itself, and what is decided is left out in every state (`Collapses`). Main
result: `guards_respect_scope_iff`.
-/

namespace Scriptgen

open Node Lowering Option List
open Jumps (nameNode blockNode ifNode)

/-! ## Decisions -/

/-- The value that decides a conjunction or a disjunction alone. -/
def decisive? : String → Option Bool
  | "&&" => some false
  | "||" => some true
  | _ => none

/-- What a comparison of a type asks: whether it asks for the opposite, the name that the object
starts with, and the type. -/
def typeQuery? (test : Node) : Option (Bool × String × String) := do
  let negated ← negatesEquality? (← test.text? "operator")
  let left := (← test.child? "left").unwrapped
  let right := (← test.child? "right").unwrapped
  let (query, literal) ←
    if left.isTypeof then some (left, right)
    else if right.isTypeof then some (right, left)
    else none
  let expected ← literal.stringValue?
  let x ← (← query.child? "argument").chainRoot?
  some (negated, x, expected)

/-- **What follows for a guard** from what is known of names: which are available and which are
not. -/
inductive Decides (known : String → Bool → Prop) : Node → Bool → Prop
  | name {guard : Node} {x : String} {available : Bool} :
      guard.unwrapped.type = "Identifier" → guard.unwrapped.name? = some x → known x available →
      Decides known guard available
  | member {guard : Node} {x : String} :
      guard.unwrapped.type = "MemberExpression" → guard.unwrapped.chainRoot? = some x →
      known x false → Decides known guard false
  | comparison {guard : Node} {x expected : String} {negated available equal : Bool} :
      guard.unwrapped.type = "BinaryExpression" →
      typeQuery? guard.unwrapped = some (negated, x, expected) → known x available →
      typeofEquals? available expected = some equal →
      Decides known guard (equal != negated)
  | negation {guard argument : Node} {decided : Bool} :
      guard.unwrapped.type = "UnaryExpression" → guard.unwrapped.text? "operator" = some "!" →
      guard.unwrapped.child? "argument" = some argument → Decides known argument decided →
      Decides known guard (!decided)
  | either {guard operand : Node} {operator side : String} {value : Bool} :
      guard.unwrapped.type = "LogicalExpression" →
      guard.unwrapped.text? "operator" = some operator → decisive? operator = some value →
      side ∈ ["left", "right"] → guard.unwrapped.child? side = some operand →
      Decides known operand value → Decides known guard value
  | both {guard left right : Node} {operator : String} {value : Bool} :
      guard.unwrapped.type = "LogicalExpression" →
      guard.unwrapped.text? "operator" = some operator → decisive? operator = some value →
      guard.unwrapped.child? "left" = some left → guard.unwrapped.child? "right" = some right →
      Decides known left (!value) → Decides known right (!value) → Decides known guard (!value)

theorem evaluateTypeof_eq_some_iff {test : Node} {decided : Bool} :
    evaluateTypeof test = some decided ↔
      ∃ negated x expected available equal, typeQuery? test = some (negated, x, expected) ∧
        availability? x = some available ∧ typeofEquals? available expected = some equal ∧
        (equal != negated) = decided := by
  have heq : evaluateTypeof test = (typeQuery? test).bind fun query =>
      (availability? query.2.1).bind fun available =>
        (typeofEquals? available query.2.2).bind fun equal => some (equal != query.1) := by
    simp only [evaluateTypeof, typeQuery?, bind_eq_bind, bind_assoc]
    congr! 8
    split
    · simp only [bind_assoc, bind_some]
    · split <;> simp only [bind_assoc, bind_some, bind_none]
  simp only [heq, bind_eq_some_iff, some.injEq]
  constructor
  · rintro ⟨⟨negated, x, expected⟩, hquery, available, havailable, equal, hequal, hdecided⟩
    exact ⟨negated, x, expected, available, equal, hquery, havailable, hequal, hdecided⟩
  · rintro ⟨negated, x, expected, available, equal, hquery, havailable, hequal, hdecided⟩
    exact ⟨(negated, x, expected), hquery, available, havailable, equal, hequal, hdecided⟩

section

variable {known known' : String → Bool → Prop} {guard : Node} {decided : Bool}

theorem Decides.mono (h : Decides known guard decided)
    (hknown : ∀ x available, known x available → known' x available) :
    Decides known' guard decided := by
  induction h with
  | name htype hname hx => exact .name htype hname (hknown _ _ hx)
  | member htype hroot hx => exact .member htype hroot (hknown _ _ hx)
  | comparison htype hasks hx hequal => exact .comparison htype hasks (hknown _ _ hx) hequal
  | negation htype hop harg _ ih => exact .negation htype hop harg ih
  | either htype hop hvalue hside hchild _ ih => exact .either htype hop hvalue hside hchild ih
  | both htype hop hvalue hleft hright _ _ ihleft ihright =>
    exact .both htype hop hvalue hleft hright ihleft ihright

/-- Of a name itself, only what is known of it follows. -/
theorem Decides.of_name {x : String} (h : Decides known guard decided)
    (htype : guard.unwrapped.type = "Identifier") (hname : guard.unwrapped.name? = some x) :
    known x decided := by
  cases h with
  | name _ hother hknown =>
    rw [hname] at hother
    cases hother
    exact hknown
  | member hother | comparison hother | negation hother | either hother | both hother =>
    simp [htype] at hother

/-- What is known of the names of the host. -/
def IsKnown (x : String) (available : Bool) : Prop := availability? x = some available

def answerIn (guard : Node) (name : String) : Option Bool := (guard.child? name).bind evaluateGuard

theorem answerIn_eq (guard : Node) (name : String) :
    answerIn guard name =
      match _h : guard.child? name with
      | some operand => evaluateGuard operand
      | none => none := by
  rw [answerIn]
  split <;> simp_all

theorem evaluateGuard_eq_answers (htype : guard.unwrapped.type = "LogicalExpression") :
    evaluateGuard guard =
      match guard.unwrapped.text? "operator" with
      | some "&&" => bothHold (answerIn guard.unwrapped "left") (answerIn guard.unwrapped "right")
      | some "||" => eitherHolds (answerIn guard.unwrapped "left") (answerIn guard.unwrapped "right")
      | _ => none := by
  rw [evaluateGuard, htype, answerIn_eq, answerIn_eq]
  rfl

/-- Conjunctions and disjunctions are decided alike: by one operand, or by both. -/
theorem evaluateGuard_logical (htype : guard.unwrapped.type = "LogicalExpression") :
    evaluateGuard guard = some decided ↔
      ∃ operator value, guard.unwrapped.text? "operator" = some operator ∧
        decisive? operator = some value ∧
        (decided = value ∧ (answerIn guard.unwrapped "left" = some value ∨
            answerIn guard.unwrapped "right" = some value) ∨
          decided = !value ∧ answerIn guard.unwrapped "left" = some (!value) ∧
            answerIn guard.unwrapped "right" = some (!value)) := by
  rw [evaluateGuard_eq_answers htype]
  rcases guard.unwrapped.text? "operator" with _ | operator
  · simp
  · by_cases hand : operator = "&&"
    · subst hand
      rcases answerIn guard.unwrapped "left" with _ | _ | _ <;>
        rcases answerIn guard.unwrapped "right" with _ | _ | _ <;> cases decided <;>
        simp [bothHold, decisive?]
    · by_cases hor : operator = "||"
      · subst hor
        rcases answerIn guard.unwrapped "left" with _ | _ | _ <;>
          rcases answerIn guard.unwrapped "right" with _ | _ | _ <;> cases decided <;>
          simp [eitherHolds, decisive?]
      · simp [decisive?, hand, hor]

/-- **A guard is decided exactly if a decision follows from what is known of the host.** -/
theorem evaluateGuard_eq_some_iff :
    evaluateGuard guard = some decided ↔ Decides IsKnown guard decided := by
  induction hheight : guard.height using Nat.strongRecOn generalizing guard decided with
  | _ height ih =>
  have hchild {name : String} {operand : Node} {value : Bool}
      (h : guard.unwrapped.child? name = some operand) :
      evaluateGuard operand = some value ↔ Decides IsKnown operand value := by
    have hbelow := height_of_child? h
    have hself := guard.height_unwrapped_le
    exact ih operand.height (by omega) rfl
  have hanswer {name : String} {value : Bool} (h : answerIn guard.unwrapped name = some value) :
      ∃ operand, guard.unwrapped.child? name = some operand ∧ Decides IsKnown operand value := by
    obtain ⟨operand, hoperand, hvalue⟩ := bind_eq_some_iff.1 h
    exact ⟨operand, hoperand, (hchild hoperand).1 hvalue⟩
  constructor
  · intro h
    by_cases hlogical : guard.unwrapped.type = "LogicalExpression"
    · obtain ⟨operator, value, hop, hvalue, ⟨rfl, hleft | hright⟩ | ⟨rfl, hleft, hright⟩⟩ :=
        (evaluateGuard_logical hlogical).1 h
      · obtain ⟨operand, hoperand, hdecides⟩ := hanswer hleft
        exact .either hlogical hop hvalue (by simp) hoperand hdecides
      · obtain ⟨operand, hoperand, hdecides⟩ := hanswer hright
        exact .either hlogical hop hvalue (by simp) hoperand hdecides
      · obtain ⟨left, hl, hdecidesl⟩ := hanswer hleft
        obtain ⟨right, hr, hdecidesr⟩ := hanswer hright
        exact .both hlogical hop hvalue hl hr hdecidesl hdecidesr
    · rw [evaluateGuard] at h
      split at h
      · rename_i htype
        obtain ⟨negated, x, expected, available, equal, hquery, hknown, hequal, rfl⟩ :=
          evaluateTypeof_eq_some_iff.1 h
        exact .comparison htype hquery hknown hequal
      · rename_i htype
        split at h
        · rename_i hop
          split at h
          · rename_i argument hargument
            obtain ⟨inner, hinner, rfl⟩ := map_eq_some_iff.1 h
            exact .negation htype (by simpa using hop) hargument ((hchild hargument).1 hinner)
          · cases h
        · cases h
      · rename_i htype
        exact absurd htype hlogical
      · rename_i htype
        obtain ⟨x, hname, hknown⟩ := bind_eq_some_iff.1 h
        exact .name htype hname hknown
      · rename_i htype
        split at h
        · rename_i hknown
          cases h
          obtain ⟨x, hroot, hknown⟩ := bind_eq_some_iff.1 hknown
          exact .member htype hroot hknown
        · cases h
      · cases h
  · intro h
    cases h with
    | name htype hname hknown =>
      rw [evaluateGuard, htype]
      exact bind_eq_some_iff.2 ⟨_, hname, hknown⟩
    | @member _ x htype hroot hknown =>
      have hfalse : (guard.unwrapped.chainRoot? >>= availability?) = some false :=
        bind_eq_some_iff.2 ⟨x, hroot, hknown⟩
      rw [evaluateGuard, htype]
      simp only [hfalse]
    | comparison htype hquery hknown hequal =>
      rw [evaluateGuard, htype]
      exact evaluateTypeof_eq_some_iff.2 ⟨_, _, _, _, _, hquery, hknown, hequal, rfl⟩
    | negation htype hop hargument hdecides =>
      rw [evaluateGuard, htype]
      simp only [hop, beq_self_eq_true, if_true]
      split
      · rename_i argument hother
        rw [hargument] at hother
        cases hother
        rw [(hchild hargument).2 hdecides]
        rfl
      · simp_all
    | either htype hop hvalue hside hoperand hdecides =>
      refine (evaluateGuard_logical htype).2 ⟨_, _, hop, hvalue, .inl ⟨rfl, ?_⟩⟩
      have hdecided := bind_eq_some_iff.2 ⟨_, hoperand, (hchild hoperand).2 hdecides⟩
      rcases mem_cons.1 hside with rfl | hside
      · exact .inl hdecided
      · obtain rfl := mem_singleton.1 hside
        exact .inr hdecided
    | both htype hop hvalue hleft hright hdecidesl hdecidesr =>
      refine (evaluateGuard_logical htype).2 ⟨_, _, hop, hvalue, .inr ⟨rfl, ?_, ?_⟩⟩
      · exact bind_eq_some_iff.2 ⟨_, hleft, (hchild hleft).2 hdecidesl⟩
      · exact bind_eq_some_iff.2 ⟨_, hright, (hchild hright).2 hdecidesr⟩

end

/-! ## Sites -/

/-- The field with what is left of a choice that is decided. -/
abbrev keptField (decided : Bool) : String := if decided then "consequent" else "alternate"

/-- **A decided condition is left out**, whatever the state and the scopes in it are: of a choice only
one side is lowered, and where a value is asked for it is known. -/
structure Collapses (guard : Node) (decided : Bool) : Prop where
  perlIf {node : Node} (b : Perl.Below) (c : Perl.Context) (s : Perl.State) :
    node.child? "test" = some guard →
    Perl.ifStmt node b c s = Perl.stmts (node.statementsIn (keptField decided)) b c s
  perlChoice {node kept : Node} (b : Perl.Below) (c : Perl.Context) (s : Perl.State) :
    node.child? "test" = some guard → node.child? (keptField decided) = some kept →
    (Perl.conditionalExpr node).run b c s = (Perl.expr kept).run b c s
  perlNot {node : Node} (b : Perl.Below) (c : Perl.Context) (s : Perl.State) :
    node.text? "operator" = some "!" → node.child? "argument" = some guard →
    (Perl.unaryExpr node).run b c s = (some (.bool !decided), s)
  perlStmt {node kept : Node} (b : Perl.Below) (c : Perl.Context) (s : Perl.State) :
    node.type = "ConditionalExpression" → node.child? "test" = some guard →
    node.child? (keptField decided) = some kept →
    (Perl.specialStmts node).run b c s = (liftM (Perl.exprStmt kept) : Perl.Attempt _).run b c s
  rubyIf {node : Node} (b : Ruby.Below) (c : Ruby.Context) (s : Ruby.State) :
    node.child? "test" = some guard →
    Ruby.ifStmt node b c s = Ruby.stmts (node.statementsIn (keptField decided)) b c s
  rubyChoice {node kept : Node} (b : Ruby.Below) (c : Ruby.Context) (s : Ruby.State) :
    node.child? "test" = some guard → node.child? (keptField decided) = some kept →
    (Ruby.conditionalExpr node).run b c s = (Ruby.expr kept).run b c s
  rubyNot {node : Node} (b : Ruby.Below) (c : Ruby.Context) (s : Ruby.State) :
    node.text? "operator" = some "!" → node.child? "argument" = some guard →
    (Ruby.unaryExpr node).run b c s = (some (.bool !decided), s)
  rubyStmt {node kept : Node} (b : Ruby.Below) (c : Ruby.Context) (s : Ruby.State) :
    node.type = "ConditionalExpression" → node.child? "test" = some guard →
    node.child? (keptField decided) = some kept →
    (Ruby.specialStmts node).run b c s = (liftM (Ruby.exprStmt kept) : Ruby.Attempt _).run b c s
  rubyTest (b : Ruby.Below) (c : Ruby.Context) (s : Ruby.State) :
    Ruby.lowerTest guard b c s = (.bool decided, s)

theorem evaluateGuard_unwrapped (guard : Node) : evaluateGuard guard.unwrapped = evaluateGuard guard := by
  rw [evaluateGuard, evaluateGuard, guard.unwrapped_unwrapped]

theorem collapses_of_evaluateGuard {guard : Node} {decided : Bool}
    (h : evaluateGuard guard = some decided) : Collapses guard decided where
  perlIf {node} b c s htest := by
    rw [Perl.ifStmt, htest]
    simp only [h, Node.statementsIn]
    cases node.child? (keptField decided) <;> rfl
  perlChoice {node kept} b c s htest hkept := by
    have hdecided : (Perl.conditionalExpr node).run b c s =
        (Perl.need (node.child? (keptField decided)) >>= Perl.expr).run b c s := by
      rw [Perl.conditionalExpr, htest, Perl.need, attempt_given, h]
    rw [hdecided, hkept]
    rfl
  perlNot {node} b c s hop harg := by
    rw [Perl.unaryExpr, hop, harg, Perl.need, attempt_given, Perl.need, attempt_given, h]
    rfl
  perlStmt {node kept} b c s htype htest hkept := by
    rw [Perl.specialStmts, htype, htest]
    change (Perl.need (evaluateGuard guard) >>= _).run b c s = _
    rw [h, Perl.need, attempt_given, hkept]
  rubyIf {node} b c s htest := by
    rw [Ruby.ifStmt, htest]
    simp only [h, Node.statementsIn]
    cases node.child? (keptField decided) <;> rfl
  rubyChoice {node kept} b c s htest hkept := by
    have hdecided : (Ruby.conditionalExpr node).run b c s =
        (Ruby.need (node.child? (keptField decided)) >>= Ruby.expr).run b c s := by
      rw [Ruby.conditionalExpr, htest, Ruby.need, attempt_given, h]
    rw [hdecided, hkept]
    rfl
  rubyNot {node} b c s hop harg := by
    rw [Ruby.unaryExpr, hop, harg, Ruby.need, attempt_given, Ruby.need, attempt_given]
    dsimp only
    rw [evaluateGuard_unwrapped, h]
    rfl
  rubyStmt {node kept} b c s htype htest hkept := by
    rw [Ruby.specialStmts, htype, htest]
    change (Ruby.need (evaluateGuard guard) >>= _).run b c s = _
    rw [h, Ruby.need, attempt_given, hkept]
  rubyTest b c s := by
    rw [Ruby.lowerTest]
    simp only [evaluateGuard_unwrapped, h]
    rfl

/-! ## Scopes -/

/-- The names that a statement declares in the block around it. -/
def declaredIn (stmt : Node) : List String :=
  match stmt.type with
  | "VariableDeclaration" =>
    (stmt.children "declarations").flatMap fun declaration =>
      (declaration.child? "id").elim [] patternNames
  | "FunctionDeclaration" | "ClassDeclaration" => (stmt.child? "id" >>= name?).toList
  | _ => []

/-- A statement stands in another one of the same function. -/
inductive StandsIn (stmt : Node) : Node → Prop
  | refl : StandsIn stmt stmt
  | nested {inner outer : Node} :
      inner ∈ outer.nestedStatements → StandsIn stmt inner → StandsIn stmt outer

/-- A name is a `var` variable of a function with this body. -/
def IsVarIn (body : List Node) (x : String) : Prop :=
  ∃ outer ∈ body, ∃ stmt, StandsIn stmt outer ∧
    ∃ declaration ∈ stmt :: (stmt.child? "init").toList ++ (stmt.child? "left").toList,
      declaration.text? "kind" = some "var" ∧ x ∈ declaredIn declaration

/-- **A node binds a name for what stands in it**: as a parameter, a variable, a function, a class or
the variable of a handler. -/
def Binds (node : Node) (x : String) : Prop :=
  match node.type with
  | "FunctionDeclaration" | "FunctionExpression" | "ArrowFunctionExpression" =>
    node.child? "id" >>= name? = some x ∨ (∃ param ∈ node.children "params", x ∈ param.patternNames) ∨
      IsVarIn (node.statementsIn "body") x
  | "ClassDeclaration" | "ClassExpression" => node.child? "id" >>= name? = some x
  | "Program" =>
    (∃ stmt ∈ node.children "body", x ∈ declaredIn stmt) ∨ IsVarIn (node.children "body") x
  | "BlockStatement" => ∃ stmt ∈ node.children "body", x ∈ declaredIn stmt
  | "SwitchStatement" =>
    ∃ case ∈ node.children "cases", ∃ stmt ∈ case.children "consequent", x ∈ declaredIn stmt
  | "CatchClause" => ∃ param ∈ node.child? "param", x ∈ param.patternNames
  | "ForStatement" => ∃ init ∈ node.child? "init", x ∈ declaredIn init
  | "ForOfStatement" | "ForInStatement" => ∃ left ∈ node.child? "left", x ∈ declaredIn left
  | _ => False

/-- A part stands in a node, and `bound` are the names that are bound around it there. -/
inductive Stands (part : Node) : Node → (String → Prop) → Prop
  | here : Stands part part fun _ => False
  | child {node inner : Node} {key : String} {bound : String → Prop} :
      node.child? key = some inner → Stands part inner bound →
      Stands part node fun x => bound x ∨ Binds node x
  | item {node inner : Node} {key : String} {bound : String → Prop} :
      inner ∈ node.children key → Stands part inner bound →
      Stands part node fun x => bound x ∨ Binds node x

/-- What is bound around a part is bound by a node around it. -/
theorem Stands.exists_binds {part node : Node} {bound : String → Prop} {x : String}
    (h : Stands part node bound) (hx : bound x) :
    ∃ outer around, Stands outer node around ∧ Binds outer x := by
  induction h with
  | here => cases hx
  | child hinner _ ih =>
    rcases hx with hx | hx
    · obtain ⟨outer, around, hstands, hbinds⟩ := ih hx
      exact ⟨outer, _, .child hinner hstands, hbinds⟩
    · exact ⟨_, _, .here, hx⟩
  | item hinner _ ih =>
    rcases hx with hx | hx
    · obtain ⟨outer, around, hstands, hbinds⟩ := ih hx
      exact ⟨outer, _, .item hinner hstands, hbinds⟩
    · exact ⟨_, _, .here, hx⟩

/-- What is known of the names of the host that are not bound. -/
def IsKnownOutside (bound : String → Prop) (x : String) (available : Bool) : Prop :=
  IsKnown x available ∧ ¬ bound x

/-- **A guard respects scope**: what is decided of it follows from names that are not bound. -/
def RespectsScope (bound : String → Prop) (guard : Node) : Prop :=
  ∀ decided, evaluateGuard guard = some decided → Decides (IsKnownOutside bound) guard decided

/-- **The guards of a program respect scope exactly if none of them needs a name that is bound around
it**, as in a program that binds no name of the host. Whatever is decided is left out of the code. -/
theorem guards_respect_scope_iff (program : Node) :
    (∀ guard decided, evaluateGuard guard = some decided → Collapses guard decided) ∧
      ((∀ guard bound, Stands guard program bound → RespectsScope bound guard) ↔
        ∀ guard bound, Stands guard program bound → ∀ decided,
          Decides IsKnown guard decided ↔ Decides (IsKnownOutside bound) guard decided) ∧
      ((∀ node bound, Stands node program bound → ∀ x, Binds node x → ∀ known, ¬ IsKnown x known) →
        ∀ guard bound, Stands guard program bound → RespectsScope bound guard) := by
  refine ⟨fun _ _ => collapses_of_evaluateGuard, ⟨?_, ?_⟩, ?_⟩
  · intro h guard bound hstands decided
    refine ⟨fun hdecides => ?_, fun hdecides => hdecides.mono fun _ _ hknown => hknown.1⟩
    exact h guard bound hstands decided (evaluateGuard_eq_some_iff.2 hdecides)
  · intro h guard bound hstands decided hdecided
    exact (h guard bound hstands decided).1 (evaluateGuard_eq_some_iff.1 hdecided)
  · intro hnone guard bound hstands decided hdecided
    refine (evaluateGuard_eq_some_iff.1 hdecided).mono fun x known hknown => ⟨hknown, fun hbound => ?_⟩
    obtain ⟨node, around, hnode, hbinds⟩ := hstands.exists_binds hbound
    exact hnone node around hnode x hbinds known hknown

/-- The statement `if (module) { g(); }`. -/
def moduleBranch : Node :=
  ifNode (nameNode "module") (blockNode [.of "ExpressionStatement" [
    ("expression", .node "CallExpression" [("callee", (nameNode "g").toJson),
      ("arguments", .array [])])]])

/-- The function `function f(module) { if (module) { g(); } }`. -/
def moduleFunction : Node :=
  .of "FunctionDeclaration" [("id", (nameNode "f").toJson),
    ("params", .array [(nameNode "module").toJson]), ("body", (blockNode [moduleBranch]).toJson)]

def moduleProgram : Node :=
  .of "Program" [("body", .array [moduleFunction.toJson])]

/-- The parameter `module` is taken for the one of the host, and what it guards is left out. -/
theorem moduleProgram_ignores_scope :
    ∃ bound, Stands (nameNode "module") moduleProgram bound ∧ bound "module" ∧
      evaluateGuard (nameNode "module") = some false ∧
      ¬ RespectsScope bound (nameNode "module") := by
  have hself : (nameNode "module").unwrapped = nameNode "module" := Node.unwrapped_of_wrapped? rfl
  have hdecided : evaluateGuard (nameNode "module") = some false := by
    rw [evaluateGuard, hself]
    rfl
  have hbinds : Binds moduleFunction "module" :=
    .inr (.inl ⟨nameNode "module", mem_singleton_self _, by rw [patternNames]; decide⟩)
  have hfunction : moduleFunction ∈ moduleProgram.children "body" := mem_singleton_self _
  have hbody : moduleFunction.child? "body" = some (blockNode [moduleBranch]) := rfl
  have hbranch : moduleBranch ∈ (blockNode [moduleBranch]).children "body" :=
    mem_singleton_self _
  have htest : moduleBranch.child? "test" = some (nameNode "module") := rfl
  refine ⟨_, .item hfunction (.child hbody (.item hbranch (.child htest .here))),
    .inl (.inr hbinds), hdecided, fun hrespects => ?_⟩
  have hknown := (hrespects false hdecided).of_name (by rw [hself]; rfl) (by rw [hself]; rfl)
  exact hknown.2 (.inl (.inr hbinds))

end Scriptgen
