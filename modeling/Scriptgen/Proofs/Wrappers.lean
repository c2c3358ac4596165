import Mathlib.Data.List.Pairwise
import Scriptgen.Proofs.Words.Source
import Scriptgen.Source.Wrapper
/-!
# Wrappers are peeled off

A statement of a program is found by its path through the wrappers around it (`Reached`). What is
left of a program are the statements that are `Kept`, in the order of their paths, and nothing is
peeled off them a second time: `topLevelStatements_normal`. A statement that is marked as a
directive is dropped with what it runs, even if it is a wrapper (`markedWrapper_dropped`).
-/

namespace Scriptgen

open Node List

/-! ## Places -/

/-- **A statement is reached at a path** in a list of statements, through wrappers that may be
entered. -/
inductive Reached (enters : Node → Prop) : List Node → List Nat → Node → Prop
  | here {body : List Node} {i : Nat} {stmt : Node} :
      body[i]? = some stmt → Reached enters body [i] stmt
  | inside {body inner : List Node} {i : Nat} {path : List Nat} {wrapper stmt : Node} :
      body[i]? = some wrapper → enters wrapper → wrapper.wrapperBody? = some inner →
      Reached enters inner path stmt → Reached enters body (i :: path) stmt

/-- What is kept of a program: a statement that is no directive, no glue and no wrapper, and inside
a wrapper no return. -/
structure Kept (inWrapper : Prop) (stmt : Node) : Prop where
  directive : stmt.isDirective = false
  glue : stmt.isModuleGlue = false
  wrapper : stmt.wrapperBody? = none
  notReturn : inWrapper → stmt.type ≠ "ReturnStatement"

def Unmarked (wrapper : Node) : Prop := wrapper.isDirective = false

/-- Statements with their paths, in the order of the paths, are those that are kept. -/
structure Lists (enters : Node → Prop) (body : List Node) (inWrapper : Prop)
    (places : List (List Nat × Node)) : Prop where
  sorted : places.Pairwise (·.1 < ·.1)
  mem_iff : ∀ path stmt, (path, stmt) ∈ places ↔
    Reached enters body path stmt ∧ Kept (inWrapper ∨ 1 < path.length) stmt

variable {body : List Node}

theorem Reached.path_ne_nil {enters : Node → Prop} {path : List Nat} {stmt : Node}
    (h : Reached enters body path stmt) : path ≠ [] := by
  cases h <;> simp

/-! ## Wrappers are no glue -/

theorem wrapperBody?_eq_some {stmt : Node} (h : stmt.wrapperBody? = some body) :
    stmt.type = "ExpressionStatement" ∧ ∃ expr call function,
      stmt.child? "expression" = some expr ∧ expr.invocation? = some call ∧
        call.type = "CallExpression" ∧ call.invoked? = some function := by
  unfold wrapperBody? at h
  obtain ⟨_, htype, h⟩ := Option.bind_eq_some_iff.1 h
  obtain ⟨expr, hexpr, h⟩ := Option.bind_eq_some_iff.1 h
  obtain ⟨call, hcall, h⟩ := Option.bind_eq_some_iff.1 h
  obtain ⟨_, hkind, h⟩ := Option.bind_eq_some_iff.1 h
  obtain ⟨function, hfunction, -⟩ := Option.bind_eq_some_iff.1 h
  exact ⟨beq_iff_eq.1 (of_guard_eq_some htype), expr, call, function, hexpr, hcall,
    beq_iff_eq.1 (of_guard_eq_some hkind), hfunction⟩

/-- What a call on the spot calls is a function or a member `call` or `apply`. -/
theorem invoked?_eq_some {call callee function : Node} (h : call.invoked? = some function)
    (hcallee : call.child? "callee" = some callee) :
    callee.unwrapped.isFunctionExpr = true ∨ callee.unwrapped.staticMember? = some "call" ∨
      callee.unwrapped.staticMember? = some "apply" := by
  simp only [invoked?, Option.bind_eq_bind, hcallee, Option.bind_some] at h
  split at h
  · exact .inl ‹_›
  · split at h
    · exact .inr (.inl ‹_›)
    · exact .inr (.inr ‹_›)
    · cases h

theorem isGlueExpr_of_invoked? {call function : Node} (htype : call.type = "CallExpression")
    (h : call.invoked? = some function) : call.isGlueExpr = false := by
  simp only [isGlueExpr, htype]
  cases hcallee : call.child? "callee" with
  | none => rfl
  | some callee =>
    have hinvoked := invoked?_eq_some h hcallee
    rw [Option.any_some, Bool.or_eq_false_iff]
    -- Neither a name nor a member has wrappers around it.
    refine ⟨?_, ?_⟩ <;> by_contra hglue <;> rw [Bool.not_eq_false] at hglue
    · rw [isIdentifier, beq_iff_eq, name?, Option.ite_none_right_eq_some] at hglue
      have hname : callee.type = "Identifier" ∨ callee.type = "PrivateIdentifier" ∨
          callee.type = "PrivateName" := by simpa using hglue.1
      rw [unwrapped_of_wrapped? (by rcases hname with h | h | h <;> simp [wrapped?, h])] at hinvoked
      rcases hname with h | h | h <;> simp [isFunctionExpr, staticMember?, h] at hinvoked
    · rw [beq_iff_eq] at hglue
      have hmember : callee.type = "MemberExpression" := by
        by_contra hother
        simp [staticMember?, hother] at hglue
      rw [unwrapped_of_wrapped? (by simp [wrapped?, hmember]), hglue] at hinvoked
      simp [isFunctionExpr, hmember] at hinvoked

theorem isModuleGlue_of_wrapperBody? {stmt : Node} (h : stmt.wrapperBody? = some body) :
    stmt.isModuleGlue = false := by
  obtain ⟨htype, expr, call, function, hexpr, hcall, hkind, hfunction⟩ := wrapperBody?_eq_some h
  simp only [isModuleGlue, htype, hexpr, Option.any_some]
  rw [invocation?] at hcall
  split at hcall
  · rename_i hprefixed
    have hunary : expr.unwrapped.type = "UnaryExpression" := by
      rw [isPrefixed, Bool.and_eq_true, beq_iff_eq] at hprefixed
      exact hprefixed.1
    simp [isGlueExpr, hunary]
  · obtain rfl := Option.some.inj hcall
    exact isGlueExpr_of_invoked? hkind hfunction

/-! ## What a statement contributes -/

/-- A statement contributes itself, what a wrapper runs, or nothing. -/
theorem contribution_eq (inWrapper : Bool) (stmt : Node) :
    stmt.contribution inWrapper =
      if stmt.isDirective || stmt.isModuleGlue || (inWrapper && stmt.type == "ReturnStatement") then []
      else
        match stmt.wrapperBody? with
        | some body => body.flatMap (contribution true)
        | none => [stmt] := by
  rw [contribution]
  cases stmt.isDirective || stmt.isModuleGlue with
  | true => rfl
  | false =>
    cases inWrapper && stmt.type == "ReturnStatement" with
    | true => rfl
    | false =>
      simp only [Bool.false_eq_true, if_false, Bool.or_self]
      split <;> rename_i h <;> simp [h]

theorem Kept.contribution_eq {inWrapper : Bool} {stmt : Node} (h : Kept (inWrapper = true) stmt) :
    stmt.contribution inWrapper = [stmt] := by
  have hreturn : (inWrapper && stmt.type == "ReturnStatement") = false := by
    cases inWrapper with
    | false => rfl
    | true => simpa using h.notReturn rfl
  rw [Scriptgen.contribution_eq, h.directive, h.glue, hreturn, h.wrapper]
  rfl

def ReachedFrom (stmt : Node) (path : List Nat) (target : Node) : Prop :=
  path = [] ∧ target = stmt ∨
    Unmarked stmt ∧ ∃ inner, stmt.wrapperBody? = some inner ∧ Reached Unmarked inner path target

theorem reached_cons_iff {i : Nat} {path : List Nat} {target : Node} :
    Reached Unmarked body (i :: path) target ↔
      ∃ stmt, body[i]? = some stmt ∧ ReachedFrom stmt path target := by
  constructor
  · rintro (hstmt | ⟨hstmt, hunmarked, hinner, hreached⟩)
    · exact ⟨target, hstmt, .inl ⟨rfl, rfl⟩⟩
    · exact ⟨_, hstmt, .inr ⟨hunmarked, _, hinner, hreached⟩⟩
  · rintro ⟨stmt, hstmt, ⟨rfl, rfl⟩ | ⟨hunmarked, inner, hinner, hreached⟩⟩
    · exact .here hstmt
    · exact .inside hstmt hunmarked hinner hreached

theorem exists_places (inWrapper : Bool) {stmt : Node}
    (hinner : ∀ body, stmt.wrapperBody? = some body → ∃ places,
      places.map (·.2) = body.flatMap (contribution true) ∧ Lists Unmarked body (true = true) places) :
    ∃ places : List (List Nat × Node), places.map (·.2) = stmt.contribution inWrapper ∧
      places.Pairwise (·.1 < ·.1) ∧ ∀ path target, (path, target) ∈ places ↔
        ReachedFrom stmt path target ∧ Kept (inWrapper = true ∨ path ≠ []) target := by
  rw [contribution_eq]
  split
  · rename_i hdropped
    refine ⟨[], rfl, .nil, fun path target => iff_of_false not_mem_nil ?_⟩
    rw [Bool.or_eq_true, Bool.or_eq_true, Bool.and_eq_true, beq_iff_eq] at hdropped
    rintro ⟨⟨rfl, rfl⟩ | ⟨hunmarked, body, hbody, -⟩, hkept⟩
    · rcases hdropped with (h | h) | h
      · exact absurd h (by simp [hkept.directive])
      · exact absurd h (by simp [hkept.glue])
      · exact hkept.notReturn (.inl h.1) h.2
    · rcases hdropped with (h | h) | h
      · exact absurd (h.symm.trans hunmarked) (by decide)
      · exact absurd h (by simp [isModuleGlue_of_wrapperBody? hbody])
      · have htype := (wrapperBody?_eq_some hbody).1
        rw [h.2] at htype
        exact absurd htype (by decide)
  · rename_i hkept
    simp only [Bool.or_eq_true, not_or, Bool.not_eq_true, Bool.and_eq_false_iff] at hkept
    obtain ⟨⟨hdirective, hglue⟩, hreturn⟩ := hkept
    cases hbody : stmt.wrapperBody? with
    | some body =>
      obtain ⟨places, hmap, hlists⟩ := hinner body hbody
      refine ⟨places, hmap, hlists.sorted, fun path target => ?_⟩
      rw [hlists.mem_iff]
      constructor
      · rintro ⟨hreached, htarget⟩
        have hinside := htarget.notReturn (.inl rfl)
        exact ⟨.inr ⟨hdirective, body, hbody, hreached⟩, { htarget with notReturn := fun _ => hinside }⟩
      · rintro ⟨⟨rfl, rfl⟩ | ⟨-, body', hbody', hreached⟩, htarget⟩
        · exact absurd (hbody.symm.trans htarget.wrapper) (Option.some_ne_none _)
        · obtain rfl := Option.some.inj (hbody.symm.trans hbody')
          have hinside := htarget.notReturn (.inr hreached.path_ne_nil)
          exact ⟨hreached, { htarget with notReturn := fun _ => hinside }⟩
    | none =>
      refine ⟨[([], stmt)], rfl, pairwise_singleton _ _, fun path target => ?_⟩
      rw [mem_singleton, Prod.mk.injEq]
      constructor
      · rintro ⟨rfl, rfl⟩
        refine ⟨.inl ⟨rfl, rfl⟩, hdirective, hglue, hbody, fun hinside hret => ?_⟩
        rcases hreturn with h | h
        · simp [h] at hinside
        · simp [hret] at h
      · rintro ⟨⟨rfl, rfl⟩ | ⟨-, body, hbody', -⟩, -⟩
        · exact ⟨rfl, rfl⟩
        · exact absurd (hbody.symm.trans hbody').symm (Option.some_ne_none _)

theorem exists_lists (height : Nat) (inWrapper : Bool)
    (hheight : ∀ stmt ∈ body, stmt.height < height) : ∃ places,
      places.map (·.2) = body.flatMap (contribution inWrapper) ∧
        Lists Unmarked body (inWrapper = true) places := by
  induction height generalizing inWrapper body with
  | zero =>
    have hempty : body = [] := eq_nil_iff_forall_not_mem.2 fun stmt hstmt =>
      Nat.not_lt_zero _ (hheight stmt hstmt)
    subst hempty
    refine ⟨[], rfl, .nil, fun path target => iff_of_false not_mem_nil ?_⟩
    rintro ⟨h | h, -⟩ <;> simp at *
  | succ height ih =>
    have hplaces (stmt : Node) (hstmt : stmt ∈ body) := @exists_places inWrapper stmt
      fun inner hinner => ih true fun target htarget => by
        have := height_of_mem_wrapperBody? hinner htarget
        have := hheight stmt hstmt
        omega
    choose! placesIn hmap hsorted hmem using hplaces
    refine ⟨body.zipIdx.flatMap fun entry =>
      (placesIn entry.1).map fun place => (entry.2 :: place.1, place.2), ?_, ?_, ?_⟩
    · have hcontribution : ∀ entry ∈ body.zipIdx,
          ((placesIn entry.1).map fun place => (entry.2 :: place.1, place.2)).map (·.2) =
            entry.1.contribution inWrapper := by
        intro entry hentry
        rw [map_map]
        exact hmap entry.1 (fst_mem_of_mem_zipIdx hentry)
      rw [map_flatMap, flatMap_congr hcontribution, ← flatMap_map,
        zipIdx_map_fst]
    · have hindices : body.zipIdx.Pairwise (·.2 < ·.2) := by
        rw [← pairwise_map (f := Prod.snd), zipIdx_map_snd]
        exact pairwise_lt_range'
      rw [pairwise_flatMap]
      refine ⟨fun entry hentry => ?_, hindices.imp fun hlt place hplace place' hplace' => ?_⟩
      · refine (hsorted entry.1 (fst_mem_of_mem_zipIdx hentry)).map _ fun place place' hlt => ?_
        exact cons_lt_cons_self.2 hlt
      · obtain ⟨_, -, rfl⟩ := mem_map.1 hplace
        obtain ⟨_, -, rfl⟩ := mem_map.1 hplace'
        exact List.Lex.rel hlt
    · intro path target
      simp only [mem_flatMap, mem_map, Prod.mk.injEq, Prod.exists,
        mem_zipIdx_iff_getElem?]
      constructor
      · rintro ⟨stmt, i, hstmt, path, target, hplace, rfl, rfl⟩
        rw [hmem stmt (mem_of_getElem? hstmt)] at hplace
        refine ⟨reached_cons_iff.2 ⟨stmt, hstmt, hplace.1⟩, ?_⟩
        simpa [length_pos_iff] using hplace.2
      · rintro ⟨hreached, hkept⟩
        obtain ⟨i, path, rfl⟩ := exists_cons_of_ne_nil hreached.path_ne_nil
        obtain ⟨stmt, hstmt, hfrom⟩ := reached_cons_iff.1 hreached
        refine ⟨stmt, i, hstmt, path, target, ?_, rfl, rfl⟩
        rw [hmem stmt (mem_of_getElem? hstmt)]
        exact ⟨hfrom, by simpa [length_pos_iff] using hkept⟩

/-! ## Programs -/

def programOf (stmts : List Node) : Node :=
  .of "Program" [("body", .array (stmts.map toJson))]

theorem children_programOf (stmts : List Node) : (programOf stmts).children "body" = stmts := by
  have hbody : (programOf stmts).items "body" = stmts.map toJson := rfl
  rw [children, hbody, filterMap_map]
  exact filterMap_some

/-- **The statements of a program without wrappers and glue are in normal form**: they are the
statements that are reached through wrappers and kept, each once and in the order of the program, and
once more peeling leaves them as they are. -/
theorem topLevelStatements_normal (program : Node) :
    (∃ places, places.map (·.2) = topLevelStatements program ∧
      Lists Unmarked (program.children "body") False places) ∧
    (∀ stmt ∈ topLevelStatements program, Kept False stmt) ∧
    topLevelStatements (programOf (topLevelStatements program)) = topLevelStatements program := by
  obtain ⟨places, hmap, hlists⟩ := exists_lists program.height false
    fun stmt (hstmt : stmt ∈ program.children "body") => height_of_mem_children hstmt
  have hkept : ∀ stmt ∈ topLevelStatements program, Kept (false = true) stmt := by
    intro stmt hstmt
    have hplaced : stmt ∈ places.map (·.2) := hmap ▸ hstmt
    obtain ⟨⟨path, stmt⟩, hplace, rfl⟩ := List.mem_map.1 hplaced
    exact { ((hlists.mem_iff path stmt).1 hplace).2 with notReturn := fun h => absurd h Bool.false_ne_true }
  refine ⟨⟨places, hmap, by simpa using hlists⟩, by simpa using hkept, ?_⟩
  calc (((programOf (topLevelStatements program)).children "body").flatMap (contribution false))
      = (topLevelStatements program).flatMap (contribution false) := by rw [children_programOf]
    _ = (topLevelStatements program).flatMap fun stmt => [stmt] :=
        List.flatMap_congr fun stmt hstmt => (hkept stmt hstmt).contribution_eq
    _ = topLevelStatements program := List.flatMap_singleton' _

/-- The call `(function () { ; })()`. -/
def emptyCall : Node :=
  let block := Json.node "BlockStatement" [
    ("body", .array [.node "EmptyStatement" []])]
  .of "CallExpression" [
    ("callee", .node "FunctionExpression" [("body", block)])]

/-- The call as a statement that is marked as a directive. -/
def markedWrapper : Node :=
  .of "ExpressionStatement" [("directive", .string "use strict"),
    ("expression", .object emptyCall.fields)]

/-- What a wrapper runs is dropped if the wrapper is marked as a directive. -/
theorem markedWrapper_dropped :
    ¬ ∃ places, places.map (·.2) = topLevelStatements (programOf [markedWrapper]) ∧
      Lists (fun _ => True) ((programOf [markedWrapper]).children "body") False places := by
  rintro ⟨places, hmap, hlists⟩
  have hnothing : topLevelStatements (programOf [markedWrapper]) = [] := by
    rw [topLevelStatements, children_programOf, List.flatMap_singleton, contribution_eq]
    rfl
  rw [hnothing, List.map_eq_nil_iff] at hmap
  have hcall : emptyCall.invocation? = some emptyCall := by
    rw [invocation?, if_neg] <;> rw [unwrapped_of_wrapped? rfl]
    decide
  have hinvoked : emptyCall.invoked? = emptyCall.child? "callee" := by
    show (if (unwrapped _).isFunctionExpr then _ else _) = _
    rw [unwrapped_of_wrapped? rfl]
    rfl
  have hbody : markedWrapper.wrapperBody? = some [.of "EmptyStatement" []] := by
    show (do
      let call ← emptyCall.invocation?
      guard (call.type == "CallExpression")
      let body ← (← call.invoked?).child? "body"
      if body.type == "BlockStatement" then some (body.children "body") else none) = _
    rw [hcall, Option.bind_eq_bind, Option.bind_some, hinvoked]
    rfl
  have hplace := (hlists.mem_iff [0, 0] (.of "EmptyStatement" [])).2
    ⟨.inside rfl trivial hbody (.here rfl), rfl, rfl, rfl, fun _ => by decide⟩
  rw [hmap] at hplace
  cases hplace

end Scriptgen
