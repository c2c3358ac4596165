import Scriptgen.Perl.Print
import Scriptgen.Proofs.Jumps
import Scriptgen.Proofs.Lowering
/-!
# Protected blocks in `eval`

A protected block is written with `eval`. `protectCode` is this code, in the parts that matter: it
is what is printed (`print_protect`), and `Code.run` runs it. `Machine.protect` is what the program
means by the block. The two are the same but for one thing: if the handler throws, the cleanup is
skipped (`eval_runs_like_protect_iff`).
-/

namespace Scriptgen.Perl

open Lowering
open Jumps (nameNode blockNode)

variable {σ ε β : Type}

/-! ## Code -/

/-- The code of a protected block, with parts of type `β` in it. -/
inductive Code (β : Type)
  | skip
  | seq (first rest : Code β)
  /-- Statements of the program. -/
  | stmts (body : β)
  /-- `eval { ...; 1; } or do { ... };` -/
  | evalOr (body : β) (otherwise : Code β)
  /-- `my $__ok = eval { ...; 1; };` -/
  | setOk (body : β)
  /-- `my $__error = $@;` -/
  | saveError
  /-- The variable gets the last error: `my $var = $@;` -/
  | bindLast (var : String)
  /-- The variable gets the error that was kept: `my $var = $__error;` -/
  | bindSaved (var : String)
  /-- `if (!$__ok) { ... }` -/
  | unlessOk (body : Code β)
  /-- `die $__error if !$__ok;` -/
  | rethrow
  /-- A bare block. -/
  | block (body : Code β)

/-- **The code of a protected block.** -/
def protectCode (body : β) (handler : Option (String × β)) : Option β → Code β
  | none =>
    .evalOr body
      (match handler with
        | some (var, clause) => .seq (.bindLast var) (.stmts clause)
        | none => .skip)
  | some cleanup =>
    .block <| .seq (.setOk body) <| .seq .saveError <|
      .seq
        (match handler with
          | some (var, clause) => .unlessOk (.seq (.bindSaved var) (.stmts clause))
          | none => .skip) <|
      .seq (.stmts cleanup) (if handler.isNone then .rethrow else .skip)

def Code.print (layout : Layout) : Nat → Code (List Stmt) → String
  | _, .skip => ""
  | depth, .seq first rest => first.print layout depth ++ rest.print layout depth
  | depth, .stmts body => printStmts layout depth body
  | depth, .evalOr body otherwise =>
    chainClause layout depth
        (layout.pad depth ++ "eval" ++ openBrace layout depth ++ printStmts layout (depth + 1) body ++
          layout.line (depth + 1) "1;" ++ closeBrace layout depth) "or do" ++
      otherwise.print layout (depth + 1) ++ layout.line depth "\x7d;"
  | depth, .setOk body =>
    layout.pad depth ++ "my $__ok = eval" ++ openBrace layout depth ++
      printStmts layout (depth + 1) body ++ layout.line (depth + 1) "1;" ++ layout.line depth "\x7d;"
  | depth, .saveError => layout.line depth "my $__error = $@;"
  | depth, .bindLast var => layout.line depth ("my $" ++ var ++ " = $@;")
  | depth, .bindSaved var => layout.line depth ("my $" ++ var ++ " = $__error;")
  | depth, .unlessOk body =>
    layout.pad depth ++ "if (!$__ok)" ++ openBrace layout depth ++ body.print layout (depth + 1) ++
      closeBrace layout depth
  | depth, .rethrow => layout.line depth "die $__error if !$__ok;"
  | depth, .block body =>
    layout.line depth "\x7b" ++ body.print layout (depth + 1) ++ closeBrace layout depth

/-- **The text of a protected block is that of its code.** -/
theorem print_protect (layout : Layout) (depth : Nat) (body : List Stmt)
    (handler : Option (String × List Stmt)) (cleanup : Option (List Stmt)) :
    (StmtKind.protect body handler cleanup false).print layout depth =
      (protectCode body handler cleanup).print layout depth := by
  rcases cleanup with _ | cleanup <;> rcases handler with _ | ⟨var, clause⟩ <;>
    simp [StmtKind.print, protectCode, Code.print, String.append_assoc]

/-! ## Running statements -/

/-- How statements end: those that were run, the state, and what was thrown. -/
structure Ending (σ ε : Type) where
  ran : List Stmt
  state : σ
  thrown : Option ε

/-- What statements do. -/
abbrev Action (σ ε : Type) := σ → Ending σ ε

/-- What follows is done in the state at the end. -/
def Ending.continue (first : Ending σ ε) (next : Action σ ε) : Ending σ ε :=
  let last := next first.state
  ⟨first.ran ++ last.ran, last.state, last.thrown⟩

/-- What is thrown ends actions. -/
def Ending.andThen (first : Ending σ ε) (next : Action σ ε) : Ending σ ε :=
  if first.thrown.isSome then first else first.continue next

/-- What a protected block does, given what its parts do. -/
abbrev Guard (σ ε : Type) :=
  Action σ ε → Option (String × Action σ ε) → Option (Action σ ε) → Action σ ε

/-- **A way to run statements** that complete normally or throw. -/
structure Machine (σ ε : Type) where
  run : Stmt → σ → σ × Option ε
  /-- The state in which a variable holds an error. -/
  bind : String → ε → σ → σ

namespace Machine

variable (m : Machine σ ε)

mutual

/-- What a statement does, where protected blocks do what `guard` says. -/
def exec (guard : Guard σ ε) : Stmt → Action σ ε
  | ⟨kind, remarks⟩ => execKind guard remarks kind

def execKind (guard : Guard σ ε) (remarks : Remarks) : StmtKind → Action σ ε
  | .protect body handler cleanup false => fun s =>
    let ending := guard (execAll guard body) (execHandler guard handler) (execClause guard cleanup) s
    { ending with ran := ⟨.protect body handler cleanup false, remarks⟩ :: ending.ran }
  | kind => fun s => ⟨[⟨kind, remarks⟩], (m.run ⟨kind, remarks⟩ s).1, (m.run ⟨kind, remarks⟩ s).2⟩

def execAll (guard : Guard σ ε) : List Stmt → Action σ ε
  | [] => fun s => ⟨[], s, none⟩
  | stmt :: rest => fun s => (exec guard stmt s).andThen (execAll guard rest)

def execHandler (guard : Guard σ ε) : Option (String × List Stmt) → Option (String × Action σ ε)
  | none => none
  | some (var, body) => some (var, execAll guard body)

def execClause (guard : Guard σ ε) : Option (List Stmt) → Option (Action σ ε)
  | none => none
  | some body => some (execAll guard body)

end

/-- A block, and its handler if the block throws. -/
def handle (body : Action σ ε) (handler : Option (String × Action σ ε)) : Action σ ε := fun s =>
  match (body s).thrown, handler with
  | some error, some (var, clause) => (body s).continue fun t => clause (m.bind var error t)
  | _, _ => body s

/-- **What a protected block means.** The cleanup is done in every case, and what was thrown before it
is thrown again unless it throws something itself. -/
def protect : Guard σ ε := fun body handler cleanup s =>
  let handled := m.handle body handler s
  match cleanup with
  | none => handled
  | some cleanup =>
    let last := handled.continue cleanup
    { last with thrown := last.thrown.or handled.thrown }

end Machine

/-! ## Running code -/

/-- What code keeps beside the state of the program. -/
structure Registers (ε : Type) where
  /-- `$@` -/
  lastError : Option ε
  /-- `$__ok` -/
  ok : Bool
  /-- `$__error` -/
  saved : Option ε

/-- **Running code.** An `eval` that completes normally gives a true value, and one in which something
is thrown an undefined one. Statements may overwrite the last error. -/
def Code.run (m : Machine σ ε) : Code (Action σ ε) → σ → Registers ε → Ending σ ε × Registers ε
  | .skip, s, r => (⟨[], s, none⟩, r)
  | .seq first rest, s, r =>
    let (ending, r') := first.run m s r
    (ending.andThen fun t => (rest.run m t r').1,
      if ending.thrown.isSome then r' else (rest.run m ending.state r').2)
  | .stmts body, s, r => (body s, { r with lastError := none })
  | .evalOr body otherwise, s, r =>
    let r' := { r with lastError := (body s).thrown }
    if (body s).thrown.isSome then
      ((body s).continue fun t => (otherwise.run m t r').1, (otherwise.run m (body s).state r').2)
    else (body s, r')
  | .setOk body, s, r =>
    ({ body s with thrown := none },
      { r with lastError := (body s).thrown, ok := (body s).thrown.isNone })
  | .saveError, s, r => (⟨[], s, none⟩, { r with saved := r.lastError })
  | .bindLast var, s, r => (⟨[], r.lastError.elim s (m.bind var · s), none⟩, r)
  | .bindSaved var, s, r => (⟨[], r.saved.elim s (m.bind var · s), none⟩, r)
  | .unlessOk body, s, r => if r.ok then (⟨[], s, none⟩, r) else body.run m s r
  | .rethrow, s, r => (⟨[], s, if r.ok then none else r.saved⟩, r)
  | .block body, s, r =>
    -- the variables of the block are gone after it
    ((body.run m s r).1, { r with lastError := (body.run m s r).2.lastError })

def Machine.evalBlock (m : Machine σ ε) : Guard σ ε := fun body handler cleanup s =>
  ((protectCode body handler cleanup).run m s ⟨none, false, none⟩).1

section Comparison

variable {m : Machine σ ε} {body : Action σ ε} {handler : Option (String × Action σ ε)}
variable {cleanup : Option (Action σ ε)} {s : σ}

attribute [local simp] protectCode Code.run Machine.protect Machine.handle Ending.andThen
  Ending.continue in
/-- **What the code does**: it ends where the handler throws, and otherwise does what the block
means. -/
theorem run_protectCode (hparts : handler.isSome ∨ cleanup.isSome) (s : σ) (r : Registers ε) :
    ((protectCode body handler cleanup).run m s r).1 =
      if (body s).thrown.isSome ∧ handler.isSome ∧ (m.handle body handler s).thrown.isSome then
        m.handle body handler s
      else m.protect body handler cleanup s := by
  rcases handler with _ | ⟨var, clause⟩ <;> rcases cleanup with _ | cleanup
  · simp at hparts
  · cases hbody : (body s).thrown <;> cases hlast : (cleanup (body s).state).thrown <;>
      simp [hbody, hlast]
  · cases hbody : (body s).thrown <;> simp [hbody]
  · cases hbody : (body s).thrown with
    | none => cases hlast : (cleanup (body s).state).thrown <;> simp [hbody, hlast]
    | some error =>
      cases hclause : (clause (m.bind var error (body s).state)).thrown with
      | some other => simp [hbody, hclause]
      | none =>
        cases hlast : (cleanup (clause (m.bind var error (body s).state)).state).thrown <;>
          simp [hbody, hclause, hlast]

end Comparison

/-- **The handler of a block throws, and there is a cleanup to be done after it.** -/
def Machine.SkipsCleanup (m : Machine σ ε) (guard : Guard σ ε) (body : List Stmt)
    (handler : Option (String × List Stmt)) (cleanup : Option (List Stmt)) (s : σ) : Prop :=
  (m.execAll guard body s).thrown.isSome ∧ handler.isSome ∧
    (m.handle (m.execAll guard body) (m.execHandler guard handler) s).thrown.isSome ∧
    ∃ last ∈ cleanup, last ≠ []

variable {stmts : List Stmt}

section Lists

variable {m : Machine σ ε} {guard : Guard σ ε} {body : List Stmt}
variable {handler : Option (String × List Stmt)} {cleanup : Option (List Stmt)}

theorem Machine.isSome_execHandler : (m.execHandler guard handler).isSome = handler.isSome := by
  cases handler <;> simp [Machine.execHandler]

theorem Machine.isSome_execClause : (m.execClause guard cleanup).isSome = cleanup.isSome := by
  cases cleanup <;> simp [Machine.execClause]

theorem Machine.ran_execAll_ne_nil (h : stmts ≠ []) (s : σ) :
    (m.execAll guard stmts s).ran ≠ [] := by
  obtain ⟨⟨kind, remarks⟩, rest, rfl⟩ := List.exists_cons_of_ne_nil h
  have hran : (m.exec guard ⟨kind, remarks⟩ s).ran ≠ [] := by
    rw [exec]
    unfold execKind
    split <;> exact List.cons_ne_nil _ _
  simp only [execAll, Ending.andThen]
  split
  · exact hran
  · exact fun hnil => hran (List.append_eq_nil_iff.1 hnil).1

/-- **The code does what the block means exactly if no cleanup is skipped.** -/
theorem Machine.run_eq_protect_iff (hparts : handler.isSome ∨ cleanup.isSome) (s : σ)
    (r : Registers ε) :
    ((protectCode (m.execAll guard body) (m.execHandler guard handler)
        (m.execClause guard cleanup)).run m s r).1 =
      m.protect (m.execAll guard body) (m.execHandler guard handler) (m.execClause guard cleanup) s ↔
    ¬ m.SkipsCleanup guard body handler cleanup s := by
  rw [run_protectCode (by rwa [m.isSome_execHandler, m.isSome_execClause]), SkipsCleanup,
    m.isSome_execHandler]
  split
  · rename_i hthrows
    simp only [hthrows, true_and]
    rcases cleanup with _ | last
    · simp [protect, execClause]
    · simp only [protect, execClause, Option.mem_def, Option.some.injEq, exists_eq_left', not_not]
      constructor
      · intro heq
        by_contra hne
        have hran := congrArg Ending.ran heq
        simp only [Ending.continue, List.self_eq_append_right] at hran
        exact m.ran_execAll_ne_nil hne _ hran
      · rintro rfl
        simp [execAll, Ending.continue]
  · rename_i hthrows
    simp only [true_iff]
    rintro ⟨hbody, hhandler, hhandled, -⟩
    exact hthrows ⟨hbody, hhandler, hhandled⟩

/-! ## Blocks in blocks -/

variable (m) in
/-- **No handler beside a cleanup throws**, at any depth. -/
inductive Machine.Steady : List Stmt → Prop
  | nil : Steady []
  | plain {kind : StmtKind} {remarks : Remarks} {rest : List Stmt} :
      (∀ body handler cleanup, kind ≠ .protect body handler cleanup false) → Steady rest →
      Steady (⟨kind, remarks⟩ :: rest)
  | protect {body rest : List Stmt} {handler : Option (String × List Stmt)}
      {cleanup : Option (List Stmt)} {remarks : Remarks} :
      handler.isSome ∨ cleanup.isSome → Steady body → (∀ clause ∈ handler, Steady clause.2) →
      (∀ last ∈ cleanup, Steady last) →
      (∀ clause ∈ handler, cleanup.isSome → ∀ s, (m.execAll m.protect clause.2 s).thrown = none) →
      Steady rest → Steady (⟨.protect body handler cleanup false, remarks⟩ :: rest)

theorem Machine.execKind_of_ne {kind : StmtKind}
    (h : ∀ body handler cleanup, kind ≠ .protect body handler cleanup false) (remarks : Remarks) :
    m.execKind guard remarks kind = fun s =>
      ⟨[⟨kind, remarks⟩], (m.run ⟨kind, remarks⟩ s).1, (m.run ⟨kind, remarks⟩ s).2⟩ := by
  unfold execKind
  split
  · exact absurd rfl (h _ _ _)
  · rfl

theorem Machine.Steady.execAll_eq (h : m.Steady stmts) :
    m.execAll m.evalBlock stmts = m.execAll m.protect stmts := by
  induction h with
  | nil => simp only [execAll]
  | plain hkind _ ih => simp only [execAll, exec, execKind_of_ne hkind, ih]
  | @protect body rest handler cleanup remarks hparts _ _ _ hthrows _ ihbody ihhandler ihcleanup
      ih =>
    have hhandler : m.execHandler m.evalBlock handler = m.execHandler m.protect handler := by
      cases handler with
      | none => simp only [execHandler]
      | some clause => simp only [execHandler, ihhandler clause rfl]
    have hcleanup : m.execClause m.evalBlock cleanup = m.execClause m.protect cleanup := by
      cases cleanup with
      | none => simp only [execClause]
      | some last => simp only [execClause, ihcleanup last rfl]
    have hguard : m.evalBlock (m.execAll m.protect body) (m.execHandler m.protect handler)
          (m.execClause m.protect cleanup) =
        m.protect (m.execAll m.protect body) (m.execHandler m.protect handler)
          (m.execClause m.protect cleanup) := by
      funext s
      refine (m.run_eq_protect_iff hparts s _).2 ?_
      rintro ⟨hbody, hhandler, hhandled, last, hlast, -⟩
      obtain ⟨⟨var, clause⟩, rfl⟩ := Option.isSome_iff_exists.1 hhandler
      obtain ⟨error, herror⟩ := Option.isSome_iff_exists.1 hbody
      have hnone := hthrows (var, clause) rfl (Option.isSome_of_mem hlast)
      simp [handle, execHandler, herror, Ending.continue, hnone] at hhandled
    simp only [execAll, exec, execKind, ihbody, hhandler, hcleanup, hguard, ih]

end Lists

/-! ## Lowering -/

variable {node : Node} {b : Below} {c : Context}

theorem exists_tryStmt_eq (s : State) :
    ∃ body handler cleanup,
      (tryStmt node b c s).1 = .plain (.protect body handler cleanup c.options.modernSyntax) ∧
      handler.isSome = (node.child? "handler").isSome ∧
      cleanup.isSome = (node.child? "finalizer").isSome := by
  have hoptions : options b c s = (c.options, s) := rfl
  rw [tryStmt, run_bind, hoptions]
  dsimp only
  cases c.options.modernSyntax
  all_goals
    refine ⟨_, _, _, rfl, ?_, ?_⟩
    · cases node.child? "handler" <;> rfl
    · cases node.child? "finalizer" <;> rfl

/-- **A statement is a protected block in `eval`.** It has a handler and a cleanup where the node has
them, and its text is that of its code. Whatever its parts do, the code does what the block means
exactly if no cleanup is skipped, and so do blocks in blocks if none of their handlers beside a
cleanup throws. -/
def EvalOf (node : Node) (stmt : Stmt) : Prop :=
  ∃ body handler cleanup,
    stmt = .plain (.protect body handler cleanup false) ∧
    handler.isSome = (node.child? "handler").isSome ∧
    cleanup.isSome = (node.child? "finalizer").isSome ∧
    (∀ layout depth, stmt.kind.print layout depth =
      (protectCode body handler cleanup).print layout depth) ∧
    ∀ {σ ε : Type} (m : Machine σ ε),
      (∀ guard s r,
        ((protectCode (m.execAll guard body) (m.execHandler guard handler)
            (m.execClause guard cleanup)).run m s r).1 =
          m.protect (m.execAll guard body) (m.execHandler guard handler)
            (m.execClause guard cleanup) s ↔
        ¬ m.SkipsCleanup guard body handler cleanup s) ∧
      (m.Steady [stmt] → m.execAll m.evalBlock [stmt] = m.execAll m.protect [stmt])

/-- **Protected blocks do in `eval` what they mean, unless a handler throws before a cleanup.** -/
theorem eval_runs_like_protect_iff {node : Node}
    (hparts : (node.child? "handler").isSome ∨ (node.child? "finalizer").isSome) {c : Context}
    (hc : c.options.modernSyntax = false) (b : Below) (s : State) :
    EvalOf node (tryStmt node b c s).1 := by
  obtain ⟨body, handler, cleanup, heq, hhandler, hcleanup⟩ := @exists_tryStmt_eq node b c s
  rw [← hhandler, ← hcleanup] at hparts
  rw [heq, hc]
  refine ⟨body, handler, cleanup, rfl, hhandler, hcleanup, fun layout depth => ?_, fun m => ⟨?_, ?_⟩⟩
  · exact print_protect layout depth body handler cleanup
  · exact fun guard s r => m.run_eq_protect_iff hparts s r
  · exact Machine.Steady.execAll_eq

/-- The statement `try { a(); } catch (e) { throw e; } finally { c(); }`. -/
def throwingHandler : Node :=
  let callNode (name : String) : Node :=
    .of "ExpressionStatement" [("expression", .node "CallExpression" [
      ("callee", (nameNode name).toJson), ("arguments", .array [])])]
  .of "TryStatement" [("block", (blockNode [callNode "a"]).toJson),
    ("handler", .node "CatchClause" [("param", (nameNode "e").toJson),
      ("body", (blockNode [.of "ThrowStatement" [
        ("argument", (nameNode "e").toJson)]]).toJson)]),
    ("finalizer", (blockNode [callNode "c"]).toJson)]

theorem eval_runs_like_protect_iff_throwingHandler :
    (throwingHandler.child? "handler").isSome ∧
      EvalOf throwingHandler
        (tryStmt throwingHandler (level 9) .initial .initial).1 :=
  ⟨rfl, eval_runs_like_protect_iff (.inl rfl) rfl (level 9) .initial⟩

/-- Every statement throws, but for the call of `c`. -/
def throwing : Machine Unit Unit where
  run
    | ⟨.expr (.call "c" _), _⟩, _ => ((), none)
    | _, _ => ((), some ())
  bind _ _ _ := ()

/-- In `try { a(); } catch (e) { throw e; } finally { c(); }` the call of `c` is never made: the block,
the call of `a` and the `throw` are all that is run. -/
theorem throwingHandler_skips_cleanup :
    let stmt := (tryStmt throwingHandler (level 9) .initial .initial).1
    (throwing.exec throwing.evalBlock stmt ()).ran.length = 3 ∧
      (throwing.exec throwing.protect stmt ()).ran.length = 4 := by
  decide +kernel

end Scriptgen.Perl
