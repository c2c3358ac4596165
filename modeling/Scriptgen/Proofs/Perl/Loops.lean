import Mathlib.Data.Option.Basic
import Scriptgen.Proofs.Perl.Evaluation
import Scriptgen.Proofs.Lowering
/-!
# Loops and blocks over arrays in generated Perl

An iteration becomes a loop over the indices of an array (`IndexLoop`) or a block function
(`elementBlock`). This module says what such code gives, for any array, callback and first value
that are known by what they give (`Expr.Gives`).

A loop is followed by a step on its result (`runUntil`), and ends where the step says so. The step
is a fold for the iterations that go through the whole array, and a search for those that end early.
Main results: `IndexLoop.exists_bodyResult` and `exists_result_elementBlock`.
-/

namespace Scriptgen.Perl

open Lowering List Expr Stmt Iteration List Env

variable {other : Meaning} {env env' : Env}

/-! ## Variables -/

namespace Env

theorem assign_append {x : String × Shape} {value old : Value} {added : Env}
    (h : ∀ p ∈ added, p.1 ≠ x) :
    assign x value (added ++ (x, old) :: env) = some (added ++ (x, value) :: env) := by
  induction added with
  | nil => exact if_pos rfl
  | cons p added ih =>
    obtain ⟨y, w⟩ := p
    have hne : x ≠ y := fun heq => h (y, w) mem_cons_self heq.symm
    rw [cons_append, assign, if_neg hne, ih fun p hp => h p (mem_cons_of_mem _ hp)]
    rfl

theorem lookup_append_cons {x : String × Shape} {value : Value} {added : Env}
    (h : ∀ p ∈ added, p.1 ≠ x) : (added ++ (x, value) :: env).lookup x = some value := by
  rw [lookup_append, Variables.lookup_eq_none h, Option.none_or, lookup_cons_self]

theorem leaving_append (added : Env) (h : env'.length = env.length) :
    (added ++ env').leaving env = env' := by
  rw [leaving, length_append, h, Nat.add_sub_cancel, drop_left]

/-- The variables of parameters, in the order in which they are declared. -/
def parameters (names : List String) (args : List Value) : Env :=
  ((names.zip args).map fun (name, value) => ((name, .scalar), value)).reverse

theorem mem_of_mem_parameters {names : List String} {args : List Value}
    {p : (String × Shape) × Value} (h : p ∈ parameters names args) : p.1.1 ∈ names := by
  rw [parameters, mem_reverse, mem_map] at h
  obtain ⟨⟨name, value⟩, hpair, rfl⟩ := h
  exact of_mem_zip hpair |>.1

end Env

open Env Variables

/-! ## Statements -/

variable {rest : List Stmt} {name : String} {e : Expr}

theorem bodyResult_cons {stmt next : Stmt} (h : stmt.run other env = some (env', false)) :
    bodyResult other env (stmt :: next :: rest) = bodyResult other env' (next :: rest) := by
  rw [bodyResult, h]
  · rfl
  · intro value remarks _ hrest
    cases hrest

theorem exists_run_of_runStmts {stmt : Stmt}
    (h : runStmts other env (stmt :: rest) = some (env', false)) :
    ∃ env₁, stmt.run other env = some (env₁, false) ∧
      runStmts other env₁ rest = some (env', false) := by
  rw [runStmts] at h
  cases hrun : stmt.run other env with
  | none => rw [hrun] at h; cases h
  | some r =>
    obtain ⟨env₁, last⟩ := r
    rw [hrun] at h
    cases last with
    | true => cases h
    | false => exact ⟨env₁, rfl, h⟩

theorem runStmts_append {first : List Stmt} (h : runStmts other env first = some (env', false)) :
    runStmts other env (first ++ rest) = runStmts other env' rest := by
  induction first generalizing env with
  | nil =>
    rw [runStmts] at h
    cases h
    rfl
  | cons stmt first ih =>
    obtain ⟨env₁, hrun, hfirst⟩ := exists_run_of_runStmts h
    rw [cons_append, runStmts, hrun]
    exact ih hfirst

theorem bodyResult_append {first : List Stmt} {next : Stmt}
    (h : runStmts other env first = some (env', false)) :
    bodyResult other env (first ++ next :: rest) = bodyResult other env' (next :: rest) := by
  induction first generalizing env with
  | nil =>
    rw [runStmts] at h
    cases h
    rfl
  | cons stmt first ih =>
    obtain ⟨env₁, hrun, hfirst⟩ := exists_run_of_runStmts h
    rw [cons_append, ← ih hfirst]
    cases first <;> exact bodyResult_cons hrun

theorem run_setScalar {value : Value} (h : e.result other env = some (.one value)) :
    (Stmt.setScalar name e).run other env =
      (assign (name, .scalar) value env).map (·, false) := by
  rw [Stmt.setScalar, Stmt.ofExpr, Stmt.plain, Stmt.run, Expr.set, Expr.scalar, StmtKind.run, h]
  change ((assign (name, .scalar) value env).bind fun env => some (env, false)) = _
  cases assign (name, .scalar) value env <;> rfl

theorem run_push {value : Value} {items : List Value}
    (hlist : env.list? name = some items) (h : e.result other env = some (.one value)) :
    (ofExpr (.call "push" [.var name .list, e])).run other env =
      (assign (name, .list) (.array (items ++ [value])) env).map (·, false) := by
  rw [ofExpr, plain, run, StmtKind.run, hlist, h]
  change ((assign (name, .list) (.array (items ++ [value])) env).bind
    fun env => some (env, false)) = _
  cases assign (name, .list) (.array (items ++ [value])) env <;> rfl

theorem run_when {cond : Expr} {value : Value} {body : List Stmt}
    (h : cond.result other env = some (.one value)) :
    (when cond body).run other env =
      if isTrue value then
        (runStmts other env body).map fun (inner, last) => (inner.leaving env, last)
      else some (env, false) := by
  rw [when, plain, run, StmtKind.run, h]
  change (if isTrue value = true then
    (runStmts other env body).bind fun r => some (r.1.leaving env, r.2) else _) = _
  cases isTrue value with
  | true => cases runStmts other env body <;> rfl
  | false => rfl

/-! ## Loops -/

/-- Goes on from one item to the next until a step says that it is the last. -/
def runUntil {α β : Type} (next : α → β → α × Bool) (acc : α) : List β → α
  | [] => acc
  | item :: rest =>
    if (next acc item).2 then (next acc item).1 else runUntil next (next acc item).1 rest

/-- The items that a run comes to, each with what it has by then. -/
def visits {α β : Type} (next : α → β → α × Bool) (acc : α) : List β → List (α × β)
  | [] => []
  | item :: rest =>
    (acc, item) :: if (next acc item).2 then [] else visits next (next acc item).1 rest

variable {α β : Type}

theorem mem_of_mem_visits {next : α → β → α × Bool} {acc : α} {items : List β} {p : α × β}
    (h : p ∈ visits next acc items) : p.2 ∈ items := by
  induction items generalizing acc with
  | nil => cases h
  | cons item rest ih =>
    rcases mem_cons.1 h with rfl | htail
    · exact mem_cons_self
    · split at htail
      · cases htail
      · exact mem_cons_of_mem _ (ih htail)

variable {entries : List (Value × Nat)}

theorem mem_accumulatingCalls {f : List Value → Value} {list : List Value} {acc : Value}
    {p : Value × (Value × Nat)}
    (h : p ∈ visits (fun acc entry => (accumulate f list acc entry, false)) acc entries) :
    p.1 :: Iteration.arguments list p.2 ∈ accumulatingCalls f list acc entries := by
  induction entries generalizing acc with
  | nil => cases h
  | cons entry rest ih =>
    rcases mem_cons.1 h with rfl | htail
    · exact mem_cons_self
    · exact mem_cons_of_mem _ (ih htail)

theorem runUntil_eq_foldl {next : α → β → α × Bool} {g : α → β → α} {items : List β}
    (h : ∀ acc, ∀ item ∈ items, next acc item = (g acc item, false)) (acc : α) :
    runUntil next acc items = items.foldl g acc := by
  induction items generalizing acc with
  | nil => rfl
  | cons item rest ih =>
    rw [runUntil, h acc item mem_cons_self, foldl_cons]
    exact ih (fun acc item hitem => h acc item (mem_cons_of_mem _ hitem)) (g acc item)

theorem runUntil_eq_find? {next : α → β → α × Bool} {test : β → Bool} {g : β → α} {start : α}
    {items : List β}
    (h : ∀ item ∈ items, next start item = if test item then (g item, true) else (start, false)) :
    runUntil next start items = ((items.find? test).map g).getD start := by
  induction items with
  | nil => rfl
  | cons item rest ih =>
    rw [runUntil, h item mem_cons_self, find?_cons]
    cases test item with
    | true => rfl
    | false => exact ih fun item hitem => h item (mem_cons_of_mem _ hitem)

theorem integersBetween_eq (first : Nat) (items : List Value) :
    integersBetween first (items.length - 1) =
      (items.zipIdx.drop first).map fun entry => .int entry.2 := by
  apply ext_getElem
  · simp only [integersBetween, length_map, length_range, length_drop,
      length_zipIdx]
    omega
  · intro i hi hi'
    simp [integersBetween]

/-- The rounds of a loop over indices, if each does to the variables what a step does to `acc`. -/
theorem rounds_eq_runUntil (state : α → Env) (next : α → Value × Nat → α × Bool)
    {round : Env → Value → Option (Env × Bool)} {acc : α}
    (h : ∀ p ∈ visits next acc entries, round (state p.1) (.int p.2.2) =
      some (state (next p.1 p.2).1, (next p.1 p.2).2)) :
    rounds round (entries.map fun entry => .int entry.2) (state acc) =
      some (state (runUntil next acc entries)) := by
  induction entries generalizing acc with
  | nil => rfl
  | cons entry rest ih =>
    have hfirst := h (acc, entry) mem_cons_self
    rw [map_cons, rounds, hfirst, runUntil]
    change (if (next acc entry).2 = true then _ else _) = _
    cases hlast : (next acc entry).2 with
    | true => rfl
    | false =>
      refine ih fun p hp => h p (mem_cons_of_mem _ ?_)
      rwa [hlast]

/-! ## Callbacks -/

theorem ne_topic_of_isTemporary (h : IsTemporary name) : name ≠ "_" := by
  rintro rfl
  exact absurd h (by decide)

/-- The variables that generated code brings along: temporaries, and the current element. -/
def IsOwn (x : String × Shape) : Prop := IsTemporary x.1 ∨ x = ("_", .scalar)

/-- **An expression gives a result**, whatever hidden variables hold. -/
def Expr.Gives (other : Meaning) (hidden : String × Shape → Prop) (env : Env) (e : Expr)
    (result : Result) : Prop :=
  ∀ env', env.Agree hidden env' → e.result other env' = some result

/-- What an array is indexed by gives: its elements if it is a list variable, or else a reference to
it. -/
def arrayResult (base : Expr) (items : List Value) : Result :=
  if base.isListVar then .many items else .one (.array items)

theorem array?_arrayResult (base : Expr) (items : List Value) :
    (arrayResult base items).array? = some items := by
  unfold arrayResult
  split <;> rfl

theorem result_arrayRefTo {base : Expr} {items : List Value}
    (h : base.result other env = some (arrayResult base items)) :
    (arrayRefTo base).result other env = some (.one (.array items)) := by
  unfold arrayRefTo
  unfold arrayResult at h
  split
  · rename_i hvar
    rw [if_pos hvar] at h
    unfold isListVar at hvar
    split at hvar
    · rw [Expr.result] at h
      rw [unary, Expr.result]
      cases hlist : env.list? _ with
      | none => rw [hlist] at h; cases h
      | some found =>
        rw [hlist] at h
        cases h
        rfl
    · cases hvar
  · rwa [if_neg ‹_›] at h

/-- Parameters are declared one after the other, with arguments that do not depend on them. -/
theorem runStmts_parameters {names : List String} (known : List String) {exprs : List Expr}
    {args : List Value}
    (hnames : ∀ name ∈ names, name ∈ known ∧ name ≠ "_")
    (h : List.Forall₂ (fun e v => e.Gives other (·.1 ∈ known) env (.one v)) exprs args) :
    runStmts other env ((names.zip exprs).map fun pair => .my pair.1 .scalar (some pair.2)) =
      some (parameters names args ++ env, false) := by
  induction names generalizing env exprs args with
  | nil => rw [zip_nil_left, map_nil, runStmts]; rfl
  | cons name names ih =>
    cases h with
    | nil => rw [zip_nil_right, map_nil, runStmts]; rfl
    | @cons e v exprs args he hrest =>
      obtain ⟨hknown, hname⟩ := hnames name mem_cons_self
      have hadded : Agree (·.1 ∈ known) env (((name, .scalar), v) :: env) :=
        Agree.refl.prepend [_] (forall_mem_singleton.2 hknown)
      have hfirst : (my name .scalar (some e)).run other env =
          some (((name, .scalar), v) :: env, false) := run_my hname (he env .refl)
      rw [zip_cons_cons, map_cons, ← singleton_append,
        runStmts_append (runStmts_single hfirst),
        ih (fun n hn => hnames n (mem_cons_of_mem _ hn))
          (hrest.imp fun e v he env' henv' => he env' (hadded.trans henv')),
        parameters, parameters, zip_cons_cons, map_cons, reverse_cons,
        append_assoc]
      rfl

/-! ## Loops over indices -/

/-- A loop over the indices of an array in which the value of a callback has been put in place. The
array can be looked at in every round, and the value is that of the callback once its parameters
are declared. -/
structure IndexLoop (other : Meaning) (env : Env) (op : Iteration) where
  list : Expr
  index : String
  result : String
  names : List String
  value : Expr
  items : List Value
  f : List Value → Value
  first : Option Value
  /-- The variables around the loop, without that of the result. -/
  around : Env
  list_gives :
    list.Gives other (·.1 ∈ index :: result :: names) around (arrayResult list items)
  value_gives : ∀ args ∈ op.calls f items first,
    value.Gives other IsOwn (parameters names args ++ env) (.one (f args))
  around_agree : env.Agree IsOwn around
  index_temporary : IsTemporary index
  result_temporary : IsTemporary result
  index_ne : index ≠ result
  names_free : ∀ name ∈ names, ¬ IsTemporary name ∧ name ≠ "_"

namespace IndexLoop

variable {op : Iteration} (loop : IndexLoop other env op) {shape : Shape}
variable {acc : Value} {entry : Value × Nat}

def state (shape : Shape) (acc : Value) : Env := ((loop.result, shape), acc) :: loop.around

theorem length_state (acc acc' : Value) :
    (loop.state shape acc).length = (loop.state shape acc').length := rfl

def element : Expr := .index loop.list (.scalar loop.index)

def positional : List Expr :=
  (if op == .reduce then [.scalar loop.result] else []) ++
    [loop.element, .scalar loop.index, arrayRefTo loop.list]

def args (acc : Value) (entry : Value × Nat) : List Value :=
  (if op == .reduce then [acc] else []) ++ Iteration.arguments loop.items entry

/-- The variables of a round, once the parameters are declared. -/
def inner (acc : Value) (entry : Value × Nat) : Env :=
  parameters loop.names (loop.args acc entry) ++ [((loop.index, .scalar), .int entry.2)]

theorem args_mem_calls (acc : Value) (hop : op ≠ .reduce)
    (hentry : entry ∈ loop.items.zipIdx) :
    loop.args acc entry ∈ op.calls loop.f loop.items loop.first := by
  have hmem := mem_map_of_mem (f := Iteration.arguments loop.items) hentry
  cases op <;> first | exact hmem | exact absurd rfl hop

theorem inner_ne (acc : Value) (entry : Value × Nat) :
    ∀ p ∈ loop.inner acc entry, p.1 ≠ (loop.result, shape) := by
  intro p hp heq
  rcases mem_append.1 hp with hparam | hindex
  · have hname := mem_of_mem_parameters hparam
    rw [heq] at hname
    exact (loop.names_free _ hname).1 loop.result_temporary
  · rw [mem_singleton] at hindex
    rw [hindex] at heq
    exact loop.index_ne (congrArg Prod.fst heq)

/-- **In the round of an element a statement takes the result from one value to another**, and ends
the loop or not. -/
def Steps (shape : Shape) (entry : Value × Nat) (step : Stmt) (acc new : Value) (last : Bool) : Prop :=
  step.run other (loop.inner acc entry ++ loop.state shape acc) =
    some (loop.inner acc entry ++ loop.state shape new, last)

theorem leaving_inner (acc old new : Value) (entry : Value × Nat) :
    leaving (loop.inner acc entry ++ loop.state shape new)
        (loop.inner acc entry ++ loop.state shape old) =
      loop.inner acc entry ++ loop.state shape new :=
  leaving_append [] (by simp [state])

section Looking

variable {env' : Env} (h : Agree (·.1 ∈ loop.names)
  (((loop.index, .scalar), .int entry.2) :: loop.state shape acc) env')
include h

/-- The array can be looked at wherever only the variables of the loop have been added. -/
theorem result_list :
    loop.list.result other env' = some (arrayResult loop.list loop.items) := by
  refine loop.list_gives env' (.trans (Agree.refl.prepend [_, _] (forall_mem_cons.2
    ⟨mem_cons_self, forall_mem_singleton.2 ?_⟩)) (h.mono fun x hx => ?_))
  · exact mem_cons_of_mem _ mem_cons_self
  · exact mem_cons_of_mem _ (mem_cons_of_mem _ hx)

theorem result_index :
    (scalar loop.index).result other env' = some (.one (.int entry.2)) := by
  rw [Expr.scalar, Expr.result, h _ fun hname => (loop.names_free _ hname).1 loop.index_temporary,
    lookup_cons_self]
  rfl

theorem result_element (hentry : entry ∈ loop.items.zipIdx) :
    loop.element.result other env' = some (.one entry.1) := by
  have hitem : loop.items.getD entry.2 .undefined = entry.1 := by
    rw [getD_eq_getElem?_getD, mem_zipIdx_iff_getElem?.1 hentry]
    rfl
  rw [element, Expr.result, loop.result_list h, loop.result_index h]
  change ((arrayResult loop.list loop.items).array?.bind fun items =>
    if (0 : Int) ≤ (entry.2 : Int) then
      some (Result.one (items.getD ((entry.2 : Int).toNat) .undefined)) else none) = _
  rw [array?_arrayResult, Option.bind_some, if_pos (Int.natCast_nonneg _), Int.toNat_natCast, hitem]

end Looking

theorem runStmts_bindings
    (hentry : entry ∈ loop.items.zipIdx) (hshape : op = .reduce → shape = .scalar) :
    runStmts other (((loop.index, .scalar), .int entry.2) :: loop.state shape acc)
      ((loop.names.zip loop.positional).map fun pair => .my pair.1 .scalar (some pair.2)) =
      some (loop.inner acc entry ++ loop.state shape acc, false) := by
  have harguments : List.Forall₂ (fun e v => e.Gives other (·.1 ∈ loop.names)
      (((loop.index, .scalar), .int entry.2) :: loop.state shape acc) (.one v))
      [loop.element, .scalar loop.index, arrayRefTo loop.list]
      (Iteration.arguments loop.items entry) :=
    .cons (fun _ h => loop.result_element h hentry) <| .cons (fun _ h => loop.result_index h) <|
      .cons (fun _ h => result_arrayRefTo (loop.result_list h)) .nil
  have hall : List.Forall₂ (fun e v => e.Gives other (·.1 ∈ loop.names)
      (((loop.index, .scalar), .int entry.2) :: loop.state shape acc) (.one v))
      loop.positional (loop.args acc entry) := by
    unfold positional args
    cases hreduce : op == .reduce with
    | false => exact harguments
    | true =>
      -- The accumulator is the variable of the result.
      refine .cons (fun env' h => ?_) harguments
      obtain rfl := hshape (eq_of_beq hreduce)
      have hindex : (loop.result, Shape.scalar) ≠ (loop.index, .scalar) :=
        fun heq => loop.index_ne (congrArg Prod.fst heq).symm
      rw [Expr.scalar, Expr.result,
        h _ fun hname => (loop.names_free _ hname).1 loop.result_temporary,
        lookup_cons, beq_eq_false_iff_ne.2 hindex, state, lookup_cons_self]
      rfl
  rw [runStmts_parameters _ (fun name hname => ⟨hname, (loop.names_free name hname).2⟩) hall, inner,
    append_assoc]
  rfl

theorem result_value
    (hcall : loop.args acc entry ∈ op.calls loop.f loop.items loop.first) :
    loop.value.result other (loop.inner acc entry ++ loop.state shape acc) =
      some (.one (loop.f (loop.args acc entry))) := by
  refine loop.value_gives _ hcall _ ?_
  rw [inner, append_assoc]
  exact Agree.append _ (loop.around_agree.prepend [_, _] (forall_mem_cons.2
    ⟨.inl loop.index_temporary, forall_mem_singleton.2 (.inl loop.result_temporary)⟩))

theorem result_call (acc : Value) (hop : op ≠ .reduce)
    (hentry : entry ∈ loop.items.zipIdx) :
    loop.value.result other (loop.inner acc entry ++ loop.state shape acc) =
      some (.one (loop.f (Iteration.arguments loop.items entry))) := by
  rw [loop.result_value (loop.args_mem_calls acc hop hentry), args, beq_eq_false_iff_ne.2 hop]
  rfl

theorem agree_inner (shape : Shape) (acc : Value) (entry : Value × Nat) :
    Agree (·.1 ∈ loop.names)
      (((loop.index, .scalar), .int entry.2) :: loop.state shape acc)
      (loop.inner acc entry ++ loop.state shape acc) := by
  rw [inner, append_assoc]
  exact Agree.refl.prepend _ fun x hx => mem_of_mem_parameters hx

def body (step : Stmt) : List Stmt :=
  (loop.names.zip loop.positional).map (fun pair => .my pair.1 .scalar (some pair.2)) ++ [step]

/-- **The loop goes from one element to the next** as its step does. -/
theorem run_foreach {α : Type} {embed : α → Value} {next : α → Value × Nat → α × Bool} {step : Stmt}
    {first : Nat} {acc : α}
    (hfirst : ∀ env, (int first).result other env = some (.one (.int first)))
    (hshape : op = .reduce → shape = .scalar)
    (hstep : ∀ p ∈ visits next acc (loop.items.zipIdx.drop first),
      loop.Steps shape p.2 step (embed p.1) (embed (next p.1 p.2).1) (next p.1 p.2).2) :
    (plain (.foreach none loop.index (indicesFrom first loop.list) (loop.body step))).run other
        (loop.state shape (embed acc)) =
      some (loop.state shape (embed (runUntil next acc (loop.items.zipIdx.drop first))), false) := by
  have hlist : loop.list.result other (loop.state shape (embed acc)) =
      some (arrayResult loop.list loop.items) :=
    loop.list_gives _ (Agree.refl.prepend [_]
      (forall_mem_singleton.2 (mem_cons_of_mem _ mem_cons_self)))
  have hrange : (indicesFrom first loop.list).result other (loop.state shape (embed acc)) =
      some (.many ((loop.items.zipIdx.drop first).map fun entry => .int entry.2)) := by
    rw [indicesFrom, binary, Expr.result, hfirst, Expr.result, hlist]
    change ((arrayResult loop.list loop.items).array?.bind fun items =>
      some (Result.one (.int (items.length - 1)))).bind _ = _
    rw [array?_arrayResult]
    exact congrArg (fun values => some (Result.many values)) (integersBetween_eq first loop.items)
  rw [plain, run, StmtKind.run, hrange]
  change ((rounds _ ((loop.items.zipIdx.drop first).map fun entry => .int entry.2)
    (loop.state shape (embed acc))).bind fun env => some (env, false)) = _
  rw [rounds_eq_runUntil (fun acc => loop.state shape (embed acc)) next ?_]
  · rfl
  · intro p hp
    have hentry := mem_of_mem_drop (mem_of_mem_visits hp)
    rw [body, runStmts_append (loop.runStmts_bindings hentry hshape), runStmts_single (hstep p hp)]
    have hleaving : (loop.inner (embed p.1) p.2 ++ loop.state shape (embed (next p.1 p.2).1)).leaving
        (loop.state shape (embed p.1)) = loop.state shape (embed (next p.1 p.2).1) :=
      leaving_append _ (loop.length_state _ _)
    change some (leaving _ _, _) = _
    rw [hleaving]

theorem steps_set {value : Value}
    (h : e.result other (loop.inner acc entry ++ loop.state .scalar acc) = some (.one value)) :
    loop.Steps .scalar entry (.setScalar loop.result e) acc value false := by
  rw [Steps, run_setScalar h, state, assign_append (loop.inner_ne _ entry)]
  rfl

theorem steps_keep {value : Value} {acc : List Value}
    (h : e.result other (loop.inner (.array acc) entry ++ loop.state .list (.array acc)) =
      some (.one value)) :
    loop.Steps .list entry (.ofExpr (.call "push" [.var loop.result .list, e])) (.array acc)
      (.array (acc ++ [value])) false := by
  have hlist : (loop.inner (.array acc) entry ++ loop.state .list (.array acc)).list? loop.result =
      some acc := by
    rw [list?, state, lookup_append_cons (loop.inner_ne _ entry)]
  rw [Steps, run_push hlist h, state, assign_append (loop.inner_ne _ entry)]
  rfl

theorem steps_found {cond : Expr} {value test : Value}
    (hcond : cond.result other (loop.inner acc entry ++ loop.state .scalar acc) = some (.one test))
    (h : e.result other (loop.inner acc entry ++ loop.state .scalar acc) = some (.one value)) :
    loop.Steps .scalar entry (.when cond [.setScalar loop.result e, .plain (.jump .last none)]) acc
      (if isTrue test then value else acc) (isTrue test) := by
  have hlast : (plain (.jump .last none)).run other
      (loop.inner acc entry ++ loop.state .scalar value) =
      some (loop.inner acc entry ++ loop.state .scalar value, true) := by
    rw [plain, run, StmtKind.run]
  rw [Steps, run_when hcond, ← singleton_append,
    runStmts_append (runStmts_single (loop.steps_set h)), runStmts_single hlast]
  change (if isTrue test = true then some (leaving _ _, true) else _) = _
  rw [loop.leaving_inner]
  cases isTrue test <;> rfl

/-! ### What the loops come to -/

/-- The loop with its step, between the declaration of the result and its use. -/
theorem bodyResult_loop (embed : α → Value) (next : α → Value × Nat → α × Bool)
    (first : Nat) (acc : α) {decl : Stmt} (step : Stmt) (final : Expr)
    (hfirst : ∀ env, (int first).result other env = some (.one (.int first)))
    (hshape : op = .reduce → shape = .scalar)
    (hdecl : decl.run other loop.around = some (loop.state shape (embed acc), false))
    (hstep : ∀ p ∈ visits next acc (loop.items.zipIdx.drop first),
      loop.Steps shape p.2 step (embed p.1) (embed (next p.1 p.2).1) (next p.1 p.2).2) :
    bodyResult other loop.around [decl,
        .plain (.foreach none loop.index (indicesFrom first loop.list) (loop.body step)),
        .ofExpr final] =
      final.result other
        (loop.state shape (embed (runUntil next acc (loop.items.zipIdx.drop first)))) := by
  rw [bodyResult_cons hdecl, bodyResult_cons (loop.run_foreach hfirst hshape hstep),
    bodyResult_ofExpr]

theorem run_declare : (my loop.result .list none).run other loop.around =
      some (loop.state .list (.array []), false) ∧
    (my loop.result .scalar none).run other loop.around =
      some (loop.state .scalar .undefined, false) := by
  have hname := ne_topic_of_isTemporary loop.result_temporary
  constructor <;> simp [my, plain, run, StmtKind.run, Env.declare, hname, state] <;> rfl

theorem bodyResult_collect {g : Value × Nat → List Value} {step : Stmt} (hop : op ≠ .reduce)
    (hstep : ∀ acc, ∀ entry ∈ loop.items.zipIdx,
      loop.Steps .list entry step (.array acc) (.array (acc ++ g entry)) false) :
    bodyResult other loop.around [.my loop.result .list none,
        .plain (.foreach none loop.index (indicesFrom 0 loop.list) (loop.body step)),
        .ofExpr (unary .ref (.var loop.result .list))] =
      some (.one (.array (loop.items.zipIdx.flatMap g))) := by
  have hrun := loop.bodyResult_loop Value.array (fun acc entry => (acc ++ g entry, false)) 0 [] step
    (unary .ref (.var loop.result .list)) (fun _ => rfl) (absurd · hop) loop.run_declare.1
    fun p hp => hstep p.1 p.2 (mem_of_mem_visits hp)
  rw [Int.natCast_zero, drop_zero, runUntil_eq_foldl fun _ _ _ => rfl,
    foldl_append_eq_append, nil_append, ← flatMap_def] at hrun
  rw [hrun, unary, Expr.result, list?, state, lookup_cons_self]
  rfl

/-- A search gives the value for the first element whose test is true, or else what it starts
from. -/
theorem bodyResult_find {test : Value × Nat → Value} {g : Value × Nat → Value} {start : Value}
    {decl : Stmt} {cond e : Expr} (hop : op ≠ .reduce)
    (hdecl : decl.run other loop.around = some (loop.state .scalar start, false))
    (hcond : ∀ acc, ∀ entry ∈ loop.items.zipIdx,
      cond.result other (loop.inner acc entry ++ loop.state .scalar acc) = some (.one (test entry)))
    (h : ∀ acc, ∀ entry ∈ loop.items.zipIdx,
      e.result other (loop.inner acc entry ++ loop.state .scalar acc) = some (.one (g entry))) :
    bodyResult other loop.around [decl,
        .plain (.foreach none loop.index (indicesFrom 0 loop.list)
          (loop.body (.when cond [.setScalar loop.result e, .plain (.jump .last none)]))),
        .ofExpr (.scalar loop.result)] =
      some (.one (((loop.items.zipIdx.find? fun entry => isTrue (test entry)).map g).getD start)) := by
  have hrun := loop.bodyResult_loop id
    (fun acc entry => (if isTrue (test entry) then g entry else acc, isTrue (test entry))) 0 start _
    (.scalar loop.result) (fun _ => rfl) (absurd · hop) hdecl fun p hp =>
      loop.steps_found (hcond p.1 p.2 (mem_of_mem_visits hp)) (h p.1 p.2 (mem_of_mem_visits hp))
  rw [Int.natCast_zero, drop_zero, runUntil_eq_find? fun entry _ => show _ =
    if isTrue (test entry) then (g entry, true) else (start, false) by
      cases isTrue (test entry) <;> rfl] at hrun
  rw [hrun, Expr.scalar, Expr.result, state, lookup_cons_self]
  rfl

theorem bodyResult_accumulate (first : Nat) {start : Value} {decl : Stmt} (hop : op = .reduce)
    (hfirst : ∀ env, (int first).result other env = some (.one (.int first)))
    (hdecl : decl.run other loop.around = some (loop.state .scalar start, false))
    (hcalls : op.calls loop.f loop.items loop.first =
      accumulatingCalls loop.f loop.items start (loop.items.zipIdx.drop first)) :
    bodyResult other loop.around [decl,
        .plain (.foreach none loop.index (indicesFrom first loop.list)
          (loop.body (.setScalar loop.result loop.value))),
        .ofExpr (.scalar loop.result)] =
      some (.one ((loop.items.zipIdx.drop first).foldl
        (accumulate loop.f loop.items) start)) := by
  subst hop
  have hrun := loop.bodyResult_loop id
    (fun acc entry => (accumulate loop.f loop.items acc entry, false)) first start
    (.setScalar loop.result loop.value) (.scalar loop.result) hfirst (fun _ => rfl) hdecl fun p hp => by
      refine loop.steps_set (loop.result_value ?_)
      rw [hcalls]
      exact mem_accumulatingCalls hp
  rw [runUntil_eq_foldl fun _ _ _ => rfl] at hrun
  rw [hrun, Expr.scalar, Expr.result, state, lookup_cons_self]
  rfl

/-! ### The result of an iteration -/

theorem run_start {value : Value} (h : e.result other loop.around = some (.one value)) :
    (my loop.result .scalar (some e)).run other loop.around =
      some (loop.state .scalar value, false) :=
  run_my (ne_topic_of_isTemporary loop.result_temporary) h

theorem steps_filter {acc : List Value} (hop : op = .filter)
    (hentry : entry ∈ loop.items.zipIdx) :
    loop.Steps .list entry
      (.when loop.value [.ofExpr (.call "push" [.var loop.result .list, loop.element])]) (.array acc)
      (.array (acc ++
        if isTrue (loop.f (Iteration.arguments loop.items entry)) then [entry.1] else [])) false := by
  subst hop
  have hkeep := loop.steps_keep (loop.result_element (loop.agree_inner _ (.array acc) _) hentry)
  rw [Steps, run_when (loop.result_call _ noConfusion hentry), runStmts_single hkeep]
  change (if isTrue (loop.f (Iteration.arguments loop.items entry)) = true then
    some (leaving _ _, false) else _) = _
  rw [loop.leaving_inner]
  cases isTrue (loop.f (Iteration.arguments loop.items entry)) with
  | true => rfl
  | false => rw [if_neg Bool.false_ne_true, if_neg Bool.false_ne_true, append_nil]

/-- What an iteration starts from, and the index that it starts at. -/
def startOf (initial : Option Expr) : Option Expr × Int :=
  match op, initial with
  | .reduce, some initial => (some initial, 0)
  | .reduce, none => (some (.index loop.list (.int 0)), 1)
  | .any, _ => (some (.int 0), 0)
  | .all, _ => (some (.int 1), 0)
  | .findIndex, _ => (some (.int (-1)), 0)
  | _, _ => (none, 0)

/-- The statements of an iteration: the declaration of the result, the loop, and the result. -/
def stmts (initial : Option Expr) : List Stmt :=
  [if collects op then .my loop.result .list none
    else .my loop.result .scalar (loop.startOf initial).1,
    .plain (.foreach none loop.index (indicesFrom (loop.startOf initial).2 loop.list)
      (loop.body
        (iterationStep op loop.result loop.element (.scalar loop.index) loop.value))),
    .ofExpr (if collects op then unary .ref (.var loop.result .list) else .scalar loop.result)]

end IndexLoop

theorem result_int_zero (env : Env) : (int 0).result other env = some (.one (.int 0)) := rfl

theorem result_int_one (env : Env) : (int 1).result other env = some (.one (.int 1)) := rfl

theorem flatMap_ite_eq_filter {l : List α} {test test' : α → Bool} {g : α → β}
    (h : ∀ a ∈ l, test a = test' a) :
    l.flatMap (fun a => if test a then [g a] else []) = (l.filter test').map g := by
  induction l with
  | nil => rfl
  | cons a l ih =>
    rw [flatMap_cons, h a mem_cons_self, ih fun a ha => h a (mem_cons_of_mem _ ha),
      filter_cons]
    cases test' a <;> rfl

theorem getD_find? (l : List α) (test : α → Bool) (found start : Value) :
    ((l.find? test).map fun _ => found).getD start = if l.any test then found else start := by
  induction l with
  | nil => rfl
  | cons a l ih => cases htest : test a <;> simp_all

theorem isTrue_ite (b : Bool) : isTrue (if b then .int 1 else .int 0) = b ∧
    isTrue (if b then .int 0 else .int 1) = !b := by
  cases b <;> exact ⟨rfl, rfl⟩

/-- What generated code gives for an iteration. The results of tests are only asked for their
truth. -/
def IsResultOf (op : Iteration) (value expected : Value) : Prop :=
  match op with
  | .any | .all => isTrue value = expected.isTruthy
  | _ => value = expected

/-- **The loop over the indices gives what the iteration computes**, if the values of a test are
true in Perl just when they are in the program. -/
theorem IndexLoop.exists_bodyResult {op : Iteration} (loop : IndexLoop other env op)
    {initial : Option Expr} {expected : Value} (hop : op ≠ .forEach)
    (hinitial : Option.Rel (fun e v => e.result other loop.around = some (.one v)) initial loop.first)
    (htruth : op.isTest = true → ∀ entry ∈ loop.items.zipIdx,
      isTrue (loop.f (Iteration.arguments loop.items entry)) =
        Iteration.holds loop.f loop.items entry)
    (hexpected : op.result loop.f loop.items loop.first = some expected) :
    ∃ value, bodyResult other loop.around (loop.stmts initial) = some (.one value) ∧
      IsResultOf op value expected := by
  cases op with
  | forEach => exact absurd rfl hop
  | map =>
    refine ⟨_, loop.bodyResult_collect Iteration.noConfusion
      (g := fun entry => [loop.f (Iteration.arguments loop.items entry)]) fun acc entry hentry =>
        loop.steps_keep (loop.result_call _ Iteration.noConfusion hentry), ?_⟩
    rw [← Option.some.inj hexpected]
    exact congrArg Value.array (map_eq_flatMap ..).symm
  | filter =>
    refine ⟨_, loop.bodyResult_collect Iteration.noConfusion fun acc entry hentry =>
      loop.steps_filter rfl hentry, ?_⟩
    rw [← Option.some.inj hexpected]
    exact congrArg Value.array (flatMap_ite_eq_filter (htruth rfl))
  | any =>
    refine ⟨_, loop.bodyResult_find (g := fun _ => .int 1) Iteration.noConfusion
      (loop.run_start (result_int_zero _)) (fun acc _ => loop.result_call acc Iteration.noConfusion)
      fun _ _ _ => result_int_one _, ?_⟩
    rw [← Option.some.inj hexpected, find?_congr (htruth rfl), getD_find?]
    exact (isTrue_ite _).1
  | all =>
    have hnot (acc : Value) (entry : Value × Nat) (hentry : entry ∈ loop.items.zipIdx) :
        (not loop.value).result other (loop.inner acc entry ++ loop.state .scalar acc) =
          some (.one (.bool (!Iteration.holds loop.f loop.items entry))) := by
      rw [← htruth rfl entry hentry, not, unary, Expr.result,
        loop.result_call acc Iteration.noConfusion hentry]
      rfl
    refine ⟨_, loop.bodyResult_find (g := fun _ => .int 0) Iteration.noConfusion
      (loop.run_start (result_int_one _)) hnot fun _ _ _ => result_int_zero _, ?_⟩
    rw [← Option.some.inj hexpected, getD_find?]
    exact (isTrue_ite _).2.trans all_eq_not_any_not.symm
  | find =>
    refine ⟨_, loop.bodyResult_find (g := (·.1)) Iteration.noConfusion loop.run_declare.2
      (fun acc _ => loop.result_call acc Iteration.noConfusion)
      fun acc _ => loop.result_element (loop.agree_inner _ acc _), ?_⟩
    rw [find?_congr (htruth rfl)]
    exact Option.some.inj hexpected
  | findIndex =>
    refine ⟨_, loop.bodyResult_find (g := fun entry => .int entry.2) Iteration.noConfusion
      (loop.run_start (show (Expr.int (-1)).result other _ = some (.one (.int (-1))) from rfl))
      (fun acc _ => loop.result_call acc Iteration.noConfusion)
      fun acc _ _ => loop.result_index (loop.agree_inner _ acc _), ?_⟩
    rw [find?_congr (htruth rfl)]
    exact Option.some.inj hexpected
  | reduce =>
    generalize hfirst : loop.first = first at hinitial hexpected
    cases hinitial with
    | @some e v h =>
      refine ⟨_, loop.bodyResult_accumulate 0 rfl result_int_zero (loop.run_start h) ?_,
        Option.some.inj hexpected⟩
      rw [hfirst]
      rfl
    | none =>
      -- The first element is what the loop over the others starts from.
      cases hitems : loop.items with
      | nil =>
        rw [hitems] at hexpected
        exact nomatch hexpected
      | cons x rest =>
        have hlist := loop.list_gives loop.around .refl
        have hstart : (Expr.index loop.list (.int 0)).result other loop.around = some (.one x) := by
          rw [Expr.result, hlist, result_int_zero]
          change ((arrayResult loop.list loop.items).array?.bind fun items =>
            some (Result.one (items.getD 0 .undefined))) = _
          rw [array?_arrayResult, hitems]
          rfl
        refine ⟨_, loop.bodyResult_accumulate 1 rfl result_int_one
          (loop.run_start hstart) ?_, ?_⟩
        · rw [hfirst, hitems]
          rfl
        · rw [hitems] at hexpected
          rw [hitems]
          exact Option.some.inj hexpected

/-! ## Blocks -/

theorem mapM_eq_some_zipIdx {l : List α} {g : α → Option β} {h : α × Nat → β} (k : Nat)
    (hg : ∀ entry ∈ l.zipIdx k, g entry.1 = some (h entry)) :
    l.mapM g = some ((l.zipIdx k).map h) := by
  induction l generalizing k with
  | nil => rfl
  | cons a l ih =>
    rw [mapM_cons, hg (a, k) mem_cons_self,
      ih (k + 1) fun entry hentry => hg entry (mem_cons_of_mem _ hentry)]
    rfl

/-- A block whose variables are set to the current element, with the value of a callback. -/
def elementBlock (blockOp : BlockListOp) (names : List String) (value list : Expr) : Expr :=
  .blockList blockOp ((names.zip [current]).map fun pair => .my pair.1 .scalar (some pair.2)) value
    list

variable {names : List String} {value list : Expr} {items : List Value} {f : List Value → Value}

theorem runStmts_elementBlock (item : Value) (hnames : ∀ name ∈ names, name ≠ "_") :
    runStmts other ((("_", .scalar), item) :: env)
        ((names.zip [current]).map fun pair => .my pair.1 .scalar (some pair.2)) =
      some (parameters names [item] ++ (("_", .scalar), item) :: env, false) := by
  refine runStmts_parameters names (fun name hname => ⟨hname, hnames name hname⟩)
    (.cons (fun env' henv' => ?_) .nil)
  rw [current, Expr.scalar, Expr.result, henv' _ fun hname => hnames _ hname rfl,
    lookup_cons_self]
  rfl

theorem parameters_arguments (hlength : names.length ≤ 1) (entry : Value × Nat) :
    parameters names (Iteration.arguments items entry) = parameters names [entry.1] := by
  match names, hlength with
  | [], _ => rfl
  | [_], _ => rfl

/-- **A block function is applied to the values of the callback.** -/
theorem result_elementBlock (blockOp : BlockListOp) {r : Result}
    (hnames : ∀ name ∈ names, name ≠ "_") (hlength : names.length ≤ 1)
    (hvalue : ∀ entry ∈ items.zipIdx, value.Gives other IsOwn
      (parameters names (Iteration.arguments items entry) ++ env)
      (.one (f (Iteration.arguments items entry))))
    (hlist : list.result other env = some r) (hitems : r.toList = items) :
    (elementBlock blockOp names value list).result other env =
      blockOp.apply
        (items.zipIdx.map fun entry => (entry.1, f (Iteration.arguments items entry))) := by
  rw [elementBlock, Expr.result, hlist]
  change (mapM (m := Option) _ r.toList).bind _ = _
  rw [hitems, mapM_eq_some_zipIdx
    (h := fun entry => (entry.1, f (Iteration.arguments items entry))) 0 fun entry hentry => ?_]
  · rfl
  · have hgives := hvalue entry hentry
      (parameters names [entry.1] ++ (("_", .scalar), entry.1) :: env)
    rw [parameters_arguments hlength] at hgives
    rw [runStmts_elementBlock entry.1 hnames]
    change ((value.result other _).bind fun r => r.one?.bind fun v => some (entry.1, v)) = _
    rw [hgives (.append _ (Agree.refl.prepend [_] (forall_mem_singleton.2 (.inr rfl))))]
    rfl

/-- **A block function gives what the iteration computes**, if the values of a test are true in Perl
just when they are in the program. -/
theorem exists_result_elementBlock {op : Iteration} {blockOp : BlockListOp} {r : Result}
    {first : Option Value} {expected : Value} (hop : blockOp? op = some blockOp)
    (hnames : ∀ name ∈ names, name ≠ "_") (hlength : names.length ≤ 1)
    (hvalue : ∀ args ∈ op.calls f items first,
      value.Gives other IsOwn (parameters names args ++ env) (.one (f args)))
    (hlist : list.result other env = some r) (hitems : r.toList = items)
    (htruth : op.isTest = true → ∀ entry ∈ items.zipIdx,
      isTrue (f (Iteration.arguments items entry)) = holds f items entry)
    (hexpected : op.result f items first = some expected) :
    ∃ found, (if collects op then .arrayRef [elementBlock blockOp names value list]
        else elementBlock blockOp names value list : Expr).result other env = some (.one found) ∧
      IsResultOf op found expected := by
  have hentries : ∀ entry ∈ items.zipIdx,
      Iteration.arguments items entry ∈ op.calls f items first := by
    intro entry hentry
    have hmem := mem_map_of_mem (f := Iteration.arguments items) hentry
    cases op <;> first | exact hmem | cases hop
  have happly := result_elementBlock blockOp hnames hlength
    (fun entry hentry => hvalue _ (hentries entry hentry)) hlist hitems
  have htest (htest : op.isTest = true) : ∀ entry ∈ items.zipIdx,
      ((fun pair : Value × Value => isTrue pair.2) ∘
        fun entry => (entry.1, f (Iteration.arguments items entry))) entry =
      holds f items entry := htruth htest
  cases op with
  | forEach | findIndex | reduce => cases hop
  | map =>
    cases hop
    refine ⟨.array (items.zipIdx.map fun entry => f (Iteration.arguments items entry)), ?_,
      Option.some.inj hexpected⟩
    change (arrayRef [_]).result other env = _
    rw [Expr.result, itemsResult, happly, BlockListOp.apply, map_map, itemsResult]
    exact congrArg (fun l => some (Result.one (.array l))) (append_nil _)
  | filter =>
    cases hop
    refine ⟨.array ((items.zipIdx.filter (holds f items)).map Prod.fst), ?_,
      Option.some.inj hexpected⟩
    change (arrayRef [_]).result other env = _
    rw [Expr.result, itemsResult, happly, BlockListOp.apply, filter_map, map_map,
      filter_congr (htest rfl), itemsResult]
    exact congrArg (fun l => some (Result.one (.array l))) (append_nil _)
  | any =>
    cases hop
    refine ⟨_, happly, ?_⟩
    have hvalues := congrArg (any · id) (map_congr_left (htest rfl))
    rw [← Option.some.inj hexpected, any_map]
    rwa [any_map, any_map] at hvalues
  | all =>
    cases hop
    refine ⟨_, happly, ?_⟩
    have hvalues := congrArg (all · id) (map_congr_left (htest rfl))
    rw [← Option.some.inj hexpected, all_map]
    rwa [all_map, all_map] at hvalues
  | find =>
    cases hop
    refine ⟨_, happly, ?_⟩
    rw [← Option.some.inj hexpected, find?_map, find?_congr (htest rfl), Option.map_map]
    rfl

end Scriptgen.Perl
