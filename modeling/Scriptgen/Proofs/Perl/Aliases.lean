import Scriptgen.Proofs.Slices
/-!
# Loops over the elements of an array

The variable of a Perl loop over the elements of an array stands for the element: what the body
assigns to it is in the array afterwards. The variable of a loop over any other list, such as the
indices of an array, stands for a value of its own. `runForeach` runs loops so, whatever runs their
bodies.

A loop over an array variable is lowered to a loop of the first kind, and so is a `forEach` whose
callback takes the element alone; with the position, the callback gets a copy of the element from a
loop of the second kind.
-/

namespace Scriptgen.Perl

open Lowering Option List

/-! ## Running a loop -/

/-- How the body of a loop is run. It says too whether the loop is left, and gives nothing where the
body does not come to its end. -/
abbrev Execution := Env → List Stmt → Option (Env × Bool)

/-- What the variable of a loop held at the beginning and at the end of each round. -/
abbrev Trace := List (Value × Value)

/-- The variable whose elements a list is, if it is the elements of one. -/
def elementsOf? : Expr → Option (String × Shape)
  | .var name .list => some (name, .list)
  | .deref (.var name .scalar) .list => some (name, .scalar)
  | _ => none

def Env.array? (env : Env) (x : String × Shape) : Option (List Value) :=
  match env.lookup x with
  | some (.array items) => some items
  | _ => none

/-- Runs one round: the variable holds a value at its beginning, and something at its end. What the
body declared is taken off. -/
def round (exec : Execution) (var : String) (body : List Stmt) (env : Env) (held : Value) :
    Option (Value × Env × Bool) := do
  let entered := ((var, .scalar), held) :: env
  let (inner, last) ← exec entered body
  match inner.leaving entered with
  | (_, left) :: outer => some (left, outer, last)
  | [] => none

def copyRounds (exec : Execution) (var : String) (body : List Stmt) :
    List Value → Env → Option (Trace × Env)
  | [], env => some ([], env)
  | held :: rest, env => do
    let (left, env, last) ← round exec var body env held
    if last then return ([(held, left)], env)
    let (trace, env) ← copyRounds exec var body rest env
    return ((held, left) :: trace, env)

/-- Runs the rounds of a loop over the elements of an array from a position on. What the variable
holds at the end of a round is the element then. -/
def aliasRounds (exec : Execution) (array : String × Shape) (var : String) (body : List Stmt) :
    Nat → Nat → Env → Option (Trace × Env)
  | 0, _, env => some ([], env)
  | count + 1, i, env => do
    match (← env.array? array)[i]? with
    | none => return ([], env)
    | some held =>
      let (left, env, last) ← round exec var body env held
      let items ← env.array? array
      let env ← env.assign array (.array (items.set i left))
      if last then return ([(held, left)], env)
      let (trace, env) ← aliasRounds exec array var body count (i + 1) env
      return ((held, left) :: trace, env)

def runForeach (exec : Execution) (other : Meaning) (var : String) (list : Expr) (body : List Stmt)
    (env : Env) : Option (Trace × Env) :=
  match elementsOf? list with
  | some array => do aliasRounds exec array var body (← env.array? array).length 0 env
  | none => do copyRounds exec var body (← list.result other env).toList env

/-! ## What a loop leaves in an array -/

/-- A body writes no array: what it does apart from its own variables leaves the array of a
variable, and the variables around it, where they are. -/
def WritesNot (exec : Execution) (array : String × Shape) (var : String) (body : List Stmt) : Prop :=
  ∀ env held left outer last, round exec var body env held = some (left, outer, last) →
    outer.lookup array = env.lookup array

def Ends (exec : Execution) (var : String) (body : List Stmt) : Prop :=
  ∀ env held, (round exec var body env held).isSome

variable {exec : Execution} {other : Meaning} {array : String × Shape} {var : String}
variable {body : List Stmt} {env env' : Env} {items : List Value} {trace : Trace}

theorem Env.array?_eq_some : env.array? array = some items ↔ env.lookup array = some (.array items) := by
  unfold Env.array?
  cases env.lookup array with
  | none => simp
  | some value => cases value <;> simp

/-- A variable that can be seen can be assigned, and has the value then. -/
theorem Env.exists_assign {x : String × Shape} {old : Value} (value : Value)
    (h : env.lookup x = some old) :
    ∃ env', env.assign x value = some env' ∧ env'.lookup x = some value := by
  induction env with
  | nil => simp at h
  | cons entry rest ih =>
    obtain ⟨y, held⟩ := entry
    by_cases hxy : x = y
    · subst hxy
      exact ⟨(x, value) :: rest, by rw [Env.assign, if_pos rfl], by simp⟩
    · have hne : (x == y) = false := by simpa using hxy
      rw [lookup_cons, hne] at h
      obtain ⟨env', hassign, hlookup⟩ := ih h
      refine ⟨(y, held) :: env', by rw [Env.assign, if_neg hxy, hassign]; rfl, ?_⟩
      rw [lookup_cons, hne]
      exact hlookup

theorem lookup_copyRounds (hbody : WritesNot exec array var body) {values : List Value}
    (h : copyRounds exec var body values env = some (trace, env')) :
    env'.lookup array = env.lookup array := by
  induction values generalizing env trace with
  | nil =>
    simp only [copyRounds, some.injEq, Prod.mk.injEq] at h
    rw [← h.2]
  | cons held rest ih =>
    rw [copyRounds] at h
    obtain ⟨⟨left, outer, last⟩, hround, h⟩ := bind_eq_some_iff.1 h
    have hkept := hbody env held left outer last hround
    cases last with
    | true =>
      obtain ⟨-, rfl⟩ := by simpa using h
      exact hkept
    | false =>
      obtain ⟨⟨trace', env''⟩, hrest, h⟩ := bind_eq_some_iff.1 h
      obtain ⟨-, rfl⟩ := by simpa using h
      exact (ih hrest).trans hkept

theorem isSome_copyRounds (hbody : Ends exec var body) (values : List Value) (env : Env) :
    (copyRounds exec var body values env).isSome := by
  induction values generalizing env with
  | nil => rfl
  | cons held rest ih =>
    obtain ⟨⟨left, outer, last⟩, hround⟩ := isSome_iff_exists.1 (hbody env held)
    obtain ⟨⟨trace, env'⟩, hrest⟩ := isSome_iff_exists.1 (ih outer)
    rw [copyRounds, hround]
    cases last with
    | true => rfl
    | false =>
      change ((copyRounds exec var body rest outer).bind _).isSome
      rw [hrest]
      rfl

variable {count i : Nat} {list : Expr}

theorem aliasRounds_end (harray : env.lookup array = some (.array items))
    (hi : items.length ≤ i) : aliasRounds exec array var body count i env = some ([], env) := by
  cases count with
  | zero => rfl
  | succ count =>
    rw [aliasRounds, Env.array?_eq_some.2 harray]
    simp only [bind_eq_bind, bind_some, getElem?_eq_none hi]
    rfl

variable (hbody : WritesNot exec array var body)

include hbody

/-- **One round of a loop over an array.** The variable holds the element at first, and what it holds
at the end is the element from then on. -/
theorem aliasRounds_step (count : Nat) {held : Value}
    (harray : env.lookup array = some (.array items)) (hheld : items[i]? = some held)
    {left : Value} {outer : Env} {last : Bool}
    (hround : round exec var body env held = some (left, outer, last)) :
    ∃ env', env'.lookup array = some (.array (items.set i left)) ∧
      aliasRounds exec array var body (count + 1) i env =
        if last then some ([(held, left)], env')
        else (aliasRounds exec array var body count (i + 1) env').map fun run =>
          ((held, left) :: run.1, run.2) := by
  have houter : outer.lookup array = some (.array items) :=
    (hbody env held left outer last hround).trans harray
  obtain ⟨env', hassign, hlookup⟩ := Env.exists_assign (.array (items.set i left)) houter
  refine ⟨env', hlookup, ?_⟩
  rw [aliasRounds, Env.array?_eq_some.2 harray]
  simp only [bind_eq_bind, bind_some, hheld, hround, Env.array?_eq_some.2 houter,
    hassign]
  cases last with
  | true => rfl
  | false =>
    simp only [Bool.false_eq_true, if_false]
    cases aliasRounds exec array var body count (i + 1) env' <;> rfl

/-- **What a loop over an array leaves in it.** Round after round the variable holds the elements
that the array had, and the array has in their place what the variable held at the end. -/
theorem lookup_aliasRounds (harray : env.lookup array = some (.array items))
    (h : aliasRounds exec array var body count i env = some (trace, env')) :
    trace.map Prod.fst = (items.drop i).take trace.length ∧
      env'.lookup array =
        some (.array (items.take i ++ trace.map Prod.snd ++ items.drop (i + trace.length))) := by
  -- The invariant: before a position the array holds what the rounds left, from it on what it had.
  induction count generalizing i env items trace with
  | zero =>
    simp only [aliasRounds, some.injEq, Prod.mk.injEq] at h
    obtain ⟨rfl, rfl⟩ := h
    simpa using harray
  | succ count ih =>
    by_cases hi : i < items.length
    · have hheld : items[i]? = some items[i] := getElem?_eq_getElem hi
      obtain ⟨⟨left, outer, last⟩, hround⟩ : ∃ r, round exec var body env items[i] = some r := by
        rw [aliasRounds, Env.array?_eq_some.2 harray] at h
        simp only [bind_eq_bind, bind_some, hheld] at h
        obtain ⟨r, hround, -⟩ := bind_eq_some_iff.1 h
        exact ⟨r, hround⟩
      obtain ⟨env₁, hlookup, hstep⟩ := aliasRounds_step hbody count harray hheld hround
      have hdrop (k : Nat) : (items.set i left).drop (i + 1 + k) = items.drop (i + (k + 1)) := by
        rw [drop_set_of_lt (by omega), show i + 1 + k = i + (k + 1) by omega]
      have htake : (items.set i left).take (i + 1) = items.take i ++ [left] := by
        rw [take_add_one, take_set_of_le (Nat.le_refl i)]
        simp [hi]
      rw [hstep] at h
      cases last with
      | true =>
        obtain ⟨rfl, rfl⟩ : [(items[i], left)] = trace ∧ env₁ = env' := by simpa using h
        refine ⟨by simp [take_one, hi], ?_⟩
        have hset := take_append_drop (i + 1) (items.set i left)
        rw [htake, hdrop 0] at hset
        rw [hlookup, ← hset]
        rfl
      | false =>
        obtain ⟨⟨rest, last⟩, hrest, hpair⟩ := map_eq_some_iff.1 h
        obtain ⟨rfl, rfl⟩ : (items[i], left) :: rest = trace ∧ last = env' := by simpa using hpair
        obtain ⟨hfirst, hlast⟩ := ih hlookup hrest
        have h0 : (items.set i left).drop (i + 1) = items.drop (i + 1) := hdrop 0
        rw [h0] at hfirst
        rw [htake, hdrop] at hlast
        refine ⟨?_, ?_⟩
        · rw [map_cons, hfirst, drop_eq_getElem_cons hi]
          rfl
        · rw [hlast]
          simp
    · rw [aliasRounds_end harray (by omega)] at h
      obtain ⟨rfl, rfl⟩ : [] = trace ∧ env = env' := by simpa using h
      simpa using harray

theorem isSome_aliasRounds (hends : Ends exec var body) (harray : env.lookup array = some (.array items)) :
    (aliasRounds exec array var body count i env).isSome := by
  induction count generalizing i env items with
  | zero => rfl
  | succ count ih =>
    by_cases hi : i < items.length
    · obtain ⟨⟨left, outer, last⟩, hround⟩ := isSome_iff_exists.1 (hends env items[i])
      obtain ⟨env₁, hlookup, hstep⟩ := aliasRounds_step hbody count harray
        (getElem?_eq_getElem hi) hround
      rw [hstep]
      cases last with
      | true => rfl
      | false => simpa using ih hlookup
    · rw [aliasRounds_end harray (by omega)]
      rfl

omit hbody

/-- The array is as it was if and only if no round left another value in the variable than the
element. -/
theorem written_eq_iff (hheld : trace.map Prod.fst = items.take trace.length) :
    trace.map Prod.snd ++ items.drop trace.length = items ↔ ∀ entry ∈ trace, entry.2 = entry.1 := by
  have hitems : trace.map Prod.fst ++ items.drop trace.length = items := by
    rw [hheld, take_append_drop]
  constructor
  · intro heq entry hentry
    have hsame : trace.map Prod.snd ++ items.drop trace.length =
        trace.map Prod.fst ++ items.drop trace.length := by rw [heq, hitems]
    exact map_inj_left.1 (append_cancel_right hsame) entry hentry
  · intro hsame
    rw [map_inj_left.2 hsame, hitems]

/-- A loop writes its variable back into an array, whatever runs its body: the variable holds the
elements one after the other, and the array ends with what the variable held at the end of each
round. The body is one that writes no array, and the loop comes to its end if the body does. -/
def WritesBack (array : String × Shape) (items : List Value) (env : Env) (var : String) (list : Expr)
    (body : List Stmt) : Prop :=
  ∀ exec other, WritesNot exec array var body →
    (∀ trace env', runForeach exec other var list body env = some (trace, env') →
      trace.map Prod.fst = items.take trace.length ∧
        env'.lookup array = some (.array (trace.map Prod.snd ++ items.drop trace.length)) ∧
        (env'.lookup array = some (.array items) ↔ ∀ entry ∈ trace, entry.2 = entry.1)) ∧
    (Ends exec var body → (runForeach exec other var list body env).isSome)

/-- A loop leaves an array as it is, whatever runs its body. -/
def LeavesArray (array : String × Shape) (items : List Value) (env : Env) (var : String)
    (list : Expr) (body : List Stmt) : Prop :=
  ∀ exec other, WritesNot exec array var body →
    (∀ trace env', runForeach exec other var list body env = some (trace, env') →
      env'.lookup array = some (.array items)) ∧
    (Ends exec var body → (runForeach exec other var list body env).isSome)

theorem writesBack_of_elements (hlist : elementsOf? list = some array)
    (harray : env.lookup array = some (.array items)) :
    WritesBack array items env var list body := by
  intro exec other hbody
  have hrun : runForeach exec other var list body env =
      aliasRounds exec array var body items.length 0 env := by
    rw [runForeach, hlist]
    simp only [Env.array?_eq_some.2 harray, bind_eq_bind, bind_some]
  rw [hrun]
  refine ⟨fun trace env' h => ?_, fun hends => isSome_aliasRounds hbody hends harray⟩
  obtain ⟨hheld, hwritten⟩ := lookup_aliasRounds hbody harray h
  rw [drop_zero] at hheld
  rw [take_zero, nil_append, Nat.zero_add] at hwritten
  refine ⟨hheld, hwritten, ?_⟩
  rw [hwritten, some.injEq, Value.array.injEq]
  exact written_eq_iff hheld

theorem leavesArray_of_copies (hlist : elementsOf? list = none)
    (hresult : ∀ other, (list.result other env).isSome)
    (harray : env.lookup array = some (.array items)) :
    LeavesArray array items env var list body := by
  intro exec other hbody
  obtain ⟨result, hresult⟩ := isSome_iff_exists.1 (hresult other)
  have hrun : runForeach exec other var list body env =
      copyRounds exec var body result.toList env := by
    rw [runForeach, hlist]
    simp only [hresult, bind_eq_bind, bind_some]
  rw [hrun]
  exact ⟨fun trace env' h => (lookup_copyRounds hbody h).trans harray,
    fun hends => isSome_copyRounds hends result.toList env⟩

/-! ## The loops that are generated -/

variable {object : Node} {x : String}

section Lowered

variable {s : State} {c : Context} {base : Expr} {node callback : Node}

variable (h : HoldsArray s env node items base)

include h

theorem HoldsArray.elementsOf?_eq :
    ∃ x, elementsOf? (elementsOf base) = some x ∧ env.lookup x = some (.array items) := by
  cases h with
  | list _ _ hheld => exact ⟨_, rfl, hheld⟩
  | reference hholds => exact ⟨_, rfl, hholds.held⟩

theorem HoldsArray.indices_result :
    (indicesFrom 0 base).result other env = some (.many (integersBetween 0 (items.length - 1))) := by
  obtain ⟨result, hbase, harray⟩ := h.result_eq other
  have hzero : (Expr.int 0).result other env = some (.one (.int 0)) := by
    rw [Expr.int, Expr.result]
    rfl
  rw [indicesFrom, binary, Expr.result, hzero, Expr.result, hbase]
  simp only [bind_eq_bind, bind_some, harray]

theorem HoldsArray.push : HoldsArray { s with scopes := s.scopes.push } env node items base := by
  cases h with
  | list hvar hdecl hheld => exact .list hvar hdecl hheld
  | reference hholds hdecl =>
    obtain ⟨⟨hvar, huntagged, hholds⟩, hheld⟩ := hholds
    exact .reference ⟨⟨hvar, huntagged, hholds.plain, hholds.scalar, hholds.free⟩, hheld⟩ hdecl

omit h

theorem HoldsArray.listOf_eq {array : Node} (h : HoldsArray s env array items base)
    (hobject : object.unwrapped = array) (htext : array.isTextual = false) (n : Nat) :
    listOf object (level (n + 1)) c s = (elementsOf base, s) := by
  obtain ⟨name, -, hvar, -⟩ := h.exists_name
  have hnoArray : (array.type == "ArrayExpression") = false := by rw [hvar.type]; decide
  unfold listOf
  simp only [hobject, hnoArray, htext, Bool.false_eq_true, if_false, arrayTarget, run_bind,
    h.arrayBase_eq n c]
  rfl

theorem lowers_forOf {array : Node} (harray : HoldsArray s env array items base)
    (htext : array.isTextual = false) (htype : node.type = "ForOfStatement")
    (hright : node.child? "right" = some array) (label : Option String) (n : Nat) :
    ∃ label' var body s', lowerStmt label node (level (n + 1)) c s =
      ([.plain (.foreach label' var (elementsOf base) body)], s') := by
  obtain ⟨name, -, hvar, -⟩ := harray.exists_name
  rw [lowerStmt, htype]
  change ∃ label' var body s', forOfStmt node label (level (n + 1)) c s = _
  unfold forOfStmt
  simp only [hright, run_bind, harray.listOf_eq hvar.unwrapped_eq htext n]
  exact ⟨_, _, _, _, rfl⟩

/-- A node applies a callback to each element of an array: a call of `forEach`, or a node that is
tagged as one. -/
inductive IsForEach (node array callback : Node) : Prop where
  | call (rest : List Node) (isCall : IsMethodCall node array "forEach" (callback :: rest))
  | tagged (object : Node) (tag : node.unwrapped.text? "ilNodeType" = some "ArrayForEach")
      (hasArray : node.unwrapped.child? "array" = some object) (isArray : object.unwrapped = array)
      (hasCallback : node.unwrapped.child? "callback" = some callback)

/-- The call of `forEach` on an array variable is no call of a method that a class has. -/
theorem specialStmts_forEach {array : Node} {rest : List Node}
    (hcall : IsMethodCall node array "forEach" (callback :: rest))
    (hvar : IsVariable array x) (htext : array.isTextual = false) :
    ∃ object, object.unwrapped = array ∧ ∀ below c s, (specialStmts node).run below c s =
      (some (foreachStmt object callback below c s).1, (foreachStmt object callback below c s).2) := by
  obtain ⟨callee, object, hcallee, hmemberType, hmember, hobject, hreceiver⟩ := hcall.callee
  refine ⟨object, hreceiver, fun below c s => ?_⟩
  have hnoSuper : (callee.unwrapped.type == "Super") = false := by rw [hmemberType]; decide
  have htextual : object.isTextual = false := by
    rw [← htext, ← hreceiver, Node.isTextual, Node.isTextual, object.unwrapped_unwrapped]
  have hsuper : (object.type == "Super") = false := by
    by_contra hsuper
    have htype : object.type = "Super" := by simpa using hsuper
    have hself : object.unwrapped = object := by
      refine Node.unwrapped_of_wrapped? ?_
      rw [Node.wrapped?, htype]
      split <;> rfl
    rw [← hreceiver, hself] at hvar
    rw [hvar.type] at htype
    exact absurd htype (by decide)
  rw [specialStmts, hcall.type]
  unfold callStmts
  simp only [hcallee, map_some, hnoSuper, Bool.false_eq_true, if_false, attempt_bind,
    need_run, hmember, hobject, hcall.arguments]
  unfold methodStmts
  simp only [htextual, hsuper]
  rfl

theorem IsForEach.lowers {array : Node} (h : IsForEach node array callback)
    (hvar : IsVariable array x) (htext : array.isTextual = false) :
    ∃ object, object.unwrapped = array ∧ ∀ below c s,
      lowerExprStmt node below c s = foreachStmt object callback below c s := by
  cases h with
  | call rest hcall =>
    obtain ⟨object, hobject, hspecial⟩ := specialStmts_forEach hcall hvar htext
    refine ⟨object, hobject, fun below c s => ?_⟩
    have htagged : (taggedStmts node).run below c s = (none, s) := by
      rw [taggedStmts, attempt_bind, need_run, hcall.untagged]
    unfold lowerExprStmt orUse
    simp only [hcall.unwrapped_eq, run_bind, attempt_orElse, htagged, hspecial]
    rfl
  | tagged object htag hasArray hobject hasCallback =>
    refine ⟨object, hobject, fun below c s => ?_⟩
    have htagged : (taggedStmts node.unwrapped).run below c s =
        (some (foreachStmt object callback below c s).1,
          (foreachStmt object callback below c s).2) := by
      unfold taggedStmts
      simp only [attempt_bind, need_run, htag, hasArray, hasCallback]
      rfl
    unfold lowerExprStmt orUse
    simp only [run_bind, attempt_orElse, htagged]
    rfl

variable {literal : Callback}

theorem loopHead_of_element {array : Node} (harray : HoldsArray s env array items base)
    (hobject : object.unwrapped = array) (htext : array.isTextual = false)
    (hparams : literal.params.length ≤ 1) (n : Nat) :
    ∃ var s', loopHead object literal (level (n + 1)) c s =
      (([], var, elementsOf base, []), s') := by
  unfold loopHead
  simp only [if_pos hparams, run_bind, harray.listOf_eq hobject htext n]
  cases literal.paramName? 0 with
  | none => exact ⟨_, _, rfl⟩
  | some name => exact ⟨_, _, rfl⟩

theorem loopHead_of_position {array : Node} (harray : HoldsArray s env array items base)
    (hobject : object.unwrapped = array) (hparams : ¬ literal.params.length ≤ 1) (n : Nat) :
    ∃ var bindings s', loopHead object literal (level (n + 1)) c s =
      (([], var, indicesFrom 0 base, bindings), s') := by
  have hstable : stableArray object (level (n + 1)) c s = (([], base), s) := by
    rw [← harray.stableArray_eq n c, stableArray, stableArray, arrayBase, arrayBase, ← hobject,
      object.unwrapped_unwrapped]
  unfold loopHead
  simp only [if_neg hparams, run_bind, hstable]
  exact ⟨_, _, _, rfl⟩

/-- What is set up before a loop over an array variable is nothing, so the loop is all there is. -/
theorem foreachStmt_of_loopHead {s' : State} {bindings : List Stmt} {b : Below}
    (hliteral : (Callback.ofNode? callback).filter Callback.hasNamedParams = some literal)
    (hhead : loopHead object literal b c { s with scopes := s.scopes.push } =
      (([], var, list, bindings), s')) :
    ∃ label body s'', foreachStmt object callback b c s =
      ([.plain (.foreach label var list (bindings ++ body))], s'') := by
  unfold foreachStmt
  rw [hliteral]
  have hpush : (modify fun s => { s with scopes := s.scopes.push } : Lower Unit) b c s =
    ((), { s with scopes := s.scopes.push }) := rfl
  unfold inScope
  simp only [run_bind, hpush, hhead]
  exact ⟨_, _, _, rfl⟩

end Lowered

/-- **A loop variable is the element itself.** A loop over the elements of an array variable, and a
`forEach` on it whose callback takes the element alone, become a loop whose variable holds the
elements of the array one after the other. The array ends with what the variable held at the end of
each round, so it is unchanged if and only if no round left another value in the variable. A `forEach`
on it whose callback takes the position too becomes a loop that leaves the array unchanged. -/
theorem loop_variables_write_back {n : Nat} {c : Context} {s : State} {env : Env} {array : Node}
    {items : List Value} {base : Expr} (harray : HoldsArray s env array items base)
    (htext : array.isTextual = false) :
    ∃ x, elementsOf? (elementsOf base) = some x ∧ env.lookup x = some (.array items) ∧
      (∀ node label, node.type = "ForOfStatement" → node.child? "right" = some array →
        ∃ label' var body s', lowerStmt label node (level (n + 1)) c s =
            ([.plain (.foreach label' var (elementsOf base) body)], s') ∧
          WritesBack x items env var (elementsOf base) body) ∧
      ∀ node callback literal, IsForEach node array callback →
        (Callback.ofNode? callback).filter Callback.hasNamedParams = some literal →
        ∃ label var list body s', lowerExprStmt node (level (n + 1)) c s =
            ([.plain (.foreach label var list body)], s') ∧
          if literal.params.length ≤ 1 then list = elementsOf base ∧ WritesBack x items env var list body
          else list = indicesFrom 0 base ∧ LeavesArray x items env var list body := by
  obtain ⟨name, -, hvar, -⟩ := harray.exists_name
  obtain ⟨x, hx, hheld⟩ := harray.elementsOf?_eq
  refine ⟨x, hx, hheld, ?_, ?_⟩
  · intro node label htype hright
    obtain ⟨label', var, body, s', hlower⟩ := lowers_forOf harray htext htype hright label n
    exact ⟨label', var, body, s', hlower, writesBack_of_elements hx hheld⟩
  · intro node callback literal hforEach hliteral
    obtain ⟨object, hobject, hlower⟩ := hforEach.lowers hvar htext
    simp only [hlower]
    by_cases hparams : literal.params.length ≤ 1
    · obtain ⟨var, s', hhead⟩ := loopHead_of_element harray.push hobject htext hparams n
      obtain ⟨label, body, s'', hloop⟩ := foreachStmt_of_loopHead hliteral hhead
      refine ⟨label, var, _, _, s'', hloop, ?_⟩
      rw [if_pos hparams]
      exact ⟨rfl, writesBack_of_elements hx hheld⟩
    · obtain ⟨var, bindings, s', hhead⟩ := loopHead_of_position harray.push hobject hparams n
      obtain ⟨label, body, s'', hloop⟩ := foreachStmt_of_loopHead hliteral hhead
      refine ⟨label, var, _, _, s'', hloop, ?_⟩
      rw [if_neg hparams]
      have hresult (other : Meaning) : ((indicesFrom 0 base).result other env).isSome := by
        rw [harray.indices_result]
        rfl
      exact ⟨rfl, leavesArray_of_copies rfl hresult hheld⟩

/-! ## A loop that changes its array -/

open Slice Projection

namespace Aliased

/-- The assignment of `i` to `x`. -/
def assignmentNode : Node :=
  .of "AssignmentExpression" [("operator", .string "="),
    ("left", (variableNode "x").toJson), ("right", (variableNode "i").toJson)]

def statementNode : Node :=
  .of "ExpressionStatement" [("expression", assignmentNode.toJson)]

/-- The loop over the elements `x` of `xs` that assigns `i` to each. -/
def loopNode : Node :=
  .of "ForOfStatement" [("left", (variableNode "x").toJson),
    ("right", (variableNode "xs").toJson), ("body", statementNode.toJson)]

def assignmentStmt : Stmt := .ofExpr (.set (.scalar "x") (.scalar "i"))

theorem lowers_assignmentNode (n : Nat) {c : Context} {s : State}
    (hx : s.scopes.lookup? "x" = some .scalar) (hi : Names s (variableNode "i") "i") :
    lowerExprStmt assignmentNode (level (n + 1)) c s = ([assignmentStmt], s) := by
  have hself : assignmentNode.unwrapped = assignmentNode := Node.unwrapped_of_wrapped? rfl
  have hname : (variableNode "x").name? = some "x" := rfl
  have hleft : assignmentNode.child? "left" = some (variableNode "x") := rfl
  have hspecial : (taggedStmts assignmentNode <|> specialStmts assignmentNode).run
      (level (n + 1)) c s = (none, s) := by
    have hlength : (lengthAssignment assignmentNode).run (level (n + 1)) c s = (none, s) := by
      unfold lengthAssignment
      simp only [attempt_bind, need_run, hleft, unwrapped_variableNode]
      rfl
    rw [attempt_orElse, taggedStmts, attempt_bind, need_run]
    exact hlength
  have hexpr : (lowerExpr assignmentNode).run (level (n + 1)) c s =
      (some (.set (.scalar "x") (.scalar "i")), s) := by
    have hoperator : assignmentNode.text? "operator" = some "=" := rfl
    have hright : assignmentNode.child? "right" = some (variableNode "i") := rfl
    have hnoSetter : (setterCall (variableNode "x") (variableNode "i")).run (level (n + 1)) c s =
        (none, s) := rfl
    have hnoContainer : (containerAssignment (variableNode "x") (variableNode "i")).run
        (level (n + 1)) c s = (none, s) := by
      unfold containerAssignment
      simp only [attempt_bind, need_run, hname, attempt_get, hx]
      rfl
    have hplain : (plainAssignment (variableNode "x") (variableNode "i")).run (level (n + 1)) c s =
        (some (.set (.scalar "x") (.scalar "i")), s) := by
      unfold plainAssignment assignTarget
      simp only [attempt_bind, unwrapped_variableNode, attempt_get, hname, bind_eq_bind,
        bind_some, hx, map_some, attempt_pure, attempt_lift, hi.value_eq n c]
      rfl
    rw [lowerExpr_of_untagged (by rw [hself]; rfl), hself]
    change (assignmentExpr assignmentNode).run (level (n + 1)) c s = _
    unfold assignmentExpr
    simp only [attempt_bind, need_run, hleft, hoperator, hright, unwrapped_variableNode]
    change (setterCall (variableNode "x") (variableNode "i") <|>
      containerAssignment (variableNode "x") (variableNode "i") <|>
      plainAssignment (variableNode "x") (variableNode "i")).run (level (n + 1)) c s = _
    simp only [attempt_orElse, hnoSetter, hnoContainer, hplain]
  unfold lowerExprStmt orUse
  simp only [hself, run_bind, hspecial, hexpr]
  rfl

/-- The state inside the loop, where `x` is declared. -/
def loopState : State :=
  { perlState with
    scopes := ⟨[[("x", .scalar)]], perlState.scopes.outermost⟩
    frames := [⟨.loop, none⟩] }

def innerState : State := { loopState with scopes := loopState.scopes.push }

theorem names_innerState : Names innerState (variableNode "i") "i" :=
  ⟨isVariable_variableNode "i", rfl, by decide, by decide, by decide⟩

theorem branch_loopNode :
    branch (loopNode.child? "body") (level 3) .initial loopState =
      ([assignmentStmt], loopState) := by
  -- The statement and then its expression are lowered on the two levels below.
  have hassign : (level 3).stmt none statementNode .initial innerState =
      ([assignmentStmt], innerState) :=
    lowers_assignmentNode 0 rfl names_innerState
  have hstmt : stmt statementNode (level 3) .initial innerState =
      ([assignmentStmt], innerState) := by
    rw [stmt, step_bind, hassign]
    rfl
  have hstmts : stmts [statementNode] (level 3) .initial innerState =
      ([assignmentStmt], innerState) := by
    simp only [stmts, run_bind, mapM_cons, hstmt]
    rfl
  have hpush : (modify fun s => { s with scopes := s.scopes.push } : Lower Unit) (level 3)
    .initial loopState = ((), innerState) := rfl
  change inScope (stmts [statementNode]) (level 3) .initial loopState = _
  unfold inScope
  simp only [run_bind, hpush, hstmts]
  rfl

theorem lowers_loopNode :
    ∃ s', lowerStmt none loopNode (level 3) .initial perlState =
      ([.plain (.foreach none "x" (.var "xs" .list) [assignmentStmt])], s') := by
  have hright : loopNode.child? "right" = some (variableNode "xs") := rfl
  have hlist : listOf (variableNode "xs") (level 3) .initial perlState =
      (.var "xs" .list, perlState) :=
    (perl_holdsArray 0 0).listOf_eq (unwrapped_variableNode "xs") (isTextual_variableNode "xs") 2
  have hbody : loopBody none (loopNode.child? "body") (level 3) .initial
      { loopState with frames := [] } = ((none, [assignmentStmt]), { loopState with frames := [] }) := by
    have hpush : (modify fun s => { s with frames := ⟨.loop, none⟩ :: s.frames } : Lower Unit) (level 3)
      .initial { loopState with frames := [] } = ((), loopState) := rfl
    unfold loopBody inFrame
    simp only [run_bind, hpush, branch_loopNode]
    rfl
  have hbinding : loopBinding (loopNode.child? "left") (level 3) .initial
      { perlState with scopes := perlState.scopes.push } = (("x", []), { loopState with frames := [] }) := rfl
  have hscope : (modify fun s => { s with scopes := s.scopes.push } : Lower Unit) (level 3)
    .initial perlState = ((), { perlState with scopes := perlState.scopes.push }) := rfl
  rw [lowerStmt]
  change ∃ s', forOfStmt loopNode none (level 3) .initial perlState = _
  unfold forOfStmt foreachOver inScope
  simp only [hright, run_bind, hlist, hscope, hbinding, hbody]
  exact ⟨_, rfl⟩

theorem round_assignment (other : Meaning) (env : Env) (held : Value) :
    round (runStmts other) "x" [assignmentStmt] env held =
      (env.lookup ("i", .scalar)).map fun left => (left, env, false) := by
  have hi : (Expr.scalar "i").result other ((("x", .scalar), held) :: env) =
      (env.lookup ("i", .scalar)).map .one := by
    rw [Expr.scalar, Expr.result]
    rfl
  rw [round, runStmts, assignmentStmt, Stmt.ofExpr, Stmt.plain, Stmt.run, Expr.set, Expr.scalar,
    StmtKind.run, hi]
  cases env.lookup ("i", .scalar) with
  | none => rfl
  | some left =>
    simp only [map_some, bind_eq_bind, bind_some, Result.one?, Env.assign, if_true,
      pure, Bool.false_eq_true, if_false, runStmts, Env.leaving, length_cons, Nat.sub_self,
      drop_zero]

theorem writesNot_assignment (other : Meaning) :
    WritesNot (runStmts other) ("xs", .list) "x" [assignmentStmt] := by
  intro env held left outer last h
  rw [round_assignment] at h
  obtain ⟨left', -, heq⟩ := map_eq_some_iff.1 h
  obtain ⟨-, rfl, -⟩ : left' = left ∧ env = outer ∧ false = last := by simpa using heq
  rfl

end Aliased

open Aliased

/-- Over `[1, 2, 3]` the loop that assigns `i`, which is 0, ends with what its variable held. -/
theorem loop_variables_write_back_threeItems :
    ∃ s', lowerStmt none loopNode (level 3) .initial perlState =
        ([.plain (.foreach none "x" (.var "xs" .list) [assignmentStmt])], s') ∧
      WritesBack ("xs", .list) threeItems (perlEnv 0 0) "x" (.var "xs" .list) [assignmentStmt] := by
  obtain ⟨x, hx, -, hforOf, -⟩ := loop_variables_write_back (n := 2) (c := .top .defaults)
    (perl_holdsArray 0 0) (isTextual_variableNode "xs")
  obtain rfl : ("xs", Shape.list) = x := Option.some.inj hx
  obtain ⟨label, var, body, s', hlower, hwrites⟩ := hforOf loopNode none rfl rfl
  obtain ⟨s'', hloop⟩ := lowers_loopNode
  cases hlower.symm.trans hloop
  exact ⟨_, hlower, hwrites⟩

/-- The loop over `[1, 2, 3]` that assigns 0 to its variable leaves `[0, 0, 0]` in the array. -/
theorem loop_changes_array :
    (∃ s', lowerStmt none loopNode (level 3) .initial perlState =
      ([.plain (.foreach none "x" (.var "xs" .list) [assignmentStmt])], s')) ∧
    WritesNot (runStmts fun _ _ => none) ("xs", .list) "x" [assignmentStmt] ∧
    (runForeach (runStmts fun _ _ => none) (fun _ _ => none) "x" (.var "xs" .list) [assignmentStmt]
        (perlEnv 0 0)).map (fun run => run.2.lookup ("xs", .list)) =
      some (some (.array [.int 0, .int 0, .int 0])) := by
  refine ⟨lowers_loopNode, writesNot_assignment _, ?_⟩
  rfl

end Scriptgen.Perl
