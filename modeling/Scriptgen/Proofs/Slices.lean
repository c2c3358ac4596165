import Scriptgen.Proofs.Operands
import Scriptgen.Proofs.Perl.Mirrors
import Scriptgen.Proofs.Ruby.Mirrors
/-!
# Slices of arrays

The program clamps both positions of a slice to the length of the array (`List.extract`). Perl takes
each position by itself, and gives undefined for one that is behind the end (`Perl.elementAt`). Ruby
clamps the end but gives no array at all for a range that starts behind the end (`Ruby.elementsIn`).
Main result: `slices_evaluate`.
-/

namespace Scriptgen

/-! ## Perl -/

variable {args : List Node} {n : Nat}

namespace Perl

open Lowering List

/-- The element at a position, which counts from the end of the list if it is negative. -/
def elementAt (items : List Value) (i : Int) : Value :=
  let i := if i < 0 then items.length + i else i
  if i < 0 then .undefined else items.getD i.toNat .undefined

def differences : Meaning := fun env e =>
  match e with
  | .binary .sub left right _ _ => do
    match ← left.result (fun _ _ => none) env, ← right.result (fun _ _ => none) env with
    | .one (.int a), .one (.int b) => some (.one (.int (a - b)))
    | _, _ => none
  | _ => none

/-- The integers among the values of a list, if there is nothing else. -/
def integers? (values : List Value) : Option (List Int) :=
  values.mapM fun
    | .int i => some i
    | _ => none

/-- A slice gives an element for each of its positions. -/
def slices : Meaning := fun env e =>
  match e with
  | .slice base positions => do
    let items ← (← base.result differences env).array?
    let positions ← integers? (← positions.result differences env).toList
    some (.many (positions.map (elementAt items)))
  | _ => none

variable {s : State} {env : Env} {call array start stop : Node} {items : List Value}
variable {base : Expr} {first last : String} {a b : Nat} {c : Context}

theorem takes_slice {below : Below}
    (hcall : IsMethodCall call array "slice" args) (harray : HoldsArray s env array items base)
    (htext : array.isTextual = false) :
    Takes below c s (lowerExpr call) (slicedArray array args[0]? args[1]?) := by
  obtain ⟨name, shape, hvar, hdecl, hshape⟩ := harray.exists_name
  refine takes_lowerExpr hcall hvar hdecl hshape (by decide) ?_
  unfold methodCall
  dsimp only
  rw [hvar.unwrapped_eq, htext]
  exact .lift

theorem Names.position_eq (h : Names s start first) (base : Expr) (n : Nat) (c : Context) :
    position base start (level (n + 1)) c s = (.scalar first, s) := by
  rw [position, run_bind, h.value_eq n c, h.isNegativeLiteral_eq]
  rfl

def sliceOf (base first last : Expr) : Expr := .arrayRef [.slice base (binary .range first last)]

theorem lowers_slice_between (hcall : IsMethodCall call array "slice" [start, stop])
    (harray : HoldsArray s env array items base) (htext : array.isTextual = false)
    (hstart : Names s start first) (hstop : Names s stop last) :
    (lowerExpr call).run (level (n + 1)) c s =
      (some (sliceOf base (.scalar first) (binary .sub (.scalar last) (.int 1))), s) := by
  rw [takes_slice hcall harray htext]
  have hstep : slicedArray array (some start) (some stop) (level (n + 1)) c s =
      (sliceOf base (.scalar first) (binary .sub (.scalar last) (.int 1)), s) := by
    unfold slicedArray
    simp only [run_bind, harray.stableArray_eq, hstart.position_eq, hstop.position_eq]
    rfl
  exact congrArg (fun run : Expr × State => (some run.1, run.2)) hstep

theorem lowers_slice_from (hcall : IsMethodCall call array "slice" [start])
    (harray : HoldsArray s env array items base) (htext : array.isTextual = false)
    (hstart : Names s start first) :
    (lowerExpr call).run (level (n + 1)) c s =
      (some (sliceOf base (.scalar first) (.lastIndex base)), s) := by
  rw [takes_slice hcall harray htext]
  have hstep : slicedArray array (some start) none (level (n + 1)) c s =
      (sliceOf base (.scalar first) (.lastIndex base), s) := by
    unfold slicedArray
    simp only [run_bind, harray.stableArray_eq, hstart.position_eq]
    rfl
  exact congrArg (fun run : Expr × State => (some run.1, run.2)) hstep

/-! ### Positions behind the end -/

theorem elementAt_natCast (items : List Value) (i : Nat) :
    elementAt items i = items.getD i .undefined := by
  have hi : ¬ (i : Int) < 0 := by omega
  rw [elementAt, if_neg hi, if_neg hi, Int.toNat_natCast]

theorem integers?_map (positions : List Int) : integers? (positions.map .int) = some positions := by
  induction positions with
  | nil => rfl
  | cons i rest ih =>
    rw [integers?] at ih ⊢
    rw [map_cons, mapM_cons, ih]
    rfl

/-- **Positions behind the end are undefined** instead of being left out. -/
theorem elements_between (items : List Value) (a b : Nat) :
    (range (b - a)).map (fun i => elementAt items (a + i : Nat)) =
      items.extract a b ++ .replicate (b - max a items.length) .undefined := by
  have hlength : (items.extract a b).length = min (b - a) (items.length - a) := by
    rw [extract_eq_take_drop, length_take, length_drop]
  refine ext_getElem ?_ fun i hi _ => ?_
  · rw [length_map, length_range, length_append, hlength, length_replicate]
    omega
  have hib : i < b - a := by rwa [length_map, length_range] at hi
  rw [getElem_map, getElem_range, elementAt_natCast, getElem_append]
  split
  case isTrue h =>
    rw [hlength] at h
    rw [getD_eq_getElem _ _ (by omega)]
    simp only [extract_eq_take_drop, getElem_take, getElem_drop]
  case isFalse h =>
    rw [hlength] at h
    rw [getD_eq_default _ _ (by omega), getElem_replicate]

theorem sliceOf_result {firstPos lastPos : Expr} {result : Result} {z : Int}
    (hbase : base.result differences env = some result) (hitems : result.array? = some items)
    (hfirst : firstPos.result differences env = some (.one (.int a)))
    (hlast : lastPos.result differences env = some (.one (.int z))) (hz : z + 1 = b) :
    (sliceOf base firstPos lastPos).result slices env =
      some (.one (.array (items.extract a b ++
        .replicate (b - max a items.length) .undefined))) := by
  have hcount : (z + 1 - (a : Int)).toNat = b - a := by omega
  have hrange : (binary .range firstPos lastPos).result differences env =
      some (.many ((range (b - a)).map fun i : Nat => Value.int (a + i : Nat))) := by
    rw [binary, Expr.result, hfirst, hlast]
    simp only [Option.bind_eq_bind, Option.bind_some, integersBetween, hcount]
    rfl
  have hpositions : integers? ((range (b - a)).map fun i : Nat => Value.int (a + i : Nat)) =
      some ((range (b - a)).map fun i : Nat => ((a + i : Nat) : Int)) := by
    rw [← integers?_map, map_map]
    rfl
  have hslice : (Expr.slice base (binary .range firstPos lastPos)).result slices env =
      some (.many (items.extract a b ++ .replicate (b - max a items.length) .undefined)) := by
    rw [Expr.result]
    · simp only [slices, hbase, hitems, hrange, Option.bind_eq_bind, Option.bind_some,
        Result.toList, hpositions, map_map]
      exact congrArg (fun values => some (Result.many values)) (elements_between items a b)
    all_goals simp
  rw [sliceOf, Expr.result, itemsResult, hslice]
  simp only [itemsResult, Option.bind_eq_bind, Option.bind_some, Result.toList, append_nil]
  rfl

theorem Holds.result_before (h : Holds s env stop (.int b) last) :
    (binary .sub (.scalar last) (.int 1)).result differences env =
      some (.one (.int ((b : Int) - 1))) := by
  have hone : (Expr.int 1).result (fun _ _ => none) env = some (.one (.int 1)) := by
    rw [Expr.int, Expr.result]
    rfl
  rw [binary, Expr.result]
  · rw [differences]
    simp only [h.result_eq, hone, Option.bind_eq_bind, Option.bind_some]
  all_goals simp

theorem HoldsArray.result_between (harray : HoldsArray s env array items base)
    (hstart : Holds s env start (.int a) first) (hstop : Holds s env stop (.int b) last) :
    (sliceOf base (.scalar first) (binary .sub (.scalar last) (.int 1))).result slices env =
      some (.one (.array (items.extract a b ++
        .replicate (b - max a items.length) .undefined))) := by
  obtain ⟨result, hbase, hitems⟩ := harray.result_eq differences
  exact sliceOf_result hbase hitems (hstart.result_eq _) hstop.result_before (by omega)

theorem HoldsArray.result_from (harray : HoldsArray s env array items base)
    (hstart : Holds s env start (.int a) first) :
    (sliceOf base (.scalar first) (.lastIndex base)).result slices env =
      some (.one (.array (items.extract a))) := by
  obtain ⟨result, hbase, hitems⟩ := harray.result_eq differences
  have hlast : (Expr.lastIndex base).result differences env =
      some (.one (.int (items.length - 1))) := by
    rw [Expr.result, hbase]
    simp only [Option.bind_eq_bind, Option.bind_some, hitems]
  have hpad : items.length - max a items.length = 0 := by omega
  rw [sliceOf_result hbase hitems (hstart.result_eq _) hlast (b := items.length) (by omega), hpad,
    replicate_zero, append_nil]

end Perl

/-! ## Ruby -/

namespace Ruby

open Lowering

/-- The elements from one position up to and without another, which both count from the end of the
array if they are negative. Positions behind the end have no element, but the first one has to be
one of the array or the one behind its last. -/
def elementsIn (items : List Value) (first stop : Int) : Value :=
  let place (i : Int) : Int := if i < 0 then items.length + i else i
  if place first < 0 ∨ items.length < place first then .undefined
  else .array (items.extract (place first).toNat (place stop).toNat)

/-- An index that is a range gives the elements in it. Other expressions are left to what is
given. -/
def slices (other : Meaning) : Meaning := fun env e =>
  match e with
  | .index base (.range first last exclusive) => do
    match ← base.eval other env, ← first.eval other env, last with
    | (.one (.array items), _), (.one (.int first), _), none =>
      some (elementsIn items first items.length)
    | (.one (.array items), _), (.one (.int first), _), some last =>
      match ← last.eval other env with
      | (.one (.int stop), _) =>
        if exclusive then some (elementsIn items first stop) else none
      | _ => none
    | _, _, _ => none
  | _ => other env e

variable {c : Context} {s : State} {env : Env} {other : Meaning}
variable {call array start stop : Node} {items : List Value} {xs first last : String} {a b : Nat}

theorem elementsIn_natCast (items : List Value) (a b : Nat) :
    elementsIn items a b =
      if a ≤ items.length then .array (items.extract a b) else .undefined := by
  have ha : ¬ (a : Int) < 0 := by omega
  have hb : ¬ (b : Int) < 0 := by omega
  rw [elementsIn]
  simp only [if_neg ha, if_neg hb, Int.toNat_natCast]
  by_cases h : a ≤ items.length
  · rw [if_pos h, if_neg (by omega)]
  · rw [if_neg h, if_pos (by omega)]

variable (harray : HoldsArray c s other env array items xs)

include harray

theorem HoldsArray.takes_slice {below : Below} (hcall : IsMethodCall call array "slice" args) :
    Takes below c s (lowerExpr call) (do sliced (← value array) args[0]? args[1]?) := by
  refine takes_lowerExpr hcall harray.toIsVariable harray.declared harray.notMap (by decide)
    (.orElse ?_)
  rw [Takes, knownMethod_run "slice" args harray.toIsVariable harray.noCollection]
  cases s.known.isText array <;> rfl

theorem HoldsArray.lowers_slice_between (hcall : IsMethodCall call array "slice" [start, stop])
    (hstart : Names c s start first) (hstop : Names c s stop last) :
    (lowerExpr call).run (level (n + 1)) c s =
      (some (.index (variableOf c s xs)
        (rangeUpTo (variableOf c s first) (variableOf c s last))), s) := by
  rw [harray.takes_slice hcall]
  have hstep : (do sliced (← value array) (some start) (some stop) : Lower Expr) (level (n + 1)) c s =
      (.index (variableOf c s xs) (rangeUpTo (variableOf c s first) (variableOf c s last)), s) := by
    unfold sliced
    simp only [run_bind, harray.value_eq, hstart.value_eq, hstop.value_eq]
    rfl
  exact congrArg (fun run : Expr × State => (some run.1, run.2)) hstep

theorem HoldsArray.lowers_slice_from
    (hcall : IsMethodCall call array "slice" [start]) (hstart : Names c s start first) :
    (lowerExpr call).run (level (n + 1)) c s =
      (some (.index (variableOf c s xs) (rangeFrom (variableOf c s first))), s) := by
  rw [harray.takes_slice hcall]
  have hstep : (do sliced (← value array) (some start) none : Lower Expr) (level (n + 1)) c s =
      (.index (variableOf c s xs) (rangeFrom (variableOf c s first)), s) := by
    unfold sliced
    simp only [run_bind, harray.value_eq, hstart.value_eq]
    rfl
  exact congrArg (fun run : Expr × State => (some run.1, run.2)) hstep

omit harray

theorem eval_slice {base range : Expr} {value : Value}
    (h : slices other env (.index base range) = some value) :
    (Expr.index base range).eval (slices other) env = some (.one value, env) := by
  rw [Expr.eval]
  · rw [h]
    rfl
  all_goals exact nofun

theorem Holds.eval_between (harray : Holds c s other env array (.array items) xs)
    (hstart : Holds c s other env start (.int a) first)
    (hstop : Holds c s other env stop (.int b) last) :
    (Expr.index (variableOf c s xs) (rangeUpTo (variableOf c s first) (variableOf c s last))).eval
        (slices other) env =
      some (.one (if a ≤ items.length then .array (items.extract a b) else .undefined), env) := by
  refine eval_slice ?_
  rw [rangeUpTo, slices]
  simp only [harray.held, hstart.held, hstop.held, Option.bind_eq_bind, Option.bind_some]
  rw [← elementsIn_natCast]
  rfl

theorem Holds.eval_from (harray : Holds c s other env array (.array items) xs)
    (hstart : Holds c s other env start (.int a) first) :
    (Expr.index (variableOf c s xs) (rangeFrom (variableOf c s first))).eval (slices other) env =
      some (.one (if a ≤ items.length then .array (items.extract a) else .undefined), env) := by
  refine eval_slice ?_
  rw [rangeFrom, slices]
  simp only [harray.held, hstart.held, Option.bind_eq_bind, Option.bind_some]
  rw [← elementsIn_natCast]

end Ruby

/-! ## Both targets -/

variable {between rest array start stop : Node} {items : List Value} {a b : Nat}

theorem Ruby.givesArray_iff {values : List Value} :
    (if a ≤ items.length then Value.array values else .undefined) = .array values ↔
      a ≤ items.length := by
  by_cases h : a ≤ items.length
  · rw [if_pos h]
    exact iff_of_true rfl h
  · rw [if_neg h]
    exact iff_of_false nofun h

/-- **What slices give**, for every array and every two positions in variables. Perl adds an
undefined element for each position behind the end, and Ruby gives no array if the first position
is behind it. So Perl gives what the program gets just if the end of the slice is within the array
or the slice is empty, and Ruby just if its start is. -/
theorem slices_evaluate (items : List Value) (hab : a ≤ b)
    (hbetween : IsMethodCall between array "slice" [start, stop])
    (hrest : IsMethodCall rest array "slice" [start]) (n : Nat) :
    (∀ (c : Perl.Context) (s : Perl.State) (env : Perl.Env) (base : Perl.Expr) (first last : String),
      Perl.HoldsArray s env array items base → array.isTextual = false →
      Perl.Holds s env start (.int a) first → Perl.Holds s env stop (.int b) last →
      (∃ e values, (Perl.lowerExpr between).run (Perl.level (n + 1)) c s = (some e, s) ∧
        e.result Perl.slices env = some (.one (.array values)) ∧
        values = items.extract a b ++ .replicate (b - max a items.length) .undefined ∧
        (values = items.extract a b ↔ b ≤ items.length ∨ a = b)) ∧
      ∃ e, (Perl.lowerExpr rest).run (Perl.level (n + 1)) c s = (some e, s) ∧
        e.result Perl.slices env = some (.one (.array (items.extract a)))) ∧
    ∀ (c : Ruby.Context) (s : Ruby.State) (other : Ruby.Meaning) (env : Ruby.Env)
      (xs first last : String), Ruby.HoldsArray c s other env array items xs →
      Ruby.Holds c s other env start (.int a) first → Ruby.Holds c s other env stop (.int b) last →
      (∃ e value, (Ruby.lowerExpr between).run (Ruby.level (n + 1)) c s = (some e, s) ∧
        e.eval (Ruby.slices other) env = some (.one value, env) ∧
        value = (if a ≤ items.length then .array (items.extract a b) else .undefined) ∧
        (value = .array (items.extract a b) ↔ a ≤ items.length)) ∧
      ∃ e value, (Ruby.lowerExpr rest).run (Ruby.level (n + 1)) c s = (some e, s) ∧
        e.eval (Ruby.slices other) env = some (.one value, env) ∧
        value = (if a ≤ items.length then .array (items.extract a) else .undefined) ∧
        (value = .array (items.extract a) ↔ a ≤ items.length) := by
  refine ⟨fun c s env base first last harray htext hstart hstop => ⟨?_, ?_⟩,
    fun c s other env xs first last harray hstart hstop => ⟨?_, ?_⟩⟩
  · refine ⟨_, _, Perl.lowers_slice_between hbetween harray htext hstart.toNames hstop.toNames,
      harray.result_between hstart hstop, rfl, ?_⟩
    rw [List.append_right_eq_self, List.replicate_eq_nil_iff]
    omega
  · exact ⟨_, Perl.lowers_slice_from hrest harray htext hstart.toNames, harray.result_from hstart⟩
  · exact ⟨_, _, harray.lowers_slice_between hbetween hstart.toNames hstop.toNames,
      harray.eval_between hstart hstop, rfl, Ruby.givesArray_iff⟩
  · exact ⟨_, _, harray.lowers_slice_from hrest hstart.toNames, harray.eval_from hstart, rfl,
      Ruby.givesArray_iff⟩

namespace Slice

open Projection

/-- The call of `slice` on `xs`. -/
def callNode (arguments : List String) : Node :=
  .of "CallExpression" [
    ("callee", .node "MemberExpression" [("object", (variableNode "xs").toJson),
      ("property", (variableNode "slice").toJson)]),
    ("arguments", .array (arguments.map fun name => (variableNode name).toJson))]

theorem isVariable_variableNode (name : String) : IsVariable (variableNode name) name := ⟨rfl, rfl⟩

theorem isMethodCall_callNode (arguments : List String)
    (h : (callNode arguments).children "arguments" = args) :
    IsMethodCall (callNode arguments) (variableNode "xs") "slice" args where
  untagged := rfl
  type := rfl
  callee := by
    refine ⟨_, variableNode "xs", rfl, ?_⟩
    rw [Node.unwrapped_of_wrapped? rfl]
    exact ⟨rfl, rfl, rfl, unwrapped_variableNode "xs"⟩
  arguments := h

theorem isTextual_variableNode (name : String) : (variableNode name).isTextual = false := by
  rw [Node.isTextual, unwrapped_variableNode]
  rfl

/-- The array `[1, 2, 3]`. -/
def threeItems : List Value := [.int 1, .int 2, .int 3]

/-! The array in `xs` and two positions in `i` and `j`, as the generated code has them. -/

def perlState : Perl.State :=
  { Perl.State.initial with
    scopes := ⟨[], [("xs", .list), ("i", .scalar), ("j", .scalar)]⟩ }

def perlEnv (i j : Nat) : Perl.Env :=
  [(("xs", .list), .array threeItems), (("i", .scalar), .int i), (("j", .scalar), .int j)]

def rubyContext : Ruby.Context := .initial

def rubyState : Ruby.State :=
  { Ruby.State.initial with
    scopes := ⟨[], [("xs", .list), ("i", .scalar), ("j", .scalar)]⟩ }

def rubyEnv (i j : Nat) : Ruby.Env := [("xs", .array threeItems), ("i", .int i), ("j", .int j)]

theorem perl_holdsArray (i j : Nat) :
    Perl.HoldsArray perlState (perlEnv i j) (variableNode "xs") threeItems (.var "xs" .list) :=
  .list (isVariable_variableNode "xs") rfl rfl

theorem perl_holds_i (i j : Nat) :
    Perl.Holds perlState (perlEnv i j) (variableNode "i") (.int i) "i" :=
  ⟨⟨isVariable_variableNode "i", rfl, by decide, by decide, by decide⟩, rfl⟩

theorem perl_holds_j (i j : Nat) :
    Perl.Holds perlState (perlEnv i j) (variableNode "j") (.int j) "j" :=
  ⟨⟨isVariable_variableNode "j", rfl, by decide, by decide, by decide⟩, rfl⟩

theorem ruby_names {name : String} (hname : name ∈ ["xs", "i", "j"]) :
    Ruby.Names rubyContext rubyState (variableNode name) name := by
  refine ⟨isVariable_variableNode name, rfl, ?_, ?_⟩
  · revert name
    decide
  · revert name
    decide

theorem ruby_holds {i j : Nat} (name : String) {value : Value} (hname : name ∈ ["xs", "i", "j"])
    (hheld : (rubyEnv i j).lookup name = some value) (other : Ruby.Meaning) :
    Ruby.Holds rubyContext rubyState other (rubyEnv i j) (variableNode name) value name := by
  refine ⟨ruby_names hname, ?_⟩
  have hvar : Ruby.variableOf rubyContext rubyState name = .localVar name := by
    simp only [List.mem_cons, List.not_mem_nil, or_false] at hname
    rcases hname with rfl | rfl | rfl <;> rfl
  rw [hvar, Ruby.Expr.localVar, Ruby.Expr.eval, hheld]

theorem ruby_holdsArray (i j : Nat) (other : Ruby.Meaning) :
    Ruby.HoldsArray rubyContext rubyState other (rubyEnv i j) (variableNode "xs") threeItems "xs" := by
  refine ⟨ruby_holds "xs" (by decide) rfl other, rfl, by decide, ?_⟩
  rw [Known.collectionOf?, unwrapped_variableNode, Node.valueKey?, unwrapped_variableNode]
  rfl

end Slice

open Slice Projection

/-- The slice of `[1, 2, 3]` from 1 up to 2 is the one element in both targets. -/
theorem slices_evaluate_within :
    (∃ e, (Perl.lowerExpr (callNode ["i", "j"])).run (Perl.level 1) .initial perlState =
        (some e, perlState) ∧
      e.result Perl.slices (perlEnv 1 2) = some (.one (.array [.int 2]))) ∧
    ∃ e, (Ruby.lowerExpr (callNode ["i", "j"])).run (Ruby.level 1) rubyContext rubyState =
        (some e, rubyState) ∧
      e.eval (Ruby.slices fun _ _ => none) (rubyEnv 1 2) =
        some (.one (.array [.int 2]), rubyEnv 1 2) := by
  obtain ⟨hperl, hruby⟩ := slices_evaluate threeItems (a := 1) (b := 2) (by decide)
    (isMethodCall_callNode ["i", "j"] rfl)
    (isMethodCall_callNode ["i"] rfl) 0
  obtain ⟨⟨e, _, hrun, hresult, rfl, -⟩, -⟩ := hperl .initial perlState (perlEnv 1 2) _ _ _
    (perl_holdsArray 1 2) (isTextual_variableNode "xs") (perl_holds_i 1 2) (perl_holds_j 1 2)
  obtain ⟨⟨e', _, hrun', heval, rfl, -⟩, -⟩ := hruby rubyContext rubyState _ (rubyEnv 1 2) _ _ _
    (ruby_holdsArray 1 2 fun _ _ => none) (ruby_holds "i" (by decide) rfl _)
    (ruby_holds "j" (by decide) rfl _)
  exact ⟨⟨e, hrun, hresult⟩, e', hrun', heval⟩

/-- Of `[1, 2, 3]`, the slice from 2 up to 5 has two elements too many in Perl, and the slice from 4
up to 5, which is empty, is no array in Ruby. -/
theorem slices_leave_bounds :
    (threeItems.extract 2 5 = [.int 3] ∧
      ∃ e, (Perl.lowerExpr (callNode ["i", "j"])).run (Perl.level 1) .initial perlState =
          (some e, perlState) ∧
        e.result Perl.slices (perlEnv 2 5) =
          some (.one (.array [.int 3, .undefined, .undefined]))) ∧
    threeItems.extract 4 5 = [] ∧
      ∃ e, (Ruby.lowerExpr (callNode ["i", "j"])).run (Ruby.level 1) rubyContext rubyState =
          (some e, rubyState) ∧
        e.eval (Ruby.slices fun _ _ => none) (rubyEnv 4 5) = some (.one .undefined, rubyEnv 4 5) := by
  have hcall := isMethodCall_callNode ["i", "j"] rfl
  refine ⟨⟨rfl, _, Perl.lowers_slice_between hcall (perl_holdsArray 2 5)
      (isTextual_variableNode "xs") (perl_holds_i 2 5).toNames (perl_holds_j 2 5).toNames, ?_⟩,
    rfl, _, (ruby_holdsArray 4 5 fun _ _ => none).lowers_slice_between hcall
      (ruby_names (by decide)) (ruby_names (by decide)), ?_⟩
  · exact (perl_holdsArray 2 5).result_between (perl_holds_i 2 5) (perl_holds_j 2 5)
  · exact (ruby_holdsArray 4 5 _).eval_between (ruby_holds "i" (by decide) rfl _)
      (ruby_holds "j" (by decide) rfl _)

end Scriptgen
