import Scriptgen.Proofs.Perl.Loops
import Scriptgen.Proofs.Perl.Orderly
/-!
# Iterations in generated Perl

An iteration whose callback is one expression is lowered to a block function if the callback needs
at most the element, and to a loop over the indices otherwise. Both give what the iteration computes
in the program, whatever its `Operands` are: `iterations_compute`.

Perl takes the text `0` for false, so a callback that is a test has to give values on whose truth
both agree. Generated code has variables of its own, which start with
`__`, and the topic `_`. Nothing keeps the names of a program apart from them, and a program that
has one of these names gets another result (`iteration_captures_index`): `IsPlainCallback` and
`Operands` leave such programs out.
-/

namespace Scriptgen.Perl

open Lowering Env Variables List Callback

variable {other : Meaning} {env : Env} {b : Below} {c : Context} {s : State}

theorem Expr.Gives.mono {hidden hidden' : String × Shape → Prop} {e : Expr} {result : Result}
    (h : e.Gives other hidden env result) (hsub : ∀ x, hidden' x → hidden x) :
    e.Gives other hidden' env result := fun env' henv' => h env' (henv'.mono hsub)

/-! ## What the lowering writes -/

def declaredScalars (names : List String) (scopes : Scopes) : Scopes :=
  names.foldl (fun scopes name => scopes.declare name .scalar) scopes

variable {positional : List Expr} {blockOp : BlockListOp}

/-- Parameters are declared in the current scope, each with the argument in its place. -/
theorem bindParams_run {params : List Node}
    (hnamed : params.all (·.name?.isSome) = true) (hlength : params.length ≤ positional.length) :
    bindParams params positional b c s =
      (((params.filterMap Node.name?).zip positional).map
          fun pair => .my pair.1 .scalar (some pair.2),
        { s with scopes := declaredScalars (params.filterMap Node.name?) s.scopes }) := by
  unfold bindParams
  induction params generalizing positional s with
  | nil => rfl
  | cons param params ih =>
    cases positional with
    | nil => exact absurd hlength (Nat.not_succ_le_zero _)
    | cons arg positional =>
      rw [all_cons, Bool.and_eq_true] at hnamed
      obtain ⟨name, hname⟩ := Option.isSome_iff_exists.1 hnamed.1
      have hrest := ih (s := { s with scopes := s.scopes.declare name .scalar })
        hnamed.2 (Nat.le_of_succ_le_succ hlength)
      rw [zip_cons_cons, mapM_cons, filterMap_cons_some hname]
      simp only [hname]
      exact Prod.ext
        (congrArg (fun run : List Stmt × State => Stmt.my name .scalar (some arg) :: run.1) hrest)
        (congrArg (·.2) hrest)

theorem indexedIteration_run (op : Iteration) (array callback : Node) (literal : Option Callback)
    (initial : Option Node) (b : Below) (c : Context) (s : State) :
    (indexedIteration op array callback literal initial b c s).1 =
      let list := stableArray array b c s
      let index := list.2.names.fresh "i"
      let result := index.2.fresh "result"
      let element := Expr.index list.1.2 (.scalar index.1)
      let start := iterationStart op list.1.2 initial b c { list.2 with names := result.2 }
      let resultDecl : List Stmt :=
        if collects op then [.my result.1 .list none]
        else if op == .forEach then []
        else [.my result.1 .scalar start.1.1]
      let positional :=
        (if op == .reduce then [Expr.scalar result.1] else []) ++
          [element, .scalar index.1, arrayRefTo list.1.2]
      let called := (callbackValue callback literal positional b c start.2).1
      let loop : Stmt := .plain (.foreach none index.1 (indicesFrom start.1.2 list.1.2)
        (called.2.1 ++ [iterationStep op result.1 element (.scalar index.1) called.2.2]))
      let final :=
        if collects op then unary .ref (.var result.1 .list)
        else if op == .forEach then .undefined
        else .scalar result.1
      .doBlock (list.1.1 ++ resultDecl ++ called.1 ++ [loop, .ofExpr final]) := rfl

theorem callbackValue_run {callback : Node} {literal : Callback}
    (h : (literal.resultExpr?.isSome && literal.hasNamedParams) = true) :
    (callbackValue callback (some literal) positional b c s).1 =
      let bound := bindParams literal.params positional b c { s with scopes := s.scopes.push }
      ([], bound.1, (valueOf literal.resultExpr? b c bound.2).1) := by
  unfold callbackValue
  rw [Option.filter_some, if_pos h]
  rfl

/-- A block function over a list, with the value of a callback that needs at most the element. -/
theorem nativeIteration_run {op : Iteration} {literal : Callback}
    {list : Expr} (h : literal.isElementOnly = true) :
    (nativeIteration op blockOp literal list b c s).1 =
      let scopes := declaredScalars literal.paramNames s.scopes.push
      let block := elementBlock blockOp literal.paramNames
        (valueOf literal.resultExpr? b c { s with scopes := scopes }).1 list
      if collects op then .arrayRef [block] else block := by
  unfold isElementOnly at h
  rw [Bool.and_eq_true, Bool.and_eq_true, decide_eq_true_iff] at h
  obtain ⟨⟨hlength, hnamed⟩, -⟩ := h
  unfold nativeIteration paramName? paramNames
  generalize literal.params = params at hlength hnamed
  generalize (blockOp == .any || blockOp == .all || blockOp == .first) = imported
  match params, hlength with
  | [], _ => cases imported <;> rfl
  | [param], _ =>
    obtain ⟨name, hname⟩ : ∃ name, param.name? = some name :=
      Option.isSome_iff_exists.1 (all_eq_true.1 hnamed param mem_cons_self)
    have hfirst : ([param][0]? >>= Node.name?) = some name := hname
    rw [filterMap_cons_some hname]
    simp only [hfirst]
    cases imported <;> rfl

theorem shared_run (expr : Expr) (stem : String) :
    (shared expr stem b c s).1 =
      if expr.isSimple then ([], expr)
      else ([.my (s.names.fresh stem).1 .scalar (some expr)], .scalar (s.names.fresh stem).1) := by
  unfold shared
  split <;> rfl

theorem iterationStart_run {op : Iteration} (loop : IndexLoop other env op) (initial : Option Node) :
    (iterationStart op loop.list initial b c s).1 =
      loop.startOf (initial.map fun node => (value node b c s).1) := by
  cases op <;> cases initial <;> rfl

theorem scopes_iterationStart (hb : Sound b) (op : Iteration) (list : Expr) (initial : Option Node) :
    (iterationStart op list initial b c s).2.scopes = s.scopes := by
  cases op with
  | reduce =>
    cases initial with
    | none => rfl
    | some node => exact scopes_of_makes (makes_value fun _ => fits_node node) hb c s
  | _ => rfl

/-! ## What an iteration is about -/

/-- **What the parts of an iteration stand for**: the array for a list, wherever only the names that
generated code brings along and the parameters of the callback have been declared; the first value
for a value; and the expression of the callback for a function of its arguments. -/
structure Operands (other : Meaning) (env : Env) (op : Iteration) (array : Node)
    (literal : Callback) (initial : Option Node) (b : Below) (c : Context) (s : State)
    (f : List Value → Value) (items : List Value) (first : Option Value) : Prop where
  array_gives : (arrayBase array b c s).1.Gives other (fun x => IsOwn x ∨ x.1 ∈ literal.paramNames)
    env (arrayResult (arrayBase array b c s).1 items)
  elements : ∃ found, (listOf array b c s).1.result other env = some found ∧ found.toList = items
  initial_gives : Option.Rel (fun node first => ∀ s' : State, s'.scopes = s.scopes →
    (value node b c s').1.Gives other IsOwn env (.one first)) initial first
  value_gives : ∀ s' : State, s'.scopes = declaredScalars literal.paramNames s.scopes.push →
    ∀ args ∈ op.calls f items first, (valueOf literal.resultExpr? b c s').1.Gives other IsOwn
      (parameters literal.paramNames args ++ env) (.one (f args))

variable {op : Iteration} {array callback : Node} {literal : Callback} {initial : Option Node}
variable {f : List Value → Value} {items : List Value} {first : Option Value} {expected : Value}

theorem scopes_stableArray (hb : Sound b) (array : Node) :
    (stableArray array b c s).2.scopes = s.scopes :=
  scopes_of_makes (makes_stableArray fun _ => fits_node array) hb c s

theorem isListVar_eq_false {base : Expr} (h : base.isSimple = false) : base.isListVar = false := by
  cases base <;> first | rfl | cases h

/-- The array of a loop, as it can be looked at in every round. -/
theorem exists_list
    (harray : (arrayBase array b c s).1.Gives other (fun x => IsOwn x ∨ x.1 ∈ literal.paramNames) env
      (arrayResult (arrayBase array b c s).1 items))
    (hnames : ∀ name ∈ literal.paramNames, ¬ IsTemporary name ∧ name ≠ "_") :
    ∃ around, runStmts other env (stableArray array b c s).1.1 = some (around, false) ∧
      env.Agree IsOwn around ∧ ∀ supply supply' : NameSupply,
        (stableArray array b c s).1.2.Gives other
          (·.1 ∈ (supply.fresh "i").1 :: (supply'.fresh "result").1 :: literal.paramNames) around
          (arrayResult (stableArray array b c s).1.2 items) := by
  unfold stableArray
  rw [run_bind]
  generalize (arrayBase array b c s).1 = base at harray
  generalize (arrayBase array b c s).2 = s'
  rw [shared_run]
  cases hsimple : base.isSimple with
  | true =>
    refine ⟨env, rfl, .refl, fun supply supply' => harray.mono fun x hx => ?_⟩
    rcases mem_cons.1 hx with hindex | hx
    · exact .inl (.inl (hindex ▸ isTemporary_fresh supply "i"))
    rcases mem_cons.1 hx with hresult | hname
    · exact .inl (.inl (hresult ▸ isTemporary_fresh supply' "result"))
    · exact .inr hname
  | false =>
    have hbase := harray env .refl
    have htemporary := isTemporary_fresh s'.names "list"
    rw [arrayResult, isListVar_eq_false hsimple] at hbase
    refine ⟨_, runStmts_single (run_my (ne_topic_of_isTemporary htemporary) hbase),
      Agree.refl.prepend [_] fun x hx => ?_, fun supply supply' env' henv' => ?_⟩
    · rw [mem_singleton] at hx
      exact .inl (hx ▸ htemporary)
    · -- The variable is none of those that are declared in a round.
      rw [if_neg Bool.false_ne_true, Expr.scalar, Expr.result, henv' _ fun hmem => ?_,
        lookup_cons_self]
      · rfl
      · rcases mem_cons.1 hmem with hindex | hmem
        · exact fresh_ne (a := 'l') (b := 'i') (by decide) hindex
        rcases mem_cons.1 hmem with hresult | hname
        · exact fresh_ne (a := 'l') (b := 'r') (by decide) hresult
        · exact (hnames _ hname).1 htemporary

/-- What is known of an iteration and of its callback: an expression for the arguments that the
callback is passed, with parameters that no variable of generated code is named like. -/
structure IsPlainCallback (op : Iteration) (literal : Callback) : Prop where
  named : literal.hasNamedParams = true
  isExpr : literal.resultExpr?.isSome = true
  length_le : literal.params.length ≤ op.passed
  names_free : ∀ name ∈ literal.paramNames, ¬ IsTemporary name ∧ name ≠ "_"

theorem resultDecl_eq (hop : op ≠ .forEach) (result : String) (start : Option Expr) :
    (if collects op then [.my result .list none]
      else if op == .forEach then []
      else [.my result .scalar start] : List Stmt) =
      [if collects op then .my result .list none else .my result .scalar start] := by
  cases op <;> first | rfl | exact absurd rfl hop

theorem final_eq (hop : op ≠ .forEach) (result : String) :
    (if collects op then unary .ref (.var result .list)
      else if op == .forEach then .undefined
      else .scalar result : Expr) =
      if collects op then unary .ref (.var result .list) else .scalar result := by
  cases op <;> first | rfl | exact absurd rfl hop

/-- **The loop that an iteration becomes gives what the iteration computes.** -/
theorem exists_result_indexedIteration (callback : Node) (hb : Sound b) (hop : op ≠ .forEach)
    (hliteral : IsPlainCallback op literal)
    (h : Operands other env op array literal initial b c s f items first)
    (htruth : op.isTest = true → ∀ entry ∈ items.zipIdx,
      isTrue (f (Iteration.arguments items entry)) = Iteration.holds f items entry)
    (hexpected : op.result f items first = some expected) :
    ∃ found, (indexedIteration op array callback (some literal) initial b c s).1.result other env =
      some (.one found) ∧ IsResultOf op found expected := by
  obtain ⟨around, hsetup, haround, hlist⟩ := exists_list h.array_gives hliteral.names_free
  rw [indexedIteration_run]
  have hscopes := scopes_stableArray (c := c) (s := s) hb array
  generalize stableArray array b c s = list at hsetup hlist hscopes
  obtain ⟨⟨listSetup, list⟩, s₁⟩ := list
  set index := s₁.names.fresh "i"
  set result := index.2.fresh "result"
  set s₂ : State := { s₁ with names := result.2 }
  have hstart := scopes_iterationStart (c := c) (s := s₂) hb op list initial
  have hvalue := h.value_gives
    { (iterationStart op list initial b c s₂).2 with
      scopes := declaredScalars literal.paramNames
        (iterationStart op list initial b c s₂).2.scopes.push }
    (congrArg (fun scopes => declaredScalars literal.paramNames scopes.push)
      (hstart.trans hscopes))
  let loop : IndexLoop other env op :=
    { list, index := index.1, result := result.1, names := literal.paramNames
      value := (valueOf literal.resultExpr? b c
        { (iterationStart op list initial b c s₂).2 with
          scopes := declaredScalars literal.paramNames
            (iterationStart op list initial b c s₂).2.scopes.push }).1
      items, f, first, around
      list_gives := hlist _ _
      value_gives := hvalue
      around_agree := haround
      index_temporary := isTemporary_fresh _ _
      result_temporary := isTemporary_fresh _ _
      index_ne := fresh_ne (a := 'i') (b := 'r') (by decide)
      names_free := hliteral.names_free }
  have hinitial : Option.Rel (fun e v => e.result other loop.around = some (.one v))
      (initial.map fun node => (value node b c s₂).1) loop.first := by
    cases h.initial_gives with
    | none => exact .none
    | some hgives => exact .some (hgives s₂ hscopes around haround)
  obtain ⟨found, hfound, hresult⟩ := loop.exists_bodyResult hop hinitial htruth hexpected
  refine ⟨found, ?_, hresult⟩
  rw [← hfound, IndexLoop.stmts, ← iterationStart_run loop initial, Expr.result]
  dsimp only
  rw [callbackValue_run (by rw [hliteral.isExpr, hliteral.named]; rfl)]
  dsimp only
  rw [bindParams_run hliteral.named (hliteral.length_le.trans (by cases op <;> rfl))]
  rw [resultDecl_eq hop, final_eq hop, append_nil, append_assoc]
  exact bodyResult_append hsetup

/-- **The block function that an iteration becomes gives what the iteration computes.** -/
theorem exists_result_nativeIteration (hop : blockOp? op = some blockOp)
    (hliteral : IsPlainCallback op literal) (helement : literal.isElementOnly = true)
    (hb : Sound b) (h : Operands other env op array literal initial b c s f items first)
    (htruth : op.isTest = true → ∀ entry ∈ items.zipIdx,
      isTrue (f (Iteration.arguments items entry)) = Iteration.holds f items entry)
    (hexpected : op.result f items first = some expected) :
    ∃ found, (nativeIteration op blockOp literal (listOf array b c s).1 b c
        (listOf array b c s).2).1.result other env = some (.one found) ∧
      IsResultOf op found expected := by
  obtain ⟨r, hlist, hitems⟩ := h.elements
  have hlength : literal.paramNames.length ≤ 1 := by
    unfold isElementOnly at helement
    rw [Bool.and_eq_true, Bool.and_eq_true, decide_eq_true_iff] at helement
    exact (length_filterMap_le ..).trans helement.1.1
  have hscopes : (listOf array b c s).2.scopes = s.scopes :=
    scopes_of_makes (makes_listOf fun _ => fits_node array) hb c s
  rw [nativeIteration_run helement]
  exact exists_result_elementBlock hop (fun name hname => (hliteral.names_free name hname).2) hlength
    (h.value_gives _ (congrArg (fun scopes => declaredScalars literal.paramNames scopes.push) hscopes))
    hlist hitems htruth hexpected

/-- **Iterations compute what they do in the program**, for every callback that is one expression of
some of its arguments, if the values of a test are true in Perl just when they are in the program.
The loop over the indices computes the same. -/
theorem iterations_compute (height : Nat) (hliteral : ofNode? callback = some literal)
    (hcallback : IsPlainCallback op literal) (hop : op ≠ .forEach)
    (hitems : op = .reduce → first = none → items ≠ [])
    (h : Operands other env op array literal initial (level height) c s f items first)
    (htruth : op.isTest = true → ∀ entry ∈ items.zipIdx,
      isTrue (f (Iteration.arguments items entry)) = Iteration.holds f items entry) :
    ∃ expected, op.result f items first = some expected ∧
      (∃ found, (iterate op array callback initial (level height) c s).1.result other env =
        some (.one found) ∧ IsResultOf op found expected) ∧
      ∃ found, (indexedIteration op array callback (some literal) initial (level height) c s).1.result
        other env = some (.one found) ∧ IsResultOf op found expected := by
  obtain ⟨expected, hexpected⟩ := Iteration.exists_result (f := f) hitems
  have hindexed := exists_result_indexedIteration callback (sound_level height) hop
    hcallback h htruth hexpected
  refine ⟨expected, hexpected, ?_, hindexed⟩
  unfold iterate
  rw [hliteral, Option.filter_some]
  cases helement : literal.isElementOnly with
  | false => exact hindexed
  | true =>
    cases hblock : blockOp? op with
    | none => exact hindexed
    | some blockOp =>
      exact exists_result_nativeIteration hblock hcallback helement (sound_level height) h htruth
        hexpected

variable {height : Nat}

namespace Projections

open Projection

/-- A state in which an array has been declared. -/
def state : State := { State.initial with scopes := ⟨[], [("xs", .list)]⟩ }

theorem value_variableNode {name : String} (h : s.scopes.lookup? name = some .scalar)
    (hname : name ∉ ["undefined", "NaN", "Infinity"]) :
    (value (variableNode name) (level (height + 1)) c s).1 = .var name .scalar := by
  change ((lowerExpr (variableNode name)).run (level height) c s).1.getD .undefined = _
  unfold lowerExpr
  rw [unwrapped_variableNode]
  change (identifier name (level height) c s).1 = _
  have hlookup : ((get : Lower State) (level height) c s).1.scopes.lookup? name = some .scalar := h
  unfold identifier
  rw [run_bind, hlookup]
  split
  · exact absurd (by decide) hname
  · exact absurd (by decide) hname
  · exact absurd (by decide) hname
  · rfl

theorem arrayBase_variableNode (height : Nat) {name : String}
    (h : s.scopes.lookup? name = some .list) :
    (arrayBase (variableNode name) (level height) c s).1 = .var name .list := by
  have hlookup : (lookup? name (level height) c s).1 = some .list := h
  unfold arrayBase
  rw [unwrapped_variableNode]
  change ((lookup? name >>= _ : Lower Expr) (level height) c s).1 = _
  rw [run_bind, hlookup]
  rfl

theorem listOf_variableNode {name : String} (h : s.scopes.lookup? name = some .list) :
    (listOf (variableNode name) (level height) c s).1 = .var name .list := by
  have hbase := arrayBase_variableNode (c := c) height h
  have htextual : (variableNode name).isTextual = false := by
    rw [Node.isTextual, unwrapped_variableNode]
    rfl
  unfold listOf
  rw [unwrapped_variableNode, htextual]
  change elementsOf (arrayBase (variableNode name) (level height) c s).1 = _
  rw [hbase]
  rfl

variable {names : List String} {name : String}

theorem operands (hdeclared : (declaredScalars names state.scopes.push).lookup? name = some .scalar)
    (hname : name ∉ ["undefined", "NaN", "Infinity"]) (hnames : "xs" ∉ names)
    (hlookup : ∀ args ∈ op.calls f items none,
      (parameters names args).lookup (name, .scalar) = some (f args)) (hown : ¬ IsOwn (name, .scalar)) :
    Operands (fun _ _ => none) [(("xs", .list), .array items)] op (variableNode "xs")
      (asCallback names name) none (level 1) .initial state f items none where
  array_gives := by
    rw [arrayBase_variableNode _ rfl, paramNames_asCallback]
    intro env' henv'
    have hfree : ¬ (IsOwn ("xs", .list) ∨ "xs" ∈ names) := by
      rintro ((htemporary | htopic) | hname)
      · exact absurd htemporary (by decide)
      · exact absurd htopic (by decide)
      · exact hnames hname
    rw [Expr.result, Env.list?, henv' _ hfree]
    rfl
  elements := by
    rw [listOf_variableNode rfl]
    exact ⟨_, rfl, rfl⟩
  initial_gives := .none
  value_gives := by
    rw [paramNames_asCallback]
    intro s' hs' args hargs env' henv'
    change (value (variableNode name) (level 1) .initial s').1.result _ env' = _
    rw [value_variableNode (hs' ▸ hdeclared) hname, Expr.result, henv' _ hown, lookup_append,
      hlookup args hargs]
    rfl

theorem isPlainCallback (hlength : names.length ≤ op.passed)
    (hfree : ∀ name ∈ names, ¬ IsTemporary name ∧ name ≠ "_") :
    IsPlainCallback op (asCallback names name) where
  named := by
    rw [hasNamedParams, params_asCallback, all_map]
    exact all_eq_true.2 fun _ _ => rfl
  isExpr := rfl
  length_le := by rwa [params_asCallback, length_map]
  names_free := by rwa [paramNames_asCallback]

def texts : List Value := [.text "a", .text "", .text "b"]

/-- A state in which an array and a variable have been declared whose name is drawn next. -/
def takenState : State :=
  { State.initial with scopes := ⟨[], [("xs", .list), ("__i_1", .scalar)]⟩ }

end Projections

open Projections Projection

/-- `xs.filter((x, i) => i)` leaves out the first element. -/
theorem iterations_compute_filter :
    ∃ expected, Iteration.filter.result (·.getD 1 .undefined) texts none = some expected ∧
      (∃ found, (iterate .filter (variableNode "xs") (node ["x", "i"] "i") none (level 1)
          .initial state).1.result (fun _ _ => none) [(("xs", .list), .array texts)] =
        some (.one found) ∧ IsResultOf .filter found expected) ∧
      ∃ found, (indexedIteration .filter (variableNode "xs") (node ["x", "i"] "i")
          (some (asCallback ["x", "i"] "i")) none (level 1) .initial state).1.result
          (fun _ _ => none) [(("xs", .list), .array texts)] = some (.one found) ∧
        IsResultOf .filter found expected := by
  have hown : ¬ IsOwn ("i", .scalar) := by
    rintro (htemporary | htopic)
    · exact absurd htemporary (by decide)
    · exact absurd htopic (by decide)
  refine iterations_compute 1 (ofNode?_node _ _)
    (isPlainCallback (by decide) (by decide)) Iteration.noConfusion nofun
    (operands rfl (by decide) (by decide) (fun args hargs => ?_) hown) fun _ entry hentry => ?_
  · obtain ⟨entry, -, rfl⟩ := List.mem_map.1 hargs
    rfl
  · rfl

/-- Nothing keeps the names that are made up apart from those of the program. In
`xs.map((x, i) => __i_1)` the callback gives the index of the loop and not the variable. -/
theorem iteration_captures_index :
    let env : Env := [(("xs", .list), .array [.text "a"]), (("__i_1", .scalar), .int 9)]
    Iteration.map.result (fun _ => .int 9) [.text "a"] none = some (.array [.int 9]) ∧
      (value (variableNode "__i_1") (level 1) .initial takenState).1.result
        (fun _ _ => none) env = some (.one (.int 9)) ∧
      (iterate .map (variableNode "xs") (node ["x", "i"] "__i_1") none (level 1) .initial
        takenState).1.result (fun _ _ => none) env = some (.one (.array [.int 0])) := by
  refine ⟨rfl, ?_, ?_⟩
  · rw [value_variableNode rfl (by decide)]
    rfl
  · have hloop : (iterate .map (variableNode "xs") (node ["x", "i"] "__i_1") none (level 1)
        .initial takenState).1 =
        (indexedIteration .map (variableNode "xs") (node ["x", "i"] "__i_1")
          (some (asCallback ["x", "i"] "__i_1")) none (level 1) .initial takenState).1 := by
      unfold iterate
      rw [ofNode?_node]
      rfl
    have hlist : stableArray (variableNode "xs") (level 1) .initial takenState =
        (([], .var "xs" .list), takenState) := by
      unfold stableArray
      rw [run_bind]
      have hbase : arrayBase (variableNode "xs") (level 1) .initial takenState =
          (.var "xs" .list, takenState) :=
        Prod.ext (arrayBase_variableNode 1 rfl) (by
          unfold arrayBase
          rw [unwrapped_variableNode]
          rfl)
      rw [hbase]
      rfl
    rw [hloop, indexedIteration_run, hlist]
    dsimp only
    rw [callbackValue_run rfl]
    dsimp only
    rw [bindParams_run (by rw [params_asCallback]; rfl) (by rw [params_asCallback]; decide)]
    have hvalue (s : State) (hs : s.scopes.lookup? "__i_1" = some .scalar) :
        (valueOf (asCallback ["x", "i"] "__i_1").resultExpr? (level 1) .initial s).1 =
          .var "__i_1" .scalar := value_variableNode hs (by decide)
    rw [hvalue _ rfl, params_asCallback]
    rfl

end Scriptgen.Perl
