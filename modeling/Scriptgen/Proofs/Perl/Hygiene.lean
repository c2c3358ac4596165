import Scriptgen.Proofs.Perl.Iterations
/-!
# The variables of an array in an iteration over its indices

An array that can be written twice is written wherever the loop of an iteration needs it. A `Sketch`
is such a loop with these places left open, and `Sketch.places` lists those in the scope of
parameters. A parameter with the name of a variable of the array captures it in the places that come
later (`elementParameter_captures`). Main result: `indexedIteration_hygienic_iff`.
-/

namespace Scriptgen.Perl

open Lowering List

/-! ## Places -/

/-- The argument of a callback, with or without a place for the array. -/
inductive Arg where
  | own (expr : Expr)
  | array (use : Expr → Expr)

def Arg.write (array : Expr) : Arg → Expr
  | .own expr => expr
  | .array use => use array

/-- A statement with or without a place for the array. -/
inductive Line where
  | param (name : String) (arg : Arg)
  | own (stmt : Stmt)
  | array (use : Expr → Stmt)

namespace Line

def write (array : Expr) : Line → Stmt
  | .param name arg => .my name .scalar (some (arg.write array))
  | .own stmt => stmt
  | .array use => use array

def hasPlace : Line → Bool
  | .param _ (.array _) | .array _ => true
  | .param _ (.own _) | .own _ => false

/-- The parameter that a statement declares for those after it. -/
def declared : Line → List String
  | .param name _ => [name]
  | .own _ | .array _ => []

/-- The parameters that are declared in the places of statements, after others. -/
def placesAfter (before : List String) : List Line → List (List String)
  | [] => []
  | line :: rest =>
    (if line.hasPlace then [before] else []) ++ placesAfter (before ++ line.declared) rest

end Line

/-- A loop over the indices of an array, between other statements. Its parameters are not in scope
outside of its body. -/
structure Sketch where
  before : Expr → List Stmt
  index : String
  first : Int
  body : List Line
  after : Stmt

namespace Sketch

def write (sketch : Sketch) (array : Expr) : Expr :=
  .doBlock (sketch.before array ++
    [.plain (.foreach none sketch.index (indicesFrom sketch.first array)
      (sketch.body.map (Line.write array))), sketch.after])

/-- The places of the array in the body, with the parameters that are declared there. -/
def places (sketch : Sketch) : List (List String) := Line.placesAfter [] sketch.body

/-- **No parameter captures a variable**: in each place, it is not yet declared or spelled in another
way. Parameters are scalars, so that `@x` is spelled in another way than `x`. -/
def Hygienic (sketch : Sketch) (vars : List (String × Shape)) : Prop :=
  ∀ declared ∈ sketch.places, ∀ name ∈ declared, (name, Shape.scalar) ∉ vars

end Sketch

/-! ## The loop of an iteration -/

def roundArgs (op : Iteration) (index result : String) : List Arg :=
  (if op == .reduce then [.own (.scalar result)] else []) ++
    [.array (.index · (.scalar index)), .own (.scalar index), .array arrayRefTo]

def usesElement (op : Iteration) : Bool := op == .filter || op == .find

def stepLine (op : Iteration) (index result : String) (value : Expr) : Line :=
  let step (element : Expr) := iterationStep op result element (.scalar index) value
  if usesElement op then .array fun array => step (.index array (.scalar index))
  else .own (step .undefined)

/-- The declaration of the result. A reduction without a first value starts with the array. -/
def resultDecl (op : Iteration) (result : String) (initial : Option Expr) (array : Expr) :
    List Stmt :=
  match op with
  | .map | .filter => [.my result .list none]
  | .forEach => []
  | .reduce => [.my result .scalar (some (initial.getD (.index array (.int 0))))]
  | .any => [.my result .scalar (some (.int 0))]
  | .all => [.my result .scalar (some (.int 1))]
  | .findIndex => [.my result .scalar (some (.int (-1)))]
  | .find => [.my result .scalar none]

def iterationSketch (op : Iteration) (setup : List Stmt) (initial : Option Expr)
    (index result : String) (names : List String) (value : Expr) : Sketch where
  before array := setup ++ resultDecl op result initial array
  index := index
  first := if op == .reduce && initial.isNone then 1 else 0
  body := (names.zip (roundArgs op index result)).map (fun pair => .param pair.1 pair.2) ++
    [stepLine op index result value]
  after := .ofExpr (if collects op then unary .ref (.var result .list)
    else if op == .forEach then .undefined else .scalar result)

/-- How many parameters are declared in the last place of the array. -/
def lastPlace (op : Iteration) (count : Nat) : Nat :=
  if usesElement op then min count 3
  else if op == .reduce then if 3 < count then 3 else if 1 < count then 1 else 0
  else if 2 < count then 2 else 0

theorem hygienic_iterationSketch {op : Iteration} {setup : List Stmt} {initial : Option Expr}
    {index result : String} {names : List String} {value : Expr} {vars : List (String × Shape)} :
    (iterationSketch op setup initial index result names value).Hygienic vars ↔
      ∀ name ∈ names.take (lastPlace op names.length), (name, Shape.scalar) ∉ vars := by
  unfold Sketch.Hygienic Sketch.places iterationSketch lastPlace stepLine roundArgs
  -- at most four parameters get an argument
  rcases names with _ | ⟨a, _ | ⟨b, _ | ⟨c, _ | ⟨d, rest⟩⟩⟩⟩ <;> cases op <;>
    simp +contextual [Line.placesAfter, Line.hasPlace, Line.declared, usesElement]

/-! ## Iterations of the program -/

variable {b : Below} {c : Context} {s : State}

/-- Each parameter is bound to the argument in its place, as far as there are arguments. -/
theorem bindParams_fst {params : List Node} {positional : List Expr}
    (hnamed : params.all (·.name?.isSome) = true) :
    (bindParams params positional b c s).1 =
      ((params.filterMap Node.name?).zip positional).map
        fun pair => .my pair.1 .scalar (some pair.2) := by
  unfold bindParams
  induction params generalizing positional s with
  | nil => rfl
  | cons param params ih =>
    cases positional with
    -- parameters beyond the arguments are not declared
    | nil => rw [zip_nil_right, zip_nil_right]; rfl
    | cons arg positional =>
      rw [all_cons, Bool.and_eq_true] at hnamed
      obtain ⟨name, hname⟩ := Option.isSome_iff_exists.1 hnamed.1
      have hrest := @ih { s with scopes := s.scopes.declare name .scalar } positional hnamed.2
      rw [zip_cons_cons, mapM_cons, filterMap_cons_some hname]
      simp only [hname]
      exact congrArg (Stmt.my name .scalar (some arg) :: ·) hrest

theorem write_stepLine (op : Iteration) (index result : String) (value array : Expr) :
    (stepLine op index result value).write array =
      iterationStep op result (.index array (.scalar index)) (.scalar index) value := by
  cases op <;> rfl

/-- The loop of an iteration is its sketch, with the array in all places. -/
theorem indexedIteration_eq_write (op : Iteration) (array callback : Node) (literal : Callback)
    (initial : Option Node) (h : (literal.resultExpr?.isSome && literal.hasNamedParams) = true) :
    ∃ setup start index result value,
      (indexedIteration op array callback (some literal) initial b c s).1 =
        (iterationSketch op setup start index result literal.paramNames value).write
          (stableArray array b c s).1.2 := by
  have hnamed : literal.hasNamedParams = true := (Bool.and_eq_true_iff.1 h).2
  rw [indexedIteration_run]
  simp only [callbackValue_run h, bindParams_fst hnamed]
  generalize stableArray array b c s = list
  obtain ⟨⟨setup, base⟩, s₁⟩ := list
  generalize s₁.names.fresh "i" = index
  generalize index.2.fresh "result" = result
  generalize valueOf literal.resultExpr? b c _ = called
  generalize hstart : iterationStart op base initial b c _ = start
  refine ⟨setup, initial.bind fun _ => start.1.1, index.1, result.1, called.1, ?_⟩
  have hargs : (roundArgs op index.1 result.1).map (Arg.write base) =
      (if op == .reduce then [Expr.scalar result.1] else []) ++
        [.index base (.scalar index.1), .scalar index.1, arrayRefTo base] := by
    cases op <;> rfl
  rw [Sketch.write, iterationSketch, ← hargs, append_nil]
  simp only [map_append, map_cons, map_nil, write_stepLine, zip_map_right,
    map_map]
  subst hstart
  cases op <;> cases initial <;> rfl

/-- The variables of an expression that can be written twice. -/
def Expr.ownVariables : Expr → List (String × Shape)
  | .var name shape => [(name, shape)]
  | .index base i => base.ownVariables ++ i.ownVariables
  | .key base k => base.ownVariables ++ k.ownVariables
  | _ => []

/-- The variables of the array expression that are written in the loop. Any other array is looked at
once, before the loop. -/
def loopVariables (array : Expr) : List (String × Shape) :=
  if array.isSimple then array.ownVariables else []

theorem stableArray_simple {array : Node} (h : (arrayBase array b c s).1.isSimple = true) :
    (stableArray array b c s).1.2 = (arrayBase array b c s).1 := by
  have hshared := shared_run (b := b) (c := c) (s := (arrayBase array b c s).2)
    (arrayBase array b c s).1 "list"
  rw [if_pos h] at hshared
  exact congrArg Prod.snd hshared

/-- **Just which variables of the array are captured.** For every array, every iteration and every
callback that is put in place, the variables of the array mean the same in all places of the loop if
and only if none of them has the name of a parameter that is declared before the last place. -/
theorem indexedIteration_hygienic_iff (op : Iteration) (array callback : Node) (literal : Callback)
    (initial : Option Node) (h : (literal.resultExpr?.isSome && literal.hasNamedParams) = true)
    (b : Below) (c : Context) (s : State) :
    ∃ setup start index result value,
      let sketch := iterationSketch op setup start index result literal.paramNames value
      (indexedIteration op array callback (some literal) initial b c s).1 =
        sketch.write (stableArray array b c s).1.2 ∧
      ((arrayBase array b c s).1.isSimple = true →
        (stableArray array b c s).1.2 = (arrayBase array b c s).1) ∧
      (sketch.Hygienic (loopVariables (arrayBase array b c s).1) ↔
        ∀ name ∈ literal.paramNames.take (lastPlace op literal.paramNames.length),
          (name, Shape.scalar) ∉ loopVariables (arrayBase array b c s).1) := by
  obtain ⟨setup, start, index, result, value, hcode⟩ :=
    indexedIteration_eq_write (b := b) (c := c) (s := s) op array callback literal initial h
  exact ⟨setup, start, index, result, value, hcode, stableArray_simple, hygienic_iterationSketch⟩

open Projections Projection

/-- `xs.filter((xs, i) => i)` over an array variable captures nothing: `@xs` is not `$xs`. -/
theorem indexedIteration_hygienic_iff_listVariable :
    ∃ setup start index result value,
      let sketch := iterationSketch .filter setup start index result ["xs", "i"] value
      (indexedIteration .filter (variableNode "xs") (node ["xs", "i"] "i")
        (some (asCallback ["xs", "i"] "i")) none (level 1) .initial state).1 =
          sketch.write (.var "xs" .list) ∧
      sketch.Hygienic [("xs", .list)] := by
  have hbase : (arrayBase (variableNode "xs") (level 1) .initial state).1 = .var "xs" .list :=
    arrayBase_variableNode 1 rfl
  obtain ⟨setup, start, index, result, value, hcode, hsimple, hiff⟩ :=
    indexedIteration_hygienic_iff .filter (variableNode "xs") (node ["xs", "i"] "i")
      (asCallback ["xs", "i"] "i") none rfl (level 1) .initial state
  rw [hbase] at hsimple hiff
  rw [hsimple rfl] at hcode
  exact ⟨setup, start, index, result, value, hcode, hiff.2 (by decide)⟩

def scalarState : State := { state with scopes := ⟨[], [("a", .scalar)]⟩ }

/-- `a.filter((a, i) => i)` looks for the elements that are left in its parameter. -/
theorem elementParameter_captures :
    ∃ setup start index result value,
      let sketch := iterationSketch .filter setup start index result ["a", "i"] value
      (indexedIteration .filter (variableNode "a") (node ["a", "i"] "i")
        (some (asCallback ["a", "i"] "i")) none (level 1) .initial scalarState).1 =
          sketch.write (.var "a" .scalar) ∧
      ¬ sketch.Hygienic [("a", .scalar)] := by
  have hbase : (arrayBase (variableNode "a") (level 1) .initial scalarState).1 =
      .var "a" .scalar := by
    unfold arrayBase
    rw [unwrapped_variableNode]
    exact value_variableNode rfl (by decide)
  obtain ⟨setup, start, index, result, called, hcode⟩ :=
    indexedIteration_eq_write (b := level 1) (c := .top .defaults) (s := scalarState) .filter
      (variableNode "a") (node ["a", "i"] "i") (asCallback ["a", "i"] "i") none rfl
  rw [stableArray_simple (by rw [hbase]; rfl), hbase] at hcode
  exact ⟨setup, start, index, result, called, hcode, fun h =>
    hygienic_iterationSketch.1 h "a" (by decide) mem_cons_self⟩

end Scriptgen.Perl
