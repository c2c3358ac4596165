import Scriptgen.Source.Callback
import Scriptgen.Source.Iteration
import Scriptgen.Proofs.Words.Source
/-!
# What iterations compute

A program calls the callback of an iteration for the elements of an array, one after the other.
`Iteration.result` is what comes of it, for any callback that is a function of its arguments.
`Scriptgen.Proofs.Perl.Iterations` compares generated code with it.
-/

namespace Scriptgen

/-- A value of a program. -/
inductive Value where
  | undefined
  | bool (b : Bool)
  | int (n : Int)
  | nan
  | text (characters : String)
  | array (items : List Value)
  /-- Any other number, and any other object. -/
  | other (id : Nat)

def Value.isTruthy : Value → Bool
  | .undefined | .nan => false
  | .bool b => b
  | .int n => n != 0
  | .text characters => characters != ""
  | .array _ | .other _ => true

def integerOf? (text : String) : Option Int :=
  match text.toList with
  | '-' :: digits => (Text.integerLiteral? digits).map fun n => -Int.ofNat n
  | digits => (Text.integerLiteral? digits).map Int.ofNat

namespace Iteration

/-- Whether the value of the callback is only asked for its truth. -/
def isTest : Iteration → Bool
  | .filter | .any | .all | .find | .findIndex => true
  | .map | .forEach | .reduce => false

/-- The number of arguments that a callback is called with. -/
def passed : Iteration → Nat
  | .reduce => 4
  | _ => 3

def arguments (list : List Value) (entry : Value × Nat) : List Value :=
  [entry.1, .int entry.2, .array list]

variable (f : List Value → Value) (list : List Value)

def holds (entry : Value × Nat) : Bool := (f (arguments list entry)).isTruthy

def accumulate (acc : Value) (entry : Value × Nat) : Value := f (acc :: arguments list entry)

/-- What an iteration over a list computes where some values count as true. There is nothing to start
from if the list is empty and no first value is given. -/
def resultBy (truth : Value → Bool) (initial : Option Value) : Iteration → Option Value
  | .map => some (.array (list.zipIdx.map fun entry => f (arguments list entry)))
  | .filter =>
    some (.array ((list.zipIdx.filter fun entry => truth (f (arguments list entry))).map (·.1)))
  | .forEach => some .undefined
  | .any => some (.bool (list.zipIdx.any fun entry => truth (f (arguments list entry))))
  | .all => some (.bool (list.zipIdx.all fun entry => truth (f (arguments list entry))))
  | .find =>
    some (((list.zipIdx.find? fun entry => truth (f (arguments list entry))).map (·.1)).getD
      .undefined)
  | .findIndex =>
    some (((list.zipIdx.find? fun entry => truth (f (arguments list entry))).map
      fun entry => .int entry.2).getD (.int (-1)))
  | .reduce =>
    match initial, list.zipIdx with
    | some start, entries => some (entries.foldl (accumulate f list) start)
    | none, (first, _) :: rest => some (rest.foldl (accumulate f list) first)
    | none, [] => none

/-- **What an iteration over a list computes in the program.** -/
def result (initial : Option Value) (op : Iteration) : Option Value :=
  op.resultBy f list Value.isTruthy initial

/-- The arguments of the calls that a reduction makes from an accumulator on. -/
def accumulatingCalls (acc : Value) : List (Value × Nat) → List (List Value)
  | [] => []
  | entry :: rest =>
    (acc :: arguments list entry) :: accumulatingCalls (accumulate f list acc entry) rest

def calls (initial : Option Value) : Iteration → List (List Value)
  | .reduce =>
    match initial, list.zipIdx with
    | some start, entries => accumulatingCalls f list start entries
    | none, (first, _) :: rest => accumulatingCalls f list first rest
    | none, [] => []
  | _ => list.zipIdx.map (arguments list)

/-- There is a result unless a reduction has nothing to start from. -/
theorem exists_result {f : List Value → Value} {list : List Value} {initial : Option Value}
    {op : Iteration} (h : op = .reduce → initial = none → list ≠ []) :
    ∃ value, op.result f list initial = some value := by
  cases op with
  | reduce =>
    cases initial with
    | some start => exact ⟨_, rfl⟩
    | none =>
      cases list with
      | nil => exact absurd rfl (h rfl rfl)
      | cons x rest => exact ⟨_, rfl⟩
  | _ => exact ⟨_, rfl⟩

end Iteration

/-! ## Variables of generated code

Generated code brings variables of its own along, which goes well with code that does not look at
them: `Agree` says that two lists of variables look alike but for such ones. -/

/-- Variables with their values, the innermost first. -/
abbrev Variables (κ : Type) := List (κ × Value)

namespace Variables

variable {κ : Type} [BEq κ] {env env' : Variables κ}

theorem lookup_eq_none [LawfulBEq κ] {x : κ} {added : Variables κ} (h : ∀ p ∈ added, p.1 ≠ x) :
    added.lookup x = none := by
  rw [List.lookup_eq_none_iff]
  intro p hp
  exact bne_iff_ne.2 fun heq => h p hp heq.symm

/-- Two lists of variables hold the same values, but for hidden variables. -/
def Agree (hidden : κ → Prop) (env env' : Variables κ) : Prop :=
  ∀ x, ¬ hidden x → env'.lookup x = env.lookup x

namespace Agree

variable {hidden hidden' : κ → Prop} {env₁ : Variables κ}

theorem refl : Agree hidden env env := fun _ _ => rfl

theorem trans (h : Agree hidden env env₁) (h' : Agree hidden env₁ env') : Agree hidden env env' :=
  fun x hx => (h' x hx).trans (h x hx)

theorem mono (h : Agree hidden env env') (hsub : ∀ x, hidden x → hidden' x) :
    Agree hidden' env env' := fun x hx => h x fun hhidden => hx (hsub x hhidden)

theorem append (added : Variables κ) (h : Agree hidden env env') :
    Agree hidden (added ++ env) (added ++ env') := by
  intro x hx
  rw [List.lookup_append, List.lookup_append, h x hx]

theorem prepend [LawfulBEq κ] (added : Variables κ) (h : Agree hidden env env')
    (hadded : ∀ x ∈ added, hidden x.1) : Agree hidden env (added ++ env') := by
  intro x hx
  have hnone : added.lookup x = none := by
    refine lookup_eq_none fun p hp heq => hx ?_
    rw [← heq]
    exact hadded p hp
  rw [List.lookup_append, hnone, Option.none_or]
  exact h x hx

end Agree

end Variables

/-! ## Callbacks that give one of their arguments -/

namespace Projection

def variableNode (name : String) : Node := .of "Identifier" [("name", .string name)]

/-- A function of parameters that gives one of them. -/
def node (names : List String) (name : String) : Node :=
  .of "ArrowFunctionExpression" [
    ("params", .array (names.map fun name => (variableNode name).toJson)),
    ("body", (variableNode name).toJson)]

def asCallback (names : List String) (name : String) : Callback :=
  ⟨node names name, .expr (variableNode name)⟩

theorem unwrapped_variableNode (name : String) : (variableNode name).unwrapped = variableNode name :=
  Node.unwrapped_of_wrapped? rfl

theorem ofNode?_node (names : List String) (name : String) :
    Callback.ofNode? (node names name) = some (asCallback names name) := by
  have hself : (node names name).unwrapped = node names name := Node.unwrapped_of_wrapped? rfl
  rw [Callback.ofNode?, hself]
  rfl

theorem params_asCallback (names : List String) (name : String) :
    (asCallback names name).params = names.map variableNode := by
  induction names with
  | nil => rfl
  | cons first names ih => exact congrArg (variableNode first :: ·) ih

theorem paramNames_asCallback (names : List String) (name : String) :
    (asCallback names name).paramNames = names := by
  rw [Callback.paramNames, params_asCallback, List.filterMap_map]
  exact List.filterMap_some

end Projection

end Scriptgen
