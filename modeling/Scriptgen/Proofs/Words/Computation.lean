import Mathlib.Data.List.Forall2
import Mathlib.Logic.Function.Basic
/-!
# Computations with effects

A generated expression is run on the variables and on everything else that code may change. Two
expressions that are the same computation evaluate the same operands, equally often and in the same
order. `Ignores` says of a computation that it has nothing to do with a variable.
-/

namespace Scriptgen.Words

/-- The variables, which hold integers, and everything else that code may change. -/
@[ext]
structure Memory (κ W : Type) where
  vars : κ → Int
  world : W

/-- What code does. It gives nothing where it fails. -/
abbrev Computation (κ W : Type) := StateT (Memory κ W) Option

section

variable {κ W : Type}

/-! ## Operators -/

/-- Evaluates two operands one after the other and joins what they give. -/
def operate (f : Int → Int → Option Int) (x y : Computation κ W Int) : Computation κ W Int := do
  let a ← x
  let b ← y
  StateT.lift (f a b)

section

variable {f : Int → Int → Option Int} {x y : Computation κ W Int} {m m' m'' : Memory κ W} {a b : Int}

theorem operate_of (hx : x m = some (a, m')) (hy : y m' = some (b, m'')) :
    operate f x y m = (f a b).map (·, m'') := by
  change (x m).bind _ = _
  rw [hx]
  change (y m').bind _ = _
  rw [hy]
  cases hf : f a b with
  | none => simp [StateT.lift, hf]
  | some c => simp [StateT.lift, hf]

theorem operate_left_none (hx : x m = none) : operate f x y m = none := by
  change (x m).bind _ = _
  rw [hx]
  rfl

theorem operate_right_none (hx : x m = some (a, m')) (hy : y m' = none) :
    operate f x y m = none := by
  change (x m).bind _ = _
  rw [hx]
  change (y m').bind _ = _
  rw [hy]
  rfl

theorem mapM_of_forall₂ {α : Type} {run : α → Computation κ W Int} {items : List α}
    {values : List Int} (h : List.Forall₂ (fun item v => run item m = some (v, m)) items values) :
    items.mapM run m = some (values, m) := by
  induction h with
  | nil => rfl
  | @cons item v items values hitem _ ih =>
    rw [List.mapM_cons]
    change (run item m).bind _ = _
    rw [hitem]
    change (items.mapM run m).bind _ = _
    rw [ih]
    rfl

end

/-! ## Variables -/

variable [DecidableEq κ]

namespace Memory

def set (m : Memory κ W) (x : κ) (v : Int) : Memory κ W := { m with vars := Function.update m.vars x v }

@[simp] theorem vars_set_self (m : Memory κ W) (x : κ) (v : Int) : (m.set x v).vars x = v :=
  Function.update_self ..

theorem vars_set_of_ne (m : Memory κ W) {x y : κ} (v : Int) (h : y ≠ x) :
    (m.set x v).vars y = m.vars y := Function.update_of_ne h ..

@[simp] theorem set_set (m : Memory κ W) (x : κ) (v w : Int) : (m.set x v).set x w = m.set x w := by
  simp [set]

@[simp] theorem set_vars (m : Memory κ W) (x : κ) : m.set x (m.vars x) = m := by
  simp [set]

end Memory

/-- A computation neither looks at a variable nor changes it. -/
def Ignores (x : κ) (run : Computation κ W Int) : Prop :=
  ∀ m v, run (m.set x v) = (run m).map fun result => (result.1, result.2.set x v)

theorem Ignores.set_eq {x : κ} {run : Computation κ W Int} (h : Ignores x run) {m m' : Memory κ W}
    {r : Int} (hrun : run m = some (r, m')) : m'.set x (m.vars x) = m' := by
  have hsame := h m (m.vars x)
  rw [Memory.set_vars, hrun] at hsame
  exact (congrArg (fun result : Int × Memory κ W => result.2) (Option.some.inj hsame)).symm

/-- A change of the memory sets variables of a kind and nothing else. -/
def SetsOnly {κ W : Type} (kind : κ → Prop) (change : Memory κ W → Memory κ W) : Prop :=
  ∀ m, (change m).world = m.world ∧ ∀ x, ¬ kind x → (change m).vars x = m.vars x

theorem SetsOnly.set {kind : κ → Prop} {x : κ} (h : kind x) (v : Int) :
    SetsOnly kind fun m : Memory κ W => m.set x v := by
  refine fun m => ⟨rfl, fun y hy => m.vars_set_of_ne v ?_⟩
  rintro rfl
  exact hy h

omit [DecidableEq κ] in
theorem SetsOnly.comp {kind : κ → Prop} {f g : Memory κ W → Memory κ W} (hf : SetsOnly kind f)
    (hg : SetsOnly kind g) : SetsOnly kind fun m => g (f m) :=
  fun m => ⟨(hg (f m)).1.trans (hf m).1, fun x hx => ((hg (f m)).2 x hx).trans ((hf m).2 x hx)⟩

end

end Scriptgen.Words
