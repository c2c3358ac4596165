import Mathlib.Data.List.TakeWhile
import Scriptgen.Scopes
/-!
# Scopes that grow

Lowering declares names in the innermost scope and leaves all others as they are (`Grows`). A name
belongs to the nearest scope that declares it (`home`), and stays with the innermost one once it is
declared there.
-/

namespace Scriptgen.Scopes

open List Option

variable {scopes : Scopes} {name : String}

def stack (scopes : Scopes) : List Scope := scopes.inner ++ [scopes.outermost]

/-- Scopes at a later point: the innermost one may have got new names, and nothing else is
different. -/
structure Grows (before after : Scopes) : Prop where
  depth : after.depth = before.depth
  outer : after.stack.tail = before.stack.tail
  innermost : before.innermost <:+ after.innermost
  shapes : ∀ name shape, before.innermost.lookup name = some shape →
    after.innermost.lookup name = some shape

variable {σ τ : Scopes}

namespace Grows

theorem refl (scopes : Scopes) : Grows scopes scopes :=
  ⟨rfl, rfl, suffix_rfl, fun _ _ h => h⟩

theorem trans {υ : Scopes} (h : Grows σ τ) (h' : Grows τ υ) : Grows σ υ :=
  ⟨h'.depth.trans h.depth, h'.outer.trans h.outer, h.innermost.trans h'.innermost,
    fun name shape hname => h'.shapes name shape (h.shapes name shape hname)⟩

/-- A declaration adds a name that is new in the innermost scope, or nothing. -/
theorem declare (scopes : Scopes) (name : String) (shape : Shape) :
    Grows scopes (scopes.declare name shape) := by
  unfold Scopes.declare
  split
  · exact .refl scopes
  · rename_i hnew
    have hkept : ∀ other shape', scopes.innermost.lookup other = some shape' →
        ((name, shape) :: scopes.innermost).lookup other = some shape' := by
      intro other shape' hother
      rw [lookup_cons]
      split
      · rename_i heq
        rw [declaredHere, ← beq_iff_eq.1 heq, hother] at hnew
        exact absurd rfl hnew
      · exact hother
    obtain ⟨inner, outermost⟩ := scopes
    cases inner with
    | nil => exact ⟨rfl, rfl, suffix_cons _ _, hkept⟩
    | cons scope rest => exact ⟨rfl, rfl, suffix_cons _ _, hkept⟩

theorem pop (h : Grows σ.push τ) : τ.pop = σ := by
  obtain ⟨inner, outermost⟩ := τ
  have hdepth := h.depth
  cases inner with
  | nil => simp [Scopes.depth, Scopes.push] at hdepth
  | cons scope rest =>
    have houter : rest ++ [outermost] = σ.inner ++ [σ.outermost] := h.outer
    obtain ⟨hrest, hlast⟩ := append_inj' houter rfl
    cases hrest
    cases hlast
    rfl

end Grows

/-! ## Where a name is declared -/

/-- How deep the nearest scope that declares a name lies. The outermost one is the first, and a name
that is not declared has none. -/
def home (scopes : Scopes) (name : String) : Nat :=
  (scopes.stack.dropWhile fun scope => (scope.lookup name).isNone).length

theorem length_stack (scopes : Scopes) : scopes.stack.length = scopes.depth := by
  simp [stack, depth]

theorem home_eq_zero_iff : scopes.home name = 0 ↔ scopes.lookup? name = none := by
  rw [home, length_eq_zero_iff, dropWhile_eq_nil_iff, lookup?, findSome?_eq_none_iff,
    stack]
  simp only [isNone_iff_eq_none]

theorem home_of_declaredHere (h : scopes.declaredHere name = true) :
    scopes.home name = scopes.depth := by
  obtain ⟨inner, outermost⟩ := scopes
  rw [← length_stack]
  cases inner with
  | nil =>
    have hlookup : (outermost.lookup name).isSome = true := h
    simp [home, stack, isSome_iff_ne_none.1 hlookup]
  | cons scope rest =>
    have hlookup : (scope.lookup name).isSome = true := h
    simp [home, stack, isSome_iff_ne_none.1 hlookup]

theorem declaredHere_declare (scopes : Scopes) (name : String) (shape : Shape) :
    (scopes.declare name shape).declaredHere name = true := by
  unfold declare
  split
  · assumption
  · split <;> simp [declaredHere, innermost, *]

theorem Grows.declaredHere (h : Grows σ τ) (hname : σ.declaredHere name = true) :
    τ.declaredHere name = true := by
  obtain ⟨shape, hshape⟩ := isSome_iff_exists.1 hname
  exact isSome_iff_exists.2 ⟨shape, h.shapes name shape hshape⟩

theorem lookup?_eq_or (scopes : Scopes) (name : String) :
    scopes.lookup? name =
      (scopes.innermost.lookup name).or (scopes.stack.tail.findSome? (·.lookup name)) := by
  obtain ⟨inner, outermost⟩ := scopes
  cases inner with
  | nil =>
    change [outermost].findSome? _ = (outermost.lookup name).or none
    rw [findSome?_singleton, or_none]
  | cons scope rest =>
    change (scope :: (rest ++ [outermost])).findSome? _ = (scope.lookup name).or _
    rw [findSome?_cons]
    cases scope.lookup name <;> rfl

theorem Grows.lookup?_ne_none (h : Grows σ τ) (hname : σ.lookup? name ≠ none) :
    τ.lookup? name ≠ none := by
  rw [lookup?_eq_or] at hname ⊢
  rw [h.outer]
  cases hshape : σ.innermost.lookup name with
  | none =>
    rw [hshape, none_or] at hname
    exact fun hnone => hname (or_eq_none_iff.1 hnone).2
  | some shape =>
    rw [h.shapes name shape hshape]
    exact some_ne_none shape

end Scriptgen.Scopes
