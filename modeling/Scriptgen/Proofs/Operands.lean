import Scriptgen.Proofs.Mirrors.Source
import Scriptgen.Proofs.Perl.Evaluation
import Scriptgen.Proofs.Perl.Words
import Scriptgen.Proofs.Ruby.Evaluation
import Scriptgen.Proofs.Ruby.Words
/-!
# Operands that are variables

An operand that is the name of a variable is lowered to that variable and leaves the state as it is
(`Perl.Names.value_eq`, `Ruby.Names.value_eq`). `Holds` and `HoldsArray` add what the variable holds
when the generated code is run.
-/

namespace Scriptgen

theorem IsVariable.isNegativeLiteral_eq {node : Node} {name : String} (h : IsVariable node name) :
    node.isNegativeLiteral = false := by
  rw [Node.isNegativeLiteral, h.unwrapped_eq, h.type]
  rfl

end Scriptgen

namespace Scriptgen.Perl

open Lowering

structure Names (s : State) (node : Node) (x : String) : Prop extends IsVariable node x where
  untagged : node.tagged = false
  holds : s.HoldsScalar x

variable {s : State} {node : Node} {name : String}

theorem Names.value_eq (h : Names s node name) (n : Nat) (c : Context) :
    value node (level (n + 1)) c s = (.scalar name, s) := by
  have huntagged : node.unwrapped.tagged = false := by
    rw [h.unwrapped_eq]
    exact h.untagged
  have hplain : (plainExpr node).run (level n) c s = (some (.scalar name), s) := by
    rw [plainExpr, h.type]
    simp only [attempt_bind, need_run, h.name, attempt_lift]
    rw [identifier_of_holdsScalar h.holds]
  refine value_of_expr ?_
  change (lowerExpr node).run (level n) c s = _
  rw [lowerExpr_of_untagged huntagged, h.unwrapped_eq, hplain]

structure Holds (s : State) (env : Env) (node : Node) (value : Value) (x : String) : Prop
    extends Names s node x where
  held : env.lookup (x, .scalar) = some value

theorem Holds.result_eq {env : Env} {value : Value} {x : String}
    (h : Holds s env node value x) (other : Meaning) :
    (Expr.scalar x).result other env = some (.one value) := by
  rw [Expr.scalar, Expr.result, h.held]
  rfl

/-- A node is a variable that holds an array, by itself or by a reference to it. -/
inductive HoldsArray (s : State) (env : Env) (node : Node) (items : List Value) : Expr → Prop where
  | list {name : String} (isVariable : IsVariable node name)
      (declared : s.scopes.lookup? name = some .list)
      (held : env.lookup (name, .list) = some (.array items)) :
      HoldsArray s env node items (.var name .list)
  | reference {name : String} (holds : Holds s env node (.array items) name)
      (declared : s.scopes.lookup? name = some .scalar) : HoldsArray s env node items (.scalar name)

namespace HoldsArray

variable {s : State} {env : Env} {array : Node} {base : Expr} {items : List Value}

section

variable (h : HoldsArray s env array items base)

include h

theorem exists_name :
    ∃ name shape, IsVariable array name ∧ s.scopes.lookup? name = some shape ∧ shape ≠ .map := by
  cases h with
  | list hvar hdecl => exact ⟨_, _, hvar, hdecl, nofun⟩
  | reference hholds hdecl => exact ⟨_, _, hholds.toIsVariable, hdecl, nofun⟩

theorem arrayBase_eq (n : Nat) (c : Context) :
    arrayBase array (level (n + 1)) c s = (base, s) := by
  have hlook (name : String) :
      Perl.lookup? name (level (n + 1)) c s = (s.scopes.lookup? name, s) := rfl
  unfold arrayBase
  cases h with
  | list hvar hdecl =>
    simp only [hvar.unwrapped_eq, hvar.name, run_bind, hlook, hdecl]
    rfl
  | reference hholds hdecl =>
    simp only [hholds.unwrapped_eq, hholds.name, run_bind, hlook, hdecl]
    exact hholds.value_eq n c

theorem stableArray_eq (n : Nat) (c : Context) :
    stableArray array (level (n + 1)) c s = (([], base), s) := by
  rw [stableArray, run_bind, h.arrayBase_eq n c]
  cases h <;> rfl

theorem result_eq (other : Meaning) :
    ∃ result, base.result other env = some result ∧ result.array? = some items := by
  cases h with
  | list _ _ hheld =>
    refine ⟨.many items, ?_, rfl⟩
    rw [Expr.result, Env.list?, hheld]
    rfl
  | reference hholds => exact ⟨.one (.array items), hholds.result_eq other, rfl⟩

end

end HoldsArray

end Scriptgen.Perl

namespace Scriptgen.Ruby

open Lowering

structure Names (c : Context) (s : State) (node : Node) (x : String) : Prop
    extends IsVariable node x where
  untagged : node.tagged = false
  holds : HoldsVariable c s x

variable {c : Context} {s : State} {node : Node} {name : String}

theorem Names.value_eq (h : Names c s node name) (n : Nat) :
    value node (level (n + 1)) c s = (variableOf c s name, s) := by
  have huntagged : node.unwrapped.tagged = false := by
    rw [h.unwrapped_eq]
    exact h.untagged
  have hplain : (plainExpr node).run (level n) c s = (some (variableOf c s name), s) := by
    rw [plainExpr, h.type]
    simp only [attempt_bind, need_run, h.name, attempt_lift]
    rw [identifier_of_holdsVariable h.holds]
  refine value_of_expr ?_
  change (lowerExpr node).run (level n) c s = _
  rw [lowerExpr_of_untagged huntagged, h.unwrapped_eq, hplain]

structure Holds (c : Context) (s : State) (other : Meaning) (env : Env) (node : Node)
    (value : Value) (x : String) : Prop extends Names c s node x where
  held : (variableOf c s x).eval other env = some (.one value, env)

/-- A node is a variable that holds an array, and that is not taken for an object or a
collection. -/
structure HoldsArray (c : Context) (s : State) (other : Meaning) (env : Env) (node : Node)
    (items : List Value) (x : String) : Prop extends Holds c s other env node (.array items) x where
  declared : isDeclared c s x = true
  notMap : s.scopes.lookup? x ≠ some .map
  noCollection : s.known.collectionOf? node = none

end Scriptgen.Ruby
