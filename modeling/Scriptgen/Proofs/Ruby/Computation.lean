import Scriptgen.Proofs.Ruby.Words
import Scriptgen.Proofs.Words.Dialect
/-!
# Running generated Ruby on integers

`Expr.compute` runs the Ruby that computes with words: operators on integers of any size, and blocks
that set variables, which keep their values. Every other expression is left to a function that is
given.
-/

namespace Scriptgen.Ruby

open Words Lowering

/-- A variable of generated code. -/
abbrev Var := VarKind × String

/-- What an operator does on integers. The right operand of a remainder has to be positive, and the
remainder is not negative then. -/
def BinaryOp.compute? : BinaryOp → Option (Int → Int → Option Int)
  | .mul => some fun a b => some (a * b)
  | .mod => some fun a b => if 0 < b then some (a % b) else none
  | op => op.onIntegers?.map fun f a b => some (f a b)

variable {op : BinaryOp} {f : Int → Int → Option Int}

section

variable {W : Type}

variable (other : Expr → Computation Var W Int)

mutual

def Expr.compute : Expr → Computation Var W Int
  | .number text => StateT.lift ((Text.integerLiteral? text.toList).map Int.ofNat)
  | .var name kind => fun m => some (m.vars (kind, name), m)
  | .paren inner => inner.compute
  | .binary op left right leftParens rightParens =>
    match op.compute? with
    | some f => do
      let a ← left.compute
      let b ← right.compute
      StateT.lift (f a b)
    | none => other (.binary op left right leftParens rightParens)
  | .begin body => computeBody body
  | e => other e

/-- What a block does: it sets variables, and its last statement is its value. -/
def computeBody : List Stmt → Computation Var W Int
  | [⟨.expr result, _⟩] => result.compute
  | ⟨.expr (.assign (.var name kind) none value), _⟩ :: rest => do
    let v ← value.compute
    modify (·.set (kind, name) v)
    computeBody rest
  | _ => failure

end

mutual

def Expr.computeList : Expr → Computation Var W (List Int)
  | .array items => items.mapM fun item => item.compute other
  | .begin body => computeListBody body
  | _ => failure

def computeListBody : List Stmt → Computation Var W (List Int)
  | [⟨.expr result, _⟩] => result.computeList
  | ⟨.expr (.assign (.var name kind) none value), _⟩ :: rest => do
    let v ← value.compute other
    modify (·.set (kind, name) v)
    computeListBody rest
  | _ => failure

end

variable {other} {m m' m'' : Memory Var W}
variable {e left right : Expr} {a b : Int}

theorem compute_number (text : String) :
    (Expr.number text).compute other = StateT.lift ((Text.integerLiteral? text.toList).map Int.ofNat) := by
  rw [Expr.compute]

theorem compute_localVar (name : String) (m : Memory Var W) :
    (Expr.localVar name).compute other m = some (m.vars (.plain, name), m) := by
  rw [Expr.localVar, Expr.compute]

theorem compute_hex (n : Nat) (m : Memory Var W) :
    (hex n).compute other m = some ((n : Int), m) := by
  rw [hex, compute_number, (Text.denotes_hex n).read]
  rfl

theorem compute_binary (hop : op.compute? = some f) (left right : Expr) :
    (binary op left right).compute other = operate f (left.compute other) (right.compute other) := by
  rw [binary, Expr.compute]
  simp only [hop]
  rfl

theorem compute_binary_of (hop : op.compute? = some f)
    (hl : left.compute other m = some (a, m')) (hr : right.compute other m' = some (b, m'')) :
    (binary op left right).compute other m = (f a b).map (·, m'') := by
  rw [compute_binary hop, operate_of hl hr]

theorem compute_operator {f : Int → Int → Int} (hop : op.onIntegers? = some f)
    (hl : left.compute other m = some (a, m')) (hr : right.compute other m' = some (b, m'')) :
    (binary op left right).compute other m = some (f a b, m'') := by
  have hcompute : op.compute? = some fun a b => some (f a b) := by
    cases op <;> cases hop <;> rfl
  exact compute_binary_of hcompute hl hr

def dialect : Words.Dialect Expr where
  number := .number
  binary
    | .and => binary .bitAnd
    | .or => binary .bitOr
    | .shl => binary .shl
    | .shr => binary .shr
    | .sub => binary .sub
    | .mod => binary .mod

theorem runs_dialect (other : Expr → Computation Var W Int) :
    dialect.Runs unbounded (Expr.compute other) where
  number text m := by
    rw [dialect, compute_number]
    cases hread : Text.integerLiteral? text.toList <;> rfl
  binary op left right := by cases op <;> exact compute_binary rfl left right

theorem compute_begin (body : List Stmt) :
    (Expr.begin body).compute other = computeBody other body := by
  rw [Expr.compute]

theorem compute_set {name : String} {value : Expr} {stmt : Stmt} {rest : List Stmt} :
    computeBody other (.set (.localVar name) value :: stmt :: rest) = (do
      let v ← value.compute other
      modify (·.set (.plain, name) v)
      computeBody other (stmt :: rest)) := by
  rw [Stmt.set, Stmt.ofExpr, Stmt.plain, Expr.localVar, computeBody]
  exact nofun

theorem compute_result (result : Expr) :
    computeBody other [.ofExpr result] = result.compute other := by
  rw [Stmt.ofExpr, Stmt.plain, computeBody]

end

/-! ## Temporaries -/

/-- The variables that are made up. -/
def IsTemporaryVar (x : Var) : Prop := x.1 = .plain ∧ IsTemporary x.2

theorem shared_of_isSimple {e : Expr} (h : e.isSimple = true) (stem : String) (below : Below)
    (c : Context) (s : State) : shared e stem below c s = (([], e), s) := by
  rw [shared, if_pos h]
  rfl

theorem shared_of_not_isSimple {e : Expr} (h : e.isSimple = false) (stem : String) (below : Below)
    (c : Context) (s : State) :
    shared e stem below c s =
      (([.set (.localVar (s.names.fresh stem).1) e], .localVar (s.names.fresh stem).1),
        { s with names := (s.names.fresh stem).2 }) := by
  rw [shared, if_neg (by rw [h]; decide)]
  rfl

end Scriptgen.Ruby
