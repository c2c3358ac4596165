import Scriptgen.Proofs.Perl.Words
import Scriptgen.Proofs.Words.Dialect
/-!
# Running generated Perl on integers

`Expr.compute` runs the Perl that computes with words: operators on integers of 64 bits, and blocks
with variables of their own. Every other expression is left to a function that is given.
-/

namespace Scriptgen.Perl

open Words Lowering

/-- What an operator does on integers. A product has to be exact, which it is known to be while it
fits in 53 bits. The right operand of a remainder has to be positive, and the remainder is not
negative then. -/
def BinaryOp.compute? : BinaryOp → Option (Int → Int → Option Int)
  | .mul => some fun a b => if (a * b).natAbs < 2 ^ 53 then some (a * b) else none
  | .mod => some fun a b => if 0 < b then some (a % b) else none
  | op => op.onIntegers?.map fun f a b => some (f a b)

variable {op : BinaryOp} {f : Int → Int → Option Int}

section

variable {W : Type}

/-- Runs code with a variable of its own, which is gone at the end. -/
def withLocal {α : Type} (name : String) (v : Int) (run : Computation String W α) :
    Computation String W α :=
  fun m => (run (m.set name v)).map fun result => (result.1, result.2.set name (m.vars name))

variable (other : Expr → Computation String W Int)

mutual

def Expr.compute : Expr → Computation String W Int
  | .number text => StateT.lift ((Text.integerLiteral? text.toList).map Int.ofNat)
  | .var name .scalar => fun m => some (m.vars name, m)
  | .paren inner => inner.compute
  | .binary op left right leftParens rightParens =>
    match op.compute? with
    | some f => do
      let a ← left.compute
      let b ← right.compute
      StateT.lift (f a b)
    | none => other (.binary op left right leftParens rightParens)
  | .doBlock body => computeBody body
  | e => other e

/-- What a block does: it declares variables, and its last statement is its value. -/
def computeBody : List Stmt → Computation String W Int
  | [⟨.expr result, _⟩] => result.compute
  | ⟨.varDecl [⟨name, .scalar⟩] (some init) .my, _⟩ :: rest => do
    let v ← init.compute
    withLocal name v (computeBody rest)
  | _ => failure

end

mutual

def Expr.computeList : Expr → Computation String W (List Int)
  | .arrayRef items => items.mapM fun item => item.compute other
  | .doBlock body => computeListBody body
  | _ => failure

def computeListBody : List Stmt → Computation String W (List Int)
  | [⟨.expr result, _⟩] => result.computeList
  | ⟨.varDecl [⟨name, .scalar⟩] (some init) .my, _⟩ :: rest => do
    let v ← init.compute other
    withLocal name v (computeListBody rest)
  | _ => failure

end

variable {other} {m m' m'' : Memory String W} {e left right : Expr}
variable {a b : Int}

theorem compute_number (text : String) :
    (Expr.number text).compute other = StateT.lift ((Text.integerLiteral? text.toList).map Int.ofNat) := by
  rw [Expr.compute]

theorem compute_scalar (name : String) (m : Memory String W) :
    (Expr.scalar name).compute other m = some (m.vars name, m) := by
  rw [Expr.scalar, Expr.compute]

theorem compute_hex (n : Nat) (m : Memory String W) :
    (hex n).compute other m = some ((n : Int), m) := by
  rw [hex, compute_number, (Text.denotes_hex n).read]
  rfl

theorem compute_binary (hop : op.compute? = some f) (left right : Expr) :
    (binary op left right).compute other = operate f (left.compute other) (right.compute other) := by
  rw [binary, Expr.compute]
  simp only [hop]
  rfl

/-- Operands are evaluated one after the other. -/
theorem compute_binary_of (hop : op.compute? = some f)
    (hl : left.compute other m = some (a, m')) (hr : right.compute other m' = some (b, m'')) :
    (binary op left right).compute other m = (f a b).map (·, m'') := by
  rw [compute_binary hop, operate_of hl hr]

theorem compute_operator {f : Int → Int → Int} (hop : op.onIntegers? = some f)
    (hl : left.compute other m = some (a, m')) (hr : right.compute other m' = some (b, m'')) :
    (binary op left right).compute other m = some (f a b, m'') := by
  have hcompute : op.compute? = some fun a b => some (f a b) := by
    cases op <;> cases hop <;> rfl
  exact compute_binary_of hcompute hl hr

def dialect : Words.Dialect Expr where
  number := .number
  binary
    | .and => binary .bitAnd
    | .or => binary .bitOr
    | .shl => binary .shl
    | .shr => binary .shr
    | .sub => binary .sub
    | .mod => binary .mod

theorem runs_dialect (other : Expr → Computation String W Int) :
    dialect.Runs wrapping64 (Expr.compute other) where
  number text m := by
    rw [dialect, compute_number]
    cases hread : Text.integerLiteral? text.toList <;> rfl
  binary op left right := by cases op <;> exact compute_binary rfl left right

theorem compute_doBlock (body : List Stmt) :
    (Expr.doBlock body).compute other = computeBody other body := by
  rw [Expr.compute]

theorem compute_block {name : String} {init : Expr} {rest : List Stmt} :
    computeBody other (.my name .scalar (some init) :: rest) = (do
      let v ← init.compute other
      withLocal name v (computeBody other rest)) := by
  rw [Stmt.my, Stmt.plain, computeBody]

theorem compute_result (result : Expr) :
    computeBody other [.ofExpr result] = result.compute other := by
  rw [Stmt.ofExpr, Stmt.plain, computeBody]

end

end Scriptgen.Perl
