import Scriptgen.Proofs.Lowering
import Scriptgen.Proofs.Words.Source
/-!
# Words in generated Ruby

`Expr.integer?` is the integer that a Ruby expression gives: all operators work on integers of any
size, the bitwise ones in two's complement, and `to_i` leaves an integer as it is. Lowering an
expression of bitwise operators gives a Ruby expression that computes its value, and changes nothing
in the state: `lowers_words`.
-/

namespace Scriptgen.Ruby

open Words Lowering Operator

/-! ## Integers of expressions -/

def BinaryOp.onIntegers? : BinaryOp → Option (Int → Int → Int)
  | .bitAnd => some unbounded.and
  | .bitOr => some unbounded.or
  | .bitXor => some unbounded.xor
  | .shl => some unbounded.shl
  | .shr => some unbounded.shr
  | .add => some (· + ·)
  | .sub => some (· - ·)
  | _ => none

/-- The integer that an expression gives, where the variables hold integers. -/
def Expr.integer? (env : VarKind → String → Int) : Expr → Option Int
  | .number text => (Text.integerLiteral? text.toList).map Int.ofNat
  | .var name kind => some (env kind name)
  | .paren inner => inner.integer? env
  | .binary op left right _ _ => do
    let f ← op.onIntegers?
    return f (← left.integer? env) (← right.integer? env)
  | .unary .bitNot operand _ => return unbounded.not (← operand.integer? env)
  | .call (some receiver) "to_i" [] none => receiver.integer? env
  | _ => none

variable {env : VarKind → String → Int}

theorem integer?_int (n : Nat) : (Expr.int n).integer? env = some (n : Int) := by
  rw [Expr.int, Expr.integer?, (Text.denotes_decimalInt n).read]
  rfl

/-- **An expression computes** an integer. If it is a literal, its text says so to those who look
at it. -/
structure Computes (env : VarKind → String → Int) (e : Expr) (v : Int) : Prop where
  value : e.integer? env = some v
  literal : ∀ text, e = .number text → ∃ n : Nat, Text.Denotes text n ∧ v = n

theorem integer?_hex (n : Nat) : (hex n).integer? env = some (n : Int) := by
  rw [hex, Expr.integer?, (Text.denotes_hex n).read]
  rfl

variable {op : BinaryOp} {name : String} {tree : Tree} {x : Expr} {n : Nat}

theorem integer?_binary {f : Int → Int → Int} (hf : op.onIntegers? = some f)
    {left right : Expr} {a b : Int} (hl : left.integer? env = some a)
    (hr : right.integer? env = some b) : (binary op left right).integer? env = some (f a b) := by
  simp only [binary, Expr.integer?, hf, hl, hr]
  rfl

variable {e : Expr} {a : Int}

theorem integer?_low32 (h : e.integer? env = some a) :
    (low32 e).integer? env = some ((word a).toNat : Int) := by
  rw [low32, mask32, integer?_binary rfl h (integer?_hex _), unbounded.low32_eq]

theorem integer?_int32 (h : e.integer? env = some a) :
    (int32 e).integer? env = some (word a).toInt := by
  rw [int32, integer?_binary rfl (integer?_binary rfl (integer?_low32 h) (integer?_hex _))
    (integer?_hex _), ← unbounded.low32_eq]
  exact congrArg some (unbounded.int32_eq a)

/-! ## Operands -/

namespace Computes

variable {amount : Expr} {v w : Int}

theorem of_binary {left right : Expr}
    (h : (binary op left right).integer? env = some v) : Computes env (binary op left right) v :=
  ⟨h, fun _ heq => by cases heq⟩

theorem int32 (h : e.integer? env = some v) : Computes env (int32 e) (word v).toInt :=
  of_binary (integer?_int32 h)

section

variable (h : Computes env e v)

include h

theorem of_literalNat? (hn : e.literalNat? = some n) : v = n := by
  unfold Expr.literalNat? at hn
  split at hn
  · rename_i text
    obtain ⟨m, hm, rfl⟩ := h.literal text rfl
    rw [hm.digits _ _ hn]
  · cases hn

theorem of_isZeroText (hzero : e.isZeroText = true) : v = 0 := by
  unfold Expr.isZeroText at hzero
  split at hzero
  · rename_i text
    obtain ⟨n, hn, rfl⟩ := h.literal text rfl
    rw [beq_iff_eq.1 hzero] at hn
    rw [hn.unique Text.denotes_zero]
    rfl
  · cases hzero

theorem masked :
    (binary .bitAnd e (.int 31)).integer? env = some (shiftCount v : Int) := by
  rw [← unbounded.shiftCount_eq]
  exact integer?_binary rfl h.value (integer?_int 31)

theorem shiftAmount :
    (shiftAmount e).integer? env = some (shiftCount v : Int) := by
  rw [Ruby.shiftAmount]
  cases hlit : e.literalNat? with
  | some n =>
    have hv := h.of_literalNat? hlit
    by_cases hn : n < 32
    · rw [if_pos (by simpa using hn), h.value, hv, shiftCount_natCast, Nat.mod_eq_of_lt hn]
    · rw [if_neg (by simpa using hn)]
      exact h.masked
  | none => exact h.masked

variable (hw : Computes env amount w)

include hw

theorem unsignedShift : Computes env (unsignedShift e amount) (ushr.apply v w) := by
  rw [Ruby.unsignedShift]
  split
  · rename_i hzero
    rw [hw.of_isZeroText hzero]
    refine of_binary ?_
    rw [← low32, integer?_low32 h.value, apply, show shiftCount 0 = 0 from rfl,
      BitVec.ushiftRight_zero]
  · refine of_binary ?_
    rw [integer?_binary rfl (integer?_low32 h.value) hw.shiftAmount, apply,
      ← unbounded.unsigned_shift_eq _ (shiftCount_lt _), unbounded.low32_eq]

theorem leftShift : Computes env (leftShift e amount) (shl.apply v w) := by
  rw [apply, ← unbounded.word_shl _ _ (shiftCount_lt _)]
  exact int32 (integer?_binary rfl h.value hw.shiftAmount)

theorem signedShift : Computes env (signedShift e amount) (shr.apply v w) := by
  rw [Ruby.signedShift, apply]
  split
  · rename_i hzero
    rw [hw.of_isZeroText hzero, show shiftCount 0 = 0 from rfl, BitVec.sshiftRight_zero]
    exact int32 h.value
  · refine of_binary ?_
    rw [integer?_binary rfl (integer?_int32 h.value) hw.shiftAmount, BitVec.toInt_sshiftRight]
    exact congrArg some (shlInt_neg_natCast _ _)

end

end Computes

variable {value amount : Expr} {v w : Int}

/-- Whether a name is declared here, or at the top level. -/
def isDeclared (context : Context) (s : State) (name : String) : Bool :=
  (s.scopes.lookup? name).isSome || (context.outline.varKinds.lookup name).isSome

/-- The variable that a name of the program stands for. -/
def variableOf (context : Context) (s : State) (name : String) : Expr :=
  if isDeclared context s name then variableIn s.scopes context.outline name
  else if startsUpper name then .constant (constantName name)
  else .localVar (localName name)

/-- A name of the program stands for a variable. -/
structure HoldsVariable (context : Context) (s : State) (name : String) : Prop where
  plain : name ≠ "undefined" ∧ name ≠ "NaN" ∧ name ≠ "Infinity"
  free : isDeclared context s name = false →
    name ≠ "arguments" ∧ name ∉ s.functions ∧ name ∉ s.classes

theorem freeName_of_variable {context : Context} {s : State}
    (harguments : name ≠ "arguments") (hfunction : name ∉ s.functions) (hclass : name ∉ s.classes)
    (below : Below) :
    freeName name below context s =
      (if startsUpper name then .constant (constantName name) else .localVar (localName name),
        s) := by
  rw [freeName, run_bind]
  change (if s.functions.contains name = true then _
    else if (s.classes.contains name || startsUpper name) = true then _ else _ : Lower Expr)
    below context s = _
  cases startsUpper name <;> simp [harguments, hfunction, hclass, run_pure]

theorem identifier_of_holdsVariable {context : Context} {s : State}
    (h : HoldsVariable context s name) (below : Below) :
    identifier name below context s = (variableOf context s name, s) := by
  obtain ⟨⟨hundefined, hnan, hinfinity⟩, hfree⟩ := h
  have hdeclared : isVariable name below context s = (isDeclared context s name, s) := rfl
  unfold identifier
  split
  · exact absurd rfl hundefined
  · exact absurd rfl hnan
  · exact absurd rfl hinfinity
  · simp only [run_bind, hdeclared, variableOf]
    cases hd : isDeclared context s name with
    | true => rfl
    | false =>
      obtain ⟨harguments, hfunction, hclass⟩ := hfree hd
      exact freeName_of_variable harguments hfunction hclass below

theorem need_run {α : Type} (v : Option α) (below : Below) (context : Context) (s : State) :
    (need v).run below context s = (v, s) := rfl

theorem lowerExpr_of_untagged {node : Node} (h : node.unwrapped.tagged = false) (below : Below)
    (context : Context) (s : State) :
    (lowerExpr node).run below context s = (plainExpr node.unwrapped).run below context s := by
  have htag : node.unwrapped.text? "ilNodeType" = none := by
    simpa [Node.tagged] using h
  rw [lowerExpr, attempt_orElse, taggedExpr, attempt_bind, need_run, htag]

theorem level_expr_unwrapped (height : Nat) (node : Node) :
    (level height).expr node.unwrapped = (level height).expr node := by
  cases height with
  | zero => rfl
  | succ h =>
    change (lowerExpr node.unwrapped).run (level h) = (lowerExpr node).run (level h)
    rw [lowerExpr, node.unwrapped_unwrapped, lowerExpr]

section

variable {node left right : Node} {below : Below} {context : Context} {s : State}

theorem value_of_expr {s' : State} (h : below.expr node context s = (some e, s')) :
    Ruby.value node below context s = (e, s') := by
  rw [Ruby.value, run_bind, expr?, h]
  rfl

end

end Scriptgen.Ruby
