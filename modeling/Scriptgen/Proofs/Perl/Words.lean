import Scriptgen.Proofs.Lowering
import Scriptgen.Proofs.Words.Source
/-!
# Words in generated Perl

`Expr.integer?` is the integer that a Perl expression gives: bitwise operators and shifts work on 64
bits without a sign, sums and differences are exact, and a block binds its temporaries. The idioms
of `Scriptgen.Perl.Words` compute words in it.
-/

namespace Scriptgen.Perl

open Words Lowering Expr Operator Function

/-! ## Integers of expressions -/

def BinaryOp.onIntegers? : BinaryOp → Option (Int → Int → Int)
  | .bitAnd => some wrapping64.and
  | .bitOr => some wrapping64.or
  | .bitXor => some wrapping64.xor
  | .shl => some wrapping64.shl
  | .shr => some wrapping64.shr
  | .add => some (· + ·)
  | .sub => some (· - ·)
  | _ => none

mutual

/-- The integer that an expression gives, where the scalar variables hold integers. -/
def Expr.integer? (env : String → Int) : Expr → Option Int
  | .number text => (Text.integerLiteral? text.toList).map Int.ofNat
  | .var name .scalar => some (env name)
  | .paren inner => inner.integer? env
  | .binary op left right _ _ => do
    let f ← op.onIntegers?
    return f (← left.integer? env) (← right.integer? env)
  | .unary .bitNot operand _ => return wrapping64.not (← operand.integer? env)
  | .doBlock body => bodyInteger? env body
  | _ => none

/-- The integer of a block: it declares variables, and its last statement is its value. -/
def bodyInteger? (env : String → Int) : List Stmt → Option Int
  | [⟨.expr result, _⟩] => result.integer? env
  | ⟨.varDecl [⟨name, .scalar⟩] (some init) .my, _⟩ :: rest => do
    let value ← init.integer? env
    bodyInteger? (update env name value) rest
  | _ => none

end

variable {env : String → Int}

@[simp] theorem integer?_scalar (name : String) :
    (scalar name).integer? env = some (env name) := by
  rw [scalar, integer?]

/-- **An expression computes** a function of the variables. If it is a literal, its text says so to
those who look at it. -/
structure Computes (e : Expr) (f : (String → Int) → Int) : Prop where
  value : ∀ env, e.integer? env = some (f env)
  literal : ∀ text, e = .number text → ∃ n : Nat, Text.Denotes text n ∧ f = fun _ => (n : Int)

@[simp] theorem integer?_int (n : Nat) : (int n).integer? env = some (n : Int) := by
  rw [int, integer?, (Text.denotes_decimalInt n).read]
  rfl

@[simp] theorem integer?_hex (n : Nat) : (hex n).integer? env = some (n : Int) := by
  rw [hex, integer?, (Text.denotes_hex n).read]
  rfl

variable {s' : State} {op : BinaryOp} {height : Nat} {sign : Expr} {tree : Tree}

theorem integer?_binary {f : Int → Int → Int} (hf : op.onIntegers? = some f)
    {left right : Expr} {a b : Int} (hl : left.integer? env = some a)
    (hr : right.integer? env = some b) : (binary op left right).integer? env = some (f a b) := by
  simp only [binary, integer?, hf, hl, hr]
  rfl

variable {name : String} {n : Nat}

variable {e : Expr} {a : Int}

theorem integer?_low32 (h : e.integer? env = some a) :
    (low32 e).integer? env = some ((word a).toNat : Int) := by
  rw [low32, mask32, integer?_binary rfl h (integer?_hex _), wrapping64.low32_eq]

theorem integer?_withSign {b : Int} (h : e.integer? env = some a)
    (hs : sign.integer? env = some b) :
    (withSign e sign).integer? env = some (wrapping64.xor a b - b) :=
  integer?_binary rfl (integer?_binary rfl h hs) hs

theorem integer?_int32 (h : e.integer? env = some a) :
    (int32 e).integer? env = some (word a).toInt := by
  rw [int32, integer?_withSign (integer?_low32 h) (integer?_hex _), ← wrapping64.low32_eq]
  exact congrArg some (wrapping64.int32_eq a)

namespace Computes

variable {amount : Expr} {f g : (String → Int) → Int}

/-- What is not a literal only has to have the value. -/
theorem of_binary {left right : Expr}
    (h : ∀ env, (binary op left right).integer? env = some (f env)) :
    Computes (binary op left right) f :=
  ⟨h, fun _ heq => by cases heq⟩

theorem scalar (name : String) : Computes (.scalar name) fun env => env name :=
  ⟨fun _ => integer?_scalar name, fun _ heq => by cases heq⟩

section

variable (h : Computes e f)

include h

theorem int32 : Computes (int32 e) fun env => (word (f env)).toInt :=
  of_binary fun env => integer?_int32 (h.value env)

theorem of_literalNat? (hn : e.literalNat? = some n) : f = fun _ => (n : Int) := by
  unfold literalNat? at hn
  split at hn
  · rename_i text
    obtain ⟨m, hm, rfl⟩ := h.literal text rfl
    rw [hm.digits _ _ hn]
  · cases hn

theorem of_isZeroText (hzero : e.isZeroText = true) : f = fun _ => 0 := by
  unfold isZeroText at hzero
  split at hzero
  · rename_i text
    obtain ⟨n, hn, rfl⟩ := h.literal text rfl
    rw [beq_iff_eq.1 hzero] at hn
    rw [hn.unique Text.denotes_zero]
    rfl
  · cases hzero

theorem masked (env : String → Int) :
    (binary .bitAnd e (.int 31)).integer? env = some (shiftCount (f env) : Int) := by
  rw [← wrapping64.shiftCount_eq]
  exact integer?_binary rfl (h.value env) (integer?_int 31)

/-- The amount of a shift is masked unless it is a literal that is small enough. -/
theorem shiftAmount (env : String → Int) :
    (shiftAmount e).integer? env = some (shiftCount (f env) : Int) := by
  rw [Perl.shiftAmount]
  cases hlit : e.literalNat? with
  | some n =>
    have hf := h.of_literalNat? hlit
    by_cases hn : n < 32
    · rw [if_pos (by simpa using hn), h.value, hf, shiftCount_natCast, Nat.mod_eq_of_lt hn]
    · rw [if_neg (by simpa using hn)]
      exact h.masked env
  | none => exact h.masked env

theorem unsignedShift (hg : Computes amount g) :
    Computes (unsignedShift e amount) fun env => ushr.apply (f env) (g env) := by
  rw [Perl.unsignedShift]
  split
  · rename_i hzero
    rw [hg.of_isZeroText hzero]
    refine of_binary fun env => ?_
    rw [← low32, integer?_low32 (h.value env), apply, show shiftCount 0 = 0 from rfl,
      BitVec.ushiftRight_zero]
  · refine of_binary fun env => ?_
    rw [integer?_binary rfl (integer?_low32 (h.value env)) (hg.shiftAmount env), apply,
      ← wrapping64.unsigned_shift_eq _ (shiftCount_lt _), wrapping64.low32_eq]

theorem leftShift (hg : Computes amount g) :
    Computes (leftShift e amount) fun env => shl.apply (f env) (g env) := by
  refine of_binary fun env => ?_
  rw [← Perl.withSign, ← Perl.int32,
    integer?_int32 (integer?_binary rfl (h.value env) (hg.shiftAmount env)),
    wrapping64.word_shl _ _ (shiftCount_lt _), apply]

end

end Computes

/-! ## Temporaries -/

/-- What a step may do to the state when it lowers a word expression: take names. -/
def OnlyNames (s s' : State) : Prop := ∃ names, s' = { s with names := names }

theorem OnlyNames.refl (s : State) : OnlyNames s s := ⟨s.names, rfl⟩

theorem OnlyNames.trans {s s'' : State} (h : OnlyNames s s') (h' : OnlyNames s' s'') :
    OnlyNames s s'' := by
  obtain ⟨names, rfl⟩ := h
  obtain ⟨names', rfl⟩ := h'
  exact ⟨names', rfl⟩

variable {value amount : Expr} {f g : (String → Int) → Int}

theorem shared_of_isSimple (h : e.isSimple = true) (stem : String) (below : Below)
    (context : Context) (s : State) : shared e stem below context s = (([], e), s) := by
  rw [shared, if_pos h]
  rfl

theorem shared_of_not_isSimple (h : e.isSimple = false) (stem : String) (below : Below)
    (context : Context) (s : State) :
    shared e stem below context s =
      (([.my (s.names.fresh stem).1 .scalar (some e)], .scalar (s.names.fresh stem).1),
        { s with names := (s.names.fresh stem).2 }) := by
  rw [shared, if_neg (by rw [h]; decide)]
  rfl

/-- A name of the program stands for the scalar variable of that name. -/
structure State.HoldsScalar (s : State) (name : String) : Prop where
  plain : name ≠ "undefined" ∧ name ≠ "NaN" ∧ name ≠ "Infinity"
  scalar : ∀ shape, s.scopes.lookup? name = some shape → shape = .scalar
  free : s.scopes.lookup? name = none →
    name ≠ "arguments" ∧ name ∉ s.functions ∧ name ∉ s.classes

theorem identifier_of_holdsScalar {s : State} (h : s.HoldsScalar name)
    (below : Below) (context : Context) :
    identifier name below context s = (.scalar name, s) := by
  obtain ⟨⟨hundefined, hnan, hinfinity⟩, hscalar, hfree⟩ := h
  have hget : (get : Lower State) below context s = (s, s) := rfl
  rw [identifier]
  simp only [run_bind, hget]
  cases hl : s.scopes.lookup? name with
  | some shape =>
    rw [hscalar shape hl]
    rfl
  | none =>
    obtain ⟨harguments, hfunction, hclass⟩ := hfree hl
    simp [harguments, hfunction, hclass, run_pure]

theorem need_run {α : Type} (v : Option α) (below : Below) (context : Context) (s : State) :
    (need v).run below context s = (v, s) := rfl

theorem lowerExpr_of_untagged {node : Node} (h : node.unwrapped.tagged = false) (below : Below)
    (context : Context) (s : State) :
    (lowerExpr node).run below context s = (plainExpr node.unwrapped).run below context s := by
  have htag : node.unwrapped.text? "ilNodeType" = none := by
    simpa [Node.tagged] using h
  rw [lowerExpr, attempt_orElse, taggedExpr, attempt_bind, need_run, htag]

section

variable {node left right : Node} {below : Below} {context : Context} {s : State}

theorem value_of_expr (h : below.expr node context s = (some e, s')) :
    Perl.value node below context s = (e, s') := by
  rw [Perl.value, run_bind, expr?, h]
  rfl

end

theorem level_expr_unwrapped (height : Nat) (node : Node) :
    (level height).expr node.unwrapped = (level height).expr node := by
  cases height with
  | zero => rfl
  | succ h =>
    change (lowerExpr node.unwrapped).run (level h) = (lowerExpr node).run (level h)
    rw [lowerExpr, node.unwrapped_unwrapped, lowerExpr]

theorem level_expr_of_untagged {node : Node} (h : node.unwrapped.tagged = false)
    (hh : node.height ≤ height) : ∃ lower, height = lower + 1 ∧ ∀ context s,
      (level height).expr node context s =
        (plainExpr node.unwrapped).run (level lower) context s := by
  obtain ⟨lower, rfl⟩ := Node.exists_lower hh
  exact ⟨lower, rfl, lowerExpr_of_untagged h (level lower)⟩

end Scriptgen.Perl
