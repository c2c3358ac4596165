import Scriptgen.Proofs.Operands
import Scriptgen.Proofs.Perl.Computation
import Scriptgen.Proofs.Perl.Mirrors
import Scriptgen.Proofs.Ruby.Computation
import Scriptgen.Proofs.Ruby.Mirrors
/-!
# Products of 32 bits in both targets

`Math.imul` keeps 32 bits of a product, which it reads as a signed integer. Both targets evaluate
the operands once and in order, multiply them and cut the product down to its low bits. Ruby
restores the sign and Perl does not, so the two agree on the products whose bit 31 is clear.
-/

namespace Scriptgen.Words

/-- The product of two integers, reduced to the signed integers of 32 bits. -/
def signedProduct (a b : Int) : Int := (a * b).bmod (2 ^ 32)

/-- The product of two integers, reduced to the unsigned integers of 32 bits. -/
def unsignedProduct (a b : Int) : Int := (a * b) % 2 ^ 32

theorem toInt_word_mul (a b : Int) : (word (a * b)).toInt = signedProduct a b :=
  BitVec.toInt_ofInt _

theorem toNat_word_mul (a b : Int) : ((word (a * b)).toNat : Int) = unsignedProduct a b :=
  toNat_word _

/-- **The two readings agree while bit 31 of the product is clear.** -/
theorem unsignedProduct_eq_iff (a b : Int) :
    unsignedProduct a b = signedProduct a b ↔ unsignedProduct a b < 2 ^ 31 := by
  have hle : 0 ≤ unsignedProduct a b := Int.emod_nonneg _ (by decide)
  have hlt : unsignedProduct a b < 2 ^ 32 := Int.emod_lt_of_pos _ (by decide)
  have hsigned : signedProduct a b = if unsignedProduct a b < 2 ^ 31 then unsignedProduct a b
      else unsignedProduct a b - 2 ^ 32 := by
    rw [signedProduct, Int.bmod_def]
    rfl
  rw [hsigned]
  split <;> omega

end Scriptgen.Words

namespace Scriptgen.Perl

open Words Lowering

variable {b : Below} {c : Context} {s : State} {step : Lower Expr}
variable {node receiver x y : Node} {method name : String} {args : List Node}

/-- The call of a method of a global object is that of the object, unless the program has a
variable or a class of its name. -/
theorem takes_staticCall (hcall : IsMethodCall node receiver method args)
    (hvar : IsVariable receiver name) (hscopes : s.scopes.lookup? name = none)
    (hclasses : s.classes.contains name = false) (h : Takes b c s (staticCall name method args) step) :
    Takes b c s (lowerExpr node) step := by
  refine takes_call hcall fun callee object hstatic hobject hreceiver => ?_
  subst hreceiver
  have howner : Takes b c s (ownerCall object.unwrapped method args) step := by
    rw [ownerCall]
    refine .need hvar.name ?_
    rw [Takes, attempt_bind, attempt_get]
    simp only [hscopes, hclasses, Bool.false_eq_true, if_false]
    exact h
  refine .need hobject ?_
  simp only [hstatic, hvar.type]
  exact .orElse howner

/-- **Perl keeps the low bits of the product.** -/
theorem lowers_imul (hcall : IsMethodCall node receiver "imul" [x, y]) (hvar : IsVariable receiver "Math")
    (hx : x.type ≠ "SpreadElement") (hy : y.type ≠ "SpreadElement")
    (hscopes : s.scopes.lookup? "Math" = none) (hclasses : s.classes.contains "Math" = false) :
    ∃ s', (lowerExpr node).run b c s =
      (some (low32 (binary .mul (value x b c s).1 (value y b c (value x b c s).2).1)), s') := by
  have hitems : arguments [x, y] b c s =
      ([(value x b c s).1, (value y b c (value x b c s).2).1], (value y b c (value x b c s).2).2) := by
    simp only [arguments, List.mapM_cons, List.mapM_nil, element, beq_eq_false_iff_ne.2 hx,
      beq_eq_false_iff_ne.2 hy, Bool.false_eq_true, if_false, run_bind, run_pure]
  have hstep : ∃ s', mathCall "imul" [x, y] b c s =
      (low32 (binary .mul (value x b c s).1 (value y b c (value x b c s).2).1), s') := by
    unfold mathCall
    simp only [run_bind, hitems]
    exact ⟨_, rfl⟩
  obtain ⟨s', hstep⟩ := hstep
  refine ⟨s', ?_⟩
  have htakes : Takes b c s (lowerExpr node) (mathCall "imul" [x, y]) :=
    takes_staticCall hcall hvar hscopes hclasses .lift
  rw [htakes, hstep]

section

variable {W : Type} {other : Expr → Computation String W Int} {m m' m'' : Memory String W}
variable {left right : Expr} {u v : Int}

theorem compute_product (hleft : left.compute other m = some (u, m'))
    (hright : right.compute other m' = some (v, m'')) (hexact : (u * v).natAbs < 2 ^ 53) :
    (low32 (binary .mul left right)).compute other m = some (unsignedProduct u v, m'') := by
  have hmul : (binary .mul left right).compute other m = some (u * v, m'') := by
    rw [compute_binary_of rfl hleft hright, if_pos hexact]
    rfl
  rw [low32, mask32, compute_operator (f := wrapping64.and) rfl hmul (compute_hex _ _),
    wrapping64.low32_eq, toNat_word_mul]

end

end Scriptgen.Perl

namespace Scriptgen.Ruby

open Words Lowering

variable {b : Below} {c : Context} {s : State} {step : Lower Expr}
variable {node receiver x y : Node} {method name : String} {args : List Node}

theorem takes_globalMethod (hcall : IsMethodCall node receiver method args)
    (hvar : IsVariable receiver name)
    (hscopes : ((s.scopes.lookup? name).isSome || (c.outline.varKinds.lookup name).isSome) = false)
    (hclasses : s.classes.contains name = false) (h : Takes b c s (globalMethod name method args) step) :
    Takes b c s (lowerExpr node) step := by
  refine takes_call hcall fun callee object hstatic hobject hreceiver => ?_
  subst hreceiver
  have howner : Takes b c s (ownerCall object.unwrapped method args) step := by
    rw [ownerCall]
    refine .need hvar.name (.look (a := false) (Prod.ext hscopes rfl) ?_)
    refine .look (a := false) (Prod.ext hclasses rfl) ?_
    exact h
  refine .need hobject ?_
  simp only [hstatic, hvar.type]
  exact .orElse howner

/-- **Ruby reads the low bits of the product as a signed integer.** -/
theorem lowers_imul (hcall : IsMethodCall node receiver "imul" [x, y]) (hvar : IsVariable receiver "Math")
    (hx : x.type ≠ "SpreadElement") (hy : y.type ≠ "SpreadElement")
    (hscopes : ((s.scopes.lookup? "Math").isSome || (c.outline.varKinds.lookup "Math").isSome) = false)
    (hclasses : s.classes.contains "Math" = false) :
    ∃ s', (lowerExpr node).run b c s =
      (some (int32 (binary .mul (value x b c s).1 (value y b c (value x b c s).2).1)), s') := by
  have hitems : arguments [x, y] b c s =
      ([(value x b c s).1, (value y b c (value x b c s).2).1], (value y b c (value x b c s).2).2) := by
    simp only [arguments, List.mapM_cons, List.mapM_nil, item, beq_eq_false_iff_ne.2 hx,
      beq_eq_false_iff_ne.2 hy, Bool.false_eq_true, if_false, run_bind, run_pure]
  have hstep : mathFunction "imul" [x, y] b c s =
      (int32 (binary .mul (value x b c s).1 (value y b c (value x b c s).2).1),
        (value y b c (value x b c s).2).2) := by
    unfold mathFunction
    simp only [run_bind, hitems]
    rfl
  have htakes : Takes b c s (lowerExpr node) (mathFunction "imul" [x, y]) :=
    takes_globalMethod hcall hvar hscopes hclasses .lift
  exact ⟨_, by rw [htakes, hstep]⟩

section

variable {W : Type} {other : Expr → Computation Var W Int}
variable {m m' m'' : Memory Var W} {left right : Expr} {u v : Int}

theorem compute_product (hleft : left.compute other m = some (u, m'))
    (hright : right.compute other m' = some (v, m'')) :
    (int32 (binary .mul left right)).compute other m = some (signedProduct u v, m'') := by
  have hmul : (binary .mul left right).compute other m = some (u * v, m'') := by
    rw [compute_binary_of rfl hleft hright]
    rfl
  rw [int32, low32, mask32, compute_operator rfl (compute_operator rfl (compute_operator rfl hmul
    (compute_hex _ _)) (compute_hex _ _)) (compute_hex _ _)]
  exact congrArg (fun result => some (result, m''))
    ((unbounded.int32_eq (u * v)).trans (toInt_word_mul u v))

end

end Scriptgen.Ruby

namespace Scriptgen

open Words Lowering

variable {W : Type} {node math x y : Node} {u v : Int}

/-- **Perl gives the unsigned product and Ruby the signed one.** Both evaluate the operands of
`Math.imul` once and in order, whatever these are and do, and reduce the product modulo `2 ^ 32`, for
all integers whose product fits in 53 bits. The signed integer is what the program means, and Perl
gives it just if bit 31 of the product is clear. -/
theorem imul_reduces_product (hcall : IsMethodCall node math "imul" [x, y])
    (hmath : IsVariable math "Math") (hx : x.type ≠ "SpreadElement") (hy : y.type ≠ "SpreadElement")
    (hexact : (u * v).natAbs < 2 ^ 53) :
    (∀ (b : Perl.Below) c (s : Perl.State) (other : Perl.Expr → Computation String W Int) m m' m'',
      s.scopes.lookup? "Math" = none → s.classes.contains "Math" = false →
      (Perl.value x b c s).1.compute other m = some (u, m') →
      (Perl.value y b c (Perl.value x b c s).2).1.compute other m' = some (v, m'') →
      ∃ e s' r, (Perl.lowerExpr node).run b c s = (some e, s') ∧
        e.compute other m = some (r, m'') ∧ r = unsignedProduct u v ∧
        (r = signedProduct u v ↔ unsignedProduct u v < 2 ^ 31)) ∧
    ∀ (b : Ruby.Below) c (s : Ruby.State)
      (other : Ruby.Expr → Computation (Ruby.VarKind × String) W Int) m m' m'',
      ((s.scopes.lookup? "Math").isSome || (c.outline.varKinds.lookup "Math").isSome) = false →
      s.classes.contains "Math" = false →
      (Ruby.value x b c s).1.compute other m = some (u, m') →
      (Ruby.value y b c (Ruby.value x b c s).2).1.compute other m' = some (v, m'') →
      ∃ e s', (Ruby.lowerExpr node).run b c s = (some e, s') ∧
        e.compute other m = some (signedProduct u v, m'') := by
  refine ⟨fun b c s other m m' m'' hscopes hclasses hleft hright => ?_,
    fun b c s other m m' m'' hscopes hclasses hleft hright => ?_⟩
  · obtain ⟨s', hrun⟩ := Perl.lowers_imul (b := b) (c := c) hcall hmath hx hy hscopes hclasses
    exact ⟨_, s', _, hrun, Perl.compute_product hleft hright hexact, rfl, unsignedProduct_eq_iff u v⟩
  · obtain ⟨s', hrun⟩ := Ruby.lowers_imul (b := b) (c := c) hcall hmath hx hy hscopes hclasses
    exact ⟨_, s', hrun, Ruby.compute_product hleft hright⟩

namespace Product

open Projection

/-- The call `Math.imul(a, b)`. -/
def callNode : Node :=
  .of "CallExpression" [
    ("callee", .node "MemberExpression" [("object", (variableNode "Math").toJson),
      ("property", (variableNode "imul").toJson)]),
    ("arguments", .array [(variableNode "a").toJson, (variableNode "b").toJson])]

theorem isVariable_variableNode (name : String) : IsVariable (variableNode name) name := ⟨rfl, rfl⟩

theorem isMethodCall_callNode :
    IsMethodCall callNode (variableNode "Math") "imul" [variableNode "a", variableNode "b"] where
  untagged := rfl
  type := rfl
  callee := by
    refine ⟨_, variableNode "Math", rfl, ?_⟩
    rw [Node.unwrapped_of_wrapped? rfl]
    exact ⟨rfl, rfl, rfl, unwrapped_variableNode "Math"⟩
  arguments := rfl

/-- A program with the variables `a` and `b`. -/
def perlState : Perl.State :=
  { Perl.State.initial with scopes := ⟨[], [("a", .scalar), ("b", .scalar)]⟩ }

theorem perl_value {name : String} (hname : name ∈ ["a", "b"]) :
    Perl.value (variableNode name) (Perl.level 1) .initial perlState =
      (.scalar name, perlState) := by
  have hnames : Perl.Names perlState (variableNode name) name := by
    refine ⟨isVariable_variableNode name, rfl, ?_⟩
    simp only [List.mem_cons, List.not_mem_nil, or_false] at hname
    rcases hname with rfl | rfl <;> exact ⟨by decide, by decide, by decide⟩
  exact hnames.value_eq 0 _

/-- A memory where `a` and `b` are two integers. -/
def memoryOf (a b : Int) : Memory String Unit := ⟨fun x => if x = "a" then a else b, ()⟩

end Product

open Product Projection

/-- Three times five is 15, for bit 31 is clear. -/
theorem imul_reduces_product_fifteen :
    ∃ e s', (Perl.lowerExpr callNode).run (Perl.level 1) .initial perlState = (some e, s') ∧
      e.compute (fun _ => failure) (memoryOf 3 5) = some (15, memoryOf 3 5) ∧
      15 = signedProduct 3 5 := by
  have ha := @perl_value "a" (by decide)
  have hb := @perl_value "b" (by decide)
  have hleft : (Perl.value (variableNode "a") (Perl.level 1) .initial perlState).1.compute
      (fun _ => failure) (memoryOf 3 5) = some (3, memoryOf 3 5) := by
    rw [ha]
    exact Perl.compute_scalar _ _
  have hright : (Perl.value (variableNode "b") (Perl.level 1) .initial
      (Perl.value (variableNode "a") (Perl.level 1) .initial perlState).2).1.compute
      (fun _ => failure) (memoryOf 3 5) = some (5, memoryOf 3 5) := by
    rw [ha, hb]
    exact Perl.compute_scalar _ _
  obtain ⟨e, s', r, hrun, hresult, rfl, hiff⟩ :=
    (imul_reduces_product isMethodCall_callNode (isVariable_variableNode "Math") (by decide)
      (by decide) (by decide)).1 (Perl.level 1) .initial perlState _ _ _ _ rfl rfl hleft hright
  exact ⟨e, s', hrun, hresult, hiff.2 (by decide)⟩

/-- **Perl does not restore the sign.** Three times minus one is minus three, and is given as
`2 ^ 32 - 3`. -/
theorem imul_drops_sign :
    signedProduct 3 (-1) = -3 ∧
    ∃ e s', (Perl.lowerExpr callNode).run (Perl.level 1) .initial perlState = (some e, s') ∧
      e.compute (fun _ => failure) (memoryOf 3 (-1)) = some (4294967293, memoryOf 3 (-1)) := by
  refine ⟨by decide, ?_⟩
  obtain ⟨s', hrun⟩ := Perl.lowers_imul (b := Perl.level 1) (c := .top .defaults) (s := perlState)
    isMethodCall_callNode (isVariable_variableNode "Math") (by decide) (by decide) rfl rfl
  rw [perl_value (by decide), perl_value (by decide)] at hrun
  exact ⟨_, s', hrun, Perl.compute_product (Perl.compute_scalar _ _) (Perl.compute_scalar _ _) (by decide)⟩

end Scriptgen
