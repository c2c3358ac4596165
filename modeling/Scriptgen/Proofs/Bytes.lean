import Scriptgen.Proofs.Perl.Computation
import Scriptgen.Proofs.Ruby.Computation
/-!
# Packing and unpacking bytes

Packing joins bytes, each cut down to eight bits and shifted to its place, and unpacking takes a
word apart again. In both targets and both byte orders the one undoes the other, for any expressions
that give the bytes and the word.
-/

namespace Scriptgen.Perl

open Words Lowering

variable {W : Type} {other : Expr → Computation String W Int} {m : Memory String W}

/-- Expressions have values, and evaluating them changes nothing. -/
abbrev Give (other : Expr → Computation String W Int) (m : Memory String W) (exprs : List Expr)
    (values : List Int) : Prop :=
  List.Forall₂ (fun e v => e.compute other m = some (v, m)) exprs values

/-- **Packing joins the bytes** at their places. -/
theorem compute_packBytes {n : Nat} (hpacks : Packs wrapping64 n) {bytes : List Expr}
    {values : List Int} (hlength : bytes.length = n) (hbytes : Give other m bytes values)
    (bigEndian : Bool) :
    (packBytes bytes bigEndian).compute other m = some (packedWord bigEndian n values, m) := by
  have hjoined (parts : List Expr) : chain .bitOr (.int 0) parts = dialect.joined parts := by
    cases parts <;> rfl
  rw [packBytes, hjoined]
  exact ((runs_dialect other).gives m).packBytes hpacks hlength hbytes bigEndian

/-- **Unpacking gives the bytes** at their places. -/
theorem computeList_unpackBytes {n : Nat} (hpacks : Packs wrapping64 n) {e : Expr} {w : Int}
    (he : e.compute other m = some (w, m)) (bigEndian : Bool) (below : Below) (c : Context) (s : State) :
    (unpackBytes e (8 * n) bigEndian below c s).1.computeList other m =
      some (unpackedBytes bigEndian n w, m) := by
  have harray {e : Expr} {m : Memory String W} (he : e.compute other m = some (w, m)) :
      (Expr.arrayRef (wordBytes e (8 * n) bigEndian)).computeList other m =
        some (unpackedBytes bigEndian n w, m) := by
    rw [Expr.computeList]
    exact mapM_of_forall₂ (((runs_dialect other).gives m).wordBytes hpacks he bigEndian)
  rw [unpackBytes, run_bind]
  cases hs : e.isSimple with
  | true =>
    rw [shared_of_isSimple hs]
    exact harray he
  | false =>
    rw [shared_of_not_isSimple hs]
    have hbound : (Expr.scalar (s.names.fresh "word").1).compute other (m.set (s.names.fresh "word").1 w) =
        some (w, m.set (s.names.fresh "word").1 w) := by
      rw [compute_scalar, Memory.vars_set_self]
    change (computeListBody other [.my (s.names.fresh "word").1 .scalar (some e),
      .ofExpr (.arrayRef (wordBytes (.scalar (s.names.fresh "word").1) (8 * n) bigEndian))]) m = _
    rw [Stmt.my, Stmt.plain, computeListBody]
    change (e.compute other m).bind _ = _
    rw [he]
    change ((computeListBody other [.ofExpr _] (m.set (s.names.fresh "word").1 w)).map _) = _
    rw [Stmt.ofExpr, Stmt.plain, computeListBody, harray hbound]
    simp only [Option.map_some, Memory.set_set, Memory.set_vars]

end Scriptgen.Perl

namespace Scriptgen.Ruby

open Words Lowering

variable {W : Type} {other : Expr → Computation Var W Int} {m : Memory Var W}

abbrev Give (other : Expr → Computation Var W Int) (m : Memory Var W)
    (exprs : List Expr)
    (values : List Int) : Prop :=
  List.Forall₂ (fun e v => e.compute other m = some (v, m)) exprs values

theorem compute_packBytes {n : Nat} (hpacks : Packs unbounded n) {bytes : List Expr}
    {values : List Int} (hlength : bytes.length = n) (hbytes : Give other m bytes values)
    (bigEndian : Bool) :
    (packBytes bytes bigEndian).compute other m = some (packedWord bigEndian n values, m) := by
  have hjoined (parts : List Expr) : chain .bitOr (.int 0) parts = dialect.joined parts := by
    cases parts <;> rfl
  rw [packBytes, hjoined]
  exact ((runs_dialect other).gives m).packBytes hpacks hlength hbytes bigEndian

/-- **Unpacking gives the bytes** at their places. Only a variable that is made up is set. -/
theorem computeList_unpackBytes {n : Nat} (hpacks : Packs unbounded n) {e : Expr} {w : Int}
    (he : e.compute other m = some (w, m)) (bigEndian : Bool) (below : Below) (c : Context) (s : State) :
    ∃ after, SetsOnly IsTemporaryVar after ∧
      (unpackBytes e (8 * n) bigEndian below c s).1.computeList other m =
        some (unpackedBytes bigEndian n w, after m) := by
  have harray {e : Expr} {m : Memory Var W} (he : e.compute other m = some (w, m)) :
      (Expr.array (wordBytes e (8 * n) bigEndian)).computeList other m =
        some (unpackedBytes bigEndian n w, m) := by
    rw [Expr.computeList]
    exact mapM_of_forall₂ (((runs_dialect other).gives m).wordBytes hpacks he bigEndian)
  rw [unpackBytes, run_bind]
  cases hs : e.isSimple with
  | true =>
    rw [shared_of_isSimple hs]
    exact ⟨id, fun _ => ⟨rfl, fun _ _ => rfl⟩, harray he⟩
  | false =>
    rw [shared_of_not_isSimple hs]
    have hname : IsTemporaryVar (.plain, (s.names.fresh "word").1) := ⟨rfl, isTemporary_fresh _ _⟩
    refine ⟨_, .set hname w, ?_⟩
    have hbound : (Expr.localVar (s.names.fresh "word").1).compute other
        (m.set (.plain, (s.names.fresh "word").1) w) =
          some (w, m.set (.plain, (s.names.fresh "word").1) w) := by
      rw [compute_localVar, Memory.vars_set_self]
    change (computeListBody other [.set (.localVar (s.names.fresh "word").1) e,
      .ofExpr (.array (wordBytes (.localVar (s.names.fresh "word").1) (8 * n) bigEndian))]) m = _
    rw [Stmt.set, Stmt.ofExpr, Stmt.plain, Expr.localVar, computeListBody]
    · change (e.compute other m).bind _ = _
      rw [he]
      change computeListBody other [.ofExpr _] (m.set (.plain, (s.names.fresh "word").1) w) = _
      rw [Stmt.ofExpr, Stmt.plain, computeListBody]
      exact harray hbound
    · simp

end Scriptgen.Ruby

namespace Scriptgen

open Words

/-- **Packing and unpacking bytes are inverse.** In both byte orders, and for up to eight bytes in
Perl and any number in Ruby: unpacking the word that bytes are packed into gives the bytes modulo 256,
and packing the bytes that a word is unpacked into gives the word modulo as many bits. The bytes and
the words are any integers, given by any expressions that have these values. -/
theorem packing_inverts_unpacking {W : Type} (n : Nat) (bigEndian : Bool) :
    (n ≤ 8 → ∀ (other : Perl.Expr → Computation String W Int) (m : Memory String W) below c s,
      (∀ (bytes : List Perl.Expr) (values : List Int), bytes.length = n →
        Perl.Give other m bytes values →
        ∃ p, (Perl.packBytes bytes bigEndian).compute other m = some (p, m) ∧
          ∀ e : Perl.Expr, e.compute other m = some (p, m) →
            (Perl.unpackBytes e (8 * n) bigEndian below c s).1.computeList other m =
              some (values.map (· % 256), m)) ∧
      ∀ (e : Perl.Expr) (w : Int), e.compute other m = some (w, m) →
        ∃ items, items.length = n ∧
          (Perl.unpackBytes e (8 * n) bigEndian below c s).1.computeList other m = some (items, m) ∧
          ∀ bytes : List Perl.Expr, Perl.Give other m bytes items →
            (Perl.packBytes bytes bigEndian).compute other m = some (w % 2 ^ (8 * n), m)) ∧
    ∀ (other : Ruby.Expr → Computation (Ruby.VarKind × String) W Int)
        (m : Memory (Ruby.VarKind × String) W) below c s,
      (∀ (bytes : List Ruby.Expr) (values : List Int), bytes.length = n →
        Ruby.Give other m bytes values →
        ∃ p, (Ruby.packBytes bytes bigEndian).compute other m = some (p, m) ∧
          ∀ e : Ruby.Expr, e.compute other m = some (p, m) →
            ∃ after, SetsOnly Ruby.IsTemporaryVar after ∧
              (Ruby.unpackBytes e (8 * n) bigEndian below c s).1.computeList other m =
                some (values.map (· % 256), after m)) ∧
      ∀ (e : Ruby.Expr) (w : Int), e.compute other m = some (w, m) →
        ∃ items after, items.length = n ∧ SetsOnly Ruby.IsTemporaryVar after ∧
          (Ruby.unpackBytes e (8 * n) bigEndian below c s).1.computeList other m =
            some (items, after m) ∧
          ∀ bytes : List Ruby.Expr, Ruby.Give other m bytes items →
            (Ruby.packBytes bytes bigEndian).compute other m = some (w % 2 ^ (8 * n), m) := by
  refine ⟨fun hn other m below c s => ⟨?_, ?_⟩, fun other m below c s => ⟨?_, ?_⟩⟩
  · intro bytes values hlength hbytes
    have hvalues : values.length = n := hbytes.length_eq ▸ hlength
    refine ⟨_, Perl.compute_packBytes (packs_wrapping64 hn) hlength hbytes bigEndian, fun e he => ?_⟩
    rw [Perl.computeList_unpackBytes (packs_wrapping64 hn) he, unpackedBytes_packedWord hvalues]
  · intro e w he
    refine ⟨_, length_unpackedBytes bigEndian n w,
      Perl.computeList_unpackBytes (packs_wrapping64 hn) he bigEndian below c s, fun bytes hbytes => ?_⟩
    have hlength : bytes.length = n := hbytes.length_eq.trans (length_unpackedBytes bigEndian n w)
    rw [Perl.compute_packBytes (packs_wrapping64 hn) hlength hbytes, packedWord_unpackedBytes]
  · intro bytes values hlength hbytes
    have hvalues : values.length = n := hbytes.length_eq ▸ hlength
    refine ⟨_, Ruby.compute_packBytes (packs_unbounded n) hlength hbytes bigEndian, fun e he => ?_⟩
    rw [← unpackedBytes_packedWord hvalues bigEndian]
    exact Ruby.computeList_unpackBytes (packs_unbounded n) he bigEndian below c s
  · intro e w he
    obtain ⟨after, hafter, hitems⟩ :=
      Ruby.computeList_unpackBytes (packs_unbounded n) he bigEndian below c s
    refine ⟨_, after, length_unpackedBytes bigEndian n w, hafter, hitems, fun bytes hbytes => ?_⟩
    have hlength : bytes.length = n := hbytes.length_eq.trans (length_unpackedBytes bigEndian n w)
    rw [Ruby.compute_packBytes (packs_unbounded n) hlength hbytes, packedWord_unpackedBytes]

/-- A memory where `a` is 300, `b` is 7 and `w` is minus one. -/
def threeVariables : Memory String Unit :=
  ⟨fun x => if x = "a" then 300 else if x = "b" then 7 else -1, ()⟩

/-- The bytes 300 and 7 come back as 44 and 7, and minus one as 65535. -/
theorem packing_inverts_unpacking_two :
    (∃ p, (Perl.packBytes [.scalar "a", .scalar "b"] true).compute (fun _ => failure) threeVariables =
        some (p, threeVariables) ∧
      ∀ e : Perl.Expr, e.compute (fun _ => failure) threeVariables = some (p, threeVariables) →
        (Perl.unpackBytes e 16 true (Perl.level 0) .initial .initial).1.computeList
            (fun _ => failure) threeVariables = some ([44, 7], threeVariables)) ∧
    ∃ items, items.length = 2 ∧
      (Perl.unpackBytes (.scalar "w") 16 true (Perl.level 0) .initial
          .initial).1.computeList (fun _ => failure) threeVariables =
        some (items, threeVariables) ∧
      ∀ bytes : List Perl.Expr, Perl.Give (fun _ => failure) threeVariables bytes items →
        (Perl.packBytes bytes true).compute (fun _ => failure) threeVariables =
          some (65535, threeVariables) := by
  obtain ⟨hpack, hunpack⟩ := (packing_inverts_unpacking 2 true).1 (by decide) (fun _ => failure)
    threeVariables (Perl.level 0) .initial .initial
  have hbytes : Perl.Give (fun _ => failure) threeVariables [.scalar "a", .scalar "b"] [300, 7] :=
    .cons (Perl.compute_scalar _ _) (.cons (Perl.compute_scalar _ _) .nil)
  have hword := hunpack (.scalar "w") (-1) (Perl.compute_scalar _ _)
  rw [show (-1 : Int) % 2 ^ (8 * 2) = 65535 by decide] at hword
  exact ⟨hpack [.scalar "a", .scalar "b"] [300, 7] rfl hbytes, hword⟩

end Scriptgen
