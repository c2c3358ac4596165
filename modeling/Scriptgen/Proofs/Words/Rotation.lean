import Scriptgen.Proofs.Numerals
import Scriptgen.Proofs.Words.Arithmetic
import Scriptgen.Source.Word
/-!
# Rotations with the operators of a target

A rotation is put together from two shifts, of which one may leave the word on either side, and a
mask. `Rotates` is what this needs of the operators. Those on 64 bits have it for all widths up to
64, and those without a bound for every width.
-/

namespace Scriptgen.Words

open BitVec

def lowBits (b : Nat) (v : Int) : Nat := (BitVec.ofInt b v).toNat

theorem lowBits_lt (b : Nat) (v : Int) : lowBits b v < 2 ^ b := (BitVec.ofInt b v).isLt

theorem natCast_lowBits (b : Nat) (v : Int) : (lowBits b v : Int) = v % 2 ^ b := by
  have hnonneg : 0 ≤ v % ((2 ^ b : Nat) : Int) := Int.emod_nonneg v (by positivity)
  rw [lowBits, toNat_ofInt, Int.toNat_of_nonneg hnonneg]
  push_cast
  rfl

theorem lowBits_of_lt {b n : Nat} (h : n < 2 ^ b) : lowBits b n = n := by
  rw [lowBits, ofInt_natCast, toNat_ofNat, Nat.mod_eq_of_lt h]

/-- **What rotations need of the operators of a target.** -/
structure Rotates (A : Arithmetic) (b : Nat) : Prop where
  or_comm : ∀ v w, A.or v w = A.or w v
  mask : ∀ v, A.and v ((2 ^ b - 1 : Nat) : Int) = (lowBits b v : Int)
  join : ∀ x s k : Nat, x < 2 ^ b → s ≤ b → k ≤ b →
    A.and (A.or (A.shl x s) (A.shr x k)) ((2 ^ b - 1 : Nat) : Int) =
      (((x <<< s ||| x >>> k) % 2 ^ b : Nat) : Int)

/-! ## Integers of 64 bits -/

theorem toNat_word64 (v : Int) : (word64 v).toNat = lowBits 64 v := rfl

theorem lowBits_lowBits {a b : Nat} (h : b ≤ a) (v : Int) : lowBits a v % 2 ^ b = lowBits b v := by
  refine Int.ofNat_inj.1 ?_
  push_cast
  rw [natCast_lowBits, natCast_lowBits, Int.emod_emod_of_dvd]
  exact pow_dvd_pow 2 h

theorem toNat_shiftLeft64 (x s : Nat) : (word64 x <<< s).toNat = (x <<< s) % 2 ^ 64 := by
  rw [toNat_shiftLeft, word64, ofInt_natCast, toNat_ofNat, Nat.shiftLeft_eq,
    Nat.shiftLeft_eq, Nat.mod_mul_mod]

theorem rotates_wrapping64 {b : Nat} (hb : b ≤ 64) : Rotates wrapping64 b := by
  have hpow : 2 ^ b ≤ 2 ^ 64 := Nat.pow_le_pow_right (by decide) hb
  have hmask : lowBits 64 ((2 ^ b - 1 : Nat) : Int) = 2 ^ b - 1 :=
    lowBits_of_lt (Nat.lt_of_lt_of_le (Nat.sub_lt (by positivity) (by decide)) hpow)
  refine ⟨fun v w => ?_, fun v => ?_, fun x s k hx hs hk => ?_⟩
  · change ((word64 v ||| word64 w).toNat : Int) = ((word64 w ||| word64 v).toNat : Int)
    rw [BitVec.or_comm]
  · change ((word64 v &&& word64 _).toNat : Int) = _
    rw [toNat_and, toNat_word64, toNat_word64, hmask, Nat.and_two_pow_sub_one_eq_mod,
      lowBits_lowBits hb]
  · have hx64 : x < 2 ^ 64 := Nat.lt_of_lt_of_le hx hpow
    have hshl : wrapping64.shl x s = ((x <<< s) % 2 ^ 64 : Nat) := by
      change shl64 x s = _
      rw [shl64, if_neg (by omega), Int.toNat_natCast, toNat_shiftLeft64]
    have hshr : wrapping64.shr x k = (x >>> k : Nat) := by
      change shl64 x (-k) = _
      rw [shl64]
      split
      · rw [Int.neg_neg, Int.toNat_natCast, toNat_ushiftRight, toNat_word64, lowBits_of_lt hx64]
      · obtain rfl : k = 0 := by omega
        rw [show (-((0 : Nat) : Int)).toNat = 0 from rfl, shiftLeft_zero, toNat_word64,
          lowBits_of_lt hx64, Nat.shiftRight_zero]
    have hor : wrapping64.or ((x <<< s) % 2 ^ 64 : Nat) (x >>> k : Nat) =
        (((x <<< s) % 2 ^ 64 ||| x >>> k : Nat) : Int) := by
      change ((word64 _ ||| word64 _).toNat : Int) = _
      rw [toNat_or, toNat_word64, toNat_word64, lowBits_of_lt (Nat.mod_lt _ (by positivity)),
        lowBits_of_lt (Nat.lt_of_le_of_lt (Nat.shiftRight_le x k) hx64)]
    have hand (y : Nat) : wrapping64.and y ((2 ^ b - 1 : Nat) : Int) = ((y % 2 ^ b : Nat) : Int) := by
      change ((word64 _ &&& word64 _).toNat : Int) = _
      rw [toNat_and, toNat_word64, toNat_word64, hmask, Nat.and_two_pow_sub_one_eq_mod,
        lowBits_lowBits hb, lowBits, ofInt_natCast, toNat_ofNat]
    rw [hshl, hshr, hor, hand, Nat.or_mod_two_pow, Nat.or_mod_two_pow,
      Nat.mod_mod_of_dvd _ (pow_dvd_pow 2 hb)]

/-! ## Integers without a bound -/

/-- What is missing to the highest number of so many bits has the other bits. -/
theorem ldiff_two_pow_sub_one (b n : Nat) : (2 ^ b - 1).ldiff n = 2 ^ b - 1 - n % 2 ^ b := by
  have hlt : n % 2 ^ b < 2 ^ b := Nat.mod_lt n (by positivity)
  refine Nat.eq_of_testBit_eq fun i => ?_
  rw [Nat.sub_sub, Nat.add_comm 1, Nat.testBit_two_pow_sub_succ hlt, Nat.testBit_ldiff,
    Nat.testBit_two_pow_sub_one, Nat.testBit_mod_two_pow]
  by_cases hi : i < b <;> simp [hi]

/-- A mask gives the low bits, also of a negative number. -/
theorem land_two_pow_sub_one (b : Nat) (v : Int) :
    Int.land v ((2 ^ b - 1 : Nat) : Int) = (lowBits b v : Int) := by
  have hpos : 0 < 2 ^ b := by positivity
  cases v with
  | ofNat n =>
    change ((n &&& (2 ^ b - 1) : Nat) : Int) = _
    rw [Nat.and_two_pow_sub_one_eq_mod, lowBits, Int.ofNat_eq_natCast, ofInt_natCast,
      toNat_ofNat]
  | negSucc n =>
    change (((2 ^ b - 1).ldiff n : Nat) : Int) = _
    have hlt : n % 2 ^ b < 2 ^ b := Nat.mod_lt n hpos
    have hcast : (2 : Int) ^ b = ((2 ^ b : Nat) : Int) := by push_cast; rfl
    rw [ldiff_two_pow_sub_one, natCast_lowBits, hcast, Int.negSucc_emod _ (by exact_mod_cast hpos)]
    omega

theorem rotates_unbounded (b : Nat) : Rotates unbounded b := by
  refine ⟨fun v w => ?_, land_two_pow_sub_one b, fun x s k _ _ _ => ?_⟩
  · change Int.lor v w = Int.lor w v
    cases v <;> cases w <;> simp [Int.lor, Nat.or_comm, Nat.and_comm]
  have hshl : unbounded.shl x s = (x <<< s : Nat) := shlInt_natCast x s
  have hshr : unbounded.shr x k = (x >>> k : Nat) := shlInt_neg_natCast x k
  have hor (y z : Nat) : unbounded.or y z = ((y ||| z : Nat) : Int) := rfl
  have hand (y : Int) : unbounded.and y ((2 ^ b - 1 : Nat) : Int) = (lowBits b y : Int) :=
    land_two_pow_sub_one b y
  rw [hshl, hshr, hor, hand, lowBits, ofInt_natCast, toNat_ofNat]

end Scriptgen.Words

namespace Scriptgen

/-! ## Amounts that are literals -/

namespace Text

theorem valueIn_le_valueIn {a b : Nat} (h : a ≤ b) (digits : List Char) :
    valueIn a digits ≤ valueIn b digits := by
  have hfold (l : List Char) : ∀ m n : Nat, m ≤ n →
      l.foldl (fun n c => a * n + (hexDigit? c).getD 0) m ≤
        l.foldl (fun n c => b * n + (hexDigit? c).getD 0) n := by
    induction l with
    | nil => exact fun m n hmn => hmn
    | cons c l ih =>
      intro m n hmn
      exact ih _ _ (Nat.add_le_add_right (Nat.mul_le_mul h hmn) _)
  exact hfold _ 0 0 (Nat.le_refl 0)

/-- Who takes a literal for decimal digits takes it for no less than the targets do, since they may
read octal ones. -/
theorem integerLiteral?_le {text : String} {limit n m : Nat}
    (hread : integerLiteral? text.toList = some n) (hdigits : natOfDigits? limit text = some m) :
    n ≤ m := by
  by_cases hfirst : text.toList = ['0'] ∨ text.toList.head? ≠ some '0'
  · rw [integerLiteral?_of_first hfirst] at hread
    have hnumeral : isNumeralIn 10 text.toList := by
      by_contra hno
      rw [numeral?, if_neg hno] at hread
      cases hread
    rw [numeral?, if_pos hnumeral, Option.some.injEq] at hread
    rw [(denotes_of_decimal hfirst hnumeral).digits _ _ hdigits, hread]
  · push Not at hfirst
    obtain ⟨rest, htext⟩ := List.head?_eq_some_iff.1 hfirst.2
    obtain ⟨hall, rfl⟩ := natOfDigits?_eq_some hdigits (by simp [htext])
    cases rest with
    | nil => exact absurd htext hfirst.1
    | cons c rest =>
      have hc : c.isDigit := hall c (by rw [htext]; simp)
      have hne {mark : Char} (hmark : mark.isDigit = false) : (c == mark) = false := by
        rw [beq_eq_false_iff_ne]
        rintro rfl
        rw [hmark] at hc
        cases hc
      rw [htext, integerLiteral?, hne rfl, hne rfl, hne rfl, hne rfl] at hread
      rw [htext] at hall ⊢
      rw [← valueIn_eq_decimalValue hall]
      have hzero : valueIn 10 ('0' :: c :: rest) = valueIn 10 (c :: rest) := rfl
      simp only [Bool.or_self, Bool.false_eq_true, if_false, numeral?] at hread
      split at hread
      · rw [← Option.some.inj hread, hzero]
        exact valueIn_le_valueIn (by decide) (c :: rest)
      · cases hread

end Text

namespace Rotation

open Words

/-- What a rotation is to give: the low bits of a value, rotated by an amount that counts modulo the
width. -/
def apply (rotation : Rotation) (v n : Int) : Int :=
  let word := BitVec.ofInt rotation.bits v
  let count := (n % rotation.bits).toNat
  (if rotation.left then word.rotateLeft count else word.rotateRight count).toNat

variable {rotation : Rotation} {A : Arithmetic}

theorem mask_eq (rotation : Rotation) : rotation.mask = 2 ^ rotation.bits - 1 := by
  rw [mask, Nat.one_shiftLeft]

theorem apply_emod (rotation : Rotation) (v n : Int) :
    rotation.apply v (n % rotation.bits) = rotation.apply v n := by
  rw [apply, apply, Int.emod_emod]

/-- **The two shifts of a rotation**, joined and masked, by an amount below the width. -/
theorem apply_left (h : Rotates A rotation.bits) (hleft : rotation.left = true) (v : Int) {k : Nat}
    (hk : k < rotation.bits) :
    A.and (A.or (A.shl (lowBits rotation.bits v) k)
      (A.shr (lowBits rotation.bits v) (rotation.bits - k : Nat))) rotation.mask =
        rotation.apply v k := by
  have hlt := lowBits_lt rotation.bits v
  have hcount : ((k : Int) % rotation.bits).toNat % rotation.bits = k := by
    rw [← Int.natCast_mod, Int.toNat_natCast, Nat.mod_mod, Nat.mod_eq_of_lt hk]
  rw [mask_eq, h.join _ _ _ hlt (by omega) (by omega), apply, if_pos hleft, BitVec.toNat_rotateLeft,
    hcount, Nat.or_mod_two_pow, Nat.mod_eq_of_lt (Nat.lt_of_le_of_lt (Nat.shiftRight_le _ _) hlt)]
  rfl

theorem apply_right (h : Rotates A rotation.bits) (hleft : rotation.left = false) (v : Int) {k : Nat}
    (hk : k < rotation.bits) :
    A.and (A.or (A.shr (lowBits rotation.bits v) k)
      (A.shl (lowBits rotation.bits v) (rotation.bits - k : Nat))) rotation.mask =
        rotation.apply v k := by
  have hlt := lowBits_lt rotation.bits v
  have hcount : ((k : Int) % rotation.bits).toNat % rotation.bits = k := by
    rw [← Int.natCast_mod, Int.toNat_natCast, Nat.mod_mod, Nat.mod_eq_of_lt hk]
  rw [mask_eq, h.or_comm, h.join _ _ _ hlt (by omega) (by omega), apply,
    if_neg (by rw [hleft]; decide), BitVec.toNat_rotateRight, hcount, Nat.or_mod_two_pow,
    Nat.mod_eq_of_lt (Nat.lt_of_le_of_lt (Nat.shiftRight_le _ _) hlt), Nat.or_comm]
  rfl

end Rotation

end Scriptgen
