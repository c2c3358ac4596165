import Mathlib.Data.Int.Bitwise
import Mathlib.Tactic

/-!
# Words of 32 bits in wider integers

The bitwise operators of the source work on words of 32 bits, those of a target on wider integers.
`Arithmetic` is what is needed of the latter: on the low 32 bits they do what the same operators do
on words, and on numbers that fit in 32 bits they are exact. Integers of 64 bits (`wrapping64`) and
integers without a bound (`unbounded`) are two such arithmetics. From the laws alone follow the
shapes that generated code uses (`Arithmetic.low32_eq`, `Arithmetic.int32_eq`,
`Arithmetic.signed_shift_eq`).
-/

namespace Scriptgen.Words

open BitVec BitVec

def word (x : Int) : BitVec 32 := BitVec.ofInt 32 x

/-- How far a shift goes: only the low five bits of the amount count. -/
def shiftCount (amount : Int) : Nat := (word amount).toNat % 32

theorem shiftCount_lt (amount : Int) : shiftCount amount < 32 := Nat.mod_lt _ (by decide)

theorem word_natCast (n : Nat) : word n = BitVec.ofNat 32 n := rfl

variable {n : Nat}

theorem toNat_word_natCast (h : n < 2 ^ 32) : (word n).toNat = n := by
  rw [word_natCast, toNat_ofNat, Nat.mod_eq_of_lt h]

theorem shiftCount_natCast (n : Nat) : shiftCount n = n % 32 := by
  rw [shiftCount, word_natCast, toNat_ofNat, Nat.mod_mod_of_dvd n (by decide)]

theorem toNat_word (x : Int) : ((word x).toNat : Int) = x % 2 ^ 32 := by
  have : 0 ≤ x % 2 ^ 32 := Int.emod_nonneg x (by decide)
  rw [word, toNat_ofInt]
  simp only [Nat.reducePow, Nat.cast_ofNat, Int.reducePow] at this ⊢
  exact Int.toNat_of_nonneg this

/-- **The bitwise operators of a target.** On the low 32 bits they do what the same operators do on
words, and on numbers that fit in 32 bits they are exact. -/
structure Arithmetic where
  and : Int → Int → Int
  or : Int → Int → Int
  xor : Int → Int → Int
  shl : Int → Int → Int
  shr : Int → Int → Int
  not : Int → Int
  word_and : ∀ a b, word (and a b) = word a &&& word b
  word_or : ∀ a b, word (or a b) = word a ||| word b
  word_xor : ∀ a b, word (xor a b) = word a ^^^ word b
  word_not : ∀ a, word (not a) = ~~~ word a
  word_shl : ∀ (a : Int) (n : Nat), n < 32 → word (shl a n) = word a <<< n
  and_comm : ∀ a b, and a b = and b a
  /-- A mask of 32 bits leaves a number of 32 bits. -/
  and_mask : ∀ (a : Int) (m : Nat), m < 2 ^ 32 → 0 ≤ and a m ∧ and a m < 2 ^ 32
  xor_nat : ∀ m n : Nat, m < 2 ^ 32 → n < 2 ^ 32 → xor m n = (m ^^^ n : Nat)
  shr_nat : ∀ m n : Nat, m < 2 ^ 32 → n < 32 → shr m n = (m >>> n : Nat)

/-! ## Signs -/

/-- Flipping the highest of `k + 1` bits and taking it away again reads the number as signed. -/
theorem xor_sub_two_pow {k y : Nat} (hy : y < 2 ^ (k + 1)) :
    ((y ^^^ 2 ^ k : Nat) : Int) - 2 ^ k = if y < 2 ^ k then (y : Int) else y - 2 ^ (k + 1) := by
  -- below the flipped bit nothing changes, so that flipping it is adding it
  have hflip {z : Nat} (hz : z < 2 ^ k) : z ^^^ 2 ^ k = 2 ^ k + z := by
    have h := Nat.two_pow_add_eq_or_of_lt hz 1
    rw [Nat.mul_one] at h
    rw [h]
    refine Nat.eq_of_testBit_eq fun i => ?_
    rw [Nat.testBit_xor, Nat.testBit_or, Nat.testBit_two_pow]
    by_cases hi : k = i
    · subst hi
      simp [Nat.testBit_lt_two_pow hz]
    · simp [hi]
  split
  · rename_i hlt
    rw [hflip hlt]
    push_cast
    ring
  · rename_i hge
    obtain ⟨z, rfl⟩ : ∃ z, y = 2 ^ k + z := ⟨y - 2 ^ k, by omega⟩
    have hz : z < 2 ^ k := by rw [pow_succ] at hy; omega
    rw [← hflip hz, Nat.xor_assoc, Nat.xor_self, Nat.xor_zero, hflip hz, pow_succ]
    push_cast
    ring

theorem toInt_eq (x : BitVec 32) :
    x.toInt = if x.toNat < 2 ^ 31 then (x.toNat : Int) else x.toNat - 2 ^ 32 := by
  rw [toInt_eq_toNat_cond]
  simp only [Nat.reducePow, Nat.cast_ofNat, Int.reducePow]
  split <;> split <;> omega

variable {m : Nat}

namespace Arithmetic

variable (A : Arithmetic)

variable (a : Int)

theorem and_nat (hm : m < 2 ^ 32) : A.and a m = ((word a &&& word m).toNat : Int) := by
  obtain ⟨h0, h1⟩ := A.and_mask a m hm
  rw [← A.word_and, toNat_word, Int.emod_eq_of_lt h0 h1]

theorem low32_eq : A.and a (0xFFFFFFFF : Nat) = ((word a).toNat : Int) := by
  rw [A.and_nat a (by decide)]
  have : word (0xFFFFFFFF : Nat) = allOnes 32 := by decide
  rw [this, and_allOnes]

theorem int32_eq :
    A.xor (A.and a (0xFFFFFFFF : Nat)) (2 ^ 31 : Nat) - (2 ^ 31 : Nat) = (word a).toInt := by
  have hlt := (word a).isLt
  rw [A.low32_eq, A.xor_nat _ _ hlt (by decide), toInt_eq]
  have := xor_sub_two_pow hlt
  push_cast at this ⊢
  exact this

theorem and_narrow (hm : m < 2 ^ 31) : A.and a m = (word a &&& word m).toInt := by
  have hle : (word a &&& word m).toNat ≤ m := by
    rw [toNat_and, toNat_word_natCast (by omega)]
    exact Nat.and_le_right
  rw [A.and_nat a (by omega), toInt_eq, if_pos (by omega)]

theorem shiftCount_eq : A.and a (31 : Nat) = shiftCount a := by
  rw [A.and_nat a (by decide), toNat_and, toNat_word_natCast (by decide), shiftCount]
  congr 1
  exact Nat.and_two_pow_sub_one_eq_mod _ 5

theorem unsigned_shift_eq (hn : n < 32) :
    A.shr (A.and a (0xFFFFFFFF : Nat)) n = ((word a >>> n).toNat : Int) := by
  rw [A.low32_eq, A.shr_nat _ _ (word a).isLt hn, toNat_ushiftRight]

end Arithmetic

/-! ## Integers of 64 bits -/

def word64 (x : Int) : BitVec 64 := BitVec.ofInt 64 x

theorem setWidth_word64 (x : Int) : (word64 x).setWidth 32 = word x := by
  refine eq_of_toNat_eq (Int.ofNat_inj.1 ?_)
  have h0 : 0 ≤ x % 2 ^ 64 := Int.emod_nonneg x (by decide)
  have h64 : ((word64 x).toNat : Int) = x % 2 ^ 64 := by
    rw [word64, toNat_ofInt]
    simp only [Nat.reducePow, Nat.cast_ofNat, Int.reducePow] at h0 ⊢
    exact Int.toNat_of_nonneg h0
  rw [toNat_setWidth, toNat_word]
  push_cast
  rw [h64, Int.emod_emod_of_dvd x (by decide)]

theorem word_toNat64 (x : BitVec 64) : word x.toNat = x.setWidth 32 := by
  rw [word_natCast, ofNat_toNat]

theorem setWidth_shiftLeft (x : BitVec 64) (n : Nat) :
    (x <<< n).setWidth 32 = x.setWidth 32 <<< n := by
  ext i hi
  simp

theorem toNat_word64_natCast (h : n < 2 ^ 32) : (word64 n).toNat = n := by
  have : n < 2 ^ 64 := by omega
  rw [word64, ofInt_natCast, toNat_ofNat, Nat.mod_eq_of_lt this]

/-- A shift of 64 bits to the left, or to the right if the amount is negative. -/
def shl64 (a amount : Int) : Int :=
  if amount < 0 then (word64 a >>> (-amount).toNat).toNat else (word64 a <<< amount.toNat).toNat

/-- Bitwise operations on the low 64 bits, whose results have no sign. -/
def wrapping64 : Arithmetic where
  and a b := (word64 a &&& word64 b).toNat
  or a b := (word64 a ||| word64 b).toNat
  xor a b := (word64 a ^^^ word64 b).toNat
  shl := shl64
  shr a amount := shl64 a (-amount)
  not a := (~~~ word64 a).toNat
  word_and a b := by rw [word_toNat64, setWidth_and, setWidth_word64, setWidth_word64]
  word_or a b := by rw [word_toNat64, setWidth_or, setWidth_word64, setWidth_word64]
  word_xor a b := by rw [word_toNat64, setWidth_xor, setWidth_word64, setWidth_word64]
  word_not a := by
    rw [word_toNat64, setWidth_not (by decide), setWidth_word64]
  word_shl a n hn := by
    rw [shl64, if_neg (by omega), word_toNat64, Int.toNat_natCast, setWidth_shiftLeft,
      setWidth_word64]
  and_comm a b := by rw [BitVec.and_comm]
  and_mask a m hm := by
    have hle : (word64 a &&& word64 m).toNat ≤ m := by
      rw [toNat_and, toNat_word64_natCast hm]
      exact Nat.and_le_right
    omega
  xor_nat m n hm hn := by
    rw [toNat_xor, toNat_word64_natCast hm, toNat_word64_natCast hn]
  shr_nat m n hm hn := by
    rw [shl64]
    split
    · rw [Int.neg_neg, Int.toNat_natCast, toNat_ushiftRight, toNat_word64_natCast hm]
    · obtain rfl : n = 0 := by omega
      simp [toNat_word64_natCast hm]

/-! ## Integers without a bound -/

theorem getLsbD_word (x : Int) (i : Nat) :
    (word x).getLsbD i = (decide (i < 32) && x.testBit i) := by
  cases x with
  | ofNat n =>
    rw [word, Int.ofNat_eq_natCast, ofInt_natCast, getLsbD_ofNat]
    rfl
  | negSucc n =>
    rw [word, ofInt_negSucc_eq_not_ofNat, getLsbD_not, getLsbD_ofNat]
    simp [Int.testBit]
    grind

/-- A shift to the left, or to the right if the amount is negative. -/
def shlInt (a amount : Int) : Int :=
  if amount < 0 then a >>> (-amount).toNat else a <<< amount.toNat

theorem shlInt_natCast (a : Int) (n : Nat) : shlInt a n = a <<< n := by
  rw [shlInt, if_neg (by omega), Int.toNat_natCast]

theorem shlInt_neg_natCast (a : Int) (n : Nat) : shlInt a (-n) = a >>> n := by
  rw [shlInt]
  split
  · rw [Int.neg_neg, Int.toNat_natCast]
  · obtain rfl : n = 0 := by omega
    simp

theorem word_shiftLeft (a : Int) (n : Nat) : word (a <<< n) = word a <<< n := by
  have hpow : (2 : Int) ^ n = (2 ^ n : Nat) := by push_cast; rfl
  have htwo : BitVec.ofNat 32 (2 ^ n) = BitVec.twoPow 32 n :=
    eq_of_toNat_eq (by rw [toNat_ofNat, toNat_twoPow])
  rw [word, Int.shiftLeft_eq, ofInt_mul, hpow, ofInt_natCast, htwo,
    shiftLeft_eq_mul_twoPow, word]

/-- A mask of 32 bits leaves 32 bits, also of a negative number. -/
theorem land_natCast_bounds (a : Int) (hm : m < 2 ^ 32) :
    0 ≤ Int.land a m ∧ Int.land a m < 2 ^ 32 := by
  have hcast {k : Nat} (hk : k < 2 ^ 32) : 0 ≤ (k : Int) ∧ (k : Int) < 2 ^ 32 := by
    omega
  cases a with
  | ofNat n => exact hcast (Nat.lt_of_le_of_lt Nat.and_le_right hm)
  | negSucc n =>
    refine hcast (k := m.ldiff n) (Nat.lt_pow_two_of_testBit _ fun i hi => ?_)
    have : m < 2 ^ i := Nat.lt_of_lt_of_le hm (Nat.pow_le_pow_right (by decide) hi)
    rw [Nat.testBit_ldiff, Nat.testBit_lt_two_pow this, Bool.false_and]

/-- Bitwise operations in two's complement without a bound. -/
def unbounded : Arithmetic where
  and := Int.land
  or := Int.lor
  xor := Int.xor
  shl := shlInt
  shr a amount := shlInt a (-amount)
  not := Int.lnot
  word_and a b := by
    ext i hi
    simp [← getLsbD_eq_getElem, getLsbD_word, hi]
  word_or a b := by
    ext i hi
    simp [← getLsbD_eq_getElem, getLsbD_word, hi]
  word_xor a b := by
    ext i hi
    simp [← getLsbD_eq_getElem, getLsbD_word, hi]
  word_not a := by
    ext i hi
    simp [← getLsbD_eq_getElem, getLsbD_word, hi]
  word_shl a n _ := by rw [shlInt_natCast, word_shiftLeft]
  and_comm a b := by
    cases a <;> cases b <;> simp [Int.land, Nat.and_comm, Nat.or_comm]
  and_mask a _ hm := land_natCast_bounds a hm
  xor_nat m n _ _ := rfl
  shr_nat m n _ _ := by rw [shlInt_neg_natCast]; rfl

end Scriptgen.Words
