import Scriptgen.Proofs.Words.Rotation
/-!
# Bytes with the operators of a target

A word is put together from bytes, each shifted to its place, and taken apart by shifts and masks.
`Packs` is what this needs of the operators for words of so many bytes. A bit of the joined word is
that of the byte in whose place it lies (`testBit_joinedBytes`), so that `byteOf` gives back the
bytes that were joined (`map_byteOf_joinedBytes`), and joining the bytes of a word gives its low
bits (`joinedBytes_map_byteOf`).
-/

namespace Scriptgen.Words

open List Nat

def byteOf (x place : Nat) : Nat := (x >>> (8 * place)) % 256

def joinedBytes (placed : List (Nat × Nat)) : Nat :=
  placed.foldl (fun word entry => word ||| entry.1 <<< (8 * entry.2)) 0

/-- The parts of which they are joined. -/
def byteParts (bytes : List Int) (places : List Nat) : List Nat :=
  (bytes.zip places).map fun entry => lowBits 8 entry.1 <<< (8 * entry.2)

theorem foldl_byteParts (bytes : List Int) (places : List Nat) :
    (byteParts bytes places).foldl (· ||| ·) 0 = joinedBytes ((bytes.map (lowBits 8)).zip places) := by
  rw [byteParts, joinedBytes, foldl_map, zip_map_left, foldl_map]
  rfl

variable {n : Nat}

theorem byteParts_lt {places : List Nat} (hplaces : ∀ p ∈ places, p < n) (bytes : List Int) :
    ∀ part ∈ byteParts bytes places, part < 2 ^ (8 * n) := by
  intro part hpart
  obtain ⟨⟨b, p⟩, hentry, rfl⟩ := mem_map.1 hpart
  have hp := hplaces p (of_mem_zip hentry).2
  rw [shiftLeft_eq]
  calc lowBits 8 b * 2 ^ (8 * p) < 2 ^ 8 * 2 ^ (8 * p) :=
        mul_lt_mul_of_pos_right (lowBits_lt 8 b) (by positivity)
    _ = 2 ^ (8 + 8 * p) := (pow_add 2 8 (8 * p)).symm
    _ ≤ 2 ^ (8 * n) := Nat.pow_le_pow_right (by decide) (by omega)

/-- **What bytes need of the operators of a target**, in words of a number of bytes. -/
structure Packs (A : Arithmetic) (n : Nat) : Prop where
  low : ∀ w, A.and w (255 : Nat) = lowBits 8 w
  byte : ∀ w, ∀ p : Nat, p < n → A.and (A.shr w (8 * p : Nat)) (255 : Nat) = byteOf (lowBits (8 * n) w) p
  place : ∀ b p : Nat, b < 256 → p < n → A.shl b (8 * p : Nat) = (b <<< (8 * p) : Nat)
  or : ∀ x y : Nat, x < 2 ^ (8 * n) → y < 2 ^ (8 * n) → A.or x y = (x ||| y : Nat)

theorem testBit_byteOf (x place t : Nat) :
    (byteOf x place).testBit t = (decide (t < 8) && x.testBit (8 * place + t)) := by
  rw [byteOf, show 256 = 2 ^ 8 from rfl, testBit_mod_two_pow, testBit_shiftRight]

theorem byteOf_lt (x place : Nat) : byteOf x place < 256 := mod_lt _ (by decide)

/-- A byte of a word is one of any of its low bits that reach so far. -/
theorem byteOf_lowBits {a b place : Nat} (ha : 8 * place + 8 ≤ a) (hab : a ≤ b) (w : Int) :
    byteOf (lowBits b w) place = byteOf (lowBits a w) place := by
  refine eq_of_testBit_eq fun t => ?_
  rw [testBit_byteOf, testBit_byteOf, ← lowBits_lowBits hab w, testBit_mod_two_pow]
  by_cases ht : t < 8
  · simp [show 8 * place + t < a by omega]
  · simp [ht]

theorem byteOf_lowBits_zero (hn : 0 < n) (w : Int) :
    byteOf (lowBits (8 * n) w) 0 = lowBits 8 w := by
  rw [byteOf, mul_zero, shiftRight_zero]
  exact lowBits_lowBits (show 8 ≤ 8 * n by omega) w

/-- The places of the bytes of a word, in the order of the bytes. -/
def places (bigEndian : Bool) (n : Nat) : List Nat :=
  if bigEndian then (List.range n).reverse else List.range n

theorem mem_places {bigEndian : Bool} {p : Nat} : p ∈ places bigEndian n ↔ p < n := by
  cases bigEndian <;> simp [places]

variable (bigEndian : Bool)

theorem nodup_places (n : Nat) : (places bigEndian n).Nodup := by
  cases bigEndian <;> simp [places, nodup_range]

theorem length_places (n : Nat) : (places bigEndian n).length = n := by
  cases bigEndian <;> simp [places]

/-! ## Integers of 64 bits -/

theorem packs_wrapping64 (hn : n ≤ 8) : Packs wrapping64 n := by
  have hmask (w : Int) : wrapping64.and w (255 : Nat) = lowBits 8 w :=
    (rotates_wrapping64 (b := 8) (by decide)).mask w
  have hpow : 2 ^ (8 * n) ≤ 2 ^ 64 := Nat.pow_le_pow_right (by decide) (by omega)
  refine ⟨hmask, fun w p hp => ?_, fun b p hb hp => ?_, fun x y hx hy => ?_⟩
  · have hshr : wrapping64.shr w (8 * p : Nat) = ((lowBits 64 w >>> (8 * p) : Nat) : Int) := by
      change shl64 w (-(8 * p : Nat)) = _
      rw [shl64]
      split
      · rw [Int.neg_neg, Int.toNat_natCast, BitVec.toNat_ushiftRight, toNat_word64]
      · obtain rfl : p = 0 := by omega
        simp [toNat_word64]
    rw [hshr, hmask, ← byteOf_lowBits (b := 64) (by omega) (by omega), lowBits,
      BitVec.ofInt_natCast, BitVec.toNat_ofNat]
    rfl
  · have hsmall : b <<< (8 * p) < 2 ^ 64 := by
      rw [shiftLeft_eq]
      calc b * 2 ^ (8 * p) < 2 ^ 8 * 2 ^ (8 * p) := mul_lt_mul_of_pos_right hb (by positivity)
        _ = 2 ^ (8 + 8 * p) := (pow_add 2 8 (8 * p)).symm
        _ ≤ 2 ^ 64 := Nat.pow_le_pow_right (by decide) (by omega)
    change shl64 b (8 * p : Nat) = _
    rw [shl64, if_neg (by omega), Int.toNat_natCast, toNat_shiftLeft64, mod_eq_of_lt hsmall]
  · change ((word64 x ||| word64 y).toNat : Int) = _
    rw [BitVec.toNat_or, toNat_word64, toNat_word64, lowBits_of_lt (lt_of_lt_of_le hx hpow),
      lowBits_of_lt (lt_of_lt_of_le hy hpow)]

/-! ## Integers without a bound -/

theorem lowBits_shiftRight {p : Nat} (hp : p < n) (w : Int) :
    lowBits 8 (w >>> (8 * p)) = byteOf (lowBits (8 * n) w) p := by
  have hpow : (2 : Int) ^ (8 * n) = 2 ^ (8 * p) * (2 ^ 8 * 2 ^ (8 * (n - p - 1))) := by
    rw [← pow_add, ← pow_add]
    congr 1
    omega
  have hsplit : w = w % 2 ^ (8 * n) + 2 ^ (8 * p) * (2 ^ 8 * 2 ^ (8 * (n - p - 1)) * (w / 2 ^ (8 * n))) := by
    rw [← mul_assoc, ← hpow]
    exact (Int.emod_add_mul_ediv w _).symm
  have hquotient : w / 2 ^ (8 * p) = w % 2 ^ (8 * n) / 2 ^ (8 * p) +
      2 ^ 8 * (2 ^ (8 * (n - p - 1)) * (w / 2 ^ (8 * n))) := by
    conv_lhs => rw [hsplit]
    rw [Int.add_mul_ediv_left _ _ (by positivity), mul_assoc]
  refine Int.ofNat_inj.1 ?_
  rw [byteOf, shiftRight_eq_div_pow]
  push_cast
  rw [natCast_lowBits, natCast_lowBits, Int.shiftRight_eq_div_pow]
  push_cast
  rw [hquotient, show (2 : Int) ^ 8 = 256 from rfl, Int.add_mul_emod_self_left]

theorem packs_unbounded (n : Nat) : Packs unbounded n := by
  refine ⟨land_two_pow_sub_one 8, fun w p hp => ?_, fun b p _ _ => shlInt_natCast b (8 * p),
    fun _ _ _ _ => rfl⟩
  have hshr : unbounded.shr w (8 * p : Nat) = w >>> (8 * p) := shlInt_neg_natCast w (8 * p)
  rw [hshr, ← lowBits_shiftRight hp]
  exact land_two_pow_sub_one 8 (w >>> (8 * p))

/-! ## Joined bytes -/

theorem testBit_joinedBytes (placed : List (Nat × Nat)) (k : Nat) :
    (joinedBytes placed).testBit k =
      placed.any fun entry => decide (8 * entry.2 ≤ k) && entry.1.testBit (k - 8 * entry.2) := by
  have hfold (placed : List (Nat × Nat)) (word : Nat) :
      (placed.foldl (fun word entry => word ||| entry.1 <<< (8 * entry.2)) word).testBit k =
        (word.testBit k ||
          placed.any fun entry => decide (8 * entry.2 ≤ k) && entry.1.testBit (k - 8 * entry.2)) := by
    induction placed generalizing word with
    | nil => simp
    | cons entry rest ih =>
      rw [foldl_cons, ih, testBit_or, testBit_shiftLeft, any_cons, Bool.or_assoc]
  rw [joinedBytes, hfold]
  simp

/-- **Joined bytes are read back.** -/
theorem map_byteOf_joinedBytes {bytes places : List Nat} (hlength : bytes.length = places.length)
    (hbytes : ∀ b ∈ bytes, b < 256) (hplaces : places.Nodup) :
    places.map (byteOf (joinedBytes (bytes.zip places))) = bytes := by
  refine ext_getElem (by simp [hlength]) fun i hi hi' => ?_
  rw [length_map] at hi
  rw [getElem_map]
  refine eq_of_testBit_eq fun t => ?_
  have hbyte (j : Nat) (hj : j < bytes.length) {k : Nat} (hk : 8 ≤ k) : bytes[j].testBit k = false :=
    testBit_lt_two_pow (lt_of_lt_of_le (hbytes _ (getElem_mem hj))
      (Nat.pow_le_pow_right (show 0 < 2 by decide) hk))
  rw [testBit_byteOf, testBit_joinedBytes]
  by_cases ht : t < 8
  · -- Of the places that a bit could belong to only one has it among its eight bits.
    rw [decide_eq_true ht, Bool.true_and, Bool.eq_iff_iff, any_eq_true]
    constructor
    · rintro ⟨entry, hentry, hbit⟩
      obtain ⟨j, hj, rfl⟩ := mem_iff_getElem.1 hentry
      rw [length_zip] at hj
      rw [getElem_zip, Bool.and_eq_true, decide_eq_true_eq] at hbit
      have hnear : 8 * places[i] + t - 8 * places[j] < 8 := by
        by_contra hfar
        rw [hbyte j (by omega) (by omega)] at hbit
        exact absurd hbit.2 (by decide)
      obtain rfl : j = i := hplaces.getElem_inj_iff.1 (by omega)
      simpa using hbit.2
    · intro hbit
      have hzip : i < (bytes.zip places).length := by rw [length_zip]; omega
      refine ⟨(bytes.zip places)[i], getElem_mem hzip, ?_⟩
      rw [getElem_zip]
      simpa using hbit
  · rw [hbyte i hi' (by omega)]
    simp [ht]

/-- **The bytes of a word are joined to it**, if their places are those below a number. -/
theorem joinedBytes_map_byteOf {x : Nat} (hx : x < 2 ^ (8 * n)) {places : List Nat}
    (hplaces : ∀ p, p ∈ places ↔ p < n) :
    joinedBytes ((places.map (byteOf x)).zip places) = x := by
  refine eq_of_testBit_eq fun k => ?_
  have hzip : (places.map (byteOf x)).zip places = places.map fun p => (byteOf x p, p) := by
    have hself : (places.map (byteOf x)).zip (places.map id) = places.map fun p => (byteOf x p, p) :=
      zip_map'
    rwa [map_id] at hself
  rw [testBit_joinedBytes, hzip, any_map, Bool.eq_iff_iff, any_eq_true]
  constructor
  · rintro ⟨p, -, hbit⟩
    simp only [Function.comp_apply, Bool.and_eq_true, decide_eq_true_eq, testBit_byteOf] at hbit
    rw [show 8 * p + (k - 8 * p) = k by omega] at hbit
    exact hbit.2.2
  · intro hbit
    have hk : k < 8 * n := by
      by_contra hk
      rw [Nat.testBit_lt_two_pow (Nat.lt_of_lt_of_le hx (Nat.pow_le_pow_right (by decide) (by omega)))] at hbit
      cases hbit
    refine ⟨k / 8, (hplaces _).2 (by omega), ?_⟩
    simp only [Function.comp_apply, Bool.and_eq_true, decide_eq_true_eq, testBit_byteOf]
    rw [show 8 * (k / 8) + (k - 8 * (k / 8)) = k by omega]
    exact ⟨by omega, by omega, hbit⟩

theorem joinedBytes_lt {placed : List (Nat × Nat)}
    (h : ∀ entry ∈ placed, entry.1 < 256 ∧ entry.2 < n) : joinedBytes placed < 2 ^ (8 * n) := by
  refine lt_pow_two_of_testBit _ fun k hk => ?_
  rw [testBit_joinedBytes, any_eq_false]
  intro entry hentry
  obtain ⟨hbyte, hplace⟩ := h entry hentry
  have hzero : entry.1.testBit (k - 8 * entry.2) = false :=
    testBit_lt_two_pow (lt_of_lt_of_le hbyte
      (Nat.pow_le_pow_right (show 0 < 2 by decide) (show 8 ≤ k - 8 * entry.2 by omega)))
  simp [hzero]

/-! ## Words and their bytes -/

def packedWord (bigEndian : Bool) (n : Nat) (values : List Int) : Int :=
  joinedBytes ((values.map (lowBits 8)).zip (places bigEndian n))

def unpackedBytes (bigEndian : Bool) (n : Nat) (w : Int) : List Int :=
  (places bigEndian n).map fun p => (byteOf (lowBits (8 * n) w) p : Int)

theorem length_unpackedBytes (n : Nat) (w : Int) : (unpackedBytes bigEndian n w).length = n := by
  rw [unpackedBytes, length_map, length_places]

/-- **Unpacking undoes packing**, up to the bits of the bytes that are cut off. -/
theorem unpackedBytes_packedWord {values : List Int} (hlength : values.length = n)
    (bigEndian : Bool) :
    unpackedBytes bigEndian n (packedWord bigEndian n values) = values.map (· % 256) := by
  have hentries : ∀ entry ∈ (values.map (lowBits 8)).zip (places bigEndian n),
      entry.1 < 256 ∧ entry.2 < n := by
    intro entry hentry
    obtain ⟨hbyte, hplace⟩ := of_mem_zip hentry
    obtain ⟨v, -, hv⟩ := mem_map.1 hbyte
    exact ⟨hv ▸ lowBits_lt 8 v, mem_places.1 hplace⟩
  have hbytes : (places bigEndian n).map
      (byteOf (joinedBytes ((values.map (lowBits 8)).zip (places bigEndian n)))) =
        values.map (lowBits 8) := by
    refine map_byteOf_joinedBytes (by rw [length_map, length_places, hlength]) ?_
      (nodup_places bigEndian n)
    intro b hb
    obtain ⟨v, -, rfl⟩ := mem_map.1 hb
    exact lowBits_lt 8 v
  rw [unpackedBytes, packedWord, lowBits_of_lt (joinedBytes_lt hentries)]
  calc (places bigEndian n).map (fun p =>
        ((byteOf (joinedBytes ((values.map (lowBits 8)).zip (places bigEndian n))) p : Nat) : Int))
      = (values.map (lowBits 8)).map fun b => ((b : Nat) : Int) := by
        conv_rhs => rw [← hbytes, map_map]
        rfl
    _ = values.map (· % 256) := by
        rw [map_map]
        exact map_congr_left fun v _ => natCast_lowBits 8 v

/-- **Packing undoes unpacking**, up to the bits of the word that are cut off. -/
theorem packedWord_unpackedBytes (n : Nat) (w : Int) :
    packedWord bigEndian n (unpackedBytes bigEndian n w) = w % 2 ^ (8 * n) := by
  have hbytes : (unpackedBytes bigEndian n w).map (lowBits 8) =
      (places bigEndian n).map (byteOf (lowBits (8 * n) w)) := by
    rw [unpackedBytes, map_map]
    exact map_congr_left fun p _ => lowBits_of_lt (byteOf_lt _ p)
  rw [packedWord, hbytes, joinedBytes_map_byteOf (lowBits_lt (8 * n) w) fun p => mem_places,
    natCast_lowBits]

end Scriptgen.Words
