import Mathlib.Data.List.TakeWhile
import Scriptgen.NumberText
import Scriptgen.Proofs.Numerals
/-!
# The text of a literal denotes its value

A literal keeps its spelling where the targets read it alike, and is otherwise written anew from its
double. A whole number below `2 ^ 53` is read back as itself either way (`denotes_numberText`): it
is exact as a double (`ratio_ofInt`), and no other whole number is as near to it, so that its
shortest decimal is the number (`decimalText_ofInt`).
-/

namespace Scriptgen

open List Binary64 Char

/-! ## Doubles -/

namespace Binary64

variable {n : Nat}

/-- The double of a whole number below `2 ^ 53` is the number itself, moved up to 53 binary
digits. -/
theorem ofInt_eq (hpos : 0 < n) (hn : n < 2 ^ 53) :
    ofInt n = ⟨false, n * 2 ^ (52 - n.log2), (n.log2 : Int) - 52⟩ := by
  have hlog : n.log2 < 53 := (Nat.log2_lt (by omega)).2 hn
  have hlow : 2 ^ n.log2 ≤ n := Nat.log2_self_le (by omega)
  have hhigh : n < 2 ^ (n.log2 + 1) := Nat.lt_log2_self
  -- one step finer than the first guess, the digits fit
  have hfull : 2 ^ 53 ≤ n * 2 ^ (53 - n.log2) := by
    calc 2 ^ 53 = 2 ^ n.log2 * 2 ^ (53 - n.log2) := by rw [← pow_add]; congr 1; omega
      _ ≤ n * 2 ^ (53 - n.log2) := Nat.mul_le_mul_right _ hlow
  have hfit : n * 2 ^ (52 - n.log2) < 2 ^ 53 := by
    calc n * 2 ^ (52 - n.log2) < 2 ^ (n.log2 + 1) * 2 ^ (52 - n.log2) :=
          Nat.mul_lt_mul_of_pos_right hhigh (by positivity)
      _ = 2 ^ 53 := by rw [← pow_add]; congr 1; omega
  have hguess : max minExponent ((n.log2 : Int) - (Nat.log2 1 : Int) - 53) =
      (n.log2 : Int) - 53 := by
    have : Nat.log2 1 = 0 := by decide
    rw [this, minExponent]
    omega
  have hscaled : scaled n 1 ((n.log2 : Int) - 53) = (n * 2 ^ (53 - n.log2), 1) := by
    rw [scaled, if_pos (by omega)]
    congr 3
    omega
  have hgrid : gridExponent n 1 = (n.log2 : Int) - 52 := by
    simp only [gridExponent, hguess, hscaled, Nat.div_one]
    rw [if_neg (by omega)]
    omega
  have hscaled' : scaled n 1 ((n.log2 : Int) - 52) = (n * 2 ^ (52 - n.log2), 1) := by
    rw [scaled]
    split
    · congr 3
      omega
    · have : n.log2 = 52 := by omega
      simp [this]
  have hround : roundQuotient (n * 2 ^ (52 - n.log2)) 1 = n * 2 ^ (52 - n.log2) := by
    simp [roundQuotient, Nat.mod_one]
  have hne : n ≠ 0 := by omega
  have hfit : n * 2 ^ (52 - n.log2) ≠ 0x20000000000000 := by omega
  have hnat : ((n : Int).natAbs) = n := Int.natAbs_natCast n
  have hsign : decide ((n : Int) < 0) = false := by simp
  rw [ofInt, hnat, hsign, ofRatio?]
  simp only [beq_iff_eq, hne, if_false, hgrid, hscaled', hround, hfit]
  rw [if_pos (by rw [maxExponent]; omega), Option.getD_some]

variable (hn : n < 2 ^ 53)

include hn

/-- The fraction that the double of a whole number below `2 ^ 53` stands for is the number. -/
theorem ratio_ofInt : ∃ d, 0 < d ∧ (ofInt n).ratio = (n * d, d) := by
  rcases Nat.eq_zero_or_pos n with rfl | hpos
  · refine ⟨2 ^ minExponent.natAbs, by positivity, ?_⟩
    rw [Nat.zero_mul, show ofInt ((0 : Nat) : Int) = zero from rfl, ratio, if_pos (by decide)]
    simp only [zero, Nat.pow_eq]
  · refine ⟨2 ^ (52 - n.log2), by positivity, ?_⟩
    have hlog : n.log2 < 53 := (Nat.log2_lt (by omega)).2 hn
    rw [ofInt_eq hpos hn, ratio]
    simp only
    split
    · congr 2
      omega
    · have : n.log2 = 52 := by omega
      simp [this]

theorem negative_ofInt : (ofInt n).negative = false := by
  rcases Nat.eq_zero_or_pos n with rfl | hpos
  · rfl
  · rw [ofInt_eq hpos hn]

theorem isIntegral_ofInt : (ofInt n).isIntegral = true := by
  obtain ⟨d, hd, h⟩ := ratio_ofInt hn
  simp [isIntegral, h]

theorem truncate_ofInt : (ofInt n).truncate = n := by
  obtain ⟨d, hd, h⟩ := ratio_ofInt hn
  simp [truncate, h, negative_ofInt hn, Nat.mul_div_cancel _ hd]

theorem compare_ofInt (i : Int) :
    (ofInt n).ge i = decide (i ≤ n) ∧ (ofInt n).le i = decide ((n : Int) ≤ i) := by
  obtain ⟨d, hd, h⟩ := ratio_ofInt hn
  have hd' : (0 : Int) < d := by exact_mod_cast hd
  simp only [ge, le, h, negative_ofInt hn, Bool.false_eq_true, if_false, Nat.cast_mul,
    decide_eq_decide]
  exact ⟨mul_le_mul_iff_left₀ hd', mul_le_mul_iff_left₀ hd'⟩

/-! ## Shortest decimals of whole numbers -/

omit hn

/-- The interval around a whole number below `2 ^ 53`: the number is at its center, and no other
whole number is in it. -/
structure Rounding.Isolates (r : Rounding) (n : Nat) : Prop where
  den_pos : 0 < r.den
  value_eq : r.value = n * r.den
  low_le : r.low ≤ r.value
  high_ge : r.value ≤ r.high
  low_gt : r.value < r.low + r.den
  high_lt : r.high < r.value + r.den
  open_lt : r.closed = false → r.low < r.value ∧ r.value < r.high

theorem isolates_rounding (hpos : 0 < n) (hn : n < 2 ^ 53) : (ofInt n).rounding.Isolates n := by
  have hlog : n.log2 < 53 := (Nat.log2_lt (by omega)).2 hn
  obtain ⟨m, hm⟩ : ∃ m, m = n * 2 ^ (52 - n.log2) := ⟨_, rfl⟩
  have hmpos : 0 < m := by rw [hm]; positivity
  have hshift : ((n.log2 : Int) - 52 - 2 < 0) := by omega
  have habs : ((n.log2 : Int) - 52 - 2).natAbs = 54 - n.log2 := by omega
  have hden : 4 * m = n * 2 ^ (54 - n.log2) := by
    rw [hm, show 54 - n.log2 = (52 - n.log2) + 2 by omega, pow_add]
    ring
  have hden4 : 4 ≤ 2 ^ (54 - n.log2) := by
    calc 4 = 2 ^ 2 := rfl
      _ ≤ 2 ^ (54 - n.log2) := Nat.pow_le_pow_right (by decide) (by omega)
  rw [ofInt_eq hpos hn, ← hm, rounding]
  simp only [hshift, if_true, habs, Nat.pow_eq]
  -- the lower end is one or two quarters of a step below
  have hstep (b : Bool) : 1 ≤ (if b then 1 else 2) ∧ (if b then 1 else 2) ≤ 2 := by
    cases b <;> decide
  have := hstep (m == 0x10000000000000 && decide (minExponent < (n.log2 : Int) - 52))
  refine ⟨by positivity, hden, ?_, ?_, ?_, ?_, fun _ => ⟨?_, ?_⟩⟩
  all_goals simp only
  all_goals omega

variable {r : Rounding}

variable (hr : r.Isolates n)

include hr

theorem Rounding.Isolates.eq_of_holds {a : Nat} (h : r.holds a 1) : a = n := by
  have hlo : r.low ≤ a * r.den ∧ a * r.den ≤ r.high := by
    simp only [holds, Nat.mul_one] at h
    split at h
    · simpa using h
    · simp only [Bool.and_eq_true, decide_eq_true_eq] at h
      exact ⟨h.1.le, h.2.le⟩
  have hlow := hr.low_gt
  have hhigh := hr.high_lt
  rw [hr.value_eq] at hlow hhigh
  have h1 : n * r.den < (a + 1) * r.den := by rw [Nat.add_mul]; omega
  have h2 : a * r.den < (n + 1) * r.den := by rw [Nat.add_mul]; omega
  have h3 := Nat.lt_of_mul_lt_mul_right h1
  have h4 := Nat.lt_of_mul_lt_mul_right h2
  omega

theorem Rounding.Isolates.holds_self : r.holds n 1 := by
  have hv := hr.value_eq
  simp only [holds, Nat.mul_one]
  split
  · have := hr.low_le
    have := hr.high_ge
    simp only [Bool.and_eq_true, decide_eq_true_eq]
    omega
  · rename_i hc
    have := hr.open_lt (by simpa using hc)
    simp only [Bool.and_eq_true, decide_eq_true_eq]
    omega

theorem Rounding.Isolates.of_onGrid? {k factor : Nat}
    (h : r.onGrid? (k : Int) = some factor) : factor * 10 ^ k = n := by
  have hp : powTen (k : Int) = (10 ^ k, 1) := by simp [powTen]
  simp only [onGrid?, hp] at h
  split at h
  · rename_i hboth
    rw [Bool.and_eq_true] at hboth
    split at h <;> cases h
    · exact hr.eq_of_holds hboth.1
    · exact hr.eq_of_holds hboth.2
  · split at h
    · rename_i hb
      cases h
      exact hr.eq_of_holds hb
    · split at h
      · rename_i ha
        cases h
        exact hr.eq_of_holds ha
      · cases h

theorem Rounding.Isolates.onGrid?_zero : ∃ factor, r.onGrid? 0 = some factor := by
  have hp : powTen 0 = (1, 1) := rfl
  have hbelow : r.value / r.den = n := by
    rw [hr.value_eq, Nat.mul_div_cancel _ hr.den_pos]
  simp only [onGrid?, hp, Nat.mul_one, hbelow, hr.holds_self, Bool.true_and, if_true]
  split
  · split
    · exact ⟨_, rfl⟩
    · exact ⟨_, rfl⟩
  · exact ⟨_, rfl⟩

/-- The search for the shortest decimal ends on a grid of whole numbers, at the number. -/
theorem Rounding.Isolates.search_eq {fuel k : Nat} (hfuel : k < fuel) :
    ∃ factor j : Nat, r.search fuel (k : Int) = (factor, (j : Int)) ∧ factor * 10 ^ j = n := by
  induction fuel generalizing k with
  | zero => omega
  | succ fuel ih =>
    rw [search]
    cases hg : r.onGrid? (k : Int) with
    | some factor => exact ⟨factor, k, rfl, hr.of_onGrid? hg⟩
    | none =>
      rcases k with _ | k
      · obtain ⟨factor, h⟩ := hr.onGrid?_zero
        simp [h] at hg
      · obtain ⟨factor, j, h, hn⟩ := ih (k := k) (by omega)
        refine ⟨factor, j, ?_, hn⟩
        simpa using h

omit hr

theorem toDigits_mul_pow {a : Nat} (ha : 0 < a) (j : Nat) :
    Nat.toDigits 10 (a * 10 ^ j) = Nat.toDigits 10 a ++ replicate j '0' := by
  induction j with
  | zero => simp
  | succ j ih =>
    have hpos : 0 < a * 10 ^ j := by positivity
    have h := Nat.toDigits_append_toDigits (b := 10) (d := 0) (by decide) hpos (by decide)
    rw [show a * 10 ^ (j + 1) = 10 * (a * 10 ^ j) + 0 by ring, ← h, ih, append_assoc,
      replicate_succ']
    rfl

/-- The shortest decimal of a whole number below `2 ^ 53` is the number. -/
theorem decimalText_ofInt (hpos : 0 < n) (hn : n < 2 ^ 53) :
    (ofInt n).decimalText = Text.decimal n := by
  have hmantissa : (ofInt n).mantissa ≠ 0 := by
    rw [ofInt_eq hpos hn]
    have : 0 < n * 2 ^ (52 - n.log2) := by positivity
    exact this.ne'
  obtain ⟨factor, j, hs, hf⟩ := (isolates_rounding hpos hn).search_eq
    (Nat.lt_add_of_pos_right (by decide : 0 < 400))
  have hfactor : 0 < factor := by
    rcases Nat.eq_zero_or_pos factor with rfl | h
    · omega
    · exact h
  have hshort : (ofInt n).shortest = (factor, (j : Int)) := hs
  simp only [decimalText, negative_ofInt hn, beq_iff_eq, hmantissa, if_false, hshort,
    Bool.false_eq_true, String.empty_append, positional, Int.natCast_nonneg, if_true,
    Int.natAbs_natCast, Text.decimal]
  rw [← toDigits_mul_pow hfactor, hf]

end Binary64

/-! ## Literals -/

variable {base : Nat} {digits : List Char}

namespace Text

variable {c : Char} {cs : List Char}

theorem mem_dropEndWhile {p : Char → Bool} (hc : c ∈ cs) (hp : p c = false) :
    c ∈ dropEndWhile p cs := by
  have h : cs.reverse = cs.reverse.takeWhile p ++ cs.reverse.dropWhile p :=
    (takeWhile_append_dropWhile).symm
  have hmem : c ∈ cs.reverse.takeWhile p ++ cs.reverse.dropWhile p := h ▸ mem_reverse.2 hc
  rcases mem_append.1 hmem with ht | hd
  · have := mem_takeWhile_imp ht
    simp [hp] at this
  · exact mem_reverse.2 hd

theorem exists_append_dropEndWhile (p : Char → Bool) (cs : List Char) :
    ∃ tail, cs = dropEndWhile p cs ++ tail := by
  refine ⟨(cs.reverse.takeWhile p).reverse, ?_⟩
  rw [dropEndWhile, ← reverse_append, takeWhile_append_dropWhile, reverse_reverse]

theorem dropEndWhile_eq_self (h : ∀ c ∈ cs, c ≠ 'n') : dropEndWhile (· == 'n') cs = cs := by
  rw [dropEndWhile]
  rcases hr : cs.reverse with _ | ⟨c, rest⟩
  · rw [dropWhile_nil, ← hr, reverse_reverse]
  · have hc : c ∈ cs := mem_reverse.1 (by simp [hr])
    rw [dropWhile_cons_of_neg (by simpa using h c hc), ← hr, reverse_reverse]

theorem ne_mark_of_isDigitIn (h : isDigitIn base c) : c ≠ 'n' := by
  rintro rfl
  simp [isDigitIn, hexDigit?] at h

theorem digits_of_isNumeralIn (h : isNumeralIn base digits) :
    digits ≠ [] ∧ ∀ c ∈ digits, c = '_' ∨ isDigitIn base c := by
  rw [isNumeralIn, Bool.and_eq_true] at h
  refine ⟨?_, by simpa using h.2⟩
  rintro rfl
  cases h.1

theorem ne_mark_of_isNumeralIn (h : isNumeralIn base digits) : ∀ c ∈ digits, c ≠ 'n' := by
  intro c hc
  rcases (digits_of_isNumeralIn h).2 c hc with rfl | hd
  · decide
  · exact ne_mark_of_isDigitIn hd

/-- A character is its lower case, or the capital letter of it. -/
theorem eq_or_toNat_of_toLower {d : Char} (h : c.toLower = d) :
    c = d ∨ 65 ≤ c.toNat ∧ c.toNat + 32 = d.toNat := by
  delta toLower at h
  split at h
  · rename_i hu
    right
    subst h
    have h1 : 65 ≤ c.val.toNat := UInt32.le_iff_toNat_le.mp hu.1
    have h2 : c.val.toNat ≤ 90 := UInt32.le_iff_toNat_le.mp hu.2
    refine ⟨h1, ?_⟩
    change c.val.toNat + 32 = (c.val + 32).toNat
    rw [UInt32.toNat_add]
    have : (32 : UInt32).toNat = 32 := rfl
    omega
  · exact Or.inl h

theorem eq_zero_of_toLower (h : c.toLower = '0') : c = '0' := by
  rcases eq_or_toNat_of_toLower h with h | ⟨h, h'⟩
  · exact h
  · change c.toNat + 32 = 48 at h'
    omega

theorem eq_x_of_toLower (h : c.toLower = 'x') : c = 'x' ∨ c = 'X' := by
  refine (eq_or_toNat_of_toLower h).imp_right fun h => ?_
  have : c.toNat = 'X'.toNat := by
    change c.toNat = 88
    have : c.toNat + 32 = 120 := h.2
    omega
  exact toNat_inj.1 this

/-- Digits in lower case, as the test for portable spellings asks for them. -/
theorem toLower_digit (hbase : base ∈ [2, 8, 10, 16]) (h : isDigitIn base c) :
    isHexDigit c.toLower ∧ (base ≤ 10 → c.isDigit ∧ c.toLower = c) ∧
      (base = 2 → c.toLower = '0' ∨ c.toLower = '1') := by
  have htable : ∀ base ∈ [2, 8, 10, 16], ∀ k < 103, let c := ofNat k; isDigitIn base c →
      isHexDigit c.toLower ∧ (base ≤ 10 → c.isDigit ∧ c.toLower = c) ∧
        (base = 2 → c.toLower = '0' ∨ c.toLower = '1') := by
    decide +kernel
  have hsmall : c.toNat < 103 := by
    by_contra hlarge
    have hother (d : Char) (hd : d.toNat < 103) : ¬ c ≤ d := fun hle =>
      hlarge ((UInt32.le_iff_toNat_le.1 hle).trans_lt hd)
    have hdigit : c.isDigit = false := by
      by_contra hdigit
      simp [isDigit] at hdigit
      exact hother '9' (by decide) hdigit.2
    simp [isDigitIn, hexDigit?, hdigit, hother] at h
  have hlower := htable base hbase c.toNat hsmall
  rw [c.ofNat_toNat] at hlower
  exact hlower h

theorem isPortable_scaled (mark : '.' ∈ cs ∨ 'e' ∈ cs) (h : ∀ digits, cs ≠ '0' :: 'x' :: digits) :
    isPortable cs = false := by
  by_contra hport
  rw [Bool.not_eq_false] at hport
  unfold isPortable at hport
  split at hport
  · exact h _ rfl
  · rw [Bool.and_eq_true, all_eq_true] at hport
    rcases mark with mark | mark
    all_goals
      simp only [mem_cons, reduceEq, false_or] at mark
      have := hport.2 _ mark
      simp at this
  · simp only [Bool.and_eq_true, all_eq_true] at hport
    rcases mark with mark | mark
    all_goals
      have := hport.1.2 _ mark
      simp at this

theorem dropEndWhile_prefixed (hc : c ≠ 'n') (h : isNumeralIn base cs) :
    dropEndWhile (· == 'n') ('0' :: c :: cs) = '0' :: c :: cs :=
  dropEndWhile_eq_self (by simpa [hc] using ne_mark_of_isNumeralIn h)

/-- A spelling that both sides read alike is read as its value. -/
theorem denotes_of_isPortable {n : Nat} (hs : Spells cs n)
    (hport : isPortable ((dropEndWhile (· == 'n') cs).map toLower)) :
    Denotes (String.ofList (dropEndWhile (· == 'n') cs)) n := by
  cases hs with
  | decimal first h =>
    rw [dropEndWhile_eq_self (ne_mark_of_isNumeralIn h)]
    have : Denotes (String.ofList cs) (valueIn 10 (String.ofList cs).toList) :=
      denotes_of_decimal (by rwa [String.toList_ofList]) (by rwa [String.toList_ofList])
    rwa [String.toList_ofList] at this
  | hexadecimal hmark h | binary hmark h =>
    rcases hmark with rfl | rfl
    all_goals
      rw [dropEndWhile_prefixed (by decide) h]
      exact denotes_of_prefixed String.toList_ofList rfl (if_pos h)
  | octal ho h =>
    rw [dropEndWhile_prefixed (by rcases ho with rfl | rfl <;> decide) h] at hport
    rcases ho with rfl | rfl <;> simp [isPortable] at hport
  | @legacy d digits hd h =>
    rw [dropEndWhile_eq_self (by simpa using ne_mark_of_isNumeralIn h)] at hport
    obtain ⟨hdigit, hlower⟩ := (toLower_digit (by decide) hd).2.1 (by decide)
    rw [map_cons, map_cons, hlower,
      show '0'.toLower = '0' from rfl] at hport
    unfold isPortable at hport
    split at hport
    iterate 2
      · rename_i heq
        simp only [cons.injEq, true_and] at heq
        simp [heq.1] at hdigit
    · simp at hport
  | scaled mark h =>
    have hmark : '.' ∈ (dropEndWhile (· == 'n') cs).map toLower ∨
        'e' ∈ (dropEndWhile (· == 'n') cs).map toLower := by
      rcases mark with mark | mark | mark
      · exact Or.inl (mem_map.2 ⟨_, mem_dropEndWhile mark rfl, rfl⟩)
      · exact Or.inr (mem_map.2 ⟨_, mem_dropEndWhile mark rfl, rfl⟩)
      · exact Or.inr (mem_map.2 ⟨_, mem_dropEndWhile mark rfl, rfl⟩)
    have hhex (digits : List Char) :
        (dropEndWhile (· == 'n') cs).map toLower ≠ '0' :: 'x' :: digits := by
      intro heq
      obtain ⟨tail, htail⟩ := exists_append_dropEndWhile (· == 'n') cs
      rcases hd : dropEndWhile (· == 'n') cs with _ | ⟨a, _ | ⟨b, rest⟩⟩
      · simp [hd] at heq
      · simp [hd] at heq
      · simp only [hd, map_cons, cons.injEq] at heq
        rw [hd, eq_zero_of_toLower heq.1] at htail
        rcases eq_x_of_toLower heq.2.1 with rfl | rfl
        · exact (h _).1 htail
        · exact (h _).2 htail
    rw [isPortable_scaled hmark hhex] at hport
    cases hport

/-- Whether a spelling is in plain decimal, hexadecimal or binary digits. -/
def isPlain : List Char → Bool
  | '0' :: c :: digits =>
    (c.toLower == 'x' && isNumeralIn 16 digits) || (c.toLower == 'b' && isNumeralIn 2 digits)
  | digits => isNumeralIn 10 digits

theorem toLower_decimal (h : isNumeralIn 10 cs) :
    cs.map toLower = cs ∧ ∀ c ∈ cs, c = '_' ∨ c.isDigit := by
  have hdigit : ∀ c ∈ cs, c = '_' ∨ c.isDigit ∧ c.toLower = c := fun c hc =>
    ((digits_of_isNumeralIn h).2 c hc).imp_right fun h =>
      (toLower_digit (by decide) h).2.1 (by decide)
  refine ⟨(map_congr_left fun c hc => ?_).trans (map_id cs),
    fun c hc => (hdigit c hc).imp_right And.left⟩
  rcases hdigit c hc with rfl | hc
  · rfl
  · exact hc.2

theorem isPortable_of_isPlain (h : isPlain cs) :
    isPortable ((dropEndWhile (· == 'n') cs).map toLower) := by
  unfold isPlain at h
  split at h
  · rename_i c digits
    have hmark {d : Char} (hc : c.toLower = d) (hd : d ≠ 'n') : c ≠ 'n' := by
      rintro rfl
      exact hd hc.symm
    simp only [Bool.or_eq_true, Bool.and_eq_true, beq_iff_eq] at h
    rcases h with ⟨hc, h⟩ | ⟨hc, h⟩
    all_goals
      obtain ⟨hne, hall⟩ := digits_of_isNumeralIn h
      rw [dropEndWhile_eq_self (by simpa [hmark hc] using ne_mark_of_isNumeralIn h)]
      simp only [map_cons, hc, show '0'.toLower = '0' from rfl, isPortable, Bool.and_eq_true,
        all_map, all_eq_true]
      refine ⟨by simpa using hne, fun c hc => ?_⟩
      rcases hall c hc with rfl | hdigit
      · rfl
      · have := toLower_digit (by decide) hdigit
        simpa using by tauto
  · rename_i hzero
    obtain ⟨hlower, hdigit⟩ := toLower_decimal h
    rw [dropEndWhile_eq_self (ne_mark_of_isNumeralIn h), hlower]
    have hfirst : cs = ['0'] ∨ cs.head? ≠ some '0' := by
      rcases cs with _ | ⟨c, _ | ⟨d, rest⟩⟩
      · simp
      · by_cases hc : c = '0' <;> simp [hc]
      · exact .inr fun hc => hzero d rest (by simp_all)
    have hdigits : (cs.all fun c => c.isDigit || c == '_') = true := by
      simpa [or_comm] using hdigit
    have hne := (digits_of_isNumeralIn h).1
    unfold isPortable
    split <;> simp_all

/-- **How the source writes a number.** After a zero, digits that are not octal are decimal. -/
inductive SpellsInteger : List Char → Nat → Prop
  | spelled {cs : List Char} {n : Nat} (h : Spells cs n) : SpellsInteger cs n
  | padded {cs : List Char} (h : isNumeralIn 10 cs) (hother : isNumeralIn 8 cs = false) :
      SpellsInteger ('0' :: cs) (valueIn 10 cs)

theorem isPortable_padded (h : isNumeralIn 10 cs) :
    isPortable ((dropEndWhile (· == 'n') ('0' :: cs)).map toLower) = false := by
  obtain ⟨hlower, hdigit⟩ := toLower_decimal h
  have hne := (digits_of_isNumeralIn h).1
  rw [dropEndWhile_eq_self (by simpa using ne_mark_of_isNumeralIn h), map_cons, hlower]
  rcases cs with _ | ⟨c, cs⟩
  · contradiction
  have hc := hdigit c mem_cons_self
  unfold isPortable
  split <;> simp_all

end Text

/-- **Number literals are read back.** -/
theorem denotes_numberText {n : Nat} (hn : n < 2 ^ 53) {raw : Option String}
    (hraw : ∀ r ∈ raw, Text.Spells r.toList n) :
    Text.Denotes (numberText (.ofInt n) raw) n := by
  have hformat : Text.Denotes (formatNumber (.ofInt n)) n := by
    rw [formatNumber]
    split
    · rw [truncate_ofInt hn]
      exact Text.denotes_decimalInt n
    · rename_i hlarge
      have hpos : 0 < n := by
        simp only [isIntegral_ofInt hn, compare_ofInt hn,
          Bool.true_and, Bool.and_eq_true, Bool.not_eq_true', decide_eq_false_iff_not] at hlarge
        omega
      rw [decimalText_ofInt hpos hn]
      exact Text.denotes_decimal n
  cases raw with
  | none => exact hformat
  | some raw =>
    rw [numberText]
    split
    · rename_i hport
      exact Text.denotes_of_isPortable (hraw raw rfl) hport
    · exact hformat

open Text

/-- The whole number that a literal of these digits stands for as a double. There is none if the
digits are too many for a double. -/
def roundedValue? (n : Nat) : Option Int := (ofRatio? false n 1).map (·.truncate)

theorem roundedValue?_of_lt {n : Nat} (hn : n < 2 ^ 53) : roundedValue? n = some (n : Int) := by
  have hdouble : (ofRatio? false n 1).getD .zero = .ofInt n := by
    rw [ofInt, Int.natAbs_natCast, decide_eq_false (by omega)]
  have htruncate := truncate_ofInt hn
  rw [roundedValue?]
  cases hratio : ofRatio? false n 1 with
  | some double =>
    rw [hratio, Option.getD_some] at hdouble
    rw [Option.map_some, hdouble, htruncate]
  | none =>
    -- Only zero rounds to zero, and zero has a double.
    rw [hratio, Option.getD_none] at hdouble
    rw [← hdouble] at htruncate
    have hzero : zero.truncate = 0 := @Binary64.truncate_ofInt 0 (by decide)
    obtain rfl : n = 0 := by omega
    cases hratio

/-- **The value of an integer literal**: that of its digits, which a literal without the mark of a
`BigInt` rounds to a double. -/
def literalValue? (isBig : Bool) (n : Nat) : Option Int :=
  if isBig then some (n : Int) else roundedValue? n

/-- **An integer literal keeps its value exactly if rounding keeps it.** The text is read back as the
digits of the spelling, however many there are, so that it differs from the value of a literal that
is no `BigInt` and has no double of its own. Below `2 ^ 53` every number has one. -/
theorem numberText_keeps_value_iff {cs : List Char} {n : Nat} (h : SpellsInteger cs n)
    (hsmall : isPlain cs = false → n < 10 ^ 15) (isBig : Bool) :
    let text := numberText (.ofInt n) (some (String.ofList (cs ++ if isBig then ['n'] else [])))
    let value := (integerLiteral? text.toList).map Int.ofNat
    (value = literalValue? isBig n ↔ isBig = true ∨ roundedValue? n = some (n : Int)) ∧
      (n < 2 ^ 53 → value = literalValue? isBig n) := by
  intro text value
  have hdigits : dropEndWhile (· == 'n') (cs ++ if isBig then ['n'] else []) =
      dropEndWhile (· == 'n') cs := by
    cases isBig <;> simp [dropEndWhile]
  have hread : integerLiteral? text.toList = some n := by
    simp only [text, numberText, String.toList_ofList, hdigits]
    split
    · rename_i hport
      cases h with
      | spelled h => exact (denotes_of_isPortable h hport).read
      | padded h => simp [isPortable_padded h] at hport
    · rename_i hport
      have hplain : isPlain cs = false := by
        by_contra hplain
        exact hport (isPortable_of_isPlain (by simpa using hplain))
      have hn := hsmall hplain
      exact (@denotes_numberText n (by omega) none (by simp)).read
  have hvalue : value = some (n : Int) := by simp [value, hread]
  rw [hvalue]
  cases isBig with
  | true => simp [literalValue?]
  | false =>
    refine ⟨by simp [literalValue?, eq_comm], fun hn => ?_⟩
    exact (roundedValue?_of_lt hn).symm

/-- `010n` is the octal of 8 with the mark of a `BigInt`. -/
theorem numberText_keeps_value_iff_octal :
    (integerLiteral? (numberText (.ofInt 8) (some "010n")).toList).map Int.ofNat =
      literalValue? true 8 :=
  ((numberText_keeps_value_iff (.spelled (@Spells.legacy '1' ['0'] (by decide) (by decide)))
    (fun _ => by decide) true).1).2 (.inl rfl)

/-- The double of `2 ^ 53 + 1` is `2 ^ 53`, but its digits are kept. -/
theorem numberText_keeps_odd_digits :
    (integerLiteral? (numberText (.ofInt 9007199254740993)
      (some "9007199254740993")).toList).map Int.ofNat = some 9007199254740993 ∧
    literalValue? false 9007199254740993 = some 9007199254740992 := by
  decide +kernel

end Scriptgen
