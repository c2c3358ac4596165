import Mathlib.Tactic
import Scriptgen.Text.Numeral
/-!
# What integer literals denote

`integerLiteral?` is how both targets read an integer literal, and `Spells` is how the source writes
one. The numbers that generated code writes itself are read back (`denotes_decimal`, `denotes_hex`).
-/

namespace Scriptgen

open List Nat

variable {text : String} {spell : Char → Char} {digits : List Char} {n : Nat} {limit d : Nat}

namespace Text

/-! ## Digits -/

/-- Whether a character is a digit in a base of at most 16. -/
def isDigitIn (base : Nat) (c : Char) : Bool := (hexDigit? c).any (· < base)

/-- The number that digits denote in a base. Underscores only set digits apart. -/
def valueIn (base : Nat) (digits : List Char) : Nat :=
  (digits.filter (· != '_')).foldl (fun n c => base * n + (hexDigit? c).getD 0) 0

/-- Whether characters are digits in a base, at least one of them, apart from underscores. -/
def isNumeralIn (base : Nat) (digits : List Char) : Bool :=
  digits.any (isDigitIn base) && digits.all fun c => c == '_' || isDigitIn base c

/-- The number that digits denote in a base, if they are digits in it. -/
def numeral? (base : Nat) (digits : List Char) : Option Nat :=
  if isNumeralIn base digits then some (valueIn base digits) else none

/-- The number that the targets read a literal as. A zero before other digits makes it octal. -/
def integerLiteral? : List Char → Option Nat
  | '0' :: c :: digits =>
    if c == 'x' || c == 'X' then numeral? 16 digits
    else if c == 'b' || c == 'B' then numeral? 2 digits
    else numeral? 8 (c :: digits)
  | digits => numeral? 10 digits

/-- `Spells cs n`: the source writes the number `n` as `cs`. -/
inductive Spells : List Char → Nat → Prop
  | decimal {digits : List Char} (first : digits = ['0'] ∨ digits.head? ≠ some '0')
      (h : isNumeralIn 10 digits) : Spells digits (valueIn 10 digits)
  | hexadecimal {x : Char} {digits : List Char} (hx : x = 'x' ∨ x = 'X')
      (h : isNumeralIn 16 digits) : Spells ('0' :: x :: digits) (valueIn 16 digits)
  | binary {b : Char} {digits : List Char} (hb : b = 'b' ∨ b = 'B')
      (h : isNumeralIn 2 digits) : Spells ('0' :: b :: digits) (valueIn 2 digits)
  | octal {o : Char} {digits : List Char} (ho : o = 'o' ∨ o = 'O')
      (h : isNumeralIn 8 digits) : Spells ('0' :: o :: digits) (valueIn 8 digits)
  /-- An octal number by its leading zero alone. -/
  | legacy {d : Char} {digits : List Char} (hd : isDigitIn 8 d)
      (h : isNumeralIn 8 (d :: digits)) : Spells ('0' :: d :: digits) (valueIn 8 (d :: digits))
  /-- With a fraction or an exponent, whatever whole number that makes. -/
  | scaled {cs : List Char} {n : Nat} (mark : '.' ∈ cs ∨ 'e' ∈ cs ∨ 'E' ∈ cs)
      (h : ∀ digits, cs ≠ '0' :: 'x' :: digits ∧ cs ≠ '0' :: 'X' :: digits) : Spells cs n

/-- `Denotes text n`: the targets read the text as `n`, and so does who takes it for plain
decimal digits. -/
structure Denotes (text : String) (n : Nat) : Prop where
  read : integerLiteral? text.toList = some n
  digits : ∀ limit m, natOfDigits? limit text = some m → m = n

theorem Denotes.unique {m : Nat} (hm : Denotes text m) (hn : Denotes text n) : m = n :=
  Option.some.inj (hm.read.symm.trans hn.read)

theorem hexDigit?_digitChar (h : d < 16) : hexDigit? d.digitChar = some d := by
  interval_cases d <;> rfl

theorem hexDigit?_toUpper_digitChar (h : d < 16) : hexDigit? d.digitChar.toUpper = some d := by
  interval_cases d <;> rfl

theorem hexDigit?_underscore : hexDigit? '_' = none := rfl

variable {c : Char}

theorem hexDigit?_of_isDigit (h : c.isDigit) : hexDigit? c = some (digitValue c) := by
  simp [hexDigit?, h]

theorem digitValue_lt_of_isDigit (h : c.isDigit) : digitValue c < 10 := by
  simp only [Char.isDigit, Bool.and_eq_true, decide_eq_true_eq] at h
  have h2 : c.val.toNat ≤ 57 := UInt32.le_iff_toNat_le.mp h.2
  change c.val.toNat - 48 < 10
  omega

theorem isDigitIn_of_isDigit (h : c.isDigit) : isDigitIn 10 c := by
  simp [isDigitIn, hexDigit?_of_isDigit h, digitValue_lt_of_isDigit h]

variable {base : Nat}

theorem ne_underscore_of_isDigitIn (h : isDigitIn base c) : c ≠ '_' := by
  rintro rfl
  simp [isDigitIn, hexDigit?_underscore] at h

theorem valueIn_append (hc : hexDigit? c = some d) (digits : List Char) :
    valueIn base (digits ++ [c]) = base * valueIn base digits + d := by
  have hne : c ≠ '_' := by
    rintro rfl
    simp [hexDigit?_underscore] at hc
  simp [valueIn, filter_append, hne, foldl_append, hc]

/-- Written digits denote the number, in any spelling of the single digits. -/
theorem valueIn_map_toDigits (hb : 1 < base)
    (hs : ∀ d < base, hexDigit? (spell d.digitChar) = some d) (n : Nat) :
    valueIn base ((toDigits base n).map spell) = n := by
  induction n using Nat.strongRecOn with
  | ind n ih =>
    rcases lt_or_ge n base with hlt | hge
    · have : valueIn base ([] ++ [spell n.digitChar]) = base * valueIn base [] + n :=
        valueIn_append (hs n hlt) []
      simpa [toDigits_of_lt_base hlt, valueIn] using this
    · rw [toDigits_of_base_le hb hge, map_append, map_singleton,
        valueIn_append (hs _ (mod_lt n (by omega))),
        ih (n / base) (div_lt_self (by omega) hb)]
      exact div_add_mod n base

theorem isDigitIn_of_mem_map_toDigits (hb : 1 < base)
    (hs : ∀ d < base, hexDigit? (spell d.digitChar) = some d)
    (hc : c ∈ (toDigits base n).map spell) : isDigitIn base c := by
  induction n using Nat.strongRecOn with
  | ind n ih =>
    have digit (d : Nat) (hd : d < base) : isDigitIn base (spell d.digitChar) := by
      simp [isDigitIn, hs d hd, hd]
    rcases lt_or_ge n base with hlt | hge
    · rw [toDigits_of_lt_base hlt, map_singleton, mem_singleton] at hc
      exact hc ▸ digit n hlt
    · rw [toDigits_of_base_le hb hge, map_append, mem_append] at hc
      rcases hc with hc | hc
      · exact ih (n / base) (div_lt_self (by omega) hb) hc
      · rw [map_singleton, mem_singleton] at hc
        exact hc ▸ digit _ (mod_lt n (by omega))

theorem numeral?_map_toDigits (hb : 1 < base)
    (hs : ∀ d < base, hexDigit? (spell d.digitChar) = some d) (n : Nat) :
    numeral? base ((toDigits base n).map spell) = some n := by
  have hall : ∀ c ∈ (toDigits base n).map spell, isDigitIn base c := fun c =>
    isDigitIn_of_mem_map_toDigits hb hs
  have hnum : isNumeralIn base ((toDigits base n).map spell) := by
    obtain ⟨c, hc⟩ := exists_mem_of_ne_nil _
      (map_eq_nil_iff.not.mpr (toDigits_ne_nil (n := n) (b := base)) :
        (toDigits base n).map spell ≠ [])
    rw [isNumeralIn, Bool.and_eq_true, any_eq_true, all_eq_true]
    exact ⟨⟨c, hc, hall c hc⟩, fun c hc => by simp [hall c hc]⟩
  rw [numeral?, if_pos hnum, valueIn_map_toDigits hb hs]

/-! ## Written numbers -/

theorem eq_zero_of_head?_toDigits (h : (toDigits 10 n).head? = some '0') : n = 0 := by
  induction n using Nat.strongRecOn with
  | ind n ih =>
    rcases lt_or_ge n 10 with hlt | hge
    · simpa [toDigits_of_lt_base hlt] using h
    · rw [toDigits_of_base_le (by decide) hge, head?_append_of_ne_nil _
        toDigits_ne_nil] at h
      have := ih (n / 10) (div_lt_self (by omega) (by decide)) h
      omega

theorem integerLiteral?_of_first (first : digits = ['0'] ∨ digits.head? ≠ some '0') :
    integerLiteral? digits = numeral? 10 digits := by
  rcases first with rfl | first
  · rfl
  · rw [integerLiteral?.eq_2]
    rintro c rest rfl
    exact first rfl

theorem toList_decimal (n : Nat) : (decimal n).toList = toDigits 10 n := by
  rw [decimal, String.toList_ofList]

theorem first_toDigits (n : Nat) :
    toDigits 10 n = ['0'] ∨ (toDigits 10 n).head? ≠ some '0' := by
  by_cases h : (toDigits 10 n).head? = some '0'
  · left
    rw [eq_zero_of_head?_toDigits h]
    rfl
  · exact Or.inr h

/-- Plain digits denote what `decimalValue` says. -/
theorem valueIn_eq_decimalValue (h : ∀ c ∈ digits, c.isDigit) :
    valueIn 10 digits = decimalValue digits := by
  have hfilter : digits.filter (· != '_') = digits := by
    rw [filter_eq_self]
    intro c hc
    have := ne_underscore_of_isDigitIn (isDigitIn_of_isDigit (h c hc))
    simpa using this
  rw [valueIn, hfilter, decimalValue]
  refine foldl_ext _ _ _ fun n c hc => ?_
  rw [hexDigit?_of_isDigit (h c hc), Option.getD_some]

theorem natOfDigits?_eq (hplus : text.toList.head? ≠ some '+') : natOfDigits? limit text =
      if !text.toList.isEmpty && text.toList.all Char.isDigit then
        if decimalValue text.toList ≤ limit then some (decimalValue text.toList) else none
      else none := by
  unfold natOfDigits?
  split
  · rename_i rest heq
    exact absurd (by rw [heq]; rfl) hplus
  · rfl

theorem natOfDigits?_eq_some {m : Nat} (h : natOfDigits? limit text = some m)
    (hplus : text.toList.head? ≠ some '+') :
    (∀ c ∈ text.toList, c.isDigit) ∧ m = decimalValue text.toList := by
  rw [natOfDigits?_eq hplus] at h
  split at h
  · rename_i hall
    rw [Bool.and_eq_true, all_eq_true] at hall
    split at h
    · exact ⟨hall.2, (Option.some.inj h).symm⟩
    · cases h
  · cases h

theorem denotes_of_decimal (first : text.toList = ['0'] ∨ text.toList.head? ≠ some '0')
    (h : isNumeralIn 10 text.toList) : Denotes text (valueIn 10 text.toList) where
  read := by rw [integerLiteral?_of_first first, numeral?, if_pos h]
  digits limit m hm := by
    have hplus : text.toList.head? ≠ some '+' := by
      intro hp
      obtain ⟨rest, hrest⟩ := head?_eq_some_iff.1 hp
      rw [isNumeralIn, Bool.and_eq_true, all_eq_true] at h
      have := h.2 '+' (by simp [hrest])
      simp [isDigitIn, hexDigit?] at this
    obtain ⟨hall, rfl⟩ := natOfDigits?_eq_some hm hplus
    exact (valueIn_eq_decimalValue hall).symm

/-- A numeral with a prefix denotes its value: nobody takes it for plain digits. -/
theorem denotes_of_prefixed {mark : Char}
    (ht : text.toList = '0' :: mark :: digits) (hm : mark.isDigit = false)
    (h : integerLiteral? ('0' :: mark :: digits) = some n) : Denotes text n where
  read := ht ▸ h
  digits limit m hl := by
    obtain ⟨hall, -⟩ := natOfDigits?_eq_some hl (by simp [ht])
    have := hall mark (by simp [ht])
    simp [hm] at this

theorem denotes_decimal (n : Nat) : Denotes (decimal n) n := by
  have hnum : numeral? 10 (toDigits 10 n) = some n := by
    have : numeral? 10 ((toDigits 10 n).map id) = some n :=
      numeral?_map_toDigits (by decide) (fun d hd => hexDigit?_digitChar (by omega)) n
    rwa [map_id] at this
  rw [numeral?] at hnum
  split at hnum
  · rename_i h
    have : Denotes (decimal n) (valueIn 10 (decimal n).toList) :=
      denotes_of_decimal (by rw [toList_decimal]; exact first_toDigits n)
        (by rw [toList_decimal]; exact h)
    rwa [toList_decimal, Option.some.inj hnum] at this
  · cases hnum

theorem denotes_decimalInt (n : Nat) : Denotes (decimalInt n) n := by
  have : ¬ (n : Int) < 0 := by omega
  rw [decimalInt, if_neg this]
  exact denotes_decimal n

theorem denotes_zero : Denotes "0" 0 := denotes_decimalInt 0

theorem denotes_hex (n : Nat) : Denotes ("0x" ++ hexUpper n) n := by
  have ht : ("0x" ++ hexUpper n).toList = '0' :: 'x' :: (toDigits 16 n).map Char.toUpper := by
    simp [hexUpper]
  refine denotes_of_prefixed ht rfl ?_
  rw [integerLiteral?, if_pos (by rfl)]
  exact numeral?_map_toDigits (by decide) (fun d hd => hexDigit?_toUpper_digitChar hd) n

end Text

end Scriptgen
