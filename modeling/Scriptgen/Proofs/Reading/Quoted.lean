import Scriptgen.Perl.Quote
import Scriptgen.Ruby.Quote
import Scriptgen.Proofs.Numerals
/-!
# Reading string literals

In single quotes only the backslash and the quote are escaped. In double quotes there are escapes by
letter, by number in braces, and of any character that is no letter or digit; the letters, and what
starts an interpolation, are the `Quoting` of a target. Literals are read as the text they were
written from: `Perl.readString_quoteString` and `Ruby.readString_quoteString`.
-/

namespace Scriptgen.Reading

open List Text

/-- Reads up to and with the closing single quote. -/
def readSingle : List Char → Option (List Char × List Char)
  | [] => none
  | '\'' :: rest => some ([], rest)
  | '\\' :: '\\' :: rest => (readSingle rest).map fun r => ('\\' :: r.1, r.2)
  | '\\' :: '\'' :: rest => (readSingle rest).map fun r => ('\'' :: r.1, r.2)
  | c :: rest => (readSingle rest).map fun r => (c :: r.1, r.2)

/-- The rules of a target between double quotes. -/
structure Quoting where
  /-- The letter of the escape by number. -/
  letter : Char
  /-- The escapes by letter. -/
  named : Char → Option Char
  /-- Whether a character starts an interpolation before what follows it. -/
  interpolates : Char → List Char → Bool

/-- Where a reader is between double quotes. -/
inductive Mode where
  | text
  /-- After the letter of an escape by number. -/
  | brace
  /-- Within the braces of an escape, with the number so far. -/
  | number (n : Nat)

/-- Reads up to and with the closing double quote, without interpolations. -/
def readDouble (Q : Quoting) : Mode → List Char → Option (List Char × List Char)
  | _, [] => none
  | .brace, c :: rest => if c = '\x7b' then readDouble Q (.number 0) rest else none
  | .number n, c :: rest =>
    if c = '\x7d' then (readDouble Q .text rest).map fun r => (Char.ofNat n :: r.1, r.2)
    else
      match hexDigit? c with
      | some d => readDouble Q (.number (16 * n + d)) rest
      | none => none
  | .text, '"' :: rest => some ([], rest)
  | .text, '\\' :: c :: rest =>
    if c = Q.letter then readDouble Q .brace rest
    else
      match Q.named c with
      | some d => (readDouble Q .text rest).map fun r => (d :: r.1, r.2)
      | none =>
        if c.isAlphanum then none else (readDouble Q .text rest).map fun r => (c :: r.1, r.2)
  | .text, c :: rest =>
    if Q.interpolates c rest then none else (readDouble Q .text rest).map fun r => (c :: r.1, r.2)

def readString (Q : Quoting) : List Char → Option (String × List Char)
  | '\'' :: rest => (readSingle rest).map fun r => (String.ofList r.1, r.2)
  | '"' :: rest => (readDouble Q .text rest).map fun r => (String.ofList r.1, r.2)
  | _ => none

variable {Q : Quoting}

theorem readDouble_digits {digits : List Char}
    (h : ∀ c ∈ digits, isDigitIn 16 c = true) (n : Nat) (rest : List Char) :
    readDouble Q (.number n) (digits ++ '\x7d' :: rest) =
      (readDouble Q .text rest).map fun r =>
        (Char.ofNat (digits.foldl (fun n c => 16 * n + (hexDigit? c).getD 0) n) :: r.1,
          r.2) := by
  induction digits generalizing n with
  | nil => rw [nil_append, readDouble, if_pos rfl, foldl_nil]
  | cons c digits ih =>
    have hc := h c mem_cons_self
    obtain ⟨d, hd⟩ : ∃ d, hexDigit? c = some d := by
      rw [isDigitIn, Option.any_eq_true] at hc
      exact ⟨hc.choose, hc.choose_spec.1⟩
    have hne : c ≠ '\x7d' := by rintro rfl; cases hd
    rw [cons_append, readDouble, if_neg hne, hd]
    simp only
    rw [ih fun c hc => h c (mem_cons_of_mem _ hc), foldl_cons, hd]
    rfl

theorem readDouble_hexLower (c : Char) (rest : List Char) :
    readDouble Q .text
        (['\\', Q.letter, '\x7b'] ++ (hexLower c.toNat).toList ++ ['\x7d'] ++ rest) =
      (readDouble Q .text rest).map fun r => (c :: r.1, r.2) := by
  have hspell : ∀ d < 16, hexDigit? (id d.digitChar) = some d := fun d hd =>
    hexDigit?_digitChar hd
  have hdigits : ∀ d ∈ Nat.toDigits 16 c.toNat, isDigitIn 16 d = true := fun d hd =>
    isDigitIn_of_mem_map_toDigits (by decide) hspell (by rwa [map_id])
  have hvalue : (Nat.toDigits 16 c.toNat).foldl (fun n c => 16 * n + (hexDigit? c).getD 0) 0 =
      c.toNat := by
    have h := valueIn_map_toDigits (by decide : 1 < 16) hspell c.toNat
    rw [map_id, valueIn, filter_eq_self.2] at h
    · exact h
    · intro d hd
      simpa using ne_underscore_of_isDigitIn (hdigits d hd)
  rw [hexLower, String.toList_ofList]
  change readDouble Q .text ('\\' :: Q.letter :: '\x7b' ::
    (Nat.toDigits 16 c.toNat ++ ['\x7d'] ++ rest)) = _
  rw [readDouble, if_pos rfl, readDouble, if_pos rfl, append_assoc, singleton_append,
    readDouble_digits hdigits,
    hvalue, Char.ofNat_toNat]

theorem readDouble_named {c d : Char} (hc : c ≠ Q.letter) (hd : Q.named c = some d)
    (rest : List Char) : readDouble Q .text ('\\' :: c :: rest) =
      (readDouble Q .text rest).map fun r => (d :: r.1, r.2) := by
  rw [readDouble, if_neg hc, hd]

theorem readDouble_mark {c : Char} (hc : c ≠ Q.letter) (hnamed : Q.named c = none)
    (halnum : c.isAlphanum = false) (rest : List Char) :
    readDouble Q .text ('\\' :: c :: rest) =
      (readDouble Q .text rest).map fun r => (c :: r.1, r.2) := by
  rw [readDouble, if_neg hc, hnamed, halnum]
  rfl

variable {escape : Char → List Char}

theorem readDouble_flatMap
    (h : ∀ c rest, readDouble Q .text (escape c ++ rest) = (readDouble Q .text rest).map fun r => (c :: r.1, r.2))
    (text rest : List Char) :
    readDouble Q .text (text.flatMap escape ++ '"' :: rest) = some (text, rest) := by
  induction text with
  | nil => rw [flatMap_nil, nil_append, readDouble]
  | cons c text ih =>
    rw [flatMap_cons, append_assoc, h, ih]
    rfl

theorem readSingle_flatMap (h : ∀ c, escape c = if c == '\\' || c == '\'' then ['\\', c] else [c])
    (text rest : List Char) :
    readSingle (text.flatMap escape ++ '\'' :: rest) = some (text, rest) := by
  induction text with
  | nil => rw [flatMap_nil, nil_append, readSingle]
  | cons c text ih =>
    rw [flatMap_cons, append_assoc, h]
    by_cases hback : c = '\\'
    · subst hback
      simp [readSingle, ih]
    · by_cases hquote : c = '\''
      · subst hquote
        simp [readSingle, ih]
      · simp [readSingle, hback, hquote, ih]

theorem readString_single (h : ∀ c, escape c = if c == '\\' || c == '\'' then ['\\', c] else [c])
    (text : String) (rest : List Char) :
    readString Q ('\'' :: (text.toList.flatMap escape ++ '\'' :: rest)) = some (text, rest) := by
  rw [readString, readSingle_flatMap h]
  simp

end Scriptgen.Reading

namespace Scriptgen.Perl

open Reading

/-- The rules between double quotes in Perl. -/
def quoting : Quoting where
  letter := 'x'
  named
    | 'n' => some '\n'
    | 't' => some '\t'
    | 'r' => some '\r'
    | _ => none
  interpolates c _ := c == '$' || c == '@'

theorem readDouble_escapeDouble (c : Char) (rest : List Char) :
    readDouble quoting .text (escapeDouble c ++ rest) =
      (readDouble quoting .text rest).map fun r => (c :: r.1, r.2) := by
  rw [escapeDouble]
  split
  · rename_i h
    simp only [Bool.or_eq_true, beq_iff_eq] at h
    obtain ((rfl | rfl) | rfl) | rfl := h <;> exact readDouble_mark (by decide) rfl rfl rest
  · rename_i h
    simp only [Bool.or_eq_true, beq_iff_eq, not_or] at h
    obtain ⟨⟨⟨hback, hquote⟩, hscalar⟩, hlist⟩ := h
    split_ifs with hn ht hr hplain
    · exact beq_iff_eq.1 hn ▸ readDouble_named (by decide) rfl rest
    · exact beq_iff_eq.1 ht ▸ readDouble_named (by decide) rfl rest
    · exact beq_iff_eq.1 hr ▸ readDouble_named (by decide) rfl rest
    · simp [readDouble, hback, quoting, hscalar, hlist]
    · exact readDouble_hexLower c rest

/-- **A string literal is read as its text**, and nothing of what follows. -/
theorem readString_quoteString (text : String) (rest : List Char) :
    readString quoting ((quoteString text).toList ++ rest) = some (text, rest) := by
  rw [quoteString]
  split
  · rw [String.toList_ofList, List.append_assoc, List.singleton_append, List.cons_append]
    exact readString_single (fun _ => rfl) text rest
  · rw [String.toList_ofList, List.append_assoc, List.singleton_append, List.cons_append,
      readString, readDouble_flatMap readDouble_escapeDouble]
    simp

end Scriptgen.Perl

namespace Scriptgen.Ruby

open Reading

/-- The rules between double quotes in Ruby. -/
def quoting : Quoting where
  letter := 'u'
  named
    | 'n' => some '\n'
    | 't' => some '\t'
    | 'r' => some '\r'
    | 'e' => some '\x1b'
    | _ => none
  interpolates c rest :=
    c == '#' && rest.head?.any fun next => next == '\x7b' || next == '$' || next == '@'

theorem readDouble_escapeDouble (c : Char) (rest : List Char) :
    readDouble quoting .text (escapeDouble c ++ rest) =
      (readDouble quoting .text rest).map fun r => (c :: r.1, r.2) := by
  rw [escapeDouble]
  split
  · rename_i h
    simp only [Bool.or_eq_true, beq_iff_eq] at h
    obtain (rfl | rfl) | rfl := h <;> exact readDouble_mark (by decide) rfl rfl rest
  · rename_i h
    simp only [Bool.or_eq_true, beq_iff_eq, not_or] at h
    obtain ⟨⟨hback, hquote⟩, hmark⟩ := h
    split_ifs with hn ht hr he hplain
    · exact beq_iff_eq.1 hn ▸ readDouble_named (by decide) rfl rest
    · exact beq_iff_eq.1 ht ▸ readDouble_named (by decide) rfl rest
    · exact beq_iff_eq.1 hr ▸ readDouble_named (by decide) rfl rest
    · exact beq_iff_eq.1 he ▸ readDouble_named (by decide) rfl rest
    · simp [readDouble, hback, quoting, hmark]
    · exact readDouble_hexLower c rest

theorem readString_quoteString (text : String) (rest : List Char) :
    readString quoting ((quoteString text).toList ++ rest) = some (text, rest) := by
  rw [quoteString]
  split
  · rw [String.toList_ofList, List.append_assoc, List.singleton_append, List.cons_append]
    exact readString_single (fun _ => rfl) text rest
  · have hdouble : (doubleQuoted text).toList ++ rest =
        '"' :: (text.toList.flatMap escapeDouble ++ '"' :: rest) := by
      simp [doubleQuoted, escapeText]
    rw [hdouble, readString, readDouble_flatMap readDouble_escapeDouble]
    simp

end Scriptgen.Ruby
