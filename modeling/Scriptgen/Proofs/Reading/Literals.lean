import Scriptgen.Ruby.Print
import Scriptgen.Proofs.Reading.Quoted
/-!
# Reading literals with interpolations

An interpolated literal is read in pieces (`readInterpolated`): characters, and the code between
`#\x7b` and the brace that closes it, which is left to a reader of its own, such as `readCode`. The
string literals of both targets are read as their texts, interpolated ones as their parts, and what
is not code in them is printable: `literals_read_back`.
-/

namespace Scriptgen

open Reading List

/-! ## Printable characters -/

variable {c d : Char} {text : String} {n : Nat}

theorem Text.isDigitIn_of_mem_hexLower (h : c ∈ (hexLower n).toList) : isDigitIn 16 c = true := by
  rw [hexLower, String.toList_ofList, ← map_id (Nat.toDigits 16 n)] at h
  exact isDigitIn_of_mem_map_toDigits (by decide) (fun d hd => hexDigit?_digitChar hd) h

theorem Text.printable_of_isDigitIn (h : isDigitIn 16 c = true) : ' ' ≤ c ∧ c ≤ '~' := by
  have hsome : (hexDigit? c).isSome = true := by
    rw [isDigitIn, Option.any_eq_true] at h
    obtain ⟨d, hd, -⟩ := h
    rw [hd]
    rfl
  -- Each range of digits lies between the blank and the tilde.
  have hrange : '0' ≤ c ∧ c ≤ '9' ∨ 'a' ≤ c ∧ c ≤ 'f' ∨ 'A' ≤ c ∧ c ≤ 'F' := by
    rw [hexDigit?] at hsome
    split at hsome
    · rename_i hdigit
      simp only [Char.isDigit, Bool.and_eq_true, decide_eq_true_eq] at hdigit
      exact .inl hdigit
    · split at hsome
      · rename_i hlower
        exact .inr (.inl (by simpa using hlower))
      · split at hsome
        · rename_i hupper
          exact .inr (.inr (by simpa using hupper))
        · cases hsome
  rcases hrange with ⟨hl, hu⟩ | ⟨hl, hu⟩ | ⟨hl, hu⟩
  · exact ⟨Char.le_trans (by decide : ' ' ≤ '0') hl, Char.le_trans hu (by decide : '9' ≤ '~')⟩
  · exact ⟨Char.le_trans (by decide : ' ' ≤ 'a') hl, Char.le_trans hu (by decide : 'f' ≤ '~')⟩
  · exact ⟨Char.le_trans (by decide : ' ' ≤ 'A') hl, Char.le_trans hu (by decide : 'F' ≤ '~')⟩

theorem printable_of_mem_escape {letter : Char} (hletter : ' ' ≤ letter ∧ letter ≤ '~')
    (h : d ∈ ['\\', letter, '\x7b'] ++ (Text.hexLower c.toNat).toList ++ ['\x7d']) :
    ' ' ≤ d ∧ d ≤ '~' := by
  simp only [mem_append, mem_cons, not_mem_nil, or_false] at h
  rcases h with ((rfl | rfl | rfl) | hd) | rfl
  · decide
  · exact hletter
  · decide
  · exact Text.printable_of_isDigitIn (Text.isDigitIn_of_mem_hexLower hd)
  · decide

theorem printable_of_mem_quoted {quote : Char} {text : List Char} {escape : Char → List Char}
    (hquote : ' ' ≤ quote ∧ quote ≤ '~')
    (htext : ∀ d ∈ text, ∀ c ∈ escape d, ' ' ≤ c ∧ c ≤ '~')
    (h : c ∈ (String.ofList ([quote] ++ text.flatMap escape ++ [quote])).toList) :
    ' ' ≤ c ∧ c ≤ '~' := by
  rw [String.toList_ofList] at h
  simp only [mem_append, mem_singleton, mem_flatMap] at h
  rcases h with (rfl | ⟨d, hd, hc⟩) | rfl
  · exact hquote
  · exact htext d hd c hc
  · exact hquote

namespace Perl

theorem printable_of_isPrintable (h : isPrintable c = true) : ' ' ≤ c ∧ c ≤ '~' := by
  simpa [isPrintable] using h

theorem printable_of_mem_escapeSingle (hc : isPrintable c = true)
    (h : d ∈ escapeSingle c) : ' ' ≤ d ∧ d ≤ '~' := by
  rw [escapeSingle] at h
  split at h
  · simp only [mem_cons, not_mem_nil, or_false] at h
    rcases h with rfl | rfl
    · decide
    · exact printable_of_isPrintable hc
  · rw [mem_singleton.1 h]
    exact printable_of_isPrintable hc

theorem printable_of_mem_escapeDouble (h : d ∈ escapeDouble c) : ' ' ≤ d ∧ d ≤ '~' := by
  unfold escapeDouble at h
  split at h
  · rename_i hmark
    simp only [Bool.or_eq_true, beq_iff_eq] at hmark
    obtain ((rfl | rfl) | rfl) | rfl := hmark <;>
      (simp only [mem_cons, not_mem_nil, or_false] at h; rcases h with rfl | rfl <;> decide)
  · split_ifs at h with _ _ _ hplain
    iterate 3
      simp only [mem_cons, not_mem_nil, or_false] at h
      rcases h with rfl | rfl <;> decide
    · rw [mem_singleton.1 h]
      exact printable_of_isPrintable hplain
    · exact printable_of_mem_escape (by decide) h

/-- A string literal is printable, whatever its text. -/
theorem printable_of_mem_quoteString (h : c ∈ (quoteString text).toList) : ' ' ≤ c ∧ c ≤ '~' := by
  rw [quoteString] at h
  split at h
  · rename_i hall
    exact printable_of_mem_quoted (by decide)
      (fun d hd _ => printable_of_mem_escapeSingle (all_eq_true.1 hall d hd)) h
  · exact printable_of_mem_quoted (by decide) (fun _ _ _ => printable_of_mem_escapeDouble) h

end Perl

namespace Ruby

/-- How a character stands between double quotes: by itself, after a backslash, or by number. -/
theorem escapeDouble_cases (c : Char) :
    (escapeDouble c = [c] ∧ (' ' ≤ c ∧ c ≤ '~') ∧ c ≠ '\\' ∧ c ≠ '"' ∧ c ≠ '#') ∨
      (∃ d, escapeDouble c = ['\\', d] ∧ (' ' ≤ d ∧ d ≤ '~')) ∨
      escapeDouble c = ['\\', 'u', '\x7b'] ++ (Text.hexLower c.toNat).toList ++ ['\x7d'] := by
  rw [escapeDouble]
  split
  · rename_i hmark
    simp only [Bool.or_eq_true, beq_iff_eq] at hmark
    refine .inr (.inl ⟨c, rfl, ?_⟩)
    obtain (rfl | rfl) | rfl := hmark <;> decide
  · rename_i hmark
    simp only [Bool.or_eq_true, beq_iff_eq, not_or] at hmark
    obtain ⟨⟨hback, hquote⟩, hhash⟩ := hmark
    split_ifs with _ _ _ _ hplain
    · exact .inr (.inl ⟨'n', rfl, by decide⟩)
    · exact .inr (.inl ⟨'t', rfl, by decide⟩)
    · exact .inr (.inl ⟨'r', rfl, by decide⟩)
    · exact .inr (.inl ⟨'e', rfl, by decide⟩)
    · exact .inl ⟨rfl, Perl.printable_of_isPrintable hplain, hback, hquote, hhash⟩
    · exact .inr (.inr rfl)

theorem printable_of_mem_escapeDouble (h : d ∈ escapeDouble c) : ' ' ≤ d ∧ d ≤ '~' := by
  obtain ⟨heq, hc, -⟩ | ⟨e, heq, he⟩ | heq := escapeDouble_cases c <;> rw [heq] at h
  · rw [mem_singleton.1 h]
    exact hc
  · simp only [mem_cons, not_mem_nil, or_false] at h
    rcases h with rfl | rfl
    · decide
    · exact he
  · exact printable_of_mem_escape (by decide) h

theorem printable_of_mem_escapeText (h : c ∈ (escapeText text).toList) : ' ' ≤ c ∧ c ≤ '~' := by
  rw [escapeText, String.toList_ofList, mem_flatMap] at h
  obtain ⟨d, -, hc⟩ := h
  exact printable_of_mem_escapeDouble hc

theorem printable_of_mem_quoteString (h : c ∈ (quoteString text).toList) : ' ' ≤ c ∧ c ≤ '~' := by
  rw [quoteString] at h
  split at h
  · rename_i hall
    exact printable_of_mem_quoted (by decide)
      (fun d hd _ => Perl.printable_of_mem_escapeSingle (all_eq_true.1 hall d hd)) h
  · simp only [doubleQuoted, String.toList_append, mem_append] at h
    rcases h with (hc | hc) | hc
    · rw [mem_singleton.1 hc]
      decide
    · exact printable_of_mem_escapeText hc
    · rw [mem_singleton.1 hc]
      decide

/-! ## Pieces -/

/-- A piece of an interpolated literal. -/
inductive Piece (γ : Type) where
  | char (c : Char)
  | code (value : γ)

/-- Cuts a text before the first quote or interpolation that is not escaped. -/
def cutText : List Char → List Char × List Char
  | [] => ([], [])
  | '\\' :: c :: rest => ('\\' :: c :: (cutText rest).1, (cutText rest).2)
  | c :: rest =>
    if c = '"' ∨ quoting.interpolates c rest = true then ([], c :: rest)
    else (c :: (cutText rest).1, (cutText rest).2)

variable {γ : Type}

/-- Reads pieces up to and with the closing quote, with at most as many interpolations as the first
number is above zero. -/
def readPieces (code : List Char → Option (γ × List Char)) :
    Nat → List Char → Option (List (Piece γ) × List Char)
  | 0, _ => none
  | n + 1, cs =>
    (readDouble quoting .text ((cutText cs).1 ++ ['"'])).bind fun text =>
      Option.map (fun r : List (Piece γ) × List Char => (text.1.map .char ++ r.1, r.2))
        (match (cutText cs).2 with
          | '"' :: rest => some ([], rest)
          | '#' :: '\x7b' :: rest =>
            (code rest).bind fun r => (readPieces code n r.2).map fun q => (.code r.1 :: q.1, q.2)
          | _ => none)

def readInterpolated (code : List Char → Option (γ × List Char)) :
    List Char → Option (List (Piece γ) × List Char)
  | '"' :: rest => readPieces code (rest.length + 1) rest
  | _ => none

/-- What a part of a literal is read as, given what its code is read as. -/
def InterpPart.pieces (value : Expr → γ) : InterpPart → List (Piece γ)
  | .text t => t.toList.map .char
  | .expr e => [.code (value e)]

def InterpPart.isCode : InterpPart → Bool
  | .text _ => false
  | .expr _ => true

/-! ## Cutting -/

/-- A text that a cut does not fall into. -/
def Whole (text : List Char) : Prop :=
  ∀ rest, cutText (text ++ rest) = (text ++ (cutText rest).1, (cutText rest).2)

theorem Whole.append {text₁ text₂ : List Char} (h₁ : Whole text₁) (h₂ : Whole text₂) :
    Whole (text₁ ++ text₂) := by
  intro rest
  rw [append_assoc, h₁, h₂, append_assoc]

theorem whole_escape (c : Char) : Whole ['\\', c] := fun _ => rfl

theorem whole_char (hback : c ≠ '\\') (hquote : c ≠ '"') (hhash : c ≠ '#') : Whole [c] := by
  intro rest
  have hplain : ¬ (c = '"' ∨ quoting.interpolates c rest = true) := by
    simp [quoting, hquote, hhash]
  rw [singleton_append, cutText, if_neg hplain, singleton_append]
  rintro d tail ⟨⟩
  exact absurd rfl hback

theorem whole_digits {digits : List Char} (h : ∀ c ∈ digits, Text.isDigitIn 16 c = true) :
    Whole digits := by
  induction digits with
  | nil => exact fun rest => rfl
  | cons c digits ih =>
    have hc := h c mem_cons_self
    have hne : ∀ d, Text.isDigitIn 16 d = false → c ≠ d := by
      rintro d hd rfl
      exact absurd hc (by rw [hd]; decide)
    have hchar : Whole [c] :=
      whole_char (hne _ (by decide)) (hne _ (by decide)) (hne _ (by decide))
    exact hchar.append (ih fun d hd => h d (mem_cons_of_mem _ hd))

theorem whole_escapeDouble (c : Char) : Whole (escapeDouble c) := by
  obtain ⟨heq, -, hback, hquote, hhash⟩ | ⟨d, heq, -⟩ | heq := escapeDouble_cases c <;> rw [heq]
  · exact whole_char hback hquote hhash
  · exact whole_escape d
  · have hopen : Whole ['\x7b'] := whole_char (by decide) (by decide) (by decide)
    have hclose : Whole ['\x7d'] := whole_char (by decide) (by decide) (by decide)
    have hdigits : Whole (Text.hexLower c.toNat).toList :=
      whole_digits fun d hd => Text.isDigitIn_of_mem_hexLower hd
    exact (((whole_escape 'u').append hopen).append hdigits).append hclose

/-! ## Reading pieces -/

variable {code : List Char → Option (γ × List Char)}

theorem readPieces_escapeDouble (n : Nat) (c : Char) (cs : List Char) :
    readPieces code (n + 1) (escapeDouble c ++ cs) =
      (readPieces code (n + 1) cs).map fun r => (.char c :: r.1, r.2) := by
  rw [readPieces, readPieces, whole_escapeDouble c cs, append_assoc, readDouble_escapeDouble]
  cases readDouble quoting .text ((cutText cs).1 ++ ['"']) with
  | none => rfl
  | some text =>
    simp only [Option.map_some, Option.bind_some, Option.map_map]
    rfl

theorem readPieces_text (n : Nat) (text cs : List Char) :
    readPieces code (n + 1) (text.flatMap escapeDouble ++ cs) =
      (readPieces code (n + 1) cs).map fun r => (text.map .char ++ r.1, r.2) := by
  induction text with
  | nil => simp
  | cons c text ih =>
    rw [flatMap_cons, append_assoc, readPieces_escapeDouble, ih, Option.map_map]
    rfl

theorem readPieces_quote (n : Nat) (rest : List Char) :
    readPieces code (n + 1) ('"' :: rest) = some ([], rest) := by
  have hcut : cutText ('"' :: rest) = ([], '"' :: rest) := by
    rw [cutText, if_pos (.inl rfl)]
    rintro d tail ⟨⟩
  rw [readPieces, hcut]
  rfl

theorem readPieces_code (n : Nat) (cs : List Char) :
    readPieces code (n + 1) ('#' :: '\x7b' :: cs) =
      (code cs).bind fun r => (readPieces code n r.2).map fun q => (.code r.1 :: q.1, q.2) := by
  have hcut : cutText ('#' :: '\x7b' :: cs) = ([], '#' :: '\x7b' :: cs) := by
    rw [cutText, if_pos (.inr rfl)]
    rintro d tail ⟨⟩
  have hquote : readDouble quoting .text ([] ++ ['"']) = some ([], []) := rfl
  rw [readPieces, hcut, hquote]
  simp only [Option.bind_some, map_nil, nil_append]
  exact Option.map_id'

variable {layout : Layout} {depth : Nat} {parts : List InterpPart} {value : Expr → γ}

/-- Parts are read back one after the other. The bound falls with each piece of code. -/
theorem readPieces_printParts (hcode : ∀ e, .expr e ∈ parts → ∀ rest,
      code ((e.print layout depth).toList ++ '\x7d' :: rest) = some (value e, rest))
    (hn : parts.countP InterpPart.isCode < n) (rest : List Char) :
    readPieces code n ((printParts layout depth parts).toList ++ '"' :: rest) =
      some (parts.flatMap (InterpPart.pieces value), rest) := by
  obtain ⟨n, rfl⟩ : ∃ m, n = m + 1 := ⟨n - 1, by omega⟩
  induction parts generalizing n with
  | nil => exact readPieces_quote n rest
  | cons part parts ih =>
    have hrest := fun e he => hcode e (mem_cons_of_mem _ he)
    cases part with
    | text text =>
      rw [countP_cons_of_neg Bool.false_ne_true] at hn
      rw [printParts, String.toList_append, append_assoc, escapeText, String.toList_ofList,
        readPieces_text, ih hrest n hn]
      rfl
    | expr e =>
      rw [countP_cons_of_pos rfl] at hn
      obtain ⟨n, rfl⟩ : ∃ m, n = m + 1 := ⟨n - 1, by omega⟩
      have htext : (printParts layout depth (.expr e :: parts)).toList ++ '"' :: rest =
          '#' :: '\x7b' :: ((e.print layout depth).toList ++
            '\x7d' :: ((printParts layout depth parts).toList ++ '"' :: rest)) := by
        simp [printParts]
      rw [htext, readPieces_code, hcode e mem_cons_self, Option.bind_some,
        ih hrest n (by omega)]
      rfl

theorem countP_isCode_le (layout : Layout) (depth : Nat) (parts : List InterpPart) :
    parts.countP InterpPart.isCode ≤ (printParts layout depth parts).toList.length := by
  induction parts with
  | nil => exact Nat.zero_le _
  | cons part parts ih =>
    cases part with
    | text text =>
      rw [countP_cons_of_neg Bool.false_ne_true, printParts, String.toList_append, length_append]
      omega
    | expr e =>
      rw [countP_cons_of_pos rfl, printParts]
      simp only [String.toList_append, length_append]
      have : "#\x7b".toList.length = 2 := rfl
      omega

/-- **An interpolated literal is read as its parts**, and nothing of what follows. -/
theorem readInterpolated_print
    (hcode : ∀ e, .expr e ∈ parts → ∀ rest,
      code ((e.print layout depth).toList ++ '\x7d' :: rest) = some (value e, rest))
    (rest : List Char) :
    readInterpolated code (((Expr.interp parts).print layout depth).toList ++ rest) =
      some (parts.flatMap (InterpPart.pieces value), rest) := by
  have htext : ((Expr.interp parts).print layout depth).toList ++ rest =
      '"' :: ((printParts layout depth parts).toList ++ '"' :: rest) := by
    simp [Expr.print]
  rw [htext, readInterpolated]
  refine readPieces_printParts hcode ?_ rest
  have := countP_isCode_le layout depth parts
  rw [length_append]
  omega

theorem printable_or_code (h : c ∈ ((Expr.interp parts).print layout depth).toList) :
    (' ' ≤ c ∧ c ≤ '~') ∨ ∃ e, .expr e ∈ parts ∧ c ∈ (e.print layout depth).toList := by
  have hmark : ∀ d ∈ ['"', '#', '\x7b', '\x7d'], ' ' ≤ d ∧ d ≤ '~' := by simp
  have hparts : c = '"' ∨ c ∈ (printParts layout depth parts).toList := by
    simpa [Expr.print, or_comm, or_assoc] using h
  rcases hparts with rfl | hc
  · exact .inl (hmark _ (by decide))
  clear h
  induction parts with
  | nil => cases hc
  | cons part parts ih =>
    cases part with
    | text text =>
      rw [printParts, String.toList_append, mem_append] at hc
      rcases hc with hc | hc
      · exact .inl (printable_of_mem_escapeText hc)
      · simpa using ih hc
    | expr e =>
      simp only [printParts, String.toList_append, mem_append] at hc
      rcases hc with ((hc | hc) | hc) | hc
      · exact .inl (hmark c (by simp_all; tauto))
      · exact .inr ⟨e, mem_cons_self, hc⟩
      · exact .inl (hmark c (by simp_all))
      · obtain hplain | ⟨e, he, hmem⟩ := ih hc
        · exact .inl hplain
        · exact .inr ⟨e, mem_cons_of_mem _ he, hmem⟩

/-! ## Code -/

/-- Reads code up to the brace that closes it. The first argument is the number of braces that are
open, and the second the quote that is. -/
def readCode : Nat → Option Char → List Char → Option (List Char × List Char)
  | _, _, [] => none
  | n, some quote, '\\' :: c :: rest =>
    (readCode n (some quote) rest).map fun r => ('\\' :: c :: r.1, r.2)
  | n, some quote, c :: rest =>
    (readCode n (if c = quote then none else some quote) rest).map fun r => (c :: r.1, r.2)
  | n, none, c :: rest =>
    if c = '\x7d' then
      if n = 0 then some ([], rest) else (readCode (n - 1) none rest).map fun r => (c :: r.1, r.2)
    else if c = '\x7b' then (readCode (n + 1) none rest).map fun r => (c :: r.1, r.2)
    else
      (readCode n (if c = '\'' ∨ c = '"' then some c else none) rest).map fun r => (c :: r.1, r.2)

theorem readCode_append {quote : Option Char} {cs out left : List Char}
    (h : readCode n quote cs = some (out, left)) (rest : List Char) :
    readCode n quote (cs ++ rest) = some (out, left ++ rest) := by
  have hstep (f : List Char → List Char) {r r' : Option (List Char × List Char)} {out : List Char}
      (ih : ∀ {out}, r = some (out, left) → r' = some (out, left ++ rest))
      (h : r.map (fun r => (f r.1, r.2)) = some (out, left)) :
      r'.map (fun r => (f r.1, r.2)) = some (out, left ++ rest) := by
    obtain ⟨⟨out', left'⟩, hr, ⟨⟩⟩ := Option.map_eq_some_iff.1 h
    rw [ih hr, Option.map_some]
  fun_induction readCode n quote cs generalizing out with
  | case1 => cases h
  | case2 n quote c cs ih => exact hstep ('\\' :: c :: ·) ih h
  | case3 n quote c cs hback ih =>
    cases cs with
    | nil => cases h
    | cons d cs =>
      rw [cons_append, readCode]
      · exact hstep (c :: ·) ih h
      · exact fun _ _ hc _ => hback d cs hc rfl
  | case4 cs =>
    cases h
    rw [cons_append, readCode, if_pos rfl, if_pos rfl]
  | case5 n cs hn ih =>
    rw [cons_append, readCode, if_pos rfl, if_neg hn]
    exact hstep ('\x7d' :: ·) ih h
  | case6 n cs hclose ih =>
    rw [cons_append, readCode, if_neg hclose, if_pos rfl]
    exact hstep ('\x7b' :: ·) ih h
  | case7 n c cs hclose hopen ih =>
    rw [cons_append, readCode, if_neg hclose, if_neg hopen]
    exact hstep (c :: ·) ih h

/-- Code that closes its own quotes and braces is read up to the brace after it. -/
theorem readCode_of_closed {text : List Char}
    (h : readCode 0 none (text ++ ['\x7d']) = some (text, [])) (rest : List Char) :
    readCode 0 none (text ++ '\x7d' :: rest) = some (text, rest) := by
  have hread := readCode_append h rest
  rwa [append_assoc, singleton_append, nil_append] at hread

end Ruby

/-- **Literals are read back.** A string literal of either target is read as its text and is
printable. An interpolated literal is read as its parts: text as its characters, and code where the
expressions are and nowhere else, as what its reader makes of it; what is not code is printable. -/
theorem literals_read_back {γ : Type} {layout : Layout} {depth : Nat}
    {parts : List Ruby.InterpPart} {value : Ruby.Expr → γ}
    {code : List Char → Option (γ × List Char)}
    (hcode : ∀ e, .expr e ∈ parts → ∀ rest,
      code ((e.print layout depth).toList ++ '\x7d' :: rest) = some (value e, rest)) :
    (∀ text rest, readString Perl.quoting ((Perl.quoteString text).toList ++ rest) =
        some (text, rest)) ∧
      (∀ text, ∀ c ∈ (Perl.quoteString text).toList, ' ' ≤ c ∧ c ≤ '~') ∧
      (∀ text rest, readString Ruby.quoting ((Ruby.quoteString text).toList ++ rest) =
        some (text, rest)) ∧
      (∀ text, ∀ c ∈ (Ruby.quoteString text).toList, ' ' ≤ c ∧ c ≤ '~') ∧
      (∀ rest, Ruby.readInterpolated code
          (((Ruby.Expr.interp parts).print layout depth).toList ++ rest) =
        some (parts.flatMap (Ruby.InterpPart.pieces value), rest)) ∧
      ∀ c ∈ ((Ruby.Expr.interp parts).print layout depth).toList,
        (' ' ≤ c ∧ c ≤ '~') ∨ ∃ e, .expr e ∈ parts ∧ c ∈ (e.print layout depth).toList :=
  ⟨Perl.readString_quoteString, fun _ _ => Perl.printable_of_mem_quoteString,
    Ruby.readString_quoteString, fun _ _ => Ruby.printable_of_mem_quoteString,
    Ruby.readInterpolated_print hcode, fun _ => Ruby.printable_or_code⟩

/-- The literal `"\#$\u{e9}#{h['}']}#{x}\#"`: marks before code, and a brace in its quotes. -/
def Ruby.bracedKey : List InterpPart :=
  [.text "#$é", .expr (.index (.var "h" .plain) (.string "\x7d")), .text "",
    .expr (.var "x" .plain), .text "#"]

theorem literals_read_back_bracedKey :
    (∀ e, .expr e ∈ Ruby.bracedKey → ∀ rest,
      Ruby.readCode 0 none ((e.print (.withIndent "  ") 0).toList ++ '\x7d' :: rest) =
        some ((e.print (.withIndent "  ") 0).toList, rest)) ∧
      ∀ rest, Ruby.readInterpolated (Ruby.readCode 0 none)
          (((Ruby.Expr.interp Ruby.bracedKey).print (.withIndent "  ") 0).toList ++ rest) =
        some ([.char '#', .char '$', .char 'é', .code "h['\x7d']".toList, .code "x".toList,
          .char '#'], rest) := by
  have hindex : (Ruby.Expr.index (.var "h" .plain) (.string "\x7d")).print (.withIndent "  ") 0 =
      "h['\x7d']" := by
    have hquote : Ruby.quoteString "\x7d" = "'\x7d'" := by decide
    have hterm : Ruby.asTerm (.var "h" .plain) "h" = "h" := rfl
    simp [Ruby.Expr.print, Ruby.VarKind.sign, hquote, hterm]
  have hvar : (Ruby.Expr.var "x" .plain).print (.withIndent "  ") 0 = "x" := by
    simp [Ruby.Expr.print, Ruby.VarKind.sign]
  have hcode : ∀ e, .expr e ∈ Ruby.bracedKey → ∀ rest,
      Ruby.readCode 0 none ((e.print (.withIndent "  ") 0).toList ++ '\x7d' :: rest) =
        some ((e.print (.withIndent "  ") 0).toList, rest) := by
    intro e he
    refine Ruby.readCode_of_closed ?_
    have hcases : e = .index (.var "h" .plain) (.string "\x7d") ∨ e = .var "x" .plain := by
      simpa [Ruby.bracedKey] using he
    rcases hcases with rfl | rfl
    · rw [hindex]
      decide
    · rw [hvar]
      decide
  refine ⟨hcode, fun rest => ?_⟩
  obtain ⟨-, -, -, -, hread, -⟩ := literals_read_back hcode
  rw [hread rest]
  simp only [Ruby.bracedKey, List.flatMap_cons, List.flatMap_nil, Ruby.InterpPart.pieces, hindex,
    hvar]
  rfl

end Scriptgen
