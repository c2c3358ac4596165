import Scriptgen.Diagnostic
import Scriptgen.Proofs.Balance
import Scriptgen.Proofs.Numerals
/-!
# What is read from the output of checkers

The parts of a line are found by marks, some from the left and some from the right. Where a mark was
printed it is found from the left if none ends before (`splitFirst?_append`), and from the right if
none starts behind (`splitLast?_append`). Main results: `reports_recovered`, and `ofPerl_located`
for the errors of Perl.
-/

namespace Scriptgen.Diagnostic

open Text List List

/-! ## Marks -/

section Marks

variable {mark cs before rest : List Char}

theorem afterLead?_eq_some_iff : afterLead? mark cs = some rest ↔ cs = mark ++ rest := by
  fun_induction afterLead? mark cs <;> grind

theorem afterLead?_eq_none (h : ¬ mark <+: cs) : afterLead? mark cs = none :=
  Option.eq_none_iff_forall_ne_some.2 fun _ hrest => h ⟨_, (afterLead?_eq_some_iff.1 hrest).symm⟩

/-- Text without the last character of a mark ends none. -/
theorem infix_of_append (c : Char) (hlast : mark.getLast? = some c) (hc : c ∉ rest)
    (h : mark <:+: before ++ rest) : mark <:+: before := by
  induction rest generalizing before with
  | nil => simpa using h
  | cons d rest ih =>
    rw [mem_cons, not_or] at hc
    have hlonger : mark <:+: before ++ [d] := ih hc.2 (by simpa using h)
    refine (infix_concat_iff.1 hlonger).resolve_left fun ⟨start, heq⟩ => hc.1 ?_
    simpa [hlast] using congrArg getLast? heq

theorem infix_of_append_left (c : Char) (hhead : mark.head? = some c) (hc : c ∉ before)
    (h : mark <:+: before ++ rest) : mark <:+: rest := by
  rw [← reverse_infix, reverse_append] at h
  exact reverse_infix.1 (infix_of_append c (by simpa) (by simpa) h)

theorem splitFirst?_append (hmark : mark ≠ []) (h : ¬ mark <:+: before ++ mark.dropLast)
    (rest : List Char) : splitFirst? mark (before ++ (mark ++ rest)) = some (before, rest) := by
  have hlead : afterLead? mark (mark ++ rest) = some rest := afterLead?_eq_some_iff.2 rfl
  induction before with
  | nil =>
    obtain ⟨c, mark, rfl⟩ := exists_cons_of_ne_nil hmark
    rw [cons_append] at hlead
    rw [nil_append, cons_append, splitFirst?, hlead]
  | cons b before ih =>
    have hnone : ¬ mark <+: b :: before ++ (mark ++ rest) := by
      intro hfirst
      refine h (prefix_of_prefix_length_le hfirst ?_ (by simp; omega)).isInfix
      exact (prefix_append_right_inj _).2 (( dropLast_prefix mark).trans ⟨rest, rfl⟩)
    rw [cons_append, splitFirst?, ← cons_append, afterLead?_eq_none hnone,
      ih fun hmark => h (infix_cons hmark)]
    rfl

theorem split?_eq_none (hmark : mark ≠ []) (h : ¬ mark <:+: cs) :
    splitFirst? mark cs = none ∧ splitLast? mark cs = none := by
  induction cs with
  | nil => simp [splitFirst?, splitLast?, hmark]
  | cons c cs ih =>
    rw [infix_cons_iff, not_or] at h
    simp [splitFirst?, splitLast?, ih h.2, afterLead?_eq_none h.1]

theorem splitLast?_append {c : Char} (before : List Char) (h : ¬ c :: mark <:+: mark ++ rest) :
    splitLast? (c :: mark) (before ++ (c :: mark ++ rest)) = some (before, rest) := by
  induction before with
  | nil =>
    rw [nil_append, cons_append, splitLast?, (split?_eq_none (by simp) h).2,
      ← cons_append, afterLead?_eq_some_iff.2 rfl]
    rfl
  | cons b before ih => rw [cons_append, splitLast?, ih]

end Marks

/-! ## Numbers and blanks -/

theorem isDigit_of_mem_decimal {n : Nat} {c : Char} (hc : c ∈ (decimal n).toList) : c.isDigit :=
  Nat.isDigit_of_mem_toDigits (by decide) (by decide) (toList_decimal n ▸ hc)

theorem not_mem_decimal (n : Nat) {c : Char} (hc : c.isDigit = false) : c ∉ (decimal n).toList :=
  fun h => Bool.false_ne_true (hc.symm.trans (isDigit_of_mem_decimal h))

theorem splitFirst?_decimal (n : Nat) {c : Char} (hc : c.isDigit = false) (rest : List Char) :
    splitFirst? [c] ((decimal n).toList ++ c :: rest) = some ((decimal n).toList, rest) :=
  splitFirst?_append (cons_ne_nil _ _)
    (by simpa [singleton_infix_iff] using not_mem_decimal n hc) rest

theorem decimal_ne_nil (n : Nat) : (decimal n).toList ≠ [] := by
  rw [toList_decimal]
  exact Nat.toDigits_ne_nil

theorem natOfDigits?_decimal (n : UInt64) :
    natOfDigits? maxNat64 (decimal n.toNat) = some n.toNat := by
  have hall : ∀ c ∈ (decimal n.toNat).toList, c.isDigit := fun c => isDigit_of_mem_decimal
  have hsome := isEmpty_eq_false_iff.2 (decimal_ne_nil n.toNat)
  have hread (limit : Nat) : natOfDigits? limit (decimal n.toNat) = _ :=
    natOfDigits?_eq fun hplus => by simpa using hall '+' (mem_of_mem_head? hplus)
  simp only [hsome, all_eq_true.2 hall, Bool.not_false, Bool.and_self, if_true] at hread
  have hvalue := (denotes_decimal n.toNat).digits _ _ ((hread _).trans (if_pos le_rfl))
  rw [hread, hvalue]
  exact if_pos (Nat.le_of_lt_succ n.toNat_lt)

theorem dropWhile_exact {before rest : List Char} {p : Char → Bool} (h : ∀ c ∈ before, p c)
    (hrest : ∀ c ∈ rest.head?, p c = false) : (before ++ rest).dropWhile p = rest := by
  rw [dropWhile_append_of_pos h]
  cases rest <;> simp_all

theorem dropEndWhile_blanks {cs bs : List Char} (hbs : ∀ c ∈ bs, isBlank c)
    (h : ∀ c ∈ cs.getLast?, isBlank c = false) : dropEndWhile isBlank (cs ++ bs) = cs := by
  rw [dropEndWhile, reverse_append, dropWhile_exact (by simpa) (by simpa),
    reverse_reverse]

theorem trim_append {bs : List Char} {text : String} (hbs : ∀ c ∈ bs, isBlank c)
    (hfirst : ∀ c ∈ text.toList.head?, isBlank c = false)
    (hlast : ∀ c ∈ text.toList.getLast?, isBlank c = false) :
    trim (String.ofList (bs ++ text.toList)) = text := by
  have hend := @dropEndWhile_blanks _ [] (by simp) hlast
  rw [append_nil] at hend
  rw [trim, trimStart, String.toList_ofList, dropWhile_exact hbs hfirst, String.ofList_toList,
    trimEnd, hend, String.ofList_toList]

theorem trim_decimal (n : Nat) : trim (decimal n) = decimal n := by
  have hblank (c : Char) (hc : c ∈ (decimal n).toList) : isBlank c = false := by
    have hdigit := isDigit_of_mem_decimal hc
    simp only [Char.isDigit, Bool.and_eq_true, decide_eq_true_eq, UInt32.le_iff_toNat_le] at hdigit
    change 48 ≤ c.toNat ∧ c.toNat ≤ 57 at hdigit
    simp only [isBlank, Bool.or_eq_false_iff, Bool.and_eq_false_iff, decide_eq_false_iff_not,
      beq_eq_false_iff_ne]
    omega
  simpa using @trim_append [] _ (by simp) (fun c hc => hblank c (mem_of_mem_head? hc))
    fun c hc => hblank c (mem_of_mem_getLast? hc)

/-! ## Lines -/

abbrev OneLine (text : String) : Prop := '\n' ∉ text.toList ∧ '\r' ∉ text.toList

/-- **What is found in each line is found in all of them**, in order. -/
theorem filterMap_lineChars {locate : List Char → Option Diagnostic} (hnil : locate [] = none)
    {entries : List (String × Option Diagnostic)}
    (h : ∀ e ∈ entries, OneLine e.1 ∧ locate e.1.toList = e.2) :
    (lineChars ("\n".intercalate (entries.map (·.1))).toList).filterMap locate =
      entries.filterMap (·.2) := by
  induction entries with
  | nil => rfl
  | cons e entries ih =>
    obtain ⟨⟨hline, hlocate⟩, hrest⟩ := forall_mem_cons.1 h
    cases entries with
    | nil =>
      rw [map_singleton, String.intercalate_singleton, Brackets.lineChars_last hline.1]
      split <;> simp_all [filterMap_cons]
    | cons e' entries =>
      have hplain : dropReturn e.1.toList = e.1.toList := if_neg fun hlast =>
        hline.2 (mem_of_getLast? (beq_iff_eq.1 hlast))
      have htail := ih hrest
      rw [map_cons] at htail
      rw [map_cons, map_cons, String.intercalate_cons_cons, String.append_assoc,
        String.toList_append, String.toList_append, show "\n".toList = ['\n'] from rfl,
        singleton_append, Brackets.lineChars_line hline.1, hplain, filterMap_cons,
        filterMap_cons, hlocate, htail]

/-! ## TypeScript and Ruby -/

/-- **A line that the compiler of TypeScript prints**, and what it reports. -/
inductive TypeScriptLine : String → Option Diagnostic → Prop
  | report {file severity message : String} (line column : UInt64) : OneLine file →
      ¬ "): ".toList <:+: file.toList → severity ∈ ["error ", "warning "] → OneLine message →
      TypeScriptLine (file ++ "(" ++ decimal line.toNat ++ "," ++ decimal column.toNat ++ "): " ++
        severity ++ message) (some ⟨"tsc", some line.toNat, some column.toNat, message⟩)
  | other {line : String} : OneLine line → ¬ "): ".toList <:+: line.toList → TypeScriptLine line none

/-- **A line that Ruby prints**, and what it reports. -/
inductive RubyLine : String → Option Diagnostic → Prop
  | report {file message : String} (line : UInt64) : OneLine file →
      ¬ ".rb:".toList <:+: file.toList → OneLine message →
      (∀ c ∈ message.toList.head?, isBlank c = false) →
      (∀ c ∈ message.toList.getLast?, isBlank c = false) →
      RubyLine (file ++ ".rb:" ++ decimal line.toNat ++ ": " ++ message)
        (some ⟨"ruby", some line.toNat, none, message⟩)
  | other {line : String} : OneLine line → ¬ ".rb:".toList <:+: line.toList → RubyLine line none

variable {found : Option Diagnostic}

theorem TypeScriptLine.located {line : String} (h : TypeScriptLine line found) :
    OneLine line ∧ locateTypeScript? line.toList = found := by
  cases h with
  | other hline hmark =>
    exact ⟨hline, by rw [locateTypeScript?, (split?_eq_none (by simp) hmark).1]; rfl⟩
  | @report file severity message line column hfile hmark hseverity hmessage =>
    have hword : OneLine severity := by
      revert severity
      decide
    refine ⟨by simp_all [OneLine, not_mem_decimal], ?_⟩
    let place := '(' :: ((decimal line.toNat).toList ++ ',' :: (decimal column.toNat).toList)
    have hplace : ' ' ∉ place ++ [')', ':'] := by simp [place, not_mem_decimal]
    have hprinted : (file ++ "(" ++ decimal line.toNat ++ "," ++ decimal column.toNat ++ "): " ++
        severity ++ message).toList =
          file.toList ++ place ++ ("): ".toList ++ (severity ++ message).toList) := by
      simp [place]
    rw [hprinted, locateTypeScript?, splitFirst?_append (by simp) fun h =>
      hmark (infix_of_append ' ' rfl hplace (append_assoc .. ▸ h))]
    change (splitLast? ['('] (file.toList ++ (['('] ++ _))).bind _ = _
    rw [splitLast?_append file.toList (by simp [singleton_infix_iff, not_mem_decimal])]
    change (splitFirst? [','] (_ ++ ',' :: _)).bind _ = _
    rw [splitFirst?_decimal _ rfl]
    rcases mem_pair.1 hseverity with rfl | rfl <;> simp [natOfDigits?_decimal, afterLead?]

theorem RubyLine.located {line : String} (h : RubyLine line found) :
    OneLine line ∧ locateRuby? line.toList = found := by
  cases h with
  | other hline hmark =>
    exact ⟨hline, by rw [locateRuby?, (split?_eq_none (by simp) hmark).1]; rfl⟩
  | @report file message line hfile hmark hmessage hfirst hlast =>
    refine ⟨by simp_all [OneLine, not_mem_decimal], ?_⟩
    have hprinted : (file ++ ".rb:" ++ decimal line.toNat ++ ": " ++ message).toList = file.toList ++
        (".rb:".toList ++ ((decimal line.toNat).toList ++ ':' :: (" " ++ message).toList)) := by
      simp
    rw [hprinted, locateRuby?, splitFirst?_append (by simp) fun h => hmark (infix_of_append ':' rfl
      (by decide) h)]
    change (splitFirst? [':'] _).bind _ = _
    rw [splitFirst?_decimal _ rfl]
    have hmessage : trim (" " ++ message) = message := by
      simpa using @trim_append [' '] _ (by simp; rfl) hfirst hlast
    simp only [Option.bind_eq_bind, Option.bind_some, String.ofList_toList, trim_decimal,
      natOfDigits?_decimal, hmessage]

/-- **Reports are recovered.** Of the lines that a checker prints, those with a report give it, in
order, and the others give none. -/
theorem reports_recovered (entries : List (String × Option Diagnostic)) :
    ((∀ e ∈ entries, TypeScriptLine e.1 e.2) →
      ofTypeScript ("\n".intercalate (entries.map (·.1))) = entries.filterMap (·.2)) ∧
    ((∀ e ∈ entries, RubyLine e.1 e.2) →
      ofRuby ("\n".intercalate (entries.map (·.1))) = entries.filterMap (·.2)) :=
  ⟨fun h => filterMap_lineChars rfl fun e he => (h e he).located,
    fun h => filterMap_lineChars rfl fun e he => (h e he).located⟩

/-- A report and another line, with marks in the name of the file and in the message. -/
theorem reports_recovered_besides_notes :
    ofTypeScript "a(1).ts(3,14): error b): c\nnote" = [⟨"tsc", some 3, some 14, "b): c"⟩] ∧
    ofRuby "note\na:1.rb:3: b: c" = [⟨"ruby", some 3, none, "b: c"⟩] := by
  refine ⟨(reports_recovered [("a(1).ts(3,14): error b): c", some _), ("note", none)]).1 ?_,
    (reports_recovered [("note", none), ("a:1.rb:3: b: c", some _)]).2 ?_⟩
  · have hreport := @TypeScriptLine.report "a(1).ts" "error " "b): c" 3 14 (by decide) (by decide)
      (by decide) (by decide)
    simpa using ⟨hreport, .other (by decide) (by decide)⟩
  · have hreport := @RubyLine.report "a:1" "b: c" 3 (by decide) (by decide) (by decide) (by simp; rfl)
      (by simp; rfl)
    simpa using ⟨.other (by decide) (by decide), hreport⟩

/-! ## Perl -/

/-- What Perl prints about a line of a file, up to its number. -/
def located (message file : String) (line : UInt64) : String :=
  message ++ " at " ++ file ++ " line " ++ decimal line.toNat

section Perl

variable {message file : String} (line : UInt64)
  (hfile : ∀ c ∈ file.toList, isBlank c = false)
include hfile

theorem locatePerl?_located {tail : List Char} (hline : ¬ " line ".toList <:+: tail)
    (htail : ∀ c ∈ tail.head?, c.isDigit = false) :
    locatePerl? ((located message file line).toList ++ tail) =
      (let more := trim (String.ofList (tail.dropWhile fun c => c == '.' || c == ','))
      some (if more.isEmpty then message else message ++ ", " ++ more, line.toNat)) := by
  obtain ⟨digits, hdigits⟩ : ∃ digits, digits = (decimal line.toNat).toList := ⟨_, rfl⟩
  have hall (c : Char) (hc : c ∈ digits) : c.isDigit := isDigit_of_mem_decimal (hdigits ▸ hc)
  have hread : natOfDigits? maxNat64 (String.ofList digits) = some line.toNat := by
    rw [hdigits, String.ofList_toList, natOfDigits?_decimal]
  have hnumber : splitLast? " line ".toList (message.toList ++ " at ".toList ++ file.toList ++
      (" line ".toList ++ (digits ++ tail))) =
        some (message.toList ++ " at ".toList ++ file.toList, digits ++ tail) := by
    refine @splitLast?_append "line ".toList _ ' ' _ fun h => hline ?_
    have h := @infix_of_append_left _ "line".toList (' ' :: (digits ++ tail)) ' ' rfl (by decide) h
    refine infix_of_append_left ' ' rfl (fun h => by cases hall _ h)
      ((infix_cons_iff.1 h).resolve_left fun hfirst => ?_)
    obtain ⟨d, rest, rfl⟩ := exists_cons_of_ne_nil (hdigits ▸ decimal_ne_nil line.toNat)
    obtain rfl : 'l' = d := (cons_prefix_cons.1 (cons_prefix_cons.1 hfirst).2).1
    cases hall 'l' (by simp)
  have hmessage : splitLast? " at ".toList (message.toList ++ (" at ".toList ++ file.toList)) =
      some (message.toList, file.toList) := by
    refine @splitLast?_append "at ".toList _ ' ' _ fun h => ?_
    have hblank : ' ' ∉ file.toList := fun h => by cases hfile ' ' h
    have hcount := h.sublist.count_le ' '
    simp [count_eq_zero.2 hblank] at hcount
  have htake : (digits ++ tail).takeWhile Char.isDigit = digits := by
    rw [takeWhile_append_of_pos hall]
    cases tail <;> simp_all
  simp only [located, String.toList_append, append_assoc, ← hdigits] at hnumber hmessage ⊢
  simp only [locatePerl?, hnumber, hmessage, htake, dropWhile_exact hall htail, hread,
    String.ofList_toList, Option.bind_eq_bind, Option.bind_some, Option.map_some, Option.getD_some]

theorem ofPerl_line {tail after found : String} (hmessage : '\n' ∉ message.toList)
    (htail : '\n' ∉ tail.toList) (hafter : ∀ c ∈ after.toList, isBlank c ∧ c ≠ '\n')
    (hlast : ∃ c ∈ tail.toList.getLast?, isBlank c = false)
    (hsummary : isPerlSummary (located message file line ++ tail).toList = false)
    (hlocate : locatePerl? ((located message file line).toList ++ tail.toList) =
      some (found, line.toNat)) :
    ofPerl (located message file line ++ tail ++ after) =
      [⟨"perl", some line.toNat, none, found⟩] := by
  have hnumber : '\n' ∉ (decimal line.toNat).toList := not_mem_decimal _ rfl
  have hpath : '\n' ∉ file.toList := fun h => by cases hfile _ h
  have hblanks : '\n' ∉ after.toList := fun h => (hafter _ h).2 rfl
  have hend : ∀ c ∈ ((located message file line).toList ++ tail.toList).getLast?,
      isBlank c = false := by
    obtain ⟨c, hc, hblank⟩ := hlast
    simp_all [getLast?_append]
  rw [String.toList_append] at hsummary
  rw [ofPerl, Brackets.lineChars_last (by simp [located, *]), if_neg (by simp [located]),
    String.toList_append, String.toList_append, map_singleton,
    dropEndWhile_blanks (fun c hc => (hafter c hc).1) hend]
  simp only [filterMap_cons, hsummary, hlocate]
  rfl

/-- **Located lines.** What Perl reports about a line is read with its number and its message,
unless the text behind the number has a number of its own. -/
theorem ofPerl_located {before text after : String} (hmessage : '\n' ∉ message.toList)
    (hafter : ∀ c ∈ after.toList, isBlank c ∧ c ≠ '\n') :
    ofPerl (located message file line ++ "." ++ after) =
      [⟨"perl", some line.toNat, none, message⟩] ∧
    ((∀ c ∈ before.toList, isBlank c) → '\n' ∉ (before ++ text).toList →
      (∃ c ∈ text.toList.head?, isBlank c = false) →
      (∃ c ∈ text.toList.getLast?, isBlank c = false) →
      ¬ " line ".toList <:+: (" " ++ before ++ text).toList →
      isPerlSummary (located message file line ++ (", " ++ before ++ text)).toList = false →
      ofPerl (located message file line ++ (", " ++ before ++ text) ++ after) =
        [⟨"perl", some line.toNat, none, message ++ ", " ++ text⟩]) := by
  constructor
  · refine ofPerl_line line hfile hmessage (by decide) hafter ⟨'.', rfl, rfl⟩ ?_ ?_
    · -- A summary has a letter before the dot.
      obtain ⟨start, d, hd⟩ := (eq_nil_or_concat _).resolve_left (decimal_ne_nil line.toNat)
      have hne : 's' ≠ d := by
        rintro rfl
        cases isDigit_of_mem_decimal (n := line.toNat) (c := 's') (by simp [hd])
      simp [isPerlSummary, located, hd, isSuffixOf, isPrefixOf, hne]
    · rw [locatePerl?_located line hfile (by decide) (by simp)]
      rfl
  · rintro hbefore hplain ⟨c, hc, hfirst⟩ ⟨d, hd, hlast⟩ hline hsummary
    refine ofPerl_line line hfile hmessage (by simpa using hplain) hafter ⟨d, ?_, hlast⟩ hsummary ?_
    · rw [String.toList_append, getLast?_append, hd]
      rfl
    · have htext : trim (String.ofList (' ' :: before.toList ++ text.toList)) = text :=
        trim_append (forall_mem_cons.2 ⟨rfl, hbefore⟩) (by simp_all) (by simp_all)
      have hne : text ≠ "" := by
        rintro rfl
        cases hc
      rw [show (", " ++ before ++ text).toList = ',' :: (' ' :: before.toList ++ text.toList) by
        simp, locatePerl?_located line hfile]
      · simp_all
      · exact fun h => hline (by simpa using @infix_of_append_left _ [','] _ ' ' rfl (by decide) h)
      · simp

end Perl

/-- The text near an error. -/
theorem ofPerl_located_near :
    ofPerl "syntax error at /tmp/x.pl line 3, near \"foo\"" =
      [⟨"perl", some 3, none, "syntax error, near \"foo\""⟩] :=
  (@ofPerl_located "syntax error" "/tmp/x.pl" 3 (by simp; decide) "" "near \"foo\"" "" (by decide)
    (by simp)).2 (by simp) (by decide) ⟨'n', rfl, rfl⟩ ⟨'"', rfl, rfl⟩ (by decide) (by decide)

/-- The text near an error may have a number of its own. -/
theorem ofPerl_quoted_line :
    ofPerl "syntax error at /tmp/x.pl line 3, near \"the line 5\"" =
      [⟨"perl", some 5, none, "syntax error, \""⟩] := by
  decide +kernel

end Scriptgen.Diagnostic
