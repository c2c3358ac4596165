import Scriptgen.Perl.Lower.Expr
import Scriptgen.Perl.Print
/-!
# Where regular expressions end in Perl

Perl looks for the end of a regular expression before it reads it: between braces, the brace that
closes the opening one, where only a backslash takes a brace out of the count (`behindBraces`).
Patterns are written as they are, so that Perl finds their end exactly if their own free braces are
paired (`patterns_end_at_brace_iff`). Text that is to match itself has backslashes
(`quoteMeta_matches_text`).
-/

namespace Scriptgen.Perl

open List

/-- What follows the brace that closes the one before a text, from inside `depth` further ones. -/
def behindBraces : Nat → List Char → Option (List Char)
  | depth, '\\' :: _ :: rest => behindBraces depth rest
  | depth, '\x7b' :: rest => behindBraces (depth + 1) rest
  | 0, '\x7d' :: rest => some rest
  | depth + 1, '\x7d' :: rest => behindBraces depth rest
  | depth, _ :: rest => behindBraces depth rest
  | _, [] => none

/-- **The free braces of a text are paired**, once `depth` of them are closed. What a backslash
precedes is not free, and each backslash precedes something. -/
def pairsBraces : Nat → List Char → Bool
  | depth, '\\' :: _ :: rest => pairsBraces depth rest
  | depth, '\x7b' :: rest => pairsBraces (depth + 1) rest
  | 0, '\x7d' :: _ => false
  | depth + 1, '\x7d' :: rest => pairsBraces depth rest
  | depth, c :: rest => c != '\\' && pairsBraces depth rest
  | depth, [] => depth == 0

theorem length_lt_of_behindBraces {depth : Nat} {text rest : List Char}
    (h : behindBraces depth text = some rest) : rest.length < text.length := by
  fun_induction behindBraces depth text with
  | case1 _ _ _ ih | case2 _ _ ih | case4 _ _ ih | case5 _ _ _ _ _ _ _ ih =>
    have := ih h
    simp only [length_cons]
    omega
  | case3 =>
    cases h
    exact Nat.lt_succ_self _
  | case6 => cases h

/-- **The end is found behind a text exactly if its braces are paired.** -/
theorem behindBraces_append_iff (depth : Nat) (text after : List Char) :
    behindBraces depth (text ++ '\x7d' :: after) = some after ↔ pairsBraces depth text := by
  fun_induction pairsBraces depth text with
  | case1 depth c rest ih => exact ih
  | case2 depth rest ih => exact ih
  | case3 rest =>
    -- An earlier brace ends the text, and something is left of it.
    refine iff_of_false (fun h => ?_) (by simp)
    rw [cons_append, behindBraces] at h
    have := congrArg length (Option.some.inj h)
    simp only [length_append, length_cons] at this
    omega
  | case4 depth rest ih => exact ih
  | case5 depth c rest hescape hopen hclose hclose' ih =>
    by_cases hc : c = '\\'
    · -- The backslash is the last character and takes the brace behind the text.
      obtain rfl : rest = [] := by
        cases rest with
        | nil => rfl
        | cons d rest => exact (hescape d rest hc rfl).elim
      subst hc
      refine iff_of_false (fun h => ?_) (by simp)
      exact Nat.lt_irrefl _ (@length_lt_of_behindBraces _ after _ h)
    · rw [cons_append, behindBraces, ih]
      · simp [hc]
      · exact fun _ _ h _ => hc h
      · exact hopen
      · exact hclose
      · exact hclose'
  | case6 depth =>
    cases depth with
    | zero => simp [behindBraces]
    | succ depth =>
      refine iff_of_false (fun h => ?_) (by simp)
      exact Nat.lt_irrefl _ (@length_lt_of_behindBraces _ after _ h)

/-- Characters that do not count may be put before a text. -/
theorem pairsBraces_append {start : List Char} (depth : Nat) (text : List Char)
    (h : ∀ c ∈ start, c ≠ '\\' ∧ c ≠ '\x7b' ∧ c ≠ '\x7d') :
    pairsBraces depth (start ++ text) = pairsBraces depth text := by
  induction start with
  | nil => rfl
  | cons c start ih =>
    obtain ⟨hc, hstart⟩ := forall_mem_cons.1 h
    rw [cons_append, pairsBraces, ih hstart]
    · simp [hc.1]
    · exact fun _ _ h _ => hc.1 h
    · exact hc.2.1
    · exact fun _ => hc.2.2
    · exact fun _ _ => hc.2.2

/-- What is written for a pattern that is replaced. The flags that Perl knows stand inside. -/
def searchedText (regex : Json) : String :=
  let flags := knownFlags (Node.regexPart regex "flags")
  let text := Node.regexPart regex "pattern"
  if flags.isEmpty then text else "(?" ++ flags ++ ")" ++ text

theorem pairsBraces_searchedText (regex : Json) : pairsBraces 0 (searchedText regex).toList =
    pairsBraces 0 (Node.regexPart regex "pattern").toList := by
  simp only [searchedText]
  split
  · rfl
  · rw [String.toList_append]
    refine pairsBraces_append 0 _ fun c hc => ?_
    simp only [knownFlags, String.toList_append, String.toList_ofList, mem_append,
      mem_filter] at hc
    grind

/-- **Where patterns end.** A literal is written between braces, and so is one whose matches are
replaced. Perl takes the end of the pattern to be where it was written exactly if the free braces of
the pattern are paired, those in classes of characters among them. -/
theorem patterns_end_at_brace_iff (regex : Json) (layout : Layout) (depth : Nat) :
    (∀ node : Node, node.field? "regex" = some regex →
      ∃ flags, (literal node).print layout depth =
          "qr\x7b" ++ Node.regexPart regex "pattern" ++ "\x7d" ++ flags ∧
        (behindBraces 0 (Node.regexPart regex "pattern" ++ "\x7d" ++ flags).toList =
          some flags.toList ↔ pairsBraces 0 (Node.regexPart regex "pattern").toList)) ∧
    ∀ (text : Expr) (searched replacement : Node) (all : Bool),
      searched.unwrapped.field? "regex" = some regex →
      ∃ everywhere, replaceText text searched replacement all =
          (.substitute text (.pattern (searchedText regex)) · everywhere) <$>
            replacementValue replacement ∧
        ∀ new, ∃ rest,
          (Expr.substitute text (.pattern (searchedText regex)) new everywhere).print layout depth =
            asTerm text (text.print layout depth) ++ " =~ s\x7b" ++ searchedText regex ++ "\x7d" ++
              rest ∧
          (behindBraces 0 (searchedText regex ++ "\x7d" ++ rest).toList = some rest.toList ↔
            pairsBraces 0 (Node.regexPart regex "pattern").toList) := by
  have hends (text after : String) : behindBraces 0 (text ++ ("\x7d" ++ after)).toList =
      some after.toList ↔ pairsBraces 0 text.toList := by
    rw [String.toList_append, String.toList_append]
    exact behindBraces_append_iff 0 _ _
  simp only [String.append_assoc]
  refine ⟨fun node h => ?_, fun text searched replacement all h =>
    ⟨all || (Node.regexPart regex "flags").toList.contains 'g', ?_, fun new => ?_⟩⟩
  · simp only [literal, h, Expr.print, RegexSource.print, String.append_assoc]
    exact ⟨_, rfl, hends _ _⟩
  · rw [replaceText, searchedPattern]
    simp only [h]
    rfl
  · have hbetween : "\x7d\x7b" = "\x7d" ++ "\x7b" := rfl
    simp only [Expr.print, RegexSource.print, hbetween, String.append_assoc]
    refine ⟨_, rfl, ?_⟩
    rw [hends, pairsBraces_searchedText]

/-- A regular expression literal. -/
def patternNode (pattern : String) : Node :=
  ⟨[("regex", .object [("pattern", .string pattern)]), ("type", .string "Literal")]⟩

theorem patterns_end_at_brace_iff_repetition :
    ∃ flags, (literal (patternNode "a\x7b2\x7d[\\\x7d]")).print (.withIndent "    ") 0 =
        "qr\x7b" ++ "a\x7b2\x7d[\\\x7d]" ++ "\x7d" ++ flags ∧
      behindBraces 0 ("a\x7b2\x7d[\\\x7d]" ++ "\x7d" ++ flags).toList = some flags.toList := by
  obtain ⟨flags, hprint, hends⟩ :=
    (patterns_end_at_brace_iff _ (.withIndent "    ") 0).1 (patternNode "a\x7b2\x7d[\\\x7d]") rfl
  exact ⟨flags, hprint, hends.2 (by decide)⟩

/-- A brace in a class of characters is counted, so that the brace behind the pattern only closes
it. -/
theorem class_keeps_brace_open :
    (literal (patternNode "[\x7b]")).print (.withIndent "    ") 0 = "qr\x7b[\x7b]\x7d" ∧
      behindBraces 0 "[\x7b]\x7d".toList = none := by
  refine ⟨?_, by decide⟩
  rw [literal, show (patternNode "[\x7b]").field? "regex" = some _ from rfl, Expr.print]
  decide

/-! ## Literal text -/

/-- **What a pattern of literal characters matches.** Letters, digits, `_` and characters that are
not ASCII match themselves, and so does any other character behind a backslash. -/
inductive MatchesText : List Char → List Char → Prop
  | nil : MatchesText [] []
  | plain {c : Char} {pattern text : List Char} : c.isAlphanum ∨ c = '_' ∨ 128 ≤ c.toNat →
      MatchesText pattern text → MatchesText (c :: pattern) (c :: text)
  | escaped {c : Char} {pattern text : List Char} :
      ¬ (c.isAlphanum ∨ c = '_' ∨ 128 ≤ c.toNat) → MatchesText pattern text →
      MatchesText ('\\' :: c :: pattern) (c :: text)

/-- The characters of a pattern that no backslash precedes. -/
def freeChars : List Char → List Char
  | '\\' :: _ :: rest => freeChars rest
  | c :: rest => c :: freeChars rest
  | [] => []

theorem matchesText_quoteMeta (text : String) : MatchesText (quoteMeta text).toList text.toList := by
  rw [quoteMeta, String.toList_ofList]
  induction text.toList with
  | nil => exact .nil
  | cons c cs ih =>
    rw [flatMap_cons]
    split <;> rename_i h <;> simp only [isPatternLiteral, Bool.or_eq_true, beq_iff_eq,
      decide_eq_true_eq, or_assoc] at h
    · exact .plain h ih
    · exact .escaped h ih

namespace MatchesText

variable {pattern text text' : List Char}

variable (h : MatchesText pattern text)

include h

theorem eq (h' : MatchesText pattern text') : text' = text := by
  induction h generalizing text' with
  | nil =>
    cases h'
    rfl
  | plain hc _ ih =>
    cases h' with
    | plain _ hrest => rw [ih hrest]
    | escaped => exact absurd hc (by decide)
  | escaped _ _ ih =>
    cases h' with
    | plain hbackslash => exact absurd hbackslash (by decide)
    | escaped _ hrest => rw [ih hrest]

theorem pairsBraces : pairsBraces 0 pattern = true := by
  induction h with
  | nil => rfl
  | @plain c pattern _ hc _ ih =>
    refine (@pairsBraces_append [c] 0 pattern fun d hd => ?_).trans ih
    rw [mem_singleton.1 hd]
    refine ⟨?_, ?_, ?_⟩ <;> rintro rfl <;> exact absurd hc (by decide)
  | escaped _ _ ih => exact ih

theorem not_mem_freeChars : '$' ∉ freeChars pattern ∧ '@' ∉ freeChars pattern := by
  induction h with
  | nil => exact ⟨not_mem_nil, not_mem_nil⟩
  | @plain c _ _ hc _ ih =>
    have hne {d : Char} (hd : ¬ (d.isAlphanum ∨ d = '_' ∨ 128 ≤ d.toNat)) : c ≠ d :=
      fun heq => hd (heq ▸ hc)
    rw [freeChars]
    · exact ⟨not_mem_cons_of_ne_of_not_mem (hne (by decide)).symm ih.1,
        not_mem_cons_of_ne_of_not_mem (hne (by decide)).symm ih.2⟩
    · exact fun _ _ heq _ => hne (by decide) heq
  | escaped _ _ ih => exact ih

end MatchesText

/-- **Literal text in patterns.** Between the braces of a match or a replacement, the pattern for a
text ends where it was written, nothing in it is interpolated, and it matches that text only. -/
theorem quoteMeta_matches_text (text : String) (layout : Layout) (depth : Nat) :
    (∀ flags, (Expr.regex (.pattern (quoteMeta text)) flags).print layout depth =
        "qr\x7b" ++ quoteMeta text ++ "\x7d" ++ flags ∧
      behindBraces 0 (quoteMeta text ++ "\x7d" ++ flags).toList = some flags.toList) ∧
    (∀ target new everywhere, ∃ rest,
      (Expr.substitute target (.pattern (quoteMeta text)) new everywhere).print layout depth =
        asTerm target (target.print layout depth) ++ " =~ s\x7b" ++ quoteMeta text ++ "\x7d" ++ rest ∧
      behindBraces 0 (quoteMeta text ++ "\x7d" ++ rest).toList = some rest.toList) ∧
    '$' ∉ freeChars (quoteMeta text).toList ∧ '@' ∉ freeChars (quoteMeta text).toList ∧
    ∀ cs, MatchesText (quoteMeta text).toList cs ↔ cs = text.toList := by
  have hmatch := matchesText_quoteMeta text
  have hends (after : String) :
      behindBraces 0 (quoteMeta text ++ "\x7d" ++ after).toList = some after.toList := by
    rw [String.append_assoc, String.toList_append, String.toList_append]
    exact (behindBraces_append_iff 0 _ _).2 hmatch.pairsBraces
  refine ⟨fun flags => ⟨rfl, hends flags⟩, fun target new everywhere => ?_,
    hmatch.not_mem_freeChars.1, hmatch.not_mem_freeChars.2, fun cs => ⟨hmatch.eq, ?_⟩⟩
  · have hbetween : "\x7d\x7b" = "\x7d" ++ "\x7b" := rfl
    simp only [Expr.print, RegexSource.print, hbetween, String.append_assoc] at hends ⊢
    exact ⟨_, rfl, hends _⟩
  · rintro rfl
    exact hmatch

end Scriptgen.Perl
