import Scriptgen.Proofs.CodeLines
import Scriptgen.Proofs.Nesting
/-!
# Texts with matched brackets

A text is read by a machine that goes on over line ends (`feed`), so that it can be followed part by
part. What the machine accepts has no problems (`scan_eq_nil_of_feed`). A part is `Matched` if it
leads from code to code and leaves the open brackets as they are.
-/

namespace Scriptgen.Brackets

open List Text

/-! ## Reading over line ends -/

/-- Where in its text the check is. -/
inductive Mode where
  | code
  | comment
  | string (quote : Char)
  /-- Behind a backslash in a string. -/
  | escaped (quote : Char)

/-- One more character, for the mode and the open brackets. Nothing is left after a problem. -/
def feed : Option (Mode × List Char) → Char → Option (Mode × List Char)
  | none, _ => none
  | some (.code, stack), c =>
    if c = '#' then some (.comment, stack)
    else if c ∈ quotes then some (.string c, stack)
    else if c = '\\' then none
    else if c ∈ openers ++ closers then (step stack (.bracket c)).map (.code, ·)
    else some (.code, stack)
  | some (.comment, stack), c => some (if c = '\n' then .code else .comment, stack)
  | some (.string quote, stack), c =>
    if c = '\n' then none
    else if c = '\\' then some (.escaped quote, stack)
    else if c = quote ∧ c ∈ quotes then some (.code, stack)
    else some (.string quote, stack)
  | some (.escaped quote, stack), c => if c = '\n' then none else some (.string quote, stack)

theorem foldl_feed_none (cs : List Char) : cs.foldl feed none = none := by
  induction cs with
  | nil => rfl
  | cons c cs ih => exact ih

variable {stack after : List Char} {marks : List Mark} {text : String} {c : Char}

@[simp]
theorem feed_comment (h : c ≠ '\n') (stack : List Char) :
    feed (some (.comment, stack)) c = some (.comment, stack) := by
  rw [feed, if_neg h]

variable {parts : List String} {cs : List Char} {quote : Char}

@[simp]
theorem foldl_feed_comment (h : '\n' ∉ cs) :
    cs.foldl feed (some (.comment, stack)) = some (.comment, stack) := by
  induction cs with
  | nil => rfl
  | cons c cs ih =>
    rw [mem_cons, not_or] at h
    rw [foldl_cons, feed_comment (Ne.symm h.1), ih h.2]

/-! ## Lines -/

/-- The open brackets after a line. It must not end in a string. -/
def after? : Option (Mode × List Char) → Option (List Char)
  | some (.code, stack) | some (.comment, stack) => some stack
  | _ => none

theorem feed_lineFeed (state : Option (Mode × List Char)) :
    feed state '\n' = (after? state).map (.code, ·) := by
  rcases state with _ | ⟨_ | _ | _ | _, stack⟩ <;> rfl

theorem dropReturn_subset (line : List Char) (h : c ∈ dropReturn line) : c ∈ line := by
  unfold dropReturn at h
  split at h
  · exact dropLast_subset line h
  · exact h

theorem after?_dropReturn {line : List Char}
    (h : after? (line.foldl feed (some (.code, stack))) = some after) :
    after? ((dropReturn line).foldl feed (some (.code, stack))) = some after := by
  unfold dropReturn
  split
  · rename_i hlast
    obtain ⟨body, rfl⟩ := getLast?_eq_some_iff.1 (beq_iff_eq.1 hlast)
    rw [foldl_append] at h
    rw [dropLast_concat]
    generalize body.foldl feed (some (.code, stack)) = state at h ⊢
    rcases state with _ | ⟨_ | _ | quote | quote, stack⟩
    · cases h
    · exact h
    · exact h
    all_goals simp [feed, quotes, after?] at h
  · exact h

/-- A text is a line, or a line and what comes after it. -/
theorem lines_induction {motive : List Char → Prop} (last : ∀ line, '\n' ∉ line → motive line)
    (line : ∀ line rest, '\n' ∉ line → motive rest → motive (line ++ '\n' :: rest))
    (text : List Char) : motive text := by
  suffices h : ∀ before, '\n' ∉ before → motive (before ++ text) from h [] not_mem_nil
  induction text with
  | nil => exact fun before hbefore => last _ (by simpa using hbefore)
  | cons c text ih =>
    intro before hbefore
    by_cases hc : c = '\n'
    · subst hc
      exact line before text hbefore (ih [] not_mem_nil)
    · have hlonger := ih (before ++ [c]) (by simp [hbefore, Ne.symm hc])
      rwa [append_assoc] at hlonger

section LineChars

variable {line : List Char} (h : '\n' ∉ line)
include h

theorem lineChars_last : lineChars line = if line = [] then [] else [line] := by
  have hcuts : cuts (· == '\n') line = [line] := by
    induction line with
    | nil => rfl
    | cons c line ih =>
      rw [mem_cons, not_or] at h
      simp [cuts, ih h.2, Ne.symm h.1]
  cases line <;> simp [lineChars, hcuts]

theorem lineChars_line (rest : List Char) :
    lineChars (line ++ '\n' :: rest) = dropReturn line :: lineChars rest := by
  have hcuts : cuts (· == '\n') (line ++ '\n' :: rest) = line :: cuts (· == '\n') rest := by
    induction line with
    | nil => simp [cuts]
    | cons c line ih =>
      rw [mem_cons, not_or] at h
      simp [cuts, ih h.2, Ne.symm h.1]
  obtain ⟨part, parts, hrest⟩ := exists_cons_of_ne_nil (cuts_ne_nil (· == '\n') rest)
  simp only [lineChars, hcuts, hrest, getLast?_cons_cons, dropLast_cons_cons,
    map_cons]
  split <;> simp_all

end LineChars

theorem lineFeed_not_mem_of_mem_lineChars {text line : List Char} (h : line ∈ lineChars text) :
    '\n' ∉ line := by
  induction text using lines_induction with
  | last last hlast =>
    rw [lineChars_last hlast] at h
    split at h <;> simp_all
  | line first rest hfirst ih =>
    rw [lineChars_line hfirst, mem_cons] at h
    rcases h with rfl | h
    · exact fun hmem => hfirst (dropReturn_subset first hmem)
    · exact ih h

/-! ## What the machine accepts -/

/-- A quote opens a string, and closes one. -/
theorem feed_quote (h : quote ∈ quotes) (stack : List Char) :
    feed (some (.code, stack)) quote = some (.string quote, stack) ∧
      feed (some (.string quote, stack)) quote = some (.code, stack) := by
  simp only [quotes, mem_cons, not_mem_nil, or_false] at h
  rcases h with rfl | rfl <;> exact ⟨rfl, rfl⟩

/-- What is inside a string is passed over, up to a line end. -/
theorem foldl_feed_inside {body : List Char} (h : Inside quote body) (stack : List Char) :
    body.foldl feed (some (.string quote, stack)) = some (.string quote, stack) ∨
      body.foldl feed (some (.string quote, stack)) = none := by
  induction h with
  | nil => exact .inl rfl
  | @escape c body _ ih =>
    by_cases hc : c = '\n' <;> simp [feed, hc, foldl_feed_none, ih]
  | @plain c body hescape hquote _ ih =>
    by_cases hc : c = '\n' <;> simp [feed, hc, hescape, hquote, foldl_feed_none, ih]

theorem run_of_lexes {previous : Option Char} {line : List Char}
    (h : Lexes .ruby previous line marks) (hline : '\n' ∉ line)
    (hafter : after? (line.foldl feed (some (.code, stack))) = some after) :
    run stack marks = some after := by
  induction h generalizing stack with
  | nil => exact hafter
  | comment =>
    rw [mem_cons, not_or] at hline
    rw [foldl_cons, feed, if_pos rfl, foldl_feed_comment hline.2] at hafter
    exact hafter
  | lastIndex hperl => cases hperl
  | @string _ quote body rest _ hquote hbody _ ih =>
    simp only [cons_append, foldl_cons, foldl_append, feed_quote hquote] at hafter
    rcases foldl_feed_inside hbody stack with hpassed | hpassed
    · rw [hpassed, (feed_quote hquote stack).2] at hafter
      exact ih (by simp_all) hafter
    · simp [hpassed, feed, foldl_feed_none, after?] at hafter
  | @openString _ quote body last hquote hbody hlast =>
    simp only [cons_append, foldl_cons, foldl_append, feed_quote hquote] at hafter
    rcases foldl_feed_inside hbody stack with hpassed | hpassed <;>
      rcases hlast with rfl | rfl <;> simp [hpassed, feed, after?] at hafter
  | escape | lastEscape => simp [feed, quotes, foldl_feed_none, after?] at hafter
  | @bracket _ c rest _ hc _ ih =>
    have hfeed : feed (some (.code, stack)) c = (step stack (.bracket c)).map (.code, ·) := by
      have hplain : ∀ c ∈ openers ++ closers, c ≠ '#' ∧ c ∉ quotes ∧ c ≠ '\\' := by
        simp [openers, closers, quotes]
      simp [feed, hplain c hc, mem_append.1 hc]
    rw [foldl_cons, hfeed] at hafter
    cases hstep : step stack (.bracket c) with
    | none => simp [hstep, foldl_feed_none, after?] at hafter
    | some next =>
      rw [hstep] at hafter
      simpa [hstep] using ih (by simp_all) hafter
  | @plain _ c rest _ hc _ ih =>
    have hfeed : feed (some (.code, stack)) c = some (.code, stack) := by
      simp_all [feed]
    rw [foldl_cons, hfeed] at hafter
    exact ih (by simp_all) hafter

theorem Reads.of_cons {line : List Char} {lines : List (List Char)}
    (h : Reads .ruby (line :: lines) marks) (hdoc : ¬ Documents .ruby line) :
    ∃ first rest, marks = first ++ rest ∧ Lexes .ruby none line first ∧ Reads .ruby lines rest := by
  generalize hall : line :: lines = all at h
  cases h with
  | nil => cases hall
  | code _ _ hlexes hreads =>
    cases hall
    exact ⟨_, _, rfl, hlexes, hreads⟩
  | ended hends => cases hends.1
  | documentation hfirst | openDocumentation hfirst =>
    cases hall
    exact absurd hfirst hdoc

theorem run_of_reads {text : List Char} (h : Reads .ruby (lineChars text) marks)
    (hlines : ∀ line ∈ lineChars text, ¬ Documents .ruby line)
    (hafter : after? (text.foldl feed (some (.code, stack))) = some after) :
    run stack marks = some after := by
  induction text using lines_induction generalizing stack marks with
  | last line hline =>
    rw [lineChars_last hline] at h hlines
    split at h
    · rename_i hempty
      subst hempty
      cases h
      exact hafter
    · rename_i hsome
      rw [if_neg hsome] at hlines
      obtain ⟨first, rest, rfl, hlexes, hrest⟩ := h.of_cons (hlines line mem_cons_self)
      cases hrest
      simpa using run_of_lexes hlexes hline hafter
  | line first rest hfirst ih =>
    rw [lineChars_line hfirst] at h hlines
    rw [forall_mem_cons] at hlines
    rw [foldl_append, foldl_cons, feed_lineFeed] at hafter
    cases hnext : after? (first.foldl feed (some (.code, stack))) with
    | none =>
      rw [hnext, Option.map_none, foldl_feed_none] at hafter
      cases hafter
    | some next =>
      rw [hnext] at hafter
      obtain ⟨marks, more, rfl, hlexes, hreads⟩ := h.of_cons hlines.1
      have hrun := run_of_lexes hlexes (dropReturn_subset first · |> hfirst) (after?_dropReturn hnext)
      simpa [hrun] using ih hreads hlines.2 hafter

/-- **What the machine accepts has no problems**, unless a line starts documentation. -/
theorem scan_eq_nil_of_feed (h : text.toList.foldl feed (some (.code, [])) = some (.code, []))
    (hlines : ∀ line ∈ lineChars text.toList, ¬ "=begin".toList <+: line) :
    scan .ruby text = [] := by
  obtain ⟨marks, hreads⟩ := exists_reads .ruby (lineChars text.toList)
  rw [scan_eq_nil, view_scanLines hreads]
  exact run_of_reads hreads (fun line hline => by simpa [Documents] using hlines line hline)
    (congrArg after? h)

/-! ## Parts of a text -/

/-- **A text with matched brackets** leads from code to code and leaves the open brackets as they
are. -/
@[simp]
abbrev Matched (text : String) : Prop :=
  ∀ stack, text.toList.foldl feed (some (.code, stack)) = some (.code, stack)

/-- A text in which the check finds nothing to look at. -/
def Inert (text : String) : Prop :=
  ∀ c ∈ text.toList, c ∉ ['#', '\\', '\n'] ++ quotes ++ openers ++ closers

instance (text : String) : Decidable (Inert text) :=
  List.decidableBAll _ _

attribute [simp] quotes openers closers

@[simp]
theorem feed_inert (h : c ∉ ['#', '\\', '\n'] ++ quotes ++ openers ++ closers)
    (stack : List Char) : feed (some (.code, stack)) c = some (.code, stack) := by
  simp_all [feed]

@[simp]
theorem feed_mark (stack : List Char) :
    feed (some (.code, stack)) '(' = some (.code, '(' :: stack) ∧
    feed (some (.code, stack)) '[' = some (.code, '[' :: stack) ∧
    feed (some (.code, stack)) '\x7b' = some (.code, '\x7b' :: stack) ∧
    feed (some (.code, '(' :: stack)) ')' = some (.code, stack) ∧
    feed (some (.code, '[' :: stack)) ']' = some (.code, stack) ∧
    feed (some (.code, '\x7b' :: stack)) '\x7d' = some (.code, stack) ∧
    feed (some (.code, stack)) '#' = some (.comment, stack) ∧
    feed (some (.code, stack)) '"' = some (.string '"', stack) ∧
    feed (some (.string '"', stack)) '"' = some (.code, stack) := by
  and_intros <;> rfl

@[simp]
theorem foldl_feed_ite (p : Prop) [Decidable p] (a b : String) (state : Option (Mode × List Char)) :
    (if p then a else b).toList.foldl feed state =
      if p then a.toList.foldl feed state else b.toList.foldl feed state := by
  split <;> rfl

namespace Matched

variable {a b : String}

@[simp]
theorem of_inert (h : Inert a) : Matched a := by
  intro stack
  unfold Inert at h
  generalize a.toList = cs at h ⊢
  induction cs with
  | nil => rfl
  | cons c cs ih =>
    rw [forall_mem_cons] at h
    rw [foldl_cons, feed_inert h.1, ih h.2]

theorem append (ha : Matched a) (hb : Matched b) : Matched (a ++ b) := by simp [ha, hb]

theorem join (h : ∀ part ∈ parts, Matched part) : Matched (String.join parts) := by
  simp only [Matched, String.toList_join]
  induction parts with
  | nil => exact fun _ => rfl
  | cons part parts ih =>
    rw [forall_mem_cons] at h
    simp [h.1, ih h.2]

theorem intercalate {separator : String} (hseparator : Matched separator)
    (h : ∀ part ∈ parts, Matched part) : Matched (String.intercalate separator parts) := by
  induction parts with
  | nil => exact fun _ => rfl
  | cons part parts ih =>
    rw [forall_mem_cons] at h
    cases parts with
    | nil => simpa using h.1
    | cons next parts =>
      intro stack
      rw [String.intercalate_cons_cons, String.toList_append, String.toList_append,
        foldl_append, foldl_append, h.1, hseparator, ih h.2]

end Matched

/-! ## Lines and comments -/

section Lines

variable {l : LineLayout}

@[simp]
theorem foldl_feed_lineEnding (stack : List Char) :
    l.lineEnding.toList.foldl feed (some (.code, stack)) = some (.code, stack) ∧
      l.lineEnding.toList.foldl feed (some (.comment, stack)) = some (.code, stack) := by
  rcases l.lineEnding_breaks with h | h <;> rw [h] <;> exact ⟨rfl, rfl⟩

@[simp]
theorem matched_pad (depth : Nat) : Matched ((l : Layout).pad depth) := by
  refine .of_inert fun c hc => ?_
  rcases LineLayout.mem_pad hc with rfl | rfl <;> decide

theorem matched_line (depth : Nat) (h : Matched text) : Matched ((l : Layout).line depth text) := by
  simp [Layout.line, h]

theorem mem_of_mem_trim (h : c ∈ (trim text).toList) : c ∈ text.toList := by
  simp only [trim, trimEnd, trimStart, dropEndWhile, String.toList_ofList,
    mem_reverse] at h
  exact dropWhile_subset _ (mem_reverse.1 (dropWhile_subset _ h))

theorem matched_remarks (remarks : Remarks) (depth : Nat) : Matched (remarks.print l depth) := by
  refine .join fun printed hprinted => ?_
  obtain ⟨comment, -, rfl⟩ := mem_map.1 hprinted
  refine .join fun printed hprinted => ?_
  obtain ⟨line, hline, rfl⟩ := mem_map.1 hprinted
  have hbare : '\n' ∉ (comment.bare line).toList := by
    obtain ⟨chars, hchars, rfl⟩ := mem_map.1 hline
    refine fun h => lineFeed_not_mem_of_mem_lineChars hchars ?_
    rw [← String.toList_ofList (l := chars)]
    unfold Comment.bare at h
    split at h
    · have h := mem_of_mem_trim h
      rw [dropLeading, String.toList_ofList] at h
      exact mem_of_mem_trim (dropWhile_subset _ h)
    · exact mem_of_mem_trim h
  dsimp only
  split
  · split
    · exact fun _ => rfl
    · simp [Layout.line]
  · simp [Layout.line, hbare]

end Lines

/-! ## Strings -/

/-- The place in a double quoted string that goes with a place in code. -/
def Mode.quoted : Mode → Mode
  | .escaped _ => .escaped '"'
  | _ => .string '"'

/-- In a double quoted string, code without double quotes and line ends is passed over. -/
theorem foldl_feed_quoted {before : List Char} {mode : Mode}
    (hmode : mode ≠ .comment) (h : cs.foldl feed (some (mode, before)) = some (.code, after))
    (hquote : '"' ∉ cs) (hline : '\n' ∉ cs) :
    cs.foldl feed (some (mode.quoted, stack)) = some (.string '"', stack) := by
  induction cs generalizing mode before with
  | nil =>
    cases h
    rfl
  | cons c cs ih =>
    rw [mem_cons, not_or] at hquote hline
    rw [foldl_cons] at h ⊢
    cases hnext : feed (some (mode, before)) c with
    | none => rw [hnext, foldl_feed_none] at h; cases h
    | some next =>
      obtain ⟨next, open'⟩ := next
      rw [hnext] at h
      have hnot : next ≠ .comment := by
        rintro rfl
        rw [foldl_feed_comment hline.2] at h
        cases h
      have hquoted : feed (some (mode.quoted, stack)) c = some (next.quoted, stack) := by
        unfold feed at hnext ⊢
        cases mode <;> grind [Mode.quoted, quotes, Option.map_eq_some_iff]
      rw [hquoted, ih hnot h hquote.2 hline.2]

end Scriptgen.Brackets
