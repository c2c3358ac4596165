import Mathlib.Data.List.TakeWhile
import Scriptgen.Proofs.Blanks.Text
/-!
# Lines of code

`codeLines` are the lines of a text that are neither blank nor comments. A text is read character by
character to find them (`Reading`). Two texts are compared by what reading them does (`Reads`): the
first one may have some more lines of code, which are counted.
-/

namespace Scriptgen

open List

namespace Text

/-- Whether a line is code: it is not blank, and its first character that is not blank starts no
comment. -/
def isCode (line : List Char) : Bool :=
  (line.find? fun c => !isBlank c).any (· != '#')

/-- The lines of a text without blank lines and lines with a comment. -/
def codeLines (text : String) : List (List Char) :=
  (cuts (· == '\n') text.toList).filter isCode

/-! ## Reading -/

/-- What is known of a line that has been read up to some place. -/
inductive LineStart where
  | blank (text : List Char)
  | comment
  | code (text : List Char)

def LineStart.of (text : List Char) : LineStart :=
  match text.find? fun c => !isBlank c with
  | none => .blank text
  | some '#' => .comment
  | some _ => .code text

def LineStart.push (c : Char) : LineStart → LineStart
  | .blank text => if isBlank c then .blank (text ++ [c]) else if c = '#' then .comment else .code (text ++ [c])
  | .comment => .comment
  | .code text => .code (text ++ [c])

theorem LineStart.of_concat (text : List Char) (c : Char) :
    LineStart.of (text ++ [c]) = (LineStart.of text).push c := by
  unfold LineStart.of
  rw [find?_append]
  cases hfirst : text.find? fun c => !isBlank c with
  | none =>
    cases hc : isBlank c with
    | true => simp [LineStart.push, hc]
    | false =>
      by_cases hhash : c = '#'
      · subst hhash
        simp [LineStart.push, hc]
      · simp only [Option.none_or, find?_cons, hc, Bool.not_false, LineStart.push, if_neg hhash]
        split <;> simp_all
  | some d =>
    rw [Option.some_or]
    split <;> simp_all [LineStart.push]

/-- A text that has been read up to some place: the lines of code before, and the line there. -/
structure Reading where
  kept : List (List Char)
  line : LineStart

namespace Reading

/-- Nothing has been read. -/
def start : Reading := ⟨[], .blank []⟩

def close (r : Reading) : Reading :=
  match r.line with
  | .code text => ⟨r.kept ++ [text], .blank []⟩
  | _ => ⟨r.kept, .blank []⟩

def next (r : Reading) (c : Char) : Reading :=
  if c = '\n' then r.close else ⟨r.kept, r.line.push c⟩

def read (r : Reading) (text : String) : Reading := text.toList.foldl next r

theorem read_append (r : Reading) (a b : String) : r.read (a ++ b) = (r.read a).read b := by
  rw [read, String.toList_append, foldl_append, read, read]

@[simp]
theorem read_empty (r : Reading) : r.read "" = r := rfl

end Reading

theorem Reading.close_of (kept : List (List Char)) (line : List Char) :
    (Reading.mk kept (.of line)).close = ⟨kept ++ [line].filter isCode, .of []⟩ := by
  unfold Reading.close LineStart.of isCode
  cases hfirst : line.find? fun c => !isBlank c with
  | none => simp [hfirst]
  | some c =>
    by_cases hc : c = '#'
    · subst hc
      simp [hfirst]
    · have hcode : (c != '#') = true := bne_iff_ne.2 hc
      split <;> simp_all

theorem cuts_ne_nil {α : Type} (p : α → Bool) (l : List α) : cuts p l ≠ [] := by
  cases l with
  | nil => exact cons_ne_nil _ _
  | cons a l =>
    unfold cuts
    split
    · exact cons_ne_nil _ _
    · split <;> exact cons_ne_nil _ _

theorem close_foldl_next (kept : List (List Char)) (before rest : List Char) :
    (rest.foldl Reading.next ⟨kept, .of before⟩).close.kept =
      kept ++ ((cuts (· == '\n') rest).modifyHead (before ++ ·)).filter isCode := by
  induction rest generalizing kept before with
  | nil =>
    rw [foldl_nil, Reading.close_of]
    simp [cuts]
  | cons c rest ih =>
    obtain ⟨first, others, hcuts⟩ := exists_cons_of_ne_nil (cuts_ne_nil (· == '\n') rest)
    rw [hcuts] at ih
    rw [foldl_cons]
    by_cases hc : c = '\n'
    · subst hc
      rw [Reading.next, if_pos rfl, Reading.close_of, ih]
      simp [cuts, hcuts, filter_cons]
      grind
    · rw [Reading.next, if_neg hc, ← LineStart.of_concat, ih]
      simp [cuts, hcuts, hc]

/-- **The lines of code of a text** are those that are kept when it is read. -/
theorem codeLines_eq (text : String) : codeLines text = (Reading.start.read text).close.kept := by
  have hread := close_foldl_next [] [] text.toList
  obtain ⟨first, others, hcuts⟩ := exists_cons_of_ne_nil (cuts_ne_nil (· == '\n') text.toList)
  rw [hcuts] at hread
  rw [codeLines, hcuts]
  exact hread.symm

/-! ## More lines -/

namespace Reading

/-- The first reading has `k` more lines of code than the second one, and is at a like place. -/
structure More (k : Nat) (r r' : Reading) : Prop where
  line : r.line = r'.line
  kept : r'.kept.Sublist r.kept
  length : r.kept.length = r'.kept.length + k

variable {k : Nat} {r r' : Reading}

theorem More.refl (r : Reading) : More 0 r r := ⟨rfl, List.Sublist.refl _, rfl⟩

theorem More.close (h : More k r r') : More k r.close r'.close := by
  obtain ⟨kept, line⟩ := r
  obtain ⟨kept', line'⟩ := r'
  obtain ⟨hline, hkept, hlength⟩ := h
  dsimp only at hline hkept hlength
  subst hline
  cases line with
  | blank | comment => exact ⟨rfl, hkept, hlength⟩
  | code text =>
    refine ⟨rfl, hkept.append_right [text], ?_⟩
    simp only [Reading.close, length_append, hlength]
    omega

theorem More.next (h : More k r r') (c : Char) : More k (r.next c) (r'.next c) := by
  unfold Reading.next
  split
  · exact h.close
  · exact ⟨congrArg (·.push c) h.line, h.kept, h.length⟩

theorem More.read (h : More k r r') (text : String) : More k (r.read text) (r'.read text) := by
  unfold Reading.read
  induction text.toList generalizing r r' with
  | nil => exact h
  | cons c rest ih => exact ih (h.next c)

theorem line_next_newline (r : Reading) : (r.next '\n').line = .blank [] := by
  rw [next, if_pos rfl, close]
  split <;> rfl

/-- What is kept before does not matter for what comes. -/
theorem read_kept (kept : List (List Char)) (line : LineStart) (text : String) :
    (Reading.mk kept line).read text =
      ⟨kept ++ ((Reading.mk [] line).read text).kept, ((Reading.mk [] line).read text).line⟩ := by
  unfold read
  induction text.toList generalizing kept line with
  | nil => simp
  | cons c rest ih =>
    have hnext (kept : List (List Char)) : (Reading.mk kept line).next c =
        ⟨kept ++ ((Reading.mk [] line).next c).kept, ((Reading.mk [] line).next c).line⟩ := by
      unfold next close
      split
      · cases line <;> simp
      · simp
    rw [foldl_cons, foldl_cons, hnext, ih, ih ((Reading.mk [] line).next c).kept]
    simp

theorem read_comment {pad : String} (hpad : ∀ c ∈ pad.toList, isBlank c) (hline : '\n' ∉ pad.toList)
    (kept : List (List Char)) (text : List Char) :
    (Reading.mk kept (.blank text)).read (pad ++ "# ") = ⟨kept, .comment⟩ := by
  have hblank (line : List Char) (h : ∀ c ∈ line, isBlank c) (hline : '\n' ∉ line) :
      ∀ text, ∃ text', line.foldl next ⟨kept, .blank text⟩ = ⟨kept, .blank text'⟩ := by
    induction line with
    | nil => exact fun text => ⟨text, rfl⟩
    | cons c line ih =>
      intro text
      have hc : c ≠ '\n' := fun heq => hline (heq ▸ mem_cons_self)
      have hnext : (Reading.mk kept (.blank text)).next c = ⟨kept, .blank (text ++ [c])⟩ := by
        rw [next, if_neg hc, LineStart.push, if_pos (h c mem_cons_self)]
      rw [foldl_cons, hnext]
      exact ih (fun d hd => h d (mem_cons_of_mem c hd))
        (fun hmem => hline (mem_cons_of_mem c hmem)) _
  obtain ⟨text', htext⟩ := hblank pad.toList hpad hline text
  have hread : (Reading.mk kept (.blank text)).read pad = ⟨kept, .blank text'⟩ := htext
  rw [read_append, hread]
  rfl

end Reading

/-! ## Texts that are read alike -/

open Reading

/-- Reading the first text gives `k` more lines of code than reading the second one. Where `starts`
holds this is so at the start of a line, and where `ends` holds it leads to one. -/
structure Reads (k : Nat) (starts ends : Bool) (x y : String) : Prop where
  run : ∀ {j : Nat} {r r' : Reading}, More j r r' → (starts = true → r.line = .blank []) →
    More (j + k) (r.read x) (r'.read y) ∧ (ends = true → (r.read x).line = .blank [])

namespace Reads

variable {k k' : Nat} {starts middle ends : Bool} {x x' y y' : String}

theorem refl (text : String) : Reads 0 starts false text text :=
  ⟨fun h _ => ⟨h.read text, nofun⟩⟩

theorem empty : Reads 0 starts starts "" "" := ⟨fun h hstart => ⟨h, hstart⟩⟩

theorem append (h : Reads k starts middle x y) (h' : Reads k' middle ends x' y') :
    Reads (k + k') starts ends (x ++ x') (y ++ y') := by
  refine ⟨fun {j r r'} hmore hstart => ?_⟩
  obtain ⟨hfirst, hmiddle⟩ := h.run hmore hstart
  have hsecond := h'.run hfirst hmiddle
  rw [Nat.add_assoc] at hsecond
  rwa [read_append, read_append]

theorem of_eq (h : Reads k starts ends x y) (heq : k = k') : Reads k' starts ends x y := heq ▸ h

theorem within (h : Reads k starts middle x y) : Reads k starts false x y :=
  ⟨fun hmore hstart => ⟨(h.run hmore hstart).1, nofun⟩⟩

theorem lead (text : String) (h : Reads k false ends x y) :
    Reads k starts ends (text ++ x) (text ++ y) := by
  have hlead : Reads 0 starts false text text := .refl text
  have happend := hlead.append h
  rwa [Nat.zero_add] at happend

theorem text (text : String) (h : Reads k starts middle x y) :
    Reads k starts false (x ++ text) (y ++ text) :=
  h.within.append (.refl text)

theorem trans {z : String} (h : Reads k starts ends x y) (h' : Reads k' starts ends y z) :
    Reads (k + k') starts ends x z := by
  refine ⟨fun {j r r'} hmore hstart => ?_⟩
  obtain ⟨hfirst, hline⟩ := h.run hmore hstart
  have hsecond := (h'.run (More.refl r') fun hs => hmore.line ▸ hstart hs).1
  refine ⟨⟨hfirst.line.trans hsecond.line, hsecond.kept.trans hfirst.kept, ?_⟩, hline⟩
  rw [hfirst.length, hsecond.length]
  omega

/-- With no line more, the readings are equal. -/
theorem symm (h : Reads 0 starts ends x y) : Reads 0 starts ends y x := by
  have hsame {r : Reading} (hstart : starts = true → r.line = .blank []) : r.read x = r.read y := by
    obtain ⟨hline, hkept, hlength⟩ := (h.run (More.refl r) hstart).1
    cases hx : r.read x
    cases hy : r.read y
    simp only [hx, hy] at hline hkept hlength
    rw [hline, hkept.eq_of_length hlength.symm]
  refine ⟨fun {j r r'} hmore hstart => ⟨?_, fun hends => ?_⟩⟩
  · rw [hsame fun hs => hmore.line ▸ hstart hs]
    exact hmore.read y
  · rw [← hsame hstart]
    exact (h.run (More.refl r) hstart).2 hends

end Reads

theorem trimEnd_append (x y : String) :
    trimEnd (x ++ y) = if ink y = [] then trimEnd x else x ++ trimEnd y := by
  have hblank : (y.toList.reverse.dropWhile isBlank).isEmpty = true ↔ ink y = [] := by
    rw [List.isEmpty_iff, List.dropWhile_eq_nil_iff, ink_eq_nil_iff]
    simp
  rw [trimEnd, dropEndWhile, String.toList_append, reverse_append, dropWhile_append]
  split
  · rename_i hy
    rw [if_pos (hblank.1 hy)]
    rfl
  · rename_i hy
    rw [if_neg (hy ∘ hblank.2), reverse_append, reverse_reverse, String.ofList_append,
      String.ofList_toList]
    rfl

/-- **Texts within a line that are read alike**, also if they are trimmed. -/
structure Inline (k : Nat) (x y : String) : Prop where
  reads : Reads k false false x y
  trimmed : Reads k false false (trimEnd x) (trimEnd y)
  blank : ink x = [] ↔ ink y = []
  quiet : ink x = [] → k = 0

namespace Inline

variable {k k' : Nat} {x x' y y' : String}

theorem refl (text : String) : Inline 0 text text := ⟨.refl _, .refl _, Iff.rfl, fun _ => rfl⟩

theorem append (h : Inline k x y) (h' : Inline k' x' y') : Inline (k + k') (x ++ x') (y ++ y') where
  reads := h.reads.append h'.reads
  trimmed := by
    rw [trimEnd_append, trimEnd_append]
    by_cases hblank : ink x' = []
    · rw [if_pos hblank, if_pos (h'.blank.1 hblank), h'.quiet hblank]
      exact h.trimmed
    · rw [if_neg hblank, if_neg (hblank ∘ h'.blank.2)]
      exact h.reads.append h'.trimmed
  blank := by
    rw [ink_append, ink_append, append_eq_nil_iff, append_eq_nil_iff, h.blank, h'.blank]
  quiet := by
    rw [ink_append, append_eq_nil_iff]
    rintro ⟨hx, hx'⟩
    rw [h.quiet hx, h'.quiet hx']

theorem lead (text : String) (h : Inline k x y) : Inline k (text ++ x) (text ++ y) := by
  have happend := (Inline.refl text).append h
  rwa [Nat.zero_add] at happend

/-- Whatever lines texts have, if they end alike. -/
theorem of_reads {ends : Bool} (h : Reads k false ends x y) {last : String} (hink : ink last ≠ []) :
    Inline k (x ++ last) (y ++ last) where
  reads := h.text last
  trimmed := by
    rw [trimEnd_append, trimEnd_append, if_neg hink, if_neg hink]
    exact h.text _
  blank := by
    rw [ink_append, ink_append, append_eq_nil_iff, append_eq_nil_iff]
    exact ⟨fun hnil => absurd hnil.2 hink, fun hnil => absurd hnil.2 hink⟩
  quiet := by
    rw [ink_append, append_eq_nil_iff]
    exact fun hnil => absurd hnil.2 hink

end Inline

end Text

/-! ## Layouts of lines -/

open Text Reading

/-- A layout that breaks lines as usual and indents with blanks. -/
structure LineLayout extends Layout where
  indent_blank : ∀ c ∈ indent.toList, c = ' ' ∨ c = '\t'
  lineEnding_breaks : lineEnding = "\n" ∨ lineEnding = "\r\n"

variable {depth : Nat}

namespace LineLayout

instance : Coe LineLayout Layout := ⟨toLayout⟩

variable {l : LineLayout} {k : Nat} {starts : Bool} {x y : String}

theorem lineEnding_eq (l : LineLayout) :
    ∃ before : String, ink before = [] ∧ l.lineEnding = before ++ "\n" := by
  rcases l.lineEnding_breaks with h | h
  · exact ⟨"", rfl, h⟩
  · exact ⟨"\r", rfl, h⟩

theorem mem_pad {c : Char} (hc : c ∈ (l.pad depth).toList) : c = ' ' ∨ c = '\t' := by
  unfold Layout.pad at hc
  induction depth with
  | zero => cases hc
  | succ depth ih =>
    rw [replicate_succ, String.join_cons, String.toList_append, mem_append] at hc
    exact hc.elim (l.indent_blank c) ih

theorem isBlank_pad : ∀ c ∈ (l.pad depth).toList, isBlank c := by
  intro c hc
  rcases mem_pad hc with rfl | rfl <;> rfl

theorem newline_notMem_pad : '\n' ∉ (l.pad depth).toList := by
  intro hc
  rcases mem_pad hc with h | h <;> cases h

theorem reads_lineEnding : Reads 0 starts true l.lineEnding l.lineEnding := by
  obtain ⟨before, -, heq⟩ := l.lineEnding_eq
  refine ⟨fun {j r r'} hmore _ => ⟨hmore.read _, fun _ => ?_⟩⟩
  rw [heq, read_append]
  exact line_next_newline _

theorem read_lineEnding (kept : List (List Char)) :
    (Reading.mk kept (.blank [])).read l.lineEnding = ⟨kept, .blank []⟩ := by
  rcases l.lineEnding_breaks with h | h <;> rw [h] <;> rfl

theorem reads_blankLine : Reads 0 true true l.lineEnding "" := by
  refine ⟨fun {j r r'} hmore hstart => ?_⟩
  obtain ⟨kept, line⟩ := r
  obtain rfl : line = .blank [] := hstart rfl
  rw [read_lineEnding]
  exact ⟨hmore, fun _ => rfl⟩

theorem reads_line (depth : Nat) (h : Reads k false false x y) :
    Reads k starts true (l.line depth x) (l.line depth y) :=
  (h.lead (l.pad depth)).append reads_lineEnding

theorem reads_same_line (depth : Nat) (text : String) :
    Reads 0 starts true (l.line depth text) (l.line depth text) := reads_line depth (.refl text)

/-- The number of lines of code that a comment leads to, as it may contain line feeds. -/
def strayLines (l : LineLayout) (note : String) : Nat := (codeLines (l.line 0 ("# " ++ note))).length

/-- **A comment adds the lines that it goes on in.** -/
theorem reads_note (depth : Nat) (note : String) :
    Reads (l.strayLines note) true true (l.line depth ("# " ++ note)) "" := by
  have hcomment (depth : Nat) (kept : List (List Char)) :
      (Reading.mk kept (.blank [])).read (l.line depth ("# " ++ note)) =
        (Reading.mk kept .comment).read (note ++ l.lineEnding) := by
    have hsplit : l.line depth ("# " ++ note) =
        (l.pad depth ++ "# ") ++ (note ++ l.lineEnding) := by
      simp only [Layout.line, String.append_assoc]
    rw [hsplit, read_append, read_comment isBlank_pad newline_notMem_pad]
  have hread : Reads 0 false true (note ++ l.lineEnding) (note ++ l.lineEnding) :=
    reads_lineEnding.lead note
  have hends (r : Reading) : (r.read (note ++ l.lineEnding)).line = .blank [] :=
    (hread.run (More.refl r) (by simp)).2 rfl
  have hstray : l.strayLines note =
      ((Reading.mk [] .comment).read (note ++ l.lineEnding)).kept.length := by
    rw [strayLines, codeLines_eq, start, hcomment 0 [], close, hends]
  refine ⟨fun {j r r'} hmore hstart => ?_⟩
  obtain ⟨kept, line⟩ := r
  have hline : line = .blank [] := hstart rfl
  subst hline
  have hkept := hmore.kept
  have hlength := hmore.length
  rw [hcomment depth kept, read_kept, read_empty]
  refine ⟨⟨?_, ?_, ?_⟩, fun _ => hends _⟩
  · rw [← hmore.line]
    exact hends _
  · exact hkept.trans (sublist_append_left _ _)
  · simp only [length_append, hlength, hstray]
    omega

end LineLayout

end Scriptgen
