import Scriptgen.Brackets
/-!
# What the bracket check accepts

The check reads a text line by line with a stack of open brackets. Here the texts are described
without a machine: `Lexes` and `Reads` say which brackets and open strings a text has outside
comments, strings, escapes, documentation and the lines after the end mark, and `WellNested` is the
grammar of brackets. A text has no problems exactly if no string is left open and its brackets are
well nested: `scan_eq_nil_iff`.
-/

namespace Scriptgen.Brackets

open List State

/-! ## Texts -/

/-- What counts in a text. -/
inductive Mark where
  | bracket (c : Char)
  /-- A string that is open at the end of its line. -/
  | openString
deriving DecidableEq

def openers : List Char := ['(', '[', '\x7b']

def closers : List Char := [')', ']', '\x7d']

def quotes : List Char := ['\'', '"']

/-- A part of a string without its end. A backslash hides the character after it. -/
inductive Inside (quote : Char) : List Char → Prop
  | nil : Inside quote []
  | escape {c : Char} {cs : List Char} : Inside quote cs → Inside quote ('\\' :: c :: cs)
  | plain {c : Char} {cs : List Char} : c ≠ '\\' → c ≠ quote → Inside quote cs →
      Inside quote (c :: cs)

/-- **What counts in a line**, or in the rest of one after a character. -/
inductive Lexes (dialect : Dialect) : Option Char → List Char → List Mark → Prop
  | nil {previous : Option Char} : Lexes dialect previous [] []
  | comment {previous : Option Char} {text : List Char} :
      ¬(dialect = .perl ∧ previous = some '$') → Lexes dialect previous ('#' :: text) []
  | lastIndex {rest : List Char} {marks : List Mark} : dialect = .perl →
      Lexes dialect (some '#') rest marks → Lexes dialect (some '$') ('#' :: rest) marks
  | string {previous : Option Char} {quote : Char} {body rest : List Char} {marks : List Mark} :
      quote ∈ quotes → Inside quote body → Lexes dialect (some quote) rest marks →
      Lexes dialect previous (quote :: body ++ quote :: rest) marks
  | openString {previous : Option Char} {quote : Char} {body last : List Char} :
      quote ∈ quotes → Inside quote body → last = [] ∨ last = ['\\'] →
      Lexes dialect previous (quote :: body ++ last) [.openString]
  | escape {previous : Option Char} {c : Char} {rest : List Char} {marks : List Mark} :
      Lexes dialect (some c) rest marks → Lexes dialect previous ('\\' :: c :: rest) marks
  | lastEscape {previous : Option Char} : Lexes dialect previous ['\\'] []
  | bracket {previous : Option Char} {c : Char} {rest : List Char} {marks : List Mark} :
      c ∈ openers ++ closers → Lexes dialect (some c) rest marks →
      Lexes dialect previous (c :: rest) (.bracket c :: marks)
  | plain {previous : Option Char} {c : Char} {rest : List Char} {marks : List Mark} :
      c ∉ ['#', '\\'] ++ quotes ++ openers ++ closers → Lexes dialect (some c) rest marks →
      Lexes dialect previous (c :: rest) marks

/-- A line with which documentation starts. -/
def Documents (dialect : Dialect) (line : List Char) : Prop :=
  (dialect = .perl ∧ ∃ c rest, line = '=' :: c :: rest ∧ c.isAlpha = true) ∨
    (dialect = .ruby ∧ "=begin".toList <+: line)

/-- A line with which documentation ends. -/
def Resumes (dialect : Dialect) (line : List Char) : Prop :=
  (dialect = .perl ∧ "=cut".toList <+: line) ∨ (dialect = .ruby ∧ "=end".toList <+: line)

/-- A line before which the code ends. -/
def Ends (dialect : Dialect) (line : List Char) : Prop :=
  dialect = .perl ∧ "__END__".toList <+: line

/-- **What counts in the lines of a text.** -/
inductive Reads (dialect : Dialect) : List (List Char) → List Mark → Prop
  | nil : Reads dialect [] []
  | code {line : List Char} {lines : List (List Char)} {first marks : List Mark} :
      ¬ Ends dialect line → ¬ Documents dialect line → Lexes dialect none line first →
      Reads dialect lines marks → Reads dialect (line :: lines) (first ++ marks)
  | ended {line : List Char} {lines : List (List Char)} : Ends dialect line →
      Reads dialect (line :: lines) []
  | documentation {first last : List Char} {inner lines : List (List Char)} {marks : List Mark} :
      Documents dialect first → (∀ line ∈ inner, ¬ Resumes dialect line) →
      Resumes dialect last → Reads dialect lines marks →
      Reads dialect (first :: inner ++ last :: lines) marks
  | openDocumentation {first : List Char} {inner : List (List Char)} :
      Documents dialect first → (∀ line ∈ inner, ¬ Resumes dialect line) →
      Reads dialect (first :: inner) []

/-- **Brackets that are well nested.** -/
inductive WellNested : List Char → Prop
  | nil : WellNested []
  | append {s t : List Char} : WellNested s → WellNested t → WellNested (s ++ t)
  | round {s : List Char} : WellNested s → WellNested ('(' :: s ++ [')'])
  | square {s : List Char} : WellNested s → WellNested ('[' :: s ++ [']'])
  | curly {s : List Char} : WellNested s → WellNested ('\x7b' :: s ++ ['\x7d'])

def bracketsIn (marks : List Mark) : List Char :=
  marks.filterMap fun
    | .bracket c => some c
    | .openString => none

/-! ## The machine without its reports -/

/-- The open brackets after one more mark, if that is no problem. -/
def step (stack : List Char) : Mark → Option (List Char)
  | .openString => none
  | .bracket c =>
    if c ∈ openers then some (c :: stack)
    else
      match stack with
      | [] => none
      | opening :: rest => if closerOf opening = c then some rest else none

/-- The open brackets after all marks, if there is no problem. -/
def run (stack : List Char) (marks : List Mark) : Option (List Char) := marks.foldlM step stack

/-- The open brackets of a state without problems. -/
def State.view (state : State) : Option (List Char) :=
  if state.problems.isEmpty then some (state.stack.map (·.1)) else none

@[simp]
theorem run_nil (stack : List Char) : run stack [] = some stack := rfl

@[simp]
theorem run_cons (stack : List Char) (mark : Mark) (marks : List Mark) :
    run stack (mark :: marks) = (step stack mark).bind (run · marks) := foldlM_cons

@[simp]
theorem run_append (stack : List Char) (marks more : List Mark) :
    run stack (marks ++ more) = (run stack marks).bind (run · more) := foldlM_append

@[simp]
theorem view_report (state : State) (problem : Problem) : (state.report problem).view = none := by
  simp [view, report]

variable {s stack : List Char} {marks : List Mark} {c : Char}

theorem view_open (state : State) (line : Nat) (hc : c ∈ openers) :
    view { state with stack := (c, line) :: state.stack } =
      state.view.bind (step · (.bracket c)) := by
  unfold view step
  split <;> simp [hc]

theorem view_close (state : State) (line : Nat) (hc : c ∉ openers) :
    (state.close line c).view = state.view.bind (step · (.bracket c)) := by
  obtain ⟨stack, problems⟩ := state
  rcases stack with _ | ⟨⟨opening, openLine⟩, rest⟩
  · cases problems <;> simp [view, close, report, step, hc]
  · by_cases hcloses : closerOf opening = c <;>
      cases problems <;> simp [view, close, report, step, hc, hcloses]

/-! ## Lines -/

theorem afterString?_of_inside {quote : Char} {body rest : List Char} (hquote : quote ∈ quotes)
    (h : Inside quote body) : afterString? quote (body ++ quote :: rest) = some rest := by
  have hne : quote ≠ '\\' := by
    rintro rfl
    revert hquote
    decide
  induction h with
  | nil => rw [nil_append, afterString?.eq_4 _ _ _ (by simp [hne]) (by simp [hne])]; simp
  | escape _ ih => simpa [afterString?] using ih
  | @plain c cs hc hcquote _ ih =>
    rw [cons_append, afterString?.eq_4 _ _ _ (by simp [hc]) (by simp [hc])]
    simpa [hcquote] using ih

theorem afterString?_of_open {quote : Char} {body last : List Char}
    (h : Inside quote body) (hlast : last = [] ∨ last = ['\\']) :
    afterString? quote (body ++ last) = none := by
  induction h with
  | nil => rcases hlast with rfl | rfl <;> rfl
  | escape _ ih => simpa [afterString?] using ih
  | @plain c cs hc hcquote _ ih =>
    rw [cons_append, afterString?.eq_4 _ _ _ (by simp [hc]) (by simp [hc])]
    simpa [hcquote] using ih

/-- Scanning a line takes its marks one by one. -/
theorem view_scanLine {dialect : Dialect} {previous : Option Char} {cs : List Char}
    (h : Lexes dialect previous cs marks) (line : Nat) (state : State) :
    (scanLine dialect line state previous cs).view = state.view.bind (run · marks) := by
  induction h generalizing state with
  | nil => simp [scanLine]
  | comment hnot =>
    rw [scanLine, if_neg (by simpa using hnot)]
    simp
  | lastIndex hperl _ ih =>
    rw [scanLine]
    simpa [hperl] using ih state
  | @string _ quote body rest _ hquote hbody _ ih =>
    have hafter : afterString? quote (body ++ quote :: rest) = some rest :=
      afterString?_of_inside hquote hbody
    simp only [quotes, mem_cons, not_mem_nil, or_false] at hquote
    rcases hquote with rfl | rfl <;>
    · rw [cons_append, scanLine]
      split <;> simp_all
  | openString hquote hbody hlast =>
    have hafter := afterString?_of_open hbody hlast
    simp only [quotes, mem_cons, not_mem_nil, or_false] at hquote
    rcases hquote with rfl | rfl <;>
    · rw [cons_append, scanLine]
      split <;> simp_all [step]
  | escape _ ih =>
    rw [scanLine]
    exact ih state
  | lastEscape => simp [scanLine]
  | @bracket previous c rest marks hc _ ih =>
    have hscan : ∃ next : State, next.view = state.view.bind (step · (.bracket c)) ∧
        scanLine dialect line state previous (c :: rest) =
          scanLine dialect line next (some c) rest := by
      simp only [openers, closers, cons_append, nil_append, mem_cons,
        not_mem_nil, or_false] at hc
      rcases hc with rfl | rfl | rfl | rfl | rfl | rfl
      all_goals rw [scanLine]
      iterate 3 exact ⟨_, view_open state line (by decide), rfl⟩
      iterate 3 exact ⟨_, view_close state line (by decide), rfl⟩
    obtain ⟨next, hnext, hscan⟩ := hscan
    rw [hscan, ih, hnext]
    cases state.view <;> simp
  | plain hc _ ih =>
    simp only [quotes, openers, closers, cons_append, nil_append, mem_cons,
      not_mem_nil, or_false, not_or] at hc
    rw [scanLine]
    · exact ih state
    all_goals simp_all

/-- A text after a quote ends its string, or leaves it open. -/
theorem exists_inside (quote : Char) (cs : List Char) :
    ∃ body last, Inside quote body ∧ cs = body ++ last ∧
      (afterString? quote cs).elim (last = [] ∨ last = ['\\']) (last = quote :: ·) := by
  fun_induction afterString? quote cs with
  | case1 => exact ⟨[], [], .nil, rfl, .inl rfl⟩
  | case2 c rest ih =>
    obtain ⟨body, last, hbody, heq, hlast⟩ := ih
    exact ⟨_, last, hbody.escape, congrArg (_ :: c :: ·) heq, hlast⟩
  | case3 => exact ⟨[], ['\\'], .nil, rfl, .inr rfl⟩
  | case4 c cs _ _ hc => exact ⟨[], _, .nil, rfl, congrArg (· :: cs) (beq_iff_eq.1 hc)⟩
  | case5 c cs hescape hend hc ih =>
    have hne : c ≠ '\\' := by
      rintro rfl
      cases cs with
      | nil => exact hend rfl rfl
      | cons first more => exact hescape first more rfl rfl
    obtain ⟨body, last, hbody, heq, hlast⟩ := ih
    exact ⟨_, last, .plain hne (by simpa using hc) hbody, congrArg (c :: ·) heq, hlast⟩

variable (dialect : Dialect)

theorem exists_lexes (previous : Option Char) (cs : List Char) :
    ∃ marks, Lexes dialect previous cs marks := by
  induction hlength : cs.length using Nat.strongRecOn generalizing previous cs with
  | ind length ih =>
  have hrest (previous : Option Char) (rest : List Char) (h : rest.length < length) :
      ∃ marks, Lexes dialect previous rest marks := ih _ h previous rest rfl
  rcases cs with _ | ⟨c, rest⟩
  · exact ⟨[], .nil⟩
  obtain ⟨marks, hmarks⟩ := hrest (some c) rest (by simp [← hlength])
  by_cases hbracket : c ∈ openers ++ closers
  · exact ⟨_, .bracket hbracket hmarks⟩
  by_cases hquote : c ∈ quotes
  · obtain ⟨body, last, hbody, rfl, hlast⟩ := exists_inside c rest
    cases hafter : afterString? c (body ++ last) with rw [hafter] at hlast
    | none => exact ⟨_, .openString hquote hbody hlast⟩
    | some after =>
      have hshorter := length_afterString? hafter
      subst hlast
      rw [length_cons] at hlength
      obtain ⟨marks, hmarks⟩ := hrest (some c) after (by omega)
      exact ⟨_, .string hquote hbody hmarks⟩
  by_cases hsharp : c = '#'
  · subst hsharp
    by_cases hindex : dialect = .perl ∧ previous = some '$'
    · rw [hindex.2]
      exact ⟨_, .lastIndex hindex.1 hmarks⟩
    · exact ⟨_, .comment hindex⟩
  by_cases hescape : c = '\\'
  · subst hescape
    rcases rest with _ | ⟨hidden, rest⟩
    · exact ⟨_, .lastEscape⟩
    · rw [length_cons, length_cons] at hlength
      obtain ⟨marks, hmarks⟩ := hrest (some hidden) rest (by omega)
      exact ⟨_, .escape hmarks⟩
  exact ⟨_, .plain (by simp_all) hmarks⟩

/-! ## All lines -/

theorem endsCode_iff (line : List Char) : endsCode dialect line = true ↔ Ends dialect line := by
  simp [endsCode, Ends]

theorem startsDocumentation_iff (line : List Char) :
    startsDocumentation dialect line = true ↔ Documents dialect line := by
  unfold startsDocumentation Documents
  split <;> simp_all

theorem endsDocumentation_iff (line : List Char) :
    endsDocumentation dialect line = true ↔ Resumes dialect line := by
  cases dialect <;> simp [endsDocumentation, Resumes]

theorem not_ends_of_documents {dialect : Dialect} {line : List Char}
    (h : Documents dialect line) : ¬ Ends dialect line := by
  rintro ⟨rfl, hends⟩
  obtain ⟨-, c, rest, rfl, -⟩ | ⟨hruby, -⟩ := h
  · simp at hends
  · cases hruby

theorem scanLines_documentation {dialect : Dialect} {first : List Char} {inner : List (List Char)}
    (hfirst : Documents dialect first) (hinner : ∀ line ∈ inner, ¬ Resumes dialect line)
    (number : Nat) (state : State) (lines : List (List Char)) :
    scanLines dialect number false state (first :: inner ++ lines) =
      scanLines dialect (number + 1 + inner.length) true state lines := by
  have hends := not_ends_of_documents hfirst
  rw [← endsCode_iff, Bool.not_eq_true] at hends
  rw [← startsDocumentation_iff] at hfirst
  rw [cons_append, scanLines, if_neg (by decide), hends, if_neg (by decide), hfirst, if_pos rfl]
  induction inner generalizing number with
  | nil => rfl
  | cons line inner ih =>
    rw [forall_mem_cons, ← endsDocumentation_iff, Bool.not_eq_true] at hinner
    rw [cons_append, scanLines, if_pos rfl, hinner.1, Bool.not_false, ih hinner.2,
      length_cons, Nat.add_right_comm (number + 1), Nat.add_assoc]

theorem view_scanLines {dialect : Dialect} {lines : List (List Char)}
    (h : Reads dialect lines marks) (number : Nat) (state : State) :
    (scanLines dialect number false state lines).view = state.view.bind (run · marks) := by
  induction h generalizing number state with
  | nil => simp [scanLines]
  | code hends hdocuments hline _ ih =>
    rw [← endsCode_iff, Bool.not_eq_true] at hends
    rw [← startsDocumentation_iff, Bool.not_eq_true] at hdocuments
    simp only [scanLines, hends, hdocuments, Bool.false_eq_true, if_false]
    rw [ih, view_scanLine hline]
    cases state.view <;> simp
  | ended hends =>
    rw [← endsCode_iff] at hends
    simp [scanLines, hends]
  | documentation hfirst hinner hlast _ ih =>
    rw [← endsDocumentation_iff] at hlast
    rw [scanLines_documentation hfirst hinner, scanLines, if_pos rfl, hlast, Bool.not_true, ih]
  | @openDocumentation first inner hfirst hinner =>
    have hscan := scanLines_documentation hfirst hinner number state []
    rw [append_nil] at hscan
    rw [hscan, scanLines]
    simp

theorem exists_reads (lines : List (List Char)) : ∃ marks, Reads dialect lines marks := by
  induction hlength : lines.length using Nat.strongRecOn generalizing lines with
  | ind length ih =>
  have hrest (rest : List (List Char)) (h : rest.length < length) :
      ∃ marks, Reads dialect rest marks := ih _ h rest rfl
  rcases lines with _ | ⟨line, lines⟩
  · exact ⟨[], .nil⟩
  by_cases hends : Ends dialect line
  · exact ⟨_, .ended hends⟩
  rw [length_cons] at hlength
  by_cases hdocuments : Documents dialect line
  · -- Documentation goes on to the first line that ends it.
    have hinner (other : List Char) (h : other ∈ lines.takeWhile (!endsDocumentation dialect ·)) :
        ¬ Resumes dialect other := by
      have hgoes := all_eq_true.1 all_takeWhile other h
      simpa [← endsDocumentation_iff] using hgoes
    have hparts := takeWhile_append_dropWhile (p := (!endsDocumentation dialect ·)) (l := lines)
    have hshorter := congrArg List.length hparts
    cases hlast : lines.dropWhile (!endsDocumentation dialect ·) with
    | nil =>
      rw [hlast, append_nil] at hparts
      rw [hparts] at hinner
      exact ⟨_, .openDocumentation hdocuments hinner⟩
    | cons last more =>
      rw [hlast] at hparts hshorter
      simp only [length_append, length_cons] at hshorter
      obtain ⟨marks, hmarks⟩ := hrest more (by omega)
      have hresumes : Resumes dialect last := by
        have hsome : lines.dropWhile (!endsDocumentation dialect ·) ≠ [] := by simp [hlast]
        have hstops := head_dropWhile_not (!endsDocumentation dialect ·) hsome
        simpa [hlast, endsDocumentation_iff] using hstops
      rw [← hparts]
      exact ⟨_, .documentation hdocuments hinner hresumes hmarks⟩
  · obtain ⟨first, hfirst⟩ := exists_lexes dialect none line
    obtain ⟨marks, hmarks⟩ := hrest lines (by omega)
    exact ⟨_, .code hends hdocuments hfirst hmarks⟩

/-! ## The grammar -/

/-- Brackets that close all open ones, the innermost first, and nest well in between. -/
def Completes : List Char → List Char → Prop
  | [], s => WellNested s
  | opening :: stack, s => ∃ inner rest, WellNested inner ∧ s = inner ++ closerOf opening :: rest ∧
      Completes stack rest

theorem Completes.append {t : List Char} (hs : WellNested s) (ht : Completes stack t) :
    Completes stack (s ++ t) := by
  cases stack with
  | nil => exact hs.append ht
  | cons opening stack =>
    obtain ⟨inner, rest, hinner, rfl, hrest⟩ := ht
    exact ⟨s ++ inner, rest, hs.append hinner, by simp, hrest⟩

theorem WellNested.enclosed (hc : c ∈ openers) (hs : WellNested s) :
    WellNested (c :: s ++ [closerOf c]) := by
  simp only [openers, mem_cons, not_mem_nil, or_false] at hc
  rcases hc with rfl | rfl | rfl
  · exact hs.round
  · exact hs.square
  · exact hs.curly

theorem closerOf_not_mem_openers (c : Char) : closerOf c ∉ openers := by
  unfold closerOf
  split <;> decide

theorem run_enclosed (hc : c ∈ openers)
    (hs : ∀ stack, run stack (s.map .bracket) = some stack) (stack : List Char) :
    run stack ((c :: s ++ [closerOf c]).map .bracket) = some stack := by
  simp [step, hc, hs, closerOf_not_mem_openers]

theorem run_of_wellNested (h : WellNested s) (stack : List Char) :
    run stack (s.map .bracket) = some stack := by
  induction h generalizing stack with
  | nil => rfl
  | append _ _ ih ih' => simp [ih, ih']
  | round _ ih | square _ ih | curly _ ih => exact run_enclosed (by decide) ih stack

theorem completes_of_run (h : run stack (s.map .bracket) = some []) : Completes stack s := by
  induction s generalizing stack with
  | nil =>
    cases h
    exact .nil
  | cons c s ih =>
    rw [map_cons, run_cons, step.eq_def] at h
    dsimp only at h
    split at h
    · rename_i hopener
      obtain ⟨inner, rest, hinner, rfl, hrest⟩ := ih h
      have henclosed := Completes.append (hinner.enclosed hopener) hrest
      simpa using henclosed
    · rcases stack with _ | ⟨opening, stack⟩
      · cases h
      · dsimp only at h
        split at h
        · rename_i hcloses
          exact ⟨[], s, .nil, by rw [hcloses]; rfl, ih h⟩
        · cases h

/-- **The machine accepts what the grammar makes.** -/
theorem run_eq_nil_iff (s : List Char) : run [] (s.map .bracket) = some [] ↔ WellNested s :=
  ⟨completes_of_run, fun h => run_of_wellNested h []⟩

theorem run_eq_some_iff {after : List Char} : run stack marks = some after ↔
      .openString ∉ marks ∧ run stack ((bracketsIn marks).map .bracket) = some after := by
  induction marks generalizing stack with
  | nil => simp [bracketsIn]
  | cons mark marks ih =>
    cases mark with
    | openString => simp [step]
    | bracket c =>
      rw [run_cons]
      cases hstep : step stack (.bracket c) with
      | none => simp [bracketsIn, hstep]
      | some next => simpa [bracketsIn, hstep] using ih

theorem scan_eq_nil (code : String) : scan dialect code = [] ↔
    (scanLines dialect 1 false .start (Text.lineChars code.toList)).view = some [] := by
  generalize hstate : scanLines dialect 1 false .start (Text.lineChars code.toList) = state
  simp only [scan, problems, hstate, map_eq_nil_iff, append_eq_nil_iff, view,
    reverse_eq_nil_iff]
  split <;> simp_all

/-- **The check is exact.** Every text can be read, and the check finds no problem exactly if no string
is left open at the end of its line and the brackets are well nested. -/
theorem scan_eq_nil_iff (dialect : Dialect) (code : String) :
    (∃ marks, Reads dialect (Text.lineChars code.toList) marks) ∧
      ∀ marks, Reads dialect (Text.lineChars code.toList) marks →
        (scan dialect code = [] ↔ .openString ∉ marks ∧ WellNested (bracketsIn marks)) := by
  refine ⟨exists_reads dialect _, fun marks hmarks => ?_⟩
  rw [scan_eq_nil, view_scanLines hmarks, ← run_eq_nil_iff, ← run_eq_some_iff]
  rfl

end Scriptgen.Brackets
