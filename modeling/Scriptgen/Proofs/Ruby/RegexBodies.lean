import Scriptgen.Ruby.Print
import Scriptgen.Ruby.Texts
/-!
# What stands between the slashes of a regular expression in Ruby

Ruby interpolates in a regular expression as in a string: `#` opens an interpolation before a brace,
an at sign or a dollar sign, unless a backslash precedes it (`freeChars`). `regexBody` escapes the
slashes and the opener `#\x7b`, but neither `#@` nor `#$`: `regexLiteral_interpolates_iff`.
-/

namespace Scriptgen.Ruby

open List

/-- The characters of a text that no backslash precedes, each with the character behind it. -/
def freeChars : List Char → List (Char × Option Char)
  | [] => []
  | '\\' :: _ :: rest => freeChars rest
  | c :: rest => (c, rest.head?) :: freeChars rest

/-- A character is free where the text before it has been passed. -/
theorem freeChars_cons {c : Char} {rest : List Char} (h : c = '\\' → rest = []) :
    freeChars (c :: rest) = (c, rest.head?) :: freeChars rest := by
  rw [freeChars]
  rintro d rest' rfl rfl
  cases h rfl

/-- Whether a text has an opener of an interpolation. -/
def Interpolates (text : List Char) : Prop :=
  ∃ opener ∈ ['\x7b', '@', '$'], ('#', some opener) ∈ freeChars text

/-- A text is another one with backslashes put in. -/
inductive Inserted : List Char → List Char → Prop
  | nil : Inserted [] []
  | keep (c : Char) {text more : List Char} (h : Inserted text more) :
    Inserted (c :: text) (c :: more)
  | insert {text more : List Char} (h : Inserted text more) : Inserted text ('\\' :: more)

theorem inserted_regexBody (text : List Char) : Inserted text (regexBody text) := by
  fun_induction regexBody text with
  | case1 => exact .nil
  | case2 c rest ih => exact .keep _ (.keep _ ih)
  | case3 rest ih | case4 rest ih => exact .insert (.keep _ ih)
  | case5 c rest _ _ _ ih => exact .keep _ ih

theorem slash_not_free (text : List Char) (next : Option Char) :
    ('/', next) ∉ freeChars (regexBody text) := by
  fun_induction regexBody text with
  | case1 => simp [freeChars]
  | case2 c rest ih | case3 rest ih | case4 rest ih => simpa [freeChars] using ih
  | case5 c rest hescape hslash _ ih =>
    rw [freeChars_cons fun hc => by cases rest <;> grind [regexBody], mem_cons]
    grind

variable {next : Char}

theorem head?_regexBody (h : next ≠ '\\' ∧ next ≠ '/' ∧ next ≠ '#')
    (text : List Char) : (regexBody text).head? = some next ↔ text.head? = some next := by
  fun_cases regexBody text <;> grind

/-- Escaping takes the opener `#\x7b` away, and no other. -/
theorem hash_free_regexBody (h : next ≠ '\\' ∧ next ≠ '/' ∧ next ≠ '#')
    (text : List Char) : ('#', some next) ∈ freeChars (regexBody text) ↔
      ('#', some next) ∈ freeChars text ∧ next ≠ '\x7b' := by
  fun_induction regexBody text with
  | case1 => simp [freeChars]
  | case2 c rest ih => simpa [freeChars] using ih
  | case3 rest ih => simpa [freeChars, freeChars_cons] using ih
  | case4 rest ih =>
    rw [freeChars, ih, freeChars_cons (c := '#') (by simp), mem_cons]
    grind
  | case5 c rest hescape hslash hhash ih =>
    have hrest (hc : c = '\\') : rest = [] := by cases rest <;> grind
    have hopener (hc : c = '#') : rest.head? ≠ some '\x7b' := by
      intro hhead
      obtain ⟨rest', rfl⟩ := head?_eq_some_iff.1 hhead
      exact hhash rest' hc rfl
    rw [freeChars_cons fun hc => by rw [hrest hc, regexBody], freeChars_cons hrest, mem_cons,
      mem_cons, ih]
    have := head?_regexBody h rest
    grind

/-- The pattern that a literal has in the tree. Without the flag `m`, its anchors are those of the
whole text. -/
def treePattern (source flags : String) : List Char :=
  if 'm' ∈ flags.toList then source.toList else wholeTextAnchors false source.toList

/-- **What a regular expression interpolates.** Its body is the pattern in the tree with backslashes
put in, and holds no free slash. It opens an interpolation exactly if the pattern in the tree has a
free `#` before an at sign or a dollar sign. -/
theorem regexLiteral_interpolates_iff (source flags : String) (layout : Layout) (depth : Nat) :
    ∃ marks body,
      regexLiteral source flags = .regex (String.ofList (treePattern source flags)) marks ∧
      (regexLiteral source flags).print layout depth = "/" ++ String.ofList body ++ "/" ++ marks ∧
      Inserted (treePattern source flags) body ∧ (∀ next, ('/', next) ∉ freeChars body) ∧
      (Interpolates body ↔
        ∃ opener ∈ ['@', '$'], ('#', some opener) ∈ freeChars (treePattern source flags)) := by
  have hliteral : regexLiteral source flags = .regex (String.ofList (treePattern source flags))
      (String.ofList (flags.toList.filterMap rubyFlag?)) := by
    unfold regexLiteral treePattern
    split <;> simp_all
  refine ⟨_, regexBody (treePattern source flags), hliteral, ?_, inserted_regexBody _,
    slash_not_free _, ?_⟩
  · rw [hliteral, Expr.print, String.toList_ofList]
  · simp only [Interpolates, mem_cons, not_mem_nil, or_false, exists_eq_or_imp,
      exists_eq_left]
    rw [hash_free_regexBody (by decide), hash_free_regexBody (by decide),
      hash_free_regexBody (by decide)]
    grind

/-- An instance variable is interpolated. -/
theorem atSign_interpolates : ∃ body,
    (regexLiteral "#@a" "").print (.withIndent "  ") 0 = "/" ++ String.ofList body ++ "/" ∧
      Interpolates body :=
  ⟨"#@a".toList, by rw [regexLiteral, Expr.print]; decide, '@', by decide, by decide⟩

end Scriptgen.Ruby
