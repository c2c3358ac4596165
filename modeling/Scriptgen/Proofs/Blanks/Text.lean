import Scriptgen.Remarks
/-!
# Texts without their blanks

`ink` is what is left of a text when all blanks are deleted. A layout is blank if it only ever adds
blanks (`BlankLayout`), and the printers of both targets are compared under two such layouts.
-/

namespace Scriptgen

open List

namespace Text

/-- The characters of a text that are not blank. -/
def ink (text : String) : List Char := text.toList.filter fun c => !isBlank c

theorem ink_eq_nil_iff {text : String} : ink text = [] ↔ ∀ c ∈ text.toList, isBlank c := by
  simp [ink]

theorem ink_append (a b : String) : ink (a ++ b) = ink a ++ ink b := by
  rw [ink, String.toList_append, filter_append, ink, ink]

theorem filter_dropEndWhile {α : Type} (p : α → Bool) (l : List α) :
    (dropEndWhile p l).filter (fun a => !p a) = l.filter fun a => !p a := by
  have hstart (l : List α) :
      (l.dropWhile p).filter (fun a => !p a) = l.filter fun a => !p a := by
    induction l with
    | nil => rfl
    | cons a l ih => cases ha : p a <;> simp [ha, ih]
  rw [dropEndWhile, filter_reverse, hstart, filter_reverse, reverse_reverse]

theorem ink_trimEnd (text : String) : ink (trimEnd text) = ink text := by
  rw [ink, trimEnd, String.toList_ofList, filter_dropEndWhile, ink]

theorem ink_join (l : List String) : ink (String.join l) = l.flatMap ink := by
  induction l with
  | nil => rfl
  | cons a l ih => rw [String.join_cons, ink_append, ih, flatMap_cons]

theorem ink_intercalate {separator : String} (h : ink separator = []) :
    (l : List String) → ink (String.intercalate separator l) = l.flatMap ink
  | [] => rfl
  | [a] => by simp
  | a :: b :: l => by
    rw [String.intercalate_cons_cons, ink_append, ink_append, h, ink_intercalate h (b :: l),
      append_nil, ← flatMap_cons]

end Text

open Text

/-- A layout that puts nothing but blanks around the parts of a program. -/
structure BlankLayout extends Layout where
  indent_blank : ∀ c ∈ indent.toList, isBlank c
  lineEnding_blank : ∀ c ∈ lineEnding.toList, isBlank c

namespace BlankLayout

instance : Coe BlankLayout Layout := ⟨toLayout⟩

variable {l : BlankLayout}

theorem ink_lineEnding : ink l.lineEnding = [] :=
  ink_eq_nil_iff.2 l.lineEnding_blank

theorem ink_pad (depth : Nat) : ink (l.pad depth) = [] := by
  simp [Layout.pad, ink_join, ink_eq_nil_iff.2 l.indent_blank]

theorem ink_line (depth : Nat) (text : String) : ink (l.line depth text) = ink text := by
  rw [Layout.line, ink_append, ink_append, ink_pad, ink_lineEnding, nil_append,
    append_nil]

end BlankLayout

open BlankLayout

variable {l k : BlankLayout}

theorem ink_optionalLine (d d' : Nat) (text : Option String) (mark : String) :
    ink ((text.map fun text => l.line d (mark ++ text)).getD "") =
      ink ((text.map fun text => k.line d' (mark ++ text)).getD "") := by
  cases text with
  | none => rfl
  | some text => simp only [Option.map_some, Option.getD_some, ink_line]

theorem Comment.ink_print (d d' : Nat) (comment : Comment) :
    ink (comment.print l d) = ink (comment.print k d') := by
  have hline : (fun line => ink (if (comment.bare line).isEmpty then
        if comment.block then "" else l.line d "#" else l.line d ("# " ++ comment.bare line))) =
      fun line => ink (if (comment.bare line).isEmpty then
        if comment.block then "" else k.line d' "#" else k.line d' ("# " ++ comment.bare line)) := by
    funext line
    simp only [apply_ite ink, ink_line]
  simp only [Comment.print, ink_join, flatMap_map, hline]

theorem Remarks.ink_print (d d' : Nat) (remarks : Remarks) :
    ink (remarks.print l d) = ink (remarks.print k d') := by
  simp only [Remarks.print, ink_join, flatMap_map, Comment.ink_print d d' (l := l) (k := k)]

end Scriptgen
