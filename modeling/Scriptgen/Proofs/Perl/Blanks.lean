import Scriptgen.Proofs.Perl.Emission
/-!
# The layout of Perl programs

Under two blank layouts, of any brace styles, each step of what is written for a Perl program adds
the same characters between its blanks.
-/

namespace Scriptgen.Perl

open Text BlankLayout

section Braces

variable {l : BlankLayout} (d : Nat)

theorem ink_openBrace : ink (openBrace l d) = ['\x7b'] := by
  unfold openBrace
  split
  · rw [ink_append, ink_lineEnding]
    rfl
  · rw [ink_append, ink_lineEnding, ink_line]
    rfl

theorem ink_closing : ink (closing l d) = ['\x7d'] := by
  unfold closing closeBrace
  split
  · rw [ink_append, ink_trimEnd, ink_line]
    rfl
  · rw [ink_append, ink_line, ink_pad]
    rfl

theorem ink_gap (what : String) : ink (gap l d what) = ink ("# ERROR: unsupported " ++ what) := by
  unfold gap
  rw [ink_append, ink_append, ink_pad, ink_lineEnding, List.append_nil, List.append_nil]

end Braces

theorem Emission.ink_render {l k : BlankLayout} {inline : Bool} (a : Emission inline) (d d' : Nat) :
    ink (a.render l d) = ink (a.render k d') := by
  induction a generalizing d d' with
  | done | text => rfl
  | blank => simp only [render, ink_lineEnding]
  | note => simp only [render, ink_line]
  | gap | lost => simp only [render, ink_append, ink_trimEnd, ink_pad, ink_gap, ink_lineEnding]
  | seq first second ih ih' => simp only [render, ink_append, ih d d', ih' d d']
  | trimmed lead h rest ih => simp only [render, ink_trimEnd, ink_append, ih d d']
  | line text ih => simp only [render, ink_line, ih d d']
  | block head body ih =>
    simp only [render, ink_append, ink_lineEnding, ink_pad, ih (d + 1) (d' + 1)]
  | deeper body ih => exact ih (d + 1) (d' + 1)
  | opening header body ih ih' | clause header body ih ih' =>
    simp only [render, ink_append, ink_pad, ink_closing, ink_openBrace, ih d d',
      ih' (d + 1) (d' + 1)]

theorem Module.ink_print {l k : BlankLayout} (module : Module) :
    ink (module.print l) = ink (module.print k) := by
  rw [← module.render_write, ← module.render_write]
  exact module.write.ink_render 0 0

/-! ## The end of a chain of tests -/

/-- Whether the last branch of an `if` statement is only another one without comments, which
continues the chain. -/
def continuesChain : List Stmt → Bool
  | [⟨.ifElse .., ⟨_, []⟩⟩] => true
  | _ => false

theorem printElse_of_not_continues (l : Layout) (d : Nat) (before : String) {body : List Stmt}
    (hbody : continuesChain body = false) :
    printElse l d before (some body) =
      chainClause l d before "else" ++ printStmts l (d + 1) body ++ closeBrace l d := by
  unfold printElse
  split
  · contradiction
  · rename_i heq
    cases heq
    cases hbody
  · rename_i heq
    cases heq
    rfl

end Scriptgen.Perl
