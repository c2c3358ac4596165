import Scriptgen.Proofs.Perl.Blanks
import Scriptgen.Proofs.Ruby.Blanks
/-!
# What a layout can change

The texts of a file under two layouts of blanks are equal once all blanks are deleted
(`layout_moves_only_blanks`). For Ruby the line endings have to have a line feed, as the printer
looks for line feeds when it chooses the form of a block.
-/

namespace Scriptgen

open Text

/-- Layouts change only where blanks are. -/
theorem layout_moves_only_blanks :
    (∀ (module : Perl.Module) (l l' : BlankLayout),
      ink (module.print l) = ink (module.print l')) ∧
    ∀ (module : Ruby.Module) (l l' : LinedLayout),
      ink (module.print l) = ink (module.print l') :=
  ⟨fun module _ _ => module.ink_print, fun module _ _ => module.ink_print⟩

end Scriptgen
