import Scriptgen.Proofs.Perl.TwinPrograms
import Scriptgen.Proofs.Perl.TypeNotes
import Scriptgen.Target
/-!
# Type annotations

Two runs that differ only in type annotations have the same warnings and dependencies, and their
trees are equal but for the types (`generate_untyped`). So the texts have the same lines of code,
unless a comment contains a line feed (`typeAnnotations_iff`).
-/

namespace Scriptgen.Perl

open Text Options

/-- The other run keeps no types and all warnings, and nothing is asked of the code. -/
def untyping : Policy where
  types := false
  warnings := true
  node _ := True
  choices _ := True
  before _ _ := True
  allows _ := True

instance : untyping.Lawful := by constructor <;> intros <;> trivial

instance : untyping.Vocal := ⟨rfl⟩

instance : untyping.Free := ⟨rfl⟩

theorem twin_untyping (stmts : List Stmt) : twin untyping stmts = retypeStmts false stmts := by
  induction stmts with
  | nil => rfl
  | cons stmt rest ih =>
    rw [twin_cons, ih]
    rfl

variable (options : Options) (program : Node)

/-- **Without annotations the tree is the same without its types**, and what else lowering has found
is the same. -/
theorem generate_untyped :
    (generate { options with typeAnnotations := false } program).1 =
        (generate options program).1.untyped ∧
      (generate { options with typeAnnotations := false } program).2.imports =
        (generate options program).2.imports ∧
      (generate { options with typeAnnotations := false } program).2.warnings =
        (generate options program).2.warnings := by
  have htwin : lowerProgram { options with typeAnnotations := false } program = _ :=
    lowerProgram_twin untyping options program
  rw [twin_untyping] at htwin
  unfold generate
  rw [htwin]
  exact ⟨rfl, rfl, rfl⟩

/-- The layout that options ask for, if they only use blanks. -/
def lineLayout (hindent : ∀ indent, options.indent = some indent → ∀ c ∈ indent.toList, c = ' ' ∨ c = '\t')
    (hending : options.lineEnding = "\n" ∨ options.lineEnding = "\r\n") : LineLayout where
  toLayout := Layout.ofOptions options Target.perl.indent
  indent_blank := by
    change ∀ c ∈ (options.indent.getD Target.perl.indent).toList, c = ' ' ∨ c = '\t'
    cases hoption : options.indent with
    | none =>
      intro c hc
      have hblanks : Target.perl.indent.toList = List.replicate 4 ' ' := by decide
      rw [Option.getD_none, hblanks] at hc
      exact .inl (List.eq_of_mem_replicate hc)
    | some indent => exact hindent indent hoption
  lineEnding_breaks := hending

def codeOf : String := (generate options program).1.print (.ofOptions options Target.perl.indent)

/-- **Annotations only add comments.** Whether types are asked for decides neither over the
dependencies nor over the warnings. The texts with and without them have the same lines of code
exactly if no comment that gives a type goes on in a line of code. -/
theorem typeAnnotations_iff
    (hindent : ∀ indent, options.indent = some indent → ∀ c ∈ indent.toList, c = ' ' ∨ c = '\t')
    (hending : options.lineEnding = "\n" ∨ options.lineEnding = "\r\n") :
    (generate { options with typeAnnotations := true } program).2.imports.modules =
        (generate { options with typeAnnotations := false } program).2.imports.modules ∧
      (generate { options with typeAnnotations := true } program).2.warnings.messages =
        (generate { options with typeAnnotations := false } program).2.warnings.messages ∧
      (codeLines (codeOf { options with typeAnnotations := true } program) =
          codeLines (codeOf { options with typeAnnotations := false } program) ↔
        ∀ note ∈ (generate { options with typeAnnotations := true } program).1.typeNotes,
          codeLines ("# " ++ note ++ options.lineEnding) = []) := by
  obtain ⟨hmodule, himports, hwarnings⟩ :=
    generate_untyped { options with typeAnnotations := true } program
  refine ⟨congrArg _ himports.symm, congrArg _ hwarnings.symm, ?_⟩
  unfold codeOf
  rw [hmodule]
  exact Module.codeLines_print_iff _ (l := lineLayout options hindent hending)

/-- A class `A` with a field of this name that starts as one, the name given as a text. -/
def fieldClass (name : String) : Node :=
  .of "Program" [("body", .array [.node "ClassDeclaration" [
    ("id", .node "Identifier" [("name", .string "A")]),
    ("body", .node "ClassBody" [("body", .array
      [.node "PropertyDefinition" [
        ("key", .node "Literal" [("value", .string name)]),
        ("value", .node "Literal" [("value", .number (.integer 1))])]])])]])]

theorem typeAnnotations_iff_field :
    (generate { defaults with typeAnnotations := true } (fieldClass "x")).1.typeNotes =
        ["field x: Int"] ∧
      (codeLines (codeOf { defaults with typeAnnotations := true } (fieldClass "x")) =
          codeLines (codeOf { defaults with typeAnnotations := false } (fieldClass "x")) ↔
        ∀ note ∈ (generate { defaults with typeAnnotations := true }
            (fieldClass "x")).1.typeNotes,
          codeLines ("# " ++ note ++ defaults.lineEnding) = []) :=
  ⟨by decide +kernel, (typeAnnotations_iff .defaults (fieldClass "x") nofun (.inl rfl)).2.2⟩

/-- The comment for a field whose name contains a line feed goes on in a line of code. -/
theorem fieldComment_adds_line :
    codeLines (codeOf { defaults with typeAnnotations := true }
        (fieldClass "x\nprint 1;")) ≠
      codeLines (codeOf { defaults with typeAnnotations := false }
        (fieldClass "x\nprint 1;")) := by
  decide +kernel

end Scriptgen.Perl
