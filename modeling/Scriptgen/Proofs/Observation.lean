import Scriptgen.Proofs.Perl.TwinPrograms
import Scriptgen.Proofs.Ruby.Orderly
import Scriptgen.Target
/-!
# Warnings only observe

Warnings are noted on the way and never read. A run that keeps none fails if the one that keeps them
fails, and otherwise gives the same code and dependencies (`Target.generate_strictInput`).
-/

namespace Scriptgen

namespace Perl

/-- The other run keeps all types and no warnings, and nothing is asked of the code. -/
def muting : Policy where
  types := true
  warnings := false
  node _ := True
  choices _ := True
  before _ _ := True
  allows _ := True

instance : muting.Lawful := by constructor <;> intros <;> trivial

instance : muting.Vocal := ⟨rfl⟩

instance : muting.Free := ⟨rfl⟩

theorem twin_muting_stmts (stmts : List Stmt) : twin muting stmts = stmts := by
  have hstmt (stmt : Stmt) : twin muting stmt = stmt := stmt.retype_true
  rw [twin_list, funext hstmt, List.map_id']

def State.muted (s : State) : State := { s with warnings := .empty false }

theorem twin_muting_state (s : State) : twin muting s = s.muted := by
  have hfields : twin muting s.pendingFields = s.pendingFields := by
    cases s.pendingFields <;> simp only [twin_option, twin_muting_stmts]
  change { s with warnings := .empty false, pendingFields := twin muting s.pendingFields } = s.muted
  rw [hfields]
  rfl

theorem lowerProgram_muted (options : Options) (program : Node) :
    lowerProgram { options with strictInput := false } program =
      (lowerProgram options program).map id State.muted := by
  have htwin := lowerProgram_twin muting options program
  rw [twin_muting_stmts, twin_muting_state] at htwin
  exact htwin

theorem generate_muted (options : Options) (program : Node) :
    generate { options with strictInput := false } program =
      (generate options program).map id State.muted := by
  unfold generate
  rw [lowerProgram_muted]
  cases lowerProgram options program
  rfl

end Perl

theorem Ruby.generate_muted (options : Options) (program : Node) :
    Ruby.generate { options with strictInput := false } program =
      (Ruby.generate options program).map id State.muted := by
  unfold generate
  rw [lowerProgram_muted]
  cases lowerProgram options program
  rfl

def Generated.muted (generated : Generated) : Generated := { generated with warnings := [] }

/-- **Without warnings the rest is the same.** -/
theorem Target.generate_muted (target : Target) (options : Options) (ast : Json) :
    target.generate { options with strictInput := false } ast =
      (target.generate options ast).map Generated.muted := by
  unfold Target.generate
  cases programRoot ast with
  | error error => rfl
  | ok program =>
    cases target with
    | perl =>
      dsimp only [bind, Except.bind]
      rw [Perl.generate_muted]
      cases Perl.generate options program
      rfl
    | ruby =>
      dsimp only [bind, Except.bind]
      rw [Ruby.generate_muted]
      cases Ruby.generate options program
      rfl

/-- **Strict input is observation only.** Whether warnings are asked for decides neither over success
nor over the error, the code or the dependencies. A run that is not asked for warnings has none. -/
theorem Target.generate_strictInput (target : Target) (options : Options) (strict : Bool) (ast : Json) :
    (target.generate { options with strictInput := strict } ast).map
        (fun generated => (generated.code, generated.dependencies)) =
      (target.generate options ast).map
        (fun generated => (generated.code, generated.dependencies)) ∧
    (target.generate { options with strictInput := false } ast).map Generated.warnings =
      (target.generate options ast).map fun _ => [] := by
  have hmuted := target.generate_muted options ast
  have hsame : (target.generate { options with strictInput := strict } ast).map Generated.muted =
      (target.generate options ast).map Generated.muted :=
    (target.generate_muted { options with strictInput := strict } ast).symm.trans hmuted
  have hforget (result : Except RootError Generated) :
      (result.map Generated.muted).map (fun generated => (generated.code, generated.dependencies)) =
        result.map (fun generated => (generated.code, generated.dependencies)) := by
    cases result <;> rfl
  constructor
  · rw [← hforget, hsame, hforget]
  · rw [hmuted]
    cases target.generate options ast <;> rfl

end Scriptgen
