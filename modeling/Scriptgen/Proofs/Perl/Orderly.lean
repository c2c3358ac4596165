import Scriptgen.Proofs.Perl.TwinPrograms
/-!
# Lowering to Perl is orderly

Whatever the node and the state, lowering leaves the state as it was but for what `Changes` lists.
Expressions leave the scopes as well, and their code does not return from the sub around it. Both is
read off the walk that goes with two runs, for a policy that allows everything. Main result:
`lowering_restores_state`.
-/

namespace Scriptgen.Perl

open Lowering Fitting Returning

variable {α : Type} {b : Below} {c : Context} {silent calm : Bool}

/-- Every node may be lowered, and every construct is allowed. -/
def anywhere (silent calm : Bool) : Policy where
  types := true
  warnings := true
  node _ := True
  choices _ := True
  before _ _ := True
  allows _ := True
  silent := silent
  calm := calm

instance : (anywhere silent calm).Lawful := by constructor <;> intros <;> trivial

instance : (anywhere false calm).Vocal := ⟨rfl⟩

instance : (anywhere silent false).Free := ⟨rfl⟩

section Fits

@[grind .]
theorem fits_node (node : Node) : Fits (anywhere silent calm) node := trivial

@[grind .]
theorem fits_node? (node : Option Node) : Fits (anywhere silent calm) node := fun _ _ => trivial

@[grind .]
theorem fits_nodes (nodes : List Node) : Fits (anywhere silent calm) nodes := fun _ _ => trivial

@[grind .]
theorem fits_fields (fields : List (String × Option Node)) : Fits (anywhere silent calm) fields :=
  fun _ _ => ⟨trivial, fun _ _ => trivial⟩

@[grind .]
theorem fits_kind (kind : SubKind) : Fits (anywhere silent calm) kind := by
  cases kind with
  | constructor hasBase fields => exact fits_fields fields
  | _ => trivial

end Fits

/-- What is known of the level below. -/
abbrev Sound (b : Below) : Prop := b.Makes (anywhere true true)

theorem sound_level (height : Nat) : Sound (level height) := makes_level _ height

def order : Order Below State := ⟨Sound, Changes, .refl, .trans⟩

/-- **A step makes no other changes**, if the level below makes none. -/
abbrev Orderly (x : Lower α) : Prop := OrderlyStep order x

variable {x : Lower α}

section Makes

variable [Twinned α] [Fitting Policy α]

@[grind ←]
theorem Orderly.of_makes (hx : Same (anywhere false false) True x) : Orderly x :=
  fun b hb c s => ((hx b hb).leads c s).changes

theorem scopes_of_makes (hx : Same (anywhere true true) True x) (hb : Sound b)
    (c : Context) (s : State) : (x b c s).2.scopes = s.scopes := ((hx b hb).leads c s).scopes rfl

end Makes

theorem Orderly.atPlace {enter : Place → Place} {leave : Place → Place → Place}
    (hkept : ∀ p q, (enter p).Kept q → p.Kept (leave p q)) (hx : Orderly x) :
    Orderly (atPlace enter leave x) := fun b hb c _ => .atPlace (hx b hb c _) (hkept _ _)

@[grind ←]
theorem orderly_constructorOf (parts : ClassParts) (hasBase : Bool) :
    Orderly (constructorOf parts hasBase) := by
  unfold constructorOf
  split
  · exact .of_makes (makes_lowerFunction "new" (fun _ => fits_node _) fun _ => fits_fields _)
  · exact .of_makes (makes_defaultConstructor hasBase fun _ => fits_fields _)

/-! ## What is left of lowering in the state -/

/-- A state at a later point, as lowering leaves it: the scopes around the innermost one are the
same, and that one has only got new names. The constructs around the place are the same but for labels,
the waiting initializers wait or are taken, the place is the same, and the rest is only added to. -/
structure Restored (before after : State) : Prop where
  scopes : before.scopes.Grows after.scopes
  frames : List.Forall₂ Labels before.frames after.frames
  pendingFields : after.pendingFields = before.pendingFields ∨ after.pendingFields = none
  place : before.place.Kept after.place
  warnings : before.warnings.entries <+: after.warnings.entries
  imports : before.imports.Grows after.imports
  names : before.names.used ≤ after.names.used

theorem Changes.restored {s t : State} (h : Changes s t) : Restored s t :=
  ⟨h.grows, h.labels, h.pendingFields, h.place, h.warnings.2, h.imports, h.names⟩

/-- At every level, a step leaves a restored state. -/
def Restoring (x : Lower α) : Prop := ∀ height c s, Restored s (x (level height) c s).2

theorem Orderly.restoring (hx : Orderly x) : Restoring x :=
  fun height c s => (hx (level height) (sound_level height) c s).restored

/-- **Lowering leaves its state in order**, whatever node it is given and whatever the state is:
statements, expressions and functions restore the state. -/
theorem lowering_restores_state (label : Option String) (name : String) (node : Node)
    (kind : SubKind) :
    Restoring (lowerStmt label node) ∧ Restoring (stmt node) ∧ Restoring (lowerExpr node).run ∧
      Restoring (lowerFunction name node kind) :=
  ⟨(Orderly.of_makes (makes_lowerStmt (fun _ => fits_node node) label)).restoring,
    (Orderly.of_makes (makes_stmt fun _ => fits_node node)).restoring,
    (Orderly.of_makes (makesTry_lowerExpr fun _ => fits_node node)).restoring,
    (Orderly.of_makes (makes_lowerFunction name (fun _ => fits_node node) fun _ =>
      fits_kind kind)).restoring⟩

end Scriptgen.Perl
