import Scriptgen.Proofs.Scopes
import Scriptgen.Ruby.Generate
/-!
# What lowering to Ruby does to its state

`Changes` lists the few ways in which lowering changes its state. Some of them put other changes in
brackets. What is said about all changes is then said by induction on `Changes`.
-/

namespace Scriptgen.Ruby

inductive Changes (learns : String → Prop) : State → State → Prop
  | refl (s : State) : Changes learns s s
  | trans {s t u : State} : Changes learns s t → Changes learns t u → Changes learns s u
  | warn (s : State) (warning : Warning) :
      Changes learns s { s with warnings := s.warnings.note warning }
  | require (s : State) (library : String) :
      Changes learns s { s with imports := s.imports.require library }
  | draw (s : State) (stem : String) : Changes learns s { s with names := (s.names.fresh stem).2 }
  | declare (s : State) (name : String) (shape : Shape) :
      Changes learns s { s with scopes := s.scopes.declare name shape }
  /-- Something is learned of a variable or an attribute. -/
  | know (s : State) {known : Known} :
      (∀ key, ¬ learns key → known.collections.lookup key = s.known.collections.lookup key) →
      Changes learns s { s with known := known }
  | addFunction (s : State) (name : String) :
      Changes learns s { s with functions := name :: s.functions }
  | addClass (s : State) (name : String) : Changes learns s { s with classes := name :: s.classes }
  | moveClass (s : State) (cls : Stmt) :
      Changes learns s { s with pendingClasses := s.pendingClasses ++ [cls] }
  | setFields (s : State) (fields : Option (List Stmt)) :
      Changes learns s { s with pendingFields := fields }
  /-- A construct gets a tag for the jumps that leave it. -/
  | tagBreak {s : State} {skipped : Nat} {frame : Frame} (stem : String) :
      s.frames[skipped]? = some frame → frame.breakTag = none →
      Changes learns s { s with
        names := (s.names.fresh stem).2
        frames := s.frames.modify skipped fun frame =>
          { frame with breakTag := some (s.names.fresh stem).1 } }
  /-- A construct gets a tag for the jumps that continue it. -/
  | tagNext {s : State} {skipped : Nat} {frame : Frame} (stem : String) :
      s.frames[skipped]? = some frame → frame.nextTag = none →
      Changes learns s { s with
        names := (s.names.fresh stem).2
        frames := s.frames.modify skipped fun frame =>
          { frame with nextTag := some (s.names.fresh stem).1 } }
  | inScope {s t : State} :
      Changes learns { s with scopes := s.scopes.push } t →
      Changes learns s { t with scopes := t.scopes.pop }
  | inFrame {s t : State} {frame : Frame} :
      frame.breakTag = none → frame.nextTag = none →
      Changes learns { s with frames := frame :: s.frames } t →
      Changes learns s { t with frames := t.frames.tail }
  | isolated {s t : State} :
      Changes learns { s with frames := [], pendingFields := none } t →
      Changes learns s { t with
        frames := s.frames
        pendingFields := s.pendingFields
        known := { t.known with numbers := s.known.numbers, texts := s.known.texts } }

namespace Changes

variable {learns : String → Prop} {s t : State}

/-- **What is known of other collections stays.** -/
theorem lookup_collections (h : Changes learns s t) {key : String} (hkey : ¬ learns key) :
    t.known.collections.lookup key = s.known.collections.lookup key := by
  induction h with
  | trans _ _ ih ih' => exact ih'.trans ih
  | know s hknown => exact hknown key hkey
  | inScope _ ih | inFrame _ _ _ ih | isolated _ ih => exact ih
  | _ => rfl

theorem grows (h : Changes learns s t) : s.scopes.Grows t.scopes := by
  induction h with
  | trans _ _ ih ih' => exact ih.trans ih'
  | declare s name shape => exact .declare s.scopes name shape
  | @inScope s t _ ih =>
    change s.scopes.Grows t.scopes.pop
    rw [ih.pop]
    exact .refl _
  | inFrame _ _ _ ih | isolated _ ih => exact ih
  | _ => exact .refl _

end Changes

/-! ## What is known -/

variable {other : String}

section Learning

variable {key : String}

theorem lookup_addCollection (known : Known) (h : other ≠ key) (collection : Option Collection) :
    (known.addCollection key collection).collections.lookup other =
      known.collections.lookup other := by
  cases collection with
  | none => rfl
  | some collection =>
    have hne : (other == key) = false := beq_eq_false_iff_ne.2 h
    rw [Known.addCollection, List.lookup_cons, hne]

theorem lookup_learn (known : Known) (value : Node) (h : other ≠ key) :
    (known.learn key value).collections.lookup other = known.collections.lookup other := by
  unfold Known.learn
  dsimp only
  split
  · exact lookup_addCollection known h _
  · split <;> exact lookup_addCollection known h _

theorem lookup_forget (known : Known) (h : other ≠ key) :
    (known.forget key).collections.lookup other = known.collections.lookup other := by
  change (known.collections.filter (·.1 != key)).lookup other = _
  induction known.collections with
  | nil => rfl
  | cons entry rest ih =>
    rw [List.filter_cons]
    split
    · rw [List.lookup_cons, List.lookup_cons, ih]
    · rename_i hentry
      have hkey : entry.1 = key := by simpa using hentry
      have hne : (other == entry.1) = false := beq_eq_false_iff_ne.2 (hkey ▸ h)
      rw [ih, List.lookup_cons, hne]

end Learning

end Scriptgen.Ruby
