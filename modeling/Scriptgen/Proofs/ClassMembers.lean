import Scriptgen.Proofs.KeptBlocks
/-!
# What becomes of the members of a class

Each member of a class adds to it, or is reported. A few are neither, and `members_lost_iff` says
which: fields and methods without a plain name, methods without a function, and empty blocks.
-/

namespace Scriptgen

open List

theorem Ruby.Changes.warnings {learns : String → Prop} {s t : State} (h : Changes learns s t) :
    s.warnings.Grows t.warnings := by
  induction h with
  | trans _ _ ih ih' => exact ih.trans ih'
  | warn s warning => exact .note _ _
  | inScope _ ih | inFrame _ _ _ ih | isolated _ ih => exact ih
  | _ => exact .refl _

theorem drop_note_ne_nil {log : WarningLog} (warning : Warning) (h : log.strict = true) :
    (log.note warning).entries.drop log.entries.length ≠ [] := by
  rw [WarningLog.note, if_pos h, drop_left]
  exact cons_ne_nil _ _

/-- A member that is left out without a warning: a field without a plain name, or a method without
one or without a function. -/
def Node.IsLost (member : Node) : Prop :=
  member.type = "PropertyDefinition" ∧ member.keyName? = none ∨
    member.type = "MethodDefinition" ∧ (member.child? "value" = none ∨ member.keyName? = none)

namespace Lowering

variable {B C S α β : Type} (log : S → WarningLog) (b : B) (c : C)

/-- What a step gives, with the warnings that it adds. -/
def outcome (x : Steps B C S α) (s : S) : α × List Warning :=
  ((x b c s).1, (log (x b c s).2).entries.drop (log s).entries.length)

/-- **Steps one after the other** give what each gives, with the warnings of each in turn. -/
theorem mapM_outcomes {f : α → Steps B C S β} (hf : ∀ a s, (log s).Grows (log (f a b c s).2))
    (l : List α) (s : S) :
    ∃ outs, (l.mapM f b c s).1 = outs.map Prod.fst ∧
      (log (l.mapM f b c s).2).entries = (log s).entries ++ outs.flatMap Prod.snd ∧
      List.Forall₂ (fun a out =>
        ∃ t, (log t).strict = (log s).strict ∧ out = outcome log b c (f a) t) l outs := by
  -- By induction on the list, from any state: the others start where the first one ends.
  induction l generalizing s with
  | nil => exact ⟨[], rfl, (append_nil _).symm, .nil⟩
  | cons a l ih =>
    obtain ⟨outs, hgives, hnotes, hall⟩ := ih (f a b c s).2
    obtain ⟨hstrict, warnings, hwarnings⟩ := hf a s
    have hdrop : (outcome log b c (f a) s).2 = warnings := by
      rw [outcome, ← hwarnings, drop_left]
    refine ⟨outcome log b c (f a) s :: outs, ?_, ?_, .cons ⟨s, rfl, rfl⟩ (hall.imp ?_)⟩
    · rw [mapM_cons, map_cons, ← hgives]
      rfl
    · rw [flatMap_cons, hdrop, ← append_assoc, hwarnings, ← hnotes, mapM_cons]
      rfl
    · rintro a out ⟨t, ht, hout⟩
      exact ⟨t, ht.trans hstrict, hout⟩

/-- A step for each kind of member that a class can have. -/
def byMember (member : Node) (nothing : α) (field : String → Steps B C S α)
    (block : Steps B C S α) (method : Node → String → Steps B C S α) (other : Steps B C S α) :
    Steps B C S α :=
  match member.type with
  | "PropertyDefinition" =>
    match member.keyName? with
    | some key => field key
    | none => pure nothing
  | "StaticBlock" => block
  | "MethodDefinition" =>
    match member.child? "value", member.keyName? with
    | some function, some key => method function key
    | _, _ => pure nothing
  | _ => other

theorem outcome_byMember (s : S) (member : Node) {nothing : α}
    {field : String → Steps B C S α} (block : Steps B C S α)
    {method : Node → String → Steps B C S α} {other : Steps B C S α}
    (hfield : ∀ key, (field key b c s).1 ≠ nothing)
    (hmethod : ∀ function key, (method function key b c s).1 ≠ nothing)
    (hother : (outcome log b c other s).2 ≠ []) :
    outcome log b c (byMember member nothing field block method other) s = (nothing, []) ↔
      member.IsLost ∨ member.type = "StaticBlock" ∧ outcome log b c block s = (nothing, []) := by
  have hne {x : Steps B C S α} (hx : (x b c s).1 ≠ nothing) : outcome log b c x s ≠ (nothing, []) :=
    ne_of_apply_ne Prod.fst hx
  unfold byMember Node.IsLost
  split
  · rename_i htype
    cases hkey : member.keyName? with
    | none => simp [htype, outcome, run_pure]
    | some key => simpa [htype] using hne (hfield key)
  · rename_i htype
    simp [htype]
  · rename_i htype
    cases hvalue : member.child? "value" with
    | none => simp [htype, outcome, run_pure]
    | some function =>
      cases hkey : member.keyName? with
      | none => simp [htype, outcome, run_pure]
      | some key => simpa [htype] using hne (hmethod function key)
  · rename_i hproperty hblock hmethod
    refine ⟨fun h => absurd (congrArg Prod.snd h) hother, ?_⟩
    rintro ((⟨h, -⟩ | ⟨h, -⟩) | ⟨h, -⟩)
    · exact (hproperty h).elim
    · exact (hmethod h).elim
    · exact (hblock h).elim

end Lowering

namespace Perl

open Lowering ClassParts

variable {b : Below} {c : Context} {s : State}

theorem fieldMember_ne_empty (member : Node) (key : String) :
    (fieldMember member key b c s).1 ≠ .empty := by
  unfold fieldMember
  dsimp only
  cases member.flag "static" <;> exact ne_of_apply_ne fields (cons_ne_nil _ _)

theorem staticBlock_ne_empty (member : Node) : (staticBlock member b c s).1 ≠ .empty :=
  ne_of_apply_ne staticInit (cons_ne_nil _ _)

theorem methodMember_ne_empty (member function : Node) (key : String) :
    (methodMember member function key b c s).1 ≠ .empty := by
  unfold methodMember
  split
  · exact ne_of_apply_ne construct (Option.some_ne_none _)
  · exact ne_of_apply_ne methods (cons_ne_nil _ _)

theorem outcome_classMember (member : Node) (hstrict : s.warnings.strict = true) :
    outcome State.warnings b c (classMember member) s = (.empty, []) ↔ member.IsLost := by
  show outcome _ b c (byMember member .empty (fieldMember member) (staticBlock member)
    (methodMember member) (do warn member.dropped; return .empty)) s = _ ↔ _
  refine (outcome_byMember _ b c s member _ (fieldMember_ne_empty member)
    (methodMember_ne_empty member) ?_).trans (or_iff_left fun h => ?_)
  · exact drop_note_ne_nil member.dropped hstrict
  · exact staticBlock_ne_empty member (congrArg Prod.fst h.2)

theorem lowerClassNamed_run (node : Node) (name : String) (b : Below) (c : Context) (s : State) :
    ∃ cls hasBase inside outside,
      let all := (classMembers node).mapM classMember b c { (addClass name b c s).2 with place := inside }
      let parts := all.1.foldl .append .empty
      let new := constructorOf parts hasBase b c all.2
      lowerClassNamed node name b c s = (.plain (.package cls), { new.2 with place := outside }) ∧
        cls.fields = parts.fields ∧ cls.methods = new.1 :: parts.methods ∧
        cls.staticInit = parts.staticInit :=
  ⟨_, _, _, _, rfl, rfl, rfl, rfl⟩

end Perl

namespace Ruby

open Lowering

variable {b : Below} {c : Context} {s : State}

theorem fieldMember_ne_empty (member : Node) (key : String) :
    (fieldMember member key b c s).1 ≠ .empty := by
  unfold fieldMember
  dsimp only
  cases member.flag "static" <;> exact ne_of_apply_ne ClassParts.fields (cons_ne_nil _ _)

theorem methodMember_ne_empty (member function : Node) (key : String) :
    (methodMember member function key b c s).1 ≠ .empty := by
  unfold methodMember
  split
  · exact ne_of_apply_ne ClassParts.construct (Option.some_ne_none _)
  · exact ne_of_apply_ne ClassParts.methods (cons_ne_nil _ _)

theorem outcome_classMember (member : Node) (hstrict : s.warnings.strict = true) :
    outcome State.warnings b c (classMember member) s = (.empty, []) ↔ member.IsLost ∨
      member.type = "StaticBlock" ∧
        outcome State.warnings b c (scopedStmts (member.children "body")) s = ([], []) := by
  let block : Lower ClassParts :=
    return { ClassParts.empty with staticInit := ← scopedStmts (member.children "body") }
  show outcome _ b c (byMember member .empty (fieldMember member) block (methodMember member)
    (do warn member.dropped; return .empty)) s = _ ↔ _
  refine (outcome_byMember _ b c s member _ (fieldMember_ne_empty member)
    (methodMember_ne_empty member) ?_).trans (or_congr_right (and_congr_right' ?_))
  · exact drop_note_ne_nil member.dropped hstrict
  · simp only [block, outcome, run_bind, run_pure]
    simp [ClassParts.empty]

theorem prefix_foldl_addAttribute (scope : ClassScope) (names : List String) (fields : List Field) :
    fields <+: names.foldl scope.addAttribute fields := by
  induction names generalizing fields with
  | nil => exact prefix_rfl
  | cons name names ih =>
    refine List.IsPrefix.trans ?_ (ih _)
    unfold ClassScope.addAttribute
    split
    · exact prefix_rfl
    · exact prefix_append _ _

theorem lowerClassNamed_run (node : Node) (name : String) (b : Below) (c : Context) (s : State) :
    ∃ cls inside hasBase,
      let all := (classMembers node).mapM classMember b inside (addClass name b c s).2
      let parts := all.1.foldl .append .empty
      let new := constructorOf parts hasBase b inside all.2
      lowerClassNamed node name b c s = (.plain (.classDef cls), new.2) ∧
        parts.fields <+: cls.fields ∧ cls.methods = new.1 ++ parts.methods ∧
        cls.staticInit = parts.staticInit :=
  ⟨_, { c with enclosingClass := some (.ofMembers (classMembers node) (thisAssignments node)) }, _,
    rfl, prefix_foldl_addAttribute _ _ _, rfl, rfl⟩

theorem orderly_constructorOf (parts : ClassParts) (hasBase : Bool) :
    OrderlyStep order (constructorOf parts hasBase) :=
  orderly_of_yields (yields_constructorOf hasBase
    ⟨fun _ _ => ⟨trivial, fun _ _ => trivial⟩, fun _ _ => trivial⟩)

end Ruby

open Lowering

/-- **Which members of a class are lost.** The class gathers what its members give, and records
their warnings. A member gives nothing and warns of nothing exactly if it is lost, or for Ruby a
block whose statements come to nothing. -/
theorem members_lost_iff (node : Node) (name : String) (height : Nat)
    (c : Perl.Context) (s : Perl.State) (hs : s.warnings.strict = true)
    (d : Ruby.Context) (r : Ruby.State) (hr : r.warnings.strict = true) :
    (∃ cls new after, ∃ outs : List (Perl.ClassParts × List Warning),
      let parts := (outs.map Prod.fst).foldl Perl.ClassParts.append .empty
      Perl.lowerClassNamed node name (Perl.level height) c s = (.plain (.package cls), after) ∧
      cls.fields = parts.fields ∧ cls.methods = new :: parts.methods ∧
      cls.staticInit = parts.staticInit ∧
      (∀ function ∈ parts.construct, ∃ role t,
        new = (Perl.lowerFunction "new" function role (Perl.level height) c t).1) ∧
      s.warnings.entries ++ outs.flatMap Prod.snd <+: after.warnings.entries ∧
      List.Forall₂ (fun member out => ∃ t,
        out = outcome Perl.State.warnings (Perl.level height) c (Perl.classMember member) t ∧
        (out = (.empty, []) ↔ member.IsLost)) (classMembers node) outs) ∧
    ∃ cls inside new after, ∃ outs : List (Ruby.ClassParts × List Warning),
      let parts := (outs.map Prod.fst).foldl Ruby.ClassParts.append .empty
      Ruby.lowerClassNamed node name (Ruby.level height) d r = (.plain (.classDef cls), after) ∧
      parts.fields <+: cls.fields ∧ cls.methods = new ++ parts.methods ∧
      cls.staticInit = parts.staticInit ∧
      (∀ function ∈ parts.construct, ∃ role t,
        new = [(Ruby.lowerFunction "initialize" function role (Ruby.level height) inside t).1]) ∧
      r.warnings.entries ++ outs.flatMap Prod.snd <+: after.warnings.entries ∧
      List.Forall₂ (fun member out => ∃ t,
        out = outcome Ruby.State.warnings (Ruby.level height) inside (Ruby.classMember member) t ∧
        (out = (.empty, []) ↔ member.IsLost ∨ member.type = "StaticBlock" ∧
          outcome Ruby.State.warnings (Ruby.level height) inside
            (Ruby.scopedStmts (member.children "body")) t = ([], [])))
        (classMembers node) outs := by
  refine ⟨?perl, ?ruby⟩
  case perl =>
    obtain ⟨cls, hasBase, inside, outside, hrun, hfields, hmethods, hinit⟩ :=
      Perl.lowerClassNamed_run node name (Perl.level height) c s
    have hgrows {α : Type} {x : Perl.Lower α} (hx : Perl.Orderly x) (t : Perl.State) :
        t.warnings.Grows (x (Perl.level height) c t).2.warnings :=
      Perl.Changes.warnings (hx _ (Perl.sound_level height) c t)
    obtain ⟨outs, hparts, hnotes, hall⟩ := mapM_outcomes Perl.State.warnings _ c
      (fun member => hgrows (.of_makes (Perl.makes_classMember fun _ => Perl.fits_node member)))
      (classMembers node) { (Perl.addClass name (Perl.level height) c s).2 with place := inside }
    rw [hparts] at hrun hfields hmethods hinit
    -- What is left: the constructor, the warnings, and the members one by one.
    refine ⟨cls, _, _, outs, hrun, hfields, hmethods, hinit, ?_, ?_, hall.imp ?_⟩
    · intro function hfunction
      simp only [Perl.constructorOf, Option.mem_def.1 hfunction]
      exact ⟨_, _, rfl⟩
    · exact hnotes ▸ (hgrows (Perl.orderly_constructorOf _ _) _).2
    · rintro member out ⟨t, ht, rfl⟩
      exact ⟨t, rfl, Perl.outcome_classMember member (ht.trans hs)⟩
  case ruby =>
    obtain ⟨cls, inside, hasBase, hrun, hfields, hmethods, hinit⟩ :=
      Ruby.lowerClassNamed_run node name (Ruby.level height) d r
    have hgrows {α : Type} {x : Ruby.Lower α} (hx : OrderlyStep Ruby.order x) (t : Ruby.State) :
        t.warnings.Grows (x (Ruby.level height) inside t).2.warnings :=
      Ruby.Changes.warnings (hx _ (Ruby.sound_level height) inside t)
    obtain ⟨outs, hparts, hnotes, hall⟩ := mapM_outcomes Ruby.State.warnings _ inside
      (fun member => hgrows
        (Ruby.orderly_of_yields (Ruby.yields_classMember (Ruby.fits_anywhere member))))
      (classMembers node) (Ruby.addClass name (Ruby.level height) d r).2
    rw [hparts] at hrun hfields hmethods hinit
    refine ⟨cls, inside, _, _, outs, hrun, hfields, hmethods, hinit, ?_, ?_, hall.imp ?_⟩
    · intro function hfunction
      simp only [Ruby.constructorOf, Option.mem_def.1 hfunction]
      exact ⟨_, _, rfl⟩
    · exact hnotes ▸ (hgrows (Ruby.orderly_constructorOf _ _) _).2
    · rintro member out ⟨t, ht, rfl⟩
      exact ⟨t, rfl, Ruby.outcome_classMember member (ht.trans hr)⟩

/-- The method `1() {}`. -/
def numberedMethod : Node :=
  .of "MethodDefinition" [("kind", .string "method"),
    ("key", .node "Literal" [("value", .number (.integer 1))]),
    ("value", .node "FunctionExpression" [("params", .array []),
      ("body", (Jumps.blockNode []).toJson)])]

/-- The class `class A { 1() {} }`. -/
def numberedClass : Node :=
  .of "ClassDeclaration" [("id", (Jumps.nameNode "A").toJson),
    ("body", .node "ClassBody" [("body", .array [numberedMethod.toJson])])]

def strictOptions : Options := { Options.defaults with strictInput := true }

theorem members_lost_iff_numberedClass :
    ∃ cls new after, Perl.lowerClassNamed numberedClass "A" (Perl.level 9) (.top strictOptions)
      (.start strictOptions [] []) = (.plain (.package cls), after) ∧ cls.methods = [new] := by
  obtain ⟨⟨cls, new, after, outs, hrun, -, hmethods, -, -, -, hall⟩, -⟩ :=
    members_lost_iff numberedClass "A" 9 (.top strictOptions) (.start strictOptions [] []) rfl
      (.top strictOptions (Ruby.outlineOf []) []) (.start strictOptions [] []) rfl
  refine ⟨cls, new, after, hrun, hmethods.trans ?_⟩
  cases hall with
  | cons hmember hnone =>
    cases hnone
    obtain ⟨t, -, hout⟩ := hmember
    rw [hout.2 (.inr ⟨rfl, .inr rfl⟩)]
    rfl

/-- The method of the class appears in neither target, and nothing is reported. -/
theorem numberedClass_reports_nothing :
    let program : Node := .of "Program" [("body", .array [numberedClass.toJson])]
    let perl := Perl.generate strictOptions program
    let ruby := Ruby.generate strictOptions program
    perl.2.warnings.entries = [] ∧ ruby.2.warnings.entries = [] ∧
      perl.1.print (.ofOptions .defaults " ") =
        "use strict;\nuse warnings;\n\n\x7b\n package A;\n sub new \x7b\n  my ($class) = @_;\n" ++
        "  my $self = bless(\x7b\x7d, $class);\n  return $self;\n \x7d\n\x7d\n" ∧
      ruby.1.print (.ofOptions .defaults " ") =
        "# frozen_string_literal: true\n\nclass A\nend\n" := by
  decide +kernel

end Scriptgen
