import Scriptgen.Proofs.Ruby.Values
/-!
# Functions and classes at a place

Of what a node declares something may be learned where it is lowered (`target_of_mem_targets`), and so
may it of the parameters of functions and of what patterns bind.
-/

namespace Scriptgen.Ruby

open Lowering Fitting Node List

variable {P : Place} {node : Node} {nodes : List Node} {node? : Option Node}

/-! ## Patterns -/

variable (P) in
/-- A node may be the target of a declaration if something may be learned of the names it has there. -/
def Place.target (target : Node) : Prop := Fits P target ∧ ∀ name ∈ target.targetNames, P.learns name

variable {default : Option Node}

section Patterns

variable {target element : Node} {name : String}

theorem target_of_mem_targets (h : Fits P node) (htarget : target ∈ node.targets) :
    P.target target := by
  refine ⟨?_, fun name hname => learns_of_bound h (mem_boundNames_of_target htarget hname)⟩
  simp only [targets, mem_append, Option.mem_toList] at htarget
  rcases htarget with ((hid | hparam) | hparams) | hleft
  · exact fits_child h hid
  · exact fits_child h hparam
  · exact fits_children h target hparams
  · split at hleft
    · exact fits_child h (Option.mem_toList.1 hleft)
    · cases hleft

theorem target_of_id (h : Fits P node) (htarget : node.child? "id" = some target) :
    P.target target := target_of_mem_targets h (mem_targets_of_id htarget)

@[grind →]
theorem learns_of_target (h : P.target target) (hname : target.name? = some name) : P.learns name :=
  h.2 name (mem_targetNames_of_name? hname)

theorem learns_of_id (h : Fits P node) (hname : (node.child? "id" >>= name?) = some name) :
    P.learns name := by
  obtain ⟨target, htarget, hname⟩ := Option.bind_eq_some_iff.1 hname
  exact learns_of_target (target_of_id h htarget) hname

@[grind ←] theorem tries_target (h : Fits P node) : Tries P (Ruby.target node) := by
  unfold Ruby.target; grind

@[grind ←]
theorem yields_patternTarget {element : Option Node} (declaring shape) (h : Fits P element)
    (hlearns : declaring = true → ∀ e name, element = some e → e.name? = some name → P.learns name) :
    Yields P (patternTarget declaring element shape) := by
  unfold patternTarget; grind

theorem learns_of_item (h : P.target target) (helement : some element ∈ target.childrenWithHoles "elements")
    (hname : name ∈ element.itemNames) : P.learns name := by
  obtain ⟨item, hitem, helement⟩ := mem_map.1 helement
  exact h.2 name (mem_targetNames_of_item (mem_filterMap.2 ⟨item, hitem, helement⟩) hname)

@[grind ←]
theorem yields_patternTargets (declaring) (h : Fits P node)
    (htarget : declaring = true → P.target node) : Yields P (patternTargets declaring node) := by
  refine .mapM_of_mem fun element helement => ?_
  have hfits := fits_childrenWithHoles h element helement
  split
  · exact .pure trivial
  · rename_i element
    rw [fits_some] at hfits
    have hlearns {name : String} (hdeclaring : declaring = true) (hname : name ∈ element.itemNames) :
        P.learns name := learns_of_item (htarget hdeclaring) helement hname
    split
    · refine .bind (yields_patternTarget _ _ (fits_child? hfits) ?_) fun e he => .pure he
      intro hdeclaring argument name hargument hname
      exact hlearns hdeclaring (by simp [itemNames, hargument, hname])
    · refine yields_patternTarget _ _ ((fits_some _).2 hfits) ?_
      rintro hdeclaring argument name ⟨rfl⟩ hname
      exact hlearns hdeclaring (by simp [itemNames, hname])

@[grind ←]
theorem yields_propertyValue (source key) (hdefault : Fits P default) :
    Yields P (propertyValue source key default) := by
  unfold propertyValue; grind

@[grind ←]
theorem yields_destructureObject (source) (h : P.target node) :
    Yields P (destructureObject node source) := by
  refine .bind (.mapM_of_mem fun property hproperty => ?_) fun decls _ => .pure fun _ _ => trivial
  have hfits := fits_children h.1 property hproperty
  split
  · grind
  · split
    · grind
    · rename_i key hkey
      split
      · grind
      · rename_i name default hbinding
        have hlearns : P.learns name :=
          h.2 name (mem_targetNames_of_property hproperty hkey hbinding)
        have hdefault := fits_propertyBinding? hfits hbinding
        exact .bind (yields_propertyValue source key hdefault) fun value _ => by grind

/-! ## Parameters -/

@[grind ←]
theorem yields_patternParam (h : P.target node) : Yields P (patternParam node) := by
  have hfits := h.1
  unfold patternParam; grind

@[grind ←]
theorem yields_defaultParam (h : P.target node) (hdefault : Fits P default) :
    Yields P (defaultParam node default) := by
  unfold defaultParam
  split <;> grind

/-- What may be a parameter is a target, whatever it is called. -/
theorem tries_param (h : P.target node) (hnames : ∀ name ∈ node.namelessParam, P.learns name) :
    Tries P (param node) := by
  unfold param
  split
  · rename_i htype
    have hlearns : P.learns (node.name?.getD "") := hnames _ (by simp [namelessParam, htype])
    grind
  · rename_i htype
    refine Tries.needBind fun left hleft => ?_
    have hbinds : node.bindsLeft = true := by simp [bindsLeft, htype]
    exact .lift (yields_defaultParam (target_of_mem_targets h.1 (mem_targets_of_left hbinds hleft))
      (fits_child? h.1))
  · rename_i htype
    have hlearns : P.learns ((node.child? "argument" >>= name?).getD "rest") :=
      hnames _ (by simp [namelessParam, htype])
    exact .bind (.lift (yields_declareWith _ _ hlearns)) fun _ _ => .pure (by simp)
  all_goals grind

@[grind ←]
theorem yields_params (h : Fits P node) : Yields P (params (node.children "params")) := by
  refine .bind (by grind) fun options _ => .bind (.mapM_of_mem fun param hparam => ?_)
    fun lowered _ => .pure ⟨fun _ _ => trivial, fun _ _ => trivial⟩
  have htarget := target_of_mem_targets h (mem_targets_of_params hparam)
  have hnames : ∀ name ∈ param.namelessParam, P.learns name := fun name hname =>
    learns_of_bound h (mem_boundNames_of_namelessParam hparam hname)
  exact .bind (tries_param htarget hnames) fun lowered _ => by grind

end Patterns

/-! ## Functions -/

@[grind ←] theorem yields_startAsNil (name shape) : Yields P (startAsNil name shape) := by
  unfold startAsNil; grind

@[grind ←]
theorem yields_hoist (h : Fits P nodes) : Yields P (hoist nodes) := by
  have hlambdas : Fits P (functionDecls nodes) := fun function hfunction =>
    h function (mem_of_mem_filter hfunction)
  unfold hoist
  dsimp only
  split
  all_goals
    refine .bind (by grind) fun bound _ => .bind (.mapM_of_mem fun _ _ => yields_startAsNil _ _)
      fun vars _ => .bind (.mapM hlambdas fun function hfunction => ?_) fun lambdas _ => .pure (by grind)
    grind

section Functions

instance : Fitting Place FunctionRole where
  Fits P role := match role with
    | .constructor fields => ∀ field ∈ fields, P.learns ("@" ++ field.1) ∧ Fits P field.2
    | _ => True

variable {fields : List (String × Option Node)} {role : FunctionRole}

@[grind ←]
theorem yields_fieldInits (h : ∀ field ∈ fields, P.learns ("@" ++ field.1) ∧ Fits P field.2) :
    Yields P (fieldInits fields) := by
  refine .bind (.mapM_of_mem fun field hfield => ?_) fun inits _ => .pure fun _ _ => trivial
  obtain ⟨hlearns, hinit⟩ := h field hfield
  grind

@[grind ←]
theorem yields_constructorBody (hfields : ∀ field ∈ fields, P.learns ("@" ++ field.1) ∧ Fits P field.2)
    (h : Fits P nodes) : Yields P (constructorBody fields nodes) := by
  refine .bind (yields_fieldInits hfields) fun inits _ => ?_
  exact .bind (yields_setPendingFields inits) fun _ _ => by grind

@[grind ←]
theorem yields_plainBody (h : Fits P node?) (hnodes : Fits P nodes) :
    Yields P (plainBody node? nodes) := by
  unfold plainBody; grind

theorem fits_functionStatements (h : Fits P node) :
    Fits P (match node.child? "body" with
      | some body => if body.type == "BlockStatement" then body.children "body" else []
      | none => []) := by
  split
  · split
    · exact fits_children (fits_child h ‹_›)
    · exact fits_nil.2 trivial
  · exact fits_nil.2 trivial

@[grind ←]
theorem yields_paramsAndBody (h : Fits P node) (hrole : Fits P role) :
    Yields P (paramsAndBody node role) := by
  refine .bind (yields_params h) fun params _ => ?_
  have hstmts := fits_functionStatements h
  refine .bind (yields_hoist hstmts) fun hoisted _ => ?_
  refine .bind (Yields.within _ ?_) fun main _ => .pure ⟨fun _ _ => trivial, fun _ _ => trivial⟩
  split
  · exact yields_constructorBody hrole hstmts
  · exact yields_plainBody (fits_child? h) hstmts

@[grind ←]
theorem yields_lowerFunction (name) (h : Fits P node) (hrole : Fits P role) :
    Yields P (lowerFunction name node role) := by
  have hbody := Yields.isolated (Yields.inScope (yields_paramsAndBody h hrole))
  exact .bind (Yields.within _ hbody) fun body _ => .bind (by grind) fun options _ =>
    .pure trivial

@[grind ←]
theorem yields_lowerLambda (h : Fits P node) : Yields P (lowerLambda node) :=
  .bind (yields_lowerFunction _ h trivial) fun _ _ => .pure trivial

@[grind ←]
theorem yields_defaultConstructor (hasBase)
    (h : ∀ field ∈ fields, P.learns ("@" ++ field.1) ∧ Fits P field.2) :
    Yields P (defaultConstructor hasBase fields) := by
  unfold defaultConstructor; grind

end Functions

/-! ## Classes -/

section Classes

instance : Fitting Place ClassParts where
  Fits P parts := (∀ field ∈ parts.instanceFields, P.learns ("@" ++ field.1) ∧ Fits P field.2) ∧
    Fits P parts.construct

variable {member function : Node} {key : String} {parts : ClassParts}

theorem fits_append_parts {first second : ClassParts} (hfirst : Fits P first)
    (hsecond : Fits P second) : Fits P (first.append second) := by
  refine ⟨fun field hfield => ?_, fun function hfunction => ?_⟩
  · rcases mem_append.1 hfield with hfield | hfield
    · exact hfirst.1 field hfield
    · exact hsecond.1 field hfield
  · rcases Option.or_eq_some_iff.1 hfunction with hfunction | ⟨-, hfunction⟩
    · exact hsecond.2 function hfunction
    · exact hfirst.2 function hfunction

@[simp, grind .]
theorem fits_emptyParts : Fits P ClassParts.empty := ⟨nofun, fits_none.2 trivial⟩

theorem fits_foldl_append {contributed : List ClassParts} (h : Fits P contributed)
    (hparts : Fits P parts) : Fits P (contributed.foldl ClassParts.append parts) := by
  induction contributed generalizing parts with
  | nil => exact hparts
  | cons first rest ih =>
    rw [fits_cons] at h
    exact ih h.2 (fits_append_parts hparts h.1)

theorem yields_fieldMember (h : Fits P member) (hlearns : P.learns ("@" ++ key)) :
    Yields P (fieldMember member key) := by
  have hinit : Fits P (member.child? "value") := fits_child? h
  unfold fieldMember
  dsimp only
  refine .bind (by grind) fun options _ => ?_
  by_cases hstatic : member.flag "static" = true
  · rw [if_pos hstatic]
    exact .bind (by grind) fun _ _ => .bind (by grind) fun value _ =>
      .pure ⟨nofun, fits_none.2 trivial⟩
  · rw [if_neg hstatic]
    refine .pure ⟨fun field hfield => ?_, fits_none.2 trivial⟩
    rw [mem_singleton] at hfield
    subst hfield
    exact ⟨hlearns, hinit⟩

theorem fits_memberRole (member : Node) (key : String) : Fits P (memberRole member key).2 := by
  unfold memberRole
  dsimp only
  repeat' split
  all_goals trivial

theorem yields_methodMember (h : Fits P function) : Yields P (methodMember member function key) := by
  unfold methodMember
  split
  · exact .pure ⟨nofun, (fits_some function).2 h⟩
  · exact .bind (yields_lowerFunction _ h (fits_memberRole member key)) fun method _ =>
      .pure ⟨nofun, fits_none.2 trivial⟩

theorem yields_classMember (h : Fits P member) : Yields P (classMember member) := by
  unfold classMember
  split
  · rename_i htype
    split
    · rename_i key hkey
      refine yields_fieldMember h (P.set h ?_)
      simp [setKeys, fieldKey?, htype, hkey]
    · exact .pure fits_emptyParts
  · exact .bind (yields_scopedStmts (fits_children h)) fun body _ =>
      .pure ⟨forall_mem_nil _, fits_none.2 trivial⟩
  · split
    · rename_i function key hfunction _
      exact yields_methodMember (fits_child h hfunction)
    · exact .pure fits_emptyParts
  · exact .bind (yields_warn _) fun _ _ => .pure fits_emptyParts

@[grind ←]
theorem yields_constructorOf (hasBase) (h : Fits P parts) :
    Yields P (constructorOf parts hasBase) := by
  obtain ⟨hfields, hconstruct⟩ := h
  unfold constructorOf
  split
  · rename_i function hfunction
    exact .bind (yields_lowerFunction _ (hconstruct function hfunction) hfields) fun _ _ => by grind
  · grind

theorem fits_classMembers (h : Fits P node) : Fits P (classMembers node) := by
  unfold classMembers
  cases hbody : node.child? "body" with
  | none => exact fits_nil.2 trivial
  | some body => exact fits_children (fits_child h hbody)

@[grind ←]
theorem yields_lowerClassNamed (name) (h : Fits P node) : Yields P (lowerClassNamed node name) := by
  refine .bind (yields_addClass _) fun _ _ => Yields.getBind (fun s => ?_) fun _ _ => rfl
  refine .bind (Yields.within _ (.bind (.mapM (fits_classMembers h) fun member hmember =>
    yields_classMember hmember) fun contributed hcontributed => ?_)) fun parts _ => .pure trivial
  have hparts := fits_foldl_append hcontributed fits_emptyParts
  exact .bind (yields_constructorOf _ hparts) fun new _ => .pure ⟨hparts, fun _ _ => trivial⟩

@[grind ←] theorem yields_lowerClass (name) (h : Fits P node) : Yields P (lowerClass node name) := by
  unfold lowerClass; grind

@[grind ←]
theorem yields_classValue (h : Fits P node) : Yields P (classValue node) := by
  unfold classValue; grind

@[grind ←] theorem yields_thisProperty (name) : Yields P (thisProperty name) := by
  unfold thisProperty; grind

@[grind ←] theorem yields_thisCall (name args) : Yields P (thisCall name args) := by
  unfold thisCall; grind

@[grind ←] theorem yields_superCall (name args) : Yields P (superCall name args) := by
  unfold superCall; grind

@[grind ←] theorem yields_superConstructor (args) :
    Yields P (superConstructor args) := by
  unfold superConstructor; grind

end Classes

end Scriptgen.Ruby
