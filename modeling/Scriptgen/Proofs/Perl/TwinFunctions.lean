import Scriptgen.Proofs.Perl.TwinExprs
/-!
# Functions and classes of two runs

The types of parameters, fields and results are all that the two runs may have different: they stand
in the trees, and nothing else is read off them.
-/

namespace Scriptgen.Perl

open Lowering Fitting ClassParts

variable {P : Policy} {H : Prop} {node : Node}

/-! ## Functions -/

theorem remarked_twin : P.Keeps (remarked node) := by
  intro l
  cases l with
  | nil => simp [remarked]
  | cons first rest =>
    obtain ⟨kind, remarks⟩ := first
    simp only [remarked, twin_cons, stmt_twin, List.modifyHead_cons]
    split <;> simp

variable {fields : List (String × Option Node)} {kind : SubKind} {nodes : List Node} {member : Node}

section Free

variable [hvocal : P.Vocal] [hfree : P.Free]

@[grind ←]
theorem makes_stmt (hnode : H → Fits P node) : Same P H (stmt node) := by
  intro b hb
  obtain ⟨hsame, hleads, hfits⟩ := hb.here.stmt hvocal.vocal hfree.free none node
  refine ⟨fun c s => ?_, fun c s => ?_, fun c s h hH hc hs => ?_⟩
  · rw [stmt_run, stmt_run, hsame, (remarked_twin _).1]
  · rw [stmt_run]
    exact hleads c s
  · rw [stmt_run] at h ⊢
    obtain ⟨hstmts, hstate⟩ := hfits c s h (hnode hH) hc hs
    exact ⟨(remarked_twin _).2.2 hstmts, hstate⟩

@[grind ←]
theorem makes_stmts (hnodes : H → Fits P nodes) : Same P H (stmts nodes) := by
  unfold stmts
  grind

end Free

@[grind ←]
theorem makes_scopedStmts [P.Vocal] (hnodes : H → Fits P nodes) : Same P H (scopedStmts nodes) :=
  makes_inScope_of_free (makes_stmts (P := P.free) hnodes) (fun _ => rfl) fun _ h => h

variable [P.Lawful]

@[grind ←]
theorem makes_patternTargets [P.Free] (hnode : H → Fits P node) :
    Same P H (patternTargets node) := by
  unfold patternTargets
  refine .mapM (fun hH => fits_childrenWithHoles (hnode hH)) (by simp) fun item => ?_
  dsimp only
  rw [twin_plain]
  split <;> grind

grind_pattern fits_propertyBinding? => Fits P property, property.propertyBinding? key, some (name, default)

variable {body : List Node} {source' source : Expr}

section Free

variable [P.Free]

@[grind ←]
theorem makes_destructureObject (hnode : H → Fits P node)
    (hsource : H → Fits P source) (heq : source' = twin P source) :
    Makes P H (destructureObject node source) (destructureObject node source') := by
  subst heq
  unfold destructureObject
  refine .bind (.mapM (fun hH => fits_children (hnode hH)) (by simp) fun property => ?_)
    fun decls => by grind
  rw [twin_plain]
  split
  · grind
  · cases property.keyName? with
    | none => grind
    | some key =>
      dsimp only
      cases hbinding : property.propertyBinding? key with
      | none => grind
      | some binding =>
        obtain ⟨name, _ | default⟩ := binding <;> grind +splitImp

@[grind ←]
theorem makes_unpackPattern (hnode : H → Fits P node)
    (hsource : H → Fits P source) (heq : source' = twin P source) :
    Makes P H (unpackPattern node source) (unpackPattern node source') := by
  subst heq
  unfold unpackPattern
  grind

section Params

omit [P.Lawful] [P.Free]

@[simp, grind norm]
theorem keepType_none (keep : Bool) : keepType keep none = none := by
  simp [keepType]

@[simp, grind norm]
theorem paramScalar_twin (name : String) : P.Fixes (Param.scalar name) := by
  simp [Param.scalar]

variable (param : Param)

@[simp, grind norm] theorem paramName_twin : (twin P param).name = param.name := by cases param; rfl

@[simp, grind norm] theorem paramShape_twin : (twin P param).shape = param.shape := by cases param; rfl

@[simp, grind norm]
theorem variadic_twin : (twin P param).variadic = param.variadic := by cases param; rfl

variable (unpacked : List (Param × List Stmt))

@[simp, grind norm]
theorem twin_unpackedParams : twin P (unpacked.map (·.1)) = (twin P unpacked).map (·.1) := by
  induction unpacked with
  | nil => rfl
  | cons first rest ih =>
    rw [List.map_cons, twin_cons, ih]
    rfl

@[simp, grind norm]
theorem twin_unpackings : twin P (unpacked.flatMap (·.2)) = (twin P unpacked).flatMap (·.2) := by
  induction unpacked with
  | nil => rfl
  | cons first rest ih =>
    rw [List.flatMap_cons, twin_append, ih]
    rfl

theorem allowed_unpacked :
    Fits P unpacked ↔ Fits P (unpacked.map (·.1)) ∧ Fits P (unpacked.flatMap (·.2)) := by
  induction unpacked with
  | nil => simp
  | cons first rest ih =>
    obtain ⟨param, unpacking⟩ := first
    simp [ih, and_assoc, and_left_comm]

end Params

variable (hnode : H → Fits P node)

include hnode

@[grind ←]
theorem makes_patternParam : Same P H (patternParam node) := by
  unfold patternParam
  grind

@[grind ←]
theorem makes_namedParam : Same P H (namedParam node) := by
  unfold namedParam
  grind

@[grind ←]
theorem makesTry_bareParam : SameTry P H (bareParam node) := by
  unfold bareParam
  split
  · grind
  · refine .needBind fun left hleft => .bind (by grind) fun ⟨param, unpacking⟩ => ?_
    dsimp only
    cases hright : node.child? "right" with
    | none => grind
    | some default => grind +splitImp -funext [keepType]
  · refine .bind (by grind) fun _ => .pure (fun _ => ?_) ?_
    · simp [Param.scalar]
    · simp [Param.scalar]
  · grind
  · grind
  · grind

@[grind ←]
theorem makes_param? : Same P H (param? node) := by
  unfold param?
  refine .bind (makesTry_bareParam hnode) fun found => ?_
  cases found with
  | none => grind
  | some found =>
    obtain ⟨⟨name, shape, type, fallback, variadic⟩, unpacking⟩ := found
    grind [keepType]

omit hnode

@[grind ←]
theorem makes_params (hnodes : H → Fits P nodes) : Same P H (params nodes) := by
  unfold params
  refine .bind (by grind) fun found => ?_
  refine .pure (fun h => (allowed_unpacked _).1 ((fits_filterMap_id found).2 h.2)) ?_
  rw [twin_pair, twin_unpackedParams, twin_unpackings, twin_filterMap_id]

omit [P.Lawful] in
@[grind ←]
theorem makes_declareEmpty (name : String) (shape : Shape) :
    Same P H (declareEmpty name shape) := by
  unfold declareEmpty
  grind

omit [P.Lawful] [P.Free] in
theorem allowed_namedFunctions (h : Fits P body) : Fits P (namedFunctions body) := by
  intro pair hpair
  simp only [namedFunctions, List.mem_filterMap, List.mem_filter, Option.map_eq_some_iff] at hpair
  obtain ⟨node, ⟨hnode, -⟩, name, -, rfl⟩ := hpair
  exact ⟨trivial, h node hnode⟩

omit [P.Lawful] in
@[grind ←]
theorem makes_hoist (hbody : H → Fits P body) : Same P H (hoist body) := by
  have hfunctions (hH : H) := allowed_namedFunctions (hbody hH)
  have hvars : Fits P (nestedVars body) := fun _ _ => ⟨trivial, trivial⟩
  have hdefinition (name : String) {node : Node} {H' : Prop} (hnode : H' → Fits P node) :
      Same P H' (do return { assignSub name (← function node) with remarks := .ofNode node }) :=
    .bind (makes_function hnode) fun sub => .pure (fun h => (value_twin.2.2.2 name sub).2.2 h.2) rfl
  unfold hoist
  refine .bind (by grind) fun functionDecls => .bind (by grind)
    fun varDecls => .bind (.mapM (fun h => hfunctions h.1.1) (by simp) fun ⟨name, node⟩ => ?_)
    fun definitions => by grind
  exact hdefinition name fun h => h.2.2

end Free

instance : Fitting Policy SubKind where
  Fits P
    | .constructor _ fields => Fits P fields
    | _ => True

omit [P.Lawful] in
@[grind ←]
theorem makes_fieldInits (hfields : H → Fits P fields) : Same P H (fieldInits fields) := by
  unfold fieldInits
  refine .mapM hfields (by simp) fun ⟨name, init⟩ => ?_
  grind +splitImp

@[grind ←]
theorem allowed_bodyStatements (h : Fits P node) : Fits P (bodyStatements node) := by
  unfold bodyStatements
  split
  · split
    · exact fits_children (fits_child h ‹_›)
    · simp
  · simp

omit [P.Lawful] in
theorem makes_noteHoisted (names : List String) : Same P H (noteHoisted names) :=
  .modify (fun _ => rfl) (fun s => ⟨.atPlace (.refl s) fun hkept =>
    { hkept with hoisted := List.length_modifyHead }, fun _ => rfl, id⟩) fun _ _ h => h

section Free

variable [P.Vocal] [P.Free]

@[grind ←]
theorem makes_constructorBody (hasBase : Bool) (hnode : H → Fits P node) (hfields : H → Fits P fields) :
    Same P H (constructorBody node hasBase fields) := by
  unfold constructorBody
  refine .bind (by grind) fun inits =>
    makes_withFields And.right rfl (by grind) fun main waiting => ?_
  cases waiting <;> grind

@[grind ←]
theorem makes_functionBody (hnode : H → Fits P node)
    (hkind : H → Fits P kind) : Same P H (functionBody node kind) := by
  unfold functionBody
  cases kind with
  | constructor hasBase fields => exact makes_constructorBody hasBase hnode hkind
  | _ => grind +splitImp

theorem makes_functionCode (hnode : H → Fits P node) (hkind : H → Fits P kind) :
    Same P H (functionCode node kind) := by
  refine .bind (by grind) fun pair => ?_
  obtain ⟨params, unpacking⟩ := pair
  refine .bind (by grind) fun hoisted => .bind (makes_noteHoisted _) fun _ => ?_
  refine .bind (by grind +splitImp) fun body => .pure (fun h => ?_) ?_
  · simp [h.1.1.1.2.1, h.1.1.1.2.2, h.1.1.2, h.2]
  · change (twin P params, twin P unpacking ++ twin P hoisted ++ twin P body) = _
    simp

end Free

theorem Place.kept_outside {kind : SubKind} (p q : Place) (h : (p.inside kind).Kept q) :
    p.Kept (p.outside q) :=
  { h with
    invocant := rfl
    hoisted := by simp [outside, inside, h.hoisted]
    functionDepth := congrArg (· - 1) h.functionDepth
    inConstructor := rfl
    inLoopCallback := rfl }

theorem makes_vocalFunction [P.Vocal] (name : String)
    (hnode : H → Fits P node) (hkind : H → Fits P kind) : Same P H (lowerFunction name node kind) := by
  unfold lowerFunction
  refine .bind (makes_atPlace Place.kept_outside (makes_isolated (makes_inScope_of_free
    (makes_functionCode (P := P.free) hnode hkind) (fun _ => rfl) fun _ h => h))) fun pair => ?_
  obtain ⟨params, body⟩ := pair
  grind [keepType]

@[grind ←]
theorem makes_lowerFunction (name : String) (hnode : H → Fits P node)
    (hkind : H → Fits P kind) : Same P H (lowerFunction name node kind) :=
  .of_vocal (makes_vocalFunction (P := P.vocal) name hnode hkind) (fun _ => rfl) fun _ h => h

/-! ## Classes -/

instance : Twinned ClassParts :=
  ⟨fun P parts => { parts with
    fields := twin P parts.fields
    staticInit := twin P parts.staticInit
    methods := twin P parts.methods }⟩

instance : Fitting Policy ClassParts :=
  ⟨fun P parts => Fits P parts.instanceFields ∧ Fits P.vocal parts.staticInit ∧
    Fits P parts.methods ∧ Fits P parts.construct⟩

section Parts

omit [P.Lawful]

@[simp, grind norm]
theorem parts_twin (fields : List Field) (instanceFields : List (String × Option Node))
    (staticInit : List Stmt) (methods : List Sub) (construct : Option Node) :
    P.Pairs (ClassParts.mk fields instanceFields staticInit methods construct)
      ⟨twin P fields, instanceFields, twin P staticInit, twin P methods, construct⟩
      (Fits P instanceFields ∧ Fits P.vocal staticInit ∧ Fits P methods ∧ Fits P construct) :=
  ⟨rfl, Iff.rfl⟩

@[simp, grind norm]
theorem twin_field (name : String) (type : Option PerlType) (isStatic : Bool) :
    twin P (Field.mk name type isStatic) = ⟨name, keepType P.types type, isStatic⟩ := rfl

@[simp, grind norm]
theorem noParts_twin : P.Fixes empty := by
  simp [empty]

theorem twin_appendParts (first second : ClassParts) :
    twin P (first.append second) = (twin P first).append (twin P second) := by
  obtain ⟨fields, instanceFields, staticInit, methods, construct⟩ := first
  obtain ⟨fields', instanceFields', staticInit', methods', construct'⟩ := second
  simp [append]

theorem allowed_appendParts {first second : ClassParts} (hfirst : Fits P first)
    (hsecond : Fits P second) : Fits P (first.append second) := by
  obtain ⟨fields, instanceFields, staticInit, methods, construct⟩ := first
  obtain ⟨fields', instanceFields', staticInit', methods', construct'⟩ := second
  rw [(parts_twin ..).2] at hfirst hsecond
  obtain ⟨hfields, hinit, hmethods, hconstruct⟩ := hfirst
  obtain ⟨hfields', hinit', hmethods', hconstruct'⟩ := hsecond
  have hor : Fits P (construct'.or construct) := by cases construct' <;> assumption
  simp [append, hfields, hfields', hinit, hinit', hmethods, hmethods', hor]

theorem twin_foldParts (members : List ClassParts) (parts : ClassParts) :
    twin P (members.foldl append parts) =
      (twin P members).foldl append (twin P parts) := by
  induction members generalizing parts with
  | nil => rfl
  | cons member members ih => rw [List.foldl_cons, ih, twin_appendParts, twin_cons, List.foldl_cons]

theorem allowed_foldParts {members : List ClassParts} {parts : ClassParts}
    (hmembers : Fits P members) (hparts : Fits P parts) :
    Fits P (members.foldl append parts) := by
  induction members generalizing parts with
  | nil => exact hparts
  | cons member members ih =>
    rw [fits_cons] at hmembers
    exact ih hmembers.2 (allowed_appendParts hparts hmembers.1)

end Parts

omit [P.Lawful] in
@[grind ←]
theorem makes_withInvocant {α : Type} [Twinned α] [Fitting Policy α] {x x' : Lower α}
    (invocant : Invocant) (hx : Makes P H x x') :
    Makes P H (withInvocant invocant x) (withInvocant invocant x') :=
  makes_atPlace (fun _ _ h => { h with invocant := rfl }) hx

section Vocal

variable [P.Vocal]

@[grind ←]
theorem makes_fieldMember (key : String) (hmember : H → Fits P member) :
    Same P H (fieldMember member key) := by
  unfold fieldMember empty
  grind +splitImp [keepType]

@[grind ←]
theorem makes_staticBlock (hmember : H → Fits P member) : Same P H (staticBlock member) := by
  unfold staticBlock empty
  grind +splitImp

@[grind ←]
theorem makes_methodMember (member : Node) {function : Node} (key : String)
    (hfunction : H → Fits P function) : Same P H (methodMember member function key) := by
  unfold methodMember empty
  have hkind : Fits P (if member.flag "static" then SubKind.static else .method) := by
    split <;> trivial
  split
  · grind
  · refine .bind (makes_lowerFunction _ hfunction fun _ => hkind) fun sub => ?_
    obtain ⟨name, params, body, isMethod, isStatic, returnType, remarks⟩ := sub
    grind

theorem makes_vocalMember (hmember : H → Fits P member) : Same P H (classMember member) := by
  unfold classMember
  grind

omit [P.Lawful] in
theorem makes_vocalConstructor (hasBase : Bool)
    (hfields : H → Fits P fields) : Same P H (defaultConstructor hasBase fields) := by
  unfold defaultConstructor Sub.function Param.scalar
  refine .bind (makes_withInvocant _ (makes_inScope_of_free
    (makes_fieldInits (P := P.free) hfields) (fun _ => rfl) fun _ h => h))
    fun inits => by grind

end Vocal

@[grind ←]
theorem makes_classMember (hmember : H → Fits P member) : Same P H (classMember member) :=
  .of_vocal (makes_vocalMember (P := P.vocal) hmember) (fun _ => rfl) fun _ h => h

omit [P.Lawful] in
@[grind ←]
theorem makes_defaultConstructor (hasBase : Bool)
    (hfields : H → Fits P fields) : Same P H (defaultConstructor hasBase fields) :=
  .of_vocal (makes_vocalConstructor (P := P.vocal) hasBase hfields) (fun _ => rfl) fun _ h => h

theorem allowed_classMembers (h : Fits P node) : Fits P (classMembers node) := by
  unfold classMembers
  cases hbody : node.child? "body" with
  | none => simp
  | some body => exact fits_children (fits_child h hbody)

theorem makes_constructorOf {parts : ClassParts} (hasBase : Bool) (h : H → Fits P parts) :
    Makes P H (constructorOf parts hasBase) (constructorOf (twin P parts) hasBase) := by
  obtain ⟨fields, instanceFields, staticInit, methods, construct⟩ := parts
  rw [(parts_twin ..).1]
  cases construct with
  | none => exact makes_defaultConstructor hasBase fun hH => (h hH).1
  | some function =>
    exact makes_lowerFunction _ (fun hH => (h hH).2.2.2 function rfl) fun hH => (h hH).1

@[grind ←]
theorem makes_lowerClassNamed (name : String) (hnode : H → Fits P node) :
    Same P H (lowerClassNamed node name) := by
  unfold lowerClassNamed
  refine .bind (makes_addClass name) fun _ => .bind ?_ fun ⟨parts, new⟩ => ?_
  · refine makes_atPlace (fun _ _ h => { h with enclosingClass := rfl }) ?_
    refine .bind (.mapM (fun h => allowed_classMembers (hnode h.1)) (by simp) fun member => ?_)
      fun members => ?_
    · grind
    · have hfold : (twin P members).foldl append .empty =
          twin P (members.foldl append .empty) := by
        rw [twin_foldParts, noParts_twin.1]
      have hfits (h : Fits P members) : Fits P (members.foldl append .empty) :=
        allowed_foldParts h noParts_twin.2
      dsimp only
      rw [hfold]
      exact .bind (makes_constructorOf _ fun h => hfits h.2) fun new =>
        .pure (fun h => ⟨hfits h.1.2, h.2⟩) rfl
  · obtain ⟨fields, instanceFields, staticInit, methods, construct⟩ := parts
    refine .bind (by grind) fun options => .pure (fun h => ?_) (by simp)
    simp only [builtStmt_twin, stmt_twin]
    refine allowed_package ?_ h.1.2.1.2.1
    exact (fits_cons new methods).2 ⟨h.1.2.2, h.1.2.1.2.2.1⟩

@[grind ←]
theorem makes_lowerClass (name : Option String) (hnode : H → Fits P node) :
    Same P H (lowerClass node name) := by
  unfold lowerClass
  grind

end Scriptgen.Perl
