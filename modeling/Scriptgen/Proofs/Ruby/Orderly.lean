import Scriptgen.Proofs.Ruby.Functions
import Scriptgen.Proofs.Switch.Arms
/-!
# Lowering to Ruby is orderly

Whatever the node, lowering it at a place keeps to the discipline there. Operators, expressions and
statements are gone through one by one, and `lawful_level` closes the recursion over the levels.
-/

namespace Scriptgen.Ruby

open Lowering Fitting Option

variable {P : Place} {node : Node} {nodes : List Node} {node? : Option Node}

/-! ## Operators -/

section Operators

variable {left right : Node}

@[grind ←] theorem yields_typeTest (value expected) :
    Yields P (typeTest value expected) := by
  unfold typeTest; grind

@[grind ←] theorem yields_typeofValue (value) : Yields P (typeofValue value) := by
  unfold typeofValue; grind

@[grind ←] theorem yields_instanceOf (cls) (h : Fits P node) : Yields P (instanceOf node cls) := by
  unfold instanceOf; grind

@[grind ←] theorem tries_specialEquality (hleft : Fits P left) (hright : Fits P right) :
    Tries P (specialEquality left right) := by
  unfold specialEquality; grind

@[grind ←] theorem yields_intOperand (h : Fits P node) : Yields P (intOperand node) := by
  unfold intOperand; grind

@[grind ←] theorem yields_wordOperator (operator) (hleft : Fits P left) (hright : Fits P right) :
    Yields P (wordOperator operator left right) := by
  unfold wordOperator; grind

@[grind ←] theorem tries_plainBinary (node operator) (hleft : Fits P left) (hright : Fits P right) :
    Tries P (plainBinary node operator left right) := by
  unfold plainBinary; grind

@[grind ←] theorem tries_binaryOperator (node operator) (hleft : Fits P left)
    (hright : Fits P right) : Tries P (binaryOperator node operator left right) := by
  unfold binaryOperator; grind

section

variable (h : Fits P node)

include h

@[grind ←]
theorem tries_binaryExpr : Tries P (binaryExpr node) := by
  unfold binaryExpr
  refine .bind (by grind) fun operator _ => ?_
  grind

@[grind ←]
theorem tries_logicalExpr : Tries P (logicalExpr node) := by
  unfold logicalExpr
  refine .bind (by grind) fun left hleft => ?_
  grind

@[grind ←] theorem tries_deleteExpr : Tries P (deleteExpr node) := by
  unfold deleteExpr; grind

@[grind ←] theorem yields_toNumber : Yields P (toNumber node) := by
  unfold toNumber; grind

@[grind ←] theorem tries_complement : Tries P (complement node) := by
  unfold complement; grind

@[grind ←] theorem tries_unaryExpr : Tries P (unaryExpr node) := by
  unfold unaryExpr; grind

@[grind ←] theorem tries_updateExpr : Tries P (updateExpr node) := by
  unfold updateExpr; grind

end

@[grind ←]
theorem tries_plainAssignment (hleft : Fits P left) (hright : Fits P right)
    (hlearns : ∀ key, left.valueKey? = some key → P.learns key) :
    Tries P (plainAssignment left right) := by
  unfold plainAssignment
  refine .bind (by grind) fun context _ => ?_
  grind

@[grind ←] theorem yields_appendTo (place) (hright : Fits P right) :
    Yields P (appendTo place right) := by
  unfold appendTo; grind

@[grind ←] theorem tries_operatorAssignment (node operator left place)
    (hright : Fits P right) : Tries P (operatorAssignment node operator left right place) := by
  unfold operatorAssignment
  split
  · grind
  · refine Tries.getBind (fun s => ?_) fun _ _ => rfl
    grind

theorem tries_assignmentExpr (h : Fits P node) (htype : node.type = "AssignmentExpression") :
    Tries P (assignmentExpr node) := by
  unfold assignmentExpr
  refine .bind (by grind) fun operator _ => Tries.needBind fun left hleft => ?_
  have hlearns (key : String) (hkey : left.unwrapped.valueKey? = some key) : P.learns key := by
    refine P.set h ?_
    simp [Node.setKeys, Node.assignedKey?, htype, hleft, hkey]
  have hfits := fits_child h hleft
  grind

end Operators

/-! ## Tagged nodes -/

section Tagged

section

variable (h : Fits P node)

include h

@[grind ←] theorem tries_valueIn (field) : Tries P (valueIn node field) := by
  unfold valueIn; grind

@[grind ←] theorem yields_taggedTypedArray : Yields P (taggedTypedArray node) := by
  unfold taggedTypedArray; grind

@[grind ←] theorem tries_taggedArray (tag) : Tries P (taggedArray node tag) := by
  unfold taggedArray; grind

@[grind ←] theorem tries_taggedText (tag) : Tries P (taggedText node tag) := by
  unfold taggedText; grind

@[grind ←] theorem tries_taggedRotation (left) :
    Tries P (taggedRotation node left) := by
  unfold taggedRotation; grind

@[grind ←] theorem tries_taggedNumber (tag) : Tries P (taggedNumber node tag) := by
  unfold taggedNumber; grind

@[grind ←] theorem tries_taggedObject (tag) : Tries P (taggedObject node tag) := by
  unfold taggedObject; grind

@[grind ←] theorem tries_taggedThis (tag) : Tries P (taggedThis node tag) := by
  unfold taggedThis; grind

@[grind ←] theorem tries_taggedExpr : Tries P (taggedExpr node) := by
  unfold taggedExpr; grind

@[grind ←] theorem tries_taggedStmts : Tries P (taggedStmts node) := by
  unfold taggedStmts; grind

end

end Tagged

/-! ## Expressions -/

section Expressions

variable {args : List Node} {object callee : Node}

@[grind ←] theorem yields_freeName (name) : Yields P (freeName name) := by unfold freeName; grind

@[grind ←] theorem yields_identifier (name) : Yields P (identifier name) := by
  unfold identifier; grind

@[grind ←]
theorem yields_template (h : Fits P node) : Yields P (template node) := by
  refine .bind (.mapM (fits_zipIdx (fits_children h)) fun ⟨quasi, i⟩ _ => ?_) fun parts hparts =>
    .pure (by grind)
  grind

@[grind ←] theorem yields_arrayItems (h : Fits P node) : Yields P (arrayItems node) := by
  unfold arrayItems; grind

@[grind ←] theorem yields_propertyKey (property) {key : Node} (h : Fits P key) :
    Yields P (propertyKey property key) := by
  unfold propertyKey; grind

@[grind ←] theorem yields_objectPart {property : Node} (h : Fits P property) :
    Yields P (objectPart property) := by
  unfold objectPart; grind

@[grind ←] theorem yields_objectLiteral (h : Fits P node) : Yields P (objectLiteral node) := by
  unfold objectLiteral; grind

@[grind ←] theorem tries_ownerMember (object name) : Tries P (ownerMember object name) := by
  unfold ownerMember; grind

@[grind ←] theorem tries_errorMember (object name) : Tries P (errorMember object name) := by
  unfold errorMember; grind

@[grind ←] theorem tries_plainMember (name) (h : Fits P object) : Tries P (plainMember object name) := by
  unfold plainMember; grind

@[grind ←] theorem tries_memberExpr (h : Fits P node) : Tries P (memberExpr node) := by
  unfold memberExpr; grind

@[grind ←] theorem yields_callsVariable (name) : Yields P (callsVariable name) := by
  unfold callsVariable; grind

section

variable (hargs : Fits P args)

include hargs

@[grind ←] theorem yields_nameCall (name) : Yields P (nameCall name args) := by
  unfold nameCall; grind

@[grind ←] theorem tries_ownerCall (object method) :
    Tries P (ownerCall object method args) := by
  unfold ownerCall; grind

@[grind ←] theorem yields_indirectArguments (method) :
    Yields P (indirectArguments method args) := by
  unfold indirectArguments; grind

@[grind ←] theorem tries_indirectCall (method) (h : Fits P object) :
    Tries P (indirectCall object method args) := by
  unfold indirectCall; grind

@[grind ←] theorem tries_plainMethodCall (method) (h : Fits P object) :
    Tries P (plainMethodCall object method args) := by
  unfold plainMethodCall; grind

@[grind ←] theorem tries_memberCall (h : Fits P callee) :
    Tries P (memberCall callee args) := by
  unfold memberCall; grind

end

section

variable (h : Fits P node)

include h

@[grind ←] theorem tries_callExpr : Tries P (callExpr node) := by
  unfold callExpr; grind

omit h in
@[grind ←] theorem tries_libraryNew (callee) (hargs : Fits P args) :
    Tries P (libraryNew callee args) := by
  unfold libraryNew; grind

@[grind ←] theorem tries_newExpr : Tries P (newExpr node) := by
  unfold newExpr; grind

@[grind ←]
theorem tries_conditionalExpr : Tries P (conditionalExpr node) := by
  unfold conditionalExpr
  refine .bind (by grind) fun testNode htest => ?_
  grind

@[grind ←] theorem tries_sequenceExpr : Tries P (sequenceExpr node) := by
  unfold sequenceExpr; grind

@[grind ←]
theorem tries_plainExpr : Tries P (plainExpr node) := by
  unfold plainExpr
  grind [tries_assignmentExpr]

@[grind ←] theorem tries_lowerExpr : Tries P (lowerExpr node) := by
  unfold lowerExpr; grind

@[grind ←] theorem tries_compositeTest : Tries P (compositeTest node) := by
  unfold compositeTest; grind

@[grind ←] theorem yields_valueTest : Yields P (valueTest node) := by
  unfold valueTest; grind

@[grind ←] theorem yields_lowerTest : Yields P (lowerTest node) := by
  unfold lowerTest; grind

end

end Expressions

/-! ## Declarations -/

section Declarations

variable {name : String}

@[grind ←] theorem yields_declareAs (name shape isVar) :
    Yields P (declareAs name shape isVar) := by
  unfold declareAs; grind

@[grind ←] theorem yields_startsFunction (name) : Yields P (startsFunction name) := by
  unfold startsFunction; grind

@[grind ←]
theorem yields_topLevelFunction (name) (h : Fits P node) : Yields P (topLevelFunction name node) :=
  .bind (yields_lowerFunction _ h trivial) fun _ _ => .pure trivial

@[grind ←] theorem yields_declareFunction (name isVar) (h : Fits P node) :
    Yields P (declareFunction name node isVar) := by
  unfold declareFunction; grind

@[grind ←] theorem yields_declareValue (isVar) (hname : P.learns name) (h : Fits P node?) :
    Yields P (declareValue name node? isVar) := by
  unfold declareValue; grind

@[grind ←] theorem yields_declareOne (isVar) (hname : P.learns name) (h : Fits P node?) :
    Yields P (declareOne name node? isVar) := by
  unfold declareOne; grind

@[grind ←]
theorem yields_declarator (isVar) (h : Fits P node) : Yields P (declarator node isVar) := by
  unfold declarator
  dsimp only
  split
  · grind
  · rename_i id hid
    have htarget := target_of_id h hid
    have hfits := htarget.1
    grind

@[grind ←] theorem yields_varDecl (h : Fits P node) : Yields P (varDecl node) := by
  unfold varDecl; grind

@[grind ←]
theorem yields_functionDecl (h : Fits P node) : Yields P (functionDecl node) := by
  unfold functionDecl
  split
  · grind
  · rename_i name hname
    have hlearns := learns_of_id h hname
    refine .bind (by grind) fun context _ => ?_
    split
    · exact .bind (yields_addFunction _) fun _ _ => by grind
    · grind

end Declarations

/-! ## Statements -/

variable {loop : CountingLoop}

section Statements

@[grind ←] theorem yields_returnStmt (h : Fits P node) : Yields P (returnStmt node) := by
  unfold returnStmt; grind

@[grind ←] theorem yields_branch (h : Fits P node?) : Yields P (branch node?) := by
  unfold branch; grind

@[grind ←] theorem yields_alternative (h : Fits P node) : Yields P (alternative node) := by
  unfold alternative; grind

@[grind ←]
theorem yields_ifStmt (h : Fits P node) : Yields P (ifStmt node) := by
  unfold ifStmt
  split <;> grind

@[grind ←] theorem yields_loopTest (h : Fits P node) : Yields P (loopTest node) := by
  unfold loopTest; grind

@[grind ←] theorem yields_loopInit (h : Fits P node?) : Yields P (loopInit node?) := by
  unfold loopInit; grind

@[grind ←]
theorem yields_steppedLoop (label) (h : Fits P node) : Yields P (steppedLoop node label) := by
  refine Yields.inScope (.bind (by grind) fun init _ => .bind (by grind) fun cond _ => ?_)
  exact .bind (yields_loopBody rfl rfl (yields_branch (fits_child? h))) fun r _ => by grind

/-- A counting loop declares its variable. -/
structure CountingLoop.Fitted (P : Place) (loop : CountingLoop) : Prop where
  var : P.learns loop.var
  start : Fits P loop.start
  bound : Fits P loop.bound
  body : Fits P loop.body

instance : Fitting Place CountingLoop := ⟨CountingLoop.Fitted⟩

theorem fits_counter? {init start : Node} {var : String} (h : Fits P init)
    (hcounter : CountingLoop.counter? init = some (var, start)) : P.learns var ∧ Fits P start := by
  unfold CountingLoop.counter? at hcounter
  split at hcounter
  · split at hcounter
    · rename_i declaration hdeclaration
      have hfits : Fits P (init.children "declarations") := fits_children h
      rw [hdeclaration, fits_cons] at hfits
      simp only [bind_eq_bind, bind_eq_some_iff] at hcounter
      obtain ⟨id, hid, name, hname, value, hvalue, hpair⟩ := hcounter
      cases hpair
      exact ⟨learns_of_target (target_of_id hfits.1 hid) hname, fits_child hfits.1 hvalue⟩
    · cases hcounter
  · cases hcounter

@[grind →]
theorem fits_countingLoop (h : Fits P node)
    (hloop : CountingLoop.ofNode? node = some loop) : Fits P loop := by
  simp only [CountingLoop.ofNode?, bind_eq_bind, bind_eq_some_iff] at hloop
  obtain ⟨init, hinit, ⟨var, start⟩, hcounter, test, htest, -, -, left, -, -, -, operator, -, comparison, -,
    right, hright, update, -, step, -, body, hbody, -, -, -, -, hmade⟩ := hloop
  cases hmade
  obtain ⟨hvar, hstart⟩ := fits_counter? (fits_child h hinit) hcounter
  exact ⟨hvar, hstart, fits_unwrapped (fits_child (fits_unwrapped (fits_child h htest)) hright),
    fits_child h hbody⟩

@[grind ←]
theorem yields_countingStmts (label) (h : Fits P loop) : Yields P (countingStmts loop label) := by
  obtain ⟨hvar, hstart, hbound, hbody⟩ := h
  unfold countingStmts
  refine .bind (by grind) fun start _ => .bind (by grind) fun stop _ => ?_
  refine Yields.inScope (.bind (by grind) fun _ _ => .bind (yields_addNumber _) fun _ _ => ?_)
  exact .bind (yields_loopBody rfl rfl (yields_branch ((fits_some _).2 hbody))) fun r _ => by grind

@[grind ←] theorem yields_forStmt (label) (h : Fits P node) : Yields P (forStmt node label) := by
  unfold forStmt; grind

@[grind ←] theorem yields_whileStmt (label) (h : Fits P node) : Yields P (whileStmt node label) := by
  unfold whileStmt; grind

theorem target_of_loopTarget? {target : Node} (h : Fits P node) (hbinds : node.bindsLeft = true)
    (htarget : loopTarget? (node.child? "left") = some target) : P.target target := by
  obtain ⟨left, hleft, htarget⟩ := bind_eq_some_iff.1 htarget
  split at htarget
  · obtain ⟨declaration, hdeclaration, hid⟩ := bind_eq_some_iff.1 htarget
    have hfits := fits_children (fits_child h hleft) declaration (List.mem_of_head? hdeclaration)
    exact target_of_id hfits hid
  · cases htarget
    exact target_of_mem_targets h (Node.mem_targets_of_left hbinds hleft)

@[grind ←]
theorem yields_loopBinding {left : Option Node}
    (h : ∀ target, loopTarget? left = some target → P.target target) :
    Yields P (loopBinding left) := by
  unfold loopBinding
  split
  · grind
  · rename_i target htarget
    have htarget := h target htarget
    split
    · grind
    · split
      · refine .bind (.mapM_of_mem fun element helement => ?_) fun params _ => .pure (by simp)
        split
        · rename_i name hbound
          obtain ⟨element, rfl, hname⟩ := bind_eq_some_iff.1 hbound
          have hlearns : P.learns name :=
            learns_of_item htarget helement (by simp [Node.itemNames, hname])
          grind
        · grind
      · grind

theorem yields_blockLoop (label receiver method) (h : Fits P node) (hbinds : node.bindsLeft = true) :
    Yields P (blockLoop node label receiver method) := by
  refine Yields.inScope (.bind (yields_loopBinding fun _ => target_of_loopTarget? h hbinds)
    fun binding _ => ?_)
  exact .bind (yields_loopBody rfl rfl (by grind)) fun r _ => .pure (by grind)

theorem yields_forOfStmt (label) (h : Fits P node) (hbinds : node.bindsLeft = true) :
    Yields P (forOfStmt node label) := by
  unfold forOfStmt; grind [yields_blockLoop]

theorem yields_forInStmt (label) (h : Fits P node) (hbinds : node.bindsLeft = true) :
    Yields P (forInStmt node label) := by
  unfold forInStmt; grind [yields_blockLoop]

structure SwitchArm.Fitted (P : Place) (arm : SwitchArm) : Prop where
  tests : Fits P arm.tests
  body : Fits P arm.body

instance : Fitting Place SwitchArm := ⟨SwitchArm.Fitted⟩

section

variable (h : Fits P node)

include h

theorem fits_switchArms : Fits P (switchArms (node.children "cases")) := by
  intro arm harm
  refine ⟨fun test htest => ?_, fun stmt hstmt => ?_⟩
  · obtain ⟨case, hcase, htest⟩ := Switch.exists_case_of_mem_tests harm htest
    exact fits_child (fits_children h case hcase) htest
  · obtain ⟨case, hcase, hstmt⟩ := Switch.exists_case_of_mem_switchArms harm hstmt
    exact fits_children (fits_children h case hcase) stmt hstmt

omit h in
@[grind ←]
theorem yields_switchArm {arm : SwitchArm} (var) (h : Fits P arm) : Yields P (switchArm var arm) := by
  obtain ⟨htests, hbody⟩ := h
  unfold switchArm
  grind

@[grind ←]
theorem yields_switchStmt (label) : Yields P (switchStmt node label) := by
  refine .bind (by grind) fun discriminant _ => .bind (by grind) fun var _ => ?_
  refine .bind (Yields.inFrame rfl rfl (.mapM (fits_switchArms h) fun arm harm =>
    yields_switchArm _ harm)) fun r _ => .pure (by grind)

@[grind ←]
theorem yields_labeledStmt : Yields P (labeledStmt node) := by
  unfold labeledStmt
  split
  · grind
  · rename_i body hbody
    have hfits := fits_child h hbody
    split
    · exact yields_stmtBelow _ hfits
    · exact .bind (Yields.inFrame rfl rfl (by grind)) fun r _ => .pure (by grind)

theorem fits_thrownError? {classes : List String} {error : String × Option Node}
    (herror : thrownError? classes node = some error) : Fits P error.2 := by
  unfold thrownError? at herror
  split at herror
  · cases herror
    exact fits_child? h
  · obtain ⟨name, -, rfl⟩ := map_eq_some_iff.1 herror
    exact fits_head? (fits_children h)
  · cases herror

@[grind ←]
theorem yields_throwStmt : Yields P (throwStmt node) := by
  unfold throwStmt
  split
  · grind
  · rename_i thrown hthrown
    have hfits := fits_of_map_unwrapped h hthrown
    refine Yields.getBind (fun s => ?_) fun _ _ => rfl
    split
    · rename_i error herror
      have hmessage := fits_thrownError? hfits herror
      grind
    · grind

@[grind ←]
theorem yields_handlerClause : Yields P (handlerClause node) := by
  have hbody : Fits P ((node.child? "body").elim [] (·.children "body")) := by
    cases hbody : node.child? "body" with
    | none => exact fits_nil.2 trivial
    | some body => exact fits_children (fits_child h hbody)
  unfold handlerClause
  dsimp only
  split
  · grind
  · rename_i name hname
    obtain ⟨param, hparam, hname⟩ := bind_eq_some_iff.1 hname
    have hlearns := learns_of_target (target_of_mem_targets h (Node.mem_targets_of_param hparam)) hname
    grind

@[grind ←] theorem yields_tryStmt : Yields P (tryStmt node) := by
  unfold tryStmt; grind

end

end Statements

/-! ## Expressions as statements -/

section ExpressionStatements

variable (h : Fits P node)

include h

@[grind ←]
theorem tries_lengthAssignment : Tries P (lengthAssignment node) := by
  unfold lengthAssignment
  refine .bind (by grind) fun left hleft => ?_
  dsimp only
  split
  · exact .failure
  · refine .bind (by grind) fun object hobject => ?_
    grind

@[grind ←] theorem tries_callStmts : Tries P (callStmts node) := by
  unfold callStmts; grind

@[grind ←] theorem tries_updateStmts : Tries P (updateStmts node) := by
  unfold updateStmts; grind

@[grind ←] theorem tries_logicalStmts : Tries P (logicalStmts node) := by
  unfold logicalStmts; grind

@[grind ←] theorem tries_specialStmts : Tries P (specialStmts node) := by
  unfold specialStmts; grind

@[grind ←]
theorem yields_lowerExprStmt : Yields P (lowerExprStmt node) := by
  have hnode := fits_unwrapped h
  refine Yields.orUse (.orElse (by grind) fun _ => by grind) (.bind (tries_lowerExpr hnode) fun e _ => ?_)
  exact .pure (by grind)

end ExpressionStatements

/-! ## Levels -/

theorem yields_lowerStmt (label) (h : Fits P node) : Yields P (lowerStmt label node) := by
  unfold lowerStmt
  split
  case h_11 htype => exact yields_forOfStmt label h (by simp [Node.bindsLeft, htype])
  case h_12 htype => exact yields_forInStmt label h (by simp [Node.bindsLeft, htype])
  all_goals grind

/-- **Lowering does at a place what is asked of it**, whatever the level. -/
theorem sound_level (height : Nat) : Sound P (level height) := by
  induction height with
  | zero =>
    exact {
      expr := fun _ s _ => ⟨.refl s, rfl, fun _ _ => trivial⟩
      test := fun _ s _ => ⟨.refl s, rfl, trivial⟩
      stmt := fun _ _ s _ => ⟨.refl s, rfl, fun _ _ => trivial⟩
      exprStmt := fun _ s _ => ⟨.refl s, rfl, fun _ _ => trivial⟩
      lambda := fun _ s _ => ⟨.refl s, rfl, trivial⟩ }
  | succ height ih =>
    exact {
      expr := fun c s h => tries_lowerExpr h _ ih c s
      test := fun c s h => yields_lowerTest h _ ih c s
      stmt := fun label c s h => yields_lowerStmt label h _ ih c s
      exprStmt := fun c s h => yields_lowerExprStmt h _ ih c s
      lambda := fun c s h => yields_lowerLambda h _ ih c s }

/-- **Warnings are noted and never read.** A run that keeps none ends in the same state but for them. -/
theorem lowerProgram_muted (options : Options) (program : Node) :
    lowerProgram { options with strictInput := false } program =
      (lowerProgram options program).map id State.muted := by
  have hstmts : Yields anywhere (programStmts (topLevelStatements program)) :=
    .bind (.mapM_of_mem fun _ _ => yields_startAsNil _ _) fun vars _ =>
      .bind (yields_stmts fun _ _ => trivial) fun _ _ => .pure fun _ _ => trivial
  have h := (hstmts _ (sound_level program.height)
    (Context.top options (outlineOf (topLevelStatements program))
      ((nestedVars (topLevelStatements program)).map (·.1)))
    (State.start options (declaredFunctions (topLevelStatements program) ++
      constFunctions (topLevelStatements program)) (declaredClasses (topLevelStatements program)))).muted
  exact h

end Scriptgen.Ruby
