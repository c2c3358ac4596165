import Scriptgen.Proofs.Perl.TwinLibrary
/-!
# Expressions of two runs

Operators, tagged nodes, members and calls. A call of a name that the program uses is allowed by what
is asked of its nodes.
-/

namespace Scriptgen.Perl

open Lowering Fitting

variable {P : Policy} [P.Lawful] {H : Prop} {node : Node}

/-! ## Operators -/

variable {operand' operand : Expr} {callee : Node}

@[grind ←]
theorem makes_typeofTest (expected : String)
    (hoperand : H → Fits P operand) (heq : operand' = twin P operand) :
    Makes P H (typeofTest operand expected) (typeofTest operand' expected) := by
  subst heq
  have htwin : twin P (typeofTest.looksLikeNumber operand) =
      typeofTest.looksLikeNumber (twin P operand) := by
    simp [typeofTest.looksLikeNumber]
  have hlooks (h : P.asks "Scalar::Util") (hfits : Fits P operand) :
      Fits P (typeofTest.looksLikeNumber operand) := by
    have hname : P.allows (.call "Scalar::Util::looks_like_number") :=
      allows_asked "looks_like_number" (by decide) h (by decide)
    simp [typeofTest.looksLikeNumber, hfits, hname]
  unfold typeofTest
  split <;> grind

@[grind ←]
theorem makes_typeofValue (hoperand : H → Fits P operand) (heq : operand' = twin P operand) :
    Makes P H (typeofValue operand) (typeofValue operand') := by
  subst heq
  have hlooks (h : P.asks "Scalar::Util") : P.allows (.call "Scalar::Util::looks_like_number") :=
    allows_asked "looks_like_number" (by decide) h (by decide)
  unfold typeofValue
  grind

variable {left right : Node}

@[grind ←]
theorem makesTry_specialEquality (hleft : H → Fits P left) (hright : H → Fits P right) :
    SameTry P H (specialEquality left right) := by
  unfold specialEquality
  grind +splitImp

@[grind ←]
theorem makes_instanceTest {object object' : Expr} (className : Node)
    (hobject : H → Fits P object) (heq : object' = twin P object) :
    Makes P H (instanceTest object className) (instanceTest object' className) := by
  subst heq
  have hblessed (h : P.asks "Scalar::Util") : P.allows (.call "Scalar::Util::blessed") :=
    allows_asked "blessed" (by decide) h (by decide)
  unfold instanceTest
  split <;> grind

@[grind ←]
theorem makesTry_plainBinary (node : Node) (operator : String) (hleft : H → Fits P left)
    (hright : H → Fits P right) : SameTry P H (plainBinary node operator left right) := by
  unfold plainBinary
  grind +splitImp

section

variable (hnode : H → Fits P node)

include hnode

@[grind ←]
theorem makesTry_binaryExpr :
    SameTry P H (binaryExpr node) := by
  unfold binaryExpr
  grind +splitImp

@[grind ←]
theorem makesTry_logicalExpr :
    SameTry P H (logicalExpr node) := by
  unfold logicalExpr
  refine .needBind fun operator _ => ?_
  split <;> grind +splitImp

@[grind ←]
theorem makesTry_unaryExpr :
    SameTry P H (unaryExpr node) := by
  unfold unaryExpr
  grind +splitImp

@[grind ←]
theorem makesTry_updateExpr :
    SameTry P H (updateExpr node) := by
  unfold updateExpr
  grind +splitImp

@[grind ←]
theorem makesTry_assignTarget :
    SameTry P H (assignTarget node) := by
  unfold assignTarget
  refine .getBind fun s => ?_
  dsimp only
  simp only [state_twin]
  split
  · rename_i target htarget
    simp only [Option.bind_eq_bind, Option.bind_eq_some_iff, Option.map_eq_some_iff] at htarget
    obtain ⟨name, hname, shape, hshape, rfl⟩ := htarget
    grind
  · grind

end

@[grind ←]
theorem makesTry_compoundAssignment (node : Node) (operator : String) (hleft : H → Fits P left)
    (hright : H → Fits P right) : SameTry P H (compoundAssignment node operator left right) := by
  unfold compoundAssignment
  grind +splitImp -funext

omit [P.Lawful] in
@[grind ←]
theorem makesTry_setterCall (left : Node) (hright : H → Fits P right) :
    SameTry P H (setterCall left right) := by
  unfold setterCall
  grind +splitImp

@[grind ←]
theorem makesTry_containerAssignment (left : Node) (hright : H → Fits P right) :
    SameTry P H (containerAssignment left right) := by
  unfold containerAssignment
  grind

@[grind ←]
theorem makesTry_plainAssignment (hleft : H → Fits P left) (hright : H → Fits P right) :
    SameTry P H (plainAssignment left right) := by
  unfold plainAssignment
  grind +splitImp

@[grind ←]
theorem makesTry_assignmentExpr (hnode : H → Fits P node) :
    SameTry P H (assignmentExpr node) := by
  unfold assignmentExpr
  grind +splitImp

/-! ## Tagged nodes -/

omit [P.Lawful] in
@[grind ←]
theorem makes_thisValue : Same P H thisValue := by
  unfold thisValue
  grind

omit [P.Lawful] in
@[grind ←]
theorem makesTry_getterValue (name : String) : SameTry P H (getterValue name) := by
  unfold getterValue
  grind

variable (tag : String)

section

variable (hnode : H → Fits P node)

include hnode

@[grind ←]
theorem makesTry_taggedArray : SameTry P H (taggedArray node tag) := by
  unfold taggedArray
  grind +splitImp

@[grind ←]
theorem makesTry_taggedText : SameTry P H (taggedText node tag) := by
  unfold taggedText
  grind +splitImp -funext

omit hnode in
@[grind ←]
theorem makesTry_taggedRotation (left : Bool) (hnode : H → Fits P node) :
    SameTry P H (taggedRotation node left) := by
  unfold taggedRotation
  grind +splitImp -funext

@[grind ←]
theorem makesTry_taggedNumber : SameTry P H (taggedNumber node tag) := by
  unfold taggedNumber
  grind +splitImp

@[grind ←]
theorem makesTry_taggedObject : SameTry P H (taggedObject node tag) := by
  unfold taggedObject
  grind +splitImp

@[grind ←]
theorem makesTry_taggedThis : SameTry P H (taggedThis node tag) := by
  unfold taggedThis
  grind +splitImp

@[grind ←]
theorem makesTry_taggedExpr :
    SameTry P H (taggedExpr node) := by
  unfold taggedExpr
  grind

end

/-! ## Names and members -/

omit [P.Lawful] in
@[grind ←]
theorem makes_identifier (name : String) : Same P H (identifier name) := by
  unfold identifier
  grind

@[grind ←]
theorem makes_template (hnode : H → Fits P node) : Same P H (template node) := by
  unfold template
  refine .bind (.mapM (fun hH => fits_zipIdx (fits_children (hnode hH))) (by simp)
    fun ⟨quasi, i⟩ => ?_) fun parts => ?_
  · grind +splitImp
  · grind

variable {object : Node}

@[grind ←]
theorem makes_computedMember {property : Node} (hobject : H → Fits P object)
    (hproperty : H → Fits P property) : Same P H (computedMember object property) := by
  unfold computedMember
  grind +splitImp

omit [P.Lawful] in
@[grind ←]
theorem makes_thisMemberValue (name : String) : Same P H (thisMemberValue name) := by
  unfold thisMemberValue
  grind

@[grind ←]
theorem makesTry_globalMember (object : Node) (name : String) :
    SameTry P H (globalMember object name) := by
  unfold globalMember
  grind

@[grind ←]
theorem makesTry_errorMember (object : Node) (name : String) :
    SameTry P H (errorMember object name) := by
  unfold errorMember
  grind

@[grind ←]
theorem makesTry_plainMember (name : String) (hobject : H → Fits P object) :
    SameTry P H (plainMember object name) := by
  unfold plainMember
  grind

@[grind ←]
theorem makesTry_memberExpr (hnode : H → Fits P node) :
    SameTry P H (memberExpr node) := by
  unfold memberExpr
  grind +splitImp

/-! ## Calls -/

variable {args : List Node}

theorem makes_nameCall {name : String} (hcallee : H → Fits P callee)
    (hname : callee.name? = some name) (hargs : H → Fits P args) :
    Same P H (nameCall name args) := by
  have hplain : H → P.allows (.call name) := fun hH => Policy.Lawful.named (hcallee hH) hname
  have hqualified (c : Context) (place : Place) (hH : H) (hc : Fits P c) :
      P.allows (.call (c.qualify place name)) := Policy.Lawful.qualified (hcallee hH) hname hc
  unfold nameCall
  grind +splitImp

@[grind ←]
theorem makesTry_ownerCall (method : String) (hobject : H → Fits P object)
    (hargs : H → Fits P args) : SameTry P H (ownerCall object method args) := by
  unfold ownerCall
  refine .needBind fun name hname => ?_
  have hclass : H → P.allows (.callClass name) := fun hH =>
    Policy.Lawful.namedClass (hobject hH) hname
  grind

@[grind ←]
theorem makesTry_indirectCall (method : String) (hobject : H → Fits P object)
    (hargs : H → Fits P args) : SameTry P H (indirectCall object method args) := by
  unfold indirectCall
  grind +splitImp

@[grind ←]
theorem makesTry_plainMethodCall (method : String) (hobject : H → Fits P object)
    (hargs : H → Fits P args) : SameTry P H (plainMethodCall object method args) := by
  unfold plainMethodCall
  grind +splitImp

@[grind ←]
theorem makesTry_memberCall (hcallee : H → Fits P callee)
    (hargs : H → Fits P args) : SameTry P H (memberCall callee args) := by
  unfold memberCall
  grind +splitImp

@[grind ←]
theorem makesTry_callExpr (hnode : H → Fits P node) :
    SameTry P H (callExpr node) := by
  unfold callExpr
  refine .needBind fun callee hcallee => ?_
  have hfits : H → Fits P callee.unwrapped := fun hH =>
    fits_unwrapped (fits_child (hnode hH) hcallee)
  dsimp only
  split
  · grind +splitImp
  · refine .needBind fun name hname => .lift ?_
    exact makes_nameCall hfits hname fun hH => fits_children (hnode hH)
  · grind
  · grind +splitImp

@[grind ←]
theorem makesTry_libraryNew (callee : Node) (hargs : H → Fits P args) :
    SameTry P H (libraryNew callee args) := by
  unfold libraryNew
  grind

variable (hnode : H → Fits P node)

include hnode

@[grind ←]
theorem makesTry_newExpr : SameTry P H (newExpr node) := by
  unfold newExpr
  grind +splitImp

@[grind ←]
theorem makesTry_conditionalExpr : SameTry P H (conditionalExpr node) := by
  unfold conditionalExpr
  refine .needBind fun test htest => ?_
  have htest : H → Fits P test := fun hH => fits_child (hnode hH) htest
  split
  · split <;> grind +splitImp
  · grind +splitImp -funext

@[grind ←]
theorem makesTry_sequenceExpr : SameTry P H (sequenceExpr node) := by
  unfold sequenceExpr
  refine .bind (by grind) fun exprs => ?_
  rcases exprs with _ | ⟨only, _ | ⟨next, rest⟩⟩ <;> grind

end Scriptgen.Perl
