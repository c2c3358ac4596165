import Scriptgen.Proofs.Perl.Switch
import Scriptgen.Proofs.Perl.TwinFunctions
/-!
# Programs of two runs

Statements are gone through one by one, and `makes_level` closes the recursion over the levels. Main
result: `lowerProgram_twin`, what two runs of the lowering of a program have to do with each other, and
what its code may contain.
-/

namespace Scriptgen.Perl

open Lowering Fitting Option List Switch

variable {P : Policy} [P.Lawful] {H : Prop} {node : Node}

/-! ## All expressions -/

variable (hnode : H → Fits P node)

include hnode

@[grind ←]
theorem makes_classExpr : Same P H (classExpr node) := by
  unfold classExpr
  grind

@[grind ←]
theorem makesTry_plainExpr : SameTry P H (plainExpr node) := by
  have hplain : Fits P SubKind.plain := trivial
  unfold plainExpr
  split <;> grind +splitImp

@[grind ←]
theorem makesTry_lowerExpr : SameTry P H (lowerExpr node) := by
  unfold lowerExpr
  grind +splitImp

omit hnode

variable {init : Option Node} {program array expr stmt : Node}

section Statements

variable [P.Free]

/-! ## Declarations -/

omit [P.Lawful] in
@[grind ←]
theorem makes_declareAs (name : String) (shape : Shape) (isVar : Bool) :
    Same P H (declareAs name shape isVar) := by
  unfold declareAs
  grind

@[grind ←]
theorem makes_declareOne (name : String) (isVar : Bool)
    (hinit : H → Fits P init) : Same P H (declareOne name init isVar) := by
  have hplain : Fits P SubKind.plain := trivial
  unfold declareOne
  grind +splitImp

@[grind ←]
theorem makes_declarator (isVar : Bool) (hnode : H → Fits P node) :
    Same P H (declarator node isVar) := by
  unfold declarator
  grind +splitImp

@[grind ←]
theorem makes_varDecl (hnode : H → Fits P node) : Same P H (varDecl node) := by
  unfold varDecl
  grind +splitImp

@[grind ←]
theorem makes_functionDecl (hnode : H → Fits P node) :
    Same P H (functionDecl node) := by
  have hplain : Fits P SubKind.plain := trivial
  unfold functionDecl
  split
  · grind
  · refine .getBind fun s => ?_
    simp only [state_twin]
    split
    · exact .bind (makes_addFunction _) fun _ => by grind +splitImp
    · grind +splitImp

/-! ## Jumps -/

/-- A jump past some constructs, which gives the one that it leads to a label if it has none. -/
def jumpPast (skipped : Nat) : Lower Stmt := do
  let label ← if skipped == 0 then pure none else frameLabel skipped
  return .plain (.jump .next label)

section Jumps

variable {b : Below} {c : Context} {s : State} {skipped : Nat}

omit [P.Lawful] [P.Free]

theorem jumpPast_twin : jumpPast skipped b (twin P c) (twin P s) =
    (twin P (jumpPast skipped b c s).1, twin P (jumpPast skipped b c s).2) := by
  unfold jumpPast frameLabel
  cases hskipped : skipped == 0 with
  | true => rfl
  | false =>
    simp only [run_bind, run_get, state_twin, Bool.false_eq_true, if_false]
    cases s.frames[skipped]? with
    | none => rfl
    | some frame => cases hlabel : frame.label <;> simp only [hlabel] <;> rfl

theorem jumpPast_leads (h : ∀ frame, s.frames[skipped]? = some frame → frame.kind ≠ .switch) :
    P.Leads s (jumpPast skipped b c s).2 ∧
      (jumpPast skipped b c s).2.pendingFields = s.pendingFields ∧
      ∃ label, (jumpPast skipped b c s).1 = .plain (.jump .next label) := by
  unfold jumpPast frameLabel
  cases hskipped : skipped == 0 with
  | true => exact ⟨.refl s, rfl, _, rfl⟩
  | false =>
    simp only [run_bind, run_get, Bool.false_eq_true, if_false]
    cases hframe : s.frames[skipped]? with
    | none => exact ⟨.refl s, rfl, _, rfl⟩
    | some frame =>
      cases hlabel : frame.label with
      | some label =>
        simp only [hlabel]
        exact ⟨.refl s, rfl, _, rfl⟩
      | none =>
        simp only [hlabel]
        have hnamed : ({ s with names := (s.names.fresh "loop").2 } : State).frames[skipped]? =
          some frame := hframe
        exact ⟨⟨.trans (.draw s "loop") (.label _ hnamed (h frame hframe) hlabel), fun _ => rfl, id⟩,
          rfl, _, rfl⟩

theorem makes_jump {x : Lower Stmt} (skipped : State → Nat)
    (hx : ∀ b c s, x b c s = jumpPast (skipped s) b c s)
    (hskipped : ∀ s, skipped (twin P s) = skipped s)
    (h : ∀ s frame, s.frames[skipped s]? = some frame → frame.kind ≠ .switch) : Same P H x := by
  intro b hb
  refine ⟨fun c s => ?_, fun c s => ?_, fun c s hend hH hc hs => ?_⟩
  · rw [hx, hx, hskipped, jumpPast_twin]
  · rw [hx]
    exact (jumpPast_leads (h s)).1
  · obtain ⟨-, hfields, label, hlabel⟩ := jumpPast_leads (P := P) (b := b) (c := c) (h s)
    have hstate : Fits P (jumpPast (skipped s) b c s).2.pendingFields := by
      rw [hfields]
      exact hs
    rw [hx, hlabel]
    exact ⟨by simp, hstate⟩

theorem eq_false_of_getElem?_takeWhile {α : Type} {p : α → Bool} {l : List α} {a : α}
    (h : l[(l.takeWhile p).length]? = some a) : p a = false := by
  induction l with
  | nil => cases h
  | cons x l ih =>
    cases hx : p x with
    | true =>
      rw [takeWhile_cons_of_pos hx] at h
      exact ih h
    | false =>
      rw [takeWhile_cons_of_neg (by rw [hx]; decide)] at h
      cases h
      exact hx

/-- The constructs that a jump to the next round crosses. -/
def crossedSwitches (s : State) : Nat := (s.frames.takeWhile (·.kind == .switch)).length

theorem kind_of_crossedSwitches {frame : Frame}
    (h : s.frames[crossedSwitches s]? = some frame) : frame.kind ≠ .switch := by
  intro hkind
  have hother := eq_false_of_getElem?_takeWhile h
  rw [hkind] at hother
  cases hother

@[grind ←]
theorem makes_nextStmt : Same P H nextStmt :=
  makes_jump crossedSwitches (fun _ _ _ => rfl) (fun _ => rfl) fun _ _ => kind_of_crossedSwitches

@[grind ←]
theorem makes_callbackNext : Same P H callbackNext := by
  refine makes_jump (fun s => (s.frames.findIdx? (·.kind == .callback)).getD (crossedSwitches s))
    (fun b c s => ?_) (fun _ => rfl) fun s frame hframe => ?_
  · unfold callbackNext
    rw [run_bind, run_get]
    cases s.frames.findIdx? (·.kind == .callback) <;> rfl
  · cases hcrossed : s.frames.findIdx? (·.kind == .callback) with
    | none =>
      rw [hcrossed] at hframe
      exact kind_of_crossedSwitches hframe
    | some crossed =>
      intro hkind
      rw [hcrossed, getD_some] at hframe
      obtain ⟨hlt, hcallback, -⟩ := findIdx?_eq_some_iff_getElem.1 hcrossed
      rw [getElem?_eq_getElem hlt] at hframe
      cases hframe
      rw [hkind] at hcallback
      cases hcallback

end Jumps

variable [P.Vocal]

omit [P.Free] in
@[grind ←]
theorem makes_returnStmt (hnode : H → Fits P node) : Same P H (returnStmt node) := by
  unfold returnStmt
  grind +splitImp

omit [P.Lawful] [P.Free] [P.Vocal] in
@[grind ←]
theorem makes_continueStmt (node : Node) : Same P H (continueStmt node) := by
  unfold continueStmt
  grind

/-! ## Branches and loops -/

omit [P.Free] in
@[grind ←]
theorem makes_branch {node : Option Node} (hnode : H → Fits P node) : Same P H (branch node) := by
  unfold branch
  grind

@[grind ←]
theorem makes_alternative (hnode : H → Fits P node) :
    Same P H (alternative node) := by
  unfold alternative
  grind

@[grind ←]
theorem makes_ifStmt (hnode : H → Fits P node) : Same P H (ifStmt node) := by
  unfold ifStmt
  split
  · grind
  · split <;> grind +splitImp -funext

variable (label : Option String)

omit [P.Free] in
@[grind ←]
theorem makes_loopBody {body : Option Node} (hbody : H → Fits P body) :
    Same P H (loopBody label body) := by
  unfold loopBody
  grind

omit [P.Vocal] [P.Lawful] [P.Free] in
theorem makes_loopStart (decls : List Stmt) :
    Makes P (H ∧ Fits P decls)
      (match decls with
        | [only] => return ([], some only)
        | _ => return (decls, none))
      (match twin P decls with
        | [only] => return ([], some only)
        | _ => return (twin P decls, none)) := by
  rcases decls with _ | ⟨only, _ | ⟨next, rest⟩⟩ <;> grind

omit [P.Vocal] in
@[grind ←]
theorem makes_loopInit (hinit : H → Fits P init) : Same P H (loopInit init) := by
  unfold loopInit
  split
  · exact .bind (.pure (fun _ => fits_nil.2 trivial) rfl) makes_loopStart
  · split
    · exact .bind (by grind) makes_loopStart
    · refine .bind (by grind) fun exprs => ?_
      exact .bind (.pure (by grind) (map_ofExpr_twin exprs).1.symm) makes_loopStart

@[grind ←]
theorem makes_forStmt (hnode : H → Fits P node) : Same P H (forStmt node label) := by
  unfold forStmt
  cases hupdate : node.child? "update" <;> grind +splitImp -funext

omit [P.Vocal] in
@[grind ←]
theorem makes_loopBinding {left : Option Node} (hleft : H → Fits P left) :
    Same P H (loopBinding left) := by
  unfold loopBinding
  cases left with
  | none => grind
  | some left =>
    by_cases hdecl : (left.type == "VariableDeclaration") = true
    · simp only [hdecl, if_true]
      have htarget (hH : H) :
          Fits P ((left.children "declarations").head? >>= (·.child? "id")) := by
        intro target htarget
        obtain ⟨first, hfirst, hid⟩ := bind_eq_some_iff.1 htarget
        have hfits := (fits_some left).1 (hleft hH)
        exact fits_child (fits_of_head? (fits_children hfits) hfirst) hid
      generalize ((left.children "declarations").head? >>= (·.child? "id")) = target at htarget ⊢
      cases target with
      | none => grind
      | some target => cases hname : target.name? <;> grind
    · simp only [hdecl]
      cases hname : left.name? <;> grind

include hnode

@[grind ←]
theorem makes_foreachOver {list list' : Expr}
    (hlist : H → Fits P list) (heq : list' = twin P list) :
    Makes P H (foreachOver node label list) (foreachOver node label list') := by
  subst heq
  unfold foreachOver
  grind +splitImp

@[grind ←]
theorem makes_forOfStmt : Same P H (forOfStmt node label) := by
  unfold forOfStmt
  grind +splitImp

@[grind ←]
theorem makes_forInStmt : Same P H (forInStmt node label) := by
  unfold forInStmt
  grind +splitImp

omit [P.Free] in
@[grind ←]
theorem makes_whileStmt : Same P H (whileStmt node label) := by
  unfold whileStmt
  grind +splitImp

/-! ## Switches -/

omit hnode

instance : Fitting Policy SwitchArm := ⟨fun P arm => Fits P arm.tests ∧ Fits P arm.body⟩

omit [P.Free] [P.Vocal] in
@[grind ←]
theorem allowed_switchArms {cases : List Node} (h : Fits P cases) : Fits P (switchArms cases) := by
  intro arm harm
  refine ⟨fun test htest => ?_, fun stmt hstmt => ?_⟩
  · obtain ⟨case, hcase, htest⟩ := exists_case_of_mem_tests harm htest
    exact fits_child (h case hcase) htest
  · obtain ⟨case, hcase, hstmt⟩ := exists_case_of_mem_switchArms harm hstmt
    exact fits_children (h case hcase) stmt hstmt

omit [P.Lawful] [P.Free] [P.Vocal] in
@[grind ←]
theorem makes_caseTest (var : String) {test : Node} (htest : H → Fits P test) :
    Same P H (caseTest var test) := by
  unfold caseTest
  grind

omit [P.Lawful] [P.Free] in
@[grind ←]
theorem makes_switchArm (var : String) {arm : SwitchArm} (harm : H → Fits P arm) :
    Same P H (switchArm var arm) := by
  obtain ⟨tests, isDefault, body⟩ := arm
  have htests (hH : H) : Fits P tests := (harm hH).1
  have hbody (hH : H) : Fits P body := (harm hH).2
  unfold switchArm
  grind +splitImp

section Chains

omit [P.Lawful] [P.Free] [P.Vocal]

variable {arms : List (Option (List Expr) × List Stmt)}

theorem twin_conditions :
    twin P (conditions (binary .or) arms) = conditions (binary .or) (twin P arms) := by
  unfold conditions
  induction arms with
  | nil => rfl
  | cons arm arms ih =>
    obtain ⟨_ | _ | ⟨first, rest⟩, body⟩ := arm <;> simpa using ih

theorem allowed_conditions (h : Fits P arms) :
    Fits P (conditions (binary .or) arms) := by
  unfold conditions
  induction arms with
  | nil => simp
  | cons arm arms ih =>
    obtain ⟨harm, harms⟩ := (fits_cons arm arms).1 h
    obtain ⟨_ | _ | ⟨first, rest⟩, body⟩ := arm
    · exact ih harms
    · exact ih harms
    · simp_all

theorem twin_defaultArm :
    twin P (defaultArm arms) = defaultArm (twin P arms) := by
  have hreverse : (twin P arms).reverse = twin P arms.reverse := map_reverse.symm
  unfold defaultArm
  rw [hreverse]
  induction arms.reverse with
  | nil => rfl
  | cons arm arms ih =>
    obtain ⟨_ | tests, body⟩ := arm
    · rfl
    · simpa using ih

theorem allowed_defaultArm (h : Fits P arms) : Fits P (defaultArm arms) := by
  intro body hbody
  obtain ⟨arm, harm, rfl⟩ := map_eq_some_iff.1 hbody
  exact (h arm (mem_reverse.1 (mem_of_find?_eq_some harm))).2

@[simp, grind norm]
theorem twin_switchChain :
    twin P (switchChain arms) = switchChain (twin P arms) := by
  rw [switchChain_eq, switchChain_eq, chainOf, chainOf, ← twin_conditions,
    ← twin_defaultArm]
  rcases conditions (binary .or) arms with _ | ⟨⟨cond, body⟩, rest⟩ <;> simp

@[grind ←]
theorem allowed_switchChain (h : Fits P arms) : Fits P (switchChain arms) := by
  have hconditions := allowed_conditions h
  have hdefault := allowed_defaultArm h
  rw [switchChain_eq, chainOf]
  split
  · exact fits_getD hdefault (fits_nil.2 trivial)
  · rename_i cond body rest heq
    rw [heq] at hconditions
    simp_all

end Chains

omit [P.Free] in
@[grind ←]
theorem makes_switchStmt (hnode : H → Fits P node) :
    Same P H (switchStmt node label) := by
  unfold switchStmt
  grind +splitImp

/-! ## Errors -/

omit [P.Vocal] [P.Free] in
@[grind →]
theorem allowed_errorMessage? {thrown : Node} {message : Option Node} (h : Fits P thrown)
    (hmessage : errorMessage? thrown = some message) : Fits P message := by
  unfold errorMessage? at hmessage
  split at hmessage
  · cases hmessage
    exact fits_child? h
  · split at hmessage
    · cases hmessage
      exact fits_head? (fits_children h)
    · cases hmessage
  · cases hmessage

omit [P.Vocal] [P.Free] in
@[grind ←]
theorem makes_throwStmt (hnode : H → Fits P node) : Same P H (throwStmt node) := by
  unfold throwStmt
  grind +splitImp

theorem makes_handlerBody (hnode : H → Fits P node) (var : String) :
    Same P H (handlerBody node var) := by
  refine .bind (by grind) fun _ => .bind ?_ fun body => by grind
  refine makes_atPlace (fun _ _ h => { h with catchVars := congrArg tail h.catchVars }) ?_
  grind

@[grind ←]
theorem makes_handlerClause (hnode : H → Fits P node) :
    Same P H (handlerClause node) := by
  have hbody (var : String) := makes_handlerBody (H := H ∧ Fits P var) (fun h => hnode h.1) var
  unfold handlerClause
  cases node.child? "param" >>= Node.name? with
  | none => exact .bind (makes_fresh _) fun var => makes_inScope (hbody var)
  | some name => exact .bind (.pure (fun _ => trivial) rfl) fun var => makes_inScope (hbody var)

@[grind ←]
theorem makes_tryStmt (hnode : H → Fits P node) : Same P H (tryStmt node) := by
  unfold tryStmt
  refine .bind (by grind) fun options => ?_
  simp only [choices_twin]
  split
  · refine makes_useTryBind ?_
    grind +splitImp -funext [Policy.Lawful.nativeTry]
  · grind +splitImp -funext

/-! ## Expressions as statements -/

omit [P.Vocal] in
@[grind ←]
theorem makes_loopHead {callback : Callback} (harray : H → Fits P array)
    (hcallback : H → Fits P callback) : Same P H (loopHead array callback) := by
  unfold loopHead
  grind +splitImp -funext

@[grind ←]
theorem makes_foreachStmt {callback : Node} (harray : H → Fits P array)
    (hcallback : H → Fits P callback) : Same P H (foreachStmt array callback) := by
  unfold foreachStmt
  cases hliteral : (Callback.ofNode? callback).filter Callback.hasNamedParams with
  | none => grind
  | some literal =>
    have hfits (hH : H) : Fits P literal := allowed_of_filter (fits_ofNode? (hcallback hH)) hliteral
    refine makes_inScope (.bind (by grind) fun ⟨setup, var, list, bindings⟩ => ?_)
    refine .bind (makes_inFrame _ _ (makes_atPlace (fun _ _ h => { h with inLoopCallback := rfl }) ?_))
      fun ⟨label, body⟩ => by grind
    cases hbody : literal.body <;> grind

@[grind ←]
theorem makesTry_methodStmts {receiver : Node} (method : String) {args : List Node}
    (hreceiver : H → Fits P receiver) (hargs : H → Fits P args) :
    SameTry P H (methodStmts receiver method args) := by
  unfold methodStmts
  grind +splitImp

omit [P.Lawful] [P.Free] [P.Vocal] in
@[grind ←]
theorem makes_superConstructor {args args' : List Expr} (hargs : H → Fits P args)
    (heq : args' = twin P args) :
    Makes P H (superConstructor args) (superConstructor args') := by
  subst heq
  unfold superConstructor
  refine .bind (by grind) fun fields => ?_
  cases fields <;> grind

include hnode

@[grind ←]
theorem makesTry_taggedStmts : SameTry P H (taggedStmts node) := by
  unfold taggedStmts
  grind +splitImp

omit [P.Vocal] [P.Free] in
@[grind ←]
theorem makesTry_lengthAssignment : SameTry P H (lengthAssignment node) := by
  unfold lengthAssignment
  grind +splitImp

@[grind ←]
theorem makesTry_callStmts : SameTry P H (callStmts node) := by
  unfold callStmts
  grind +splitImp

@[grind ←]
theorem makesTry_specialStmts : SameTry P H (specialStmts node) := by
  unfold specialStmts
  grind +splitImp

@[grind ←]
theorem makes_lowerExprStmt : Same P H (lowerExprStmt node) := by
  unfold lowerExprStmt
  refine makes_orUse (by grind +splitImp) ?_
  refine .bind (makesTry_lowerExpr fun hH => fits_unwrapped (hnode hH)) fun value => ?_
  cases value with
  | none => exact .pure (fun _ => fits_nil.2 trivial) rfl
  | some value => exact .pure (fun h => by simpa using h.2) rfl

/-! ## All levels -/

theorem makes_lowerStmt : Same P H (lowerStmt label node) := by
  unfold lowerStmt
  split
  case h_18 =>
    split
    · rename_i body hbody
      exact makes_stmtBelow _ fun hH => fits_child (hnode hH) hbody
    · grind
  all_goals grind +splitImp

end Statements

/-- **The lowering of every level is twin to itself.** -/
theorem makes_level (P : Policy) [P.Lawful] (height : Nat) : (level height).Makes P := by
  induction height with
  | zero =>
    intro silent calm
    refine ⟨fun _ => .pure ?_ rfl, fun _ => .pure ?_ rfl, fun _ => .pure ?_ ?_,
      fun _ _ _ _ => .pure ?_ rfl, fun _ _ _ => .pure ?_ rfl⟩
    all_goals simp [Sub.function]
    exact fun _ _ _ huse => by simp at huse
  | succ height ih =>
    intro silent calm
    have hplain : Fits (P.tuned silent calm) SubKind.plain := trivial
    exact ⟨fun node => makesTry_lowerExpr id _ ih, fun node => makes_lowerItems id _ ih,
      fun node => makes_lowerFunction "" id (fun _ => hplain) _ ih,
      fun hsilent hcalm label node =>
        have : (P.tuned silent calm).Vocal := ⟨hsilent⟩
        have : (P.tuned silent calm).Free := ⟨hcalm⟩
        makes_lowerStmt id label _ ih,
      fun hsilent hcalm node =>
        have : (P.tuned silent calm).Vocal := ⟨hsilent⟩
        have : (P.tuned silent calm).Free := ⟨hcalm⟩
        makes_lowerExprStmt id _ ih⟩

/-! ## Programs -/

/-- The options of the other run. -/
def Policy.other (P : Policy) (options : Options) : Options :=
  { options with
    typeAnnotations := P.types && options.typeAnnotations
    strictInput := P.warnings && options.strictInput }

theorem makes_program (P : Policy) [P.Lawful] [P.Vocal] [P.Free] (program : Node) :
    MakesStep P (Fits P (topLevelStatements program))
      (stmts (topLevelStatements program) (level program.height))
      (stmts (topLevelStatements program) (level program.height)) :=
  makes_stmts id _ (makes_level P program.height)

/-- **Two runs end alike.** The statements and the state of the other run are the twins of those of
the first one. -/
theorem lowerProgram_twin (P : Policy) [P.Lawful] [P.Vocal] [P.Free] (options : Options) (program : Node) :
    lowerProgram (P.other options) program =
      (twin P (lowerProgram options program).1, twin P (lowerProgram options program).2) := by
  have hstart (functions classes : List String) :
      State.start (P.other options) functions classes =
        twin P (State.start options functions classes) := by
    have hwarnings : WarningLog.empty (P.warnings && options.strictInput) =
        twin P (WarningLog.empty options.strictInput) := by
      cases hkeep : P.warnings <;> simp [twin, hkeep]
    unfold State.start Policy.other
    rw [hwarnings]
    rfl
  unfold lowerProgram
  dsimp only
  rw [hstart]
  exact (makes_program P program).same (Context.top options) _

section Wrappers

variable {P : Policy} [P.Lawful]

theorem allowed_prefixed? (h : Fits P expr) : Fits P expr.prefixed? := by
  unfold Node.prefixed?
  split
  · split <;> first | exact fits_child? h | simp
  · simp

theorem allowed_invocation? (h : Fits P expr) : Fits P expr.invocation? := by
  fun_induction Node.invocation? expr with
  | case1 expr _ operand hoperand ih => exact ih (allowed_prefixed? (fits_unwrapped h) _ hoperand)
  | case2 => simp
  | case3 expr _ => simpa using fits_unwrapped h

theorem allowed_invoked? {call : Node} (h : Fits P call) : Fits P call.invoked? := by
  intro function hfunction
  simp only [Node.invoked?, bind_eq_bind, bind_eq_some_iff] at hfunction
  obtain ⟨callee, hcallee, hfunction⟩ := hfunction
  have hfits : Fits P callee.unwrapped := fits_unwrapped (fits_child h hcallee)
  have hmember {object : Node} (hobject : callee.unwrapped.child? "object" = some object)
      (hchosen : (if object.unwrapped.isFunctionExpr then some object.unwrapped else none) =
        some function) : Fits P function := by
    obtain ⟨-, heq⟩ := ite_none_right_eq_some.1 hchosen
    cases heq
    exact fits_unwrapped (fits_child hfits hobject)
  split at hfunction
  · cases hfunction
    refine fits_getD (fun factory hfactory => ?_) hfits
    have hmem := mem_reverse.1 (mem_of_find?_eq_some hfactory)
    obtain ⟨argument, hargument, rfl⟩ := mem_map.1 hmem
    exact fits_unwrapped (fits_children h argument hargument)
  · split at hfunction
    iterate 2
      obtain ⟨object, hobject, hchosen⟩ := bind_eq_some_iff.1 hfunction
      exact hmember hobject hchosen
    · cases hfunction

theorem allowed_wrapperBody? (h : Fits P stmt) : Fits P stmt.wrapperBody? := by
  intro body hbody
  unfold Node.wrapperBody? at hbody
  obtain ⟨_, -, hbody⟩ := bind_eq_some_iff.1 hbody
  obtain ⟨expr, hexpr, hbody⟩ := bind_eq_some_iff.1 hbody
  obtain ⟨call, hcall, hbody⟩ := bind_eq_some_iff.1 hbody
  obtain ⟨_, -, hbody⟩ := bind_eq_some_iff.1 hbody
  obtain ⟨function, hfunction, hbody⟩ := bind_eq_some_iff.1 hbody
  obtain ⟨block, hblock, hbody⟩ := bind_eq_some_iff.1 hbody
  obtain ⟨-, heq⟩ := ite_none_right_eq_some.1 hbody
  cases heq
  have hfits : Fits P call := allowed_invocation? (fits_child h hexpr) call hcall
  exact fits_children (fits_child (allowed_invoked? hfits function hfunction) hblock)

theorem allowed_contribution (inWrapper : Bool) (h : Fits P stmt) :
    Fits P (stmt.contribution inWrapper) := by
  fun_induction Node.contribution inWrapper stmt with
  | case1 | case2 => simp
  | case3 inWrapper stmt _ _ body hbody ih =>
    intro node hnode
    obtain ⟨⟨inner, hinner⟩, -, hnode⟩ := mem_flatMap.1 hnode
    exact ih inner hinner (allowed_wrapperBody? h body hbody inner hinner) node hnode
  | case4 => simpa using h

theorem allowed_topLevelStatements (h : Fits P program) : Fits P (topLevelStatements program) := by
  intro node hnode
  obtain ⟨stmt, hstmt, hnode⟩ := mem_flatMap.1 hnode
  exact allowed_contribution false (fits_children h stmt hstmt) node hnode

end Wrappers

/-- **What the code of a program may contain**, if the nodes of the program fit. -/
theorem lowerProgram_allowed (P : Policy) [P.Lawful] [P.Vocal] [P.Free] {options : Options}
    (hreached : P.reaches (lowerProgram options program).2)
    (hoptions : P.choices options.toChoices) (hnode : P.node program) :
    Fits P (lowerProgram options program).1 :=
  ((makes_program P program).fits _ _ hreached (allowed_topLevelStatements hnode) hoptions
    (fits_none (α := List Stmt).2 trivial)).1

end Scriptgen.Perl
