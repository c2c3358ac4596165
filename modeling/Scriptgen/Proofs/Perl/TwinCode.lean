import Scriptgen.Proofs.Perl.Twins
/-!
# Code of two runs

The twin of a tree is put together from the twins of its parts, and a tree is allowed if its parts
are. The same holds for everything that builds code. The equations are tagged, so that `grind` follows
the text of a builder.
-/

namespace Scriptgen.Perl

open Lowering Fitting Returning List Stmt

variable {P : Policy}

/-! ## Twins of parts -/

theorem each_eq_twin {α : Type} [Twinned α] {each : List α → List α} (hnil : each [] = [])
    (hcons : ∀ a l, each (a :: l) = twin P a :: each l) (l : List α) : each l = twin P l := by
  induction l with
  | nil => exact hnil
  | cons a l ih => rw [hcons, ih, twin_cons]

theorem retypeExprs_eq (exprs : List Expr) : retypeExprs P.types exprs = twin P exprs :=
  each_eq_twin rfl (fun _ _ => rfl) exprs

theorem retypePairs_eq (pairs : List (Expr × Expr)) : retypePairs P.types pairs = twin P pairs :=
  each_eq_twin rfl (fun _ _ => rfl) pairs

theorem retypeStmts_eq (stmts : List Stmt) : retypeStmts P.types stmts = twin P stmts :=
  each_eq_twin rfl (fun _ _ => rfl) stmts

theorem retypeParams_eq (params : List Param) : retypeParams P.types params = twin P params :=
  each_eq_twin rfl (fun _ _ => rfl) params

theorem retypeSubs_eq (subs : List Sub) : retypeSubs P.types subs = twin P subs :=
  each_eq_twin rfl (fun _ _ => rfl) subs

theorem retypeBranches_eq (branches : List (Expr × List Stmt)) :
    retypeBranches P.types branches = twin P branches :=
  each_eq_twin rfl
    (fun branch rest => congrArg (fun body => (twin P branch.1, body) :: retypeBranches P.types rest)
      (retypeStmts_eq branch.2)) branches

theorem retypeOption_eq (expr : Option Expr) : retypeOption P.types expr = twin P expr := by
  cases expr <;> rfl

theorem retypeInit_eq (stmt : Option Stmt) : retypeInit P.types stmt = twin P stmt := by
  cases stmt <;> rfl

theorem retypeClause_eq (body : Option (List Stmt)) : retypeClause P.types body = twin P body := by
  cases body with
  | none => rfl
  | some body => exact congrArg some (retypeStmts_eq body)

theorem retypeHandler_eq (handler : Option (String × List Stmt)) :
    retypeHandler P.types handler = twin P handler := by
  cases handler with
  | none => rfl
  | some handler => exact congrArg (fun body => some (handler.1, body)) (retypeStmts_eq handler.2)

/-! ## Parts that are allowed -/

theorem each_allowed {α : Type} [Fitting Policy α] {f : String → α → Uses}
    {each : String → List α → Uses} (hnil : ∀ p, each p [] = [])
    (hcons : ∀ p a l, each p (a :: l) = f p a ++ each p l)
    (hone : ∀ a, (∀ p, ∀ use ∈ f p a, P.allows use.2) ↔ Fits P a) (l : List α) :
    (∀ p, ∀ use ∈ each p l, P.allows use.2) ↔ Fits P l := by
  induction l with
  | nil => simp [hnil]
  | cons a l ih =>
    rw [fits_cons, ← ih, ← hone]
    simp only [hcons, mem_append, or_imp, forall_and]

section Passing

variable {α β γ δ ε : Type} [Returning α] [Returning β] [Returning γ] [Returning δ] [Returning ε]
variable {x : α} {a : β} {b : γ} {c : δ} {d : ε}
variable {f g h k : String → Uses}

theorem passes_part (heq : ∀ t, returns t x = returns t a) : P.Passes f x ↔ P.Passes f a := by
  simp only [Policy.Passes, heq]

theorem passes_append (heq : ∀ t, returns t x = (returns t a || returns t b)) :
    P.Passes (fun p => f p ++ g p) x ↔ P.Passes f a ∧ P.Passes g b := by
  simp only [Policy.Passes, heq, mem_append, Bool.or_eq_false_iff, or_imp, forall_and]
  exact and_and_and_comm

theorem passes_append₃
    (heq : ∀ t, returns t x = (returns t a || returns t b || returns t c)) :
    P.Passes (fun p => f p ++ g p ++ h p) x ↔ P.Passes f a ∧ P.Passes g b ∧ P.Passes h c := by
  rw [← and_assoc, ← passes_append (x := (a, b)) fun _ => rfl]
  exact passes_append heq

theorem passes_append₄
    (heq : ∀ t, returns t x = (returns t a || returns t b || returns t c || returns t d)) :
    P.Passes (fun p => f p ++ g p ++ h p ++ k p) x ↔
      P.Passes f a ∧ P.Passes g b ∧ P.Passes h c ∧ P.Passes k d := by
  rw [← passes_append (x := (c, d)) fun _ => rfl, ← passes_append₃ (x := x)]
  · simp only [append_assoc]
  · simpa only [returns_pair, Bool.or_assoc] using heq

theorem passes_named {construct : Construct} :
    P.Passes (fun p => (p, construct) :: f p) x ↔ P.allows construct ∧ P.Passes f x := by
  simp [Policy.Passes, forall_and, and_assoc]

theorem passes_silent (heq : ∀ t, returns t x = false) :
    P.Passes f x ↔ ∀ package, ∀ use ∈ f package, P.allows use.2 := by
  simp [Policy.Passes, heq]

theorem passes_ret (value : Option Expr) :
    P.Passes f (StmtKind.ret value) ↔ P.silent = false ∧ P.Passes f value := by
  cases hsilent : P.silent <;> simp [Policy.Passes, hsilent]

end Passing

theorem each_passes {α : Type} [Returning α] [Fitting Policy α]
    {f : String → α → Uses} {each : String → List α → Uses}
    (hnil : ∀ p, each p [] = []) (hcons : ∀ p a l, each p (a :: l) = f p a ++ each p l)
    (hone : ∀ a, P.Passes (f · a) a ↔ Fits P a) (l : List α) : P.Passes (each · l) l ↔ Fits P l := by
  induction l with
  | nil => simp [Policy.Passes, hnil]
  | cons a l ih =>
    rw [fits_cons, ← ih, ← hone]
    simp only [hcons]
    exact passes_append fun _ => returns_cons a l

theorem fits_exprs (exprs : List Expr) : P.Passes (exprsConstructs · exprs) exprs ↔ Fits P exprs :=
  each_passes (fun _ => rfl) (fun _ _ _ => rfl) (fun _ => Iff.rfl) exprs

theorem fits_stmts (stmts : List Stmt) : P.Passes (stmtsConstructs · stmts) stmts ↔ Fits P stmts :=
  each_passes (fun _ => rfl) (fun _ _ _ => rfl) (fun _ => Iff.rfl) stmts

theorem fits_params [P.Vocal] (params : List Param) :
    (∀ package, ∀ use ∈ paramsConstructs package params, P.allows use.2) ↔ Fits P params :=
  each_allowed (fun _ => rfl) (fun _ _ _ => rfl) (fun _ => by simp [Fits, Policy.Passes]) params

theorem fits_pairs (pairs : List (Expr × Expr)) :
    P.Passes (pairsConstructs · pairs) pairs ↔ Fits P pairs :=
  each_passes (f := fun p pair => pair.1.constructs p ++ pair.2.constructs p)
    (fun _ => rfl) (fun _ _ _ => rfl) (fun pair => passes_append fun _ => returns_pair pair.1 pair.2)
    pairs

theorem fits_branches (branches : List (Expr × List Stmt)) :
    P.Passes (branchesConstructs · branches) branches ↔ Fits P branches :=
  each_passes (f := fun p branch => branch.1.constructs p ++ stmtsConstructs p branch.2)
    (fun _ => rfl) (fun _ _ _ => rfl) (fun branch => (passes_append fun _ =>
      returns_pair branch.1 branch.2).trans (and_congr Iff.rfl (fits_stmts branch.2))) branches

theorem fits_optionExpr (expr : Option Expr) :
    P.Passes (optionConstructs · expr) expr ↔ Fits P expr := by
  cases expr with
  | none => simp [Policy.Passes, optionConstructs]
  | some expr => exact (fits_some (P := P) expr).symm

theorem fits_init (stmt : Option Stmt) : P.Passes (initConstructs · stmt) stmt ↔ Fits P stmt := by
  cases stmt with
  | none => simp [Policy.Passes, initConstructs]
  | some stmt => exact (fits_some (P := P) stmt).symm

theorem fits_clause (body : Option (List Stmt)) :
    P.Passes (clauseConstructs · body) body ↔ Fits P body := by
  cases body with
  | none => simp [Policy.Passes, clauseConstructs]
  | some body => exact (fits_stmts body).trans (fits_some body).symm

theorem fits_handler (handler : Option (String × List Stmt)) :
    P.Passes (handlerConstructs · handler) handler ↔ Fits P handler := by
  cases handler with
  | none => simp [Policy.Passes, handlerConstructs]
  | some handler =>
    obtain ⟨var, body⟩ := handler
    rw [fits_some, fits_pair, ← fits_stmts]
    simp [Policy.Passes, handlerConstructs]

/-! ## Constructors -/

section

variable {α β γ : Type} [Twinned α] [Fitting Policy α] [Twinned β] [Fitting Policy β] [Twinned γ]
  [Fitting Policy γ]

/-- **The twin of what is built** of code, and when it fits. -/
@[simp]
abbrev Policy.Pairs (P : Policy) (built twinned : α) (fits : Prop) : Prop :=
  twin P built = twinned ∧ (Fits P built ↔ fits)

/-- It is built of one part, and fits if that does. -/
@[simp]
abbrev Policy.Keeps (P : Policy) (build : α → β) : Prop :=
  ∀ a, P.Pairs (build a) (build (twin P a)) (Fits P a)

@[simp]
abbrev Policy.Keeps₂ (P : Policy) (build : α → β → γ) : Prop :=
  ∀ a b, P.Pairs (build a b) (build (twin P a) (twin P b)) (Fits P a ∧ Fits P b)

/-- It is built of no code, and fits anywhere. -/
@[simp]
abbrev Policy.Fixes (P : Policy) (built : α) : Prop := twin P built = built ∧ Fits P built

end

@[simp, grind norm]
theorem leaf_twin :
    (∀ text, P.Fixes (Expr.number text)) ∧ (∀ text, P.Fixes (Expr.string text)) ∧
    (∀ b, P.Fixes (Expr.bool b)) ∧ P.Fixes Expr.undefined ∧ (∀ text, P.Fixes (Expr.raw text)) ∧
    (∀ name shape, P.Fixes (Expr.var name shape)) ∧ (∀ text, P.Fixes (RegexSource.pattern text)) ∧
    ∀ kind label, P.Fixes (StmtKind.jump kind label) := by
  refine ⟨fun _ => ⟨rfl, ?_⟩, fun _ => ⟨rfl, ?_⟩, fun _ => ⟨rfl, ?_⟩, ⟨rfl, ?_⟩, fun _ => ⟨rfl, ?_⟩,
    fun _ _ => ⟨rfl, ?_⟩, fun _ => ⟨rfl, ?_⟩, fun _ _ => ⟨rfl, ?_⟩⟩ <;>
    simp [Fits, Policy.Passes, Expr.constructs, RegexSource.constructs, StmtKind.constructs]

@[simp, grind norm]
theorem expr_twin :
    P.Keeps₂ Expr.index ∧ P.Keeps₂ Expr.key ∧ P.Keeps₂ Expr.slice ∧ P.Keeps Expr.lastIndex ∧
    (∀ e shape, P.Pairs (Expr.deref e shape) (.deref (twin P e) shape) (Fits P e)) ∧
    (∀ op e f l r, P.Pairs (Expr.binary op e f l r) (.binary op (twin P e) (twin P f) l r)
      (Fits P e ∧ Fits P f)) ∧
    (∀ op e parens, P.Pairs (Expr.unary op e parens) (.unary op (twin P e) parens) (Fits P e)) ∧
    (∀ e op f, P.Pairs (Expr.assign e op f) (.assign (twin P e) op (twin P f))
      (Fits P e ∧ Fits P f)) ∧
    (∀ name args, P.Pairs (Expr.call name args) (.call name (twin P args))
      (P.allows (.call name) ∧ Fits P args)) ∧
    P.Keeps₂ Expr.callCode ∧
    (∀ e name args, P.Pairs (Expr.callMethod e name args) (.callMethod (twin P e) name (twin P args))
      (Fits P e ∧ Fits P args)) ∧
    (∀ className name args, P.Pairs (Expr.callClass className name args)
      (.callClass className name (twin P args)) (P.allows (.callClass className) ∧ Fits P args)) ∧
    (∀ className args, P.Pairs (Expr.new className args) (.new className (twin P args))
      (P.allows (.new className) ∧ Fits P args)) ∧
    P.Keeps Expr.arrayRef ∧ P.Keeps Expr.list ∧ P.Keeps Expr.hashRef ∧
    (∀ e f g, P.Pairs (Expr.ternary e f g) (.ternary (twin P e) (twin P f) (twin P g))
      (Fits P e ∧ Fits P f ∧ Fits P g)) ∧
    P.Keeps Expr.anonSub ∧ P.Keeps Expr.doBlock ∧
    (∀ op body e f,
      P.Pairs (Expr.blockList op body e f) (.blockList op (twin P body) (twin P e) (twin P f))
        (P.allows (.block op) ∧ Fits P body ∧ Fits P e ∧ Fits P f)) ∧
    P.Keeps₂ Expr.bless ∧ P.Keeps Expr.paren ∧ P.Keeps RegexSource.quoted ∧
    (∀ source flags, P.Pairs (Expr.regex source flags) (.regex (twin P source) flags)
      (Fits P source)) ∧
    ∀ e source f everywhere, P.Pairs (Expr.substitute e source f everywhere)
      (.substitute (twin P e) (twin P source) (twin P f) everywhere)
      (Fits P e ∧ Fits P source ∧ Fits P f) := by
  simp only [Policy.Keeps, Policy.Keeps₂, ← retypeExprs_eq, ← retypePairs_eq, ← retypeStmts_eq,
    ← fits_exprs, ← fits_pairs, ← fits_stmts]
  and_intros <;> intros <;> refine ⟨rfl, ?_⟩ <;> first
    | exact passes_append₃ fun _ => by first | rfl | simp
    | exact passes_append fun _ => by first | rfl | simp
    | exact passes_named.trans (and_congr_right' (passes_append₃ fun _ => by simp))
    | exact passes_named.trans (and_congr_right' (passes_part fun _ => by simp))
    | exact passes_part fun _ => by first | rfl | simp
    | exact passes_silent fun _ => rfl

/-! ## Statements -/

@[simp, grind norm]
theorem stmt_twin :
    (∀ kind remarks, P.Pairs (mk kind remarks) ⟨twin P kind, remarks⟩ (Fits P kind)) ∧
    (∀ label, P.Keeps (StmtKind.block label)) ∧
    (∀ targets o scope, P.Pairs (StmtKind.varDecl targets o scope)
      (.varDecl targets (twin P o) scope) (Fits P o)) ∧
    P.Keeps StmtKind.expr ∧
    (∀ o, P.Pairs (StmtKind.ret o) (.ret (twin P o)) (P.silent = false ∧ Fits P o)) ∧
    (∀ e body elsifs elseBranch, P.Pairs (StmtKind.ifElse e body elsifs elseBranch)
      (.ifElse (twin P e) (twin P body) (twin P elsifs) (twin P elseBranch))
      (Fits P e ∧ Fits P body ∧ Fits P elsifs ∧ Fits P elseBranch)) ∧
    (∀ label init o steps body, P.Pairs (StmtKind.loop label init o steps body)
      (.loop label (twin P init) (twin P o) (twin P steps) (twin P body))
      (Fits P init ∧ Fits P o ∧ Fits P steps ∧ Fits P body)) ∧
    (∀ label var, P.Keeps₂ (StmtKind.foreach label var)) ∧
    (∀ label e body postTest, P.Pairs (StmtKind.while label e body postTest)
      (.while label (twin P e) (twin P body) postTest) (Fits P e ∧ Fits P body)) ∧
    P.Keeps StmtKind.die ∧ P.Keeps StmtKind.package ∧ P.Keeps StmtKind.sub := by
  simp only [Policy.Keeps, Policy.Keeps₂, ← retypeExprs_eq, ← retypeStmts_eq, ← retypeBranches_eq,
    ← retypeOption_eq, ← retypeInit_eq, ← retypeClause_eq, ← fits_exprs, ← fits_stmts,
    ← fits_branches, ← fits_optionExpr, ← fits_init, ← fits_clause]
  and_intros <;> intros <;> refine ⟨rfl, ?_⟩ <;> first
    | exact passes_append₄ fun _ => by simp
    | exact passes_append fun _ => by simp
    | exact passes_part fun _ => by first | rfl | simp
    | exact passes_part fun _ => optionReturns_eq _
    | exact passes_ret _
    | exact passes_silent fun _ => rfl
    | exact (passes_silent fun _ => rfl).trans ⟨fun h => h "", fun h _ => h⟩

@[simp, grind norm]
theorem twin_protect (body : List Stmt) (handler : Option (String × List Stmt))
    (cleanup : Option (List Stmt)) (native : Bool) :
    twin P (StmtKind.protect body handler cleanup native) =
      .protect (twin P body) (twin P handler) (twin P cleanup) native := by
  simp only [← retypeStmts_eq, ← retypeHandler_eq, ← retypeClause_eq]
  rfl

@[simp, grind norm]
theorem twin_declared :
    (∀ name params body isMethod isStatic returnType remarks,
      twin P (Sub.mk name params body isMethod isStatic returnType remarks) =
        ⟨name, twin P params, twin P body, isMethod, isStatic, keepType P.types returnType,
          remarks⟩) ∧
    (∀ name shape type o variadic, twin P (Param.mk name shape type o variadic) =
      ⟨name, shape, keepType P.types type, twin P o, variadic⟩) ∧
    ∀ name base fields methods body blockForm remarks,
      twin P (Package.mk name base fields methods body blockForm remarks) =
        ⟨name, base, twin P fields, twin P methods, twin P body, blockForm, remarks⟩ := by
  simp only [← retypeStmts_eq, ← retypeParams_eq, ← retypeOption_eq, ← retypeSubs_eq]
  and_intros <;> intros <;> rfl

@[simp, grind norm]
theorem allowed_param (name : String) (shape : Shape) (type : Option PerlType) (o : Option Expr)
    (variadic : Bool) : Fits P (Param.mk name shape type o variadic) ↔ Fits P o :=
  (passes_part fun _ => optionReturns_eq o).trans (fits_optionExpr o)

@[simp, grind norm]
theorem allowed_sub [P.Vocal] (name : String) (params : List Param) (body : List Stmt)
    (isMethod isStatic : Bool) (returnType : Option PerlType) (remarks : Remarks) :
    Fits P (Sub.mk name params body isMethod isStatic returnType remarks) ↔
      Fits P params ∧ Fits P body := by
  simp only [← fits_stmts, ← fits_params]
  simp [Fits, Policy.Passes, Sub.constructs, or_imp, forall_and]

@[simp, grind norm]
theorem allowed_protect [P.Vocal] (body : List Stmt) (handler : Option (String × List Stmt))
    (cleanup : Option (List Stmt)) (native : Bool) :
    Fits P (StmtKind.protect body handler cleanup native) ↔
      (native = true → P.allows .nativeTry) ∧ Fits P body ∧ Fits P handler ∧ Fits P cleanup := by
  rw [← fits_stmts, ← fits_handler, ← fits_clause]
  cases native <;>
    simp [Fits, Policy.Passes, StmtKind.constructs, or_imp, forall_and]

theorem allowed_package {name : String} {base : Option String} {fields : List Field}
    {methods : List Sub} {body : List Stmt} {blockForm : Bool} {remarks : Remarks}
    (hmethods : Fits P methods) (hbody : Fits P.vocal body) :
    Fits P (Package.mk name base fields methods body blockForm remarks) := by
  have hsubs : (∀ package, ∀ use ∈ subsConstructs package methods, P.allows use.2) ↔ Fits P methods :=
    each_allowed (fun _ => rfl) (fun _ _ _ => rfl) (fun _ => Iff.rfl) methods
  intro use huse
  rcases mem_append.1 huse with h | h
  · exact hsubs.2 hmethods name use h
  · exact ((fits_stmts body).2 hbody).1 name use h

/-! ## Looking at code -/

section Looking

variable (e : Expr)

@[simp, grind norm]
theorem looking_twin :
    (twin P e).precedence = e.precedence ∧ (twin P e).isList = e.isList ∧
    (twin P e).isListVar = e.isListVar ∧ (twin P e).isMapVar = e.isMapVar ∧
    (twin P e).isZeroText = e.isZeroText ∧ (twin P e).isEmptyText = e.isEmptyText := by
  and_intros <;> cases e <;> rfl

@[simp, grind norm]
theorem isSimple_twin : (twin P e).isSimple = e.isSimple := by
  fun_induction Expr.isSimple e with
  | case6 base i ihBase ihIndex => simp [Expr.isSimple, ihBase, ihIndex]
  | case7 base k ihBase ihKey => simp [Expr.isSimple, ihBase, ihKey]
  | case8 e => cases e <;> first | rfl | simp_all
  | _ => rfl

@[simp, grind norm]
theorem literalNat?_twin : (twin P e).literalNat? = e.literalNat? := by
  cases e <;> rfl

end Looking

/-! ## Builders -/

variable {parts : List Expr} {setup : List Stmt}

section Builders

@[simp, grind norm]
theorem atLeast_twin (e : Expr) (least : Nat) :
    P.Pairs (e.atLeast least) ((twin P e).atLeast least) (Fits P e) := by
  simp only [Expr.atLeast, looking_twin]
  split <;> simp

@[simp, grind norm]
theorem operation_twin :
    (∀ op, P.Keeps₂ (binary op)) ∧ (∀ op, P.Keeps (unary op)) ∧ P.Keeps not ∧
    (∀ e f g, P.Pairs (ternary e f g) (ternary (twin P e) (twin P f) (twin P g))
      (Fits P e ∧ Fits P f ∧ Fits P g)) ∧
    ∀ op e f, P.Pairs (blockList op e f) (blockList op (twin P e) (twin P f))
      (P.allows (.block op) ∧ Fits P e ∧ Fits P f) := by
  simp [binary, unary, not, ternary, blockList]

@[simp, grind norm]
theorem foldl_binary_twin (op : BinaryOp) (e : Expr) (rest : List Expr) :
    P.Pairs (rest.foldl (binary op) e) ((twin P rest).foldl (binary op) (twin P e))
      (Fits P e ∧ Fits P rest) := by
  induction rest generalizing e with
  | nil => simp
  | cons first rest ih => simp [ih, and_assoc]

@[simp, grind norm]
theorem twin_chain (op : BinaryOp) (e : Expr) (parts : List Expr) :
    twin P (chain op e parts) = chain op (twin P e) (twin P parts) := by
  cases parts with
  | nil => rfl
  | cons first rest => exact (foldl_binary_twin op first rest).1

@[grind ←]
theorem allowed_chain {e : Expr} (op : BinaryOp) (he : Fits P e)
    (hparts : Fits P parts) : Fits P (chain op e parts) := by
  cases parts with
  | nil => exact he
  | cons first rest => exact (foldl_binary_twin op first rest).2.2 ((fits_cons first rest).1 hparts)

@[simp, grind norm]
theorem plainExpr_twin :
    (∀ n, P.Fixes (Expr.int n)) ∧ (∀ n, P.Fixes (hex n)) ∧ (∀ name, P.Fixes (Expr.scalar name)) ∧
    P.Fixes infinity ∧ P.Fixes nan ∧ (∀ text, P.Fixes (pattern text)) ∧ P.Fixes current ∧
    ∀ className name, P.Fixes (staticField className name) := by
  simp [Expr.int, hex, Expr.scalar, infinity, nan, pattern, current, staticField]

@[simp, grind norm]
theorem varValue_twin (name : String) (shape : Shape) : P.Fixes (varValue name shape) := by
  cases shape <;> simp [varValue]

@[simp, grind norm]
theorem indicesFrom_twin (start : Int) : P.Keeps (indicesFrom start) := by
  simp [indicesFrom]

@[simp, grind norm]
theorem itemsOf_twin :
    P.Keeps elementsOf ∧ P.Keeps arrayRefTo ∧ P.Keeps pairsOf ∧ P.Keeps hashRefTo := by
  simp only [Policy.Keeps, elementsOf, arrayRefTo, pairsOf, hashRefTo, looking_twin]
  and_intros <;> intro e <;> split <;> simp

@[simp, grind norm]
theorem builtStmt_twin :
    P.Keeps plain ∧ P.Keeps ofExpr ∧ (∀ name shape, P.Keeps (my name shape)) ∧
    (∀ value, P.Pairs (ret value) (.ret (twin P value)) (P.silent = false ∧ Fits P value)) ∧
    P.Keeps₂ when ∧ P.Keeps block ∧ P.Keeps₂ Expr.set ∧
    (∀ name, P.Keeps (setScalar name)) ∧ (∀ name op, P.Keeps (change name op)) ∧
    ∀ targets, P.Keeps (unpack targets) := by
  simp [plain, ofExpr, my, ret, when, block, Expr.set, setScalar,
    change, unpack]

@[simp, grind norm]
theorem twin_setup (setup : List Stmt) :
    (∀ e, twin P (withSetup setup e) = withSetup (twin P setup) (twin P e)) ∧
    ∀ last, twin P (Stmt.after setup last) = Stmt.after (twin P setup) (twin P last) := by
  simp [withSetup, Stmt.after]

@[grind ←]
theorem allowed_withSetup {e : Expr} (hsetup : Fits P setup) (he : Fits P e) :
    Fits P (withSetup setup e) := by
  unfold withSetup
  split <;> simp [hsetup, he]

@[grind ←]
theorem allowed_after {last : Stmt} (hsetup : Fits P setup)
    (hlast : Fits P last) : Fits P (after setup last) := by
  unfold Stmt.after
  split <;> simp [hsetup, hlast]

theorem keeps_map {α β : Type} [Twinned α] [Fitting Policy α] [Twinned β] [Fitting Policy β]
    {build : α → β} (h : P.Keeps build) : P.Keeps (map build) := by
  intro l
  induction l with
  | nil => simp
  | cons a l ih => simp [ih, h a]

@[simp, grind norm]
theorem map_ofExpr_twin : P.Keeps (map ofExpr) := keeps_map (by simp)

variable [P.Lawful]

/-- The functions that lowering calls by itself are allowed, one by one for the simplifier. -/
@[simp, grind norm]
theorem allows_own :
    P.allows (.call "substr") ∧ P.allows (.call "length") ∧ P.allows (.call "join") ∧
    P.allows (.call "int") ∧ P.allows (.call "sort") ∧ P.allows (.call "reverse") ∧
    P.allows (.call "log") ∧ P.allows (.call "keys") ∧ P.allows (.call "unpack") ∧
    P.allows (.call "uc") ∧ P.allows (.call "time") ∧ P.allows (.call "sqrt") ∧
    P.allows (.call "sprintf") ∧ P.allows (.call "split") ∧ P.allows (.call "oct") ∧
    P.allows (.call "lc") ∧ P.allows (.call "index") ∧ P.allows (.call "hex") ∧
    P.allows (.call "chr") ∧ P.allows (.call "warn") ∧ P.allows (.call "scalar") ∧
    P.allows (.call "say") ∧ P.allows (.call "rindex") ∧ P.allows (.call "ref") ∧
    P.allows (.call "rand") ∧ P.allows (.call "push") ∧ P.allows (.call "unshift") ∧
    P.allows (.call "pop") ∧ P.allows (.call "shift") ∧ P.allows (.call "splice") ∧
    P.allows (.call "print") ∧ P.allows (.call "pack") ∧ P.allows (.call "ord") ∧
    P.allows (.call "exp") ∧ P.allows (.call "exists") ∧ P.allows (.call "delete") ∧
    P.allows (.call "defined") ∧ P.allows (.call "atan2") ∧ P.allows (.call "abs") ∧
    P.allows (.call "sin") ∧ P.allows (.call "cos") := by
  have h : ∀ name ∈ ownFunctions, P.allows (.call name) := fun _ => Policy.Lawful.own
  simpa [ownFunctions] using h

@[simp, grind norm]
theorem allows_listOp :
    P.allows (.block .map) ∧ P.allows (.block .grep) ∧ P.allows (.block .sort) :=
  ⟨Policy.Lawful.listOp (by decide), Policy.Lawful.listOp (by decide),
    Policy.Lawful.listOp (by decide)⟩

@[simp, grind .]
theorem allows_new (className : String) : P.allows (.new className) := Policy.Lawful.new className

@[simp, grind norm]
theorem asked_twin :
    P.Keeps countOf ∧ P.Keeps refOf ∧ P.Keeps isDefined ∧ P.Keeps isArray := by
  simp [countOf, refOf, isDefined, isArray]

end Builders

/-! ## Words -/

section Words

@[simp, grind norm]
theorem word_twin : (∀ mask, P.Keeps (maskedBy mask)) ∧ P.Keeps low32 ∧ P.Keeps int32 := by
  simp [maskedBy, low32, mask32, int32, withSign]

@[simp, grind norm]
theorem shiftAmount_twin : P.Keeps shiftAmount := by
  intro e
  simp only [shiftAmount, literalNat?_twin]
  split <;> simp

@[simp, grind norm]
theorem unsignedShift_twin : P.Keeps₂ unsignedShift := by
  intro e f
  simp only [unsignedShift, looking_twin]
  split
  · rename_i hzero
    unfold Expr.isZeroText at hzero
    split at hzero
    · simp
    · cases hzero
  · simp

@[simp, grind norm]
theorem leftShift_twin : P.Keeps₂ leftShift := by
  simp [leftShift]

@[simp, grind norm]
theorem twin_signedShift (e f g : Expr) :
    twin P (signedShift e f g) = signedShift (twin P e) (twin P f) (twin P g) := by
  simp [signedShift, withSign]

@[grind ←]
theorem allowed_signedShift {e f sign : Expr} (he : Fits P e) (hf : Fits P f) (hsign : Fits P sign) :
    Fits P (signedShift e f sign) := by
  simp [signedShift, withSign, he, hf, hsign]

@[simp, grind norm]
theorem byte_twin (e : Expr) :
    (∀ shift, P.Pairs (byteAt e shift) (byteAt (twin P e) shift) (Fits P e)) ∧
      ∀ position, P.Pairs (byteInPlace e position) (byteInPlace (twin P e) position) (Fits P e) := by
  unfold byteAt byteInPlace
  exact ⟨fun shift => by split <;> simp, fun position => by dsimp only; split <;> simp⟩

@[simp, grind norm]
theorem twin_wordBytes (e : Expr) (bits : Nat) (bigEndian : Bool) :
    twin P (wordBytes e bits bigEndian) = wordBytes (twin P e) bits bigEndian := by
  simp [wordBytes, twin_list, Function.comp_def]

@[grind ←]
theorem allowed_wordBytes {e : Expr} (bits : Nat) (bigEndian : Bool) (h : Fits P e) :
    Fits P (wordBytes e bits bigEndian) := by
  intro byte hbyte
  simp only [wordBytes, mem_map] at hbyte
  obtain ⟨shift, -, rfl⟩ := hbyte
  exact ((byte_twin e).1 shift).2.2 h

theorem twin_bytesInPlace (bytes : List Expr) (positions : List Nat) :
    twin P ((bytes.zip positions).map fun (byte, position) => byteInPlace byte position) =
      ((twin P bytes).zip positions).map fun (byte, position) => byteInPlace byte position := by
  rw [twin_list, twin_list, zip_map_left, map_map, map_map]
  exact map_congr_left fun pair _ => ((byte_twin pair.1).2 pair.2).1

@[simp, grind norm]
theorem twin_packBytes (bytes : List Expr) (bigEndian : Bool) :
    twin P (packBytes bytes bigEndian) = packBytes (twin P bytes) bigEndian := by
  simp [packBytes, twin_bytesInPlace]

@[grind ←]
theorem allowed_packBytes {bytes : List Expr} (bigEndian : Bool) (h : Fits P bytes) :
    Fits P (packBytes bytes bigEndian) := by
  unfold packBytes
  dsimp only
  refine allowed_chain .bitOr (by simp) fun part hpart => ?_
  simp only [mem_map] at hpart
  obtain ⟨⟨byte, position⟩, hmem, rfl⟩ := hpart
  exact ((byte_twin byte).2 position).2.2 (h byte (of_mem_zip hmem).1)

@[simp, grind norm]
theorem cast_twin [P.Lawful] (e : Expr) (target : String) :
    P.Pairs (cast e target) (cast (twin P e) target) (Fits P e) := by
  unfold cast
  split <;> simp

end Words

/-! ## Texts -/

section Texts

/-- A replacement has text and variables only. -/
theorem plain_replacementParts (literal text : List Char) :
    P.Fixes (replacementParts literal text) := by
  fun_induction replacementParts literal text with
  | case1 _ _ ih => exact ih
  | case2 _ _ ih => simp [ih]
  | case3 _ _ _ _ _ _ ih => simp [ih]
  | case4 _ _ _ _ _ _ ih => exact ih
  | case5 _ _ _ _ _ _ ih => exact ih
  | case6 => simp

@[simp, grind norm]
theorem twin_replacementExpr (text : String) :
    twin P (replacementExpr text) = replacementExpr text := by
  have hparts := congrArg (filter (!·.isEmptyText))
    (plain_replacementParts (P := P) [] text.toList).1
  rw [twin_list, filter_map] at hparts
  simpa [replacementExpr, twin_list, Function.comp_def] using congrArg (chain .concat (.string "")) hparts

@[simp, grind .]
theorem allowed_replacementExpr (text : String) : Fits P (replacementExpr text) :=
  allowed_chain .concat (by simp) fun part hpart =>
    (plain_replacementParts [] text.toList).2 part (mem_filter.1 hpart).1

variable [P.Lawful]

@[simp, grind norm]
theorem substring_twin (e f : Expr) (stop : Option Expr) :
    P.Pairs (substring e f stop) (substring (twin P e) (twin P f) (twin P stop))
      (Fits P e ∧ Fits P f ∧ Fits P stop) := by
  cases stop <;> simp +contextual [substring]

@[simp, grind norm]
theorem text_twin :
    (∀ e matched, P.Pairs (without e matched) (without (twin P e) matched) (Fits P e)) ∧
    P.Keeps₂ charAt ∧ P.Keeps₂ charCodeAt ∧
    P.Keeps textToBytes ∧ P.Keeps bytesToText ∧ P.Keeps bytesToHex ∧ P.Keeps hexToBytes ∧
    P.Keeps charactersOf := by
  simp [without, charAt, charCodeAt, textToBytes, bytesToText, bytesToHex, hexToBytes, charactersOf]

end Texts

/-! ## Values -/

section Values

@[simp, grind norm]
theorem flatMap_pairs_twin (pairs : List (Expr × Expr)) :
    P.Pairs (pairs.flatMap fun (key, value) => [key, value])
      ((twin P pairs).flatMap fun (key, value) => [key, value]) (Fits P pairs) := by
  induction pairs with
  | nil => simp
  | cons pair pairs ih =>
    obtain ⟨key, value⟩ := pair
    simp [ih, and_assoc]

@[simp, grind norm]
theorem map_square_twin : P.Keeps (map fun v => binary .pow v (.int 2)) :=
  keeps_map (by simp)

@[simp, grind norm]
theorem map_chr_twin [P.Lawful] : P.Keeps (map fun code => Expr.call "chr" [code]) :=
  keeps_map (by simp)

@[simp, grind norm]
theorem value_twin :
    (∀ e f node, P.Pairs (elementEquals e f node) (elementEquals (twin P e) (twin P f) node)
      (Fits P e ∧ Fits P f)) ∧
    (∀ e f, P.Pairs (firstIndex e f) (firstIndex (twin P e) (twin P f))
      (P.allows (.block .first) ∧ Fits P e ∧ Fits P f)) ∧
    P.Keeps superNew ∧ ∀ name, P.Keeps (assignSub name) := by
  simp [elementEquals, firstIndex, superNew, assignSub]

@[simp, grind norm]
theorem functionVar_twin (name : String) (isNew : Bool) : P.Keeps (functionVar name isNew) := by
  cases isNew <;> simp [functionVar]

@[simp, grind norm]
theorem newObject_twin (forwards : Bool) : P.Fixes (newObject forwards) := by
  cases forwards <;> simp [newObject, emptyObject]

@[simp, grind norm]
theorem literal_twin (node : Node) : P.Fixes (literal node) := by
  unfold literal
  repeat' split
  all_goals simp

@[simp, grind norm]
theorem twin_joinedParts (parts : List Expr) :
    twin P (joinedParts parts) = joinedParts (twin P parts) := by
  rcases parts with _ | ⟨first, _ | ⟨second, rest⟩⟩
  · rfl
  · cases first <;> simp [joinedParts]
  · simp [joinedParts]

@[grind ←]
theorem allowed_joinedParts (h : Fits P parts) : Fits P (joinedParts parts) := by
  unfold joinedParts
  split
  · simp
  · simp
  · simpa using h
  · simpa using h

@[simp, grind norm]
theorem constant?_twin [P.Lawful] (object name : String) : P.Fixes (constant? object name) := by
  unfold constant?
  split <;> simp

@[simp, grind norm]
theorem leadingZeros_twin [P.Lawful] : P.Keeps leadingZeros := by
  simp [leadingZeros]

@[simp, grind norm]
theorem parsedInt_twin [P.Lawful] (e : Expr) (radix : Option Nat) :
    P.Pairs (parsedInt e radix) (parsedInt (twin P e) radix) (Fits P e) := by
  unfold parsedInt
  split <;> simp

@[simp, grind norm]
theorem twin_iterationStep (op : Iteration) (result : String) (e f g : Expr) :
    twin P (iterationStep op result e f g) =
      iterationStep op result (twin P e) (twin P f) (twin P g) := by
  cases op <;> simp [iterationStep]

@[grind ←]
theorem allowed_iterationStep [P.Lawful] {op : Iteration} {result : String} {e f g : Expr}
    (he : Fits P e) (hf : Fits P f) (hg : Fits P g) : Fits P (iterationStep op result e f g) := by
  cases op <;> simp [iterationStep, he, hf, hg]

end Values

end Scriptgen.Perl
