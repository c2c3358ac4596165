import Scriptgen.Perl.Generate
/-!
# Returns in Perl code

A `return` leaves the innermost sub or `eval` block that it is in. `returns` finds the returns of a
piece of code that stand in an `eval` block, and does not go into subs and classes. Where the code
itself is taken to stand in one, these are all its returns. The equations are tagged, so that `simp`
and `grind` compute with them.
-/

namespace Scriptgen.Perl

/-! ## Trees -/

mutual

/-- Whether an expression has a return that stands in an `eval` block, and `inEval` whether the
expression stands in one. -/
def Expr.returns (inEval : Bool) : Expr → Bool
  | .number _ | .string _ | .bool _ | .undefined | .var .. | .raw _ | .anonSub _ => false
  | .index base index => base.returns inEval || index.returns inEval
  | .key base key => base.returns inEval || key.returns inEval
  | .slice list indices => list.returns inEval || indices.returns inEval
  | .lastIndex list => list.returns inEval
  | .deref expr _ => expr.returns inEval
  | .binary _ left right _ _ => left.returns inEval || right.returns inEval
  | .unary _ operand _ => operand.returns inEval
  | .assign target _ value => target.returns inEval || value.returns inEval
  | .call _ args | .callClass _ _ args | .new _ args | .arrayRef args | .list args =>
    exprsReturn inEval args
  | .callCode code args => code.returns inEval || exprsReturn inEval args
  | .callMethod invocant _ args => invocant.returns inEval || exprsReturn inEval args
  | .hashRef pairs => pairsReturn inEval pairs
  | .ternary cond thenExpr elseExpr =>
    cond.returns inEval || thenExpr.returns inEval || elseExpr.returns inEval
  | .bless data className => data.returns inEval || className.returns inEval
  | .doBlock body => stmtsReturn inEval body
  | .blockList _ body result list =>
    stmtsReturn inEval body || result.returns inEval || list.returns inEval
  | .regex source _ => source.returns inEval
  | .substitute target source replacement _ =>
    target.returns inEval || source.returns inEval || replacement.returns inEval
  | .paren inner => inner.returns inEval

def exprsReturn (inEval : Bool) : List Expr → Bool
  | [] => false
  | expr :: rest => expr.returns inEval || exprsReturn inEval rest

def pairsReturn (inEval : Bool) : List (Expr × Expr) → Bool
  | [] => false
  | (key, value) :: rest => key.returns inEval || value.returns inEval || pairsReturn inEval rest

def RegexSource.returns (inEval : Bool) : RegexSource → Bool
  | .pattern _ => false
  | .quoted expr => expr.returns inEval

def Stmt.returns (inEval : Bool) : Stmt → Bool
  | ⟨kind, _⟩ => kind.returns inEval

def stmtsReturn (inEval : Bool) : List Stmt → Bool
  | [] => false
  | stmt :: rest => stmt.returns inEval || stmtsReturn inEval rest

def optionReturns (inEval : Bool) : Option Expr → Bool
  | none => false
  | some expr => expr.returns inEval

def initReturns (inEval : Bool) : Option Stmt → Bool
  | none => false
  | some stmt => stmt.returns inEval

def clauseReturns (inEval : Bool) : Option (List Stmt) → Bool
  | none => false
  | some body => stmtsReturn inEval body

def branchesReturn (inEval : Bool) : List (Expr × List Stmt) → Bool
  | [] => false
  | (cond, body) :: rest =>
    cond.returns inEval || stmtsReturn inEval body || branchesReturn inEval rest

def handlerReturns (inEval : Bool) : Option (String × List Stmt) → Bool
  | none => false
  | some (_, body) => stmtsReturn inEval body

/-- A protected block that is not native is an `eval` block. Its handler and its cleanup come after
it. -/
def StmtKind.returns (inEval : Bool) : StmtKind → Bool
  | .expr expr | .die expr => expr.returns inEval
  | .varDecl _ init _ => optionReturns inEval init
  | .ret value => inEval || optionReturns inEval value
  | .block _ body => stmtsReturn inEval body
  | .ifElse cond thenBranch elsifs elseBranch =>
    cond.returns inEval || stmtsReturn inEval thenBranch || branchesReturn inEval elsifs ||
      clauseReturns inEval elseBranch
  | .loop _ init cond step body =>
    initReturns inEval init || optionReturns inEval cond || exprsReturn inEval step ||
      stmtsReturn inEval body
  | .foreach _ _ list body => list.returns inEval || stmtsReturn inEval body
  | .while _ cond body _ => cond.returns inEval || stmtsReturn inEval body
  | .protect body handler cleanup native =>
    stmtsReturn (inEval || !native) body || handlerReturns inEval handler ||
      clauseReturns inEval cleanup
  | .jump .. | .package _ | .sub _ | .raw _ => false

end

/-- Whether a sub has a return that only leaves an `eval` block of it. -/
def Sub.returnsInEval (sub : Sub) : Bool :=
  sub.params.any (fun param => optionReturns false param.fallback) || stmtsReturn false sub.body

/-! ## Everything that lowering gives -/

/-- What may hold code with returns. -/
class Returning (α : Type) where
  returns : Bool → α → Bool

open Returning

instance (priority := low) returningOther {α : Type} : Returning α := ⟨fun _ _ => false⟩

instance : Returning Expr := ⟨Expr.returns⟩

instance : Returning RegexSource := ⟨RegexSource.returns⟩

instance : Returning StmtKind := ⟨StmtKind.returns⟩

instance : Returning Stmt := ⟨Stmt.returns⟩

instance : Returning Param := ⟨fun inEval param => optionReturns inEval param.fallback⟩

instance returningOption {α : Type} [Returning α] : Returning (Option α) :=
  ⟨fun inEval => Option.any (returns inEval)⟩

instance returningList {α : Type} [Returning α] : Returning (List α) :=
  ⟨fun inEval l => l.any (returns inEval)⟩

instance {α β : Type} [Returning α] [Returning β] : Returning (α × β) :=
  ⟨fun inEval pair => returns inEval pair.1 || returns inEval pair.2⟩

variable {t : Bool}

@[simp, grind norm]
theorem returns_other {α : Type} (a : α) : @returns α returningOther t a = false := rfl

section Containers

variable {α β : Type} [Returning α] [Returning β]

@[simp, grind norm]
theorem returns_none : returns t (none : Option α) = false := rfl

@[simp, grind norm]
theorem returns_some (a : α) : returns t (some a) = returns t a := rfl

@[simp, grind norm]
theorem returns_pair (a : α) (b : β) : returns t (a, b) = (returns t a || returns t b) := rfl

@[simp, grind norm]
theorem returns_nil : returns t ([] : List α) = false := rfl

@[simp, grind norm]
theorem returns_cons (a : α) (l : List α) :
    returns t (a :: l) = (returns t a || returns t l) := rfl

@[simp, grind norm]
theorem returns_append (l l' : List α) :
    returns t (l ++ l') = (returns t l || returns t l') := List.any_append

@[simp, grind norm]
theorem returns_ite (p : Prop) [Decidable p] (a b : α) :
    returns t (if p then a else b) = if p then returns t a else returns t b := apply_ite _ _ _ _

theorem returns_list_eq_false {l : List α} :
    returns t l = false ↔ ∀ a ∈ l, returns t a = false := by
  change l.any (returns t) = false ↔ _
  simp

@[simp, grind norm]
theorem returns_toList (a : Option α) : returns t a.toList = returns t a := by
  cases a <;> simp

@[simp, grind norm]
theorem returns_flatten (l : List (List α)) : returns t l.flatten = returns t l := by
  induction l with
  | nil => rfl
  | cons first rest ih => rw [List.flatten_cons, returns_append, ih, returns_cons]

end Containers

@[simp, grind norm]
theorem returns_option_other {α : Type} (a : Option α) :
    @returns _ (@returningOption α returningOther) t a = false := by
  cases a <;> rfl

theorem exprsReturn_eq (exprs : List Expr) : exprsReturn t exprs = returns t exprs := by
  induction exprs with
  | nil => rfl
  | cons expr exprs ih => exact congrArg (_ || ·) ih

theorem pairsReturn_eq (pairs : List (Expr × Expr)) : pairsReturn t pairs = returns t pairs := by
  induction pairs with
  | nil => rfl
  | cons pair pairs ih => exact congrArg (_ || ·) ih

theorem stmtsReturn_eq (stmts : List Stmt) : stmtsReturn t stmts = returns t stmts := by
  induction stmts with
  | nil => rfl
  | cons stmt stmts ih => exact congrArg (_ || ·) ih

theorem optionReturns_eq (expr : Option Expr) : optionReturns t expr = returns t expr := by
  cases expr <;> rfl

theorem initReturns_eq (stmt : Option Stmt) : initReturns t stmt = returns t stmt := by
  cases stmt <;> rfl

theorem clauseReturns_eq (body : Option (List Stmt)) :
    clauseReturns t body = returns t body := by
  cases body with
  | none => rfl
  | some body => exact stmtsReturn_eq body

theorem branchesReturn_eq (branches : List (Expr × List Stmt)) :
    branchesReturn t branches = returns t branches := by
  induction branches with
  | nil => rfl
  | cons branch branches ih =>
    rw [branchesReturn, ih, stmtsReturn_eq]
    rfl

theorem handlerReturns_eq (handler : Option (String × List Stmt)) :
    handlerReturns t handler = returns t handler := by
  cases handler with
  | none => rfl
  | some handler => exact stmtsReturn_eq handler.2

/-! ## Constructors -/

section Constructors

variable (e f : Expr) (args : List Expr) (body : List Stmt) (source : RegexSource)

/-- Leaves, and subs, whose returns are their own. -/
@[simp, grind norm]
theorem returns_leaf :
    (∀ text, returns t (Expr.number text) = false) ∧
      (∀ text, returns t (Expr.string text) = false) ∧
      (∀ value, returns t (Expr.bool value) = false) ∧ returns t Expr.undefined = false ∧
      (∀ text, returns t (Expr.raw text) = false) ∧
      (∀ name shape, returns t (Expr.var name shape) = false) ∧
      (∀ sub, returns t (Expr.anonSub sub) = false) ∧
      ∀ text, returns t (RegexSource.pattern text) = false := by
  and_intros <;> intros <;> rfl

@[simp, grind norm]
theorem returns_part :
    returns t (Expr.lastIndex e) = returns t e ∧
      (∀ shape, returns t (Expr.deref e shape) = returns t e) ∧
      (∀ op, returns t (unary op e) = returns t e) ∧ returns t (not e) = returns t e ∧
      returns t (RegexSource.quoted e) = returns t e := by
  and_intros <;> intros <;> rfl

@[simp, grind norm]
theorem returns_parts :
    returns t (Expr.index e f) = (returns t e || returns t f) ∧
      returns t (Expr.key e f) = (returns t e || returns t f) ∧
      returns t (Expr.slice e f) = (returns t e || returns t f) ∧
      (∀ op, returns t (Expr.assign e op f) = (returns t e || returns t f)) ∧
      returns t (Expr.set e f) = (returns t e || returns t f) ∧
      (∀ op, returns t (binary op e f) = (returns t e || returns t f)) ∧
      returns t (Expr.bless e f) = (returns t e || returns t f) := by
  and_intros <;> intros <;> rfl

@[simp, grind norm]
theorem returns_calls :
    (∀ name, returns t (Expr.call name args) = returns t args) ∧
      (∀ className name, returns t (Expr.callClass className name args) = returns t args) ∧
      (∀ className, returns t (Expr.new className args) = returns t args) ∧
      returns t (Expr.arrayRef args) = returns t args ∧
      returns t (Expr.list args) = returns t args ∧
      (∀ e, returns t (Expr.callCode e args) = (returns t e || returns t args)) ∧
      ∀ e name, returns t (Expr.callMethod e name args) = (returns t e || returns t args) := by
  rw [← exprsReturn_eq]
  and_intros <;> intros <;> rfl

@[simp, grind norm]
theorem returns_hashRef (pairs : List (Expr × Expr)) :
    returns t (Expr.hashRef pairs) = returns t pairs := pairsReturn_eq pairs

@[simp, grind norm]
theorem returns_body :
    returns t (Expr.doBlock body) = returns t body ∧
      (∀ op e f, returns t (Expr.blockList op body e f) =
        (returns t body || returns t e || returns t f)) ∧
      (∀ label, returns t (StmtKind.block label body) = returns t body) ∧
      (∀ label var e, returns t (StmtKind.foreach label var e body) =
        (returns t e || returns t body)) ∧
      (∀ label e postTest, returns t (StmtKind.while label e body postTest) =
        (returns t e || returns t body)) ∧
      returns t (Stmt.block body) = returns t body := by
  rw [← stmtsReturn_eq]
  and_intros <;> intros <;> rfl

@[simp, grind norm]
theorem returns_built :
    (∀ name, returns t (Expr.scalar name) = false) ∧ (∀ n, returns t (Expr.int n) = false) ∧
      (∀ n, returns t (hex n) = false) ∧ returns t infinity = false ∧ returns t nan = false ∧
      (∀ text, returns t (pattern text) = false) ∧ returns t current = false ∧
      (∀ className name, returns t (staticField className name) = false) := by
  and_intros <;> intros <;> rfl

end Constructors

/-! ## Statements -/

section Statements

variable (e : Expr) (body : List Stmt) (label : Option String)

@[simp, grind norm]
theorem returns_stmt :
    (∀ kind, returns t (Stmt.plain kind) = returns t kind) ∧
      (∀ e, returns t (StmtKind.die e) = returns t e) ∧
      (∀ kind label, returns t (StmtKind.jump kind label) = false) ∧
      (∀ sub, returns t (StmtKind.sub sub) = false) ∧
      (∀ e, returns t (Stmt.ofExpr e) = returns t e) ∧
      (∀ targets e, returns t (Stmt.unpack targets e) = returns t e) ∧
      (∀ name e, returns t (Stmt.setScalar name e) = returns t e) ∧
      ∀ name op e, returns t (Stmt.change name op e) = returns t e := by
  and_intros <;> intros <;> rfl

@[simp, grind norm]
theorem returns_ret (value : Option Expr) :
    returns t (StmtKind.ret value) = (t || returns t value) :=
  congrArg (t || ·) (optionReturns_eq value)

@[simp, grind norm]
theorem returns_ifElse (elsifs : List (Expr × List Stmt))
    (elseBranch : Option (List Stmt)) :
    returns t (StmtKind.ifElse e body elsifs elseBranch) =
      (returns t e || returns t body || returns t elsifs || returns t elseBranch) := by
  rw [← stmtsReturn_eq, ← branchesReturn_eq, ← clauseReturns_eq]
  rfl

@[simp, grind norm]
theorem returns_loop (init : Option Stmt) (cond : Option Expr) (step : List Expr) :
    returns t (StmtKind.loop label init cond step body) =
      (returns t init || returns t cond || returns t step || returns t body) := by
  rw [← initReturns_eq, ← optionReturns_eq, ← exprsReturn_eq, ← stmtsReturn_eq]
  rfl

@[simp, grind norm]
theorem returns_protect (handler : Option (String × List Stmt))
    (cleanup : Option (List Stmt)) (native : Bool) :
    returns t (StmtKind.protect body handler cleanup native) =
      (returns (t || !native) body || returns t handler || returns t cleanup) := by
  rw [← stmtsReturn_eq, ← handlerReturns_eq, ← clauseReturns_eq]
  rfl

@[simp, grind norm]
theorem returns_option_map_ofExpr (expr : Option Expr) :
    returns t (expr.map Stmt.ofExpr) = returns t expr := by
  cases expr <;> rfl

@[simp, grind norm]
theorem returns_my (name : String) (shape : Shape) (init : Option Expr) :
    returns t (Stmt.my name shape init) = returns t init := optionReturns_eq init

/-- A statement after others has the returns of all. -/
@[simp, grind norm]
theorem returns_after (last : Stmt) :
    returns t (Stmt.after body last) = (returns t body || returns t last) := by
  unfold Stmt.after
  split
  · rename_i hempty
    rw [List.isEmpty_iff.1 hempty]
    simp
  · simp

end Statements

end Scriptgen.Perl
