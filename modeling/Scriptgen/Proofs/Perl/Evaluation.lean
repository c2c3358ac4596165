import Scriptgen.Perl.Build
import Scriptgen.Proofs.Iterations.Source
/-!
# The values of generated Perl

`Expr.result` evaluates the Perl that goes over arrays: blocks with variables of their own, loops
over a range that `last` leaves, assignments and `push`, and the functions that apply a block to a
list. Every other expression is left to a function that is given (`Meaning`). Evaluation gives
nothing where Perl would fail, and for statements that no iteration becomes.

A variable is a name with its shape, since `$x` and `@x` are two variables. Those in scope are a
list, the innermost first.
-/

namespace Scriptgen.Perl

/-! ## Values and variables -/

/-- Whether a value counts as true in Perl. The text `0` does not. -/
def isTrue : Value → Bool
  | .undefined => false
  | .bool b => b
  | .int n => n != 0
  | .text characters => characters != "" && characters != "0"
  | .nan | .array _ | .other _ => true

/-- What an expression gives: one value, or a list of them. -/
inductive Result where
  | one (value : Value)
  | many (values : List Value)

namespace Result

def one? : Result → Option Value
  | .one value => some value
  | .many _ => none

def toList : Result → List Value
  | .one value => [value]
  | .many values => values

/-- The elements of an array, by itself or by a reference to it. -/
def array? : Result → Option (List Value)
  | .one (.array items) => some items
  | .one _ => none
  | .many values => some values

end Result

/-- The variables in scope with their values, the innermost first. -/
abbrev Env := Variables (String × Shape)

namespace Env

def assign (x : String × Shape) (value : Value) : Env → Option Env
  | [] => none
  | (y, old) :: rest =>
    if x = y then some ((y, value) :: rest) else (assign x value rest).map ((y, old) :: ·)

/-- What is left at the end of a block that was entered with other variables. -/
def leaving (env entered : Env) : Env := env.drop (env.length - entered.length)

def list? (env : Env) (name : String) : Option (List Value) :=
  match env.lookup (name, .list) with
  | some (.array items) => some items
  | _ => none

/-- Declares a variable. The current element cannot be declared. -/
def declare (env : Env) (name : String) (shape : Shape) (result : Result) : Option Env :=
  if name = "_" then none
  else
    match shape with
    | .scalar => result.one?.map fun value => ((name, .scalar), value) :: env
    | .list => some (((name, .list), .array result.toList) :: env)
    | .map => none

end Env

def integersBetween (first last : Int) : List Value :=
  (List.range (last + 1 - first).toNat).map fun (i : Nat) => .int (first + i)

/-- What a block function gives for the values that its block has for the elements. -/
def BlockListOp.apply (entries : List (Value × Value)) : BlockListOp → Option Result
  | .map => some (.many (entries.map (·.2)))
  | .grep => some (.many ((entries.filter (isTrue ·.2)).map (·.1)))
  | .any => some (.one (.bool (entries.any (isTrue ·.2))))
  | .all => some (.one (.bool (entries.all (isTrue ·.2))))
  | .first => some (.one (((entries.find? (isTrue ·.2)).map (·.1)).getD .undefined))
  | _ => none

/-- What expressions of other forms give. -/
abbrev Meaning := Env → Expr → Option Result

/-- Runs the rounds of a loop until one says that it is the last. -/
def rounds (round : Env → Value → Option (Env × Bool)) : List Value → Env → Option Env
  | [], env => some env
  | value :: rest, env => do
    let (env, last) ← round env value
    if last then some env else rounds round rest env

/-! ## Evaluation -/

mutual

def Expr.result (other : Meaning) (env : Env) : Expr → Option Result
  | .number text => (integerOf? text).map fun n => .one (.int n)
  | .string text => some (.one (.text text))
  | .bool b => some (.one (.bool b))
  | .undefined => some (.one .undefined)
  | .var name .scalar => (env.lookup (name, .scalar)).map .one
  | .var name .list => (env.list? name).map .many
  | .deref expr .list => do some (.many (← (← expr.result other env).array?))
  | .index base index => do
    let items ← (← base.result other env).array?
    match ← index.result other env with
    | .one (.int i) => if 0 ≤ i then some (.one (items.getD i.toNat .undefined)) else none
    | _ => none
  | .lastIndex base => do
    let items ← (← base.result other env).array?
    some (.one (.int (items.length - 1)))
  | .binary .range first last _ _ => do
    match ← first.result other env, ← last.result other env with
    | .one (.int a), .one (.int b) => some (.many (integersBetween a b))
    | _, _ => none
  | .unary .not operand _ => do
    some (.one (.bool (!isTrue (← (← operand.result other env).one?))))
  | .unary .ref (.var name .list) _ => (env.list? name).map fun items => .one (.array items)
  | .arrayRef items => do some (.one (.array (← itemsResult other env items)))
  | .list items => do some (.many (← itemsResult other env items))
  | .doBlock body => bodyResult other env body
  | .blockList op body result list => do
    let items := (← list.result other env).toList
    let entries ← items.mapM fun item => do
      let (env, _) ← runStmts other ((("_", .scalar), item) :: env) body
      some (item, ← (← result.result other env).one?)
    op.apply entries
  | expr => other env expr

def itemsResult (other : Meaning) (env : Env) : List Expr → Option (List Value)
  | [] => some []
  | item :: rest => do
    let first := (← item.result other env).toList
    return first ++ (← itemsResult other env rest)

/-- The value of a block is that of its last statement. -/
def bodyResult (other : Meaning) (env : Env) : List Stmt → Option Result
  | [] => none
  | [⟨.expr value, _⟩] => value.result other env
  | stmt :: rest => do
    let (env, last) ← stmt.run other env
    if last then none else bodyResult other env rest

/-- Runs a statement, which may leave the loop around it. -/
def Stmt.run (other : Meaning) (env : Env) : Stmt → Option (Env × Bool)
  | ⟨kind, _⟩ => kind.run other env

def StmtKind.run (other : Meaning) (env : Env) : StmtKind → Option (Env × Bool)
  | .varDecl [⟨name, shape⟩] init .my => do
    let value ←
      match init with
      | some init => init.result other env
      | none => some (match shape with
        | .scalar => .one .undefined
        | _ => .many [])
    return (← env.declare name shape value, false)
  | .expr (.assign (.var name .scalar) none value) => do
    let value ← (← value.result other env).one?
    return (← Env.assign (name, .scalar) value env, false)
  | .expr (.call "push" [.var name .list, item]) => do
    let items ← env.list? name
    let added := (← item.result other env).toList
    return (← Env.assign (name, .list) (.array (items ++ added)) env, false)
  | .expr value => do
    let _ ← value.result other env
    return (env, false)
  | .ifElse cond body [] none => do
    if isTrue (← (← cond.result other env).one?) then
      let (inner, last) ← runStmts other env body
      return (inner.leaving env, last)
    else return (env, false)
  | .foreach none var list body => do
    let values := (← list.result other env).toList
    let round (env : Env) (value : Value) : Option (Env × Bool) := do
      let (inner, last) ← runStmts other (((var, .scalar), value) :: env) body
      return (inner.leaving env, last)
    return (← rounds round values env, false)
  | .jump .last none => some (env, true)
  | _ => none

/-- Runs statements one after the other, until one leaves the loop around them. -/
def runStmts (other : Meaning) (env : Env) : List Stmt → Option (Env × Bool)
  | [] => some (env, false)
  | stmt :: rest => do
    let (env, last) ← stmt.run other env
    if last then some (env, true) else runStmts other env rest

end

variable {other : Meaning} {env env' : Env}

theorem bodyResult_ofExpr (e : Expr) : bodyResult other env [.ofExpr e] = e.result other env := by
  rw [Stmt.ofExpr, Stmt.plain, bodyResult]

theorem runStmts_single {stmt : Stmt} {last : Bool} (h : stmt.run other env = some (env', last)) :
    runStmts other env [stmt] = some (env', last) := by
  rw [runStmts, h]
  cases last with
  | true => rfl
  | false => exact runStmts.eq_1 other env'

theorem run_my {name : String} {init : Expr} {value : Value} (hname : name ≠ "_")
    (h : init.result other env = some (.one value)) :
    (Stmt.my name .scalar (some init)).run other env =
      some (((name, .scalar), value) :: env, false) := by
  rw [Stmt.my, Stmt.plain, Stmt.run, StmtKind.run]
  simp only [h]
  change ((env.declare name .scalar (.one value)).bind fun env => some (env, false)) = _
  rw [Env.declare, if_neg hname]
  rfl

end Scriptgen.Perl
