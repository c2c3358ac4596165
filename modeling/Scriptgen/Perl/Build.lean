import Scriptgen.Perl.Tree
/-!
# Building Perl expressions

Operators are put together here, with the parentheses that their operands need. Everything that
generates Perl goes through these functions, so that precedence is decided in one place.

The second part holds small idioms: views of a variable or reference as a list or a hash, and
blocks that set up temporaries before they give a value.
-/

namespace Scriptgen.Perl

/-! ## Operators -/

/-- Whether this is a parenthesized list, which brings its own parentheses. -/
def Expr.isList : Expr → Bool
  | .list _ => true
  | _ => false

/-- An operator between two operands, with the parentheses that precedence asks for. -/
def binary (op : BinaryOp) (left right : Expr) : Expr :=
  let leftParens := !left.isList &&
    (left.precedence < op.precedence ||
      (left.precedence == op.precedence && (op.isRightAssoc || op.isNonAssoc)))
  let rightParens := right.precedence < op.precedence ||
    (right.precedence == op.precedence && !op.isRightAssoc)
  .binary op left right leftParens rightParens

/-- An operator with one operand, with the parentheses that precedence asks for. -/
def unary (op : UnaryOp) (operand : Expr) : Expr :=
  .unary op operand (operand.precedence < if op.standsAfter then 17 else 15)

def not (operand : Expr) : Expr := unary .not operand

/-- The expression in parentheses if it binds less tightly than `least`. -/
def Expr.atLeast (expr : Expr) (least : Nat) : Expr :=
  if expr.precedence < least then .paren expr else expr

def ternary (cond thenExpr elseExpr : Expr) : Expr :=
  .ternary (cond.atLeast 3) (thenExpr.atLeast 2) (elseExpr.atLeast 2)

/-- Joins parts with an operator from the left, or gives `empty` if there is none. -/
def chain (op : BinaryOp) (empty : Expr) : List Expr → Expr
  | [] => empty
  | first :: rest => rest.foldl (binary op) first

def hex (value : Nat) : Expr := .number ("0x" ++ Text.hexUpper value)

/-! ## Terms -/

def infinity : Expr := .raw "9**9**9"

def nan : Expr := .raw "(9**9**9 / 9**9**9)"

def pattern (text : String) : Expr := .regex (.pattern text) ""

def current : Expr := .scalar "_"

/-- A variable as a value. Lists and maps are passed by reference. -/
def varValue (name : String) (shape : Shape) : Expr :=
  match shape with
  | .scalar => .scalar name
  | _ => unary .ref (.var name shape)

def indicesFrom (start : Int) (base : Expr) : Expr := binary .range (.int start) (.lastIndex base)

def countOf (list : Expr) : Expr := .call "scalar" [list]

def refOf (value : Expr) : Expr := .call "ref" [value]

def isDefined (value : Expr) : Expr := .call "defined" [value]

def isArray (value : Expr) : Expr := binary .strEq (refOf value) (.string "ARRAY")

def blockList (op : BlockListOp) (result list : Expr) : Expr := .blockList op [] result list

/-! ## Views of arrays and hashes -/

/-- The elements of a list variable or of the array that a reference leads to. -/
def elementsOf (base : Expr) : Expr := if base.isListVar then base else .deref base .list

def arrayRefTo (base : Expr) : Expr := if base.isListVar then unary .ref base else base

/-- The pairs of a map variable or of the hash that a reference leads to. -/
def pairsOf (base : Expr) : Expr := if base.isMapVar then base else .deref base .map

def hashRefTo (base : Expr) : Expr := if base.isMapVar then unary .ref base else base

/-! ## Temporaries -/

/-- Whether an expression can be written twice: it has no effect and costs nothing. -/
def Expr.isSimple : Expr → Bool
  | .number _ | .string _ | .bool _ | .undefined | .var .. => true
  | .index base i => base.isSimple && i.isSimple
  | .key base k => base.isSimple && k.isSimple
  | _ => false

def withSetup (setup : List Stmt) (result : Expr) : Expr :=
  if setup.isEmpty then result else .doBlock (setup ++ [.ofExpr result])

def Stmt.when (cond : Expr) (body : List Stmt) : Stmt := .plain (.ifElse cond body [] none)

def Stmt.block (body : List Stmt) : Stmt := .plain (.block none body)

def Stmt.setScalar (name : String) (value : Expr) : Stmt := .ofExpr (.set (.scalar name) value)

def Stmt.change (name : String) (op : BinaryOp) (value : Expr) : Stmt :=
  .ofExpr (.assign (.scalar name) (some op) value)

/-- The declaration of several variables that takes its values from a list. -/
def Stmt.unpack (targets : List VarTarget) (list : Expr) : Stmt :=
  .plain (.varDecl targets (some list) .my)

end Scriptgen.Perl
