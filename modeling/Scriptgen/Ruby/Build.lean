import Scriptgen.Ruby.Tree
/-!
# Building Ruby expressions

Operators are put together here, with the parentheses that their operands need. Everything that
generates Ruby goes through these functions, so that precedence is decided in one place.

The second part holds small idioms: interpolated text, values that need statements before them,
and what a body of statements looks like as the body of a method.
-/

namespace Scriptgen.Ruby

/-! ## Operators -/

def binary (op : BinaryOp) (left right : Expr) : Expr :=
  let leftParens := left.precedence < op.precedence ||
    (left.precedence == op.precedence && (op.isRightAssoc || op.isNonAssoc))
  let rightParens := right.precedence < op.precedence ||
    (right.precedence == op.precedence && !op.isRightAssoc)
  .binary op left right leftParens rightParens

def negatedText (text : String) : String :=
  match text.toList with
  | '-' :: rest => String.ofList rest
  | _ => "-" ++ text

/-- The negative of a value. A literal carries its sign itself. -/
def negate : Expr → Expr
  | .number text => .number (negatedText text)
  | operand => .unary .neg operand (operand.precedence < UnaryOp.neg.precedence)

def unary (op : UnaryOp) (operand : Expr) : Expr :=
  if op == .neg then negate operand
  else .unary op operand (operand.precedence < op.precedence)

/-- Negation. A comparison for equality is turned around instead. -/
def not : Expr → Expr
  | .binary .eq left right leftParens rightParens => .binary .ne left right leftParens rightParens
  | .binary .ne left right leftParens rightParens => .binary .eq left right leftParens rightParens
  | .bool b => .bool !b
  | .unary .not operand _ => operand
  | operand => unary .not operand

def chain (op : BinaryOp) (empty : Expr) : List Expr → Expr
  | [] => empty
  | first :: rest => rest.foldl (binary op) first

def hex (value : Nat) : Expr := .number ("0x" ++ Text.hexUpper value)

/-- An integer from -2^63 up to 2^63 - 1 that a number's text spells. -/
def integerOfText? (text : String) : Option Int :=
  match text.toList with
  | '-' :: rest =>
    if rest.head? == some '+' then none
    else (Text.natOfDigits? 0x8000000000000000 (String.ofList rest)).map fun n => -(n : Int)
  | _ => (Text.natOfDigits? 0x7FFFFFFFFFFFFFFF text).map Int.ofNat

/-- A value and one, added up if the value is a literal. -/
def plusOne (expr : Expr) : Expr :=
  match expr with
  | .number text =>
    match integerOfText? text with
    | some n => .int (n + 1)
    | none => binary .add expr (.int 1)
  | _ => binary .add expr (.int 1)

/-! ## Terms -/

def Expr.read (receiver : Expr) (name : String) : Expr := .method receiver name []

def constantCall (name method : String) (args : List Expr) : Expr :=
  .method (.constant name) method args

def rangeUpTo (start stop : Expr) : Expr := .range start (some stop) true

def rangeThrough (start stop : Expr) : Expr := .range start (some stop) false

def rangeFrom (start : Expr) : Expr := .range start none false

def slice (base : Expr) (range : Expr) : Expr := .index base range

def callWith (receiver : Expr) (name : String) (args : List Expr) (params : List String)
    (result : Expr) : Expr :=
  .withBlock receiver name args (.single params result)

def symbolBlock (name : String) : Expr := .blockPass (.symbol name)

/-! ## Text -/

/-- Puts a part before parts of text, texts side by side joined into one. -/
def InterpPart.joinTo : InterpPart → List InterpPart → List InterpPart
  | .text first, .text second :: rest => .text (first ++ second) :: rest
  | part, rest => part :: rest

/-- The text of parts that are set into each other. -/
def interpolation (parts : List InterpPart) : Expr :=
  match parts.foldr InterpPart.joinTo [] with
  | [] => .string ""
  | [.text text] => .string text
  | joined => .interp joined

def textParts : Expr → List InterpPart
  | .interp parts => parts
  | .string text => [.text text]
  | other => [.expr other]

def concat (left right : Expr) : Expr := interpolation (textParts left ++ textParts right)

/-! ## Statements -/

def Expr.isSimple : Expr → Bool
  | .number _ | .string _ | .symbol _ | .bool _ | .nil | .var .. | .self => true
  | .index base i => base.isSimple && i.isSimple
  | _ => false

def withSetup (setup : List Stmt) (result : Expr) : Expr :=
  if setup.isEmpty then result else .begin (setup ++ [.ofExpr result])

def Stmt.when (cond : Expr) (body : List Stmt) : Stmt := .plain (.ifElse cond body [] none)

/-- A statement whose value is that of the method if it comes last. -/
def Stmt.asResult (stmt : Stmt) : Stmt :=
  match stmt.kind with
  | .ret (some value) => { stmt with kind := .expr value }
  | _ => stmt

/-- A body that gives the value of its last statement instead of returning it. -/
def implicitReturn : List Stmt → List Stmt
  | [] => []
  | [last] => [last.asResult]
  | first :: rest => first :: implicitReturn rest

def Stmt.isExpr (stmt : Stmt) : Bool :=
  match stmt.kind with
  | .expr _ => true
  | _ => false

def Block.isSingle (block : Block) : Bool :=
  block.locals.isEmpty &&
    match block.body with
    | [only] => only.isExpr
    | _ => false

/-- Whether an expression can stand for the body of a method on one line. -/
def Expr.fitsLine : Expr → Bool
  | .lambda _ | .begin _ | .assign .. | .multiAssign .. => false
  | .call _ _ _ (some block) => block.isSingle
  | _ => true

/-- Whether a body is short enough for a method on one line. -/
def isEndless : List Stmt → Bool
  | [only] =>
    only.remarks.comments.isEmpty &&
      match only.kind with
      | .expr expr => expr.fitsLine
      | _ => false
  | _ => false

end Scriptgen.Ruby
