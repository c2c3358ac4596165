import Scriptgen.Remarks
import Scriptgen.Ruby.Operator
import Scriptgen.Ruby.Type
import Scriptgen.Text.Numeral
/-!
# Ruby programs

The tree of a Ruby program. Variables carry the place where they live, which decides the sign
before their name, and operators carry the parentheses around their operands. Blocks belong to
calls, and all loops but `while` are calls with blocks.
-/

namespace Scriptgen.Ruby

/-- An attribute of a class. -/
structure Field where
  name : String
  type : Option RubyType
  isStatic : Bool
deriving DecidableEq, Repr

/-- A file that is loaded. -/
structure Require where
  path : String
  relative : Bool
deriving DecidableEq, Repr

mutual

inductive Expr where
  | number (text : String)
  | string (text : String)
  | symbol (text : String)
  | bool (b : Bool)
  | nil
  | var (name : String) (kind : VarKind)
  | self
  | index (base index : Expr)
  | binary (op : BinaryOp) (left right : Expr) (leftParens rightParens : Bool)
  | unary (op : UnaryOp) (operand : Expr) (parens : Bool)
  | assign (target : Expr) (op : Option BinaryOp) (value : Expr)
  | multiAssign (targets : List Expr) (value : Expr)
  /-- A call. With a receiver but neither arguments nor a block it reads an attribute. -/
  | call (receiver : Option Expr) (name : String) (args : List Expr) (block : Option Block)
  | super (args : List Expr)
  | array (items : List Expr)
  | hash (pairs : List (Expr × Expr))
  | splat (inner : Expr)
  | blockPass (inner : Expr)
  | range (start : Expr) (stop : Option Expr) (exclusive : Bool)
  | ternary (cond thenExpr elseExpr : Expr)
  | lambda (block : Block)
  | new (className : String) (args : List Expr)
  | begin (body : List Stmt)
  | interp (parts : List InterpPart)
  | regex (pattern flags : String)
  | paren (inner : Expr)
  /-- Ruby code as it is. -/
  | raw (text : String)

/-- A part of an interpolated string. -/
inductive InterpPart where
  | text (text : String)
  | expr (expr : Expr)

/-- The block of a call or of a lambda. -/
structure Block where
  params : List Param
  /-- Variables of the block alone. -/
  locals : List String
  body : List Stmt

/-- A parameter of a method or block. -/
structure Param where
  name : String
  type : Option RubyType
  /-- The value if the argument is missing. -/
  fallback : Option Expr
  variadic : Bool

structure Stmt where
  kind : StmtKind
  remarks : Remarks

inductive StmtKind where
  | expr (expr : Expr)
  | ret (value : Option Expr)
  | ifElse (cond : Expr) (thenBranch : List Stmt) (elsifs : List (Expr × List Stmt))
      (elseBranch : Option (List Stmt))
  | while (cond : Expr) (body : List Stmt) (postTest : Bool)
  | jump (kind : LoopJump) (value : Option Expr)
  | catchTag (tag : String) (body : List Stmt)
  | throwTag (tag : String)
  | raise (className : Option String) (message : Option Expr)
  /-- A protected block. The handler may name the variable of the error. -/
  | begin (body : List Stmt) (rescue : Option (Option String × List Stmt))
      (ensure : Option (List Stmt))
  | classDef (cls : Class)
  | method (method : Method)
  /-- Lines of Ruby code as they are. -/
  | raw (text : String)

structure Class where
  name : String
  base : Option String
  fields : List Field
  methods : List Method
  /-- What runs when the class is defined. -/
  staticInit : List Stmt
  remarks : Remarks

/-- A method. -/
structure Method where
  name : String
  params : List Param
  body : List Stmt
  isStatic : Bool
  returnType : Option RubyType
  /-- Whether to write the method on one line if its body is one expression. -/
  endless : Bool
  remarks : Remarks

end

structure Module where
  /-- The module around the body. -/
  name : Option String
  magicComments : List String
  requires : List Require
  body : List Stmt
  remarks : Remarks

namespace Stmt

def plain (kind : StmtKind) : Stmt := ⟨kind, .none⟩

def ofExpr (expr : Expr) : Stmt := plain (.expr expr)

def set (target value : Expr) : Stmt := ofExpr (.assign target none value)

def ret (value : Option Expr) : Stmt := plain (.ret value)

def jump (kind : LoopJump) : Stmt := plain (.jump kind none)

def isMethod (stmt : Stmt) : Bool :=
  match stmt.kind with
  | .method _ => true
  | _ => false

end Stmt

def Method.ofBody (name : String) (params : List Param) (body : List Stmt) : Method :=
  ⟨name, params, body, false, none, false, .none⟩

def Param.plain (name : String) : Param := ⟨name, none, none, false⟩

namespace Block

def ofBody (params : List String) (body : List Stmt) : Block := ⟨params.map Param.plain, [], body⟩

def single (params : List String) (expr : Expr) : Block := ofBody params [.ofExpr expr]

end Block

namespace Expr

def int (n : Int) : Expr := .number (Text.decimalInt n)

def localVar (name : String) : Expr := .var name .plain

def instanceVar (name : String) : Expr := .var name .ofInstance

def constant (name : String) : Expr := .var name .constant

def function (name : String) (args : List Expr) : Expr := .call none name args none

def method (receiver : Expr) (name : String) (args : List Expr) : Expr :=
  .call (some receiver) name args none

def withBlock (receiver : Expr) (name : String) (args : List Expr) (block : Block) : Expr :=
  .call (some receiver) name args (some block)

def set (target value : Expr) : Expr := .assign target none value

def compound (target : Expr) (op : BinaryOp) (value : Expr) : Expr :=
  .assign target (some op) value

/-- How tightly an expression binds as an operand. Terms bind most tightly. The sign of a negative
number binds like an operator. -/
def precedence : Expr → Nat
  | .binary op .. => op.precedence
  | .unary op .. => op.precedence
  | .number text => if text.startsWith "-" then 16 else 100
  | .range .. => 6
  | .ternary .. => 5
  | .assign .. | .multiAssign .. => 3
  | _ => 100

def isNil : Expr → Bool
  | .nil => true
  | _ => false

def isVar : Expr → Bool
  | .var .. => true
  | _ => false

def nodeType : Expr → String
  | .number _ | .string _ | .symbol _ | .bool _ | .nil => "Literal"
  | .var .. => "Variable"
  | .self => "Self"
  | .index .. => "Index"
  | .binary .. => "Binary"
  | .unary .. => "Unary"
  | .assign .. => "Assign"
  | .multiAssign .. => "MultiAssign"
  | .call .. => "Call"
  | .super _ => "Super"
  | .array _ => "Array"
  | .hash _ => "Hash"
  | .splat _ => "Splat"
  | .blockPass _ => "BlockPass"
  | .range .. => "Range"
  | .ternary .. => "Ternary"
  | .lambda _ => "Lambda"
  | .new .. => "New"
  | .begin _ => "BeginExpr"
  | .interp _ => "Interp"
  | .regex .. => "Regex"
  | .paren _ => "Paren"
  | .raw _ => "RawExpr"

end Expr

def StmtKind.nodeType : StmtKind → String
  | .expr _ => "ExprStmt"
  | .ret _ => "Return"
  | .ifElse .. => "If"
  | .while .. => "While"
  | .jump .. => "LoopControl"
  | .catchTag .. => "Catch"
  | .throwTag _ => "Throw"
  | .raise .. => "Raise"
  | .begin .. => "Begin"
  | .classDef _ => "Class"
  | .method _ => "Method"
  | .raw _ => "RawStmt"

end Scriptgen.Ruby
