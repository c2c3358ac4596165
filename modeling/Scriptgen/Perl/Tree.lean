import Scriptgen.Perl.Operator
import Scriptgen.Perl.Type
import Scriptgen.Remarks
import Scriptgen.Source.Shape
import Scriptgen.Text.Numeral
/-!
# Perl programs

The tree of a Perl program. Variables carry their shape, which decides the sigil, and operators
carry the parentheses around their operands, so that nothing is left to decide for the printer
but the layout.
-/

namespace Scriptgen.Perl

def sigil : Shape → String
  | .scalar => "$"
  | .list => "@"
  | .map => "%"

/-- A declared variable. -/
structure VarTarget where
  name : String
  shape : Shape
deriving DecidableEq, Repr

/-- A declared field of a class. -/
structure Field where
  name : String
  type : Option PerlType
  isStatic : Bool
deriving DecidableEq, Repr

/-- A module that is loaded or switched off. -/
structure Use where
  module : String
  imports : List String
  /-- Whether it is switched off. -/
  off : Bool
  /-- Whether it is loaded without importing anything. -/
  qualified : Bool
deriving DecidableEq, Repr

mutual

/-- An expression. -/
inductive Expr where
  /-- A number by its text. -/
  | number (text : String)
  | string (text : String)
  | bool (b : Bool)
  | undefined
  | var (name : String) (shape : Shape)
  /-- An element of a list variable, or of the array that a reference leads to. -/
  | index (base index : Expr)
  /-- A value of a map variable, or of the hash that a reference leads to. -/
  | key (base key : Expr)
  | slice (list indices : Expr)
  | lastIndex (list : Expr)
  | deref (expr : Expr) (shape : Shape)
  | binary (op : BinaryOp) (left right : Expr) (leftParens rightParens : Bool)
  | unary (op : UnaryOp) (operand : Expr) (parens : Bool)
  | assign (target : Expr) (op : Option BinaryOp) (value : Expr)
  /-- The call of a function by its name. -/
  | call (name : String) (args : List Expr)
  /-- The call of a code reference. -/
  | callCode (code : Expr) (args : List Expr)
  /-- The call of a method of an object. -/
  | callMethod (invocant : Expr) (name : String) (args : List Expr)
  /-- The call of a method of a class. -/
  | callClass (className name : String) (args : List Expr)
  | arrayRef (items : List Expr)
  | hashRef (pairs : List (Expr × Expr))
  | list (items : List Expr)
  | ternary (cond thenExpr elseExpr : Expr)
  | anonSub (sub : Sub)
  | new (className : String) (args : List Expr)
  | bless (data className : Expr)
  /-- A block whose value is that of its last statement. -/
  | doBlock (body : List Stmt)
  /-- A block applied to each element of a list. -/
  | blockList (op : BlockListOp) (body : List Stmt) (result list : Expr)
  | regex (source : RegexSource) (flags : String)
  /-- The target with matches replaced by the value of an expression. -/
  | substitute (target : Expr) (source : RegexSource) (replacement : Expr) (everywhere : Bool)
  | paren (inner : Expr)
  /-- Perl code as it is. -/
  | raw (text : String)

/-- What a regular expression matches. -/
inductive RegexSource where
  /-- A pattern as it is. -/
  | pattern (text : String)
  /-- The text of an expression, literally. -/
  | quoted (expr : Expr)

/-- A statement with remarks. -/
structure Stmt where
  kind : StmtKind
  remarks : Remarks

/-- A statement. -/
inductive StmtKind where
  | block (label : Option String) (body : List Stmt)
  | varDecl (targets : List VarTarget) (init : Option Expr) (scope : DeclScope)
  | expr (expr : Expr)
  | ret (value : Option Expr)
  | ifElse (cond : Expr) (thenBranch : List Stmt) (elsifs : List (Expr × List Stmt))
      (elseBranch : Option (List Stmt))
  /-- A loop with initializer, test and step. -/
  | loop (label : Option String) (init : Option Stmt) (cond : Option Expr) (step : List Expr)
      (body : List Stmt)
  | foreach (label : Option String) (var : String) (list : Expr) (body : List Stmt)
  /-- A loop with its test before or after the body. -/
  | while (label : Option String) (cond : Expr) (body : List Stmt) (postTest : Bool)
  | jump (kind : LoopJump) (label : Option String)
  | die (value : Expr)
  /-- A protected block. The handler names the variable of the error. -/
  | protect (body : List Stmt) (handler : Option (String × List Stmt))
      (cleanup : Option (List Stmt)) (native : Bool)
  | package (package : Package)
  | sub (sub : Sub)
  /-- Lines of Perl code as they are. -/
  | raw (text : String)

/-- A subroutine, with an empty name if it is anonymous. -/
structure Sub where
  name : String
  params : List Param
  body : List Stmt
  isMethod : Bool
  isStatic : Bool
  returnType : Option PerlType
  remarks : Remarks

/-- A parameter of a subroutine. -/
structure Param where
  name : String
  shape : Shape
  type : Option PerlType
  /-- The value if the argument is undefined. -/
  fallback : Option Expr
  /-- Whether it takes all remaining arguments. -/
  variadic : Bool

/-- A class. -/
structure Package where
  name : String
  base : Option String
  fields : List Field
  methods : List Sub
  /-- What runs when the class is loaded. -/
  staticInit : List Stmt
  /-- Whether the block belongs to the package declaration. -/
  blockForm : Bool
  remarks : Remarks

end

/-- A file. -/
structure Module where
  /-- The package of the file. -/
  name : Option String
  pragmas : List Use
  uses : List Use
  body : List Stmt
  remarks : Remarks

namespace Use

def plain (module : String) : Use := ⟨module, [], false, false⟩

def withoutImports (module : String) : Use := ⟨module, [], false, true⟩

def withImports (module : String) (imports : List String) : Use := ⟨module, imports, false, false⟩

def switchOff (module : String) (imports : List String) : Use := ⟨module, imports, true, false⟩

end Use

namespace Stmt

def plain (kind : StmtKind) : Stmt := ⟨kind, .none⟩

def ofExpr (expr : Expr) : Stmt := plain (.expr expr)

def my (name : String) (shape : Shape) (init : Option Expr) : Stmt :=
  plain (.varDecl [⟨name, shape⟩] init .my)

def ret (value : Option Expr) : Stmt := plain (.ret value)

end Stmt

namespace Sub

def function (name : String) (params : List Param) (body : List Stmt) : Sub :=
  ⟨name, params, body, false, false, none, .none⟩

/-- The variable of the object or class that a method is called on. -/
def invocant? (sub : Sub) : Option String :=
  if sub.isMethod then some (if sub.isStatic then "class" else "self") else none

end Sub

def Param.scalar (name : String) : Param := ⟨name, .scalar, none, none, false⟩

/-- The shape of a parameter. One that takes the remaining arguments is a list. -/
def Param.ownShape (param : Param) : Shape := if param.variadic then .list else param.shape

namespace Expr

def int (n : Int) : Expr := .number (Text.decimalInt n)

def scalar (name : String) : Expr := .var name .scalar

def set (target value : Expr) : Expr := .assign target none value

/-- How tightly an expression binds as an operand. Terms bind most tightly, and list operators
take everything to their right. -/
def precedence : Expr → Nat
  | .binary op .. => op.precedence
  | .unary op .. => if op.standsAfter then 17 else 15
  | .substitute .. => 14
  | .ternary .. => 2
  | .assign .. => 1
  | .list _ | .blockList .. => 0
  | _ => 100

def isListVar : Expr → Bool
  | .var _ .list => true
  | _ => false

def isMapVar : Expr → Bool
  | .var _ .map => true
  | _ => false

def nodeType : Expr → String
  | .number _ | .string _ | .bool _ | .undefined => "Literal"
  | .var .. => "Variable"
  | .index .. => "Index"
  | .key .. => "Key"
  | .slice .. => "Slice"
  | .lastIndex _ => "LastIndex"
  | .deref .. => "Deref"
  | .binary .. => "Binary"
  | .unary .. => "Unary"
  | .assign .. => "Assign"
  | .call .. | .callCode .. | .callMethod .. | .callClass .. => "Call"
  | .arrayRef _ => "ArrayRef"
  | .hashRef _ => "HashRef"
  | .list _ => "List"
  | .ternary .. => "Ternary"
  | .anonSub _ => "AnonSub"
  | .new .. => "New"
  | .bless .. => "Bless"
  | .doBlock _ => "Do"
  | .blockList .. => "BlockList"
  | .regex .. => "Regex"
  | .substitute .. => "Substitute"
  | .paren _ => "Paren"
  | .raw _ => "RawExpr"

def literalKind? : Expr → Option String
  | .number _ => some "Number"
  | .string _ => some "String"
  | .bool _ => some "Bool"
  | .undefined => some "Undef"
  | _ => none

end Expr

def StmtKind.nodeType : StmtKind → String
  | .block .. => "Block"
  | .varDecl .. => "VarDecl"
  | .expr _ => "ExprStmt"
  | .ret _ => "Return"
  | .ifElse .. => "If"
  | .loop .. => "For"
  | .foreach .. => "Foreach"
  | .while .. => "While"
  | .jump .. => "LoopControl"
  | .die _ => "Die"
  | .protect .. => "Try"
  | .package _ => "Package"
  | .sub _ => "Sub"
  | .raw _ => "RawStmt"

end Scriptgen.Perl
