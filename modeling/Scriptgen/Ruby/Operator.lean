/-!
# Ruby operators

The operators that generated Ruby uses, with their spelling and how tightly they bind.
-/

namespace Scriptgen.Ruby

inductive BinaryOp where
  | pow
  | mul
  | div
  | mod
  | add
  | sub
  | shl
  | shr
  | bitAnd
  | bitOr
  | bitXor
  | lt
  | gt
  | le
  | ge
  | eq
  | ne
  | cmp
  | matches
  | and
  | or
deriving DecidableEq, Repr

namespace BinaryOp

def all : List BinaryOp :=
  [.pow, .mul, .div, .mod, .add, .sub, .shl, .shr, .bitAnd, .bitOr, .bitXor, .lt, .gt, .le, .ge,
    .eq, .ne, .cmp, .matches, .and, .or]

def symbol : BinaryOp → String
  | .pow => "**"
  | .mul => "*"
  | .div => "/"
  | .mod => "%"
  | .add => "+"
  | .sub => "-"
  | .shl => "<<"
  | .shr => ">>"
  | .bitAnd => "&"
  | .bitOr => "|"
  | .bitXor => "^"
  | .lt => "<"
  | .gt => ">"
  | .le => "<="
  | .ge => ">="
  | .eq => "=="
  | .ne => "!="
  | .cmp => "<=>"
  | .matches => "=~"
  | .and => "&&"
  | .or => "||"

def ofSymbol? (symbol : String) : Option BinaryOp := all.find? (·.symbol == symbol)

def precedence : BinaryOp → Nat
  | .pow => 17
  | .mul | .div | .mod => 15
  | .add | .sub => 14
  | .shl | .shr => 13
  | .bitAnd => 12
  | .bitOr | .bitXor => 11
  | .lt | .gt | .le | .ge => 10
  | .eq | .ne | .cmp | .matches => 9
  | .and => 8
  | .or => 7

def isRightAssoc (op : BinaryOp) : Bool := op == .pow

def isNonAssoc (op : BinaryOp) : Bool := op.precedence == 9 || op.precedence == 10

end BinaryOp

inductive UnaryOp where
  | neg
  | not
  | bitNot
deriving DecidableEq, Repr

namespace UnaryOp

def symbol : UnaryOp → String
  | .neg => "-"
  | .not => "!"
  | .bitNot => "~"

def precedence : UnaryOp → Nat
  | .not | .bitNot => 18
  | .neg => 16

end UnaryOp

/-- Where a variable lives. -/
inductive VarKind where
  | plain
  | ofInstance
  | global
  | constant
deriving DecidableEq, Repr

def VarKind.sign : VarKind → String
  | .plain | .constant => ""
  | .ofInstance => "@"
  | .global => "$"

/-- A jump within loops and blocks. -/
inductive LoopJump where
  | leave
  | next
  | redo
deriving DecidableEq, Repr

def LoopJump.keyword : LoopJump → String
  | .leave => "break"
  | .next => "next"
  | .redo => "redo"

end Scriptgen.Ruby
