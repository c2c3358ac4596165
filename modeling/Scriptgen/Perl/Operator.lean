/-!
# Perl operators

The operators that generated Perl uses, with their spelling and how tightly they bind.
-/

namespace Scriptgen.Perl

/-- An operator between two operands. -/
inductive BinaryOp where
  | pow
  | matches
  | notMatches
  | mul
  | div
  | mod
  | repeated
  | add
  | sub
  | concat
  | shl
  | shr
  | numLt
  | numGt
  | numLe
  | numGe
  | strLt
  | strGt
  | strLe
  | strGe
  | numEq
  | numNe
  | numCmp
  | strEq
  | strNe
  | strCmp
  | bitAnd
  | bitOr
  | bitXor
  | and
  | or
  | definedOr
  | range
deriving DecidableEq, Repr

namespace BinaryOp

def all : List BinaryOp :=
  [.pow, .matches, .notMatches, .mul, .div, .mod, .repeated, .add, .sub, .concat, .shl, .shr,
    .numLt, .numGt, .numLe, .numGe, .strLt, .strGt, .strLe, .strGe, .numEq, .numNe, .numCmp,
    .strEq, .strNe, .strCmp, .bitAnd, .bitOr, .bitXor, .and, .or, .definedOr, .range]

def symbol : BinaryOp → String
  | .pow => "**"
  | .matches => "=~"
  | .notMatches => "!~"
  | .mul => "*"
  | .div => "/"
  | .mod => "%"
  | .repeated => "x"
  | .add => "+"
  | .sub => "-"
  | .concat => "."
  | .shl => "<<"
  | .shr => ">>"
  | .numLt => "<"
  | .numGt => ">"
  | .numLe => "<="
  | .numGe => ">="
  | .strLt => "lt"
  | .strGt => "gt"
  | .strLe => "le"
  | .strGe => "ge"
  | .numEq => "=="
  | .numNe => "!="
  | .numCmp => "<=>"
  | .strEq => "eq"
  | .strNe => "ne"
  | .strCmp => "cmp"
  | .bitAnd => "&"
  | .bitOr => "|"
  | .bitXor => "^"
  | .and => "&&"
  | .or => "||"
  | .definedOr => "//"
  | .range => ".."

def ofSymbol? (symbol : String) : Option BinaryOp := all.find? (·.symbol == symbol)

def precedence : BinaryOp → Nat
  | .pow => 16
  | .matches | .notMatches => 14
  | .mul | .div | .mod | .repeated => 13
  | .add | .sub | .concat => 12
  | .shl | .shr => 11
  | .numLt | .numGt | .numLe | .numGe | .strLt | .strGt | .strLe | .strGe => 9
  | .numEq | .numNe | .numCmp | .strEq | .strNe | .strCmp => 8
  | .bitAnd => 7
  | .bitOr | .bitXor => 6
  | .and => 5
  | .or | .definedOr => 4
  | .range => 3

def isRightAssoc (op : BinaryOp) : Bool := op == .pow

def isNonAssoc (op : BinaryOp) : Bool :=
  op.precedence == 8 || op.precedence == 9 || op.precedence == 3 || op.precedence == 14

end BinaryOp

/-- An operator with one operand. -/
inductive UnaryOp where
  | neg
  | not
  | bitNot
  /-- The reference to a variable. -/
  | ref
  | preInc
  | preDec
  | postInc
  | postDec
deriving DecidableEq, Repr

namespace UnaryOp

def symbol : UnaryOp → String
  | .neg => "-"
  | .not => "!"
  | .bitNot => "~"
  | .ref => "\\"
  | .preInc | .postInc => "++"
  | .preDec | .postDec => "--"

def standsAfter (op : UnaryOp) : Bool := op == .postInc || op == .postDec

end UnaryOp

/-- A function of a block and a list. -/
inductive BlockListOp where
  | map
  | grep
  | sort
  | first
  | any
  | all
deriving DecidableEq, Repr

def BlockListOp.name : BlockListOp → String
  | .map => "map"
  | .grep => "grep"
  | .sort => "sort"
  | .first => "first"
  | .any => "any"
  | .all => "all"

/-- How a variable is declared. -/
inductive DeclScope where
  | my
  | our
deriving DecidableEq, Repr

def DeclScope.keyword : DeclScope → String
  | .my => "my"
  | .our => "our"

/-- A jump within loops. -/
inductive LoopJump where
  | last
  | next
  | redo
deriving DecidableEq, Repr

def LoopJump.keyword : LoopJump → String
  | .last => "last"
  | .next => "next"
  | .redo => "redo"

end Scriptgen.Perl
