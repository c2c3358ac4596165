import Scriptgen.Ruby.Tree
/-!
# Jumps in Ruby bodies

A `break` leaves the loop or block around it. When a body gets a block of its own around it, its
breaks have to leave through a tag instead. These walks find and redirect the breaks of a body
that belong to the loop around it, and do not enter the blocks of calls.
-/

namespace Scriptgen.Ruby

mutual

def Stmt.breaks : Stmt → Bool
  | ⟨kind, _⟩ => kind.breaks

def StmtKind.breaks : StmtKind → Bool
  | .jump .leave _ => true
  | .ifElse _ thenBranch elsifs elseBranch =>
    anyBreaks thenBranch || anyBranchBreaks elsifs || optionBreaks elseBranch
  | .begin body rescue ensure => anyBreaks body || handlerBreaks rescue || optionBreaks ensure
  | .catchTag _ body => anyBreaks body
  | _ => false

/-- Whether one of some statements breaks out of the loop around them. -/
def anyBreaks : List Stmt → Bool
  | [] => false
  | stmt :: rest => stmt.breaks || anyBreaks rest

/-- Whether a branch that may be missing breaks out of the loop around it. -/
def optionBreaks : Option (List Stmt) → Bool
  | some body => anyBreaks body
  | none => false

/-- Whether one of some alternatives breaks out of the loop around them. -/
def anyBranchBreaks : List (Expr × List Stmt) → Bool
  | [] => false
  | (_, body) :: rest => anyBreaks body || anyBranchBreaks rest

def handlerBreaks : Option (Option String × List Stmt) → Bool
  | some (_, body) => anyBreaks body
  | none => false

end

mutual

/-- A statement whose breaks out of the loop around it go to a tag. -/
def Stmt.breaksTo (tag : String) : Stmt → Stmt
  | ⟨kind, remarks⟩ => ⟨kind.breaksTo tag, remarks⟩

def StmtKind.breaksTo (tag : String) : StmtKind → StmtKind
  | .jump .leave _ => .throwTag tag
  | .ifElse cond thenBranch elsifs elseBranch =>
    .ifElse cond (allBreaksTo tag thenBranch) (branchBreaksTo tag elsifs)
      (optionBreaksTo tag elseBranch)
  | .begin body rescue ensure =>
    .begin (allBreaksTo tag body) (handlerBreaksTo tag rescue) (optionBreaksTo tag ensure)
  | .catchTag inner body => .catchTag inner (allBreaksTo tag body)
  | kind => kind

/-- Statements whose breaks out of the loop around them go to a tag. -/
def allBreaksTo (tag : String) : List Stmt → List Stmt
  | [] => []
  | stmt :: rest => stmt.breaksTo tag :: allBreaksTo tag rest

def optionBreaksTo (tag : String) : Option (List Stmt) → Option (List Stmt)
  | some body => some (allBreaksTo tag body)
  | none => none

def branchBreaksTo (tag : String) : List (Expr × List Stmt) → List (Expr × List Stmt)
  | [] => []
  | (cond, body) :: rest => (cond, allBreaksTo tag body) :: branchBreaksTo tag rest

def handlerBreaksTo (tag : String) :
    Option (Option String × List Stmt) → Option (Option String × List Stmt)
  | some (name, body) => some (name, allBreaksTo tag body)
  | none => none

end

/-- Whether a statement continues the loop around it without a value. -/
def Stmt.isPlainNext (stmt : Stmt) : Bool :=
  match stmt.kind with
  | .jump .next none => true
  | _ => false

/-- The value that a last statement gives to the block that it ends. -/
def Stmt.asBlockResult (stmt : Stmt) : List Stmt :=
  match stmt.kind with
  | .jump .next (some value) => [⟨.expr value, stmt.remarks⟩]
  | .jump .next none => []
  | _ => [stmt]

/-- A body that ends with its result instead of a jump to the end. -/
def withBlockResult : List Stmt → List Stmt
  | [] => []
  | [last] => last.asBlockResult
  | first :: rest => first :: withBlockResult rest

def dropFinalNext (body : List Stmt) : List Stmt :=
  if body.getLast?.any Stmt.isPlainNext then body.dropLast else body

end Scriptgen.Ruby
