import Scriptgen.Perl.Generate
/-!
# Constructs and types of Perl trees

What a piece of code needs from outside are the functions that it calls, the classes that it uses,
and the block functions and protected blocks in it. `constructs` lists them, each with the package
that its code is compiled in. `retype` keeps the types of a tree or throws them away, and changes
nothing else.
-/

namespace Scriptgen.Perl

/-- Something that code needs from outside. -/
inductive Construct where
  | call (name : String)
  | callClass (className : String)
  /-- A new object of a class. -/
  | new (className : String)
  /-- A block applied to a list. -/
  | block (op : BlockListOp)
  /-- A protected block in the newer form. -/
  | nativeTry
deriving DecidableEq, Repr

/-- Constructs with the packages that they are used in. -/
abbrev Uses := List (String × Construct)

/-! ## Constructs -/

mutual

def Expr.constructs (package : String) : Expr → Uses
  | .number _ | .string _ | .bool _ | .undefined | .var .. | .raw _ => []
  | .index base index => base.constructs package ++ index.constructs package
  | .key base key => base.constructs package ++ key.constructs package
  | .slice list indices => list.constructs package ++ indices.constructs package
  | .lastIndex list => list.constructs package
  | .deref expr _ => expr.constructs package
  | .binary _ left right _ _ => left.constructs package ++ right.constructs package
  | .unary _ operand _ => operand.constructs package
  | .assign target _ value => target.constructs package ++ value.constructs package
  | .call name args => (package, .call name) :: exprsConstructs package args
  | .callClass className _ args => (package, .callClass className) :: exprsConstructs package args
  | .new className args => (package, .new className) :: exprsConstructs package args
  | .arrayRef items | .list items => exprsConstructs package items
  | .callCode code args => code.constructs package ++ exprsConstructs package args
  | .callMethod invocant _ args => invocant.constructs package ++ exprsConstructs package args
  | .hashRef pairs => pairsConstructs package pairs
  | .ternary cond thenExpr elseExpr =>
    cond.constructs package ++ thenExpr.constructs package ++ elseExpr.constructs package
  | .anonSub sub => sub.constructs package
  | .bless data className => data.constructs package ++ className.constructs package
  | .doBlock body => stmtsConstructs package body
  | .blockList op body result list =>
    (package, .block op) :: (stmtsConstructs package body ++ result.constructs package ++
      list.constructs package)
  | .regex source _ => source.constructs package
  | .substitute target source replacement _ =>
    target.constructs package ++ source.constructs package ++ replacement.constructs package
  | .paren inner => inner.constructs package

def exprsConstructs (package : String) : List Expr → Uses
  | [] => []
  | expr :: rest => expr.constructs package ++ exprsConstructs package rest

def pairsConstructs (package : String) : List (Expr × Expr) → Uses
  | [] => []
  | (key, value) :: rest =>
    key.constructs package ++ value.constructs package ++ pairsConstructs package rest

def RegexSource.constructs (package : String) : RegexSource → Uses
  | .pattern _ => []
  | .quoted expr => expr.constructs package

def Stmt.constructs (package : String) : Stmt → Uses
  | ⟨kind, _⟩ => kind.constructs package

def stmtsConstructs (package : String) : List Stmt → Uses
  | [] => []
  | stmt :: rest => stmt.constructs package ++ stmtsConstructs package rest

def optionConstructs (package : String) : Option Expr → Uses
  | none => []
  | some expr => expr.constructs package

def initConstructs (package : String) : Option Stmt → Uses
  | none => []
  | some stmt => stmt.constructs package

def clauseConstructs (package : String) : Option (List Stmt) → Uses
  | none => []
  | some body => stmtsConstructs package body

def branchesConstructs (package : String) : List (Expr × List Stmt) → Uses
  | [] => []
  | (cond, body) :: rest =>
    cond.constructs package ++ stmtsConstructs package body ++ branchesConstructs package rest

def handlerConstructs (package : String) : Option (String × List Stmt) → Uses
  | none => []
  | some (_, body) => stmtsConstructs package body

def StmtKind.constructs (package : String) : StmtKind → Uses
  | .expr expr | .die expr => expr.constructs package
  | .varDecl _ init _ => optionConstructs package init
  | .ret value => optionConstructs package value
  | .block _ body => stmtsConstructs package body
  | .ifElse cond thenBranch elsifs elseBranch =>
    cond.constructs package ++ stmtsConstructs package thenBranch ++
      branchesConstructs package elsifs ++ clauseConstructs package elseBranch
  | .loop _ init cond step body =>
    initConstructs package init ++ optionConstructs package cond ++ exprsConstructs package step ++
      stmtsConstructs package body
  | .foreach _ _ list body => list.constructs package ++ stmtsConstructs package body
  | .while _ cond body _ => cond.constructs package ++ stmtsConstructs package body
  | .protect body handler cleanup native =>
    (if native then [(package, .nativeTry)] else []) ++ stmtsConstructs package body ++
      handlerConstructs package handler ++ clauseConstructs package cleanup
  | .package made => made.constructs
  | .sub sub => sub.constructs package
  | .jump .. | .raw _ => []

def Sub.constructs (package : String) : Sub → Uses
  | ⟨_, params, body, _, _, _, _⟩ => paramsConstructs package params ++ stmtsConstructs package body

def Param.constructs (package : String) : Param → Uses
  | ⟨_, _, _, fallback, _⟩ => optionConstructs package fallback

def paramsConstructs (package : String) : List Param → Uses
  | [] => []
  | param :: rest => param.constructs package ++ paramsConstructs package rest

def subsConstructs (package : String) : List Sub → Uses
  | [] => []
  | sub :: rest => sub.constructs package ++ subsConstructs package rest

/-- The code of a class is compiled in the package of its name. -/
def Package.constructs : Package → Uses
  | ⟨name, _, _, methods, staticInit, _, _⟩ =>
    subsConstructs name methods ++ stmtsConstructs name staticInit

end

attribute [simp] Expr.constructs exprsConstructs pairsConstructs RegexSource.constructs Stmt.constructs
  stmtsConstructs optionConstructs initConstructs clauseConstructs branchesConstructs
  handlerConstructs StmtKind.constructs Sub.constructs Param.constructs paramsConstructs
  subsConstructs Package.constructs

def Module.package (module : Module) : String := module.name.getD "main"

def Module.constructs (module : Module) : Uses :=
  stmtsConstructs module.package module.body

/-! ## Types -/

/-- A type that is kept or thrown away. -/
def keepType (keep : Bool) (type : Option PerlType) : Option PerlType := if keep then type else none

def Field.retype (keep : Bool) (field : Field) : Field :=
  { field with type := keepType keep field.type }

mutual

def Expr.retype (keep : Bool) : Expr → Expr
  | .number text => .number text
  | .string text => .string text
  | .bool b => .bool b
  | .undefined => .undefined
  | .var name shape => .var name shape
  | .index base index => .index (base.retype keep) (index.retype keep)
  | .key base key => .key (base.retype keep) (key.retype keep)
  | .slice list indices => .slice (list.retype keep) (indices.retype keep)
  | .lastIndex list => .lastIndex (list.retype keep)
  | .deref expr shape => .deref (expr.retype keep) shape
  | .binary op left right leftParens rightParens =>
    .binary op (left.retype keep) (right.retype keep) leftParens rightParens
  | .unary op operand parens => .unary op (operand.retype keep) parens
  | .assign target op value => .assign (target.retype keep) op (value.retype keep)
  | .call name args => .call name (retypeExprs keep args)
  | .callCode code args => .callCode (code.retype keep) (retypeExprs keep args)
  | .callMethod invocant name args => .callMethod (invocant.retype keep) name (retypeExprs keep args)
  | .callClass className name args => .callClass className name (retypeExprs keep args)
  | .arrayRef items => .arrayRef (retypeExprs keep items)
  | .hashRef pairs => .hashRef (retypePairs keep pairs)
  | .list items => .list (retypeExprs keep items)
  | .ternary cond thenExpr elseExpr =>
    .ternary (cond.retype keep) (thenExpr.retype keep) (elseExpr.retype keep)
  | .anonSub sub => .anonSub (sub.retype keep)
  | .new className args => .new className (retypeExprs keep args)
  | .bless data className => .bless (data.retype keep) (className.retype keep)
  | .doBlock body => .doBlock (retypeStmts keep body)
  | .blockList op body result list =>
    .blockList op (retypeStmts keep body) (result.retype keep) (list.retype keep)
  | .regex source flags => .regex (source.retype keep) flags
  | .substitute target source replacement everywhere =>
    .substitute (target.retype keep) (source.retype keep) (replacement.retype keep) everywhere
  | .paren inner => .paren (inner.retype keep)
  | .raw text => .raw text

def retypeExprs (keep : Bool) : List Expr → List Expr
  | [] => []
  | expr :: rest => expr.retype keep :: retypeExprs keep rest

def retypePairs (keep : Bool) : List (Expr × Expr) → List (Expr × Expr)
  | [] => []
  | (key, value) :: rest => (key.retype keep, value.retype keep) :: retypePairs keep rest

def RegexSource.retype (keep : Bool) : RegexSource → RegexSource
  | .pattern text => .pattern text
  | .quoted expr => .quoted (expr.retype keep)

def Stmt.retype (keep : Bool) : Stmt → Stmt
  | ⟨kind, remarks⟩ => ⟨kind.retype keep, remarks⟩

def retypeStmts (keep : Bool) : List Stmt → List Stmt
  | [] => []
  | stmt :: rest => stmt.retype keep :: retypeStmts keep rest

def retypeOption (keep : Bool) : Option Expr → Option Expr
  | none => none
  | some expr => some (expr.retype keep)

def retypeInit (keep : Bool) : Option Stmt → Option Stmt
  | none => none
  | some stmt => some (stmt.retype keep)

def retypeClause (keep : Bool) : Option (List Stmt) → Option (List Stmt)
  | none => none
  | some body => some (retypeStmts keep body)

def retypeBranches (keep : Bool) : List (Expr × List Stmt) → List (Expr × List Stmt)
  | [] => []
  | (cond, body) :: rest => (cond.retype keep, retypeStmts keep body) :: retypeBranches keep rest

def retypeHandler (keep : Bool) : Option (String × List Stmt) → Option (String × List Stmt)
  | none => none
  | some (var, body) => some (var, retypeStmts keep body)

def StmtKind.retype (keep : Bool) : StmtKind → StmtKind
  | .block label body => .block label (retypeStmts keep body)
  | .varDecl targets init scope => .varDecl targets (retypeOption keep init) scope
  | .expr expr => .expr (expr.retype keep)
  | .ret value => .ret (retypeOption keep value)
  | .ifElse cond thenBranch elsifs elseBranch =>
    .ifElse (cond.retype keep) (retypeStmts keep thenBranch) (retypeBranches keep elsifs)
      (retypeClause keep elseBranch)
  | .loop label init cond step body =>
    .loop label (retypeInit keep init) (retypeOption keep cond) (retypeExprs keep step)
      (retypeStmts keep body)
  | .foreach label var list body => .foreach label var (list.retype keep) (retypeStmts keep body)
  | .while label cond body postTest =>
    .while label (cond.retype keep) (retypeStmts keep body) postTest
  | .jump kind label => .jump kind label
  | .die value => .die (value.retype keep)
  | .protect body handler cleanup native =>
    .protect (retypeStmts keep body) (retypeHandler keep handler) (retypeClause keep cleanup) native
  | .package made => .package (made.retype keep)
  | .sub sub => .sub (sub.retype keep)
  | .raw text => .raw text

def Sub.retype (keep : Bool) : Sub → Sub
  | ⟨name, params, body, isMethod, isStatic, returnType, remarks⟩ =>
    ⟨name, retypeParams keep params, retypeStmts keep body, isMethod, isStatic,
      keepType keep returnType, remarks⟩

def Param.retype (keep : Bool) : Param → Param
  | ⟨name, shape, type, fallback, variadic⟩ =>
    ⟨name, shape, keepType keep type, retypeOption keep fallback, variadic⟩

def retypeParams (keep : Bool) : List Param → List Param
  | [] => []
  | param :: rest => param.retype keep :: retypeParams keep rest

def retypeSubs (keep : Bool) : List Sub → List Sub
  | [] => []
  | sub :: rest => sub.retype keep :: retypeSubs keep rest

def Package.retype (keep : Bool) : Package → Package
  | ⟨name, base, fields, methods, staticInit, blockForm, remarks⟩ =>
    ⟨name, base, fields.map (·.retype keep), retypeSubs keep methods, retypeStmts keep staticInit,
      blockForm, remarks⟩

end

/-- Types that are kept are as they were. -/
theorem Stmt.retype_true (stmt : Stmt) : stmt.retype true = stmt := by
  have hfield : Field.retype true = id := rfl
  -- The induction runs over all kinds of trees at once, with the same statement for each of them.
  apply Stmt.retype.induct (fun e => e.retype true = e) (fun source => source.retype true = source)
    (fun l => retypeStmts true l = l) (fun stmt => stmt.retype true = stmt)
    (fun kind => kind.retype true = kind) (fun sub => sub.retype true = sub)
    (fun l => retypeParams true l = l) (fun param => param.retype true = param)
    (fun o => retypeOption true o = o) (fun made => made.retype true = made)
    (fun l => retypeSubs true l = l) (fun o => retypeHandler true o = o)
    (fun l => retypeExprs true l = l) (fun o => retypeInit true o = o)
    (fun o => retypeClause true o = o) (fun l => retypeBranches true l = l)
    (fun l => retypePairs true l = l) <;>
  simp_all [Expr.retype, RegexSource.retype, retypeStmts, Stmt.retype, StmtKind.retype,
    Sub.retype, retypeParams, Param.retype, retypeOption, Package.retype, retypeSubs,
    retypeHandler, retypeExprs, retypeInit, retypeClause, retypeBranches, retypePairs, keepType]

end Scriptgen.Perl
