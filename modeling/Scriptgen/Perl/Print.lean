import Scriptgen.Perl.Quote
import Scriptgen.Perl.Tree
/-!
# Printing Perl

`Module.print` writes a Perl program as text. Parentheses around operands come from the tree. The
printer itself only puts parentheses where a term is required, and keeps neighbouring signs apart.

All functions take the layout and the depth of the statement they belong to.
-/

namespace Scriptgen.Perl

/-! ## Braces -/

/-- What finishes the header of a block: its opening brace. -/
def openBrace (layout : Layout) (depth : Nat) : String :=
  match layout.braces with
  | .sameLine => " \x7b" ++ layout.lineEnding
  | .nextLine => layout.lineEnding ++ layout.line depth "\x7b"

def closeBrace (layout : Layout) (depth : Nat) : String := layout.line depth "\x7d"

/-- A statement so far, continued by the header of a further clause after its closing brace. -/
def chainClause (layout : Layout) (depth : Nat) (before clause : String) : String :=
  match layout.braces with
  | .sameLine => Text.trimEnd before ++ " " ++ clause ++ openBrace layout depth
  | .nextLine => before ++ layout.pad depth ++ clause ++ openBrace layout depth

/-- A mark in the place of something that cannot be written. It ends its line. -/
def gap (layout : Layout) (depth : Nat) (what : String) : String :=
  "# ERROR: unsupported " ++ what ++ layout.lineEnding ++ layout.pad (depth + 1)

def labelMark : Option String → String
  | some label => label ++ ": "
  | none => ""

/-! ## Where an expression stands -/

def isBareword (text : String) : Bool :=
  match text.toList with
  | [] => false
  | c :: rest => (c.isAlpha || c == '_') && rest.all fun c => c.isAlphanum || c == '_'

/-- Whether an expression has to be put in parentheses where a term is required. -/
def Expr.needsWrapping (expr : Expr) : Bool :=
  expr.precedence < 100 ||
    match expr with
    | .anonSub _ | .doBlock _ | .blockList .. | .hashRef _ => true
    | _ => false

def Expr.isHashRef : Expr → Bool
  | .hashRef _ => true
  | _ => false

def Expr.isDoBlock : Expr → Bool
  | .doBlock _ => true
  | _ => false

def wrapIf (wrap : Bool) (text : String) : String := if wrap then "(" ++ text ++ ")" else text

/-- An expression, given by its text, where a term is required. -/
def asTerm (expr : Expr) (text : String) : String := wrapIf expr.needsWrapping text

/-- An expression, given by its text, in the braces of a dereference. A plus keeps `do` from being
read as a name. -/
def inBraces (expr : Expr) (text : String) : String :=
  "\x7b" ++ (if expr.isDoBlock then "+" else "") ++ text ++ "\x7d"

/-- An expression, given by its text, as the key of a hash. -/
def asKey (key : Expr) (text : String) : String :=
  match key with
  | .string word => if isBareword word then word else text
  | _ => text

def indexHead (base : Expr) (text : String) : String :=
  match base with
  | .var name .list => "$" ++ name ++ "["
  | _ => asTerm base text ++ "->["

def keyHead (base : Expr) (text : String) : String :=
  match base with
  | .var name .map => "$" ++ name ++ "\x7b"
  | _ => asTerm base text ++ "->\x7b"

def listName (list : Expr) (text : String) : String :=
  match list with
  | .var name .list => name
  | _ => inBraces list text

/-- Whether a minus before the operand would join with a sign of its own. -/
def joinsMinus : Expr → Bool
  | .unary .neg .. | .unary .preDec .. => true
  | .number text => text.startsWith "-"
  | _ => false

mutual

def Expr.isAssignable : Expr → Bool
  | .var .. | .index .. | .key .. | .slice .. | .lastIndex _ | .deref .. => true
  | .list items => allAssignable items
  | .paren inner => inner.isAssignable
  | .raw _ => true
  | _ => false

def allAssignable : List Expr → Bool
  | [] => true
  | item :: rest => item.isAssignable && allAssignable rest

end

def Stmt.isSimple (stmt : Stmt) : Bool :=
  match stmt.kind with
  | .varDecl .. | .expr _ => true
  | _ => false

def Stmt.isSpaced (stmt : Stmt) : Bool :=
  match stmt.kind with
  | .sub _ | .package _ => true
  | _ => false

/-! ## Declarations -/

def printTargets (targets : List VarTarget) : String :=
  match targets.map fun target => sigil target.shape ++ target.name with
  | [name] => name
  | names => "(" ++ String.intercalate ", " names ++ ")"

def printArguments (layout : Layout) (depth : Nat) (sub : Sub) : String :=
  let vars := (sub.invocant?.map ("$" ++ ·)).toList ++
    sub.params.map fun param => sigil param.ownShape ++ param.name
  if vars.isEmpty then ""
  else layout.line depth ("my (" ++ String.intercalate ", " vars ++ ") = @_;")

def Param.typed (param : Param) : String :=
  let written := sigil param.ownShape ++ param.name
  match param.type with
  | some type => type.print ++ " " ++ written
  | none => written

/-- The comment that gives the types of a subroutine, if any are known. -/
def Sub.typeComment? (sub : Sub) : Option String :=
  if sub.returnType.isNone && sub.params.all (·.type.isNone) then none
  else
    let signature := sub.name ++ "(" ++ String.intercalate ", " (sub.params.map Param.typed) ++ ")"
    some (signature ++ (sub.returnType.map fun type => " -> " ++ type.print).getD "")

def frameSub (layout : Layout) (depth : Nat) (sub : Sub) (body : String) : String :=
  sub.remarks.print layout depth ++
    (sub.typeComment?.map fun text => layout.line depth ("# " ++ text)).getD "" ++
    layout.pad depth ++ "sub " ++ sub.name ++ openBrace layout depth ++ body ++
    closeBrace layout depth

def printFields (layout : Layout) (depth : Nat) (fields : List Field) : String :=
  String.join (fields.filterMap fun field => field.type.map fun type =>
    layout.line depth ("# " ++ (if field.isStatic then "class field " else "field ") ++
      field.name ++ ": " ++ type.print))

/-- Sections with a blank line between them, without those that are absent. -/
def joinSections (layout : Layout) (sections : List (Option String)) : String :=
  String.intercalate layout.lineEnding (sections.filterMap id)

def Use.print (layout : Layout) (depth : Nat) (use : Use) : String :=
  let keyword := if use.off then "no " else "use "
  let imports :=
    if use.qualified then " ();"
    else if use.imports.isEmpty then ";"
    else " qw(" ++ String.intercalate " " use.imports ++ ");"
  layout.line depth (keyword ++ use.module ++ imports)

/-! ## Expressions and statements -/

mutual

def Expr.print (layout : Layout) (depth : Nat) : Expr → String
  | .number text => text
  | .string text => quoteString text
  | .bool b => if b then "1" else "0"
  | .undefined => "undef"
  | .var name shape => sigil shape ++ name
  | .index base index =>
    indexHead base (base.print layout depth) ++ index.print layout depth ++ "]"
  | .key base key =>
    keyHead base (base.print layout depth) ++ asKey key (key.print layout depth) ++ "\x7d"
  | .slice list indices =>
    "@" ++ listName list (list.print layout depth) ++ "[" ++ indices.print layout depth ++ "]"
  | .lastIndex list => "$#" ++ listName list (list.print layout depth)
  | .deref expr shape => sigil shape ++ inBraces expr (expr.print layout depth)
  | .binary op left right leftParens rightParens =>
    wrapIf leftParens (left.print layout depth) ++ " " ++ op.symbol ++ " " ++
      wrapIf rightParens (right.print layout depth)
  | .unary op operand parens =>
    if op.standsAfter then wrapIf parens (operand.print layout depth) ++ op.symbol
    else
      op.symbol ++
        wrapIf (parens || (op == .neg && joinsMinus operand)) (operand.print layout depth)
  | .assign target op value =>
    if target.isAssignable then
      target.print layout depth ++ " " ++ (op.map BinaryOp.symbol).getD "" ++ "= " ++
        value.print layout depth
    else
      gap layout depth ("assignment target " ++ target.nodeType) ++ value.print layout depth
  | .call name args => name ++ "(" ++ printExprs layout depth args ++ ")"
  | .callCode code args =>
    asTerm code (code.print layout depth) ++ "->(" ++ printExprs layout depth args ++ ")"
  | .callMethod invocant name args =>
    asTerm invocant (invocant.print layout depth) ++ "->" ++ name ++ "(" ++
      printExprs layout depth args ++ ")"
  | .callClass className name args =>
    className ++ "->" ++ name ++ "(" ++ printExprs layout depth args ++ ")"
  | .arrayRef items => "[" ++ printExprs layout depth items ++ "]"
  | .hashRef pairs =>
    if pairs.isEmpty then "\x7b\x7d" else "\x7b " ++ printPairs layout depth pairs ++ " \x7d"
  | .list items => "(" ++ printExprs layout depth items ++ ")"
  | .ternary cond thenExpr elseExpr =>
    cond.print layout depth ++ " ? " ++ thenExpr.print layout depth ++ " : " ++
      elseExpr.print layout depth
  | .anonSub sub =>
    "sub \x7b" ++ layout.lineEnding ++ sub.printBody layout depth ++ layout.pad depth ++ "\x7d"
  | .new className args => className ++ "->new(" ++ printExprs layout depth args ++ ")"
  | .bless data className =>
    "bless(" ++ data.print layout depth ++ ", " ++ className.print layout depth ++ ")"
  | .doBlock body =>
    "do \x7b" ++ layout.lineEnding ++ printStmts layout (depth + 1) body ++ layout.pad depth ++
      "\x7d"
  | .blockList op body result list =>
    op.name ++
      (if body.all Stmt.isSimple then
        " \x7b " ++ printInline layout depth body ++ (if result.isHashRef then "+" else "") ++
          result.print layout depth ++ " \x7d "
      else
        " \x7b" ++ layout.lineEnding ++ printStmts layout (depth + 1) body ++
          layout.pad (depth + 1) ++ result.print layout (depth + 1) ++ layout.lineEnding ++
          layout.pad depth ++ "\x7d ") ++
      list.print layout depth
  | .regex source flags => "qr\x7b" ++ source.print layout depth ++ "\x7d" ++ flags
  | .substitute target source replacement everywhere =>
    asTerm target (target.print layout depth) ++ " =~ s\x7b" ++ source.print layout depth ++
      "\x7d\x7b" ++ replacement.print layout depth ++ "\x7d" ++ (if everywhere then "ger" else "er")
  | .paren inner => "(" ++ inner.print layout depth ++ ")"
  | .raw text => text

def printExprs (layout : Layout) (depth : Nat) : List Expr → String
  | [] => ""
  | [expr] => expr.print layout depth
  | expr :: rest => expr.print layout depth ++ ", " ++ printExprs layout depth rest

def printPairs (layout : Layout) (depth : Nat) : List (Expr × Expr) → String
  | [] => ""
  | [(key, value)] =>
    asKey key (key.print layout depth) ++ " => " ++ value.print layout depth
  | (key, value) :: rest =>
    asKey key (key.print layout depth) ++ " => " ++ value.print layout depth ++ ", " ++
      printPairs layout depth rest

def RegexSource.print (layout : Layout) (depth : Nat) : RegexSource → String
  | .pattern text => text
  | .quoted expr => "\\Q$\x7b\\ " ++ expr.print layout depth ++ "\x7d\\E"

def printOption (layout : Layout) (depth : Nat) : Option Expr → String
  | none => ""
  | some expr => expr.print layout depth

/-- A declaration or an expression without indentation and semicolon. -/
def Stmt.printSimple (layout : Layout) (depth : Nat) : Stmt → String
  | ⟨.varDecl targets init scope, _⟩ =>
    scope.keyword ++ " " ++ printTargets targets ++
      (match init with
        | some init => " = " ++ init.print layout depth
        | none => "")
  | ⟨.expr expr, _⟩ => expr.print layout depth
  | _ => ""

def printInline (layout : Layout) (depth : Nat) : List Stmt → String
  | [] => ""
  | stmt :: rest => stmt.printSimple layout depth ++ "; " ++ printInline layout depth rest

def printStmts (layout : Layout) (depth : Nat) : List Stmt → String
  | [] => ""
  | stmt :: rest => stmt.print layout depth ++ printStmts layout depth rest

def Stmt.print (layout : Layout) (depth : Nat) : Stmt → String
  | ⟨kind, remarks⟩ => remarks.print layout depth ++ kind.print layout depth

def StmtKind.print (layout : Layout) (depth : Nat) : StmtKind → String
  | .block label body =>
    layout.pad depth ++ labelMark label ++ "\x7b" ++ layout.lineEnding ++
      printStmts layout (depth + 1) body ++ closeBrace layout depth
  | .varDecl targets init scope =>
    layout.line depth (scope.keyword ++ " " ++ printTargets targets ++
      (match init with
        | some init => " = " ++ init.print layout depth
        | none => "") ++ ";")
  | .expr expr => layout.line depth (expr.print layout depth ++ ";")
  | .ret value =>
    layout.line depth ("return" ++
      (match value with
        | some value => " " ++ value.print layout depth
        | none => "") ++ ";")
  | .ifElse cond thenBranch elsifs elseBranch =>
    let first := layout.pad depth ++ "if (" ++ cond.print layout depth ++ ")" ++
      openBrace layout depth ++ printStmts layout (depth + 1) thenBranch ++ closeBrace layout depth
    printElse layout depth (printElsifs layout depth first elsifs) elseBranch
  | .loop label init cond step body =>
    let start :=
      match init with
      | some init => init.printSimple layout depth
      | none => ""
    let header := layout.pad depth ++ labelMark label ++ "for (" ++ start ++ "; " ++
      printOption layout depth cond ++ "; " ++ printExprs layout depth step
    let lost :=
      match init with
      | some init =>
        if init.isSimple then ""
        else
          let mark := gap layout (depth + 1) ("for-loop initializer " ++ init.kind.nodeType)
          Text.trimEnd (layout.pad (depth + 1) ++ mark) ++ layout.lineEnding
      | none => ""
    Text.trimEnd header ++ ")" ++ openBrace layout depth ++ lost ++
      printStmts layout (depth + 1) body ++ closeBrace layout depth
  | .foreach label var list body =>
    layout.pad depth ++ labelMark label ++ "for my $" ++ var ++ " (" ++ list.print layout depth ++
      ")" ++ openBrace layout depth ++ printStmts layout (depth + 1) body ++
      closeBrace layout depth
  | .while label cond body postTest =>
    if postTest then
      let loop := layout.pad depth ++ labelMark label ++ "while (1)" ++ openBrace layout depth ++
        printStmts layout (depth + 1) body ++ closeBrace layout depth
      chainClause layout depth loop "continue" ++
        layout.pad (depth + 1) ++ "last if !(" ++ cond.print layout (depth + 1) ++ ");" ++
        layout.lineEnding ++ closeBrace layout depth
    else
      layout.pad depth ++ labelMark label ++ "while (" ++ cond.print layout depth ++ ")" ++
        openBrace layout depth ++ printStmts layout (depth + 1) body ++ closeBrace layout depth
  | .jump kind label =>
    layout.line depth (kind.keyword ++ (label.map (" " ++ ·)).getD "" ++ ";")
  | .die value => layout.line depth ("die " ++ value.print layout depth ++ ";")
  | .protect body handler cleanup native =>
    if native then
      let guarded := layout.pad depth ++ "try" ++ openBrace layout depth ++
        printStmts layout (depth + 1) body ++ closeBrace layout depth
      let handled :=
        match handler with
        | some (var, body) =>
          chainClause layout depth guarded ("catch ($" ++ var ++ ")") ++
            printStmts layout (depth + 1) body
        | none =>
          chainClause layout depth guarded "catch ($__error)" ++
            layout.line (depth + 1) "die $__error;"
      let handled := handled ++ closeBrace layout depth
      match cleanup with
      | some body =>
        chainClause layout depth handled "finally" ++ printStmts layout (depth + 1) body ++
          closeBrace layout depth
      | none => handled
    else
      match cleanup with
      | none =>
        let guarded := layout.pad depth ++ "eval" ++ openBrace layout depth ++
          printStmts layout (depth + 1) body ++ layout.line (depth + 1) "1;" ++
          closeBrace layout depth
        chainClause layout depth guarded "or do" ++
          (match handler with
            | some (var, body) =>
              layout.line (depth + 1) ("my $" ++ var ++ " = $@;") ++
                printStmts layout (depth + 1) body
            | none => "") ++
          layout.line depth "\x7d;"
      | some cleanup =>
        layout.line depth "\x7b" ++
          layout.pad (depth + 1) ++ "my $__ok = eval" ++ openBrace layout (depth + 1) ++
          printStmts layout (depth + 2) body ++ layout.line (depth + 2) "1;" ++
          layout.line (depth + 1) "\x7d;" ++
          layout.line (depth + 1) "my $__error = $@;" ++
          (match handler with
            | some (var, body) =>
              layout.pad (depth + 1) ++ "if (!$__ok)" ++ openBrace layout (depth + 1) ++
                layout.line (depth + 2) ("my $" ++ var ++ " = $__error;") ++
                printStmts layout (depth + 2) body ++ closeBrace layout (depth + 1)
            | none => "") ++
          printStmts layout (depth + 1) cleanup ++
          (if handler.isNone then layout.line (depth + 1) "die $__error if !$__ok;" else "") ++
          closeBrace layout depth
  | .package package => package.print layout depth
  | .sub sub => frameSub layout depth sub (sub.printBody layout depth)
  | .raw text => String.join ((Text.lines text).map (layout.line depth))

/-- The further tests of an `if` statement, after its text so far. -/
def printElsifs (layout : Layout) (depth : Nat) (before : String) :
    List (Expr × List Stmt) → String
  | [] => before
  | (cond, body) :: rest =>
    let clause := "elsif (" ++ cond.print layout depth ++ ")"
    printElsifs layout depth
      (chainClause layout depth before clause ++ printStmts layout (depth + 1) body ++
        closeBrace layout depth)
      rest

/-- The last branch of an `if` statement, after its text so far. A branch that is only another
`if` without comments continues the chain. -/
def printElse (layout : Layout) (depth : Nat) (before : String) : Option (List Stmt) → String
  | none => before
  | some [⟨.ifElse cond thenBranch elsifs elseBranch, ⟨_, []⟩⟩] =>
    let clause := "elsif (" ++ cond.print layout depth ++ ")"
    let first := chainClause layout depth before clause ++
      printStmts layout (depth + 1) thenBranch ++ closeBrace layout depth
    printElse layout depth (printElsifs layout depth first elsifs) elseBranch
  | some body =>
    chainClause layout depth before "else" ++ printStmts layout (depth + 1) body ++
      closeBrace layout depth

/-- The lines that give parameters their values if the arguments are undefined. -/
def printFallbacks (layout : Layout) (depth : Nat) : List Param → String
  | [] => ""
  | ⟨name, _, _, fallback, _⟩ :: rest =>
    (match fallback with
      | some value => layout.line depth ("$" ++ name ++ " //= " ++ value.print layout depth ++ ";")
      | none => "") ++ printFallbacks layout depth rest

def Sub.printBody (layout : Layout) (depth : Nat) : Sub → String
  | ⟨name, params, body, isMethod, isStatic, returnType, remarks⟩ =>
    printArguments layout (depth + 1)
        ⟨name, params, body, isMethod, isStatic, returnType, remarks⟩ ++
      printFallbacks layout (depth + 1) params ++ printStmts layout (depth + 1) body

def printSubs (layout : Layout) (depth : Nat) : List Sub → List (Option String)
  | [] => []
  | sub :: rest =>
    some (frameSub layout depth sub (sub.printBody layout depth)) :: printSubs layout depth rest

def Package.print (layout : Layout) (depth : Nat) : Package → String
  | ⟨name, base, fields, methods, staticInit, blockForm, remarks⟩ =>
    let fieldLines := printFields layout (depth + 1) fields
    remarks.print layout depth ++
      (if blockForm then layout.pad depth ++ "package " ++ name ++ openBrace layout depth
      else layout.line depth "\x7b" ++ layout.line (depth + 1) ("package " ++ name ++ ";")) ++
      joinSections layout
        ([base.map fun base =>
            layout.line (depth + 1) ("use parent -norequire, " ++ quoteString base ++ ";"),
          if fields.all (·.type.isNone) then none else some fieldLines,
          if staticInit.isEmpty then none else some (printStmts layout (depth + 1) staticInit)] ++
        printSubs layout (depth + 1) methods) ++
      closeBrace layout depth

end

def Sub.print (layout : Layout) (depth : Nat) (sub : Sub) : String :=
  frameSub layout depth sub (sub.printBody layout depth)

/-! ## Files -/

/-- Statements of a file, with blank lines around subroutines and classes. -/
def printTopLevel (layout : Layout) (depth : Nat) : List Stmt → String
  | [] => ""
  | stmt :: rest =>
    stmt.print layout depth ++
      (match rest with
        | [] => ""
        | next :: _ =>
          if stmt.isSpaced || next.isSpaced then layout.lineEnding else "") ++
      printTopLevel layout depth rest

/-- A file. One that is a package ends with a true value. -/
def Module.print (layout : Layout) (module : Module) : String :=
  let uses := module.pragmas ++ module.uses
  let header := module.name.isSome || !uses.isEmpty
  module.remarks.print layout 0 ++
    (module.name.map fun name => layout.line 0 ("package " ++ name ++ ";")).getD "" ++
    String.join (uses.map (·.print layout 0)) ++
    (if header && !module.body.isEmpty then layout.lineEnding else "") ++
    printTopLevel layout 0 module.body ++
    (if module.name.isSome then
      (if module.body.isEmpty then "" else layout.lineEnding) ++ layout.line 0 "1;"
    else "")

end Scriptgen.Perl
