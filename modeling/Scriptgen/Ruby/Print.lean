import Scriptgen.Ruby.Quote
import Scriptgen.Ruby.Tree
/-!
# Printing Ruby

`Module.print` writes a Ruby program as text. Parentheses around operands come from the tree. The
printer itself only puts parentheses where a term is required, and writes a block on one line if its
body is one expression that has no line ends.

All functions take the layout and the depth of the statement they belong to. The brace style has
no meaning for Ruby.
-/

namespace Scriptgen.Ruby

def gap (layout : Layout) (depth : Nat) (what : String) : String :=
  "# ERROR: unsupported " ++ what ++ layout.lineEnding ++ layout.pad (depth + 1)

/-! ## Where an expression stands -/

def Expr.needsWrapping (expr : Expr) : Bool :=
  expr.precedence < 100 ||
    match expr with
    | .lambda _ | .begin _ | .hash _ => true
    | _ => false

def wrapIf (wrap : Bool) (text : String) : String := if wrap then "(" ++ text ++ ")" else text

def asTerm (expr : Expr) (text : String) : String := wrapIf expr.needsWrapping text

mutual

def Expr.startsWithNumber : Expr → Bool
  | .number _ => true
  | .call receiver _ _ _ => optionStartsWithNumber receiver
  | .index base _ => base.startsWithNumber
  | _ => false

def optionStartsWithNumber : Option Expr → Bool
  | some expr => expr.startsWithNumber
  | none => false

end

/-- Whether an expression can be assigned to. Assigning to an attribute calls its writer. -/
def Expr.isAssignable : Expr → Bool
  | .var .. | .index .. => true
  | .call (some _) _ args none => args.isEmpty
  | .splat inner | .paren inner => inner.isAssignable
  | .raw _ => true
  | _ => false

def Stmt.isSpaced (stmt : Stmt) : Bool :=
  match stmt.kind with
  | .method _ | .classDef _ => true
  | _ => false

/-- A regular expression between slashes: free slashes and the start of an interpolation are
escaped. -/
def regexBody : List Char → List Char
  | [] => []
  | '\\' :: c :: rest => '\\' :: c :: regexBody rest
  | '/' :: rest => '\\' :: '/' :: regexBody rest
  | '#' :: '\x7b' :: rest => '\\' :: '#' :: regexBody ('\x7b' :: rest)
  | c :: rest => c :: regexBody rest

/-! ## Declarations -/

/-- The lines that declare attributes. Those without a type share one line. -/
def printAccessors (layout : Layout) (depth : Nat) (fields : List Field) : String :=
  let untyped := (fields.filter (·.type.isNone)).map fun field => ":" ++ field.name
  (if untyped.isEmpty then ""
    else layout.line depth ("attr_accessor " ++ String.intercalate ", " untyped)) ++
  String.join (fields.filterMap fun field => field.type.map fun type =>
    layout.line depth ("attr_accessor :" ++ field.name ++ " #: " ++ type.print))

def typeOrUntyped (type : Option RubyType) : String := (type.map RubyType.print).getD "untyped"

def Param.typed (param : Param) : String :=
  (if param.variadic then "*" else if param.fallback.isSome then "?" else "") ++
    typeOrUntyped param.type ++ " " ++ param.name

/-- The comment that gives the types of a method, if any are known. -/
def Method.typeComment? (method : Method) : Option String :=
  if method.returnType.isNone && method.params.all (·.type.isNone) then none
  else
    some ("(" ++ String.intercalate ", " (method.params.map Param.typed) ++ ") -> " ++
      typeOrUntyped method.returnType)

def printHead (layout : Layout) (depth : Nat) (method : Method) (params : String) : String :=
  method.remarks.print layout depth ++
    (method.typeComment?.map fun text => layout.line depth ("#: " ++ text)).getD "" ++
    layout.pad depth ++ "def " ++ (if method.isStatic then "self." else "") ++ method.name ++
    (if method.params.isEmpty then "" else "(" ++ params ++ ")")

def barred (locals : List String) (params : String) (noParams : Bool) : String :=
  if noParams && locals.isEmpty then ""
  else
    "|" ++ params ++ (if locals.isEmpty then "" else "; " ++ String.intercalate ", " locals) ++ "|"

def inlineBlock (bars expr : String) : String :=
  " \x7b " ++ bars ++ (if bars.isEmpty then "" else " ") ++ expr ++ " \x7d"

/-- A block, given by its bars, the expression that is all of its body, if it is one, and the lines
of its body. -/
def frameBlock (layout : Layout) (depth : Nat) (locals : List String) (bars : String)
    (sole? : Option String) (body : String) : String :=
  match (sole?.map (inlineBlock bars)).filter fun text =>
    locals.isEmpty && !text.contains '\n' with
  | some text => text
  | none =>
    " do" ++ (if bars.isEmpty then "" else " " ++ bars) ++ layout.lineEnding ++ body ++
      layout.pad depth ++ "end"

/-- A method, given by what stands before its body, the value that is all of its body, if it is
one, and the lines of its body. -/
def frameMethod (layout : Layout) (depth : Nat) (head : String) (endless : Bool)
    (value? : Option String) (body : String) : String :=
  match endless, value? with
  | true, some value => head ++ " = " ++ value ++ layout.lineEnding
  | _, _ => head ++ layout.lineEnding ++ body ++ layout.line depth "end"

def joinSections (layout : Layout) (sections : List (Option String)) : String :=
  String.intercalate layout.lineEnding (sections.filterMap id)

def fieldSections (layout : Layout) (depth : Nat) (fields : List Field) : List (Option String) :=
  let own := fields.filter (!·.isStatic)
  let static := fields.filter (·.isStatic)
  [if own.isEmpty then none else some (printAccessors layout depth own),
    if static.isEmpty then none
    else
      some (layout.line depth "class << self" ++ printAccessors layout (depth + 1) static ++
        layout.line depth "end")]

/-! ## Expressions and statements -/

mutual

def Expr.print (layout : Layout) (depth : Nat) : Expr → String
  | .number text => text
  | .string text => quoteString text
  | .symbol text => quoteSymbol text
  | .bool b => if b then "true" else "false"
  | .nil => "nil"
  | .var name kind => kind.sign ++ name
  | .self => "self"
  | .index base index =>
    asTerm base (base.print layout depth) ++ "[" ++ index.print layout depth ++ "]"
  | .binary op left right leftParens rightParens =>
    wrapIf leftParens (left.print layout depth) ++ " " ++ op.symbol ++ " " ++
      wrapIf rightParens (right.print layout depth)
  | .unary op operand parens =>
    op.symbol ++
      wrapIf (parens || (op == .neg && operand.startsWithNumber)) (operand.print layout depth)
  | .assign target op value =>
    if target.isAssignable then
      target.print layout depth ++ " " ++ (op.map BinaryOp.symbol).getD "" ++ "= " ++
        value.print layout depth
    else
      gap layout depth ("assignment target " ++ target.nodeType) ++ value.print layout depth
  | .multiAssign targets value =>
    match targets.find? (!·.isAssignable) with
    | some bad =>
      gap layout depth ("assignment target " ++ bad.nodeType) ++ value.print layout depth
    | none => printExprs layout depth targets ++ " = " ++ value.print layout depth
  | .call receiver name args block =>
    (match receiver with
      | some receiver => asTerm receiver (receiver.print layout depth) ++ "."
      | none => "") ++
    name ++
    (if !args.isEmpty || (receiver.isNone && block.isNone) then
      "(" ++ printExprs layout depth args ++ ")"
    else "") ++
    (match block with
      | some block => block.print layout depth
      | none => "")
  | .super args => "super(" ++ printExprs layout depth args ++ ")"
  | .array items => "[" ++ printExprs layout depth items ++ "]"
  | .hash pairs =>
    if pairs.isEmpty then "\x7b\x7d" else "\x7b " ++ printPairs layout depth pairs ++ " \x7d"
  | .splat inner => "*" ++ asTerm inner (inner.print layout depth)
  | .blockPass inner => "&" ++ asTerm inner (inner.print layout depth)
  | .range start stop exclusive =>
    wrapIf (start.precedence ≤ 6) (start.print layout depth) ++
      (if exclusive then "..." else "..") ++
      (match stop with
        | some stop => wrapIf (stop.precedence ≤ 6) (stop.print layout depth)
        | none => "")
  | .ternary cond thenExpr elseExpr =>
    wrapIf (cond.precedence ≤ 5) (cond.print layout depth) ++ " ? " ++
      wrapIf (thenExpr.precedence < 5) (thenExpr.print layout depth) ++ " : " ++
      wrapIf (elseExpr.precedence < 5) (elseExpr.print layout depth)
  | .lambda block => "lambda" ++ block.print layout depth
  | .new className args =>
    className ++ ".new" ++ (if args.isEmpty then "" else "(" ++ printExprs layout depth args ++ ")")
  | .begin body =>
    "begin" ++ layout.lineEnding ++ printStmts layout (depth + 1) body ++ layout.pad depth ++ "end"
  | .interp parts => "\"" ++ printParts layout depth parts ++ "\""
  | .regex pattern flags => "/" ++ String.ofList (regexBody pattern.toList) ++ "/" ++ flags
  | .paren inner => "(" ++ inner.print layout depth ++ ")"
  | .raw text => text

def printExprs (layout : Layout) (depth : Nat) : List Expr → String
  | [] => ""
  | [expr] => expr.print layout depth
  | expr :: rest => expr.print layout depth ++ ", " ++ printExprs layout depth rest

def printPairs (layout : Layout) (depth : Nat) : List (Expr × Expr) → String
  | [] => ""
  | [(key, value)] => key.print layout depth ++ " => " ++ value.print layout depth
  | (key, value) :: rest =>
    key.print layout depth ++ " => " ++ value.print layout depth ++ ", " ++
      printPairs layout depth rest

def printParts (layout : Layout) (depth : Nat) : List InterpPart → String
  | [] => ""
  | .text text :: rest => escapeText text ++ printParts layout depth rest
  | .expr expr :: rest =>
    "#\x7b" ++ expr.print layout depth ++ "\x7d" ++ printParts layout depth rest

def printParams (layout : Layout) (depth : Nat) : List Param → String
  | [] => ""
  | ⟨name, _, fallback, variadic⟩ :: rest =>
    (if variadic then "*" else "") ++ name ++
      (match fallback with
        | some value => " = " ++ value.print layout depth
        | none => "") ++
      (if rest.isEmpty then "" else ", ") ++ printParams layout depth rest

/-- The text of a body that is one expression without comments. -/
def printSole? (layout : Layout) (depth : Nat) : List Stmt → Option String
  | [⟨.expr expr, ⟨_, []⟩⟩] => some (expr.print layout depth)
  | _ => none

/-- The text of a body that is one value without comments, returned or not. -/
def printValue? (layout : Layout) (depth : Nat) : List Stmt → Option String
  | [⟨.ret (some value), ⟨_, []⟩⟩] => some (value.print layout depth)
  | [⟨.expr value, ⟨_, []⟩⟩] => some (value.print layout depth)
  | _ => none

def Block.print (layout : Layout) (depth : Nat) : Block → String
  | ⟨params, locals, body⟩ =>
    frameBlock layout depth locals (barred locals (printParams layout depth params) params.isEmpty)
      (printSole? layout depth body) (printStmts layout (depth + 1) body)

def printStmts (layout : Layout) (depth : Nat) : List Stmt → String
  | [] => ""
  | stmt :: rest => stmt.print layout depth ++ printStmts layout depth rest

def Stmt.print (layout : Layout) (depth : Nat) : Stmt → String
  | ⟨kind, remarks⟩ => remarks.print layout depth ++ kind.print layout depth

def printTail (layout : Layout) (depth : Nat) : Option Expr → String
  | none => ""
  | some expr => " " ++ expr.print layout depth

def StmtKind.print (layout : Layout) (depth : Nat) : StmtKind → String
  | .expr expr => layout.line depth (expr.print layout depth)
  | .ret value => layout.line depth ("return" ++ printTail layout depth value)
  | .ifElse cond thenBranch elsifs elseBranch =>
    layout.line depth ("if " ++ cond.print layout depth) ++
      printStmts layout (depth + 1) thenBranch ++ printElsifs layout depth elsifs ++
      printElse layout depth elseBranch ++ layout.line depth "end"
  | .while cond body postTest =>
    if postTest then
      layout.line depth "begin" ++ printStmts layout (depth + 1) body ++
        layout.line depth ("end while " ++ cond.print layout depth)
    else
      layout.line depth ("while " ++ cond.print layout depth) ++
        printStmts layout (depth + 1) body ++ layout.line depth "end"
  | .jump kind value => layout.line depth (kind.keyword ++ printTail layout depth value)
  | .catchTag tag body =>
    layout.line depth ("catch(:" ++ tag ++ ") do") ++ printStmts layout (depth + 1) body ++
      layout.line depth "end"
  | .throwTag tag => layout.line depth ("throw :" ++ tag)
  | .raise className message =>
    layout.line depth ("raise" ++
      (match className with
        | some name => " " ++ name ++ (if message.isSome then "," else "")
        | none => "") ++
      printTail layout depth message)
  | .begin body rescue ensure =>
    layout.line depth "begin" ++ printStmts layout (depth + 1) body ++
      (match rescue with
        | some (var, body) =>
          layout.line depth ("rescue" ++ (var.map (" => " ++ ·)).getD "") ++
            printStmts layout (depth + 1) body
        | none => "") ++
      (match ensure with
        | some body => layout.line depth "ensure" ++ printStmts layout (depth + 1) body
        | none => "") ++
      layout.line depth "end"
  | .classDef cls => cls.print layout depth
  | .method method => method.print layout depth
  | .raw text => String.join ((Text.lines text).map (layout.line depth))

def printElsifs (layout : Layout) (depth : Nat) : List (Expr × List Stmt) → String
  | [] => ""
  | (cond, body) :: rest =>
    layout.line depth ("elsif " ++ cond.print layout depth) ++
      printStmts layout (depth + 1) body ++ printElsifs layout depth rest

/-- The last branch of an `if` statement. A branch that is only another `if` without comments
continues the chain. -/
def printElse (layout : Layout) (depth : Nat) : Option (List Stmt) → String
  | none => ""
  | some [⟨.ifElse cond thenBranch elsifs elseBranch, ⟨_, []⟩⟩] =>
    layout.line depth ("elsif " ++ cond.print layout depth) ++
      printStmts layout (depth + 1) thenBranch ++ printElsifs layout depth elsifs ++
      printElse layout depth elseBranch
  | some body => layout.line depth "else" ++ printStmts layout (depth + 1) body

def Method.print (layout : Layout) (depth : Nat) : Method → String
  | ⟨name, params, body, isStatic, returnType, endless, remarks⟩ =>
    let head := printHead layout depth
      ⟨name, params, body, isStatic, returnType, endless, remarks⟩ (printParams layout depth params)
    frameMethod layout depth head endless (printValue? layout depth body)
      (printStmts layout (depth + 1) body)

def printMethods (layout : Layout) (depth : Nat) : List Method → List (Option String)
  | [] => []
  | method :: rest => some (method.print layout depth) :: printMethods layout depth rest

def Class.print (layout : Layout) (depth : Nat) : Class → String
  | ⟨name, base, fields, methods, staticInit, remarks⟩ =>
    remarks.print layout depth ++
      layout.line depth ("class " ++ name ++ (base.map (" < " ++ ·)).getD "") ++
      joinSections layout
        (fieldSections layout (depth + 1) fields ++
        [if staticInit.isEmpty then none else some (printStmts layout (depth + 1) staticInit)] ++
        printMethods layout (depth + 1) methods) ++
      layout.line depth "end"

end

/-! ## Files -/

/-- Statements of a file, with blank lines around methods and classes. -/
def printTopLevel (layout : Layout) (depth : Nat) : List Stmt → String
  | [] => ""
  | stmt :: rest =>
    stmt.print layout depth ++
      (match rest with
        | [] => ""
        | next :: _ =>
          if stmt.isSpaced || next.isSpaced then layout.lineEnding else "") ++
      printTopLevel layout depth rest

def Require.print (layout : Layout) (require : Require) : String :=
  layout.line 0 ((if require.relative then "require_relative " else "require ") ++
    quoteString require.path)

/-- A file. The methods of a module can be called on the module itself. -/
def Module.print (layout : Layout) (module : Module) : String :=
  let header := joinSections layout
    [if module.magicComments.isEmpty then none
      else some (String.join (module.magicComments.map fun text => layout.line 0 ("# " ++ text))),
      if module.requires.isEmpty then none
      else some (String.join (module.requires.map (·.print layout)))]
  let hasHeader := !module.magicComments.isEmpty || !module.requires.isEmpty
  header ++
    (if hasHeader && (!module.body.isEmpty || module.name.isSome) then layout.lineEnding else "") ++
    module.remarks.print layout 0 ++
    (match module.name with
      | some name =>
        layout.line 0 ("module " ++ name) ++
          (if module.body.any Stmt.isMethod then
            layout.line 1 "module_function" ++ layout.lineEnding
          else "") ++
          printTopLevel layout 1 module.body ++ layout.line 0 "end"
      | none => printTopLevel layout 0 module.body)

end Scriptgen.Ruby
