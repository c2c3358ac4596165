import Scriptgen.Ruby.Lower.Stmt
import Scriptgen.Source.Program
import Scriptgen.Source.Wrapper
/-!
# Generating Ruby

`level` puts the levels of lowering on top of each other, as many as a tree has. `generate` is the
Ruby program of a source program, with the state that lowering ends in.
-/

namespace Scriptgen.Ruby

def level : Nat → Below
  | 0 =>
    { expr := fun _ => return none
      test := fun _ => return .nil
      stmt := fun _ _ => return []
      exprStmt := fun _ => return []
      lambda := fun _ => return .nil }
  | height + 1 =>
    let below := level height
    { expr := fun node => (lowerExpr node).run below
      test := fun node => lowerTest node below
      stmt := fun label node => lowerStmt label node below
      exprStmt := fun node => lowerExprStmt node below
      lambda := fun node => lowerLambda node below }

/-! ## The top level -/

/-- Whether a declarator defines a function or a class rather than a variable. -/
def definesName (declaration : Node) (isConst : Bool) : Bool :=
  (declaration.child? "init").any fun init =>
    init.unwrapped.type == "ClassExpression" || (isConst && init.isFunctionLiteral)

/-- The variables that a declarator of the top level declares, and whether they are constant. -/
def declaratorVariables (declaration : Node) (isConst : Bool) : List (String × Bool) :=
  match declaration.child? "id" with
  | none => []
  | some id =>
    match id.name? with
    | some name => if definesName declaration isConst then [] else [(name, isConst)]
    | none => id.patternNames.map (·, false)

/-- The variables of the top level, and whether they are constant. -/
def topLevelVariables (stmts : List Node) : List (String × Bool) :=
  (stmts.filter (·.type == "VariableDeclaration")).flatMap (fun stmt =>
    (stmt.children "declarations").flatMap
      (declaratorVariables · (stmt.text? "kind" == some "const"))) ++
  (nestedVars stmts).map fun var => (var.1, false)

/-- Where a variable of the top level lives. Methods do not see local variables, so what functions
and classes use is global or a constant. -/
def variableKind (shared : List String) (name : String) (isConst : Bool) : VarKind :=
  if isConst && startsUpper name then .constant
  else if shared.contains name then .global
  else .plain

/-- What the top level of a program declares. The first declaration of a variable counts. -/
def outlineOf (stmts : List Node) : Outline :=
  let shared := namesInDefinitions stmts
  { members := classMemberNames stmts
    classMethods := classMethodNames stmts
    varKinds := (topLevelVariables stmts).map fun (name, isConst) =>
      (name, variableKind shared name isConst) }

/-! ## Programs -/

/-- Lowers the statements of a program. The variables of inner blocks are assigned first. -/
def programStmts (nodes : List Node) : Lower (List Stmt) := do
  let vars ← (nestedVars nodes).mapM fun (name, shape) => startAsNil name shape
  return vars.flatten ++ (← stmts nodes)

def lowerProgram (options : Options) (program : Node) : List Stmt × State :=
  let nodes := topLevelStatements program
  let context := Context.top options (outlineOf nodes) ((nestedVars nodes).map (·.1))
  let start := State.start options (declaredFunctions nodes ++ constFunctions nodes)
    (declaredClasses nodes)
  (programStmts nodes (level program.height)).run context |>.run start

/-- How a library is loaded. The module of helpers stands beside the program. -/
def requireOf (library : String) : Require :=
  if library == "OpCodes" then ⟨"op_codes", true⟩ else ⟨library, false⟩

/-- The body of a program. Methods come first, so that statements can call those below them, and
then the classes that have moved to the top level. -/
def programBody (body pendingClasses : List Stmt) : List Stmt :=
  body.filter Stmt.isMethod ++ pendingClasses ++ body.filter fun stmt => !stmt.isMethod

/-- The Ruby program of a source program, and the state that lowering it ends in. -/
def generate (options : Options) (program : Node) : Module × State :=
  let (body, final) := lowerProgram options program
  ({ name := options.moduleName.map constantName
     magicComments := if options.strictPragmas then ["frozen_string_literal: true"] else []
     requires := final.imports.modules.map requireOf
     body := programBody body final.pendingClasses
     remarks := .none }, final)

end Scriptgen.Ruby
