import Scriptgen.Perl.Lower.Stmt
import Scriptgen.Source.Program
import Scriptgen.Source.Wrapper
/-!
# Generating Perl

`level` puts the levels of lowering on top of each other, as many as a tree has. `generate` is the
Perl program of a source program, with the state that lowering ends in.
-/

namespace Scriptgen.Perl

/-- Lowering of nodes below a given height. There is nothing at height zero. -/
def level : Nat → Below
  | 0 =>
    { expr := fun _ => return none
      items := fun _ => return []
      stmt := fun _ _ => return []
      exprStmt := fun _ => return []
      function := fun _ => return .function "" [] [] }
  | height + 1 =>
    let below := level height
    { expr := fun node => (lowerExpr node).run below
      items := fun node => lowerItems node below
      stmt := fun label node => lowerStmt label node below
      exprStmt := fun node => lowerExprStmt node below
      function := fun node => lowerFunction "" node .plain below }

def pragmas (options : Options) (nativeTry : Bool) : List Use :=
  (if options.modernSyntax then [.plain "v5.36"]
    else if options.strictPragmas then [.plain "strict", .plain "warnings"]
    else []) ++
  (if nativeTry then
      [.withImports "feature" ["try"], .switchOff "warnings" ["experimental::try"]]
    else [])

def useOf (module : String) (symbols : List String) : Use :=
  if symbols.isEmpty then .withoutImports module else .withImports module symbols

/-- The statements of a program, and the state that lowering them ends in. -/
def lowerProgram (options : Options) (program : Node) : List Stmt × State :=
  let nodes := topLevelStatements program
  let start := State.start options (declaredFunctions nodes) (declaredClasses nodes)
  (stmts nodes (level program.height)).run (Context.top options) |>.run start

/-- The Perl program of a source program, and the state that lowering it ends in. -/
def generate (options : Options) (program : Node) : Module × State :=
  let (body, final) := lowerProgram options program
  ({ name := options.moduleName
     pragmas := pragmas options final.nativeTry
     uses := final.imports.entries.map fun (module, symbols) => useOf module symbols
     body := body
     remarks := .none }, final)

end Scriptgen.Perl
