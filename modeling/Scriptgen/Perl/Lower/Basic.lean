import Scriptgen.Imports
import Scriptgen.Perl.Build
import Scriptgen.Scopes
import Scriptgen.Source.Form
import Scriptgen.Text.Upper
import Scriptgen.Warnings
/-!
# Lowering to Perl: context and state

Lowering turns nodes of the program into Perl. What grows on the way, such as declared names, imports
and warnings, is in the `State`, and so is what surrounds the place that lowering is at, such as the
class or the function it is in (`Place`). What enters a place has to leave it again. The options, which
stay the same, are in the `Context`.

A node is lowered in terms of its children. `Below` holds what lowers nodes one level further
down, and everything in these modules is defined over it without recursion. The levels are put on
top of each other at the end, in `Scriptgen.Perl.Generate`.
-/

namespace Scriptgen.Perl

/-- What a method is called on. -/
inductive Invocant where
  | object
  | package
deriving DecidableEq, Repr

def Invocant.name : Invocant → String
  | .object => "self"
  | .package => "class"

/-- The class around a place. -/
structure ClassScope where
  name : String
  getters : List String
  setters : List String
deriving DecidableEq, Repr

/-- What stays the same everywhere in the program. -/
structure Context where
  options : Choices

def Context.top (options : Options) : Context := ⟨options.toChoices⟩

/-- What surrounds a place in the program. -/
structure Place where
  /-- What `this` stands for. -/
  invocant : Invocant
  enclosingClass : Option ClassScope
  /-- The names that each function around the place declares before its first statement, those of
  the innermost function first. -/
  hoisted : List (List String)
  /-- The variables of the errors that are being handled. -/
  catchVars : List String
  functionDepth : Nat
  inConstructor : Bool
  /-- Whether this is the body of a callback that has become a loop, which `return` continues. -/
  inLoopCallback : Bool

def Place.top : Place := ⟨.object, none, [], [], 0, false, false⟩

def Place.isHoisted (place : Place) (name : String) : Bool :=
  place.hoisted.head?.any (·.contains name)

/-- A construct that jumps can lead to. -/
inductive FrameKind where
  | loop
  /-- A chain of cases in a bare block. -/
  | switch
  /-- A loop that was a callback. -/
  | callback
deriving DecidableEq, Repr

/-- A construct around a place that jumps can lead to, with its label if it has one. -/
structure Frame where
  kind : FrameKind
  label : Option String
deriving DecidableEq, Repr

/-- What lowering has found and made so far. -/
structure State where
  scopes : Scopes
  /-- The functions that are called by name. -/
  functions : List String
  classes : List String
  imports : Imports
  names : NameSupply
  warnings : WarningLog
  /-- The constructs around the place within its function, the innermost first. -/
  frames : List Frame
  /-- The initializers of fields that wait for the object to exist. -/
  pendingFields : Option (List Stmt)
  /-- Whether a protected block in the newer form is used. -/
  nativeTry : Bool
  place : Place

/-- The state before a program with these functions and classes. -/
def State.start (options : Options) (functions classes : List String) : State where
  scopes := .empty
  functions := functions
  classes := classes
  imports := .empty
  names := .start
  warnings := .empty options.strictInput
  frames := []
  pendingFields := none
  nativeTry := false
  place := .top

/-- A step in a context that changes the state. -/
abbrev Step := ReaderT Context (StateM State)

/-- How nodes one level further down are lowered. -/
structure Below where
  /-- An expression, which is nothing if it is not supported. -/
  expr : Node → Step (Option Expr)
  /-- The elements of an array literal. -/
  items : Node → Step (List Expr)
  /-- A statement that may carry a label. -/
  stmt : Option String → Node → Step (List Stmt)
  /-- An expression whose value is not used. -/
  exprStmt : Node → Step (List Stmt)
  /-- A function without a name. -/
  function : Node → Step Sub

/-- Lowering of a node in terms of the level below. -/
abbrev Lower := ReaderT Below Step

/-- Lowering that may find that it does not apply. What it has done to the state stays. -/
abbrev Attempt := OptionT Lower

/-! ## State -/

/-- Goes on only if there is a value. -/
def need {α : Type} (value : Option α) : Attempt α := OptionT.mk (pure value)

/-- Runs an attempt, and something else if it does not apply. -/
def orUse {α : Type} (attempt : Attempt α) (otherwise : Lower α) : Lower α := do
  match ← attempt.run with
  | some a => return a
  | none => otherwise

def options : Lower Choices := return (← readThe Context).options

def warn (warning : Warning) : Lower Unit :=
  modify fun s => { s with warnings := s.warnings.note warning }

def warnLossy (note : String) : Lower Unit := warn (.lossy note)

def unsupported {α : Type} (node : Node) : Attempt α := do
  warn node.dropped
  failure

def requireModule (module : String) : Lower Unit :=
  modify fun s => { s with imports := s.imports.require module }

def useSymbol (module symbol : String) : Lower Unit :=
  modify fun s => { s with imports := s.imports.useSymbol module symbol }

def fresh (stem : String) : Lower String :=
  modifyGet fun s =>
    let (name, names) := s.names.fresh stem
    (name, { s with names := names })

def lookup? (name : String) : Lower (Option Shape) := return (← get).scopes.lookup? name

/-- Declares a variable in the innermost scope, and tells whether it is new there. -/
def declare (name : String) (shape : Shape) : Lower Bool :=
  modifyGet fun s =>
    (!s.scopes.declaredHere name, { s with scopes := s.scopes.declare name shape })

def declareScalar (name : String) : Lower Unit := do
  let _ ← declare name .scalar

def inScope {α : Type} (step : Lower α) : Lower α := do
  modify fun s => { s with scopes := s.scopes.push }
  let result ← step
  modify fun s => { s with scopes := s.scopes.pop }
  return result

/-- Runs a step inside a construct that jumps can lead to, and gives the label that it has in
the end. -/
def inFrame {α : Type} (kind : FrameKind) (label : Option String) (step : Lower α) :
    Lower (Option String × α) := do
  modify fun s => { s with frames := ⟨kind, label⟩ :: s.frames }
  let result ← step
  let label ← modifyGet fun s => (s.frames.head?.bind (·.label), { s with frames := s.frames.tail })
  return (label, result)

/-- Runs a step out of reach of the jumps and the waiting initializers around it. -/
def isolated {α : Type} (step : Lower α) : Lower α := do
  let before ← get
  set { before with frames := [], pendingFields := none }
  let result ← step
  modify fun s => { s with frames := before.frames, pendingFields := before.pendingFields }
  return result

/-- Runs a step at another place, and then goes back from where it has ended. -/
def atPlace {α : Type} (enter : Place → Place) (leave : Place → Place → Place) (step : Lower α) :
    Lower α := do
  let before ← get
  set { before with place := enter before.place }
  let result ← step
  modify fun s => { s with place := leave before.place s.place }
  return result

def takePendingFields : Lower (Option (List Stmt)) :=
  modifyGet fun s => (s.pendingFields, { s with pendingFields := none })

def addClass (name : String) : Lower Unit :=
  modify fun s => { s with classes := name :: s.classes }

def isClass (name : String) : Lower Bool := return (← get).classes.contains name

def isFunctionName (name : String) : Lower Bool := return (← get).functions.contains name

/-! ## Labels and names -/

def labelOf (name : String) : String := Text.upper (Text.dropLeading '_' name)

/-- The label of the frame after `skipped` inner ones. It gets one if it has none. -/
def frameLabel (skipped : Nat) : Lower (Option String) := do
  match (← get).frames[skipped]? with
  | none => return none
  | some frame =>
    match frame.label with
    | some label => return some label
    | none =>
      let label := labelOf (← fresh "loop")
      modify fun s => { s with
        frames := s.frames.modify skipped fun frame => { frame with label := some label } }
      return some label

/-- The built-in functions that would hide a function of the same name. -/
def builtinNames : List String :=
  ["abs", "chr", "defined", "delete", "die", "each", "eval", "exists", "exp", "hex", "index",
    "int", "join", "keys", "lc", "length", "log", "map", "oct", "ord", "pack", "pop", "print",
    "push", "rand", "ref", "reverse", "shift", "sin", "cos", "sort", "splice", "split",
    "sprintf", "sqrt", "substr", "uc", "unpack", "unshift", "values", "warn"]

/-- The name of a function of the program as it is seen from a place. -/
def Context.qualify (context : Context) (place : Place) (name : String) : String :=
  if place.enclosingClass.isSome || builtinNames.contains name then
    context.options.moduleName.getD "main" ++ "::" ++ name
  else name

/-! ## Children -/

def expr? (node : Node) : Lower (Option Expr) := fun below => below.expr node

def expr (node : Node) : Attempt Expr := OptionT.mk (expr? node)

/-- Lowers an expression whose value is needed. What is not supported becomes undefined. -/
def value (node : Node) : Lower Expr := return (← expr? node).getD .undefined

def valueOr (default : Expr) : Option Node → Lower Expr
  | some node => value node
  | none => return default

/-- Lowers an expression that may be missing and is then undefined. -/
def valueOf (node : Option Node) : Lower Expr := valueOr .undefined node

def items (node : Node) : Lower (List Expr) := fun below => below.items node

/-- Lowers a statement of the level below, with its remarks on the first statement that it
becomes. -/
def stmt (node : Node) : Lower (List Stmt) := fun below => do
  match ← below.stmt none node with
  | first :: rest =>
    return (if first.remarks = .none then { first with remarks := .ofNode node } else first) :: rest
  | [] => return []

def stmts (nodes : List Node) : Lower (List Stmt) := return (← nodes.mapM stmt).flatten

def scopedStmts (nodes : List Node) : Lower (List Stmt) := inScope (stmts nodes)

/-- Lowers an expression of the level below whose value is not used. -/
def exprStmt (node : Node) : Lower (List Stmt) := fun below => below.exprStmt node

def function (node : Node) : Lower Sub := fun below => below.function node

/-- Lowers the expressions of a sequence, those that are not supported left out. -/
def sequence (node : Node) : Lower (List Expr) := do
  let node := node.unwrapped
  if node.type == "SequenceExpression" then
    return (← (node.children "expressions").mapM expr?).filterMap id
  else return (← expr? node).toList

/-- Gives a value a name if it cannot be written twice. The first part declares it. -/
def shared (expr : Expr) (stem : String) : Lower (List Stmt × Expr) := do
  if expr.isSimple then return ([], expr)
  let name ← fresh stem
  return ([.my name .scalar (some expr)], .scalar name)

end Scriptgen.Perl
