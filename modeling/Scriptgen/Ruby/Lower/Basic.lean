import Scriptgen.Imports
import Scriptgen.Ruby.Build
import Scriptgen.Ruby.Names
import Scriptgen.Scopes
import Scriptgen.Source.Form
import Scriptgen.Source.Known
import Scriptgen.Warnings
/-!
# Lowering to Ruby: context and state

Lowering turns nodes of the program into Ruby. What surrounds a place, such as the class or the
function it is in, is its `Context`, which is handed down and never has to be restored. What grows
on the way, such as declared names, imports and warnings, is the `State`.

A node is lowered in terms of its children. `Below` holds what lowers nodes one level further
down, and everything in these modules is defined over it without recursion. The levels are put on
top of each other at the end, in `Scriptgen.Ruby.Generate`.
-/

namespace Scriptgen.Ruby

structure ClassScope where
  getters : List String
  setters : List String
  methods : List String
  fields : List String
deriving DecidableEq, Repr

/-- What the top level of a program declares. -/
structure Outline where
  /-- The attributes of all classes. -/
  members : List String
  /-- The methods of the classes at the top level. -/
  classMethods : List String
  /-- Where the variables of the top level live. -/
  varKinds : List (String × VarKind)
deriving DecidableEq, Repr

structure Context where
  options : Choices
  outline : Outline
  enclosingClass : Option ClassScope
  hoisted : List String
  catchVars : List String
  inFunction : Bool
  inConstructor : Bool
  /-- Whether this is the body of a callback that has become a block, which `return` ends. -/
  inLoopCallback : Bool
  /-- The method around a place. -/
  currentMethod : Option String

def Context.top (options : Options) (outline : Outline) (hoisted : List String) : Context where
  options := options.toChoices
  outline := outline
  enclosingClass := none
  hoisted := hoisted
  catchVars := []
  inFunction := false
  inConstructor := false
  inLoopCallback := false
  currentMethod := none

inductive FrameKind where
  | loop
  /-- A chain of cases, which may be in a loop of its own for its breaks. -/
  | switch (wrapped : Bool)
  /-- A statement with a label that is no loop. -/
  | labeled
deriving DecidableEq, Repr

/-- A construct around a place that jumps can lead to. -/
structure Frame where
  kind : FrameKind
  label : Option String
  /-- The tag of the jumps that leave it, once there is one. -/
  breakTag : Option String := none
  /-- The tag of the jumps that continue it, once there is one. -/
  nextTag : Option String := none
  /-- Whether each round ends with work that a plain jump would skip. -/
  stepLoop : Bool := false
  /-- Whether it was a callback. -/
  callback : Bool := false
deriving DecidableEq, Repr

def Frame.ofCallback : Frame := { kind := .loop, label := none, callback := true }

structure State where
  scopes : Scopes
  functions : List String
  classes : List String
  imports : Imports
  names : NameSupply
  warnings : WarningLog
  frames : List Frame
  pendingFields : Option (List Stmt)
  /-- The classes that move to the top level. -/
  pendingClasses : List Stmt
  known : Known

def State.start (options : Options) (functions classes : List String) : State where
  scopes := .empty
  functions := functions
  classes := classes
  imports := .empty
  names := .start
  warnings := .empty options.strictInput
  frames := []
  pendingFields := none
  pendingClasses := []
  known := .nothing

abbrev Step := ReaderT Context (StateM State)

structure Below where
  expr : Node → Step (Option Expr)
  /-- An expression as a condition. -/
  test : Node → Step Expr
  stmt : Option String → Node → Step (List Stmt)
  exprStmt : Node → Step (List Stmt)
  /-- A function as a value. -/
  lambda : Node → Step Expr

abbrev Lower := ReaderT Below Step

abbrev Attempt := OptionT Lower

/-! ## State -/

def need {α : Type} (value : Option α) : Attempt α := OptionT.mk (pure value)

def orUse {α : Type} (attempt : Attempt α) (otherwise : Lower α) : Lower α := do
  match ← attempt.run with
  | some a => return a
  | none => otherwise

def options : Lower Choices := return (← readThe Context).options

def within {α : Type} (change : Context → Context) (step : Lower α) : Lower α :=
  withTheReader Context change step

def warn (warning : Warning) : Lower Unit :=
  modify fun s => { s with warnings := s.warnings.note warning }

def warnLossy (note : String) : Lower Unit := warn (.lossy note)

def unsupported {α : Type} (node : Node) : Attempt α := do
  warn node.dropped
  failure

def requireLibrary (library : String) : Lower Unit :=
  modify fun s => { s with imports := s.imports.require library }

def fresh (stem : String) : Lower String :=
  modifyGet fun s =>
    let (name, names) := s.names.fresh stem
    (name, { s with names := names })

def inScope {α : Type} (step : Lower α) : Lower α := do
  modify fun s => { s with scopes := s.scopes.push }
  let result ← step
  modify fun s => { s with scopes := s.scopes.pop }
  return result

/-- Runs a step inside a construct that jumps can lead to, and gives what has become of it in the
end. -/
def inFrame {α : Type} (frame : Frame) (step : Lower α) : Lower (Frame × α) := do
  modify fun s => { s with frames := frame :: s.frames }
  let result ← step
  let frame ← modifyGet fun s => (s.frames.headD frame, { s with frames := s.frames.tail })
  return (frame, result)

/-- Runs a step out of reach of the jumps and the waiting initializers around it. What it learns of
numbers and texts is forgotten afterwards. -/
def isolated {α : Type} (step : Lower α) : Lower α := do
  let before ← get
  set { before with frames := [], pendingFields := none }
  let result ← step
  modify fun s => { s with
    frames := before.frames
    pendingFields := before.pendingFields
    known := { s.known with numbers := before.known.numbers, texts := before.known.texts } }
  return result

def takePendingFields : Lower (Option (List Stmt)) :=
  modifyGet fun s => (s.pendingFields, { s with pendingFields := none })

def addClass (name : String) : Lower Unit :=
  modify fun s => { s with classes := name :: s.classes }

def isClass (name : String) : Lower Bool := return (← get).classes.contains name

def isFunctionName (name : String) : Lower Bool := return (← get).functions.contains name

def moveClassToTop (cls : Stmt) : Lower Unit :=
  modify fun s => { s with pendingClasses := s.pendingClasses ++ [cls] }

/-! ## Variables -/

def declare (name : String) (shape : Shape) : Lower Bool :=
  modifyGet fun s =>
    (!s.scopes.declaredHere name, { s with scopes := s.scopes.declare name shape })

/-- Learns what a variable or attribute holds from a value assigned to it. -/
def learn (key : String) (value : Option Node) : Lower Unit :=
  match value with
  | some value => modify fun s => { s with known := s.known.learn key value }
  | none => return

/-- Forgets what was known of a variable and learns from its new value. -/
def relearn (key : String) (value : Option Node) : Lower Unit := do
  modify fun s => { s with known := s.known.forget key }
  learn key value

/-- Declares a variable of which nothing is known but its first value. -/
def declareWith (name : String) (shape : Shape) (value : Option Node) : Lower Unit := do
  let _ ← declare name shape
  relearn name value

def declareScalar (name : String) : Lower Unit := declareWith name .scalar none

def isText (node : Node) : Lower Bool := return (← get).known.isText node

def isNumber (node : Node) : Lower Bool := return (← get).known.isNumber node

def collectionOf? (node : Node) : Lower (Option Collection) :=
  return (← get).known.collectionOf? node

def hasShape (node : Node) (shape : Shape) : Lower Bool := do
  let scopes := (← get).scopes
  return node.unwrapped.name?.any fun name => scopes.lookup? name == some shape

def isVariable (name : String) : Lower Bool := do
  let kinds := (← readThe Context).outline.varKinds
  return ((← get).scopes.lookup? name).isSome || (kinds.lookup name).isSome

/-- A variable as it is seen from a place. -/
def variableIn (scopes : Scopes) (outline : Outline) (name : String) : Expr :=
  if (scopes.lookup? name).isSome && !scopes.resolvesOutermost name then .localVar (localName name)
  else
    match outline.varKinds.lookup name with
    | some .global => .var (plainName name) .global
    | some .constant => .constant (constantName name)
    | _ => .localVar (localName name)

def variableHere (name : String) : Lower Expr :=
  return variableIn (← get).scopes (← readThe Context).outline name

/-- The name of a method where it is called. It is that of its definition if a class of the program
defines it. -/
def calledName (method : String) : Lower String := do
  let defined := (← readThe Context).outline.classMethods.contains method
  return if defined then methodName method else plainName method

/-! ## Children -/

def expr? (node : Node) : Lower (Option Expr) := fun below => below.expr node

def expr (node : Node) : Attempt Expr := OptionT.mk (expr? node)

/-- Lowers an expression whose value is needed. What is not supported becomes `nil`. -/
def value (node : Node) : Lower Expr := return (← expr? node).getD .nil

def valueOr (default : Expr) : Option Node → Lower Expr
  | some node => value node
  | none => return default

def valueOf (node : Option Node) : Lower Expr := valueOr .nil node

def values (nodes : List Node) : Lower (List Expr) := nodes.mapM value

def test (node : Node) : Lower Expr := fun below => below.test node

def stmt (node : Node) : Lower (List Stmt) := fun below => do
  match ← below.stmt none node with
  | first :: rest =>
    return (if first.remarks = .none then { first with remarks := .ofNode node } else first) :: rest
  | [] => return []

def stmts (nodes : List Node) : Lower (List Stmt) := return (← nodes.mapM stmt).flatten

def scopedStmts (nodes : List Node) : Lower (List Stmt) := inScope (stmts nodes)

def exprStmt (node : Node) : Lower (List Stmt) := fun below => below.exprStmt node

def lambda (node : Node) : Lower Expr := fun below => below.lambda node

/-- Lowers what is spread into a list. Text is spread into its characters. -/
def splat (node : Node) : Lower Expr := do
  let text ← isText node
  let value ← value node
  return .splat (if text then value.read "chars" else value)

def item (node : Node) : Lower Expr := do
  if node.type == "SpreadElement" then
    match node.child? "argument" with
    | some inner => splat inner
    | none => return .nil
  else value node

def arguments (nodes : List Node) : Lower (List Expr) := nodes.mapM item

/-- Gives a value a name if it cannot be written twice. The first part assigns it. -/
def shared (expr : Expr) (stem : String) : Lower (List Stmt × Expr) := do
  if expr.isSimple then return ([], expr)
  let name ← fresh stem
  return ([.set (.localVar name) expr], .localVar name)

end Scriptgen.Ruby
