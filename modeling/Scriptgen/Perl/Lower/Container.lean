import Scriptgen.NumberText
import Scriptgen.Perl.Lower.Basic
import Scriptgen.Source.Textual
/-!
# Lowering to Perl: arrays and objects

Arrays and objects are references, unless a variable was declared with a literal: it then is a
list or a map itself. These are the ways to look at either as something to index, as a list of
elements or as pairs.
-/

namespace Scriptgen.Perl

def hasShape (node : Node) (shape : Shape) : Lower Bool := do
  match node.unwrapped.name? with
  | some name => return (← lookup? name) == some shape
  | none => return false

/-- What to index: a list variable itself, or else a reference to an array. -/
def arrayBase (node : Node) : Lower Expr := do
  let node := node.unwrapped
  match node.name? with
  | some name =>
    match ← lookup? name with
    | some .list => return .var name .list
    | some _ => value node
    | none => if name == "arguments" then return .var "_" .list else value node
  | none => value node

/-- What to take keys from: a map variable itself, or else a reference to a hash. -/
def hashBase (node : Node) : Lower Expr := do
  let node := node.unwrapped
  match node.name? with
  | some name => if (← lookup? name) == some .map then return .var name .map else value node
  | none => value node

def arrayTarget (node : Node) : Lower Expr := return elementsOf (← arrayBase node)

def hashOf (node : Node) : Lower Expr := return pairsOf (← hashBase node)

def charactersOf (text : Expr) : Expr := .call "split" [pattern "", text]

/-- The elements of an array or the characters of a text, as a list. -/
def listOf (node : Node) : Lower Expr := do
  let node := node.unwrapped
  if node.type == "ArrayExpression" then return .list (← items node)
  if node.isTextual then return charactersOf (← value node)
  arrayTarget node

def lengthOf (node : Node) : Lower Expr := do
  let node := node.unwrapped
  if node.isTextual then return .call "length" [← value node]
  if ← hasShape node .map then return countOf (.call "keys" [← hashOf node])
  return countOf (← arrayTarget node)

/-- Lowers an element or argument. A spread one gives several. -/
def element (node : Node) : Lower Expr := do
  if node.type == "SpreadElement" then
    match node.child? "argument" with
    | some argument => listOf argument
    | none => return .undefined
  else value node

def arguments (nodes : List Node) : Lower (List Expr) := nodes.mapM element

/-- Lowers the elements of an array literal. Holes are undefined. -/
def lowerItems (node : Node) : Lower (List Expr) :=
  (node.childrenWithHoles "elements").mapM fun
    | some item => element item
    | none => return .undefined

def propertyKey (property key : Node) : Lower Expr := do
  if property.flag "computed" then value key
  else
    match key.name? with
    | some name => return .string name
    | none =>
      match key.field? "value" with
      | some (.string text) => return .string text
      | some (.number n) => return .string (numberText n.toBinary64 (key.text? "raw"))
      | _ => value key

def objectPairs (node : Node) : Lower (List (Expr × Expr)) := do
  let pairs ← (node.children "properties").mapM fun property => do
    if property.type == "SpreadElement" then
      warnLossy "object spread in a literal is not supported"
      return none
    match property.child? "key" with
    | none => return none
    | some key =>
      let key ← propertyKey property key
      return some (key, ← valueOf (property.child? "value"))
  return pairs.filterMap id

/-- Lowers the value that a variable of a shape is set to. -/
def shapedValue (shape : Shape) (init : Node) : Lower Expr := do
  let init := init.unwrapped
  match shape with
  | .scalar => value init
  | .list =>
    if init.type == "ArrayExpression" then return .list (← items init)
    else return .deref (← value init) .list
  | .map =>
    if init.type == "ObjectExpression" then
      return .list ((← objectPairs init).flatMap fun (key, value) => [key, value])
    else return .deref (← value init) .map

/-- What to index in an array that is used more than once, after the statements that give it a
name. -/
def stableArray (array : Node) : Lower (List Stmt × Expr) := do shared (← arrayBase array) "list"

end Scriptgen.Perl
