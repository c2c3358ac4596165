import Scriptgen.Ruby.Build
import Scriptgen.Proofs.Iterations.Source
/-!
# The values of generated Ruby

`Expr.eval` evaluates the Ruby that goes over arrays: methods that call a block for each element,
and what is assigned before and within such blocks. Every other expression is left to a function
that is given (`Meaning`). Evaluation gives nothing where Ruby would fail, and for what no iteration
becomes.

A block sees the variables around it and can change them. Its parameters, and what is first assigned
in it, are its own.
-/

namespace Scriptgen.Ruby

/-! ## Values and variables -/

/-- Whether a value counts as true in Ruby. Zero and empty texts do. -/
def isTrue : Value → Bool
  | .undefined => false
  | .bool b => b
  | .int _ | .nan | .text _ | .array _ | .other _ => true

/-- What an expression gives. -/
inductive Result where
  | one (value : Value)
  /-- What gives elements one after the other. -/
  | each (elements : List Value)
  /-- A method of an array that waits for its block. -/
  | pending (method : String) (items : List Value)

namespace Result

def one? : Result → Option Value
  | .one value => some value
  | _ => none

def elements? : Result → Option (List Value)
  | .one (.array items) => some items
  | .each elements => some elements
  | _ => none

end Result

/-- The local variables with their values. The first one of a name is seen. -/
abbrev Env := Variables String

namespace Env

/-- Assigns to the variable of a name that is seen, or to a new one. -/
def assign (name : String) (value : Value) : Env → Env
  | [] => [(name, value)]
  | (x, old) :: rest =>
    if x = name then (x, value) :: rest else (x, old) :: assign name value rest

/-- What is left at the end of a block: the variables around it, with the values that they have now
unless the block had a variable of that name itself. -/
def leaving (around : Env) (own : List String) (after : Env) : Env :=
  around.map fun (x, old) => (x, if x ∈ own then old else (after.lookup x).getD old)

end Env

/-! ## Parameters -/

def patternNames (text : List Char) : List String :=
  (text.splitOn ',').map fun part => String.ofList (part.dropWhile (· == ' '))

def bindParam (param : Param) (value : Value) : Env :=
  match param.name.toList, value with
  | '(' :: rest, .array items =>
    (patternNames rest.dropLast).zipIdx.map fun (name, i) => (name, items.getD i .undefined)
  | _, value => [(param.name, value)]

def spreadArgs (count : Nat) : List Value → List Value
  | [.array items] => if 1 < count then items else [.array items]
  | args => args

/-- The variables of a block that is called. No two parameters have the same name. -/
def bindParams? (params : List Param) (args : List Value) : Option Env :=
  let args := spreadArgs params.length args
  let bound : Env := params.zipIdx.flatMap fun (param, i) => bindParam param (args.getD i .undefined)
  if (bound.map Prod.fst).Nodup then some bound else none

/-! ## Methods with a block -/

abbrev Calling := Env → List Value → Option (Value × Env)

/-- Calls a block for entries with the arguments to pass, until a value ends it. Gives the entries
that it came to with the values of the block. -/
def visit (call : Calling) (stop : Value → Bool) :
    List (Value × List Value) → Env → Option (List (Value × Value) × Env)
  | [], env => some ([], env)
  | (element, args) :: rest, env => do
    let (value, env) ← call env args
    if stop value then some ([(element, value)], env)
    else
      let (visited, env) ← visit call stop rest env
      some ((element, value) :: visited, env)

/-- The values of a block that end a method. -/
def stopsAt (method : String) (value : Value) : Bool :=
  match method with
  | "any?" | "find" | "find_index" => isTrue value
  | "all?" => !isTrue value
  | _ => false

/-- What a method gives for the elements that it came to with the values of the block. -/
def methodValue (visited : List (Value × Value)) : String → Option Value
  | "map" => some (.array (visited.map (·.2)))
  | "select" => some (.array ((visited.filter (isTrue ·.2)).map (·.1)))
  | "any?" => some (.bool (visited.any (isTrue ·.2)))
  | "all?" => some (.bool (visited.all (isTrue ·.2)))
  | "find" => some (((visited.find? (isTrue ·.2)).map (·.1)).getD .undefined)
  | "find_index" =>
    some (((visited.findIdx? (isTrue ·.2)).map fun (i : Nat) => .int i).getD .undefined)
  | _ => none

def runMethod (call : Calling) (method : String) (entries : List (Value × List Value)) (env : Env) :
    Option (Result × Env) := do
  let (visited, env) ← visit call (stopsAt method) entries env
  some (.one (← methodValue visited method), env)

/-- Calls a block with an accumulator and each element. -/
def reduceFrom (call : Calling) : Value → List Value → Env → Option (Value × Env)
  | acc, [], env => some (acc, env)
  | acc, element :: rest, env => do
    let (acc, env) ← call env [acc, element]
    reduceFrom call acc rest env

/-- Reduces elements, from the first of them if no other value is given. -/
def reduce (call : Calling) (args elements : List Value) (env : Env) : Option (Value × Env) :=
  match args, elements with
  | [start], elements => reduceFrom call start elements env
  | [], first :: rest => reduceFrom call first rest env
  | [], [] => some (.undefined, env)
  | _, _ => none

def callMethod (call : Calling) (receiver : Result) (method : String) (args : List Value)
    (env : Env) : Option (Result × Env) :=
  match receiver, method with
  | .pending method items, "with_index" =>
    runMethod call method (items.zipIdx.map fun (x, i) => (x, [x, .int i])) env
  | receiver, "reduce" => do
    let (value, env) ← reduce call args (← receiver.elements?) env
    some (.one value, env)
  | receiver, method => do
    runMethod call method ((← receiver.elements?).map fun x => (x, [x])) env

def pairs (items : List Value) : List Value :=
  items.zipIdx.map fun (x, i) => .array [x, .int i]

/-! ## Evaluation -/

abbrev Meaning := Env → Expr → Option Value

mutual

/-- What an expression gives, and the variables after it. -/
def Expr.eval (other : Meaning) (env : Env) : Expr → Option (Result × Env)
  | .number text => (integerOf? text).map fun n => (.one (.int n), env)
  | .string text => some (.one (.text text), env)
  | .bool b => some (.one (.bool b), env)
  | .nil => some (.one .undefined, env)
  | .var name .plain =>
    match env.lookup name with
    | some value => some (.one value, env)
    | none => (other env (.var name .plain)).map (.one ·, env)
  | .assign (.var name .plain) none value => do
    let (result, env) ← value.eval other env
    let value ← result.one?
    some (.one value, env.assign name value)
  | .binary .or left right _ _ => do
    let (result, env) ← left.eval other env
    if isTrue (← result.one?) then some (result, env) else right.eval other env
  | .begin body => bodyEval other env body
  | .call (some receiver) "each_with_index" [] none => do
    match ← receiver.eval other env with
    | (.one (.array items), env) => some (.each (pairs items), env)
    | _ => none
  | .call (some receiver) method args (some ⟨params, locals, body⟩) => do
    let (receiver, env) ← receiver.eval other env
    let (args, env) ← argsEval other env args
    let call (env : Env) (args : List Value) : Option (Value × Env) := do
      let bound := (← bindParams? params args) ++ locals.map (·, .undefined)
      let (result, after) ← bodyEval other (bound ++ env) body
      some (← result.one?, env.leaving (bound.map (·.1)) after)
    callMethod call receiver method args env
  | .call (some receiver) method [] none => do
    if method == "map" || method == "select" || method == "find" then
      match ← receiver.eval other env with
      | (.one (.array items), env) => some (.pending method items, env)
      | _ => none
    else (other env (.call (some receiver) method [] none)).map (.one ·, env)
  | expr => (other env expr).map (.one ·, env)

def argsEval (other : Meaning) (env : Env) : List Expr → Option (List Value × Env)
  | [] => some ([], env)
  | arg :: rest => do
    let (result, env) ← arg.eval other env
    let (values, env) ← argsEval other env rest
    some ((← result.one?) :: values, env)

def bodyEval (other : Meaning) (env : Env) : List Stmt → Option (Result × Env)
  | [] => none
  | [⟨.expr last, _⟩] => last.eval other env
  | ⟨.expr first, _⟩ :: rest => do
    let (_, env) ← first.eval other env
    bodyEval other env rest
  | _ => none

end

end Scriptgen.Ruby
