import Scriptgen.Source.Textual
/-!
# What is known of variables

Which variables and attributes hold numbers, text or collections, as far as their last assigned
values tell. A variable goes by its name, and an attribute of `this` by its name after an `@`.
-/

namespace Scriptgen

/-- A keyed collection. -/
inductive Collection where
  | map
  | set
deriving DecidableEq, Repr

def Collection.ofClass? : String → Option Collection
  | "Map" | "WeakMap" => some .map
  | "Set" | "WeakSet" => some .set
  | _ => none

/-- What is known of variables and attributes. -/
structure Known where
  numbers : List String
  texts : List String
  collections : List (String × Collection)
deriving DecidableEq, Repr

def numericTypes : List String :=
  ["int", "int8", "int16", "int32", "uint8", "uint16", "uint32", "byte", "float", "double",
    "float32", "float64", "number"]

/-- Whether a function or method gives a number for any argument. -/
def Node.returnsNumber (callee : Node) : Bool :=
  match callee.name? with
  | some name => ["parseInt", "parseFloat", "Number"].contains name
  | none =>
    (callee.child? "object").any (·.isIdentifier "Math") ||
      callee.staticMember?.any
        ["indexOf", "lastIndexOf", "charCodeAt", "codePointAt", "findIndex"].contains

/-- What facts about a variable or an attribute of `this` are kept under. -/
def Node.valueKey? (expr : Node) : Option String :=
  let node := expr.unwrapped
  if node.type == "Identifier" then node.name?
  else if node.kind == "ThisPropertyAccess" then (node.text? "property").map ("@" ++ ·)
  else do
    let object := (← node.child? "object").unwrapped
    if object.type == "ThisExpression" then node.staticMember?.map ("@" ++ ·) else none

namespace Known

def nothing : Known := ⟨[], [], []⟩

/-- Whether an expression is text, by its form or by what its variables hold. -/
def isText (known : Known) (expr : Node) : Bool :=
  let node := expr.unwrapped
  if node.isTextual then true
  else
    match node.valueKey? with
    | some key => known.texts.contains key
    | none =>
      match node.type with
      | "BinaryExpression" =>
        if node.text? "operator" == some "+" then
          let left :=
            match _h : node.child? "left" with
            | some left => known.isText left
            | none => false
          let right :=
            match _h : node.child? "right" with
            | some right => known.isText right
            | none => false
          left || right
        else false
      | "ConditionalExpression" =>
        let consequent :=
          match _h : node.child? "consequent" with
          | some consequent => known.isText consequent
          | none => false
        let alternate :=
          match _h : node.child? "alternate" with
          | some alternate => known.isText alternate
          | none => false
        consequent && alternate
      | "CallExpression" =>
        match _hc : node.child? "callee" with
        | some callee =>
          if callee.unwrapped.staticMember?.any ["slice", "concat"].contains then
            match _h : callee.unwrapped.child? "object" with
            | some object => known.isText object
            | none => false
          else false
        | none => false
      | _ => false
termination_by expr.height
decreasing_by
  all_goals have hu := expr.height_unwrapped_le
  iterate 4 exact Nat.lt_of_lt_of_le (Node.height_of_child? _h) hu
  · have := Node.height_of_child? _h
    have : callee.height < expr.unwrapped.height := Node.height_of_child? _hc
    have := callee.height_unwrapped_le
    omega

/-- Whether an expression is a number, by its form or by what its variables hold. -/
def isNumber (known : Known) (expr : Node) : Bool :=
  let node := expr.unwrapped
  match node.resultType? with
  | some type => numericTypes.contains type
  | none =>
    match node.valueKey? with
    | some key => known.numbers.contains key
    | none =>
      match node.type with
      | "Literal" => (node.number? "value").isSome || node.has "bigint"
      | "UpdateExpression" => true
      | "UnaryExpression" => (node.text? "operator").any ["-", "+", "~"].contains
      | "BinaryExpression" =>
        if node.text? "operator" == some "+" then
          let left :=
            match _h : node.child? "left" with
            | some left => known.isNumber left
            | none => false
          let right :=
            match _h : node.child? "right" with
            | some right => known.isNumber right
            | none => false
          left && right
        else
          (node.text? "operator").any
            ["-", "*", "/", "%", "**", "&", "|", "^", "<<", ">>", ">>>"].contains
      | "MemberExpression" => node.staticMember? == some "length"
      | "CallExpression" => (node.child? "callee").any (·.unwrapped.returnsNumber)
      | _ => false
termination_by expr.height
decreasing_by
  all_goals exact Nat.lt_of_lt_of_le (Node.height_of_child? _h) expr.height_unwrapped_le

/-- What is left when the value of a variable is not known any more. -/
def forget (known : Known) (key : String) : Known where
  numbers := known.numbers.filter (· != key)
  texts := known.texts.filter (· != key)
  collections := known.collections.filter (·.1 != key)

def addNumber (known : Known) (key : String) : Known :=
  { known with numbers := key :: known.numbers }

def addCollection (known : Known) (key : String) (collection : Option Collection) : Known :=
  match collection with
  | some collection => { known with collections := (key, collection) :: known.collections }
  | none => known

/-- The class that a `new` expression makes an object of. -/
def madeClass? (node : Node) : Option String :=
  if node.type == "NewExpression" then node.child? "callee" >>= Node.name? else none

def collectionOf? (known : Known) (expr : Node) : Option Collection :=
  let node := expr.unwrapped
  if node.type == "NewExpression" then madeClass? node >>= Collection.ofClass?
  else node.valueKey? >>= fun key => known.collections.lookup key

/-- What is known after a value has been assigned to a variable, besides what was known. -/
def learn (known : Known) (key : String) (value : Node) : Known :=
  let node := value.unwrapped
  let known := known.addCollection key (madeClass? node >>= Collection.ofClass?)
  if known.isText node then { known with texts := key :: known.texts }
  else if known.isNumber node then known.addNumber key
  else known

end Known

end Scriptgen
