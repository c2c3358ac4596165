import Scriptgen.Ruby.Lower.Class
import Scriptgen.Ruby.Lower.Global
/-!
# Lowering to Ruby: operators

Operators and assignments. In Ruby only `nil` and `false` are false, `/` on integers drops the
remainder, and comparisons with `undefined` and types are method calls.
-/

namespace Scriptgen.Ruby

/-! ## Types of values -/

def isA (value : Expr) (className : String) : Expr := .method value "is_a?" [.constant className]

def isMissing (value : Expr) : Expr := value.read "nil?"

def isCallable (value : Expr) : Expr := .method value "respond_to?" [.symbol "call"]

def isBoolean (value : Expr) : Expr := .method (.array [.bool true, .bool false]) "include?" [value]

/-- Whether a value is an object: neither missing nor a number, a text, a truth value or a
function. -/
def isObject (value : Expr) : Expr :=
  binary .and (not (isMissing value))
    (not (chain .or (.bool false)
      [isA value "Numeric", isA value "String", isBoolean value, isCallable value]))

def typeTest (value : Expr) (expected : String) : Lower Expr := do
  match expected with
  | "undefined" => return isMissing value
  | "number" => return isA value "Numeric"
  | "bigint" => return isA value "Integer"
  | "string" => return isA value "String"
  | "boolean" => return isBoolean value
  | "function" => return isCallable value
  | "object" => return isObject value
  | other =>
    warnLossy ("typeof comparison with '" ++ other ++ "' is always false")
    return .bool false

def typeofValue (operand : Expr) : Lower Expr := do
  let (setup, value) ← shared operand "value"
  let cases := [(isMissing value, "undefined"), (isA value "Numeric", "number"),
    (isA value "String", "string"), (isBoolean value, "boolean"), (isCallable value, "function")]
  return withSetup setup
    (cases.foldr (fun (cond, name) rest => .ternary cond (.string name) rest) (.string "object"))

def instanceOf (object cls : Node) : Lower Expr := do
  let value ← value object
  match cls.name? with
  | some "Array" => return isA value "Array"
  | some "String" => return isA value "String"
  | some "Number" => return isA value "Numeric"
  | some "Map" => return isA value "Hash"
  | some "Set" =>
    requireLibrary "set"
    return isA value "Set"
  | some "Function" => return isCallable value
  | some "Object" => return not (isMissing value)
  | name? =>
    let classes := (← get).classes
    match name?.filter fun name => isErrorClass name && !classes.contains name with
    | some name => return isA value (handledErrorClass name)
    | none => return isA value ((cls.qualifiedName? constantName).getD "Object")

/-! ## Binary operators -/

def specialEquality (left right : Node) : Attempt Expr := do
  if right.isNullish then return isMissing (← value left)
  if left.isNullish then return isMissing (← value right)
  let (typed, literal) ←
    if left.isTypeof then pure (left, right)
    else if right.isTypeof then pure (right, left)
    else failure
  let expected ← need literal.stringValue?
  typeTest (← value (← need (typed.child? "argument"))) expected

/-- Lowers an operand of a bitwise operator. A quotient loses its fraction first. -/
def intOperand (node : Node) : Lower Expr := do
  let operand := node.unwrapped
  let value ← value operand
  let divides := operand.type == "BinaryExpression" && operand.text? "operator" == some "/"
  return if divides then value.read "to_i" else value

/-- Whether a value is not negative by its form, so that its remainder is the same everywhere. -/
def isUnsigned (expr : Node) : Bool :=
  let node := expr.unwrapped
  match node.type with
  | "Literal" => (node.number? "value").any (·.ge 0)
  | "BinaryExpression" =>
    match node.text? "operator" with
    | some ">>>" => true
    | some "&" =>
      (node.child? "left").any Node.isInt31Literal || (node.child? "right").any Node.isInt31Literal
    | _ => false
  | "MemberExpression" => node.staticMember? == some "length"
  | _ => node.resultType?.any fun type => type.startsWith "uint" || type == "byte"

def isShift (operator : String) : Bool := [">>>", "<<", ">>"].contains operator

def isBitwise (operator : String) : Bool :=
  isShift operator || ["&", "|", "^"].contains operator

def wordOperator (operator : String) (left right : Node) : Lower Expr := do
  let narrow := left.isInt31Literal || right.isInt31Literal
  let first ← intOperand left
  let second ← if isShift operator then value right else intOperand right
  return bitwise operator first second narrow

/-- The operator that means the same for plain values. -/
def plainOperator? : String → Option BinaryOp
  | "+" => some .add
  | "-" => some .sub
  | "*" => some .mul
  | "%" => some .mod
  | "**" => some .pow
  | "==" | "===" => some .eq
  | "!=" | "!==" => some .ne
  | "<" => some .lt
  | ">" => some .gt
  | "<=" => some .le
  | ">=" => some .ge
  | _ => none

def plainBinary (node : Node) (operator : String) (left right : Node) : Attempt Expr := do
  match plainOperator? operator with
  | none => unsupported node
  | some op =>
    if op == .mod && !isUnsigned left then warnLossy "'%' takes the sign of the divisor in Ruby"
    let first ← value left
    return binary op first (← value right)

def binaryOperator (node : Node) (operator : String) (left right : Node) : Attempt Expr := do
  if operator == "instanceof" then return ← instanceOf left right
  if operator == "in" then
    let key ← value left
    return .method (← value right) "key?" [key]
  if operator == "|" && right.isZero then return int32 ((← value left).read "to_i")
  if isBitwise operator then return ← wordOperator operator left right
  let known := (← get).known
  if operator == "+" && (known.isText left || known.isText right) then
    let first ← value left
    return concat first (← value right)
  if operator == "/" then
    let first ← value left
    return .method first "fdiv" [← value right]
  plainBinary node operator left right

/-- Whether an operator tests for equality, and whether it is negated. -/
def equalityOperator? : String → Option Bool
  | "==" | "===" => some false
  | "!=" | "!==" => some true
  | _ => none

def binaryExpr (node : Node) : Attempt Expr := do
  let operator ← need (node.text? "operator")
  let left := (← need (node.child? "left")).unwrapped
  let right := (← need (node.child? "right")).unwrapped
  match equalityOperator? operator with
  | some negated =>
    (do
      let test ← specialEquality left right
      return if negated then not test else test) <|> binaryOperator node operator left right
  | none => binaryOperator node operator left right

def logicalExpr (node : Node) : Attempt Expr := do
  let left ← need (node.child? "left")
  let right ← need (node.child? "right")
  match ← need (node.text? "operator") with
  | "&&" =>
    let first ← value left
    return binary .and first (← value right)
  | "||" =>
    let first ← value left
    return binary .or first (← value right)
  | "??" =>
    let (setup, first) ← shared (← value left) "value"
    return withSetup setup (orIfNil first (← value right))
  | _ => unsupported node

/-! ## Unary operators -/

def deleteExpr (argument : Node) : Attempt Expr := do
  let object ← need (argument.child? "object")
  let key ←
    match argument.staticMember? with
    | some name => pure (Expr.string name)
    | none => value (← need (argument.child? "property"))
  return .method (← value object) "delete" [key]

def isNewDate (node : Node) : Bool :=
  node.type == "NewExpression" && (node.child? "callee").any (·.isIdentifier "Date")

def toNumber (argument : Node) : Lower Expr := do
  if isNewDate argument then return epochMillis
  let text ← isText argument
  let value ← value argument
  return if text then value.read "to_f" else value

/-- Lowers the complement of a word. Two of them only drop the fraction. -/
def complement (argument : Node) : Attempt Expr := do
  if argument.type == "UnaryExpression" && argument.text? "operator" == some "~" then
    return int32 ((← value (← need (argument.child? "argument"))).read "to_i")
  else return int32 (unary .bitNot (← intOperand argument))

def unaryExpr (node : Node) : Attempt Expr := do
  let operator ← need (node.text? "operator")
  let argument := (← need (node.child? "argument")).unwrapped
  match operator with
  | "!" =>
    match evaluateGuard argument with
    | some decided => return .bool !decided
    | none => return not (← test argument)
  | "-" => return unary .neg (← value argument)
  | "+" => toNumber argument
  | "~" => complement argument
  | "typeof" => typeofValue (← value argument)
  | "void" => return .nil
  | "delete" => deleteExpr argument
  | _ => unsupported node

/-- Lowers an increment or decrement. After its operand it gives the old value. -/
def updateExpr (node : Node) : Attempt Expr := do
  let place ← target (← need (node.child? "argument"))
  let increments := (← need (node.text? "operator")) == "++"
  let (op, undo) : BinaryOp × BinaryOp := if increments then (.add, .sub) else (.sub, .add)
  let change := Expr.compound place op (.int 1)
  if node.flag "prefix" then return change else return binary undo (.paren change) (.int 1)

/-! ## Assignments -/

def plainAssignment (left right : Node) : Attempt Expr := do
  let setters := ((← readThe Context).enclosingClass.map (·.setters)).getD []
  match left.thisMember?.filter setters.contains with
  | some name => return .set (.read .self (plainName name)) (← value right)
  | none =>
    if let some key := left.valueKey? then learn key (some right)
    let place ← target left
    return .set place (← value right)

/-- The operator on words in an assignment, unless its result is a word in any case. -/
def wordAssignment? (operator : String) (right : Node) : Option String :=
  match operator with
  | ">>>=" => some ">>>"
  | "<<=" => some "<<"
  | ">>=" => some ">>"
  | "|=" => some "|"
  | "^=" => some "^"
  | "&=" => if right.isInt31Literal then none else some "&"
  | _ => none

def assignmentOperator? : String → Option BinaryOp
  | "+=" => some .add
  | "-=" => some .sub
  | "*=" => some .mul
  | "%=" => some .mod
  | "**=" => some .pow
  | "&=" => some .bitAnd
  | "&&=" => some .and
  | "||=" => some .or
  | _ => none

def appendTo (place : Expr) (right : Node) : Lower Expr := do
  let text ← isText right
  let value ← value right
  return .compound place .add (if text then value else value.read "to_s")

def operatorAssignment (node : Node) (operator : String) (left right : Node) (place : Expr) :
    Attempt Expr := do
  if let some wordOp := wordAssignment? operator right then
    let operand ← if isShift wordOp then value right else intOperand right
    return .set place (bitwise wordOp place operand false)
  let known := (← get).known
  if operator == "+=" && (known.isText left || known.isText right) then
    return ← appendTo place right
  match operator with
  | "/=" => return .set place (.method place "fdiv" [← value right])
  | "??=" => return .set place (orIfNil place (← value right))
  | _ =>
    match assignmentOperator? operator with
    | none => unsupported node
    | some op =>
      return .compound place op (← if op == .bitAnd then intOperand right else value right)

def assignmentExpr (node : Node) : Attempt Expr := do
  let operator ← need (node.text? "operator")
  let left := (← need (node.child? "left")).unwrapped
  let right ← need (node.child? "right")
  if left.type == "ArrayPattern" then
    let targets ← patternTargets false left
    return .multiAssign targets (← value right)
  if operator == "=" then plainAssignment left right
  else operatorAssignment node operator left right (← target left)

end Scriptgen.Ruby
