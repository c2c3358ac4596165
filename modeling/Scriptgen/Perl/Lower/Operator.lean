import Scriptgen.Perl.Lower.Word
/-!
# Lowering to Perl: operators

Perl has separate operators for text and for numbers. Which one is meant is told by the form of
the operands. Comparisons with nothing and with `typeof` have forms of their own.
-/

namespace Scriptgen.Perl

/-! ## Comparisons with a form of their own -/

def typeofTest (operand : Expr) (expected : String) : Lower Expr := do
  match expected with
  | "undefined" => return not (isDefined operand)
  | "function" => return binary .strEq (refOf operand) (.string "CODE")
  | "object" =>
    return binary .and (refOf operand) (binary .strNe (refOf operand) (.string "CODE"))
  | "number" | "bigint" =>
    requireModule "Scalar::Util"
    return binary .and (not (refOf operand)) (looksLikeNumber operand)
  | "string" =>
    requireModule "Scalar::Util"
    return binary .and (binary .and (isDefined operand) (not (refOf operand)))
      (not (looksLikeNumber operand))
  | "boolean" =>
    warnLossy "typeof 'boolean' has no Perl counterpart"
    return isDefined operand
  | other =>
    warnLossy ("typeof comparison with '" ++ other ++ "' is always false")
    return .bool false
where
  looksLikeNumber (operand : Expr) : Expr := .call "Scalar::Util::looks_like_number" [operand]

def typeofValue (operand : Expr) : Lower Expr := do
  requireModule "Scalar::Util"
  return ternary (binary .strEq (refOf operand) (.string "CODE")) (.string "function")
    (ternary (refOf operand) (.string "object")
      (ternary (not (isDefined operand)) (.string "undefined")
        (ternary (.call "Scalar::Util::looks_like_number" [operand]) (.string "number")
          (.string "string"))))

/-- Whether two operands are equal, one of which is nothing or a `typeof`. -/
def specialEquality (left right : Node) : Attempt Expr := do
  let testTypeof (operator literal : Node) : Attempt Expr := do
    let expected ← need literal.stringValue?
    typeofTest (← value (← need (operator.child? "argument"))) expected
  if right.isNullish then return not (isDefined (← value left))
  else if left.isNullish then return not (isDefined (← value right))
  else if left.isTypeof then testTypeof left right
  else if right.isTypeof then testTypeof right left
  else failure

def instanceTest (object : Expr) (className : Node) : Lower Expr := do
  match className.name? with
  | some "Array" => return isArray object
  | some "Function" => return binary .strEq (refOf object) (.string "CODE")
  | some "Object" => return refOf object
  | _ =>
    requireModule "Scalar::Util"
    let name := (className.qualifiedName? id).getD "UNIVERSAL"
    return binary .and (.call "Scalar::Util::blessed" [object])
      (.callMethod object "isa" [.string name])

/-! ## Operators -/

def isBitwise (operator : String) : Bool :=
  [">>>", "<<", ">>", "&", "|", "^"].contains operator

/-- The operator between operands that are text or numbers. -/
def plainOperator? (operator : String) (textual : Bool) : Option BinaryOp :=
  match operator with
  | "+" => some (if textual then .concat else .add)
  | "-" => some .sub
  | "*" => some .mul
  | "/" => some .div
  | "%" => some .mod
  | "**" => some .pow
  | "==" | "===" => some (if textual then .strEq else .numEq)
  | "!=" | "!==" => some (if textual then .strNe else .numNe)
  | "<" => some (if textual then .strLt else .numLt)
  | ">" => some (if textual then .strGt else .numGt)
  | "<=" => some (if textual then .strLe else .numLe)
  | ">=" => some (if textual then .strGe else .numGe)
  | _ => none

/-- Lowers an operator between two operands that has no other form. -/
def plainBinary (node : Node) (operator : String) (left right : Node) : Attempt Expr := do
  match operator with
  | "instanceof" => instanceTest (← value left) right
  | "in" =>
    let key ← value left
    return .call "exists" [.key (← hashBase right) key]
  | _ =>
    if operator == "|" && right.isZero then return int32 (← value left)
    else if isBitwise operator then
      let narrow := left.isInt31Literal || right.isInt31Literal
      let left ← value left
      bitwise operator left (← value right) narrow
    else
      match plainOperator? operator (left.isTextual || right.isTextual) with
      | some op =>
        let left ← value left
        return binary op left (← value right)
      | none => unsupported node

def binaryExpr (node : Node) : Attempt Expr := do
  let operator ← need (node.text? "operator")
  let left := (← need (node.child? "left")).unwrapped
  let right := (← need (node.child? "right")).unwrapped
  match operator with
  | "==" | "===" => specialEquality left right <|> plainBinary node operator left right
  | "!=" | "!==" =>
    (do return not (← specialEquality left right)) <|> plainBinary node operator left right
  | _ => plainBinary node operator left right

/-- The operator that only looks at its second operand if it has to. -/
def logicalOperator? : String → Option BinaryOp
  | "&&" => some .and
  | "||" => some .or
  | "??" => some .definedOr
  | _ => none

/-- Lowers an operator that only looks at its second operand if it has to. -/
def logicalExpr (node : Node) : Attempt Expr := do
  match logicalOperator? (← need (node.text? "operator")) with
  | some op =>
    let left ← value (← need (node.child? "left"))
    return binary op left (← value (← need (node.child? "right")))
  | none => unsupported node

def unaryExpr (node : Node) : Attempt Expr := do
  let operator ← need (node.text? "operator")
  let argument ← need (node.child? "argument")
  match operator with
  | "!" =>
    match evaluateGuard argument with
    | some decided => return .bool !decided
    | none => return not (← value argument)
  | "-" => return unary .neg (← value argument)
  | "+" => return binary .add (← value argument) (.int 0)
  | "~" => return int32 (unary .bitNot (← value argument))
  | "typeof" => typeofValue (← value argument)
  | "void" => return .undefined
  | "delete" => return .call "delete" [← value argument]
  | _ => unsupported node

def updateOperator (operator : String) (before : Bool) : UnaryOp :=
  match operator, before with
  | "++", true => .preInc
  | "++", false => .postInc
  | "--", true => .preDec
  | _, _ => .postDec

def updateExpr (node : Node) : Attempt Expr := do
  let target ← value (← need (node.child? "argument"))
  return unary (updateOperator (← need (node.text? "operator")) (node.flag "prefix")) target

/-! ## Assignments -/

/-- Lowers what an assignment writes to. A list or map variable is written to itself. -/
def assignTarget (node : Node) : Attempt Expr := do
  let node := node.unwrapped
  let scopes := (← get).scopes
  match node.name? >>= fun name => (scopes.lookup? name).map (Expr.var name) with
  | some target => return target
  | none => expr node

def bitwiseAssignment? (operator : String) (right : Node) : Option String :=
  match operator with
  | ">>>=" => some ">>>"
  | "<<=" => some "<<"
  | ">>=" => some ">>"
  | "|=" => some "|"
  | "^=" => some "^"
  | "&=" => if right.isInt31Literal then none else some "&"
  | _ => none

def assignmentOperator? (operator : String) (textual : Bool) : Option BinaryOp :=
  match operator with
  | "+=" => some (if textual then .concat else .add)
  | "-=" => some .sub
  | "*=" => some .mul
  | "/=" => some .div
  | "%=" => some .mod
  | "**=" => some .pow
  | "&=" => some .bitAnd
  | "&&=" => some .and
  | "||=" => some .or
  | "??=" => some .definedOr
  | _ => none

def compoundAssignment (node : Node) (operator : String) (left right : Node) : Attempt Expr := do
  let target ← assignTarget left
  let operand ← value right
  match bitwiseAssignment? operator right with
  | some word => return .set target (← bitwise word target operand false)
  | none =>
    match assignmentOperator? operator (left.isTextual || right.isTextual) with
    | some op => return .assign target (some op) operand
    | none => unsupported node

def setterCall (left right : Node) : Attempt Expr := do
  let name ← need left.thisMember?
  let place := (← get).place
  if place.enclosingClass.any (·.setters.contains name) then
    return .callMethod (.scalar place.invocant.name) ("set_" ++ name) [← value right]
  else failure

def containerAssignment (left right : Node) : Attempt Expr := do
  let name ← need left.name?
  let shape ← need ((← get).scopes.lookup? name)
  if shape == .scalar then failure
  else return .set (.var name shape) (← shapedValue shape right)

def plainAssignment (left right : Node) : Attempt Expr := do
  let target ← assignTarget left
  return .set target (← value right)

def assignmentExpr (node : Node) : Attempt Expr := do
  let operator ← need (node.text? "operator")
  let left := (← need (node.child? "left")).unwrapped
  let right ← need (node.child? "right")
  if left.type == "ArrayPattern" then
    let targets ← (left.childrenWithHoles "elements").mapM fun item => valueOf item
    return .set (.list targets) (← listOf right)
  else if operator == "=" then
    setterCall left right <|> containerAssignment left right <|> plainAssignment left right
  else compoundAssignment node operator left right

end Scriptgen.Perl
