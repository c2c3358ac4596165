import Scriptgen.Source.Guard
/-!
# Module wrappers

A program may be wrapped in a function that is called on the spot, and carries statements that
only talk to a module system. `topLevelStatements` gives the statements that remain once the
wrappers are peeled off and the glue is dropped.
-/

namespace Scriptgen

namespace Node

def isFunctionExpr (node : Node) : Bool :=
  node.type == "FunctionExpression" || node.type == "ArrowFunctionExpression"

/-- A statement such as `"use strict"`. -/
def isDirective (stmt : Node) : Bool :=
  stmt.type == "ExpressionStatement" &&
    (stmt.has "directive" || (stmt.child? "expression").any (·.stringValue?.isSome))

/-! ## Glue -/

/-- A call of `require`, a global of the framework or a host, or a choice between such. -/
def isFrameworkRef (ref : Node) : Bool :=
  let node := ref.unwrapped
  match node.type with
  | "CallExpression" => (node.child? "callee").any (·.isIdentifier "require")
  | "LogicalExpression" =>
    let left :=
      match _h : node.child? "left" with
      | some left => left.isFrameworkRef
      | none => false
    let right :=
      match _h : node.child? "right" with
      | some right => right.isFrameworkRef
      | none => false
    left && right
  | "Identifier" | "MemberExpression" => node.chainRoot?.any isFrameworkName
  | _ => false
termination_by ref.height
decreasing_by
  all_goals exact Nat.lt_of_lt_of_le (height_of_child? _h) ref.height_unwrapped_le

/-- An expression that exports something or registers an algorithm. -/
def isGlueExpr (expr : Node) : Bool :=
  match expr.type with
  | "AssignmentExpression" =>
    (expr.child? "left" >>= chainRoot?).any fun root => isFrameworkName root && root != "OpCodes"
  | "CallExpression" =>
    (expr.child? "callee").any fun callee =>
      callee.isIdentifier "RegisterAlgorithm" || callee.staticMember? == some "RegisterAlgorithm"
  | _ => false

/-- A statement that only talks to a module system or to the registry of algorithms. -/
def isModuleGlue (stmt : Node) : Bool :=
  match stmt.type with
  | "ExpressionStatement" => (stmt.child? "expression").any (·.unwrapped.isGlueExpr)
  | "VariableDeclaration" =>
    let declarations := stmt.children "declarations"
    !declarations.isEmpty && declarations.all fun d => (d.child? "init").any isFrameworkRef
  | _ => false

/-! ## Wrappers -/

/-- The operand of an operator that only turns a function into an expression. -/
def prefixed? (expr : Node) : Option Node :=
  if expr.type == "UnaryExpression" then
    match expr.text? "operator" with
    | some "!" | some "void" | some "+" | some "-" => expr.child? "argument"
    | _ => none
  else none

/-- Whether this is such an operator, with or without an operand. -/
def isPrefixed (expr : Node) : Bool :=
  expr.type == "UnaryExpression" &&
    match expr.text? "operator" with
    | some "!" | some "void" | some "+" | some "-" => true
    | _ => false

theorem height_of_prefixed? {expr operand : Node} (h : expr.prefixed? = some operand) :
    operand.height < expr.height := by
  unfold prefixed? at h
  split at h
  · split at h
    all_goals first | exact height_of_child? h | simp at h
  · simp at h

/-- The expression under wrappers and such operators. -/
def invocation? (expr : Node) : Option Node :=
  if expr.unwrapped.isPrefixed then
    match _h : expr.unwrapped.prefixed? with
    | some operand => operand.invocation?
    | none => none
  else some expr.unwrapped
termination_by expr.height
decreasing_by exact Nat.lt_of_lt_of_le (height_of_prefixed? _h) expr.height_unwrapped_le

/-- The function that a call on the spot runs. With a factory among the arguments it is the last
such factory. -/
def invoked? (call : Node) : Option Node := do
  let callee := (← call.child? "callee").unwrapped
  if callee.isFunctionExpr then
    some ((((call.children "arguments").map unwrapped).reverse.find? isFunctionExpr).getD callee)
  else
    match callee.staticMember? with
    | some "call" | some "apply" => do
      let target := (← callee.child? "object").unwrapped
      if target.isFunctionExpr then some target else none
    | _ => none

/-- The statements of the function that a wrapper calls. -/
def wrapperBody? (stmt : Node) : Option (List Node) := do
  guard (stmt.type == "ExpressionStatement")
  let call ← (← stmt.child? "expression").invocation?
  guard (call.type == "CallExpression")
  let body ← (← call.invoked?).child? "body"
  if body.type == "BlockStatement" then some (body.children "body") else none

theorem height_of_invocation? {expr call : Node} (h : expr.invocation? = some call) :
    call.height ≤ expr.height := by
  fun_induction invocation? expr with
  | case1 expr _ operand hp ih =>
    have := ih h
    have := height_of_prefixed? hp
    have := expr.height_unwrapped_le
    omega
  | case2 => simp at h
  | case3 expr _ =>
    simp only [Option.some.injEq] at h
    subst h
    exact expr.height_unwrapped_le

theorem height_of_invoked? {call function : Node} (h : call.invoked? = some function) :
    function.height < call.height := by
  simp only [invoked?, Option.bind_eq_bind, Option.bind_eq_some_iff] at h
  obtain ⟨callee, hc, h⟩ := h
  have := height_of_child? hc
  have := callee.height_unwrapped_le
  split at h
  · simp only [Option.some.injEq] at h
    cases hf : ((call.children "arguments").map unwrapped).reverse.find? isFunctionExpr with
    | none =>
      rw [hf] at h
      simp only [Option.getD_none] at h
      subst h
      omega
    | some factory =>
      rw [hf] at h
      simp only [Option.getD_some] at h
      subst h
      have hm := List.mem_of_find?_eq_some hf
      rw [List.mem_reverse, List.mem_map] at hm
      obtain ⟨argument, ha, rfl⟩ := hm
      have := height_of_mem_children ha
      have := argument.height_unwrapped_le
      omega
  · have member {object : Node} (ho : callee.unwrapped.child? "object" = some object)
        (h : (if object.unwrapped.isFunctionExpr then some object.unwrapped else none) =
          some function) : function.height < call.height := by
      have := height_of_child? ho
      have := object.height_unwrapped_le
      split at h
      · simp only [Option.some.injEq] at h
        subst h
        omega
      · simp at h
    split at h
    · obtain ⟨object, ho, h⟩ := Option.bind_eq_some_iff.1 h
      exact member ho h
    · obtain ⟨object, ho, h⟩ := Option.bind_eq_some_iff.1 h
      exact member ho h
    · simp at h

theorem height_of_mem_wrapperBody? {stmt inner : Node} {body : List Node}
    (h : stmt.wrapperBody? = some body) (hi : inner ∈ body) : inner.height < stmt.height := by
  unfold wrapperBody? at h
  obtain ⟨_, -, h⟩ := Option.bind_eq_some_iff.1 h
  obtain ⟨expr, he, h⟩ := Option.bind_eq_some_iff.1 h
  obtain ⟨call, hc, h⟩ := Option.bind_eq_some_iff.1 h
  obtain ⟨_, -, h⟩ := Option.bind_eq_some_iff.1 h
  obtain ⟨function, hf, h⟩ := Option.bind_eq_some_iff.1 h
  obtain ⟨block, hb, h⟩ := Option.bind_eq_some_iff.1 h
  have := height_of_child? he
  have := height_of_invocation? hc
  have := height_of_invoked? hf
  have := height_of_child? hb
  split at h
  · simp only [Option.some.injEq] at h
    subst h
    have := height_of_mem_children hi
    omega
  · simp at h

/-- What a statement contributes to the program. A `return` of a wrapper contributes nothing. -/
def contribution (inWrapper : Bool) (stmt : Node) : List Node :=
  if stmt.isDirective || stmt.isModuleGlue then []
  else if inWrapper && stmt.type == "ReturnStatement" then []
  else
    match _h : stmt.wrapperBody? with
    | some body => body.attach.flatMap fun ⟨inner, _hi⟩ => inner.contribution true
    | none => [stmt]
termination_by stmt.height
decreasing_by exact height_of_mem_wrapperBody? _h _hi

end Node

/-- The statements of a program without module wrappers and glue. -/
def topLevelStatements (program : Node) : List Node :=
  (program.children "body").flatMap (Node.contribution false)

end Scriptgen
