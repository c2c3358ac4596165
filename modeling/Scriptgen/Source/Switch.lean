import Scriptgen.Source.Hoist
/-!
# Switch statements

A switch becomes a chain of tests. `switchArms` groups the cases into arms: labels without
statements of their own share those of the next case, and a case whose end can be reached
goes on with the statements of the cases after it.
-/

namespace Scriptgen

/-- One arm of a switch. -/
structure SwitchArm where
  /-- The labels that select the arm. -/
  tests : List Node
  /-- Whether `default` is among the labels. -/
  isDefault : Bool
  /-- The statements of the arm. -/
  body : List Node

/-! ## Where control goes -/

namespace Node

/-- Whether control never goes on to what follows a statement. -/
def diverts (stmt : Node) : Bool :=
  match stmt.type with
  | "BreakStatement" | "ReturnStatement" | "ThrowStatement" | "ContinueStatement" => true
  | "BlockStatement" =>
    match _h : (stmt.children "body").getLast? with
    | some last => last.diverts
    | none => false
  | "IfStatement" =>
    let thenDiverts :=
      match _h : stmt.child? "consequent" with
      | some branch => branch.diverts
      | none => false
    let elseDiverts :=
      match _h : stmt.child? "alternate" with
      | some branch => branch.diverts
      | none => false
    thenDiverts && elseDiverts
  | _ => false
termination_by stmt.height
decreasing_by
  · exact height_of_mem_children (List.mem_of_getLast? _h)
  · exact height_of_child? _h
  · exact height_of_child? _h

/-- Whether a statement can break out of the switch around it. Loops and switches inside it
catch their own breaks. -/
def breaksOut (stmt : Node) : Bool :=
  match stmt.type with
  | "BreakStatement" => (stmt.child? "label").isNone
  | "BlockStatement" => (stmt.children "body").attach.any fun ⟨inner, _h⟩ => inner.breaksOut
  | "IfStatement" =>
    let thenBreaks :=
      match _h : stmt.child? "consequent" with
      | some branch => branch.breaksOut
      | none => false
    let elseBreaks :=
      match _h : stmt.child? "alternate" with
      | some branch => branch.breaksOut
      | none => false
    thenBreaks || elseBreaks
  | "LabeledStatement" =>
    match _h : stmt.child? "body" with
    | some body => body.breaksOut
    | none => false
  | "TryStatement" =>
    let blockBreaks :=
      match _h : stmt.child? "block" with
      | some block => block.breaksOut
      | none => false
    let handlerBreaks :=
      match _h : stmt.child? "handler" with
      | some handler =>
        match _h' : handler.child? "body" with
        | some body => body.breaksOut
        | none => false
      | none => false
    let finalizerBreaks :=
      match _h : stmt.child? "finalizer" with
      | some finalizer => finalizer.breaksOut
      | none => false
    blockBreaks || handlerBreaks || finalizerBreaks
  | _ => false
termination_by stmt.height
decreasing_by
  · exact height_of_mem_children _h
  · exact height_of_child? _h
  · exact height_of_child? _h
  · exact height_of_child? _h
  · exact height_of_child? _h
  · exact Nat.lt_trans (height_of_child? _h') (height_of_child? _h)
  · exact height_of_child? _h

def isPlainBreak (stmt : Node) : Bool := stmt.type == "BreakStatement" && !stmt.has "label"

end Node

/-- Whether the end of a list of statements is never reached. -/
def terminates (stmts : List Node) : Bool := stmts.getLast?.any Node.diverts

/-! ## Arms -/

/-- Adds a label of a case to the labels collected so far. -/
def addLabel (tests : List Node) (isDefault : Bool) (case : Node) : List Node × Bool :=
  match case.child? "test" with
  | some test => (tests ++ [test], isDefault)
  | none => (tests, true)

/-- The arms by their own statements, after labels that still wait for statements. -/
def groupCases (tests : List Node) (isDefault : Bool) : List Node → List SwitchArm
  | [] => if !tests.isEmpty || isDefault then [⟨tests, isDefault, []⟩] else []
  | case :: rest =>
    let (tests, isDefault) := addLabel tests isDefault case
    let body := case.children "consequent"
    if body.isEmpty then groupCases tests isDefault rest
    else ⟨tests, isDefault, body⟩ :: groupCases [] false rest

/-- The statements that run from `body` on, where `later` are the bodies after it. -/
def fallThrough (body : List Node) : List (List Node) → List Node
  | [] => body
  | next :: later => if terminates body then body else fallThrough (body ++ next) later

/-- The statements without the `break` that ends them. -/
def dropFinalBreak (body : List Node) : List Node :=
  if body.getLast?.any Node.isPlainBreak then body.dropLast else body

/-- The arms with the statements that run when they are selected. -/
def completeArms : List SwitchArm → List SwitchArm
  | [] => []
  | arm :: rest =>
    { arm with body := dropFinalBreak (fallThrough arm.body (rest.map (·.body))) } ::
      completeArms rest

def switchArms (cases : List Node) : List SwitchArm := completeArms (groupCases [] false cases)

/-- Whether an arm can break out of the switch before its end. -/
def hasOwnBreak (arms : List SwitchArm) : Bool := arms.any (·.body.any Node.breaksOut)

end Scriptgen
