import Scriptgen.Ruby.Jumps
import Scriptgen.Ruby.Lower.Basic
/-!
# Lowering to Ruby: jumps

Most loops are calls with blocks in Ruby, where `break` and `next` lead to the innermost block. A
jump that has to go further, or that would skip the step of its loop, is thrown to a tag. The
construct that it leads to then catches the tag.
-/

namespace Scriptgen.Ruby

/-! ## Targets -/

/-- The number of frames inside the first one that has a property. -/
def skippedTo? (frames : List Frame) (p : Frame → Bool) : Option Nat := frames.findIdx? p

/-- Whether a native jump past the innermost frames would end in one of them. -/
def crossesBlock (frames : List Frame) (skipped : Nat) : Bool :=
  (frames.take skipped).any (·.kind != .switch false)

def breakTarget? (frames : List Frame) : Option String → Option Nat
  | some label => skippedTo? frames (·.label == some label)
  | none => skippedTo? frames fun frame => !frame.callback && frame.kind != .labeled

def continueTarget? (frames : List Frame) : Option String → Option Nat
  | some label => skippedTo? frames (·.label == some label)
  | none => skippedTo? frames (·.kind == .loop)

def Frame.breaksNatively (frame : Frame) : Bool := frame.kind == .loop || frame.kind == .switch true

def Frame.tagStem (frame : Frame) (kind : String) : String :=
  match frame.label with
  | some label => tagName label ++ "_" ++ kind
  | none => kind

/-- The tag that jumps out of a frame are thrown to. The frame gets one if it has none. -/
def breakTag (skipped : Nat) (frame : Frame) : Lower String := do
  match frame.breakTag with
  | some tag => return tag
  | none =>
    let tag ← fresh (frame.tagStem "break")
    modify fun s => { s with
      frames := s.frames.modify skipped fun frame => { frame with breakTag := some tag } }
    return tag

/-- The tag that jumps to the next round of a frame are thrown to. The frame gets one if it has
none. -/
def nextTag (skipped : Nat) (frame : Frame) : Lower String := do
  match frame.nextTag with
  | some tag => return tag
  | none =>
    let tag ← fresh (frame.tagStem "next")
    modify fun s => { s with
      frames := s.frames.modify skipped fun frame => { frame with nextTag := some tag } }
    return tag

def Stmt.throwTo (tag : String) : Stmt := .plain (.throwTag tag)

/-! ## Jumps -/

def breakStmt (label : Option String) : Lower Stmt := do
  let frames := (← get).frames
  match breakTarget? frames label with
  | none => return .jump .leave
  | some skipped =>
    match frames[skipped]? with
    | none => return .jump .leave
    | some frame =>
      if frame.breaksNatively && !crossesBlock frames skipped then return .jump .leave
      else return .throwTo (← breakTag skipped frame)

def continueStmt (label : Option String) : Lower Stmt := do
  let frames := (← get).frames
  match continueTarget? frames label with
  | none => return .jump .next
  | some skipped =>
    match frames[skipped]? with
    | none => return .jump .next
    | some frame =>
      if frame.stepLoop || crossesBlock frames skipped then
        return .throwTo (← nextTag skipped frame)
      else return .jump .next

/-- Lowers `return` in a callback that has become a block. The value goes to the method that the
block belongs to, which it cannot do from a loop within the block. -/
def callbackReturn (result : Option Expr) : Lower Stmt := do
  let frames := (← get).frames
  match skippedTo? frames (·.callback) with
  | none => return .plain (.jump .next result)
  | some skipped =>
    match frames[skipped]? with
    | none => return .plain (.jump .next result)
    | some frame =>
      if crossesBlock frames skipped then
        if result.isSome then
          warnLossy "callback result returned from a nested loop is dropped"
        return .throwTo (← nextTag skipped frame)
      else return .plain (.jump .next result)

/-! ## Catching -/

/-- The body of a loop that catches the jumps to its next round, and the tag of the jumps that leave
the loop. Breaks in a body that catches something are thrown too. -/
def closeLoop (frame : Frame) (body : List Stmt) : Lower (List Stmt × Option String) := do
  match frame.nextTag with
  | none => return (body, frame.breakTag)
  | some next =>
    if anyBreaks body then
      let tag ←
        match frame.breakTag with
        | some tag => pure tag
        | none => fresh "break"
      return ([.plain (.catchTag next (allBreaksTo tag body))], some tag)
    else return ([.plain (.catchTag next body)], frame.breakTag)

def catching (tag : Option String) (body : List Stmt) : List Stmt :=
  match tag with
  | some tag => [.plain (.catchTag tag body)]
  | none => body

/-- Lowers the body of a loop, and gives it with the tag of the jumps that leave the loop. -/
def loopBody (frame : Frame) (body : Lower (List Stmt)) : Lower (List Stmt × Option String) := do
  let (frame, body) ← inFrame frame body
  closeLoop frame body

end Scriptgen.Ruby
