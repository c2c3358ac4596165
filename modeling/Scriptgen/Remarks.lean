import Scriptgen.Options
import Scriptgen.Source.Node
import Scriptgen.Text.Blank
/-!
# Remarks

A generated declaration or statement remembers where it comes from and the comments that stood
there. Both targets write comments as lines that start with `#`.
-/

namespace Scriptgen

/-- Where a declaration or statement comes from, and the comments before it. -/
structure Remarks where
  location : Option Location
  comments : List Comment
deriving DecidableEq, Repr

namespace Remarks

def none : Remarks := ⟨Option.none, []⟩

def ofNode (node : Node) : Remarks := ⟨node.location?, node.leadingComments⟩

end Remarks

namespace Layout

def line (layout : Layout) (depth : Nat) (text : String) : String :=
  layout.pad depth ++ text ++ layout.lineEnding

end Layout

namespace Comment

/-- The text of a comment line without the decoration of block comments. -/
def bare (comment : Comment) (line : String) : String :=
  if comment.block then Text.trim (Text.dropLeading '*' (Text.trim line)) else Text.trim line

/-- The lines of a comment. Block comments lose their empty lines. -/
def print (layout : Layout) (depth : Nat) (comment : Comment) : String :=
  String.join ((Text.lines comment.text).map fun line =>
    let text := comment.bare line
    if text.isEmpty then if comment.block then "" else layout.line depth "#"
    else layout.line depth ("# " ++ text))

end Comment

def Remarks.print (layout : Layout) (depth : Nat) (remarks : Remarks) : String :=
  String.join (remarks.comments.map (·.print layout depth))

end Scriptgen
