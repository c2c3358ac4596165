/-!
# Options

What the caller can choose about generated code. `Choices` are the part that lowering depends on,
and `Layout` is the part that only changes how the text is laid out.
-/

namespace Scriptgen

/-- Where an opening brace goes. -/
inductive BraceStyle where
  /-- At the end of the line that it belongs to. -/
  | sameLine
  /-- On a line of its own. -/
  | nextLine
deriving DecidableEq, Repr

def BraceStyle.name : BraceStyle → String
  | .sameLine => "same-line"
  | .nextLine => "next-line"

def BraceStyle.ofName? : String → Option BraceStyle
  | "same-line" => some .sameLine
  | "next-line" => some .nextLine
  | _ => none

/-- The options that lowering depends on. -/
structure Choices where
  /-- Whether to use the newer forms of the target where there are several. -/
  modernSyntax : Bool
  /-- The package or module around the generated code. -/
  moduleName : Option String
  /-- Whether to write inferred types in comments. -/
  typeAnnotations : Bool
deriving DecidableEq, Repr

/-- The options of one generation. -/
structure Options extends Choices where
  /-- One level of indentation, or that of the target if none is given. -/
  indent : Option String
  lineEnding : String
  braceStyle : BraceStyle
  /-- Whether to start with the strictness declarations of the target. -/
  strictPragmas : Bool
  /-- Whether to report everything that is dropped. -/
  strictInput : Bool
  /-- How long a syntax check may take, in milliseconds. -/
  validationTimeout : Nat
deriving DecidableEq, Repr

namespace Options

def defaults : Options where
  indent := none
  lineEnding := "\n"
  braceStyle := .sameLine
  strictPragmas := true
  modernSyntax := false
  moduleName := none
  typeAnnotations := false
  strictInput := false
  validationTimeout := 5000

def indentOr (options : Options) (usual : String) : String := options.indent.getD usual

end Options

/-- How generated code is laid out. -/
structure Layout where
  indent : String
  lineEnding : String
  braces : BraceStyle
deriving DecidableEq, Repr

namespace Layout

/-- The layout with a given indentation and nothing else chosen. -/
def withIndent (indent : String) : Layout := ⟨indent, "\n", .sameLine⟩

/-- The layout that options ask for, with the usual indentation of the target. -/
def ofOptions (options : Options) (usual : String) : Layout :=
  ⟨options.indentOr usual, options.lineEnding, options.braceStyle⟩

def pad (layout : Layout) (depth : Nat) : String :=
  String.join (List.replicate depth layout.indent)

end Layout

end Scriptgen
