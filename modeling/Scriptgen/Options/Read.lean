import Scriptgen.Json.Read
import Scriptgen.Options
import Scriptgen.Toml.Read
/-!
# Reading options

Options are written in JSON or TOML, as a record in which every key may be missing and unknown
keys are passed over, or in JSON also as a list of values in the order of the record. Most keys have
several spellings, of which only one may be given.
-/

namespace Scriptgen

/-- Why options cannot be read. -/
inductive OptionsError where
  /-- The file cannot be read. -/
  | io
  /-- The text is not JSON, or not JSON options. -/
  | json
  /-- The text is not TOML, or not TOML options. -/
  | toml
deriving DecidableEq, Repr

/-- The keys of the record, in order. -/
inductive OptionKey where
  | indent
  | lineEnding
  | braceStyle
  | strictPragmas
  | modernSyntax
  | moduleName
  | typeAnnotations
  | strictInput
  | validationTimeout
deriving DecidableEq, Repr

namespace OptionKey

def all : List OptionKey :=
  [.indent, .lineEnding, .braceStyle, .strictPragmas, .modernSyntax, .moduleName,
    .typeAnnotations, .strictInput, .validationTimeout]

def spellings : OptionKey → List String
  | .indent => ["indent", "indentString"]
  | .lineEnding => ["line_ending", "lineEnding"]
  | .braceStyle => ["brace_style", "braceStyle"]
  | .strictPragmas => ["strict_pragmas", "strictPragmas", "useStrict"]
  | .modernSyntax => ["modern_syntax", "modernSyntax", "useModernSyntax"]
  | .moduleName => ["module_name", "moduleName", "packageName"]
  | .typeAnnotations => ["type_annotations", "typeAnnotations", "addTypeAnnotations"]
  | .strictInput => ["strict_input", "strictInput"]
  | .validationTimeout => ["validation_timeout_ms", "validationTimeoutMs"]

def ofSpelling? (name : String) : Option OptionKey := all.find? (·.spellings.contains name)

end OptionKey

/-- How a format writes the values that options have. -/
structure ValueForm (V : Type) where
  text? : V → Option String
  /-- A text that may be left out explicitly. -/
  optionalText? : V → Option (Option String)
  flag? : V → Option Bool
  /-- A number of 64 bits. -/
  count? : V → Option Nat
  braces? : V → Option BraceStyle

namespace ValueForm

variable {V : Type} (form : ValueForm V)

def set? (options : Options) (key : OptionKey) (value : V) : Option Options :=
  match key with
  | .indent => (form.optionalText? value).map fun indent => { options with indent }
  | .lineEnding => (form.text? value).map fun lineEnding => { options with lineEnding }
  | .braceStyle => (form.braces? value).map fun braceStyle => { options with braceStyle }
  | .strictPragmas => (form.flag? value).map fun strictPragmas => { options with strictPragmas }
  | .modernSyntax => (form.flag? value).map fun modernSyntax => { options with modernSyntax }
  | .moduleName => (form.optionalText? value).map fun moduleName => { options with moduleName }
  | .typeAnnotations =>
    (form.flag? value).map fun typeAnnotations => { options with typeAnnotations }
  | .strictInput => (form.flag? value).map fun strictInput => { options with strictInput }
  | .validationTimeout =>
    (form.count? value).map fun validationTimeout => { options with validationTimeout }

/-- The options of a record, after keys that have been seen. No key may come twice. -/
def record? (seen : List OptionKey) (options : Options) : List (String × V) → Option Options
  | [] => some options
  | (name, value) :: rest =>
    match OptionKey.ofSpelling? name with
    | none => record? seen options rest
    | some key =>
      if seen.contains key then none
      else do record? (key :: seen) (← form.set? options key value) rest

/-- The options of a list of values. The keys of missing values keep their defaults. -/
def list? (options : Options) : List OptionKey → List V → Option Options
  | _, [] => some options
  | [], _ :: _ => none
  | key :: keys, value :: rest => do list? (← form.set? options key value) keys rest

end ValueForm

/-! ## JSON -/

namespace Json

/-- Option values as JSON. A brace style may also be written as an object with that one key. -/
def optionForm : ValueForm Json where
  text? := asString?
  optionalText?
    | .null => some none
    | .string s => some (some s)
    | _ => none
  flag? := asBool?
  count? := asNat?
  braces?
    | .string s => BraceStyle.ofName? s
    | .object [(name, .null)] => BraceStyle.ofName? name
    | _ => none

def toOptions? : Json → Option Options
  | .object fields => optionForm.record? [] .defaults fields
  | .array items => optionForm.list? .defaults OptionKey.all items
  | _ => none

/-- Option values as JSON text. Only the values that are read have to be more than grammatical. -/
def Raw.optionForm : ValueForm Raw :=
  let read {α : Type} (f : Json → Option α) (raw : Raw) : Option α := raw.toJson? maxDepth >>= f
  { text? := read Json.optionForm.text?
    optionalText? := read Json.optionForm.optionalText?
    flag? := read Json.optionForm.flag?
    count? := read Json.optionForm.count?
    braces?
      | .object [(some name, .null)] => BraceStyle.ofName? name
      | .string (some name) => BraceStyle.ofName? name
      | _ => none }

/-- The options that JSON text describes. -/
def Raw.toOptions? : Raw → Option Options
  | .object fields => do
    let fields ← fields.mapM fun (key, value) => key.map (·, value)
    optionForm.record? [] .defaults fields
  | .array items => optionForm.list? .defaults OptionKey.all items
  | _ => none

end Json

/-! ## TOML -/

namespace Toml

/-- Whether a part of a document is an empty table or array. -/
def isEmpty : Toml → Bool
  | .array items => items.isEmpty
  | .inline fields | .table _ fields => fields.isEmpty
  | _ => false

/-- The brace style of a table with one key, whose value says nothing. -/
def bracesOfFields? : Fields → Option BraceStyle
  | [(name, value)] => if value.isEmpty then BraceStyle.ofName? name else none
  | _ => none

def optionForm : ValueForm Toml where
  text?
    | .string s => some s
    | _ => none
  optionalText?
    | .string s => some (some s)
    | _ => none
  flag?
    | .boolean b => some b
    | _ => none
  count?
    | .integer i => if 0 ≤ i then some i.toNat else none
    | _ => none
  braces?
    | .string s => BraceStyle.ofName? s
    | .inline fields | .table _ fields => bracesOfFields? fields
    | _ => none

end Toml

namespace Options

def ofJsonText (text : String) : Except OptionsError Options :=
  match Json.Raw.parse? text >>= Json.Raw.toOptions? with
  | some options => .ok options
  | none => .error .json

def ofJson (value : Json) : Except OptionsError Options :=
  match value.toOptions? with
  | some options => .ok options
  | none => .error .json

def ofTomlText (text : String) : Except OptionsError Options :=
  match Toml.parse? text >>= Toml.optionForm.record? [] .defaults with
  | some options => .ok options
  | none => .error .toml

/-- The extension of a file name: what follows its last dot, unless that is its first
character. -/
def extension? (fileName : String) : Option String :=
  let cs := fileName.toList
  let tail := (cs.reverse.takeWhile (· != '.')).reverse
  if tail.length + 1 < cs.length then some (String.ofList tail) else none

/-- Reads options from a file, by its name. `none` is a file that cannot be read. -/
def ofFile (fileName : String) (content : Option String) : Except OptionsError Options :=
  match content with
  | none => .error .io
  | some text =>
    if extension? fileName == some "json" then ofJsonText text else ofTomlText text

end Options

end Scriptgen
