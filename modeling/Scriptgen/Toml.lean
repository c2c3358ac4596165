/-!
# TOML documents

The tree of a TOML document and the rules by which headers and dotted keys build it. A table
that exists only because a longer header or key mentions it can still be given a header, or be
extended in the way in which it came to be; all other tables are closed.
-/

namespace Scriptgen

/-- How a table came to be. -/
inductive Toml.Origin where
  /-- By its own header. -/
  | header
  /-- As a part of a longer header. -/
  | implied
  /-- As a part of a dotted key. -/
  | dotted
deriving DecidableEq, Repr

/-- A part of a TOML document. Of floating point numbers and of dates only the kind is kept. -/
inductive Toml where
  | string (s : String)
  | integer (i : Int)
  | float
  | boolean (b : Bool)
  | moment
  | array (items : List Toml)
  /-- A table written in braces, which is complete. -/
  | inline (fields : List (String × Toml))
  | table (origin : Toml.Origin) (fields : List (String × Toml))
  /-- The tables of an array of tables, the last one first. -/
  | tables (last : List (String × Toml)) (earlier : List (List (String × Toml)))

namespace Toml

abbrev Fields := List (String × Toml)

def setField (key : String) (value : Toml) : Fields → Fields
  | [] => [(key, value)]
  | (k, v) :: rest => if k == key then (k, value) :: rest else (k, v) :: setField key value rest

def addField? (key : String) (value : Toml) (fields : Fields) : Option Fields :=
  if (fields.lookup key).isSome then none else some (fields ++ [(key, value)])

/-! ## Keys with values -/

/-- Adds a value under a dotted key. The tables on the way may not have a header of their own,
and the last one must have come from a dotted key. -/
def insert? (key : String) (value : Toml) : List String → Fields → Option Fields
  | [], fields => addField? key value fields
  | step :: path, fields =>
    match fields.lookup step with
    | none => (insert? key value path []).map fun inner => fields ++ [(step, .table .dotted inner)]
    | some (.table origin inner) =>
      if origin == .header || (path.isEmpty && origin == .implied) then none
      else
        (insert? key value path inner).map fun inner => setField step (.table origin inner) fields
    | some (.tables last earlier) =>
      if path.isEmpty then none
      else (insert? key value path last).map fun last => setField step (.tables last earlier) fields
    | some _ => none

/-- Adds keys with their values to a table, in order. -/
def insertAll? (fields : Fields) (entries : List (List String × String × Toml)) : Option Fields :=
  entries.foldlM (fun fields (path, key, value) => insert? key value path fields) fields

/-! ## Headers -/

/-- Changes the table that the beginning of a header leads to. -/
def modifyAt? (change : Fields → Option Fields) : List String → Fields → Option Fields
  | [], fields => change fields
  | step :: path, fields =>
    match fields.lookup step with
    | none => (modifyAt? change path []).map fun inner => fields ++ [(step, .table .implied inner)]
    | some (.table origin inner) =>
      (modifyAt? change path inner).map fun inner => setField step (.table origin inner) fields
    | some (.tables last earlier) =>
      (modifyAt? change path last).map fun last => setField step (.tables last earlier) fields
    | some _ => none

/-- A header with the keys below it. -/
structure Section where
  /-- The header without its last key. -/
  path : List String
  /-- The last key of the header. -/
  key : String
  /-- Whether the header adds a table to an array. -/
  isArray : Bool
  entries : List (List String × String × Toml)

/-- Adds the table of a header to the table that holds it. -/
def Section.enter? (part : Section) (fields : Fields) : Option Fields :=
  if part.isArray then do
    let table ← insertAll? [] part.entries
    match fields.lookup part.key with
    | none => some (fields ++ [(part.key, .tables table [])])
    | some (.tables last earlier) =>
      some (setField part.key (.tables table (last :: earlier)) fields)
    | some _ => none
  else
    match fields.lookup part.key with
    | none => do
      let table ← insertAll? [] part.entries
      some (fields ++ [(part.key, .table .header table)])
    | some (.table .implied inner) => do
      let table ← insertAll? inner part.entries
      some (setField part.key (.table .header table) fields)
    | some _ => none

/-- The root table of a document with these keys before the first header and these sections. -/
def assemble? (entries : List (List String × String × Toml)) (sections : List Section) :
    Option Fields := do
  let root ← insertAll? [] entries
  sections.foldlM (fun fields part => modifyAt? part.enter? part.path fields) root

end Toml

end Scriptgen
