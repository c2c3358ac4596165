import Scriptgen.Proofs.Perl.TwinPrograms
/-!
# What Perl files import

Lowering asks for a module wherever it uses something of it, and the file loads at its start what
has been asked for by the end, so that everything that its code uses is there (`constructs_met`). A
function that is imported is only known in the package that is current at its `use`: that of the
file, and not that of a class (`block_visible_iff`).
-/

namespace Scriptgen

open List

theorem mem_insertSorted (text : String) (l : List String) : text ∈ insertSorted text l := by
  fun_induction insertSorted text l with
  | case1 | case2 => exact mem_cons_self
  | case3 first rest _ heq =>
    rw [beq_iff_eq.1 heq]
    exact mem_cons_self
  | case4 first rest _ _ ih => exact mem_cons_of_mem first ih

variable {library module : String} {imports : Imports} {symbol : String}

namespace Imports

theorem mem_alter (f : List String → List String) (module : String)
    (entries : List (String × List String)) :
    ∃ symbols, (module, f symbols) ∈ alter f module entries := by
  fun_induction alter f module entries with
  | case1 => exact ⟨[], mem_cons_self⟩
  | case2 => exact ⟨[], mem_cons_self⟩
  | case3 name symbols rest _ heq =>
    rw [beq_iff_eq.1 heq]
    exact ⟨symbols, mem_cons_self⟩
  | case4 name symbols rest _ _ ih =>
    obtain ⟨more, hmore⟩ := ih
    exact ⟨more, mem_cons_of_mem _ hmore⟩

variable {final : Imports}

theorem Grows.mem_modules (h : Grows (imports.require module) final) : module ∈ final.modules := by
  obtain ⟨symbols, hentry⟩ := mem_alter id module imports.entries
  obtain ⟨more, hmore, -⟩ := h module symbols hentry
  exact mem_map.2 ⟨_, hmore, rfl⟩

theorem Grows.mem_symbols (h : Grows (imports.useSymbol module symbol) final) :
    ∃ symbols, (module, symbols) ∈ final.entries ∧ symbol ∈ symbols := by
  obtain ⟨symbols, hentry⟩ := mem_alter (insertSorted symbol) module imports.entries
  obtain ⟨more, hmore, hsub⟩ := h module _ hentry
  exact ⟨more, hmore, hsub (mem_insertSorted symbol symbols)⟩

end Imports

/-! ## Names in a program -/

mutual

/-- The names of the identifiers in a value. -/
def Json.names : Json → List String
  | .array items => namesItems items
  | .object fields => (Node.mk fields).name?.toList ++ namesFields fields
  | _ => []

def namesItems : List Json → List String
  | [] => []
  | item :: rest => item.names ++ namesItems rest

def namesFields : List (String × Json) → List String
  | [] => []
  | (_, value) :: rest => value.names ++ namesFields rest

end

variable {value : Json}

namespace Node

variable {node part : Node} {key name : String}

theorem names_subset_of_lookup {fields : List (String × Json)}
    (h : fields.lookup key = some value) : value.names ⊆ namesFields fields := by
  induction fields with
  | nil => cases h
  | cons field rest ih =>
    obtain ⟨other, found⟩ := field
    rw [lookup_cons] at h
    split at h
    · cases h
      exact subset_append_left _ _
    · exact subset_append_of_subset_right _ (ih h)

theorem names_subset_of_mem {items : List Json} {item : Json} (h : item ∈ items) :
    item.names ⊆ namesItems items := by
  induction h with
  | head => exact subset_append_left _ _
  | tail _ _ ih => exact subset_append_of_subset_right _ ih

theorem names_subset_of_get? (h : node.get? key = some value) : value.names ⊆ node.toJson.names :=
  subset_append_of_subset_right _ (names_subset_of_lookup h)

theorem toJson_of_ofJson? (h : ofJson? value = some part) : part.toJson = value := by
  cases value <;> cases h
  rfl

theorem names_subset_of_child? (h : node.child? key = some part) :
    part.toJson.names ⊆ node.toJson.names := by
  obtain ⟨value, hvalue, hpart⟩ := Option.bind_eq_some_iff.1 h
  rw [toJson_of_ofJson? hpart]
  exact names_subset_of_get? hvalue

theorem names_subset_of_mem_children (h : part ∈ node.children key) :
    part.toJson.names ⊆ node.toJson.names := by
  obtain ⟨item, hitem, hpart⟩ := mem_filterMap.1 h
  rw [toJson_of_ofJson? hpart]
  unfold items at hitem
  cases harray : node.get? key >>= Json.asArray? with
  | none =>
    rw [harray] at hitem
    cases hitem
  | some all =>
    rw [harray] at hitem
    obtain ⟨value, hvalue, hall⟩ := Option.bind_eq_some_iff.1 harray
    have hsub := names_subset_of_get? hvalue
    cases value <;> simp_all only [Json.asArray?, Option.some.injEq, reduceCtorEq]
    exact List.Subset.trans (names_subset_of_mem hitem) hsub

theorem mem_names (h : node.name? = some name) : name ∈ node.toJson.names :=
  mem_append_left _ (by simp [h])

def NamesUnqualified (program : Node) : Prop :=
  ∀ name ∈ program.toJson.names, ¬ "::".toList <:+: name.toList

instance : DecidablePred NamesUnqualified := fun program =>
  inferInstanceAs (Decidable (∀ name ∈ program.toJson.names, ¬ "::".toList <:+: name.toList))

end Node

namespace Perl

open Lowering Fitting

/-! ## What a file provides -/

/-- The functions of a block and a list that are not built in. -/
def importedOps : List BlockListOp := [.first, .any, .all]

def Module.Loads (module : Module) (library : String) : Prop :=
  ∃ use ∈ module.uses, use.module = library ∧ use.off = false

def Module.Takes (module : Module) (library symbol : String) : Prop :=
  ∃ use ∈ module.uses, use.module = library ∧ use.off = false ∧ use.qualified = false ∧
    symbol ∈ use.imports

/-- A function is known in a package because the file imports it: its `use`s stand in the package of
the file. -/
def Module.Imports (module : Module) (package symbol : String) : Prop :=
  package = module.package ∧ ∃ library, module.Takes library symbol

/-- A name is that of a function of a module, with the name of the module before it. -/
def Qualified (library name : String) : Prop :=
  ∃ function : String, ':' ∉ function.toList ∧ name = library ++ "::" ++ function

/-- What a construct asks of a file that depends on these modules. Objects of a class are not asked
for, as a program may name any class. -/
def Construct.Met (module : Module) (dependencies : List String) : Construct → Prop
  | .call name => ∀ library ∈ libraries, Qualified library name →
      module.Loads library ∧ library ∈ dependencies
  | .callClass className => className = "JSON::PP" →
      module.Loads className ∧ className ∈ dependencies
  | .new _ => True
  | .block op => op ∈ importedOps →
      module.Takes "List::Util" op.name ∧ "List::Util" ∈ dependencies
  | .nativeTry => .withImports "feature" ["try"] ∈ module.pragmas

/-- A call by a name. -/
def Construct.IsNamed : Construct → Prop
  | .call _ | .callClass _ => True
  | _ => False

variable {options : Options} {program : Node}

theorem loads_of_mem_modules (h : library ∈ (lowerProgram options program).2.imports.modules) :
    (generate options program).1.Loads library := by
  obtain ⟨⟨name, symbols⟩, hentry, rfl⟩ := mem_map.1 h
  refine ⟨useOf name symbols, mem_map.2 ⟨_, hentry, rfl⟩, ?_⟩
  unfold useOf
  split <;> exact ⟨rfl, rfl⟩

theorem takes_of_mem_symbols {symbols : List String}
    (hentry : (library, symbols) ∈ (lowerProgram options program).2.imports.entries)
    (hsymbol : symbol ∈ symbols) : (generate options program).1.Takes library symbol := by
  refine ⟨useOf library symbols, mem_map.2 ⟨_, hentry, rfl⟩, ?_⟩
  have hsome : symbols.isEmpty = false := by
    cases symbols with
    | nil => cases hsymbol
    | cons => rfl
  rw [useOf, if_neg (by simp [hsome])]
  exact ⟨rfl, rfl, rfl, hsymbol⟩

/-! ## Qualified names -/

theorem toList_qualified (library name : String) :
    (library ++ "::" ++ name).toList = library.toList ++ ':' :: ':' :: name.toList := by
  simp

variable {name : String}

theorem not_qualified (h : ¬ "::".toList <:+: name.toList) : ¬ Qualified library name := by
  rintro ⟨function, -, rfl⟩
  refine h ⟨library.toList, function.toList, ?_⟩
  rw [toList_qualified]
  simp

/-- A name without `::` after that of a module is a function of this module only. -/
theorem eq_of_qualified (hlibrary : library ∈ libraries)
    (hname : ¬ "::".toList <:+: name.toList) (h : Qualified library (module ++ "::" ++ name)) :
    module = library := by
  obtain ⟨function, hfunction, heq⟩ := h
  have hchars := congrArg String.toList heq
  rw [toList_qualified, toList_qualified] at hchars
  have hcolonless : ∀ library ∈ libraries, library.toList.getLast? ≠ some ':' := by decide
  rcases append_eq_append_iff.1 hchars with
    ⟨between, hlonger, hrest⟩ | ⟨between, hlonger, hrest⟩
  · -- Two colons between are in the name, and one is at the end of the library.
    rcases between with _ | ⟨c, _ | ⟨d, between⟩⟩
    · exact (String.toList_inj.1 (by simpa using hlonger)).symm
    · obtain rfl : ':' = c := (cons.inj hrest).1
      exact absurd (by simp [hlonger]) (hcolonless library hlibrary)
    · exact absurd ⟨between, function.toList, by simp_all⟩ hname
  · cases between with
    | nil => exact String.toList_inj.1 (by simpa using hlonger)
    | cons c between =>
      obtain rfl : ':' = c := (cons.inj hrest).1
      have hcount := congrArg (count ':') hrest
      simp [count_eq_zero.2 hfunction] at hcount
      omega

theorem eq_of_qualified_library (hlibrary : library ∈ libraries)
    (hmodule : module ∈ libraries) (h : Qualified library (module ++ "::" ++ name)) :
    module = library := by
  obtain ⟨function, -, heq⟩ := h
  have hpre : (module ++ "::").toList <+: (library ++ "::" ++ function).toList :=
    ⟨name.toList, by rw [← String.toList_append, heq]⟩
  have hpre' : (library ++ "::").toList <+: (library ++ "::" ++ function).toList :=
    ⟨function.toList, by rw [← String.toList_append]⟩
  have hdistinct : ∀ module ∈ libraries, ∀ library ∈ libraries,
      (module ++ "::").toList <+: (library ++ "::").toList → module = library := by decide
  rcases prefix_or_prefix_of_prefix hpre hpre' with hle | hle
  · exact hdistinct module hmodule library hlibrary hle
  · exact (hdistinct library hlibrary module hmodule hle).symm

/-! ## What is asked for -/

/-- Everything that the code uses has been asked for by the end. If no name is qualified, the modules
of all functions have. -/
def importing (final : State) (unqualified : Prop) : Policy where
  types := true
  warnings := true
  node n := unqualified → n.NamesUnqualified
  choices options := unqualified → ∀ name, options.moduleName = some name → name ∉ libraries
  before imports native := imports.Grows final.imports ∧ (native = true → final.nativeTry = true)
  allows
    | .call name => unqualified → ∀ library ∈ libraries, Qualified library name →
        library ∈ final.imports.modules
    | .callClass className => unqualified → className = "JSON::PP" →
        className ∈ final.imports.modules
    | .new _ => True
    | .block op => op ∈ importedOps →
        ∃ symbols, ("List::Util", symbols) ∈ final.imports.entries ∧ op.name ∈ symbols
    | .nativeTry => final.nativeTry = true

section Importing

variable {final : State} {unqualified : Prop}

instance : (importing final unqualified).Vocal := ⟨rfl⟩

instance : (importing final unqualified).Free := ⟨rfl⟩

theorem importing_asks (h : (importing final unqualified).asks module) :
    module ∈ final.imports.modules := by
  obtain ⟨imports, native, hgrows, -⟩ := h
  exact hgrows.mem_modules

theorem qualify_unqualified {c : Context} {place : Place}
    (hmodule : ∀ name, c.options.moduleName = some name → name ∉ libraries)
    (hname : ¬ "::".toList <:+: name.toList) (hlibrary : library ∈ libraries) :
    ¬ Qualified library (c.qualify place name) := by
  unfold Context.qualify
  split
  · intro hqualified
    have heq := eq_of_qualified hlibrary hname hqualified
    cases hoption : c.options.moduleName with
    | none =>
      rw [hoption] at heq
      subst heq
      exact absurd hlibrary (by decide)
    | some module =>
      rw [hoption] at heq
      cases heq
      exact hmodule _ hoption hlibrary
  · exact not_qualified hname

instance importing_lawful : (importing final unqualified).Lawful where
  child hnode hchild hu name hname := hnode hu name (Node.names_subset_of_child? hchild hname)
  item hnode hitem hu name hname := hnode hu name (Node.names_subset_of_mem_children hitem hname)
  require h := ⟨(Imports.grows_alter (fun l => List.Subset.refl l) _ _).trans h.1, h.2⟩
  useSymbol h := ⟨(Imports.grows_alter (subset_insertSorted _) _ _).trans h.1, h.2⟩
  useTry h := ⟨h.1, fun _ => h.2 rfl⟩
  own := by
    intro name hown hu library hlibrary hqualified
    have hplain : ∀ name ∈ ownFunctions, ':' ∉ name.toList := by decide
    obtain ⟨function, -, rfl⟩ := hqualified
    exact absurd (by rw [toList_qualified]; simp) (hplain _ hown)
  named hnode hname hu library _ hqualified :=
    absurd hqualified (not_qualified (hnode hu _ (Node.mem_names hname)))
  namedClass := by
    intro n name hnode hname hu heq
    exact absurd (heq ▸ by decide) (hnode hu _ (Node.mem_names hname))
  qualified hnode hname hoptions hu library hlibrary hqualified :=
    absurd hqualified (qualify_unqualified (hoptions hu) (hnode hu _ (Node.mem_names hname)) hlibrary)
  asked hmodule hasks hu library hlibrary hqualified :=
    eq_of_qualified_library hlibrary hmodule hqualified ▸ importing_asks hasks
  askedClass hasks _ _ := importing_asks hasks
  askedFor h _ := by
    obtain ⟨imports, native, hgrows, -⟩ := h
    exact hgrows.mem_symbols
  listOp hop himported := by
    have hbuiltin : ∀ op ∈ [BlockListOp.map, .grep, .sort], op ∉ importedOps := by decide
    exact absurd himported (hbuiltin _ hop)
  new _ := trivial
  nativeTry h := by
    obtain ⟨imports, -, hnative⟩ := h
    exact hnative rfl

end Importing

/-- **Everything that the code of a program uses has been asked for by the end.** -/
theorem importing_constructs (unqualified : Prop) (hnames : unqualified → program.NamesUnqualified)
    (hmodule : unqualified → ∀ name, options.moduleName = some name → name ∉ libraries)
    {package : String} {construct : Construct}
    (hused : (package, construct) ∈ (generate options program).1.constructs) :
    (importing (lowerProgram options program).2 unqualified).allows construct := by
  have hallowed := lowerProgram_allowed (importing (lowerProgram options program).2 unqualified)
    ⟨Imports.Grows.refl _, id⟩ hmodule hnames
  exact ((fits_stmts _).2 hallowed).1 _ _ hused

/-! ## What is imported -/

/-- **Import completeness.** Everything that the code of a file uses is loaded by the file, and is
reported. What it calls by name is if no name of the program is qualified and the file is not named
like a library. -/
theorem constructs_met {package : String} {construct : Construct}
    (hused : (package, construct) ∈ (generate options program).1.constructs)
    (hnamed : construct.IsNamed → program.NamesUnqualified ∧
      ∀ name, options.moduleName = some name → name ∉ libraries) :
    construct.Met (generate options program).1 (generate options program).2.imports.modules := by
  have hallows := importing_constructs _ (hnamed · |>.1) (hnamed · |>.2) hused
  cases construct with
  | call name =>
    intro library hlibrary hqualified
    have hmem := hallows trivial library hlibrary hqualified
    exact ⟨loads_of_mem_modules hmem, hmem⟩
  | callClass className =>
    intro hclass
    have hmem := hallows trivial hclass
    exact ⟨loads_of_mem_modules hmem, hmem⟩
  | new className => trivial
  | block op =>
    intro hop
    obtain ⟨symbols, hentry, hsymbol⟩ := hallows hop
    exact ⟨takes_of_mem_symbols hentry hsymbol, mem_map.2 ⟨_, hentry, rfl⟩⟩
  | nativeTry =>
    have hnative : (lowerProgram options program).2.nativeTry = true := hallows
    change _ ∈ pragmas options (lowerProgram options program).2.nativeTry
    rw [hnative]
    exact mem_append_right _ mem_cons_self

/-! The programs that show how far this goes, in the form in which programs are given. -/

def nameOf (name : String) : Json := .node "Identifier" [("name", .string name)]

def memberOf (object : Json) (name : String) : Json :=
  .node "MemberExpression" [("object", object), ("property", nameOf name)]

def callOf (callee : Json) (args : List Json) : Json :=
  .node "CallExpression" [("callee", callee), ("arguments", .array args)]

def exprStmtOf (expression : Json) : Json := .node "ExpressionStatement" [("expression", expression)]

def blockOf (body : List Json) : Json := .node "BlockStatement" [("body", .array body)]

def returnOf (value : Json) : Json := .node "ReturnStatement" [("argument", value)]

/-- A function, or a method, without a name of its own. -/
def functionOf (params : List String) (body : List Json) : Json :=
  .node "FunctionExpression" [("params", .array (params.map nameOf)), ("body", blockOf body)]

def classOf (name method : String) (function : Json) : Json :=
  .node "ClassDeclaration" [("id", nameOf name),
    ("body", .node "ClassBody" [("body", .array [.node "MethodDefinition"
      [("kind", .string "method"), ("key", nameOf method), ("value", function)]])])]

def programOf (body : List Json) : Node := .of "Program" [("body", .array body)]

/-- `class A { has(xs, x) { return xs.includes(Math.floor(x)); } }` -/
def searchingClass : Node :=
  programOf [classOf "A" "has" (functionOf ["xs", "x"]
    [returnOf (callOf (memberOf (nameOf "xs") "includes")
      [callOf (memberOf (nameOf "Math") "floor") [nameOf "x"]])])]

theorem constructs_met_searchingClass :
    searchingClass.NamesUnqualified ∧
      (generate .defaults searchingClass).1.constructs =
        [("A", .call "POSIX::floor"), ("A", .block .any)] ∧
      ∀ use ∈ (generate .defaults searchingClass).1.constructs,
        use.2.Met (generate .defaults searchingClass).1
          (generate .defaults searchingClass).2.imports.modules := by
  have hnames : searchingClass.NamesUnqualified := by decide +kernel
  have hconstructs : (generate .defaults searchingClass).1.constructs =
      [("A", .call "POSIX::floor"), ("A", .block .any)] := by decide +kernel
  exact ⟨hnames, hconstructs, fun _ hused => constructs_met hused fun _ => ⟨hnames, nofun⟩⟩

/-- The options of a file with a name. -/
def named (name : String) : Options := { Options.defaults with moduleName := some name }

/-- `function abs(x) { return x; } abs(y);` -/
def ownAbs : Node :=
  programOf [.node "FunctionDeclaration" [("id", nameOf "abs"), ("params", .array [nameOf "x"]),
      ("body", blockOf [returnOf (nameOf "x")])],
    exprStmtOf (callOf (nameOf "abs") [nameOf "y"])]

/-- `new JSON.PP();` -/
def namedClass : Node :=
  programOf [exprStmtOf (.node "NewExpression"
    [("callee", memberOf (nameOf "JSON") "PP"), ("arguments", .array [])])]

/-- In a file that is named like a library the functions of the program have the names of functions of
the library, which is not loaded. Neither is a class of which the program makes objects. -/
theorem uses_without_imports :
    (ownAbs.NamesUnqualified ∧
      ¬ ∀ use ∈ (generate (named "POSIX") ownAbs).1.constructs,
        use.2.Met (generate (named "POSIX") ownAbs).1
          (generate (named "POSIX") ownAbs).2.imports.modules) ∧
    (namedClass.NamesUnqualified ∧
      ("main", .new "JSON::PP") ∈ (generate .defaults namedClass).1.constructs ∧
      ¬ (generate .defaults namedClass).1.Loads "JSON::PP") := by
  refine ⟨⟨by decide +kernel, fun hmet => ?_⟩, by decide +kernel, by decide +kernel, ?_⟩
  · have hused : ("POSIX", Construct.call "POSIX::abs") ∈
        (generate (named "POSIX") ownAbs).1.constructs := by
      decide +kernel
    have hnone : (generate (named "POSIX") ownAbs).1.uses = [] := by
      decide +kernel
    obtain ⟨⟨use, huse, -⟩, -⟩ := hmet _ hused "POSIX" (by decide) ⟨"abs", by decide, by decide⟩
    rw [hnone] at huse
    cases huse
  · have hnone : (generate .defaults namedClass).1.uses = [] := by decide +kernel
    rintro ⟨use, huse, -⟩
    rw [hnone] at huse
    cases huse

/-! ## Where imports are visible -/

/-- **Imported functions are visible in the package of the file**, and in no other one: a block with
`first`, `any` or `all` has its function exactly if it is not in a class with another name. -/
theorem block_visible_iff {package : String} {op : BlockListOp}
    (hused : (package, .block op) ∈ (generate options program).1.constructs)
    (hop : op ∈ importedOps) :
    (generate options program).1.Imports package op.name ↔
      package = (generate options program).1.package := by
  constructor
  · intro himports
    exact himports.1
  · intro hpackage
    obtain ⟨symbols, hentry, hsymbol⟩ :=
      importing_constructs False False.elim False.elim hused hop
    exact ⟨hpackage, "List::Util", takes_of_mem_symbols hentry hsymbol⟩

theorem searchingClass_visible :
    ("A", .block .any) ∈
        (generate (named "A") searchingClass).1.constructs ∧
      (generate (named "A") searchingClass).1.Imports "A" "any" := by
  have hused : ("A", .block .any) ∈
      (generate (named "A") searchingClass).1.constructs := by
    decide +kernel
  exact ⟨hused, (block_visible_iff hused (by decide)).2 (by decide +kernel)⟩

/-- A class that searches a list calls a function that its package does not have. -/
theorem searchingClass_without_import :
    ("A", .block .any) ∈ (generate .defaults searchingClass).1.constructs ∧
      ¬ (generate .defaults searchingClass).1.Imports "A" "any" := by
  have hpackage : "A" ≠ (generate .defaults searchingClass).1.package := by decide +kernel
  exact ⟨by decide +kernel, fun himports => hpackage himports.1⟩

end Perl

end Scriptgen
