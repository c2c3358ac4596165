import Scriptgen.Perl.Print
import Scriptgen.Proofs.Guards
import Scriptgen.Proofs.Perl.Orderly
import Scriptgen.Proofs.Ruby.Orderly
import Scriptgen.Ruby.Print
/-!
# Blocks that a decided guard leaves

A branch with a decided guard becomes the statements of the block that is kept, in the scope around
it. A step that declares a name settles that it is declared there (`Settles`), since nothing that
follows takes a declaration back. So the variables of the kept block are taken for those of the same
name around the branch. Main result: `keptBlock_keepsApart_iff`.
-/

namespace Scriptgen.Lowering

variable {B C S α β : Type} {o : Order B S} {P : S → Prop}

/-- **A step settles a property of the state**, whatever it was before. -/
def Settles (o : Order B S) (P : S → Prop) (x : Steps B C S α) : Prop :=
  ∀ b, o.below b → ∀ c s, P (x b c s).2

/-- A property of the state stays whatever is changed. -/
class Order.Keeps (o : Order B S) (P : S → Prop) : Prop where
  keeps : ∀ {s t}, o.changes s t → P s → P t

/-- The same changes, over one level alone. -/
def Order.at (o : Order B S) (level : B) : Order B S := { o with below := (· = level) }

instance [hP : o.Keeps P] {level : B} : (o.at level).Keeps P := ⟨hP.keeps⟩

namespace Settles

variable {x : Steps B C S α} {k : α → Steps B C S β}

theorem after (hk : ∀ a, Settles o P (k a)) : Settles o P (x >>= k) := fun b hb c _ => hk _ b hb c _

variable [hP : o.Keeps P]

theorem before (hx : Settles o P x) (hk : ∀ a, OrderlyStep o (k a)) : Settles o P (x >>= k) :=
  fun b hb c s => hP.keeps (hk _ b hb c _) (hx b hb c s)

/-- One of the steps settles it, and the others only make changes that keep it. -/
theorem mapM {l : List α} {a : α} (hmem : a ∈ l) (ha : Settles o P (k a))
    (hk : ∀ a, OrderlyStep o (k a)) : Settles o P (l.mapM k) := by
  induction l with
  | nil => cases hmem
  | cons head l ih =>
    rw [List.mapM_cons]
    rcases List.mem_cons.1 hmem with rfl | hrest
    · exact before ha fun y => .bind (.mapM hk) fun ys => .pure _
    · exact after fun y => before (ih hrest) fun ys => .pure _

end Settles

end Scriptgen.Lowering

namespace Scriptgen

open Node Lowering

/-! ## Names of a block -/

/-- The name that an element of an array pattern declares. -/
def Node.elementName? (element : Node) : Option String :=
  if element.type == "RestElement" then element.child? "argument" >>= name? else element.name?

/-- A declarator gives a value to a variable. Functions and classes are no values here. -/
inductive DeclaresValue (declaration : Node) (x : String) : Prop
  | name {id : Node} :
      declaration.child? "id" = some id → id.type = "Identifier" → id.name? = some x →
      (∀ init, declaration.child? "init" = some init →
        init.unwrapped.type ≠ "ClassExpression" ∧ init.unwrapped.isFunctionLiteral = false) →
      DeclaresValue declaration x
  | element {id element : Node} :
      declaration.child? "id" = some id → id.type = "ArrayPattern" →
      some element ∈ id.childrenWithHoles "elements" → element.elementName? = some x →
      DeclaresValue declaration x
  | property {id property : Node} {key : String} {default : Option Node} :
      declaration.child? "id" = some id → id.type = "ObjectPattern" →
      property ∈ id.children "properties" → property.type ≠ "RestElement" →
      property.keyName? = some key → property.propertyBinding? key = some (x, default) →
      DeclaresValue declaration x

/-- **A name is a variable of a block**, declared by `let` or `const`. -/
def IsBlockVariable (stmts : List Node) (x : String) : Prop :=
  ∃ stmt ∈ stmts, stmt.type = "VariableDeclaration" ∧ stmt.text? "kind" ≠ some "var" ∧
    ∃ declaration ∈ stmt.children "declarations", DeclaresValue declaration x

def IsBlockClass (stmts : List Node) (x : String) : Prop :=
  ∃ stmt ∈ stmts, stmt.type = "ClassDeclaration" ∧ (stmt.child? "id" >>= name?) = some x

/-- **A variable of a block is kept apart from those around it**: at the end of the block its name
stands for another variable than before it, and after it for the same. -/
structure KeepsApart (around inside after : Scopes) (x : String) : Prop where
  own : inside.home x ≠ around.home x
  back : around.home x ≠ 0 → after.home x = around.home x

/-- **A variable of a block comes to the scope around it.** It is kept apart if there is no variable
of its name around the block, and no declaration that follows makes another one there. -/
structure Spills (around inside after : Scopes) (x : String) : Prop where
  home : after.home x = around.depth
  stays : ∀ later, after.Grows later → later.declaredHere x = true
  apart : KeepsApart around inside after x ↔ around.lookup? x = none

theorem spills_of_declaredHere {around after : Scopes} {x : String} (hgrows : around.Grows after)
    (hx : after.declaredHere x = true) : Spills around after after x where
  home := by rw [Scopes.home_of_declaredHere hx, hgrows.depth]
  stays _ hlater := hlater.declaredHere hx
  apart := by
    rw [← Scopes.home_eq_zero_iff]
    constructor
    · intro h
      by_contra hne
      exact h.own (h.back hne)
    · intro hnone
      have hhome := Scopes.home_of_declaredHere hx
      have hdepth : after.depth = after.inner.length + 1 := rfl
      exact ⟨by omega, fun hne => absurd hnone hne⟩

/-- **What becomes of the names of a block** whose statements are lowered from one state to another
and end up in a third. -/
structure Released (stmts : List Node) (around inside after : Scopes) (classes : List String) :
    Prop where
  names : ∀ x, IsBlockVariable stmts x → Spills around inside after x
  /-- A variable around the block hides its class, even within the block. -/
  classes : ∀ x, IsBlockClass stmts x →
    x ∈ classes ∧ (around.lookup? x ≠ none → inside.lookup? x ≠ none)

end Scriptgen

/-! ## Perl -/

namespace Scriptgen.Perl

open Lowering

variable {x : String} {node : Node}

theorem Changes.classes {s t : State} (h : Changes s t) : s.classes ⊆ t.classes := by
  induction h with
  | trans _ _ ih ih' => exact List.Subset.trans ih ih'
  | addClass s name => exact List.subset_cons_self _ _
  | inScope _ ih | inFrame _ ih | withFields _ _ ih | isolated _ ih | atPlace _ _ ih => exact ih
  | _ => exact List.Subset.refl _

/-- A name is declared in the innermost scope. -/
abbrev Has (x : String) (s : State) : Prop := s.scopes.declaredHere x = true

instance : order.Keeps (Has x) := ⟨fun h hs => Changes.grows h |>.declaredHere hs⟩

instance : order.Keeps (x ∈ ·.classes) := ⟨fun h hmem => Changes.classes h hmem⟩

theorem settles_declare (shape : Shape) : Settles order (Has x) (declare x shape) :=
  fun _ _ _ s => s.scopes.declaredHere_declare x shape

theorem settles_declareScalar : Settles order (Has x) (declareScalar x) :=
  .before (settles_declare _) fun _ => .pure _

theorem settles_declareAs (shape : Shape) : Settles order (Has x) (declareAs x shape false) :=
  .after fun _ => settles_declare shape

theorem settles_declareOne {init : Option Node}
    (hinit : ∀ node, init = some node → node.type ≠ "ClassExpression" ∧ node.isFunctionLiteral = false) :
    Settles order (Has x) (declareOne x init false) := by
  unfold declareOne
  cases init with
  | none => exact .before (settles_declareAs _) fun _ => by split <;> exact .pure _
  | some init =>
    obtain ⟨hclass, hfunction⟩ := hinit init rfl
    have hclass' : (init.type == "ClassExpression") = false := beq_eq_false_iff_ne.2 hclass
    simp only [hclass', hfunction]
    exact .before (settles_declareAs _) fun _ => by grind

theorem settles_patternTargets {element : Node} (hmem : some element ∈ node.childrenWithHoles "elements")
    (hname : element.elementName? = some x) : Settles order (Has x) (patternTargets node) := by
  unfold patternTargets
  refine .mapM hmem ?_ fun item => ?_
  · unfold Node.elementName? at hname
    dsimp only
    split at hname
    all_goals
      rename_i htype
      simp only [htype, hname, if_true]
      exact .before (settles_declare _) fun _ => .pure _
  · dsimp only
    split <;> grind

theorem settles_destructureObject {property : Node} {key : String} {default : Option Node}
    (source : Expr) (hmem : property ∈ node.children "properties")
    (hrest : property.type ≠ "RestElement") (hkey : property.keyName? = some key)
    (hname : property.propertyBinding? key = some (x, default)) :
    Settles order (Has x) (destructureObject node source) := by
  unfold destructureObject
  refine .before (.mapM hmem ?_ fun property => ?_) fun _ => .pure _
  · have hrest' : (property.type == "RestElement") = false := beq_eq_false_iff_ne.2 hrest
    simp only [hrest', hkey, hname, Bool.false_eq_true, if_false]
    have hdeclare (bound : Expr) : Settles order (Has x) (do
        declareScalar x
        return some (Stmt.my x .scalar (some bound))) :=
      .before settles_declareScalar fun _ => .pure _
    cases default with
    | none => exact hdeclare _
    | some default => exact .after fun _ => hdeclare _
  · split
    · grind
    · split
      · grind
      · split <;> grind

theorem settles_declarator {declaration : Node} (h : DeclaresValue declaration x) :
    Settles order (Has x) (declarator declaration false) := by
  unfold declarator
  cases h with
  | name hid htype hname hinit =>
    simp only [hid, htype, hname]
    refine settles_declareOne fun node hnode => ?_
    obtain ⟨init, hchild, rfl⟩ := Option.map_eq_some_iff.1 hnode
    exact hinit init hchild
  | element hid htype hmem hname =>
    simp only [hid, htype]
    have htargets (list : Expr) : Settles order (Has x) (do
        return [Stmt.unpack (← patternTargets _) list]) :=
      .before (settles_patternTargets hmem hname) fun _ => .pure _
    split
    · exact .after fun _ => htargets _
    · exact htargets _
  | property hid htype hmem hrest hkey hname =>
    simp only [hid, htype]
    exact .after fun _ => .after fun _ => .before
      (settles_destructureObject _ hmem hrest hkey hname) fun _ => .pure _

theorem settles_lowerClass (hname : (node.child? "id" >>= Node.name?) = some x) :
    Settles order (x ∈ ·.classes) (lowerClass node none) := by
  have hadd : Settles order (x ∈ ·.classes) (addClass x) := fun _ _ _ _ => List.mem_cons_self
  unfold lowerClass
  simp only [Option.none_or, hname]
  refine .before ?_ fun _ => .pure _
  unfold lowerClassNamed
  refine .before hadd fun _ => .bind ?_ fun _ => by grind
  refine Orderly.atPlace (fun _ _ h => { h with enclosingClass := rfl }) ?_
  exact .bind (by grind) fun members => .bind (by grind) fun new => .pure _

variable {nodes : List Node} {height : Nat}

/-- What one statement of a block settles, its whole block does. -/
theorem settled_of_stmts {P : State → Prop} [order.Keeps P] (hnode : node ∈ nodes) (hheight : node.height ≤ height)
    (hsettles : Settles order P (lowerStmt none node)) (c : Context) (s : State) :
    P (stmts nodes (level height) c s).2 := by
  obtain ⟨lower, rfl⟩ := Node.exists_lower hheight
  have hstmts : Settles (order.at (level (lower + 1))) P (nodes.mapM stmt) := by
    refine .mapM hnode ?_ fun other b hb => ?_
    · rintro b rfl c s
      rw [stmt_run]
      exact hsettles (level lower) (sound_level lower) c s
    · rw [hb]
      exact Orderly.of_makes (makes_stmt fun _ => fits_node other) _ (sound_level _)
  exact hstmts _ rfl c s

theorem released_of_stmts
    (hheight : ∀ stmt ∈ nodes, stmt.height ≤ height) (c : Context) (s : State) :
    Released nodes s.scopes (stmts nodes (level height) c s).2.scopes
      (stmts nodes (level height) c s).2.scopes (stmts nodes (level height) c s).2.classes := by
  have hgrows := (Orderly.of_makes (makes_stmts fun _ => fits_nodes nodes) _ (sound_level height) c
    s).grows
  constructor
  · rintro x ⟨stmt, hmem, htype, hkind, declaration, hdeclaration, hx⟩
    refine spills_of_declaredHere hgrows ?_
    refine settled_of_stmts (P := Has x) hmem (hheight stmt hmem) ?_ c s
    have hvar : (stmt.text? "kind" == some "var") = false := beq_eq_false_iff_ne.2 hkind
    unfold lowerStmt varDecl
    simp only [htype, hvar]
    exact .before (.mapM hdeclaration (settles_declarator hx) fun _ =>
      Orderly.of_makes (makes_declarator _ fun _ => fits_node _)) fun _ => .pure _
  · rintro x ⟨stmt, hmem, htype, hx⟩
    refine ⟨?_, hgrows.lookup?_ne_none⟩
    refine settled_of_stmts (P := (x ∈ ·.classes)) hmem (hheight stmt hmem) ?_ c s
    unfold lowerStmt
    simp only [htype]
    exact .before (settles_lowerClass hx) fun _ => .pure _

end Scriptgen.Perl

/-! ## Ruby -/

namespace Scriptgen.Ruby

open Lowering Fitting

variable {x : String} {node : Node} {α : Type}

/-- All that lowering does, wherever it is. -/
def order : Order Below State := ⟨Sound anywhere, Changes fun _ => True, .refl, .trans⟩

theorem orderly_of_yields [Fitting Place α] {x : Lower α} (h : Yields anywhere x) : OrderlyStep order x :=
  fun b hb c s => (h b hb c s).changes

theorem Changes.classes {learns : String → Prop} {s t : State} (h : Changes learns s t) :
    s.classes ⊆ t.classes := by
  induction h with
  | trans _ _ ih ih' => exact List.Subset.trans ih ih'
  | addClass s name => exact List.subset_cons_self _ _
  | inScope _ ih | inFrame _ _ _ ih | isolated _ ih => exact ih
  | _ => exact List.Subset.refl _

abbrev Has (x : String) (s : State) : Prop := s.scopes.declaredHere x = true

instance : order.Keeps (Has x) := ⟨fun h hs => Changes.grows h |>.declaredHere hs⟩

instance : order.Keeps (x ∈ ·.classes) := ⟨fun h hmem => Changes.classes h hmem⟩

theorem settles_declare (shape : Shape) : Settles order (Has x) (declare x shape) :=
  fun _ _ _ s => s.scopes.declaredHere_declare x shape

theorem settles_declareWith (shape : Shape) (value : Option Node) :
    Settles order (Has x) (declareWith x shape value) :=
  .before (settles_declare _) fun _ =>
    orderly_of_yields (by grind)

theorem settles_declareOne {init : Option Node}
    (hinit : ∀ node, init = some node → node.type ≠ "ClassExpression" ∧ node.isFunctionLiteral = false) :
    Settles order (Has x) (declareOne x init false) := by
  have hvalue : declareOne x init false = declareValue x init false := by
    cases init with
    | none => rfl
    | some init =>
      obtain ⟨hclass, hfunction⟩ := hinit init rfl
      have hclass' : (init.type == "ClassExpression") = false := beq_eq_false_iff_ne.2 hclass
      simp only [declareOne, hclass', hfunction]
      rfl
  rw [hvalue]
  unfold declareValue declareAs
  exact .before (.after fun _ => settles_declare _) fun _ =>
    orderly_of_yields (by grind)

theorem settles_patternTargets {element : Node} (hmem : some element ∈ node.childrenWithHoles "elements")
    (hname : element.elementName? = some x) : Settles order (Has x) (patternTargets true node) := by
  have htarget (target : Node) (shape : Shape) (hname : target.name? = some x) :
      Settles order (Has x) (patternTarget true (some target) shape) := by
    simp only [patternTarget, hname]
    exact .before (settles_declareWith _ _) fun _ => orderly_of_yields (by grind)
  unfold patternTargets
  refine .mapM hmem ?_ fun item => orderly_of_yields (by grind)
  unfold Node.elementName? at hname
  split at hname
  · rename_i htype
    obtain ⟨argument, hargument, hname⟩ := Option.bind_eq_some_iff.1 hname
    simp only [htype, hargument, if_true]
    exact .before (htarget argument .list hname) fun _ => .pure _
  · rename_i htype
    simp only [htype]
    exact htarget element .scalar hname

theorem settles_destructureObject {property : Node} {key : String} {default : Option Node}
    (source : Expr) (hmem : property ∈ node.children "properties")
    (hrest : property.type ≠ "RestElement") (hkey : property.keyName? = some key)
    (hname : property.propertyBinding? key = some (x, default)) :
    Settles order (Has x) (destructureObject node source) := by
  unfold destructureObject
  refine .before (.mapM hmem ?_ fun property =>
    orderly_of_yields ?_) fun _ => .pure _
  · have hrest' : (property.type == "RestElement") = false := beq_eq_false_iff_ne.2 hrest
    simp only [hrest', hkey, hname, Bool.false_eq_true, if_false]
    exact .after fun _ => .before (settles_declareWith _ _) fun _ =>
      orderly_of_yields (by grind)
  · split
    · grind
    · split
      · grind
      · split
        · grind
        · exact .bind (yields_propertyValue source _ (fits_option_anywhere _)) fun _ _ => by grind

theorem settles_declarator {declaration : Node} (h : DeclaresValue declaration x) :
    Settles order (Has x) (declarator declaration false) := by
  unfold declarator
  cases h with
  | name hid htype hname hinit =>
    simp only [hid, htype, hname]
    refine settles_declareOne fun node hnode => ?_
    obtain ⟨init, hchild, rfl⟩ := Option.map_eq_some_iff.1 hnode
    exact hinit init hchild
  | element hid htype hmem hname =>
    simp only [hid, htype]
    exact .after fun _ => .before (settles_patternTargets hmem hname) fun _ => .pure _
  | property hid htype hmem hrest hkey hname =>
    simp only [hid, htype]
    refine .after fun source => ?_
    split
    · exact settles_destructureObject _ hmem hrest hkey hname
    · exact .after fun _ => .before
        (settles_destructureObject _ hmem hrest hkey hname) fun _ => .pure _

theorem settles_lowerClass (hname : (node.child? "id" >>= Node.name?) = some x) :
    Settles order (x ∈ ·.classes) (lowerClass node none) := by
  have hadd : Settles order (x ∈ ·.classes) (addClass x) := fun _ _ _ _ => List.mem_cons_self
  unfold lowerClass
  simp only [Option.none_or, hname]
  refine .before ?_ fun _ => orderly_of_yields (by grind)
  unfold lowerClassNamed
  refine .before hadd fun _ =>
    orderly_of_yields (Yields.getBind (fun s => ?_) fun _ _ => rfl)
  refine .bind (Yields.within _ (.bind (.mapM (fits_classMembers (fits_anywhere node))
    fun member hmember => yields_classMember hmember) fun contributed hcontributed => ?_))
    fun parts _ => .pure trivial
  have hparts := fits_foldl_append hcontributed fits_emptyParts
  exact .bind (yields_constructorOf _ hparts) fun new _ => .pure ⟨hparts, fun _ _ => trivial⟩

variable {nodes : List Node} {height : Nat}

theorem settled_of_stmts {P : State → Prop} [order.Keeps P] (hnode : node ∈ nodes)
    (hheight : node.height ≤ height)
    (hsettles : Settles order P (lowerStmt none node)) (c : Context) (s : State) :
    P (stmts nodes (level height) c s).2 := by
  obtain ⟨lower, rfl⟩ := Node.exists_lower hheight
  have hstmts : Settles (order.at (level (lower + 1))) P (nodes.mapM stmt) := by
    refine .mapM hnode ?_ fun other b hb => ?_
    · rintro b rfl c s
      rw [stmt_run]
      exact hsettles (level lower) (sound_level lower) c s
    · rw [hb]
      exact orderly_of_yields (yields_stmt (fits_anywhere other)) _ (sound_level _)
  exact hstmts _ rfl c s

theorem released_of_stmts
    (hheight : ∀ stmt ∈ nodes, stmt.height ≤ height) (c : Context) (s : State) :
    Released nodes s.scopes (stmts nodes (level height) c s).2.scopes
      (stmts nodes (level height) c s).2.scopes (stmts nodes (level height) c s).2.classes := by
  have hyields : Yields anywhere (stmts nodes) := yields_stmts fun _ _ => trivial
  have hgrows := (hyields _ (sound_level height) c s).changes.grows
  constructor
  · rintro x ⟨stmt, hmem, htype, hkind, declaration, hdeclaration, hx⟩
    refine spills_of_declaredHere hgrows ?_
    refine settled_of_stmts (P := Has x) hmem (hheight stmt hmem) ?_ c s
    have hvar : (stmt.text? "kind" == some "var") = false := beq_eq_false_iff_ne.2 hkind
    unfold lowerStmt varDecl
    simp only [htype, hvar]
    exact .before (.mapM hdeclaration (settles_declarator hx) fun _ =>
      orderly_of_yields (by grind)) fun _ => .pure _
  · rintro x ⟨stmt, hmem, htype, hx⟩
    refine ⟨?_, hgrows.lookup?_ne_none⟩
    refine settled_of_stmts (P := (x ∈ ·.classes)) hmem (hheight stmt hmem) ?_ c s
    unfold lowerStmt
    simp only [htype]
    exact .before (settles_lowerClass hx) fun _ => .pure _

end Scriptgen.Ruby

/-! ## Kept blocks -/

namespace Scriptgen

open Lowering

section

variable {node guard : Node} {decided : Bool} {height : Nat} {x : String} {stmts : List Node}

/-- **The names of a kept block belong to the scope around the branch.** They are kept apart from the
variables there exactly if there are none of their name. -/
theorem keptBlock_keepsApart_iff (htest : node.child? "test" = some guard)
    (hguard : evaluateGuard guard = some decided) (hheight : node.height ≤ height + 1) :
    (∀ c s, Released (node.statementsIn (keptField decided)) s.scopes
      (Perl.stmts (node.statementsIn (keptField decided)) (Perl.level height) c s).2.scopes
      (Perl.ifStmt node (Perl.level height) c s).2.scopes
      (Perl.ifStmt node (Perl.level height) c s).2.classes) ∧
    ∀ c s, Released (node.statementsIn (keptField decided)) s.scopes
      (Ruby.stmts (node.statementsIn (keptField decided)) (Ruby.level height) c s).2.scopes
      (Ruby.ifStmt node (Ruby.level height) c s).2.scopes
      (Ruby.ifStmt node (Ruby.level height) c s).2.classes := by
  have hcollapses := collapses_of_evaluateGuard hguard
  have hstmts : ∀ stmt ∈ node.statementsIn (keptField decided), stmt.height ≤ height := by
    intro stmt hstmt
    have := Node.height_of_mem_statementsIn hstmt
    omega
  refine ⟨fun c s => ?_, fun c s => ?_⟩
  · rw [hcollapses.perlIf _ c s htest]
    exact Perl.released_of_stmts hstmts c s
  · rw [hcollapses.rubyIf _ c s htest]
    exact Ruby.released_of_stmts hstmts c s

end

open Jumps (nameNode blockNode ifNode)

/-- The declarator `x = value`, for a truth value. -/
def flagDeclarator (x : String) (value : Bool) : Node :=
  .of "VariableDeclarator" [("id", (nameNode x).toJson),
    ("init", .node "Literal" [("value", .bool value)])]

/-- The statement `let x = value;`. -/
def letFlag (x : String) (value : Bool) : Node :=
  .of "VariableDeclaration" [("kind", .string "let"),
    ("declarations", .array [(flagDeclarator x value).toJson])]

/-- The statement `if (OpCodes) { let x = false; }`. -/
def keptBranch : Node := ifNode (nameNode "OpCodes") (blockNode [letFlag "x" false])

theorem evaluateGuard_opCodes : evaluateGuard (nameNode "OpCodes") = some true := by
  have hself : (nameNode "OpCodes").unwrapped = nameNode "OpCodes" := Node.unwrapped_of_wrapped? rfl
  rw [evaluateGuard, hself]
  rfl

theorem isBlockVariable_keptBranch : IsBlockVariable (keptBranch.statementsIn (keptField true)) "x" := by
  refine ⟨letFlag "x" false, List.mem_singleton_self _, rfl, by decide,
    flagDeclarator "x" false, List.mem_singleton_self _, .name rfl rfl rfl fun init hinit => ?_⟩
  cases hinit
  have hself : Node.unwrapped (.of "Literal" [("value", .bool false)]) =
      .of "Literal" [("value", .bool false)] := Node.unwrapped_of_wrapped? rfl
  rw [Node.isFunctionLiteral, hself, hself]
  decide

theorem keptBlock_keepsApart_iff_keptBranch :
    keptBranch.child? "test" = some (nameNode "OpCodes") ∧
      evaluateGuard (nameNode "OpCodes") = some true ∧ keptBranch.height ≤ 9 ∧
      (∀ c s, Spills s.scopes
        (Perl.stmts (keptBranch.statementsIn "consequent") (Perl.level 8) c s).2.scopes
        (Perl.ifStmt keptBranch (Perl.level 8) c s).2.scopes "x") ∧
      ∀ c s, Spills s.scopes
        (Ruby.stmts (keptBranch.statementsIn "consequent") (Ruby.level 8) c s).2.scopes
        (Ruby.ifStmt keptBranch (Ruby.level 8) c s).2.scopes "x" := by
  have htest : keptBranch.child? "test" = some (nameNode "OpCodes") := rfl
  have hheight : keptBranch.height ≤ 9 := by decide
  obtain ⟨hperl, hruby⟩ := keptBlock_keepsApart_iff htest evaluateGuard_opCodes hheight
  exact ⟨htest, evaluateGuard_opCodes, hheight, fun c s => (hperl c s).names "x" isBlockVariable_keptBranch,
    fun c s => (hruby c s).names "x" isBlockVariable_keptBranch⟩

/-- The program `let x = true; if (OpCodes) { let x = false; }`. -/
def keptProgram : Node :=
  .of "Program" [("body", .array [(letFlag "x" true).toJson, keptBranch.toJson])]

/-- Both declarations of the program are taken for the same variable. -/
theorem keptProgram_sets_outer :
    IsBlockVariable (keptBranch.statementsIn (keptField true)) "x" ∧
      (Perl.generate .defaults keptProgram).1.print (.ofOptions .defaults "    ") =
        "use strict;\nuse warnings;\n\nmy $x = 1;\n$x = 0;\n" ∧
      (Ruby.generate .defaults keptProgram).1.print (.ofOptions .defaults "  ") =
        "# frozen_string_literal: true\n\nx = true\nx = false\n" :=
  ⟨isBlockVariable_keptBranch, by decide +kernel, by decide +kernel⟩

end Scriptgen
