import Scriptgen.Proofs.Blanks.Text
import Scriptgen.Ruby.Print
/-!
# The layout of Ruby programs

A block is written on one line if its text has no line feed, so the printer looks at what it has
printed. Under two layouts of blanks the texts of an expression agree in their ink and in whether
they have a line feed (`look`). Both layouts then choose the same form for each block.
-/

namespace Scriptgen

open Text BlankLayout List

/-- A blank layout whose lines end with a line feed, whatever else. -/
structure LinedLayout extends BlankLayout where
  breaks : '\n' ∈ lineEnding.toList

instance : Coe LinedLayout Layout := ⟨fun layout => layout.toLayout⟩

variable {body' body : String} {bars' head' bars head : String}

namespace Ruby

/-- What a text is without its blanks, and whether it has a line feed. -/
structure Look where
  ink : List Char
  broken : Bool

/-- The look of two texts next to each other. -/
def Look.append (a b : Look) : Look := ⟨a.ink ++ b.ink, a.broken || b.broken⟩

def look (text : String) : Look := ⟨ink text, text.contains '\n'⟩

theorem look_append (a b : String) : look (a ++ b) = (look a).append (look b) := by
  simp only [look, Look.append, ink_append, String.contains_char_eq, String.toList_append,
    mem_append, Bool.decide_or]

theorem ink_eq_of_look {a b : String} (hab : look a = look b) : ink a = ink b :=
  congrArg Look.ink hab

section Lines

variable {l : LinedLayout}

theorem look_broken (a b : String) :
    look (a ++ l.lineEnding ++ b) = ⟨ink a ++ ink b, true⟩ := by
  have hend : look l.lineEnding = ⟨[], true⟩ := by
    rw [look, ink_lineEnding, String.contains_char_eq, decide_eq_true l.breaks]
  rw [look_append, look_append, hend]
  simp [Look.append, look]

theorem ink_joinSections (sections : List (Option String)) :
    ink (joinSections l sections) = (sections.filterMap id).flatMap ink :=
  ink_intercalate ink_lineEnding _

end Lines

/-! ## Where an expression stands -/

section Positions

variable {a b : String} (hab : look a = look b)
include hab

theorem look_wrapIf (wrap : Bool) : look (wrapIf wrap a) = look (wrapIf wrap b) := by
  unfold wrapIf
  split
  · rw [look_append, look_append, look_append, look_append, hab]
  · exact hab

theorem look_asTerm (e : Expr) : look (asTerm e a) = look (asTerm e b) :=
  look_wrapIf hab _

theorem look_barred (locals : List String) (noParams : Bool) :
    look (barred locals a noParams) = look (barred locals b noParams) := by
  unfold barred
  split
  · rfl
  · simp only [look_append, hab]

end Positions

theorem isEmpty_barred (locals : List String) (a b : String) (noParams : Bool) :
    (barred locals a noParams).isEmpty = (barred locals b noParams).isEmpty := by
  have hbar (text : String) : ("|" ++ text).isEmpty = false := by
    rw [String.isEmpty_eq_false_iff, ne_eq, ← String.toList_inj, String.toList_append]
    simp
  unfold barred
  split
  · rfl
  · simp only [String.append_assoc, hbar]

theorem look_inlineBlock {e e' : String} (hbars : look bars = look bars')
    (hnone : bars.isEmpty = bars'.isEmpty) (he : look e = look e') :
    look (inlineBlock bars e) = look (inlineBlock bars' e') := by
  simp only [inlineBlock, look_append, apply_ite look, hbars, hnone, he]

/-! ## Declarations -/

section Declarations

variable {l k : LinedLayout} (d d' : Nat)

theorem look_gap (what : String) : look (gap l d what) = look (gap k d' what) := by
  unfold gap
  rw [look_broken, look_broken, ink_pad, ink_pad]

theorem look_ended (hhead : ink head = ink head') (hbody : ink body = ink body') :
    look (head ++ l.lineEnding ++ body ++ (l : Layout).pad d ++ "end") =
      look (head' ++ k.lineEnding ++ body' ++ (k : Layout).pad d' ++ "end") := by
  have hsplit (l : LinedLayout) (d : Nat) (head body : String) :
      look (head ++ l.lineEnding ++ body ++ (l : Layout).pad d ++ "end") =
        ⟨ink head ++ ink (body ++ "end"), true⟩ := by
    rw [String.append_assoc, String.append_assoc, look_broken, ink_append, ink_append, ink_pad,
      nil_append, ← ink_append]
  rw [hsplit, hsplit, hhead, ink_append, ink_append, hbody]

theorem ink_printAccessors (fields : List Field) :
    ink (printAccessors l d fields) = ink (printAccessors k d' fields) := by
  have htyped : (fields.filterMap fun field => field.type.map fun type =>
        (l : Layout).line d ("attr_accessor :" ++ field.name ++ " #: " ++ type.print)).flatMap ink =
      (fields.filterMap fun field => field.type.map fun type =>
        (k : Layout).line d' ("attr_accessor :" ++ field.name ++ " #: " ++ type.print)).flatMap
          ink := by
    induction fields with
    | nil => rfl
    | cons field fields ih =>
      cases htype : field.type with
      | none => simp [htype, ih]
      | some type => simp [htype, ih, ink_line]
  simp only [printAccessors, ink_append, apply_ite ink, ink_line, ink_join, htyped]

theorem ink_fieldSections (fields : List Field) :
    ((fieldSections l d fields).filterMap id).flatMap ink =
      ((fieldSections k d' fields).filterMap id).flatMap ink := by
  have hown := ink_printAccessors d d' (fields.filter (!·.isStatic)) (l := l) (k := k)
  have hstatic :=
    ink_printAccessors (d + 1) (d' + 1) (fields.filter (·.isStatic)) (l := l) (k := k)
  simp only [fieldSections]
  cases (fields.filter (!·.isStatic)).isEmpty <;> cases (fields.filter (·.isStatic)).isEmpty <;>
    simp [hown, hstatic, ink_line, ink_append]

theorem ink_printHead (method : Method) {a b : String} (hab : ink a = ink b) :
    ink (printHead l d method a) = ink (printHead k d' method b) := by
  simp only [printHead, ink_append,
    method.remarks.ink_print d d' (l := l.toBlankLayout) (k := k.toBlankLayout),
    ink_optionalLine d d' (l := l.toBlankLayout) (k := k.toBlankLayout), ink_pad, apply_ite ink,
    hab]

theorem ink_printRequire (require : Require) :
    ink (require.print l) = ink (require.print k) := by
  simp only [Require.print, ink_line]

end Declarations

/-! ## The end of a chain of tests -/

def continuesChain : List Stmt → Bool
  | [⟨.ifElse .., ⟨_, []⟩⟩] => true
  | _ => false

theorem printElse_of_not_continues (l : Layout) (d : Nat) {body : List Stmt}
    (hbody : continuesChain body = false) :
    printElse l d (some body) = l.line d "else" ++ printStmts l (d + 1) body := by
  unfold printElse
  split
  · contradiction
  · rename_i heq
    cases heq
    cases hbody
  · rename_i heq
    cases heq
    rfl

section Statements

variable {l k : LinedLayout}

theorem look_frameBlock (d d' : Nat) (locals : List String)
    {sole? sole?' : Option String} (hbars : look bars = look bars')
    (hnone : bars.isEmpty = bars'.isEmpty) (hsole : sole?.map look = sole?'.map look)
    (hbody : ink body = ink body') :
    look (frameBlock l d locals bars sole? body) =
      look (frameBlock k d' locals bars' sole?' body') := by
  have hhead : ink (" do" ++ if bars.isEmpty then "" else " " ++ bars) =
      ink (" do" ++ if bars'.isEmpty then "" else " " ++ bars') := by
    simp only [ink_append, apply_ite ink, ink_eq_of_look hbars, hnone]
  have hlined := look_ended d d' hhead hbody (l := l) (k := k)
  match sole?, sole?', hsole with
  | none, none, _ => exact hlined
  | some e, some e', hsole =>
    have htext := look_inlineBlock hbars hnone (Option.some.inj hsole)
    have hbroken : (inlineBlock bars e).contains '\n' = (inlineBlock bars' e').contains '\n' :=
      congrArg Look.broken htext
    simp only [frameBlock, Option.map_some, Option.filter_some, hbroken]
    cases locals.isEmpty && !(inlineBlock bars' e').contains '\n' with
    | false => exact hlined
    | true => exact htext

theorem ink_frameMethod (d d' : Nat) (endless : Bool)
    {value? value?' : Option String} (hhead : ink head = ink head')
    (hvalue : value?.map ink = value?'.map ink) (hbody : ink body = ink body') :
    ink (frameMethod l d head endless value? body) =
      ink (frameMethod k d' head' endless value?' body') := by
  have hlined : ink (head ++ l.lineEnding ++ body ++ (l : Layout).line d "end") =
      ink (head' ++ k.lineEnding ++ body' ++ (k : Layout).line d' "end") := by
    simp only [ink_append, hhead, ink_lineEnding, hbody, ink_line]
  match endless, value?, value?', hvalue with
  | false, none, none, _ | true, none, none, _ | false, some _, some _, _ => exact hlined
  | true, some value, some value', hvalue =>
    simp only [frameMethod, ink_append, hhead, Option.some.inj hvalue, ink_lineEnding]

theorem ink_else (d d' : Nat) {body : List Stmt} (hother : continuesChain body = false)
    (hbody : ink (printStmts l (d + 1) body) = ink (printStmts k (d' + 1) body)) :
    ink (printElse l d (some body)) = ink (printElse k d' (some body)) := by
  simp only [printElse_of_not_continues _ _ hother, ink_append, ink_line, hbody]

/-! ## Expressions and statements -/

mutual

theorem Expr.look_print (d d' : Nat) (e : Expr) : look (e.print l d) = look (e.print k d') := by
  cases e with
  | number | string | symbol | bool | nil | var | self | regex | raw => rfl
  | multiAssign targets value =>
    simp only [Expr.print]
    cases targets.find? (!·.isAssignable) <;>
      simp only [look_append, look_printExprs d d' targets, value.look_print d d',
        look_gap d d' (l := l) (k := k)]
  | call receiver name args block =>
    rcases receiver with _ | receiver <;> rcases block with _ | block <;>
      simp only [Expr.print, look_append, apply_ite look, look_printExprs d d' args,
        look_asTerm (Expr.look_print d d' _), Block.look_print d d' _]
  | range a stop =>
    cases stop <;> simp only [Expr.print, look_append, look_wrapIf (Expr.look_print d d' _)]
  | begin body =>
    simp only [Expr.print]
    exact look_ended d d' rfl (ink_printStmts (d + 1) (d' + 1) body)
  | _ =>
    simp only [Expr.print, look_append, apply_ite look, look_asTerm (Expr.look_print d d' _),
      look_wrapIf (Expr.look_print d d' _), Expr.look_print d d' _, look_printExprs d d' _,
      look_printPairs d d' _, look_printParts d d' _, Block.look_print d d' _,
      look_gap d d' (l := l) (k := k)]

theorem look_printExprs (d d' : Nat) :
    (es : List Expr) → look (printExprs l d es) = look (printExprs k d' es)
  | [] => rfl
  | [e] => e.look_print d d'
  | e :: f :: es => by
    simp only [printExprs, look_append, e.look_print d d', look_printExprs d d' (f :: es)]

theorem look_printPairs (d d' : Nat) :
    (pairs : List (Expr × Expr)) → look (printPairs l d pairs) = look (printPairs k d' pairs)
  | [] => rfl
  | [(a, b)] => by
    simp only [printPairs, look_append, a.look_print d d', b.look_print d d']
  | (a, b) :: pair :: pairs => by
    simp only [printPairs, look_append, a.look_print d d', b.look_print d d',
      look_printPairs d d' (pair :: pairs)]

theorem look_printParts (d d' : Nat) :
    (parts : List InterpPart) → look (printParts l d parts) = look (printParts k d' parts)
  | [] => rfl
  | .text text :: rest => by simp only [printParts, look_append, look_printParts d d' rest]
  | .expr e :: rest => by
    simp only [printParts, look_append, e.look_print d d', look_printParts d d' rest]

theorem look_printParams (d d' : Nat) :
    (params : List Param) → look (printParams l d params) = look (printParams k d' params)
  | [] => rfl
  | ⟨_, _, none, _⟩ :: rest => by
    simp only [printParams, look_append, look_printParams d d' rest]
  | ⟨_, _, some value, _⟩ :: rest => by
    simp only [printParams, look_append, value.look_print d d', look_printParams d d' rest]

theorem Block.look_print (d d' : Nat) :
    (block : Block) → look (block.print l d) = look (block.print k d')
  | ⟨params, locals, body⟩ => by
    have hparams := look_printParams d d' params
    simp only [Block.print]
    exact look_frameBlock d d' locals (look_barred hparams locals params.isEmpty)
      (isEmpty_barred ..) (look_printSole d d' body) (ink_printStmts (d + 1) (d' + 1) body)

theorem look_printSole (d d' : Nat) : (body : List Stmt) →
    (printSole? l d body).map look = (printSole? k d' body).map look
  | [] => rfl
  | ⟨kind, ⟨_, comments⟩⟩ :: rest => by
    cases kind with
    | expr e =>
      rcases comments with _ | _ <;> rcases rest with _ | _
      · exact congrArg some (e.look_print d d')
      all_goals rfl
    | _ => rfl

theorem ink_printValue (d d' : Nat) : (body : List Stmt) →
    (printValue? l d body).map ink = (printValue? k d' body).map ink
  | [] => rfl
  | ⟨kind, ⟨_, comments⟩⟩ :: rest => by
    cases kind with
    | expr e =>
      rcases comments with _ | _ <;> rcases rest with _ | _
      · exact congrArg some (ink_eq_of_look (e.look_print d d'))
      all_goals rfl
    | ret e =>
      rcases e with _ | e
      · rfl
      rcases comments with _ | _ <;> rcases rest with _ | _
      · exact congrArg some (ink_eq_of_look (e.look_print d d'))
      all_goals rfl
    | _ => rfl

theorem ink_printStmts (d d' : Nat) :
    (body : List Stmt) → ink (printStmts l d body) = ink (printStmts k d' body)
  | [] => rfl
  | stmt :: rest => by
    simp only [printStmts, ink_append, stmt.ink_print d d', ink_printStmts d d' rest]

theorem Stmt.ink_print (d d' : Nat) :
    (stmt : Stmt) → ink (stmt.print l d) = ink (stmt.print k d')
  | ⟨kind, remarks⟩ => by
    simp only [Stmt.print, ink_append,
      remarks.ink_print d d' (l := l.toBlankLayout) (k := k.toBlankLayout), kind.ink_print d d']

theorem ink_printTail (d d' : Nat) :
    (e : Option Expr) → ink (printTail l d e) = ink (printTail k d' e)
  | none => rfl
  | some e => by simp only [printTail, ink_append, ink_eq_of_look (e.look_print d d')]

theorem StmtKind.ink_print (d d' : Nat) (kind : StmtKind) :
    ink (kind.print l d) = ink (kind.print k d') := by
  cases kind with
  | begin body rescue ensure =>
    rcases rescue with _ | ⟨var, handled⟩ <;> cases ensure <;>
      simp only [StmtKind.print, ink_line, ink_append, ink_printStmts (d + 1) (d' + 1) _]
  | classDef cls => exact cls.ink_print d d'
  | method method => exact method.ink_print d d'
  | raw text => simp only [StmtKind.print, ink_join, flatMap_map, ink_line]
  | _ =>
    simp only [StmtKind.print, apply_ite ink, ink_line, ink_append, ink_printTail d d' _,
      ink_eq_of_look (Expr.look_print d d' _), ink_printStmts (d + 1) (d' + 1) _,
      ink_printElsifs d d' _, ink_printElse d d' _]

theorem ink_printElsifs (d d' : Nat) : (branches : List (Expr × List Stmt)) →
    ink (printElsifs l d branches) = ink (printElsifs k d' branches)
  | [] => rfl
  | (cond, body) :: rest => by
    simp only [printElsifs, ink_line, ink_append, ink_eq_of_look (cond.look_print d d'),
      ink_printStmts (d + 1) (d' + 1) body, ink_printElsifs d d' rest]

theorem ink_printElse (d d' : Nat) (branch : Option (List Stmt)) :
    ink (printElse l d branch) = ink (printElse k d' branch) := by
  match branch with
  | none => rfl
  | some [] => exact ink_else d d' rfl rfl
  | some [⟨kind, ⟨location, []⟩⟩] =>
    cases kind with
    | ifElse cond thenBranch elsifs elseBranch =>
      simp only [printElse, ink_append, ink_line, ink_eq_of_look (cond.look_print d d'),
        ink_printStmts (d + 1) (d' + 1) thenBranch, ink_printElsifs d d' elsifs,
        ink_printElse d d' elseBranch]
    | _ => exact ink_else d d' rfl (ink_printStmts (d + 1) (d' + 1) _)
  | some [⟨kind, ⟨location, comment :: comments⟩⟩] =>
    refine ink_else d d' ?_ (ink_printStmts (d + 1) (d' + 1) _)
    cases kind <;> rfl
  | some (first :: second :: rest) =>
    refine ink_else d d' ?_ (ink_printStmts (d + 1) (d' + 1) (first :: second :: rest))
    simp [continuesChain]

theorem Method.ink_print (d d' : Nat) :
    (method : Method) → ink (method.print l d) = ink (method.print k d')
  | ⟨name, params, body, isStatic, returnType, endless, remarks⟩ => by
    have hparams := ink_eq_of_look (look_printParams d d' params)
    simp only [Method.print]
    exact ink_frameMethod d d' endless (ink_printHead d d' _ hparams) (ink_printValue d d' body)
      (ink_printStmts (d + 1) (d' + 1) body)

theorem ink_printMethods (d d' : Nat) : (methods : List Method) →
    ((printMethods l d methods).filterMap id).flatMap ink =
      ((printMethods k d' methods).filterMap id).flatMap ink
  | [] => rfl
  | method :: rest => by
    simp only [printMethods, filterMap_cons_some (f := id) rfl, flatMap_cons,
      method.ink_print d d', ink_printMethods d d' rest]

theorem Class.ink_print (d d' : Nat) :
    (cls : Class) → ink (cls.print l d) = ink (cls.print k d')
  | ⟨_, _, fields, methods, staticInit, remarks⟩ => by
    have hinit := ink_printStmts (d + 1) (d' + 1) staticInit
    simp only [Class.print, ink_append,
      remarks.ink_print d d' (l := l.toBlankLayout) (k := k.toBlankLayout), ink_line,
      ink_joinSections, filterMap_append, flatMap_append,
      ink_fieldSections (d + 1) (d' + 1) (l := l) (k := k),
      ink_printMethods (d + 1) (d' + 1) methods]
    cases staticInit.isEmpty <;> simp [hinit]

end

/-! ## Files -/

theorem ink_printTopLevel (d d' : Nat) (body : List Stmt) :
    ink (printTopLevel l d body) = ink (printTopLevel k d' body) := by
  induction body with
  | nil => rfl
  | cons stmt rest ih =>
    cases rest with
    | nil => simp only [printTopLevel, ink_append, stmt.ink_print d d' (l := l) (k := k)]
    | cons next rest =>
      rw [printTopLevel, printTopLevel]
      simp only [ink_append, stmt.ink_print d d' (l := l) (k := k), apply_ite ink,
        ink_lineEnding, ih]

theorem Module.ink_print (module : Module) : ink (module.print l) = ink (module.print k) := by
  simp only [Module.print, ink_append, ink_joinSections,
    module.remarks.ink_print 0 0 (l := l.toBlankLayout) (k := k.toBlankLayout), apply_ite ink,
    ink_lineEnding]
  congr 1
  · congr 2
    cases module.magicComments.isEmpty <;> cases module.requires.isEmpty <;>
      simp [ink_join, flatMap_map, ink_line, ink_printRequire (l := l) (k := k)]
  · cases module.name with
    | none => exact ink_printTopLevel 0 0 module.body
    | some name =>
      simp only [ink_append, ink_line, apply_ite ink, ink_lineEnding,
        ink_printTopLevel 1 1 module.body (l := l) (k := k)]

end Statements

end Ruby

end Scriptgen
