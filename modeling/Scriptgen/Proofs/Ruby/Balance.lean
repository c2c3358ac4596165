import Scriptgen.Proofs.Balance
import Scriptgen.Proofs.Reading.Literals
import Scriptgen.Proofs.Ruby.Blanks
/-!
# Printed Ruby passes the bracket check

The check knows strings, but not the code inside interpolated ones, where it is confused by a double
quote and by a line end. Where that code has neither, and names hold nothing that the check looks
for, a file is printed without problems: `print_passes_check`.
-/

namespace Scriptgen.Ruby

open Brackets List Layout

/-! ## Trees that the check can follow -/

/-- The type of an attribute stands in a comment. -/
def Field.Tame (field : Field) : Prop :=
  Inert field.name ∧ '\n' ∉ ((field.type.map RubyType.print).getD "").toList

section Tame

variable (p : Expr → Prop)

mutual

/-- An expression without raw code and regular expressions, whose names and numbers are inert, and
whose interpolated code is as a condition says. -/
def Expr.Tame : Expr → Prop
  | .string _ | .symbol _ | .bool _ | .nil | .self => True
  | .number text => Inert text
  | .var name _ => Inert name
  | .index a b | .binary _ a b _ _ | .assign a _ b => a.Tame ∧ b.Tame
  | .unary _ a _ | .splat a | .blockPass a | .paren a => a.Tame
  | .multiAssign targets value => exprsTame targets ∧ value.Tame
  | .call receiver name args block =>
    optionTame receiver ∧ Inert name ∧ exprsTame args ∧ blockTame block
  | .super args | .array args => exprsTame args
  | .hash pairs => pairsTame pairs
  | .range start stop _ => start.Tame ∧ optionTame stop
  | .ternary a b c => a.Tame ∧ b.Tame ∧ c.Tame
  | .lambda block => block.Tame
  | .new name args => Inert name ∧ exprsTame args
  | .begin body => stmtsTame body
  | .interp parts => partsTame parts
  | .regex .. | .raw _ => False

def exprsTame : List Expr → Prop
  | [] => True
  | e :: es => e.Tame ∧ exprsTame es

def pairsTame : List (Expr × Expr) → Prop
  | [] => True
  | (a, b) :: pairs => a.Tame ∧ b.Tame ∧ pairsTame pairs

def optionTame : Option Expr → Prop
  | none => True
  | some e => e.Tame

def blockTame : Option Block → Prop
  | none => True
  | some block => block.Tame

def partsTame : List InterpPart → Prop
  | [] => True
  | .text _ :: parts => partsTame parts
  | .expr e :: parts =>
    e.Tame ∧ p e ∧ partsTame parts

def paramsTame : List Param → Prop
  | [] => True
  | ⟨name, _, fallback, _⟩ :: params => Inert name ∧ optionTame fallback ∧ paramsTame params

def Block.Tame : Block → Prop
  | ⟨params, locals, body⟩ => paramsTame params ∧ (∀ name ∈ locals, Inert name) ∧ stmtsTame body

def stmtsTame : List Stmt → Prop
  | [] => True
  | ⟨kind, _⟩ :: stmts => kind.Tame ∧ stmtsTame stmts

def StmtKind.Tame : StmtKind → Prop
  | .expr e => e.Tame
  | .ret e | .jump _ e => optionTame e
  | .ifElse cond body elsifs other =>
    cond.Tame ∧ stmtsTame body ∧ branchesTame elsifs ∧ clauseTame other
  | .while cond body _ => cond.Tame ∧ stmtsTame body
  | .catchTag tag body => Inert tag ∧ stmtsTame body
  | .throwTag tag => Inert tag
  | .raise name message => Inert (name.getD "") ∧ optionTame message
  | .begin body rescue ensure => stmtsTame body ∧ handlerTame rescue ∧ clauseTame ensure
  | .classDef cls => cls.Tame
  | .method method => method.Tame
  | .raw _ => False

def branchesTame : List (Expr × List Stmt) → Prop
  | [] => True
  | (cond, body) :: branches => cond.Tame ∧ stmtsTame body ∧ branchesTame branches

def clauseTame : Option (List Stmt) → Prop
  | none => True
  | some body => stmtsTame body

def handlerTame : Option (Option String × List Stmt) → Prop
  | none => True
  | some (var, body) => Inert (var.getD "") ∧ stmtsTame body

/-- The types of a method stand in a comment. -/
def Method.Tame : Method → Prop
  | ⟨name, params, body, isStatic, returnType, endless, remarks⟩ =>
    Inert name ∧ paramsTame params ∧ stmtsTame body ∧
      '\n' ∉ ((Method.mk name params body isStatic returnType endless remarks).typeComment?.getD
        "").toList

def Class.Tame : Class → Prop
  | ⟨name, base, fields, methods, init, _⟩ =>
    Inert name ∧ Inert (base.getD "") ∧ (∀ field ∈ fields, field.Tame) ∧ methodsTame methods ∧
      stmtsTame init

def methodsTame : List Method → Prop
  | [] => True
  | method :: methods => method.Tame ∧ methodsTame methods

end

end Tame

/-! ## Literals -/

theorem foldl_feed_escapeText (text : String) (stack : List Char) :
    (escapeText text).toList.foldl feed (some (.string '"', stack)) =
      some (.string '"', stack) := by
  have hplain (cs : List Char) (h : ∀ c ∈ cs, c ∉ ['\n', '\\', '"']) :
      cs.foldl feed (some (.string '"', stack)) = some (.string '"', stack) := by
    induction cs with
    | nil => rfl
    | cons c cs ih =>
      rw [forall_mem_cons] at h
      have hc : feed (some (.string '"', stack)) c = some (.string '"', stack) := by
        simp_all [feed]
      rw [foldl_cons, hc, ih h.2]
  have hline (c : Char) (h : ' ' ≤ c) : c ≠ '\n' := by
    rintro rfl
    revert h
    decide
  rw [escapeText, String.toList_ofList]
  induction text.toList with
  | nil => rfl
  | cons c cs ih =>
    rw [flatMap_cons, foldl_append]
    obtain ⟨heq, ⟨hlow, -⟩, hback, hquote, -⟩ | ⟨d, heq, hlow, -⟩ | heq := escapeDouble_cases c
    · rw [heq, hplain [c] (by simp [hline c hlow, hback, hquote]), ih]
    · simpa [heq, feed, hline d hlow] using ih
    · have hdigits := hplain (Text.hexLower c.toNat).toList fun d hd hmark => by
        have hother : ∀ d ∈ ['\n', '\\', '"'], Text.isDigitIn 16 d = false := by
          simp [Text.isDigitIn, Text.hexDigit?]
        exact absurd (Text.isDigitIn_of_mem_hexLower hd) (by simp [hother d hmark])
      simpa [heq, feed, hdigits] using ih

@[simp]
theorem matched_doubleQuoted (text : String) : Matched (doubleQuoted text) := by
  simp [doubleQuoted, foldl_feed_escapeText]

@[simp]
theorem matched_quoteString (text : String) : Matched (quoteString text) := by
  have hquote (stack : List Char) :
      feed (some (.code, stack)) '\'' = some (.string '\'', stack) ∧
        feed (some (.string '\'', stack)) '\'' = some (.code, stack) := ⟨rfl, rfl⟩
  have hbody (cs stack : List Char) (h : cs.all isPrintable = true) :
      (cs.flatMap escapeSingle).foldl feed (some (.string '\'', stack)) =
        some (.string '\'', stack) := by
    induction cs with
    | nil => rfl
    | cons c cs ih =>
      rw [all_cons, Bool.and_eq_true] at h
      have hline : c ≠ '\n' := by
        rintro rfl
        exact absurd h.1 (by decide)
      have hchar : (escapeSingle c).foldl feed (some (.string '\'', stack)) =
          some (.string '\'', stack) := by
        unfold escapeSingle
        split <;> simp_all [feed]
      rw [flatMap_cons, foldl_append, hchar, ih h.2]
  unfold quoteString
  dsimp only
  split
  · rename_i hall
    simp [hquote, hbody _ _ hall]
  · exact matched_doubleQuoted text

theorem matched_quoteSymbol (text : String) : Matched (quoteSymbol text) := by
  unfold quoteSymbol
  split
  · rename_i hidentifier
    have hinert : Inert text := fun c hc hmark => by
      have hname : c.isAlphanum = true ∨ c = '_' := by
        unfold isIdentifier at hidentifier
        split at hidentifier
        · cases hidentifier
        · rename_i first rest heq
          simp only [Bool.and_eq_true, Bool.or_eq_true, beq_iff_eq, all_eq_true] at hidentifier
          rw [heq, mem_cons] at hc
          rcases hc with rfl | hc
          · exact hidentifier.1.imp (fun h => by simp [Char.isAlphanum, h]) id
          · exact hidentifier.2 c hc
      have hother : ∀ c ∈ ['#', '\\', '\n'] ++ quotes ++ openers ++ closers,
          c.isAlphanum = false ∧ c ≠ '_' := by simp
      simp [hother c hmark] at hname
    simp [hinert]
  · simp

/-! ## Pieces of the printer -/

@[simp]
theorem matched_symbol (op : BinaryOp) : Matched op.symbol := by
  cases op <;> exact .of_inert (by decide)

variable {fields : List Field}

section Pieces

variable {l : LineLayout} {a b : String}

theorem matched_gap (depth : Nat) (e : Expr) :
    Matched (gap l depth ("assignment target " ++ e.nodeType)) := by
  have htype : '\n' ∉ e.nodeType.toList := by
    unfold Expr.nodeType
    split <;> decide
  unfold gap
  simp [htype]

theorem matched_barred {locals : List String} (hlocals : ∀ name ∈ locals, Inert name)
    (ha : Matched a) (noParams : Bool) : Matched (barred locals a noParams) := by
  have hnames : Matched (String.intercalate ", " locals) :=
    .intercalate (.of_inert (by decide)) fun name hname => .of_inert (hlocals name hname)
  unfold barred
  simp [-String.toList_intercalate, ha, hnames]

theorem matched_frameBlock (depth : Nat) (locals : List String) {sole? : Option String}
    (hbars : Matched a) (hsole : ∀ sole, sole? = some sole → Matched sole) (hbody : Matched b) :
    Matched (frameBlock l depth locals a sole? b) := by
  unfold frameBlock
  split
  · rename_i text htext
    obtain ⟨sole, rfl, rfl⟩ := Option.map_eq_some_iff.1 (Option.filter_eq_some_iff.1 htext).1
    simp [inlineBlock, hbars, hsole sole rfl]
  · simp [hbars, hbody]

theorem matched_frameMethod (depth : Nat) (endless : Bool) {value? : Option String}
    (hhead : Matched a) (hvalue : ∀ value, value? = some value → Matched value)
    (hbody : Matched b) : Matched (frameMethod l depth a endless value? b) := by
  unfold frameMethod
  split
  · simp [hhead, hvalue _ rfl]
  · simp [line, hhead, hbody]

theorem matched_printAccessors (depth : Nat)
    (h : ∀ field ∈ fields, field.Tame) : Matched (printAccessors l depth fields) := by
  unfold printAccessors
  refine .append ?_ (.join fun part hpart => ?_)
  · split
    · simp
    · refine matched_line depth (.append (.of_inert (by decide))
        (.intercalate (.of_inert (by decide)) fun name hname => ?_))
      obtain ⟨field, hfield, rfl⟩ := mem_map.1 hname
      simp [(h field (mem_of_mem_filter hfield)).1]
  · obtain ⟨field, hfield, hpart⟩ := mem_filterMap.1 hpart
    obtain ⟨type, htype, rfl⟩ := Option.map_eq_some_iff.1 hpart
    obtain ⟨hname, hcomment⟩ := h field hfield
    rw [htype] at hcomment
    have hcomment : '\n' ∉ type.print.toList := hcomment
    simp [line, hname, hcomment]

theorem matched_joinSections {sections : List (Option String)}
    (h : ∀ text, some text ∈ sections → Matched text) :
    Matched (joinSections l sections) := by
  refine .intercalate (by simp) fun text htext => h text ?_
  simpa using htext

theorem matched_of_mem_fieldSections {depth : Nat} {text : String}
    (h : ∀ field ∈ fields, field.Tame) (htext : some text ∈ fieldSections l depth fields) :
    Matched text := by
  have hfields (depth : Nat) (p : Field → Bool) :
      Matched (printAccessors l depth (fields.filter p)) :=
    matched_printAccessors depth fun field hfield => h field (mem_of_mem_filter hfield)
  simp only [fieldSections, mem_cons, not_mem_nil, or_false] at htext
  rcases htext with htext | htext <;> split at htext <;> cases htext
  · exact hfields _ _
  · simp [line, hfields]

end Pieces

/-! ## Expressions and statements -/

section Walk

/-- Code that the check passes over within double quotes. -/
def Quotable (l : Layout) (e : Expr) : Prop :=
  ∀ depth, '"' ∉ (e.print l depth).toList ∧ '\n' ∉ (e.print l depth).toList

variable {l : LineLayout}

attribute [local simp] line asTerm wrapIf Expr.print printExprs printPairs printParams
  Stmt.print printTail StmtKind.print printElsifs Expr.Tame optionTame blockTame StmtKind.Tame
  handlerTame clauseTame

mutual

theorem Expr.matched_print (d : Nat) (e : Expr) (h : e.Tame (Quotable l)) :
    Matched (e.print l d) := by
  cases e with
  | raw | regex => exact h.elim
  | symbol text => simp [matched_quoteSymbol]
  | var name kind => cases kind <;> simp_all [VarKind.sign]
  | unary op a => cases op <;> simp [UnaryOp.symbol, a.matched_print d h]
  | assign a op b =>
    cases op <;> simp [matched_gap d a, a.matched_print d h.1, b.matched_print d h.2]
  | multiAssign targets value =>
    simp only [Expr.print]
    split <;> simp [matched_gap d _, matched_printExprs d targets h.1, value.matched_print d h.2]
  | call receiver name args block =>
    rcases receiver with _ | receiver <;> rcases block with _ | block <;>
      simp_all [Expr.matched_print d _, matched_printExprs d _, Block.matched_print d _]
  | range a stop => cases stop <;> simp_all [Expr.matched_print d _]
  | _ =>
    simp_all [Expr.matched_print d _, matched_printExprs d _, matched_printPairs d _,
      foldl_feed_printParts d _, Block.matched_print d _, matched_printStmts (d + 1) _]

theorem matched_printExprs (d : Nat) (es : List Expr) (h : exprsTame (Quotable l) es) :
    Matched (printExprs l d es) := by
  rcases es with _ | ⟨e, _ | ⟨f, es⟩⟩
  · simp
  · simp [e.matched_print d h.1]
  · simp [e.matched_print d h.1, matched_printExprs d (f :: es) h.2]

theorem matched_printPairs (d : Nat) (pairs : List (Expr × Expr))
    (h : pairsTame (Quotable l) pairs) : Matched (printPairs l d pairs) := by
  rcases pairs with _ | ⟨⟨a, b⟩, _ | ⟨pair, pairs⟩⟩
  · simp
  · simp [a.matched_print d h.1, b.matched_print d h.2.1]
  · simp [a.matched_print d h.1, b.matched_print d h.2.1,
      matched_printPairs d (pair :: pairs) h.2.2]

theorem foldl_feed_printParts (d : Nat) (parts : List InterpPart)
    (h : partsTame (Quotable l) parts) (stack : List Char) :
    (printParts l d parts).toList.foldl feed (some (.string '"', stack)) =
      some (.string '"', stack) := by
  rcases parts with _ | ⟨_ | e, parts⟩
  · rfl
  · simp [printParts, foldl_feed_escapeText, foldl_feed_printParts d parts h]
  · have hcode : (e.print l d).toList.foldl feed (some (.string '"', stack)) =
        some (.string '"', stack) :=
      foldl_feed_quoted (by simp) (e.matched_print d h.1 []) (h.2.1 d).1 (h.2.1 d).2
    simp [printParts, feed, hcode, foldl_feed_printParts d parts h.2.2]

theorem matched_printParams (d : Nat) (params : List Param) (h : paramsTame (Quotable l) params) :
    Matched (printParams l d params) := by
  rcases params with _ | ⟨⟨name, type, _ | value, variadic⟩, params⟩
  · simp
  · simp [h.1, matched_printParams d params h.2.2]
  · simp [h.1, value.matched_print d h.2.1, matched_printParams d params h.2.2]

theorem matched_printSole (d : Nat) (body : List Stmt) (h : stmtsTame (Quotable l) body)
    (sole : String) (hsole : printSole? l d body = some sole) : Matched sole := by
  rcases body with _ | ⟨⟨kind, ⟨location, comments⟩⟩, rest⟩
  · cases hsole
  cases kind with
  | expr e =>
    rcases comments with _ | _ <;> rcases rest with _ | _ <;> cases hsole
    exact e.matched_print d h.1
  | _ => cases hsole

theorem matched_printValue (d : Nat) (body : List Stmt) (h : stmtsTame (Quotable l) body)
    (value : String) (hvalue : printValue? l d body = some value) : Matched value := by
  rcases body with _ | ⟨⟨kind, ⟨location, comments⟩⟩, rest⟩
  · cases hvalue
  cases kind with
  | expr e =>
    rcases comments with _ | _ <;> rcases rest with _ | _ <;> cases hvalue
    exact e.matched_print d h.1
  | ret e =>
    rcases e with _ | e
    · cases hvalue
    rcases comments with _ | _ <;> rcases rest with _ | _ <;> cases hvalue
    exact e.matched_print d h.1
  | _ => cases hvalue

theorem Block.matched_print (d : Nat) (block : Block) (h : block.Tame (Quotable l)) :
    Matched (block.print l d) := by
  obtain ⟨params, locals, body⟩ := block
  obtain ⟨hparams, hlocals, hbody⟩ := h
  exact matched_frameBlock d locals
    (matched_barred hlocals (matched_printParams d params hparams) _)
    (matched_printSole d body hbody) (matched_printStmts (d + 1) body hbody)

theorem matched_printStmts (d : Nat) (stmts : List Stmt) (h : stmtsTame (Quotable l) stmts) :
    Matched (printStmts l d stmts) := by
  rcases stmts with _ | ⟨⟨kind, remarks⟩, stmts⟩
  · simp [printStmts]
  · simp [printStmts, matched_remarks remarks d, kind.matched_print d h.1,
      matched_printStmts d stmts h.2]

theorem matched_printTail (d : Nat) (e : Option Expr) (h : optionTame (Quotable l) e) :
    Matched (printTail l d e) := by
  cases e with
  | none => simp
  | some e => simp [e.matched_print d h]

theorem StmtKind.matched_print (d : Nat) (kind : StmtKind) (h : kind.Tame (Quotable l)) :
    Matched (kind.print l d) := by
  cases kind with
  | jump kind value => cases kind <;> simp_all [LoopJump.keyword, matched_printTail d value]
  | raise name message => cases name <;> simp_all [matched_printTail d message]
  | begin body rescue ensure =>
    rcases rescue with _ | ⟨_ | var, handled⟩ <;> cases ensure <;>
      simp_all [matched_printStmts (d + 1) _]
  | classDef cls => exact cls.matched_print d h
  | method method => exact method.matched_print d h
  | raw => exact h.elim
  | _ =>
    simp_all [Expr.matched_print d _, matched_printTail d _, matched_printStmts (d + 1) _,
      matched_printElsifs d _, matched_printElse d _]

theorem matched_printElsifs (d : Nat) (branches : List (Expr × List Stmt))
    (h : branchesTame (Quotable l) branches) : Matched (printElsifs l d branches) := by
  rcases branches with _ | ⟨⟨cond, body⟩, branches⟩
  · simp
  · simp [cond.matched_print d h.1, matched_printStmts (d + 1) body h.2.1,
      matched_printElsifs d branches h.2.2]

theorem matched_printElse (d : Nat) (branch : Option (List Stmt))
    (h : clauseTame (Quotable l) branch) : Matched (printElse l d branch) := by
  rcases branch with _ | body
  · simp [printElse]
  cases hchain : continuesChain body with
  | false =>
    simp [printElse_of_not_continues _ _ hchain, matched_printStmts (d + 1) body h]
  | true =>
    rcases body with _ | ⟨⟨kind, ⟨location, _ | comment⟩⟩, _ | next⟩
    · cases hchain
    · cases kind with
      | ifElse cond body elsifs other =>
        obtain ⟨⟨hcond, hbody, helsifs, hother⟩, -⟩ := h
        simp [printElse, cond.matched_print d hcond, matched_printStmts (d + 1) body hbody,
          matched_printElsifs d elsifs helsifs, matched_printElse d other hother]
      | _ => cases hchain
    all_goals cases kind <;> cases hchain

theorem Method.matched_print (d : Nat) (method : Method) (h : method.Tame (Quotable l)) :
    Matched (method.print l d) := by
  obtain ⟨name, params, body, isStatic, returnType, endless, remarks⟩ := method
  obtain ⟨hname, hparams, hbody, htypes⟩ := h
  rw [Method.print]
  refine matched_frameMethod d endless ?_ (matched_printValue d body hbody)
    (matched_printStmts (d + 1) body hbody)
  unfold printHead
  have hparams := matched_printParams d params hparams
  revert htypes
  rcases Method.typeComment? _ with _ | text <;> intro htypes <;>
    simp_all [matched_remarks remarks d]

theorem Class.matched_print (d : Nat) (cls : Class) (h : cls.Tame (Quotable l)) :
    Matched (cls.print l d) := by
  obtain ⟨name, base, fields, methods, init, remarks⟩ := cls
  obtain ⟨hname, hbase, hfields, hmethods, hinit⟩ := h
  rw [Class.print]
  generalize hall : joinSections (l : Layout) _ = sections
  have hsections : Matched sections := by
    rw [← hall]
    refine matched_joinSections fun text htext => ?_
    simp only [mem_append, mem_singleton] at htext
    rcases htext with (htext | htext) | htext
    · exact matched_of_mem_fieldSections hfields htext
    · split at htext <;> cases htext
      exact matched_printStmts (d + 1) init hinit
    · exact matched_printMethods (d + 1) methods hmethods text htext
  cases base <;> simp_all [matched_remarks remarks d]

theorem matched_printMethods (d : Nat) (methods : List Method)
    (h : methodsTame (Quotable l) methods) (text : String)
    (htext : some text ∈ printMethods l d methods) : Matched text := by
  rcases methods with _ | ⟨method, methods⟩
  · cases htext
  rcases mem_cons.1 htext with heq | htext
  · cases heq
    exact method.matched_print d h.1
  · exact matched_printMethods d methods h.2 text htext

end

end Walk

/-! ## Files -/

/-- A file whose module has an inert name, whose first comments are a line each, and whose statements
are tame. -/
structure Module.Tame (p : Expr → Prop) (module : Module) : Prop where
  name : Inert (module.name.getD "")
  magicComments : ∀ text ∈ module.magicComments, '\n' ∉ text.toList
  body : stmtsTame p module.body

section Files

variable {l : LineLayout}

theorem matched_printTopLevel (d : Nat) {stmts : List Stmt} (h : stmtsTame (Quotable l) stmts) :
    Matched (printTopLevel l d stmts) := by
  induction stmts with
  | nil => simp [printTopLevel]
  | cons stmt rest ih =>
    obtain ⟨kind, remarks⟩ := stmt
    have hstmt : Matched (Stmt.print l d ⟨kind, remarks⟩) := by
      simp [Stmt.print, matched_remarks remarks d, kind.matched_print d h.1]
    cases rest with
    | nil => simp [printTopLevel, hstmt]
    | cons next rest =>
      rw [printTopLevel]
      simp [hstmt, ih h.2]

theorem Module.matched_print (module : Module) (h : module.Tame (Quotable l)) :
    Matched (module.print l) := by
  unfold Module.print
  dsimp only
  generalize hheader : joinSections (l : Layout) _ = header
  have hheader : Matched header := by
    rw [← hheader]
    refine matched_joinSections fun text htext => ?_
    simp only [mem_cons, not_mem_nil, or_false] at htext
    rcases htext with htext | htext <;> split at htext <;> cases htext <;>
      refine .join fun line hline => ?_
    · obtain ⟨comment, hcomment, rfl⟩ := mem_map.1 hline
      simp [line, h.magicComments comment hcomment]
    · obtain ⟨require, -, rfl⟩ := mem_map.1 hline
      simp [Require.print, line]
  have hname := h.name
  cases hmodule : module.name with
  | none => simp [hheader, matched_remarks module.remarks 0, matched_printTopLevel 0 h.body]
  | some name =>
    rw [hmodule] at hname
    have hname : Inert name := hname
    simp [line, hheader, hname, matched_remarks module.remarks 0,
      matched_printTopLevel 1 h.body]

/-- **Printed Ruby passes the bracket check**, if the code inside interpolated strings has no double
quotes and no line ends, and no line starts a documentation block. -/
theorem print_passes_check (module : Module) (h : module.Tame (Quotable l))
    (hlines : ∀ line ∈ Text.lineChars (module.print l).toList, ¬ "=begin".toList <+: line) :
    scan .ruby (module.print l) = [] :=
  scan_eq_nil_of_feed (module.matched_print h []) hlines

end Files

/-- A file with a call whose text holds code. -/
def textAround (code : Expr) : Module :=
  ⟨none, [], [], [.ofExpr (.call none "f" [.interp [.text "a", .expr code]] none)], .none⟩

def twoSpaces : LineLayout := ⟨.withIndent "  ", by simp [withIndent], .inl rfl⟩

theorem textAround_tame {p : Expr → Prop} {code : Expr} (hcode : code.Tame p) (h : p code) :
    (textAround code).Tame p where
  name := (by decide : Inert "")
  magicComments := by simp [textAround]
  body := ⟨⟨trivial, by decide, ⟨⟨hcode, h, trivial⟩, trivial⟩, trivial⟩, trivial⟩

theorem print_passes_check_textAround :
    scan .ruby ((textAround (.localVar "x")).print twoSpaces) = [] := by
  have hquotable : Quotable twoSpaces (.localVar "x") := fun depth => by
    simp [Expr.localVar, Expr.print, VarKind.sign]
  have hname : Inert "x" := by decide
  exact print_passes_check _ (textAround_tame hname hquotable) (by decide +kernel)

/-- A text inside the code of a text ends it too early. -/
theorem nested_text_fails_check :
    let module := textAround (.interp [.text "(", .expr (.localVar "x")])
    module.Tame (fun _ => True) ∧
      (∀ line ∈ Text.lineChars (module.print twoSpaces).toList, ¬ "=begin".toList <+: line) ∧
      scan .ruby (module.print twoSpaces) ≠ [] := by
  have hname : Inert "x" := by decide
  exact ⟨textAround_tame ⟨hname, trivial, trivial⟩ trivial, by decide +kernel, by decide +kernel⟩

end Scriptgen.Ruby
