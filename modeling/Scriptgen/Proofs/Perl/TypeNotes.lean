import Mathlib.Algebra.GroupWithZero.Nat
import Mathlib.Data.List.DropRight
import Scriptgen.Proofs.Perl.Constructs
import Scriptgen.Proofs.Perl.Emission
/-!
# Types in Perl files

Types are only written in comments, whose texts are `typeNotes`. A file and the file without its
types are read alike, but for the lines in which such a comment goes on (`Module.reads_print`). What
is written for the two is the same once the comments and the blank lines are left out
(`Emission.strip`).
-/

namespace Scriptgen.Perl

open Text LineLayout Reading Stmt

/-! ## Type comments -/

mutual

def Expr.typeNotes : Expr → List String
  | .number _ | .string _ | .bool _ | .undefined | .var .. | .raw _ => []
  | .index a b | .key a b | .slice a b | .bless a b | .binary _ a b _ _ =>
    a.typeNotes ++ b.typeNotes
  -- What cannot be assigned to is not written.
  | .assign a _ b => (if a.isAssignable then a.typeNotes else []) ++ b.typeNotes
  | .lastIndex e | .deref e _ | .unary _ e _ | .paren e => e.typeNotes
  | .call _ args | .callClass _ _ args | .new _ args | .arrayRef args | .list args =>
    exprsTypeNotes args
  | .callCode e args | .callMethod e _ args => e.typeNotes ++ exprsTypeNotes args
  | .hashRef pairs => pairsTypeNotes pairs
  | .ternary a b c => a.typeNotes ++ b.typeNotes ++ c.typeNotes
  | .anonSub sub => sub.innerNotes
  | .doBlock body => stmtsTypeNotes body
  | .blockList _ body result list => stmtsTypeNotes body ++ result.typeNotes ++ list.typeNotes
  | .regex source _ => source.typeNotes
  | .substitute target source replacement _ =>
    target.typeNotes ++ source.typeNotes ++ replacement.typeNotes

def exprsTypeNotes : List Expr → List String
  | [] => []
  | e :: rest => e.typeNotes ++ exprsTypeNotes rest

def pairsTypeNotes : List (Expr × Expr) → List String
  | [] => []
  | (key, value) :: rest => key.typeNotes ++ value.typeNotes ++ pairsTypeNotes rest

def RegexSource.typeNotes : RegexSource → List String
  | .pattern _ => []
  | .quoted e => e.typeNotes

def Stmt.typeNotes : Stmt → List String
  | ⟨kind, _⟩ => kind.typeNotes

def stmtsTypeNotes : List Stmt → List String
  | [] => []
  | stmt :: rest => stmt.typeNotes ++ stmtsTypeNotes rest

def optionTypeNotes : Option Expr → List String
  | none => []
  | some e => e.typeNotes

def initTypeNotes : Option Stmt → List String
  | none => []
  | some stmt => stmt.simpleNotes

def clauseTypeNotes : Option (List Stmt) → List String
  | none => []
  | some body => stmtsTypeNotes body

def branchesTypeNotes : List (Expr × List Stmt) → List String
  | [] => []
  | (cond, body) :: rest => cond.typeNotes ++ stmtsTypeNotes body ++ branchesTypeNotes rest

def handlerTypeNotes : Option (String × List Stmt) → List String
  | none => []
  | some (_, body) => stmtsTypeNotes body

/-- The type comments in a declaration or an expression, as no other statement is written within a
line. -/
def Stmt.simpleNotes : Stmt → List String
  | ⟨.varDecl _ init _, _⟩ => optionTypeNotes init
  | ⟨.expr e, _⟩ => e.typeNotes
  | _ => []

def StmtKind.typeNotes : StmtKind → List String
  | .jump .. | .raw _ => []
  | .block _ body => stmtsTypeNotes body
  | .varDecl _ init _ => optionTypeNotes init
  | .expr e | .die e => e.typeNotes
  | .ret value => optionTypeNotes value
  | .ifElse cond thenBranch elsifs elseBranch =>
    cond.typeNotes ++ stmtsTypeNotes thenBranch ++ branchesTypeNotes elsifs ++
      clauseTypeNotes elseBranch
  | .loop _ init cond step body =>
    initTypeNotes init ++ optionTypeNotes cond ++ exprsTypeNotes step ++ stmtsTypeNotes body
  | .foreach _ _ list body => list.typeNotes ++ stmtsTypeNotes body
  | .while _ cond body _ => cond.typeNotes ++ stmtsTypeNotes body
  | .protect body handler cleanup _ =>
    stmtsTypeNotes body ++ handlerTypeNotes handler ++ clauseTypeNotes cleanup
  | .package made => made.typeNotes
  | .sub sub => sub.typeComment?.toList ++ sub.innerNotes

def Sub.innerNotes : Sub → List String
  | ⟨_, params, body, _, _, _, _⟩ => paramsTypeNotes params ++ stmtsTypeNotes body

def paramsTypeNotes : List Param → List String
  | [] => []
  | ⟨_, _, _, fallback, _⟩ :: rest => optionTypeNotes fallback ++ paramsTypeNotes rest

def subsTypeNotes : List Sub → List String
  | [] => []
  | sub :: rest => sub.typeComment?.toList ++ sub.innerNotes ++ subsTypeNotes rest

def Package.typeNotes : Package → List String
  | ⟨_, _, fields, methods, staticInit, _, _⟩ =>
    fields.filterMap Field.typeNote? ++ stmtsTypeNotes staticInit ++ subsTypeNotes methods

end

def Module.typeNotes (module : Module) : List String := stmtsTypeNotes module.body

def Module.untyped (module : Module) : Module :=
  { module with body := retypeStmts false module.body }

/-! ## What does not depend on types -/

section Untyped

variable (keep : Bool)

theorem Expr.precedence_retype (e : Expr) : (e.retype keep).precedence = e.precedence := by
  cases e <;> rfl

theorem Expr.needsWrapping_retype (e : Expr) : (e.retype keep).needsWrapping = e.needsWrapping := by
  unfold Expr.needsWrapping
  rw [e.precedence_retype]
  cases e <;> rfl

theorem Expr.isHashRef_retype (e : Expr) : (e.retype keep).isHashRef = e.isHashRef := by
  cases e <;> rfl

theorem Expr.isDoBlock_retype (e : Expr) : (e.retype keep).isDoBlock = e.isDoBlock := by
  cases e <;> rfl

theorem joinsMinus_retype (e : Expr) : joinsMinus (e.retype keep) = joinsMinus e := by
  cases e with
  | unary op => cases op <;> rfl
  | _ => rfl

theorem Expr.nodeType_retype (e : Expr) : (e.retype keep).nodeType = e.nodeType := by
  cases e <;> rfl

theorem Stmt.nodeType_retype (stmt : Stmt) :
    (stmt.retype keep).kind.nodeType = stmt.kind.nodeType := by
  obtain ⟨kind, _⟩ := stmt
  cases kind <;> rfl

mutual

theorem Expr.isAssignable_retype : (e : Expr) → (e.retype keep).isAssignable = e.isAssignable
  | .number _ | .string _ | .bool _ | .undefined | .var .. | .raw _ | .index .. | .key .. | .slice ..
  | .lastIndex _ | .deref .. | .binary .. | .unary .. | .assign .. | .call .. | .callCode ..
  | .callMethod .. | .callClass .. | .arrayRef _ | .hashRef _ | .ternary .. | .anonSub _ | .new ..
  | .bless .. | .doBlock _ | .blockList .. | .regex .. | .substitute .. => rfl
  | .list items => allAssignable_retype items
  | .paren inner => inner.isAssignable_retype

theorem allAssignable_retype :
    (items : List Expr) → allAssignable (retypeExprs keep items) = allAssignable items
  | [] => rfl
  | e :: rest => by
    rw [retypeExprs, allAssignable, e.isAssignable_retype, allAssignable_retype rest, allAssignable]

end

theorem Stmt.isSimple_retype (stmt : Stmt) : (stmt.retype keep).isSimple = stmt.isSimple := by
  obtain ⟨kind, _⟩ := stmt
  cases kind <;> rfl

theorem Stmt.isSpaced_retype (stmt : Stmt) : (stmt.retype keep).isSpaced = stmt.isSpaced := by
  obtain ⟨kind, _⟩ := stmt
  cases kind <;> rfl

theorem all_isSimple_retype (body : List Stmt) :
    (retypeStmts keep body).all isSimple = body.all isSimple := by
  induction body with
  | nil => rfl
  | cons stmt rest ih => rw [retypeStmts, List.all_cons, stmt.isSimple_retype, ih, List.all_cons]

theorem retypeStmts_isEmpty (body : List Stmt) : (retypeStmts keep body).isEmpty = body.isEmpty := by
  cases body <;> rfl

theorem retypePairs_isEmpty (pairs : List (Expr × Expr)) :
    (retypePairs keep pairs).isEmpty = pairs.isEmpty := by
  cases pairs <;> rfl

end Untyped

theorem Param.type_retype (param : Param) : (param.retype false).type = none := by
  cases param
  rfl

theorem Sub.typeComment?_retype (sub : Sub) : (sub.retype false).typeComment? = none := by
  obtain ⟨name, params, body, isMethod, isStatic, returnType, remarks⟩ := sub
  have hparams : (retypeParams false params).all (·.type.isNone) = true := by
    induction params with
    | nil => rfl
    | cons param rest ih => rw [retypeParams, List.all_cons, param.type_retype, ih]; rfl
  simp only [Sub.retype, Sub.typeComment?, hparams]
  rfl

theorem writeArguments_retype (sub : Sub) :
    writeArguments (sub.retype false) = writeArguments sub := by
  obtain ⟨name, params, body, isMethod, isStatic, returnType, remarks⟩ := sub
  have hparams : (retypeParams false params).map (fun param => sigil param.ownShape ++ param.name) =
      params.map fun param => sigil param.ownShape ++ param.name := by
    induction params with
    | nil => rfl
    | cons param rest ih =>
      obtain ⟨name, shape, type, fallback, variadic⟩ := param
      rw [retypeParams, List.map_cons, ih]
      rfl
  simp only [writeArguments, Sub.retype, hparams]
  rfl

/-! ## Counting -/

/-- The lines of code that comments lead to. -/
def strays (l : LineLayout) (notes : List String) : Nat := (notes.map l.strayLines).sum

variable {l : LineLayout}

@[simp]
theorem strays_nil : strays l [] = 0 := rfl

@[simp]
theorem strays_cons (note : String) (notes : List String) :
    strays l (note :: notes) = l.strayLines note + strays l notes := rfl

@[simp]
theorem strays_append (notes notes' : List String) :
    strays l (notes ++ notes') = strays l notes + strays l notes' := by
  rw [strays, List.map_append, List.sum_append, strays, strays]

theorem strays_eq_zero_iff {notes : List String} :
    strays l notes = 0 ↔ ∀ note ∈ notes, codeLines (l.line 0 ("# " ++ note)) = [] := by
  induction notes with
  | nil => simp
  | cons note notes ih =>
    rw [strays_cons, Nat.add_eq_zero_iff, ih, strayLines, List.length_eq_zero_iff, List.forall_mem_cons]

/-! ## Leaving out comments and blank lines -/

namespace Emission

variable {inline : Bool}

@[simp]
def notes : {inline : Bool} → Emission inline → List String
  | _, note content => [content]
  | _, seq a b | _, opening a b | _, clause a b => a.notes ++ b.notes
  | _, block _ a | _, trimmed _ _ a | _, .line a | _, deeper a => a.notes
  | _, done | _, .text _ | _, gap _ | _, blank | _, lost _ => []

def glue : Emission inline → Emission inline → Emission inline
  | done, b => b
  | a, b => seq a b

/-- The emission without its blank lines, and without the types unless they are kept. -/
@[simp]
def strip (keep : Bool) : {inline : Bool} → Emission inline → Emission inline
  | _, seq a b => glue (a.strip keep) (b.strip keep)
  | _, note content => if keep then note content else done
  | _, blank => done
  | _, opening a b => opening (a.strip keep) (b.strip keep)
  | _, clause a b => clause (a.strip keep) (b.strip keep)
  | _, block head a => block head (a.strip keep)
  | _, trimmed lead h a => trimmed lead h (a.strip keep)
  | _, .line a => .line (a.strip keep)
  | _, deeper a => deeper (a.strip keep)
  | _, done => done
  | _, .text added => added
  | _, gap what => gap what
  | _, lost what => lost what

variable (a b : Emission inline)

@[simp]
theorem render_glue (l : Layout) (d : Nat) :
    (glue a b).render l d = a.render l d ++ b.render l d := by
  cases a <;> simp [glue]

@[simp]
theorem notes_glue : (glue a b).notes = a.notes ++ b.notes := by
  cases a <;> simp [glue]

@[simp]
theorem notes_strip (keep : Bool) : (a.strip keep).notes = if keep then a.notes else [] := by
  induction a with
  | note => cases keep <;> rfl
  | _ => cases keep <;> simp_all

theorem strip_of_notes (h : a.notes = []) : a.strip true = a.strip false := by
  induction a with
  | note => cases h
  | _ => simp_all

end Emission

/-! ## Reading -/

theorem reads_openBrace {d : Nat} {starts : Bool} :
    Reads 0 starts true (openBrace l d) (openBrace l d) := by
  unfold openBrace
  split
  · exact reads_lineEnding.lead _
  · exact reads_lineEnding.append (reads_same_line d _)

/-- Texts that are read alike, within a line or from line to line. -/
def Alike : (inline : Bool) → Nat → String → String → Prop
  | true => Inline
  | false => fun k => Reads k true true

/-- What is written is read like it without comments and blank lines, but for the lines of code that
the comments lead to. -/
theorem Emission.reads_strip {inline : Bool} (a : Emission inline) (d : Nat) :
    Alike inline (strays l a.notes) (a.render l d) ((a.strip false).render l d) := by
  induction a generalizing d with
  | @done inline =>
    cases inline with
    | true => exact .refl ""
    | false => exact .empty
  | @seq inline first second ih ih' =>
    simp only [render, notes, strip, render_glue, strays_append]
    cases inline with
    | true => exact (ih d).append (ih' d)
    | false => exact (ih d).append (ih' d)
  | text | gap => exact .refl _
  | block head body ih =>
    have hhead : Reads 0 false true (head ++ "\x7b" ++ l.lineEnding) _ := reads_lineEnding.lead _
    exact .of_reads (((hhead.append (ih (d + 1))).of_eq (Nat.zero_add _)).text _)
      (by decide : ink "\x7d" ≠ [])
  | trimmed lead h rest ih =>
    have hrest := (ih d).lead lead
    have htwice (text : String) : trimEnd (trimEnd text) = trimEnd text := by
      simp [trimEnd, dropEndWhile, List.dropWhile_idempotent]
    refine ⟨hrest.trimmed, ?_, ?_, ?_⟩
    · simp only [render, strip, htwice]
      exact hrest.trimmed
    · simp only [render, strip, ink_trimEnd]
      exact hrest.blank
    · simp only [render, ink_trimEnd]
      exact hrest.quiet
  | line text ih => exact reads_line d (ih d).reads
  | note text => exact (reads_note d text).of_eq (by simp [strays])
  | blank => exact reads_blankLine
  | deeper body ih => exact ih (d + 1)
  | opening header body ih ih' | clause header body ih ih' =>
    simp only [render, notes, strip, strays_append]
    exact (((ih d).reads.lead _).append reads_openBrace).append (ih' (d + 1))
  | lost => exact reads_lineEnding.lead _

/-! ## What is written without types -/

section Untyped

open Emission

/-- The first emission is the second one without types, whose comments lead to as many lines of code
as others do. -/
@[simp]
abbrev Untyped (l : LineLayout) {inline : Bool} (a' a : Emission inline) (notes : List String) :
    Prop :=
  a'.strip true = a.strip false ∧ strays l a.notes = strays l notes

variable {inline : Bool}

@[simp]
theorem strip_all (keep : Bool) : (all ([] : List (Emission inline))).strip keep = done ∧
      ∀ (a : Emission inline) (parts : List (Emission inline)),
        (all (a :: parts)).strip keep = glue (a.strip keep) ((all parts).strip keep) :=
  ⟨rfl, fun _ _ => rfl⟩

@[simp]
theorem notes_all : (all ([] : List (Emission inline))).notes = [] ∧
    ∀ (a : Emission inline) (parts : List (Emission inline)),
      (all (a :: parts)).notes = a.notes ++ (all parts).notes :=
  ⟨rfl, fun _ _ => rfl⟩

@[simp]
theorem strip_ite (keep : Bool) (p : Prop) [Decidable p] (a b : Emission inline) :
    (if p then a else b).strip keep = if p then a.strip keep else b.strip keep :=
  apply_ite (strip keep) ..

@[simp]
theorem notes_ite (p : Prop) [Decidable p] (a b : Emission inline) :
    (if p then a else b).notes = if p then a.notes else b.notes :=
  apply_ite notes ..

theorem notes_map {α : Type} (parts : List α) {a : α → Lines} (h : ∀ x, (a x).notes = []) :
    (all (parts.map a)).notes = [] := by
  induction parts with
  | nil => rfl
  | cons x parts ih => simp [h, ih]

@[simp]
theorem notes_writeRemarks (remarks : Remarks) : (writeRemarks remarks).notes = [] :=
  notes_map _ fun comment => notes_map _ fun text => by simp

@[simp]
theorem strip_writeRemarks (remarks : Remarks) :
    (writeRemarks remarks).strip true = (writeRemarks remarks).strip false :=
  strip_of_notes _ (notes_writeRemarks remarks)

section Positions

variable {e : Expr} {a' a : Phrase} {notes : List String} (h : Untyped l a' a notes)
include h

theorem untyped_wrapIf (wrap : Bool) :
    Untyped l (Emission.wrapIf wrap a') (Emission.wrapIf wrap a) notes := by
  cases wrap <;> simp [Emission.wrapIf, h]

theorem untyped_term : Untyped l ((e.retype false).writeTerm a') (e.writeTerm a) notes := by
  rw [Expr.writeTerm, Expr.writeTerm, e.needsWrapping_retype]
  exact untyped_wrapIf h _

theorem untyped_inBraces :
    Untyped l ((e.retype false).writeInBraces a') (e.writeInBraces a) notes := by
  simp [Expr.writeInBraces, e.isDoBlock_retype, h]

end Positions

attribute [local simp] Expr.retype Expr.typeNotes Expr.writeKey Expr.writeIndexHead
  Expr.writeKeyHead Expr.writeListName in
theorem untyped_position {e : Expr} {a' : Phrase} (h : Untyped l a' e.write e.typeNotes) :
    Untyped l ((e.retype false).writeKey a') (e.writeKey e.write) e.typeNotes ∧
    Untyped l ((e.retype false).writeIndexHead a') (e.writeIndexHead e.write) e.typeNotes ∧
    Untyped l ((e.retype false).writeKeyHead a') (e.writeKeyHead e.write) e.typeNotes ∧
    Untyped l ((e.retype false).writeListName a') (e.writeListName e.write) e.typeNotes := by
  have hterm := @untyped_term _ e _ _ _ h
  have hbraces := @untyped_inBraces _ e _ _ _ h
  cases e with
  | var name shape => cases shape <;> simp_all
  | string word => cases hword : isBareword word <;> simp_all
  | _ => simp_all

theorem strip_sections (keep : Bool) (parts : List (Option Lines)) :
    (sections parts).strip keep = ((parts.filterMap id).map (strip keep)).foldr glue done := by
  rw [sections]
  induction parts.filterMap id with
  | nil => rfl
  | cons a parts ih => cases parts <;> simp_all [glue]

theorem notes_sections (parts : List (Option Lines)) :
    (sections parts).notes = (parts.filterMap id).flatMap notes := by
  rw [sections]
  induction parts.filterMap id with
  | nil => rfl
  | cons a parts ih => cases parts <;> simp_all

theorem untyped_frame (sub : Sub) {a' a : Lines} {notes : List String}
    (h : Untyped l a' a notes) :
    Untyped l (frame (sub.retype false) a') (frame sub a) (sub.typeComment?.toList ++ notes) := by
  have hsame : (sub.retype false).remarks = sub.remarks ∧ (sub.retype false).name = sub.name := by
    cases sub
    exact ⟨rfl, rfl⟩
  cases hnote : sub.typeComment? <;>
    simp [frame, sub.typeComment?_retype, hsame, hnote, writeNote, h]

theorem writeFields_untyped (fields : List Field) : (writeFields fields).strip false = done ∧
    (writeFields fields).notes = fields.filterMap Field.typeNote? := by
  rw [writeFields]
  induction fields.filterMap Field.typeNote? with
  | nil => exact ⟨rfl, rfl⟩
  | cons note rest ih => simp [ih, glue]

theorem simpleNotes_of_all {body : List Stmt} (h : body.all isSimple = true) :
    body.flatMap simpleNotes = stmtsTypeNotes body := by
  induction body with
  | nil => rfl
  | cons stmt rest ih =>
    rw [List.all_cons, Bool.and_eq_true] at h
    rw [List.flatMap_cons, ih h.2, stmtsTypeNotes]
    obtain ⟨kind, remarks⟩ := stmt
    cases kind with
    | varDecl | expr => rfl
    | _ => cases h.1

attribute [local simp] Expr.retype Expr.write Expr.typeNotes Stmt.retype StmtKind.retype
  StmtKind.write StmtKind.typeNotes retypeStmts retypeExprs retypePairs retypeClause retypeOption
  retypeParams Param.retype stmtsTypeNotes clauseTypeNotes optionTypeNotes paramsTypeNotes
  exprsTypeNotes pairsTypeNotes writeExprs writePairs writeOption writeFallbacks writeElse

mutual

theorem Expr.untyped_write (e : Expr) : Untyped l (e.retype false).write e.write e.typeNotes := by
  cases e with
  | bool b => cases b <;> exact ⟨rfl, rfl⟩
  | assign a op b =>
    cases h : a.isAssignable <;> simp [h, a.isAssignable_retype, a.nodeType_retype,
      a.untyped_write, b.untyped_write]
  | unary op a =>
    cases h : op.standsAfter <;> simp [h, joinsMinus_retype, untyped_wrapIf a.untyped_write]
  | hashRef pairs =>
    cases pairs <;> simp [-retypePairs, untyped_writePairs _, retypePairs_isEmpty]
  | blockList op body a b =>
    cases h : body.all isSimple with
    | true =>
      simp [h, all_isSimple_retype, untyped_writeInline body, simpleNotes_of_all h,
        a.isHashRef_retype, a.untyped_write, b.untyped_write]
    | false =>
      simp [h, all_isSimple_retype, untyped_writeStmts body, a.untyped_write, b.untyped_write]
  | _ =>
    simp [untyped_term (Expr.untyped_write _), untyped_inBraces (Expr.untyped_write _),
      untyped_position (Expr.untyped_write _), untyped_wrapIf (Expr.untyped_write _),
      Expr.untyped_write _, untyped_writeExprs _, RegexSource.untyped_write _,
      Sub.untyped_writeBody _, untyped_writeStmts _]

theorem untyped_writeExprs : (es : List Expr) →
    Untyped l (writeExprs (retypeExprs false es)) (writeExprs es) (exprsTypeNotes es)
  | [] => ⟨rfl, rfl⟩
  | [e] => by simpa using e.untyped_write
  | e :: f :: es => by
    have hrest := untyped_writeExprs (f :: es)
    rw [exprsTypeNotes]
    simp only [retypeExprs] at hrest ⊢
    simp [e.untyped_write, hrest]

theorem untyped_writePairs : (pairs : List (Expr × Expr)) →
    Untyped l (writePairs (retypePairs false pairs)) (writePairs pairs) (pairsTypeNotes pairs)
  | [] => ⟨rfl, rfl⟩
  | [(a, b)] => by
    simp [untyped_position a.untyped_write, b.untyped_write]
  | (a, b) :: pair :: pairs => by
    have hrest := untyped_writePairs (pair :: pairs)
    rw [pairsTypeNotes]
    simp only [retypePairs] at hrest ⊢
    simp [untyped_position a.untyped_write, b.untyped_write, hrest]

theorem RegexSource.untyped_write :
    (source : RegexSource) → Untyped l (source.retype false).write source.write source.typeNotes
  | .pattern _ => ⟨rfl, rfl⟩
  | .quoted e => by
    simp [RegexSource.retype, RegexSource.write, RegexSource.typeNotes, e.untyped_write]

theorem untyped_writeOption (before : String) : (e : Option Expr) →
    Untyped l (writeOption before (retypeOption false e)) (writeOption before e) (optionTypeNotes e)
  | none => ⟨rfl, rfl⟩
  | some e => by simp [e.untyped_write]

theorem Stmt.untyped_writeSimple (stmt : Stmt) :
    Untyped l (stmt.retype false).writeSimple stmt.writeSimple stmt.simpleNotes := by
  obtain ⟨kind, remarks⟩ := stmt
  cases kind with
  | varDecl targets init =>
    simp [writeSimple, simpleNotes, untyped_writeOption _ init]
  | expr e => exact e.untyped_write
  | _ => exact ⟨rfl, rfl⟩

theorem untyped_writeInline : (body : List Stmt) →
    Untyped l (writeInline (retypeStmts false body)) (writeInline body)
      (body.flatMap simpleNotes)
  | [] => ⟨rfl, rfl⟩
  | stmt :: rest => by
    simp [writeInline, stmt.untyped_writeSimple, untyped_writeInline rest]

theorem untyped_writeStmts : (body : List Stmt) →
    Untyped l (writeStmts (retypeStmts false body)) (writeStmts body) (stmtsTypeNotes body)
  | [] => ⟨rfl, rfl⟩
  | stmt :: rest => by
    simp [writeStmts, stmt.untyped_write, untyped_writeStmts rest]

theorem Stmt.untyped_write :
    (stmt : Stmt) → Untyped l (stmt.retype false).write stmt.write stmt.typeNotes
  | ⟨kind, remarks⟩ => by simp [write, typeNotes, kind.untyped_write]

theorem StmtKind.untyped_write (kind : StmtKind) :
    Untyped l (kind.retype false).write kind.write kind.typeNotes := by
  cases kind with
  | loop label init cond step body =>
    cases init <;>
      simp [retypeInit, writeInit, initTypeNotes, Stmt.untyped_writeSimple _, Stmt.isSimple_retype,
        Stmt.nodeType_retype, untyped_writeOption _ cond, untyped_writeExprs step,
        untyped_writeStmts body]
  | «while» label cond body postTest =>
    cases postTest <;> simp [cond.untyped_write, untyped_writeStmts body, Nat.add_comm]
  | protect body handler cleanup native =>
    rcases handler with _ | ⟨var, handled⟩ <;> cases cleanup <;> cases native <;>
      simp [retypeHandler, handlerTypeNotes, untyped_writeStmts _]
  | raw text =>
    have hquiet : (StmtKind.raw text).write.notes = [] := notes_map (Text.lines text) fun _ => rfl
    exact ⟨strip_of_notes _ hquiet, congrArg (strays l) hquiet⟩
  | sub sub =>
    simp only [StmtKind.retype, StmtKind.write, StmtKind.typeNotes]
    exact untyped_frame sub sub.untyped_writeBody
  | _ =>
    simp [Expr.untyped_write _, untyped_writeOption _ _, untyped_writeStmts _,
      untyped_writeElsifs _, untyped_writeElse _, Package.untyped_write _]

theorem untyped_writeElsifs : (tests : List (Expr × List Stmt)) →
    Untyped l (writeElsifs (retypeBranches false tests)) (writeElsifs tests) (branchesTypeNotes tests)
  | [] => ⟨rfl, rfl⟩
  | (cond, body) :: rest => by
    simp [retypeBranches, writeElsifs, branchesTypeNotes, cond.untyped_write, untyped_writeStmts body,
      untyped_writeElsifs rest]

theorem untyped_writeElse : (branch : Option (List Stmt)) →
    Untyped l (writeElse (retypeClause false branch)) (writeElse branch) (clauseTypeNotes branch)
  | none | some [] => ⟨rfl, rfl⟩
  | some (first :: second :: rest) => by
    have hbody := untyped_writeStmts (first :: second :: rest)
    simp only [retypeStmts] at hbody
    simp [hbody]
  | some [⟨kind, ⟨location, comments⟩⟩] => by
    have hbody := untyped_writeStmts [⟨kind, ⟨location, comments⟩⟩]
    rcases comments with _ | _ <;> cases kind
    case nil.ifElse cond thenBranch elsifs elseBranch =>
      simp [typeNotes, cond.untyped_write, untyped_writeStmts thenBranch,
        untyped_writeElsifs elsifs, untyped_writeElse elseBranch]
    all_goals
      simp only [retypeStmts, retype, StmtKind.retype] at hbody
      simp [hbody]

theorem untyped_writeFallbacks : (params : List Param) →
    Untyped l (writeFallbacks (retypeParams false params)) (writeFallbacks params)
      (paramsTypeNotes params)
  | [] => ⟨rfl, rfl⟩
  | ⟨_, _, _, none, _⟩ :: rest => by
    simp [untyped_writeFallbacks rest]
  | ⟨_, _, _, some value, _⟩ :: rest => by
    simp [value.untyped_write, untyped_writeFallbacks rest]

theorem Sub.untyped_writeBody :
    (sub : Sub) → Untyped l (sub.retype false).writeBody sub.writeBody sub.innerNotes
  | ⟨name, params, body, isMethod, isStatic, returnType, remarks⟩ => by
    have harguments :=
      writeArguments_retype ⟨name, params, body, isMethod, isStatic, returnType, remarks⟩
    have hquiet (sub : Sub) : (writeArguments sub).notes = [] := by simp [writeArguments]
    simp only [Sub.retype] at harguments
    simp [Sub.retype, Sub.writeBody, Sub.innerNotes, harguments, hquiet, strip_of_notes _ (hquiet _),
      untyped_writeFallbacks params, untyped_writeStmts body]

theorem untyped_writeSubs : (subs : List Sub) →
    ((writeSubs (retypeSubs false subs)).filterMap fun a => a).map (strip true) =
      ((writeSubs subs).filterMap fun a => a).map (strip false) ∧
    strays l (((writeSubs subs).filterMap fun a => a).flatMap notes) = strays l (subsTypeNotes subs)
  | [] => ⟨rfl, rfl⟩
  | sub :: rest => by
    simp [retypeSubs, writeSubs, subsTypeNotes, untyped_frame sub sub.untyped_writeBody,
      untyped_writeSubs rest, Nat.add_assoc]

theorem Package.untyped_write :
    (package : Package) → Untyped l (package.retype false).write package.write package.typeNotes
  | ⟨_, base, fields, methods, staticInit, blockForm, remarks⟩ => by
    have hnone : (fields.map (·.retype false)).all (·.type.isNone) = true := by
      simp [Field.retype, keepType]
    have hnotes (h : fields.all (·.type.isNone) = true) : fields.filterMap Field.typeNote? = [] := by
      simp_all [Field.typeNote?]
    have hinit := untyped_writeStmts staticInit
    cases hfields : fields.all (·.type.isNone) <;> cases base <;> cases blockForm <;>
      cases staticInit <;> simp [-List.all_map, -List.all_eq_true, -retypeStmts, Package.retype,
        Package.write, Package.typeNotes, hnone, hfields, hnotes, strip_sections, notes_sections,
        retypeStmts_isEmpty, writeFields_untyped, hinit, untyped_writeSubs methods, glue,
        Nat.add_assoc]

end

end Untyped

/-! ## Files -/

theorem untyped_writeTopLevel (body : List Stmt) :
    Untyped l (writeTopLevel (retypeStmts false body)) (writeTopLevel body)
      (stmtsTypeNotes body) := by
  induction body with
  | nil => exact ⟨rfl, rfl⟩
  | cons stmt rest ih =>
    cases rest with
    | nil => simp [retypeStmts, writeTopLevel, stmtsTypeNotes, stmt.untyped_write (l := l)]
    | cons =>
      rw [stmtsTypeNotes]
      simp only [retypeStmts] at ih ⊢
      rw [writeTopLevel, writeTopLevel]
      simp [ih, stmt.untyped_write (l := l), isSpaced_retype]

theorem Module.untyped_write (module : Module) :
    Untyped l module.untyped.write module.write module.typeNotes := by
  have huses : (Emission.all ((module.pragmas ++ module.uses).map Use.write)).notes = [] :=
    notes_map _ fun _ => rfl
  cases hname : module.name <;>
    simp [-List.map_append, Module.write, Module.untyped, Module.typeNotes, hname, huses,
      Emission.strip_of_notes _ huses, retypeStmts_isEmpty,
      untyped_writeTopLevel module.body (l := l)]

/-- **A file with types is read like the file without them**, but for the lines in which the comments
with types go on. -/
theorem Module.reads_print (module : Module) :
    Reads (strays l module.typeNotes) true true (module.print l) (module.untyped.print l) := by
  obtain ⟨hstrip, hnotes⟩ := @Module.untyped_write l module
  -- Without its types the file has no such comments.
  have hnone : module.untyped.write.notes = [] := by
    have hkept := module.untyped.write.notes_strip true
    rw [hstrip, Emission.notes_strip] at hkept
    simpa using hkept.symm
  rw [Emission.strip_of_notes _ hnone] at hstrip
  have htyped : Reads _ true true _ _ := module.write.reads_strip 0 (l := l)
  have huntyped : Reads _ true true _ _ := module.untyped.write.reads_strip 0 (l := l)
  rw [hnone, hstrip] at huntyped
  rw [← module.render_write, ← module.untyped.render_write, ← hnotes]
  exact htyped.trans huntyped.symm

/-- **Types are comments.** The lines of code of a file with types are those of the file without
them, exactly if no comment with types goes on in a line of code. -/
theorem Module.codeLines_print_iff (module : Module) :
    codeLines (module.print l) = codeLines (module.untyped.print l) ↔
      ∀ note ∈ module.typeNotes, codeLines (l.line 0 ("# " ++ note)) = [] := by
  obtain ⟨hmore, hline⟩ := module.reads_print.run (More.refl Reading.start) fun _ => rfl
  have hclose := hmore.close
  rw [← strays_eq_zero_iff, codeLines_eq, codeLines_eq]
  constructor
  · intro hsame
    have hlength := hclose.length
    rw [hsame] at hlength
    omega
  · intro hzero
    have hlength := hclose.length
    rw [hzero] at hlength
    exact (hclose.kept.eq_of_length hlength.symm).symm

end Scriptgen.Perl
