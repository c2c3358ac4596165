import Scriptgen.Perl.Print
import Scriptgen.Proofs.CodeLines
/-!
# Emitting Perl

What is written for each part of a Perl program, step by step. `Module.render_write` says that it is
what the printer prints. What depends on the layout or on types is in few steps, so that it is shown
for them and not for each kind of statement.
-/

namespace Scriptgen.Perl

open Text

/-- **What is written**, within a line or from the start of a line to the start of another. -/
inductive Emission : (inline : Bool) → Type
  | done {inline : Bool} : Emission inline
  | seq {inline : Bool} (first second : Emission inline) : Emission inline
  | text (text : String) : Emission true
  /-- Lines in braces. -/
  | block (head : String) (body : Emission false) : Emission true
  /-- A mark in the place of something that cannot be written. -/
  | gap (what : String) : Emission true
  /-- Without the blanks at its end. -/
  | trimmed (lead : String) (h : ink lead ≠ []) (rest : Emission true) : Emission true
  | line (text : Emission true) : Emission false
  /-- A comment with a type. -/
  | note (text : String) : Emission false
  | blank : Emission false
  | deeper (body : Emission false) : Emission false
  /-- A header with its block, up to the closing brace. -/
  | opening (header : Emission true) (body : Emission false) : Emission false
  /-- The closing brace of a block, and a further clause. -/
  | clause (header : Emission true) (body : Emission false) : Emission false
  /-- A line with a mark only. -/
  | lost (what : String) : Emission false

abbrev Phrase := Emission true

abbrev Lines := Emission false

namespace Emission

instance : Coe String (Phrase) := ⟨text⟩

def all {inline : Bool} (parts : List (Emission inline)) : Emission inline := parts.foldr seq done

/-- Sections with a blank line between them, without those that are absent. -/
def sections (parts : List (Option (Lines))) : Lines :=
  all ((parts.filterMap id).intersperse blank)

def wrapIf (wrap : Bool) (text : Phrase) : Phrase :=
  if wrap then all ["(", text, ")"] else text

end Emission

open Emission (all line)

def writeRemarks (remarks : Remarks) : Lines :=
  all (remarks.comments.map fun comment => all ((lines comment.text).map fun text =>
    let text := comment.bare text
    if text.isEmpty then if comment.block then .done else line "#" else line ("# " ++ text)))

/-! ## Where an expression stands -/

def Expr.writeTerm (e : Expr) (text : Phrase) : Phrase :=
  .wrapIf e.needsWrapping text

def Expr.writeInBraces (e : Expr) (text : Phrase) : Phrase :=
  all ["\x7b" ++ (if e.isDoBlock then "+" else ""), text, "\x7d"]

def Expr.writeKey (key : Expr) (text : Phrase) : Phrase :=
  match key with
  | .string word => if isBareword word then word else text
  | _ => text

def Expr.writeIndexHead (base : Expr) (text : Phrase) : Phrase :=
  match base with
  | .var name .list => "$" ++ name ++ "["
  | _ => all [base.writeTerm text, "->["]

def Expr.writeKeyHead (base : Expr) (text : Phrase) : Phrase :=
  match base with
  | .var name .map => "$" ++ name ++ "\x7b"
  | _ => all [base.writeTerm text, "->\x7b"]

def Expr.writeListName (list : Expr) (text : Phrase) : Phrase :=
  match list with
  | .var name .list => name
  | _ => list.writeInBraces text

/-! ## Declarations -/

def writeArguments (sub : Sub) : Lines :=
  let vars := (sub.invocant?.map ("$" ++ ·)).toList ++
    sub.params.map fun param => sigil param.ownShape ++ param.name
  if vars.isEmpty then .done else line ("my (" ++ String.intercalate ", " vars ++ ") = @_;")

def writeNote : Option String → Lines
  | some note => .note note
  | none => .done

def frame (sub : Sub) (body : Lines) : Lines :=
  all [writeRemarks sub.remarks, writeNote sub.typeComment?, .opening ("sub " ++ sub.name) body,
    line "\x7d"]

def Field.typeNote? (field : Field) : Option String :=
  field.type.map fun type =>
    (if field.isStatic then "class field " else "field ") ++ field.name ++ ": " ++ type.print

def writeFields (fields : List Field) : Lines :=
  all ((fields.filterMap Field.typeNote?).map .note)

def Use.write (use : Use) : Lines :=
  let imports :=
    if use.qualified then " ();"
    else if use.imports.isEmpty then ";"
    else " qw(" ++ String.intercalate " " use.imports ++ ");"
  line ((if use.off then "no " else "use ") ++ use.module ++ imports)

theorem ink_loopHead (label : Option String) : ink (labelMark label ++ "for (") ≠ [] := by
  simp [ink_append, show ink "for (" = ['f', 'o', 'r', '('] from rfl]

/-! ## Expressions and statements -/

mutual

def Expr.write : Expr → Phrase
  | .number text | .raw text => text
  | .string text => quoteString text
  | .bool b => if b then "1" else "0"
  | .undefined => "undef"
  | .var name shape => sigil shape ++ name
  | .index base index => all [base.writeIndexHead base.write, index.write, "]"]
  | .key base key => all [base.writeKeyHead base.write, key.writeKey key.write, "\x7d"]
  | .slice list indices => all ["@", list.writeListName list.write, "[", indices.write, "]"]
  | .lastIndex list => all ["$#", list.writeListName list.write]
  | .deref e shape => all [sigil shape, e.writeInBraces e.write]
  | .binary op left right leftParens rightParens =>
    all [.wrapIf leftParens left.write, " " ++ op.symbol ++ " ", .wrapIf rightParens right.write]
  | .unary op operand parens =>
    if op.standsAfter then all [.wrapIf parens operand.write, op.symbol]
    else all [op.symbol, .wrapIf (parens || (op == .neg && joinsMinus operand)) operand.write]
  | .assign target op value =>
    if target.isAssignable then
      all [target.write, " " ++ (op.map BinaryOp.symbol).getD "" ++ "= ", value.write]
    else all [.gap ("assignment target " ++ target.nodeType), value.write]
  | .call name args => all [name ++ "(", writeExprs args, ")"]
  | .callCode code args => all [code.writeTerm code.write, "->(", writeExprs args, ")"]
  | .callMethod invocant name args =>
    all [invocant.writeTerm invocant.write, "->" ++ name ++ "(", writeExprs args, ")"]
  | .callClass className name args =>
    all [className ++ "->" ++ name ++ "(", writeExprs args, ")"]
  | .arrayRef items => all ["[", writeExprs items, "]"]
  | .hashRef pairs =>
    if pairs.isEmpty then "\x7b\x7d" else all ["\x7b ", writePairs pairs, " \x7d"]
  | .list items => all ["(", writeExprs items, ")"]
  | .ternary cond thenExpr elseExpr =>
    all [cond.write, " ? ", thenExpr.write, " : ", elseExpr.write]
  | .anonSub sub => .block "sub " sub.writeBody
  | .new className args => all [className ++ "->new(", writeExprs args, ")"]
  | .bless data className => all ["bless(", data.write, ", ", className.write, ")"]
  | .doBlock body => .block "do " (writeStmts body)
  | .blockList op body result list =>
    all [op.name,
      if body.all Stmt.isSimple then
        all [" \x7b ", writeInline body, .text (if result.isHashRef then "+" else ""), result.write,
          " \x7d "]
      else
        all [.block " " (all [writeStmts body, line result.write]), " "],
      list.write]
  | .regex source flags => all ["qr\x7b", source.write, "\x7d" ++ flags]
  | .substitute target source replacement everywhere =>
    all [target.writeTerm target.write, " =~ s\x7b", source.write, "\x7d\x7b", replacement.write,
      "\x7d" ++ if everywhere then "ger" else "er"]
  | .paren inner => all ["(", inner.write, ")"]

def writeExprs : List Expr → Phrase
  | [] => .done
  | [e] => e.write
  | e :: rest => all [e.write, ", ", writeExprs rest]

def writePairs : List (Expr × Expr) → Phrase
  | [] => .done
  | [(key, value)] => all [key.writeKey key.write, " => ", value.write]
  | (key, value) :: rest =>
    all [key.writeKey key.write, " => ", value.write, ", ", writePairs rest]

def RegexSource.write : RegexSource → Phrase
  | .pattern text => text
  | .quoted e => all ["\\Q$\x7b\\ ", e.write, "\x7d\\E"]

def writeOption (before : String) : Option Expr → Phrase
  | none => .done
  | some e => all [before, e.write]

def Stmt.writeSimple : Stmt → Phrase
  | ⟨.varDecl targets init scope, _⟩ =>
    all [scope.keyword ++ " " ++ printTargets targets, writeOption " = " init]
  | ⟨.expr e, _⟩ => e.write
  | _ => .done

def writeInit : Option Stmt → Phrase
  | none => .done
  | some stmt => stmt.writeSimple

def writeInline : List Stmt → Phrase
  | [] => .done
  | stmt :: rest => all [stmt.writeSimple, "; ", writeInline rest]

def writeStmts : List Stmt → Lines
  | [] => .done
  | stmt :: rest => all [stmt.write, writeStmts rest]

def Stmt.write : Stmt → Lines
  | ⟨kind, remarks⟩ => all [writeRemarks remarks, kind.write]

def StmtKind.write : StmtKind → Lines
  | .block label body =>
    all [line (labelMark label ++ "\x7b"), .deeper (writeStmts body), line "\x7d"]
  | .varDecl targets init scope =>
    line (all [scope.keyword ++ " " ++ printTargets targets, writeOption " = " init, ";"])
  | .expr e => line (all [e.write, ";"])
  | .ret value => line (all ["return", writeOption " " value, ";"])
  | .ifElse cond thenBranch elsifs elseBranch =>
    all [.opening (all ["if (", cond.write, ")"]) (writeStmts thenBranch), writeElsifs elsifs,
      writeElse elseBranch, line "\x7d"]
  | .loop label init cond step body =>
    let lost : Lines :=
      match init with
      | some init =>
        if init.isSimple then .done else .lost ("for-loop initializer " ++ init.kind.nodeType)
      | none => .done
    all [.opening (all [.trimmed (labelMark label ++ "for (") (ink_loopHead label)
        (all [writeInit init, "; ", writeOption "" cond, "; ", writeExprs step]), ")"])
      (all [lost, writeStmts body]), line "\x7d"]
  | .foreach label var list body =>
    all [.opening (all [labelMark label ++ "for my $" ++ var ++ " (", list.write, ")"])
      (writeStmts body), line "\x7d"]
  | .while label cond body postTest =>
    if postTest then
      all [.opening (labelMark label ++ "while (1)") (writeStmts body),
        .clause "continue" (line (all ["last if !(", cond.write, ");"])), line "\x7d"]
    else
      all [.opening (all [labelMark label ++ "while (", cond.write, ")"]) (writeStmts body),
        line "\x7d"]
  | .jump kind label => line (kind.keyword ++ (label.map (" " ++ ·)).getD "" ++ ";")
  | .die value => line (all ["die ", value.write, ";"])
  | .protect body handler cleanup native =>
    if native then
      all [.opening "try" (writeStmts body),
        match handler with
        | some (var, body) => .clause ("catch ($" ++ var ++ ")") (writeStmts body)
        | none => .clause "catch ($__error)" (line "die $__error;"),
        match cleanup with
        | some body => .clause "finally" (writeStmts body)
        | none => .done,
        line "\x7d"]
    else
      match cleanup with
      | none =>
        all [.opening "eval" (all [writeStmts body, line "1;"]),
          .clause "or do" (match handler with
            | some (var, body) => all [line ("my $" ++ var ++ " = $@;"), writeStmts body]
            | none => .done),
          line "\x7d;"]
      | some cleanup =>
        all [line "\x7b",
          .deeper (all [.opening "my $__ok = eval" (all [writeStmts body, line "1;"]),
            line "\x7d;", line "my $__error = $@;",
            match handler with
            | some (var, body) =>
              all [.opening "if (!$__ok)"
                (all [line ("my $" ++ var ++ " = $__error;"), writeStmts body]), line "\x7d"]
            | none => .done,
            writeStmts cleanup,
            if handler.isNone then line "die $__error if !$__ok;" else .done]),
          line "\x7d"]
  | .package package => package.write
  | .sub sub => frame sub sub.writeBody
  | .raw text => all ((lines text).map fun (text : String) => line text)

def writeElsifs : List (Expr × List Stmt) → Lines
  | [] => .done
  | (cond, body) :: rest =>
    all [.clause (all ["elsif (", cond.write, ")"]) (writeStmts body), writeElsifs rest]

def writeElse : Option (List Stmt) → Lines
  | none => .done
  | some [⟨.ifElse cond thenBranch elsifs elseBranch, ⟨_, []⟩⟩] =>
    all [.clause (all ["elsif (", cond.write, ")"]) (writeStmts thenBranch), writeElsifs elsifs,
      writeElse elseBranch]
  | some body => .clause "else" (writeStmts body)

def writeFallbacks : List Param → Lines
  | [] => .done
  | ⟨name, _, _, fallback, _⟩ :: rest =>
    all [match fallback with
      | some value => line (all ["$" ++ name ++ " //= ", value.write, ";"])
      | none => .done, writeFallbacks rest]

def Sub.writeBody : Sub → Lines
  | ⟨name, params, body, isMethod, isStatic, returnType, remarks⟩ =>
    all [writeArguments ⟨name, params, body, isMethod, isStatic, returnType, remarks⟩,
      writeFallbacks params, writeStmts body]

def writeSubs : List Sub → List (Option (Lines))
  | [] => []
  | sub :: rest => some (frame sub sub.writeBody) :: writeSubs rest

def Package.write : Package → Lines
  | ⟨name, base, fields, methods, staticInit, blockForm, remarks⟩ =>
    let body : Lines := .sections
      ([base.map fun base => line ("use parent -norequire, " ++ quoteString base ++ ";"),
        if fields.all (·.type.isNone) then none else some (writeFields fields),
        if staticInit.isEmpty then none else some (writeStmts staticInit)] ++ writeSubs methods)
    all [writeRemarks remarks,
      if blockForm then .opening ("package " ++ name) body
      else all [line "\x7b", .deeper (all [line ("package " ++ name ++ ";"), body])],
      line "\x7d"]

end

/-! ## Files -/

def writeTopLevel : List Stmt → Lines
  | [] => .done
  | stmt :: rest =>
    all [stmt.write,
      match rest with
      | [] => .done
      | next :: _ => if stmt.isSpaced || next.isSpaced then .blank else .done,
      writeTopLevel rest]

def Module.write (module : Module) : Lines :=
  let uses := module.pragmas ++ module.uses
  all [writeRemarks module.remarks,
    all (module.name.map fun name => line ("package " ++ name ++ ";")).toList,
    all (uses.map Use.write),
    if (module.name.isSome || !uses.isEmpty) && !module.body.isEmpty then .blank else .done,
    writeTopLevel module.body,
    if module.name.isSome then all [if module.body.isEmpty then .done else .blank, line "1;"]
    else .done]

/-! ## What is written is what is printed -/

/-- A closing brace and what leads to the header of a further clause. -/
def closing (l : Layout) (d : Nat) : String :=
  match l.braces with
  | .sameLine => trimEnd (closeBrace l d) ++ " "
  | .nextLine => closeBrace l d ++ l.pad d

namespace Emission

variable {inline : Bool} (l : Layout)

@[simp]
def render : {inline : Bool} → Emission inline → Nat → String
  | _, done, _ => ""
  | _, seq first second, d => first.render d ++ second.render d
  | _, .text added, _ => added
  | _, block head body, d =>
    head ++ "\x7b" ++ l.lineEnding ++ body.render (d + 1) ++ l.pad d ++ "\x7d"
  | _, gap what, d => Perl.gap l d what
  | _, trimmed lead _ rest, d => trimEnd (lead ++ rest.render d)
  | _, .line content, d => l.line d (content.render d)
  | _, note content, d => l.line d ("# " ++ content)
  | _, blank, _ => l.lineEnding
  | _, deeper body, d => body.render (d + 1)
  | _, opening header body, d =>
    l.pad d ++ header.render d ++ openBrace l d ++ body.render (d + 1)
  | _, clause header body, d =>
    closing l d ++ header.render d ++ openBrace l d ++ body.render (d + 1)
  | _, lost what, d => trimEnd (l.pad d ++ Perl.gap l d what) ++ l.lineEnding

variable (d : Nat)

@[simp]
theorem render_all :
    (all ([] : List (Emission inline))).render l d = "" ∧
      ∀ (a : Emission inline) (parts : List (Emission inline)),
        (all (a :: parts)).render l d = a.render l d ++ (all parts).render l d :=
  ⟨rfl, fun _ _ => rfl⟩

@[simp]
theorem render_ite (p : Prop) [Decidable p] (a b : Emission inline) :
    (if p then a else b).render l d = if p then a.render l d else b.render l d :=
  apply_ite (render l · d) ..

theorem render_map {α : Type} (parts : List α) (a : α → Lines) :
    (all (parts.map a)).render l d = String.join (parts.map fun x => (a x).render l d) := by
  induction parts with
  | nil => rfl
  | cons x parts ih => simp [ih, String.join_cons]

theorem render_sections (parts : List (Option (Lines))) :
    (sections parts).render l d = joinSections l (parts.map (Option.map (render l · d))) := by
  have hpresent : (parts.map (Option.map (render l · d))).filterMap id =
      (parts.filterMap id).map (render l · d) := by
    induction parts with
    | nil => rfl
    | cons part parts ih =>
      cases part with
      | none => exact ih
      | some => exact congrArg _ ih
  rw [sections, joinSections, hpresent]
  induction parts.filterMap id with
  | nil => rfl
  | cons a parts ih =>
    cases parts with
    | nil => simp
    | cons =>
      rw [List.map_cons] at ih
      rw [List.map_cons, List.map_cons, String.intercalate_cons_cons, ← ih]
      simp [String.append_assoc]

@[simp]
theorem render_wrapIf (wrap : Bool) (a : Phrase) :
    (wrapIf wrap a).render l d = Perl.wrapIf wrap (a.render l d) := by
  cases wrap <;> simp [wrapIf, Perl.wrapIf, String.append_assoc]

end Emission

variable (l : Layout) (d : Nat)

attribute [local simp] String.append_assoc Expr.write Expr.print StmtKind.write StmtKind.print
  writeOption writeElse printElse writeExprs printExprs writePairs printPairs

@[simp]
theorem render_writeRemarks (remarks : Remarks) :
    (writeRemarks remarks).render l d = remarks.print l d := by
  rw [writeRemarks, Emission.render_map, Remarks.print]
  congr 2
  funext comment
  rw [Emission.render_map, Comment.print]
  congr 2
  funext text
  simp only [Emission.render_ite]
  rfl

section Positions

variable (e : Expr) (a : Phrase)

@[simp]
theorem render_position :
    (e.writeTerm a).render l d = asTerm e (a.render l d) ∧
    (e.writeInBraces a).render l d = inBraces e (a.render l d) ∧
    (e.writeKey a).render l d = asKey e (a.render l d) ∧
    (e.writeIndexHead a).render l d = indexHead e (a.render l d) ∧
    (e.writeKeyHead a).render l d = keyHead e (a.render l d) ∧
    (e.writeListName a).render l d = listName e (a.render l d) := by
  refine ⟨?_, ?_, ?_, ?_, ?_, ?_⟩
  · simp [Expr.writeTerm, asTerm]
  · simp [Expr.writeInBraces, inBraces]
  · cases e <;> simp [Expr.writeKey, asKey]
  all_goals
    simp only [Expr.writeIndexHead, indexHead, Expr.writeKeyHead, keyHead, Expr.writeListName,
      listName]
    split <;> simp [Expr.writeTerm, asTerm, Expr.writeInBraces, inBraces]

end Positions

theorem chainClause_closed (before header : String) :
    chainClause l d (before ++ closeBrace l d) header =
      before ++ closing l d ++ header ++ openBrace l d := by
  have hbrace : ink (closeBrace l d) ≠ [] := by
    simp [closeBrace, Layout.line, ink_append, show ink "\x7d" = ['\x7d'] from rfl]
  cases hbraces : l.braces <;> simp [chainClause, closing, hbraces, trimEnd_append, hbrace]

@[simp]
theorem render_frame (sub : Sub) (a : Lines) :
    (frame sub a).render l d = frameSub l d sub (a.render l (d + 1)) := by
  cases h : sub.typeComment? <;> simp [frame, frameSub, writeNote, h, closeBrace]

@[simp]
theorem render_declaration :
    (∀ sub, (writeArguments sub).render l d = printArguments l d sub) ∧
    (∀ fields, (writeFields fields).render l d = printFields l d fields) ∧
    (∀ use : Use, use.write.render l d = use.print l d) := by
  refine ⟨fun sub => ?_, fun fields => ?_, fun use => ?_⟩
  · simp [writeArguments, printArguments]
  · rw [writeFields, Emission.render_map]
    simp [printFields, Field.typeNote?, List.map_filterMap, Function.comp_def]
  · simp [Use.write, Use.print]

mutual

theorem Expr.render_write (d : Nat) (e : Expr) : e.write.render l d = e.print l d := by
  cases e with
  | bool b => cases b <;> rfl
  | _ =>
    simp [Expr.render_write _ _, render_writeExprs _ _, render_writePairs _ _,
      RegexSource.render_write _ _, Sub.render_writeBody _ _, render_writeStmts _ _,
      render_writeInline _ _, Layout.line]

theorem render_writeExprs (d : Nat) :
    (es : List Expr) → (writeExprs es).render l d = printExprs l d es
  | [] => rfl
  | [e] => e.render_write d
  | e :: f :: es => by simp [e.render_write, render_writeExprs d (f :: es)]

theorem render_writePairs (d : Nat) :
    (pairs : List (Expr × Expr)) → (writePairs pairs).render l d = printPairs l d pairs
  | [] => rfl
  | [(a, b)] => by simp [a.render_write, b.render_write]
  | (a, b) :: pair :: pairs => by
    simp [a.render_write, b.render_write, render_writePairs d (pair :: pairs)]

theorem RegexSource.render_write (d : Nat) :
    (source : RegexSource) → source.write.render l d = source.print l d
  | .pattern _ => rfl
  | .quoted e => by simp [RegexSource.write, RegexSource.print, e.render_write]

theorem Stmt.render_writeSimple (d : Nat) (stmt : Stmt) :
    stmt.writeSimple.render l d = stmt.printSimple l d := by
  obtain ⟨kind, remarks⟩ := stmt
  cases kind with
  | varDecl targets init =>
    cases init <;> simp [Stmt.writeSimple, Stmt.printSimple, Expr.render_write _ _]
  | expr e => exact e.render_write d
  | _ => rfl

theorem render_writeInline (d : Nat) :
    (body : List Stmt) → (writeInline body).render l d = printInline l d body
  | [] => rfl
  | stmt :: rest => by
    simp [writeInline, printInline, stmt.render_writeSimple, render_writeInline d rest]

theorem render_writeStmts (d : Nat) :
    (body : List Stmt) → (writeStmts body).render l d = printStmts l d body
  | [] => rfl
  | stmt :: rest => by simp [writeStmts, printStmts, stmt.render_write, render_writeStmts d rest]

theorem Stmt.render_write (d : Nat) : (stmt : Stmt) → stmt.write.render l d = stmt.print l d
  | ⟨kind, remarks⟩ => by simp [Stmt.write, Stmt.print, kind.render_write]

theorem StmtKind.render_write (d : Nat) (kind : StmtKind) :
    kind.write.render l d = kind.print l d := by
  cases kind with
  | varDecl targets init => cases init <;> simp [Expr.render_write _ _]
  | ret value => cases value <;> simp [-String.reduceAppend, Expr.render_write _ _]
  | ifElse cond thenBranch elsifs elseBranch =>
    rw [StmtKind.print, render_writeElsifs, render_writeElse]
    simp [closeBrace, cond.render_write, render_writeStmts _ _]
  | loop label init cond step body =>
    have htrim (rest : String) : trimEnd (l.pad d ++ (labelMark label ++ ("for (" ++ rest))) =
        l.pad d ++ trimEnd (labelMark label ++ ("for (" ++ rest)) := by
      rw [trimEnd_append, if_neg]
      simpa only [← String.append_assoc, ink_append (labelMark label ++ _), List.append_eq_nil_iff,
        not_and] using fun h => absurd h (ink_loopHead label)
    rcases init with _ | init <;> rcases cond with _ | cond <;>
      simp [-String.reduceAppend, closeBrace, writeInit, printOption, Stmt.render_writeSimple _ _,
        Expr.render_write _ _, render_writeExprs _ _, render_writeStmts _ _, htrim]
  | «while» label cond body postTest =>
    cases postTest <;> simp only [StmtKind.write, StmtKind.print, chainClause_closed] <;>
      simp [closeBrace, Layout.line, cond.render_write, render_writeStmts _ _]
  | protect body handler cleanup native =>
    rcases handler with _ | ⟨var, handled⟩ <;> cases cleanup <;> cases native <;>
      simp only [StmtKind.write, StmtKind.print, chainClause_closed] <;>
      simp [closeBrace, render_writeStmts _ _]
  | raw text => simp [Emission.render_map]
  | _ =>
    simp [closeBrace, Layout.line, Expr.render_write _ _, render_writeStmts _ _,
      Package.render_write _ _, Sub.render_writeBody _ _]

theorem render_writeElsifs (d : Nat) (before : String) : (tests : List (Expr × List Stmt)) →
    printElsifs l d (before ++ closeBrace l d) tests =
      before ++ (writeElsifs tests).render l d ++ closeBrace l d
  | [] => by simp [printElsifs, writeElsifs]
  | (cond, body) :: rest => by
    rw [printElsifs, chainClause_closed, render_writeElsifs d _ rest]
    simp [writeElsifs, cond.render_write, render_writeStmts _ body]

theorem render_writeElse (d : Nat) (before : String) : (branch : Option (List Stmt)) →
    printElse l d (before ++ closeBrace l d) branch =
      before ++ (writeElse branch).render l d ++ closeBrace l d
  | none => by simp
  | some [] | some (_ :: _ :: _) => by simp [chainClause_closed, render_writeStmts _ _]
  | some [⟨kind, ⟨_, comments⟩⟩] => by
    rcases comments with _ | _ <;> cases kind
    case nil.ifElse cond thenBranch elsifs elseBranch =>
      rw [printElse, chainClause_closed, render_writeElsifs, render_writeElse]
      simp [cond.render_write, render_writeStmts _ _]
    all_goals
      simp [chainClause_closed, render_writeStmts _ _]

theorem render_writeFallbacks (d : Nat) :
    (params : List Param) → (writeFallbacks params).render l d = printFallbacks l d params
  | [] => rfl
  | ⟨_, _, _, none, _⟩ :: rest => by
    simp [writeFallbacks, printFallbacks, render_writeFallbacks d rest]
  | ⟨_, _, _, some value, _⟩ :: rest => by
    simp [writeFallbacks, printFallbacks, value.render_write, render_writeFallbacks d rest]

theorem Sub.render_writeBody (d : Nat) :
    (sub : Sub) → sub.writeBody.render l (d + 1) = sub.printBody l d
  | ⟨_, params, body, _, _, _, _⟩ => by
    simp [Sub.writeBody, Sub.printBody, render_writeFallbacks _ params, render_writeStmts _ body]

theorem render_writeSubs (d : Nat) : (subs : List Sub) →
    (writeSubs subs).map (Option.map (·.render l d)) = printSubs l d subs
  | [] => rfl
  | sub :: rest => by simp [writeSubs, printSubs, sub.render_writeBody, render_writeSubs d rest]

theorem Package.render_write (d : Nat) :
    (package : Package) → package.write.render l d = package.print l d
  | ⟨_, base, fields, methods, staticInit, blockForm, remarks⟩ => by
    cases base <;> cases blockForm <;>
      simp [Package.write, Package.print, closeBrace, Emission.render_sections, apply_ite,
        render_writeStmts _ _, render_writeSubs _ _]

end

theorem render_writeTopLevel (d : Nat) (body : List Stmt) :
    (writeTopLevel body).render l d = printTopLevel l d body := by
  induction body with
  | nil => rfl
  | cons stmt rest ih =>
    cases rest with
    | nil => simp [writeTopLevel, printTopLevel, stmt.render_write]
    | cons =>
      rw [writeTopLevel, printTopLevel, ← ih]
      simp [stmt.render_write]

theorem Module.render_write (module : Module) : module.write.render l 0 = module.print l := by
  cases hname : module.name <;>
    simp [-List.map_append, Module.write, Module.print, hname, Emission.render_map,
      render_writeTopLevel]

end Scriptgen.Perl
