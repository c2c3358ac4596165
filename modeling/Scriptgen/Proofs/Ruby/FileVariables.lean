import Scriptgen.Proofs.KeptBlocks
import Scriptgen.Proofs.Ruby.Conditions
/-!
# Variables of the top level in Ruby

A method sees no local variables from around it. Where a variable of the top level lives is settled
before anything is lowered, by what the definitions of the program mention, and from then on it is
the same expression at every place that does not shadow it: `fileVariable_uniform`. Definitions that
are not looked for may read a local variable that they do not see (`nestedProgram_reads_local`).
-/

namespace Scriptgen.Ruby

open Lowering
open Jumps (nameNode blockNode ifNode)

variable {stmts : List Node} {x : String} {isConst : Bool}

/-- An identifier somewhere in a definition is the name. -/
def Mentions (definition : Node) (x : String) : Prop :=
  ∃ n ∈ definition.allNodes, n.type = "Identifier" ∧ n.name? = some x

/-- If a name is declared around a place, then by the outermost scope alone. -/
def Unshadowed (scopes : Scopes) (x : String) : Prop :=
  (scopes.lookup? x).isSome = true → scopes.resolvesOutermost x = true

theorem mem_namesInDefinitions :
    x ∈ namesInDefinitions stmts ↔
      ∃ stmt ∈ stmts, ∃ definition, definition? stmt = some definition ∧ Mentions definition x := by
  simp only [namesInDefinitions, Mentions, List.mem_flatMap, List.mem_filterMap]
  constructor
  · rintro ⟨definition, ⟨stmt, hstmt, hdefinition⟩, n, hn, hname⟩
    split at hname
    · exact ⟨stmt, hstmt, definition, hdefinition, n, hn, by simp_all⟩
    · cases hname
  · rintro ⟨stmt, hstmt, definition, hdefinition, n, hn, htype, hname⟩
    exact ⟨definition, ⟨stmt, hstmt, hdefinition⟩, n, hn, by simp [htype, hname]⟩

theorem lookup_varKinds (h : (topLevelVariables stmts).lookup x = some isConst) :
    (outlineOf stmts).varKinds.lookup x =
      some (variableKind (namesInDefinitions stmts) x isConst) := by
  simp only [outlineOf]
  generalize topLevelVariables stmts = declared at h ⊢
  induction declared with
  | nil => cases h
  | cons first rest ih =>
    rw [List.lookup_cons] at h
    rw [List.map_cons, List.lookup_cons]
    cases heq : x == first.1 with
    | true =>
      obtain rfl := beq_iff_eq.1 heq
      rw [heq] at h
      cases h
      rfl
    | false =>
      rw [heq] at h
      exact ih h

/-- The expression of a variable that no scope inside shadows. -/
def fileVariable (stmts : List Node) (x : String) (isConst : Bool) : Expr :=
  match variableKind (namesInDefinitions stmts) x isConst with
  | .global => .var (plainName x) .global
  | .constant => .constant (constantName x)
  | _ => .localVar (localName x)

theorem variableIn_of_unshadowed (h : (topLevelVariables stmts).lookup x = some isConst)
    {scopes : Scopes} (hscopes : Unshadowed scopes x) :
    variableIn scopes (outlineOf stmts) x = fileVariable stmts x isConst := by
  rw [variableIn, if_neg, lookup_varKinds h, fileVariable]
  · cases variableKind (namesInDefinitions stmts) x isConst <;> rfl
  · simp only [Bool.and_eq_true, Bool.not_eq_true', not_and, Bool.not_eq_false]
    exact hscopes

theorem fileVariable_eq_localVar_iff :
    fileVariable stmts x isConst = .localVar (localName x) ↔
      ¬ (isConst = true ∧ startsUpper x = true) ∧ x ∉ namesInDefinitions stmts := by
  rw [fileVariable, variableKind, ← Bool.and_eq_true, ← List.contains_iff_mem]
  cases isConst && startsUpper x <;> cases (namesInDefinitions stmts).contains x <;>
    simp [Expr.constant, Expr.localVar]

/-- **A variable of the top level is one expression**, wherever it is read or set and not shadowed,
unless it has the name of a constant of the language. It is local exactly if it is no constant and
none of the definitions that are found mentions it. -/
theorem fileVariable_uniform (h : (topLevelVariables stmts).lookup x = some isConst)
    (hname : x ∉ ["undefined", "NaN", "Infinity"]) :
    ∃ e, (∀ context s, context.outline = outlineOf stmts → Unshadowed s.scopes x →
      (∀ below, variableHere x below context s = (e, s)) ∧
        ∀ node height, IsName node x →
          (level (height + 1)).expr node context s = (some e, s)) ∧
    (e = .localVar (localName x) ↔ ¬ (isConst = true ∧ startsUpper x = true) ∧
      ∀ stmt ∈ stmts, ∀ definition, definition? stmt = some definition →
        ¬ Mentions definition x) := by
  refine ⟨fileVariable stmts x isConst, fun context s houtline hscopes => ?_, ?_⟩
  · have hdeclared : isDeclared context s x = true := by
      rw [isDeclared, houtline, lookup_varKinds h]
      simp
    have hvariable := variableIn_of_unshadowed h hscopes
    rw [← houtline] at hvariable
    refine ⟨fun below => Prod.ext hvariable rfl, fun node height hnode => ?_⟩
    have hholds : HoldsVariable context s x := ⟨by simpa using hname, by simp [hdeclared]⟩
    have hlower := expr_of_isName hnode hholds (level height)
    rwa [variableOf, if_pos hdeclared, hvariable] at hlower
  · rw [fileVariable_eq_localVar_iff, mem_namesInDefinitions]
    simp

/-- The program `let a = true; if (c) { function f() { return a; } }`. -/
def nestedProgram : Node :=
  let result : Node := .of "ReturnStatement" [("argument", (nameNode "a").toJson)]
  let function : Node := .of "FunctionDeclaration" [("id", (nameNode "f").toJson),
    ("params", .array []), ("body", (blockNode [result]).toJson)]
  .of "Program" [("body", .array [(letFlag "a" true).toJson,
    (ifNode (nameNode "c") (blockNode [function])).toJson])]

theorem fileVariable_uniform_nestedProgram :
    ∃ e, ∀ context s, context.outline = outlineOf (topLevelStatements nestedProgram) →
      Unshadowed s.scopes "a" → ∀ below, variableHere "a" below context s = (e, s) := by
  obtain ⟨e, he, -⟩ := @fileVariable_uniform (topLevelStatements nestedProgram) "a" false
    (by decide +kernel) (by decide)
  exact ⟨e, fun context s houtline hscopes => (he context s houtline hscopes).1⟩

/-- The function in the branch is not found. It becomes a method that reads a local variable. -/
theorem nestedProgram_reads_local :
    (generate .defaults nestedProgram).1.print (.ofOptions .defaults "  ") =
      "# frozen_string_literal: true\n\na = true\nif c\n  def f\n    a\n  end\nend\n" := by
  decide +kernel

end Scriptgen.Ruby
