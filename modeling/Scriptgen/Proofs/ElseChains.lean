import Scriptgen.Proofs.Perl.Blanks
import Scriptgen.Proofs.Ruby.Blanks
/-!
# Chains of tests

The last branch of an `if` statement may be another one without comments. The printers go on with
its tests there, and so print a nested statement as the flat one that has all the tests itself
(`nested_tests_print_flat`). Any other last branch is printed as a block.
-/

namespace Scriptgen

open List

namespace Perl

/-- The further tests of an `if` statement with their bodies, and its last branch, after last
branches that continue the chain have been taken into it. -/
def flatten (elsifs : List (Expr × List Stmt)) :
    Option (List Stmt) → List (Expr × List Stmt) × Option (List Stmt)
  | some [⟨.ifElse cond body inner last, ⟨_, []⟩⟩] => flatten (elsifs ++ (cond, body) :: inner) last
  | last => (elsifs, last)

variable (l : Layout) (d : Nat)

/-- A clause of an `if` statement, after its text so far. -/
def printClause (before head : String) (body : List Stmt) : String :=
  chainClause l d before head ++ printStmts l (d + 1) body ++ closeBrace l d

/-- Clauses for tests with their bodies, one after the other. -/
def printTests (before : String) (tests : List (Expr × List Stmt)) : String :=
  tests.foldl (fun before test =>
    printClause l d before ("elsif (" ++ test.1.print l d ++ ")") test.2)
    before

/-- An `if` statement whose last branch is a block. -/
def printFlat (cond : Expr) (body : List Stmt) (tests : List (Expr × List Stmt))
    (last : Option (List Stmt)) : String :=
  let first := l.pad d ++ "if (" ++ cond.print l d ++ ")" ++ openBrace l d ++
    printStmts l (d + 1) body ++ closeBrace l d
  let tested := printTests l d first tests
  last.elim tested (printClause l d tested "else")

theorem printElsifs_eq (before : String) (tests : List (Expr × List Stmt)) :
    printElsifs l d before tests = printTests l d before tests := by
  induction tests generalizing before with
  | nil => rw [printElsifs, printTests, foldl_nil]
  | cons test tests ih => rw [printElsifs, ih, printTests, printTests, foldl_cons, printClause]

variable (elsifs : List (Expr × List Stmt)) (last : Option (List Stmt))

theorem flatten_last : ∀ body ∈ (flatten elsifs last).2, continuesChain body = false := by
  fun_induction flatten elsifs last with
  | case1 elsifs cond body inner last line ih => exact ih
  | case2 elsifs last hlast =>
    rintro body rfl
    unfold continuesChain
    split
    · exact (hlast _ _ _ _ _ rfl).elim
    · rfl

/-- The printer of the last branch takes the chain apart as `flatten` does. -/
theorem printElse_eq (before : String) :
    printElse l d (printTests l d before elsifs) last =
      printElse l d (printTests l d before (flatten elsifs last).1) (flatten elsifs last).2 := by
  -- By the recursion of `flatten`: a nested statement adds its tests to the text so far.
  fun_induction flatten elsifs last with
  | case1 elsifs cond body inner last line ih =>
    rw [← ih, printElse, printElsifs_eq, printTests, printTests, printTests, foldl_append,
      foldl_cons, printClause]
  | case2 => rfl

theorem flatten_of_block {last : Option (List Stmt)}
    (h : ∀ body ∈ last, continuesChain body = false) :
    flatten elsifs last = (elsifs, last) := by
  unfold flatten
  split
  · exact absurd (h _ rfl) (by simp [continuesChain])
  · rfl

theorem printElse_block (before : String) {last : Option (List Stmt)}
    (h : ∀ body ∈ last, continuesChain body = false) :
    printElse l d before last = last.elim before (printClause l d before "else") := by
  cases last with
  | none => rw [printElse, Option.elim]
  | some body => rw [printElse_of_not_continues _ _ _ (h body rfl), Option.elim, printClause]

variable (cond : Expr) (body : List Stmt)

theorem print_ifElse :
    (StmtKind.ifElse cond body elsifs last).print l d =
      printFlat l d cond body (flatten elsifs last).1 (flatten elsifs last).2 := by
  rw [StmtKind.print, printElsifs_eq, printElse_eq,
    printElse_block _ _ _ (flatten_last elsifs last)]
  rfl

end Perl

namespace Ruby

def flatten (elsifs : List (Expr × List Stmt)) :
    Option (List Stmt) → List (Expr × List Stmt) × Option (List Stmt)
  | some [⟨.ifElse cond body inner last, ⟨_, []⟩⟩] => flatten (elsifs ++ (cond, body) :: inner) last
  | last => (elsifs, last)

variable (l : Layout) (d : Nat)

def printClause (head : String) (body : List Stmt) : String :=
  l.line d head ++ printStmts l (d + 1) body

def printFlat (cond : Expr) (body : List Stmt) (tests : List (Expr × List Stmt))
    (last : Option (List Stmt)) : String :=
  printClause l d ("if " ++ cond.print l d) body ++
    String.join (tests.map fun test => printClause l d ("elsif " ++ test.1.print l d) test.2) ++
    last.elim "" (printClause l d "else") ++ l.line d "end"

theorem printElsifs_eq (tests : List (Expr × List Stmt)) :
    printElsifs l d tests =
      String.join
        (tests.map fun test => printClause l d ("elsif " ++ test.1.print l d) test.2) := by
  induction tests with
  | nil => rw [printElsifs]; rfl
  | cons test tests ih => rw [printElsifs, ih, map_cons, String.join_cons, printClause]

variable (elsifs : List (Expr × List Stmt)) (last : Option (List Stmt))

theorem flatten_last : ∀ body ∈ (flatten elsifs last).2, continuesChain body = false := by
  fun_induction flatten elsifs last with
  | case1 elsifs cond body inner last line ih => exact ih
  | case2 elsifs last hlast =>
    rintro body rfl
    unfold continuesChain
    split
    · exact (hlast _ _ _ _ _ rfl).elim
    · rfl

theorem printElse_eq :
    printElsifs l d elsifs ++ printElse l d last =
      printElsifs l d (flatten elsifs last).1 ++ printElse l d (flatten elsifs last).2 := by
  -- Here the tests that move from the last branch to the others are a part of the text.
  fun_induction flatten elsifs last with
  | case1 elsifs cond body inner last line ih =>
    rw [← ih, printElse, printElsifs_eq, printElsifs_eq, printElsifs_eq, map_append,
      map_cons, String.join_append, String.join_cons, printClause]
    simp only [String.append_assoc]
  | case2 => rfl

theorem flatten_of_block {last : Option (List Stmt)}
    (h : ∀ body ∈ last, continuesChain body = false) :
    flatten elsifs last = (elsifs, last) := by
  unfold flatten
  split
  · exact absurd (h _ rfl) (by simp [continuesChain])
  · rfl

theorem printElse_block {last : Option (List Stmt)}
    (h : ∀ body ∈ last, continuesChain body = false) :
    printElse l d last = last.elim "" (printClause l d "else") := by
  cases last with
  | none => rw [printElse, Option.elim]
  | some body => rw [printElse_of_not_continues _ _ (h body rfl), Option.elim, printClause]

theorem print_ifElse (cond : Expr) (body : List Stmt) :
    (StmtKind.ifElse cond body elsifs last).print l d =
      printFlat l d cond body (flatten elsifs last).1 (flatten elsifs last).2 := by
  have hchain := congrArg (printClause l d ("if " ++ cond.print l d) body ++ · ++ l.line d "end")
    (printElse_eq l d elsifs last)
  rw [printElsifs_eq l d (flatten elsifs last).1,
    printElse_block _ _ (flatten_last elsifs last)] at hchain
  simpa only [StmtKind.print, printFlat, printClause, String.append_assoc] using hchain

end Ruby

/-- **Nested tests are printed as flat ones.** An `if` statement is printed as that with all tests
of its chain, at every depth and in every layout: the tests in their order, each with its own body,
and then the last branch, as a block. This branch is not another `if` statement without comments. -/
theorem nested_tests_print_flat (l : Layout) (d : Nat) (remarks : Remarks) :
    (∀ cond body elsifs last,
      let flat := Perl.flatten elsifs last
      let text := (Perl.Stmt.mk (.ifElse cond body elsifs last) remarks).print l d
      text = (Perl.Stmt.mk (.ifElse cond body flat.1 flat.2) remarks).print l d ∧
        text = remarks.print l d ++ Perl.printFlat l d cond body flat.1 flat.2 ∧
        ∀ block ∈ flat.2, Perl.continuesChain block = false) ∧
    ∀ cond body elsifs last,
      let flat := Ruby.flatten elsifs last
      let text := (Ruby.Stmt.mk (.ifElse cond body elsifs last) remarks).print l d
      text = (Ruby.Stmt.mk (.ifElse cond body flat.1 flat.2) remarks).print l d ∧
        text = remarks.print l d ++ Ruby.printFlat l d cond body flat.1 flat.2 ∧
        ∀ block ∈ flat.2, Ruby.continuesChain block = false := by
  refine ⟨fun cond body elsifs last => ?_, fun cond body elsifs last => ?_⟩
  · have hlast := Perl.flatten_last elsifs last
    simp only [Perl.Stmt.print, Perl.print_ifElse, Perl.flatten_of_block _ hlast]
    exact ⟨trivial, trivial, hlast⟩
  · have hlast := Ruby.flatten_last elsifs last
    simp only [Ruby.Stmt.print, Ruby.print_ifElse, Ruby.flatten_of_block _ hlast]
    exact ⟨trivial, trivial, hlast⟩

end Scriptgen
