import Scriptgen.Source.Form
import Scriptgen.Source.Word
import Scriptgen.Proofs.NumberText
import Scriptgen.Proofs.Words.Arithmetic
/-!
# Word expressions of the source

Expressions that are built from variables, literals and the bitwise operators of the source, with
what the source computes for them: operands are cut down to words of 32 bits, shifts go by the low
five bits of their amount, and every result is a signed word, that of `>>>` an unsigned one. `Writes
node tree` says that a node of the program is such an expression.
-/

namespace Scriptgen.Words

/-- A bitwise operator between two operands. -/
inductive Operator where
  | and
  | or
  | xor
  | shl
  | shr
  | ushr
deriving DecidableEq, Repr

def Operator.symbol : Operator → String
  | .and => "&"
  | .or => "|"
  | .xor => "^"
  | .shl => "<<"
  | .shr => ">>"
  | .ushr => ">>>"

def Operator.apply : Operator → Int → Int → Int
  | .and, a, b => (word a &&& word b).toInt
  | .or, a, b => (word a ||| word b).toInt
  | .xor, a, b => (word a ^^^ word b).toInt
  | .shl, a, b => (word a <<< shiftCount b).toInt
  | .shr, a, b => ((word a).sshiftRight (shiftCount b)).toInt
  | .ushr, a, b => ((word a >>> shiftCount b).toNat : Int)

/-- An expression of bitwise operators. -/
inductive Tree where
  | var (name : String)
  | literal (n : Nat)
  | binary (op : Operator) (left right : Tree)
  | complement (operand : Tree)
deriving DecidableEq, Repr

/-- The value of an expression in the source. -/
def Tree.eval (σ : String → Int) : Tree → Int
  | .var name => σ name
  | .literal n => n
  | .binary op left right => op.apply (left.eval σ) (right.eval σ)
  | .complement operand => (~~~ word (operand.eval σ)).toInt

end Scriptgen.Words

namespace Scriptgen

theorem of_guard_eq_some {p : Prop} [Decidable p] {u : Unit} (h : (guard p : Option Unit) = some u) :
    p := by
  unfold guard at h
  split at h
  · assumption
  · cases h

theorem Node.unwrapped_of_wrapped? {node : Node} (h : node.wrapped? = none) :
    node.unwrapped = node := by
  rw [unwrapped]
  split
  · rename_i inner h'
    rw [h] at h'
    cases h'
  · rfl

theorem Node.unwrapped_unwrapped (node : Node) : node.unwrapped.unwrapped = node.unwrapped := by
  fun_induction unwrapped node with
  | case1 node inner h ih => exact ih
  | case2 node h => exact unwrapped_of_wrapped? h

namespace Words

open Node

/-- **A node writes an expression** of bitwise operators. Wrappers around the parts do not count,
and a literal may be spelled in any base. -/
inductive Writes : Node → Tree → Prop
  | var {node : Node} {name : String} :
      node.unwrapped.tagged = false → node.unwrapped.type = "Identifier" →
      node.unwrapped.text? "name" = some name → Writes node (.var name)
  | literal {node : Node} {value : Json.Number} {n : Nat} :
      node.unwrapped.tagged = false → node.unwrapped.type = "Literal" →
      node.unwrapped.field? "regex" = none → node.unwrapped.text? "bigint" = none →
      node.unwrapped.field? "value" = some (.number value) → value.toBinary64 = Binary64.ofInt n →
      n < 2 ^ 53 → (∀ raw ∈ node.unwrapped.text? "raw", Text.Spells raw.toList n) →
      Writes node (.literal n)
  | binary {node left right : Node} {op : Operator} {a b : Tree} :
      node.unwrapped.tagged = false → node.unwrapped.type = "BinaryExpression" →
      node.unwrapped.text? "operator" = some op.symbol →
      node.unwrapped.child? "left" = some left → node.unwrapped.child? "right" = some right →
      Writes left a → Writes right b → Writes node (.binary op a b)
  | complement {node argument : Node} {a : Tree} :
      node.unwrapped.tagged = false → node.unwrapped.type = "UnaryExpression" →
      node.unwrapped.text? "operator" = some "~" →
      node.unwrapped.child? "argument" = some argument →
      Writes argument a → Writes node (.complement a)

namespace Writes

variable {node : Node} {tree : Tree}

section

variable (h : Writes node tree)

include h

theorem unwrapped : Writes node.unwrapped tree := by
  have same := node.unwrapped_unwrapped
  cases h with
  | var htag htype hname => exact var (by rwa [same]) (by rwa [same]) (by rwa [same])
  | literal htag htype hregex hbig hvalue hn hlt hraw =>
    refine literal ?_ ?_ ?_ ?_ ?_ hn hlt ?_ <;> rwa [same]
  | binary htag htype hop hl hr ha hb =>
    refine binary ?_ ?_ ?_ ?_ ?_ ha hb <;> rwa [same]
  | complement htag htype hop harg ha =>
    refine complement ?_ ?_ ?_ ?_ ha <;> rwa [same]

theorem tagged_unwrapped : node.unwrapped.tagged = false := by
  cases h <;> assumption

end

end Writes

end Words

end Scriptgen
