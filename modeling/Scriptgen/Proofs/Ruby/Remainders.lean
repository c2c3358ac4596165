import Scriptgen.Proofs.Ruby.Switch
import Scriptgen.Ruby.Print
/-!
# Remainders in Ruby

The `%` of Ruby takes the sign of the divisor, that of the source the sign of the dividend. A
remainder is reported unless its dividend is not negative by its form. So without a report it agrees
for positive divisors only, and assignments are never reported: `remainders_agree_iff`.
-/

namespace Scriptgen

namespace Binary64

variable {x : Binary64}

theorem truncate_nonneg (h : x.ge 0 = true) : 0 ≤ x.truncate := by
  simp only [ge, decide_eq_true_eq, zero_mul] at h
  simp only [truncate]
  split at h
  · obtain hzero : x.ratio.1 = 0 := by omega
    simp [hzero]
  · rw [if_neg ‹_›]
    exact Int.natCast_nonneg _

theorem truncate_lt {k : Nat} (hk : 0 < k) (h : x.ge k = false) : x.truncate < k := by
  simp only [ge, decide_eq_false_iff_not, Int.not_le] at h
  simp only [truncate]
  split at h
  · rw [if_pos ‹_›]
    have := Int.natCast_nonneg (x.ratio.1 / x.ratio.2)
    omega
  · rw [mul_comm] at h
    rw [if_neg ‹_›]
    exact_mod_cast Nat.div_lt_of_lt_mul (by exact_mod_cast h)

end Binary64

/-- The remainders agree if nothing is left, or if both operands have the same sign. -/
theorem fmod_eq_tmod_iff {a b : Int} (hb : b ≠ 0) :
    a.fmod b = a.tmod b ↔ b ∣ a ∨ 0 ≤ a ∧ 0 < b ∨ a ≤ 0 ∧ b < 0 := by
  -- Each is the remainder that is not negative with a correction, by the sign of one operand.
  rw [Int.fmod_eq_emod, Int.tmod_eq_emod]
  by_cases hdvd : b ∣ a
  · simp [hdvd]
  · simp only [hdvd, or_false, false_or]
    have : a ≠ 0 := fun h => hdvd (h ▸ dvd_zero b)
    split <;> split <;> omega

namespace Ruby

open Words Lowering

/-- **The integers that an expression of the source can give.** A length is not negative, and what
has no other form gives what its noted type allows. -/
inductive MayGive : Node → Int → Prop
  | literal {node : Node} {x : Binary64} :
      node.unwrapped.type = "Literal" → node.unwrapped.number? "value" = some x →
      x.isIntegral = true → MayGive node x.truncate
  | word {node left right : Node} {op : Operator} {a b : Int} :
      node.unwrapped.type = "BinaryExpression" → node.unwrapped.text? "operator" = some op.symbol →
      node.unwrapped.child? "left" = some left → node.unwrapped.child? "right" = some right →
      MayGive left a → MayGive right b → MayGive node (op.apply a b)
  | length {node : Node} (n : Nat) :
      node.unwrapped.type = "MemberExpression" → node.unwrapped.staticMember? = some "length" →
      MayGive node n
  | other {node : Node} {v : Int} :
      node.unwrapped.type ≠ "Literal" →
      (∀ op : Operator, node.unwrapped.text? "operator" ≠ some op.symbol) →
      node.unwrapped.staticMember? ≠ some "length" →
      (∀ type ∈ node.unwrapped.resultType?, type.startsWith "uint" ∨ type = "byte" → 0 ≤ v) →
      MayGive node v

theorem mayGive_int31Literal {node : Node} {v : Int} (h : MayGive node v)
    (hlit : node.isInt31Literal = true) : ∃ m : Nat, v = m ∧ m < 2 ^ 31 := by
  simp only [Node.isInt31Literal, Bool.and_eq_true, beq_iff_eq] at hlit
  obtain ⟨htype, hany⟩ := hlit
  cases h with
  | literal _ hvalue =>
    simp only [hvalue, Option.any_some, Bool.and_eq_true, Bool.not_eq_true'] at hany
    obtain ⟨m, hm⟩ := Int.eq_ofNat_of_zero_le (Binary64.truncate_nonneg hany.1.2)
    have hlt := Binary64.truncate_lt (k := 2 ^ 31) (by decide) hany.2
    exact ⟨m, hm, by omega⟩
  | word ht | length _ ht => exact absurd (ht.symm.trans htype) (by decide)
  | other ht => exact absurd htype ht

theorem nonneg_and {a b : Int}
    (h : (∃ m : Nat, a = m ∧ m < 2 ^ 31) ∨ ∃ m : Nat, b = m ∧ m < 2 ^ 31) :
    0 ≤ Operator.and.apply a b := by
  have hmask (a : Int) {m : Nat} (hm : m < 2 ^ 31) : 0 ≤ (word a &&& word m).toInt := by
    rw [← unbounded.and_narrow a hm]
    exact (unbounded.and_mask a m (by omega)).1
  rcases h with ⟨m, rfl, hm⟩ | ⟨m, rfl, hm⟩
  · rw [Operator.apply, BitVec.and_comm]
    exact hmask b hm
  · exact hmask a hm

/-- **What is unsigned by its form is not negative.** -/
theorem nonneg_of_isUnsigned {node : Node} {v : Int} (h : MayGive node v)
    (hform : isUnsigned node = true) : 0 ≤ v := by
  cases h with
  | literal htype hvalue _ =>
    simp only [isUnsigned, htype, hvalue, Option.any_some] at hform
    exact Binary64.truncate_nonneg hform
  | @word _ left right op a b htype hop hleft hright ha hb =>
    cases op with
    | ushr => exact Int.natCast_nonneg _
    | and =>
      simp only [isUnsigned, htype, hop, Operator.symbol, hleft, hright, Option.any_some,
        Bool.or_eq_true] at hform
      exact nonneg_and (hform.imp (mayGive_int31Literal ha) (mayGive_int31Literal hb))
    | or | xor | shl | shr => simp [isUnsigned, htype, hop, Operator.symbol] at hform
  | length n _ _ => exact Int.natCast_nonneg n
  | other hlit hop hlength htag =>
    -- Only the noted type is left to tell, since all other forms have their own constructor.
    unfold isUnsigned at hform
    dsimp only at hform
    split at hform
    · exact absurd ‹_› hlit
    · split at hform
      · exact absurd ‹_› (hop .ushr)
      · exact absurd ‹_› (hop .and)
      · cases hform
    · exact absurd (beq_iff_eq.1 hform) hlength
    · obtain ⟨type, htype, hunsigned⟩ := (Option.any_eq_true _ _).1 hform
      exact htag type htype (by simpa using hunsigned)

/-- An untagged node with an operator between two operands. -/
structure Operation (node : Node) (type operator : String) (left right : Node) : Prop where
  untagged : node.unwrapped.tagged = false
  type_eq : node.unwrapped.type = type
  operator_eq : node.unwrapped.text? "operator" = some operator
  left_eq : node.unwrapped.child? "left" = some left
  right_eq : node.unwrapped.child? "right" = some right

theorem isUnsigned_unwrapped (node : Node) : isUnsigned node.unwrapped = isUnsigned node := by
  rw [isUnsigned, node.unwrapped_unwrapped, isUnsigned]

variable {node left right : Node}

theorem plainBinary_mod (left right : Node) (b : Below) (c : Context) (s : State) :
    let start := if isUnsigned left then s else { s with
      warnings := s.warnings.note (.lossy "'%' takes the sign of the divisor in Ruby") }
    let first := value left b c start
    let second := value right b c first.2
    (plainBinary node "%" left right).run b c s =
      (some (binary .mod first.1 second.1), second.2) := by
  unfold plainBinary
  cases isUnsigned left <;> rfl

theorem lowers_remainder (h : Operation node "BinaryExpression" "%" left right) (height : Nat)
    (c : Context) (s : State) :
    (level (height + 1)).expr node c s =
      (plainBinary node.unwrapped "%" left.unwrapped right.unwrapped).run (level height) c s := by
  refine (lowerExpr_of_untagged h.untagged (level height) c s).trans ?_
  rw [plainExpr, h.type_eq]
  simp only [binaryExpr, h.operator_eq, h.left_eq, h.right_eq]
  rfl

theorem lowers_remainderAssignment (h : Operation node "AssignmentExpression" "%=" left right)
    (hleft : left.unwrapped.type ≠ "ArrayPattern") (height : Nat) (c : Context) (s : State) :
    (level (height + 1)).expr node c s =
      (do return .compound (← target left.unwrapped) .mod (← value right) : Attempt Expr).run
        (level height) c s := by
  refine (lowerExpr_of_untagged h.untagged (level height) c s).trans ?_
  rw [plainExpr, h.type_eq]
  simp only [assignmentExpr, h.operator_eq, h.left_eq, h.right_eq, need, attempt_given,
    beq_eq_false_iff_ne.2 hleft]
  rfl

/-- **Which remainders agree.** A plain remainder is reported unless its dividend is unsigned by its
form. Without a report it agrees with that of the source exactly if the divisor is positive or
nothing is left. A compound assignment adds no report of its own, whatever the signs. -/
theorem remainders_agree_iff (node left right : Node) (height : Nat) (c : Context) (s : State) :
    (Operation node "BinaryExpression" "%" left right →
      let start := if isUnsigned left then s else { s with
        warnings := s.warnings.note (.lossy "'%' takes the sign of the divisor in Ruby") }
      let first := value left.unwrapped (level height) c start
      let second := value right.unwrapped (level height) c first.2
      (level (height + 1)).expr node c s = (some (binary .mod first.1 second.1), second.2) ∧
      (isUnsigned left → ∀ a b, MayGive left a → MayGive right b → b ≠ 0 →
        (a.fmod b = a.tmod b ↔ 0 < b ∨ b ∣ a))) ∧
    (Operation node "AssignmentExpression" "%=" left right → left.unwrapped.type ≠ "ArrayPattern" →
      (level (height + 1)).expr node c s =
        (do return .compound (← target left.unwrapped) .mod (← value right) : Attempt Expr).run
          (level height) c s ∧
      ∀ a b, MayGive left a → MayGive right b → b ≠ 0 →
        (a.fmod b = a.tmod b ↔ b ∣ a ∨ 0 ≤ a ∧ 0 < b ∨ a ≤ 0 ∧ b < 0)) := by
  refine ⟨fun h => ⟨?_, fun hform a b ha _ hb => ?_⟩, fun h hleft =>
    ⟨lowers_remainderAssignment h hleft height c s, fun a b _ _ hb => fmod_eq_tmod_iff hb⟩⟩
  · rw [lowers_remainder h, plainBinary_mod, isUnsigned_unwrapped]
  · have hnonneg := nonneg_of_isUnsigned ha hform
    rw [fmod_eq_tmod_iff hb]
    refine ⟨?_, ?_⟩
    · rintro (hdvd | ⟨-, hpos⟩ | ⟨hle, -⟩)
      · exact .inr hdvd
      · exact .inl hpos
      -- A dividend that is not positive either is zero, and every divisor divides it.
      · obtain rfl : a = 0 := by omega
        exact .inr (dvd_zero b)
    · rintro (hpos | hdvd)
      · exact .inr (.inl ⟨hnonneg, hpos⟩)
      · exact .inl hdvd

/-- The literal `5`. -/
def fiveNode : Node := .of "Literal" [("value", .number (.integer 5))]

/-- The expression `-3`. -/
def minusThree : Node :=
  .of "UnaryExpression" [("operator", .string "-"),
    ("argument", .node "Literal" [("value", .number (.integer 3))])]

/-- The remainder of `5` by `-3`, plain or assigned. -/
def remainderNode (type operator : String) : Node :=
  .of type [("operator", .string operator), ("left", fiveNode.toJson),
    ("right", minusThree.toJson)]

theorem operation_remainderNode {type : String} (operator : String)
    (h : (remainderNode type operator).wrapped? = none) :
    Operation (remainderNode type operator) type operator fiveNode minusThree := by
  have hself := Node.unwrapped_of_wrapped? h
  constructor <;> rw [hself] <;> rfl

theorem unwrapped_fiveNode : fiveNode.unwrapped = fiveNode := Node.unwrapped_of_wrapped? rfl

theorem mayGive_fiveNode : MayGive fiveNode 5 := by
  have hfive : MayGive fiveNode (Binary64.ofInt 5).truncate := by
    refine .literal ?_ ?_ (by decide +kernel) <;> rw [unwrapped_fiveNode] <;> rfl
  exact (show (Binary64.ofInt 5).truncate = 5 by decide +kernel) ▸ hfive

theorem mayGive_minusThree : MayGive minusThree (-3) := by
  have hself : minusThree.unwrapped = minusThree := Node.unwrapped_of_wrapped? rfl
  refine .other ?_ (fun op => ?_) ?_ ?_ <;> rw [hself]
  · decide
  · cases op <;> decide
  · decide
  · rintro type ⟨⟩

theorem remainders_agree_iff_minusThree :
    ((5 : Int).fmod (-3) = (5 : Int).tmod (-3) ↔ (0 : Int) < -3 ∨ (-3 : Int) ∣ 5) ∧
      ((5 : Int).fmod (-3) = (5 : Int).tmod (-3) ↔
        (-3 : Int) ∣ 5 ∨ (0 : Int) ≤ 5 ∧ (0 : Int) < -3 ∨ (5 : Int) ≤ 0 ∧ (-3 : Int) < 0) := by
  have hform : isUnsigned fiveNode = true := by
    rw [isUnsigned, unwrapped_fiveNode]
    decide +kernel
  have agree (node : Node) := remainders_agree_iff node fiveNode minusThree 9
    (.top .defaults (outlineOf []) []) .initial
  obtain ⟨-, plain⟩ := (agree _).1 (operation_remainderNode "%" rfl)
  obtain ⟨-, assigned⟩ := (agree _).2 (operation_remainderNode "%=" rfl)
    (by rw [unwrapped_fiveNode]; decide)
  exact ⟨plain hform 5 (-3) mayGive_fiveNode mayGive_minusThree (by decide),
    assigned 5 (-3) mayGive_fiveNode mayGive_minusThree (by decide)⟩

/-- For `5 % -3` nothing is reported. In Ruby it is `-1`, and not `2`. -/
theorem remainderNode_not_reported :
    let generated := generate { Options.defaults with strictInput := true }
      (.of "Program" [("body", .array [.node "ExpressionStatement" [
        ("expression", (remainderNode "BinaryExpression" "%").toJson)]])])
    generated.1.print (.ofOptions .defaults "  ") = "# frozen_string_literal: true\n\n5 % -3\n" ∧
      generated.2.warnings.entries = [] ∧ (5 : Int).fmod (-3) = -1 ∧ (5 : Int).tmod (-3) = 2 := by
  decide +kernel

end Ruby

end Scriptgen
