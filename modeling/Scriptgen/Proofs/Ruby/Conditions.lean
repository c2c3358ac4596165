import Scriptgen.Proofs.Guards
import Scriptgen.Proofs.Ruby.CountingLoops
import Scriptgen.Proofs.Ruby.Evaluation
/-!
# Conditions in Ruby

In Ruby only `nil` and `false` are false, so a condition is compared with zero where a number is
tested, and asked whether it is empty where a text is. `Truth` is the truth of a condition in the
program, `Expr.truth?` that of an expression in Ruby. Lowering keeps it (`test_keeps_truth`), if no
variable that holds an integer is recorded as text.
-/

namespace Scriptgen

open Node Switch Option

/-! ## Conditions of the program -/

def Json.truth? : Json → Option Bool
  | .bool b => some b
  | .number n => some (n.toBinary64.mantissa != 0)
  | .string text => some (text != "")
  | _ => none

structure IsName (node : Node) (x : String) : Prop where
  tagged : node.unwrapped.tagged = false
  type : node.unwrapped.type = "Identifier"
  name : node.unwrapped.name? = some x

/-- A node is a name for which no type has been found. -/
structure PlainVariable (node : Node) (x : String) : Prop extends IsName node x where
  resultType : node.unwrapped.resultType? = none

/-- An operand of a comparison: an integer literal, or a variable that holds an integer. -/
inductive IntegerOperand (holds : String → Value → Prop) (node : Node) (n : Int) : Prop
  | literal : IntegerLabel node n → IntegerOperand holds node n
  | var {x : String} : PlainVariable node x → holds x (.int n) → IntegerOperand holds node n

/-- What joins two conditions. -/
def connective? : String → Option (Bool → Bool → Bool)
  | "&&" => some and
  | "||" => some or
  | _ => none

/-- **The truth of a condition**, where variables hold values. -/
inductive Truth (holds : String → Value → Prop) : Node → Bool → Prop
  | literal {node : Node} {value : Json} {b : Bool} :
      node.unwrapped.type = "Literal" → node.unwrapped.has "regex" = false →
      node.unwrapped.field? "value" = some value → value.truth? = some b → Truth holds node b
  | var {node : Node} {x : String} {v : Value} :
      PlainVariable node x → holds x v → Truth holds node v.isTruthy
  | comparison {node left right : Node} {symbol : String} {a b : Int} :
      node.unwrapped.tagged = false → node.unwrapped.type = "BinaryExpression" →
      node.unwrapped.text? "operator" = some symbol →
      symbol ∈ ["===", "!==", "<", "<=", ">", ">="] →
      node.unwrapped.child? "left" = some left → node.unwrapped.child? "right" = some right →
      IntegerOperand holds left a → IntegerOperand holds right b →
      Truth holds node (compares symbol a b)
  | negation {node argument : Node} {b : Bool} :
      node.unwrapped.type = "UnaryExpression" → node.unwrapped.text? "operator" = some "!" →
      node.unwrapped.child? "argument" = some argument → Truth holds argument b →
      Truth holds node (!b)
  | logical {node left right : Node} {symbol : String} {join : Bool → Bool → Bool} {a b : Bool} :
      node.unwrapped.type = "LogicalExpression" → node.unwrapped.text? "operator" = some symbol →
      connective? symbol = some join → node.unwrapped.child? "left" = some left →
      node.unwrapped.child? "right" = some right → Truth holds left a → Truth holds right b →
      Truth holds node (join a b)

variable {below : Below} {n : Int}

section

variable {holds : String → Value → Prop} {node : Node} {b : Bool}

theorem IntegerOperand.not_isTypeof (h : IntegerOperand holds node n) :
    node.unwrapped.isTypeof = false := by
  cases h with
  | literal h =>
    cases h with
    | literal h =>
      obtain ⟨number, hnumber, -⟩ := h.denotes
      simp [isTypeof, hnumber.type]
    | negated _ _ hop => simp [isTypeof, hop]
  | var h => simp [isTypeof, h.type]

theorem Truth.evaluateGuard_eq_none (h : Truth holds node b)
    (hplain : ∀ x v, holds x v → availability? x = none) : evaluateGuard node = none := by
  rw [eq_none_iff_forall_ne_some]
  intro decided hdecided
  rw [evaluateGuard_eq_some_iff] at hdecided
  induction h generalizing decided with
  | literal htype => cases hdecided <;> simp_all
  | var hvar hx =>
    have hknown := hdecided.of_name hvar.type hvar.name
    rw [IsKnown, hplain _ _ hx] at hknown
    cases hknown
  | comparison _ htype _ _ hl hr hleft hright =>
    cases hdecided with
    | comparison _ hquery =>
      simp [typeQuery?, hl, hr, hleft.not_isTypeof, hright.not_isTypeof] at hquery
    | name hother | member hother | negation hother | either hother | both hother =>
      simp [htype] at hother
  | negation htype _ harg _ ih =>
    cases hdecided with
    | negation _ _ hother hinner =>
      rw [harg] at hother
      cases hother
      exact ih _ hinner
    | name hother | member hother | comparison hother | either hother | both hother =>
      simp [htype] at hother
  | logical htype _ _ hl hr _ _ ihleft ihright =>
    cases hdecided with
    | either _ _ _ hside hother hinner =>
      simp only [List.mem_cons, List.not_mem_nil, or_false] at hside
      rcases hside with rfl | rfl
      · rw [hl] at hother
        cases hother
        exact ihleft _ hinner
      · rw [hr] at hother
        cases hother
        exact ihright _ hinner
    | both _ _ _ hother _ hinner =>
      rw [hl] at hother
      cases hother
      exact ihleft _ hinner
    | name hother | member hother | comparison hother | negation hother => simp [htype] at hother

end

namespace Ruby

open Lowering

/-! ## Conditions in Ruby -/

def BinaryOp.comparison? : BinaryOp → Option (Int → Int → Bool)
  | .eq => some (compares "===")
  | .ne => some (compares "!==")
  | .lt => some (compares "<")
  | .le => some (compares "<=")
  | .gt => some (compares ">")
  | .ge => some (compares ">=")
  | _ => none

/-- The integer that an expression gives where variables hold values. -/
def integerIn (env : Expr → Option Value) (expr : Expr) : Option Int :=
  expr.whole? fun e => match env e with
    | some (.int n) => some n
    | _ => none

/-- **The truth of an expression in Ruby**, where variables hold values. Only a text can be asked
whether it is empty, and only integers are compared here. -/
def Expr.truth? (env : Expr → Option Value) : Expr → Option Bool
  | .bool b => some b
  | .unary .not operand _ => do return !(← operand.truth? env)
  | .binary .and left right _ _ => do if ← left.truth? env then right.truth? env else return false
  | .binary .or left right _ _ => do if ← left.truth? env then return true else right.truth? env
  | .binary op left right _ _ => do
    let holds ← op.comparison?
    return holds (← integerIn env left) (← integerIn env right)
  | .call (some receiver) "empty?" [] none =>
    match env receiver with
    | some (.text characters) => some (characters == "")
    | _ => none
  | expr => (env expr).map isTrue

variable {env : Expr → Option Value} {e left right : Expr} {a b : Bool}

/-- Negation turns the truth around, also where it drops another negation. -/
theorem truth?_not (h : e.truth? env = some b) : (not e).truth? env = some (!b) := by
  unfold not
  split
  iterate 2
    simp only [Expr.truth?, BinaryOp.comparison?, bind_eq_bind, bind_eq_some_iff,
      bind_some, pure_def, some.injEq] at h ⊢
    obtain ⟨m, hm, n, hn, rfl⟩ := h
    exact ⟨m, hm, n, hn, by simp [compares]⟩
  · cases h
    rfl
  · simp only [Expr.truth?, bind_eq_bind, bind_eq_some_iff, pure_def,
      some.injEq] at h
    obtain ⟨inner, hinner, rfl⟩ := h
    simpa using hinner
  · rw [unary, if_neg (by decide), Expr.truth?, h]
    rfl

theorem truth?_and (ha : left.truth? env = some a) (hb : right.truth? env = some b) :
    (binary .and left right).truth? env = some (a && b) := by
  rw [binary, Expr.truth?, ha]
  cases a <;> simp [hb]

theorem truth?_or (ha : left.truth? env = some a) (hb : right.truth? env = some b) :
    (binary .or left right).truth? env = some (a || b) := by
  rw [binary, Expr.truth?, ha]
  cases a <;> simp [hb]

theorem truth?_comparison {op : BinaryOp} {holds : Int → Int → Bool} {m : Int}
    (h : op.comparison? = some holds) (hm : integerIn env left = some m)
    (hn : integerIn env right = some n) :
    (binary op left right).truth? env = some (holds m n) := by
  rw [binary, Expr.truth?, h, hm, hn]
  · rfl
  all_goals
    rintro rfl
    cases h

/-! ## Lowering -/

/-- What is recorded of a variable fits its value. -/
def Records (known : Known) (x : String) : Value → Prop
  | .int _ => x ∈ known.numbers ∧ x ∉ known.texts
  | .text _ => x ∈ known.texts
  | .undefined | .bool _ | .array _ | .other _ => x ∉ known.numbers ∧ x ∉ known.texts
  | .nan => False

/-- **A variable holds a value that fits what is recorded of it**, and its variable in Ruby holds it
too. No name of the host is such a variable. -/
structure Holding (context : Context) (s : State) (env : Expr → Option Value) (x : String)
    (v : Value) : Prop where
  name : HoldsVariable context s x
  plain : availability? x = none
  recorded : Records s.known x v
  value : env (variableOf context s x) = some v

variable {context : Context} {s : State} {node : Node} {height : Nat}

theorem orUse_of_some {attempt : Attempt Expr} {otherwise : Lower Expr}
    (h : attempt.run below context s = (some e, s)) :
    orUse attempt otherwise below context s = (e, s) := by
  rw [orUse, run_bind, h]
  rfl

theorem orUse_of_none {attempt : Attempt Expr} {otherwise : Lower Expr}
    (h : attempt.run below context s = (none, s)) :
    orUse attempt otherwise below context s = otherwise below context s := by
  rw [orUse, run_bind, h]

theorem isInt_zero (x : Binary64) : x.isInt 0 = (x.mantissa == 0) := by
  have hratio : x.ratio.1 = 0 ↔ x.mantissa = 0 := by
    rw [Binary64.ratio]
    split <;> simp
  rw [Bool.eq_iff_iff, beq_iff_eq, ← hratio]
  simp only [Binary64.isInt, Binary64.le, Binary64.ge, Bool.and_eq_true, decide_eq_true_eq]
  split <;> omega

theorem literalTruth_eq {value : Json} (hvalue : node.field? "value" = some value)
    (h : value.truth? = some b) : literalTruth node = b := by
  rw [literalTruth, hvalue]
  cases value with
  | string text =>
    simp only [Json.truth?, some.injEq] at h
    rw [← h, Bool.eq_iff_iff]
    simp
  | number n =>
    simp only [Json.truth?, some.injEq] at h
    rw [← h]
    simp [isInt_zero, bne]
  | _ => simp_all [Json.truth?]

variable {x : String}

theorem isText_of_plainVariable (h : PlainVariable node x) (known : Known) :
    known.isText node.unwrapped = known.texts.contains x := by
  have htag : node.unwrapped.text? "ilNodeType" = none := by
    simpa [Node.tagged] using h.tagged
  have htextual : node.unwrapped.isTextual = false := by
    rw [isTextual, node.unwrapped_unwrapped, h.resultType, kind, htag, h.type]
    rfl
  have hkey : node.unwrapped.valueKey? = some x := by
    simp [valueKey?, node.unwrapped_unwrapped, h.type, h.name]
  rw [Known.isText]
  simp [node.unwrapped_unwrapped, htextual, hkey]

theorem isNumber_of_plainVariable (h : PlainVariable node x) (known : Known) :
    known.isNumber node.unwrapped = known.numbers.contains x := by
  rw [Known.isNumber]
  simp [node.unwrapped_unwrapped, h.resultType, valueKey?, h.type, h.name]

theorem lowerExpr_unwrapped : lowerExpr node.unwrapped = lowerExpr node := by
  rw [lowerExpr, node.unwrapped_unwrapped, lowerExpr]

theorem exists_variableOf (x : String) :
    ∃ name kind, variableOf context s x = .var name kind := by
  rw [variableOf, variableIn]
  repeat' split
  all_goals exact ⟨_, _, rfl⟩

theorem expr_of_isName (h : IsName node x) (hx : HoldsVariable context s x) (below : Below) :
    (lowerExpr node).run below context s = (some (variableOf context s x), s) := by
  rw [lowerExpr_of_untagged h.tagged, plainExpr, h.type]
  simp only [attempt_bind, need_run, h.name, attempt_lift]
  rw [identifier_of_holdsVariable hx]

/-- What is tested of a variable, by what is recorded of it. -/
def variableTest (known : Known) (x : String) (e : Expr) : Expr :=
  if known.texts.contains x then not (e.read "empty?")
  else if known.numbers.contains x then binary .ne e (.int 0)
  else e

theorem test_of_undecided {lower : Nat} (h : evaluateGuard node = none) :
    (level (lower + 1)).test node context s =
      orUse (compositeTest node.unwrapped) (valueTest node.unwrapped) (level lower) context s := by
  rw [evaluateGuard] at h
  change lowerTest node (level lower) context s = _
  rw [lowerTest, evaluateGuard, node.unwrapped_unwrapped, h]

theorem test_of_plainVariable (h : PlainVariable node x) (hx : HoldsVariable context s x) :
    orUse (compositeTest node.unwrapped) (valueTest node.unwrapped) below context s =
      (variableTest s.known x (variableOf context s x), s) := by
  have hcomposite : (compositeTest node.unwrapped).run below context s = (none, s) := by
    simp only [compositeTest, h.type]
    rfl
  have hvalue : orUse (lowerExpr node.unwrapped) (return .nil) below context s =
      (variableOf context s x, s) := by
    rw [lowerExpr_unwrapped]
    exact orUse_of_some (expr_of_isName h.toIsName hx below)
  have htype : (node.unwrapped.type == "BinaryExpression") = false := by rw [h.type]; rfl
  rw [orUse_of_none hcomposite]
  simp only [valueTest, run_bind, run_get, hvalue, htype, isText_of_plainVariable h,
    isNumber_of_plainVariable h, variableTest]
  cases s.known.texts.contains x <;> cases s.known.numbers.contains x <;> rfl

theorem integerIn_variableOf (h : env (variableOf context s x) = some (.int n)) :
    integerIn env (variableOf context s x) = some n := by
  obtain ⟨name, kind, hname⟩ := @exists_variableOf context s x
  rw [integerIn, hname, Expr.whole?, ← hname, h]
  · rintro _ ⟨⟩
  · rintro _ _ _ _ ⟨⟩

theorem truth?_of_holding {v : Value} (h : Holding context s env x v) :
    (variableTest s.known x (variableOf context s x)).truth? env = some v.isTruthy := by
  have hrecorded := h.recorded
  have hvalue := h.value
  cases v with
  | int n =>
    have hn := integerIn_variableOf hvalue
    have hzero : integerIn env (.int 0) = some 0 := whole?_int 0
    simp only [Records] at hrecorded
    simp only [variableTest, List.contains_eq_mem, hrecorded, decide_false, decide_true, if_true]
    simp [binary, Expr.truth?, BinaryOp.comparison?, hn, hzero, compares, Value.isTruthy, bne,
      beq_eq_decide]
  | text characters =>
    have hempty : ((variableOf context s x).read "empty?").truth? env =
        some (characters == "") := by
      simp only [Expr.read, Expr.method, Expr.truth?, hvalue]
    simp only [Records] at hrecorded
    simp only [variableTest, List.contains_eq_mem, hrecorded, decide_true, if_true]
    exact truth?_not hempty
  | nan => cases hrecorded
  | _ =>
    obtain ⟨name, kind, hname⟩ := @exists_variableOf context s x
    simp only [Records] at hrecorded
    simp only [variableTest, List.contains_eq_mem, hrecorded, decide_false, Bool.false_eq_true,
      if_false]
    rw [hname, Expr.truth?, ← hname, hvalue] <;> simp [isTrue, Value.isTruthy]

theorem integerIn_of_integerOperand (h : IntegerOperand (Holding context s env) node n)
    (hh : node.height ≤ height) :
    ∃ e, (level height).expr node context s = (some e, s) ∧ integerIn env e = some n := by
  cases h with
  | literal h =>
    obtain ⟨text, hlower, hspells⟩ := @lowers_integerLabel _ _ context _ h hh s
    exact ⟨_, hlower, (Gives.of_spellsInt hspells).value⟩
  | @var x hvar hx =>
    obtain ⟨lower, rfl⟩ := Node.exists_lower hh
    exact ⟨_, expr_of_isName hvar.toIsName hx.name (level lower), integerIn_variableOf hx.value⟩

theorem not_isNullish (h : IntegerOperand (Holding context s env) node n) :
    node.unwrapped.isNullish = false := by
  cases h with
  | literal h =>
    cases h with
    | literal h =>
      obtain ⟨number, hnumber, -⟩ := h.denotes
      simp [isNullish, Node.isIdentifier, name?, hnumber.type, has, hnumber.value]
    | negated _ htype hop => simp [isNullish, Node.isIdentifier, name?, htype, hop]
  | var h hx => simp [isNullish, Node.isIdentifier, h.name, h.type, hx.name.plain.1]

theorem binaryExpr_of_comparison {first second : Node} {symbol : String} {op : BinaryOp} {m : Int}
    (hop : node.text? "operator" = some symbol)
    (hsymbol : symbol ∈ ["===", "!==", "<", "<=", ">", ">="])
    (hplain : plainOperator? symbol = some op) (hl : node.child? "left" = some first)
    (hr : node.child? "right" = some second)
    (hm : IntegerOperand (Holding context s env) first m)
    (hn : IntegerOperand (Holding context s env) second n)
    (hleft : below.expr first.unwrapped context s = (some left, s))
    (hright : below.expr second.unwrapped context s = (some right, s)) :
    (binaryExpr node).run below context s = (some (binary op left right), s) := by
  have hspecial : (specialEquality first.unwrapped second.unwrapped).run below context s =
      (none, s) := by
    simp only [specialEquality, not_isNullish hm, not_isNullish hn, hm.not_isTypeof,
      hn.not_isTypeof]
    rfl
  have hbinary : (binaryOperator node symbol first.unwrapped second.unwrapped).run below context s =
      (some (binary op left right), s) := by
    have heq : (binaryOperator node symbol first.unwrapped second.unwrapped).run below context s =
        (do return binary op (← value first.unwrapped) (← value second.unwrapped) :
          Attempt Expr).run below context s := by
      simp only [List.mem_cons, List.not_mem_nil, or_false] at hsymbol
      rcases hsymbol with rfl | rfl | rfl | rfl | rfl | rfl <;> cases hplain <;> rfl
    simp only [heq, attempt_bind, attempt_lift, value_of_expr hleft, value_of_expr hright]
    rfl
  rw [binaryExpr]
  simp only [attempt_bind, need_run, hop, hl, hr]
  split
  · simp only [attempt_orElse, attempt_bind, hspecial, hbinary]
  · exact hbinary

theorem exists_comparison {symbol : String}
    (h : symbol ∈ ["===", "!==", "<", "<=", ">", ">="]) :
    ∃ op, plainOperator? symbol = some op ∧ op.comparison? = some (compares symbol) ∧
      comparisonOperators.contains symbol = true := by
  simp only [List.mem_cons, List.not_mem_nil, or_false] at h
  rcases h with rfl | rfl | rfl | rfl | rfl | rfl <;> exact ⟨_, rfl, rfl, rfl⟩

/-- **Conditions keep their truth**, those of literals and of names for which no type has been
found. -/
theorem test_keeps_truth (h : Truth (Holding context s env) node b) (hh : node.height ≤ height) :
    ∃ e, (level height).test node context s = (e, s) ∧ e.truth? env = some b := by
  induction height generalizing node b with
  | zero =>
    have := node.height_eq
    omega
  | succ lower ih =>
    have hchild {key : String} {inner : Node} (hinner : node.unwrapped.child? key = some inner) :
        inner.height ≤ lower := Node.height_le_lower hinner hh
    rw [test_of_undecided (h.evaluateGuard_eq_none fun x v hx => hx.plain)]
    cases h with
    | literal htype hregex hvalue htruth =>
      have hcomposite : (compositeTest node.unwrapped).run (level lower) context s =
          (some (.bool b), s) := by
        rw [← literalTruth_eq hvalue htruth]
        simp only [compositeTest, htype, hregex]
        rfl
      exact ⟨_, orUse_of_some hcomposite, rfl⟩
    | @var _ x v hvar hx =>
      exact ⟨_, test_of_plainVariable hvar hx.name, truth?_of_holding hx⟩
    | comparison htag htype hop hsymbol hl hr hleft hright =>
      have hcomposite : (compositeTest node.unwrapped).run (level lower) context s = (none, s) := by
        simp only [compositeTest, htype]
        rfl
      rw [orUse_of_none hcomposite]
      obtain ⟨left, hfirst, ha⟩ := integerIn_of_integerOperand hleft (hchild hl)
      obtain ⟨right, hsecond, hb⟩ := integerIn_of_integerOperand hright (hchild hr)
      rw [← level_expr_unwrapped] at hfirst hsecond
      obtain ⟨op, hplain, hcomparison, hcompares⟩ := exists_comparison hsymbol
      have hlower : (lowerExpr node.unwrapped).run (level lower) context s =
          (some (binary op left right), s) := by
        rw [lowerExpr_unwrapped, lowerExpr_of_untagged htag, plainExpr, htype]
        exact binaryExpr_of_comparison hop hsymbol hplain hl hr hleft hright hfirst hsecond
      refine ⟨binary op left right, ?_, truth?_comparison hcomparison ha hb⟩
      simp only [valueTest, run_bind, run_get, orUse_of_some hlower, htype, hop, Option.any_some,
        hcompares]
      rfl
    | negation htype hop harg hinner =>
      obtain ⟨e, he, htruth⟩ := ih hinner (hchild harg)
      have hcomposite : (compositeTest node.unwrapped).run (level lower) context s =
          (some (not e), s) := by
        simp only [compositeTest, htype, hop, attempt_bind, need_run, harg, attempt_lift, test, he]
        rfl
      exact ⟨_, orUse_of_some hcomposite, truth?_not htruth⟩
    | @logical _ _ _ symbol join a b htype hop hjoin hl hr hleft hright =>
      obtain ⟨first, hfirst, ha⟩ := ih hleft (hchild hl)
      obtain ⟨second, hsecond, hb⟩ := ih hright (hchild hr)
      have hcomposite (op : BinaryOp) (h : symbol = "&&" ∧ op = .and ∨ symbol = "||" ∧ op = .or) :
          (compositeTest node.unwrapped).run (level lower) context s =
            (some (binary op first second), s) := by
        rcases h with ⟨rfl, rfl⟩ | ⟨rfl, rfl⟩ <;>
          simp only [compositeTest, htype, hop, attempt_bind, need_run, hl, hr, attempt_lift, test,
            hfirst, hsecond] <;> rfl
      unfold connective? at hjoin
      split at hjoin <;> cases hjoin
      · exact ⟨_, orUse_of_some (hcomposite .and (.inl ⟨rfl, rfl⟩)), truth?_and ha hb⟩
      · exact ⟨_, orUse_of_some (hcomposite .or (.inr ⟨rfl, rfl⟩)), truth?_or ha hb⟩

def greaterNode : Node :=
  .of "BinaryExpression" [("operator", .string ">"),
    ("left", (Jumps.nameNode "n").toJson), ("right", (labelNode 3).toJson)]

def bothNode : Node :=
  .of "LogicalExpression" [("operator", .string "&&"),
    ("left", (Jumps.nameNode "x").toJson), ("right", greaterNode.toJson)]

/-- The condition `!(x && n > 3)`. -/
def nestedCondition : Node :=
  .of "UnaryExpression" [("operator", .string "!"),
    ("argument", bothNode.toJson)]

/-- `x` is a text and `n` a number. -/
def exampleValues : Expr → Option Value
  | .var "x" _ => some (.text "a")
  | .var "n" _ => some (.int 5)
  | _ => none

def recording (numbers texts : List String) : State :=
  { State.initial with known := ⟨numbers, texts, []⟩ }

theorem plainVariable_nameNode (x : String) : PlainVariable (Jumps.nameNode x) x := by
  refine ⟨⟨?_, ?_, ?_⟩, ?_⟩ <;> rw [Node.unwrapped_of_wrapped? rfl] <;> rfl

abbrev ExampleHolds : String → Value → Prop :=
  Holding .initial (recording ["n"] ["x"]) exampleValues

theorem test_keeps_truth_nestedCondition :
    ∃ e, (level 9).test nestedCondition .initial (recording ["n"] ["x"]) =
      (e, recording ["n"] ["x"]) ∧ e.truth? exampleValues = some false := by
  have hx : ExampleHolds "x" (.text "a") := ⟨⟨by decide, by decide⟩, rfl, .head _, rfl⟩
  have hn : ExampleHolds "n" (.int 5) :=
    ⟨⟨by decide, by decide⟩, rfl, ⟨.head _, by decide⟩, rfl⟩
  have hgreater : Truth ExampleHolds greaterNode (compares ">" 5 3) := by
    refine .comparison ?_ ?_ ?_ (by decide) ?_ ?_ (.var (plainVariable_nameNode "n") hn)
      (.literal (integerLabel_labelNode (by decide)))
    all_goals rw [Node.unwrapped_of_wrapped? rfl]; rfl
  have hboth : Truth ExampleHolds bothNode (true && compares ">" 5 3) := by
    refine .logical ?_ ?_ (show connective? "&&" = some and from rfl) ?_ ?_
      (.var (plainVariable_nameNode "x") hx) hgreater
    all_goals rw [Node.unwrapped_of_wrapped? rfl]; rfl
  refine test_keeps_truth (b := !(true && compares ">" 5 3)) (.negation ?_ ?_ ?_ hboth)
    (by decide +kernel)
  all_goals rw [Node.unwrapped_of_wrapped? rfl]; rfl

def textNode : Node := .of "Literal" [("value", .string "a")]

/-- After `x = "a"` and `x = 5` the variable is recorded as a number and as a text. It is asked
whether it is empty, which no number answers. -/
theorem test_of_text_and_number :
    ((recording [] []).known.learn "x" textNode).learn "x" (labelNode 5) =
      (recording ["x"] ["x"]).known ∧
    ∃ e, (level 9).test (Jumps.nameNode "x") .initial
      (recording ["x"] ["x"]) = (e, recording ["x"] ["x"]) ∧
        e.truth? (fun _ => some (.int 5)) = none := by
  refine ⟨by decide +kernel, not ((Expr.localVar "x").read "empty?"), ?_, rfl⟩
  rw [test_of_undecided (by decide +kernel),
    test_of_plainVariable (plainVariable_nameNode "x") ⟨by decide, by decide⟩]
  rfl

end Ruby

end Scriptgen
