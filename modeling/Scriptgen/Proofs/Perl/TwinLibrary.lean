import Scriptgen.Proofs.Perl.TwinValues
/-!
# The library of two runs

Methods of texts, helpers on words and the standard library are lowered alike in two runs. Functions
of a module are called where the module is asked for.
-/

namespace Scriptgen.Perl

open Lowering Fitting

variable {P : Policy} [P.Lawful] {H : Prop}

/-! ## Texts -/

variable {text' text value' value : Expr}

@[grind ←]
theorem makes_splitText {separator : Option Node} (htext : H → Fits P text)
    (heq : text' = twin P text) (hseparator : H → Fits P separator) :
    Makes P H (splitText text separator) (splitText text' separator) := by
  subst heq
  have htwin (between : Expr) :
      twin P (splitText.parts text between) = splitText.parts (twin P text) (twin P between) := by
    simp [splitText.parts]
  have hparts (between : Expr) :
      Fits P (splitText.parts text between) ↔ Fits P between ∧ Fits P text := by
    simp [splitText.parts]
  unfold splitText
  cases separator with
  | none => grind
  | some separator =>
    rw [Option.map_some]
    dsimp only
    split <;> grind +splitImp

variable {receiver node : Node} {amount' amount right' left' right left : Expr}

@[grind ←]
theorem makes_searchedPattern (all : Bool) (hnode : H → Fits P node) :
    Same P H (searchedPattern node all) := by
  unfold searchedPattern
  grind +splitImp

omit [P.Lawful] in
@[grind ←]
theorem makes_replacementValue (hnode : H → Fits P node) : Same P H (replacementValue node) := by
  unfold replacementValue
  grind

@[grind ←]
theorem makes_replaceText {searched replacement : Node} (all : Bool)
    (htext : H → Fits P text) (heq : text' = twin P text) (hsearched : H → Fits P searched)
    (hreplacement : H → Fits P replacement) :
    Makes P H (replaceText text searched replacement all)
      (replaceText text' searched replacement all) := by
  subst heq
  unfold replaceText
  grind +splitImp

variable {args : List Node}

@[grind ←]
theorem makes_paddedText (atStart : Bool) (htext : H → Fits P text)
    (heq : text' = twin P text) (hargs : H → Fits P args) :
    Makes P H (paddedText text args atStart) (paddedText text' args atStart) := by
  subst heq
  unfold paddedText
  grind +splitImp

@[grind ←]
theorem makes_endsWithTest {ending : Option Node} (htext : H → Fits P text)
    (heq : text' = twin P text) (hending : H → Fits P ending) :
    Makes P H (endsWithTest text ending) (endsWithTest text' ending) := by
  subst heq
  unfold endsWithTest
  grind +splitImp

@[grind ←]
theorem makes_slicedText (htext : H → Fits P text) (heq : text' = twin P text)
    (hargs : H → Fits P args) : Makes P H (slicedText text args) (slicedText text' args) := by
  subst heq
  unfold slicedText
  cases hstop : args[1]? <;> grind +splitImp

@[grind ←]
theorem makes_charsOfCodes (hargs : H → Fits P args) : Same P H (charsOfCodes args) := by
  unfold charsOfCodes
  grind

variable (method : String)

@[grind ←]
theorem makesTry_textMethod (hreceiver : H → Fits P receiver)
    (hargs : H → Fits P args) : SameTry P H (textMethod receiver method args) := by
  unfold textMethod
  refine .bind (by grind) fun text => ?_
  split <;> grind +splitImp -funext

/-! ## Words -/

omit [P.Lawful] in
@[grind ←]
theorem makes_rotate (rotation : Rotation)
    (hvalue : H → Fits P value) (heq : value' = twin P value) (hamount : H → Fits P amount)
    (heq' : amount' = twin P amount) :
    Makes P H (rotate value amount rotation) (rotate value' amount' rotation) := by
  subst heq heq'
  unfold rotate
  refine .bind (by grind) fun ⟨setup, word⟩ => ?_
  have hreduced : Makes P (H ∧ Fits P (setup, word))
      (shared (binary .mod amount (.int rotation.bits)) "shift")
      (shared (binary .mod (twin P amount) (.int rotation.bits)) "shift") := by
    grind
  cases hleft : rotation.left
  all_goals
    cases amount with
    | number text => grind
    | _ => exact .bind hreduced fun ⟨setup', reduced⟩ => by grind

omit [P.Lawful] in
@[grind ←]
theorem makes_unpackBytes (bits : Nat) (bigEndian : Bool)
    (hvalue : H → Fits P value) (heq : value' = twin P value) :
    Makes P H (unpackBytes value bits bigEndian) (unpackBytes value' bits bigEndian) := by
  subst heq
  unfold unpackBytes
  grind

omit [P.Lawful] in
@[grind ←]
theorem makes_signedShiftBy (hvalue : H → Fits P value)
    (heq : value' = twin P value) (hamount : H → Fits P amount) (heq' : amount' = twin P amount) :
    Makes P H (signedShiftBy value amount) (signedShiftBy value' amount') := by
  subst heq heq'
  unfold signedShiftBy
  rw [literalNat?_twin]
  cases amount.literalNat? <;> grind +splitImp

omit [P.Lawful] in
@[grind ←]
theorem makes_bitwise (operator : String) (narrow : Bool)
    (hleft : H → Fits P left) (heq : left' = twin P left) (hright : H → Fits P right)
    (heq' : right' = twin P right) :
    Makes P H (bitwise operator left right narrow) (bitwise operator left' right' narrow) := by
  subst heq heq'
  unfold bitwise
  split <;> grind

omit [P.Lawful] in
@[grind ←]
theorem makes_fieldProduct {a a' b b' : Expr} (ha : H → Fits P a) (heq : a' = twin P a)
    (hb : H → Fits P b) (heq' : b' = twin P b) :
    Makes P H (fieldProduct a b) (fieldProduct a' b') := by
  subst heq heq'
  unfold fieldProduct
  refine .bind (makes_fresh _) fun x => .bind (makes_fresh _) fun y => .bind (makes_fresh _)
    fun product => .bind (makes_fresh _) fun high => .bind (makes_fresh _) fun round => ?_
  refine .pure (fun h => ?_) (by simp)
  simp [ha h.1.1.1.1.1, hb h.1.1.1.1.1]

@[grind ←]
theorem makes_xorArrays (hleft : H → Fits P left)
    (heq : left' = twin P left) (hright : H → Fits P right) (heq' : right' = twin P right) :
    Makes P H (xorArrays left right) (xorArrays left' right') := by
  subst heq heq'
  unfold xorArrays
  grind +splitImp

@[grind ←]
theorem makes_clearedArray {array array' : Expr} (harray : H → Fits P array)
    (heq : array' = twin P array) : Makes P H (clearedArray array) (clearedArray array') := by
  subst heq
  unfold clearedArray
  grind

theorem allows_asked {module qualified : String} (name : String) (hmodule : module ∈ libraries)
    (h : P.asks module) (hname : qualified = module ++ "::" ++ name) :
    P.allows (.call qualified) := by
  subst hname
  exact Policy.Lawful.asked hmodule h

@[grind ←]
theorem makes_wordHelper (hargs : H → Fits P args) : Same P H (wordHelper method args) := by
  have hown (h : P.asks "OpCodes") (name : String) : P.allows (.call ("OpCodes::" ++ name)) :=
    allows_asked name (by decide) h (by simp)
  unfold wordHelper
  refine .bind (by grind) fun values => ?_
  dsimp only
  split
  · grind +splitImp
  · split <;> grind +splitImp

/-! ## The standard library -/

section

variable (hargs : H → Fits P args)

include hargs

@[grind ←]
theorem makes_mathCall : Same P H (mathCall method args) := by
  have hposix (h : P.asks "POSIX") (name : String) : P.allows (.call ("POSIX::" ++ name)) :=
    allows_asked name (by decide) h (by simp)
  have hrounding (h : P.asks "POSIX") :
      P.allows (.call "POSIX::floor") ∧ P.allows (.call "POSIX::ceil") :=
    ⟨hposix h "floor", hposix h "ceil"⟩
  have hextreme (h : P.asks "List::Util") :
      P.allows (.call "List::Util::min") ∧ P.allows (.call "List::Util::max") :=
    ⟨allows_asked "min" (by decide) h (by decide), allows_asked "max" (by decide) h (by decide)⟩
  unfold mathCall
  refine .bind (by grind) fun values => ?_
  dsimp only
  split <;> grind

omit hargs in
@[grind ←]
theorem makes_jsonCall (hvalue : H → Fits P value)
    (heq : value' = twin P value) : Makes P H (jsonCall method value) (jsonCall method value') := by
  subst heq
  have hclass (h : P.asks "JSON::PP") : P.allows (.callClass "JSON::PP") :=
    Policy.Lawful.askedClass h
  unfold jsonCall
  grind

@[grind ←]
theorem makesTry_objectCall : SameTry P H (objectCall method args) := by
  unfold objectCall
  refine .bind (.need (by grind) (by simp)) fun first => .bind (by grind) fun hash => ?_
  refine .bind (by grind) fun ⟨setup, base⟩ => ?_
  dsimp only
  split <;> grind +splitImp

@[grind ←]
theorem makesTry_consoleCall : SameTry P H (consoleCall method args) := by
  unfold consoleCall
  refine .bind (by grind) fun values => ?_
  rcases values with _ | ⟨only, _ | ⟨next, rest⟩⟩ <;> grind +splitImp -funext

@[grind ←]
theorem makesTry_conversion (name : String) :
    SameTry P H (conversion name args) := by
  unfold conversion
  split <;> grind +splitImp

@[grind ←]
theorem makes_newArray : Same P H (newArray args) := by
  unfold newArray
  grind

@[grind ←]
theorem makesTry_globalCall (name : String) :
    SameTry P H (globalCall name args) := by
  unfold globalCall
  grind

@[grind ←]
theorem makesTry_builtinNew (name : String) :
    SameTry P H (builtinNew name args) := by
  unfold builtinNew
  grind

@[grind ←]
theorem makesTry_arrayCall : SameTry P H (arrayCall method args) := by
  unfold arrayCall
  grind +splitImp

@[grind ←]
theorem makesTry_numberCall : SameTry P H (numberCall method args) := by
  unfold numberCall
  grind +splitImp

@[grind ←]
theorem makesTry_staticCall (object method : String) :
    SameTry P H (staticCall object method args) := by
  unfold staticCall
  grind +splitImp

@[grind ←]
theorem makesTry_methodCall (hreceiver : H → Fits P receiver) :
    SameTry P H (methodCall receiver method args) := by
  unfold methodCall
  grind +splitImp

end

end Scriptgen.Perl
