import Scriptgen.Proofs.Ruby.Place
/-!
# Values at a place

Each step of the lowering does at a place what `Yields` says, if it lowers nodes that may be lowered
there. This follows for each function from those that it calls. The facts are tagged, so that most
of them are found by following the text of the function.

Here are values, iterations, and what programs take from the library.
-/

namespace Scriptgen.Ruby

open Lowering Fitting

variable {P : Place} {node : Node} {nodes : List Node} {node? : Option Node}

/-! ## Values -/

@[grind ←] theorem yields_options : Yields P options := by unfold options; grind

@[grind ←] theorem yields_isClass (name) : Yields P (isClass name) := by unfold isClass; grind

@[grind ←] theorem yields_isFunctionName (name) : Yields P (isFunctionName name) := by
  unfold isFunctionName; grind

@[grind ←] theorem yields_isText (node) : Yields P (isText node) := by unfold isText; grind

@[grind ←] theorem yields_isNumber (node) : Yields P (isNumber node) := by unfold isNumber; grind

@[grind ←] theorem yields_collectionOf? (node) : Yields P (collectionOf? node) := by
  unfold collectionOf?; grind

@[grind ←] theorem yields_hasShape (node shape) : Yields P (hasShape node shape) := by
  unfold hasShape; grind

@[grind ←] theorem yields_isVariable (name) : Yields P (isVariable name) := by
  unfold isVariable; grind

@[grind ←] theorem yields_variableHere (name) : Yields P (variableHere name) := by
  unfold variableHere; grind

@[grind ←] theorem yields_calledName (method) : Yields P (calledName method) := by
  unfold calledName; grind

@[grind ←] theorem yields_relearn {key : String} (value) (h : P.learns key) :
    Yields P (relearn key value) :=
  .bind (yields_forget h) fun _ _ => yields_learn value h

@[grind ←] theorem yields_declareWith {name : String} (shape value) (h : P.learns name) :
    Yields P (declareWith name shape value) := by
  unfold declareWith; grind

@[grind ←] theorem yields_declareScalar {name : String} (h : P.learns name) :
    Yields P (declareScalar name) := yields_declareWith _ _ h

@[grind ←] theorem yields_value (h : Fits P node) : Yields P (value node) := by unfold value; grind

@[grind ←] theorem yields_valueOr (default) (h : Fits P node?) : Yields P (valueOr default node?) := by
  unfold valueOr; grind

@[grind ←] theorem yields_valueOf (h : Fits P node?) : Yields P (valueOf node?) := by
  unfold valueOf; grind

@[grind ←] theorem yields_values (h : Fits P nodes) : Yields P (values nodes) := by
  unfold values; grind

@[grind ←] theorem yields_stmts (h : Fits P nodes) : Yields P (stmts nodes) := by
  unfold stmts; grind

@[grind ←] theorem yields_scopedStmts (h : Fits P nodes) : Yields P (scopedStmts nodes) := by
  unfold scopedStmts; grind

@[grind ←] theorem yields_splat (h : Fits P node) : Yields P (splat node) := by unfold splat; grind

@[grind ←] theorem yields_item (h : Fits P node) : Yields P (item node) := by unfold item; grind

@[grind ←] theorem yields_arguments (h : Fits P nodes) : Yields P (arguments nodes) := by
  unfold arguments; grind

@[grind ←] theorem yields_shared (expr stem) : Yields P (shared expr stem) := by
  unfold shared; grind

@[grind ←]
theorem yields_closeLoop (frame body) : Yields P (closeLoop frame body) := by
  unfold closeLoop; grind

variable {body : Lower (List Stmt)} {separator : Option Node}

@[grind ←]
theorem yields_loopBody {frame : Frame} (hbreak : frame.breakTag = none)
    (hnext : frame.nextTag = none) (hbody : Yields P body) : Yields P (loopBody frame body) := by
  unfold loopBody; grind

/-! ## Iteration -/

section Iteration

variable {callback : Callback} {names : List String}

@[grind →]
theorem fits_namedCallback? (h : Fits P node) (hcallback : namedCallback? node = some callback) :
    Fits P callback :=
  fits_ofNode? h callback (Option.filter_eq_some_iff.1 hcallback).1

@[grind →]
theorem learns_paramNames (h : Fits P callback) : ∀ name ∈ callback.paramNames, P.learns name := by
  intro name hname
  obtain ⟨param, hparam, hname⟩ := List.mem_filterMap.1 hname
  exact learns_of_bound h.1 (Node.mem_boundNames_of_target (Node.mem_targets_of_params hparam)
    (Node.mem_targetNames_of_name? hname))

@[grind ←]
theorem yields_declareParams (h : ∀ name ∈ names, P.learns name) : Yields P (declareParams names) :=
  .forM fun name hname => yields_declareScalar (h name hname)

@[grind ←]
theorem yields_callbackStmts (opening) (hbody : Yields P body) :
    Yields P (callbackStmts opening body) := by
  unfold callbackStmts; grind [Frame.ofCallback]

@[grind ←]
theorem yields_callbackBlock (params opening) (h : Fits P callback) :
    Yields P (callbackBlock callback params opening) := by
  unfold callbackBlock; grind

@[grind ←] theorem yields_iterable (h : Fits P node) : Yields P (iterable node) := by
  unfold iterable; grind

@[grind ←]
theorem yields_declareIterationParams (op initial) (h : ∀ name ∈ names, P.learns name) :
    Yields P (declareIterationParams op names initial) := by
  refine .bind (.forM fun name hname => ?_) fun _ _ => yields_declareParams fun name hname => ?_
  · exact yields_declareWith _ _ (h name (List.mem_of_mem_take hname))
  · exact h name (List.mem_of_mem_drop hname)

@[grind ←]
theorem yields_iterateWith (op list initialNode initial) (h : Fits P callback) :
    Yields P (iterateWith op list callback initialNode initial) := by
  have hnames := learns_paramNames h
  unfold iterateWith
  dsimp only
  split
  all_goals
    refine .bind (α := List Stmt × Expr) (by grind) fun shared _ => ?_
    exact .bind (Yields.inScope (by grind)) fun block _ => .pure trivial

@[grind ←]
theorem yields_iterate {array callback : Node} {initial : Option Node} (op) (harray : Fits P array)
    (hcallback : Fits P callback) (hinitial : Fits P initial) :
    Yields P (iterate op array callback initial) := by
  unfold iterate; grind

@[grind ←]
theorem yields_loopHead (collection list names) : Yields P (loopHead collection list names) := by
  unfold loopHead; grind

@[grind ←]
theorem yields_foreachStmts {array callback : Node} (harray : Fits P array)
    (hcallback : Fits P callback) : Yields P (foreachStmts array callback) := by
  unfold foreachStmts
  split
  · grind
  · rename_i literal hliteral
    have hliteral := fits_namedCallback? hcallback hliteral
    have hnames := learns_paramNames hliteral
    refine .bind (by grind) fun collection _ => .bind (by grind) fun list _ => ?_
    refine .bind (by grind) fun head _ => .bind (Yields.inScope ?_) fun body _ =>
      .pure fun _ _ => trivial
    refine .bind (yields_declareParams hnames) fun _ _ => yields_callbackStmts _ ?_
    have hbody := hliteral.2
    split <;> rename_i heq <;> rw [heq] at hbody
    · exact yields_stmts (fits_children hbody)
    · exact yields_exprStmt hbody

@[grind ←]
theorem yields_generatedArray {length mapper : Node} (hlength : Fits P length)
    (hmapper : Fits P mapper) : Yields P (generatedArray length mapper) := by
  unfold generatedArray
  refine .bind (by grind) fun length _ => ?_
  split
  · grind
  · rename_i callback hcallback
    have hcallback := fits_namedCallback? hmapper hcallback
    exact .bind (Yields.inScope (by grind)) fun block _ => .pure trivial

end Iteration

/-! ## Arrays and collections -/

variable {start stop : Option Node}

section Arrays

variable {array receiver : Node} {args : List Node}

theorem fits_newArraySize? (h : Fits P node) : Fits P (newArraySize? node) := by
  have hargs : Fits P (node.unwrapped.children "arguments") := fits_children (fits_unwrapped h)
  unfold newArraySize?
  dsimp only
  repeat' split
  all_goals simp_all

grind_pattern fits_newArraySize? => Fits P node, newArraySize? node

theorem fits_lengthOnly? (h : Fits P node) : Fits P (lengthOnly? node) := by
  have hproperties : Fits P (node.unwrapped.children "properties") := fits_children (fits_unwrapped h)
  unfold lengthOnly?
  dsimp only
  split
  · split
    · rename_i property hproperty
      rw [hproperty, fits_cons] at hproperties
      split
      · exact fits_child? hproperties.1
      · exact fits_none.2 trivial
    · exact fits_none.2 trivial
  · exact fits_none.2 trivial

grind_pattern fits_lengthOnly? => Fits P node, lengthOnly? node

@[grind ←] theorem yields_sizedOrCopied (h : Fits P node) : Yields P (sizedOrCopied node) := by
  unfold sizedOrCopied; grind

@[grind ←] theorem yields_arrayFrom {source : Node} {mapper : Option Node} (hsource : Fits P source)
    (hmapper : Fits P mapper) : Yields P (arrayFrom source mapper) := by
  unfold arrayFrom; grind

@[grind ←]
theorem yields_sortedArray {compare : Option Node} (harray : Fits P array)
    (hcompare : Fits P compare) : Yields P (sortedArray array compare) := by
  unfold sortedArray
  refine .bind (by grind) fun list hlist => ?_
  split
  · grind
  · rename_i compare
    rw [fits_some] at hcompare
    split
    · rename_i callback hcallback
      have hcallback := fits_namedCallback? hcompare (Option.filter_eq_some_iff.1 hcallback).1
      exact .bind (Yields.inScope (by grind)) fun block _ => .pure trivial
    · grind

@[grind ←] theorem yields_fillRange (hstart : Fits P start)
    (hstop : Fits P stop) : Yields P (fillRange start stop) := by
  unfold fillRange; grind

@[grind ←] theorem yields_filledArray {filler : Node}
    (harray : Fits P array) (hfiller : Fits P filler) (hstart : Fits P start) (hstop : Fits P stop) :
    Yields P (filledArray array filler start stop) := by
  unfold filledArray; grind

@[grind ←]
theorem tries_splicedArray (harray : Fits P array) (hargs : Fits P args) :
    Tries P (splicedArray array args) := by
  unfold splicedArray
  refine .bind (by grind) fun list hlist => .bind (by grind) fun first hfirst => ?_
  split <;> grind

@[grind ←] theorem yields_joinedArray (list)
    (h : Fits P separator) : Yields P (joinedArray list separator) := by
  unfold joinedArray; grind

@[grind ←] theorem yields_sliced (list)
    (hstart : Fits P start) (hstop : Fits P stop) : Yields P (sliced list start stop) := by
  unfold sliced; grind

@[grind ←] theorem yields_isSingleElement (node) : Yields P (isSingleElement node) := by
  unfold isSingleElement; grind

@[grind ←] theorem yields_concatenated {others : List Node} (harray : Fits P array)
    (hothers : Fits P others) : Yields P (concatenated array others) := by
  unfold concatenated; grind

@[grind ←] theorem tries_arrayMethod (method) (h : Fits P receiver) (hargs : Fits P args) :
    Tries P (arrayMethod receiver method args) := by
  unfold arrayMethod; grind

@[grind ←] theorem tries_mapSlot (h : Fits P receiver) (hargs : Fits P args) :
    Tries P (mapSlot receiver args) := by
  unfold mapSlot; grind

@[grind ←] theorem tries_collectionMethod (collection method) (h : Fits P receiver)
    (hargs : Fits P args) : Tries P (collectionMethod collection receiver method args) := by
  unfold collectionMethod; grind

end Arrays

/-! ## Texts -/

section Texts

variable {receiver : Node} {args : List Node}

@[grind ←] theorem yields_splitText (text)
    (h : Fits P separator) : Yields P (splitText text separator) := by
  unfold splitText; grind

@[grind ←] theorem yields_searchedPattern (all) (h : Fits P node) :
    Yields P (searchedPattern node all) := by
  unfold searchedPattern; grind

@[grind ←]
theorem yields_replacementBlock {function : Node} (h : Fits P function) :
    Yields P (replacementBlock function) := by
  unfold replacementBlock
  split
  · grind
  · rename_i callback hcallback
    have hcallback := fits_namedCallback? h hcallback
    exact Yields.inScope (by grind)

@[grind ←] theorem yields_replacedText {searched replacement : Node} (all) (text)
    (hsearched : Fits P searched) (hreplacement : Fits P replacement) :
    Yields P (replacedText text searched replacement all) := by
  unfold replacedText; grind

@[grind ←] theorem tries_textMethodOn (method) (text) (hargs : Fits P args) :
    Tries P (textMethodOn text method args) := by
  unfold textMethodOn; grind

@[grind ←] theorem tries_textMethod (method) (h : Fits P receiver) (hargs : Fits P args) :
    Tries P (textMethod receiver method args) := by
  unfold textMethod; grind

end Texts

/-! ## Words -/

section Words

variable {args : List Node}

@[grind ←]
theorem yields_rotate (e f rotation) : Yields P (rotate e f rotation) := by
  unfold rotate
  dsimp only
  refine .bind (by grind) fun ⟨valueSetup, value⟩ hvalue => ?_
  split
  · split
    all_goals
      refine .bind (by grind) fun ⟨amountSetup, amount⟩ hshifted => ?_
      split <;> grind
  · refine .bind (by grind) fun ⟨amountSetup, amount⟩ hshifted => ?_
    split <;> grind

@[grind ←] theorem yields_unpackBytes (e bits bigEndian) :
    Yields P (unpackBytes e bits bigEndian) := by
  unfold unpackBytes; grind

@[grind ←] theorem yields_fieldProduct (e f) :
    Yields P (fieldProduct e f) := by
  unfold fieldProduct; grind

@[grind ←] theorem yields_wordHelper (method) (hargs : Fits P args) :
    Yields P (wordHelper method args) := by
  unfold wordHelper; grind

end Words

/-! ## Global objects -/

section Global

variable {args : List Node} {receiver object : Node}

section

variable (hargs : Fits P args)

include hargs

@[grind ←] theorem yields_mathFunction (method) :
    Yields P (mathFunction method args) := by
  unfold mathFunction; grind

omit hargs in
@[grind ←] theorem yields_jsonCall (method value) :
    Yields P (jsonCall method value) := by
  unfold jsonCall; grind

@[grind ←] theorem tries_objectFunction (method) :
    Tries P (objectFunction method args) := by
  unfold objectFunction; grind

@[grind ←] theorem tries_consoleCall (method) :
    Tries P (consoleCall method args) := by
  unfold consoleCall; grind

@[grind ←]
theorem yields_charsOfCodes : Yields P (charsOfCodes args) := by
  have hpacked : Yields P (charsOfCodes.packed args) := by unfold charsOfCodes.packed; grind
  unfold charsOfCodes charsOfCodes.single
  grind

@[grind ←]
theorem yields_arrayConstructor : Yields P (arrayConstructor args) := by
  have helements : Yields P (arrayConstructor.elements args) := by
    unfold arrayConstructor.elements; grind
  unfold arrayConstructor
  grind

omit hargs in
@[grind ←] theorem yields_truthValue (h : Fits P node?) : Yields P (truthValue node?) := by
  unfold truthValue; grind

@[grind ←] theorem tries_globalCall (name) :
    Tries P (globalCall name args) := by
  unfold globalCall; grind

@[grind ←] theorem tries_regexConstructor :
    Tries P (regexConstructor args) := by
  unfold regexConstructor; grind

@[grind ←] theorem tries_builtinConstructor (name) :
    Tries P (builtinConstructor name args) := by
  unfold builtinConstructor; grind

@[grind ←] theorem tries_jsonFunction (method) :
    Tries P (jsonFunction method args) := by
  unfold jsonFunction; grind

@[grind ←] theorem tries_arrayFunction (method) :
    Tries P (arrayFunction method args) := by
  unfold arrayFunction; grind

@[grind ←] theorem tries_numberFunction (method) :
    Tries P (numberFunction method args) := by
  unfold numberFunction; grind

@[grind ←] theorem tries_globalMethod (object method) :
    Tries P (globalMethod object method args) := by
  unfold globalMethod; grind

omit hargs in
@[grind ←] theorem yields_fixedFormat (h : Fits P node?) : Yields P (fixedFormat node?) := by
  unfold fixedFormat; grind

@[grind ←] theorem tries_valueMethod (method) (h : Fits P receiver) :
    Tries P (valueMethod receiver method args) := by
  unfold valueMethod; grind

@[grind ←] theorem tries_knownMethod (method) (h : Fits P object) :
    Tries P (knownMethod object method args) := by
  unfold knownMethod; grind

@[grind ←] theorem tries_methodStmts (method) (h : Fits P receiver) :
    Tries P (methodStmts receiver method args) := by
  unfold methodStmts; grind

end

end Global

end Scriptgen.Ruby
