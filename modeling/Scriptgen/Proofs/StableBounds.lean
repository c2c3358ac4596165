import Scriptgen.Proofs.Jumps
import Scriptgen.Proofs.Words.Source
import Scriptgen.Source.CountingLoop
/-!
# Bounds that stay as they are

A counting loop is lowered to a call that looks at its bound once, so nothing in its body may change
the variable or the bound. `Disturbs` lists what can. Loops are turned down for the plain forms of
these. Patterns, heads of loops other than `var x`, tagged nodes, computed names and assignments to
a length are overlooked. Main result: `countingLoop_undisturbed_iff`.
-/

namespace Scriptgen

open Node CountingLoop Option
open Jumps (nameNode blockNode)

/-! ## What stands in a body -/

/-- A node stands in another one, outside of the functions in it. -/
inductive Node.RunsIn (part : Node) : Node → Prop
  | refl : RunsIn part part
  | child {node inner : Node} {key : String} :
      node.isFunction = false → key ∉ ["loc", "range"] → node.child? key = some inner →
      RunsIn part inner → RunsIn part node
  | item {node inner : Node} {key : String} :
      node.isFunction = false → key ∉ ["loc", "range"] → inner ∈ node.children key →
      RunsIn part inner → RunsIn part node

variable {fields : List (String × Json)}

section

variable {part node inner : Node} {key : String}

theorem nodesWithin_subset_of_lookup {value : Json}
    (hkey : key ∉ ["loc", "range"]) (h : fields.lookup key = some value) :
    value.nodesWithin (fun _ => true) ⊆ Json.nodesInFields (fun _ => true) fields := by
  induction fields with
  | nil => simp at h
  | cons field rest ih =>
    obtain ⟨k, v⟩ := field
    rw [List.lookup_cons] at h
    rw [Json.nodesInFields]
    split at h
    · rename_i hk
      cases h
      obtain rfl := beq_iff_eq.1 hk
      rw [if_neg (by simpa using hkey)]
      exact List.subset_append_left _ _
    · split
      · exact ih h
      · exact List.subset_append_of_subset_right _ (ih h)

theorem nodesWithin_subset_of_mem {items : List Json} {item : Json} (h : item ∈ items) :
    item.nodesWithin (fun _ => true) ⊆ Json.nodesInItems (fun _ => true) items := by
  induction items with
  | nil => cases h
  | cons first rest ih =>
    rw [Json.nodesInItems]
    rcases List.mem_cons.1 h with rfl | h
    · exact List.subset_append_left _ _
    · exact List.subset_append_of_subset_right _ (ih h)

theorem allNodes_subset : Json.nodesInFields (fun _ => true) fields ⊆ Node.allNodes ⟨fields⟩ := by
  intro n hn
  rw [allNodes, toJson, Json.nodesWithin]
  split
  · exact List.mem_cons_of_mem _ hn
  · exact hn

theorem Node.mem_allNodes_self (htype : node.type ≠ "") : node ∈ node.allNodes := by
  have hsome : (node.fields.lookup "type").isSome = true := by
    rw [isSome_iff_ne_none]
    exact fun hnone => htype (by simp [type, text?, get?, hnone])
  rw [allNodes, toJson, Json.nodesWithin, if_pos hsome]
  exact List.mem_cons_self

theorem Node.allNodes_subset_of_child? (hkey : key ∉ ["loc", "range"])
    (h : node.child? key = some inner) : inner.allNodes ⊆ node.allNodes := by
  obtain ⟨value, hvalue, hnode⟩ := bind_eq_some_iff.1 h
  cases value <;> cases hnode
  exact fun _ hn => allNodes_subset (nodesWithin_subset_of_lookup hkey hvalue hn)

theorem Node.allNodes_subset_of_mem_children (hkey : key ∉ ["loc", "range"])
    (h : inner ∈ node.children key) : inner.allNodes ⊆ node.allNodes := by
  obtain ⟨item, hitem, hnode⟩ := List.mem_filterMap.1 h
  cases hvalue : node.get? key with
  | none => simp [items, hvalue] at hitem
  | some value =>
    cases value with
    | array list =>
      simp only [items, hvalue] at hitem
      cases item <;> cases hnode
      refine fun _ hn => allNodes_subset (nodesWithin_subset_of_lookup hkey hvalue ?_)
      rw [Json.nodesWithin]
      exact nodesWithin_subset_of_mem hitem hn
    | _ => simp [items, hvalue, Json.asArray?] at hitem

theorem Node.RunsIn.allNodes_subset (h : RunsIn part node) : part.allNodes ⊆ node.allNodes := by
  induction h with
  | refl => exact List.Subset.refl _
  | child _ hkey h _ ih => exact fun _ hn => allNodes_subset_of_child? hkey h (ih hn)
  | item _ hkey h _ ih => exact fun _ hn => allNodes_subset_of_mem_children hkey h (ih hn)

end

/-! ## What disturbs a loop -/

/-- A place that a target of an assignment assigns to: the target itself, or a part of a pattern. -/
inductive Node.PlaceIn (place : Node) : Node → Prop
  | refl : PlaceIn place place
  | item {target inner : Node} {key : String} :
      (target.unwrapped.type, key) ∈ [("ArrayPattern", "elements"), ("ObjectPattern", "properties")] →
      inner ∈ target.unwrapped.children key → PlaceIn place inner → PlaceIn place target
  | part {target inner : Node} {key : String} :
      (target.unwrapped.type, key) ∈
        [("Property", "value"), ("RestElement", "argument"), ("AssignmentPattern", "left")] →
      target.unwrapped.child? key = some inner → PlaceIn place inner → PlaceIn place target

/-- A declarator stands after `var` in the head of a loop. -/
def Node.IsInHead (declarator node : Node) : Prop :=
  node.type ∈ ["ForInStatement", "ForOfStatement"] ∧ ∃ declaration,
    node.child? "left" = some declaration ∧ declaration.text? "kind" = some "var" ∧
      declarator ∈ declaration.children "declarations"

/-- A node writes to a place, plainly or not. -/
inductive Node.WritesTo (place : Node) : Bool → Node → Prop
  | assignment {node : Node} :
      node.type = "AssignmentExpression" → node.child? "left" = some place → WritesTo place true node
  | update {node : Node} :
      node.type = "UpdateExpression" → node.child? "argument" = some place → WritesTo place true node
  | pattern {node target : Node} :
      node.type = "AssignmentExpression" → node.child? "left" = some target →
      target.unwrapped.type ∈ ["ArrayPattern", "ObjectPattern"] → PlaceIn place target →
      WritesTo place false node
  | head {node target : Node} :
      node.type ∈ ["ForInStatement", "ForOfStatement"] → node.child? "left" = some target →
      PlaceIn place target → WritesTo place false node
  | varHead {node declarator : Node} :
      declarator.IsInHead node → declarator.type = "VariableDeclarator" →
      declarator.child? "id" = some place → WritesTo place true node
  | varPattern {node declarator target : Node} :
      declarator.IsInHead node → declarator.child? "id" = some target → PlaceIn place target →
      (declarator.type = "VariableDeclarator" → target ≠ place) → WritesTo place false node

/-- The name of a member, plainly or as a text in brackets. -/
def Node.memberName? (node : Node) : Option String :=
  if node.flag "computed" then node.child? "property" >>= stringValue? else node.staticMember?

def resizingTags : List String :=
  ["ArrayPush", "ArrayPop", "ArrayShift", "ArrayUnshift", "ArrayClear"]

def Node.MemberOf (x : String) (node : Node) : Prop :=
  ∃ object, node.child? "object" = some object ∧ object.unwrapped.isIdentifier x = true

/-- A bound is computed from a variable, or from its length. -/
inductive BoundReads : Node → Bool → String → Prop
  | name {expr : Node} {x : String} :
      expr.unwrapped.type = "Identifier" → expr.unwrapped.name? = some x → BoundReads expr false x
  | length {expr object : Node} {x : String} :
      expr.unwrapped.type = "MemberExpression" → expr.unwrapped.staticMember? = some "length" →
      expr.unwrapped.child? "object" = some object → object.unwrapped.name? = some x →
      BoundReads expr true x
  | operand {expr inner : Node} {key x : String} {isLength : Bool} :
      (expr.unwrapped.type, key) ∈
        [("BinaryExpression", "left"), ("BinaryExpression", "right"),
          ("UnaryExpression", "argument")] →
      expr.unwrapped.child? key = some inner → BoundReads inner isLength x →
      BoundReads expr isLength x

/-- **A node can change what a loop counts.** The flag tells the plain forms from the others. -/
inductive Disturbs (loop : CountingLoop) : Bool → Node → Prop
  | write {node place : Node} {x : String} {plain : Bool} :
      x = loop.var ∨ (∃ isLength, BoundReads loop.bound isLength x) →
      place.unwrapped.isIdentifier x = true → WritesTo place plain node → Disturbs loop plain node
  | lengthWrite {node place : Node} {x : String} {plain : Bool} :
      BoundReads loop.bound true x → place.unwrapped.memberName? = some "length" →
      place.unwrapped.MemberOf x → WritesTo place plain node → Disturbs loop false node
  | call {node callee : Node} {x method : String} :
      BoundReads loop.bound true x → node.type = "CallExpression" →
      node.child? "callee" = some callee → callee.unwrapped.MemberOf x →
      callee.unwrapped.memberName? = some method → method ∈ resizingMethods →
      Disturbs loop (!callee.unwrapped.flag "computed") node
  | tagged {node array : Node} {x tag : String} :
      BoundReads loop.bound true x → node.text? "ilNodeType" = some tag → tag ∈ resizingTags →
      node.child? "array" = some array → array.unwrapped.isIdentifier x = true →
      Disturbs loop false node

/-! ## Loops that are accepted -/

section

variable {loop : CountingLoop} {node body expr part : Node} {x var : String}

/-- A counting loop is made from a `for` statement with this test, bound and update. -/
structure CountingLoop.IsFrom (loop : CountingLoop) (node tested bounding updating : Node)
    (symbol : String) (upward : Bool) : Prop where
  counter : (node.child? "init" >>= counter?) = some (loop.var, loop.start)
  test : node.child? "test" = some tested
  operator : tested.unwrapped.text? "operator" = some symbol
  comparison : comparison? symbol = some (upward, loop.inclusive)
  right : tested.unwrapped.child? "right" = some bounding
  bound : loop.bound = bounding.unwrapped
  update : node.child? "update" = some updating
  step : updating.unwrapped.loopStep? loop.var = some loop.step
  upward : upward = decide (loop.step > 0)
  body : node.child? "body" = some loop.body
  unassigned : assignsTo [loop.body] loop.var = false
  stable : isStableBound loop.var loop.body loop.bound = true

theorem CountingLoop.exists_isFrom (h : ofNode? node = some loop) :
    ∃ tested bounding updating symbol upward,
      loop.IsFrom node tested bounding updating symbol upward := by
  simp only [ofNode?, bind_eq_bind, bind_eq_some_iff] at h
  obtain ⟨_, hinit, ⟨var, start⟩, hcounter, test, htest, -, -, _, -, -, -, operator, hop,
    ⟨upward, inclusive⟩, hcomparison, right, hright, update, hupdate, step, hstep, body, hbody, _,
    hupward, _, hchecks, hmade⟩ := h
  cases hmade
  have hupward := of_guard_eq_some hupward
  have hchecks := of_guard_eq_some hchecks
  simp only [beq_iff_eq, Bool.and_eq_true, Bool.not_eq_true'] at hupward hchecks
  exact ⟨test, right, update, operator, upward, bind_eq_some_iff.2 ⟨_, hinit, hcounter⟩, htest,
    hop, hcomparison, hright, rfl, hupdate, hstep, hupward, hbody, hchecks.1, hchecks.2⟩

theorem stable_of_part {inner : Node} {key : String} (hinner : expr.unwrapped.child? key = some inner)
    (h : (match _h : expr.unwrapped.child? key with
      | some inner => isStableBound var body inner
      | none => false) = true) : isStableBound var body inner = true := by
  split at h <;> simp_all

theorem stable_of_boundReads {isLength : Bool} (h : BoundReads expr isLength x)
    (hstable : isStableBound var body expr = true) :
    assignsTo [body] x = false ∧ (isLength = true → callsMethod [body] resizingMethods = false) := by
  induction h with
  | @name expr x htype hname =>
    rw [isStableBound, htype] at hstable
    simp_all
  | @length expr object x htype hmember hobject hname =>
    rw [isStableBound, htype] at hstable
    simp_all
  | @operand expr inner key x isLength hkey hinner _ ih =>
    apply ih
    rw [isStableBound] at hstable
    simp only [List.mem_cons, Prod.mk.injEq, List.not_mem_nil, or_false] at hkey
    rcases hkey with ⟨htype, rfl⟩ | ⟨htype, rfl⟩ | ⟨htype, rfl⟩ <;>
      simp only [htype] at hstable <;> split at hstable
    · exact stable_of_part hinner (Bool.and_eq_true_iff.1 hstable).1
    · cases hstable
    · exact stable_of_part hinner (Bool.and_eq_true_iff.1 hstable).2
    · cases hstable
    · exact stable_of_part hinner hstable
    · cases hstable

theorem assignsTo_of_writesTo {place : Node} (hin : part.RunsIn body)
    (hplace : place.unwrapped.isIdentifier x = true) (h : WritesTo place true part) :
    assignsTo [body] x = true := by
  obtain ⟨writer, hpart, htype, htarget⟩ : ∃ writer : Node, writer.allNodes ⊆ part.allNodes ∧
      writer.type ≠ "" ∧ writer.writeTarget? = some place := by
    cases h with
    | assignment | update => exact ⟨part, List.Subset.refl _, by simp_all [writeTarget?]⟩
    | varHead hhead =>
      obtain ⟨-, declaration, hleft, -, hmem⟩ := hhead
      exact ⟨_, fun _ hn => allNodes_subset_of_child? (by decide) hleft
        (allNodes_subset_of_mem_children (by decide) hmem hn), by simp_all [writeTarget?]⟩
  simp only [assignsTo, List.any_cons, List.any_nil, Bool.or_false, List.any_eq_true]
  exact ⟨writer, hin.allNodes_subset (hpart (mem_allNodes_self htype)), by simp [htarget, hplace]⟩

/-- **Nothing plain disturbs a loop that is accepted.** -/
theorem not_disturbs_plain (h : ofNode? node = some loop)
    (hin : part.RunsIn loop.body) : ¬ Disturbs loop true part := by
  obtain ⟨_, _, _, _, _, hfrom⟩ := exists_isFrom h
  have hvar := hfrom.unassigned
  have hstable := hfrom.stable
  generalize hplain : true = plain
  rintro (@⟨_, place, x, _, hx, hplace, hwrites⟩ | _ |
    ⟨hreads, htype, hcallee, hmember, hname, hmethod⟩ | _)
  · subst hplain
    have hassigns := assignsTo_of_writesTo hin hplace hwrites
    rcases hx with rfl | ⟨isLength, hreads⟩
    · simp_all
    · simp_all [(stable_of_boundReads hreads hstable).1]
  · cases hplain
  · rename_i callee x method
    have hstatic : callee.unwrapped.staticMember? = some method := by
      rwa [memberName?, if_neg (by simpa using hplain)] at hname
    have hcalls : callsMethod [loop.body] resizingMethods = true := by
      simp only [callsMethod, List.any_cons, List.any_nil, Bool.or_false, List.any_eq_true]
      exact ⟨part, hin.allNodes_subset (mem_allNodes_self (by simp [htype])),
        by simp [calledMethod?, htype, hcallee, hstatic, hmethod]⟩
    simp_all [(stable_of_boundReads hreads hstable).2 rfl]
  · cases hplain

end

/-- **A counting loop is undisturbed exactly if nothing disturbs it that is overlooked.** -/
theorem countingLoop_undisturbed_iff {node : Node} {loop : CountingLoop}
    (h : ofNode? node = some loop) :
    (∀ part, part.RunsIn loop.body → ∀ plain, ¬ Disturbs loop plain part) ↔
      ∀ part, part.RunsIn loop.body → ¬ Disturbs loop false part := by
  refine ⟨fun hnone part hin => hnone part hin false, fun hnone part hin plain => ?_⟩
  cases plain with
  | true => exact not_disturbs_plain h hin
  | false => exact hnone part hin

/-! ## What is overlooked -/

namespace Overlooked

def assignment (left : Node) : Node :=
  .of "AssignmentExpression" [("operator", .string "="), ("left", left.toJson),
    ("right", (nameNode "ys").toJson)]

/-- The member `xs.length`. -/
def length : Node :=
  .of "MemberExpression" [("object", (nameNode "xs").toJson),
    ("property", (nameNode "length").toJson)]

/-- The pattern `[i]`. -/
def pattern : Node :=
  .of "ArrayPattern" [("elements", .array [(nameNode "i").toJson])]

/-- The assignments `[i] = ys` and `xs.length = ys`, and `xs.push()` as a tagged node. -/
def parts : List Node :=
  [assignment pattern, assignment length,
    .of "ILExpression" [("ilNodeType", .string "ArrayPush"),
      ("array", (nameNode "xs").toJson), ("elements", .array [])]]

/-- The loop `for (let i = n; i < xs.length; i++)` over these parts. -/
def loopNode : Node :=
  .of "ForStatement" [
    ("init", .node "VariableDeclaration" [("kind", .string "let"),
      ("declarations", .array [.node "VariableDeclarator" [
        ("id", (nameNode "i").toJson), ("init", (nameNode "n").toJson)]])]),
    ("test", .node "BinaryExpression" [("operator", .string "<"),
      ("left", (nameNode "i").toJson), ("right", length.toJson)]),
    ("update", .node "UpdateExpression" [("operator", .string "++"),
      ("argument", (nameNode "i").toJson)]),
    ("body", (blockNode parts).toJson)]

theorem exists_loop : ∃ loop, ofNode? loopNode = some loop :=
  isSome_iff_exists.1 (by decide +kernel)

theorem writesTo_assignment : WritesTo (nameNode "i") false (assignment pattern) := by
  have hpattern : pattern.unwrapped = pattern := unwrapped_of_wrapped? rfl
  have hitem : nameNode "i" ∈ pattern.unwrapped.children "elements" := by
    rw [hpattern]
    exact List.mem_singleton.2 rfl
  exact .pattern rfl rfl (by rw [hpattern]; decide) (.item (by rw [hpattern]; decide) hitem .refl)

end Overlooked

open Overlooked in
theorem countingLoop_undisturbed_iff_loopNode :
    ∃ loop, ofNode? loopNode = some loop ∧
      ((∀ part, part.RunsIn loop.body → ∀ plain, ¬ Disturbs loop plain part) ↔
        ∀ part, part.RunsIn loop.body → ¬ Disturbs loop false part) := by
  obtain ⟨loop, hloop⟩ := exists_loop
  exact ⟨loop, hloop, countingLoop_undisturbed_iff hloop⟩

open Overlooked in
/-- A loop is accepted with all of these in its body. -/
theorem overlooked_parts_disturb :
    ∃ loop, ofNode? loopNode = some loop ∧
      ∀ part ∈ parts, part.RunsIn loop.body ∧ Disturbs loop false part := by
  obtain ⟨loop, hloop⟩ := exists_loop
  obtain ⟨test, right, _, _, _, hfrom⟩ := exists_isFrom hloop
  have hname (x : String) : (nameNode x).unwrapped = nameNode x := unwrapped_of_wrapped? rfl
  have hlength : length.unwrapped = length := unwrapped_of_wrapped? rfl
  have hvar : "i" = loop.var := congrArg Prod.fst (some.inj hfrom.counter)
  have hbody : blockNode parts = loop.body := some.inj hfrom.body
  have hbound : loop.bound = length := by
    obtain rfl := some.inj hfrom.test
    have hright := hfrom.right
    rw [unwrapped_of_wrapped? rfl] at hright
    rw [hfrom.bound, ← some.inj hright]
    exact hlength
  have hreads : BoundReads loop.bound true "xs" := by
    rw [hbound]
    exact .length (by rw [hlength]; rfl) (by rw [hlength]; rfl) (by rw [hlength]; rfl)
      (by rw [hname]; rfl)
  refine ⟨loop, hloop, fun part hpart => ⟨?_, ?_⟩⟩
  · have hitem : part ∈ (blockNode parts).children "body" := hpart
    exact hbody ▸ .item rfl (by decide) hitem .refl
  · simp only [parts, List.mem_cons, List.not_mem_nil, or_false] at hpart
    obtain rfl | rfl | rfl := hpart
    · exact .write (.inl hvar) (by rw [hname]; rfl) writesTo_assignment
    · exact .lengthWrite hreads (by rw [hlength]; rfl)
        ⟨nameNode "xs", by rw [hlength]; rfl, by rw [hname]; rfl⟩ (.assignment rfl rfl)
    · exact .tagged hreads rfl (by decide) rfl (by rw [hname]; rfl)

end Scriptgen
