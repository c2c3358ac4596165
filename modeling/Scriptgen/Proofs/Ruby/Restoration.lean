import Scriptgen.Proofs.Jumps
import Scriptgen.Proofs.Ruby.Orderly
/-!
# What lowering a function leaves in the state

A function is lowered in a scope of its own and out of reach of the jumps around it. What is learned
there of numbers and texts is forgotten again. What is learned of collections stays known of the
names that the function sets (`learning`). Main result: `lowerFunction_leaves_state`.
-/

namespace Scriptgen

/-- A variable or attribute is set somewhere in a node. -/
def Node.Sets (node : Node) (key : String) : Prop :=
  ∃ part : Node, part.IsPartOf node ∧ key ∈ part.setKeys

variable {set : String → Prop}

namespace Ruby

open Lowering Fitting
open Jumps (blockNode nameNode)

/-- The fields that a constructor initializes are set in it. -/
def FunctionRole.Sets : FunctionRole → String → Prop
  | .constructor fields, key =>
    ∃ field ∈ fields, key = "@" ++ field.1 ∨ ∃ init, field.2 = some init ∧ init.Sets key
  | _, _ => False

/-- A place where something may be learned of the variables and attributes that are `set`, and of no
others. -/
def learning (set : String → Prop) : Place where
  node n := ∀ key, n.Sets key → set key
  learns := set
  child h hchild key := fun ⟨part, hpart, hkey⟩ => h key ⟨part, .child hchild hpart, hkey⟩
  item h hitem key := fun ⟨part, hpart, hkey⟩ => h key ⟨part, .item hitem hpart, hkey⟩
  set h hkey := h _ ⟨_, .refl, hkey⟩

theorem fits_role_learning {role : FunctionRole} (h : ∀ key, role.Sets key → set key) :
    Fits (learning set) role := by
  cases role with
  | constructor fields =>
    intro field hfield
    refine ⟨h _ ⟨field, hfield, .inl rfl⟩, fun init hinit key hkey => ?_⟩
    exact h key ⟨field, hfield, .inr ⟨init, hinit, hkey⟩⟩
  | _ => trivial

/-- A state after a function has been lowered: the scopes, the constructs around the place and the
waiting initializers are as they were, and so is what is known of numbers, of texts, and of the
collections in variables and attributes that are not `set`. -/
structure Unchanged (set : String → Prop) (before after : State) : Prop where
  scopes : after.scopes = before.scopes
  frames : after.frames = before.frames
  pendingFields : after.pendingFields = before.pendingFields
  numbers : after.known.numbers = before.known.numbers
  texts : after.known.texts = before.known.texts
  collections : ∀ key, ¬ set key →
    after.known.collections.lookup key = before.known.collections.lookup key

/-- What is done out of reach of what is around, in a scope that is closed again. -/
theorem Changes.unchanged {s t : State} (h : Changes set
      { s with frames := [], pendingFields := none, scopes := s.scopes.push } t) :
    Unchanged set s { t with
      scopes := t.scopes.pop
      frames := s.frames
      pendingFields := s.pendingFields
      known := { t.known with numbers := s.known.numbers, texts := s.known.texts } } where
  scopes := h.grows.pop
  frames := rfl
  pendingFields := rfl
  numbers := rfl
  texts := rfl
  collections _ hkey := h.lookup_collections hkey

/-- **Lowering a function leaves the state as it was**, whatever the function is and whatever the
state: what comes after it has the same context, and a state that is unchanged but for what is known
of the collections that the function sets itself. -/
theorem lowerFunction_leaves_state (name : String) (node : Node) (role : FunctionRole) (height : Nat)
    (c : Context) (s : State) :
    let after := (lowerFunction name node role >>= fun _ => readThe Context : Lower Context)
      (level height) c s
    after.1 = c ∧ Unchanged (fun key => node.Sets key ∨ role.Sets key) s after.2 := by
  refine ⟨rfl, ?_⟩
  have hnode : Fits (learning fun key => node.Sets key ∨ role.Sets key) node := fun _ => .inl
  have hrole : Fits (learning fun key => node.Sets key ∨ role.Sets key) role :=
    fits_role_learning fun _ => .inr
  have hbody := yields_paramsAndBody hnode hrole (level height) (sound_level height)
    (c.inside role name) { s with frames := [], pendingFields := none, scopes := s.scopes.push }
  exact hbody.changes.unchanged

/-- The function `function f() { const m = new Map(); }`. -/
def mapMaker : Node :=
  let make : Node := .of "NewExpression" [("callee", (nameNode "Map").toJson),
    ("arguments", .array [])]
  let declaration : Node := .of "VariableDeclaration" [("kind", .string "const"),
    ("declarations", .array [.node "VariableDeclarator" [
      ("id", (nameNode "m").toJson), ("init", make.toJson)]])]
  .of "FunctionDeclaration" [("id", (nameNode "f").toJson), ("params", .array []),
    ("body", (blockNode [declaration]).toJson)]

/-- What is known of the collection in a variable of the function stays known after it, so that a
variable of the same name outside is taken for that collection. -/
theorem mapMaker_leaves_collection :
    let start := State.start .defaults ["f"] []
    let after :=
      (lowerFunction "f" mapMaker .topLevel (level 8) .initial start).2
    start.known.collections.lookup "m" = none ∧ after.known.collections.lookup "m" = some .map :=
  ⟨rfl, by with_unfolding_all rfl⟩

end Ruby

end Scriptgen
