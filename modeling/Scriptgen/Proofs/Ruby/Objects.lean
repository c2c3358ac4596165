import Mathlib.Data.List.Forall2
import Scriptgen.Ruby.Lower.Expr
/-!
# Object literals with spreads

`run` evaluates the hashes of generated Ruby. A hash keeps its pairs in order, a later pair of a key
takes the place of the earlier one, and every hash that is made is a new one in memory. Other
expressions are left to a meaning that is given (`Meaning`).

`Applied` is what an object literal stands for. The generated expression gives exactly that object,
and the hashes that are spread stay as they are: `objectLiteral_applies`.
-/

namespace Scriptgen.Ruby.Objects

open List

/-! ## Hashes -/

/-- A value. A hash is known by its place in memory. -/
inductive Value where
  | text (text : String)
  | hash (address : Nat)
  | other (id : Nat)
deriving DecidableEq

/-- Sets the value of a key in its place, or in a new pair at the end. -/
def setPair (key : String) (value : Value) : List (String × Value) → List (String × Value)
  | [] => [(key, value)]
  | (x, old) :: rest => if x = key then (x, value) :: rest else (x, old) :: setPair key value rest

section SetPair

variable {key : String} {value : Value} {pairs : List (String × Value)}

theorem keys_setPair (h : key ∈ pairs.map Prod.fst) :
    (setPair key value pairs).map Prod.fst = pairs.map Prod.fst := by
  induction pairs with
  | nil => cases h
  | cons pair rest ih =>
    by_cases hx : pair.1 = key
    · simp [setPair, hx]
    · have hrest : key ∈ rest.map Prod.fst := (mem_cons.1 h).resolve_left (Ne.symm hx)
      simp [setPair, hx, ih hrest]

theorem setPair_of_new (h : key ∉ pairs.map Prod.fst) :
    setPair key value pairs = pairs ++ [(key, value)] := by
  induction pairs with
  | nil => rfl
  | cons pair rest ih =>
    obtain ⟨hx, hrest⟩ := not_or.1 (mem_cons.not.1 h)
    simp [setPair, Ne.symm hx, ih hrest]

end SetPair

/-- The pairs of a hash in their order, one for each key. -/
@[ext]
structure Table where
  pairs : List (String × Value)
  distinct : (pairs.map Prod.fst).Nodup

variable {table : Table}

namespace Table

def empty : Table := ⟨[], .nil⟩

def set (table : Table) (key : String) (value : Value) : Table where
  pairs := setPair key value table.pairs
  distinct := by
    by_cases h : key ∈ table.pairs.map Prod.fst
    · rw [keys_setPair h]
      exact table.distinct
    · rw [setPair_of_new h, List.map_append, List.nodup_append]
      refine ⟨table.distinct, by simp, fun x hx y hy heq => h ?_⟩
      rwa [heq, List.mem_singleton.1 hy] at hx

def setAll (table : Table) (pairs : List (String × Value)) : Table :=
  pairs.foldl (fun table pair => table.set pair.1 pair.2) table

theorem pairs_setAll {pairs : List (String × Value)}
    (h : ((table.pairs ++ pairs).map Prod.fst).Nodup) :
    (table.setAll pairs).pairs = table.pairs ++ pairs := by
  induction pairs generalizing table with
  | nil => exact (append_nil _).symm
  | cons pair rest ih =>
    have hnew : pair.1 ∉ table.pairs.map Prod.fst := by
      rw [map_append, nodup_append] at h
      exact fun hmem => h.2.2 _ hmem pair.1 mem_cons_self rfl
    have hset : (table.set pair.1 pair.2).pairs ++ rest = table.pairs ++ pair :: rest := by
      change setPair pair.1 pair.2 table.pairs ++ rest = _
      rw [setPair_of_new hnew, append_assoc]
      rfl
    exact (ih (hset ▸ h)).trans hset

theorem setAll_pairs (table : Table) : empty.setAll table.pairs = table :=
  Table.ext (pairs_setAll table.distinct)

end Table

/-! ## Evaluation -/

/-- The hashes that there are, by their addresses. -/
abbrev Memory := List Table

abbrev Evaluation := StateT Memory Option

variable {a : Nat}

theorem read_grown {m m' : Memory} (h : m <+: m')
    (hread : m[a]? = some table) : m'[a]? = some table := by
  obtain ⟨rest, rfl⟩ := h
  rw [getElem?_append_left (List.getElem?_eq_some_iff.1 hread).1, hread]

def create (table : Table) : Evaluation Value := fun m => some (.hash m.length, m ++ [table])

def load : Value → Evaluation Table
  | .hash address => fun m => m[address]?.map (·, m)
  | _ => fun _ => none

theorem load_of_read {m : Memory} (h : m[a]? = some table) :
    load (.hash a) m = some (table, m) := by
  change m[a]?.map _ = _
  rw [h, Option.map_some]

def textOf : Value → Evaluation String
  | .text text => pure text
  | _ => fun _ => none

mutual

/-- What an expression gives. Both hashes of a `merge` are read after its argument. -/
def run (other : Expr → Evaluation Value) : Expr → Evaluation Value
  | .string text => pure (.text text)
  | .hash pairs => do create (Table.empty.setAll (← runPairs other pairs))
  | .call (some receiver) "dup" [] none => do
    create (← load (← run other receiver))
  | .call (some receiver) "merge" [arg] none => do
    let receiver ← run other receiver
    let arg ← run other arg
    create ((← load receiver).setAll (← load arg).pairs)
  | expr => other expr

def runPairs (other : Expr → Evaluation Value) :
    List (Expr × Expr) → Evaluation (List (String × Value))
  | [] => pure []
  | (key, value) :: rest => do
    let key ← textOf (← run other key)
    let value ← run other value
    return (key, value) :: (← runPairs other rest)

end

/-- The meaning of other expressions. They may make hashes but change none. -/
structure Meaning where
  eval : Expr → Evaluation Value
  grows : ∀ expr m value m', eval expr m = some (value, m') → m <+: m'

/-- A step changes no hash. -/
def Grows {α : Type} (x : Evaluation α) : Prop := ∀ m a m', x m = some (a, m') → m <+: m'

section Grows

variable {α β : Type} {x : Evaluation α} {k : α → Evaluation β}

theorem Grows.bind (hx : Grows x) (hk : ∀ a, Grows (k a)) : Grows (x >>= k) := by
  intro m b m' hrun
  obtain ⟨⟨a, m₁⟩, hfirst, hrest⟩ := Option.bind_eq_some_iff.1 hrun
  exact (hx m a m₁ hfirst).trans (hk a m₁ b m' hrest)

theorem Grows.pure (a : α) : Grows (pure a) := by
  rintro m _ _ ⟨⟩
  exact prefix_refl m

theorem grows_create (table : Table) : Grows (create table) := by
  rintro m _ _ ⟨⟩
  exact prefix_append m [table]

theorem grows_load (value : Value) : Grows (load value) := by
  intro m result m' hrun
  cases value with
  | hash a =>
    obtain ⟨table, -, ⟨⟩⟩ := Option.map_eq_some_iff.1 hrun
    exact prefix_refl m
  | _ => cases hrun

theorem grows_textOf (value : Value) : Grows (textOf value) := by
  intro m result m' hrun
  cases value with
  | text text =>
    cases hrun
    exact prefix_refl m
  | _ => cases hrun

theorem grows_run (M : Meaning) :
    (∀ expr, Grows (run M.eval expr)) ∧ ∀ pairs, Grows (runPairs M.eval pairs) := by
  apply run.mutual_induct
  case case1 =>
    intro text
    rw [run]
    exact .pure _
  case case2 =>
    intro pairs ih
    rw [run]
    exact .bind ih fun _ => grows_create _
  case case3 =>
    intro receiver ih
    rw [run]
    exact .bind ih fun _ => .bind (grows_load _) grows_create
  case case4 =>
    intro receiver arg ihreceiver iharg
    rw [run]
    exact .bind ihreceiver fun _ => .bind iharg fun _ => .bind (grows_load _) fun _ =>
      .bind (grows_load _) fun _ => grows_create _
  case case5 =>
    intro expr hstring hhash hdup hmerge
    rw [run] <;> first | exact M.grows expr | assumption
  case case6 =>
    rw [runPairs]
    exact .pure _
  case case7 =>
    intro key value rest ihkey ihvalue ihrest
    rw [runPairs]
    exact .bind ihkey fun _ => .bind (grows_textOf _) fun _ => .bind ihvalue fun _ =>
      .bind ihrest fun _ => .pure _

end Grows

/-! ## Objects by their parts -/

variable (M : Meaning)

def runPair (key value : Expr) : Evaluation (String × Value) := do
  let key ← textOf (← run M.eval key)
  return (key, ← run M.eval value)

def apply (object : Table) : ObjectPart → Evaluation Table
  | .pair key value => do
    let pair ← runPair M key value
    return object.set pair.1 pair.2
  | .spread operand => do
    return object.setAll (← load (← run M.eval operand)).pairs

/-- **Parts are applied to the empty object from left to right.** Nothing but the operands is
evaluated between, and no hash is touched that is not new. -/
inductive Applied (m : Memory) : List ObjectPart → Table → Memory → Prop where
  | nil : Applied m [] .empty m
  | temporary {parts object m₁} (table : Table) :
    Applied m parts object m₁ → Applied m parts object (m₁ ++ [table])
  | snoc {parts object m₁ part object' m₂} : Applied m parts object m₁ →
    apply M object part m₁ = some (object', m₂) → Applied m (parts ++ [part]) object' m₂

/-- An operand has no value, or not one of the kind that its place takes. -/
def Stuck (m : Memory) (parts : List ObjectPart) : Prop :=
  ∃ before part after object m₁, parts = before ++ part :: after ∧
    Applied M m before object m₁ ∧ apply M object part m₁ = none

variable {M} {m m' m₁ : Memory} {parts : List ObjectPart} {part : ObjectPart} {object : Table}

theorem grows_apply (object : Table) (part : ObjectPart) : Grows (apply M object part) := by
  cases part with
  | pair key value =>
    have hpair : Grows (runPair M key value) := .bind ((grows_run M).1 key) fun _ =>
      .bind (grows_textOf _) fun _ => .bind ((grows_run M).1 value) fun _ => .pure _
    exact .bind hpair fun _ => .pure _
  | spread operand =>
    exact .bind ((grows_run M).1 operand) fun _ => .bind (grows_load _) fun _ => .pure _

theorem Applied.grows (h : Applied M m parts object m') : m <+: m' := by
  induction h with
  | nil => exact prefix_refl m
  | temporary table _ ih => exact ih.trans (prefix_append _ [table])
  | snoc _ happly ih => exact ih.trans (grows_apply _ _ _ _ _ happly)

theorem Stuck.append (h : Stuck M m parts) (rest : List ObjectPart) : Stuck M m (parts ++ rest) := by
  obtain ⟨before, part, after, object, m₁, rfl, happlied, hstuck⟩ := h
  exact ⟨before, part, after ++ rest, object, m₁, by simp, happlied, hstuck⟩

theorem Applied.stuck (h : Applied M m parts object m₁) (hstuck : apply M object part m₁ = none) :
    Stuck M m (parts ++ [part]) := ⟨parts, part, [], object, m₁, rfl, h, hstuck⟩

/-! ## The code of a literal -/

/-- **The value of code for parts of a literal**: a new hash with what they give. The hashes that there
were are as they were. Without a value, an operand is stuck. -/
def Made (M : Meaning) (parts : List ObjectPart) (m : Memory) : Option (Value × Memory) → Prop
  | some (value, m') => ∃ a object, value = .hash a ∧ m.length ≤ a ∧ m'[a]? = some object ∧
      Applied M m parts object m' ∧ m <+: m'
  | none => Stuck M m parts

/-- What pairs give that are not yet in a hash. -/
def Listed (M : Meaning) (parts : List ObjectPart) (m : Memory) :
    Option (List (String × Value) × Memory) → Prop
  | some (values, m') => Applied M m parts (Table.empty.setAll values) m'
  | none => Stuck M m parts

/-- What is built of some parts: pairs as long as nothing was spread, then an object. -/
def Built (M : Meaning) (parts : List ObjectPart) : Option Expr × List (Expr × Expr) → Prop
  | (some base, _) => ∀ m, Made M parts m (run M.eval base m)
  | (none, pairs) => ∀ m, Listed M parts m (runPairs M.eval pairs m)

/-- A new hash is what a part makes of an object. Another one may be made before it. -/
def Creates (M : Meaning) (part : ObjectPart) (object : Table) (m : Memory)
    (x : Option (Value × Memory)) : Prop :=
  match apply M object part m with
  | some (object', m') => x = create object' m' ∨ ∃ table, x = create object' (m' ++ [table])
  | none => x = none

theorem Applied.made (h : Applied M m parts object m₁) : Made M parts m (create object m₁) :=
  have happlied := h.temporary object
  ⟨_, object, rfl, h.grows.length_le, getElem?_concat_length, happlied, happlied.grows⟩

theorem Creates.made {x : Option (Value × Memory)} (hx : Creates M part object m₁ x)
    (h : Applied M m parts object m₁) : Made M (parts ++ [part]) m x := by
  unfold Creates at hx
  rcases happly : apply M object part m₁ with _ | ⟨object', m₂⟩ <;> rw [happly] at hx
  · rw [hx]
    exact h.stuck happly
  · rcases hx with rfl | ⟨table, rfl⟩
    · exact (h.snoc happly).made
    · exact ((h.snoc happly).temporary table).made

theorem made_hash {pairs : List (Expr × Expr)} (h : Built M parts (none, pairs)) (m : Memory) :
    Made M parts m (run M.eval (.hash pairs) m) := by
  have hpairs := h m
  rw [run]
  change Made M parts m ((runPairs M.eval pairs m).bind _)
  generalize runPairs M.eval pairs m = values at hpairs
  rcases values with _ | ⟨values, m₁⟩
  · exact hpairs
  · exact Applied.made hpairs

/-- Sets what an expression gives in an object, in a new hash. -/
def merged (M : Meaning) (object : Table) (arg : Expr) : Evaluation Value := do
  create (object.setAll (← load (← run M.eval arg)).pairs)

theorem creates_spread (object : Table) (operand : Expr) (m : Memory) :
    Creates M (.spread operand) object m (merged M object operand m) := by
  have happly : apply M object (.spread operand) m = (run M.eval operand m).bind fun r =>
      (load r.1 r.2).bind fun q => some (object.setAll q.1.pairs, q.2) := rfl
  have hmerged : merged M object operand m = (run M.eval operand m).bind fun r =>
      (load r.1 r.2).bind fun q => create (object.setAll q.1.pairs) q.2 := rfl
  rw [Creates, happly, hmerged]
  rcases run M.eval operand m with _ | ⟨value, m₁⟩ <;> simp only [Option.bind_none, Option.bind_some]
  rcases load value m₁ with _ | ⟨table, m₂⟩
  · rfl
  · exact .inl rfl

theorem runPairs_concat (pairs : List (Expr × Expr)) (key value : Expr) :
    runPairs M.eval (pairs ++ [(key, value)]) = do
      let values ← runPairs M.eval pairs
      return values ++ [← runPair M key value] := by
  induction pairs with
  | nil => simp [runPairs, runPair]
  | cons pair pairs ih => simp [runPairs, ih]

/-- After a spread, a pair comes in a hash of its own. -/
theorem creates_pair (object : Table) (key value : Expr) (m : Memory) :
    Creates M (.pair key value) object m (merged M object (.hash [(key, value)]) m) := by
  have happly : apply M object (.pair key value) m = (runPair M key value m).bind fun p =>
      some (object.set p.1.1 p.1.2, p.2) := rfl
  have hhash : run M.eval (.hash [(key, value)]) =
      runPair M key value >>= fun pair => create (Table.empty.set pair.1 pair.2) := by
    have hpair : runPairs M.eval [(key, value)] = _ := runPairs_concat [] key value
    rw [run, hpair, runPairs]
    simp only [pure_bind, bind_assoc]
    rfl
  have hmerged : merged M object (.hash [(key, value)]) m = (runPair M key value m).bind fun p =>
      create (object.set p.1.1 p.1.2) (p.2 ++ [Table.empty.set p.1.1 p.1.2]) := by
    rw [merged, hhash]
    change ((runPair M key value m).bind _).bind _ = _
    rcases runPair M key value m with _ | ⟨pair, m₁⟩
    · rfl
    -- the argument is the hash that was made last
    · change (load (.hash m₁.length) _).bind _ = _
      rw [load_of_read getElem?_concat_length]
      rfl
  rw [Creates, happly, hmerged]
  rcases runPair M key value m with _ | ⟨pair, m₁⟩
  · rfl
  · exact .inr ⟨_, rfl⟩

variable {built : Option Expr × List (Expr × Expr)} {base : Expr}

theorem run_merge_none (hbase : run M.eval base m = none) (arg : Expr) :
    run M.eval (.method base "merge" [arg]) m = none := by
  rw [Expr.method, run]
  change (run M.eval base m).bind _ = none
  rw [hbase]
  rfl

/-- What is merged into an object is set in what it had before the argument was evaluated. -/
theorem run_merge (hbase : run M.eval base m = some (.hash a, m₁))
    (hread : m₁[a]? = some object) (arg : Expr) :
    run M.eval (.method base "merge" [arg]) m = merged M object arg m₁ := by
  rw [Expr.method, run]
  change (run M.eval base m).bind _ = (run M.eval arg m₁).bind _
  rw [hbase]
  change (run M.eval arg m₁).bind _ = _
  rcases harg : run M.eval arg m₁ with _ | ⟨value, m₂⟩
  · rfl
  -- the argument may have made hashes, but that of the base is still the same
  · change (load (.hash a) m₂).bind _ = _
    rw [load_of_read (read_grown ((grows_run M).1 arg m₁ value m₂ harg) hread)]
    rfl

theorem made_merge {arg : Expr} (hbase : Made M parts m (run M.eval base m))
    (harg : ∀ object m₁, Creates M part object m₁ (merged M object arg m₁)) :
    Made M (parts ++ [part]) m (run M.eval (.method base "merge" [arg]) m) := by
  rcases hrun : run M.eval base m with _ | ⟨value, m₁⟩ <;> rw [hrun] at hbase
  · rw [run_merge_none hrun]
    exact Stuck.append hbase _
  · obtain ⟨a, object, rfl, -, hread, happlied, -⟩ := hbase
    rw [run_merge hrun hread]
    exact (harg object m₁).made happlied

theorem run_dup (operand : Expr) : run M.eval (operand.read "dup") = merged M .empty operand := by
  rw [Expr.read, Expr.method, run, merged]
  simp only [Table.setAll_pairs]

theorem built_pair {pairs : List (Expr × Expr)} (h : Built M parts (none, pairs))
    (key value : Expr) :
    Built M (parts ++ [.pair key value]) (none, pairs ++ [(key, value)]) := by
  intro m
  have hpairs := h m
  have hrun : runPairs M.eval (pairs ++ [(key, value)]) m =
      (runPairs M.eval pairs m).bind fun p =>
        (runPair M key value p.2).bind fun q => some (p.1 ++ [q.1], q.2) := by
    rw [runPairs_concat]
    rfl
  rw [hrun]
  generalize runPairs M.eval pairs m = before at hpairs
  rcases before with _ | ⟨values, m₁⟩
  · exact Stuck.append hpairs _
  · have hnext : apply M (Table.empty.setAll values) (.pair key value) m₁ =
        (runPair M key value m₁).bind fun p =>
          some ((Table.empty.setAll values).set p.1.1 p.1.2, p.2) := rfl
    rw [Option.bind_some]
    generalize runPair M key value m₁ = pair at hnext
    rcases pair with _ | ⟨pair, m₂⟩
    · exact Applied.stuck hpairs hnext
    · have hset : Table.empty.setAll (values ++ [pair]) =
          (Table.empty.setAll values).set pair.1 pair.2 := foldl_append
      rw [Option.bind_some, ← hset] at hnext
      exact Applied.snoc hpairs hnext

theorem Built.addTo (h : Built M parts built)
    (part : ObjectPart) : Built M (parts ++ [part]) (part.addTo built) := by
  obtain ⟨_ | base, pairs⟩ := built
  · cases part with
    | pair key value => exact built_pair h key value
    | spread operand =>
      cases pairs with
      | nil =>
        -- a spread that comes first is copied, not merged into an empty hash
        intro m
        have hpairs := h m
        rw [runPairs] at hpairs
        rw [run_dup]
        exact (creates_spread .empty operand m).made hpairs
      | cons pair pairs =>
        exact fun m => made_merge (made_hash h m) fun object m₁ => creates_spread object operand m₁
  · cases part with
    | pair key value =>
      exact fun m => made_merge (h m) fun object m₁ => creates_pair object key value m₁
    | spread operand =>
      exact fun m => made_merge (h m) fun object m₁ => creates_spread object operand m₁

theorem built_parts (rest : List ObjectPart)
    (h : Built M parts built) : Built M (parts ++ rest) (rest.foldl ObjectPart.addTo built) := by
  induction rest generalizing parts built with
  | nil => rwa [append_nil]
  | cons part rest ih =>
    rw [append_cons]
    exact ih (h.addTo part)

theorem made_objectOf (parts : List ObjectPart) (m : Memory) :
    Made M parts m (run M.eval (objectOf parts) m) := by
  have hempty : Built M [] (none, []) := by
    intro m
    rw [runPairs]
    exact .nil
  have hbuilt : Built M parts (parts.foldl ObjectPart.addTo (none, [])) := built_parts parts hempty
  unfold objectOf
  generalize parts.foldl ObjectPart.addTo (none, []) = built at hbuilt
  rcases built with ⟨_ | base, pairs⟩
  · exact made_hash hbuilt m
  · exact hbuilt m

/-! ## Object literals of the program -/

variable (b : Below) (c : Context)

/-- The code for the key of a property: a text for a name or a text, or else that of an expression. -/
inductive StandsKey (property key : Node) : Expr → Prop where
  | name {text} : property.flag "computed" = false → key.name? = some text →
    StandsKey property key (.string text)
  | text {text} : property.flag "computed" = false → key.name? = none →
    key.text? "value" = some text → StandsKey property key (.string text)
  | code (s : State) : (property.flag "computed" = false → key.name? = none ∧
    key.text? "value" = none) → StandsKey property key (value key b c s).1

/-- A property of the program as a part, with the code of its operands. -/
inductive Stands (property : Node) : ObjectPart → Prop where
  | spread {argument} (s : State) : property.type = "SpreadElement" →
    property.child? "argument" = some argument → Stands property (.spread (value argument b c s).1)
  | pair {node key} (s : State) : property.type ≠ "SpreadElement" →
    property.child? "key" = some node → StandsKey b c property node key →
    Stands property (.pair key (valueOf (property.child? "value") b c s).1)

/-- Whether a property is a spread or a pair. Accessors are dropped. -/
def isProperty (property : Node) : Bool :=
  if property.type == "SpreadElement" then (property.child? "argument").isSome
  else !(property.text? "kind" == some "get" || property.text? "kind" == some "set") &&
    (property.child? "key").isSome

theorem standsKey_propertyKey (property key : Node) (s : State) :
    StandsKey b c property key (propertyKey property key b c s).1 := by
  unfold propertyKey
  cases hcomputed : property.flag "computed" with
  | true => exact .code s fun h => absurd (hcomputed.symm.trans h) Bool.true_eq_false.mp
  | false =>
    cases hname : key.name? with
    | some name => exact .name hcomputed hname
    | none =>
      cases htext : key.text? "value" with
      | some text => exact .text hcomputed hname htext
      | none => exact .code s fun _ => ⟨hname, htext⟩

theorem stands_objectPart (property : Node) (s : State) :
    (isProperty property = true → ∃ part,
      (objectPart property b c s).1 = some part ∧ Stands b c property part) ∧
    (isProperty property = false → (objectPart property b c s).1 = none) := by
  unfold isProperty objectPart
  by_cases hspread : property.type = "SpreadElement"
  · simp only [hspread, beq_self_eq_true, if_true]
    cases hargument : property.child? "argument" with
    | none => exact ⟨fun h => absurd h Bool.false_ne_true, fun _ => rfl⟩
    | some argument =>
      exact ⟨fun _ => ⟨_, rfl, .spread s hspread hargument⟩,
        fun h => absurd h.symm Bool.false_ne_true⟩
  · simp only [hspread, beq_iff_eq, if_false]
    cases property.text? "kind" == some "get" || property.text? "kind" == some "set" with
    | true => exact ⟨fun h => absurd h Bool.false_ne_true, fun _ => rfl⟩
    | false =>
      cases hkey : property.child? "key" with
      | none => exact ⟨fun h => absurd h Bool.false_ne_true, fun _ => rfl⟩
      | some key =>
        have hpart := Stands.pair (propertyKey property key b c s).2 hspread hkey
          (standsKey_propertyKey b c property key s)
        exact ⟨fun _ => ⟨_, rfl, hpart⟩, fun h => absurd h.symm Bool.false_ne_true⟩

theorem stands_parts (nodes : List Node) (s : State) :
    List.Forall₂ (Stands b c) (nodes.filter isProperty)
      ((nodes.mapM objectPart b c s).1.filterMap id) := by
  induction nodes generalizing s with
  | nil => exact .nil
  | cons node nodes ih =>
    have hmapM : ((node :: nodes).mapM objectPart b c s).1 = (objectPart node b c s).1 ::
        (nodes.mapM objectPart b c (objectPart node b c s).2).1 := by
      rw [mapM_cons]
      rfl
    obtain ⟨hkept, hdropped⟩ := stands_objectPart b c node s
    rw [hmapM]
    cases hproperty : isProperty node with
    | true =>
      obtain ⟨part, hpart, hnode⟩ := hkept hproperty
      rw [hpart, filter_cons_of_pos hproperty]
      exact .cons hnode (ih _)
    | false =>
      rw [hdropped hproperty, filter_cons_of_neg (by simp [hproperty])]
      exact ih _

/-- **Object literals with spreads keep their order.** For every object literal, whatever the memory
and whatever its operands mean, the code gives a new hash with what its properties give when they are
applied to the empty object from left to right, unless an operand has no value of its kind there. The
hashes that there were, those that are spread among them, are as they were. -/
theorem objectLiteral_applies (node : Node) (s : State) :
    ∃ parts, List.Forall₂ (Stands b c) ((node.children "properties").filter isProperty) parts ∧
      ∀ (M : Meaning) (m : Memory), Made M parts m (run M.eval (objectLiteral node b c s).1 m) :=
  ⟨_, stands_parts b c (node.children "properties") s, fun _ m => made_objectOf _ m⟩

/-- The names `a` and `b` stand for the first two hashes of the memory. -/
def namedHashes : Meaning where
  eval
    | .var "a" _ => pure (.hash 0)
    | .var "b" _ => pure (.hash 1)
    | .number _ => pure (.other 1)
    | _ => fun _ => none
  grows expr m value m' h := by
    split at h <;> cases h <;> exact prefix_refl m

/-! In `{...a, x: 1, ...b}` a key of `b` that `a` has too keeps its place. -/

example : ((run namedHashes.eval (objectOf [.spread (.localVar "a"),
      .pair (.string "x") (.number "1"), .spread (.localVar "b")])
      [Table.empty.set "y" (.text "a"), (Table.empty.set "z" (.text "b")).set "y" (.text "b")]).bind
        fun result => result.2.getLast?.map (·.pairs)) =
    some [("y", .text "b"), ("x", .other 1), ("z", .text "b")] := by decide

end Scriptgen.Ruby.Objects
