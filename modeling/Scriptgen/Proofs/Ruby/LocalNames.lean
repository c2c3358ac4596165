import Scriptgen.Proofs.Scopes
import Scriptgen.Ruby.Lower.Basic
/-!
# Local names that collide

A local variable keeps its name in Ruby but for dollar signs, for a capital or a digit at its start,
and for the names that Ruby has taken. The result is never a taken name. Different names may become
the same one, and `variables_collide_iff` says which do.
-/

namespace Scriptgen.Ruby

/-- Whether a name gets an underscore in front. -/
def needsMark (name : String) : Bool := startsUpper name || startsWithDigit name

/-- A name without dollar signs is spelled as another one: with an underscore in front, or with one
behind if Ruby has taken it. -/
def Respelled (name other : String) : Prop :=
  if needsMark name then other = "_" ++ name
  else name ∈ keywords ++ globalMethods ∧ other = name ++ "_"

section Spelling

variable {name : String}

theorem needsMark_underscore (name : String) : needsMark ("_" ++ name) = false := by
  simp [needsMark, startsUpper, startsWithDigit]

theorem needsMark_append_underscore (name : String) : needsMark (name ++ "_") = needsMark name := by
  cases hname : name.toList <;> simp [needsMark, startsUpper, startsWithDigit, hname]

theorem underscore_not_taken (name : String) : "_" ++ name ∉ keywords ++ globalMethods := by
  have hstart : ∀ word ∈ keywords ++ globalMethods, word.toList.head? ≠ some '_' := by
    decide +kernel
  exact fun hmem => hstart _ hmem (by simp)

theorem append_underscore_not_taken (h : name ∈ keywords ++ globalMethods) :
    name ++ "_" ∉ keywords ++ globalMethods := by
  revert name
  decide +kernel

theorem underscore_ne_append (name : String) {word : String}
    (h : word ∈ keywords ++ globalMethods) : "_" ++ name ≠ word ++ "_" := by
  have hstart : ∀ word ∈ keywords ++ globalMethods, (word ++ "_").toList.head? ≠ some '_' := by
    decide +kernel
  exact fun heq => hstart word h (by simp [← heq])

theorem localName_eq (name : String) :
    localName name =
      if needsMark (plainName name) then "_" ++ plainName name
      else if plainName name ∈ keywords ++ globalMethods then plainName name ++ "_"
      else plainName name := by
  unfold localName avoiding needsMark
  simp only [List.contains_iff_mem]
  cases startsUpper (plainName name) || startsWithDigit (plainName name) with
  | false => rfl
  | true => exact if_neg (underscore_not_taken (plainName name))

theorem localName_not_taken (name : String) : localName name ∉ keywords ++ globalMethods := by
  rw [localName_eq]
  split
  · exact underscore_not_taken _
  · split
    · exact append_underscore_not_taken ‹_›
    · assumption

/-- Two names collide if they differ in dollar signs only, or if one is spelled as the other. -/
theorem localName_eq_iff (a b : String) :
    localName a = localName b ↔
      plainName a = plainName b ∨ Respelled (plainName a) (plainName b) ∨
        Respelled (plainName b) (plainName a) := by
  rw [localName_eq, localName_eq]
  generalize plainName a = a
  generalize plainName b = b
  have hfront := needsMark_underscore
  have hbehind := needsMark_append_underscore
  have hfree := underscore_not_taken
  unfold Respelled
  -- A name is marked in front, behind or not at all, and the underscores show which.
  by_cases ha : needsMark a <;> by_cases hb : needsMark b <;>
    by_cases ha' : a ∈ keywords ++ globalMethods <;>
    by_cases hb' : b ∈ keywords ++ globalMethods <;>
    grind [String.append_right_inj, String.append_left_inj, underscore_ne_append,
      append_underscore_not_taken]

end Spelling

theorem variableIn_of_declaredHere {scopes : Scopes} {name : String} (outline : Outline)
    (hinner : 1 < scopes.depth) (hname : scopes.declaredHere name = true) :
    variableIn scopes outline name = .localVar (localName name) := by
  obtain ⟨_ | ⟨scope, rest⟩, outermost⟩ := scopes
  · exact absurd hinner (Nat.lt_irrefl 1)
  · have hscope : (scope.lookup name).isSome = true := hname
    have houter : (Scopes.mk (scope :: rest) outermost).resolvesOutermost name = false := by
      simp [Scopes.resolvesOutermost, hscope]
    have hlookup := Scopes.lookup?_eq_or ⟨scope :: rest, outermost⟩ name
    have hsome : ((Scopes.mk (scope :: rest) outermost).lookup? name).isSome = true := by
      rw [hlookup, Option.isSome_or]
      exact Bool.or_eq_true_iff.2 (.inl hscope)
    rw [variableIn, hsome, houter]
    rfl

/-- **Which local names collide.** Two variables that an inner scope declares are the same variable
in Ruby exactly if their names are the same but for dollar signs, or one name is spelled as the
other. No variable gets a name that Ruby has taken. -/
theorem variables_collide_iff (scopes : Scopes) (outline : Outline) (a b : String) (k l : Shape) :
    let inside := (scopes.push.declare a k).declare b l
    (variableIn inside outline a = variableIn inside outline b ↔
      plainName a = plainName b ∨ Respelled (plainName a) (plainName b) ∨
        Respelled (plainName b) (plainName a)) ∧
    ∃ name, variableIn inside outline a = .localVar name ∧ name ∉ keywords ++ globalMethods := by
  have hgrows := Scopes.Grows.declare (scopes.push.declare a k) b l
  have hdepth := hgrows.depth.trans (Scopes.Grows.declare scopes.push a k).depth
  -- In the outermost scope a variable may be a global one or a constant, so this one is further in.
  have hinner : 1 < ((scopes.push.declare a k).declare b l).depth := by
    rw [hdepth, Scopes.depth, Scopes.push, List.length_cons]
    omega
  have ha := variableIn_of_declaredHere outline hinner
    (hgrows.declaredHere (Scopes.declaredHere_declare scopes.push a k))
  have hb := variableIn_of_declaredHere outline hinner
    (Scopes.declaredHere_declare (scopes.push.declare a k) b l)
  refine ⟨?_, localName a, ha, localName_not_taken a⟩
  rw [ha, hb, Expr.localVar, Expr.localVar]
  simpa using localName_eq_iff a b

/-- Names that differ in a dollar sign, a capital or a word of Ruby are one local variable. -/
theorem variables_merge :
    "$a" ≠ "_a" ∧ localName "$a" = localName "_a" ∧ localName "Total" = localName "_Total" ∧
      localName "end" = localName "end_" := by
  decide +kernel

end Scriptgen.Ruby
