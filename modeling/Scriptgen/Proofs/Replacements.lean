import Scriptgen.Proofs.Perl.TwinCode
/-!
# Replacement texts

A dollar sign in a replacement text stands for itself, for the match or for a group. The program takes
two digits only if there is such a group, and leaves a reference to no group as it is (`substitute`).
In Perl all of the digits name a variable (`scalar?`). In Ruby one digit is a reference, and zero
refers to the match (`expand`). Main result: `replacements_substitute`.
-/

namespace Scriptgen

open Text

/-- What a search has found: the text of the match and those of its groups. -/
structure TextMatch where
  whole : List Char
  groups : List (List Char)

namespace TextMatch

variable (found : TextMatch)

/-- The text of the group that digits name, counted from one. -/
def group? (digits : List Char) : Option (List Char) :=
  if digits.all Char.isDigit && decimalValue digits != 0 then
    found.groups[decimalValue digits - 1]?
  else none

/-- **What the program puts in the place of a match.** References to the text around it are left
out. -/
def substitute : List Char → List Char
  | '$' :: '$' :: rest => '$' :: substitute rest
  | '$' :: '&' :: rest => found.whole ++ substitute rest
  | ['$', d] => (found.group? [d]).getD ['$', d]
  | '$' :: d :: e :: rest =>
    match found.group? [d, e], found.group? [d] with
    | some text, _ => text ++ substitute rest
    | none, some text => text ++ substitute (e :: rest)
    | none, none => '$' :: substitute (d :: e :: rest)
  | c :: rest => c :: substitute rest
  | [] => []

/-- The text of a variable of Perl. A group that there is not has none, and `$0` is no group. -/
def scalar? (name : String) : Option (List Char) :=
  if name.toList = ['&'] then some found.whole
  else if name.toList.all Char.isDigit && name.toList.head? != some '0' then
    some ((found.group? name.toList).getD [])
  else none

/-- What Ruby puts in the place of a match. -/
def expand : List Char → List Char
  | '\\' :: c :: rest =>
    if c = '\\' then '\\' :: expand rest
    else if c = '&' ∨ c = '0' then found.whole ++ expand rest
    else if c.isDigit then (found.group? [c]).getD [] ++ expand rest
    else '\\' :: c :: expand rest
  | c :: rest => c :: expand rest
  | [] => []

end TextMatch

/-- The text that Perl computes by joining texts and variables. -/
def Perl.Expr.text? (value : String → Option (List Char)) : Perl.Expr → Option (List Char)
  | .string text => some text.toList
  | .var name .scalar => value name
  | .binary .concat left right _ _ => do return (← left.text? value) ++ (← right.text? value)
  | _ => none

/-- Each reference of a text starts with the number of one of `n` groups, and there are none to the
text around the match. With `alone`, no other digit follows that number. -/
def refersTo (n : Nat) (alone : Bool) : List Char → Bool
  | '$' :: '$' :: rest => refersTo n alone rest
  | '$' :: d :: rest =>
    if d.isDigit then
      d != '0' && digitValue d ≤ n && !(alone && rest.head?.any Char.isDigit) && refersTo n alone rest
    else d != '\x60' && d != '\'' && refersTo n alone (d :: rest)
  | _ :: rest => refersTo n alone rest
  | [] => true

namespace TextMatch

variable {found : TextMatch} {d : Char} {rest : List Char} {alone : Bool}

theorem substitute_reference (hgroups : found.groups.length ≤ 9) (hdigit : d.isDigit)
    (h : refersTo found.groups.length alone ('$' :: d :: rest)) :
    ∃ text, found.group? [d] = some text ∧ d ≠ '0' ∧
      found.substitute ('$' :: d :: rest) = text ++ found.substitute rest ∧
      (alone && rest.head?.any Char.isDigit) = false ∧ refersTo found.groups.length alone rest := by
  have hdollar : d ≠ '$' := by rintro rfl; cases hdigit
  have hmatch : d ≠ '&' := by rintro rfl; cases hdigit
  simp only [refersTo, hdigit, if_true, Bool.and_eq_true, bne_iff_ne, decide_eq_true_eq,
    Bool.not_eq_true'] at h
  obtain ⟨⟨⟨hzero, hle⟩, hnext⟩, hrest⟩ := h
  have hpos : digitValue d ≠ 0 := by
    simp only [Char.isDigit, Bool.and_eq_true, decide_eq_true_eq] at hdigit
    have hlow : 48 ≤ d.val.toNat := UInt32.le_iff_toNat_le.mp hdigit.1
    have hne : d.val.toNat ≠ 48 := fun h => hzero (Char.ext (UInt32.toNat_inj.1 h))
    change d.val.toNat - 48 ≠ 0
    omega
  obtain ⟨text, htext⟩ : ∃ text, found.groups[digitValue d - 1]? = some text :=
    ⟨_, List.getElem?_eq_getElem (by omega)⟩
  have hone : found.group? [d] = some text := by
    simp [group?, hdigit, decimalValue, hpos, htext]
  have htwo (e : Char) : found.group? [d, e] = none := by
    simp [group?, decimalValue]
    omega
  refine ⟨text, hone, hzero, ?_, hnext, hrest⟩
  cases rest <;> simp [substitute, hone, htwo]

theorem substitute_other (hdigit : ¬ d.isDigit) (hdollar : d ≠ '$') (hmatch : d ≠ '&')
    (h : refersTo found.groups.length alone ('$' :: d :: rest)) :
    found.substitute ('$' :: d :: rest) = '$' :: found.substitute (d :: rest) ∧
      refersTo found.groups.length alone (d :: rest) := by
  have hnone (more : List Char) : found.group? (d :: more) = none := by simp [group?, hdigit]
  simp only [refersTo, if_neg hdigit, Bool.and_eq_true] at h
  exact ⟨by cases rest <;> simp [substitute, hnone, hdollar], h.2⟩

/-- A character apart from a dollar sign stands for itself, and so does one at the end. -/
theorem substitute_char {c : Char} (hc : ∀ d more, c = '$' → rest = d :: more → False)
    (h : refersTo found.groups.length alone (c :: rest)) :
    found.substitute (c :: rest) = c :: found.substitute rest ∧
      refersTo found.groups.length alone rest := by
  by_cases hdollar : c = '$'
  · cases rest with
    | nil => exact ⟨by rw [hdollar]; rfl, rfl⟩
    | cons d more => exact (hc d more hdollar rfl).elim
  · simpa [substitute, refersTo, hdollar] using h

end TextMatch

open TextMatch

namespace Perl

variable {value : String → Option (List Char)}

/-- The text that expressions have one after another. -/
def joined? (value : String → Option (List Char)) : List Expr → Option (List Char)
  | [] => some []
  | e :: rest => do return (← e.text? value) ++ (← joined? value rest)

theorem joined?_filter (parts : List Expr) :
    joined? value (parts.filter (!·.isEmptyText)) = joined? value parts := by
  induction parts with
  | nil => rfl
  | cons e parts ih =>
    by_cases h : e.isEmptyText
    · unfold Expr.isEmptyText at h
      split at h
      · simp_all [joined?, Expr.text?, Expr.isEmptyText]
      · cases h
    · simp [h, joined?, ih]

theorem text?_chain (parts : List Expr) :
    (chain .concat (.string "") parts).text? value = joined? value parts := by
  have hfold (e : Expr) (rest : List Expr) : (rest.foldl (binary .concat) e).text? value =
      joined? value (e :: rest) := by
    induction rest generalizing e with
    | nil => simp [joined?]
    | cons f rest ih =>
      rw [List.foldl_cons, ih]
      simp [joined?, binary, Expr.text?, Option.bind_assoc]
  cases parts with
  | nil => rfl
  | cons e rest => exact hfold e rest

theorem joined?_replacementParts {found : TextMatch} (hgroups : found.groups.length ≤ 9)
    {literal text : List Char} (h : refersTo found.groups.length true text) :
    joined? found.scalar? (replacementParts literal text) =
      some (literal.reverse ++ found.substitute text) := by
  fun_induction replacementParts literal text with
  | case1 literal rest ih => simpa [substitute] using ih h
  | case2 literal rest ih =>
    simp [joined?, ih (by simpa [refersTo] using h), Expr.text?, Expr.scalar, scalar?,
      substitute]
  | case3 literal d rest hdollar hmatch hd ih =>
    obtain ⟨text, hgroup, hzero, hreads, hnext, hrest⟩ := substitute_reference hgroups hd h
    have hnone : rest.takeWhile Char.isDigit = [] ∧ rest.dropWhile Char.isDigit = rest := by
      cases rest <;> simp_all
    rw [hnone.2] at ih
    have hvar : found.scalar? (String.singleton d) = some text := by
      simp [scalar?, show d ≠ '&' from hmatch, hd, hzero, hgroup]
    simp [joined?, Expr.text?, Expr.scalar, hnone, hvar, ih hrest, hreads]
  | case4 literal d rest hdollar hmatch hd ih =>
    obtain ⟨hother, hrest⟩ := substitute_other hd hdollar hmatch h
    simp [ih hrest, hother]
  | case5 literal c rest hdollar hmatch hother ih =>
    obtain ⟨hchar, hrest⟩ := substitute_char hother h
    simp [ih hrest, hchar]
  | case6 => simp [joined?, Expr.text?, substitute]

end Perl

theorem Ruby.expand_replacementChars {found : TextMatch} (hgroups : found.groups.length ≤ 9)
    {text : List Char} (h : refersTo found.groups.length false text) :
    found.expand (replacementChars text) = found.substitute text := by
  fun_induction replacementChars text with
  | case1 rest ih =>
    obtain ⟨hchar, hrest⟩ := substitute_char (by simp) h
    simp [expand, hchar, ih hrest]
  | case2 rest ih => simpa [substitute, expand] using ih h
  | case3 rest ih =>
    simpa [substitute, expand] using ih (by simpa [refersTo] using h)
  | case4 d rest hdollar hmatch hd ih =>
    obtain ⟨text, hgroup, hzero, hreads, -, hrest⟩ := substitute_reference hgroups hd h
    have hdollar : d ≠ '$' := hdollar
    have hback : d ≠ '\\' := by
      rintro rfl
      cases hd
    have hchars : replacementChars (d :: rest) = d :: replacementChars rest := by
      simp [replacementChars, hdollar]
    have hlater : found.expand (replacementChars rest) = found.substitute rest := by
      simpa [hchars, expand, substitute, hback, hdollar] using
        ih (by simpa [refersTo, hdollar] using hrest)
    simp [hchars, expand, hback, show d ≠ '&' from hmatch, hzero, hd, hgroup, hreads, hlater]
  | case5 d rest hdollar hmatch hd ih =>
    obtain ⟨hother, hrest⟩ := substitute_other hd hdollar hmatch h
    simp [expand, ih hrest, hother]
  | case6 c rest hback hdollar hmatch hother ih =>
    obtain ⟨hchar, hrest⟩ := substitute_char hother h
    simp [expand, hchar, ih hrest, show c ≠ '\\' from hback]
  | case7 => rfl

/-- **Replacement texts put in what the program puts in**, with up to nine groups: in Perl if each
reference is one digit, the number of a group, and in Ruby if it starts with such a digit. -/
theorem replacements_substitute (text : String) (found : TextMatch)
    (hgroups : found.groups.length ≤ 9) :
    (refersTo found.groups.length true text.toList →
      (Perl.replacementExpr text).text? found.scalar? = some (found.substitute text.toList)) ∧
    (refersTo found.groups.length false text.toList →
      found.expand (Ruby.replacementText text).toList = found.substitute text.toList) := by
  refine ⟨fun h => ?_, fun h => ?_⟩
  · rw [Perl.replacementExpr, Perl.text?_chain, Perl.joined?_filter,
      Perl.joined?_replacementParts hgroups h]
    rfl
  · rw [Ruby.replacementText, String.toList_ofList, Ruby.expand_replacementChars hgroups h]

/-- The match `ab`, with a group of its first letter. -/
def letterMatch : TextMatch := ⟨['a', 'b'], [['a']]⟩

theorem replacements_substitute_group :
    (Perl.replacementExpr "<$1>").text? letterMatch.scalar? = some ['<', 'a', '>'] ∧
      letterMatch.expand (Ruby.replacementText "<$1>").toList = ['<', 'a', '>'] := by
  obtain ⟨hperl, hruby⟩ := replacements_substitute "<$1>" letterMatch (by decide)
  exact ⟨hperl (by decide), hruby (by decide)⟩

/-- Perl has no tenth group, and Ruby takes zero for the match. -/
theorem reference_digits_differ :
    (Perl.replacementExpr "$10").text? letterMatch.scalar? = some [] ∧
      letterMatch.substitute "$10".toList = ['a', '0'] ∧
      letterMatch.expand (Ruby.replacementText "$0").toList = ['a', 'b'] ∧
      letterMatch.substitute "$0".toList = ['$', '0'] := by
  refine ⟨?_, by decide, by decide, by decide⟩
  rw [Perl.replacementExpr, Perl.text?_chain, Perl.joined?_filter]
  simp [Perl.replacementParts, Perl.joined?, Perl.Expr.text?, Perl.Expr.scalar,
    scalar?, group?, letterMatch]
  decide

end Scriptgen
