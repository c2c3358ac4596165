import Mathlib.Data.List.Nodup
import Scriptgen.Options.Read
/-!
# Forms of options

Options are written in JSON as a record or as a list. Reading the value of a key changes nothing else
(`set?_written`), so that a record is read alike in any order, under any spelling of its keys and with
defaults left out, and a list is read like a record. No key may be given twice.
-/

namespace Scriptgen.Options

open Json Json.Raw OptionKey List Option ValueForm OptionKey

variable {options start : Options} {seen : List OptionKey} {fields : List (String × Raw)}
  {key : OptionKey}

theorem ofSpelling?_eq_some_iff {name : String} :
    ofSpelling? name = some key ↔ name ∈ key.spellings := by
  constructor
  · intro h
    simpa using find?_some h
  · intro h
    cases key <;> simp only [spellings, mem_cons, not_mem_nil, or_false] at h <;>
      rcases h with rfl | rfl | rfl <;> decide

def SameAt (a b : Options) : OptionKey → Prop
  | .indent => a.indent = b.indent
  | .lineEnding => a.lineEnding = b.lineEnding
  | .braceStyle => a.braceStyle = b.braceStyle
  | .strictPragmas => a.strictPragmas = b.strictPragmas
  | .modernSyntax => a.modernSyntax = b.modernSyntax
  | .moduleName => a.moduleName = b.moduleName
  | .typeAnnotations => a.typeAnnotations = b.typeAnnotations
  | .strictInput => a.strictInput = b.strictInput
  | .validationTimeout => a.validationTimeout = b.validationTimeout

theorem eq_of_sameAt (h : ∀ key, SameAt start options key) : start = options := by
  obtain ⟨⟨_, _, _⟩, _, _, _, _, _, _⟩ := start
  obtain ⟨⟨_, _, _⟩, _, _, _, _, _, _⟩ := options
  simp only [Options.mk.injEq, Choices.mk.injEq]
  exact ⟨⟨h .modernSyntax, h .moduleName, h .typeAnnotations⟩, h .indent, h .lineEnding,
    h .braceStyle, h .strictPragmas, h .strictInput, h .validationTimeout⟩

/-- The value of a key as it is written in JSON. -/
def written (options : Options) : OptionKey → Raw
  | .indent => options.indent.elim .null (.string ∘ some)
  | .lineEnding => .string options.lineEnding
  | .braceStyle => .string options.braceStyle.name
  | .strictPragmas => .bool options.strictPragmas
  | .modernSyntax => .bool options.modernSyntax
  | .moduleName => options.moduleName.elim .null (.string ∘ some)
  | .typeAnnotations => .bool options.typeAnnotations
  | .strictInput => .bool options.strictInput
  | .validationTimeout => .number ⟨false, Nat.toDigits 10 options.validationTimeout, [], none⟩

theorem written_congr {whole : Options} (h : SameAt options whole key) :
    options.written key = whole.written key := by
  cases key <;> simp_all [SameAt, written]

/-- Digits are taken as long as the number that they spell has 64 bits. -/
theorem absorb_eq {digits : List Char} {first : Nat}
    (h : Nat.ofDigitChars 10 digits first ≤ Text.maxNat64) :
    absorb first digits = (Nat.ofDigitChars 10 digits first, []) := by
  induction digits generalizing first with
  | nil => rfl
  | cons c rest ih =>
    have hle : first * 10 + Text.digitValue c ≤ Text.maxNat64 := by
      rw [Nat.ofDigitChars_cons, Nat.ofDigitChars_eq_ofDigitChars_zero] at h
      have hgrows := Nat.le_mul_of_pos_left (10 * first + Text.digitValue c)
        (Nat.pow_pos (n := rest.length) (show 0 < 10 by decide))
      unfold Text.digitValue at *
      omega
    rw [absorb, if_pos hle, Nat.mul_comm]
    exact ih h

/-- Whether a record gives options to a reader that starts with others: no key twice, each with its
value, and all that differ. Names that spell no key may have any value. -/
structure Gives (fields : List (String × Raw)) (start options : Options) : Prop where
  once : fields.Pairwise fun a b => ∀ key : OptionKey, a.1 ∈ key.spellings → b.1 ∉ key.spellings
  value : ∀ field ∈ fields, ∀ key : OptionKey, field.1 ∈ key.spellings →
    field.2 = options.written key
  rest : ∀ key : OptionKey, (∀ field ∈ fields, field.1 ∉ key.spellings) → SameAt start options key

section

variable (hcount : options.validationTimeout ≤ Text.maxNat64)

include hcount

theorem set?_written (start : Options) (key : OptionKey) :
    ∃ after, Raw.optionForm.set? start key (options.written key) = some after ∧
      ∀ k, k = key ∨ SameAt start options k → SameAt after options k := by
  have htext (text : Option String) :
      Raw.optionForm.optionalText? (text.elim .null (.string ∘ some)) = some text := by
    cases text <;> rfl
  have hstyle : Raw.optionForm.braces? (.string options.braceStyle.name) =
      some options.braceStyle := by
    cases options.braceStyle <;> rfl
  have hdigits : absorb 0 (Nat.toDigits 10 options.validationTimeout) =
      (options.validationTimeout, []) := by
    rw [absorb_eq] <;> simp [hcount, Nat.ofDigitChars_ten_toDigits]
  have hnumber : Raw.optionForm.count? (options.written .validationTimeout) =
      some options.validationTimeout := by
    simp [Raw.optionForm, written, toJson?, Numeral.toNumber?, hdigits, Json.optionForm, asNat?]
  cases key <;> simp only [set?]
  case indent => exact ⟨_, congrArg _ (htext _), by rintro ⟨⟩ <;> simp [SameAt]⟩
  case moduleName => exact ⟨_, congrArg _ (htext _), by rintro ⟨⟩ <;> simp [SameAt]⟩
  case braceStyle => exact ⟨_, congrArg _ hstyle, by rintro ⟨⟩ <;> simp [SameAt]⟩
  case validationTimeout => exact ⟨_, congrArg _ hnumber, by rintro ⟨⟩ <;> simp [SameAt]⟩
  all_goals exact ⟨_, rfl, by rintro ⟨⟩ <;> simp [SameAt]⟩

theorem Gives.record? (h : Gives fields start options)
    (hseen : ∀ key ∈ seen, ∀ field ∈ fields, field.1 ∉ key.spellings) :
    Raw.optionForm.record? seen start fields = some options := by
  induction fields generalizing seen start with
  | nil => rw [record?, eq_of_sameAt fun key => h.rest key (by simp)]
  | cons field fields ih =>
    obtain ⟨honce, hvalue, hrest⟩ := h
    simp only [pairwise_cons, forall_mem_cons] at honce hvalue hseen hrest
    rw [record?]
    cases hkey : ofSpelling? field.1 with
    | none =>
      have hnone (key : OptionKey) : field.1 ∉ key.spellings := fun h => by
        simp [ofSpelling?_eq_some_iff.2 h] at hkey
      exact ih ⟨honce.2, hvalue.2, fun key h => hrest key ⟨hnone key, h⟩⟩ fun key h => (hseen key h).2
    | some key =>
      have hspelled := ofSpelling?_eq_some_iff.1 hkey
      have hnew : key ∉ seen := fun h => (hseen key h).1 hspelled
      obtain ⟨after, hset, hafter⟩ := set?_written hcount start key
      have hread : Raw.optionForm.record? (key :: seen) after fields = some options := by
        refine ih ⟨honce.2, hvalue.2, fun k h => hafter k ?_⟩ ?_
        · refine or_iff_not_imp_left.2 fun hk => hrest k ⟨fun hother => hk ?_, h⟩
          simpa [hkey, eq_comm] using ofSpelling?_eq_some_iff.2 hother
        · simp only [forall_mem_cons]
          exact ⟨fun other h => honce.1 other h key hspelled, fun k h => (hseen k h).2⟩
      simp [hnew, hvalue.1 key hspelled, hset, hread]

theorem list?_written {keys : List OptionKey} (hrest : ∀ key ∉ keys, SameAt start options key)
    (more : List OptionKey) :
    Raw.optionForm.list? start (keys ++ more) (keys.map options.written) = some options := by
  induction keys generalizing start with
  | nil => cases more <;> simp [list?, eq_of_sameAt fun key => hrest key (by simp)]
  | cons key keys ih =>
    obtain ⟨after, hset, hafter⟩ := set?_written hcount start key
    have hread := ih fun k h => hafter k (or_iff_not_imp_left.2 fun hk => hrest k (by simp [hk, h]))
    simpa [list?, hset] using hread

end

theorem nodup_of_record? {read : Options} (hseen : seen.Nodup)
    (h : Raw.optionForm.record? seen start fields = some read) :
    (seen.reverse ++ fields.filterMap (ofSpelling? ·.1)).Nodup := by
  induction fields generalizing seen start with
  | nil => simpa [nodup_reverse] using hseen
  | cons field fields ih =>
    rw [record?] at h
    split at h
    next hkey => simpa [hkey] using ih hseen h
    next key hkey =>
      split at h
      next => cases h
      next hnew =>
        obtain ⟨after, -, h⟩ := bind_eq_some_iff.1 h
        simpa [hkey] using ih (by simpa [hseen] using hnew) h

theorem mapM_eq_some_iff {pairs : List (Option String × Raw)} :
    (pairs.mapM fun (key, value) => key.map (·, value)) = some fields ↔
      pairs = fields.map fun field => (some field.1, field.2) := by
  induction pairs generalizing fields with
  | nil => cases fields <;> simp
  | cons pair pairs ih =>
    rcases pair with ⟨_ | name, value⟩
    · cases fields <;> simp [mapM_cons]
    · simp only [mapM_cons, map_some, bind_eq_bind, bind_some,
        Option.pure_def, Option.bind_eq_some_iff, ih]
      cases fields <;> grind

/-- The forms in which options may be written agree, and a record that gives a key twice is
refused. -/
theorem ofJsonText_written (hcount : options.validationTimeout ≤ Text.maxNat64) (text : String) :
    (∀ fields, Raw.parse? text = some (.object (fields.map fun field => (some field.1, field.2))) →
      Gives fields defaults options → ofJsonText text = .ok options) ∧
    (∀ (whole : Options) n, (∀ key ∈ all.take n, SameAt options whole key) →
      (∀ key ∈ all.drop n, SameAt defaults options key) →
      Raw.parse? text = some (.array ((all.take n).map whole.written)) →
        ofJsonText text = .ok options) ∧
    ∀ pairs, Raw.parse? text = some (.object pairs) →
      (∃ key : OptionKey, ∃ a ∈ key.spellings, ∃ b ∈ key.spellings,
        [a, b].Sublist (pairs.filterMap Prod.fst)) → ofJsonText text = .error .json := by
  refine ⟨fun fields hparse hgives => ?_, fun whole n hfirst hrest hparse => ?_,
    fun pairs hparse ⟨key, a, ha, b, hb, hnames⟩ => ?_⟩
  · have hread : Raw.toOptions? (.object _) = some options := bind_eq_some_iff.2
      ⟨fields, mapM_eq_some_iff.2 rfl, hgives.record? hcount (by simp)⟩
    simp only [ofJsonText, hparse, bind_eq_bind, bind_some, hread]
  · have hkey (key : OptionKey) : key ∈ OptionKey.all := by cases key <;> decide
    have hsame : ∀ key ∉ all.take n, SameAt defaults options key :=
      fun key h => hrest key (by grind [take_append_drop])
    have hread := list?_written hcount hsame (all.drop n)
    rw [take_append_drop, map_congr_left fun key h => written_congr (hfirst key h)] at hread
    simp only [ofJsonText, hparse, bind_eq_bind, bind_some, Raw.toOptions?, hread]
  · have hnone : Raw.toOptions? (.object pairs) = none := by
      refine bind_eq_none_iff.2 fun named hnamed => eq_none_iff_forall_ne_some.2
        fun read hread => ?_
      obtain rfl := mapM_eq_some_iff.1 hnamed
      have hkeys := hnames.filterMap ofSpelling?
      rw [filterMap_map, filterMap_filterMap] at hkeys
      simpa [ofSpelling?_eq_some_iff.2 ha, ofSpelling?_eq_some_iff.2 hb] using
        (nodup_of_record? .nil hread).sublist hkeys
    simp only [ofJsonText, hparse, bind_eq_bind, bind_some, hnone]

theorem ofJsonText_written_aliases :
    ofJsonText "\x7b\"useStrict\": false, \"x\": [1], \"indentString\": \"\\t\"\x7d" =
      .ok { defaults with strictPragmas := false, indent := some "\t" } := by
  refine (ofJsonText_written (by decide) _).1
    [("useStrict", .bool false), ("x", .array [.number ⟨false, ['1'], [], none⟩]),
      ("indentString", .string "\t")] (by simp [Raw.parse?]; rfl) ⟨?_, ?_, ?_⟩
  · simp only [pairwise_cons, forall_mem_cons, ← ofSpelling?_eq_some_iff]
    decide
  · simp only [forall_mem_cons]
    refine ⟨?_, ?_, ?_, by simp⟩ <;> rintro ⟨⟩ <;> simp [spellings, written]
  · rintro ⟨⟩ <;> simp [spellings, SameAt, defaults]

end Scriptgen.Options
