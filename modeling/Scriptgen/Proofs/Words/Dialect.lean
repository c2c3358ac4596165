import Scriptgen.Proofs.Words.Bytes
import Scriptgen.Proofs.Words.Computation
/-!
# Code on words in any target

A `Dialect` is how a target writes literals and operators, and bytes and rotations are built here in
any dialect. What the code gives follows from what literals and operators give (`Dialect.Gives`),
and so do the steps in which a rotation that is run binds its operands (`Dialect.Runs`).
-/

namespace Scriptgen.Words

open List Text

/-- The operators that bytes and rotations are built with. -/
inductive Op
  | and
  | or
  | shl
  | shr
  | sub
  | mod

/-- What an operator gives. The right operand of a remainder has to be positive. -/
def Arithmetic.value? (A : Arithmetic) : Op → Int → Int → Option Int
  | .and, a, b => some (A.and a b)
  | .or, a, b => some (A.or a b)
  | .shl, a, b => some (A.shl a b)
  | .shr, a, b => some (A.shr a b)
  | .sub, a, b => some (a - b)
  | .mod, a, b => if 0 < b then some (a % b) else none

/-- **How a target writes literals and operators.** -/
structure Dialect (E : Type) where
  number : String → E
  binary : Op → E → E → E

namespace Dialect

variable {E κ W : Type} (d : Dialect E)

def int (n : Int) : E := d.number (decimalInt n)

def hex (n : Nat) : E := d.number ("0x" ++ hexUpper n)

def maskedBy (mask : Nat) (value : E) : E := d.binary .and value (d.hex mask)

def byteAt (word : E) (shift : Nat) : E :=
  d.maskedBy 0xFF (if shift == 0 then word else d.binary .shr word (d.int shift))

def wordBytes (word : E) (bits : Nat) (bigEndian : Bool) : List E :=
  let shifts := (range (bits / 8)).map (· * 8)
  (if bigEndian then shifts.reverse else shifts).map (d.byteAt word)

def byteInPlace (byte : E) (position : Nat) : E :=
  let masked := d.maskedBy 0xFF byte
  if position == 0 then masked else d.binary .shl masked (d.int (position * 8))

def joined : List E → E
  | [] => d.int 0
  | first :: rest => rest.foldl (d.binary .or) first

def packBytes (bytes : List E) (bigEndian : Bool) : E :=
  let positions := range bytes.length
  d.joined ((bytes.zip (if bigEndian then positions.reverse else positions)).map fun (byte, position) =>
    d.byteInPlace byte position)

/-- The two shifts of a rotation, joined and masked. -/
def joinedShifts (rotation : Rotation) (value amount : E) : E :=
  let back := d.binary .sub (d.int rotation.bits) amount
  d.maskedBy rotation.mask
    (if rotation.left then d.binary .or (d.binary .shl value amount) (d.binary .shr value back)
      else d.binary .or (d.binary .shr value amount) (d.binary .shl value back))

/-! ## What code gives -/

/-- **What is known of the numbers that expressions give.** -/
structure Gives (A : Arithmetic) (gives : E → Int → Prop) : Prop where
  number : ∀ {text : String} {n : Nat}, integerLiteral? text.toList = some n →
    gives (d.number text) n
  binary : ∀ {op : Op} {left right : E} {a b c : Int}, A.value? op a b = some c → gives left a →
    gives right b → gives (d.binary op left right) c

namespace Gives

variable {d} {A : Arithmetic} {gives : E → Int → Prop} (h : d.Gives A gives)
include h

theorem int (n : Nat) : gives (d.int n) n := h.number (denotes_decimalInt n).read

theorem hex (n : Nat) : gives (d.hex n) n := h.number (denotes_hex n).read

section Bytes

variable {n p : Nat} (hpacks : Packs A n)
include hpacks

theorem maskedByte {e : E} {b : Int} (he : gives e b) : gives (d.maskedBy 0xFF e) (lowBits 8 b) :=
  h.binary (congrArg some (hpacks.low b)) he (h.hex 0xFF)

theorem byteInPlace (hp : p < n) {e : E} {b : Int} (he : gives e b) :
    gives (d.byteInPlace e p) ((lowBits 8 b <<< (8 * p) : Nat) : Int) := by
  have hmasked := h.maskedByte hpacks he
  unfold Dialect.byteInPlace
  dsimp only
  split
  · rename_i hzero
    obtain rfl : p = 0 := by simpa using hzero
    exact hmasked
  · have hshift := h.int (8 * p)
    rw [show ((8 * p : Nat) : Int) = (p : Int) * 8 by push_cast; ring] at hshift
    refine h.binary (congrArg some ?_) hmasked hshift
    rw [← hpacks.place _ _ (lowBits_lt 8 b) hp, Nat.cast_mul, mul_comm]
    rfl

theorem joined {parts : List E} {values : List Nat}
    (hparts : List.Forall₂ (fun e v => gives e ((v : Nat) : Int)) parts values)
    (hvalues : ∀ v ∈ values, v < 2 ^ (8 * n)) :
    gives (d.joined parts) ((values.foldl (· ||| ·) 0 : Nat) : Int) := by
  have hfold {parts : List E} {values : List Nat}
      (hparts : List.Forall₂ (fun e v => gives e ((v : Nat) : Int)) parts values)
      (hvalues : ∀ v ∈ values, v < 2 ^ (8 * n)) {first : E} {x : Nat} (hfirst : gives first x)
      (hx : x < 2 ^ (8 * n)) :
      gives (parts.foldl (d.binary .or) first) ((values.foldl (· ||| ·) x : Nat) : Int) := by
    induction hparts generalizing first x with
    | nil => exact hfirst
    | @cons part v parts values hpart _ ih =>
      have hv := hvalues v mem_cons_self
      exact ih (fun v hv => hvalues v (mem_cons_of_mem _ hv))
        (h.binary (congrArg some (hpacks.or _ _ hx hv)) hfirst hpart) (Nat.or_lt_two_pow hx hv)
  cases hparts with
  | nil => exact h.int 0
  | @cons first x parts values hfirst hparts =>
    rw [foldl_cons, Nat.zero_or]
    exact hfold hparts (fun v hv => hvalues v (mem_cons_of_mem _ hv)) hfirst
      (hvalues x mem_cons_self)

theorem bytesInPlace {bytes : List E} {values : List Int} (hbytes : List.Forall₂ gives bytes values)
    {places : List Nat} (hplaces : ∀ p ∈ places, p < n) :
    List.Forall₂ (fun e v => gives e ((v : Nat) : Int))
      ((bytes.zip places).map fun entry => d.byteInPlace entry.1 entry.2) (byteParts values places) := by
  induction hbytes generalizing places with
  | nil => exact .nil
  | @cons e v bytes values he _ ih =>
    cases places with
    | nil => exact .nil
    | cons p places =>
      exact .cons (h.byteInPlace hpacks (hplaces p mem_cons_self) he)
        (ih fun p hp => hplaces p (mem_cons_of_mem _ hp))

theorem packBytes {bytes : List E} {values : List Int} (hlength : bytes.length = n)
    (hbytes : List.Forall₂ gives bytes values) (bigEndian : Bool) :
    gives (d.packBytes bytes bigEndian) (packedWord bigEndian n values) := by
  have hplaces : ∀ p ∈ places bigEndian n, p < n := fun p hp => mem_places.1 hp
  rw [packedWord, ← foldl_byteParts]
  unfold Dialect.packBytes
  rw [hlength]
  exact h.joined hpacks (h.bytesInPlace hpacks hbytes hplaces) (byteParts_lt hplaces values)

theorem byteAt (hp : p < n) {e : E} {w : Int} (he : gives e w) :
    gives (d.byteAt e (p * 8)) ((byteOf (lowBits (8 * n) w) p : Nat) : Int) := by
  unfold Dialect.byteAt
  split
  · rename_i hzero
    obtain rfl : p = 0 := by simpa using hzero
    rw [byteOf_lowBits_zero hp]
    exact h.maskedByte hpacks he
  · rw [Nat.mul_comm p 8]
    exact h.binary (congrArg some (hpacks.byte w p hp)) (h.binary rfl he (h.int (8 * p))) (h.hex 0xFF)

theorem wordBytes {e : E} {w : Int} (he : gives e w) (bigEndian : Bool) :
    List.Forall₂ gives (d.wordBytes e (8 * n) bigEndian) (unpackedBytes bigEndian n w) := by
  have hwordBytes : d.wordBytes e (8 * n) bigEndian =
      (places bigEndian n).map fun p => d.byteAt e (p * 8) := by
    have hn : 8 * n / 8 = n := by omega
    unfold Dialect.wordBytes places
    rw [hn]
    cases bigEndian <;> simp [← map_reverse]
  rw [hwordBytes, unpackedBytes, forall₂_map_left_iff, forall₂_map_right_iff,
    forall₂_same]
  exact fun p hp => h.byteAt hpacks (mem_places.1 hp) he

end Bytes

/-- **The two shifts of a rotation** by an amount below the width. -/
theorem joinedShifts {rotation : Rotation} (hrotates : Rotates A rotation.bits) {value amount : E}
    {v : Int} {k : Nat} (hk : k < rotation.bits) (hvalue : gives value (lowBits rotation.bits v))
    (hamount : gives amount k) : gives (d.joinedShifts rotation value amount) (rotation.apply v k) := by
  have hback : gives (d.binary .sub (d.int rotation.bits) amount) (rotation.bits - k : Nat) :=
    h.binary (congrArg some (Int.ofNat_sub (Nat.le_of_lt hk)).symm) (h.int _) hamount
  unfold Dialect.joinedShifts
  dsimp only
  cases hleft : rotation.left with
  | true =>
    exact h.binary (congrArg some (Rotation.apply_left hrotates hleft v hk))
      (h.binary rfl (h.binary rfl hvalue hamount) (h.binary rfl hvalue hback)) (h.hex _)
  | false =>
    exact h.binary (congrArg some (Rotation.apply_right hrotates hleft v hk))
      (h.binary rfl (h.binary rfl hvalue hamount) (h.binary rfl hvalue hback)) (h.hex _)

end Gives

/-! ## What code does -/

/-- **What is known of the steps that expressions take.** -/
structure Runs (A : Arithmetic) (compute : E → Computation κ W Int) : Prop where
  number : ∀ text m,
    compute (d.number text) m = (integerLiteral? text.toList).map fun n => ((n : Int), m)
  binary : ∀ op left right,
    compute (d.binary op left right) = operate (A.value? op) (compute left) (compute right)

namespace Runs

variable {d} {A : Arithmetic} {compute : E → Computation κ W Int} (h : d.Runs A compute)
variable {m m' : Memory κ W} {rotation : Rotation} {value amount x y : E} {v n : Int}
include h

theorem gives (m : Memory κ W) : d.Gives A fun e v => compute e m = some (v, m) where
  number hread := by rw [h.number, hread]; rfl
  binary hop hl hr := by rw [h.binary, operate_of hl hr, hop]; rfl

theorem joinedShifts_none (hvalue : compute value m = some (v, m)) (hamount : compute amount m = none) :
    compute (d.joinedShifts rotation value amount) m = none := by
  have hshift (op : Op) (rest : E) :
      compute (d.binary .or (d.binary op value amount) rest) m = none := by
    rw [h.binary]
    refine operate_left_none ?_
    rw [h.binary, operate_right_none hvalue hamount]
  unfold Dialect.joinedShifts maskedBy
  rw [h.binary]
  refine operate_left_none ?_
  split
  · exact hshift _ _
  · exact hshift _ _

variable (hrotates : Rotates A rotation.bits)
include hrotates

theorem masked (value : E) :
    compute (d.maskedBy rotation.mask value) = (do
      let v ← compute value
      return (lowBits rotation.bits v : Int)) := by
  funext m
  change _ = (compute value m).bind fun result => some ((lowBits rotation.bits result.1 : Int), result.2)
  rw [maskedBy, h.binary]
  cases hvalue : compute value m with
  | none => exact operate_left_none hvalue
  | some result =>
    rw [operate_of hvalue ((h.gives _).hex _), rotation.mask_eq]
    exact congrArg (fun low => some (low, result.2)) (hrotates.mask result.1)

theorem joinedShifts_literal {text : String} (htext : rotation.inRange text = true)
    (hx : compute x m = some ((lowBits rotation.bits v : Int), m)) :
    compute (d.joinedShifts rotation x (d.number text)) m =
      (integerLiteral? text.toList).map fun n : Nat => (rotation.apply v n, m) := by
  cases hread : integerLiteral? text.toList with
  | none => exact h.joinedShifts_none hx (by rw [h.number, hread]; rfl)
  | some n =>
    obtain ⟨k, hk, hlt⟩ : ∃ k, natOfDigits? maxNat32 text = some k ∧ k < rotation.bits := by
      simpa [Rotation.inRange, Option.any_eq_true] using htext
    have hn : n < rotation.bits := Nat.lt_of_le_of_lt (integerLiteral?_le hread hk) hlt
    exact (h.gives m).joinedShifts hrotates hn hx ((h.gives m).number hread)

variable [DecidableEq κ] {name shift : κ}

omit hrotates in
theorem reduced_none (hamount : Ignores name (compute amount)) (hrun : compute amount m = none) :
    compute (d.binary .mod amount (d.int rotation.bits)) (m.set name v) = none := by
  rw [h.binary]
  refine operate_left_none ?_
  rw [hamount m, hrun]
  rfl

/-- Any other amount is evaluated once and reduced, where the value is bound, and bound too. -/
theorem joinedShifts_amount (hbits : 1 ≤ rotation.bits) (hne : name ≠ shift)
    (hamount : Ignores name (compute amount)) (hrun : compute amount m = some (n, m'))
    (hx : ∀ m, compute x m = some (m.vars name, m)) (hy : ∀ m, compute y m = some (m.vars shift, m)) :
    compute (d.binary .mod amount (d.int rotation.bits)) (m.set name (lowBits rotation.bits v)) =
        some (n % rotation.bits, m'.set name (lowBits rotation.bits v)) ∧
      compute (d.joinedShifts rotation x y)
          ((m'.set name (lowBits rotation.bits v)).set shift (n % rotation.bits)) =
        some (rotation.apply v n,
          (m'.set name (lowBits rotation.bits v)).set shift (n % rotation.bits)) := by
  have hpos : (0 : Int) < rotation.bits := by exact_mod_cast hbits
  constructor
  · have hset := hamount m (lowBits rotation.bits v)
    rw [hrun] at hset
    rw [h.binary, operate_of hset ((h.gives _).int _), Arithmetic.value?, if_pos hpos]
    rfl
  · obtain ⟨k, hk⟩ := Int.eq_ofNat_of_zero_le (Int.emod_nonneg n (Int.ne_of_gt hpos))
    have hlt : k < rotation.bits := by exact_mod_cast hk ▸ Int.emod_lt_of_pos n hpos
    rw [← rotation.apply_emod v n, hk]
    refine (h.gives _).joinedShifts hrotates hlt ?_ ?_
    · rw [hx, Memory.vars_set_of_ne _ _ hne, Memory.vars_set_self]
    · rw [hy, Memory.vars_set_self]

end Runs

end Dialect

end Scriptgen.Words
