import AztecConnect.Lib.Checks
import AztecConnect.Lib.Circuit
import Mathlib.Data.ZMod.Basic
import Mathlib.Tactic.Ring

/-!
# The types of the circuits

The gadgets of the circuit library, by what they constrain: field elements (`field_ct`) are elements
of the scalar field of BN254, a boolean is a `Bool`, a safe unsigned integer (`suint_ct`) the natural
number that its field element represents. The library refuses to build arithmetic on safe integers
that could reach the modulus, and `subtract` constrains the difference.

A circuit in which the prover chooses nothing but the assignment it is given is the check of this
assignment, an `Except`; the others are relations (`Circuit`).
-/

namespace AztecConnect.Circuit

/-- The order of the scalar field of BN254. -/
def fieldModulus : Nat :=
  21888242871839275222246405745257275088548364400416034343698204186575808495617

instance : NeZero fieldModulus := ⟨by decide⟩

/-- `fr`, the field of the circuits. -/
abbrev Fr : Type := ZMod fieldModulus

/-! The instances of numerals are constants, so that definitions share them. -/

scoped instance neZero_two : NeZero 2 := ⟨by decide⟩
scoped instance atLeastTwo_two : Nat.AtLeastTwo 2 := ⟨by decide⟩
scoped instance atLeastTwo_three : Nat.AtLeastTwo 3 := ⟨by decide⟩
scoped instance atLeastTwo_four : Nat.AtLeastTwo 4 := ⟨by decide⟩
scoped instance atLeastTwo_five : Nat.AtLeastTwo 5 := ⟨by decide⟩
scoped instance atLeastTwo_six : Nat.AtLeastTwo 6 := ⟨by decide⟩
scoped instance atLeastTwo_seven : Nat.AtLeastTwo 7 := ⟨by decide⟩
scoped instance atLeastTwo_eight : Nat.AtLeastTwo 8 := ⟨by decide⟩
scoped instance atLeastTwo_nine : Nat.AtLeastTwo 9 := ⟨by decide⟩
scoped instance atLeastTwo_ten : Nat.AtLeastTwo 10 := ⟨by decide⟩
scoped instance atLeastTwo_eleven : Nat.AtLeastTwo 11 := ⟨by decide⟩
scoped instance atLeastTwo_twelve : Nat.AtLeastTwo 12 := ⟨by decide⟩
scoped instance atLeastTwo_thirteen : Nat.AtLeastTwo 13 := ⟨by decide⟩
scoped instance atLeastTwo_fourteen : Nat.AtLeastTwo 14 := ⟨by decide⟩
scoped instance atLeastTwo_fifteen : Nat.AtLeastTwo 15 := ⟨by decide⟩
scoped instance atLeastTwo_sixteen : Nat.AtLeastTwo 16 := ⟨by decide⟩
scoped instance atLeastTwo_nineteen : Nat.AtLeastTwo 19 := ⟨by decide⟩
scoped instance atLeastTwo_twenty : Nat.AtLeastTwo 20 := ⟨by decide⟩
scoped instance atLeastTwo_twentyTwo : Nat.AtLeastTwo 22 := ⟨by decide⟩
scoped instance atLeastTwo_twentyFive : Nat.AtLeastTwo 25 := ⟨by decide⟩
scoped instance atLeastTwo_twentySix : Nat.AtLeastTwo 26 := ⟨by decide⟩
scoped instance atLeastTwo_thirtyFive : Nat.AtLeastTwo 35 := ⟨by decide⟩

/-- `grumpkin::MAX_NO_WRAP_INTEGER_BIT_LENGTH`. -/
def MAX_NO_WRAP_INTEGER_BIT_LENGTH : Nat := 252
def MAX_TXS_BIT_LENGTH : Nat := 10
def TX_FEE_BIT_LENGTH : Nat := MAX_NO_WRAP_INTEGER_BIT_LENGTH - MAX_TXS_BIT_LENGTH
def NOTE_VALUE_BIT_LENGTH : Nat := 252
def DEFI_DEPOSIT_VALUE_BIT_LENGTH : Nat := MAX_NO_WRAP_INTEGER_BIT_LENGTH - MAX_TXS_BIT_LENGTH
def DEFI_INTERACTION_NONCE_BIT_LENGTH : Nat := 30
def DATA_TREE_DEPTH : Nat := 32
def DEFI_TREE_DEPTH : Nat := 30

/-- The field has all numbers of 253 bits. -/
lemma two_pow_lt_fieldModulus : 2 ^ 253 < fieldModulus := by decide

/-- `create_range_constraint`. -/
def createRangeConstraint (x : Fr) (numBits : Nat) : Circuit Unit := .assert (x.val < 2 ^ numBits)

/-- A safe integer made of a field element. -/
def suint (x : Fr) (bitNum : Nat) : Circuit Nat := do
  createRangeConstraint x bitNum
  return x.val

/-- `suint_ct::subtract`. -/
def subtract (a b differenceBitSize : Nat) : Circuit Nat := do
  let difference : Fr := a - b
  createRangeConstraint difference differenceBitSize
  return difference.val

/-! ## In the check of an assignment -/

/-- A range constraint; the integer that the field element represents. -/
def rangeCheck (x : Fr) (numBits : Nat) (msg : String) : Except String Nat :=
  if x.val < 2 ^ numBits then .ok x.val else .error msg

/-- `uint32_ct` of a field element. -/
def uint32 (x : Fr) : Except String Nat := rangeCheck x 32 "uint32"

/-- `decompose_into_bits`, as a range check. -/
def decomposeIntoBits (x : Fr) (numBits : Nat) : Except String Nat :=
  rangeCheck x numBits "decompose_into_bits"

/-- `assert_equal(true, msg)`. -/
def assertTrue (b : Bool) (msg : String) : Except String Unit := Checks.require (b = true) msg

/-- `must_imply`. -/
def mustImply (p q : Bool) (msg : String) : Except String Unit := assertTrue (!p || q) msg

/-- A boolean as a field element. -/
def fieldOfBool (b : Bool) : Fr := if b then 1 else 0

section

variable {x : Fr} {a b n : Nat}

/-- A range check ensures the range. -/
@[simp] lemma ensures_rangeCheck {msg : String} {Q : Nat → Prop} :
    Checks.Ensures (rangeCheck x n msg) Q ↔ (x.val < 2 ^ n → Q x.val) := by
  unfold rangeCheck
  split
  case isTrue h => exact ⟨fun hQ _ => hQ _ rfl, fun hQ _ ha => Except.ok.inj ha ▸ hQ h⟩
  case isFalse h => exact ⟨fun _ h' => absurd h' h, nofun⟩

/-- An assertion ensures what it asserts. -/
@[simp] lemma ensures_assertTrue {p : Bool} {msg : String} {Q : Unit → Prop} :
    Checks.Ensures (assertTrue p msg) Q ↔ (p = true → Q ()) := Checks.ensures_require

/-- So does an implication. -/
@[simp] lemma ensures_mustImply {p q : Bool} {msg : String} {Q : Unit → Prop} :
    Checks.Ensures (mustImply p q msg) Q ↔ ((p = true → q = true) → Q ()) := by
  rw [mustImply, ensures_assertTrue]
  cases p with
  | true => simp
  | false => simp

/-- True is one. -/
@[simp] lemma fieldOfBool_true : fieldOfBool true = 1 := rfl

/-- False is zero. -/
@[simp] lemma fieldOfBool_false : fieldOfBool false = 0 := rfl

/-- A product with a boolean is the element or zero. -/
lemma mul_fieldOfBool (x : Fr) (b : Bool) : x * fieldOfBool b = if b then x else 0 := by
  cases b with
  | false => exact mul_zero x
  | true => exact mul_one x

/-- A boolean is the same number in the field. -/
lemma fieldOfBool_eq_natCast (p : Bool) : fieldOfBool p = (p.toNat : Fr) := by
  cases p with
  | true => exact Nat.cast_one.symm
  | false => exact Nat.cast_zero.symm

/-- A number below the modulus is itself in the field. -/
lemma val_natCast_of_lt (h : a < fieldModulus) : (a : Fr).val = a := ZMod.val_natCast_of_lt h

/-- An element is its number. -/
lemma natCast_val (x : Fr) : (x.val : Fr) = x := ZMod.natCast_zmod_val x

/-- Numbers below the modulus are told apart. -/
lemma natCast_inj (ha : a < fieldModulus) (hb : b < fieldModulus) (h : (a : Fr) = (b : Fr)) :
    a = b := by
  rw [← val_natCast_of_lt ha, h, val_natCast_of_lt hb]

/-- A range constraint ensures the range. -/
@[simp] lemma ensures_createRangeConstraint {Q : Unit → Prop} :
    (createRangeConstraint x n).Ensures Q ↔ (x.val < 2 ^ n → Q ()) := Circuit.ensures_assert

/-- So does a safe integer. -/
@[simp] lemma ensures_suint {Q : Nat → Prop} :
    (suint x n).Ensures Q ↔ (x.val < 2 ^ n → Q x.val) := by
  simp only [suint, Circuit.ensures_bind, ensures_createRangeConstraint, Circuit.ensures_pure]

/-- A difference below what the subtrahend leaves of the field is one of the integers. -/
lemma le_of_sub_lt (ha : a < fieldModulus) (hb : b + n ≤ fieldModulus)
    (h : ((a : Fr) - b).val < n) : b ≤ a ∧ ((a : Fr) - b).val = a - b := by
  rcases Nat.lt_or_ge a b with hlt | hge
  · -- otherwise it would be above the range
    exfalso
    have hneg : (a : Fr) - b = ((fieldModulus - (b - a) : Nat) : Fr) := by
      rw [Nat.cast_sub (by omega), Nat.cast_sub hlt.le, ZMod.natCast_self]
      ring
    rw [hneg, val_natCast_of_lt (by omega)] at h
    omega
  · refine ⟨hge, ?_⟩
    rw [← Nat.cast_sub hge]
    exact val_natCast_of_lt (by omega)

/-- A difference in range is one of the integers. -/
lemma le_of_sub_range (ha : a < 2 ^ 252) (hb : b ≤ 2 ^ 252) (h : ((a : Fr) - b).val < 2 ^ 252) :
    b ≤ a ∧ ((a : Fr) - b).val = a - b := by
  have hr := two_pow_lt_fieldModulus
  exact le_of_sub_lt (by omega) (by omega) h

/-- A subtraction ensures that it does not underflow. -/
lemma ensures_subtract {Q : Nat → Prop} (ha : a < 2 ^ 252) (hb : b < 2 ^ 252)
    (h : b ≤ a → Q (a - b)) : (subtract a b NOTE_VALUE_BIT_LENGTH).Ensures Q := by
  simp only [subtract, Circuit.ensures_bind, ensures_createRangeConstraint, Circuit.ensures_pure]
  intro hrange
  obtain ⟨hle, hval⟩ := le_of_sub_range ha hb.le hrange
  rw [hval]
  exact h hle

/-! ## An honest prover -/

/-- An element in range is a safe integer. -/
lemma suint_apply (h : x.val < 2 ^ n) : suint x n x.val := ⟨(), h, rfl⟩

/-- A difference that does not underflow can be taken. -/
lemma subtract_apply (hab : b ≤ a) (hn : a < 2 ^ n) (ha : a < 2 ^ 252) :
    subtract a b n (a - b) := by
  have hr := two_pow_lt_fieldModulus
  have hval : ((a : Fr) - b).val = a - b := by
    rw [← Nat.cast_sub hab]
    exact val_natCast_of_lt (by omega)
  refine ⟨(), ?_, hval.symm⟩
  show ((a : Fr) - b).val < 2 ^ n
  rw [hval]
  omega

end

end AztecConnect.Circuit
