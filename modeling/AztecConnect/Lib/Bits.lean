import Mathlib.Data.BitVec

/-!
# Packed fields of a machine word

A word of `w` bits holds several fields, each at a bit offset `off` with a length `len`. `field`
reads one of them by shift and mask, `setField` clears it and ors in a new value. The lemmas are the
usual ones of an array of disjoint cells: reading a field back after writing it
(`field_setField_self`), and reading another field (`field_setField_of_disjoint`).

Everything is derived from the two bit-level descriptions `getLsbD_field` and `getLsbD_setField`.
-/

namespace Bits

variable {w : Nat}

/-- The word whose low `len` bits are set. -/
def mask (w len : Nat) : BitVec w := BitVec.ofNat w (2 ^ len - 1)

/-- Read the `len` bits at offset `off`. -/
def field (off len : Nat) (x : BitVec w) : BitVec w := mask w len &&& (x >>> off)

/-- Overwrite the `len` bits at offset `off` by `v` (whose higher bits must be clear). -/
def setField (off len : Nat) (v x : BitVec w) : BitVec w :=
  (~~~(mask w len <<< off) &&& x) ||| (v <<< off)

/-- Bit `i` of a mask. -/
@[simp] lemma getLsbD_mask (len i : Nat) :
    (mask w len).getLsbD i = (decide (i < len) && decide (i < w)) := by
  simp only [mask, BitVec.getLsbD_ofNat, Nat.testBit_two_pow_sub_one]
  exact Bool.and_comm _ _

/-- Bit `i` of a field is bit `off + i` of the word. -/
lemma getLsbD_field (off len i : Nat) (x : BitVec w) :
    (field off len x).getLsbD i = (decide (i < len) && x.getLsbD (off + i)) := by
  by_cases hi : i < w
  · simp only [field, BitVec.getLsbD_and, getLsbD_mask, hi, BitVec.getLsbD_ushiftRight,
      decide_true, Bool.and_true]
  · have hx : x.getLsbD (off + i) = false := BitVec.getLsbD_of_ge _ _ (by omega)
    have hf : (field off len x).getLsbD i = false := BitVec.getLsbD_of_ge _ _ (by omega)
    simp [hx, hf]

/-- Bit `i` of a word after a field has been overwritten. -/
lemma getLsbD_setField (off len i : Nat) (v x : BitVec w) (hv : v.toNat < 2 ^ len) (hi : i < w) :
    (setField off len v x).getLsbD i =
      if off ≤ i ∧ i < off + len then v.getLsbD (i - off) else x.getLsbD i := by
  have hhigh (h : len ≤ i - off) : v.getLsbD (i - off) = false := by
    apply Nat.testBit_lt_two_pow
    exact lt_of_lt_of_le hv (Nat.pow_le_pow_right (by omega) h)
  simp only [setField, BitVec.getLsbD_or, BitVec.getLsbD_and, BitVec.getLsbD_not,
    BitVec.getLsbD_shiftLeft, getLsbD_mask, hi, decide_true, Bool.true_and]
  by_cases h₁ : i < off
  · have h₂ : ¬ off ≤ i := by omega
    simp [h₁, h₂]
  · by_cases h₂ : i < off + len
    · have h₃ : i - off < len := by omega
      have h₄ : i - off < w := by omega
      have h₅ : off ≤ i := by omega
      simp [h₁, h₂, h₃, h₄, h₅]
    · have h₃ : ¬ i - off < len := by omega
      simp [h₁, h₂, h₃, hhigh (by omega)]

/-- A field is bounded by its length. -/
lemma field_toNat_lt (off len : Nat) (x : BitVec w) : (field off len x).toNat < 2 ^ len := by
  have hm : (mask w len).toNat ≤ 2 ^ len - 1 := by
    simp only [mask, BitVec.toNat_ofNat]
    exact Nat.mod_le _ _
  have hf : (field off len x).toNat ≤ (mask w len).toNat := by
    simp only [field, BitVec.toNat_and]
    exact Nat.and_le_left
  have hpos : 0 < 2 ^ len := Nat.two_pow_pos len
  omega

/-- A field as a number. -/
lemma field_toNat (off len : Nat) (x : BitVec w) :
    (field off len x).toNat = x.toNat / 2 ^ off % 2 ^ len := by
  apply Nat.eq_of_testBit_eq
  intro i
  rw [BitVec.testBit_toNat, getLsbD_field, Nat.testBit_mod_two_pow, Nat.testBit_div_two_pow,
    BitVec.testBit_toNat, Nat.add_comm]

/-- Reading a field back after writing it. -/
lemma field_setField_self {off len : Nat} {v : BitVec w} (x : BitVec w)
    (hv : v.toNat < 2 ^ len) (hw : off + len ≤ w) :
    field off len (setField off len v x) = v := by
  apply BitVec.eq_of_getLsbD_eq
  intro i hi
  rw [getLsbD_field]
  by_cases hl : i < len
  · rw [getLsbD_setField _ _ _ _ _ hv (by omega)]
    simp [hl]
  · have hz : v.getLsbD i = false := by
      apply Nat.testBit_lt_two_pow
      exact lt_of_lt_of_le hv (Nat.pow_le_pow_right (by omega) (by omega))
    simp [hl, hz]

/-- Writing a field leaves every disjoint field alone. -/
lemma field_setField_of_disjoint {off len off' len' : Nat} {v : BitVec w} (x : BitVec w)
    (hv : v.toNat < 2 ^ len) (hd : off' + len' ≤ off ∨ off + len ≤ off') :
    field off' len' (setField off len v x) = field off' len' x := by
  apply BitVec.eq_of_getLsbD_eq
  intro i hi
  rw [getLsbD_field, getLsbD_field]
  by_cases hl : i < len'
  · by_cases hw : off' + i < w
    · rw [getLsbD_setField _ _ _ _ _ hv hw]
      have hout : ¬ (off ≤ off' + i ∧ off' + i < off + len) := by omega
      simp [hout]
    · rw [BitVec.getLsbD_of_ge _ _ (by omega), BitVec.getLsbD_of_ge _ _ (by omega)]
  · simp [hl]

/-- Reading a longer field of which only the low part was written. -/
lemma field_setField_prefix {off len len' : Nat} {v : BitVec w} (x : BitVec w)
    (hv : v.toNat < 2 ^ len) (hl : len ≤ len') (hw : off + len' ≤ w)
    (hx : (field off len' x).toNat < 2 ^ len) :
    field off len' (setField off len v x) = v := by
  apply BitVec.eq_of_getLsbD_eq
  intro i hi
  have hxi (h₁ : len ≤ i) (h₂ : i < len') : x.getLsbD (off + i) = false := by
    have h := getLsbD_field off len' i x
    rw [decide_eq_true h₂, Bool.true_and] at h
    rw [← h]
    apply Nat.testBit_lt_two_pow
    exact lt_of_lt_of_le hx (Nat.pow_le_pow_right (by omega) h₁)
  have hvi (h₁ : len ≤ i) : v.getLsbD i = false := by
    apply Nat.testBit_lt_two_pow
    exact lt_of_lt_of_le hv (Nat.pow_le_pow_right (by omega) h₁)
  rw [getLsbD_field]
  by_cases hi' : i < len'
  · rw [getLsbD_setField _ _ _ _ _ hv (by omega)]
    by_cases hlt : i < len
    · simp [hi', hlt]
    · simp [hi', hlt, hxi (by omega) hi', hvi (by omega)]
  · simp [hi', hvi (by omega)]

/-- A shorter field of a value that fits it. -/
lemma field_eq_of_lt {off len len' : Nat} {x : BitVec w} (hl : len ≤ len')
    (hx : (field off len' x).toNat < 2 ^ len) : field off len x = field off len' x := by
  apply BitVec.eq_of_getLsbD_eq
  intro i hi
  rw [getLsbD_field, getLsbD_field]
  by_cases h₁ : i < len
  · have h₂ : i < len' := by omega
    simp [h₁, h₂]
  · have hz : (field off len' x).getLsbD i = false := by
      apply Nat.testBit_lt_two_pow
      exact lt_of_lt_of_le hx (Nat.pow_le_pow_right (by omega) (by omega))
    rw [getLsbD_field] at hz
    simp [h₁, hz]

end Bits
