import AztecConnect.Circuit.Field
import Mathlib.Tactic.LinearCombination
import Mathlib.Tactic.Zify

/-!
# The ratio check of the claim circuit

Translation of `rollup/proofs/claim/ratio_check.hpp`. Products of 252-bit values are compared over
the integers: the factors are split into limbs of 68 bits, the products into limbs of 136 bits, none
of which wraps around in the field (`columns_lt`). With a residual below the divisor this is a
division with remainder (`ratioCheck_spec`), which an honest prover can always show
(`ratioCheck_complete`).
-/

namespace AztecConnect.Circuit

/-- Four limbs, the lowest first. -/
structure Limbs where
  l0 : Fr
  l1 : Fr
  l2 : Fr
  l3 : Fr
  deriving DecidableEq

instance : Zero Limbs := ⟨⟨0, 0, 0, 0⟩⟩

def NUM_BITS_PER_LIMB : Nat := 68

/-- The weight of the second limb. -/
def shift1 : Fr := 2 ^ 68

/-- The weight of the third limb. -/
def shift2 : Fr := 2 ^ (68 * 2)

/-- The weight of the fourth limb. -/
def shift3 : Fr := 2 ^ (68 * 3)

/-- The range of the `i`-th limb: what is left of the input, zero bits being the value zero. -/
def limbBits (maxInputBits i : Nat) : Nat := min NUM_BITS_PER_LIMB (maxInputBits - NUM_BITS_PER_LIMB * i)

/-- Split a field element into four limbs of 68 bits. -/
def splitIntoLimbs (input : Fr) (maxInputBits : Nat) : Circuit Limbs := do
  let t0 ← Circuit.witness
  let t1 ← Circuit.witness
  let t2 ← Circuit.witness
  let t3 ← Circuit.witness
  let limbSum1 := t0 + t1 * shift1 + t2 * shift2
  let limbSum2 := input - t3 * shift3
  Circuit.assert (limbSum1 = limbSum2)
  createRangeConstraint t0 (limbBits maxInputBits 0)
  createRangeConstraint t1 (limbBits maxInputBits 1)
  createRangeConstraint t2 (limbBits maxInputBits 2)
  createRangeConstraint t3 (limbBits maxInputBits 3)
  return ⟨t0, t1, t2, t3⟩

/-- Split a limb into a low one of 136 bits and a carry of 72. -/
def splitOutCarryTerm (limb : Fr) : Circuit (Fr × Fr) := do
  let lo ← Circuit.witness
  let hi ← Circuit.witness
  createRangeConstraint lo (68 * 2)
  createRangeConstraint hi 72
  Circuit.assert (limb = lo + hi * shift2)
  return (lo, hi)

/-- The schoolbook product of two values of four limbs, plus a third. -/
def computeProductLimbs (left right toAdd : Limbs) (useResidual : Bool) : Circuit Limbs := do
  let b := left.l0 * right.l1 + left.l1 * right.l0
  let c := left.l0 * right.l2 + (left.l1 * right.l1 + left.l2 * right.l0)
  let d := left.l0 * right.l3 + (left.l1 * right.l2 + (left.l2 * right.l1 + left.l3 * right.l0))
  let e := left.l1 * right.l3 + (left.l2 * right.l2 + left.l3 * right.l1)
  let f := left.l2 * right.l3 + left.l3 * right.l2
  let add := if useResidual then toAdd else 0
  let (r0, carry0) ← splitOutCarryTerm
    (add.l0 + (left.l0 * right.l0 + (b * shift1 + add.l1 * shift1)))
  let (r1, carry1) ← splitOutCarryTerm (carry0 + (c + add.l2) + (add.l3 * shift1 + d * shift1))
  let (r2, carry2) ← splitOutCarryTerm (carry1 + e + f * shift1)
  return ⟨r0, r1, r2, left.l3 * right.l3 + carry2⟩

/-- `a1 * b1 = a2 * b2 + residual`, over the integers. -/
def productCheck (a1 b1 a2 b2 residual : Fr) : Circuit Bool := do
  let left1 ← splitIntoLimbs a1 DEFI_DEPOSIT_VALUE_BIT_LENGTH
  let left2 ← splitIntoLimbs a2 NOTE_VALUE_BIT_LENGTH
  let right1 ← splitIntoLimbs b1 NOTE_VALUE_BIT_LENGTH
  let right2 ← splitIntoLimbs b2 NOTE_VALUE_BIT_LENGTH
  let residualLimbs ← splitIntoLimbs residual NOTE_VALUE_BIT_LENGTH
  let lhs ← computeProductLimbs left1 right1 0 false
  let rhs ← computeProductLimbs left2 right2 residualLimbs true
  return lhs.l0 == rhs.l0 && lhs.l1 == rhs.l1 && lhs.l2 == rhs.l2 && lhs.l3 == rhs.l3

/-- The two ratios that are compared. -/
structure Ratios where
  a1 : Fr
  a2 : Fr
  b1 : Fr
  b2 : Fr

/-- `a1 / a2 = b1 / b2`, rounding down; the residual is the prover's. -/
def ratioCheck (ratios : Ratios) : Circuit Bool := do
  let residual ← Circuit.witness
  createRangeConstraint ratios.a1 DEFI_DEPOSIT_VALUE_BIT_LENGTH
  createRangeConstraint ratios.a2 NOTE_VALUE_BIT_LENGTH
  createRangeConstraint ratios.b1 NOTE_VALUE_BIT_LENGTH
  createRangeConstraint ratios.b2 NOTE_VALUE_BIT_LENGTH
  createRangeConstraint residual NOTE_VALUE_BIT_LENGTH
  createRangeConstraint (ratios.a2 - residual - 1) NOTE_VALUE_BIT_LENGTH
  let balanced ← productCheck ratios.a1 ratios.b2 ratios.b1 ratios.a2 residual
  return ratios.a2 != 0 && ratios.b2 != 0 && balanced

/-! ## Limbs as integers -/

/-- The integer of which these are the limbs of 68 bits. -/
def Limbs.toNat (l : Limbs) : Nat :=
  l.l0.val + l.l1.val * 2 ^ 68 + l.l2.val * 2 ^ 136 + l.l3.val * 2 ^ 204

/-- The integer of which these are the limbs of 136 bits. -/
def Limbs.wideToNat (l : Limbs) : Nat :=
  l.l0.val + (l.l1.val + (l.l2.val + l.l3.val * 2 ^ 136) * 2 ^ 136) * 2 ^ 136

/-- All limbs have 68 bits. -/
structure Limbs.Narrow (l : Limbs) : Prop where
  l0 : l.l0.val < 2 ^ 68
  l1 : l.l1.val < 2 ^ 68
  l2 : l.l2.val < 2 ^ 68
  l3 : l.l3.val < 2 ^ 68

/-- Zero has narrow limbs. -/
lemma Limbs.narrow_zero : (0 : Limbs).Narrow := by
  have h : (0 : Fr).val < 2 ^ 68 := by decide
  exact ⟨h, h, h, h⟩

/-- The number of the limbs in the field. -/
lemma Limbs.cast_toNat (l : Limbs) :
    (l.toNat : Fr) = l.l0 + l.l1 * shift1 + l.l2 * shift2 + l.l3 * shift3 := by
  simp only [Limbs.toNat, Nat.cast_add, Nat.cast_mul, Nat.cast_pow, Nat.cast_ofNat, natCast_val,
    shift1, shift2, shift3, Nat.reduceMul]

/-- A number in range is split into narrow limbs. -/
lemma splitIntoLimbs_spec (input : Fr) {maxInputBits : Nat} (h : maxInputBits ≤ 252) :
    (splitIntoLimbs input maxInputBits).Ensures fun l => l.Narrow ∧ l.toNat = input.val := by
  simp only [splitIntoLimbs, Circuit.ensures_bind, Circuit.ensures_witness, Circuit.ensures_assert,
    ensures_createRangeConstraint, Circuit.ensures_pure]
  intro t0 t1 t2 t3 hsum h0 h1 h2 h3
  have hr := two_pow_lt_fieldModulus
  have hpow (i : Nat) : 2 ^ limbBits maxInputBits i ≤ 2 ^ 68 :=
    Nat.pow_le_pow_right (by decide) (Nat.min_le_left _ _)
  have h3' : t3.val < 2 ^ 48 :=
    h3.trans_le (Nat.pow_le_pow_right (by decide) (by simp only [limbBits, NUM_BITS_PER_LIMB]; omega))
  have hnarrow : (⟨t0, t1, t2, t3⟩ : Limbs).Narrow :=
    ⟨h0.trans_le (hpow 0), h1.trans_le (hpow 1), h2.trans_le (hpow 2), h3.trans_le (hpow 3)⟩
  refine ⟨hnarrow, ?_⟩
  have hlt : (⟨t0, t1, t2, t3⟩ : Limbs).toNat < fieldModulus := by
    have h₀ := hnarrow.l0
    have h₁ := hnarrow.l1
    have h₂ := hnarrow.l2
    simp only [Limbs.toNat] at h₀ h₁ h₂ ⊢
    omega
  have hcast : (((⟨t0, t1, t2, t3⟩ : Limbs).toNat : Nat) : Fr) = input := by
    rw [Limbs.cast_toNat, hsum, sub_add_cancel]
  rw [← hcast, val_natCast_of_lt hlt]

/-! ## Columns -/

/-- The carry term is split in one way, into the slices of the limb. -/
lemma splitOutCarryTerm_iff {limb : Fr} {n : Nat} (hlimb : limb = (n : Fr)) (hn : n < 2 ^ 208)
    {out : Fr × Fr} : splitOutCarryTerm limb out ↔
      out = (((n % 2 ^ 136 : Nat) : Fr), ((n / 2 ^ 136 : Nat) : Fr)) := by
  have hr := two_pow_lt_fieldModulus
  have hshift : shift2 = ((2 ^ 136 : Nat) : Fr) := by
    rw [shift2, Nat.cast_pow, Nat.cast_ofNat]
  constructor
  · rintro ⟨lo, -, hi, -, ⟨⟩, hlo, ⟨⟩, hhi, ⟨⟩, heq, rfl⟩
    have hlo' : lo.val < 2 ^ 136 := hlo
    have hhi' : hi.val < 2 ^ 72 := hhi
    have hsum : lo.val + hi.val * 2 ^ 136 = n := by
      refine natCast_inj (by omega) (by omega) ?_
      rw [← hlimb, show limb = lo + hi * shift2 from heq, hshift, Nat.cast_add, Nat.cast_mul,
        natCast_val, natCast_val]
    have hlow : lo.val = n % 2 ^ 136 := by omega
    have hhigh : hi.val = n / 2 ^ 136 := by omega
    rw [← hlow, ← hhigh, natCast_val, natCast_val]
  · rintro rfl
    have hlo : ((n % 2 ^ 136 : Nat) : Fr).val < 2 ^ (68 * 2) := by
      rw [val_natCast_of_lt (by omega)]
      exact Nat.mod_lt _ (Nat.two_pow_pos _)
    have hhi : ((n / 2 ^ 136 : Nat) : Fr).val < 2 ^ 72 := by
      rw [val_natCast_of_lt (by omega)]
      omega
    refine ⟨_, trivial, _, trivial, (), hlo, (), hhi, (), ?_, rfl⟩
    show limb = ((n % 2 ^ 136 : Nat) : Fr) + ((n / 2 ^ 136 : Nat) : Fr) * shift2
    rw [hshift, hlimb, ← Nat.cast_mul, ← Nat.cast_add, Nat.mod_add_div']

/-- Products of limbs have 136 bits. -/
lemma mul_limb_lt {a b : Nat} (ha : a < 2 ^ 68) (hb : b < 2 ^ 68) : a * b < 2 ^ 136 :=
  calc a * b < 2 ^ 68 * 2 ^ 68 := Nat.mul_lt_mul'' ha hb
    _ = 2 ^ 136 := by rw [← Nat.pow_add]

/-- The columns of the schoolbook product, with their carries. -/
lemma columns_eq {X l0 l1 l2 l3 r0 r1 r2 r3 t0 t1 t2 t3 lo0 hi0 lo1 hi1 lo2 hi2 : Nat}
    (h0 : lo0 + hi0 * X ^ 2 = t0 + (l0 * r0 + ((l0 * r1 + l1 * r0) * X + t1 * X)))
    (h1 : lo1 + hi1 * X ^ 2 = hi0 + (l0 * r2 + (l1 * r1 + l2 * r0) + t2) +
      (t3 * X + (l0 * r3 + (l1 * r2 + (l2 * r1 + l3 * r0))) * X))
    (h2 : lo2 + hi2 * X ^ 2 = hi1 + (l1 * r3 + (l2 * r2 + l3 * r1)) + (l2 * r3 + l3 * r2) * X) :
    lo0 + (lo1 + (lo2 + (l3 * r3 + hi2) * X ^ 2) * X ^ 2) * X ^ 2 =
      (l0 + l1 * X + l2 * X ^ 2 + l3 * X ^ 3) * (r0 + r1 * X + r2 * X ^ 2 + r3 * X ^ 3) +
        (t0 + t1 * X + t2 * X ^ 2 + t3 * X ^ 3) := by
  zify at h0 h1 h2 ⊢
  linear_combination h0 + X ^ 2 * h1 + X ^ 4 * h2

section Columns

variable (left right toAdd : Limbs)

/-- The columns of the schoolbook product over the integers, each with the carry of the last. -/
def column0 : Nat :=
  toAdd.l0.val + (left.l0.val * right.l0.val +
    ((left.l0.val * right.l1.val + left.l1.val * right.l0.val) * 2 ^ 68 + toAdd.l1.val * 2 ^ 68))

/-- The second column of the product, with the carry of the first. -/
def column1 : Nat :=
  column0 left right toAdd / 2 ^ 136 +
    (left.l0.val * right.l2.val + (left.l1.val * right.l1.val + left.l2.val * right.l0.val) +
      toAdd.l2.val) +
    (toAdd.l3.val * 2 ^ 68 + (left.l0.val * right.l3.val + (left.l1.val * right.l2.val +
      (left.l2.val * right.l1.val + left.l3.val * right.l0.val))) * 2 ^ 68)

/-- The third column. -/
def column2 : Nat :=
  column1 left right toAdd / 2 ^ 136 +
    (left.l1.val * right.l3.val + (left.l2.val * right.l2.val + left.l3.val * right.l1.val)) +
    (left.l2.val * right.l3.val + left.l3.val * right.l2.val) * 2 ^ 68

/-- The fourth column. -/
def column3 : Nat := left.l3.val * right.l3.val + column2 left right toAdd / 2 ^ 136

/-- No column wraps around in the field, and the carries are in their ranges. -/
structure ColumnsInRange : Prop where
  column0_lt : column0 left right toAdd < fieldModulus
  carry0_lt : column0 left right toAdd / 2 ^ 136 < 2 ^ 72
  column1_lt : column1 left right toAdd < fieldModulus
  carry1_lt : column1 left right toAdd / 2 ^ 136 < 2 ^ 72
  column2_lt : column2 left right toAdd < fieldModulus
  carry2_lt : column2 left right toAdd / 2 ^ 136 < 2 ^ 72
  column3_lt : column3 left right toAdd < fieldModulus

/-- The product limbs: slices of 136 bits of the columns. -/
def productLimbs : Limbs :=
  ⟨(column0 left right toAdd % 2 ^ 136 : Nat), (column1 left right toAdd % 2 ^ 136 : Nat),
    (column2 left right toAdd % 2 ^ 136 : Nat), column3 left right toAdd⟩

variable {left right toAdd}

/-- With narrow limbs the columns do not wrap. -/
lemma columns_lt (hl : left.Narrow) (hr : right.Narrow) (ht : toAdd.Narrow) :
    column0 left right toAdd < 2 ^ 207 ∧ column1 left right toAdd < 2 ^ 207 ∧
      column2 left right toAdd < 2 ^ 207 ∧ column3 left right toAdd < 2 ^ 137 := by
  have p00 := mul_limb_lt hl.l0 hr.l0
  have p01 := mul_limb_lt hl.l0 hr.l1
  have p02 := mul_limb_lt hl.l0 hr.l2
  have p03 := mul_limb_lt hl.l0 hr.l3
  have p10 := mul_limb_lt hl.l1 hr.l0
  have p11 := mul_limb_lt hl.l1 hr.l1
  have p12 := mul_limb_lt hl.l1 hr.l2
  have p13 := mul_limb_lt hl.l1 hr.l3
  have p20 := mul_limb_lt hl.l2 hr.l0
  have p21 := mul_limb_lt hl.l2 hr.l1
  have p22 := mul_limb_lt hl.l2 hr.l2
  have p23 := mul_limb_lt hl.l2 hr.l3
  have p30 := mul_limb_lt hl.l3 hr.l0
  have p31 := mul_limb_lt hl.l3 hr.l1
  have p32 := mul_limb_lt hl.l3 hr.l2
  have p33 := mul_limb_lt hl.l3 hr.l3
  obtain ⟨ht0, ht1, ht2, ht3⟩ := ht
  have h0 : column0 left right toAdd < 2 ^ 207 := by
    unfold column0
    omega
  have h1 : column1 left right toAdd < 2 ^ 207 := by
    unfold column1
    omega
  have h2 : column2 left right toAdd < 2 ^ 207 := by
    unfold column2
    omega
  refine ⟨h0, h1, h2, ?_⟩
  unfold column3
  omega

/-- So they are in the range that is checked. -/
lemma columnsInRange (hl : left.Narrow) (hr : right.Narrow) (ht : toAdd.Narrow) :
    ColumnsInRange left right toAdd := by
  obtain ⟨h0, h1, h2, h3⟩ := columns_lt hl hr ht
  have hmod := two_pow_lt_fieldModulus
  constructor <;> omega

/-- The product limbs are those of the columns. -/
lemma computeProductLimbs_iff {add out : Limbs} {useResidual : Bool} (hl : left.Narrow)
    (hr : right.Narrow) (hadd : (if useResidual then toAdd else 0) = add) (ht : add.Narrow) :
    computeProductLimbs left right toAdd useResidual out ↔ out = productLimbs left right add := by
  unfold computeProductLimbs
  rw [hadd]
  obtain ⟨h0, h1, h2, -⟩ := columns_lt hl hr ht
  have hcast0 : add.l0 + (left.l0 * right.l0 + ((left.l0 * right.l1 + left.l1 * right.l0) * shift1 +
      add.l1 * shift1)) = (column0 left right add : Fr) := by
    simp only [column0, Nat.cast_add, Nat.cast_mul, Nat.cast_pow, Nat.cast_ofNat, natCast_val, shift1]
  have hcast1 : ((column0 left right add / 2 ^ 136 : Nat) : Fr) + (left.l0 * right.l2 +
      (left.l1 * right.l1 + left.l2 * right.l0) + add.l2) + (add.l3 * shift1 +
        (left.l0 * right.l3 + (left.l1 * right.l2 + (left.l2 * right.l1 + left.l3 * right.l0))) *
          shift1) = (column1 left right add : Fr) := by
    simp only [column1, Nat.cast_add, Nat.cast_mul, Nat.cast_pow, Nat.cast_ofNat, natCast_val, shift1]
  have hcast2 : ((column1 left right add / 2 ^ 136 : Nat) : Fr) + (left.l1 * right.l3 +
      (left.l2 * right.l2 + left.l3 * right.l1)) + (left.l2 * right.l3 + left.l3 * right.l2) *
        shift1 = (column2 left right add : Fr) := by
    simp only [column2, Nat.cast_add, Nat.cast_mul, Nat.cast_pow, Nat.cast_ofNat, natCast_val, shift1]
  have hcast3 : left.l3 * right.l3 + ((column2 left right add / 2 ^ 136 : Nat) : Fr) =
      (column3 left right add : Fr) := by
    simp only [column3, Nat.cast_add, Nat.cast_mul, natCast_val]
  constructor
  · rintro ⟨p0, hp0, p1, hp1, p2, hp2, hout⟩
    obtain rfl := (splitOutCarryTerm_iff hcast0 (by omega)).mp hp0
    obtain rfl := (splitOutCarryTerm_iff hcast1 (by omega)).mp hp1
    obtain rfl := (splitOutCarryTerm_iff hcast2 (by omega)).mp hp2
    refine Eq.trans hout ?_
    rw [productLimbs, ← hcast3]
  · rintro rfl
    refine ⟨_, (splitOutCarryTerm_iff hcast0 (by omega)).mpr rfl,
      _, (splitOutCarryTerm_iff hcast1 (by omega)).mpr rfl,
      _, (splitOutCarryTerm_iff hcast2 (by omega)).mpr rfl, ?_⟩
    rw [productLimbs, ← hcast3]
    rfl

/-- The columns are those of the product. -/
lemma wideToNat_productLimbs (hl : left.Narrow) (hr : right.Narrow) (ht : toAdd.Narrow) :
    (productLimbs left right toAdd).wideToNat = left.toNat * right.toNat + toAdd.toNat := by
  obtain ⟨h0, h1, h2, h3⟩ := columns_lt hl hr ht
  have hmod := two_pow_lt_fieldModulus
  have hlow (n : Nat) : ((n % 2 ^ 136 : Nat) : Fr).val = n % 2 ^ 136 := val_natCast_of_lt (by omega)
  simp only [productLimbs, Limbs.wideToNat, hlow, val_natCast_of_lt (h3.trans (by omega))]
  have hX2 : (2 : Nat) ^ 136 = (2 ^ 68) ^ 2 := Nat.pow_mul 2 68 2
  have hX3 : (2 : Nat) ^ 204 = (2 ^ 68) ^ 3 := Nat.pow_mul 2 68 3
  have hdiv {n m : Nat} (h : n = m) : n % (2 ^ 68) ^ 2 + n / (2 ^ 68) ^ 2 * (2 ^ 68) ^ 2 = m :=
    (Nat.mod_add_div' n _).trans h
  rw [column3, Limbs.toNat, Limbs.toNat, Limbs.toNat, hX2, hX3]
  refine columns_eq (hdiv rfl) (hdiv ?_) (hdiv ?_)
  · rw [column1, hX2]
  · rw [column2, hX2]

/-- The integer of the limbs determines them. -/
lemma productLimbs_inj {left' right' toAdd' : Limbs} (hl : left.Narrow) (hr : right.Narrow)
    (ht : toAdd.Narrow) (hl' : left'.Narrow) (hr' : right'.Narrow) (ht' : toAdd'.Narrow)
    (h : (productLimbs left right toAdd).wideToNat = (productLimbs left' right' toAdd').wideToNat) :
    productLimbs left right toAdd = productLimbs left' right' toAdd' := by
  obtain ⟨-, -, -, h3⟩ := columns_lt hl hr ht
  obtain ⟨-, -, -, h3'⟩ := columns_lt hl' hr' ht'
  have hmod := two_pow_lt_fieldModulus
  have hlow (n : Nat) : ((n % 2 ^ 136 : Nat) : Fr).val = n % 2 ^ 136 := val_natCast_of_lt (by omega)
  simp only [productLimbs, Limbs.wideToNat, hlow, val_natCast_of_lt (lt_trans h3 (by omega)),
    val_natCast_of_lt (lt_trans h3' (by omega))] at h ⊢
  congr 2 <;> omega

end Columns

/-- Limbs are compared one by one. -/
lemma beq_limbs (x y : Limbs) :
    (x.l0 == y.l0 && x.l1 == y.l1 && x.l2 == y.l2 && x.l3 == y.l3) = decide (x = y) := by
  rw [Bool.eq_iff_iff, decide_eq_true_iff]
  simp only [Bool.and_eq_true, beq_iff_eq]
  constructor
  · rintro ⟨⟨⟨h0, h1⟩, h2⟩, h3⟩
    cases x
    cases y
    cases h0
    cases h1
    cases h2
    cases h3
    rfl
  · rintro rfl
    exact ⟨⟨⟨rfl, rfl⟩, rfl⟩, rfl⟩

/-- A product check that succeeds is an equation over the integers. -/
lemma productCheck_spec (a1 b1 a2 b2 residual : Fr) :
    (productCheck a1 b1 a2 b2 residual).Ensures fun balanced =>
      balanced = true → a1.val * b1.val = a2.val * b2.val + residual.val := by
  simp only [productCheck, Circuit.ensures_bind, Circuit.ensures_pure]
  refine (splitIntoLimbs_spec a1 (by decide)).mono ?_
  rintro left1 ⟨hl1, ha1⟩
  refine (splitIntoLimbs_spec a2 (by decide)).mono ?_
  rintro left2 ⟨hl2, ha2⟩
  refine (splitIntoLimbs_spec b1 (by decide)).mono ?_
  rintro right1 ⟨hr1, hb1⟩
  refine (splitIntoLimbs_spec b2 (by decide)).mono ?_
  rintro right2 ⟨hr2, hb2⟩
  refine (splitIntoLimbs_spec residual (by decide)).mono ?_
  rintro rest ⟨hrest, hresidual⟩
  intro lhs hlhs rhs hrhs hbalanced
  obtain rfl := (computeProductLimbs_iff hl1 hr1 (if_neg Bool.false_ne_true) Limbs.narrow_zero).mp hlhs
  obtain rfl := (computeProductLimbs_iff hl2 hr2 (if_pos rfl) hrest).mp hrhs
  rw [beq_limbs, decide_eq_true_iff] at hbalanced
  have heq := congrArg Limbs.wideToNat hbalanced
  have hzero : (0 : Limbs).toNat = 0 := rfl
  rw [wideToNat_productLimbs hl1 hr1 Limbs.narrow_zero, wideToNat_productLimbs hl2 hr2 hrest] at heq
  rwa [hzero, Nat.add_zero, ha1, hb1, ha2, hb2, hresidual] at heq

/-- The divisor is positive, and a ratio check that succeeds is a division with remainder. -/
lemma ratioCheck_spec (ratios : Ratios) :
    (ratioCheck ratios).Ensures fun valid => 0 < ratios.a2.val ∧ (valid = true →
      ratios.b1.val = ratios.a1.val * ratios.b2.val / ratios.a2.val) := by
  simp only [ratioCheck, Circuit.ensures_bind, Circuit.ensures_witness,
    ensures_createRangeConstraint, Circuit.ensures_pure]
  intro residual _ ha2 _ _ hresidual hbelow
  have hsub : ratios.a2 - residual - 1 = ((ratios.a2.val : Fr) - ((residual.val + 1 : Nat) : Fr)) := by
    rw [Nat.cast_add, natCast_val, natCast_val, Nat.cast_one, sub_sub]
  rw [hsub] at hbelow
  have hlt : residual.val + 1 ≤ ratios.a2.val := (le_of_sub_range ha2 hresidual hbelow).1
  refine (productCheck_spec _ _ _ _ _).mono fun balanced hbalanced => ⟨by omega, fun hvalid => ?_⟩
  simp only [Bool.and_eq_true] at hvalid
  have heq := hbalanced hvalid.2
  symm
  refine Nat.div_eq_of_lt_le ?_ ?_
  · rw [heq]
    exact Nat.le_add_right _ _
  · rw [heq, Nat.add_mul, Nat.one_mul]
    omega

/-! ## An honest prover -/

/-- The witnesses of the split: slices of 68 bits. -/
def Limbs.ofNat (n : Nat) : Limbs :=
  ⟨(n % 2 ^ 68 : Nat), (n / 2 ^ 68 % 2 ^ 68 : Nat), (n / 2 ^ 136 % 2 ^ 68 : Nat),
    (n / 2 ^ 204 % 2 ^ 68 : Nat)⟩

/-- A limb of 68 bits is itself in the field. -/
lemma val_limb (n : Nat) : ((n % 2 ^ 68 : Nat) : Fr).val = n % 2 ^ 68 := by
  have hr := two_pow_lt_fieldModulus
  exact val_natCast_of_lt (by omega)

/-- The limbs of a number are narrow. -/
lemma Limbs.narrow_ofNat (n : Nat) : (Limbs.ofNat n).Narrow := by
  have hlt (k : Nat) : ((k % 2 ^ 68 : Nat) : Fr).val < 2 ^ 68 := by
    rw [val_limb]
    exact Nat.mod_lt _ (Nat.two_pow_pos 68)
  exact ⟨hlt _, hlt _, hlt _, hlt _⟩

/-- The limbs recombine to the value. -/
lemma Limbs.toNat_ofNat {n : Nat} (h : n < 2 ^ 252) : (Limbs.ofNat n).toNat = n := by
  simp only [Limbs.toNat, Limbs.ofNat, val_limb]
  omega

/-- What the range of a limb leaves room for. -/
lemma limb_lt {n maxInputBits : Nat} (h : n < 2 ^ maxInputBits) (i : Nat) :
    n / 2 ^ (68 * i) % 2 ^ 68 < 2 ^ limbBits maxInputBits i := by
  rw [limbBits, NUM_BITS_PER_LIMB]
  rcases Nat.le_total 68 (maxInputBits - 68 * i) with hle | hle
  · rw [Nat.min_eq_left hle]
    exact Nat.mod_lt _ (Nat.two_pow_pos 68)
  · rw [Nat.min_eq_right hle]
    refine (Nat.mod_le _ _).trans_lt (Nat.div_lt_of_lt_mul ?_)
    rw [← Nat.pow_add]
    exact h.trans_le (Nat.pow_le_pow_right (by decide) (by omega))

/-- A prover can split a number in range. -/
lemma splitIntoLimbs_honest {x : Fr} {maxInputBits : Nat} (hbits : maxInputBits ≤ 252)
    (hx : x.val < 2 ^ maxInputBits) : splitIntoLimbs x maxInputBits (.ofNat x.val) := by
  have hlt : x.val < 2 ^ 252 := hx.trans_le (Nat.pow_le_pow_right (by decide) hbits)
  have hsum := Limbs.cast_toNat (Limbs.ofNat x.val)
  rw [Limbs.toNat_ofNat hlt, natCast_val] at hsum
  have hrange (i : Nat) : ((x.val / 2 ^ (68 * i) % 2 ^ 68 : Nat) : Fr).val <
      2 ^ limbBits maxInputBits i := (val_limb _).trans_lt (limb_lt hx i)
  refine ⟨_, trivial, _, trivial, _, trivial, _, trivial, (), ?_, (), ?_, (), hrange 1, (), hrange 2,
    (), hrange 3, rfl⟩
  · exact eq_sub_of_add_eq hsum.symm
  · have h0 := hrange 0
    rwa [Nat.mul_zero, Nat.pow_zero, Nat.div_one] at h0

/-- And show its products. -/
lemma productCheck_honest {a1 b1 a2 b2 residual : Fr} (h₁ : a1.val < 2 ^ DEFI_DEPOSIT_VALUE_BIT_LENGTH)
    (h₂ : b1.val < 2 ^ NOTE_VALUE_BIT_LENGTH) (h₃ : a2.val < 2 ^ NOTE_VALUE_BIT_LENGTH)
    (h₄ : b2.val < 2 ^ NOTE_VALUE_BIT_LENGTH) (h₅ : residual.val < 2 ^ NOTE_VALUE_BIT_LENGTH) :
    productCheck a1 b1 a2 b2 residual
      (decide (a1.val * b1.val = a2.val * b2.val + residual.val)) := by
  have n₁ := Limbs.narrow_ofNat a1.val
  have n₂ := Limbs.narrow_ofNat b1.val
  have n₃ := Limbs.narrow_ofNat a2.val
  have n₄ := Limbs.narrow_ofNat b2.val
  have n₅ := Limbs.narrow_ofNat residual.val
  refine ⟨_, splitIntoLimbs_honest (by decide) h₁, _, splitIntoLimbs_honest (by decide) h₃,
    _, splitIntoLimbs_honest (by decide) h₂, _, splitIntoLimbs_honest (by decide) h₄,
    _, splitIntoLimbs_honest (by decide) h₅,
    _, (computeProductLimbs_iff n₁ n₂ (if_neg Bool.false_ne_true) Limbs.narrow_zero).mpr rfl,
    _, (computeProductLimbs_iff n₃ n₄ (if_pos rfl) n₅).mpr rfl, ?_⟩
  -- the limbs agree if and only if the integers do
  have hwide := wideToNat_productLimbs n₁ n₂ Limbs.narrow_zero
  have hwide' := wideToNat_productLimbs n₃ n₄ n₅
  rw [Limbs.toNat_ofNat (h₁.trans (by decide)), Limbs.toNat_ofNat h₂] at hwide
  rw [Limbs.toNat_ofNat h₃, Limbs.toNat_ofNat h₄, Limbs.toNat_ofNat h₅] at hwide'
  refine Eq.trans ?_ (beq_limbs _ _).symm
  refine decide_eq_decide.mpr ⟨fun heq => ?_, fun heq => ?_⟩
  · refine productLimbs_inj n₁ n₂ Limbs.narrow_zero n₃ n₄ n₅ ?_
    exact hwide.trans (heq.trans hwide'.symm)
  · exact hwide.symm.trans ((congrArg Limbs.wideToNat heq).trans hwide')

/-- An honest prover: the residual is the remainder. -/
lemma ratioCheck_honest (ratios : Ratios) (h₁ : ratios.a1.val < 2 ^ DEFI_DEPOSIT_VALUE_BIT_LENGTH)
    (h₂ : ratios.a2.val < 2 ^ NOTE_VALUE_BIT_LENGTH) (h₃ : ratios.b1.val < 2 ^ NOTE_VALUE_BIT_LENGTH)
    (h₄ : ratios.b2.val < 2 ^ NOTE_VALUE_BIT_LENGTH) (hpos : 0 < ratios.a2.val) :
    ratioCheck ratios (ratios.a2 != 0 && ratios.b2 != 0 &&
      decide (ratios.b1.val = ratios.a1.val * ratios.b2.val / ratios.a2.val)) := by
  have hr := two_pow_lt_fieldModulus
  have hmod := Nat.mod_lt (ratios.a1.val * ratios.b2.val) hpos
  have hnote : 2 ^ NOTE_VALUE_BIT_LENGTH = 2 ^ 252 := rfl
  obtain ⟨residual, hresidual⟩ : ∃ residual : Fr,
      residual.val = ratios.a1.val * ratios.b2.val % ratios.a2.val :=
    ⟨_, val_natCast_of_lt (a := ratios.a1.val * ratios.b2.val % ratios.a2.val) (by omega)⟩
  have hlt : residual.val < 2 ^ NOTE_VALUE_BIT_LENGTH := by omega
  have hbelow : ratios.a2 - residual - 1 = ((ratios.a2.val - (residual.val + 1) : Nat) : Fr) := by
    rw [Nat.cast_sub (by omega), Nat.cast_add, natCast_val, natCast_val, Nat.cast_one, sub_sub]
  have hrange : (ratios.a2 - residual - 1).val < 2 ^ NOTE_VALUE_BIT_LENGTH := by
    rw [hbelow, val_natCast_of_lt (by omega)]
    omega
  refine ⟨residual, trivial, (), h₁, (), h₂, (), h₃, (), h₄, (), hlt, (), hrange,
    _, productCheck_honest h₁ h₄ h₃ h₂ hlt, ?_⟩
  refine congrArg _ (decide_eq_decide.mpr ?_)
  rw [hresidual]
  have hdiv := Nat.div_add_mod' (ratios.a1.val * ratios.b2.val) ratios.a2.val
  constructor
  · rintro heq
    rw [heq]
    exact hdiv.symm
  · intro heq
    refine Nat.eq_of_mul_eq_mul_right hpos ?_
    omega

/-- Values of one limb. -/
lemma ratioCheck_single {a1 a2 b1 b2 : Nat} (h₁ : a1 < 2 ^ 67) (h₂ : 0 < a2) (h₃ : a2 < 2 ^ 67)
    (h₄ : b1 < 2 ^ 67) (h₅ : b2 < 2 ^ 67) (hb : b1 = a1 * b2 / a2) :
    ratioCheck ⟨a1, a2, b1, b2⟩ ((a2 : Fr) != 0 && (b2 : Fr) != 0) := by
  have hr := two_pow_lt_fieldModulus
  have hval {n : Nat} (h : n < 2 ^ 67) : ((n : Nat) : Fr).val = n := val_natCast_of_lt (by omega)
  have hlt {n m : Nat} (hm : 67 ≤ m) (h : n < 2 ^ 67) : ((n : Nat) : Fr).val < 2 ^ m := by
    rw [hval h]
    exact h.trans_le (Nat.pow_le_pow_right (by decide) hm)
  have hhonest := ratioCheck_honest ⟨a1, a2, b1, b2⟩ (hlt (by decide) h₁)
    (hlt (by decide) h₃) (hlt (by decide) h₄) (hlt (by decide) h₅) (h₂.trans_eq (hval h₃).symm)
  dsimp only at hhonest
  rwa [hval h₁, hval h₃, hval h₄, hval h₅, decide_eq_true hb, Bool.and_true] at hhonest

/-- The ratio check accepts exactly the quotient rounded down: an honest prover's assignment fits
and wraps around nowhere, and no other assignment makes it accept. -/
theorem ratioCheck_complete (ratios : Ratios)
    (h₁ : ratios.a1.val < 2 ^ DEFI_DEPOSIT_VALUE_BIT_LENGTH)
    (h₂ : ratios.a2.val < 2 ^ NOTE_VALUE_BIT_LENGTH) (h₃ : ratios.b1.val < 2 ^ NOTE_VALUE_BIT_LENGTH)
    (h₄ : ratios.b2.val < 2 ^ NOTE_VALUE_BIT_LENGTH) :
    (0 < ratios.a2.val → 0 < ratios.b2.val →
      ratioCheck ratios
          (decide (ratios.b1.val = ratios.a1.val * ratios.b2.val / ratios.a2.val)) ∧
        (ratioCheck ratios true ↔
          ratios.b1.val = ratios.a1.val * ratios.b2.val / ratios.a2.val) ∧
        ColumnsInRange (.ofNat ratios.a1.val) (.ofNat ratios.b2.val) 0 ∧
        ColumnsInRange (.ofNat ratios.b1.val) (.ofNat ratios.a2.val)
          (.ofNat (ratios.a1.val * ratios.b2.val % ratios.a2.val))) ∧
    (∀ n < 2 ^ NOTE_VALUE_BIT_LENGTH, (Limbs.ofNat n).Narrow ∧ (Limbs.ofNat n).toNat = n) ∧
    (ratios.a2 = 0 → ¬ ratioCheck ratios true) := by
  refine ⟨fun ha2 hb2 => ?_, fun n hn => ⟨Limbs.narrow_ofNat n, Limbs.toNat_ofNat hn⟩, ?_⟩
  · have hne {x : Fr} (h : 0 < x.val) : (x != 0) = true :=
      bne_iff_ne.mpr fun heq => (heq ▸ h).false
    have hhonest := ratioCheck_honest ratios h₁ h₂ h₃ h₄ ha2
    rw [hne ha2, hne hb2, Bool.true_and, Bool.true_and] at hhonest
    refine ⟨hhonest, ⟨fun h => ((ratioCheck_spec ratios).apply h).2 rfl, fun heq => ?_⟩,
      columnsInRange (Limbs.narrow_ofNat _) (Limbs.narrow_ofNat _) Limbs.narrow_zero,
      columnsInRange (Limbs.narrow_ofNat _) (Limbs.narrow_ofNat _) (Limbs.narrow_ofNat _)⟩
    rwa [decide_eq_true heq] at hhonest
  · intro hzero h
    have hpos := ((ratioCheck_spec ratios).apply h).1
    rw [hzero, ZMod.val_zero] at hpos
    exact hpos.false

/-- A third of 40, rounded down. -/
theorem ratioCheck_complete_sample : ratioCheck ⟨10, 3, 13, 4⟩ true ∧ ¬ ratioCheck ⟨10, 0, 13, 4⟩ true :=
  ⟨((ratioCheck_complete ⟨10, 3, 13, 4⟩ (by decide) (by decide) (by decide) (by decide)).1
      (by decide) (by decide)).2.1.mpr (by decide),
    (ratioCheck_complete ⟨10, 0, 13, 4⟩ (by decide) (by decide) (by decide) (by decide)).2.2 rfl⟩

end AztecConnect.Circuit
