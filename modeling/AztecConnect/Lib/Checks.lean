import Mathlib.Algebra.BigOperators.Fin
import Mathlib.Algebra.Order.BigOperators.Group.Finset
import Mathlib.Data.List.FinRange

/-!
# Checks

A program that computes a value and checks conditions on the way returns an error or a value. What
holds of the value whenever no check fails is proved backwards (`Ensures`), with an invariant for a
loop over the indices of an array (`ensures_foldlM`).
-/

namespace Checks

variable {ε α β σ : Type}

/-- Throws unless `p` holds. -/
def require (p : Prop) [Decidable p] (e : ε) : Except ε Unit := if p then .ok () else .error e

/-- `Q` holds of the value, if there is one. -/
def Ensures (x : Except ε α) (Q : α → Prop) : Prop := ∀ a, x = .ok a → Q a

/-- A value is passed on. -/
@[simp] lemma ok_bind (a : α) (f : α → Except ε β) : (Except.ok a >>= f) = f a := rfl

/-- An error is kept. -/
@[simp] lemma error_bind (e : ε) (f : α → Except ε β) : (Except.error e >>= f) = .error e := rfl

/-- What is ensured holds of the value. -/
lemma Ensures.apply {x : Except ε α} {Q : α → Prop} (h : Ensures x Q) {a : α} (ha : x = .ok a) :
    Q a := h a ha

/-- And what follows from it. -/
lemma Ensures.mono {x : Except ε α} {Q Q' : α → Prop} (h : Ensures x Q) (hQ : ∀ a, Q a → Q' a) :
    Ensures x Q' := fun a ha => hQ a (h a ha)

/-- Two facts are ensured together. -/
lemma Ensures.and {x : Except ε α} {Q Q' : α → Prop} (h : Ensures x Q) (h' : Ensures x Q') :
    Ensures x fun a => Q a ∧ Q' a := fun a ha => ⟨h a ha, h' a ha⟩

/-- A value ensures what holds of it. -/
@[simp] lemma ensures_pure {a : α} {Q : α → Prop} : Ensures (pure a : Except ε α) Q ↔ Q a := by
  constructor
  · exact fun h => h a rfl
  · intro h b hb
    cases hb
    exact h

/-- A sequence ensures what its second part does, given what the first one does. -/
@[simp] lemma ensures_bind {x : Except ε α} {f : α → Except ε β} {Q : β → Prop} :
    Ensures (x >>= f) Q ↔ Ensures x fun a => Ensures (f a) Q := by
  cases x with
  | error e => exact ⟨nofun, nofun⟩
  | ok a =>
    constructor
    · rintro h b hb
      cases hb
      exact h
    · exact fun h => h a rfl

/-- A check ensures what it checks. -/
@[simp] lemma ensures_require {p : Prop} [Decidable p] {e : ε} {Q : Unit → Prop} :
    Ensures (require p e) Q ↔ (p → Q ()) := by
  unfold require
  split
  case isTrue hp => exact ⟨fun h _ => h () rfl, fun h _ _ => h hp⟩
  case isFalse hp => exact ⟨fun _ h => absurd h hp, nofun⟩

/-- The value of a program that returns one. -/
def value : (x : Except ε α) → x.toBool = true → α
  | .ok a, _ => a

/-- A computation that succeeds returns its value. -/
lemma eq_ok_value : (x : Except ε α) → (h : x.toBool = true) → x = .ok (value x h)
  | .ok _, _ => rfl

/-- Folds that agree on the list agree. -/
lemma foldlM_ext {f g : σ → α → Except ε σ} {l : List α} (s : σ)
    (h : ∀ s, ∀ i ∈ l, f s i = g s i) : l.foldlM f s = l.foldlM g s := by
  induction l generalizing s with
  | nil => rfl
  | cons i l ih =>
    rw [List.foldlM_cons, List.foldlM_cons, h s i List.mem_cons_self]
    exact bind_congr fun s' => ih s' fun s j hj => h s j (List.mem_cons_of_mem _ hj)

/-- A loop over the indices of an array. -/
lemma ensures_foldlM {n : Nat} {I : Nat → σ → Prop} {f : σ → Fin n → Except ε σ} {s : σ}
    (h₀ : I 0 s) (hstep : ∀ (i : Fin n) (s : σ), I i s → Ensures (f s i) (I (i + 1))) :
    Ensures ((List.finRange n).foldlM f s) (I n) := by
  induction n with
  | zero => exact ensures_pure.mpr h₀
  | succ n ih =>
    rw [List.finRange_succ_last, List.foldlM_append, ensures_bind, List.foldlM_map]
    refine (ih fun i s hs => hstep i.castSucc s hs).mono fun s' hs' => ?_
    rw [List.foldlM_cons, ensures_bind]
    exact (hstep (Fin.last n) s' hs').mono fun _ h => ensures_pure.mpr h

/-! ## Sums over the indices -/

variable {n : Nat}

/-- The sum over the first `i` indices. -/
lemma sum_lt_succ {M : Type*} [AddCommMonoid M] (f : Fin n → M) (i : Fin n) :
    (∑ j, if j.val < i.val + 1 then f j else 0) = (∑ j, if j.val < i.val then f j else 0) + f i := by
  have hsplit (j : Fin n) : (if j.val < i.val + 1 then f j else 0) =
      (if j.val < i.val then f j else 0) + if j = i then f j else 0 := by
    rcases lt_trichotomy j.val i.val with hlt | heq | hgt
    · rw [if_pos hlt, if_pos (by omega), if_neg (fun h => by omega), add_zero]
    · rw [if_pos (by omega), if_neg (by omega), if_pos (Fin.ext heq), zero_add]
    · rw [if_neg (by omega), if_neg (by omega), if_neg (fun h => by omega), add_zero]
  rw [Finset.sum_congr rfl fun j _ => hsplit j, Finset.sum_add_distrib,
    Finset.sum_ite_eq' Finset.univ i f, if_pos (Finset.mem_univ i)]

/-- A sum over nothing. -/
lemma sum_lt_zero {M : Type*} [AddCommMonoid M] (f : Fin n → M) :
    (∑ j, if j.val < 0 then f j else 0) = 0 :=
  Finset.sum_eq_zero fun j _ => if_neg (Nat.not_lt_zero j.val)

/-- A sum over all. -/
lemma sum_lt_all {M : Type*} [AddCommMonoid M] (f : Fin n → M) :
    (∑ j, if j.val < n then f j else 0) = ∑ j, f j :=
  Finset.sum_congr rfl fun j _ => if_pos j.isLt

/-- The number of indices with a property. -/
def count (p : Fin n → Bool) : Nat := ∑ k, (p k).toNat

/-- A count is at most the size. -/
lemma count_le (p : Fin n → Bool) : count p ≤ n := by
  calc count p ≤ ∑ _k : Fin n, 1 := Finset.sum_le_sum fun k _ => (p k).toNat_le
    _ = n := by simp

/-- A count of one is one index. -/
lemma existsUnique_of_count {p : Fin n → Bool} (h : count p = 1) : ∃! k, p k = true := by
  obtain ⟨k, -, hk⟩ : ∃ k ∈ Finset.univ, (p k).toNat ≠ 0 := by
    refine Finset.exists_ne_zero_of_sum_ne_zero ?_
    rw [← count, h]
    exact one_ne_zero
  have hp : p k = true := by
    cases hv : p k with
    | true => rfl
    | false => exact absurd (by rw [hv]; rfl) hk
  refine ⟨k, hp, fun j hj => by_contra fun hne => ?_⟩
  have htwo : (p j).toNat + (p k).toNat ≤ count p := by
    rw [← Finset.sum_pair (f := fun k => (p k).toNat) hne]
    exact Finset.sum_le_sum_of_subset (Finset.subset_univ _)
  rw [hj, hp, h] at htwo
  exact absurd htwo (by decide)

end Checks
