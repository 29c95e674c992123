import Mathlib.Algebra.BigOperators.Group.List.Basic
import Mathlib.Algebra.GroupWithZero.Nat

/-!
# Token buckets

A bucket refills at a constant rate up to its capacity, lazily: the tokens that accrued since the last
withdrawal are added at the next one. `sum_takes_le` bounds what can be withdrawn in a window of time
by the capacity and what accrues in the window, whatever the withdrawals and the pauses between them.
-/

namespace TokenBucket

/-- The constants of a bucket. -/
structure Limits where
  capacity : Nat
  rate : Nat

/-- The tokens that were available at the last withdrawal, and its time. -/
structure Bucket where
  available : Nat
  last : Nat

/-- A withdrawal. -/
structure Take where
  time : Nat
  amount : Nat

/-- What is available at time `t`. -/
def Bucket.refilled (L : Limits) (b : Bucket) (t : Nat) : Nat :=
  min (b.available + L.rate * (t - b.last)) L.capacity

/-- Withdraw, unless time ran backwards or there is not enough. -/
def Bucket.take (L : Limits) (b : Bucket) (op : Take) : Option Bucket :=
  if op.time < b.last ∨ b.refilled L op.time < op.amount then none
  else some ⟨b.refilled L op.time - op.amount, op.time⟩

/-- Withdraw one after the other. -/
def Bucket.takes (L : Limits) : List Take → Bucket → Option Bucket
  | [], b => some b
  | op :: ops, b =>
    match b.take L op with
    | some b' => Bucket.takes L ops b'
    | none => none

variable {L : Limits} {b b' : Bucket}

/-- A take that succeeds is later, and takes from what the bucket was refilled to. -/
lemma Bucket.take_eq_some {op : Take} (h : b.take L op = some b') :
    b.last ≤ op.time ∧ b'.last = op.time ∧ b'.available + op.amount = b.refilled L op.time := by
  rw [Bucket.take] at h
  split at h
  · cases h
  · rename_i hok
    cases h
    exact ⟨by omega, rfl, by simp only; omega⟩

/-- Takes may be made in two parts. -/
lemma Bucket.takes_append {ops ops' : List Take} :
    b.takes L (ops ++ ops') = (b.takes L ops).bind fun b' => b'.takes L ops' := by
  induction ops generalizing b with
  | nil => rfl
  | cons op ops ih =>
    simp only [List.cons_append, Bucket.takes]
    cases b.take L op with
    | none => rfl
    | some b₁ => exact ih

/-- A bucket never holds more than its capacity. -/
lemma Bucket.take_le_capacity {op : Take} (h : b.take L op = some b') :
    b'.available ≤ L.capacity := by
  obtain ⟨-, -, heq⟩ := Bucket.take_eq_some h
  have hle : b.refilled L op.time ≤ L.capacity := Nat.min_le_right _ _
  omega

/-- Withdrawals and what is left are covered by what there was and what accrued since. -/
lemma Bucket.sum_add_available_le {ops : List Take} {t₂ : Nat}
    (h : b.takes L ops = some b') (hw : ∀ op ∈ ops, op.time ≤ t₂) (hl : b.last ≤ t₂) :
    (ops.map Take.amount).sum + b'.available ≤ b.available + L.rate * (t₂ - b.last) := by
  induction ops generalizing b with
  | nil =>
    cases h
    simp
  | cons op ops ih =>
    simp only [Bucket.takes] at h
    cases htake : b.take L op with
    | none =>
      rw [htake] at h
      cases h
    | some b₁ =>
      rw [htake] at h
      obtain ⟨hle, hlast, heq⟩ := Bucket.take_eq_some htake
      have hop := hw op List.mem_cons_self
      have hrest := ih h (fun op' h' => hw op' (List.mem_cons_of_mem _ h'))
        (hlast ▸ hop)
      have hfill : b.refilled L op.time ≤ b.available + L.rate * (op.time - b.last) :=
        Nat.min_le_left _ _
      -- what accrues is additive in time
      have hsplit : L.rate * (op.time - b.last) + L.rate * (t₂ - op.time) =
          L.rate * (t₂ - b.last) := by
        rw [← Nat.mul_add]
        congr 1
        omega
      rw [hlast] at hrest
      rw [List.map_cons, List.sum_cons]
      omega

/-- In a window of time, withdrawals come to at most the capacity and what accrues in it. -/
theorem Bucket.sum_takes_le {ops : List Take} {t₁ t₂ : Nat} (h : b.takes L ops = some b')
    (hw : ∀ op ∈ ops, t₁ ≤ op.time ∧ op.time ≤ t₂) :
    (ops.map Take.amount).sum ≤ L.capacity + L.rate * (t₂ - t₁) := by
  cases ops with
  | nil => exact Nat.zero_le _
  | cons op ops =>
    simp only [Bucket.takes] at h
    cases htake : b.take L op with
    | none =>
      rw [htake] at h
      cases h
    | some b₁ =>
      rw [htake] at h
      obtain ⟨-, hlast, heq⟩ := Bucket.take_eq_some htake
      obtain ⟨h₁, h₂⟩ := hw op List.mem_cons_self
      have hrest := Bucket.sum_add_available_le h
        (fun op' h' => (hw op' (List.mem_cons_of_mem _ h')).2) (hlast ▸ h₂)
      have hcap : b.refilled L op.time ≤ L.capacity := Nat.min_le_right _ _
      have hrate : L.rate * (t₂ - b₁.last) ≤ L.rate * (t₂ - t₁) := by
        apply Nat.mul_le_mul_left
        omega
      rw [List.map_cons, List.sum_cons]
      omega

end TokenBucket
