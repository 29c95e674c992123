import Mathlib.Algebra.Group.Defs
import Mathlib.Algebra.NeZero
import Mathlib.Data.List.Nodup
import Mathlib.Logic.Function.Basic

/-!
# Sets to which every key is added once

A set is its characteristic function. Keys are added one after the other, each if it is absent
(`Fresh`); then no key is added twice (`Fresh.nodup`), and a key is in the set from when it is added.
-/

namespace InsertOnce

variable {κ α : Type} [DecidableEq κ] [Zero α] [One α]

/-- The set after the keys are added. -/
def insertAll (t : κ → α) (ks : List κ) : κ → α := ks.foldl (fun t k => Function.update t k 1) t

/-- Every key is absent when it is added. -/
def Fresh : (κ → α) → List κ → Prop
  | _, [] => True
  | t, k :: ks => t k = 0 ∧ Fresh (Function.update t k 1) ks

variable {t : κ → α} {k : κ} {ks ks' : List κ}

omit [Zero α] in

/-- Insertions may be made in two parts. -/
lemma insertAll_append : insertAll t (ks ++ ks') = insertAll (insertAll t ks) ks' := List.foldl_append

/-- Freshness may be checked in two parts. -/
lemma fresh_append : Fresh t (ks ++ ks') ↔ Fresh t ks ∧ Fresh (insertAll t ks) ks' := by
  induction ks generalizing t with
  | nil => exact ⟨fun h => ⟨trivial, h⟩, And.right⟩
  | cons k ks ih =>
    show t k = 0 ∧ Fresh _ (ks ++ ks') ↔ (t k = 0 ∧ Fresh _ ks) ∧ Fresh (insertAll _ ks) ks'
    rw [ih, and_assoc]

omit [Zero α] in

/-- What is in stays in. -/
lemma insertAll_of_eq_one (h : t k = 1) : insertAll t ks k = 1 := by
  induction ks generalizing t with
  | nil => exact h
  | cons k' ks ih =>
    refine ih ?_
    show Function.update t k' 1 k = 1
    by_cases heq : k = k'
    · rw [heq, Function.update_self]
    · rw [Function.update_of_ne heq, h]

omit [Zero α] in

/-- What is inserted is in. -/
lemma insertAll_of_mem (h : k ∈ ks) : insertAll t ks k = 1 := by
  induction ks generalizing t with
  | nil => nomatch h
  | cons k' ks ih =>
    cases List.mem_cons.mp h with
    | inl heq =>
      cases heq
      show insertAll (Function.update t k 1) ks k = 1
      exact insertAll_of_eq_one (Function.update_self k 1 t)
    | inr hmem => exact ih hmem

/-- A key that is added was absent at the start. -/
lemma Fresh.absent [NeZero (1 : α)] (h : Fresh t ks) (hk : k ∈ ks) : t k = 0 := by
  induction ks generalizing t with
  | nil => nomatch hk
  | cons k' ks ih =>
    by_cases heq : k = k'
    · exact heq ▸ h.1
    · have hmem : k ∈ ks := (List.mem_cons.mp hk).resolve_left heq
      rw [← Function.update_of_ne heq 1 t]
      exact ih h.2 hmem

/-- Fresh insertions are distinct. -/
lemma Fresh.nodup [NeZero (1 : α)] (h : Fresh t ks) : ks.Nodup := by
  induction ks generalizing t with
  | nil => exact List.nodup_nil
  | cons k ks ih =>
    refine List.nodup_cons.mpr ⟨fun hmem => ?_, ih h.2⟩
    have hzero := h.2.absent hmem
    rw [Function.update_self] at hzero
    exact one_ne_zero hzero

end InsertOnce
