import Mathlib.Data.List.FinRange

/-!
# Histories

A history is a list of events, the earliest first. `Sequentially R` says that every event is in the
relation `R` with the list of the events before it.
-/

namespace History

variable {α : Type} {R : List α → α → Prop} {past l l' : List α} {x : α} {n : Nat}

/-- Each event is in the relation with those before it, all of them after a given past. -/
def Sequentially (R : List α → α → Prop) : List α → List α → Prop
  | _, [] => True
  | past, x :: l => R past x ∧ Sequentially R (past ++ [x]) l

/-- A relation along a list, in two parts. -/
lemma sequentially_append : Sequentially R past (l ++ l') ↔
    Sequentially R past l ∧ Sequentially R (past ++ l) l' := by
  induction l generalizing past with
  | nil =>
    rw [List.append_nil]
    exact ⟨fun h => ⟨trivial, h⟩, And.right⟩
  | cons x l ih =>
    show _ ∧ Sequentially R _ (l ++ l') ↔ (_ ∧ Sequentially R _ l) ∧ _
    rw [ih, and_assoc, List.append_assoc, List.singleton_append]

/-- Along a single element. -/
lemma sequentially_singleton : Sequentially R past [x] ↔ R past x :=
  ⟨And.left, fun h => ⟨h, trivial⟩⟩

/-- The events of a loop. -/
lemma sequentially_finRange {f : Fin n → α}
    (h : ∀ i : Fin n, R (past ++ ((List.finRange n).take i).map f) (f i)) :
    Sequentially R past ((List.finRange n).map f) := by
  have hinitial : ∀ k ≤ n, Sequentially R past (((List.finRange n).take k).map f) := by
    intro k
    induction k with
    | zero => exact fun _ => trivial
    | succ k ih =>
      intro hk
      rw [List.take_succ_eq_append_getElem (by rwa [List.length_finRange]), List.getElem_finRange,
        List.map_append, List.map_singleton, sequentially_append, sequentially_singleton]
      exact ⟨ih (Nat.le_of_succ_le hk), h ⟨k, hk⟩⟩
  have hall := hinitial n le_rfl
  rwa [List.take_of_length_le (by simp)] at hall

/-- And at one place of it. -/
lemma Sequentially.get (h : Sequentially R past l) (i : Fin l.length) :
    R (past ++ l.take i) (l.get i) := by
  induction l generalizing past with
  | nil => exact i.elim0
  | cons x l ih =>
    cases i using Fin.cases with
    | zero =>
      rw [show (x :: l).take (0 : Fin (l.length + 1)).val = [] from rfl, List.append_nil]
      exact h.1
    | succ i =>
      have htail := ih h.2 i
      rw [List.append_assoc, List.singleton_append] at htail
      exact htail

end History
