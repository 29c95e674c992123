import Mathlib.Data.List.Infix
import Mathlib.Data.List.Range

/-!
# Catching up with an append-only history

A history is a list of entries for every height, and `between` are its entries from one height up to,
but not including, another. A reader that holds the entries up to some height resumes behind the last
entry it holds (`between_resume`); what it has read of a range that it held in part is the longer of the
two (`between_max`).
-/

namespace CatchUp

variable {α : Type} {history : Nat → List α} {height : α → Nat} {a b c n m : Nat} {x : α}

/-- The entries from height `a` up to `b`. -/
def between (history : Nat → List α) (a b : Nat) : List α := (List.range' a (b - a)).flatMap history

/-- Every entry carries its height. -/
def Numbered (history : Nat → List α) (height : α → Nat) : Prop := ∀ k, ∀ x ∈ history k, height x = k

/-- Nothing lies between a height and itself. -/
@[simp] lemma between_self : between history a a = [] := by rw [between, Nat.sub_self]; rfl

/-- Nor before it. -/
lemma between_of_le (h : b ≤ a) : between history a b = [] := by
  rw [between, Nat.sub_eq_zero_of_le h]
  rfl

/-- Two ranges that meet are one. -/
lemma between_append (hab : a ≤ b) (hbc : b ≤ c) :
    between history a b ++ between history b c = between history a c := by
  have hsplit : c - a = (b - a) + (c - b) := by omega
  rw [between, between, between, hsplit, ← List.range'_append_1, List.flatMap_append,
    Nat.add_sub_cancel' hab]

/-- One more height adds its items. -/
lemma between_succ (h : a ≤ b) : between history a (b + 1) = between history a b ++ history b := by
  have hone : between history b (b + 1) = history b := by
    rw [between, Nat.add_sub_cancel_left, List.range'_one, List.flatMap_singleton]
  rw [← between_append h b.le_succ, hone]

/-- A longer range starts with the shorter one. -/
lemma between_isPrefix (h : b ≤ c) : between history a b <+: between history a c := by
  rcases Nat.le_total a b with hab | hba
  · exact ⟨_, between_append hab h⟩
  · rw [between_of_le hba]
    exact List.nil_prefix

/-- An item is in the range if its height is. -/
lemma mem_between (hnum : Numbered history height) :
    x ∈ between history a b ↔ a ≤ height x ∧ height x < b ∧ x ∈ history (height x) := by
  simp only [between, List.mem_flatMap, List.mem_range'_1]
  constructor
  · rintro ⟨k, hk, hx⟩
    rw [hnum k x hx]
    exact ⟨hk.1, by omega, hx⟩
  · rintro ⟨ha, hb, hx⟩
    exact ⟨_, ⟨ha, by omega⟩, hx⟩

/-- Items may be selected height by height. -/
lemma filter_between (p : α → Bool) :
    (between history a b).filter p = between (fun k => (history k).filter p) a b := by
  rw [between, between, List.filter_flatMap]

/-- Behind an entry of the greatest height nothing is missing. -/
lemma between_resume (hnum : Numbered history height) (hx : x ∈ between history a n)
    (hlast : ∀ y ∈ between history a n, height y ≤ height x) :
    between history a (height x + 1) = between history a n := by
  obtain ⟨ha, hn, -⟩ := (mem_between hnum).mp hx
  have hrest : between history (height x + 1) n = [] := by
    refine List.eq_nil_iff_forall_not_mem.mpr fun y hy => ?_
    obtain ⟨hy₁, hy₂, hy₃⟩ := (mem_between hnum).mp hy
    have hle := hlast y ((mem_between hnum).mpr ⟨by omega, hy₂, hy₃⟩)
    omega
  rw [← between_append (show a ≤ height x + 1 by omega) (show height x + 1 ≤ n by omega), hrest,
    List.append_nil]

/-- What is held, with what was read of a range, reaches to the end of the longer of the two. -/
lemma between_max {held read : List α} (hheld : held = between history a n)
    (hread : held ++ read = between history a m) : held ++ read = between history a (max n m) := by
  rcases Nat.le_total n m with hnm | hmn
  · rw [Nat.max_eq_right hnm, hread]
  · rw [Nat.max_eq_left hmn]
    have hle : (between history a m).length ≤ (between history a n).length :=
      (between_isPrefix hmn).length_le
    rw [← hread, ← hheld, List.length_append] at hle
    rw [List.eq_nil_of_length_eq_zero (show read.length = 0 by omega), List.append_nil, hheld]

end CatchUp
