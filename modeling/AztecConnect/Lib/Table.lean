import Mathlib.Data.List.Nodup
import Mathlib.Data.List.Sort

/-!
# Tables with a primary key

A table is a list of rows of which no two have the same key. Rows are saved, deleted and modified, so
that the keys stay apart.
-/

/-- Rows with different keys. -/
structure Table (α : Type) (key : α → Nat) where
  rows : List α
  nodup : (rows.map key).Nodup

namespace Table

variable {α : Type} {key : α → Nat}

/-- The empty table. -/
def empty : Table α key := ⟨[], List.nodup_nil⟩

/-- The row with a key. -/
def find? (t : Table α key) (k : Nat) : Option α := t.rows.find? fun x => key x = k

/-- The rows that satisfy a condition are deleted. -/
def delete (t : Table α key) (p : α → Bool) : Table α key where
  rows := t.rows.filter fun x => !p x
  nodup := t.nodup.sublist (List.Sublist.map key List.filter_sublist)

/-- A row is inserted, in place of the row with its key if there is one. -/
def save (t : Table α key) (x : α) : Table α key where
  rows := (t.delete fun y => key y = key x).rows ++ [x]
  nodup := by
    rw [List.map_append, List.nodup_append]
    refine ⟨(t.delete _).nodup, List.nodup_singleton _, fun k hk k' hk' => ?_⟩
    obtain ⟨y, hy, rfl⟩ := List.mem_map.mp hk
    rw [List.map_singleton, List.mem_singleton] at hk'
    have hne := (List.mem_filter.mp hy).2
    rw [hk']
    simpa using hne

/-- Saves one row after the other. -/
def saveAll (t : Table α key) (xs : List α) : Table α key := xs.foldl save t

/-- All rows are changed, but not their keys. -/
def modify (t : Table α key) (f : α → α) (h : ∀ x, key (f x) = key x := by intro x; split <;> rfl) :
    Table α key where
  rows := t.rows.map f
  nodup := by
    rw [List.map_map, show key ∘ f = key from funext h]
    exact t.nodup

variable {t : Table α key}

/-- A row is found by its key. -/
lemma find?_key {x : α} (hx : x ∈ t.rows) : t.find? (key x) = some x := by
  obtain ⟨rows, hnodup⟩ := t
  induction rows with
  | nil => nomatch hx
  | cons y ys ih =>
    obtain ⟨hy, hys⟩ := List.nodup_cons.mp hnodup
    cases List.mem_cons.mp hx with
    | inl heq =>
      cases heq
      exact List.find?_cons_of_pos (decide_eq_true rfl)
    | inr hmem =>
      have hne : ¬ key y = key x := fun heq => hy (heq ▸ List.mem_map_of_mem hmem)
      exact (List.find?_cons_of_neg (by simpa using hne)).trans (ih hys hmem)

/-- What is found is a row of that key. -/
lemma find?_some {k : Nat} {x : α} (h : t.find? k = some x) : x ∈ t.rows ∧ key x = k := by
  have hkey := List.find?_some (p := fun x => decide (key x = k)) h
  exact ⟨List.mem_of_find?_eq_some h, of_decide_eq_true hkey⟩

/-- If nothing is found no row has the key. -/
lemma find?_none {k : Nat} (h : t.find? k = none) {x : α} (hx : x ∈ t.rows) : key x ≠ k :=
  fun hkey => List.find?_eq_none.mp h x hx (decide_eq_true hkey)

/-- The rows that satisfy a condition, in the order of their keys. -/
def sorted (t : Table α key) (p : α → Bool) : List α :=
  (t.rows.filter p).mergeSort fun x y => key x ≤ key y

lemma filter_le_range (a n : Nat) : (List.range n).filter (a ≤ ·) = List.range' a (n - a) := by
  refine List.Perm.eq_of_pairwise' (r := (· ≤ ·)) ?_ ?_ ?_
  · exact (List.pairwise_le_range).filter _
  · exact List.pairwise_le_range'
  · refine (List.perm_ext_iff_of_nodup (List.nodup_range.filter _) (List.nodup_range' 1)).mpr
      fun i => ?_
    simp only [List.mem_filter, List.mem_range, List.mem_range'_1, decide_eq_true_eq]
    omega

/-- If the rows that satisfy a condition are numbered from zero, those from a number on come in the
order of the numbers. -/
lemma sorted_eq {p : α → Bool} {n : Nat} (h : ((t.rows.filter p).map key).Perm (List.range n))
    (a : Nat) :
    (t.sorted fun x => p x && decide (a ≤ key x)) = (List.range' a (n - a)).filterMap t.find? := by
  have hkeys : (t.sorted fun x => p x && decide (a ≤ key x)).map key = List.range' a (n - a) := by
    refine List.Perm.eq_of_pairwise' (r := (· ≤ ·)) ?_ ?_ ?_
    · rw [List.pairwise_map]
      refine (List.pairwise_mergeSort ?_ ?_ _).imp fun hle => by simpa using hle
      · intro x y z hxy hyz
        simp only [decide_eq_true_eq] at hxy hyz ⊢
        exact Nat.le_trans hxy hyz
      · intro x y
        simpa using Nat.le_total (key x) (key y)
    · exact List.pairwise_le_range'
    · rw [← filter_le_range]
      refine ((List.mergeSort_perm _ _).map key).trans ?_
      have hfilter : t.rows.filter (fun x => p x && decide (a ≤ key x)) =
          (t.rows.filter p).filter fun x => a ≤ key x := by
        rw [List.filter_filter]
        exact List.filter_congr fun x _ => Bool.and_comm _ _
      rw [hfilter, show (fun x => decide (a ≤ key x)) = (fun k => decide (a ≤ k)) ∘ key from rfl,
        ← List.filter_map]
      exact h.filter _
  have hfind : ∀ xs : List α, (∀ x ∈ xs, x ∈ t.rows) → (xs.map key).filterMap t.find? = xs := by
    intro xs
    induction xs with
    | nil => exact fun _ => rfl
    | cons x xs ih =>
      intro hmem
      rw [List.map_cons, List.filterMap_cons_some (find?_key (hmem x List.mem_cons_self)),
        ih fun y hy => hmem y (List.mem_cons_of_mem _ hy)]
  rw [← hkeys]
  refine (hfind _ fun x hx => ?_).symm
  exact (List.mem_filter.mp ((List.mergeSort_perm _ _).mem_iff.mp hx)).1

end Table
