import Mathlib.Data.List.Nodup
import Mathlib.Data.List.Sort

/-!
# Arrays that are zero almost everywhere

The entries that are not zero, by increasing index. Two arrays with the same values are equal
(`SparseArray.ext`).
-/

/-- Entries that are not zero, by increasing index. -/
structure SparseArray where
  entries : List (Nat × Nat)
  sorted : entries.Pairwise fun a b => a.1 < b.1
  nonzero : ∀ e ∈ entries, e.2 ≠ 0

namespace SparseArray

instance : DecidableEq SparseArray := fun a b =>
  decidable_of_iff (a.entries = b.entries) ⟨fun h => by cases a; cases b; cases h; rfl, congrArg _⟩

/-- The array of zeros. -/
def empty : SparseArray := ⟨[], .nil, nofun⟩

/-- The value at an index, zero where no entry is kept. -/
def get (a : SparseArray) (i : Nat) : Nat := ((a.entries.find? (·.1 == i)).map Prod.snd).getD 0

/-- The entry of a value, if it is not zero. -/
def entry (i v : Nat) : List (Nat × Nat) := if v = 0 then [] else [(i, v)]

/-- Only a value other than zero has an entry. -/
lemma mem_entry {e : Nat × Nat} {i v : Nat} : e ∈ entry i v ↔ e = (i, v) ∧ v ≠ 0 := by
  unfold entry
  split
  case isTrue h => exact ⟨nofun, fun h' => absurd h h'.2⟩
  case isFalse h => exact ⟨fun he => ⟨List.mem_singleton.mp he, h⟩, fun he => List.mem_singleton.mpr he.1⟩

/-- Writes an index. The entries stay sorted and free of zeros. -/
def set (a : SparseArray) (i v : Nat) : SparseArray where
  entries := a.entries.filter (·.1 < i) ++ (entry i v ++ a.entries.filter (i < ·.1))
  sorted := by
    have hentry : (entry i v).Pairwise fun a b => a.1 < b.1 := by
      unfold entry
      split
      case isTrue => exact .nil
      case isFalse => exact List.pairwise_singleton _ _
    refine List.pairwise_append.mpr ⟨a.sorted.filter _, ?_, fun e he e' he' => ?_⟩
    · refine List.pairwise_append.mpr ⟨hentry, a.sorted.filter _, fun e he e' he' => ?_⟩
      obtain ⟨rfl, -⟩ := mem_entry.mp he
      exact of_decide_eq_true (List.mem_filter.mp he').2
    · have hlt : e.1 < i := of_decide_eq_true (List.mem_filter.mp he).2
      rcases List.mem_append.mp he' with hself | hlater
      · obtain ⟨rfl, -⟩ := mem_entry.mp hself
        exact hlt
      · exact hlt.trans (of_decide_eq_true (List.mem_filter.mp hlater).2)
  nonzero e he := by
    rcases List.mem_append.mp he with hbefore | hrest
    · exact a.nonzero e (List.mem_filter.mp hbefore).1
    · rcases List.mem_append.mp hrest with hself | hlater
      · obtain ⟨rfl, hv⟩ := mem_entry.mp hself
        exact hv
      · exact a.nonzero e (List.mem_filter.mp hlater).1

variable {a b : SparseArray} {i j v : Nat}

/-- All values of the empty array are zero. -/
@[simp] lemma get_empty (i : Nat) : empty.get i = 0 := rfl

/-- No two entries have the same index. -/
lemma eq_of_index {e e' : Nat × Nat} (h : e ∈ a.entries) (h' : e' ∈ a.entries) (hi : e.1 = e'.1) :
    e = e' := by
  have hnodup : (a.entries.map Prod.fst).Nodup := List.pairwise_map.mpr (a.sorted.imp Nat.ne_of_lt)
  exact List.inj_on_of_nodup_map hnodup h h' hi

/-- The entries are the values other than zero. -/
lemma mem_entries_iff : (i, v) ∈ a.entries ↔ a.get i = v ∧ v ≠ 0 := by
  unfold get
  cases hfind : a.entries.find? (·.1 == i) with
  | none =>
    refine ⟨fun h => ?_, fun h => absurd h.1.symm h.2⟩
    exact absurd (beq_self_eq_true i) (List.find?_eq_none.mp hfind _ h)
  | some e =>
    have hmem := List.mem_of_find?_eq_some hfind
    have hindex : e.1 = i := beq_iff_eq.mp (List.find?_some (p := fun e : Nat × Nat => e.1 == i) hfind)
    constructor
    case mp =>
      intro h
      exact ⟨congrArg Prod.snd (eq_of_index hmem h hindex), a.nonzero _ h⟩
    case mpr =>
      rintro ⟨rfl, -⟩
      exact hindex ▸ hmem

/-- Arrays with the same entry at an index have the same value there. -/
lemma get_congr (h : ∀ v, (i, v) ∈ a.entries ↔ (i, v) ∈ b.entries) : a.get i = b.get i := by
  by_cases hzero : a.get i = 0
  · by_contra hne
    exact hne ((mem_entries_iff.mp ((h (b.get i)).mpr (mem_entries_iff.mpr ⟨rfl, hzero ▸ Ne.symm hne⟩))).1)
  · exact ((mem_entries_iff.mp ((h (a.get i)).mp (mem_entries_iff.mpr ⟨rfl, hzero⟩))).1).symm

/-- An array is determined by its values. -/
lemma ext (h : ∀ i, a.get i = b.get i) : a = b := by
  have hmem (e : Nat × Nat) : e ∈ a.entries ↔ e ∈ b.entries :=
    mem_entries_iff.trans ((h e.1) ▸ mem_entries_iff.symm)
  have hentries : a.entries = b.entries := by
    refine List.Perm.eq_of_pairwise ?_ a.sorted b.sorted ?_
    · exact fun e e' _ _ hlt hgt => absurd hgt hlt.asymm
    · refine (List.perm_ext_iff_of_nodup (a.sorted.imp ?_) (b.sorted.imp ?_)).mpr hmem
      · exact fun hlt heq => hlt.ne (congrArg Prod.fst heq)
      · exact fun hlt heq => hlt.ne (congrArg Prod.fst heq)
  cases a
  cases b
  cases hentries
  rfl

/-- A write replaces the entry of its index. -/
lemma mem_set {e : Nat × Nat} :
    e ∈ (a.set i v).entries ↔ e = (i, v) ∧ v ≠ 0 ∨ e ∈ a.entries ∧ e.1 ≠ i := by
  unfold set
  simp only [List.mem_append, mem_entry, List.mem_filter, decide_eq_true_eq]
  have := Nat.lt_or_gt (a := e.1) (b := i)
  tauto

/-- What was written is read. -/
@[simp] lemma get_set_self (a : SparseArray) (i v : Nat) : (a.set i v).get i = v := by
  by_cases hv : v = 0
  · subst hv
    refine (get_congr (b := empty) fun w => ⟨fun h => ?_, nofun⟩).trans (get_empty i)
    rcases mem_set.mp h with h | h
    · exact absurd rfl h.2
    · exact absurd rfl h.2
  · exact (mem_entries_iff.mp (mem_set.mpr (.inl ⟨rfl, hv⟩))).1

/-- The other indices are unchanged. -/
lemma get_set_of_ne (a : SparseArray) (v : Nat) (h : j ≠ i) : (a.set i v).get j = a.get j := by
  refine get_congr fun w => mem_set.trans ⟨fun hmem => ?_, fun hmem => .inr ⟨hmem, h⟩⟩
  rcases hmem with hnew | hold
  · exact absurd (congrArg Prod.fst hnew.1) h
  · exact hold.1

end SparseArray
