import Mathlib.Data.List.Nodup
import Mathlib.Data.List.Induction

/-!
# Grouping by keys

A map in the order in which the keys have been inserted, and the groups of a list that are collected in
it: an item that stands alone replaces what is at its key, every other is added to it. The groups
partition the list, with what stands alone in groups of its own, exactly if no item that stands alone has
the key of another (`partition_iff`).
-/

/-- Entries with different keys. -/
structure InsertionMap (κ β : Type) where
  entries : List (κ × β)
  nodup : (entries.map Prod.fst).Nodup

namespace InsertionMap

variable {κ β : Type} [DecidableEq κ]

/-- The empty map. -/
def empty : InsertionMap κ β := ⟨[], List.nodup_nil⟩

/-- The keys, in the order of their first insertion. -/
def keys (m : InsertionMap κ β) : List κ := m.entries.map Prod.fst

/-- The values, in the same order. -/
def values (m : InsertionMap κ β) : List β := m.entries.map Prod.snd

/-- The entries after a value is set: at the place of its key, or at the end. -/
def setEntries (k : κ) (v : β) : List (κ × β) → List (κ × β)
  | [] => [(k, v)]
  | (k', v') :: entries => if k' = k then (k, v) :: entries else (k', v') :: setEntries k v entries

variable {k : κ} {v : β} {entries : List (κ × β)} {m : InsertionMap κ β}

/-- A new key is appended. -/
lemma setEntries_of_notMem (h : k ∉ entries.map Prod.fst) :
    setEntries k v entries = entries ++ [(k, v)] := by
  induction entries with
  | nil => rfl
  | cons entry entries ih =>
    rw [List.map_cons, List.mem_cons, not_or] at h
    rw [setEntries, if_neg (Ne.symm h.1), ih h.2, List.cons_append]

/-- An old one keeps its place. -/
lemma setEntries_of_mem (h : k ∈ entries.map Prod.fst) : ∃ v' l r, entries = l ++ (k, v') :: r ∧
    k ∉ l.map Prod.fst ∧ ∀ v, setEntries k v entries = l ++ (k, v) :: r := by
  induction entries with
  | nil => nomatch h
  | cons entry entries ih =>
    obtain ⟨k', v'⟩ := entry
    by_cases hk : k' = k
    · subst hk
      exact ⟨v', [], entries, rfl, List.not_mem_nil, fun v => if_pos rfl⟩
    · obtain ⟨w, l, r, hentries, hl, hset⟩ := ih ((List.mem_cons.mp h).resolve_left (Ne.symm hk))
      refine ⟨w, (k', v') :: l, r, by rw [hentries, List.cons_append], ?_, fun v => ?_⟩
      · rw [List.map_cons, List.mem_cons, not_or]
        exact ⟨Ne.symm hk, hl⟩
      · rw [setEntries, if_neg hk, hset, List.cons_append]

/-- Sets the value of a key. -/
def set (m : InsertionMap κ β) (k : κ) (v : β) : InsertionMap κ β where
  entries := setEntries k v m.entries
  nodup := by
    by_cases h : k ∈ m.entries.map Prod.fst
    · obtain ⟨v', l, r, hentries, -, hset⟩ := setEntries_of_mem h
      have hnodup := m.nodup
      rw [hentries] at hnodup
      rw [hset]
      simpa only [List.map_append, List.map_cons] using hnodup
    · rw [setEntries_of_notMem h, List.map_append]
      refine List.nodup_append.mpr ⟨m.nodup, List.nodup_singleton k, fun k' hk' k'' hk'' heq => ?_⟩
      rw [heq, List.mem_singleton.mp hk''] at hk'
      exact h hk'

/-- The value of a key. -/
def get? (m : InsertionMap κ β) (k : κ) : Option β :=
  (m.entries.find? fun entry => entry.1 == k).map Prod.snd

/-- A key that is not there has none. -/
lemma get?_of_notMem (h : k ∉ m.keys) : m.get? k = none := by
  have hnone : m.entries.find? (fun entry => entry.1 == k) = none := by
    rw [List.find?_eq_none]
    intro entry hentry heq
    exact h (beq_iff_eq.mp heq ▸ List.mem_map_of_mem hentry)
  rw [get?, hnone, Option.map_none]

/-- What `set` does at a key that is absent. -/
lemma set_of_notMem (h : k ∉ m.keys) : (m.set k v).entries = m.entries ++ [(k, v)] :=
  setEntries_of_notMem h

/-- What `set` does at a key that is present. -/
lemma set_of_mem (h : k ∈ m.keys) : ∃ v' l r, m.entries = l ++ (k, v') :: r ∧ m.get? k = some v' ∧
    ∀ v, (m.set k v).entries = l ++ (k, v) :: r := by
  obtain ⟨v', l, r, hentries, hl, hset⟩ := setEntries_of_mem h
  refine ⟨v', l, r, hentries, ?_, hset⟩
  have hnone : l.find? (fun entry => entry.1 == k) = none := by
    rw [List.find?_eq_none]
    intro entry hentry heq
    exact hl (beq_iff_eq.mp heq ▸ List.mem_map_of_mem hentry)
  rw [get?, hentries, List.find?_append, hnone, Option.none_or, List.find?_cons, beq_self_eq_true]
  rfl

end InsertionMap

/-! ## Groups -/

namespace Grouping

variable {κ α : Type} [DecidableEq κ] (key : α → κ) (alone : α → Prop) [DecidablePred alone]

/-- Adds an element to the group of its key; one that stays alone replaces the group. -/
def insert (m : InsertionMap κ (List α)) (a : α) : InsertionMap κ (List α) :=
  if alone a then m.set (key a) [a] else m.set (key a) ((m.get? (key a)).getD [] ++ [a])

/-- All elements, grouped. -/
def collect (xs : List α) : InsertionMap κ (List α) := xs.foldl (insert key alone) .empty

/-- The groups. -/
def groups (xs : List α) : List (List α) := (collect key alone xs).values

/-- Two items that belong together: neither stands alone, and they have one key. -/
def Together (a b : α) : Prop := key a = key b ∧ ¬ alone a ∧ ¬ alone b

/-- Every item is in one group, and two are in the same group if they belong together, and only then. -/
structure Partition (R : α → α → Prop) (gs : List (List α)) (xs : List α) : Prop where
  perm : gs.flatten.Perm xs
  ne_nil : ∀ g ∈ gs, g ≠ []
  together : ∀ g ∈ gs, g.Pairwise R
  apart : gs.Pairwise fun g h => ∀ a ∈ g, ∀ b ∈ h, ¬ R a b

/-- What stands alone has the key of no other item. -/
def Apart (xs : List α) : Prop := xs.Pairwise fun a b => key a = key b → ¬ alone a ∧ ¬ alone b

variable {key alone} {xs : List α}

/-- The last element is inserted last. -/
lemma collect_append (xs : List α) (a : α) :
    collect key alone (xs ++ [a]) = insert key alone (collect key alone xs) a := by
  rw [collect, List.foldl_append]
  rfl

/-! ### One item -/

variable (alone) in
/-- An item starts a group, replaces one, or is added to one. -/
lemma insert_cases (m : InsertionMap κ (List α)) (a : α) :
    (key a ∉ m.keys ∧ (insert key alone m a).entries = m.entries ++ [(key a, [a])]) ∨
    ∃ l g r, m.entries = l ++ (key a, g) :: r ∧
      ((alone a ∧ (insert key alone m a).entries = l ++ (key a, [a]) :: r) ∨
        ¬ alone a ∧ (insert key alone m a).entries = l ++ (key a, g ++ [a]) :: r) := by
  by_cases hmem : key a ∈ m.keys
  · obtain ⟨g, l, r, hentries, hget, hset⟩ := InsertionMap.set_of_mem hmem
    refine .inr ⟨l, g, r, hentries, ?_⟩
    by_cases halone : alone a
    · rw [insert, if_pos halone]
      exact .inl ⟨halone, hset _⟩
    · rw [insert, if_neg halone, hget]
      exact .inr ⟨halone, hset _⟩
  · refine .inl ⟨hmem, ?_⟩
    by_cases halone : alone a
    · rw [insert, if_pos halone]
      exact InsertionMap.set_of_notMem hmem
    · rw [insert, if_neg halone, InsertionMap.get?_of_notMem hmem]
      exact InsertionMap.set_of_notMem hmem

variable (key) in
/-- The map has the keys of the items, and groups that are not empty; if no item has been lost, every
group has the items of its key. -/
structure Faithful (m : InsertionMap κ (List α)) (xs : List α) : Prop where
  keys : ∀ k, k ∈ m.keys ↔ ∃ a ∈ xs, key a = k
  ne_nil : ∀ entry ∈ m.entries, entry.2 ≠ []
  length_le : m.values.flatten.length ≤ xs.length
  complete : m.values.flatten.length = xs.length → m.values.flatten.Perm xs ∧
    ∀ entry ∈ m.entries, entry.2 = xs.filter fun a => key a = entry.1

section Step

variable {m m' : InsertionMap κ (List α)} {a : α} {l r : List (κ × List α)} {g g' : List α}

/-- A new group has the new element. -/
lemma Faithful.started (h : Faithful key m xs) (hnew : key a ∉ m.keys)
    (h' : m'.entries = m.entries ++ [(key a, [a])]) : Faithful key m' (xs ++ [a]) := by
  have hvalues : m'.values.flatten = m.values.flatten ++ [a] := by
    rw [InsertionMap.values, h', List.map_append, List.flatten_append]
    rfl
  have hkeys : m'.keys = m.keys ++ [key a] := by
    rw [InsertionMap.keys, h', List.map_append]
    rfl
  have hnone : ∀ x ∈ xs, key x ≠ key a := fun x hx heq => hnew ((h.keys _).mpr ⟨x, hx, heq⟩)
  refine ⟨fun k => ?_, ?_, ?_, fun hlength => ?_⟩
  · rw [hkeys, List.mem_append, h.keys, List.mem_singleton]
    constructor
    · rintro (⟨x, hx, rfl⟩ | rfl)
      · exact ⟨x, List.mem_append_left _ hx, rfl⟩
      · exact ⟨a, List.mem_append_right _ List.mem_cons_self, rfl⟩
    · rintro ⟨x, hx, rfl⟩
      rcases List.mem_append.mp hx with hx | hx
      · exact .inl ⟨x, hx, rfl⟩
      · exact .inr (congrArg key (List.mem_singleton.mp hx))
  · rw [h']
    exact List.forall_mem_append.mpr ⟨h.ne_nil, List.forall_mem_singleton.mpr (List.cons_ne_nil _ _)⟩
  · rw [hvalues, List.length_append, List.length_append]
    exact Nat.add_le_add_right h.length_le _
  · rw [hvalues, List.length_append, List.length_append, Nat.add_right_cancel_iff] at hlength
    obtain ⟨hperm, hfilter⟩ := h.complete hlength
    rw [hvalues, h']
    refine ⟨hperm.append_right [a], List.forall_mem_append.mpr ⟨fun entry hentry => ?_, ?_⟩⟩
    · have hne : key a ≠ entry.1 := fun heq => hnew (heq ▸ List.mem_map_of_mem hentry)
      rw [hfilter entry hentry, List.filter_append, List.filter_singleton, decide_eq_false hne,
        cond_false, List.append_nil]
    · rw [List.forall_mem_singleton, List.filter_append, List.filter_singleton, decide_eq_true rfl,
        cond_true, List.filter_eq_nil_iff.mpr fun x hx => by simpa using hnone x hx, List.nil_append]

omit [DecidableEq κ] in
/-- An entry is changed in its place. -/
lemma keys_changed (h : m.entries = l ++ (key a, g) :: r) (h' : m'.entries = l ++ (key a, g') :: r) :
    m'.keys = m.keys := by
  rw [InsertionMap.keys, InsertionMap.keys, h, h']
  simp only [List.map_append, List.map_cons]

/-- The keys are those of the elements. -/
lemma mem_keys_append (h : Faithful key m xs) (hmem : key a ∈ m.keys) (k : κ) :
    k ∈ m.keys ↔ ∃ x ∈ xs ++ [a], key x = k := by
  rw [h.keys]
  constructor
  · rintro ⟨x, hx, rfl⟩
    exact ⟨x, List.mem_append_left _ hx, rfl⟩
  · rintro ⟨x, hx, rfl⟩
    rcases List.mem_append.mp hx with hx | hx
    · exact ⟨x, hx, rfl⟩
    · rw [List.mem_singleton.mp hx]
      exact (h.keys _).mp hmem

omit [DecidableEq κ] in

/-- A group in its place. -/
lemma flatten_entries (h : m.entries = l ++ (key a, g) :: r) :
    m.values.flatten = (l.map Prod.snd).flatten ++ (g ++ (r.map Prod.snd).flatten) := by
  rw [InsertionMap.values, h, List.map_append, List.flatten_append, List.map_cons, List.flatten_cons]

/-- An item is lost. -/
lemma Faithful.replaced (h : Faithful key m xs) (hentries : m.entries = l ++ (key a, g) :: r)
    (h' : m'.entries = l ++ (key a, [a]) :: r) : Faithful key m' (xs ++ [a]) := by
  have hmem : (key a, g) ∈ m.entries := by
    rw [hentries]
    exact List.mem_append_right _ List.mem_cons_self
  have hg : 0 < g.length := List.length_pos_iff.mpr (h.ne_nil _ hmem)
  have hle := h.length_le
  rw [flatten_entries hentries, List.length_append, List.length_append] at hle
  have hlt : m'.values.flatten.length < (xs ++ [a]).length := by
    rw [flatten_entries h', List.length_append, List.length_append, List.length_append,
      List.length_singleton]
    omega
  refine ⟨fun k => ?_, ?_, Nat.le_of_lt hlt, fun hlength => absurd hlength (Nat.ne_of_lt hlt)⟩
  · rw [keys_changed hentries h']
    exact mem_keys_append h (List.mem_map_of_mem hmem) k
  · rw [h']
    have hold := h.ne_nil
    rw [hentries, List.forall_mem_append, List.forall_mem_cons] at hold
    exact List.forall_mem_append.mpr
      ⟨hold.1, List.forall_mem_cons.mpr ⟨List.cons_ne_nil _ _, hold.2.2⟩⟩

/-- An element that joins its group keeps the groups faithful. -/
lemma Faithful.added (h : Faithful key m xs) (hentries : m.entries = l ++ (key a, g) :: r)
    (h' : m'.entries = l ++ (key a, g ++ [a]) :: r) : Faithful key m' (xs ++ [a]) := by
  have hmem : (key a, g) ∈ m.entries := by
    rw [hentries]
    exact List.mem_append_right _ List.mem_cons_self
  have hperm : m'.values.flatten.Perm (m.values.flatten ++ [a]) := by
    rw [flatten_entries h', flatten_entries hentries, List.append_assoc, List.append_assoc,
      List.append_assoc]
    exact (List.Perm.append_left g List.perm_append_comm).append_left _
  refine ⟨fun k => ?_, ?_, ?_, fun hlength => ?_⟩
  · rw [keys_changed hentries h']
    exact mem_keys_append h (List.mem_map_of_mem hmem) k
  · rw [h']
    have hold := h.ne_nil
    rw [hentries, List.forall_mem_append, List.forall_mem_cons] at hold
    exact List.forall_mem_append.mpr ⟨hold.1, List.forall_mem_cons.mpr
      ⟨List.append_ne_nil_of_right_ne_nil _ (List.cons_ne_nil _ _), hold.2.2⟩⟩
  · rw [hperm.length_eq, List.length_append, List.length_append]
    exact Nat.add_le_add_right h.length_le _
  · rw [hperm.length_eq, List.length_append, List.length_append, Nat.add_right_cancel_iff] at hlength
    obtain ⟨hold, hfilter⟩ := h.complete hlength
    have hnodup := m.nodup
    rw [hentries, List.map_append, List.map_cons, List.nodup_middle, List.nodup_cons,
      ← List.map_append] at hnodup
    refine ⟨hperm.trans (hold.append_right [a]), fun entry hentry => ?_⟩
    rw [List.filter_append, List.filter_singleton]
    rw [h'] at hentry
    by_cases hkey : entry = (key a, g ++ [a])
    · rw [hkey, decide_eq_true rfl, cond_true, ← hfilter _ hmem]
    · -- an entry of another key
      have hother : entry ∈ l ++ r := by
        rcases List.mem_append.mp hentry with hl | hr
        · exact List.mem_append_left _ hl
        · exact List.mem_append_right _ ((List.mem_cons.mp hr).resolve_left hkey)
      have hkeys : key a ∉ (l ++ r).map Prod.fst := hnodup.1
      have hne : key a ≠ entry.1 := by
        intro heq
        rw [heq] at hkeys
        exact hkeys (List.mem_map_of_mem hother)
      rw [decide_eq_false hne, cond_false, List.append_nil]
      apply hfilter
      rw [hentries]
      rcases List.mem_append.mp hother with hl | hr
      · exact List.mem_append_left _ hl
      · exact List.mem_append_right _ (List.mem_cons_of_mem _ hr)

end Step

/-- Every insertion keeps the groups faithful. -/
lemma Faithful.insert {m : InsertionMap κ (List α)} (h : Faithful key m xs) (a : α) :
    Faithful key (insert key alone m a) (xs ++ [a]) := by
  obtain ⟨hnew, h'⟩ | ⟨l, g, r, hentries, ⟨-, h'⟩ | ⟨-, h'⟩⟩ := insert_cases alone m a
  · exact h.started hnew h'
  · exact h.replaced hentries h'
  · exact h.added hentries h'

/-- Grouping a list is faithful to it. -/
lemma faithful (xs : List α) : Faithful key (collect key alone xs) xs := by
  induction xs using List.reverseRecOn with
  | nil =>
    refine ⟨fun k => ?_, List.forall_mem_nil _, Nat.le_refl _, fun _ => ?_⟩
    · constructor
      · exact fun h => nomatch h
      · rintro ⟨a, ha, -⟩
        nomatch ha
    · exact ⟨List.Perm.refl _, List.forall_mem_nil _⟩
  | append_singleton xs a ih =>
    rw [collect_append]
    exact ih.insert a

/-! ### Partitions -/

/-- Nothing is lost, if what stands alone has the key of no other. -/
lemma length_of_apart (h : Apart key alone xs) :
    (collect key alone xs).values.flatten.length = xs.length := by
  induction xs using List.reverseRecOn with
  | nil => rfl
  | append_singleton xs a ih =>
    obtain ⟨hxs, -, ha⟩ := List.pairwise_append.mp h
    rw [collect_append, List.length_append, List.length_singleton, ← ih hxs]
    obtain ⟨-, h'⟩ | ⟨l, g, r, hentries, ⟨halone, -⟩ | ⟨-, h'⟩⟩ :=
      insert_cases alone (collect key alone xs) a
    · rw [InsertionMap.values, h', List.map_append, List.flatten_append, List.length_append]
      rfl
    · -- there is an item of its key
      have hmem : key a ∈ (collect key alone xs).keys := by
        rw [InsertionMap.keys, hentries, List.map_append]
        exact List.mem_append_right _ List.mem_cons_self
      obtain ⟨x, hx, heq⟩ := ((faithful xs).keys _).mp hmem
      exact absurd halone (ha x hx a List.mem_cons_self heq).2
    · rw [flatten_entries h', flatten_entries hentries]
      simp only [List.length_append, List.length_singleton]
      omega

/-- The groups partition the items exactly if what stands alone has the key of no other. -/
theorem partition_iff (xs : List α) :
    Partition (Together key alone) (groups key alone xs) xs ↔ Apart key alone xs := by
  have hfaithful : Faithful key (collect key alone xs) xs := faithful xs
  constructor
  · -- the groups of the keys, in each of which the items are together
    intro h
    obtain ⟨-, hfilter⟩ := hfaithful.complete h.perm.length_eq
    rw [Apart, List.pairwise_iff_getElem]
    intro i j hi hj hij heq
    obtain ⟨entry, hentry, hkey⟩ := List.mem_map.mp
      ((hfaithful.keys (key xs[i])).mpr ⟨xs[i], List.getElem_mem hi, rfl⟩)
    have htogether := h.together _ (List.mem_map_of_mem hentry)
    rw [hfilter entry hentry, List.pairwise_filter, List.pairwise_iff_getElem] at htogether
    exact (htogether i j hi hj hij (decide_eq_true hkey.symm) (decide_eq_true (heq ▸ hkey.symm))).2
  · intro h
    obtain ⟨hperm, hfilter⟩ := hfaithful.complete (length_of_apart h)
    refine ⟨hperm, ?_, ?_, ?_⟩
    · intro g hg
      obtain ⟨entry, hentry, rfl⟩ := List.mem_map.mp hg
      exact hfaithful.ne_nil entry hentry
    · intro g hg
      obtain ⟨entry, hentry, rfl⟩ := List.mem_map.mp hg
      rw [hfilter entry hentry, List.pairwise_filter]
      refine h.imp fun hab ha hb => ?_
      have heq := (of_decide_eq_true ha).trans (of_decide_eq_true hb).symm
      exact ⟨heq, hab heq⟩
    · -- different groups have different keys
      have hnodup := (collect key alone xs).nodup
      rw [List.Nodup, List.pairwise_map] at hnodup
      rw [groups, InsertionMap.values, List.pairwise_map]
      refine hnodup.imp_of_mem fun {entry entry'} hentry hentry' hne a ha b hb htogether => hne ?_
      rw [hfilter entry hentry, List.mem_filter] at ha
      rw [hfilter entry' hentry', List.mem_filter] at hb
      rw [← of_decide_eq_true ha.2, ← of_decide_eq_true hb.2]
      exact htogether.1

/-- What belongs to nothing has a group of its own. -/
lemma Partition.singleton_mem {R : α → α → Prop} {gs : List (List α)}
    (h : Partition R gs xs) {a : α} (ha : a ∈ xs)
    (halone : ∀ b, ¬ R a b ∧ ¬ R b a) : [a] ∈ gs := by
  obtain ⟨g, hg, hag⟩ := List.mem_flatten.mp (h.perm.mem_iff.mpr ha)
  obtain ⟨l, r, rfl⟩ := List.append_of_mem hag
  obtain ⟨-, hr, hl⟩ := List.pairwise_append.mp (h.together _ hg)
  cases l with
  | cons x l => exact absurd (hl x List.mem_cons_self a List.mem_cons_self) (halone x).2
  | nil =>
    cases r with
    | nil => exact hg
    | cons x r => exact absurd ((List.pairwise_cons.mp hr).1 x List.mem_cons_self) (halone x).1

end Grouping
