import AztecConnect.Lib.HashTree
import Mathlib.Data.Nat.Init

/-!
# Trees that are stored by the hashes of their nodes

A map from the hash of a node to its two children, or to all the layers below it. A subtree without an
entry is empty. A change of some leaves writes the nodes above them, and deletes the ones that these
replace. Nothing else is lost, as long as what is deleted is nowhere else in the tree
(`stored_writeSpine`).
-/

open HashTree

namespace NodeStore

variable {α : Type} {compress : α → α → α}

/-- The layers of a subtree are stored at once. -/
def Blob (db : α → Option (List α)) (key : α) : Prop := ∃ data, db key = some data ∧ 2 < data.length

/-- The subtree of height `h` can be read. -/
def Stored (compress : α → α → α) (zero : α) (db : α → Option (List α)) (leaf : Nat → α) :
    Nat → Nat → Prop
  | 0, _ => True
  | h + 1, j =>
    db (node compress leaf (h + 1) j) = none ∧
      node compress leaf (h + 1) j = node compress (fun _ => zero) (h + 1) 0 ∨
    (db (node compress leaf (h + 1) j) =
        some [node compress leaf h (2 * j), node compress leaf h (2 * j + 1)] ∧
      Stored compress zero db leaf h (2 * j) ∧ Stored compress zero db leaf h (2 * j + 1)) ∨
    db (node compress leaf (h + 1) j) = some (below compress leaf (h + 1) j) ∧
      2 < (below compress leaf (h + 1) j).length

variable {zero : α} {db : α → Option (List α)} {leaf leaf' : Nat → α} {h j : Nat}

/-- Equal nodes are stored alike. -/
lemma Stored.of_eq (hinj : Function.Injective2 compress) {j' : Nat}
    (hstored : Stored compress zero db leaf h j)
    (heq : node compress leaf h j = node compress leaf' h j') : Stored compress zero db leaf' h j' := by
  induction h generalizing j j' with
  | zero => trivial
  | succ h ih =>
    obtain ⟨hleft, hright⟩ := node_children hinj heq
    rcases hstored with ⟨hnone, hzero⟩ | ⟨hpair, hl, hr⟩ | ⟨hblob, hlen⟩
    · exact .inl ⟨heq ▸ hnone, heq ▸ hzero⟩
    · refine .inr (.inl ⟨?_, ih hl hleft, ih hr hright⟩)
      rw [← heq, hpair, hleft, hright]
    · refine .inr (.inr ?_)
      rw [← below_eq hinj heq, ← heq]
      exact ⟨hblob, hlen⟩

/-- The empty tree can be read whatever is stored of it. -/
def ZeroStored (compress : α → α → α) (zero : α) (db : α → Option (List α)) : Prop :=
  ∀ h, Stored compress zero db (fun _ => zero) h 0

/-- What is below a node that is no blob can be read. -/
lemma Stored.children (hinj : Function.Injective2 compress) (hzeros : ZeroStored compress zero db)
    (hstored : Stored compress zero db leaf (h + 1) j)
    (hblob : ¬ Blob db (node compress leaf (h + 1) j)) :
    Stored compress zero db leaf h (2 * j) ∧ Stored compress zero db leaf h (2 * j + 1) := by
  rcases hstored with ⟨-, hzero⟩ | ⟨-, hchildren⟩ | ⟨hdata, hlen⟩
  · obtain ⟨hleft, hright⟩ := node_children hinj hzero
    rw [node_const] at hleft hright
    exact ⟨(hzeros h).of_eq hinj hleft.symm, (hzeros h).of_eq hinj hright.symm⟩
  · exact hchildren
  · exact absurd ⟨_, hdata, hlen⟩ hblob

/-- What the layers of a subtree are read as. -/
lemma stored_of_below (hdata : db (node compress leaf (h + 1) j) = some (below compress leaf (h + 1) j)) :
    Stored compress zero db leaf (h + 1) j := by
  cases h with
  | zero => exact .inr (.inl ⟨hdata.trans (congrArg some (below_one leaf j)), trivial, trivial⟩)
  | succ h =>
    have hle := @length_below_le _ compress leaf (h + 1 + 1) j
    rw [Nat.pow_succ, Nat.pow_succ] at hle
    have hpos := Nat.two_pow_pos h
    exact .inr (.inr ⟨hdata, by omega⟩)

/-! ## Writes -/

/-- A write to the store. -/
inductive Write (α : Type) where
  | put (key : α) (data : List α)
  | del (key : α)

section Writes

variable [DecidableEq α]

/-- The store after a write. -/
def Write.apply (db : α → Option (List α)) : Write α → α → Option (List α)
  | put key data => Function.update db key (some data)
  | del key => Function.update db key none

/-- After a batch of writes. -/
def applyAll (db : α → Option (List α)) (writes : List (Write α)) : α → Option (List α) :=
  writes.foldl Write.apply db

/-- Batches one after the other. -/
lemma applyAll_append (db : α → Option (List α)) (ws ws' : List (Write α)) :
    applyAll db (ws ++ ws') = applyAll (applyAll db ws) ws' := List.foldl_append

end Writes

/-! ## The writes above a subtree -/

section Spine

variable [DecidableEq α] (compress) (f f' : Nat → α) (s q : Nat)

/-- The node of the path at a level above the subtree with index `q` at height `s`. -/
def onPath (f : Nat → α) (m : Nat) : α := node compress f (s + m) (q / 2 ^ m)

/-- The children of a node on the path. -/
def childrenOf (m : Nat) : List α :=
  [node compress f' (s + m) (2 * (q / 2 ^ (m + 1))), node compress f' (s + m) (2 * (q / 2 ^ (m + 1)) + 1)]

/-- The new node is written before the old one is deleted. -/
def writeLevel (m : Nat) : List (Write α) :=
  .put (onPath compress s q f' (m + 1)) (childrenOf compress f' s q m) ::
    if onPath compress s q f (m + 1) = onPath compress s q f' (m + 1) then []
    else [.del (onPath compress s q f (m + 1))]

/-- The writes for the path above the subtree. -/
def writeSpine : Nat → List (Write α)
  | 0 => []
  | n + 1 => writeSpine n ++ writeLevel compress f f' s q n

variable {compress f f' s q}

/-- A level of the path is written, and the old one deleted. -/
lemma apply_writeLevel (db : α → Option (List α)) (m : Nat) (key : α) :
    applyAll db (writeLevel compress f f' s q m) key =
      if key = onPath compress s q f' (m + 1) then some (childrenOf compress f' s q m)
      else if key = onPath compress s q f (m + 1) then none else db key := by
  have hput : Function.update db (onPath compress s q f' (m + 1))
      (some (childrenOf compress f' s q m)) key =
      if key = onPath compress s q f' (m + 1) then some (childrenOf compress f' s q m) else db key := by
    rw [Function.update_apply]
  unfold writeLevel
  by_cases hsame : onPath compress s q f (m + 1) = onPath compress s q f' (m + 1)
  · rw [if_pos hsame, hsame]
    refine hput.trans ?_
    split
    case isTrue => rfl
    case isFalse => rfl
  · rw [if_neg hsame]
    show Function.update (Function.update db _ _) _ none key = _
    rw [Function.update_apply, hput]
    by_cases hnew : key = onPath compress s q f' (m + 1)
    · rw [if_neg fun hold => hsame (hold.symm.trans hnew), if_pos hnew, if_pos hnew]
    · rw [if_neg hnew, if_neg hnew]

section Keys

variable (hinj : Function.Injective2 compress) {zero : α} (hf : Leaves compress zero f)
  (hf' : Leaves compress zero f')
include hinj hf hf'

/-- The keys at another height are others. -/
lemma apply_writeLevel_of_ne {h p m : Nat} (hne : h ≠ s + m + 1) (db : α → Option (List α)) :
    applyAll db (writeLevel compress f f' s q m) (node compress f h p) = db (node compress f h p) ∧
    applyAll db (writeLevel compress f f' s q m) (node compress f' h p) =
      db (node compress f' h p) := by
  have hkey {g g' : Nat → α} (hg : Leaves compress zero g) (hg' : Leaves compress zero g') :
      node compress g h p ≠ onPath compress s q g' (m + 1) :=
    fun heq => hne (height_eq hinj hg hg' heq)
  rw [apply_writeLevel, apply_writeLevel, if_neg (hkey hf hf'), if_neg (hkey hf hf),
    if_neg (hkey hf' hf'), if_neg (hkey hf' hf)]
  exact ⟨rfl, rfl⟩

/-- The new nodes are stored. -/
lemma apply_writeSpine_new {m n : Nat} (hm : m < n) (db : α → Option (List α)) :
    applyAll db (writeSpine compress f f' s q n) (onPath compress s q f' (m + 1)) =
      some (childrenOf compress f' s q m) := by
  induction n with
  | zero => nomatch hm
  | succ n ih =>
    rw [writeSpine, applyAll_append]
    rcases Nat.lt_succ_iff_lt_or_eq.mp hm with hlt | rfl
    · rw [onPath, (apply_writeLevel_of_ne hinj hf hf' (by omega) _).2]
      exact ih hlt
    · rw [apply_writeLevel, if_pos rfl]

/-- The nodes that are replaced are deleted. -/
lemma apply_writeSpine_old {m n : Nat} (hm : m < n) (db : α → Option (List α))
    (hne : onPath compress s q f (m + 1) ≠ onPath compress s q f' (m + 1)) :
    applyAll db (writeSpine compress f f' s q n) (onPath compress s q f (m + 1)) = none := by
  induction n with
  | zero => nomatch hm
  | succ n ih =>
    rw [writeSpine, applyAll_append]
    rcases Nat.lt_succ_iff_lt_or_eq.mp hm with hlt | rfl
    · rw [onPath, (apply_writeLevel_of_ne hinj hf hf' (by omega) _).1]
      exact ih hlt
    · rw [apply_writeLevel, if_neg hne, if_pos rfl]

end Keys

/-- All else stays. -/
lemma apply_writeSpine_of_ne {n : Nat} {key : α} (db : α → Option (List α))
    (hne : ∀ m < n, key ≠ onPath compress s q f (m + 1) ∧ key ≠ onPath compress s q f' (m + 1)) :
    applyAll db (writeSpine compress f f' s q n) key = db key := by
  induction n with
  | zero => rfl
  | succ n ih =>
    rw [writeSpine, applyAll_append, apply_writeLevel, if_neg (hne n (Nat.lt_succ_self n)).2,
      if_neg (hne n (Nat.lt_succ_self n)).1]
    exact ih fun m hm => hne m (Nat.lt_succ_of_lt hm)

end Spine

/-! ## The tree after the writes -/

/-- The nodes above a subtree are no blobs. -/
def Walked (compress : α → α → α) (db : α → Option (List α)) (f : Nat → α) (depth h p : Nat) : Prop :=
  ∀ g, h + (g + 1) ≤ depth → ¬ Blob db (node compress f (h + (g + 1)) (p / 2 ^ (g + 1)))

/-- Children of one node are on one side of the path. -/
lemma child_div {p b g : Nat} (hb : b < 2) : (2 * p + b) / 2 ^ (g + 1) = p / 2 ^ g := by
  rw [Nat.pow_succ, Nat.mul_comm (2 ^ g), ← Nat.div_div_eq_div_mul,
    show (2 * p + b) / 2 = p by omega]

/-- A walk goes on to a child. -/
lemma Walked.child {f : Nat → α} {depth p b : Nat} (h₀ : Walked compress db f depth (h + 1) p)
    (hblob : ¬ Blob db (node compress f (h + 1) p)) (hb : b < 2) :
    Walked compress db f depth h (2 * p + b) := by
  intro g hg
  rw [child_div hb]
  cases g with
  | zero =>
    rw [Nat.pow_zero, Nat.div_one]
    exact hblob
  | succ g =>
    rw [show h + (g + 1 + 1) = h + 1 + (g + 1) by omega]
    exact h₀ g (by omega)

/-- The subtree with index `q` at height `s` changes, in a tree that is `n` levels higher. -/
structure Change (compress : α → α → α) (zero : α) (db : α → Option (List α)) (f f' : Nat → α)
    (s q n : Nat) : Prop where
  leaves : Leaves compress zero f
  leaves' : Leaves compress zero f'
  same : ∀ k, k / 2 ^ s ≠ q → f' k = f k
  within : q / 2 ^ n = 0
  zeros : ZeroStored compress zero db
  stored : Stored compress zero db f (s + n) 0
  path : ∀ m < n, ¬ Blob db (onPath compress s q f (m + 1))
  /-- A node that is replaced is nowhere else, unless it is empty or within a blob. -/
  shared : ∀ m < n, onPath compress s q f (m + 1) ≠ onPath compress s q f' (m + 1) →
    ∀ p, p ≠ q / 2 ^ (m + 1) → node compress f (s + (m + 1)) p = onPath compress s q f (m + 1) →
      Walked compress db f (s + n) (s + (m + 1)) p →
      onPath compress s q f (m + 1) = node compress (fun _ => zero) (s + (m + 1)) 0

/-- A subtree beside the path keeps its leaves. -/
def Off (f f' : Nat → α) (s q n h p : Nat) : Prop :=
  (∀ k, k / 2 ^ h = p → f' k = f k) ∧ ∀ m < n, h = s + (m + 1) → p ≠ q / 2 ^ (m + 1)

variable {f f' : Nat → α} {s q n : Nat}

/-- A node off the path does not change. -/
lemma Off.node_eq {p : Nat} (h₀ : Off f f' s q n h p) : node compress f' h p = node compress f h p :=
  node_congr h₀.1

/-- Nor do its children. -/
lemma Off.child {p b : Nat} (h₀ : Off f f' s q n (h + 1) p) (hle : h + 1 ≤ s + n) (hb : b < 2) :
    Off f f' s q n h (2 * p + b) := by
  refine ⟨fun k hk => h₀.1 k ?_, fun m hm hh heq => ?_⟩
  · rw [Nat.pow_succ, ← Nat.div_div_eq_div_mul, hk]
    omega
  · have hup : p = q / 2 ^ (m + 1 + 1) := by
      rw [Nat.pow_succ, ← Nat.div_div_eq_div_mul, ← heq]
      omega
    exact h₀.2 (m + 1) (by omega) (by omega) hup

namespace Change

variable (hc : Change compress zero db f f' s q n) (hinj : Function.Injective2 compress)
include hc hinj

/-- The path can be read. -/
lemma stored_path {m : Nat} (hm : m ≤ n) : Stored compress zero db f (s + m) (q / 2 ^ m) := by
  induction hm using Nat.decreasingInduction with
  | self =>
    rw [hc.within]
    exact hc.stored
  | of_succ m hm ih =>
    obtain ⟨hleft, hright⟩ := Stored.children hinj hc.zeros ih (hc.path m hm)
    have hhalf : q / 2 ^ (m + 1) = q / 2 ^ m / 2 := by rw [Nat.pow_succ, Nat.div_div_eq_div_mul]
    rcases Nat.mod_two_eq_zero_or_one (q / 2 ^ m) with hmod | hmod
    · rwa [show q / 2 ^ m = 2 * (q / 2 ^ (m + 1)) by omega]
    · rwa [show q / 2 ^ m = 2 * (q / 2 ^ (m + 1)) + 1 by omega]

/-- A subtree beside the path, next to a node of it. -/
lemma sibling {m b : Nat} (hm : m < n) (hb : b < 2) (hne : 2 * (q / 2 ^ (m + 1)) + b ≠ q / 2 ^ m) :
    Off f f' s q n (s + m) (2 * (q / 2 ^ (m + 1)) + b) ∧
    Stored compress zero db f (s + m) (2 * (q / 2 ^ (m + 1)) + b) ∧
    Walked compress db f (s + n) (s + m) (2 * (q / 2 ^ (m + 1)) + b) := by
  refine ⟨⟨fun k hk => hc.same k fun heq => hne ?_, fun m' hm' hh => ?_⟩, ?_, fun g hg => ?_⟩
  · rw [← hk, Nat.pow_add, ← Nat.div_div_eq_div_mul, heq]
  · obtain rfl : m = m' + 1 := by omega
    exact hne
  · obtain ⟨hleft, hright⟩ :=
      Stored.children hinj hc.zeros (hc.stored_path hinj (m := m + 1) hm) (hc.path m hm)
    rcases Nat.lt_succ_iff_lt_or_eq.mp hb with hlt | rfl
    · obtain rfl := Nat.lt_one_iff.mp hlt
      exact hleft
    · exact hright
  · have hup : (2 * (q / 2 ^ (m + 1)) + b) / 2 ^ (g + 1) = q / 2 ^ (m + g + 1) := by
      rw [child_div hb, Nat.div_div_eq_div_mul, ← Nat.pow_add, Nat.add_right_comm]
    rw [hup, show s + m + (g + 1) = s + (m + g + 1) by omega]
    exact hc.path (m + g) (by omega)

end Change

section After

variable [DecidableEq α]

/-- What is written of the subtree itself: all the layers below it, unless it is a leaf or does not
change. -/
def Base (compress : α → α → α) (f f' : Nat → α) (s q : Nat) (base : List (Write α)) : Prop :=
  (base = [] ∧ (s = 0 ∨ f' = f)) ∨
    base = [.put (node compress f' s q) (below compress f' s q)]

variable {base : List (Write α)}

/-- The batch for the subtree writes its node only. -/
lemma Base.apply (hbase : Base compress f f' s q base) (db : α → Option (List α)) (key : α) :
    applyAll db base key = db key ∨
      key = node compress f' s q ∧ applyAll db base key = some (below compress f' s q) := by
  rcases hbase with ⟨rfl, -⟩ | rfl
  · exact .inl rfl
  · show Function.update db _ _ key = _ ∨ _ ∧ Function.update db _ _ key = _
    by_cases heq : key = node compress f' s q
    · rw [heq, Function.update_self]
      exact .inr ⟨rfl, rfl⟩
    · exact .inl (Function.update_of_ne heq _ _)

namespace Change

variable (hc : Change compress zero db f f' s q n) (hinj : Function.Injective2 compress)
  (hbase : Base compress f f' s q base)
include hc hinj hbase

/-- What is stored under a key of a node: it is of the path, deleted, of the subtree or as before. -/
lemma apply_cases {g : Nat → α} (hg : Leaves compress zero g) {h p : Nat} :
    let db' := applyAll db (base ++ writeSpine compress f f' s q n)
    (∃ m < n, node compress g h p = onPath compress s q f' (m + 1) ∧ h = s + m + 1 ∧
      db' (node compress g h p) = some (childrenOf compress f' s q m)) ∨
    (∃ m < n, node compress g h p = onPath compress s q f (m + 1) ∧ h = s + m + 1 ∧
      onPath compress s q f (m + 1) ≠ onPath compress s q f' (m + 1) ∧
      db' (node compress g h p) = none) ∨
    (node compress g h p = node compress f' s q ∧
      db' (node compress g h p) = some (below compress f' s q)) ∨
    db' (node compress g h p) = db (node compress g h p) := by
  dsimp only
  rw [applyAll_append]
  by_cases hnew : ∃ m < n, node compress g h p = onPath compress s q f' (m + 1)
  · obtain ⟨m, hm, heq⟩ := hnew
    refine .inl ⟨m, hm, heq, height_eq hinj hg hc.leaves' heq, ?_⟩
    rw [heq]
    exact apply_writeSpine_new hinj hc.leaves hc.leaves' hm _
  · by_cases hold : ∃ m < n, node compress g h p = onPath compress s q f (m + 1)
    · obtain ⟨m, hm, heq⟩ := hold
      have hne : onPath compress s q f (m + 1) ≠ onPath compress s q f' (m + 1) :=
        fun hsame => hnew ⟨m, hm, heq.trans hsame⟩
      refine .inr (.inl ⟨m, hm, heq, height_eq hinj hg hc.leaves heq, hne, ?_⟩)
      rw [heq]
      exact apply_writeSpine_old hinj hc.leaves hc.leaves' hm _ hne
    · have hrest : ∀ m < n, node compress g h p ≠ onPath compress s q f (m + 1) ∧
          node compress g h p ≠ onPath compress s q f' (m + 1) :=
        fun m hm => ⟨fun heq => hold ⟨m, hm, heq⟩, fun heq => hnew ⟨m, hm, heq⟩⟩
      rw [apply_writeSpine_of_ne _ hrest]
      rcases hbase.apply db (node compress g h p) with hsame | ⟨hself, hdata⟩
      · exact .inr (.inr (.inr hsame))
      · exact .inr (.inr (.inl ⟨hself, hdata⟩))

/-- A blob was one before, or is the subtree itself, and is no new node of the path. -/
lemma blob_after {key : α}
    (hblob : Blob (applyAll db (base ++ writeSpine compress f f' s q n)) key) :
    (Blob db key ∨ base ≠ [] ∧ key = node compress f' s q) ∧
      ∀ m < n, key ≠ onPath compress s q f' (m + 1) := by
  obtain ⟨data, hdata, hlen⟩ := hblob
  rw [applyAll_append] at hdata
  have hnew (m : Nat) (hm : m < n) : key ≠ onPath compress s q f' (m + 1) := by
    intro heq
    rw [heq, apply_writeSpine_new hinj hc.leaves hc.leaves' hm] at hdata
    obtain rfl := Option.some.inj hdata
    exact absurd hlen (Nat.lt_irrefl 2)
  refine ⟨?_, hnew⟩
  have hold (m : Nat) (hm : m < n) : key ≠ onPath compress s q f (m + 1) := by
    intro heq
    have hne : onPath compress s q f (m + 1) ≠ onPath compress s q f' (m + 1) :=
      fun hsame => hnew m hm (heq.trans hsame)
    rw [heq, apply_writeSpine_old hinj hc.leaves hc.leaves' hm _ hne] at hdata
    nomatch hdata
  rw [apply_writeSpine_of_ne _ fun m hm => ⟨hold m hm, hnew m hm⟩] at hdata
  rcases hbase.apply db key with hsame | ⟨hself, -⟩
  · exact .inl ⟨data, hsame.symm.trans hdata, hlen⟩
  · by_cases hbase' : base = []
    · rw [hbase'] at hdata
      exact .inl ⟨data, hdata, hlen⟩
    · exact .inr ⟨hbase', hself⟩

/-- The empty tree can still be read. -/
lemma zeros_after :
    ZeroStored compress zero (applyAll db (base ++ writeSpine compress f f' s q n)) := by
  intro h
  induction h with
  | zero => trivial
  | succ h ih =>
    have hleaf : Leaves compress zero fun _ => zero := hc.leaves.zero
    have hchildren : Stored compress zero (applyAll db (base ++ writeSpine compress f f' s q n))
        (fun _ => zero) h (2 * 0 + 1) := ih.of_eq hinj (node_const compress zero h (2 * 0 + 1)).symm
    rcases hc.apply_cases hinj hbase hleaf (h := h + 1) (p := 0) with
      ⟨m, -, heq, hh, hdata⟩ | ⟨m, -, -, -, -, hdata⟩ | ⟨heq, hdata⟩ | hsame
    · obtain rfl : h = s + m := by omega
      obtain ⟨hleft, hright⟩ := node_children hinj heq
      refine .inr (.inl ⟨hdata.trans ?_, ih, hchildren⟩)
      rw [childrenOf, hleft, hright]
    · exact .inl ⟨hdata, rfl⟩
    · obtain rfl : h + 1 = s := height_eq hinj hleaf hc.leaves' heq
      refine stored_of_below (hdata.trans ?_)
      rw [below_eq hinj heq]
    · rcases hc.zeros (h + 1) with ⟨hnone, -⟩ | ⟨hpair, -, -⟩ | ⟨hblob, -⟩
      · exact .inl ⟨hsame.trans hnone, rfl⟩
      · exact .inr (.inl ⟨hsame.trans hpair, ih, hchildren⟩)
      · exact stored_of_below (hsame.trans hblob)

/-- The subtree itself. One that does not change is as good as one beside the path. -/
lemma stored_target
    (hoff : ∀ p, Off f f' s q n s p → Stored compress zero db f s p →
      Walked compress db f (s + n) s p →
      Stored compress zero (applyAll db (base ++ writeSpine compress f f' s q n)) f' s p) :
    Stored compress zero (applyAll db (base ++ writeSpine compress f f' s q n)) f' s q := by
  rcases hbase with ⟨-, rfl | rfl⟩ | rfl
  · trivial
  · have hstored := hc.stored_path hinj (Nat.zero_le n)
    rw [Nat.pow_zero, Nat.div_one] at hstored
    refine hoff q ⟨fun _ _ => rfl, fun m _ hm => absurd hm (by omega)⟩ hstored fun g hg => ?_
    exact hc.path g (by omega)
  · cases s with
    | zero => trivial
    | succ s =>
      refine stored_of_below ?_
      rw [applyAll_append, apply_writeSpine_of_ne]
      · exact Function.update_self _ _ _
      · refine fun m _ => ⟨fun heq => ?_, fun heq => ?_⟩
        · have hh := height_eq hinj hc.leaves' hc.leaves heq
          omega
        · have hh := height_eq hinj hc.leaves' hc.leaves' heq
          omega

/-- What is beside the path and the path itself, by induction on the height. -/
lemma stored_heights (h : Nat) (hle : h ≤ s + n) :
    (∀ p, Off f f' s q n h p → Stored compress zero db f h p → Walked compress db f (s + n) h p →
      Stored compress zero (applyAll db (base ++ writeSpine compress f f' s q n)) f' h p) ∧
    ∀ m, h = s + m → Stored compress zero
      (applyAll db (base ++ writeSpine compress f f' s q n)) f' h (q / 2 ^ m) := by
  induction h with
  | zero => exact ⟨fun _ _ _ _ => trivial, fun _ _ => trivial⟩
  | succ h ih =>
    obtain ⟨ihoff, ihpath⟩ := ih (Nat.le_of_succ_le hle)
    -- below a new node are the path and what is beside it
    have hchild (m b : Nat) (hm : m < n) (hh : h = s + m) (hb : b < 2) :
        Stored compress zero (applyAll db (base ++ writeSpine compress f f' s q n)) f' h
          (2 * (q / 2 ^ (m + 1)) + b) := by
      subst hh
      by_cases heq : 2 * (q / 2 ^ (m + 1)) + b = q / 2 ^ m
      · rw [heq]
        exact ihpath m rfl
      · obtain ⟨hoff, hstored, hwalked⟩ := hc.sibling hinj hm hb heq
        exact ihoff _ hoff hstored hwalked
    have hoff (p : Nat) (hoff : Off f f' s q n (h + 1) p)
        (hstored : Stored compress zero db f (h + 1) p)
        (hwalked : Walked compress db f (s + n) (h + 1) p) : Stored compress zero
          (applyAll db (base ++ writeSpine compress f f' s q n)) f' (h + 1) p := by
      have hnode : node compress f' (h + 1) p = node compress f (h + 1) p := hoff.node_eq
      rcases hc.apply_cases hinj hbase hc.leaves' (h := h + 1) (p := p) with
        ⟨m, hm, heq, hh, hdata⟩ | ⟨m, hm, heq, hh, hne, hdata⟩ | ⟨heq, hdata⟩ | hsame
      · obtain rfl : h = s + m := by omega
        obtain ⟨hleft, hright⟩ := node_children hinj heq
        refine .inr (.inl ⟨hdata.trans ?_, ?_, ?_⟩)
        · rw [childrenOf, hleft, hright]
        · exact (hchild m 0 hm rfl (by omega)).of_eq hinj hleft.symm
        · exact (hchild m 1 hm rfl (by omega)).of_eq hinj hright.symm
      · -- a deleted node is empty, as nothing else is shared
        have hh' : h + 1 = s + (m + 1) := hh
        refine .inl ⟨hdata, heq.trans ?_⟩
        rw [hh'] at hoff hnode heq hwalked ⊢
        exact hc.shared m hm hne p (hoff.2 m hm rfl) (hnode.symm.trans heq) hwalked
      · obtain rfl : h + 1 = s := height_eq hinj hc.leaves' hc.leaves' heq
        refine stored_of_below (hdata.trans ?_)
        rw [below_eq hinj heq]
      · rw [hnode] at hsame
        rcases hstored with ⟨hnone, hzero⟩ | ⟨hpair, hl, hr⟩ | ⟨hblob, hlen⟩
        · exact .inl ⟨by rw [hnode, hsame, hnone], hnode.trans hzero⟩
        · have hnot : ¬ Blob db (node compress f (h + 1) p) := by
            rintro ⟨data, hdata, hlen⟩
            obtain rfl := Option.some.inj (hpair.symm.trans hdata)
            exact absurd hlen (Nat.lt_irrefl 2)
          have hleft : Off f f' s q n h (2 * p) := hoff.child hle (b := 0) (by omega)
          have hright := hoff.child hle (b := 1) (by omega)
          refine .inr (.inl ⟨?_, ihoff _ hleft hl (hwalked.child (b := 0) hnot (by omega)),
            ihoff _ hright hr (hwalked.child (b := 1) hnot (by omega))⟩)
          rw [hnode, hsame, hpair, ← hright.node_eq, ← hleft.node_eq]
        · refine stored_of_below ?_
          rw [hnode, hsame, hblob, below_eq hinj hnode]
    refine ⟨hoff, fun m hm => ?_⟩
    cases m with
    | zero =>
      obtain rfl : h + 1 = s := hm
      rw [Nat.pow_zero, Nat.div_one]
      exact hc.stored_target hinj hbase hoff
    | succ m =>
      obtain rfl : h = s + m := Nat.succ.inj hm
      have hm : m < n := by omega
      refine .inr (.inl ⟨?_, hchild m 0 hm rfl (by omega), hchild m 1 hm rfl (by omega)⟩)
      rw [applyAll_append]
      exact apply_writeSpine_new hinj hc.leaves hc.leaves' hm _

end Change

/-- The tree can be read after the writes. -/
theorem stored_writeSpine (hc : Change compress zero db f f' s q n)
    (hinj : Function.Injective2 compress) (hbase : Base compress f f' s q base) :
    Stored compress zero (applyAll db (base ++ writeSpine compress f f' s q n)) f' (s + n) 0 := by
  have htop := (hc.stored_heights hinj hbase (s + n) (Nat.le_refl _)).2 n rfl
  rwa [hc.within] at htop

/-- What is stored already is written again. -/
lemma applyAll_again (hself : db (node compress f s q) = some (below compress f s q))
    (hpath : ∀ m < n, db (onPath compress s q f (m + 1)) = some (childrenOf compress f s q m)) :
    applyAll db ([.put (node compress f s q) (below compress f s q)] ++ writeSpine compress f f s q n) =
      db := by
  have hput {key : α} {data : List α} (hdata : db key = some data) :
      Function.update db key (some data) = db := by
    rw [← hdata, Function.update_eq_self]
  rw [applyAll_append]
  show applyAll (Function.update db _ _) _ = db
  rw [hput hself]
  induction n with
  | zero => rfl
  | succ n ih =>
    rw [writeSpine, applyAll_append, ih fun m hm => hpath m (Nat.lt_succ_of_lt hm), writeLevel,
      if_pos rfl]
    exact hput (hpath n (Nat.lt_succ_self n))

end After

end NodeStore
