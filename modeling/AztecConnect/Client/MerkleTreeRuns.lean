import AztecConnect.Client.MerkleTreeLeaves
import Mathlib.Data.List.Induction

/-!
# The calls of a merkle tree

A tree after any sequence of updates, one leaf or many at a time, each of whose batches is safe: it
reads no subtree that is stored at once as a node of two children, it deletes no node that is elsewhere
in the tree, and the size is one that can be written (`agrees_run`).
-/

namespace AztecConnect.Client.MerkleTree

open HashTree NodeStore
open Resumption (bind_eq_ok)

variable {α : Type} {compress : α → α → α} {t : MerkleTree α} {f f' : Nat → α} {s q n : Nat}

/-! ## What a tree holds -/

/-- The values are written from an index on. -/
def setRange (f : Nat → α) (index : Nat) (values : List α) : Nat → α := fun k =>
  if k < index then f k else (values[k - index]?).getD (f k)

/-- Leaves before the range stay. -/
lemma setRange_of_lt {index k : Nat} (values : List α) (hk : k < index) :
    setRange f index values k = f k := if_pos hk

/-- Leaves behind the range stay. -/
lemma setRange_of_ge {index k : Nat} (values : List α) (hk : index + values.length ≤ k) :
    setRange f index values k = f k := by
  rw [setRange, if_neg (by omega), List.getElem?_eq_none (by omega)]
  rfl

/-- The leaves of the range are the values. -/
lemma setRange_at {index k : Nat} {values : List α} (hk : k < values.length) :
    setRange f index values (index + k) = values[k] := by
  rw [setRange, if_neg (by omega), Nat.add_sub_cancel_left, List.getElem?_eq_getElem hk]
  rfl

/-- Values of the height of a leaf can be written. -/
lemma leaves_setRange {zero : α} (hf : Leaves compress zero f) {index : Nat} {values : List α}
    (hvalues : ∀ v ∈ values, SameHeight compress zero v) :
    Leaves compress zero (setRange f index values) := by
  intro k
  unfold setRange
  split
  case isTrue => exact hf k
  case isFalse =>
    cases hget : values[k - index]? with
    | none => exact hf k
    | some v => exact hvalues v (List.mem_of_getElem? hget)

/-- The subtree chosen is not larger than the values, and starts at a multiple of its size. -/
lemma reduceSubtree_spec {numValues : Nat} (hpos : 0 < numValues) (index depth : Nat) :
    2 ^ reduceSubtree numValues index depth ≤ numValues ∧
      index % 2 ^ reduceSubtree numValues index depth = 0 := by
  induction depth with
  | zero => exact ⟨hpos, Nat.mod_one index⟩
  | succ depth ih =>
    rw [reduceSubtree]
    split
    case isTrue => exact ih
    case isFalse h =>
      rw [not_or, not_lt, not_not] at h
      exact h

/-- The size of a subtree. -/
lemma subtreeDepthFor_spec {values : List α} (hne : values ≠ []) (index : Nat) :
    2 ^ subtreeDepthFor values.length index ≤ values.length ∧
      index % 2 ^ subtreeDepthFor values.length index = 0 :=
  reduceSubtree_spec (List.length_pos_iff.mpr hne) index _

/-- Writing one value is an update. -/
lemma setRange_singleton (f : Nat → α) (index : Nat) (value : α) :
    setRange f index [value] = Function.update f index value := by
  funext k
  rcases Nat.lt_trichotomy k index with hlt | rfl | hgt
  · rw [setRange_of_lt _ hlt, Function.update_of_ne hlt.ne]
  · rw [Function.update_self, setRange, if_neg (Nat.lt_irrefl k), Nat.sub_self]
    rfl
  · rw [setRange_of_ge _ hgt, Function.update_of_ne hgt.ne']

/-- Writing no values changes nothing. -/
lemma setRange_nil (f : Nat → α) (index : Nat) : setRange f index [] = f := by
  funext k
  rw [setRange]
  split
  case isTrue => rfl
  case isFalse => rfl

/-- A range can be written in two parts. -/
lemma setRange_take (f : Nat → α) (index : Nat) {values : List α} {n : Nat} (hn : n ≤ values.length) :
    setRange (setRange f index (values.take n)) (index + n) (values.drop n) =
      setRange f index values := by
  funext k
  by_cases hlt : k < index + n
  · rw [setRange_of_lt _ hlt]
    unfold setRange
    split
    case isTrue => rfl
    case isFalse => rw [List.getElem?_take_of_lt (by omega)]
  · have hbefore : setRange f index (values.take n) k = f k :=
      setRange_of_ge _ (by rw [List.length_take]; omega)
    rw [setRange, if_neg hlt, hbefore, List.getElem?_drop,
      show n + (k - (index + n)) = k - index by omega, setRange, if_neg (by omega)]

/-- Two adjacent ranges are one. -/
lemma setRange_append (f : Nat → α) (index : Nat) (values rest : List α) :
    setRange (setRange f index values) (index + values.length) rest =
      setRange f index (values ++ rest) := by
  have htake := @setRange_take _ f index (values ++ rest) values.length
    (by rw [List.length_append]; omega)
  rwa [List.take_left, List.drop_left] at htake

/-- A subtree written at its own place leaves the others alone. -/
lemma setRange_off {values : List α} (hlength : values.length = 2 ^ s) {k : Nat} (hk : k / 2 ^ s ≠ q) :
    setRange f (q * 2 ^ s) values k = f k := by
  by_cases hlt : k < q * 2 ^ s
  · exact setRange_of_lt values hlt
  · refine setRange_of_ge values ?_
    by_contra hin
    exact hk (Nat.div_eq_of_lt_le (by omega) (by rw [Nat.add_mul, Nat.one_mul]; omega))

/-- The leaves of the subtree are among the values. -/
lemma setRange_mem {values : List α} (hlength : values.length = 2 ^ s) {k : Nat} (hk : k / 2 ^ s = q) :
    setRange f (q * 2 ^ s) values k ∈ values := by
  have hmod : k % 2 ^ s < values.length := by
    rw [hlength]
    exact Nat.mod_lt k (Nat.two_pow_pos s)
  have hindex : q * 2 ^ s + k % 2 ^ s = k := by rw [← hk, Nat.mul_comm, Nat.div_add_mod]
  have hget := @setRange_at _ f (q * 2 ^ s) _ _ hmod
  rw [hindex] at hget
  rw [hget]
  exact List.getElem_mem _

/-- A subtree that fits is below the root. -/
lemma subtree_within {depth : Nat} (hfits : q * 2 ^ s + 2 ^ s ≤ 2 ^ depth) :
    ∃ n, depth = s + n ∧ q / 2 ^ n = 0 := by
  have hpos := Nat.two_pow_pos s
  obtain ⟨n, rfl⟩ := Nat.exists_eq_add_of_le
    ((Nat.pow_le_pow_iff_right (by decide : 1 < 2)).mp (by omega : 2 ^ s ≤ 2 ^ depth))
  refine ⟨n, rfl, Nat.div_eq_of_lt (Nat.lt_of_mul_lt_mul_right (a := 2 ^ s) ?_)⟩
  rw [← Nat.pow_add, Nat.add_comm n]
  omega

/-- The tree represents the leaves `f`: its root is theirs, and its database stores what is needed
to find every path. -/
structure Holds (compress : α → α → α) (t : MerkleTree α) (f : Nat → α) : Prop where
  root : t.root = node compress f t.depth 0
  leaves : Leaves compress t.initialLeafValue f
  zeros : ZeroStored compress t.initialLeafValue t.db
  stored : Stored compress t.initialLeafValue t.db f t.depth 0
  beyond : ∀ k ≥ t.size, f k = t.initialLeafValue
  written : t.written = t.toMeta

/-- The new tree. -/
lemma holds_new {initialLeafValue : α}
    (hzero : SameHeight compress initialLeafValue initialLeafValue) {depth : Nat}
    (hnew : MerkleTree.new compress (fun _ => none) depth initialLeafValue = .ok t) :
    Holds compress t (fun _ => initialLeafValue) ∧ t.size = 0 ∧
      t.initialLeafValue = initialLeafValue := by
  have hstored (h : Nat) : Stored compress initialLeafValue (fun _ => none)
      (fun _ => initialLeafValue) h 0 := by
    cases h with
    | zero => trivial
    | succ h => exact .inl ⟨rfl, rfl⟩
  unfold MerkleTree.new at hnew
  split at hnew
  case isFalse => nomatch hnew
  case isTrue hdepth =>
    obtain rfl := Except.ok.inj hnew
    refine ⟨?_, rfl, rfl⟩
    exact {
      root := zeroHashes_eq initialLeafValue depth 0
      leaves := fun _ => hzero
      zeros := hstored
      stored := hstored depth
      beyond := fun _ _ => rfl
      written := rfl }

/-- The hash paths are those of the leaves. -/
lemma Holds.getHashPath (h : Holds compress t f) (hinj : Function.Injective2 compress) {index : Nat}
    (hindex : index < 2 ^ t.depth) : t.getHashPath compress index = path compress f t.depth index := by
  have htop : index / 2 ^ t.depth = 0 := Nat.div_eq_of_lt hindex
  have hstored := h.stored
  rw [← htop] at hstored
  have hpath := hashPathFrom_eq hinj
    (Nat.lt_of_lt_of_le hindex (Nat.pow_le_pow_right (by decide) t.depth_ok.2)) hstored
  rw [htop, ← h.root] at hpath
  exact hpath

/-- Where a subtree changes, the nodes on the path above it are read as pairs, and those that are
replaced are nowhere else, or are empty, or are read as part of a subtree that is stored at once. -/
structure SafeAt (compress : α → α → α) (t : MerkleTree α) (f f' : Nat → α) (s q n : Nat) : Prop where
  path : ∀ m < n, ¬ Blob t.db (onPath compress s q f (m + 1))
  shared : ∀ m < n, onPath compress s q f (m + 1) ≠ onPath compress s q f' (m + 1) →
    ∀ p, p ≠ q / 2 ^ (m + 1) → node compress f (s + (m + 1)) p = onPath compress s q f (m + 1) →
      Walked compress t.db f (s + n) (s + (m + 1)) p →
      onPath compress s q f (m + 1) = node compress (fun _ => t.initialLeafValue) (s + (m + 1)) 0

/-- A safe write to one subtree is a change that the database can record. -/
lemma Holds.change (h : Holds compress t f) (hsafe : SafeAt compress t f f' s q n)
    (hdepth : t.depth = s + n) (hf' : Leaves compress t.initialLeafValue f') (hsame : ∀ k, k / 2 ^ s ≠ q → f' k = f k)
    (hwithin : q / 2 ^ n = 0) : Change compress t.initialLeafValue t.db f f' s q n where
  leaves := h.leaves
  leaves' := hf'
  same := hsame
  within := hwithin
  zeros := h.zeros
  stored := hdepth ▸ h.stored
  path := hsafe.path
  shared := hsafe.shared

/-- The values are the leaves of the subtree. -/
lemma hashToTree_setRange (f : Nat → α) {values : List α} (hlength : values.length = 2 ^ s) :
    hashToTree compress s values = below compress (setRange f (q * 2 ^ s) values) s q ++
      [node compress (setRange f (q * 2 ^ s) values) s q] := by
  rw [← hashToTree_eq]
  congr 1
  refine List.ext_getElem (by rw [List.length_map, List.length_range, hlength]) fun k hk _ => ?_
  rw [List.getElem_map, List.getElem_range, setRange_at hk]

/-- Values that are zero are already there, from the size on. -/
lemma setRange_of_zero (h : Holds compress t f) (hinj : Function.Injective2 compress)
    {values : List α} (hlength : values.length = 2 ^ s) (hsize : t.size ≤ q * 2 ^ s)
    (hzero : node compress (setRange f (q * 2 ^ s) values) s q =
      zeroHashes compress t.initialLeafValue s) : setRange f (q * 2 ^ s) values = f := by
  rw [zeroHashes_eq _ _ 0] at hzero
  funext k
  by_cases hlt : k < q * 2 ^ s
  · exact setRange_of_lt values hlt
  · by_cases hge : q * 2 ^ s + values.length ≤ k
    · exact setRange_of_ge values hge
    · have hleaf := leaf_eq hinj hzero (k := k - q * 2 ^ s) (by omega)
      rw [Nat.add_sub_cancel' (by omega)] at hleaf
      rw [hleaf, h.beyond k (by omega)]

variable [DecidableEq α]

/-- The tree after a batch is written. -/
def after (t : MerkleTree α) (root : α) (size : Nat) (batch : List (Write α)) : MerkleTree α :=
  let m : Meta α := { t.toMeta with root, size }
  { t with toMeta := m, written := m, db := applyAll t.db batch }

/-- Storing the new subtree and the path above it represents the changed leaves. -/
lemma holds_after (hinj : Function.Injective2 compress)
    (hdepth : t.depth = s + n) (hc : Change compress t.initialLeafValue t.db f f' s q n)
    {base : List (Write α)} (hbase : Base compress f f' s q base) {size : Nat}
    (hbeyond : ∀ k ≥ size, f' k = t.initialLeafValue) : Holds compress
      (t.after (node compress f' t.depth 0) size (base ++ writeSpine compress f f' s q n)) f' where
  root := rfl
  leaves := hc.leaves'
  zeros := hc.zeros_after hinj hbase
  stored := by
    show Stored _ _ _ _ t.depth 0
    rw [hdepth]
    exact stored_writeSpine hc hinj hbase
  beyond := hbeyond
  written := rfl

/-! ## One leaf -/

/-- A leaf is updated. -/
lemma updateLeafHash_eq (h : Holds compress t f) (hinj : Function.Injective2 compress) {index : Nat}
    {leafHash : α}
    (hc : Change compress t.initialLeafValue t.db f (Function.update f index leafHash) 0 index t.depth)
    (hsize : max t.size (index + 1) < 2 ^ 32) : t.updateLeafHash compress index leafHash =
      .ok (t.after (node compress (Function.update f index leafHash) t.depth 0)
        (max t.size (index + 1))
        (writeSpine compress f (Function.update f index leafHash) 0 index t.depth)) := by
  have hrebuilt := updateElementInternal_eq (t := t) hinj hc.same
    (fun m hm => hc.stored_path hinj hm) hc.path
    (show index / 2 ^ 0 % 2 ^ t.depth = index % 2 ^ t.depth by rw [Nat.pow_zero, Nat.div_one])
  rw [Function.update_self, Nat.zero_add, hc.within, ← h.root] at hrebuilt
  unfold updateLeafHash
  rw [hrebuilt]
  show (do
    let written ← writeMeta { t with
      root := node compress (Function.update f index leafHash) t.depth 0
      size := max t.size (index + 1) }
    _) = _
  rw [writeMeta, if_pos hsize]
  rfl

/-- What a batch keeps of a tree. -/
structure SameTree (t t' : MerkleTree α) : Prop where
  depth : t'.depth = t.depth
  initialLeafValue : t'.initialLeafValue = t.initialLeafValue

/-- `updateLeafHash` of a tree that represents `f` represents `f` with the new leaf. -/
lemma Holds.updateLeafHash (h : Holds compress t f) (hinj : Function.Injective2 compress) {index : Nat}
    (hindex : index < 2 ^ t.depth) {leafHash : α} (hleaf : SameHeight compress t.initialLeafValue leafHash)
    (hsafe : SafeAt compress t f (Function.update f index leafHash) 0 index t.depth)
    (hsize : max t.size (index + 1) < 2 ^ 32) :
    ∃ t', t.updateLeafHash compress index leafHash = .ok t' ∧ SameTree t t' ∧
      t'.size = max t.size (index + 1) ∧ Holds compress t' (Function.update f index leafHash) := by
  have hc := h.change hsafe (Nat.zero_add _).symm (h.leaves.update hleaf)
    (fun k hk => Function.update_of_ne (fun heq => hk (by rw [heq, Nat.pow_zero, Nat.div_one])) _ _)
    (Nat.div_eq_of_lt hindex)
  refine ⟨_, updateLeafHash_eq h hinj hc hsize, ⟨rfl, rfl⟩, rfl, ?_⟩
  refine holds_after hinj (Nat.zero_add _).symm hc (.inl ⟨rfl, .inl rfl⟩) fun k hk => ?_
  have hne : k ≠ index := by omega
  rw [Function.update_of_ne hne]
  exact h.beyond k (by omega)

/-! ## A subtree -/

/-- What has to be safe for a subtree. One of zeros is skipped, if it is not the whole tree. -/
structure SafeSubtree (compress : α → α → α) (t : MerkleTree α) (f : Nat → α) (index s : Nat)
    (values : List α) : Prop where
  size : index + 2 ^ s < 2 ^ 32
  skipped : node compress (setRange f index values) s (index / 2 ^ s) =
      zeroHashes compress t.initialLeafValue s → s < t.depth →
    SafeAt compress t f f (s + 1) (index / 2 ^ s / 2) (t.depth - (s + 1))
  inserted : (s < t.depth → node compress (setRange f index values) s (index / 2 ^ s) ≠
      zeroHashes compress t.initialLeafValue s) →
    SafeAt compress t f (setRange f index values) s (index / 2 ^ s) (t.depth - s)

/-- `insertSubtree` is what `updateElementsInternal` returns, as long as the size fits 32 bits. -/
lemma insertSubtree_eq {index size : Nat} {values hashes : List α} {root : α}
    {batch : List (Write α)} (hhashes : hashToTree compress s values = hashes)
    (hrebuilt : t.updateElementsInternal compress hashes s t.depth t.root index = .ok (root, batch))
    (hindex : index + 2 ^ s = size) (hsize : size < 2 ^ 32) :
    t.insertSubtree compress index s values = .ok (t.after root size batch) := by
  unfold insertSubtree
  rw [hhashes]
  dsimp only
  rw [hrebuilt]
  show (do
    let written ← writeMeta { t with root, size := index + 2 ^ s }
    _) = _
  rw [hindex, writeMeta, if_pos hsize]
  rfl

/-- A subtree is written, unless it is one of zeros that is not the whole tree. -/
lemma insertSubtree_after (hinj : Function.Injective2 compress)
    (hroot : t.root = node compress f t.depth 0)
    (hdepth : t.depth = s + n) (hc : Change compress t.initialLeafValue t.db f f' s q n)
    {values : List α} (hhashes : hashToTree compress s values =
      below compress f' s q ++ [node compress f' s q])
    (hnonzero : s < t.depth → node compress f' s q ≠ zeroHashes compress t.initialLeafValue s)
    (hsize : q * 2 ^ s + 2 ^ s < 2 ^ 32) : t.insertSubtree compress (q * 2 ^ s) s values =
      .ok (t.after (node compress f' t.depth 0) (q * 2 ^ s + 2 ^ s)
        ([.put (node compress f' s q) (below compress f' s q)] ++ writeSpine compress f f' s q n)) := by
  have hrebuilt := updateElementsInternal_from hinj hc.leaves' hc.same (Nat.le_refl s)
    (fun m hm => hc.stored_path hinj hm) hc.path (fun _ hpos => hnonzero (by omega))
    (show q * 2 ^ s / 2 ^ s % 2 ^ n = q % 2 ^ n by rw [Nat.mul_div_cancel _ (Nat.two_pow_pos s)])
    (fun index => updateElementsInternal_self _ s q _ index)
  rw [hc.within, ← hdepth, ← hroot] at hrebuilt
  exact insertSubtree_eq hhashes hrebuilt rfl hsize

/-- `insertSubtree` of a tree that represents `f` represents `f` with the new values. -/
lemma Holds.insertSubtree (h : Holds compress t f) (hinj : Function.Injective2 compress)
    {values : List α} (hlength : values.length = 2 ^ s)
    (hvalues : ∀ v ∈ values, SameHeight compress t.initialLeafValue v) (hge : t.size ≤ q * 2 ^ s)
    (hfits : q * 2 ^ s + 2 ^ s ≤ 2 ^ t.depth) (hsafe : SafeSubtree compress t f (q * 2 ^ s) s values) :
    ∃ t', t.insertSubtree compress (q * 2 ^ s) s values = .ok t' ∧ SameTree t t' ∧
      t'.size = q * 2 ^ s + 2 ^ s ∧ Holds compress t' (setRange f (q * 2 ^ s) values) ∧
      ∀ key, Blob t'.db key → Blob t.db key ∨
        key = node compress (setRange f (q * 2 ^ s) values) s q ∧
          (s < t.depth → key ≠ zeroHashes compress t.initialLeafValue s) := by
  have hindex : q * 2 ^ s / 2 ^ s = q := Nat.mul_div_cancel _ (Nat.two_pow_pos s)
  obtain ⟨hsize, hskipped, hinserted⟩ := hsafe
  rw [hindex] at hskipped hinserted
  obtain ⟨n, hn, hq⟩ := subtree_within hfits
  have hbeyond (k : Nat) (hk : k ≥ q * 2 ^ s + 2 ^ s) :
      setRange f (q * 2 ^ s) values k = t.initialLeafValue := by
    rw [setRange_of_ge values (by rw [hlength]; exact hk)]
    exact h.beyond k (by omega)
  have hhashes := @hashToTree_setRange _ compress _ q f _ hlength
  by_cases hzero : s < t.depth ∧ node compress (setRange f (q * 2 ^ s) values) s q =
      zeroHashes compress t.initialLeafValue s
  case pos =>
    obtain ⟨hlt, hzero⟩ := hzero
    have hsame := setRange_of_zero h hinj hlength hge hzero
    obtain ⟨m, rfl⟩ := Nat.exists_eq_add_of_le' (by omega : 1 ≤ n)
    rw [Nat.add_comm m, ← Nat.add_assoc] at hn
    have hn' : t.depth - (s + 1) = m := by omega
    have hup : q / 2 / 2 ^ m = 0 := by rwa [Nat.div_div_eq_div_mul, ← Nat.pow_succ']
    have hsafe := hskipped hzero hlt
    rw [hn'] at hsafe
    rw [hsame] at hhashes hzero hbeyond ⊢
    have hc := h.change hsafe hn h.leaves (fun _ _ => rfl) hup
    have hrebuilt := updateElementsInternal_from hinj h.leaves hc.same (Nat.le_succ s)
      (fun m hm => hc.stored_path hinj hm) hc.path (fun heq _ => absurd heq (Nat.succ_ne_self s).symm)
      (show q * 2 ^ s / 2 ^ (s + 1) % 2 ^ m = q / 2 % 2 ^ m by
        rw [Nat.pow_succ, ← Nat.div_div_eq_div_mul, hindex])
      (fun index => updateElementsInternal_zero hzero _ index)
    rw [hc.within, ← hn, ← h.root] at hrebuilt
    refine ⟨_, insertSubtree_eq hhashes hrebuilt rfl hsize, ⟨rfl, rfl⟩, rfl, ?_, fun key hblob => ?_⟩
    · have hholds := holds_after hinj hn hc (show Base compress f f (s + 1) (q / 2) [] from .inl ⟨rfl, .inr rfl⟩)
        hbeyond
      rw [← h.root] at hholds
      exact hholds
    · rcases (hc.blob_after hinj (show Base compress f f (s + 1) (q / 2) [] from .inl ⟨rfl, .inr rfl⟩)
        hblob).1 with hold | ⟨hne, -⟩
      · exact .inl hold
      · exact absurd rfl hne
  case neg =>
    have hn' : t.depth - s = n := by omega
    have hnonzero (hlt : s < t.depth) : node compress (setRange f (q * 2 ^ s) values) s q ≠
        zeroHashes compress t.initialLeafValue s := fun heq => hzero ⟨hlt, heq⟩
    have hsafe := hinserted hnonzero
    rw [hn'] at hsafe
    have hc := h.change hsafe hn (leaves_setRange h.leaves hvalues) (fun _ => setRange_off hlength) hq
    refine ⟨_, insertSubtree_after hinj h.root hn hc hhashes hnonzero hsize, ⟨rfl, rfl⟩, rfl,
      holds_after hinj hn hc (.inr rfl) hbeyond, fun key hblob => ?_⟩
    rcases (hc.blob_after hinj (.inr rfl) hblob).1 with hold | ⟨-, hself⟩
    · exact .inl hold
    · refine .inr ⟨hself, fun hlt => ?_⟩
      rw [hself]
      exact hnonzero hlt

/-! ## Many leaves -/

/-- A subtree that is inserted. -/
structure Subtree (α : Type) where
  index : Nat
  depth : Nat
  values : List α

/-- The subtrees of the loop. -/
def subtrees (index : Nat) (leafHashes : List α) : List (Subtree α) :=
  if h : leafHashes = [] then []
  else
    let depth := subtreeDepthFor leafHashes.length index
    ⟨index, depth, leafHashes.take (2 ^ depth)⟩ ::
      subtrees (index + 2 ^ depth) (leafHashes.drop (2 ^ depth))
termination_by leafHashes.length
decreasing_by
  have hpos := List.length_pos_iff.mpr h
  have hsize := Nat.two_pow_pos (subtreeDepthFor leafHashes.length index)
  rw [List.length_drop]
  omega

/-- The subtrees of a list, inserted one after the other. -/
def insertSubtrees (compress : α → α → α) (t : MerkleTree α) (subtrees : List (Subtree α)) :
    Except String (MerkleTree α) :=
  subtrees.foldlM (fun t c => t.insertSubtree compress c.index c.depth c.values) t

/-- `updateLeafHashes` inserts the subtrees into which `reduceSubtree` cuts the values. -/
lemma updateLeafHashes_eq (t : MerkleTree α) (index : Nat) (leafHashes : List α) :
    updateLeafHashes compress t index leafHashes =
      insertSubtrees compress t (subtrees index leafHashes) := by
  induction h : leafHashes.length using Nat.strongRecOn generalizing t index leafHashes with
  | ind n ih =>
    rw [updateLeafHashes, subtrees]
    split
    case isTrue => rfl
    case isFalse hne =>
      have hpos := List.length_pos_iff.mpr hne
      have hsize := Nat.two_pow_pos (subtreeDepthFor leafHashes.length index)
      rw [insertSubtrees, List.foldlM_cons]
      refine congrArg _ (funext fun t => ?_)
      exact ih _ (by rw [List.length_drop]; omega) t _ _ rfl

/-- The leaves after some subtrees are inserted. -/
def setSubtrees (f : Nat → α) (subtrees : List (Subtree α)) : Nat → α :=
  subtrees.foldl (fun f c => setRange f c.index c.values) f

/-- Every subtree is safe when its turn comes. -/
def SafeSubtrees (compress : α → α → α) (t : MerkleTree α) (f : Nat → α)
    (subtrees : List (Subtree α)) : Prop :=
  ∀ before c after, subtrees = before ++ c :: after →
    ∀ t', insertSubtrees compress t before = .ok t' →
      SafeSubtree compress t' (setSubtrees f before) c.index c.depth c.values

/-- Inserting these subtrees writes all values. -/
lemma Holds.insertSubtrees (h : Holds compress t f) (hinj : Function.Injective2 compress)
    {index : Nat} {values : List α} (hvalues : ∀ v ∈ values, SameHeight compress t.initialLeafValue v)
    (hge : t.size ≤ index) (hfits : index + values.length ≤ 2 ^ t.depth)
    (hsafe : SafeSubtrees compress t f (subtrees index values)) :
    ∃ t', insertSubtrees compress t (subtrees index values) = .ok t' ∧ SameTree t t' ∧
      t'.size = (if values = [] then t.size else index + values.length) ∧
      Holds compress t' (setRange f index values) := by
  induction hlength : values.length using Nat.strongRecOn generalizing t f index values with
  | ind n ih =>
    rw [subtrees] at hsafe ⊢
    by_cases hne : values = []
    case pos =>
      subst hne
      rw [dif_pos rfl, if_pos rfl, setRange_nil]
      exact ⟨t, rfl, ⟨rfl, rfl⟩, rfl, h⟩
    case neg =>
      rw [dif_neg hne] at hsafe ⊢
      rw [if_neg hne]
      obtain ⟨hle, hmod⟩ := subtreeDepthFor_spec hne index
      generalize subtreeDepthFor values.length index = s at hsafe hle hmod ⊢
      obtain ⟨q, rfl⟩ := Nat.dvd_of_mod_eq_zero hmod
      rw [Nat.mul_comm (2 ^ s)] at hsafe hge hfits ⊢
      have hpos := Nat.two_pow_pos s
      have htake : (values.take (2 ^ s)).length = 2 ^ s := List.length_take_of_le hle
      obtain ⟨t₁, hrun, hsame, hsize, hholds, -⟩ := h.insertSubtree hinj htake
        (fun v hv => hvalues v (List.mem_of_mem_take hv)) hge (by omega)
        (hsafe [] _ _ rfl t rfl)
      have hrest : SafeSubtrees compress t₁ (setRange f (q * 2 ^ s) (values.take (2 ^ s)))
          (subtrees (q * 2 ^ s + 2 ^ s) (values.drop (2 ^ s))) := by
        intro before c after hsplit t' ht'
        refine hsafe (_ :: before) c after (congrArg _ hsplit) t' ?_
        rw [MerkleTree.insertSubtrees, List.foldlM_cons, hrun]
        exact ht'
      obtain ⟨t₂, hrun', hsame', hsize', hholds'⟩ := ih (values.drop (2 ^ s)).length
        (by rw [List.length_drop]; omega) hholds
        (fun v hv => hsame.initialLeafValue ▸ hvalues v (List.mem_of_mem_drop hv))
        (Nat.le_of_eq hsize) (by rw [List.length_drop, hsame.depth]; omega) hrest rfl
      refine ⟨t₂, ?_, ⟨hsame'.depth.trans hsame.depth,
        hsame'.initialLeafValue.trans hsame.initialLeafValue⟩, ?_, ?_⟩
      · rw [MerkleTree.insertSubtrees, List.foldlM_cons, hrun]
        exact hrun'
      · rw [hsize', hsize, List.length_drop]
        split
        case isTrue hnil =>
          rw [List.drop_eq_nil_iff] at hnil
          omega
        case isFalse => omega
      · rwa [setRange_take f _ hle] at hholds'

/-! ## A run -/

/-- A call of one of the functions that write to the tree. -/
inductive Call (α : Type) where
  | updateElement (index : Nat) (value : α)
  | updateLeafHash (index : Nat) (leafHash : α)
  | updateElements (index : Nat) (values : List α)
  | updateLeafHashes (index : Nat) (leafHashes : List α)

/-- The call on a tree. -/
def Call.apply (compress : α → α → α) (zeroBuf : α) (t : MerkleTree α) :
    Call α → Except String (MerkleTree α)
  | .updateElement index value => t.updateElement compress zeroBuf index value
  | .updateLeafHash index leafHash => t.updateLeafHash compress index leafHash
  | .updateElements index values => t.updateElements compress zeroBuf index values
  | .updateLeafHashes index leafHashes => MerkleTree.updateLeafHashes compress t index leafHashes

/-- Calls on a tree, one after the other, up to the first that fails. -/
def run (compress : α → α → α) (zeroBuf : α) (t : MerkleTree α) (calls : List (Call α)) :
    Except String (MerkleTree α) := calls.foldlM (Call.apply compress zeroBuf) t

/-- `updateLeafHash` keeps the depth. -/
lemma updateLeafHash_depth {t' : MerkleTree α} {index : Nat} {leafHash : α}
    (hrun : t.updateLeafHash compress index leafHash = .ok t') : t'.depth = t.depth := by
  obtain ⟨written, -, hok⟩ := bind_eq_ok hrun
  obtain rfl := Except.ok.inj hok
  rfl

/-- `insertSubtree` keeps the depth. -/
lemma insertSubtree_depth {t' : MerkleTree α} {index : Nat} {values : List α}
    (hrun : t.insertSubtree compress index s values = .ok t') : t'.depth = t.depth := by
  obtain ⟨rebuilt, -, hrun⟩ := bind_eq_ok hrun
  obtain ⟨written, -, hok⟩ := bind_eq_ok hrun
  obtain rfl := Except.ok.inj hok
  rfl

/-- Inserting subtrees keeps the depth. -/
lemma insertSubtrees_depth {t' : MerkleTree α} {cs : List (Subtree α)}
    (hrun : insertSubtrees compress t cs = .ok t') : t'.depth = t.depth := by
  induction cs generalizing t with
  | nil => exact congrArg (·.depth) (Except.ok.inj hrun).symm
  | cons c cs ih =>
    obtain ⟨t₁, hfirst, hrest⟩ := bind_eq_ok hrun
    exact (ih hrest).trans (insertSubtree_depth hfirst)

/-- `updateLeafHashes` keeps the depth. -/
lemma updateLeafHashes_depth {t' : MerkleTree α} {index : Nat} {leafHashes : List α}
    (hrun : updateLeafHashes compress t index leafHashes = .ok t') : t'.depth = t.depth := by
  rw [updateLeafHashes_eq] at hrun
  exact insertSubtrees_depth hrun

/-- No call changes the depth. -/
lemma run_depth {t' : MerkleTree α} {zeroBuf : α} {calls : List (Call α)}
    (hrun : run compress zeroBuf t calls = .ok t') : t'.depth = t.depth := by
  induction calls generalizing t with
  | nil => exact congrArg (·.depth) (Except.ok.inj hrun).symm
  | cons c calls ih =>
    obtain ⟨t₁, hfirst, hrest⟩ := bind_eq_ok hrun
    refine (ih hrest).trans ?_
    cases c with
    | updateElement index value => exact updateLeafHash_depth hfirst
    | updateLeafHash index leafHash => exact updateLeafHash_depth hfirst
    | updateElements index values => exact updateLeafHashes_depth hfirst
    | updateLeafHashes index leafHashes => exact updateLeafHashes_depth hfirst

section Reference

variable (zeroBuf initialLeafValue : α)

/-- The value of an element. -/
def leafValue (value : α) : α := if value = zeroBuf then initialLeafValue else value

/-- The leaves that a call writes, from an index on. -/
def Call.writes : Call α → Nat × List α
  | .updateElement index value => (index, [leafValue zeroBuf initialLeafValue value])
  | .updateLeafHash index leafHash => (index, [leafHash])
  | .updateElements index values => (index, values.map (leafValue zeroBuf initialLeafValue))
  | .updateLeafHashes index leafHashes => (index, leafHashes)

/-- The last value that is written to each leaf, and one past the highest index. -/
structure Reference (α : Type) where
  leaf : Nat → α
  size : Nat

/-- Writes the values from `index` on. -/
def Reference.write (r : Reference α) (index : Nat) (values : List α) : Reference α where
  leaf := setRange r.leaf index values
  size := if values = [] then r.size else max r.size (index + values.length)

/-- The leaves and the size after the calls. -/
def Reference.run (calls : List (Call α)) : Reference α :=
  calls.foldl (fun r c => r.write (c.writes zeroBuf initialLeafValue).1
    (c.writes zeroBuf initialLeafValue).2) ⟨fun _ => initialLeafValue, 0⟩

/-- A call is one for the tree: its leaves are within it, and many leaves are beyond the size. The
values are no hashes of nodes. -/
structure InRange (compress : α → α → α) (t : MerkleTree α) (c : Call α) : Prop where
  within : (c.writes zeroBuf initialLeafValue).1 + (c.writes zeroBuf initialLeafValue).2.length ≤
    2 ^ t.depth
  beyond : match c with
    | .updateElements index _ | .updateLeafHashes index _ => t.size ≤ index
    | _ => True
  leaf : ∀ v ∈ (c.writes zeroBuf initialLeafValue).2, ∀ l r, compress l r ≠ v

/-- What is safe to call. -/
def Safe (compress : α → α → α) (t : MerkleTree α) (f : Nat → α) (c : Call α) : Prop :=
  match c with
  | .updateElement index _ | .updateLeafHash index _ =>
    max t.size (index + 1) < 2 ^ 32 ∧
      SafeAt compress t f (setRange f index (c.writes zeroBuf initialLeafValue).2) 0 index t.depth
  | .updateElements index _ | .updateLeafHashes index _ =>
    SafeSubtrees compress t f (subtrees index (c.writes zeroBuf initialLeafValue).2)

end Reference

/-- The tree is the one with the leaves of the reference. -/
structure Agrees (compress : α → α → α) (t : MerkleTree α) (r : Reference α) : Prop where
  root : t.root = node compress r.leaf t.depth 0
  hashPath : ∀ index < 2 ^ t.depth, t.getHashPath compress index = path compress r.leaf t.depth index
  size : t.size = r.size

variable {zeroBuf initialLeafValue : α}

/-- A call on a tree that holds the leaves of the reference. -/
lemma Holds.apply {r : Reference α} {c : Call α} (h : Holds compress t r.leaf)
    (hsize : t.size = r.size) (hinitial : t.initialLeafValue = initialLeafValue)
    (hinj : Function.Injective2 compress) (hzero : ∀ l r, compress l r ≠ initialLeafValue)
    (hrange : InRange zeroBuf initialLeafValue compress t c)
    (hsafe : Safe zeroBuf initialLeafValue compress t r.leaf c) :
    ∃ t', c.apply compress zeroBuf t = .ok t' ∧ SameTree t t' ∧
      t'.size = (r.write (c.writes zeroBuf initialLeafValue).1
        (c.writes zeroBuf initialLeafValue).2).size ∧
      Holds compress t' (r.write (c.writes zeroBuf initialLeafValue).1
        (c.writes zeroBuf initialLeafValue).2).leaf := by
  obtain ⟨hwithin, hbeyond, hleaf⟩ := hrange
  have hheight (v : α) (hv : v ∈ (c.writes zeroBuf initialLeafValue).2) :
      SameHeight compress t.initialLeafValue v := .of_ne (hinitial ▸ hzero) (hleaf v hv)
  have hone {index : Nat} {value : α} (hw : index + 1 ≤ 2 ^ t.depth)
      (hv : ∀ v ∈ [value], SameHeight compress t.initialLeafValue v)
      (hs : max t.size (index + 1) < 2 ^ 32 ∧
        SafeAt compress t r.leaf (setRange r.leaf index [value]) 0 index t.depth) :
      ∃ t', t.updateLeafHash compress index value = .ok t' ∧ SameTree t t' ∧
        t'.size = (r.write index [value]).size ∧ Holds compress t' (r.write index [value]).leaf := by
    rw [setRange_singleton] at hs
    obtain ⟨t', hrun, hsame, hsize', hholds⟩ :=
      h.updateLeafHash hinj hw (hv value List.mem_cons_self) hs.2 hs.1
    refine ⟨t', hrun, hsame, ?_, ?_⟩
    · rw [hsize', hsize]
      rfl
    · rw [← setRange_singleton] at hholds
      exact hholds
  have hmany {index : Nat} {values : List α} (hw : index + values.length ≤ 2 ^ t.depth)
      (hge : t.size ≤ index) (hv : ∀ v ∈ values, SameHeight compress t.initialLeafValue v)
      (hs : SafeSubtrees compress t r.leaf (subtrees index values)) :
      ∃ t', updateLeafHashes compress t index values = .ok t' ∧ SameTree t t' ∧
        t'.size = (r.write index values).size ∧ Holds compress t' (r.write index values).leaf := by
    obtain ⟨t', hrun, hsame, hsize', hholds⟩ := h.insertSubtrees hinj hv hge hw hs
    refine ⟨t', (updateLeafHashes_eq t index values).trans hrun, hsame, ?_, hholds⟩
    rw [hsize', Reference.write, ← hsize]
    split
    case isTrue => rfl
    case isFalse => exact (Nat.max_eq_right (by omega)).symm
  cases c with
  | updateElement index value =>
    rw [Call.apply, updateElement, hinitial]
    exact hone hwithin hheight hsafe
  | updateLeafHash index leafHash => exact hone hwithin hheight hsafe
  | updateElements index values =>
    rw [Call.apply, updateElements, hinitial]
    exact hmany hwithin hbeyond hheight hsafe
  | updateLeafHashes index leafHashes => exact hmany hwithin hbeyond hheight hsafe

/-- After safe calls within range the tree represents the leaves of the reference. -/
lemma holds_run (hinj : Function.Injective2 compress) (hzero : ∀ l r, compress l r ≠ initialLeafValue)
    {depth : Nat} {t₀ : MerkleTree α}
    (hnew : MerkleTree.new compress (fun _ => none) depth initialLeafValue = .ok t₀)
    {calls : List (Call α)}
    (hrange : ∀ before c after, calls = before ++ c :: after →
      ∀ t, run compress zeroBuf t₀ before = .ok t → InRange zeroBuf initialLeafValue compress t c)
    (hsafe : ∀ before c after, calls = before ++ c :: after →
      ∀ t, run compress zeroBuf t₀ before = .ok t → Safe zeroBuf initialLeafValue compress t
        (Reference.run zeroBuf initialLeafValue before).leaf c) :
    ∃ t, run compress zeroBuf t₀ calls = .ok t ∧ t.initialLeafValue = initialLeafValue ∧
      t.size = (Reference.run zeroBuf initialLeafValue calls).size ∧
      Holds compress t (Reference.run zeroBuf initialLeafValue calls).leaf := by
  induction calls using List.reverseRecOn with
  | nil =>
    obtain ⟨hholds, hsize, hinitial⟩ := holds_new (.of_ne hzero hzero) hnew
    exact ⟨t₀, rfl, hinitial, hsize, hholds⟩
  | append_singleton calls c ih =>
    have hinitial {before c' after} (hsplit : calls = before ++ c' :: after) :
        calls ++ [c] = before ++ c' :: (after ++ [c]) := by
      rw [hsplit, List.append_assoc, List.cons_append]
    obtain ⟨t, hrun, hinitial, hsize, hholds⟩ := ih
      (fun before c' after hsplit => hrange before c' _ (hinitial hsplit))
      (fun before c' after hsplit => hsafe before c' _ (hinitial hsplit))
    obtain ⟨t', hcall, hsame, hsize', hholds'⟩ := hholds.apply hsize hinitial hinj hzero
      (hrange calls c [] rfl t hrun) (hsafe calls c [] rfl t hrun)
    refine ⟨t', ?_, hsame.initialLeafValue.trans hinitial, ?_, ?_⟩
    · rw [run, List.foldlM_append, ← run, hrun]
      show (do let t ← Call.apply compress zeroBuf t c; .ok t) = _
      rw [hcall]
      rfl
    · rw [hsize', Reference.run, Reference.run, List.foldl_append]
      rfl
    · rw [Reference.run, List.foldl_append]
      exact hholds'

/-- While the calls are safe when their turn comes, the tree is the one of the reference. -/
theorem agrees_run (hinj : Function.Injective2 compress)
    (hzero : ∀ l r, compress l r ≠ initialLeafValue) {depth : Nat} {t₀ : MerkleTree α}
    (hnew : MerkleTree.new compress (fun _ => none) depth initialLeafValue = .ok t₀)
    (calls : List (Call α))
    (hrange : ∀ before c after, calls = before ++ c :: after →
      ∀ t, run compress zeroBuf t₀ before = .ok t → InRange zeroBuf initialLeafValue compress t c)
    (hsafe : ∀ before c after, calls = before ++ c :: after →
      ∀ t, run compress zeroBuf t₀ before = .ok t → Safe zeroBuf initialLeafValue compress t
        (Reference.run zeroBuf initialLeafValue before).leaf c)
    (before : List (Call α)) (hbefore : before <+: calls) :
    ∃ t, run compress zeroBuf t₀ before = .ok t ∧
      Agrees compress t (Reference.run zeroBuf initialLeafValue before) := by
  obtain ⟨rest, rfl⟩ := hbefore
  have hinitial {before' c after} (hsplit : before = before' ++ c :: after) :
      before ++ rest = before' ++ c :: (after ++ rest) := by
    rw [hsplit, List.append_assoc, List.cons_append]
  obtain ⟨t, hrun, -, hsize, hholds⟩ := holds_run hinj hzero hnew
    (fun before' c after hsplit => hrange before' c _ (hinitial hsplit))
    (fun before' c after hsplit => hsafe before' c _ (hinitial hsplit))
  exact ⟨t, hrun, hholds.root, fun index hindex => hholds.getHashPath hinj hindex, hsize⟩

/-! ### A leaf that is written twice, and two leaves at once -/

namespace SampleRun

/-- The first leaf is written. -/
def first : Call Hash := .updateElement 0 (.leaf 2)

/-- It is written again. -/
def second : Call Hash := .updateElement 0 (.leaf 3)

/-- Two leaves are written at once. -/
def bulk : Call Hash := .updateElements 2 [.leaf 4, .leaf 5]

/-- What has been called before a call. -/
lemma split {before after : List (Call Hash)} {c : Call Hash}
    (h : [first, second, bulk] = before ++ c :: after) :
    before = [] ∧ c = first ∨ before = [first] ∧ c = second ∨ before = [first, second] ∧ c = bulk := by
  rcases before with - | ⟨b₁, - | ⟨b₂, - | ⟨b₃, before⟩⟩⟩
  · cases h
    exact .inl ⟨rfl, rfl⟩
  · cases h
    exact .inr (.inl ⟨rfl, rfl⟩)
  · cases h
    exact .inr (.inr ⟨rfl, rfl⟩)
  · have hlength := congrArg List.length h
    simp only [List.length_append, List.length_cons, List.length_nil] at hlength
    omega

/-- A path to the first leaf is safe while the rest of the tree is empty. -/
lemma safeAt {t : MerkleTree Hash} {f f' : Nat → Hash} {s q n : Nat} (hf : ∀ k, k ≠ 0 → f k = .leaf 1)
    (hq : ∀ m < n, q / 2 ^ (m + 1) = 0) (hpath : ∀ m < n, ¬ Blob t.db (onPath Hash.compress s q f (m + 1)))
    (hne : ∀ m < n, node Hash.compress (fun _ => .leaf 1) (s + (m + 1)) 0 ≠ onPath Hash.compress s q f (m + 1)) :
    SafeAt Hash.compress t f f' s q n := by
  refine ⟨hpath, fun m hm _ p hp heq _ => ?_⟩
  rw [hq m hm] at hp
  have hbeside : node Hash.compress f (s + (m + 1)) p = node Hash.compress (fun _ => .leaf 1) (s + (m + 1)) 0 := by
    refine (node_congr fun k hk => hf k ?_).trans (node_const _ _ _ _)
    rintro rfl
    exact hp (by rw [← hk, Nat.zero_div])
  exact absurd (hbeside.symm.trans heq) (hne m hm)

/-- The two leaves are one subtree. -/
lemma split_bulk {before after : List (Subtree Hash)} {c : Subtree Hash}
    (h : subtrees 2 [Hash.leaf 4, .leaf 5] = before ++ c :: after) :
    before = [] ∧ c = ⟨2, 1, [.leaf 4, .leaf 5]⟩ := by
  have hempty : subtrees 4 ([] : List Hash) = [] := by rw [subtrees, dif_pos rfl]
  have hone : subtrees 2 [Hash.leaf 4, .leaf 5] = [⟨2, 1, [.leaf 4, .leaf 5]⟩] := by
    rw [subtrees, dif_neg (List.cons_ne_nil _ _)]
    exact congrArg _ hempty
  rw [hone] at h
  cases before with
  | nil => exact ⟨rfl, (List.cons.inj h).1.symm⟩
  | cons b before =>
    exact absurd (List.cons.inj h).2.symm (List.append_ne_nil_of_right_ne_nil before (List.cons_ne_nil c after))

/-- Nothing is stored at once under a key. -/
lemma not_blob {db : Hash → Option (List Hash)} {key : Hash} (h : (db key).all (·.length ≤ 2) = true) :
    ¬ Blob db key := by
  rintro ⟨data, hdata, hlong⟩
  rw [hdata, Option.all_some, decide_eq_true_iff] at h
  omega

/-- The other leaves stay empty. -/
lemma setRange_beside (value : Hash) {f : Nat → Hash} (hf : ∀ k, k ≠ 0 → f k = .leaf 1) (k : Nat)
    (hk : k ≠ 0) : setRange f 0 [value] k = .leaf 1 := by
  rw [setRange_of_ge [value] (Nat.pos_of_ne_zero hk)]
  exact hf k hk

variable {t₀ : MerkleTree Hash} (hnew : MerkleTree.new Hash.compress (fun _ => none) 2 (.leaf 1) = .ok t₀)

include hnew

/-- The leaves are within the tree, and none is a hash of a node. -/
lemma inRange {before after : List (Call Hash)} {c : Call Hash}
    (hsplit : [first, second, bulk] = before ++ c :: after) {t : MerkleTree Hash}
    (hrun : run Hash.compress (.leaf 0) t₀ before = .ok t) :
    InRange (.leaf 0) (.leaf 1) Hash.compress t c := by
  obtain rfl := Except.ok.inj hnew
  have hleaf : ∀ v ∈ (c.writes (.leaf 0) (.leaf 1)).2, ∀ l r, Hash.compress l r ≠ v := by
    rcases split hsplit with ⟨-, rfl⟩ | ⟨-, rfl⟩ | ⟨-, rfl⟩
    all_goals
      intro v hv l r heq
      subst heq
      exact absurd hv (by simp [first, second, bulk, Call.writes, leafValue])
  rcases split hsplit with ⟨rfl, rfl⟩ | ⟨rfl, rfl⟩ | ⟨rfl, rfl⟩
  · obtain rfl := Except.ok.inj hrun
    exact ⟨by decide, trivial, hleaf⟩
  · obtain rfl := Except.ok.inj hrun
    exact ⟨by decide, trivial, hleaf⟩
  · obtain rfl := Except.ok.inj hrun
    exact ⟨by decide, show max (max 0 1) 1 ≤ 2 by decide, hleaf⟩

/-- The first write meets an empty database. -/
lemma safe_first : Safe (.leaf 0) (.leaf 1) Hash.compress t₀
    (Reference.run (.leaf 0) (.leaf 1) []).leaf first := by
  obtain rfl := Except.ok.inj hnew
  refine ⟨by decide, fun m hm => ?_, fun m hm hne p hp heq hwalk => node_const Hash.compress _ _ _⟩
  rintro ⟨data, hdata, -⟩
  nomatch hdata

/-- The second one meets the path of the first. -/
lemma safe_second {t : MerkleTree Hash} (hrun : run Hash.compress (.leaf 0) t₀ [first] = .ok t) :
    Safe (.leaf 0) (.leaf 1) Hash.compress t
      (Reference.run (.leaf 0) (.leaf 1) [first]).leaf second := by
  obtain rfl := Except.ok.inj hnew
  have hdepth : t.depth = 2 := run_depth hrun
  have hsize : t.size = 1 := congrArg (·.size) (Except.ok.inj hrun).symm
  refine ⟨by rw [hsize]; decide, ?_⟩
  rw [hdepth]
  refine safeAt (setRange_beside (.leaf 2) fun _ _ => rfl) (fun _ _ => Nat.zero_div _)
    (fun m hm => not_blob ?_) fun m hm => ?_
  · rw [← Except.ok.inj hrun]
    obtain rfl | rfl : m = 0 ∨ m = 1 := by omega
    · decide
    · decide
  · obtain rfl | rfl : m = 0 ∨ m = 1 := by omega
    · decide
    · decide

/-- The two leaves are one subtree, beside the one of the first leaf. -/
lemma safe_bulk {t : MerkleTree Hash} (hrun : run Hash.compress (.leaf 0) t₀ [first, second] = .ok t) :
    Safe (.leaf 0) (.leaf 1) Hash.compress t
      (Reference.run (.leaf 0) (.leaf 1) [first, second]).leaf bulk := by
  obtain rfl := Except.ok.inj hnew
  have hdepth : t.depth = 2 := run_depth hrun
  intro before c after hsplit t' hrun'
  obtain ⟨rfl, rfl⟩ := split_bulk hsplit
  obtain rfl := Except.ok.inj hrun'
  have hinitial : t.initialLeafValue = .leaf 1 :=
    congrArg (·.initialLeafValue) (Except.ok.inj hrun).symm
  refine ⟨by decide, fun hzero => ?_, fun _ => ?_⟩
  · rw [hinitial] at hzero
    exact absurd hzero (by decide)
  · show SafeAt Hash.compress t _ _ 1 1 (t.depth - 1)
    rw [hdepth]
    refine safeAt (setRange_beside (.leaf 3) (setRange_beside (.leaf 2) fun _ _ => rfl))
      (fun m hm => ?_) (fun m hm => not_blob ?_) fun m hm => ?_
    · obtain rfl : m = 0 := by omega
      rfl
    · rw [← Except.ok.inj hrun]
      obtain rfl : m = 0 := by omega
      decide
    · obtain rfl : m = 0 := by omega
      decide

end SampleRun

open SampleRun in

/-- Two writes of one leaf, and two leaves at once. -/
theorem agrees_run_sample : ∃ t₀ t, MerkleTree.new Hash.compress (fun _ => none) 2 (.leaf 1) = .ok t₀ ∧
    run Hash.compress (.leaf 0) t₀ [first, second, bulk] = .ok t ∧
    Agrees Hash.compress t (Reference.run (.leaf 0) (.leaf 1) [first, second, bulk]) := by
  obtain ⟨t₀, hnew⟩ : ∃ t₀, MerkleTree.new Hash.compress (fun _ => none) 2 (.leaf 1) = .ok t₀ :=
    ⟨_, rfl⟩
  obtain ⟨t, hrun, hagrees⟩ := agrees_run Hash.compress_injective (Hash.compress_ne_leaf 1) hnew
    [first, second, bulk] (fun _ _ _ hsplit _ hrun => inRange hnew hsplit hrun)
    (fun before c after hsplit t hrun => by
      rcases split hsplit with ⟨rfl, rfl⟩ | ⟨rfl, rfl⟩ | ⟨rfl, rfl⟩
      · obtain rfl := Except.ok.inj hrun
        exact safe_first hnew
      · exact safe_second hnew hrun
      · exact safe_bulk hnew hrun)
    _ (List.prefix_refl _)
  exact ⟨t₀, t, hnew, hrun, hagrees⟩

/-- Two subtrees are equal, and the first of them is changed. The batch deletes the node that the second
one is stored under, which is then read as empty. -/
theorem not_agrees_run : ¬ ∀ (calls : List (Call Hash)) (t₀ : MerkleTree Hash),
    MerkleTree.new Hash.compress (fun _ => none) 2 (.leaf 1) = .ok t₀ →
    (∀ before c after, calls = before ++ c :: after →
      ∀ t, run Hash.compress (.leaf 0) t₀ before = .ok t →
        InRange (.leaf 0) (.leaf 1) Hash.compress t c) →
    ∃ t, run Hash.compress (.leaf 0) t₀ calls = .ok t ∧
      Agrees Hash.compress t (Reference.run (.leaf 0) (.leaf 1) calls) := by
  intro hclaim
  have hinRange {t₀ t : MerkleTree Hash} {index n : Nat} (hdepth : t.depth = t₀.depth)
      (hindex : index + 1 ≤ 2 ^ t₀.depth) : InRange (.leaf 0) (.leaf 1) Hash.compress t
        (.updateElement index (.leaf (n + 2))) := by
    refine ⟨by rw [hdepth]; exact hindex, trivial, ?_⟩
    intro v hv
    rw [List.mem_singleton.mp hv]
    exact Hash.compress_ne_leaf (n + 2)
  obtain ⟨t, hrun, hagrees⟩ := hclaim
    [.updateElement 0 (.leaf 2), .updateElement 2 (.leaf 2), .updateElement 0 (.leaf 3)] _ rfl (by
      intro before c after hsplit t hrun
      have hdepth := run_depth hrun
      have hc : c ∈ [Call.updateElement 0 (Hash.leaf 2), .updateElement 2 (.leaf 2),
          .updateElement 0 (.leaf 3)] := hsplit ▸ List.mem_append_right before List.mem_cons_self
      rcases List.mem_cons.mp hc with rfl | hc
      · exact hinRange (n := 0) hdepth (by decide)
      rcases List.mem_cons.mp hc with rfl | hc
      · exact hinRange (n := 0) hdepth (by decide)
      rw [List.mem_singleton.mp hc]
      exact hinRange (n := 1) hdepth (by decide))
  obtain rfl := Except.ok.inj hrun
  exact absurd (hagrees.hashPath 2 (by decide)) (by decide +kernel)

end AztecConnect.Client.MerkleTree
