import AztecConnect.Client.MerkleTreeAppends

/-!
# Trees with empty leaves between others

A tree to which lists of leaves are added from the size on, some of them empty ones, and no two others
the same. It keeps the leaves of every list (`Scattered.insertSubtrees`).
-/

namespace AztecConnect.Client.MerkleTree

open HashTree NodeStore

variable {α : Type} {compress : α → α → α} {t : MerkleTree α} {f f' : Nat → α} {s q n : Nat}

/-- Only an empty leaf is there more than once. -/
def DistinctLeaves (zero : α) (f : Nat → α) : Prop := ∀ i j, f i = f j → f i ≠ zero → i = j

/-- The leaves before an index stay distinct where the others are empty. -/
lemma DistinctLeaves.first {zero : α} (hf' : DistinctLeaves zero f') {size : Nat}
    (hsame : ∀ k < size, f k = f' k) (hzero : ∀ k ≥ size, f k = zero) : DistinctLeaves zero f := by
  intro i j heq hne
  have hi : i < size := by
    by_contra hge
    exact hne (hzero i (Nat.le_of_not_lt hge))
  have hj : j < size := by
    by_contra hge
    exact hne (heq.trans (hzero j (Nat.le_of_not_lt hge)))
  rw [hsame i hi] at heq hne
  exact hf' i j (heq.trans (hsame j hj)) hne

/-- The blobs are subtrees below the size, and none is empty unless it is the whole tree. -/
structure Scattered (compress : α → α → α) (t : MerkleTree α) (f : Nat → α) : Prop
    extends Holds compress t f where
  distinct : DistinctLeaves t.initialLeafValue f
  blobs : ∀ key, Blob t.db key → ∃ h p, (p + 1) * 2 ^ h ≤ t.size ∧ key = node compress f h p ∧
    (h < t.depth → key ≠ node compress (fun _ => t.initialLeafValue) h 0)

/-- A subtree that is not empty is at one place only. -/
lemma Scattered.same_index (h : Scattered compress t f) (hinj : Function.Injective2 compress)
    {g p p' : Nat} (heq : node compress f g p = node compress f g p')
    (hne : node compress f g p ≠ node compress (fun _ => t.initialLeafValue) g 0) : p = p' := by
  by_contra hp
  refine hne ?_
  rw [← node_const compress t.initialLeafValue g p]
  refine node_congr fun k hk => ?_
  by_contra hzero
  obtain ⟨-, k', hk', hleaf⟩ := leaf_below hinj h.leaves h.leaves heq hk
  obtain rfl := h.distinct k k' hleaf hzero
  exact hp (hk.symm.trans hk')

/-- A subtree that reaches beyond the size is safe. -/
lemma Scattered.safeAt (h : Scattered compress t f) (hinj : Function.Injective2 compress)
    (hsize : t.size < (q + 1) * 2 ^ s) (hdepth : t.depth = s + n) (hwithin : q / 2 ^ n = 0)
    (f' : Nat → α) : SafeAt compress t f f' s q n where
  path m hm hblob := by
    obtain ⟨g, p, hbelow, hkey, hne⟩ := h.blobs _ hblob
    obtain rfl : s + (m + 1) = g := height_eq hinj h.leaves h.leaves hkey
    -- the node of the path ends after the subtree
    have hup : (q + 1) * 2 ^ s ≤ (q / 2 ^ (m + 1) + 1) * 2 ^ (s + (m + 1)) := by
      have hlt : q < (q / 2 ^ (m + 1) + 1) * 2 ^ (m + 1) := by
        rw [Nat.mul_comm]
        exact Nat.lt_mul_div_succ q (Nat.two_pow_pos _)
      rw [Nat.add_comm s, Nat.pow_add 2 (m + 1) s, ← Nat.mul_assoc]
      exact Nat.mul_le_mul_right _ hlt
    have hp : p = q / 2 ^ (m + 1) := by
      rcases Nat.lt_or_ge (s + (m + 1)) t.depth with hlt | hge
      · exact (h.same_index hinj hkey (hne hlt)).symm
      · -- the whole tree is below the size
        have hall : q / 2 ^ (m + 1) = 0 := by rwa [show m + 1 = n by omega]
        rw [hall, Nat.zero_add] at hup
        rw [Nat.add_mul] at hbelow
        omega
    rw [hp] at hbelow
    omega
  shared m _ _ p hp heq _ := by
    by_contra hne
    exact hp (h.same_index hinj heq (heq ▸ hne))

variable [DecidableEq α]

/-- A further subtree of hashes of the same height may be inserted. -/
lemma Scattered.insertSubtree (h : Scattered compress t f) (hinj : Function.Injective2 compress)
    {values : List α} (hlength : values.length = 2 ^ s)
    (hvalues : ∀ v ∈ values, SameHeight compress t.initialLeafValue v) (hge : t.size ≤ q * 2 ^ s)
    (hfits : q * 2 ^ s + 2 ^ s ≤ 2 ^ t.depth) (hsize : q * 2 ^ s + 2 ^ s < 2 ^ 32)
    (hdistinct : DistinctLeaves t.initialLeafValue (setRange f (q * 2 ^ s) values)) :
    ∃ t', t.insertSubtree compress (q * 2 ^ s) s values = .ok t' ∧ SameTree t t' ∧
      t'.size = q * 2 ^ s + 2 ^ s ∧ Scattered compress t' (setRange f (q * 2 ^ s) values) := by
  have hindex : q * 2 ^ s / 2 ^ s = q := Nat.mul_div_cancel _ (Nat.two_pow_pos s)
  have hend : q * 2 ^ s + 2 ^ s = (q + 1) * 2 ^ s := by rw [Nat.add_mul, Nat.one_mul]
  have hpos := Nat.two_pow_pos s
  obtain ⟨n, hn, hq⟩ := subtree_within hfits
  have hsafe : SafeSubtree compress t f (q * 2 ^ s) s values := by
    refine ⟨hsize, fun _ hlt => ?_, fun _ => ?_⟩
    · rw [hindex]
      obtain ⟨m, rfl⟩ := Nat.exists_eq_add_of_le' (by omega : 1 ≤ n)
      rw [show t.depth - (s + 1) = m by omega]
      refine h.safeAt hinj ?_ (by omega) ?_ f
      · have hhalf : q + 1 ≤ (q / 2 + 1) * 2 := by omega
        have hmul := Nat.mul_le_mul_right (2 ^ s) hhalf
        rw [Nat.mul_assoc, ← Nat.pow_succ', ← hend] at hmul
        exact Nat.lt_of_lt_of_le (by omega : t.size < q * 2 ^ s + 2 ^ s) hmul
      · rwa [Nat.div_div_eq_div_mul, ← Nat.pow_succ']
    · rw [hindex, show t.depth - s = n by omega]
      exact h.safeAt hinj (by omega) hn hq _
  obtain ⟨t', hrun, hsame, hsize', hholds, hblobs⟩ :=
    h.toHolds.insertSubtree hinj hlength hvalues hge hfits hsafe
  refine ⟨t', hrun, hsame, hsize', hholds, ?distinct, ?blobs⟩
  case distinct => rwa [hsame.initialLeafValue]
  case blobs =>
    intro key hblob
    rw [hsize', hsame.depth, hsame.initialLeafValue]
    rcases hblobs key hblob with hold | ⟨hkey, hne⟩
    · obtain ⟨g, p, hbelow, hkey, hne⟩ := h.blobs key hold
      refine ⟨g, p, by omega, hkey.trans (node_congr fun k hk => ?_), hne⟩
      refine (setRange_of_lt values ?_).symm
      have hlt : k < (p + 1) * 2 ^ g := by
        rw [← hk, Nat.mul_comm]
        exact Nat.lt_mul_div_succ k (Nat.two_pow_pos g)
      omega
    · exact ⟨s, q, hend.ge, hkey, fun hlt => zeroHashes_eq t.initialLeafValue s 0 ▸ hne hlt⟩

/-- A list that is cut into subtrees. -/
lemma Scattered.insertSubtrees (h : Scattered compress t f) (hinj : Function.Injective2 compress)
    {index : Nat} {leafHashes : List α} {cs : List (Subtree α)} (hcut : Cut index leafHashes cs)
    (hvalues : ∀ v ∈ leafHashes, SameHeight compress t.initialLeafValue v) (hge : t.size ≤ index)
    (hfits : index + leafHashes.length ≤ 2 ^ t.depth) (hsize : index + leafHashes.length < 2 ^ 32)
    (hdistinct : DistinctLeaves t.initialLeafValue (setRange f index leafHashes)) :
    ∃ t', MerkleTree.insertSubtrees compress t cs = .ok t' ∧ SameTree t t' ∧
      t'.size = (if leafHashes = [] then t.size else index + leafHashes.length) ∧
      Scattered compress t' (setRange f index leafHashes) := by
  induction hcut generalizing t f with
  | nil index =>
    rw [setRange_nil, if_pos rfl]
    exact ⟨t, rfl, ⟨rfl, rfl⟩, rfl, h⟩
  | @cons q s values leafHashes cs hlength hcut ih =>
    have hpos := Nat.two_pow_pos s
    rw [List.length_append, hlength] at hfits hsize ⊢
    rw [← setRange_append, hlength] at hdistinct ⊢
    have hfirst : DistinctLeaves t.initialLeafValue (setRange f (q * 2 ^ s) values) := by
      refine hdistinct.first (fun k hk => (setRange_of_lt _ hk).symm) fun k hk => ?_
      rw [setRange_of_ge _ (by rwa [hlength])]
      exact h.beyond k (by omega)
    obtain ⟨t₁, hrun, hsame, hsize₁, hscattered⟩ := h.insertSubtree hinj hlength
      (fun v hv => hvalues v (List.mem_append_left _ hv)) hge (by omega) (by omega) hfirst
    obtain ⟨t₂, hrun', hsame', hsize₂, hscattered'⟩ := ih hscattered
      (fun v hv => hsame.initialLeafValue ▸ hvalues v (List.mem_append_right _ hv)) hsize₁.le
      (by rw [hsame.depth]; omega) (by omega) (by rwa [hsame.initialLeafValue])
    refine ⟨t₂, ?_, ⟨hsame'.depth.trans hsame.depth,
      hsame'.initialLeafValue.trans hsame.initialLeafValue⟩, ?_, hscattered'⟩
    · rw [MerkleTree.insertSubtrees, List.foldlM_cons, hrun]
      exact hrun'
    · have hne : values ++ leafHashes ≠ [] := by
        intro hnil
        rw [List.append_eq_nil_iff] at hnil
        rw [hnil.1, List.length_nil] at hlength
        omega
      rw [hsize₂, hsize₁, if_neg hne]
      split
      case isTrue hnil => rw [hnil, List.length_nil, Nat.add_zero]
      case isFalse => rw [Nat.add_assoc]

end AztecConnect.Client.MerkleTree
