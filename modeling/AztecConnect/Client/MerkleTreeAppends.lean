import AztecConnect.Client.MerkleTreeRuns

/-!
# A merkle tree that is only appended to

Lists of leaves that are not empty ones are appended at the size, and the write of a list may be
interrupted after any of its batches. Every batch is then safe. Until the size no longer fits what is
written of it, a list ends in the tree that its leaves one by one give, also after it was interrupted
and written again (`appends_iff`).
-/

namespace AztecConnect.Client.MerkleTree

open HashTree NodeStore
open Resumption (bind_eq_ok)

variable {α : Type} {compress : α → α → α} {t : MerkleTree α} {f f' : Nat → α} {s q n : Nat}

/-! ## A list in subtrees -/

/-- A list is cut into subtrees from an index on. Each starts where the one before it ends, at a multiple
of its size. -/
inductive Cut : Nat → List α → List (Subtree α) → Prop where
  | nil (index : Nat) : Cut index [] []
  | cons {q s : Nat} {values leafHashes : List α} {cs : List (Subtree α)} (hlength : values.length = 2 ^ s)
      (hcut : Cut (q * 2 ^ s + 2 ^ s) leafHashes cs) :
      Cut (q * 2 ^ s) (values ++ leafHashes) (⟨q * 2 ^ s, s, values⟩ :: cs)

/-- `reduceSubtree` cuts the values into subtrees. -/
lemma subtrees_cut (index : Nat) (leafHashes : List α) :
    Cut index leafHashes (subtrees index leafHashes) := by
  induction hn : leafHashes.length using Nat.strongRecOn generalizing index leafHashes with
  | ind n ih =>
    rw [subtrees]
    split
    case isTrue hnil =>
      rw [hnil]
      exact .nil index
    case isFalse hne =>
      have hpos := List.length_pos_iff.mpr hne
      obtain ⟨hle, hmod⟩ := subtreeDepthFor_spec hne index
      dsimp only
      generalize subtreeDepthFor leafHashes.length index = s at hle hmod ⊢
      obtain ⟨q, rfl⟩ := Nat.dvd_of_mod_eq_zero hmod
      have hsize := Nat.two_pow_pos s
      have hrest := ih (leafHashes.drop (2 ^ s)).length (by rw [List.length_drop]; omega)
        (q * 2 ^ s + 2 ^ s) _ rfl
      have hcut := Cut.cons (List.length_take_of_le hle) hrest
      rwa [List.take_append_drop, Nat.mul_comm] at hcut

/-- No subtrees hold no values. -/
lemma Cut.eq_nil {index : Nat} {leafHashes : List α} (hcut : Cut index leafHashes []) :
    leafHashes = [] := by
  cases hcut
  rfl

/-- The first subtrees are cut from the first leaves. -/
lemma Cut.append_inv {index : Nat} {leafHashes : List α} {cs cs' : List (Subtree α)}
    (hcut : Cut index leafHashes (cs ++ cs')) : ∃ first rest, leafHashes = first ++ rest ∧
      Cut index first cs ∧ Cut (index + first.length) rest cs' := by
  induction cs generalizing index leafHashes with
  | nil => exact ⟨[], leafHashes, rfl, .nil index, hcut⟩
  | cons c cs ih =>
    cases hcut with
    | @cons q s values leafHashes _ hlength hcut =>
      obtain ⟨first, rest, rfl, hfirst, hrest⟩ := ih hcut
      refine ⟨values ++ first, rest, (List.append_assoc _ _ _).symm, .cons hlength hfirst, ?_⟩
      rwa [List.length_append, hlength, ← Nat.add_assoc]

/-! ## Trees without gaps -/

/-- The hash of a subtree without empty leaves. -/
def Full (compress : α → α → α) (zero key : α) : Prop :=
  ∃ g h p, Leaves compress zero g ∧ (∀ k, k / 2 ^ h = p → g k ≠ zero) ∧ key = node compress g h p

/-- A node determines the leaves below it. -/
lemma leaf_below (hinj : Function.Injective2 compress) {zero : α} (hf : Leaves compress zero f)
    (hf' : Leaves compress zero f') {h h' p p' k : Nat}
    (heq : node compress f h p = node compress f' h' p') (hk : k / 2 ^ h = p) :
    h = h' ∧ ∃ k', k' / 2 ^ h' = p' ∧ f k = f' k' := by
  obtain rfl := height_eq hinj hf hf' heq
  have hmod := Nat.mod_lt k (Nat.two_pow_pos h)
  have hleaf := leaf_eq hinj heq hmod
  rw [← hk, Nat.mul_comm, Nat.div_add_mod] at hleaf
  refine ⟨rfl, p' * 2 ^ h + k % 2 ^ h, ?_, hleaf⟩
  rw [Nat.mul_comm, Nat.mul_add_div (Nat.two_pow_pos h), Nat.div_eq_of_lt hmod, Nat.add_zero]

/-- A full subtree has no empty leaf. -/
lemma Full.leaf_ne (hinj : Function.Injective2 compress) {zero : α}
    (hf : Leaves compress zero f) {h p k : Nat} (hfull : Full compress zero (node compress f h p)) (hk : k / 2 ^ h = p) :
    f k ≠ zero := by
  obtain ⟨g, h', p', hg, hne, heq⟩ := hfull
  obtain ⟨-, k', hk', hleaf⟩ := leaf_below hinj hf hg heq hk
  rw [hleaf]
  exact hne k' hk'

/-- There are no empty leaves below the size, and none in a subtree that is stored at once. -/
structure Appended (compress : α → α → α) (t : MerkleTree α) (f : Nat → α) : Prop
    extends Holds compress t f where
  filled : ∀ k < t.size, f k ≠ t.initialLeafValue
  full : ∀ key, Blob t.db key → Full compress t.initialLeafValue key

/-- A subtree that starts at the size is safe. The path to it has an empty leaf, which no blob has, nor
any subtree to the left. To the right all is empty. -/
lemma Appended.safeAt (h : Appended compress t f) (hinj : Function.Injective2 compress)
    (hsize : t.size = q * 2 ^ s) : SafeAt compress t f f' s q n where
  path m _ hblob := by
    have hindex : t.size / 2 ^ (s + (m + 1)) = q / 2 ^ (m + 1) := by
      rw [hsize, Nat.pow_add, ← Nat.div_div_eq_div_mul, Nat.mul_div_cancel _ (Nat.two_pow_pos s)]
    exact (h.full _ hblob).leaf_ne hinj h.leaves hindex (h.beyond _ (Nat.le_refl _))
  shared m _ _ p hp heq _ := by
    have hindex : t.size / 2 ^ (s + (m + 1)) = q / 2 ^ (m + 1) := by
      rw [hsize, Nat.pow_add, ← Nat.div_div_eq_div_mul, Nat.mul_div_cancel _ (Nat.two_pow_pos s)]
    have hpos := Nat.two_pow_pos (s + (m + 1))
    rcases Nat.lt_or_gt_of_ne hp with hlt | hgt
    · obtain ⟨-, k, hk, hleaf⟩ := leaf_below hinj h.leaves h.leaves heq.symm hindex
      have hbelow : k < t.size := by
        by_contra hge
        have hle := Nat.div_le_div_right (c := 2 ^ (s + (m + 1))) (Nat.le_of_not_lt hge)
        omega
      exact absurd (hleaf.symm.trans (h.beyond _ (Nat.le_refl _))) (h.filled k hbelow)
    · rw [← heq, ← node_const compress t.initialLeafValue _ p]
      refine node_congr fun k hk => h.beyond k ?_
      by_contra hlt
      have hle := Nat.div_le_div_right (c := 2 ^ (s + (m + 1))) (Nat.le_of_not_le hlt)
      omega

/-! ## Lists that can be appended -/

/-- What can be appended: distinct leaves that fit in the tree, none of them an empty one. Leaves are no
hashes of nodes, as those of the tree of subtree roots are hashes of the height of an empty subtree. -/
structure Appendable (compress : α → α → α) (t : MerkleTree α) (leafHashes : List α) : Prop where
  distinct : leafHashes.Nodup
  nonzero : ∀ v ∈ leafHashes, v ≠ t.initialLeafValue
  leaf : ∀ v ∈ leafHashes, SameHeight compress t.initialLeafValue v
  within : t.size + leafHashes.length ≤ 2 ^ t.depth

/-- A prefix of what can be appended can be. -/
lemma Appendable.left {first rest : List α} (h : Appendable compress t (first ++ rest)) :
    Appendable compress t first where
  distinct := (List.nodup_append.mp h.distinct).1
  nonzero v hv := h.nonzero v (List.mem_append_left rest hv)
  leaf v hv := h.leaf v (List.mem_append_left rest hv)
  within := by
    have hwithin := h.within
    rw [List.length_append] at hwithin
    omega

/-- What is written is read back. -/
lemma syncFromDb_eq (h : t.written = t.toMeta) : t.syncFromDb = t := by
  obtain ⟨m, db, written, initialLeafValue⟩ := t
  obtain rfl : written = m := h
  rfl

section Insert

variable [DecidableEq α]

/-- A subtree without empty leaves is inserted at the size. -/
lemma Appended.after (h : Appended compress t f) (hinj : Function.Injective2 compress)
    (hsize : t.size = q * 2 ^ s) (hdepth : t.depth = s + n)
    (hc : Change compress t.initialLeafValue t.db f f' s q n)
    (hnew : ∀ k, k / 2 ^ s = q → f' k ≠ t.initialLeafValue) {base : List (Write α)}
    (hbase : Base compress f f' s q base) : Appended compress
      (t.after (node compress f' t.depth 0) (q * 2 ^ s + 2 ^ s)
        (base ++ writeSpine compress f f' s q n)) f' := by
  have hbeyond (k : Nat) (hk : k ≥ q * 2 ^ s + 2 ^ s) : f' k = t.initialLeafValue := by
    have hright : k / 2 ^ s ≠ q := by
      have hle := Nat.div_le_div_right (c := 2 ^ s) hk
      rw [← Nat.succ_mul, Nat.mul_div_cancel _ (Nat.two_pow_pos s)] at hle
      omega
    rw [hc.same k hright]
    refine h.beyond k ?_
    rw [hsize]
    exact Nat.le_of_add_right_le hk
  refine ⟨holds_after hinj hdepth hc hbase hbeyond, ?_, ?_⟩
  · intro k hk
    by_cases hin : k / 2 ^ s = q
    case pos => exact hnew k hin
    case neg =>
      rw [hc.same k hin]
      refine h.filled k ?_
      by_contra hge
      exact hin (Nat.div_eq_of_lt_le (by omega) (by rw [Nat.succ_mul]; exact hk))
  · intro key hblob
    rcases (hc.blob_after hinj hbase hblob).1 with hold | ⟨-, hself⟩
    · exact h.full key hold
    · exact ⟨f', s, q, hc.leaves', hnew, hself⟩

/-! ## Subtrees that are there already -/

/-- A subtree is stored at once, and the nodes above it as pairs. -/
structure Present (compress : α → α → α) (t : MerkleTree α) (f : Nat → α) (s q : Nat) : Prop where
  above : Walked compress t.db f t.depth s q
  layers : t.db (node compress f s q) = some (below compress f s q)

variable {base : List (Write α)}

/-- A subtree that is inserted is there. -/
lemma Present.self (hinj : Function.Injective2 compress) (hdepth : t.depth = s + n)
    (hc : Change compress t.initialLeafValue t.db f f' s q n) (root : α) (size : Nat) :
    Present compress (t.after root size ([.put (node compress f' s q) (below compress f' s q)] ++
      writeSpine compress f f' s q n)) f' s q where
  above g hg hblob := by
    have hg : g < n := by
      have hle : s + (g + 1) ≤ t.depth := hg
      omega
    exact (hc.blob_after hinj (.inr rfl) hblob).2 g hg rfl
  layers := by
    show applyAll t.db _ _ = _
    rw [applyAll_append, apply_writeSpine_of_ne]
    · exact Function.update_self _ _ _
    · refine fun m _ => ⟨fun heq => ?_, fun heq => ?_⟩
      · have hh := height_eq hinj hc.leaves' hc.leaves heq
        omega
      · have hh := height_eq hinj hc.leaves' hc.leaves' heq
        omega

/-- A subtree below the size is still there after one with other leaves is inserted. -/
lemma Present.after {s₀ q₀ : Nat} (h : Present compress t f s₀ q₀) (ht : Appended compress t f)
    (hinj : Function.Injective2 compress) (hsize : t.size = q * 2 ^ s) (hdepth : t.depth = s + n)
    (hc : Change compress t.initialLeafValue t.db f f' s q n) (hbase : Base compress f f' s q base)
    (hbelow : ∀ k, k / 2 ^ s₀ = q₀ → k < t.size)
    (hother : ∀ k k', k / 2 ^ s₀ = q₀ → k' / 2 ^ s = q → f k ≠ f' k') (root : α) (size : Nat) :
    Present compress (t.after root size (base ++ writeSpine compress f f' s q n)) f' s₀ q₀ := by
  have hbeside (k : Nat) (hk : k / 2 ^ s₀ = q₀) : k / 2 ^ s ≠ q := by
    have hlt := (Nat.div_lt_iff_lt_mul (Nat.two_pow_pos s)).mpr (hsize ▸ hbelow k hk)
    exact hlt.ne
  have hsame (k : Nat) (hk : k / 2 ^ s₀ = q₀) : f' k = f k := hc.same k (hbeside k hk)
  have hfirst : q₀ * 2 ^ s₀ / 2 ^ s₀ = q₀ := Nat.mul_div_cancel _ (Nat.two_pow_pos s₀)
  have hfirst' : q * 2 ^ s / 2 ^ s = q := Nat.mul_div_cancel _ (Nat.two_pow_pos s)
  have hup (g : Nat) : q₀ * 2 ^ s₀ / 2 ^ (s₀ + (g + 1)) = q₀ / 2 ^ (g + 1) := by
    rw [Nat.pow_add, ← Nat.div_div_eq_div_mul, hfirst]
  have hup' (m : Nat) : q * 2 ^ s / 2 ^ (s + (m + 1)) = q / 2 ^ (m + 1) := by
    rw [Nat.pow_add, ← Nat.div_div_eq_div_mul, hfirst']
  have hnode : node compress f' s₀ q₀ = node compress f s₀ q₀ := node_congr hsame
  refine ⟨?above, ?layers⟩
  case above =>
    intro g hg hblob
    obtain ⟨hold | ⟨-, hself⟩, hnew⟩ := hc.blob_after hinj hbase hblob
    · by_cases hin : ∃ k, k / 2 ^ s = q ∧ k / 2 ^ (s₀ + (g + 1)) = q₀ / 2 ^ (g + 1)
      case pos =>
        obtain ⟨k, hk, hk'⟩ := hin
        rcases Nat.lt_or_ge s (s₀ + (g + 1)) with hlt | hge
        · -- the node is above the new subtree too
          obtain ⟨m, hm⟩ := Nat.exists_eq_add_of_lt hlt
          rw [Nat.add_assoc] at hm
          have hm' : m < n := by
            have hle : s₀ + (g + 1) ≤ t.depth := hg
            omega
          refine hnew m hm' ?_
          rw [onPath, ← hk', hm, Nat.pow_add, ← Nat.div_div_eq_div_mul, hk]
        · obtain ⟨d, hd⟩ := Nat.exists_eq_add_of_le hge
          refine hbeside (q₀ * 2 ^ s₀) hfirst ?_
          rw [hd, Nat.pow_add, ← Nat.div_div_eq_div_mul, hup, ← hk', Nat.div_div_eq_div_mul,
            ← Nat.pow_add, ← hd, hk]
      case neg =>
        rw [node_congr fun k hk => hc.same k fun heq => hin ⟨k, heq, hk⟩] at hold
        exact h.above g hg hold
    · obtain ⟨-, k, hk, hleaf⟩ := leaf_below hinj hc.leaves' hc.leaves' hself (hup g)
      exact hother _ k hfirst hk ((hsame _ hfirst).symm.trans hleaf)
  case layers =>
    have hdata : applyAll t.db (base ++ writeSpine compress f f' s q n) (node compress f s₀ q₀) =
        some (below compress f s₀ q₀) := by
      rcases hc.apply_cases hinj hbase hc.leaves (h := s₀) (p := q₀) with
        ⟨m, -, heq, -, -⟩ | ⟨m, -, heq, -, -, -⟩ | ⟨heq, -⟩ | hsame
      · obtain ⟨-, k, hk, hleaf⟩ := leaf_below hinj hc.leaves' hc.leaves heq.symm (hup' m)
        exact absurd hleaf.symm (hother k _ hk hfirst')
      · obtain ⟨-, k, hk, hleaf⟩ := leaf_below hinj hc.leaves hc.leaves heq.symm (hup' m)
        rw [← hsize, ht.beyond _ (Nat.le_refl _)] at hleaf
        exact absurd hleaf.symm (ht.filled k (hbelow k hk))
      · obtain ⟨-, k, hk, hleaf⟩ := leaf_below hinj hc.leaves hc.leaves' heq hfirst
        exact absurd hleaf (hother _ k hfirst hk)
      · exact hsame.trans h.layers
    show applyAll t.db _ _ = _
    rw [hnode, hdata, below_eq hinj hnode]

/-! ## A list -/

/-- A subtree is there, and none of the leaves that are left is in it. -/
structure Apart (compress : α → α → α) (t : MerkleTree α) (f : Nat → α) (leafHashes : List α)
    (s q : Nat) : Prop extends Present compress t f s q where
  before : ∀ k, k / 2 ^ s = q → k < t.size
  other : ∀ k, k / 2 ^ s = q → f k ∉ leafHashes

/-- The leaves of a list are inserted in subtrees. -/
structure Inserted (compress : α → α → α) (t t' : MerkleTree α) (f : Nat → α) (leafHashes : List α)
    (cs : List (Subtree α)) : Prop
    extends SameTree t t', Appended compress t' (setRange f t.size leafHashes) where
  size : t'.size = t.size + leafHashes.length
  present : ∀ c ∈ cs, Present compress t' (setRange f t.size leafHashes) c.depth (c.index / 2 ^ c.depth)
  kept : ∀ s q, Apart compress t f leafHashes s q →
    Present compress t' (setRange f t.size leafHashes) s q

/-- One subtree is inserted. -/
lemma Appended.insert (h : Appended compress t f) (hinj : Function.Injective2 compress)
    (hindex : t.size = q * 2 ^ s) {values leafHashes : List α} (hlength : values.length = 2 ^ s)
    (hvalues : Appendable compress t (values ++ leafHashes)) (hsize : q * 2 ^ s + 2 ^ s < 2 ^ 32) :
    ∃ t', t.insertSubtree compress (q * 2 ^ s) s values = .ok t' ∧ SameTree t t' ∧
      t'.size = q * 2 ^ s + 2 ^ s ∧ Appended compress t' (setRange f (q * 2 ^ s) values) ∧
      Apart compress t' (setRange f (q * 2 ^ s) values) leafHashes s q ∧
      ∀ s₀ q₀, Apart compress t f (values ++ leafHashes) s₀ q₀ →
        Apart compress t' (setRange f (q * 2 ^ s) values) leafHashes s₀ q₀ := by
  obtain ⟨hdistinct, hne, hleaf, hwithin⟩ := hvalues
  rw [List.length_append, hlength, hindex] at hwithin
  obtain ⟨n, hn, hq⟩ := @subtree_within s q t.depth (by omega)
  have hmem (k : Nat) (hk : k / 2 ^ s = q) : setRange f (q * 2 ^ s) values k ∈ values :=
    setRange_mem hlength hk
  have hnew (k : Nat) (hk : k / 2 ^ s = q) : setRange f (q * 2 ^ s) values k ≠ t.initialLeafValue :=
    hne _ (List.mem_append_left _ (hmem k hk))
  have hfirst : q * 2 ^ s / 2 ^ s = q := Nat.mul_div_cancel _ (Nat.two_pow_pos s)
  have hleaves : Leaves compress t.initialLeafValue (setRange f (q * 2 ^ s) values) :=
    leaves_setRange h.leaves fun v hv => hleaf v (List.mem_append_left leafHashes hv)
  have hc := h.change (h.safeAt hinj hindex) hn hleaves (fun _ => setRange_off hlength) hq
  have hnonzero : node compress (setRange f (q * 2 ^ s) values) s q ≠
      zeroHashes compress t.initialLeafValue s := by
    rw [zeroHashes_eq t.initialLeafValue s 0]
    intro heq
    obtain ⟨-, k, -, hzero⟩ := leaf_below hinj hleaves h.leaves.zero heq hfirst
    exact hnew _ hfirst hzero
  refine ⟨_, insertSubtree_after hinj h.root hn hc (hashToTree_setRange f hlength)
    (fun _ => hnonzero) hsize, ⟨rfl, rfl⟩, rfl, h.after hinj hindex hn hc hnew (.inr rfl), ?self, ?kept⟩
  case self =>
    refine ⟨Present.self hinj hn hc _ _, fun k hk => ?_, fun k hk hin => ?_⟩
    · show k < q * 2 ^ s + 2 ^ s
      have hmod := Nat.mod_lt k (Nat.two_pow_pos s)
      have hdiv := Nat.div_add_mod k (2 ^ s)
      rw [hk, Nat.mul_comm] at hdiv
      omega
    · exact (List.nodup_append.mp hdistinct).2.2 _ (hmem k hk) _ hin rfl
  case kept =>
    intro s₀ q₀ h₀
    have hbeside (k : Nat) (hk : k / 2 ^ s₀ = q₀) : setRange f (q * 2 ^ s) values k = f k :=
      setRange_of_lt values (hindex ▸ h₀.before k hk)
    refine ⟨h₀.toPresent.after h hinj hindex hn hc (.inr rfl) h₀.before ?_ _ _, ?_, ?_⟩
    · intro k k' hk hk' heq
      refine h₀.other k hk (List.mem_append_left _ ?_)
      rw [heq]
      exact hmem k' hk'
    · intro k hk
      show k < q * 2 ^ s + 2 ^ s
      have hlt := h₀.before k hk
      omega
    · intro k hk hin
      rw [hbeside k hk] at hin
      exact h₀.other k hk (List.mem_append_right values hin)

/-- Inserting the subtrees of an append appends. -/
lemma Appended.inserted (h : Appended compress t f) (hinj : Function.Injective2 compress)
    {index : Nat} {leafHashes : List α} {cs : List (Subtree α)} (hcut : Cut index leafHashes cs)
    (hindex : t.size = index) (hleaves : Appendable compress t leafHashes)
    (hsize : index + leafHashes.length < 2 ^ 32) :
    ∃ t', insertSubtrees compress t cs = .ok t' ∧ Inserted compress t t' f leafHashes cs := by
  induction hcut generalizing t f with
  | nil index =>
    refine ⟨t, rfl, ⟨⟨rfl, rfl⟩, ?_, rfl, fun _ hc => absurd hc List.not_mem_nil, ?_⟩⟩
    · rwa [setRange_nil]
    · intro s q h₀
      rw [setRange_nil]
      exact h₀.toPresent
  | @cons q s values leafHashes cs hlength hcut ih =>
    rw [List.length_append, hlength] at hsize
    obtain ⟨t₁, hrun, hsame, hsize₁, happended, hself, hkept⟩ :=
      h.insert hinj hindex hlength hleaves (by omega)
    obtain ⟨hdistinct, hne, hleaf, hwithin⟩ := hleaves
    rw [List.length_append, hlength, hindex] at hwithin
    have hrest : Appendable compress t₁ leafHashes := {
      distinct := (List.nodup_append.mp hdistinct).2.1
      nonzero := fun v hv => by
        rw [hsame.initialLeafValue]
        exact hne v (List.mem_append_right values hv)
      leaf := fun v hv => by
        rw [hsame.initialLeafValue]
        exact hleaf v (List.mem_append_right values hv)
      within := by
        rw [hsize₁, hsame.depth]
        omega }
    obtain ⟨t₂, hrun', hinserted⟩ := ih happended hsize₁ hrest (by omega)
    have hrange : setRange (setRange f (q * 2 ^ s) values) t₁.size leafHashes =
        setRange f t.size (values ++ leafHashes) := by
      rw [hsize₁, hindex, ← hlength, setRange_append]
    obtain ⟨hsame', happended', hsize', hpresent', hkept'⟩ := hinserted
    rw [hrange] at happended' hpresent' hkept'
    refine ⟨t₂, ?_, ⟨⟨hsame'.depth.trans hsame.depth,
      hsame'.initialLeafValue.trans hsame.initialLeafValue⟩, happended', ?_, ?_, ?_⟩⟩
    · rw [insertSubtrees, List.foldlM_cons, hrun]
      exact hrun'
    · rw [hsize', hsize₁, hindex, List.length_append, hlength, Nat.add_assoc]
    · intro c hc
      rcases List.mem_cons.mp hc with rfl | hc
      · have hstart := hkept' s q hself
        rwa [← Nat.mul_div_cancel q (Nat.two_pow_pos s)] at hstart
      · exact hpresent' c hc
    · exact fun s₀ q₀ h₀ => hkept' s₀ q₀ (hkept s₀ q₀ h₀)

/-! ## A list that is written again -/

/-- A tree is as it was written. -/
lemma after_self (h : t.written = t.toMeta) : t.after t.root t.size [] = t := by
  obtain ⟨m, db, written, initialLeafValue⟩ := t
  obtain rfl : written = m := h
  rfl

/-- A subtree that is there is inserted again. Only the size changes. -/
lemma Present.insert_again (h : Present compress t f s q) (ht : Appended compress t f)
    (hinj : Function.Injective2 compress) {values : List α} (hlength : values.length = 2 ^ s)
    (hvalues : setRange f (q * 2 ^ s) values = f) (hbelow : q * 2 ^ s + 2 ^ s ≤ t.size)
    (hfits : t.size ≤ 2 ^ t.depth) (hsize : t.size < 2 ^ 32) (size : Nat) :
    (t.after t.root size []).insertSubtree compress (q * 2 ^ s) s values =
      .ok (t.after t.root (q * 2 ^ s + 2 ^ s) []) := by
  obtain ⟨n, hn, hq⟩ := subtree_within (Nat.le_trans hbelow hfits)
  have hfirst : q * 2 ^ s / 2 ^ s = q := Nat.mul_div_cancel _ (Nat.two_pow_pos s)
  have hfilled : f (q * 2 ^ s) ≠ t.initialLeafValue := by
    have hpos := Nat.two_pow_pos s
    exact ht.filled _ (by omega)
  have hpath (m : Nat) (hm : m < n) : ¬ Blob t.db (onPath compress s q f (m + 1)) :=
    h.above m (by omega)
  have hc := ht.change (show SafeAt compress t f f s q n from
    ⟨hpath, fun _ _ hne => absurd rfl hne⟩) hn ht.leaves (fun _ _ => rfl) hq
  have hhashes := @hashToTree_setRange _ compress _ q f _ hlength
  rw [hvalues] at hhashes
  have hnonzero : node compress f s q ≠ zeroHashes compress t.initialLeafValue s := by
    rw [zeroHashes_eq t.initialLeafValue s 0]
    intro heq
    obtain ⟨-, k, -, hzero⟩ := leaf_below hinj ht.leaves ht.leaves.zero heq hfirst
    exact hfilled hzero
  have hpairs (m : Nat) (hm : m < n) : t.db (onPath compress s q f (m + 1)) =
      some (childrenOf compress f s q m) := by
    rcases hc.stored_path hinj (m := m + 1) hm with ⟨-, hzero⟩ | ⟨hpair, -, -⟩ | ⟨hblob, hlen⟩
    · have hup : q * 2 ^ s / 2 ^ (s + (m + 1)) = q / 2 ^ (m + 1) := by
        rw [Nat.pow_add, ← Nat.div_div_eq_div_mul, hfirst]
      obtain ⟨-, k, -, hzero⟩ := leaf_below hinj ht.leaves ht.leaves.zero hzero hup
      exact absurd hzero hfilled
    · exact hpair
    · exact absurd ⟨_, hblob, hlen⟩ (hpath m hm)
  have hdb := applyAll_again h.layers hpairs
  have hrun := insertSubtree_after (t := t.after t.root size []) hinj ht.root hn hc hhashes
    (fun _ => hnonzero) (by omega)
  rw [hrun]
  show Except.ok { t with
    toMeta := { t.toMeta with root := node compress f t.depth 0, size := q * 2 ^ s + 2 ^ s }
    written := { t.toMeta with root := node compress f t.depth 0, size := q * 2 ^ s + 2 ^ s }
    db := applyAll t.db _ } = _
  rw [hdb, ← ht.root]
  rfl

/-- The first subtrees of a list are inserted again, after which the tree is as it was. -/
lemma Appended.insertSubtrees_again (h : Appended compress t f) (hinj : Function.Injective2 compress)
    (hfits : t.size ≤ 2 ^ t.depth) (hsize : t.size < 2 ^ 32) {index : Nat} {leafHashes : List α}
    {cs : List (Subtree α)} (hcut : Cut index leafHashes cs)
    (hpresent : ∀ c ∈ cs, Present compress t f c.depth (c.index / 2 ^ c.depth))
    (hvalues : setRange f index leafHashes = f) (hend : index + leafHashes.length = t.size)
    {size : Nat} (hnil : cs = [] → size = t.size) :
    insertSubtrees compress (t.after t.root size []) cs = .ok t := by
  induction hcut generalizing size with
  | nil index =>
    rw [hnil rfl, after_self h.written]
    rfl
  | @cons q s values leafHashes cs hlength hcut ih =>
    rw [List.length_append, hlength] at hend
    have hfirst : setRange f (q * 2 ^ s) values = f := by
      funext k
      have hk := congrFun hvalues k
      unfold setRange at hk ⊢
      split
      case isTrue => rfl
      case isFalse hge =>
        rw [if_neg hge] at hk
        cases hget : values[k - q * 2 ^ s]? with
        | none => rfl
        | some v =>
          obtain ⟨hlt, -⟩ := List.getElem?_eq_some_iff.mp hget
          rwa [List.getElem?_append_left hlt, hget] at hk
    rw [← setRange_append, hfirst, hlength] at hvalues
    have hself : Present compress t f s q := by
      have hfound := hpresent _ List.mem_cons_self
      rwa [Nat.mul_div_cancel q (Nat.two_pow_pos s)] at hfound
    rw [insertSubtrees, List.foldlM_cons, hself.insert_again h hinj hlength hfirst
      (by omega) hfits hsize]
    refine ih (fun c hc => hpresent c (List.mem_cons_of_mem _ hc)) hvalues (by omega) fun hcs => ?_
    subst hcs
    rw [hcut.eq_nil, List.length_nil] at hend
    omega

/-! ## The leaves one by one -/

/-- Every value is written on its own. -/
def updateEach (compress : α → α → α) (t : MerkleTree α) (index : Nat) :
    List α → Except String (MerkleTree α)
  | [] => .ok t
  | leafHash :: leafHashes => do
    let t ← t.updateLeafHash compress index leafHash
    updateEach compress t (index + 1) leafHashes

/-- So does writing them one by one. -/
lemma Appended.insertedEach (h : Appended compress t f) (hinj : Function.Injective2 compress)
    {index : Nat} (hindex : t.size = index) {leafHashes : List α}
    (hleaves : Appendable compress t leafHashes) (hsize : index + leafHashes.length < 2 ^ 32) :
    ∃ t', updateEach compress t index leafHashes = .ok t' ∧ SameTree t t' ∧
      Appended compress t' (setRange f index leafHashes) := by
  induction leafHashes generalizing t f index with
  | nil =>
    refine ⟨t, rfl, ⟨rfl, rfl⟩, ?_⟩
    rwa [setRange_nil]
  | cons leafHash leafHashes ih =>
    obtain ⟨hdistinct, hne, hleaf, hwithin⟩ := hleaves
    rw [List.length_cons] at hwithin hsize
    have hsize₀ : t.size = index * 2 ^ 0 := by rw [hindex, Nat.pow_zero, Nat.mul_one]
    have hq : index / 2 ^ t.depth = 0 := Nat.div_eq_of_lt (by omega)
    have hc := h.change (show SafeAt compress t f (Function.update f index leafHash) 0 index t.depth from
      h.safeAt hinj hsize₀)
      (Nat.zero_add _).symm (h.leaves.update (hleaf leafHash List.mem_cons_self))
      (fun k hk => Function.update_of_ne (fun heq => hk (by rw [heq, Nat.pow_zero, Nat.div_one])) _ _) hq
    have hrun := updateLeafHash_eq h.toHolds hinj hc (by omega)
    have hmax : max t.size (index + 1) = index * 2 ^ 0 + 2 ^ 0 := by
      rw [Nat.pow_zero, Nat.mul_one]
      omega
    rw [hmax] at hrun
    have hnew (k : Nat) (hk : k / 2 ^ 0 = index) :
        Function.update f index leafHash k ≠ t.initialLeafValue := by
      rw [Nat.pow_zero, Nat.div_one] at hk
      rw [hk, Function.update_self]
      exact hne leafHash List.mem_cons_self
    have happended := h.after hinj hsize₀ (Nat.zero_add _).symm hc hnew
      (show Base compress f (Function.update f index leafHash) 0 index [] from .inl ⟨rfl, .inl rfl⟩)
    rw [← setRange_singleton] at happended hrun
    have hnext : index * 2 ^ 0 + 2 ^ 0 = index + 1 := by rw [Nat.pow_zero, Nat.mul_one]
    obtain ⟨t', hrun', hsame, happended'⟩ := ih happended hnext {
      distinct := (List.nodup_cons.mp hdistinct).2
      nonzero := fun v hv => hne v (List.mem_cons_of_mem _ hv)
      leaf := fun v hv => hleaf v (List.mem_cons_of_mem _ hv)
      within := by
        show index * 2 ^ 0 + 2 ^ 0 + _ ≤ 2 ^ t.depth
        omega } (by omega)
    refine ⟨t', ?_, ⟨hsame.depth, hsame.initialLeafValue⟩, ?_⟩
    · rw [updateEach, hrun]
      exact hrun'
    · have happend := setRange_append f index [leafHash] leafHashes
      rw [List.length_singleton, List.singleton_append] at happend
      rwa [happend] at happended'

/-! ## What a run of appends reaches -/

/-- The first `n` batches are the first subtrees. -/
lemma writeBatches_eq (n : Nat) (t : MerkleTree α) (index : Nat) (leafHashes : List α) :
    writeBatches compress n t index leafHashes =
      insertSubtrees compress t ((subtrees index leafHashes).take n) := by
  induction n generalizing t index leafHashes with
  | zero => rfl
  | succ n ih =>
    rw [writeBatches, subtrees]
    split
    case isTrue => rfl
    case isFalse =>
      rw [List.take_succ_cons, insertSubtrees, List.foldlM_cons]
      exact congrArg _ (funext fun t => ih t _ _)

/-- What is written has a size that fits. -/
lemma insertSubtree_size {t' : MerkleTree α} {index : Nat} {values : List α}
    (hrun : t.insertSubtree compress index s values = .ok t') :
    t'.size = index + 2 ^ s ∧ t'.size < 2 ^ 32 := by
  obtain ⟨rebuilt, -, hrun⟩ := bind_eq_ok hrun
  obtain ⟨written, hwritten, hok⟩ := bind_eq_ok hrun
  obtain rfl := Except.ok.inj hok
  unfold writeMeta at hwritten
  split at hwritten
  case isTrue hlt => exact ⟨rfl, hlt⟩
  case isFalse => cases hwritten

/-- The size grows by the leaves of the subtrees. -/
lemma insertSubtrees_size {t' : MerkleTree α} {index : Nat} {leafHashes : List α}
    {cs : List (Subtree α)} (hcut : Cut index leafHashes cs) (hindex : t.size = index)
    (hlt : t.size < 2 ^ 32) (hrun : insertSubtrees compress t cs = .ok t') :
    t'.size = index + leafHashes.length ∧ t'.size < 2 ^ 32 := by
  induction hcut generalizing t with
  | nil index =>
    obtain rfl := Except.ok.inj hrun
    exact ⟨hindex, hlt⟩
  | @cons q s values leafHashes cs hlength hcut ih =>
    obtain ⟨t₁, hfirst, hrest⟩ := bind_eq_ok hrun
    obtain ⟨hsize, hlt⟩ := insertSubtree_size hfirst
    rw [List.length_append, hlength, ← Nat.add_assoc]
    exact ih hsize hlt hrest

/-- A tree to which lists were appended, each at the size, where the write of each may have ended after
any number of batches and the tree was read from the database again. -/
inductive AppendOnly (compress : α → α → α) (depth : Nat) (initialLeafValue : α) :
    MerkleTree α → Prop where
  | new {t : MerkleTree α}
      (hnew : MerkleTree.new compress (fun _ => none) depth initialLeafValue = .ok t) :
      AppendOnly compress depth initialLeafValue t
  | append {t t' : MerkleTree α} {leafHashes : List α} (n : Nat)
      (h : AppendOnly compress depth initialLeafValue t) (hleaves : Appendable compress t leafHashes)
      (hrun : writeBatches compress n t t.size leafHashes = .ok t') :
      AppendOnly compress depth initialLeafValue t'.syncFromDb

/-- The first batches of a list, in a tree without gaps. -/
lemma Appended.insertedBatches (h : Appended compress t f) (hinj : Function.Injective2 compress)
    (hlt : t.size < 2 ^ 32) {leafHashes : List α} (hleaves : Appendable compress t leafHashes) {n : Nat}
    {t' : MerkleTree α} (hrun : writeBatches compress n t t.size leafHashes = .ok t') :
    ∃ first, Appendable compress t first ∧
      Cut t.size first ((subtrees t.size leafHashes).take n) ∧ t'.size < 2 ^ 32 ∧
      Inserted compress t t' f first ((subtrees t.size leafHashes).take n) := by
  have hcut := subtrees_cut t.size leafHashes
  rw [← List.take_append_drop n (subtrees t.size leafHashes)] at hcut
  obtain ⟨first, rest, rfl, hfirst, -⟩ := hcut.append_inv
  rw [writeBatches_eq] at hrun
  obtain ⟨hsize, hlt'⟩ := insertSubtrees_size hfirst rfl hlt hrun
  obtain ⟨t₁, hrun', hinserted⟩ := h.inserted hinj hfirst rfl hleaves.left (hsize ▸ hlt')
  obtain rfl := Except.ok.inj (hrun.symm.trans hrun')
  exact ⟨first, hleaves.left, hfirst, hlt', hinserted⟩

/-- A tree that was only appended to is an appended one. -/
lemma AppendOnly.appended {depth : Nat} {initialLeafValue : α} (hinj : Function.Injective2 compress)
    (hzero : SameHeight compress initialLeafValue initialLeafValue) (h : AppendOnly compress depth initialLeafValue t) :
    (∃ f, Appended compress t f) ∧ t.size < 2 ^ 32 := by
  induction h with
  | @new t hnew =>
    obtain ⟨hholds, hsize, -⟩ := holds_new hzero hnew
    refine ⟨⟨_, hholds, fun k hk => by omega, ?_⟩, by omega⟩
    rintro key ⟨data, hdata, -⟩
    unfold MerkleTree.new at hnew
    split at hnew
    case isFalse => cases hnew
    case isTrue =>
      obtain rfl := Except.ok.inj hnew
      cases hdata
  | append n h hleaves hrun ih =>
    obtain ⟨⟨f, happended⟩, hlt⟩ := ih
    obtain ⟨first, -, -, hlt', hinserted⟩ := happended.insertedBatches hinj hlt hleaves hrun
    rw [syncFromDb_eq hinserted.written]
    exact ⟨⟨_, hinserted.toAppended⟩, hlt'⟩

/-! ## An append -/

/-- A list is written in subtrees, each of its leaves in one of them and in their order, which gives the
tree of the leaves one by one. After an end of it at any batch, the list ends in the same tree again. -/
def Appends (compress : α → α → α) (t : MerkleTree α) (leafHashes : List α) : Prop :=
  ∃ t', updateLeafHashes compress t t.size leafHashes = .ok t' ∧
    t'.size = t.size + leafHashes.length ∧
    (∃ cs, Cut t.size leafHashes cs ∧ insertSubtrees compress t cs = .ok t') ∧
    (∃ e, updateEach compress t t.size leafHashes = .ok e ∧ t'.root = e.root ∧
      ∀ index < 2 ^ t.depth, t'.getHashPath compress index = e.getHashPath compress index) ∧
    ∀ n tn, writeBatches compress n t t.size leafHashes = .ok tn →
      updateLeafHashes compress tn.syncFromDb t.size leafHashes = .ok t'

/-- A list that was interrupted is written again from its start. -/
lemma Appended.updateLeafHashes_again (h : Appended compress t f) (hinj : Function.Injective2 compress)
    (hlt : t.size < 2 ^ 32) {leafHashes : List α} (hleaves : Appendable compress t leafHashes)
    {n : Nat} {tn t' : MerkleTree α}
    (hbatches : writeBatches compress n t t.size leafHashes = .ok tn)
    (hrun : insertSubtrees compress t (subtrees t.size leafHashes) = .ok t') :
    updateLeafHashes compress tn.syncFromDb t.size leafHashes = .ok t' := by
  obtain ⟨first, hfirst, hcut, hlt', hinserted⟩ := h.insertedBatches hinj hlt hleaves hbatches
  have hagain : insertSubtrees compress (tn.after tn.root tn.size [])
      ((subtrees t.size leafHashes).take n) = .ok tn := by
    refine hinserted.toAppended.insertSubtrees_again hinj ?_ hlt' hcut hinserted.present ?_
      hinserted.size.symm fun _ => rfl
    · rw [hinserted.size, hinserted.depth]
      exact hfirst.within
    · funext k
      unfold setRange
      split
      case isTrue => rfl
      case isFalse => cases first[k - t.size]? <;> rfl
  rw [after_self hinserted.written] at hagain
  have hrest : insertSubtrees compress tn ((subtrees t.size leafHashes).drop n) = .ok t' := by
    rw [← List.take_append_drop n (subtrees t.size leafHashes), insertSubtrees, List.foldlM_append,
      ← insertSubtrees, ← writeBatches_eq, hbatches] at hrun
    exact hrun
  rw [syncFromDb_eq hinserted.written, updateLeafHashes_eq,
    ← List.take_append_drop n (subtrees t.size leafHashes), insertSubtrees, List.foldlM_append,
    ← insertSubtrees, hagain]
  exact hrest

/-- Appending to it within its size appends. -/
lemma Appended.appends (h : Appended compress t f) (hinj : Function.Injective2 compress)
    (hlt : t.size < 2 ^ 32) {leafHashes : List α} (hleaves : Appendable compress t leafHashes)
    (hsize : t.size + leafHashes.length < 2 ^ 32) : Appends compress t leafHashes := by
  have hcut := subtrees_cut t.size leafHashes
  obtain ⟨t', hrun, hinserted⟩ := h.inserted hinj hcut rfl hleaves hsize
  obtain ⟨e, heach, hsame, happended⟩ := h.insertedEach hinj rfl hleaves hsize
  refine ⟨t', (updateLeafHashes_eq t _ _).trans hrun, hinserted.size, ⟨_, hcut, hrun⟩,
    ⟨e, heach, ?_, ?_⟩, ?_⟩
  · rw [hinserted.root, happended.root, hinserted.depth, hsame.depth]
  · intro index hindex
    have hpath := hinserted.toHolds.getHashPath hinj (hinserted.depth.symm ▸ hindex)
    have hpath' := happended.toHolds.getHashPath hinj (hsame.depth.symm ▸ hindex)
    rw [hpath, hpath', hinserted.depth, hsame.depth]
  · exact fun n tn hbatches => h.updateLeafHashes_again hinj hlt hleaves hbatches hrun

/-- A tree that can be appended to stays below 2³². -/
lemma Appends.size_lt {leafHashes : List α} (h : Appends compress t leafHashes)
    (hlt : t.size < 2 ^ 32) : t.size + leafHashes.length < 2 ^ 32 := by
  obtain ⟨t', -, hsize, ⟨cs, hcut, hrun⟩, -⟩ := h
  rw [← hsize]
  exact (insertSubtrees_size hcut rfl hlt hrun).2

/-- Appends do what they are for, as long as the size fits the four bytes that are written of it. -/
theorem appends_iff {depth : Nat} {initialLeafValue : α} (hinj : Function.Injective2 compress)
    (hzero : SameHeight compress initialLeafValue initialLeafValue)
    (ht : AppendOnly compress depth initialLeafValue t) {leafHashes : List α}
    (hleaves : Appendable compress t leafHashes) :
    Appends compress t leafHashes ↔ t.size + leafHashes.length < 2 ^ 32 := by
  obtain ⟨⟨f, happended⟩, hlt⟩ := ht.appended hinj hzero
  exact ⟨fun h => h.size_lt hlt, happended.appends hinj hlt hleaves⟩

end Insert

/-! ## Concrete hashes -/

/-- The sample leaf can be appended. -/
lemma appendable_leaf {t : MerkleTree Hash} (hinitial : t.initialLeafValue = .leaf 1)
    (hwithin : t.size + 1 ≤ 2 ^ t.depth) : Appendable Hash.compress t [.leaf 2] where
  distinct := List.pairwise_singleton _ _
  nonzero v hv := by
    rw [List.mem_singleton.mp hv, hinitial]
    decide
  leaf v hv := by
    rw [List.mem_singleton.mp hv, hinitial]
    exact Hash.sameHeight_leaf 1 2
  within := hwithin

/-- Three leaves are appended to the empty tree. -/
theorem appends_iff_sample : ∃ t, MerkleTree.new Hash.compress (fun _ => none) 2 (.leaf 1) = .ok t ∧
    Appends Hash.compress t [.leaf 2, .leaf 3, .leaf 4] := by
  refine ⟨_, rfl, (@appends_iff _ _ _ _ 2 (.leaf 1) Hash.compress_injective
    (Hash.sameHeight_leaf 1 1) (.new rfl) _ ⟨by decide, by decide, ?_, by decide⟩).mpr (by decide)⟩
  intro v hv
  rcases List.mem_cons.mp hv with rfl | hv
  · exact Hash.sameHeight_leaf 1 2
  rcases List.mem_cons.mp hv with rfl | hv
  · exact Hash.sameHeight_leaf 1 3
  rw [List.mem_singleton.mp hv]
  exact Hash.sameHeight_leaf 1 4

/-- One leaf at a time, a tree of the greatest depth gets to any size that is written of it. -/
lemma appendOnly_size (n : Nat) (hn : n < 2 ^ 32) : ∃ t, AppendOnly Hash.compress 32 (.leaf 1) t ∧
    t.size = n ∧ t.depth = 32 ∧ t.initialLeafValue = .leaf 1 := by
  induction n with
  | zero => exact ⟨_, .new rfl, rfl, rfl, rfl⟩
  | succ n ih =>
    obtain ⟨t, ht, hsize, hdepth, hinitial⟩ := ih (by omega)
    have hleaves := appendable_leaf hinitial (by rw [hdepth]; omega)
    obtain ⟨⟨f, happended⟩, -⟩ := ht.appended Hash.compress_injective (Hash.sameHeight_leaf 1 1)
    obtain ⟨t', hrun, hinserted⟩ := happended.inserted Hash.compress_injective
      (subtrees_cut t.size _) rfl hleaves (by rw [List.length_singleton]; omega)
    have hbatches : writeBatches Hash.compress (subtrees t.size [Hash.leaf 2]).length t t.size
        [.leaf 2] = .ok t' := by
      rw [writeBatches_eq, List.take_length]
      exact hrun
    have ht' := ht.append _ hleaves hbatches
    rw [syncFromDb_eq hinserted.written] at ht'
    refine ⟨t', ht', ?_, hinserted.depth.trans hdepth, hinserted.initialLeafValue.trans hinitial⟩
    rw [hinserted.size, hsize, List.length_singleton]

/-- The last leaf of a tree of the greatest depth cannot be appended. -/
theorem not_appends : ¬ ∀ (t : MerkleTree Hash) (leafHashes : List Hash),
    AppendOnly Hash.compress 32 (.leaf 1) t → Appendable Hash.compress t leafHashes →
    Appends Hash.compress t leafHashes := by
  intro hclaim
  obtain ⟨t, ht, hsize, hdepth, hinitial⟩ := appendOnly_size (2 ^ 32 - 1) (by decide)
  have hleaves := appendable_leaf hinitial (by rw [hdepth, hsize]; exact Nat.le_refl _)
  have hlt := (hclaim t _ ht hleaves).size_lt (by rw [hsize]; decide)
  rw [hsize, List.length_singleton] at hlt
  exact absurd hlt (by decide)

end AztecConnect.Client.MerkleTree
