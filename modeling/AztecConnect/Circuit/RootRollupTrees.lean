import AztecConnect.Circuit.RollupSums

/-!
# The trees of a root rollup

An accepted root rollup updates the trees by its real inner rollups, one after another, and by the
notes of the previous interactions (`root_composes`). What the padding proofs are does not matter
(`rootRollupCircuit_padding`).
-/

namespace AztecConnect.Circuit

variable {H : Primitives} {m n : Nat}

/-! ## Padding -/

/-- Zeros are resized to zeros. -/
lemma resize_zeros {fields : List Fr} {size : Nat} (h : ∀ x ∈ fields, x = 0)
    (hlen : fields.length ≤ size) : resize fields size = List.replicate size 0 := by
  rw [resize, List.eq_replicate_of_mem h, List.length_replicate, List.replicate_append_replicate]
  exact congrArg (List.replicate · 0) (Nat.add_sub_of_le hlen)

/-- The data of a padding proof. -/
lemma resize_scale_zero (p : RollupProof) (size : Nat) :
    resize ((p.scale 0).innerProofsData.take size) size = List.replicate size 0 := by
  refine resize_zeros (fun x hx => ?_) (List.length_take_le _ _)
  obtain ⟨y, -, rfl⟩ := List.mem_map.mp (List.mem_of_mem_take hx)
  exact mul_zero y

/-- Cleared proofs differ in the data of their transactions only. -/
lemma scale_zero_eq (p q : RollupProof) :
    p.scale 0 = { q.scale 0 with innerProofsData := (p.scale 0).innerProofsData } := by
  simp only [RollupProof.scale, mul_zero]

/-- A padding proof can be any other. -/
lemma rootStep_padding (tx : RootRollupTx H m) (rollups : Fin m → RollupProof)
    (numInnerTxsPow2 : Nat) {num : Nat} {i : Fin m} (h : ¬ i.val < num) (st : RootLoop) :
    rootStep { tx with rollups := rollups } numInnerTxsPow2 num st i =
      rootStep tx numInnerTxsPow2 num st i := by
  have heq := scale_zero_eq (rollups i) (tx.rollups i)
  have hdata := resize_scale_zero (rollups i) (8 * numInnerTxsPow2)
  have hdata' := resize_scale_zero (tx.rollups i) (8 * numInnerTxsPow2)
  unfold rootStep
  simp only [decide_eq_false h, fieldOfBool_false, hdata, hdata']
  rw [heq]
  rfl

/-- The circuit depends on the real inner rollups only. -/
lemma rootRollupCircuit_padding (tx : RootRollupTx H m) (rollups : Fin m → RollupProof)
    (numInnerTxsPow2 numOuterTxsPow2 : Nat)
    (h : ∀ i : Fin m, i.val < tx.numInnerProofs.val → rollups i = tx.rollups i) :
    rootRollupCircuit { tx with rollups := rollups } numInnerTxsPow2 numOuterTxsPow2 =
      rootRollupCircuit tx numInnerTxsPow2 numOuterTxsPow2 := by
  have hloop := Checks.foldlM_ext (f := rootStep { tx with rollups := rollups } numInnerTxsPow2
    tx.numInnerProofs.val) (g := rootStep tx numInnerTxsPow2 tx.numInnerProofs.val)
    (l := List.finRange m) RootLoop.init fun st i _ => ?_
  · unfold rootRollupCircuit uint32 rangeCheck
    by_cases hlt : tx.numInnerProofs.val < 2 ^ 32
    · simp only [if_pos hlt, Checks.ok_bind, hloop]
    · simp only [if_neg hlt, Checks.error_bind]
  · by_cases hi : i.val < tx.numInnerProofs.val
    · unfold rootStep
      simp only [h i hi]
    · exact rootStep_padding tx rollups numInnerTxsPow2 hi st

/-! ## The trees -/

/-- The padded size is not smaller. -/
lemma le_rollupSizePow2 (n : Nat) : n ≤ rollupSizePow2 n := by
  rcases Nat.eq_zero_or_pos n with rfl | hpos
  · exact Nat.zero_le _
  have hlt : n < 2 ^ (n.log2 + 1) := Nat.lt_log2_self
  unfold rollupSizePow2
  rw [Nat.shiftLeft_eq, Nat.shiftLeft_eq, Nat.one_mul]
  by_cases heq : n = 2 ^ n.log2
  · calc n = 2 ^ n.log2 := heq
      _ ≤ 2 ^ n.log2 * 2 ^ (n != 2 ^ n.log2).toNat :=
        Nat.le_mul_of_pos_right _ (Nat.two_pow_pos _)
  · rw [bne_iff_ne.mpr heq, Bool.toNat_true, Nat.pow_one, ← Nat.pow_succ]
    exact hlt.le

/-- The batch that an inner rollup inserts. -/
lemma length_newDataValues (published : Fin n → InnerProof) :
    (newDataValues published).length = 2 * rollupSizePow2 n := by
  have hle := le_rollupSizePow2 n
  have hlen : ((List.finRange n).flatMap fun i =>
      [(published i).noteCommitment1, (published i).noteCommitment2]).length = n * 2 := by
    rw [List.length_flatMap]
    simp
  rw [newDataValues, resize, List.length_append, List.length_replicate, hlen]
  omega

/-- An inner rollup inserts its notes and its nullifiers. -/
structure Updates (rollup : RollupTx H n) (inner : RollupProof)
    (data data' null null' : Fr) : Prop where
  oldDataRoot : inner.oldDataRoot = data
  newDataRoot : inner.newDataRoot = data'
  oldNullRoot : inner.oldNullRoot = null
  newNullRoot : inner.newNullRoot = null'
  inserted : ∃ published : Fin n → InnerProof,
    inner.innerProofsData = innerProofsData published ∧
    (newDataValues published).length = 2 * rollupSizePow2 n ∧
    H.batchUpdateMembership data' data rollup.oldDataPath (newDataValues published)
      inner.dataStartIndex = true ∧
    rollup.oldNullRoot = null ∧
    checkNullifiersInserted rollup rollup.numTxs.val published = .ok null'

section

variable {rollup : RollupTx H n} {scope : RollupScope} {inner : RollupProof}

/-- An inner rollup updates both trees. -/
lemma RollupSpec.updates (h : RollupSpec rollup scope inner) {data null : Fr}
    (hdata : inner.oldDataRoot = data) (hnull : inner.oldNullRoot = null) :
    Updates rollup inner data inner.newDataRoot null inner.newNullRoot := by
  refine ⟨hdata, rfl, hnull, rfl, _, congrArg RollupProof.innerProofsData h.proof_eq,
    length_newDataValues _, ?_, ?_, ?_⟩
  · have hold := congrArg RollupProof.oldDataRoot h.proof_eq
    have hnew := congrArg RollupProof.newDataRoot h.proof_eq
    have hstart := congrArg RollupProof.dataStartIndex h.proof_eq
    rw [← hdata, hold, hnew, hstart]
    exact h.dataUpdated
  · exact (congrArg RollupProof.oldNullRoot h.proof_eq).symm.trans hnull
  · rw [← h.inScope.numTxs]
    exact h.nullifiers

/-- Its start index has 32 bits. -/
lemma RollupSpec.dataStartIndex_lt (h : RollupSpec rollup scope inner) :
    inner.dataStartIndex.val < 2 ^ 32 := by
  have hstart := congrArg RollupProof.dataStartIndex h.proof_eq
  rw [hstart]
  exact h.dataStartIndex

end

/-- The root of a tree before the `i`-th inner rollup. -/
def rootAt (tx : RootRollupTx H m) (oldRoot : Fr) (newRoot : RollupProof → Fr) : Nat → Fr
  | 0 => oldRoot
  | i + 1 => if h : i < m then newRoot (tx.rollups ⟨i, h⟩) else oldRoot

section

variable {tx : RootRollupTx H m} {rollups : Fin m → RollupTx H n} {proof : RootRollupProof}

/-- The root after an inner rollup is its new root. -/
lemma rootAt_succ {oldRoot : Fr} {newRoot : RollupProof → Fr} (i : Fin m) :
    rootAt tx oldRoot newRoot (i.val + 1) = newRoot (tx.rollups i) := dif_pos i.isLt

/-- The number of real inner rollups. -/
def RootRollupTx.numReal (tx : RootRollupTx H m) : Nat := min m tx.numInnerProofs.val

/-- The real inner rollups come first. -/
lemma lt_numReal {i : Fin m} : i.val < tx.numReal ↔ i.val < tx.numInnerProofs.val := by
  have hi := i.isLt
  unfold RootRollupTx.numReal
  omega

/-- There is one at least. -/
lemma RootAccepted.numReal_pos (h : RootAccepted tx rollups proof) (hm : 0 < m) : 0 < tx.numReal :=
  Nat.lt_min.mpr ⟨hm, h.root.num_pos hm⟩

/-- The roots before an inner rollup are those it starts from. -/
lemma RootAccepted.old_roots (h : RootAccepted tx rollups proof) {i : Fin m}
    (hi : i.val < tx.numReal) :
    (tx.rollups i).oldDataRoot = rootAt tx proof.header.oldDataRoot (·.newDataRoot) i ∧
      (tx.rollups i).oldNullRoot = rootAt tx proof.header.oldNullRoot (·.newNullRoot) i := by
  have hm : 0 < m := i.pos
  obtain ⟨i, hlt⟩ := i
  cases i with
  | zero =>
    have hpos := h.numReal_pos hm
    have hlast : tx.numReal - 1 < m := by
      have hle : tx.numReal ≤ m := Nat.min_le_left _ _
      omega
    obtain ⟨-, hdata, hnull, -, -⟩ := h.root.ends ⟨0, hlt⟩ ⟨tx.numReal - 1, hlast⟩ rfl
      (Nat.sub_add_cancel hpos)
    exact ⟨hdata.symm, hnull.symm⟩
  | succ k =>
    have hk : k < m := Nat.lt_of_succ_lt hlt
    have hf := h.root.follows ⟨0, hm⟩ ⟨k, hk⟩ ⟨k + 1, hlt⟩ rfl rfl (lt_numReal.mp hi)
    exact ⟨hf.oldDataRoot.trans (rootAt_succ ⟨k, hk⟩).symm,
      hf.oldNullRoot.trans (rootAt_succ ⟨k, hk⟩).symm⟩

/-- The roots after the last inner rollup are those of the header. -/
lemma RootAccepted.new_roots (h : RootAccepted tx rollups proof) :
    rootAt tx proof.header.oldDataRoot (·.newDataRoot) tx.numReal = proof.header.newDataRoot ∧
      rootAt tx proof.header.oldNullRoot (·.newNullRoot) tx.numReal = proof.header.newNullRoot := by
  rcases Nat.eq_zero_or_pos m with hm | hm
  · have hzero : tx.numReal = 0 := Nat.le_zero.mp (hm ▸ Nat.min_le_left m _)
    obtain ⟨hdata, hnull⟩ := h.root.empty hm
    rw [hzero]
    exact ⟨hdata.symm, hnull.symm⟩
  · have hpos := h.numReal_pos hm
    have hle : tx.numReal ≤ m := Nat.min_le_left _ _
    obtain ⟨k, hk⟩ := Nat.exists_eq_succ_of_ne_zero hpos.ne'
    have hlt : k < m := by omega
    obtain ⟨-, -, -, hdata, hnull⟩ := h.root.ends ⟨0, hm⟩ ⟨k, hlt⟩ rfl hk.symm
    rw [hk]
    exact ⟨(rootAt_succ ⟨k, hlt⟩).trans hdata.symm, (rootAt_succ ⟨k, hlt⟩).trans hnull.symm⟩

/-- The batches of the inner rollups are adjacent. -/
lemma RootAccepted.dataStartIndex (h : RootAccepted tx rollups proof)
    (hsize : m * (2 * rollupSizePow2 n) < 2 ^ 64) {i : Fin m} (hi : i.val < tx.numReal) :
    (tx.rollups i).dataStartIndex.val =
      proof.header.dataStartIndex.val + i * (2 * rollupSizePow2 n) := by
  have hm : 0 < m := i.pos
  have hpos := h.numReal_pos hm
  have hlast : tx.numReal - 1 < m := by
    have hle : tx.numReal ≤ m := Nat.min_le_left _ _
    omega
  obtain ⟨hstart, -⟩ := h.root.ends ⟨0, hm⟩ ⟨tx.numReal - 1, hlast⟩ rfl (Nat.sub_add_cancel hpos)
  rw [hstart]
  obtain ⟨i, hlt⟩ := i
  cases i with
  | zero => rw [Nat.zero_mul, Nat.add_zero]
  | succ k =>
    have hk : k < m := Nat.lt_of_succ_lt hlt
    have hf := h.root.follows ⟨0, hm⟩ ⟨k, hk⟩ ⟨k + 1, hlt⟩ rfl rfl (lt_numReal.mp hi)
    obtain ⟨_, hfirst⟩ := h.inner ⟨0, hm⟩
    obtain ⟨_, hspec⟩ := h.inner ⟨k + 1, hlt⟩
    have hfirst' := hfirst.dataStartIndex_lt
    have hspec' := hspec.dataStartIndex_lt
    have hoffset : (k + 1) * (2 * rollupSizePow2 n) ≤ m * (2 * rollupSizePow2 n) :=
      Nat.mul_le_mul_right _ hlt.le
    have hr := two_pow_lt_fieldModulus
    show _ = _ + (k + 1) * (2 * rollupSizePow2 n)
    refine natCast_inj (by omega) (by omega) ?_
    rw [natCast_val, Nat.cast_add, natCast_val, hf.dataStartIndex]
    exact congrArg (fun k : Nat => _ + (k : Fr)) (by ring)

end

/-- An accepted root rollup: the real inner rollups are a prefix, and each continues the trees where
the one before it stopped; the padding proofs can be any other. The header has the roots before the
first and after the last, the new data root is inserted in the data roots tree, and the notes of the
previous interactions in the defi tree. -/
theorem root_composes {tx : RootRollupTx H m} {rollups : Fin m → RollupTx H n}
    {proof : RootRollupProof} (h : RootAccepted tx rollups proof)
    (hsize : m * (2 * rollupSizePow2 n) < 2 ^ 64) :
    ((0 < m → 0 < tx.numReal) ∧
      ∀ i : Fin m, i.val < tx.numReal ↔ i.val < tx.numInnerProofs.val) ∧
    (∀ padded : Fin m → RollupProof, (∀ i : Fin m, i.val < tx.numReal → padded i = tx.rollups i) →
      rootRollupCircuit { tx with rollups := padded } (rollupSizePow2 n)
        (rollupSizePow2 (m * rollupSizePow2 n)) = .ok proof) ∧
    (∃ dataRoots nullRoots : Nat → Fr,
      dataRoots 0 = proof.header.oldDataRoot ∧ dataRoots tx.numReal = proof.header.newDataRoot ∧
      nullRoots 0 = proof.header.oldNullRoot ∧ nullRoots tx.numReal = proof.header.newNullRoot ∧
      ∀ i : Fin m, i.val < tx.numReal →
        (tx.rollups i).rollupId = proof.header.rollupId ∧
        (tx.rollups i).oldDataRootsRoot = proof.header.oldDataRootsRoot ∧
        (tx.rollups i).newDefiRoot = proof.header.newDefiRoot ∧
        (tx.rollups i).dataStartIndex.val =
          proof.header.dataStartIndex.val + i * (2 * rollupSizePow2 n) ∧
        Updates (rollups i) (tx.rollups i) (dataRoots i) (dataRoots (i + 1)) (nullRoots i)
          (nullRoots (i + 1))) ∧
    (∃ index : Nat, index < 2 ^ ROOT_TREE_DEPTH ∧ (index : Fr) = proof.header.rollupId + 1 ∧
      H.updateMembership proof.header.newDataRootsRoot proof.header.newDataRoot
        proof.header.oldDataRootsRoot tx.oldDataRootsPath 0 index = true) ∧
    H.batchUpdateMembership proof.header.newDefiRoot proof.header.oldDefiRoot tx.oldDefiPath
      (List.ofFn proof.header.defiInteractionNotes)
      (proof.header.rollupId * NUM_INTERACTION_RESULTS_PER_BLOCK) = true ∧
    ∀ i, proof.header.defiInteractionNotes i = if i.val < tx.numPreviousDefiInteractions.val
      then ((tx.defiInteractionNotes i).note H).commitment else 0 := by
  refine ⟨⟨h.numReal_pos, fun i => lt_numReal⟩, fun padded hpadded => ?_, ?_, ?_,
    h.root.defiUpdated, fun i => ?_⟩
  · rw [rootRollupCircuit_padding tx padded _ _ fun i hi => hpadded i (lt_numReal.mpr hi)]
    exact h.accepted
  · refine ⟨rootAt tx proof.header.oldDataRoot (·.newDataRoot),
      rootAt tx proof.header.oldNullRoot (·.newNullRoot), rfl, h.new_roots.1, rfl, h.new_roots.2,
      fun i hi => ?_⟩
    have hchecked := h.root.checked i (lt_numReal.mp hi)
    have hheader := h.root.header
    obtain ⟨hdata, hnull⟩ := h.old_roots hi
    obtain ⟨_, hspec⟩ := h.inner i
    rw [rootAt_succ, rootAt_succ]
    refine ⟨?_, ?_, ?_, h.dataStartIndex hsize hi, hspec.updates hdata hnull⟩
    · exact hchecked.rollupId.trans (congrArg RootRollupHeader.rollupId hheader).symm
    · exact hchecked.oldDataRootsRoot.trans (congrArg RootRollupHeader.oldDataRootsRoot hheader).symm
    · exact hchecked.newDefiRoot.trans (congrArg RootRollupHeader.newDefiRoot hheader).symm
  · exact ⟨_, h.root.rootIndex, natCast_val _, h.root.rootUpdated⟩
  · rw [h.root.notes i]
    by_cases hi : i.val < tx.numPreviousDefiInteractions.val
    · rw [if_pos hi, decide_eq_true hi, fieldOfBool_true, mul_one]
    · rw [if_neg hi, decide_eq_false hi, fieldOfBool_false, mul_zero]

/-! ### Two inner rollups and a padding proof -/

namespace SampleInner

open SampleClaim (primitives)

/-- The `k`-th inner rollup: its trees are those after `k` others. -/
def rollup (k : Nat) : RollupTx primitives 1 :=
  { SampleRollup.rollup true with
    dataStartIndex := 2 * k
    oldDataRoot := k * SampleClaim.proof.noteCommitment1
    newDataRoot := (k + 1) * SampleClaim.proof.noteCommitment1
    oldNullRoot := 2 * k
    newNullRoots _ i := 2 * k + i.val + 1 }

/-- Both inner circuits accept. -/
lemma rollup_ok : ∀ k : Fin 2, (rollupCircuit (rollup k)).toBool = true := by decide +kernel

/-- The last proof is padding: that of the first inner rollup. -/
def which (i : Fin 3) : Fin 2 := if i.val = 1 then 1 else 0

/-- The root rollup of both, and a padding one. -/
def tx : RootRollupTx primitives 3 where
  rollupId := 0
  numInnerProofs := 2
  rollups i := Checks.value (rollupCircuit (rollup (which i))) (rollup_ok (which i))
  oldDataRootsRoot := SampleClaim.tx.dataRoot
  newDataRootsRoot := SampleClaim.tx.dataRoot + 2 * SampleClaim.proof.noteCommitment1
  oldDataRootsPath := ()
  oldDefiRoot := SampleClaim.tx.defiRoot
  newDefiRoot := SampleClaim.tx.defiRoot
  oldDefiPath := ()
  bridgeCallDatas _ := 0
  assetIds := SampleRollup.assetIds
  defiInteractionNotes _ := SampleClaim.noteTx
  numPreviousDefiInteractions := 0
  rollupBeneficiary := 0

/-- Its circuit accepts. -/
lemma tx_ok : (rootRollupCircuit tx (rollupSizePow2 1) (rollupSizePow2 (3 * rollupSizePow2 1))).toBool =
    true := by decide +kernel

/-- What it publishes. -/
def proof : RootRollupProof := Checks.value _ tx_ok

/-- All circuits accept. -/
lemma accepted : RootAccepted tx (fun i => rollup (which i)) proof where
  rollups i := ⟨fun _ => .claim SampleClaim.tx SampleClaim.accepted, Checks.eq_ok_value _ (rollup_ok (which i))⟩
  accepted := Checks.eq_ok_value _ tx_ok

end SampleInner

/-- The second inner rollup starts at leaf 2, and the third proof can be any. -/
theorem root_composes_sample : SampleInner.tx.numReal = 2 ∧
    (SampleInner.tx.rollups 1).dataStartIndex.val = SampleInner.proof.header.dataStartIndex.val + 2 ∧
    ∀ padding : RollupProof, rootRollupCircuit { SampleInner.tx with
        rollups := Function.update SampleInner.tx.rollups 2 padding } (rollupSizePow2 1)
      (rollupSizePow2 (3 * rollupSizePow2 1)) = .ok SampleInner.proof := by
  have hreal : SampleInner.tx.numReal = 2 := by decide +kernel
  obtain ⟨-, hpadding, ⟨dataRoots, nullRoots, -, -, -, -, hinner⟩, -⟩ :=
    root_composes SampleInner.accepted (by decide)
  refine ⟨hreal, (hinner 1 (by rw [hreal]; decide)).2.2.2.1, fun padding => hpadding _ fun i hi => ?_⟩
  rw [hreal] at hi
  refine Function.update_of_ne ?_ _ _
  rintro rfl
  exact absurd hi (by decide)

end AztecConnect.Circuit
