import AztecConnect.Circuit.RootRollupTrees
import AztecConnect.Lib.ByteFormat
import AztecConnect.Lib.Reassembly

/-!
# What a root rollup broadcasts

Translation of `rollup/proofs/root_rollup/root_rollup_broadcast_data.cpp` and of
`rollup/proofs/root_verifier/create_root_verifier_tx.hpp`. The fields that the root rollup circuit
broadcasts are the header and the transactions of all inner rollups, in blocks of the size of an inner
rollup (`RootAccepted.broadcast`). The hash that is computed of them outside of the circuit is its public
input (`computeHash_broadcast`).
-/

namespace AztecConnect.Circuit

open ByteFormat
open Checks (Ensures)

namespace RootRollupBroadcastFields

def ROLLUP_ID : Nat := 0
def ROLLUP_SIZE : Nat := 1
def DATA_START_INDEX : Nat := 2
def OLD_DATA_ROOT : Nat := 3
def NEW_DATA_ROOT : Nat := 4
def OLD_NULL_ROOT : Nat := 5
def NEW_NULL_ROOT : Nat := 6
def OLD_DATA_ROOTS_ROOT : Nat := 7
def NEW_DATA_ROOTS_ROOT : Nat := 8
def OLD_DEFI_ROOT : Nat := 9
def NEW_DEFI_ROOT : Nat := 10
def DEFI_BRIDGE_CALL_DATAS : Nat := 11
def DEFI_BRIDGE_DEPOSITS : Nat := DEFI_BRIDGE_CALL_DATAS + NUM_BRIDGE_CALLS_PER_BLOCK
def ASSET_IDS : Nat := DEFI_BRIDGE_DEPOSITS + NUM_BRIDGE_CALLS_PER_BLOCK
def TOTAL_TX_FEES : Nat := ASSET_IDS + NUM_ASSETS
def DEFI_INTERACTION_NOTES : Nat := TOTAL_TX_FEES + NUM_ASSETS
def PREVIOUS_DEFI_INTERACTION_HASH : Nat := DEFI_INTERACTION_NOTES + NUM_BRIDGE_CALLS_PER_BLOCK
def ROLLUP_BENEFICIARY : Nat := PREVIOUS_DEFI_INTERACTION_HASH + 1
def NUM_INNER_PROOFS : Nat := ROLLUP_BENEFICIARY + 1
def INNER_PROOFS_DATA : Nat := NUM_INNER_PROOFS + 1

end RootRollupBroadcastFields

open RootRollupBroadcastFields

/-- `PropagatedInnerProofFields::NUM_FIELDS`. -/
def NUM_PROPAGATED_FIELDS : Nat := 8

/-- `tx_broadcast_data`. -/
structure TxBroadcastData where
  proofId : Fr
  noteCommitment1 : Fr
  noteCommitment2 : Fr
  nullifier1 : Fr
  nullifier2 : Fr
  publicValue : Fr
  publicOwner : Fr
  assetId : Fr
  deriving DecidableEq

/-- The fields in the order in which they are written. -/
def TxBroadcastData.toList (t : TxBroadcastData) : List Fr :=
  [t.proofId, t.noteCommitment1, t.noteCommitment2, t.nullifier1, t.nullifier2, t.publicValue,
    t.publicOwner, t.assetId]

/-- `root_rollup_broadcast_data`: the header and the data of every slot. -/
structure RootRollupBroadcastData extends RootRollupHeader where
  txData : List TxBroadcastData

namespace RootRollupBroadcastData

/-- `static_cast<uint32_t>` of a field element: its low bits. -/
def castUint32 (x : Fr) : Nat := x.val % 2 ^ 32

/-- The constructor. Reading beyond the end is undefined in the source. -/
def ofFields (fields : List Fr) : RootRollupBroadcastData :=
  let field (i : Nat) : Fr := fields.getD i 0
  { rollupId := field ROLLUP_ID
    rollupSize := field ROLLUP_SIZE
    dataStartIndex := field DATA_START_INDEX
    oldDataRoot := field OLD_DATA_ROOT
    newDataRoot := field NEW_DATA_ROOT
    oldNullRoot := field OLD_NULL_ROOT
    newNullRoot := field NEW_NULL_ROOT
    oldDataRootsRoot := field OLD_DATA_ROOTS_ROOT
    newDataRootsRoot := field NEW_DATA_ROOTS_ROOT
    oldDefiRoot := field OLD_DEFI_ROOT
    newDefiRoot := field NEW_DEFI_ROOT
    bridgeCallDatas := fun i => field (DEFI_BRIDGE_CALL_DATAS + i)
    defiDepositSums := fun i => field (DEFI_BRIDGE_DEPOSITS + i)
    assetIds := fun i => field (ASSET_IDS + i)
    totalTxFees := fun i => field (TOTAL_TX_FEES + i)
    defiInteractionNotes := fun i => field (DEFI_INTERACTION_NOTES + i)
    previousDefiInteractionHash := field PREVIOUS_DEFI_INTERACTION_HASH
    rollupBeneficiary := field ROLLUP_BENEFICIARY
    numInnerProofs := (castUint32 (field NUM_INNER_PROOFS) : Nat)
    txData := (List.range (castUint32 (field ROLLUP_SIZE))).map fun i =>
      let offset := INNER_PROOFS_DATA + i * NUM_PROPAGATED_FIELDS
      ⟨field offset, field (offset + 1), field (offset + 2), field (offset + 3), field (offset + 4),
        field (offset + 5), field (offset + 6), field (offset + 7)⟩ }

variable (data : RootRollupBroadcastData)

/-- The fields in the order in which they are written. -/
def toList : List Fr := data.toRootRollupHeader.toList ++ data.txData.flatMap TxBroadcastData.toList

/-- `to_buffer`. -/
def toBuffer : Bytes := data.toList.flatMap fun x => beBytes 32 x.val

/-- The bytes of the fields are the words of 32 bytes that `sha256` is of; the number of inner rollups is
not zero. -/
def computeHash (H : Primitives) : Fr :=
  let numInnerRollups := castUint32 data.numInnerProofs
  let numTxsPerRollup := castUint32 data.rollupSize / numInnerRollups
  let innerHash (i : Nat) : Fr := H.sha256ToField ((List.range numTxsPerRollup).flatMap fun j =>
    (data.txData.getD (i * numTxsPerRollup + j) ⟨0, 0, 0, 0, 0, 0, 0, 0⟩).toList)
  H.sha256ToField (data.toRootRollupHeader.toList ++ (List.range numInnerRollups).map innerHash)

end RootRollupBroadcastData

/-- What the root verifier is given: the bytes of the broadcast fields and the proof behind them. -/
structure RootVerifierTx where
  broadcastData : Bytes
  proofData : Bytes

/-- `create_root_verifier_tx` of what the root rollup prover has written. -/
def createRootVerifierTx (proofBuf : Bytes) (rollupSize : Nat) : RootVerifierTx :=
  let broadcastDataByteLen := 32 * (INNER_PROOFS_DATA + rollupSize * NUM_PROPAGATED_FIELDS)
  ⟨slice proofBuf 0 broadcastDataByteLen, slice proofBuf broadcastDataByteLen proofBuf.length⟩

/-- `create_root_rollup` of `rollup_cli`: what it writes of a root rollup and its proof. -/
def createRootRollup (proof : RootRollupProof) (proofData : Bytes) : Bytes :=
  (RootRollupBroadcastData.ofFields proof.broadcastFields).toBuffer ++ proofData

/-- `create_root_verifier` of `rollup_cli`: what it writes of the buffer it is given and the proof it
makes. -/
def createRootVerifier (rootRollupProofBuf : Bytes) (rollupSize : Nat) (proofData : Bytes) : Bytes :=
  (createRootVerifierTx rootRollupProofBuf rollupSize).broadcastData ++ proofData

/-! ## The blocks of transactions -/

variable {H : Primitives} {m n : Nat}

/-- A transaction as a rollup publishes it: padding, or an accepted one of which the claim note is
completed. -/
def InnerProof.Published (H : Primitives) (p : InnerProof) : Prop :=
  p = 0 ∨ ∃ q rollupId scope, TxAccepted H q ∧ p = completed H rollupId scope q

/-- The transactions of the inner rollups, padding included, are broadcast and hashed. -/
structure Broadcast (H : Primitives) (size : Nat) (proof : RootRollupProof)
    (blocks : List (List InnerProof)) : Prop where
  lengths : ∀ block ∈ blocks, block.length = size
  published : ∀ block ∈ blocks, ∀ p ∈ block, p.Published H
  numInnerProofs : proof.header.numInnerProofs = (blocks.length : Nat)
  rollupSize : proof.header.rollupSize = (blocks.length * size : Nat)
  fields : proof.broadcastFields =
    proof.header.toList ++ blocks.flatten.flatMap InnerProof.propagated
  inputHash : proof.inputHash = H.sha256ToField (proof.header.toList ++
    blocks.map fun block => H.sha256ToField (block.flatMap InnerProof.propagated))

section Blocks

/-- Completing an empty slot leaves it empty. -/
lemma completed_zero (rollupId : Fr) (scope : RollupScope) : completed H rollupId scope 0 = 0 := by
  have hdeposit : (0 : InnerProof).isDefiDeposit = false := by decide
  rw [completed, hdeposit, if_neg Bool.false_ne_true]

/-- An empty slot is broadcast as eight zeros. -/
lemma propagated_zero : InnerProof.propagated 0 = List.replicate 8 0 := rfl

/-- So are empty slots one after the other. -/
lemma flatMap_propagated_zeros (k : Nat) :
    (List.replicate k (0 : InnerProof)).flatMap InnerProof.propagated = List.replicate (8 * k) 0 := by
  induction k with
  | zero => rfl
  | succ k ih =>
    rw [List.replicate_succ, List.flatMap_cons, ih, propagated_zero, List.replicate_append_replicate,
      Nat.mul_succ, Nat.add_comm]

/-- Every slot is broadcast as eight fields. -/
lemma length_flatMap_propagated (ps : List InnerProof) :
    (ps.flatMap InnerProof.propagated).length = 8 * ps.length := by
  induction ps with
  | nil => rfl
  | cons p ps ih =>
    rw [List.flatMap_cons, List.length_append, ih, List.length_cons, Nat.mul_succ, Nat.add_comm]
    rfl

/-- The transactions of an inner rollup, with padding up to the power of two. -/
def block (published : Fin n → InnerProof) : List InnerProof :=
  (List.finRange n).map published ++ List.replicate (rollupSizePow2 n - n) 0

/-- A block has as many slots as the inner rollup is padded to. -/
lemma length_block (published : Fin n → InnerProof) : (block published).length = rollupSizePow2 n := by
  have hle := le_rollupSizePow2 n
  rw [block, List.length_append, List.length_map, List.length_finRange, List.length_replicate]
  omega

/-- The data of an inner rollup are the fields of its slots. -/
lemma innerProofsData_eq (published : Fin n → InnerProof) :
    innerProofsData published = (block published).flatMap InnerProof.propagated := by
  have hflat : ((List.finRange n).flatMap fun i => (published i).propagated) =
      ((List.finRange n).map published).flatMap InnerProof.propagated := by rw [List.flatMap_map]
  have hlength := length_flatMap_propagated ((List.finRange n).map published)
  rw [List.length_map, List.length_finRange] at hlength
  rw [innerProofsData, resize, hflat, hlength, block, List.flatMap_append, flatMap_propagated_zeros,
    Nat.mul_comm (rollupSizePow2 n), ← Nat.mul_sub]

/-- The data an accepted inner rollup publishes are those of its slots, each accepted or empty. -/
lemma RollupSpec.block {rollup : RollupTx H n} {scope : RollupScope} {inner : RollupProof}
    (h : RollupSpec rollup scope inner) (haccepted : ∀ i, TxAccepted H (rollup.txs i)) :
    ∃ txs : List InnerProof, txs.length = rollupSizePow2 n ∧ (∀ p ∈ txs, p.Published H) ∧
      inner.innerProofsData = txs.flatMap InnerProof.propagated ∧
      inner.inputsHash = H.sha256ToField (txs.flatMap InnerProof.propagated) := by
  refine ⟨Circuit.block fun i => completed H rollup.rollupId scope (rollup.masked scope.numTxs i),
    length_block _, fun p hp => ?_, ?_, ?_⟩
  · rcases List.mem_append.mp hp with hreal | hpad
    · obtain ⟨i, -, rfl⟩ := List.mem_map.mp hreal
      rcases Nat.lt_or_ge i scope.numTxs with hi | hi
      · rw [RollupTx.masked_real hi]
        exact .inr ⟨_, _, _, haccepted i, rfl⟩
      · rw [RollupTx.masked_padding (Nat.not_lt.mpr hi)]
        exact .inl (completed_zero _ _)
    · exact .inl (List.eq_of_mem_replicate hpad)
  · rw [← innerProofsData_eq]
    exact congrArg RollupProof.innerProofsData h.proof_eq
  · rw [← innerProofsData_eq]
    exact congrArg RollupProof.inputsHash h.proof_eq

end Blocks

/-! ## The broadcast fields -/

section Fields

/-- What the loop adds for an inner rollup. -/
def innerFields (tx : RootRollupTx H m) (size num : Nat) (j : Fin m) : List Fr :=
  resize (((tx.rollups j).scale (fieldOfBool (j.val < num))).innerProofsData.take (8 * size)) (8 * size)

/-- One inner rollup appends its fields. -/
lemma rootStep_fields (tx : RootRollupTx H m) (size num : Nat) (i : Fin m) (st : RootLoop) :
    Ensures (rootStep tx size num st i) fun st' =>
      st'.txProofPublicInputs = st.txProofPublicInputs ++ innerFields tx size num i := by
  have htrivial {α : Type} (x : Except String α) : Ensures x fun _ => True := fun _ _ => trivial
  simp only [rootStep, Checks.ensures_bind]
  refine (htrivial _).mono fun _ _ => (htrivial _).mono fun _ _ => (htrivial _).mono fun _ _ => ?_
  exact Checks.ensures_pure.mpr rfl

/-- The root rollup broadcasts its header, the fields of the inner rollups, and zeros up to its
size. -/
lemma rootRollupCircuit_fields (tx : RootRollupTx H m) (size outer : Nat) :
    Ensures (rootRollupCircuit tx size outer) fun proof =>
      proof.broadcastFields = proof.header.toList ++
        (List.finRange m).flatMap (innerFields tx size tx.numInnerProofs.val) ++
        List.replicate ((outer / size - m) * size * 8) 0 ∧
      proof.header.rollupSize = (outer : Nat) ∧ proof.header.numInnerProofs = (outer / size : Nat) := by
  have htrivial {α : Type} (x : Except String α) : Ensures x fun _ => True := fun _ _ => trivial
  have hloop : Ensures ((List.finRange m).foldlM (rootStep tx size tx.numInnerProofs.val) RootLoop.init)
      fun st => st.txProofPublicInputs =
        (List.finRange m).flatMap (innerFields tx size tx.numInnerProofs.val) := by
    have hinv := Checks.ensures_foldlM (I := fun i (st : RootLoop) => st.txProofPublicInputs =
      ((List.finRange m).take i).flatMap (innerFields tx size tx.numInnerProofs.val))
      (s := RootLoop.init) (f := rootStep tx size tx.numInnerProofs.val) rfl fun i st hst => ?_
    · rwa [List.take_of_length_le (List.length_finRange).le] at hinv
    · refine (rootStep_fields tx size _ i st).mono fun st' hst' => ?_
      rw [hst', hst, List.take_add_one, List.flatMap_append, List.getElem?_eq_getElem (by simp)]
      simp
  simp only [rootRollupCircuit, uint32, Checks.ensures_bind, ensures_rangeCheck]
  intro _
  refine (htrivial _).mono fun _ _ _ => hloop.mono fun st hst => ?_
  refine (htrivial _).mono fun _ _ => (htrivial _).mono fun _ _ => Checks.ensures_pure.mpr ?_
  dsimp only
  rw [hst]
  exact ⟨rfl, rfl, rfl⟩

/-- The padded size is a power of two. -/
lemma rollupSizePow2_pow (k : Nat) : ∃ e, rollupSizePow2 k = 2 ^ e := by
  refine ⟨k.log2 + (k != 1 <<< k.log2).toNat, ?_⟩
  unfold rollupSizePow2
  rw [Nat.shiftLeft_eq, Nat.shiftLeft_eq, Nat.one_mul, Nat.pow_add]

/-- The inner rollups fit in the root rollup. -/
lemma outer_eq (hm : 0 < m) (n : Nat) :
    m ≤ rollupSizePow2 (m * rollupSizePow2 n) / rollupSizePow2 n ∧
      rollupSizePow2 (m * rollupSizePow2 n) / rollupSizePow2 n * rollupSizePow2 n =
        rollupSizePow2 (m * rollupSizePow2 n) := by
  obtain ⟨a, ha⟩ := rollupSizePow2_pow n
  obtain ⟨b, hb⟩ := rollupSizePow2_pow (m * rollupSizePow2 n)
  have hle := le_rollupSizePow2 (m * rollupSizePow2 n)
  have hpos : 0 < rollupSizePow2 n := by rw [ha]; exact Nat.two_pow_pos a
  refine ⟨(Nat.le_div_iff_mul_le hpos).mpr hle, Nat.div_mul_cancel ?_⟩
  rw [hb, ha] at hle ⊢
  have hpow : 2 ^ a ≤ 2 ^ b := Nat.le_trans (Nat.le_mul_of_pos_left _ hm) hle
  exact Nat.pow_dvd_pow 2 ((Nat.pow_le_pow_iff_right (by decide)).mp hpow)

variable {tx : RootRollupTx H m} {rollups : Fin m → RollupTx H n} {proof : RootRollupProof}

/-- The block of an inner rollup: its transactions, or padding. -/
lemma RootAccepted.block (h : RootAccepted tx rollups proof) (j : Fin m) :
    ∃ txs : List InnerProof, txs.length = rollupSizePow2 n ∧ (∀ p ∈ txs, p.Published H) ∧
      innerFields tx (rollupSizePow2 n) tx.numInnerProofs.val j =
        txs.flatMap InnerProof.propagated ∧
      (if j.val < tx.numInnerProofs.val then (tx.rollups j).inputsHash
        else computeSha256OfZeroes H (rollupSizePow2 n)) =
        H.sha256ToField (txs.flatMap InnerProof.propagated) := by
  by_cases hreal : j.val < tx.numInnerProofs.val
  · obtain ⟨scope, hspec⟩ := h.inner j
    obtain ⟨txs, hlength, hpublished, hdata, hhash⟩ := hspec.block (h.rollups j).txs
    refine ⟨txs, hlength, hpublished, ?_, by rw [if_pos hreal, hhash]⟩
    have hlen := length_flatMap_propagated txs
    rw [hlength] at hlen
    rw [innerFields, decide_eq_true hreal, fieldOfBool_true, RollupProof.scale_one, hdata,
      List.take_of_length_le hlen.le, resize, hlen, Nat.sub_self]
    exact List.append_nil _
  · refine ⟨List.replicate (rollupSizePow2 n) 0, List.length_replicate,
      fun p hp => .inl (List.eq_of_mem_replicate hp), ?_, ?_⟩
    · rw [innerFields, decide_eq_false hreal, fieldOfBool_false, resize_scale_zero,
        flatMap_propagated_zeros]
    · rw [if_neg hreal, flatMap_propagated_zeros]
      rfl

/-- What an accepted root rollup broadcasts are its header and the blocks of its inner rollups,
padded to its size. -/
lemma RootAccepted.broadcast (h : RootAccepted tx rollups proof) (hm : 0 < m) :
    ∃ blocks, Broadcast H (rollupSizePow2 n) proof blocks ∧
      blocks.length * rollupSizePow2 n = rollupSizePow2 (m * rollupSizePow2 n) := by
  choose txs hlengths hpublished hfields hhashes using h.block
  obtain ⟨hle, houter⟩ := outer_eq hm n
  obtain ⟨hbroadcast, hsize, hnum⟩ := (rootRollupCircuit_fields tx _ _).apply h.accepted
  obtain ⟨padding, hpadding⟩ : ∃ k, k = rollupSizePow2 (m * rollupSizePow2 n) / rollupSizePow2 n - m :=
    ⟨_, rfl⟩
  have hlength : ((List.finRange m).map txs ++
      List.replicate padding (List.replicate (rollupSizePow2 n) (0 : InnerProof))).length =
      rollupSizePow2 (m * rollupSizePow2 n) / rollupSizePow2 n := by
    rw [List.length_append, List.length_map, List.length_finRange, List.length_replicate]
    omega
  refine ⟨(List.finRange m).map txs ++ List.replicate padding (List.replicate (rollupSizePow2 n) 0),
    ⟨fun block hblock => ?_, fun block hblock => ?_, ?_, ?_, ?_, ?_⟩, ?_⟩
  · rcases List.mem_append.mp hblock with hreal | hpad
    · obtain ⟨j, -, rfl⟩ := List.mem_map.mp hreal
      exact hlengths j
    · rw [List.eq_of_mem_replicate hpad, List.length_replicate]
  · rcases List.mem_append.mp hblock with hreal | hpad
    · obtain ⟨j, -, rfl⟩ := List.mem_map.mp hreal
      exact hpublished j
    · rw [List.eq_of_mem_replicate hpad]
      exact fun p hp => .inl (List.eq_of_mem_replicate hp)
  · rw [hlength, hnum]
  · rw [hlength, houter, hsize]
  · rw [hbroadcast, ← hpadding, List.append_assoc, List.flatten_append, List.flatMap_append]
    refine congrArg (_ ++ ·) (congrArg₂ (· ++ ·) ?_ ?_)
    · rw [List.flatten_eq_flatMap, List.flatMap_map, List.flatMap_assoc]
      exact congrArg List.flatten (List.map_congr_left fun j _ => hfields j)
    · rw [List.flatten_replicate_replicate, flatMap_propagated_zeros]
      exact congrArg (List.replicate · 0) (Nat.mul_comm _ _)
  · rw [h.root.inputHash, ← hpadding, List.append_assoc, List.map_append, List.map_map,
      List.map_replicate]
    have hlist : (List.ofFn fun j : Fin m => if j.val < tx.numInnerProofs.val
        then (tx.rollups j).inputsHash else computeSha256OfZeroes H (rollupSizePow2 n)) =
        (List.finRange m).map fun j => H.sha256ToField ((txs j).flatMap InnerProof.propagated) := by
      rw [List.ofFn_eq_map]
      exact List.map_congr_left fun j _ => hhashes j
    rw [hlist, flatMap_propagated_zeros]
    rfl
  · rw [hlength, houter]

end Fields

/-! ## Reading the fields -/

section Read

variable {proof : RootRollupProof} {blocks : List (List InnerProof)} {size : Nat}

/-- The slot as its broadcast data. -/
def InnerProof.broadcast (p : InnerProof) : TxBroadcastData :=
  ⟨p.proofId, p.noteCommitment1, p.noteCommitment2, p.nullifier1, p.nullifier2, p.publicValue,
    p.publicOwner, p.publicAssetId⟩

/-- Behind a prefix the list goes on. -/
lemma getD_behind (pre xs : List Fr) (k : Nat) : (pre ++ xs).getD (pre.length + k) 0 = xs.getD k 0 := by
  rw [List.getD_append_right _ _ _ _ (Nat.le_add_right _ _), Nat.add_sub_cancel_left]

/-- An array of fields is read from where it stands. -/
lemma getD_ofFn {N : Nat} {pre post : List Fr} {k : Nat} (f : Fin N → Fr) (h : k = pre.length)
    (i : Fin N) : (pre ++ (List.ofFn f ++ post)).getD (k + i) 0 = f i := by
  rw [h, getD_behind, List.getD_append _ _ _ _ (by rw [List.length_ofFn]; exact i.isLt),
    List.getD_eq_getElem _ _ (by rw [List.length_ofFn]; exact i.isLt), List.getElem_ofFn]

/-- The data of the transactions start behind the header. -/
lemma RootRollupHeader.length_toList (h : RootRollupHeader) : h.toList.length = INNER_PROOFS_DATA := by
  simp only [toList, List.length_append, List.length_ofFn, List.length_cons, List.length_nil]
  rfl

/-- The transactions are read from behind whatever stands before them. -/
lemma readTxs (pre : List Fr) (ps : List InnerProof) :
    ((List.range ps.length).map fun i =>
      let field (i : Nat) : Fr := (pre ++ ps.flatMap InnerProof.propagated).getD i 0
      let offset := pre.length + i * NUM_PROPAGATED_FIELDS
      (⟨field offset, field (offset + 1), field (offset + 2), field (offset + 3), field (offset + 4),
        field (offset + 5), field (offset + 6), field (offset + 7)⟩ : TxBroadcastData)) =
      ps.map InnerProof.broadcast := by
  induction ps generalizing pre with
  | nil => rfl
  | cons p ps ih =>
    have hrest := ih (pre ++ p.propagated)
    have hlength : (pre ++ p.propagated).length = pre.length + NUM_PROPAGATED_FIELDS :=
      List.length_append
    rw [hlength, List.append_assoc] at hrest
    rw [List.length_cons, List.range_succ_eq_map, List.map_cons, List.map_map, List.flatMap_cons,
      List.map_cons]
    refine congrArg₂ List.cons ?_ (Eq.trans (List.map_congr_left fun i _ => ?_) hrest)
    · have hfirst := getD_behind pre (p.propagated ++ ps.flatMap InnerProof.propagated)
      have hzero := hfirst 0
      rw [Nat.add_zero] at hzero
      simp only [Nat.zero_mul, Nat.add_zero, hfirst, hzero]
      rfl
    · have hoffset : pre.length + (i + 1) * NUM_PROPAGATED_FIELDS =
          pre.length + NUM_PROPAGATED_FIELDS + i * NUM_PROPAGATED_FIELDS := by
        rw [Nat.succ_mul]
        omega
      simp only [Function.comp_apply, Nat.succ_eq_add_one, hoffset]

/-- The header is read back; the number of inner rollups is cut to 32 bits. -/
lemma ofFields_header (h : RootRollupHeader) (rest : List Fr) :
    (RootRollupBroadcastData.ofFields (h.toList ++ rest)).toRootRollupHeader =
      { h with numInnerProofs := (RootRollupBroadcastData.castUint32 h.numInnerProofs : Nat) } := by
  have hdatas : (fun i : Fin NUM_BRIDGE_CALLS_PER_BLOCK =>
      (h.toList ++ rest).getD (DEFI_BRIDGE_CALL_DATAS + i) 0) = h.bridgeCallDatas := by
    simp only [RootRollupHeader.toList, List.append_assoc]
    exact funext (getD_ofFn h.bridgeCallDatas rfl)
  have hsums : (fun i : Fin NUM_BRIDGE_CALLS_PER_BLOCK =>
      (h.toList ++ rest).getD (DEFI_BRIDGE_DEPOSITS + i) 0) = h.defiDepositSums := by
    simp only [RootRollupHeader.toList, List.append_assoc]
    rw [← List.append_assoc]
    refine funext (getD_ofFn h.defiDepositSums ?_)
    simp only [List.length_append, List.length_ofFn]
    rfl
  have hassetIds : (fun i : Fin NUM_ASSETS => (h.toList ++ rest).getD (ASSET_IDS + i) 0) = h.assetIds := by
    simp only [RootRollupHeader.toList, List.append_assoc]
    iterate 2 rw [← List.append_assoc]
    refine funext (getD_ofFn h.assetIds ?_)
    simp only [List.length_append, List.length_ofFn]
    rfl
  have hfees : (fun i : Fin NUM_ASSETS =>
      (h.toList ++ rest).getD (TOTAL_TX_FEES + i) 0) = h.totalTxFees := by
    simp only [RootRollupHeader.toList, List.append_assoc]
    iterate 3 rw [← List.append_assoc]
    refine funext (getD_ofFn h.totalTxFees ?_)
    simp only [List.length_append, List.length_ofFn]
    rfl
  have hnotes : (fun i : Fin NUM_INTERACTION_RESULTS_PER_BLOCK =>
      (h.toList ++ rest).getD (DEFI_INTERACTION_NOTES + i) 0) = h.defiInteractionNotes := by
    simp only [RootRollupHeader.toList, List.append_assoc]
    iterate 4 rw [← List.append_assoc]
    refine funext (getD_ofFn h.defiInteractionNotes ?_)
    simp only [List.length_append, List.length_ofFn]
    rfl
  have hlast (k : Nat) : (h.toList ++ rest).getD (PREVIOUS_DEFI_INTERACTION_HASH + k) 0 =
      ([h.previousDefiInteractionHash, h.rollupBeneficiary, h.numInnerProofs] ++ rest).getD k 0 := by
    rw [RootRollupHeader.toList, List.append_assoc]
    refine Eq.trans (congrArg (List.getD _ · 0) (congrArg (· + k) ?_)) (getD_behind _ _ k)
    simp only [List.length_append, List.length_ofFn]
    rfl
  unfold RootRollupBroadcastData.ofFields
  dsimp only
  rw [hdatas, hsums, hassetIds, hfees, hnotes, show NUM_INNER_PROOFS = PREVIOUS_DEFI_INTERACTION_HASH + 2
    from rfl, show ROLLUP_BENEFICIARY = PREVIOUS_DEFI_INTERACTION_HASH + 1 from rfl, hlast 1, hlast 2,
    show PREVIOUS_DEFI_INTERACTION_HASH = PREVIOUS_DEFI_INTERACTION_HASH + 0 from rfl, hlast 0]
  rfl

/-- Reading the broadcast fields gives the header and the slots. -/
lemma Broadcast.ofFields (h : Broadcast H size proof blocks) (hsize : blocks.length * size < 2 ^ 32)
    (hpos : 0 < size) :
    RootRollupBroadcastData.ofFields proof.broadcastFields =
      ⟨proof.header, blocks.flatten.map InnerProof.broadcast⟩ := by
  have hr := two_pow_lt_fieldModulus
  have hcount : blocks.length ≤ blocks.length * size := Nat.le_mul_of_pos_right _ hpos
  have hnum : proof.header.numInnerProofs.val = blocks.length := by
    rw [h.numInnerProofs, val_natCast_of_lt (by omega)]
  have houter : proof.header.rollupSize.val = blocks.flatten.length := by
    rw [h.rollupSize, val_natCast_of_lt (by omega), Reassembly.length_flatten_blocks h.lengths]
  have hheader := ofFields_header proof.header (blocks.flatten.flatMap InnerProof.propagated)
  have htxs := readTxs proof.header.toList blocks.flatten
  rw [RootRollupBroadcastData.castUint32, hnum, Nat.mod_eq_of_lt (by omega), ← h.numInnerProofs] at hheader
  rw [RootRollupHeader.length_toList] at htxs
  rw [h.fields]
  refine congrArg₂ RootRollupBroadcastData.mk hheader (Eq.trans ?_ htxs)
  show (List.range (proof.header.rollupSize.val % 2 ^ 32)).map _ = _
  rw [houter, Nat.mod_eq_of_lt (by rw [Reassembly.length_flatten_blocks h.lengths]; exact hsize)]

/-- The data of the slots are their fields. -/
lemma broadcast_toList (ps : List InnerProof) :
    (ps.map InnerProof.broadcast).flatMap TxBroadcastData.toList = ps.flatMap InnerProof.propagated :=
  List.flatMap_map _ _ _

/-- All fields are read and written again. -/
lemma Broadcast.toList (h : Broadcast H size proof blocks) (hsize : blocks.length * size < 2 ^ 32)
    (hpos : 0 < size) :
    (RootRollupBroadcastData.ofFields proof.broadcastFields).toList = proof.broadcastFields := by
  rw [h.ofFields hsize hpos, RootRollupBroadcastData.toList, broadcast_toList, h.fields]

/-- The native hash of what is read back is the public input of the proof. -/
lemma Broadcast.computeHash (h : Broadcast H size proof blocks) (hsize : blocks.length * size < 2 ^ 32)
    (hpos : 0 < size) (hblocks : 0 < blocks.length) :
    (RootRollupBroadcastData.ofFields proof.broadcastFields).computeHash H = proof.inputHash := by
  have hr := two_pow_lt_fieldModulus
  have hcount : blocks.length ≤ blocks.length * size := Nat.le_mul_of_pos_right _ hpos
  have hnum : RootRollupBroadcastData.castUint32 proof.header.numInnerProofs = blocks.length := by
    rw [RootRollupBroadcastData.castUint32, h.numInnerProofs, val_natCast_of_lt (by omega),
      Nat.mod_eq_of_lt (by omega)]
  have houter : RootRollupBroadcastData.castUint32 proof.header.rollupSize = blocks.length * size := by
    rw [RootRollupBroadcastData.castUint32, h.rollupSize, val_natCast_of_lt (by omega),
      Nat.mod_eq_of_lt hsize]
  have hlengths : ∀ txs ∈ blocks.map (List.map InnerProof.broadcast), txs.length = size := by
    intro txs htxs
    obtain ⟨block, hblock, rfl⟩ := List.mem_map.mp htxs
    rw [List.length_map, h.lengths block hblock]
  have hhashes := Reassembly.map_blocks hlengths
    (fun txs => H.sha256ToField (txs.flatMap TxBroadcastData.toList)) ⟨0, 0, 0, 0, 0, 0, 0, 0⟩
  rw [List.length_map, List.map_map, ← List.map_flatten] at hhashes
  rw [h.ofFields hsize hpos, RootRollupBroadcastData.computeHash]
  dsimp only
  rw [hnum, houter, Nat.mul_div_cancel_left size hblocks, h.inputHash]
  refine congrArg (fun hashes => H.sha256ToField (proof.header.toList ++ hashes))
    (Eq.trans ?_ (hhashes.trans ?_))
  · refine List.map_congr_left fun i _ => congrArg H.sha256ToField ?_
    rw [List.flatMap_map]
  · exact List.map_congr_left fun block _ => congrArg H.sha256ToField (broadcast_toList block)

/-- The number of broadcast fields. -/
lemma length_broadcastFields (h : Broadcast H size proof blocks) :
    proof.broadcastFields.length = INNER_PROOFS_DATA + blocks.length * size * NUM_PROPAGATED_FIELDS := by
  rw [h.fields, List.length_append, RootRollupHeader.length_toList, length_flatMap_propagated,
    Reassembly.length_flatten_blocks h.lengths, Nat.mul_comm 8]
  rfl

/-- The bytes of fields. -/
def fieldBytes (fields : List Fr) : Bytes := fields.flatMap fun x => beBytes 32 x.val

/-- A field is 32 bytes. -/
lemma length_fieldBytes (fields : List Fr) : (fieldBytes fields).length = 32 * fields.length := by
  induction fields with
  | nil => rfl
  | cons x fields ih =>
    rw [fieldBytes, List.flatMap_cons, List.length_append, length_beBytes, List.length_cons, Nat.mul_succ,
      Nat.add_comm]
    exact congrArg (· + 32) ih

/-- The root verifier passes the broadcast data on, if it is told their size. -/
lemma createRootVerifier_eq (h : Broadcast H size proof blocks) (hsize : blocks.length * size < 2 ^ 32)
    (hpos : 0 < size) (rootProof verifierProof : Bytes) :
    createRootVerifier (createRootRollup proof rootProof) (blocks.length * size) verifierProof =
      fieldBytes proof.broadcastFields ++ verifierProof := by
  have hbuffer : (RootRollupBroadcastData.ofFields proof.broadcastFields).toBuffer =
      fieldBytes proof.broadcastFields := by
    rw [RootRollupBroadcastData.toBuffer, h.toList hsize hpos, fieldBytes]
  have hlength := length_fieldBytes proof.broadcastFields
  rw [length_broadcastFields h] at hlength
  rw [createRootVerifier, createRootRollup, hbuffer, createRootVerifierTx]
  refine congrArg (· ++ verifierProof) ?_
  show (List.take _ (fieldBytes proof.broadcastFields ++ rootProof)).drop 0 = _
  rw [List.drop_zero, ← hlength, List.take_left']
  rfl

end Read

/-- The hash that is computed of the broadcast data outside of the circuit is the public input of the
root rollup. -/
theorem computeHash_broadcast {tx : RootRollupTx H m} {rollups : Fin m → RollupTx H n}
    {proof : RootRollupProof} (h : RootAccepted tx rollups proof) (hm : 0 < m)
    (hsize : rollupSizePow2 (m * rollupSizePow2 n) < 2 ^ 32) :
    (RootRollupBroadcastData.ofFields proof.broadcastFields).computeHash H = proof.inputHash := by
  obtain ⟨blocks, hbroadcast, houter⟩ := h.broadcast hm
  obtain ⟨e, he⟩ := rollupSizePow2_pow n
  have hpos : 0 < rollupSizePow2 n := he ▸ Nat.two_pow_pos e
  have hle := le_rollupSizePow2 (m * rollupSizePow2 n)
  have hprod : 0 < m * rollupSizePow2 n := Nat.mul_pos hm hpos
  refine hbroadcast.computeHash (houter ▸ hsize) hpos (Nat.pos_of_ne_zero fun hzero => ?_)
  rw [hzero, Nat.zero_mul] at houter
  omega

/-- A rollup of one claim. -/
theorem computeHash_broadcast_sample :
    (RootRollupBroadcastData.ofFields (SampleRollup.proof true).broadcastFields).computeHash
      SampleClaim.primitives = (SampleRollup.proof true).inputHash :=
  computeHash_broadcast (SampleRollup.accepted true) (by decide) (by decide)

end AztecConnect.Circuit
