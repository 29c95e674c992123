import AztecConnect.Circuit.BroadcastData
import AztecConnect.Falafel.RollupAggregator
import AztecConnect.System.InteractionNonces
import AztecConnect.System.RollupCalldata
import AztecConnect.System.RollupProofData

/-!
# From the root rollup circuit to the contract

The fields that a root rollup broadcasts pass through four programs: the prover writes them as bytes and
the root verifier passes them on (C++), falafel parses and encodes them (TypeScript), and the contract
decodes them (Yul). What the contract then has is what the circuit has proved: its header and its
transactions, and the hash under which it asks the verifier is the public input of the circuit
(`published_decoded`).
-/

namespace AztecConnect.System

open ByteFormat Client.RollupProof AztecConnect.Circuit Contract
open Client (ProofId.PADDING)
open Falafel (aggregatedProof aggregatedProof_eq broadcastBytes)

variable {H : Primitives} {m n : Nat}

/-! ## The transactions -/

section Transactions

variable {p : InnerProof}

/-- The circuits enforce the ranges the client assumes. -/
lemma TxAccepted.enforced (h : TxAccepted H p) : (published p).Enforced := by
  cases h with
  | joinSplit tx h => exact joinSplitCircuit_enforced tx p h
  | account tx h => exact accountCircuit_enforced tx p h
  | claim tx h => exact claimCircuit_enforced tx p h

/-- Completing a deposit keeps them. -/
lemma completed_enforced (h : (published p).Enforced) (rollupId : Fr) (scope : RollupScope) :
    (published (completed H rollupId scope p)).Enforced := by
  cases hdeposit : p.isDefiDeposit with
  | false =>
    have hsame : completed H rollupId scope p = p := by
      rw [completed, hdeposit, if_neg Bool.false_ne_true]
    rwa [hsame]
  | true =>
    have hid : p.proofId = ProofIds.DEFI_DEPOSIT := eq_of_beq hdeposit
    refine ⟨h.proofId, length_beBytes _ _, h.noteCommitment2, h.nullifier1, h.nullifier2, h.publicValue,
      h.publicOwner, h.publicAssetId, fun hpadding => ?_, h.unpublished, h.assetId⟩
    have hval : p.proofId.val = 0 := hpadding
    rw [hid] at hval
    exact absurd hval (by decide)

/-- So a slot that is published has them. -/
lemma Published.enforced (h : p.Published H) : (published p).Enforced := by
  rcases h with rfl | ⟨q, rollupId, scope, hq, rfl⟩
  · rw [published_zero]
    exact SampleProofData.padding_enforced
  · exact completed_enforced (TxAccepted.enforced hq) rollupId scope

end Transactions

/-! ## The header -/

section Header

/-- The header as falafel parses it. -/
def headerInputs (h : RootRollupHeader) : HeaderInputs where
  rollupId := h.rollupId.val
  rollupSize := h.rollupSize.val
  dataStartIndex := h.dataStartIndex.val
  oldDataRoot := beBytes 32 h.oldDataRoot.val
  newDataRoot := beBytes 32 h.newDataRoot.val
  oldNullRoot := beBytes 32 h.oldNullRoot.val
  newNullRoot := beBytes 32 h.newNullRoot.val
  oldDataRootsRoot := beBytes 32 h.oldDataRootsRoot.val
  newDataRootsRoot := beBytes 32 h.newDataRootsRoot.val
  oldDefiRoot := beBytes 32 h.oldDefiRoot.val
  newDefiRoot := beBytes 32 h.newDefiRoot.val
  bridgeCallDatas := List.ofFn fun k => beBytes 32 (h.bridgeCallDatas k).val
  defiDepositSums := List.ofFn fun k => (h.defiDepositSums k).val
  assetIds := List.ofFn fun k => (h.assetIds k).val
  totalTxFees := List.ofFn fun k => (h.totalTxFees k).val
  defiInteractionNotes := List.ofFn fun k => beBytes 32 (h.defiInteractionNotes k).val
  prevDefiInteractionHash := beBytes 32 h.previousDefiInteractionHash.val
  rollupBeneficiary := beBytes 32 h.rollupBeneficiary.val
  numRollupTxs := h.numInnerProofs.val

/-- What falafel parses as numbers of 32 bits. -/
structure HeaderFits (h : RootRollupHeader) : Prop where
  rollupId : h.rollupId.val < 2 ^ 32
  rollupSize : h.rollupSize.val < 2 ^ 32
  dataStartIndex : h.dataStartIndex.val < 2 ^ 32
  assetIds : ∀ k, (h.assetIds k).val < 2 ^ 32
  numInnerProofs : h.numInnerProofs.val < 2 ^ 32

/-- A field element fits a word. -/
lemma val_lt_word (x : Fr) : x.val < 2 ^ 256 := Nat.lt_trans (ZMod.val_lt x) (by decide)

/-- A header that fits is well formed for the client. -/
lemma headerInputs_wellFormed {h : RootRollupHeader} (hfits : HeaderFits h) :
    (headerInputs h).WellFormed where
  rollupId := hfits.rollupId
  rollupSize := hfits.rollupSize
  dataStartIndex := hfits.dataStartIndex
  oldDataRoot := length_beBytes _ _
  newDataRoot := length_beBytes _ _
  oldNullRoot := length_beBytes _ _
  newNullRoot := length_beBytes _ _
  oldDataRootsRoot := length_beBytes _ _
  newDataRootsRoot := length_beBytes _ _
  oldDefiRoot := length_beBytes _ _
  newDefiRoot := length_beBytes _ _
  numBridgeCallDatas := List.length_ofFn
  bridgeCallDatas := List.forall_mem_ofFn_iff.mpr fun _ => length_beBytes _ _
  numDefiDepositSums := List.length_ofFn
  defiDepositSums := List.forall_mem_ofFn_iff.mpr fun _ => val_lt_word _
  numAssetIds := List.length_ofFn
  assetIds := List.forall_mem_ofFn_iff.mpr hfits.assetIds
  numTotalTxFees := List.length_ofFn
  totalTxFees := List.forall_mem_ofFn_iff.mpr fun _ => val_lt_word _
  numDefiInteractionNotes := List.length_ofFn
  defiInteractionNotes := List.forall_mem_ofFn_iff.mpr fun _ => length_beBytes _ _
  prevDefiInteractionHash := length_beBytes _ _
  rollupBeneficiary := length_beBytes _ _
  numRollupTxs := hfits.numInnerProofs

/-- An array of fields as bytes, one after the other. -/
lemma flatMap_ofFn {N : Nat} (f : Fin N → Fr) : (List.ofFn f).flatMap (fun x => beBytes 32 x.val) =
    (List.ofFn fun k => beBytes 32 (f k).val).flatten := by
  rw [List.flatMap_def, List.map_ofFn]
  rfl

/-- An array of numbers as bytes. -/
lemma map_ofFn_beBytes {N : Nat} (f : Fin N → Nat) :
    (List.ofFn f).map (beBytes 32) = List.ofFn fun k => beBytes 32 (f k) := List.map_ofFn

/-- The bytes of the header. -/
lemma headerInputs_parts (h : RootRollupHeader) : (headerInputs h).parts.flatten = fieldBytes h.toList := by
  simp only [HeaderInputs.parts, headerInputs, map_ofFn_beBytes, RootRollupHeader.toList, fieldBytes,
    List.flatMap_append, List.flatMap_cons, List.flatMap_nil, List.flatten_cons, List.flatten_nil,
    List.append_assoc, List.append_nil, flatMap_ofFn]

end Header

/-! ## The rollup that falafel parses -/

section Parsed

variable {proof : RootRollupProof} {blocks : List (List InnerProof)} {size : Nat}

/-- The header and the slots as the client sees them. -/
def parsedRollup (proof : RootRollupProof) (blocks : List (List InnerProof)) : RollupProofData :=
  { headerInputs proof.header with innerProofData := blocks.flatten.map published }

/-- Its bytes are those that are broadcast. -/
lemma broadcastBytes_parsedRollup (h : Broadcast H size proof blocks) :
    broadcastBytes (parsedRollup proof blocks) = fieldBytes proof.broadcastFields := by
  have hproofs (ps : List InnerProof) : ((ps.map published).map fun p => p.parts.flatten).flatten =
      fieldBytes (ps.flatMap InnerProof.propagated) := by
    rw [List.map_map, fieldBytes, List.flatMap_assoc, List.flatMap_def]
    rfl
  rw [broadcastBytes, h.fields, fieldBytes, List.flatMap_append]
  exact congrArg₂ (· ++ ·) (headerInputs_parts proof.header) (hproofs blocks.flatten)

/-- What is broadcast has the ranges the client assumes. -/
lemma parsedRollup_enforced (h : Broadcast H size proof blocks) (hfits : HeaderFits proof.header)
    (hpos : 0 < blocks.length * size) (hsize : blocks.length * size * 256 < 2 ^ 32) :
    (parsedRollup proof blocks).Enforced := by
  have hr := two_pow_lt_fieldModulus
  have hval : proof.header.rollupSize.val = blocks.length * size := by
    rw [h.rollupSize, val_natCast_of_lt (by omega)]
  refine ⟨headerInputs_wellFormed hfits, ?_, ?_, ?_, fun q hq => ?_⟩
  · show 0 < proof.header.rollupSize.val
    rwa [hval]
  · show (blocks.flatten.map published).length = proof.header.rollupSize.val
    rw [List.length_map, Reassembly.length_flatten_blocks h.lengths, hval]
  · show proof.header.rollupSize.val * 256 < 2 ^ 32
    rw [hval]
    exact hsize
  · obtain ⟨p, hp, rfl⟩ := List.mem_map.mp hq
    obtain ⟨block, hblock, hp⟩ := List.mem_flatten.mp hp
    exact Published.enforced (h.published block hblock p hp)

/-- A deposit or a withdrawal is of an address. -/
def BroadcastOwner (t : TxBroadcastData) : Prop :=
  t.proofId = ProofIds.DEPOSIT ∨ t.proofId = ProofIds.WITHDRAW → t.publicOwner.val < 2 ^ 160

/-- If its owners fit 20 bytes, the client can encode them. -/
lemma parsedRollup_owners (h : ∀ p ∈ blocks.flatten, BroadcastOwner p.broadcast) :
    (parsedRollup proof blocks).OwnersAreAddresses := by
  intro q hq
  obtain ⟨p, hp, rfl⟩ := List.mem_map.mp hq
  intro hid
  have hcast (k : Nat) (hval : p.proofId.val = k) : p.proofId = (k : Fr) := by
    rw [← hval, natCast_val]
  have howner : p.publicOwner.val < 2 ^ 160 := by
    refine h p hp ?_
    simp only [List.mem_cons, List.not_mem_nil, or_false] at hid
    exact hid.imp (hcast 1) (hcast 2)
  show beNat (beBytes 32 p.publicOwner.val) < 2 ^ 160
  rwa [beNat_beBytes (val_lt_word _)]

end Parsed

/-! ## The words that the contract reads -/

section Words

variable {P : Params} {proof : RootRollupProof} {blocks : List (List InnerProof)} {size : Nat}

/-- The word of a field element. -/
def fieldWord (x : Fr) : Word := BitVec.ofNat 256 x.val

/-- The contract and the circuit compute the same hash function. -/
def SameSha256 (P : Params) (H : Primitives) : Prop :=
  ∀ ws, (P.sha256 ws).toNat = H.sha256 (ws.map BitVec.toNat)

/-- A field element as a word is the same number. -/
lemma fieldWord_toNat (x : Fr) : (fieldWord x).toNat = x.val := by
  rw [fieldWord, BitVec.toNat_ofNat, Nat.mod_eq_of_lt (val_lt_word x)]

/-- Its 32 bytes are read as that word. -/
lemma word_beBytes (x : Fr) : word (beBytes 32 x.val) = fieldWord x := by
  have hwidth : x.val < 256 ^ 32 := val_lt_word x
  rw [word, beNat_beBytes hwidth, fieldWord]

/-- The contract and the circuits hash the same words to the same value. -/
lemma SameSha256.mod (h : SameSha256 P H) (fields : List Fr) :
    P.sha256Mod (fields.map fieldWord) = fieldWord (H.sha256ToField fields) := by
  have hvals : (fields.map fieldWord).map BitVec.toNat = fields.map ZMod.val := by
    rw [List.map_map]
    exact List.map_congr_left fun x _ => fieldWord_toNat x
  apply BitVec.eq_of_toNat_eq
  rw [Params.sha256Mod, BitVec.toNat_umod, h, hvals, fieldWord_toNat, Primitives.sha256ToField,
    ZMod.val_natCast]
  rfl

/-- A slot in memory has the fields the circuit propagates. -/
lemma slotOf_words (p : InnerProof) : (slotOf (published p)).words = p.propagated.map fieldWord := by
  simp only [slotOf, published, word_beBytes]
  rfl

/-- So have the slots of a rollup, one after the other. -/
lemma flatMap_words (ps : List InnerProof) : ((ps.map published).map slotOf).flatMap InnerTx.words =
    (ps.flatMap InnerProof.propagated).map fieldWord := by
  rw [List.map_map, List.flatMap_map, List.map_flatMap]
  exact congrArg List.flatten (List.map_congr_left fun p _ => slotOf_words p)

/-- The `i`-th 32 bytes are those of the `i`-th field. -/
lemma field_fieldBytes {fields : List Fr} {i : Nat} (h : i < fields.length) :
    field (fieldBytes fields) i = beBytes 32 fields[i].val := by
  induction fields generalizing i with
  | nil => exact absurd h (Nat.not_lt_zero _)
  | cons x fields ih =>
    have hcons : fieldBytes (x :: fields) = beBytes 32 x.val ++ fieldBytes fields := rfl
    cases i with
    | zero =>
      exact field_at (length_beBytes 32 _) (hcons ▸ (at_append.mp (at_zero _)).1)
    | succ i =>
      have hi : i < fields.length := Nat.lt_of_succ_lt_succ h
      have hrest := ih hi
      rw [List.getElem_cons_succ, ← hrest, hcons, field, field, slice, slice]
      have hlength : (beBytes 32 x.val).length = 32 := length_beBytes 32 _
      rw [Nat.succ_mul, List.drop_take, List.drop_take, Nat.add_comm (i * 32) 32, ← List.drop_drop,
        List.drop_left' hlength]
      exact congrArg (List.take · _) (by omega)

/-- The words of the header are its fields. -/
lemma headerWord_eq (h : RootRollupHeader) {i : Nat} (hi : i < h.toList.length) :
    headerWord (headerInputs h) i = fieldWord h.toList[i] := by
  rw [headerWord, headerInputs_parts, field_fieldBytes hi, word_beBytes]

/-- All 142 of them. -/
lemma headerWords_eq (h : RootRollupHeader) :
    (List.range 142).map (headerWord (headerInputs h)) = h.toList.map fieldWord := by
  refine List.ext_getElem ?_ fun i hi _ => ?_
  · rw [List.length_map, List.length_range, List.length_map, h.length_toList]
    rfl
  · rw [List.length_map, List.length_range] at hi
    rw [List.getElem_map, List.getElem_range, List.getElem_map, headerWord_eq h]

/-- The hash that the contract computes is the one that the circuit publishes. -/
lemma publicInputsHash_eq (h : Broadcast H size proof blocks) (hsha : SameSha256 P H) :
    P.sha256Mod ((List.range 142).map (headerWord (headerInputs proof.header)) ++
      (blocks.map (List.map published)).map (blockHash P)) = fieldWord proof.inputHash := by
  have hhashes : (blocks.map (List.map published)).map (blockHash P) =
      (blocks.map fun block => H.sha256ToField (block.flatMap InnerProof.propagated)).map fieldWord := by
    rw [List.map_map, List.map_map]
    refine List.map_congr_left fun block _ => ?_
    rw [Function.comp_apply, blockHash, flatMap_words, hsha.mod]
    rfl
  rw [headerWords_eq, hhashes, ← List.map_append, hsha.mod, h.inputHash]

end Words

/-! ## What the circuits keep in range -/

section Ranges

variable {tx : RootRollupTx H m} {rollups : Fin m → RollupTx H n} {proof : RootRollupProof}

/-- What the circuits do not constrain: falafel gives its next rollup id and the ids of assets, and takes
deposits and withdrawals of addresses only. -/
structure Publishable (proof : RootRollupProof) : Prop where
  rollupId : proof.header.rollupId ≠ -1
  assetIds : ∀ k, (proof.header.assetIds k).val < 2 ^ 32
  owners : ∀ t ∈ (RootRollupBroadcastData.ofFields proof.broadcastFields).txData, BroadcastOwner t

/-- The next field element is the next number, unless it wraps. -/
lemma val_add_one {x : Fr} (h : x ≠ -1) : (x + 1).val = x.val + 1 := by
  have hone : ((1 : Nat) : Fr).val = 1 := val_natCast_of_lt (by decide)
  have hlt := ZMod.val_lt x
  have hne : x.val + 1 ≠ fieldModulus := fun heq => h <| by
    rw [eq_neg_iff_add_eq_zero, ← natCast_val x, ← Nat.cast_one, ← Nat.cast_add, heq, ZMod.natCast_self]
  rw [← Nat.cast_one, ZMod.val_add, hone, Nat.mod_eq_of_lt (by omega)]

/-- The header of an accepted root rollup that can be published fits. -/
lemma headerFits (h : RootAccepted tx rollups proof) (hm : 0 < m) (hpublishable : Publishable proof)
    (hsize : rollupSizePow2 (m * rollupSizePow2 n) < 2 ^ 32) : HeaderFits proof.header := by
  have hr := two_pow_lt_fieldModulus
  obtain ⟨-, hrollupSize, hnum⟩ := (rootRollupCircuit_fields tx _ _).apply h.accepted
  have hquot := Nat.div_le_self (rollupSizePow2 (m * rollupSizePow2 n)) (rollupSizePow2 n)
  refine ⟨?_, ?_, ?_, hpublishable.assetIds, ?_⟩
  · have hindex := h.root.rootIndex
    rw [val_add_one hpublishable.rollupId, ROOT_TREE_DEPTH] at hindex
    omega
  · rw [hrollupSize, val_natCast_of_lt (by omega)]
    exact hsize
  · have hpos := h.numReal_pos hm
    have hle : tx.numReal ≤ m := Nat.min_le_left _ _
    have hlast : tx.numReal - 1 < m := by omega
    obtain ⟨hstart, -⟩ := h.root.ends ⟨0, hm⟩ ⟨tx.numReal - 1, hlast⟩ rfl (Nat.sub_add_cancel hpos)
    obtain ⟨_, hspec⟩ := h.inner ⟨0, hm⟩
    rw [hstart]
    exact hspec.dataStartIndex_lt
  · rw [hnum, val_natCast_of_lt (by omega)]
    omega

end Ranges

/-! ## The published rollup -/

section PublishedRollup

variable {P : Params} {proof : RootRollupProof} {blocks : List (List InnerProof)} {size : Nat}

/-- What the contract has decoded are the header and the transactions; those it has not are padding. -/
structure DecodesTo (proof : RootRollupProof) (p : ProofData) (numTxs : Word) : Prop where
  header : Posted proof.header p
  txs : ∀ i t, (RootRollupBroadcastData.ofFields proof.broadcastFields).txData[i]? = some t →
    i < numTxs.toNat → (p.slot i).words = t.toList.map fieldWord
  padding : ∀ i t, (RootRollupBroadcastData.ofFields proof.broadcastFields).txData[i]? = some t →
    numTxs.toNat ≤ i → t = InnerProof.broadcast 0

/-- Only zero is written as zeros. -/
lemma eq_zero_of_beBytes {x : Fr} (h : beBytes 32 x.val = alloc 32) : x = 0 := by
  have hwidth : x.val < 256 ^ 32 := val_lt_word x
  have hnat := congrArg beNat h
  rw [beNat_beBytes hwidth] at hnat
  exact (ZMod.val_eq_zero x).mp (hnat.trans (by decide))

/-- What the client takes for padding is an empty slot. -/
lemma broadcast_of_padding {p : InnerProof} (h : published p = .PADDING) :
    p.broadcast = InnerProof.broadcast 0 := by
  have hid : p.proofId = 0 := (ZMod.val_eq_zero _).mp (congrArg InnerProofData.proofId h)
  rw [InnerProof.broadcast, hid, eq_zero_of_beBytes (congrArg InnerProofData.noteCommitment1 h),
    eq_zero_of_beBytes (congrArg InnerProofData.noteCommitment2 h),
    eq_zero_of_beBytes (congrArg InnerProofData.nullifier1 h),
    eq_zero_of_beBytes (congrArg InnerProofData.nullifier2 h),
    eq_zero_of_beBytes (congrArg InnerProofData.publicValue h),
    eq_zero_of_beBytes (congrArg InnerProofData.publicOwner h),
    eq_zero_of_beBytes (congrArg InnerProofData.publicAssetId h)]
  rfl

/-- What the contract decodes from the encoded rollup is what the circuit broadcast. -/
lemma DecodedRollup.decodesTo (h : Broadcast H size proof blocks) (hsize : blocks.length * size < 2 ^ 24)
    (hpos : 0 < size) (henforced : (parsedRollup proof blocks).Enforced) {p : ProofData}
    (hdecoded : DecodedRollup (parsedRollup proof blocks) p) :
    DecodesTo proof p (BitVec.ofNat 256 (numRealTxns (parsedRollup proof blocks))) := by
  have hlt := lastNonEmptyIndex_lt (parsedRollup proof blocks).innerProofData
    (henforced.size ▸ henforced.nonempty)
  have hcount : (parsedRollup proof blocks).innerProofData.length = blocks.length * size := by
    show (blocks.flatten.map published).length = _
    rw [List.length_map, Reassembly.length_flatten_blocks h.lengths]
  have hnum : (BitVec.ofNat 256 (numRealTxns (parsedRollup proof blocks))).toNat =
      numRealTxns (parsedRollup proof blocks) := by
    rw [hcount] at hlt
    rw [BitVec.toNat_ofNat]
    refine Nat.mod_eq_of_lt (Nat.lt_of_le_of_lt hlt (Nat.lt_trans hsize (by decide)))
  have htx {i : Nat} {t : TxBroadcastData} (ht : (RootRollupBroadcastData.ofFields
      proof.broadcastFields).txData[i]? = some t) : ∃ q : InnerProof, t = q.broadcast ∧
      (parsedRollup proof blocks).innerProofData[i]? = some (published q) := by
    rw [h.ofFields (Nat.lt_trans hsize (by decide)) hpos, List.getElem?_map, Option.map_eq_some_iff] at ht
    obtain ⟨q, hq, rfl⟩ := ht
    refine ⟨q, rfl, ?_⟩
    show (blocks.flatten.map published)[i]? = _
    rw [List.getElem?_map, hq]
    rfl
  refine ⟨fun k value hvalue => ?_, fun i t ht hi => ?_, fun i t ht hi => ?_⟩
  · obtain ⟨hk, rfl⟩ := List.getElem?_eq_some_iff.mp hvalue
    have hk' : k < 142 := by rwa [RootRollupHeader.length_toList] at hk
    rw [hdecoded.header k hk', ← fieldWord_toNat]
    exact congrArg BitVec.toNat (headerWord_eq proof.header hk)
  · obtain ⟨q, rfl, hq⟩ := htx ht
    rw [hdecoded.slots i (hnum ▸ hi) _ hq, slotOf_words]
    rfl
  · obtain ⟨q, rfl, hq⟩ := htx ht
    exact broadcast_of_padding (padding_behind_last henforced (hnum ▸ hi) hq)

/-- Bytes that stand in the calldata are sliced from it. -/
lemma slice_of_inCalldata {cd : Calldata} {start : Nat} {bs : Bytes} (h : InCalldata cd start bs) :
    cd.slice start bs.length = bs.map fun b => BitVec.ofNat 8 b.toNat := by
  refine List.ext_getElem (by simp [Calldata.slice]) fun i hi hi' => ?_
  rw [List.length_map] at hi'
  simp only [Calldata.slice, List.getElem_map, List.getElem_range]
  exact h i hi'

end PublishedRollup

/-- The rollup that falafel publishes of an accepted root rollup: the contract decodes the header and the
transactions of the circuit, and asks the verifier about the proof of the root verifier under the public
input of the circuit. -/
theorem published_decoded {P : Params} {tx : RootRollupTx H m} {rollups : Fin m → RollupTx H n}
    {proof : RootRollupProof} (h : RootAccepted tx rollups proof) (hm : 0 < m)
    (hpow : rollupSizePow2 (m * rollupSizePow2 n) = m * rollupSizePow2 n)
    (hsize : m * rollupSizePow2 n * 256 < 2 ^ 32) (hpublishable : Publishable proof)
    (hsha : SameSha256 P H) (hpadding : PaddingHashed P (rollupSizePow2 n))
    (keccak256 sha256 : Bytes → Bytes) (rootProof verifierProof : Bytes) :
    ∃ rollup, aggregatedProof keccak256 sha256 (createRootVerifier (createRootRollup proof rootProof)
        (m * rollupSizePow2 n) verifierProof) = .ok rollup ∧
      ∀ cd start memoryPast, InCalldata cd start rollup.encodedProofData →
        (∃ p numTxs, decodeProof P cd start memoryPast = .ok (p, numTxs, fieldWord proof.inputHash) ∧
          DecodesTo proof p numTxs) ∧
        cd.slice (start + (ROLLUP_HEADER_LENGTH + 8 + (encoding cd start).encodedInnerDataSize))
            (rollup.encodedProofData.length -
              (ROLLUP_HEADER_LENGTH + 8 + (encoding cd start).encodedInnerDataSize)) =
          verifierProof.map fun b => BitVec.ofNat 8 b.toNat := by
  obtain ⟨blocks, hbroadcast, houter⟩ := h.broadcast hm
  obtain ⟨e, he⟩ := rollupSizePow2_pow n
  have hpos : 0 < rollupSizePow2 n := he ▸ Nat.two_pow_pos e
  rw [hpow] at houter
  have hprod : 0 < blocks.length * rollupSizePow2 n := houter ▸ Nat.mul_pos hm hpos
  have hfits := headerFits h hm hpublishable (by rw [hpow]; omega)
  rw [← houter] at hsize ⊢
  have henforced := parsedRollup_enforced hbroadcast hfits hprod hsize
  have howners : (parsedRollup proof blocks).OwnersAreAddresses := by
    have hall := hpublishable.owners
    rw [hbroadcast.ofFields (by omega) hpos] at hall
    exact parsedRollup_owners fun p hp => hall _ (List.mem_map_of_mem hp)
  have hflatten : (parsedRollup proof blocks).innerProofData = (blocks.map (List.map published)).flatten :=
    List.map_flatten
  have hlengths : ∀ block ∈ blocks.map (List.map published), block.length = rollupSizePow2 n := by
    intro block hblock
    obtain ⟨ps, hps, rfl⟩ := List.mem_map.mp hblock
    rw [List.length_map, hbroadcast.lengths ps hps]
  have hnum : (parsedRollup proof blocks).numRollupTxs = (blocks.map (List.map published)).length := by
    have hr := two_pow_lt_fieldModulus
    have hle : blocks.length ≤ blocks.length * rollupSizePow2 n := Nat.le_mul_of_pos_right _ hpos
    show proof.header.numInnerProofs.val = _
    rw [hbroadcast.numInnerProofs, val_natCast_of_lt (by omega), List.length_map]
  obtain ⟨encoded, hencode, hdecode⟩ := decodeProof_encode (P := P) henforced howners hflatten hlengths hnum
    fun _ => hpadding
  obtain ⟨id, -, haggregated⟩ := aggregatedProof_eq keccak256 sha256 henforced hencode verifierProof
  rw [broadcastBytes_parsedRollup hbroadcast] at haggregated
  rw [createRootVerifier_eq hbroadcast (by omega) hpos]
  refine ⟨_, haggregated, fun cd start memoryPast hat => ?_⟩
  obtain ⟨hencoded, hproof⟩ := inCalldata_append.mp hat
  obtain ⟨hlength, p, hp, hdecoded⟩ := hdecode cd start memoryPast hencoded
  refine ⟨⟨p, _, ?_, DecodedRollup.decodesTo hbroadcast (by omega) hpos henforced hdecoded⟩, ?_⟩
  · rw [hp, ← publicInputsHash_eq hbroadcast hsha]
    rfl
  · rw [hlength, List.length_append, Nat.add_sub_cancel_left]
    exact slice_of_inCalldata hproof

/-! ### A rollup of one claim, and of one inner rollup that is not real -/

namespace SamplePublished

/-- The digests that are computed: of padding, of the claim, of an interaction that is not real, of 32 of
these, and of the header with the hashes of the inner rollups. -/
def digests : List (List Nat × Nat) :=
  [(List.replicate 8 0, 0x5341e6b2646979a70e57653007a1f310169421ec9bdd9f1a5648f75ade005af1),
    ([6, 2 ^ 92 + 12, 0, 2 ^ 92 + 9, 2 ^ 93 + 23, 0, 0, 0],
      0xebd72f8f28c00bcd43f8bab10bad885f13c578c95c709b2db46d290b0c087708),
    (List.replicate 6 0, 0x5d89f056865052bcb89c910d2d62872e029fb273c3db03f8968a52a41593c1b5),
    (List.replicate 32 0x2d25a1e3a51eb293004c4b56abe12ed0da6bca2b4a21936752a85d102593c1b4,
      0xd6722d1d32ab3ab724cfb1effc70145ad96e8b7ccf56992dc266ea6872e6fd5f),
    ([0, 2, 0, 0, 2 ^ 92 + 12, 0, 2, 2 ^ 92 + 9, 2 ^ 93 + 21, 2 ^ 92 + 14, 2 ^ 92 + 14] ++
      List.replicate 65 0 ++ List.replicate 15 (2 ^ 30) ++ [5] ++ List.replicate 47 0 ++
      [0xd6722d1d32ab3ab724cfb1effc70145ad96e8b7ccf56992dc266ea6872e6fd5f % fieldModulus, 0, 2,
        0xebd72f8f28c00bcd43f8bab10bad885f13c578c95c709b2db46d290b0c087708 % fieldModulus,
        0x5341e6b2646979a70e57653007a1f310169421ec9bdd9f1a5648f75ade005af1 % fieldModulus],
      0xf14273a087de19eb349669a891e2619bab7e6264a4ee96dabcb636d2d7205324)]

/-- The primitives of the sample, with the digests that are compared. -/
abbrev primitives : Primitives :=
  { SampleClaim.primitives with sha256 := fun ws => (digests.lookup ws).getD 0 % 2 ^ 256 }

/-- The contract hashes with the same function. -/
def params : Params :=
  { Sample.params with
    sha256 := fun ws => BitVec.ofNat 256 (primitives.sha256 (ws.map BitVec.toNat)) }

/-- By definition. -/
lemma sameSha256 : SameSha256 params primitives :=
  fun _ => BitVec.toNat_ofNat _ 256 |>.trans (Nat.mod_mod _ _)

/-- The contract knows the digest of an empty inner rollup. -/
lemma paddingHashed : PaddingHashed params 1 := by
  unfold PaddingHashed
  decide +kernel

/-- The claim of the sample. -/
def claim : ClaimTx primitives :=
  { SampleClaim.tx with claimNotePath := (), defiInteractionNotePath := () }

/-- The claim circuit accepts it. -/
lemma claim_accepted : claimCircuit primitives claim SampleClaim.proof := SampleClaim.accepted

/-- The inner rollup of the sample. -/
def rollup : RollupTx primitives 1 :=
  { SampleRollup.rollup true with
    oldDataPath := ()
    linkedCommitmentPaths := fun _ => ()
    oldNullPaths := fun _ _ => ()
    dataRootsPaths := fun _ => () }

/-- Its circuit accepts. -/
lemma rollup_ok : (rollupCircuit rollup).toBool = true := by decide +kernel

/-- The root rollup of the sample, of two inner rollups. -/
def tx : RootRollupTx primitives 2 :=
  { SampleRollup.tx true with
    rollups := fun _ => Checks.value (rollupCircuit rollup) rollup_ok
    oldDataRootsPath := ()
    oldDefiPath := () }

/-- Its circuit accepts. -/
lemma tx_ok : (rootRollupCircuit tx (rollupSizePow2 1)
    (rollupSizePow2 (2 * rollupSizePow2 1))).toBool = true := by decide +kernel

/-- What it publishes. -/
def proof : RootRollupProof := Checks.value _ tx_ok

example : proof.inputHash.val =
    0xf14273a087de19eb349669a891e2619bab7e6264a4ee96dabcb636d2d7205324 % fieldModulus := by decide +kernel

/-- All circuits accept. -/
lemma accepted : RootAccepted tx (fun _ => rollup) proof where
  rollups _ := ⟨fun _ => .claim claim claim_accepted, Checks.eq_ok_value _ rollup_ok⟩
  accepted := Checks.eq_ok_value _ tx_ok

/-- It can be published. -/
lemma publishable : Publishable proof where
  rollupId := by decide +kernel
  assetIds := by decide +kernel
  owners := by
    unfold BroadcastOwner
    decide +kernel

/-- Calldata of nothing but the bytes. -/
def calldata (bs : Bytes) : Calldata where
  size := bs.length
  byte i := BitVec.ofNat 8 (bs.getD i 0).toNat
  byte_of_size_le i h := by rw [List.getD_eq_default _ _ h]; rfl

/-- The calldata of the sample are these bytes. -/
lemma inCalldata_calldata (bs : Bytes) : InCalldata (calldata bs) 0 bs := by
  intro i h
  show BitVec.ofNat 8 (bs.getD (0 + i) 0).toNat = _
  rw [Nat.zero_add, List.getD_eq_getElem _ _ h]

end SamplePublished

/-- A root rollup with a claim is published and decoded. -/
theorem published_decoded_sample : ∃ rollup p numTxs,
    aggregatedProof id id (createRootVerifier (createRootRollup SamplePublished.proof []) 2 [1, 2, 3]) =
      .ok rollup ∧
    decodeProof SamplePublished.params (SamplePublished.calldata rollup.encodedProofData) 0
      (fun _ => InnerTx.zero) = .ok (p, numTxs, fieldWord SamplePublished.proof.inputHash) ∧
    DecodesTo SamplePublished.proof p numTxs := by
  obtain ⟨rollup, hrollup, hdecoded⟩ := published_decoded SamplePublished.accepted (by decide)
    (by decide) (by decide) SamplePublished.publishable SamplePublished.sameSha256
    SamplePublished.paddingHashed id id [] [1, 2, 3]
  obtain ⟨⟨p, numTxs, hp, hdecodes⟩, -⟩ := hdecoded _ 0 (fun _ => InnerTx.zero)
    (SamplePublished.inCalldata_calldata rollup.encodedProofData)
  exact ⟨rollup, p, numTxs, hrollup, hp, hdecodes⟩

end AztecConnect.System
