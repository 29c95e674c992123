import AztecConnect.Circuit.Rollup

/-!
# The root rollup circuit

Translation of `rollup/proofs/root_rollup/root_rollup_circuit.cpp`. The public inputs of the inner
rollups that are not real are zero, as the entries they are compared with are not checked.
-/

namespace AztecConnect.Circuit

/-- `NUM_INTERACTION_RESULTS_PER_BLOCK`. -/
def NUM_INTERACTION_RESULTS_PER_BLOCK : Nat := 32

variable {H : Primitives} {m n : Nat}

/-- What a prover assigns to the witnesses of the circuit, with the public inputs of the inner
rollups. -/
structure RootRollupTx (H : Primitives) (maxNumInnerProofs : Nat) where
  rollupId : Fr
  numInnerProofs : Fr
  rollups : Fin maxNumInnerProofs → RollupProof
  oldDataRootsRoot : Fr
  newDataRootsRoot : Fr
  oldDataRootsPath : H.HashPath
  oldDefiRoot : Fr
  newDefiRoot : Fr
  oldDefiPath : H.HashPath
  bridgeCallDatas : BridgeCalls Fr
  assetIds : Assets Fr
  defiInteractionNotes : Fin NUM_INTERACTION_RESULTS_PER_BLOCK → DefiInteractionNoteTx
  numPreviousDefiInteractions : Fr
  rollupBeneficiary : Fr

/-- The header fields. -/
structure RootRollupHeader where
  rollupId : Fr
  rollupSize : Fr
  dataStartIndex : Fr
  oldDataRoot : Fr
  newDataRoot : Fr
  oldNullRoot : Fr
  newNullRoot : Fr
  oldDataRootsRoot : Fr
  newDataRootsRoot : Fr
  oldDefiRoot : Fr
  newDefiRoot : Fr
  bridgeCallDatas : BridgeCalls Fr
  defiDepositSums : BridgeCalls Fr
  assetIds : Assets Fr
  totalTxFees : Assets Fr
  defiInteractionNotes : Fin NUM_INTERACTION_RESULTS_PER_BLOCK → Fr
  previousDefiInteractionHash : Fr
  rollupBeneficiary : Fr
  numInnerProofs : Fr

/-- The header in the order in which it is hashed and broadcast. -/
def RootRollupHeader.toList (h : RootRollupHeader) : List Fr :=
  [h.rollupId, h.rollupSize, h.dataStartIndex, h.oldDataRoot, h.newDataRoot, h.oldNullRoot,
    h.newNullRoot, h.oldDataRootsRoot, h.newDataRootsRoot, h.oldDefiRoot, h.newDefiRoot] ++
  List.ofFn h.bridgeCallDatas ++ List.ofFn h.defiDepositSums ++ List.ofFn h.assetIds ++
  List.ofFn h.totalTxFees ++ List.ofFn h.defiInteractionNotes ++
  [h.previousDefiInteractionHash, h.rollupBeneficiary, h.numInnerProofs]

/-- The result: the public input, and the fields to be broadcast. -/
structure RootRollupProof where
  header : RootRollupHeader
  inputHash : Fr
  broadcastFields : List Fr

/-- All public inputs times a factor. -/
def RollupProof.scale (p : RollupProof) (factor : Fr) : RollupProof where
  rollupId := p.rollupId * factor
  rollupSize := p.rollupSize * factor
  dataStartIndex := p.dataStartIndex * factor
  oldDataRoot := p.oldDataRoot * factor
  newDataRoot := p.newDataRoot * factor
  oldNullRoot := p.oldNullRoot * factor
  newNullRoot := p.newNullRoot * factor
  oldDataRootsRoot := p.oldDataRootsRoot * factor
  newDataRootsRoot := p.newDataRootsRoot * factor
  oldDefiRoot := p.oldDefiRoot * factor
  newDefiRoot := p.newDefiRoot * factor
  defiBridgeCallDatas k := p.defiBridgeCallDatas k * factor
  defiBridgeDeposits k := p.defiBridgeDeposits k * factor
  assetIds k := p.assetIds k * factor
  totalTxFees k := p.totalTxFees k * factor
  inputsHash := p.inputsHash * factor
  innerProofsData := p.innerProofsData.map (· * factor)

/-! ## The parts of the circuit -/

/-- What a padding rollup has as its inputs hash. -/
def computeSha256OfZeroes (H : Primitives) (numTxsPerRollup : Nat) : Fr :=
  H.sha256ToField (List.replicate (8 * numTxsPerRollup) 0)

/-- The note of the witnesses, if they satisfy its constraints. -/
def checkDefiInteractionNote (H : Primitives) (noteData : DefiInteractionNoteTx) :
    Except String DefiInteractionNote := do
  Checks.require noteData.bridgeCallData.Satisfied "bridge_call_data"
  let _ ← rangeCheck noteData.interactionNonce DEFI_INTERACTION_NONCE_BIT_LENGTH "interaction_nonce"
  let _ ← rangeCheck noteData.totalInputValue NOTE_VALUE_BIT_LENGTH "total_input_value"
  let _ ← rangeCheck noteData.totalOutputValueA NOTE_VALUE_BIT_LENGTH "total_output_value_a"
  let _ ← rangeCheck noteData.totalOutputValueB NOTE_VALUE_BIT_LENGTH "total_output_value_b"
  return noteData.note H

/-- `to_byte_array`, as words of 32 bytes. -/
def DefiInteractionNote.toByteArray (note : DefiInteractionNote) (isReal : Bool) : List Fr :=
  [(note.bridgeCallData : Fr), note.interactionNonce, note.totalInputValue, note.totalOutputValueA,
    note.totalOutputValueB, fieldOfBool note.interactionResult].map (· * fieldOfBool isReal)

/-- `check_root_tree_updated`: the new data root goes to the leaf behind the rollup's id. -/
def checkRootTreeUpdated (oldDataRootsPath : H.HashPath)
    (rollupId newDataRoot newDataRootsRoot oldDataRootsRoot : Fr) : Except String Unit := do
  let index ← decomposeIntoBits (rollupId + 1) ROOT_TREE_DEPTH
  assertTrue (H.updateMembership newDataRootsRoot newDataRoot oldDataRootsRoot oldDataRootsPath 0 index)
    "check_root_tree_updated"

/-- The commitments of the real notes, and the hash. -/
def processDefiInteractionNotes (rollupId newDefiInteractionRoot oldDefiInteractionRoot : Fr)
    (oldDefiInteractionPath : H.HashPath) (numPreviousDefiInteractions : Fr)
    (defiInteractionNotes : Fin NUM_INTERACTION_RESULTS_PER_BLOCK → DefiInteractionNoteTx) :
    Except String ((Fin NUM_INTERACTION_RESULTS_PER_BLOCK → Fr) × Fr) := do
  let numPreviousDefiInteractions ← uint32 numPreviousDefiInteractions
  let isReal (i : Fin NUM_INTERACTION_RESULTS_PER_BLOCK) : Bool := i < numPreviousDefiInteractions
  let note i := (defiInteractionNotes i).note H
  let hashInput := List.ofFn fun i => H.sha256ToField ((note i).toByteArray (isReal i))
  let noteCommitments i := (note i).commitment * fieldOfBool (isReal i)
  let insertionIndex := rollupId * NUM_INTERACTION_RESULTS_PER_BLOCK
  assertTrue (H.batchUpdateMembership newDefiInteractionRoot oldDefiInteractionRoot
    oldDefiInteractionPath (List.ofFn noteCommitments) insertionIndex) "check_defi_tree_updated"
  return (noteCommitments, H.sha256ToField hashInput)

/-- The loops of the next two functions: each entry of an inner rollup that is not padding is one entry
of the header, and its amount is added to the amount there. -/
def accumulateMatches {N : Nat} (totals header entries amounts : Fin N → Fr) (padding : Fr)
    (isReal : Bool) (msg : Fin N → Nat → String) : Except String (Fin N → Fr) :=
  (List.finRange N).foldlM (fun totals j => do
    let isPadded := entries j == padding
    let isMatch (k : Fin N) : Bool := entries j == header k
    let numMatched : Fr := ∑ k, fieldOfBool (isMatch k)
    let totals k := totals k + amounts j * fieldOfBool (isMatch k) * fieldOfBool (!isPadded)
    let isValid := !isReal || numMatched == 1 || isPadded
    assertTrue isValid (msg j numMatched.val)
    return totals) totals

/-- The new totals. -/
def checkAssetIdsAndAccumulateTxFees (i : Nat) (totalTxFees assetIds : Assets Fr)
    (publicInputs : RollupProof) (isReal : Bool) : Except String (Assets Fr) :=
  accumulateMatches totalTxFees assetIds publicInputs.assetIds publicInputs.totalTxFees
    MAX_NUM_ASSETS isReal fun j numMatched =>
      "rollup proof " ++ toString i ++ "'s asset id " ++ toString (publicInputs.assetIds j).val ++
        " matched " ++ toString numMatched ++ " times."

/-- The new sums. -/
def checkBridgeCallDatasAndAccumulateDefiDeposits (i : Nat)
    (defiDepositSums bridgeCallDatas : BridgeCalls Fr) (publicInputs : RollupProof) (isReal : Bool) :
    Except String (BridgeCalls Fr) :=
  accumulateMatches defiDepositSums bridgeCallDatas publicInputs.defiBridgeCallDatas
    publicInputs.defiBridgeDeposits 0 isReal fun j numMatched =>
      "rollup proof " ++ toString i ++ "'s bridge call data at index " ++ toString j.val ++
        " matched " ++ toString numMatched ++ " times."

/-- The variables that are extracted from the inner proofs. -/
structure Sequence where
  dataStartIndex : Fr
  oldDataRoot : Fr
  newDataRoot : Fr
  oldNullRoot : Fr
  newNullRoot : Fr

/-- The new variables. -/
def assertInnerProofSequential (numInnerTxsPow2 i : Nat) (rollupId : Fr) (sq : Sequence)
    (oldRootRoot newDefiRoot : Fr) (publicInputs : RollupProof) (isReal : Bool) :
    Except String Sequence := do
  assertTrue (!isReal || publicInputs.oldDataRootsRoot == oldRootRoot)
    ("inconsistent_roots_root_" ++ toString i)
  assertTrue (!isReal || publicInputs.newDefiRoot == newDefiRoot)
    ("inconsistent_defi_root_" ++ toString i)
  assertTrue (!isReal || publicInputs.rollupId == rollupId) ("incorrect_rollup_id_" ++ toString i)
  if i = 0 then
    -- the first proof is always real
    assertTrue isReal "root rollup first proof is not real"
    return ⟨publicInputs.dataStartIndex, publicInputs.oldDataRoot, publicInputs.newDataRoot,
      publicInputs.oldNullRoot, publicInputs.newNullRoot⟩
  else
    let validDataStartIndex := !isReal ||
      publicInputs.dataStartIndex == sq.dataStartIndex + (i * numInnerTxsPow2 * 2 : Nat)
    let validOldDataRoot := !isReal || publicInputs.oldDataRoot == sq.newDataRoot
    let validOldNullRoot := !isReal || publicInputs.oldNullRoot == sq.newNullRoot
    assertTrue validDataStartIndex ("incorrect_data_start_index_" ++ toString i)
    assertTrue validOldDataRoot ("inconsistent_old_data_root_" ++ toString i)
    assertTrue validOldNullRoot ("inconsistent_old_null_root_" ++ toString i)
    return { sq with
      newDataRoot := if isReal then publicInputs.newDataRoot else sq.newDataRoot
      newNullRoot := if isReal then publicInputs.newNullRoot else sq.newNullRoot }

/-! ## The circuit -/

/-- The loop accumulators. -/
structure RootLoop where
  sq : Sequence
  totalTxFees : Assets Fr
  defiDepositSums : BridgeCalls Fr
  innerInputHashes : List Fr
  txProofPublicInputs : List Fr

/-- The loop starts with empty totals. -/
def RootLoop.init : RootLoop := ⟨⟨0, 0, 0, 0, 0⟩, fun _ => 0, fun _ => 0, [], []⟩

/-- The body of the loop over the inner rollups. -/
def rootStep (tx : RootRollupTx H m) (numInnerTxsPow2 numInnerProofs : Nat) (st : RootLoop)
    (i : Fin m) : Except String RootLoop := do
  let isReal : Bool := i < numInnerProofs
  let publicInputs := (tx.rollups i).scale (fieldOfBool isReal)
  let totalTxFees ← checkAssetIdsAndAccumulateTxFees i st.totalTxFees tx.assetIds publicInputs isReal
  let defiDepositSums ← checkBridgeCallDatasAndAccumulateDefiDeposits i st.defiDepositSums
    tx.bridgeCallDatas publicInputs isReal
  let sq ← assertInnerProofSequential numInnerTxsPow2 i tx.rollupId st.sq tx.oldDataRootsRoot
    tx.newDefiRoot publicInputs isReal
  let hash := if isReal then publicInputs.inputsHash else computeSha256OfZeroes H numInnerTxsPow2
  return ⟨sq, totalTxFees, defiDepositSums, st.innerInputHashes ++ [hash],
    st.txProofPublicInputs ++ resize (publicInputs.innerProofsData.take (8 * numInnerTxsPow2))
      (8 * numInnerTxsPow2)⟩

/-- `root_rollup_circuit`, with the sizes padded to powers of two. -/
def rootRollupCircuit (tx : RootRollupTx H m) (numInnerTxsPow2 numOuterTxsPow2 : Nat) :
    Except String RootRollupProof := do
  let numInnerProofs ← uint32 tx.numInnerProofs
  let _ ← (List.finRange NUM_INTERACTION_RESULTS_PER_BLOCK).mapM fun i =>
    checkDefiInteractionNote H (tx.defiInteractionNotes i)
  let _ ← rangeCheck tx.rollupBeneficiary 160 "rollup beneficiary is not an address!"
  let zeroHash := computeSha256OfZeroes H numInnerTxsPow2
  let st ← (List.finRange m).foldlM (rootStep tx numInnerTxsPow2 numInnerProofs) RootLoop.init
  let (noteCommitments, previousDefiInteractionHash) ← processDefiInteractionNotes tx.rollupId
    tx.newDefiRoot tx.oldDefiRoot tx.oldDefiPath tx.numPreviousDefiInteractions tx.defiInteractionNotes
  checkRootTreeUpdated tx.oldDataRootsPath tx.rollupId st.sq.newDataRoot tx.newDataRootsRoot
    tx.oldDataRootsRoot
  let numInnerProofsPow2 := numOuterTxsPow2 / numInnerTxsPow2
  let header : RootRollupHeader := {
    rollupId := tx.rollupId, rollupSize := numOuterTxsPow2
    dataStartIndex := st.sq.dataStartIndex
    oldDataRoot := st.sq.oldDataRoot, newDataRoot := st.sq.newDataRoot
    oldNullRoot := st.sq.oldNullRoot, newNullRoot := st.sq.newNullRoot
    oldDataRootsRoot := tx.oldDataRootsRoot, newDataRootsRoot := tx.newDataRootsRoot
    oldDefiRoot := tx.oldDefiRoot, newDefiRoot := tx.newDefiRoot
    bridgeCallDatas := tx.bridgeCallDatas, defiDepositSums := st.defiDepositSums
    assetIds := tx.assetIds, totalTxFees := st.totalTxFees
    defiInteractionNotes := noteCommitments
    previousDefiInteractionHash := previousDefiInteractionHash
    rollupBeneficiary := tx.rollupBeneficiary, numInnerProofs := numInnerProofsPow2 }
  let zeroHashes := List.replicate (numInnerProofsPow2 - m) zeroHash
  let inputHash := H.sha256ToField (header.toList ++ st.innerInputHashes ++ zeroHashes)
  let zeroPadding := List.replicate ((numInnerProofsPow2 - m) * numInnerTxsPow2 * 8) 0
  return ⟨header, inputHash, header.toList ++ st.txProofPublicInputs ++ zeroPadding⟩

/-- An accepted root rollup of accepted inner rollups, in the sizes of the circuits. -/
structure RootAccepted (tx : RootRollupTx H m) (rollups : Fin m → RollupTx H n)
    (proof : RootRollupProof) : Prop where
  rollups : ∀ i, RollupAccepted (rollups i) (tx.rollups i)
  accepted : rootRollupCircuit tx (rollupSizePow2 n) (rollupSizePow2 (m * rollupSizePow2 n)) =
    .ok proof

end AztecConnect.Circuit
