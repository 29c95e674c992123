import AztecConnect.Circuit.Claim
import AztecConnect.Circuit.JoinSplit

/-!
# The rollup circuit

Translation of `rollup/proofs/rollup/rollup_circuit.cpp`, with `rollup_proof_data.hpp` for the layout
of the public inputs. The recursive verification of the transactions is the predicate `TxAccepted` of
their public inputs; the other constraints are the check of an assignment. An array whose length the
circuit fixes is a function of the index. Of an array that the loop over the transactions builds, the
entries not yet written are zero.
-/

namespace AztecConnect.Circuit

def NUM_BRIDGE_CALLS_PER_BLOCK : Nat := 32
def NUM_ASSETS : Nat := 16
def MAX_NUM_ASSETS : Nat := 2 ^ MAX_NUM_ASSETS_BIT_LENGTH
def NULL_TREE_DEPTH : Nat := 256
def ROOT_TREE_DEPTH : Nat := 28
def DEFI_BRIDGE_CALL_DATA_BIT_LENGTH : Nat := 250

/-- One for every bridge call of a block. -/
abbrev BridgeCalls (α : Type) : Type := Fin NUM_BRIDGE_CALLS_PER_BLOCK → α

/-- One for every fee asset of a block. -/
abbrev Assets (α : Type) : Type := Fin NUM_ASSETS → α

variable {H : Primitives} {n : Nat}

/-- The public inputs of a transaction that a rollup can verify: the keys are those of the join-split,
the account and the claim circuit. -/
inductive TxAccepted (H : Primitives) (p : InnerProof) : Prop where
  | joinSplit (tx : JoinSplitTx H) (h : joinSplitCircuit H tx p)
  | account (tx : AccountTx H) (h : accountCircuit H tx p)
  | claim (tx : ClaimTx H) (h : claimCircuit H tx p)

/-- What a prover assigns to the witnesses of the circuit, with the public inputs of the transactions.
Each transaction has two entries in the arrays for the null tree. -/
structure RollupTx (H : Primitives) (maxNumTxs : Nat) where
  rollupId : Fr
  numTxs : Fr
  dataStartIndex : Fr
  txs : Fin maxNumTxs → InnerProof
  oldDataRoot : Fr
  newDataRoot : Fr
  oldDataPath : H.HashPath
  linkedCommitmentPaths : Fin maxNumTxs → H.HashPath
  linkedCommitmentIndices : Fin maxNumTxs → Fr
  oldNullRoot : Fr
  newNullRoots : Fin maxNumTxs → Fin 2 → Fr
  oldNullPaths : Fin maxNumTxs → Fin 2 → H.HashPath
  dataRootsRoot : Fr
  dataRootsPaths : Fin maxNumTxs → H.HashPath
  dataRootsIndicies : Fin maxNumTxs → Fr
  /-- The public input for the new root, which nothing constrains. -/
  newDataRootsRoot : Fr
  newDefiRoot : Fr
  numDefiInteractions : Fr
  bridgeCallDatas : BridgeCalls Fr
  numAssetIds : Fr
  assetIds : Assets Fr

/-- The public inputs, in the order of `RollupProofFields`. -/
structure RollupProof where
  rollupId : Fr
  rollupSize : Fr
  dataStartIndex : Fr
  oldDataRoot : Fr
  newDataRoot : Fr
  oldNullRoot : Fr
  newNullRoot : Fr
  oldDataRootsRoot : Fr
  newDataRootsRoot : Fr
  oldDefiRoot : Fr
  newDefiRoot : Fr
  defiBridgeCallDatas : BridgeCalls Fr
  defiBridgeDeposits : BridgeCalls Fr
  assetIds : Assets Fr
  totalTxFees : Assets Fr
  inputsHash : Fr
  innerProofsData : List Fr

/-- The text of a field element in a message. -/
def showField (x : Fr) : String :=
  let digits := Nat.toDigits 16 x.val
  "0x" ++ String.ofList (List.replicate (64 - digits.length) '0' ++ digits)

/-- The fields of a transaction that the rollup publishes (`PropagatedInnerProofFields`). -/
def InnerProof.propagated (p : InnerProof) : List Fr :=
  [p.proofId, p.noteCommitment1, p.noteCommitment2, p.nullifier1, p.nullifier2, p.publicValue,
    p.publicOwner, p.publicAssetId]

/-! ## The parts of the circuit -/

/-- The body of the loop of `check_nullifiers_inserted`. -/
def insertNullifier (newNullRoot : Fr) (oldNullPath : H.HashPath) (isTxReal : Bool)
    (latestNullRoot newNullIndex : Fr) (i : Nat) : Except String Fr := do
  let isReal := isTxReal && newNullIndex != 0
  -- padding transactions act as no-ops
  let index ← decomposeIntoBits (newNullIndex * fieldOfBool isReal) NULL_TREE_DEPTH
  assertTrue (H.updateMembership newNullRoot (fieldOfBool isReal) latestNullRoot oldNullPath 0 index)
    ("check_nullifiers_inserted_" ++ toString i)
  return newNullRoot

/-- `check_nullifiers_inserted`. -/
def checkNullifiersInserted (rollup : RollupTx H n) (numTxs : Nat) (newNullIndicies : Fin n → InnerProof) :
    Except String Fr :=
  (List.finRange n).foldlM (fun latestNullRoot i => do
    let latestNullRoot ← insertNullifier (rollup.newNullRoots i 0) (rollup.oldNullPaths i 0)
      (i < numTxs) latestNullRoot (newNullIndicies i).nullifier1 (2 * i)
    insertNullifier (rollup.newNullRoots i 1) (rollup.oldNullPaths i 1)
      (i < numTxs) latestNullRoot (newNullIndicies i).nullifier2 (2 * i + 1)) rollup.oldNullRoot

/-- The new public inputs, the new sums and the net fee. -/
def processDefiDeposit (H : Primitives) (rollupId : Fr) (publicInputs : InnerProof)
    (bridgeCallDatas : BridgeCalls Nat) (defiDepositSums : BridgeCalls Nat) (numDefiInteractions : Nat) :
    Except String (InnerProof × BridgeCalls Nat × Nat) := do
  let defiInteractionNonce := rollupId * NUM_BRIDGE_CALLS_PER_BLOCK
  let proofId := publicInputs.proofId
  let bridgeCallData ← rangeCheck publicInputs.bridgeCallData DEFI_BRIDGE_CALL_DATA_BIT_LENGTH
    "bridge_call_data"
  let depositValue ← rangeCheck publicInputs.defiDepositValue DEFI_DEPOSIT_VALUE_BIT_LENGTH
    "defi_deposit"
  let isDefiDeposit := proofId == ProofIds.DEFI_DEPOSIT
  let isReal (k : Fin NUM_BRIDGE_CALLS_PER_BLOCK) : Bool := k < numDefiInteractions
  let isMatch (k : Fin NUM_BRIDGE_CALLS_PER_BLOCK) : Bool :=
    bridgeCallData == bridgeCallDatas k && isReal k
  let numMatched : Fr := ∑ k, fieldOfBool (isMatch k)
  let defiDepositSums k := defiDepositSums k + depositValue * isDefiDeposit.toNat * (isMatch k).toNat
  let noteDefiInteractionNonce :=
    (defiInteractionNonce + ∑ k, (k.val : Fr) * fieldOfBool (isMatch k)) * fieldOfBool isDefiDeposit
  let isValidBridgeCallData := numMatched == 1 || !isDefiDeposit
  assertTrue isValidBridgeCallData
    ("proof bridge call data matched " ++ toString numMatched.val ++ " times")
  -- the part of the fee for the claim goes to the claim note
  let txFee ← rangeCheck publicInputs.txFee TX_FEE_BIT_LENGTH "tx_fee"
  let defiDepositFee := txFee / 2
  let claimFee := (txFee - defiDepositFee) * isDefiDeposit.toNat
  let netTxFee := if isDefiDeposit then defiDepositFee else txFee
  let noteCommitment1 := publicInputs.noteCommitment1
  let claimNoteCommitment := completeClaimNote H noteCommitment1 noteDefiInteractionNonce claimFee
  let publicInputs := { publicInputs with
    noteCommitment1 := if isDefiDeposit then claimNoteCommitment else noteCommitment1 }
  return (publicInputs, defiDepositSums, netTxFee)

/-- `process_claims`. -/
def processClaims (publicInputs : InnerProof) (newDefiRoot : Fr) : Except String Unit :=
  let isClaim := publicInputs.proofId == ProofIds.DEFI_CLAIM
  let defiRoot := publicInputs.defiRoot
  assertTrue (defiRoot == newDefiRoot || !isClaim) "claim proof has unmatched defi root"

/-- The loop accumulators of `process_chained_txs`. -/
structure ChainSearch where
  prevAllowChain : Fr
  isPropagatingPrevOutput1 : Bool
  isPropagatingPrevOutput2 : Bool
  foundLinkInRollup : Bool

/-- The body of the loop of `process_chained_txs`. -/
def ChainSearch.look (backwardLink : Fr) (isTxReal : Bool) (acc : ChainSearch) (prev : InnerProof) :
    ChainSearch :=
  -- a padded transaction has zero commitments and a zero link
  let isPropagatingPrevOutput1 := backwardLink == prev.noteCommitment1 && isTxReal
  let isPropagatingPrevOutput2 := backwardLink == prev.noteCommitment2 && isTxReal
  let foundLinkInLoop := isPropagatingPrevOutput1 || isPropagatingPrevOutput2
  if foundLinkInLoop then ⟨prev.allowChain, isPropagatingPrevOutput1, isPropagatingPrevOutput2, true⟩
  else acc

/-- `process_chained_txs`. -/
def processChainedTxs (rollup : RollupTx H n) (i : Fin n) (isTxReal : Bool) (publicInputs : InnerProof)
    (prevTxsPublicInputs : Fin n → InnerProof) : Except String Unit := do
  let backwardLink := publicInputs.backwardLink
  let chaining := backwardLink != 0
  let acc : ChainSearch := ((List.finRange n).filter (· < i)).foldl
    (fun acc j => acc.look backwardLink isTxReal (prevTxsPublicInputs j)) ⟨0, false, false, false⟩
  let startOfSubchain := chaining && !acc.foundLinkInRollup
  let middleOfChain := chaining && acc.foundLinkInRollup
  let linkedCommitmentIndex ← decomposeIntoBits (rollup.linkedCommitmentIndices i) DATA_TREE_DEPTH
  let linkedCommitmentExists := H.checkMembership rollup.oldDataRoot (rollup.linkedCommitmentPaths i)
    backwardLink linkedCommitmentIndex
  mustImply startOfSubchain linkedCommitmentExists ("tx " ++ toString i.val ++
    "'s linked commitment must exist. Membership check failed for backward_link " ++
    showField backwardLink)
  let attemptingToPropagateOutputIndex : Fr := if acc.isPropagatingPrevOutput1 then 1
    else if acc.isPropagatingPrevOutput2 then 2 else 0
  mustImply middleOfChain
    (acc.prevAllowChain == attemptingToPropagateOutputIndex || acc.prevAllowChain == 3)
    ("tx " ++ toString i.val ++ " is not permitted to propagate output " ++
      showField attemptingToPropagateOutputIndex ++ " of the prev tx. prev_allow_chain = " ++
      showField acc.prevAllowChain)

/-- The new totals. -/
def accumulateTxFees (totalTxFees : Assets Nat) (proofId assetId : Fr) (txFee : Nat)
    (assetIds : Assets Fr) (numAssetIds : Nat) (isReal : Bool) : Except String (Assets Nat) := do
  let isAccount := proofId == ProofIds.ACCOUNT
  let isMatch (k : Fin NUM_ASSETS) : Bool := assetId == assetIds k && decide (k < numAssetIds)
  let numMatched : Fr := ∑ k, fieldOfBool (isMatch k)
  let totalTxFees k := totalTxFees k + txFee * (isMatch k).toNat
  let isValidAssetId := !isReal || numMatched == 0 || numMatched == 1 || isAccount
  assertTrue isValidAssetId ("proof asset id matched " ++ toString numMatched.val ++ " times")
  return totalTxFees

/-! ## The circuit -/

/-- The next power of two. -/
def rollupSizePow2 (maxNumTxs : Nat) : Nat :=
  let floorRollupSize := 1 <<< Nat.log2 maxNumTxs
  floorRollupSize <<< (maxNumTxs != floorRollupSize).toNat

/-- The accumulators of the loop over the transactions: the public inputs of the transactions, as
they are after the claim notes are completed, and the sums. -/
structure RollupLoop (n : Nat) where
  publicInputs : Fin n → InnerProof
  totalTxFees : Assets Nat
  defiDepositSums : BridgeCalls Nat

/-- The witnesses that are converted before the loop. -/
structure RollupScope where
  numTxs : Nat
  numDefiInteractions : Nat
  bridgeCallDatas : BridgeCalls Nat
  numAssetIds : Nat
  assetIds : Assets Fr

/-- Bridge call datas out of scope are zero, asset ids out of scope are `2 ^ 30`. -/
def rollupScope (rollup : RollupTx H n) : Except String RollupScope := do
  let numTxs ← uint32 rollup.numTxs
  let _ ← rangeCheck rollup.numTxs MAX_TXS_BIT_LENGTH "num_txs"
  Checks.require (∀ k, (rollup.bridgeCallDatas k).val < 2 ^ DEFI_BRIDGE_CALL_DATA_BIT_LENGTH)
    "bridge_call_data"
  let numDefiInteractions ← uint32 rollup.numDefiInteractions
  let inScope (k : Fin NUM_BRIDGE_CALLS_PER_BLOCK) : Bool := k < numDefiInteractions
  let bridgeCallDatas k := (rollup.bridgeCallDatas k).val * (inScope k).toNat
  Checks.require (∀ k, !inScope k || bridgeCallDatas k != 0) "bridge_call_data out of scope"
  let numAssetIds ← uint32 rollup.numAssetIds
  let inScope (k : Fin NUM_ASSETS) : Bool := k < numAssetIds
  let assetIds k := if inScope k then rollup.assetIds k else MAX_NUM_ASSETS
  Checks.require (∀ k, !inScope k || assetIds k != MAX_NUM_ASSETS) "asset_id out of scope"
  return ⟨numTxs, numDefiInteractions, bridgeCallDatas, numAssetIds, assetIds⟩

/-- The body of the loop over the transactions. -/
def rollupStep (rollup : RollupTx H n) (scope : RollupScope) (st : RollupLoop n) (i : Fin n) :
    Except String (RollupLoop n) := do
  let isReal : Bool := i < scope.numTxs
  let publicInputs := (rollup.txs i).scale (fieldOfBool isReal)
  let (publicInputs, defiDepositSums, txFee) ← processDefiDeposit H rollup.rollupId publicInputs
    scope.bridgeCallDatas st.defiDepositSums scope.numDefiInteractions
  processClaims publicInputs rollup.newDefiRoot
  processChainedTxs rollup i isReal publicInputs st.publicInputs
  -- the data root of the transaction is in the data roots tree
  let dataRoot := publicInputs.merkleRoot
  let dataRootIndex ← decomposeIntoBits (rollup.dataRootsIndicies i) ROOT_TREE_DEPTH
  let dataRootExists := dataRoot != 0 &&
    H.checkMembership rollup.dataRootsRoot (rollup.dataRootsPaths i) dataRoot dataRootIndex
  assertTrue (isReal == dataRootExists) ("data_root_for_proof_" ++ toString i.val)
  let totalTxFees ← accumulateTxFees st.totalTxFees publicInputs.proofId publicInputs.txFeeAssetId
    txFee scope.assetIds scope.numAssetIds isReal
  return ⟨Function.update st.publicInputs i publicInputs, totalTxFees, defiDepositSums⟩

/-- Before the first transaction. -/
def RollupLoop.init : RollupLoop n := ⟨fun _ => 0, fun _ => 0, fun _ => 0⟩

/-- A list of field elements with zeros up to a length. -/
def resize (fields : List Fr) (size : Nat) : List Fr :=
  fields ++ List.replicate (size - fields.length) 0

/-- The note commitments of the transactions. -/
def newDataValues (publicInputs : Fin n → InnerProof) : List Fr :=
  resize ((List.finRange n).flatMap fun i =>
    [(publicInputs i).noteCommitment1, (publicInputs i).noteCommitment2]) (rollupSizePow2 n * 2)

/-- The fields of all transactions that the rollup publishes. -/
def innerProofsData (publicInputs : Fin n → InnerProof) : List Fr :=
  resize ((List.finRange n).flatMap fun i => (publicInputs i).propagated) (rollupSizePow2 n * 8)

/-- `rollup_circuit`. -/
def rollupCircuit (rollup : RollupTx H n) : Except String RollupProof := do
  let scope ← rollupScope rollup
  let dataStartIndex ← rangeCheck rollup.dataStartIndex DATA_TREE_DEPTH "data_start_index"
  let st ← (List.finRange n).foldlM (rollupStep rollup scope) RollupLoop.init
  assertTrue (H.batchUpdateMembership rollup.newDataRoot rollup.oldDataRoot rollup.oldDataPath
    (newDataValues st.publicInputs) dataStartIndex) "batch_update_membership"
  let newNullRoot ← checkNullifiersInserted rollup scope.numTxs st.publicInputs
  return {
    rollupId := rollup.rollupId, rollupSize := rollupSizePow2 n, dataStartIndex := dataStartIndex
    oldDataRoot := rollup.oldDataRoot, newDataRoot := rollup.newDataRoot
    oldNullRoot := rollup.oldNullRoot, newNullRoot := newNullRoot
    oldDataRootsRoot := rollup.dataRootsRoot, newDataRootsRoot := rollup.newDataRootsRoot
    oldDefiRoot := 0, newDefiRoot := rollup.newDefiRoot
    defiBridgeCallDatas := fun k => scope.bridgeCallDatas k
    defiBridgeDeposits := fun k => st.defiDepositSums k
    assetIds := scope.assetIds
    totalTxFees := fun k => st.totalTxFees k
    inputsHash := H.sha256ToField (innerProofsData st.publicInputs)
    innerProofsData := innerProofsData st.publicInputs }

/-- The public inputs of an accepted rollup of accepted transactions. -/
structure RollupAccepted (rollup : RollupTx H n) (proof : RollupProof) : Prop where
  txs : ∀ i, TxAccepted H (rollup.txs i)
  accepted : rollupCircuit rollup = .ok proof

end AztecConnect.Circuit
