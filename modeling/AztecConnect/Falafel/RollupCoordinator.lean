import AztecConnect.Falafel.TxReceiver

/-!
# The transactions of the next rollup

Translation of `falafel/src/pipeline_coordinator`: `getNextTxsToRollup` and `handleNewDefiTx` of
`rollup_coordinator.ts`, `bridge_tx_queue.ts`, and `aggregateAndPublish` up to the call of the rollup
creator. The fee resolver, the subsidies and the conditions to publish are parameters.
-/

namespace AztecConnect.Falafel

/-- A transaction of the pool, with the fields of its proof data. -/
structure PendingTx where
  id : Nat
  txType : TxType
  excessGas : Int
  proofData : ProofData
  txFee : Nat
  feeAssetId : Nat
  bridgeCallData : Nat

/-- A transaction that is considered for the rollup. -/
structure RollupTx where
  tx : PendingTx
  excessGas : Int
  feeAssetId : Nat
  feeValue : Nat
  bridgeCallData : Option Nat

/-- `RollupResources`. -/
structure RollupResources where
  gasUsed : Int
  callDataUsed : Int
  bridgeCallDatas : List Nat
  assetIds : List Nat

/-- `createRollupTx`. -/
def createRollupTx (tx : PendingTx) : RollupTx := ⟨tx, tx.excessGas, tx.feeAssetId, tx.txFee, none⟩

/-- `createDefiRollupTx`. -/
def createDefiRollupTx (tx : PendingTx) : RollupTx :=
  ⟨tx, tx.excessGas, tx.feeAssetId, tx.txFee, some tx.bridgeCallData⟩

/-- What the coordinator asks of the fee resolver. -/
structure TxFeeResolver where
  isFeePayingAsset : Nat → Bool
  getUnadjustedBaseVerificationGas : Int
  getUnadjustedTxGas : Nat → TxType → Int
  getTxCallData : TxType → Int
  getFullBridgeGas : Nat → Int
  getFullBridgeGasFromContract : Nat → Int
  getSingleBridgeTxGas : Nat → Int

/-- The number of assets for fees, and of bridge calls, of a rollup. -/
def NUMBER_OF_ASSETS : Nat := 16

/-- `RollupProofData.NUM_BRIDGE_CALLS_PER_BLOCK`. -/
def NUM_BRIDGE_CALLS_PER_BLOCK : Nat := 32

/-- An element is added to a set. -/
def addToSet (xs : List Nat) (x : Nat) : List Nat := if xs.contains x then xs else xs ++ [x]

/-- The element is in the set. -/
@[simp] lemma mem_addToSet {xs : List Nat} {x y : Nat} : y ∈ addToSet xs x ↔ y ∈ xs ∨ y = x := by
  unfold addToSet
  split
  case isTrue h =>
    exact ⟨.inl, fun hor => hor.elim id fun heq => heq ▸ List.contains_iff_mem.mp h⟩
  case isFalse => rw [List.mem_append, List.mem_singleton]

/-- One that is there is not added. -/
lemma addToSet_of_mem {xs : List Nat} {x : Nat} (h : x ∈ xs) : addToSet xs x = xs :=
  if_pos (List.contains_iff_mem.mpr h)

/-- A new one is added at the end. -/
lemma addToSet_of_notMem {xs : List Nat} {x : Nat} (h : x ∉ xs) : addToSet xs x = xs ++ [x] :=
  if_neg fun hmem => h (List.contains_iff_mem.mp hmem)

/-- None is there twice. -/
lemma nodup_addToSet {xs : List Nat} (h : xs.Nodup) (x : Nat) : (addToSet xs x).Nodup := by
  by_cases hmem : x ∈ xs
  · rwa [addToSet_of_mem hmem]
  · rw [addToSet_of_notMem hmem]
    exact List.nodup_append.mpr ⟨h, List.nodup_singleton x, fun a ha b hb heq =>
      hmem (List.mem_singleton.mp hb ▸ heq ▸ ha)⟩

/-! ## The queue of a bridge -/

namespace BridgeTxQueue

variable (R : TxFeeResolver) (bridgeCallData : Nat)

/-- Ordered by decreasing fee. -/
def addDefiTx (newTx : RollupTx) : List RollupTx → List RollupTx
  | [] => [newTx]
  | tx :: txQueue =>
    if newTx.excessGas > tx.excessGas then newTx :: tx :: txQueue else tx :: addDefiTx newTx txQueue

/-- What is considered so far. -/
structure Batch where
  txsToConsider : List RollupTx
  newAssets : List Nat
  gasFromTxs : Int
  totalGasUsedByTxs : Int
  totalCallDataUsedByTxs : Int

/-- A transaction is added to the batch. -/
def Batch.add (b : Batch) (tx : RollupTx) (newAssets : List Nat) (gasUsed callDataUsed : Int) :
    Batch where
  txsToConsider := b.txsToConsider ++ [tx]
  newAssets := newAssets
  gasFromTxs := b.gasFromTxs +
    min (R.getSingleBridgeTxGas bridgeCallData + tx.excessGas) (R.getFullBridgeGas bridgeCallData)
  totalGasUsedByTxs := gasUsed
  totalCallDataUsedByTxs := callDataUsed

/-- The loop of `getTxsToRollup`. -/
def consider (maxRemainingTransactions maxAssets : Nat)
    (gasRemainingInRollup callDataRemainingInRollup : Int) : List RollupTx → Batch → Batch
  | [], b => b
  | tx :: txQueue, b =>
    let gasUsed := b.totalGasUsedByTxs + (R.getUnadjustedTxGas tx.feeAssetId .DEFI_DEPOSIT -
      R.getUnadjustedBaseVerificationGas)
    let callDataUsed := b.totalCallDataUsedByTxs + R.getTxCallData .DEFI_DEPOSIT
    if ¬ b.txsToConsider.length < maxRemainingTransactions then b
    -- we can no longer accept more txs at this point
    else if gasUsed > gasRemainingInRollup ∨ callDataUsed > callDataRemainingInRollup then b
    else if tx.feeValue ≠ 0 ∧ R.isFeePayingAsset tx.feeAssetId then
      if ¬ b.newAssets.contains tx.feeAssetId ∧ b.newAssets.length = maxAssets
      then consider maxRemainingTransactions maxAssets gasRemainingInRollup callDataRemainingInRollup
        txQueue b
      else consider maxRemainingTransactions maxAssets gasRemainingInRollup callDataRemainingInRollup
        txQueue (b.add R bridgeCallData tx (addToSet b.newAssets tx.feeAssetId) gasUsed callDataUsed)
    else consider maxRemainingTransactions maxAssets gasRemainingInRollup callDataRemainingInRollup
      txQueue (b.add R bridgeCallData tx b.newAssets gasUsed callDataUsed)

/-- The transactions for the rollup with the gas and the call data that they use, and the queue that
is left. -/
def getTxsToRollup (availableSubsidy : Int) (maxRemainingTransactions : Nat) (assetIds : List Nat)
    (maxAssets : Nat) (gasRemainingInRollup callDataRemainingInRollup : Int)
    (txQueue : List RollupTx) : List RollupTx × Int × Int × List RollupTx :=
  let b := consider R bridgeCallData maxRemainingTransactions maxAssets gasRemainingInRollup
    callDataRemainingInRollup txQueue
    ⟨[], assetIds, 0, R.getFullBridgeGasFromContract bridgeCallData, 0⟩
  if b.txsToConsider ≠ [] ∧ b.gasFromTxs + availableSubsidy ≥ R.getFullBridgeGas bridgeCallData
  then (b.txsToConsider, b.totalGasUsedByTxs, b.totalCallDataUsedByTxs,
    txQueue.drop b.txsToConsider.length)
  else ([], 0, 0, txQueue)

end BridgeTxQueue

/-! ## The coordinator -/

/-- `RollupCoordinator`. -/
structure RollupCoordinator where
  numInnerRollupTxs : Nat
  numOuterRollupProofs : Nat
  feeResolver : TxFeeResolver
  maxGasForRollup : Int
  maxCallDataForRollup : Int
  /-- `getBridgeSubsidy` of a bridge, when the transaction with the index is processed. -/
  getBridgeSubsidy : Nat → Nat → Int
  /-- `flush`, `isProfitable`, `deadline` or out of a resource. -/
  shouldPublish : List RollupTx → Bool
  /-- `outOfGas`, `outOfCallData` or `outOfSlots`. -/
  outOfResources : List RollupTx → Bool

namespace RollupCoordinator

variable (c : RollupCoordinator)

/-- `totalSlots`. -/
def totalSlots : Nat := c.numOuterRollupProofs * c.numInnerRollupTxs

/-- The variables of `getNextTxsToRollup`. -/
structure Selection where
  txs : List RollupTx
  resourceConsumption : RollupResources
  discardedCommitments : List Nat
  bridgeQueues : Nat → List RollupTx

/-- The comparison of the sort is negative. Claims go first. -/
def claimFirst (a b : PendingTx) : Bool := a.txType = .DEFI_CLAIM && a.txType ≠ b.txType

/-- The sort is stable and only asks whether the comparison is negative. -/
def insertTx (sortedTxs : List PendingTx) (tx : PendingTx) : List PendingTx :=
  sortedTxs.takeWhile (fun other => !claimFirst tx other) ++
    tx :: sortedTxs.dropWhile fun other => !claimFirst tx other

/-- Claims first. -/
def sortTxs (pendingTxs : List PendingTx) : List PendingTx := pendingTxs.foldl insertTx []

/-- The consumption with one more transaction, if that is within the limits. -/
def validateAndUpdateRollupResources (txType : TxType) (feeAssetId : Nat) (r : RollupResources) :
    Option RollupResources :=
  let gasUsed := c.feeResolver.getUnadjustedTxGas feeAssetId txType -
    c.feeResolver.getUnadjustedBaseVerificationGas + r.gasUsed
  let callDataUsed := c.feeResolver.getTxCallData txType + r.callDataUsed
  if gasUsed > c.maxGasForRollup ∨ callDataUsed > c.maxCallDataForRollup then none
  else some { r with gasUsed, callDataUsed }

/-- `addTxs` of `handleNewDefiTx`. -/
def addDefiTxs (bridgeCallData : Nat) (s : Selection) (txs : List RollupTx) : Selection :=
  txs.foldl (fun s tx => { s with
    txs := s.txs ++ [tx]
    resourceConsumption := { s.resourceConsumption with
      assetIds :=
        if tx.feeValue ≠ 0 ∧ c.feeResolver.isFeePayingAsset tx.feeAssetId
        then addToSet s.resourceConsumption.assetIds tx.feeAssetId
        else s.resourceConsumption.assetIds
      bridgeCallDatas :=
        if s.resourceConsumption.bridgeCallDatas.contains bridgeCallData
        then s.resourceConsumption.bridgeCallDatas
        else s.resourceConsumption.bridgeCallDatas ++ tx.bridgeCallData.toList } }) s

/-- `checkAndAddTxs` of one transaction. -/
def checkAndAddTx (bridgeCallData : Nat) (bridgeAlreadyPresentInRollup : Bool) (s : Selection)
    (rollupTx : RollupTx) : Selection :=
  let r := s.resourceConsumption
  let gasUsed := r.gasUsed +
    (if bridgeAlreadyPresentInRollup then 0
      else c.feeResolver.getFullBridgeGasFromContract bridgeCallData) +
    (c.feeResolver.getUnadjustedTxGas rollupTx.feeAssetId .DEFI_DEPOSIT -
      c.feeResolver.getUnadjustedBaseVerificationGas)
  let callDataUsed := r.callDataUsed + c.feeResolver.getTxCallData .DEFI_DEPOSIT
  if gasUsed > c.maxGasForRollup ∨ callDataUsed > c.maxCallDataForRollup then s
  else
    let s := c.addDefiTxs bridgeCallData s [rollupTx]
    { s with resourceConsumption := { s.resourceConsumption with gasUsed, callDataUsed } }

/-- `handleNewDefiTx`. -/
def handleNewDefiTx (flush : Bool) (index remainingTxSlots : Nat) (s : Selection) (tx : PendingTx) :
    Selection :=
  let rollupTx := createDefiRollupTx tx
  let bridgeCallData := tx.bridgeCallData
  let bridgeAlreadyPresentInRollup := s.resourceConsumption.bridgeCallDatas.contains bridgeCallData
  -- we already have txs for this bridge in the rollup, add it straight in
  if bridgeAlreadyPresentInRollup then c.checkAndAddTx bridgeCallData true s rollupTx
  -- this rollup can't take any more bridges
  else if s.resourceConsumption.bridgeCallDatas.length = NUM_BRIDGE_CALLS_PER_BLOCK then s
  else if flush then c.checkAndAddTx bridgeCallData false s rollupTx
  else
    let txQueue := BridgeTxQueue.addDefiTx rollupTx (s.bridgeQueues bridgeCallData)
    let (txsToRollup, gasUsed, callDataUsed, rest) := BridgeTxQueue.getTxsToRollup c.feeResolver
      bridgeCallData (c.getBridgeSubsidy index bridgeCallData) remainingTxSlots
      s.resourceConsumption.assetIds NUMBER_OF_ASSETS
      (c.maxGasForRollup - s.resourceConsumption.gasUsed)
      (c.maxCallDataForRollup - s.resourceConsumption.callDataUsed) txQueue
    let s := c.addDefiTxs bridgeCallData s txsToRollup
    { s with
      bridgeQueues := Function.update s.bridgeQueues bridgeCallData rest
      resourceConsumption := { s.resourceConsumption with
        gasUsed := s.resourceConsumption.gasUsed + gasUsed
        callDataUsed := s.resourceConsumption.callDataUsed + callDataUsed } }

/-- The body of the loop. -/
def selectTx (flush : Bool) (index : Nat) (s : Selection) (tx : PendingTx) : Selection :=
  let proofData := tx.proofData
  let assetId := tx.feeAssetId
  let discardTx : Selection := { s with
    discardedCommitments :=
      s.discardedCommitments ++ [proofData.noteCommitment1, proofData.noteCommitment2] }
  let feePaying := c.feeResolver.isFeePayingAsset assetId
  -- account txs don't have fees and are not part of chains
  if tx.txType = .ACCOUNT then
    match c.validateAndUpdateRollupResources .ACCOUNT 0 s.resourceConsumption with
    | some r => { s with txs := s.txs ++ [createRollupTx tx], resourceConsumption := r }
    | none => s
  -- the fee is in an asset that needs to be added to the asset set, and the set is full
  else if feePaying ∧ ¬ s.resourceConsumption.assetIds.contains assetId ∧
    s.resourceConsumption.assetIds.length = NUMBER_OF_ASSETS then discardTx
  -- it's chaining off a discarded tx
  else if proofData.backwardLink ≠ 0 ∧ s.discardedCommitments.contains proofData.backwardLink
    then discardTx
  else if tx.txType ≠ .DEFI_DEPOSIT then
    match c.validateAndUpdateRollupResources tx.txType assetId s.resourceConsumption with
    | some r => { s with
        txs := s.txs ++ [createRollupTx tx]
        resourceConsumption := { r with
          assetIds := if feePaying then addToSet r.assetIds assetId else r.assetIds } }
    | none => discardTx
  else c.handleNewDefiTx flush index (c.totalSlots - s.txs.length) s tx

/-- The loop, from an index. -/
def selectTxs (flush : Bool) : Nat → List PendingTx → Selection → Selection
  | _, [], s => s
  | index, tx :: sortedTxs, s =>
    if s.txs.length < c.totalSlots
    then selectTxs flush (index + 1) sortedTxs (c.selectTx flush index s tx) else s

/-- `getNextTxsToRollup`. -/
def getNextTxsToRollup (pendingTxs : List PendingTx) (flush : Bool) : Selection :=
  c.selectTxs flush 0 (sortTxs pendingTxs)
    { txs := []
      resourceConsumption :=
        ⟨c.totalSlots * c.feeResolver.getUnadjustedBaseVerificationGas, 0, [], []⟩
      discardedCommitments := []
      bridgeQueues := fun _ => [] }

/-- The loop over the second class transactions, with the consumption that it updates. -/
def addSecondClass (txsToRollup : List RollupTx) : List PendingTx → List RollupTx →
    RollupResources → List RollupTx × RollupResources
  | [], secondClassTxs, r => (secondClassTxs, r)
  | tx :: txs, secondClassTxs, r =>
    if txsToRollup.length + secondClassTxs.length < c.totalSlots then
      if tx.txType = .ACCOUNT then
        match c.validateAndUpdateRollupResources .ACCOUNT 0 r with
        | some r => addSecondClass txsToRollup txs (secondClassTxs ++ [createRollupTx tx]) r
        | none => addSecondClass txsToRollup txs secondClassTxs r
      else addSecondClass txsToRollup txs secondClassTxs r
    else (secondClassTxs, r)

/-- The second class transactions that are added to the rollup. -/
def selectSecondClass (txsToRollup : List RollupTx) (txs : List PendingTx)
    (secondClassTxs : List RollupTx) (r : RollupResources) : List RollupTx :=
  (c.addSecondClass txsToRollup txs secondClassTxs r).1

/-- The transactions that are handed to the rollup creator, in chunks, if a rollup is created. -/
def aggregateAndPublish (s : Selection) (pendingSecondClassTxs : List PendingTx) :
    Except String (Option (List RollupTx)) :=
  if s.txs.length > c.totalSlots
  then .error s!"txsToRollup.length > numRemainingSlots: {s.txs.length} > {c.totalSlots}"
  else if s.txs = [] ∨ ¬ c.shouldPublish s.txs then .ok none
  else if c.outOfResources s.txs then .ok (some s.txs)
  else .ok (some (s.txs ++ c.selectSecondClass s.txs
    (pendingSecondClassTxs.take (c.totalSlots - s.txs.length)) [] s.resourceConsumption))

/-- `processPendingTxs`. -/
def processPendingTxs (pendingTxs pendingSecondClassTxs : List PendingTx) (flush : Bool) :
    Except String (Option (List RollupTx)) :=
  c.aggregateAndPublish (c.getNextTxsToRollup pendingTxs flush) pendingSecondClassTxs

end RollupCoordinator

end AztecConnect.Falafel
