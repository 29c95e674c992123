import AztecConnect.Contract.BridgeCalls
import AztecConnect.Contract.Decoder

/-!
# The rollup processor

Translation of `contracts/src/core/processors/RollupProcessorV2.sol`: every external function that
writes storage, with the internal functions it is made of, in the order of the source. A function is
a `Program`: it works on the storage and stops at its calls to other contracts. `V2.world` collects
the external functions as the entry points that other contracts may call back.

Where `RollupProcessorV2Reference.sol` has another body for an internal function, the callers take
that function as an argument (`processTx`, `processRollupWith`).
-/

namespace AztecConnect.Contract

open Resumption Bits

variable (P : Params)

/-! ## Modifiers -/

/-- `whenNotPaused`. -/
def whenNotPaused {α : Type} (body : Program α) : Program α := do
  let s ← Prog.get
  Prog.require (s.paused = false) .PAUSED
  body

/-- `whenPaused`. -/
def whenPaused {α : Type} (body : Program α) : Program α := do
  let s ← Prog.get
  Prog.require (s.paused = true) .NOT_PAUSED
  body

/-- Hold lock `l` around the body; the common part of `noReenter` and `allowAsyncReenter`. -/
def withLock {α : Type} (l : Lock) (body : Program α) : Program α := do
  let s ← Prog.get
  Prog.require (s.lock = Lock.UNLOCKED.toWord) .LOCKED_NO_REENTER
  Prog.modify (·.setLock l)
  let a ← body
  Prog.modify (·.setLock .UNLOCKED)
  return a

/-- `noReenter`: the lock is held for the whole body. -/
def noReenter {α : Type} (body : Program α) : Program α := withLock .LOCKED body

/-- `allowAsyncReenter`: only `processAsyncDefiInteraction` may be entered again. -/
def allowAsyncReenter {α : Type} (body : Program α) : Program α :=
  withLock .ALLOW_ASYNC_REENTER body

/-- Passes if unlocked, and if reentering is allowed; only the outermost call touches the lock. -/
def noReenterButAsync {α : Type} (body : Program α) : Program α := do
  let s ← Prog.get
  if s.lock = Lock.ALLOW_ASYNC_REENTER.toWord then body
  else withLock .ALLOW_ASYNC_REENTER body

/-- `onlyRole`, of OpenZeppelin's access control. -/
def onlyRole {α : Type} (x : Context) (role : Role) (body : Program α) : Program α := do
  Prog.require (x.hasRole role = true) (.accessControl role)
  body

/-- `checkThirdPartyContractStatus`: listing is open to all once the flag is set. -/
def checkThirdPartyContractStatus {α : Type} (x : Context) (body : Program α) : Program α := do
  let s ← Prog.get
  Prog.require (x.hasRole .LISTER_ROLE = true ∨ s.allowThirdPartyContracts = true)
    .THIRD_PARTY_CONTRACTS_FLAG_NOT_SET
  body

/-! ## Deposits and withdrawals -/

/-- `decreasePendingDepositBalance`: the store comes before the check. -/
def V2.decreasePendingDepositBalance (assetId : Word) (owner : Address) (amount : Word) :
    Program Unit := do
  Prog.require (¬ 0x1fffffff < assetId) .INVALID_ASSET_ID
  let s ← Prog.get
  let userPendingDeposit := s.userPendingDeposits assetId owner
  Prog.modify fun s =>
    { s with
      userPendingDeposits := Function.update s.userPendingDeposits assetId
        (Function.update (s.userPendingDeposits assetId) owner (userPendingDeposit - amount)) }
  Prog.require (¬ userPendingDeposit < amount) .INSUFFICIENT_DEPOSIT

/-- `withdraw`: the transfer may fail without an error. -/
def withdraw (withdrawValue : Word) (receiver : Address) (assetId : Word) : Program Unit := do
  Prog.require (receiver ≠ 0) .WITHDRAW_TO_ZERO_ADDRESS
  if assetId = 0 then do
    let _ ← Prog.request (.sendEth 30000 receiver withdrawValue)
  else do
    let s ← Prog.get
    let assetAddress ← Prog.ofExcept (getSupportedAsset s assetId)
    TokenTransfers.transferToDoNotBubbleErrors assetAddress receiver withdrawValue
      (s.assetGasLimits assetId)

/-- The approval or signature check of a deposit, returning the next `sigIndex`. -/
def checkDepositApproval (signatures : List Byte) (sigIndex : Nat) (publicOwner : Address)
    (digest : Word) : Program Nat := do
  let s ← Prog.get
  if s.depositProofApprovals publicOwner digest then pure sigIndex
  else do
    Prog.require (P.validSignature digest publicOwner signatures sigIndex = true) .signature
    pure (sigIndex + 0x60)

/-- The owner or receiver of a transaction. -/
def InnerTx.owner (t : InnerTx) : Address := t.publicOwner.setWidth 160

/-- One pass of the loop of `processDepositsAndWithdrawals`. -/
def processTx (decrease : Word → Address → Word → Program Unit) (signatures : List Byte)
    (sigIndex : Nat) (t : InnerTx) : Program Nat :=
  if 0 < t.publicValue then
    if t.proofId = 1 then do
      let sigIndex' ← checkDepositApproval P signatures sigIndex t.owner (P.keccak256 t.words)
      decrease t.assetId t.owner t.publicValue
      pure sigIndex'
    else if t.proofId = 2 then do
      withdraw t.publicValue t.owner t.assetId
      pure sigIndex
    else pure sigIndex
  else pure sigIndex

/-- The loop of `processDepositsAndWithdrawals`, over the remaining transactions. -/
def depositsAndWithdrawals (decrease : Word → Address → Word → Program Unit)
    (signatures : List Byte) : List InnerTx → Nat → Program Unit
  | [], _ => pure ()
  | t :: ts, sigIndex => do
    let sigIndex' ← processTx P decrease signatures sigIndex t
    depositsAndWithdrawals decrease signatures ts sigIndex'

/-- The first `n` slots. -/
def ProofData.firstSlots (proofData : ProofData) (n : Nat) : List InnerTx :=
  (List.range n).map proofData.slot

/-- `processDepositsAndWithdrawals` visits the first `numTxs` slots. -/
def processDepositsAndWithdrawals (decrease : Word → Address → Word → Program Unit)
    (proofData : ProofData) (numTxs : Word) (signatures : List Byte) : Program Unit :=
  depositsAndWithdrawals P decrease signatures (proofData.firstSlots numTxs.toNat) 0

/-! ## Verifying the proof -/

/-- `validateAndUpdateMerkleRoots`; the index arithmetic is unchecked `uint32`. -/
def validateAndUpdateMerkleRoots (proofData : ProofData) : Program Word := do
  let h ← Prog.ofExcept (computeRootHashes P proofData)
  let s ← Prog.get
  Prog.require (h.oldStateHash = s.rollupStateHash)
    (.INCORRECT_STATE_HASH h.oldStateHash h.newStateHash)
  let storedDataSize := s.datasize
  Prog.require (h.numDataLeaves ≠ 0) .panic
  let expected :=
    if storedDataSize % h.numDataLeaves = 0 then storedDataSize
    else storedDataSize + h.numDataLeaves - storedDataSize % h.numDataLeaves
  Prog.require (h.dataStartIndex = expected)
    (.INCORRECT_DATA_START_INDEX (h.dataStartIndex.setWidth 256) (expected.setWidth 256))
  Prog.modify fun s =>
    { s with rollupStateHash := h.newStateHash }.setRollupState DATASIZE_BIT_OFFSET 32
      ((h.dataStartIndex + h.numDataLeaves).setWidth 256)
  return h.rollupId

/-- `verifyProofAndUpdateState`. The proof is what follows the broadcast data in the `bytes`
argument; a negative size would make `calldatacopy` run out of gas. -/
def verifyProofAndUpdateState (x : Context) (cd : Calldata) (start length : Nat)
    (proofData : ProofData) (publicInputsHash : Word) : Program Word := do
  let broadcastedDataSize := ROLLUP_HEADER_LENGTH + 8 + (encoding cd start).encodedInnerDataSize
  Prog.require (broadcastedDataSize ≤ length) .outOfGas
  let proof := cd.slice (start + broadcastedDataSize) (length - broadcastedDataSize)
  let s ← Prog.get
  Prog.require (x.hasCode s.verifier = true) .INVALID_ADDRESS_NO_CODE
  let r ← Prog.request (.verify s.verifier publicInputsHash proof)
  Prog.require (r.success = true) (.bubbled r)
  validateAndUpdateMerkleRoots P proofData

/-! ## Bridge calls -/

/-- The stored length of the defi queue, and how much of it one rollup takes. -/
def V2.getDefiHashesLengthsAndNumPendingInteractions (s : State) : Word × Word :=
  let defiInteractionHashesLength := s.defiArrayLen
  (defiInteractionHashesLength,
    if BitVec.ofNat 256 NUMBER_OF_BRIDGE_CALLS < defiInteractionHashesLength then
      BitVec.ofNat 256 NUMBER_OF_BRIDGE_CALLS
    else defiInteractionHashesLength)

/-- The pending hashes, and the hash of them padded to `NUMBER_OF_BRIDGE_CALLS`. The two numbers are
what `getDefiHashesLengthsAndNumPendingInteractions` returns. -/
def pendingAndNextExpectedHashes (s : State) (lengths : Word × Word) : List Word × Word :=
  let (defiInteractionHashesLength, numPendingInteractions) := lengths
  let offset := defiInteractionHashesLength - numPendingInteractions
  let hashes := (List.range numPendingInteractions.toNat).map fun i =>
    s.defiInteractionHashes (offset + BitVec.ofNat 256 i)
  let padding := List.replicate (NUMBER_OF_BRIDGE_CALLS - numPendingInteractions.toNat)
    DEFI_RESULT_ZERO_HASH
  (hashes, P.sha256Mod (hashes ++ padding))

/-- The hashes the next rollup has to carry, as V2 reads them. -/
def V2.getPendingAndNextExpectedHashes (s : State) : List Word × Word :=
  pendingAndNextExpectedHashes P s (V2.getDefiHashesLengthsAndNumPendingInteractions s)

/-- What a bridge call came to. -/
structure BridgeResult where
  outputValueA : Word
  outputValueB : Word
  isAsync : Bool
  success : Bool
  errorReason : Option RevertReason

/-- The result of the delegatecall: a failure counts as a synchronous result of zero. -/
def BridgeResult.ofDelegatecall :
    Except RevertReason (Word × Word × Bool) → BridgeResult
  | .ok (outputValueA, outputValueB, isAsync) => ⟨outputValueA, outputValueB, isAsync, true, none⟩
  | .error e => ⟨0, 0, false, false, some e⟩

/-- `if (!fullBridgeCallData.secondOutputInUse) bridgeResult.outputValueB = 0`. -/
def BridgeResult.dropUnusedOutput (r : BridgeResult) (secondOutputInUse : Bool) : BridgeResult :=
  if secondOutputInUse then r else { r with outputValueB := 0 }

/-- Decode a bridge call and run it in the proxy, up to the result. -/
def runBridgeCall (getAssets : State → FullBridgeCallData → Word → Except RevertReason BridgeAssets)
    (x : Context) (rollupBeneficiary : Address)
    (encodedBridgeCallData totalInputValue interactionNonce : Word) : Program BridgeResult := do
  Prog.require (totalInputValue ≠ 0) .ZERO_TOTAL_INPUT_VALUE
  let s ← Prog.get
  let d ← Prog.ofExcept (getFullBridgeCallData s encodedBridgeCallData)
  let assets ← Prog.ofExcept (getAssets s d interactionNonce)
  Prog.require (x.hasCode s.defiBridgeProxy = true) .INVALID_ADDRESS_NO_CODE
  let outcome ← Prog.attempt (DefiBridgeProxy.convert x d.bridgeAddress assets totalInputValue
    interactionNonce d.auxData rollupBeneficiary)
  pure ((BridgeResult.ofDelegatecall outcome).dropUnusedOutput d.secondOutputInUse)

/-- Record an asynchronous interaction as pending. -/
def recordAsync (encodedBridgeCallData totalInputValue interactionNonce : Word) (s : State) :
    State :=
  { s.emit (.AsyncDefiBridgeProcessed encodedBridgeCallData interactionNonce totalInputValue) with
    pendingDefiInteractions := Function.update s.pendingDefiInteractions interactionNonce
      ⟨encodedBridgeCallData, totalInputValue⟩ }

/-- Publish a synchronous result and store its hash in cell `length` of the defi queue. -/
def recordSync (encodedBridgeCallData totalInputValue interactionNonce : Word) (r : BridgeResult)
    (length : Word) (s : State) : State :=
  { s.emit (.DefiBridgeProcessed encodedBridgeCallData interactionNonce totalInputValue
      r.outputValueA r.outputValueB r.success r.errorReason) with
    defiInteractionHashes := Function.update s.defiInteractionHashes length
      (P.defiInteractionHash encodedBridgeCallData interactionNonce totalInputValue
        r.outputValueA r.outputValueB r.success) }

/-- One pass of the loop of `processBridgeCalls`, returning the new `defiInteractionHashesLength`. -/
def V2.processBridgeCall (x : Context) (rollupBeneficiary : Address)
    (encodedBridgeCallData totalInputValue interactionNonce length : Word) : Program Word := do
  let r ← runBridgeCall getAztecAssetTypes x rollupBeneficiary encodedBridgeCallData
    totalInputValue interactionNonce
  if r.isAsync then do
    Prog.modify (recordAsync encodedBridgeCallData totalInputValue interactionNonce)
    pure length
  else do
    Prog.modify (recordSync P encodedBridgeCallData totalInputValue interactionNonce r length)
    pure (length + 1)

/-- The loop of `processBridgeCalls`: at most `n` calls from index `i` on, until a zero entry. -/
def V2.bridgeCallLoop (x : Context) (rollupBeneficiary : Address) (proofData : ProofData) :
    (n i : Nat) → (interactionNonce length : Word) → Program Word
  | 0, _, _, length => pure length
  | n + 1, i, interactionNonce, length =>
    if proofData.bridgeCallData i = 0 then pure length
    else do
      let length' ← V2.processBridgeCall P x rollupBeneficiary (proofData.bridgeCallData i)
        (proofData.depositSum i) interactionNonce length
      V2.bridgeCallLoop x rollupBeneficiary proofData n (i + 1) (interactionNonce + 1) length'

/-- `_rollupId * NUMBER_OF_BRIDGE_CALLS`, checked. -/
def firstInteractionNonce (proofData : ProofData) : Except RevertReason Word :=
  if 2 ^ 256 ≤ proofData.getRollupId.toNat * NUMBER_OF_BRIDGE_CALLS then .error .panic
  else .ok (proofData.getRollupId * BitVec.ofNat 256 NUMBER_OF_BRIDGE_CALLS)

/-- Take the pending interactions off the defi queue, after checking that the rollup commits to
them. Returns the remaining length. -/
def V2.popPendingInteractions (proofData : ProofData) : Program Word := do
  let s ← Prog.get
  Prog.require (proofData.extractPrevDefiInteractionHash = s.prevDefiInteractionsHash)
    (.INCORRECT_PREVIOUS_DEFI_INTERACTION_HASH proofData.extractPrevDefiInteractionHash
      s.prevDefiInteractionsHash)
  let (defiInteractionHashesLength, numPendingInteractions) :=
    V2.getDefiHashesLengthsAndNumPendingInteractions s
  let length := defiInteractionHashesLength - numPendingInteractions
  Prog.modify (·.setRollupState DEFIINTERACTIONHASHES_BIT_OFFSET ARRAY_LENGTH_BITS length)
  pure length

/-- The cleanup of `processBridgeCalls`: move the async queue onto the end of the defi queue. -/
def V2.copyAsyncHashes (length : Word) : Program Unit := do
  let s ← Prog.get
  let asyncLength := s.asyncArrayLen
  Prog.require (¬ Bits.mask 256 ARRAY_LENGTH_BITS < asyncLength + length) .ARRAY_OVERFLOW
  Prog.modify fun s =>
    (({ s with
        defiInteractionHashes := MappedArray.copyFrom s.asyncDefiInteractionHashes length.toNat 0
          asyncLength.toNat s.defiInteractionHashes } : State).setRollupState
      DEFIINTERACTIONHASHES_BIT_OFFSET ARRAY_LENGTH_BITS (asyncLength + length)).setRollupState
      ASYNCDEFIINTERACTIONHASHES_BIT_OFFSET ARRAY_LENGTH_BITS 0

/-- Store the hash the next rollup has to commit to, returning the hashes. -/
def V2.updatePrevDefiInteractionsHash : Program (List Word) := do
  let s ← Prog.get
  Prog.modify fun s =>
    { s with prevDefiInteractionsHash := (V2.getPendingAndNextExpectedHashes P s).2 }
  pure (V2.getPendingAndNextExpectedHashes P s).1

/-- `processBridgeCalls` of V2: the listed interactions are popped, then the new calls are made in
order. -/
def V2.processBridgeCalls (x : Context) (proofData : ProofData) (rollupBeneficiary : Address) :
    Program (List Word) := do
  let length ← V2.popPendingInteractions proofData
  let interactionNonce ← Prog.ofExcept (firstInteractionNonce proofData)
  let length' ← V2.bridgeCallLoop P x rollupBeneficiary proofData NUMBER_OF_BRIDGE_CALLS 0
    interactionNonce length
  V2.copyAsyncHashes length'
  V2.updatePrevDefiInteractionsHash P

/-! ## Fees -/

/-- Pay the fee of asset `i`; a failing transfer is ignored. -/
def payFee (proofData : ProofData) (feeReceiver : Address) (i : Nat) : Program Unit :=
  let txFee := proofData.extractTotalTxFee i
  if 0 < txFee then do
    let assetId ← Prog.ofExcept (proofData.extractFeeAssetId i)
    if assetId = ETH_ASSET_ID then do
      let _ ← Prog.request (.sendEth 50000 feeReceiver txFee)
    else do
      let s ← Prog.get
      let assetAddress ← Prog.ofExcept (getSupportedAsset s assetId)
      TokenTransfers.transferToDoNotBubbleErrors assetAddress feeReceiver txFee
        (s.assetGasLimits assetId)
  else pure ()

/-- The loop of `transferFee`, over the remaining indices. -/
def payFees (proofData : ProofData) (feeReceiver : Address) : List Nat → Program Unit
  | [] => pure ()
  | i :: is => do
    payFee proofData feeReceiver i
    payFees proofData feeReceiver is

/-- `transferFee`: the fee of each asset slot goes to the receiver. -/
def transferFee (proofData : ProofData) (feeReceiver : Address) : Program Unit :=
  payFees proofData feeReceiver (List.range NUMBER_OF_ASSETS)

/-! ## `processRollup` -/

/-- `getEscapeHatchStatus`. -/
def getEscapeHatchStatus (x : Context) (s : State) : Bool × Word :=
  let position := x.blockNumber % P.escapeBlockUpperBound
  if P.escapeBlockLowerBound ≤ position then
    (¬ x.timestamp.toNat < s.lastRollupTimeStamp.toNat + s.delayBeforeEscapeHatch.toNat,
      P.escapeBlockUpperBound - position)
  else (false, P.escapeBlockLowerBound - position)

/-- Only a rollup provider may roll up outside the escape hatch. -/
def checkProvider (x : Context) : Program Unit := do
  let s ← Prog.get
  if s.rollupProviders x.sender then
    Prog.modify fun s =>
      if s.capped then { s with lastRollupTimeStamp := x.timestamp.setWidth 32 } else s
  else Prog.require ((getEscapeHatchStatus P x s).1 = true) .INVALID_PROVIDER

/-- A call of `processRollup`: the calldata, and what memory holds past the decoded transactions. -/
structure RollupCall where
  calldata : Calldata
  memoryPast : Nat → InnerTx

/-- The arguments of `processRollup`: start and length of the proof data, and the signatures. -/
def RollupCall.arguments (c : RollupCall) : Option (Nat × Nat × List Byte) := do
  let (start, length) ← abiDecodeBytes c.calldata 4
  let (sigStart, sigLength) ← abiDecodeBytes c.calldata 0x24
  return (start, length, c.calldata.slice sigStart sigLength)

/-- `processRollupProof`, the deposit balance and the bridge calls being given. -/
def processRollupProof (decrease : Word → Address → Word → Program Unit)
    (bridgeCalls : Context → ProofData → Address → Program (List Word)) (x : Context)
    (c : RollupCall) (start length : Nat) (proofData : ProofData) (signatures : List Byte)
    (numTxs publicInputsHash : Word) (rollupBeneficiary : Address) : Program Unit := do
  let rollupId ←
    verifyProofAndUpdateState P x c.calldata start length proofData publicInputsHash
  processDepositsAndWithdrawals P decrease proofData numTxs signatures
  let nextDefiHashes ← bridgeCalls x proofData rollupBeneficiary
  Prog.modify (·.emit (.RollupProcessed rollupId nextDefiHashes x.sender))

/-- The body of `processRollup`. -/
def processRollupBody (decrease : Word → Address → Word → Program Unit)
    (bridgeCalls : Context → ProofData → Address → Program (List Word)) (x : Context)
    (c : RollupCall) (start length : Nat) (signatures : List Byte) : Program Unit := do
  checkProvider P x
  let (proofData, numTxs, publicInputsHash) ←
    Prog.ofExcept (decodeProof P c.calldata start c.memoryPast)
  let rollupBeneficiary ← Prog.ofExcept proofData.extractRollupBeneficiary
  processRollupProof P decrease bridgeCalls x c start length proofData signatures numTxs
    publicInputsHash rollupBeneficiary
  transferFee proofData rollupBeneficiary

/-- `processRollup` over the two functions the versions of the contract differ in. -/
def processRollupWith (decrease : Word → Address → Word → Program Unit)
    (bridgeCalls : Context → ProofData → Address → Program (List Word)) (x : Context)
    (c : RollupCall) : Program Unit := do
  let (start, length, signatures) ← Prog.ofOption .empty c.arguments
  whenNotPaused <| allowAsyncReenter <|
    processRollupBody P decrease bridgeCalls x c start length signatures

/-- `processRollup` of V2. -/
def V2.processRollup (x : Context) (c : RollupCall) : Program Unit :=
  processRollupWith P V2.decreasePendingDepositBalance (V2.processBridgeCalls P) x c

/-! ## Finalising asynchronous interactions -/

/-- `transferTokensAsync`. -/
def transferTokensAsync (x : Context) (bridge : Address) (asset : AztecAsset)
    (outputValue interactionNonce : Word) : Program Unit :=
  if outputValue = 0 then pure ()
  else
    match asset.assetType with
    | .ETH => do
      let s ← Prog.get
      Prog.require (¬ s.ethPayments interactionNonce < outputValue) .INSUFFICIENT_ETH_PAYMENT
      Prog.modify fun s =>
        { s with ethPayments := Function.update s.ethPayments interactionNonce 0 }
    | .ERC20 => TokenTransfers.safeTransferFrom x asset.erc20Address bridge outputValue
    | _ => pure ()

/-- Refund the inputs if there is no output, take the outputs otherwise. -/
def transferResult (x : Context) (bridge : Address) (a : BridgeAssets)
    (totalInputValue interactionNonce outputValueA outputValueB : Word) : Program Unit :=
  if outputValueA = 0 ∧ outputValueB = 0 then do
    transferTokensAsync x bridge a.inputAssetA totalInputValue interactionNonce
    transferTokensAsync x bridge a.inputAssetB totalInputValue interactionNonce
  else do
    transferTokensAsync x bridge a.outputAssetA outputValueA interactionNonce
    transferTokensAsync x bridge a.outputAssetB outputValueB interactionNonce

/-- Write the first word of a pending interaction. -/
def setPendingCallData (interactionNonce encodedBridgeCallData : Word) (s : State) : State :=
  { s with
    pendingDefiInteractions := Function.update s.pendingDefiInteractions interactionNonce
      { s.pendingDefiInteractions interactionNonce with
        encodedBridgeCallData := encodedBridgeCallData } }

/-- Whether a finalised interaction counts as a success. -/
def finaliseResult (outputValueA outputValueB : Word) : Bool :=
  !(outputValueA == 0 && outputValueB == 0)

/-- Append a hash to the async queue (the assembly block of `processAsyncDefiInteraction`). -/
def V2.pushAsyncHash (defiInteractionHash : Word) : Program Unit := do
  let s ← Prog.get
  let asyncArrayLen := s.asyncArrayLen
  Prog.require (¬ 512 < 1 + asyncArrayLen + s.defiArrayLen) .ARRAY_OVERFLOW
  Prog.modify fun s =>
    ({ s with
        asyncDefiInteractionHashes :=
          Function.update s.asyncDefiInteractionHashes asyncArrayLen defiInteractionHash } :
      State).setRollupState ASYNCDEFIINTERACTIONHASHES_BIT_OFFSET ARRAY_LENGTH_BITS
      (asyncArrayLen + 1)

/-- The bridge address, read by assembly without a bounds check. -/
def V2.bridgeOf (s : State) (encodedBridgeCallData : Word) : Except RevertReason Address :=
  let bridge := s.supportedBridges.getD ((bits 0 32 encodedBridgeCallData).toNat - 1) 0
  if bridge = 0 then .error .INVALID_BRIDGE_ADDRESS else .ok bridge

/-- What is finalised: the pending interaction of a nonce, decoded. -/
structure Finalisation where
  interactionNonce : Word
  encodedBridgeCallData : Word
  totalInputValue : Word
  auxData : Word
  bridge : Address
  assets : BridgeAssets

/-- The part of `processAsyncDefiInteraction` before the call to the bridge. -/
def prepareFinalisation
    (getAssets : State → FullBridgeCallData → Word → Except RevertReason BridgeAssets)
    (getBridge : State → Word → Except RevertReason Address) (s : State)
    (interactionNonce : Word) : Except RevertReason Finalisation := do
  let interaction := s.pendingDefiInteractions interactionNonce
  if interaction.encodedBridgeCallData = 0 then throw .INVALID_BRIDGE_CALL_DATA
  let d ← getFullBridgeCallData s interaction.encodedBridgeCallData
  let assets ← getAssets s d interactionNonce
  let bridge ← getBridge s interaction.encodedBridgeCallData
  return ⟨interactionNonce, interaction.encodedBridgeCallData, interaction.totalInputValue,
    d.auxData, bridge, assets⟩

/-- The part of `processAsyncDefiInteraction` after a call that completed the interaction. -/
def completeFinalisation (push : Word → Program Unit) (x : Context) (f : Finalisation)
    (outputValueA outputValueB : Word) : Program Bool := do
  Prog.require (¬ (0 < outputValueB ∧ f.assets.outputAssetB.assetType = .NOT_USED))
    (.NONZERO_OUTPUT_VALUE_ON_NOT_USED_ASSET outputValueB)
  transferResult x f.bridge f.assets f.totalInputValue f.interactionNonce outputValueA outputValueB
  let result := finaliseResult outputValueA outputValueB
  push (P.defiInteractionHash f.encodedBridgeCallData f.interactionNonce f.totalInputValue
    outputValueA outputValueB result)
  Prog.modify (·.emit (.DefiBridgeProcessed f.encodedBridgeCallData f.interactionNonce
    f.totalInputValue outputValueA outputValueB result none))
  pure true

/-- Call the bridge, with the pending entry cleared; put the entry back if it did not complete. -/
def finalise (push : Word → Program Unit) (x : Context) (f : Finalisation) : Program Bool := do
  Prog.modify (setPendingCallData f.interactionNonce 0)
  let r ← Prog.request (.finalise f.bridge f.assets.inputAssetA f.assets.inputAssetB
    f.assets.outputAssetA f.assets.outputAssetB f.interactionNonce (f.auxData.setWidth 64))
  let (outputValueA, outputValueB, interactionCompleted) ← Prog.ofExcept (decodeBridgeReturn r)
  if interactionCompleted then completeFinalisation P push x f outputValueA outputValueB
  else do
    Prog.modify (setPendingCallData f.interactionNonce f.encodedBridgeCallData)
    pure false

/-- `processAsyncDefiInteraction`, the functions the reference has another body for being given. -/
def processAsyncWith
    (getAssets : State → FullBridgeCallData → Word → Except RevertReason BridgeAssets)
    (getBridge : State → Word → Except RevertReason Address) (push : Word → Program Unit)
    (x : Context) (interactionNonce : Word) : Program Bool :=
  whenNotPaused <| noReenterButAsync do
    let s ← Prog.get
    let f ← Prog.ofExcept (prepareFinalisation getAssets getBridge s interactionNonce)
    finalise P push x f

/-- `processAsyncDefiInteraction` of V2. -/
def V2.processAsyncDefiInteraction (x : Context) (interactionNonce : Word) : Program Bool :=
  processAsyncWith P getAztecAssetTypes V2.bridgeOf V2.pushAsyncHash x interactionNonce

end AztecConnect.Contract
