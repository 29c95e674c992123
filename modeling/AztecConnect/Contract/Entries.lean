import AztecConnect.Contract.Processor

/-!
# The entry points of the rollup processor

The remaining external functions of `RollupProcessorV2.sol`: deposits, approvals, ETH payments of
bridges, publication of offchain data, and the functions of the role holders. `Entry` lists every
external function that can change storage or the log, with its arguments; `V2.world` is the object
they form together, whose environment may call any of them back at any request.
-/

namespace AztecConnect.Contract

open Resumption Bits

variable (P : Params)

/-! ## Deposits -/

/-- Checked arithmetic of the compiler: values of 2^w and more revert. -/
def checked (w n : Nat) : Except RevertReason Nat :=
  if n < 2 ^ w then .ok n else .error .panic

/-- `SafeCast.toU128`. -/
def toU128 (n : Nat) : Except RevertReason Nat :=
  if n < 2 ^ 128 then .ok n else .error .SAFE_CAST_OVERFLOW

/-- The cap bookkeeping of `increasePendingDepositBalance`: the updated cap of the asset. -/
def accrueCap (cap : AssetCap) (pending amount timestamp : Nat) : Except RevertReason AssetCap := do
  let precision ← checked 256 (10 ^ cap.precision.toNat)
  if cap.pendingCap = 0 then throw .PENDING_CAP_SURPASSED
  let newPending ← checked 256 (pending + amount)
  let pendingCap ← checked 256 (cap.pendingCap.toNat * precision)
  if pendingCap < newPending then throw .PENDING_CAP_SURPASSED
  if cap.dailyCap = 0 then throw .DAILY_CAP_SURPASSED
  let capVal ← checked 256 (cap.dailyCap.toNat * precision)
  let rate := capVal / 86400
  if timestamp < cap.lastUpdatedTimestamp.toNat then throw .panic
  let accrued ← checked 256 (rate * (timestamp - cap.lastUpdatedTimestamp.toNat))
  let accrued ← toU128 accrued
  let available ← checked 128 (cap.available.toNat + accrued)
  let available ← if capVal < available then toU128 capVal else pure available
  if available < amount then throw .DAILY_CAP_SURPASSED
  return { cap with
    available := BitVec.ofNat 128 (available - amount)
    lastUpdatedTimestamp := BitVec.ofNat 32 timestamp }

/-- The caps after a deposit; they are checked and updated only while capping is enabled. -/
def nextCaps (x : Context) (assetId amount pending : Word) (s : State) :
    Except RevertReason (Word → AssetCap) :=
  if s.capped then do
    let cap ← accrueCap (s.caps assetId) pending.toNat amount.toNat x.timestamp.toNat
    return Function.update s.caps assetId cap
  else .ok s.caps

/-- The effect of `increasePendingDepositBalance` on the storage. -/
def increasePending (x : Context) (assetId : Word) (owner : Address) (amount : Word) (s : State) :
    Except RevertReason State := do
  let pending := s.userPendingDeposits assetId owner
  let caps ← nextCaps x assetId amount pending s
  let newPending ← checked 256 (pending.toNat + amount.toNat)
  return { s with
    caps
    userPendingDeposits := Function.update s.userPendingDeposits assetId
      (Function.update (s.userPendingDeposits assetId) owner (BitVec.ofNat 256 newPending)) }

/-- `increasePendingDepositBalance`, with the caps. -/
def increasePendingDepositBalance (x : Context) (assetId : Word) (owner : Address)
    (amount : Word) : Program Unit := do
  Prog.require (¬ 0x1fffffff < assetId) .INVALID_ASSET_ID
  let s ← Prog.get
  let s' ← Prog.ofExcept (increasePending x assetId owner amount s)
  Prog.modify fun _ => s'

/-- `approveProof`: one way, by the owner of the funds. -/
def approveProof (x : Context) (proofHash : Word) : Program Unit :=
  whenNotPaused <| Prog.modify fun s =>
    { s with
      depositProofApprovals := Function.update s.depositProofApprovals x.sender
        (Function.update (s.depositProofApprovals x.sender) proofHash true) }

/-- Pull the deposited tokens in, after a check of the allowance. -/
def pullDeposit (x : Context) (assetId amount : Word) : Program Unit := do
  let s ← Prog.get
  let assetAddress ← Prog.ofExcept (getSupportedAsset s assetId)
  let r ← Prog.request (.allowance assetAddress x.sender)
  Prog.require (r.success = true) (.bubbled r)
  Prog.require (32 ≤ r.returndatasize) .empty
  Prog.require (¬ r.word 0 < amount) .INSUFFICIENT_TOKEN_APPROVAL
  TokenTransfers.safeTransferFrom x assetAddress x.sender amount

/-- `depositPendingFunds`. -/
def depositPendingFunds (x : Context) (assetId amount : Word) (owner : Address)
    (proofHash : Word) : Program Unit :=
  whenNotPaused <| noReenter do
    Prog.require (¬ (assetId = ETH_ASSET_ID ∧ x.value ≠ amount)) .MSG_VALUE_WRONG_AMOUNT
    Prog.require (¬ (assetId ≠ ETH_ASSET_ID ∧ x.value ≠ 0)) .DEPOSIT_TOKENS_WRONG_PAYMENT_TYPE
    increasePendingDepositBalance x assetId owner amount
    (if proofHash ≠ 0 then approveProof x proofHash else pure ())
    Prog.modify (·.emit (.Deposit assetId owner amount))
    if assetId ≠ ETH_ASSET_ID then pullDeposit x assetId amount else pure ()

/-- `receiveEthFromBridge`, with an unchecked addition. -/
def V2.receiveEthFromBridge (x : Context) (interactionNonce : Word) : Program Unit :=
  Prog.modify fun s =>
    { s with
      ethPayments := Function.update s.ethPayments interactionNonce
        (s.ethPayments interactionNonce + x.value) }

/-- `offchainData`. -/
def offchainData (x : Context) (rollupId chunk totalChunks : Word) : Program Unit :=
  whenNotPaused <| Prog.modify (·.emit (.OffchainData rollupId chunk totalChunks x.sender))

/-! ## Functions of the role holders -/

/-- The setters share this shape: a role, the lock, and an update of the storage. -/
def ownerSetter (x : Context) (role : Role) (update : State → State) : Program Unit :=
  onlyRole x role <| noReenter <| Prog.modify update

/-- `pause`. -/
def pause (x : Context) : Program Unit :=
  whenNotPaused <| onlyRole x .EMERGENCY_ROLE <| noReenter <| Prog.modify fun s =>
    (s.setRollupState PAUSED_BIT_OFFSET 8 1).emit (.Paused x.sender)

/-- `unpause`. -/
def unpause (x : Context) : Program Unit :=
  whenPaused <| onlyRole x .RESUME_ROLE <| noReenter <| Prog.modify fun s =>
    (s.setRollupState PAUSED_BIT_OFFSET 8 0).emit (.Unpaused x.sender)

/-- `setCapped`. -/
def setCapped (x : Context) (isCapped : Bool) : Program Unit :=
  ownerSetter x .OWNER_ROLE fun s =>
    if isCapped = s.capped then s
    else
      let s₁ :=
        if isCapped then { s with lastRollupTimeStamp := x.timestamp.setWidth 32 } else s
      (s₁.setRollupState CAPPED_BIT_OFFSET 8 (if isCapped then 1 else 0)).emit
        (.CappedUpdated isCapped)

/-- `setRollupProvider`. -/
def setRollupProvider (x : Context) (provider : Address) (valid : Bool) : Program Unit :=
  ownerSetter x .OWNER_ROLE fun s =>
    { s.emit (.RollupProviderUpdated provider valid) with
      rollupProviders := Function.update s.rollupProviders provider valid }

/-- `setAssetCap`: the available amount starts at the daily cap. -/
def setAssetCap (x : Context) (assetId : Word) (pendingCap dailyCap : BitVec 32)
    (precision : BitVec 8) : Program Unit :=
  onlyRole x .LISTER_ROLE <| noReenter do
    let precisionFactor ← Prog.ofExcept (checked 256 (10 ^ precision.toNat))
    let total ← Prog.ofExcept (checked 256 (dailyCap.toNat * precisionFactor))
    let available ← Prog.ofExcept (toU128 total)
    Prog.modify fun s =>
      { s.emit (.AssetCapUpdated assetId pendingCap dailyCap) with
        caps := Function.update s.caps assetId
          ⟨BitVec.ofNat 128 available, x.timestamp.setWidth 32, pendingCap, dailyCap, precision⟩ }

/-- `setDelayBeforeEscapeHatch`. -/
def setDelayBeforeEscapeHatch (x : Context) (delay : BitVec 32) : Program Unit :=
  ownerSetter x .OWNER_ROLE fun s =>
    { s.emit (.DelayBeforeEscapeHatchUpdated delay) with delayBeforeEscapeHatch := delay }

/-- `setVerifier`. -/
def setVerifier (x : Context) (verifier : Address) : Program Unit :=
  onlyRole x .OWNER_ROLE <| noReenter do
    Prog.require (x.hasCode verifier = true) .INVALID_ADDRESS_NO_CODE
    Prog.modify fun s =>
      (s.setRollupState 0 160 (verifier.setWidth 256)).emit (.VerifierUpdated verifier)

/-- `setAllowThirdPartyContracts`. -/
def setAllowThirdPartyContracts (x : Context) (allowed : Bool) : Program Unit :=
  ownerSetter x .OWNER_ROLE fun s =>
    { s.emit (.AllowThirdPartyContractsUpdated allowed) with allowThirdPartyContracts := allowed }

/-- `setDefiBridgeProxy`. -/
def setDefiBridgeProxy (x : Context) (defiBridgeProxy : Address) : Program Unit :=
  onlyRole x .OWNER_ROLE <| noReenter do
    Prog.require (x.hasCode defiBridgeProxy = true) .INVALID_ADDRESS_NO_CODE
    Prog.modify fun s =>
      { s.emit (.DefiBridgeProxyUpdated defiBridgeProxy) with defiBridgeProxy := defiBridgeProxy }

/-- `setSupportedAsset`; the id of the asset is the new length of the list. -/
def setSupportedAsset (x : Context) (token : Address) (gasLimit : Word) : Program Unit :=
  whenNotPaused <| checkThirdPartyContractStatus x <| noReenter do
    Prog.require (x.hasCode token = true) .INVALID_ADDRESS_NO_CODE
    Prog.require (¬ (gasLimit < MIN_ERC20_GAS_LIMIT ∨ MAX_ERC20_GAS_LIMIT < gasLimit))
      .INVALID_ASSET_GAS
    Prog.modify fun s =>
      let assetId := BitVec.ofNat 256 (s.supportedAssets.length + 1)
      { s.emit (.AssetAdded assetId token gasLimit) with
        supportedAssets := s.supportedAssets ++ [token]
        assetGasLimits := Function.update s.assetGasLimits assetId gasLimit }

/-- `setSupportedBridge`. -/
def setSupportedBridge (x : Context) (bridge : Address) (gasLimit : Word) : Program Unit :=
  whenNotPaused <| checkThirdPartyContractStatus x <| noReenter do
    Prog.require (x.hasCode bridge = true) .INVALID_ADDRESS_NO_CODE
    Prog.require (¬ (gasLimit < MIN_BRIDGE_GAS_LIMIT ∨ MAX_BRIDGE_GAS_LIMIT < gasLimit))
      .INVALID_BRIDGE_GAS
    Prog.modify fun s =>
      let bridgeAddressId := BitVec.ofNat 256 (s.supportedBridges.length + 1)
      { s.emit (.BridgeAdded bridgeAddressId bridge gasLimit) with
        supportedBridges := s.supportedBridges ++ [bridge]
        bridgeGasLimits := Function.update s.bridgeGasLimits bridgeAddressId gasLimit }

/-! ## The contract as an object -/

/-- The external functions, with the environment and arguments of a call. -/
inductive Entry : Type where
  | processRollup (x : Context) (call : RollupCall)
  | processAsyncDefiInteraction (x : Context) (interactionNonce : Word)
  | receiveEthFromBridge (x : Context) (interactionNonce : Word)
  | approveProof (x : Context) (proofHash : Word)
  | depositPendingFunds (x : Context) (assetId amount : Word) (owner : Address) (proofHash : Word)
  | offchainData (x : Context) (rollupId chunk totalChunks : Word)
  | pause (x : Context)
  | unpause (x : Context)
  | setCapped (x : Context) (isCapped : Bool)
  | setRollupProvider (x : Context) (provider : Address) (valid : Bool)
  | setAssetCap (x : Context) (assetId : Word) (pendingCap dailyCap : BitVec 32)
      (precision : BitVec 8)
  | setDelayBeforeEscapeHatch (x : Context) (delay : BitVec 32)
  | setVerifier (x : Context) (verifier : Address)
  | setAllowThirdPartyContracts (x : Context) (allowed : Bool)
  | setDefiBridgeProxy (x : Context) (defiBridgeProxy : Address)
  | setSupportedAsset (x : Context) (token : Address) (gasLimit : Word)
  | setSupportedBridge (x : Context) (bridge : Address) (gasLimit : Word)

/-- A function without return value. -/
def noReturnValue (m : Program Unit) : Program (Option Bool) := do
  m
  return none

/-- The functions other than the two that process interactions and the one that receives ETH; the
reference contract has the same. -/
def Entry.runCommon : Entry → Program (Option Bool)
  | .approveProof x h => noReturnValue (Contract.approveProof x h)
  | .depositPendingFunds x assetId amount owner h =>
    noReturnValue (Contract.depositPendingFunds x assetId amount owner h)
  | .offchainData x i c n => noReturnValue (Contract.offchainData x i c n)
  | .pause x => noReturnValue (Contract.pause x)
  | .unpause x => noReturnValue (Contract.unpause x)
  | .setCapped x b => noReturnValue (Contract.setCapped x b)
  | .setRollupProvider x a b => noReturnValue (Contract.setRollupProvider x a b)
  | .setAssetCap x i pc dc p => noReturnValue (Contract.setAssetCap x i pc dc p)
  | .setDelayBeforeEscapeHatch x d => noReturnValue (Contract.setDelayBeforeEscapeHatch x d)
  | .setVerifier x a => noReturnValue (Contract.setVerifier x a)
  | .setAllowThirdPartyContracts x b => noReturnValue (Contract.setAllowThirdPartyContracts x b)
  | .setDefiBridgeProxy x a => noReturnValue (Contract.setDefiBridgeProxy x a)
  | .setSupportedAsset x a g => noReturnValue (Contract.setSupportedAsset x a g)
  | .setSupportedBridge x a g => noReturnValue (Contract.setSupportedBridge x a g)
  | .processRollup .. => Prog.throw .empty
  | .processAsyncDefiInteraction .. => Prog.throw .empty
  | .receiveEthFromBridge .. => Prog.throw .empty

/-- The function of an entry. -/
def V2.run : Entry → Program (Option Bool)
  | .processRollup x c => noReturnValue (V2.processRollup P x c)
  | .processAsyncDefiInteraction x n => some <$> V2.processAsyncDefiInteraction P x n
  | .receiveEthFromBridge x n => noReturnValue (V2.receiveEthFromBridge x n)
  | e => e.runCommon

/-- A static call, and a call that failed, cannot have changed the caller's storage. -/
def ExternalCall.keepsStorage (c : ExternalCall) (r : Reply) : Prop :=
  c.isStatic = true ∨ r.success = false

/-- The contract and its environment; `answers` limits what other contracts reply. -/
def V2.world (answers : ExternalCall → State → Reply → Prop) :
    World Entry State RevertReason ExternalCall Reply (Option Bool) where
  entry := V2.run P
  answers := answers
  keeps := ExternalCall.keepsStorage

/-- The storage after `initialize` of both versions of the contract: empty queues, no interactions,
nothing deposited, and the state hash of the initial roots. What the initialisers take as arguments
and later setters change is left open. -/
structure Genesis (s : State) : Prop where
  unlocked : s.lock = Lock.UNLOCKED.toWord
  numAsync : s.numAsyncDefiInteractionHashes = 0
  numDefi : s.numDefiInteractionHashes = 0
  pending : ∀ n, (s.pendingDefiInteractions n).encodedBridgeCallData = 0
  deposits : ∀ assetId owner, s.userPendingDeposits assetId owner = 0
  stateHash : ∃ dataRoot nullRoot rootRoot,
    s.rollupStateHash = P.keccak256 [0, dataRoot, nullRoot, rootRoot, INIT_DEFI_ROOT]
  prevHash : s.prevDefiInteractionsHash = INIT_DEFI_INTERACTIONS_HASH
  logs : ∀ encodedBridgeCallData nonce totalInputValue outA outB result reason,
    .DefiBridgeProcessed encodedBridgeCallData nonce totalInputValue outA outB result reason ∉
      s.logs

/-! ## A sample deployment

A deployment with one bridge and one rollup provider, and a rollup with one bridge call and no
transactions. The hash functions are given by their digests of the words that are hashed here. -/

/-- The word to which a table maps `ws`. -/
def digestOf (table : List (List Word × Word)) (ws : List Word) : Word :=
  ((table.find? fun entry => entry.1 = ws).map Prod.snd).getD 0

namespace Sample

/-- Bridge `1`, from virtual asset `0` to a virtual asset. -/
def bridgeCall : Word := 0x2000000000000002000000000000001

/-- The header of the rollup. -/
def header : Nat → Word
  | 1 => 1
  | 3 => 11
  | 4 => 12
  | 5 => 21
  | 6 => 22
  | 7 => 31
  | 8 => 32
  | 9 => INIT_DEFI_ROOT
  | 10 => 42
  | 11 => bridgeCall
  | 43 => 5
  | 139 => INIT_DEFI_INTERACTIONS_HASH
  | 140 => 7
  | 141 => 1
  | _ => 0

/-- Calldata of a rollup without transactions: the two arguments, the header, and no proof. -/
def calldata (header : Nat → Word) : Calldata :=
  .ofWords 4708 fun
    | 0 => 0x40
    | 1 => 0x1240
    | 2 => 4552
    | i + 3 => if i < 142 then (header i).toNat else 0

/-- The call of the rollup. -/
def call : RollupCall := ⟨calldata header, fun _ => InnerTx.zero⟩

/-- The digests of what is hashed for it. -/
def params : Params where
  keccak256 := digestOf
    [([0, 11, 21, 31, INIT_DEFI_ROOT],
        0xbb1b936b422173a0b08169a7b55398a05b9a53cb2a47a75dd9a4eb6316ee25b1),
      ([1, 12, 22, 32, 42], 0xdcd78dc23c109f8d8b9365b969d84dc83aecf221deaf74ceb28413c834be1a88)]
  sha256 := digestOf
    [(List.replicate 32 DEFI_RESULT_ZERO_HASH,
        0xd6722d1d32ab3ab724cfb1effc70145ad96e8b7ccf56992dc266ea6872e6fd5f),
      ((List.range 142).map header ++
        [0x22dd983f8337d97d56071f7986209ab2ee6039a422242e89126701c6ee005af0],
        0xd53b7535e49e1c5518b27fc1aa2d52179458a35501ef97f22b7a4839a7d58512),
      ([bridgeCall, 0, 5, 1, 0, 1],
        0xa5bef7a7383dae9d4fa832b80169521fe3b699b18befb10f5ad8bb60c0ed08c7),
      (0xa5bef7a7383dae9d4fa832b80169521fe3b699b18befb10f5ad8bb60c0ed08c7 %
        BitVec.ofNat 256 CIRCUIT_MODULUS :: List.replicate 31 DEFI_RESULT_ZERO_HASH,
        0x82de2d16c8ada91ecf9803f728965152505399003677d238e007ec2c47d5265e)]
  validSignature _ _ _ _ := false
  escapeBlockLowerBound := 2160
  escapeBlockUpperBound := 2400

/-- The provider calls. -/
def context : Context := ⟨1, 0, 1700000000, 100, fun _ => false, fun _ => true⟩

/-- The storage after `initialize`, with one bridge and a provider. -/
def genesis : State where
  rollupState := 3
  supportedAssets := []
  supportedBridges := [7]
  asyncDefiInteractionHashes _ := 0
  defiInteractionHashes _ := 0
  userPendingDeposits _ _ := 0
  depositProofApprovals _ _ := false
  rollupStateHash := 0xbb1b936b422173a0b08169a7b55398a05b9a53cb2a47a75dd9a4eb6316ee25b1
  defiBridgeProxy := 9
  allowThirdPartyContracts := false
  rollupProviders provider := provider == 1
  pendingDefiInteractions _ := ⟨0, 0⟩
  ethPayments _ := 0
  assetGasLimits _ := 0
  bridgeGasLimits _ := 0
  prevDefiInteractionsHash := INIT_DEFI_INTERACTIONS_HASH
  lastRollupTimeStamp := 0
  delayBeforeEscapeHatch := 0
  caps _ := ⟨0, 0, 0, 0, 0⟩
  logs := []

/-- It is an initialised contract. -/
lemma genesis_spec : Genesis params genesis where
  unlocked := by decide
  numAsync := by decide
  numDefi := by decide
  pending _ := rfl
  deposits _ _ := rfl
  stateHash := ⟨11, 21, 31, by decide⟩
  prevHash := rfl
  logs := by simp [genesis]

/-- Every call succeeds; a bridge returns the outputs 1 and 0, synchronously. -/
def answer (_ : ExternalCall) : Reply := ⟨true, 96, fun i => if i = 0 then 1 else 0⟩

/-- The calls made of the deployment in turn. -/
def run (entries : List Entry) :
    Option (List (Call Entry State ExternalCall Reply (Option Bool)) × State) :=
  (V2.world params fun _ _ _ => True).exec answer entries [] genesis

end Sample

/-! ## Two rollups

The bridge leaves the interaction of the sample rollup pending. It is finalised, and a rollup of two
transaction slots with another bridge call follows. -/

namespace TwoRollups

/-- The header of the second rollup. -/
def header : Nat → Word
  | 0 => 1
  | 1 => 2
  | 2 => 4
  | 3 => 12
  | 4 => 13
  | 5 => 22
  | 6 => 23
  | 7 => 32
  | 8 => 33
  | 9 => 42
  | 10 => 43
  | 11 => Sample.bridgeCall
  | 43 => 6
  | 139 => INIT_DEFI_INTERACTIONS_HASH
  | 140 => 7
  | 141 => 1
  | _ => 0

/-- The call of the second rollup. -/
def call : RollupCall := ⟨Sample.calldata header, fun _ => InnerTx.zero⟩

/-- The digest of the finalised interaction. -/
def firstResult : Word := 0x703300efe08201a75d4052ca3dd2767cb6ef55f498b5e8c152d68e806b2413d

/-- The digest of the interaction of the second rollup. -/
def secondResult : Word := 0x6a82adf771ed56897f5cd7dec2010ae2dc468b8f60074cbedd58980c21d72240

/-- The parameters of the sample, with the digests of the second rollup and of the two results. -/
def params : Params :=
  { Sample.params with
    keccak256 := fun ws =>
      if ws = [2, 13, 23, 33, 43] then
        0xf19a3f4b7afa5f2bd261b72cd61e0e96fb9d3d4f7543060ee17724af8aa35fc1
      else Sample.params.keccak256 ws
    sha256 := fun ws =>
      if ws = [Sample.bridgeCall, 0, 5, 5, 0, 1] then firstResult
      else if ws = [Sample.bridgeCall, 32, 6, 1, 0, 1] then secondResult
      else if ws = (List.range 142).map header ++
          [0x076a27c79e5ace2a3d47f9dd2e83e4ff6ea8872b3c2218f66c92b89b55f36560] then
        0xe263f680080752d4cef1aa2f80e434b41e4510f387b57a646e36c04400e305f0
      else if ws = secondResult % BitVec.ofNat 256 CIRCUIT_MODULUS ::
          firstResult % BitVec.ofNat 256 CIRCUIT_MODULUS ::
            List.replicate 30 DEFI_RESULT_ZERO_HASH then
        0x743b8ee22c917dc035f935d30f5b512ded2cae3322d7369b3cefadc0695ba813
      else Sample.params.sha256 ws }

/-- `convert` leaves the first interaction pending, `finalise` completes it. -/
def answer : ExternalCall → Reply
  | .convert _ _ _ _ _ _ _ interactionNonce .. =>
    ⟨true, 96, fun i =>
      if interactionNonce = 0 then if i = 2 then 1 else 0 else if i = 0 then 1 else 0⟩
  | .finalise .. => ⟨true, 96, fun i => if i = 0 then 5 else if i = 2 then 1 else 0⟩
  | _ => ⟨true, 32, fun _ => 1⟩

/-- The deployment with these answers. -/
abbrev world : World Entry State RevertReason ExternalCall Reply (Option Bool) :=
  V2.world params fun c _ r => r = answer c

/-- The first rollup, the finalisation and the second rollup. -/
def exec : Option (List (Call Entry State ExternalCall Reply (Option Bool)) × State) :=
  world.exec answer [.processRollup Sample.context Sample.call,
    .processAsyncDefiInteraction Sample.context 0, .processRollup Sample.context call] []
    Sample.genesis

/-- What is executed is a run. -/
lemma exec_run {history : List (Call Entry State ExternalCall Reply (Option Bool))} {s : State}
    (h : exec = some (history, s)) : Run world Sample.genesis history s :=
  World.exec_run (fun _ _ => rfl) .nil h

end TwoRollups

end AztecConnect.Contract
