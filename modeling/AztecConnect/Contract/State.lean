import AztecConnect.Lib.Bits
import AztecConnect.Lib.MappedArray
import AztecConnect.Lib.Reentrancy

/-!
# Storage and environment of the rollup processor

The storage of `contracts/src/core/processors/RollupProcessorV2.sol`, slot by slot, and the requests
it makes of other contracts. `rollupState` stays the packed 256-bit word of the source: Solidity
reads and writes its members, the assembly blocks shift and mask it, and both go through
`Bits.field` and `Bits.setField`. Every other state variable is a field of `State`; mappings are
functions (their slots are hashes, which are taken not to collide). The event log belongs to the
state because a reverted call or delegatecall takes its events back.

Parameters are what the contract uses but does not define: the two hash functions, the ECDSA check
of the rollup encoder library, the escape hatch bounds set by the constructor (`Params`), and the
transaction's environment (`Context`), which also answers for the access control library and for
which addresses hold code.
-/

namespace AztecConnect

open Bits

/-- A word of the EVM. -/
abbrev Word := BitVec 256

/-- An address. -/
abbrev Address := BitVec 160

namespace Contract

/-! ## Constants (`Decoder.sol`, `RollupProcessorV2.sol`) -/

def NUMBER_OF_ASSETS : Nat := 16
def NUMBER_OF_BRIDGE_CALLS : Nat := 32
def ROLLUP_HEADER_LENGTH : Nat := 4544
def NUM_REAL_TRANSACTIONS_OFFSET : Nat := 4516
def ENCODED_PROOF_DATA_LENGTH_OFFSET : Nat := 4520
def TX_PUBLIC_INPUT_LENGTH : Nat := 256

/-- Order of the scalar field of BN254. -/
def CIRCUIT_MODULUS : Nat :=
  21888242871839275222246405745257275088548364400416034343698204186575808495617

def ETH_ASSET_ID : Word := 0

/-- Hash of a zeroed interaction result. -/
def DEFI_RESULT_ZERO_HASH : Word :=
  0x2d25a1e3a51eb293004c4b56abe12ed0da6bca2b4a21936752a85d102593c1b4

/-- Starting root of the defi tree. -/
def INIT_DEFI_ROOT : Word := 0x2e4ab7889ab3139204945f9e722c7a8fdb84e66439d787bd066c3d896dba04ea

/-- Starting value of `prevDefiInteractionsHash` (`RollupProcessor.sol`, `initialize`). -/
def INIT_DEFI_INTERACTIONS_HASH : Word :=
  0x14e0f351ade4ba10438e9b15f66ab2e6389eea5ae870d6e8b2df1418b2e6fd5b

def MIN_BRIDGE_GAS_LIMIT : Word := 35000
def MIN_ERC20_GAS_LIMIT : Word := 55000
def MAX_BRIDGE_GAS_LIMIT : Word := 5000000
def MAX_ERC20_GAS_LIMIT : Word := 1500000

/-- Flag of a virtual asset id (bit 29). -/
def VIRTUAL_ASSET_ID_FLAG : Word := 0x20000000

/-- `ARRAY_LENGTH_MASK` keeps this many bits of a queue length. -/
def ARRAY_LENGTH_BITS : Nat := 10

/-! ## The packed word `rollupState` -/

/-- The reentrancy lock. -/
inductive Lock : Type where
  | UNLOCKED
  | ALLOW_ASYNC_REENTER
  | LOCKED
  deriving DecidableEq

/-- The value of a lock in its 8-bit field. -/
def Lock.toWord : Lock → Word
  | .UNLOCKED => 0
  | .ALLOW_ASYNC_REENTER => 1
  | .LOCKED => 2

/-- Bit offsets of the members of `RollupState`. -/
def DATASIZE_BIT_OFFSET : Nat := 160
def ASYNCDEFIINTERACTIONHASHES_BIT_OFFSET : Nat := 192
def DEFIINTERACTIONHASHES_BIT_OFFSET : Nat := 208
def LOCK_BIT_OFFSET : Nat := 224
def PAUSED_BIT_OFFSET : Nat := 232
def CAPPED_BIT_OFFSET : Nat := 240

/-! ## Records -/

/-- A description of an asset as bridges see it (`AztecTypes.AztecAsset`). -/
inductive AztecAssetType : Type where
  | NOT_USED
  | ETH
  | ERC20
  | VIRTUAL
  deriving DecidableEq

/-- `AztecTypes.AztecAsset`. -/
structure AztecAsset where
  id : Word
  erc20Address : Address
  assetType : AztecAssetType
  deriving DecidableEq

/-- An asynchronous interaction that has not been resolved. -/
structure PendingDefiBridgeInteraction where
  encodedBridgeCallData : Word
  totalInputValue : Word
  deriving DecidableEq

/-- Deposit caps of an asset. -/
structure AssetCap where
  available : BitVec 128
  lastUpdatedTimestamp : BitVec 32
  pendingCap : BitVec 32
  dailyCap : BitVec 32
  precision : BitVec 8
  deriving DecidableEq

/-- Roles of the access control library. -/
inductive Role : Type where
  | OWNER_ROLE
  | EMERGENCY_ROLE
  | LISTER_ROLE
  | RESUME_ROLE
  deriving DecidableEq

/-! ## Other contracts -/

/-- What another contract answers: whether the call succeeded, and its return data. `word i` is what
the caller reads as the `i`-th returned word (past short return data, its own memory). -/
structure Reply where
  success : Bool
  returndatasize : Nat
  word : Nat → Word

/-- Calls out of the rollup processor. A `gas` of zero forwards all gas. -/
inductive ExternalCall : Type where
  | verify (verifier : Address) (publicInputsHash : Word) (proof : List (BitVec 8))
  | sendEth (gas : Nat) (receiver : Address) (value : Word)
  | transfer (token receiver : Address) (amount gas : Word)
  | transferFrom (token source : Address) (amount : Word)
  | allowance (token owner : Address)
  | convert (bridge : Address) (value : Word)
      (inputAssetA inputAssetB outputAssetA outputAssetB : AztecAsset)
      (totalInputValue interactionNonce : Word) (auxData : BitVec 64) (rollupBeneficiary : Address)
  | finalise (bridge : Address)
      (inputAssetA inputAssetB outputAssetA outputAssetB : AztecAsset)
      (interactionNonce : Word) (auxData : BitVec 64)

/-- Calls made with `STATICCALL`: the verifier, and the `view` function `allowance`. -/
def ExternalCall.isStatic : ExternalCall → Bool
  | .verify .. => true
  | .allowance .. => true
  | _ => false

/-- Why a call reverted: a custom error, a panic, data bubbled up from a callee, or no data. -/
inductive RevertReason : Type where
  | PAUSED
  | NOT_PAUSED
  | LOCKED_NO_REENTER
  | INVALID_PROVIDER
  | THIRD_PARTY_CONTRACTS_FLAG_NOT_SET
  | INSUFFICIENT_DEPOSIT
  | INVALID_ADDRESS_NO_CODE
  | INVALID_ASSET_GAS
  | INVALID_ASSET_ID
  | INVALID_ASSET_ADDRESS
  | INVALID_BRIDGE_GAS
  | INVALID_BRIDGE_CALL_DATA
  | INVALID_BRIDGE_ADDRESS
  | INCONSISTENT_BRIDGE_CALL_DATA
  | BRIDGE_WITH_IDENTICAL_INPUT_ASSETS (inputAssetId : Word)
  | BRIDGE_WITH_IDENTICAL_OUTPUT_ASSETS (outputAssetId : Word)
  | ZERO_TOTAL_INPUT_VALUE
  | ARRAY_OVERFLOW
  | MSG_VALUE_WRONG_AMOUNT
  | INSUFFICIENT_ETH_PAYMENT
  | WITHDRAW_TO_ZERO_ADDRESS
  | DEPOSIT_TOKENS_WRONG_PAYMENT_TYPE
  | INSUFFICIENT_TOKEN_APPROVAL
  | NONZERO_OUTPUT_VALUE_ON_NOT_USED_ASSET (outputValue : Word)
  | INCORRECT_STATE_HASH (oldStateHash newStateHash : Word)
  | INCORRECT_DATA_START_INDEX (providedIndex expectedIndex : Word)
  | INCORRECT_PREVIOUS_DEFI_INTERACTION_HASH (provided expected : Word)
  | PENDING_CAP_SURPASSED
  | DAILY_CAP_SURPASSED
  | SAFE_CAST_OVERFLOW
  | ENCODING_BYTE_INVALID
  | INVALID_ROLLUP_TOPOLOGY
  | OUTPUT_A_EXCEEDS_252_BITS (outputValue : Word)
  | OUTPUT_B_EXCEEDS_252_BITS (outputValue : Word)
  | ASYNC_NONZERO_OUTPUT_VALUES (outputValueA outputValueB : Word)
  | accessControl (role : Role)
  | signature
  | panic
  | outOfGas
  | empty
  | bubbled (reply : Reply)

/-- Events of the rollup processor. -/
inductive Event : Type where
  | OffchainData (rollupId chunk totalChunks : Word) (sender : Address)
  | RollupProcessed (rollupId : Word) (nextExpectedDefiHashes : List Word) (sender : Address)
  | DefiBridgeProcessed (encodedBridgeCallData nonce totalInputValue : Word)
      (totalOutputValueA totalOutputValueB : Word) (result : Bool)
      (errorReason : Option RevertReason)
  | AsyncDefiBridgeProcessed (encodedBridgeCallData nonce totalInputValue : Word)
  | Deposit (assetId : Word) (depositorAddress : Address) (depositValue : Word)
  | AssetAdded (assetId : Word) (assetAddress : Address) (assetGasLimit : Word)
  | BridgeAdded (bridgeAddressId : Word) (bridgeAddress : Address) (bridgeGasLimit : Word)
  | RollupProviderUpdated (providerAddress : Address) (valid : Bool)
  | VerifierUpdated (verifierAddress : Address)
  | AllowThirdPartyContractsUpdated (allowed : Bool)
  | DefiBridgeProxyUpdated (defiBridgeProxy : Address)
  | Paused (account : Address)
  | Unpaused (account : Address)
  | DelayBeforeEscapeHatchUpdated (delay : BitVec 32)
  | AssetCapUpdated (assetId : Word) (pendingCap dailyCap : BitVec 32)
  | CappedUpdated (isCapped : Bool)

/-! ## Storage -/

/-- The storage of the contract. -/
structure State where
  rollupState : Word
  supportedAssets : List Address
  supportedBridges : List Address
  asyncDefiInteractionHashes : Word → Word
  defiInteractionHashes : Word → Word
  userPendingDeposits : Word → Address → Word
  depositProofApprovals : Address → Word → Bool
  rollupStateHash : Word
  defiBridgeProxy : Address
  allowThirdPartyContracts : Bool
  rollupProviders : Address → Bool
  pendingDefiInteractions : Word → PendingDefiBridgeInteraction
  ethPayments : Word → Word
  assetGasLimits : Word → Word
  bridgeGasLimits : Word → Word
  prevDefiInteractionsHash : Word
  lastRollupTimeStamp : BitVec 32
  delayBeforeEscapeHatch : BitVec 32
  caps : Word → AssetCap
  /-- Events emitted so far, oldest first. -/
  logs : List Event

namespace State

variable (s : State)

/-- `verifier` of the packed word. -/
def verifier : Address := (field 0 160 s.rollupState).setWidth 160

/-- `datasize` of the packed word. -/
def datasize : BitVec 32 := (field DATASIZE_BIT_OFFSET 32 s.rollupState).setWidth 32

/-- The member `numAsyncDefiInteractionHashes`, all 16 bits of it. -/
def numAsyncDefiInteractionHashes : Word :=
  field ASYNCDEFIINTERACTIONHASHES_BIT_OFFSET 16 s.rollupState

/-- The member `numDefiInteractionHashes`, all 16 bits of it. -/
def numDefiInteractionHashes : Word := field DEFIINTERACTIONHASHES_BIT_OFFSET 16 s.rollupState

/-- The length of the async queue as the assembly reads it, through `ARRAY_LENGTH_MASK`. -/
def asyncArrayLen : Word :=
  field ASYNCDEFIINTERACTIONHASHES_BIT_OFFSET ARRAY_LENGTH_BITS s.rollupState

/-- The length of the defi queue as the assembly reads it, through `ARRAY_LENGTH_MASK`. -/
def defiArrayLen : Word :=
  field DEFIINTERACTIONHASHES_BIT_OFFSET ARRAY_LENGTH_BITS s.rollupState

/-- The 8-bit field of the lock. -/
def lock : Word := field LOCK_BIT_OFFSET 8 s.rollupState

/-- `paused` of the packed word. -/
def paused : Bool := field PAUSED_BIT_OFFSET 8 s.rollupState != 0

/-- `capped` of the packed word. -/
def capped : Bool := field CAPPED_BIT_OFFSET 8 s.rollupState != 0

/-- Write one member of the packed word. -/
def setRollupState (off len : Nat) (v : Word) : State :=
  { s with rollupState := setField off len v s.rollupState }

/-- Sets the lock. -/
def setLock (l : Lock) : State := s.setRollupState LOCK_BIT_OFFSET 8 l.toWord

/-- Emits an event. -/
def emit (e : Event) : State := { s with logs := s.logs ++ [e] }

end State

/-! ## Parameters -/

/-- What the contract calls but the repository does not define. The hash functions take the words
that are hashed, since every hashed message is a sequence of whole words. -/
structure Params where
  sha256 : List Word → Word
  keccak256 : List Word → Word
  /-- `RollupProcessorLibrary`: the signature at byte `sigIndex` of the signatures argument is the
  owner's, over the message for transaction id `digest`. -/
  validSignature : (digest : Word) → (owner : Address) → (signatures : List (BitVec 8)) →
    (sigIndex : Nat) → Bool
  escapeBlockLowerBound : Word
  escapeBlockUpperBound : Word

/-- The environment of one transaction or nested call. -/
structure Context where
  sender : Address
  value : Word
  timestamp : Word
  blockNumber : Word
  hasRole : Role → Bool
  hasCode : Address → Bool

/-- Programs of the contract. -/
abbrev Program := Resumption.Prog State RevertReason ExternalCall Reply

/-- The hash of a list of words, as an element of the scalar field. -/
def Params.sha256Mod (P : Params) (ws : List Word) : Word :=
  P.sha256 ws % BitVec.ofNat 256 CIRCUIT_MODULUS

/-- The interaction hash of a resolved bridge call. -/
def Params.defiInteractionHash (P : Params)
    (encodedBridgeCallData nonce totalInputValue outputValueA outputValueB : Word)
    (result : Bool) : Word :=
  P.sha256Mod [encodedBridgeCallData, nonce, totalInputValue, outputValueA, outputValueB,
    if result then 1 else 0]

end Contract

end AztecConnect
