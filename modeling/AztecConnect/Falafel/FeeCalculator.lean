import AztecConnect.Client.BridgeCallData
import AztecConnect.Falafel.RollupCoordinator
import Mathlib.Algebra.Order.Floor.Div

/-!
# Gas and fees

Translation of `falafel/src/tx_fee_resolver` (`get_gas_overhead.ts`, `price_tracker.ts`,
`fee_calculator.ts` and `index.ts`) as far as gas goes, and of `getMinBridgeTxGas` of
`bridge_resolver.ts`. An amount of gas or of bytes is a natural number, and the multiplier of the gas
price counts units of `1e-8`.

The quotients that the source rounds up are exact. A quotient of two numbers below `2 ^ 53`, rounded up,
is the same in doubles. The difference of two quotients in `getTxGasAdjustmentValue` is the same unless it
is a whole number and the quotients are not: there the doubles may give one unit of gas more.
-/

namespace AztecConnect.Falafel

/-! ## The gas of a transaction -/

def CALLDATA_GAS_PER_BYTE : Nat := 16
def SIGNATURE_CALLDATA_SIZE : Nat := 96
def DEPOSIT_CONTRACT_GAS_CONSUMPTION : Nat := 10500
def ETH_WITHDRAW_GAS_OVERHEAD : Nat := 10000

/-- An asset and the gas limit of its transfers. -/
structure AssetGasLimit where
  assetId : Nat
  gasLimit : Nat

/-- `SIZE` of the offchain data. -/
def offchainJoinSplitSize : Nat := 2 * 144 + 4

/-- The offchain data of an account transaction. -/
def offchainAccountSize : Nat := 64 + 28 + 32 + 32 + 4

/-- The offchain data of a deposit to a bridge. -/
def offchainDefiDepositSize : Nat := 32 + 32 + 64 + 32 + 32 + 144 + 4

/-- A claim has no offchain data. -/
def offchainDefiClaimSize : Nat := 0

/-- `ENCODED_LENGTH` of the rollup proof data, with the signature of a deposit. -/
def getTxCallData : TxType → Nat
  | .ACCOUNT => 1 + 4 * 32
  | .DEFI_CLAIM => 1 + 4 * 32
  | .DEFI_DEPOSIT => 1 + 4 * 32
  | .DEPOSIT => 1 + 5 * 32 + 20 + 4 + SIGNATURE_CALLDATA_SIZE
  | .TRANSFER => 1 + 4 * 32
  | .WITHDRAW_HIGH_GAS => 1 + 5 * 32 + 20 + 4
  | .WITHDRAW_TO_WALLET => 1 + 5 * 32 + 20 + 4

/-- `getWithdrawToWalletGas`. -/
def getWithdrawToWalletGas (a : AssetGasLimit) : Nat :=
  let callDataGasCost :=
    (offchainJoinSplitSize + getTxCallData .WITHDRAW_TO_WALLET) * CALLDATA_GAS_PER_BYTE
  let contractOverhead := if a.assetId = 0 then ETH_WITHDRAW_GAS_OVERHEAD else a.gasLimit
  callDataGasCost + contractOverhead

/-- `getWithdrawHighGas`. -/
def getWithdrawHighGas (a : AssetGasLimit) : Nat :=
  let callDataGasCost :=
    (offchainJoinSplitSize + getTxCallData .WITHDRAW_HIGH_GAS) * CALLDATA_GAS_PER_BYTE
  let contractOverhead :=
    if a.assetId = 0 then a.gasLimit + ETH_WITHDRAW_GAS_OVERHEAD else a.gasLimit
  callDataGasCost + contractOverhead

/-- `getGasOverhead`. -/
def getGasOverhead (txType : TxType) (a : AssetGasLimit) : Nat :=
  match txType with
  | .ACCOUNT => (offchainAccountSize + getTxCallData txType) * CALLDATA_GAS_PER_BYTE
  | .DEFI_CLAIM => (offchainDefiClaimSize + getTxCallData txType) * CALLDATA_GAS_PER_BYTE
  | .DEFI_DEPOSIT => (offchainDefiDepositSize + getTxCallData txType) * CALLDATA_GAS_PER_BYTE
  | .DEPOSIT =>
    (offchainJoinSplitSize + getTxCallData txType) * CALLDATA_GAS_PER_BYTE +
      DEPOSIT_CONTRACT_GAS_CONSUMPTION
  | .TRANSFER => (offchainJoinSplitSize + getTxCallData txType) * CALLDATA_GAS_PER_BYTE
  | .WITHDRAW_HIGH_GAS => getWithdrawHighGas a
  | .WITHDRAW_TO_WALLET => getWithdrawToWalletGas a

/-! ## Prices -/

/-- The asset price is `0` where there is none. -/
structure PriceRecord where
  gasPrice : Nat
  assetPrices : Nat → Nat

/-- The records that are kept, the latest first. -/
structure PriceTracker where
  prices : List PriceRecord

namespace PriceTracker

variable (p : PriceTracker)

/-- `getGasPrice`: the latest, zero before the first record. -/
def getGasPrice : Nat := (p.prices.head?.map (·.gasPrice)).getD 0

/-- `getAssetPrice`: the latest. -/
def getAssetPrice (assetId : Nat) : Nat := (p.prices.head?.map (·.assetPrices assetId)).getD 0

/-- `getMinGasPrice`: the lowest of the history. -/
def getMinGasPrice : Nat := p.prices.foldl (fun m r => min m r.gasPrice) p.getGasPrice

end PriceTracker

/-! ## The calculator -/

/-- The transaction types, in the order of the enumeration. -/
def allTxTypes : List TxType :=
  [.DEPOSIT, .TRANSFER, .WITHDRAW_TO_WALLET, .WITHDRAW_HIGH_GAS, .ACCOUNT, .DEFI_DEPOSIT, .DEFI_CLAIM]

/-- What is read of an asset of the blockchain status. -/
structure BlockchainAsset where
  decimals : Nat
  gasLimit : Nat

/-- `FeeCalculator`. -/
structure FeeCalculator where
  priceTracker : PriceTracker
  /-- Of the blockchain status. The first one is ETH. -/
  assets : List BlockchainAsset
  assets_ne_nil : assets ≠ []
  verificationGas : Nat
  feeGasPriceMultiplier : Nat
  txsPerRollup : Nat
  callDataPerRollup : Nat
  gasPerRollup : Nat

namespace FeeCalculator

variable (f : FeeCalculator)

/-- If the asset is virtual, the fee is quoted as if it was ETH. -/
def getGasOverheadForTxType (txAssetId : Nat) (txType : TxType) : Nat :=
  match f.assets[txAssetId]? with
  | some asset => getGasOverhead txType ⟨txAssetId, asset.gasLimit⟩
  | none => getGasOverhead txType ⟨0, (f.assets.head f.assets_ne_nil).gasLimit⟩

/-- `getUnadjustedBaseVerificationGas`: the share of a transaction, rounded up. -/
def getUnadjustedBaseVerificationGas : Nat := f.verificationGas ⌈/⌉ f.txsPerRollup

/-- `getUnadjustedTxGas`. -/
def getUnadjustedTxGas (txAssetId : Nat) (txType : TxType) : Nat :=
  f.getUnadjustedBaseVerificationGas + f.getGasOverheadForTxType txAssetId txType

/-- `getMaxTxCallData`. -/
def getMaxTxCallData : Nat := (allTxTypes.map getTxCallData).foldl max 0

/-- `getMaxUnadjustedGas`. -/
def getMaxUnadjustedGas : Nat :=
  ((List.range f.assets.length).flatMap fun assetId =>
    allTxTypes.map (f.getUnadjustedTxGas assetId)).foldl max 0

/-- The transactions of the type that fit into a rollup besides the one that takes most. -/
def getNumAdjustedTxsPerRollup (txAssetId : Nat) (txType : TxType) : Nat :=
  let callDataAvailableForTxs := f.callDataPerRollup - getMaxTxCallData
  let numTxsAccountingForCallData := callDataAvailableForTxs / getTxCallData txType
  let gasAvailableForTxs := f.gasPerRollup - (f.verificationGas + f.getMaxUnadjustedGas)
  let numTxsAccountingForGas := gasAvailableForTxs / f.getGasOverheadForTxType txAssetId txType
  min numTxsAccountingForCallData (min numTxsAccountingForGas f.txsPerRollup)

/-- The shares of the verification gas, for the transactions of the type that fit and for those of the
rollup, on a common denominator. -/
def getTxGasAdjustmentValue (txAssetId : Nat) (txType : TxType) : Nat :=
  let numAdjustedTxs := f.getNumAdjustedTxsPerRollup txAssetId txType
  f.verificationGas * (f.txsPerRollup - numAdjustedTxs) ⌈/⌉ (numAdjustedTxs * f.txsPerRollup)

/-- `getAdjustedBaseVerificationGas`. -/
def getAdjustedBaseVerificationGas (txAssetId : Nat) (txType : TxType) : Nat :=
  f.getUnadjustedBaseVerificationGas + f.getTxGasAdjustmentValue txAssetId txType

/-- `getAdjustedTxGas`. -/
def getAdjustedTxGas (txAssetId : Nat) (txType : TxType) : Nat :=
  f.getAdjustedBaseVerificationGas txAssetId txType + f.getGasOverheadForTxType txAssetId txType

/-- The multiplier has eight decimals. -/
def multiplierPrecision : Nat := 10 ^ 8

/-- The decimals of an asset. An asset that is not known throws. -/
def getDecimals (assetId : Nat) : Except String Nat :=
  match f.assets[assetId]? with
  | some asset => .ok asset.decimals
  | none => .error "Cannot destructure property 'decimals' of an asset that is undefined."

/-- `getGasPaidForByFee`. -/
def getGasPaidForByFee (feeAssetId fee : Nat) : Except String Nat := do
  let assetCostInWei := f.priceTracker.getAssetPrice feeAssetId
  let gasPriceInWei :=
    f.priceTracker.getMinGasPrice * f.feeGasPriceMultiplier / multiplierPrecision
  let decimals ← f.getDecimals feeAssetId
  let scaleFactor := 10 ^ decimals
  let amountOfWeiProvided := assetCostInWei * fee
  if gasPriceInWei = 0 then .error "Division by zero"
  else
    let gasPaidForUnscaled := amountOfWeiProvided / gasPriceInWei
    .ok (gasPaidForUnscaled / scaleFactor)

end FeeCalculator

/-! ## The resolver -/

/-- The fee calculator with the bridges that are recognised. Some transaction of every type fits into
a rollup. -/
structure FeeResolver extends FeeCalculator where
  feePayingAssetIds : List Nat
  getFullBridgeGas : Nat → Nat
  getFullBridgeGasFromContract : Nat → Nat
  /-- Of the config of the bridge. -/
  numBridgeTxs : Nat → Nat
  numBridgeTxs_pos : ∀ bridgeCallData, 0 < numBridgeTxs bridgeCallData
  fits : ∀ assetId txType, 0 < toFeeCalculator.getNumAdjustedTxsPerRollup assetId txType

namespace FeeResolver

variable (R : FeeResolver)

/-- `isFeePayingAsset`. -/
def isFeePayingAsset (assetId : Nat) : Bool := R.feePayingAssetIds.any fun id => id == assetId

/-- `getMinBridgeTxGas` of the bridge resolver. -/
def getSingleBridgeTxGas (bridgeCallData : Nat) : Nat :=
  R.getFullBridgeGas bridgeCallData ⌈/⌉ R.numBridgeTxs bridgeCallData

/-- `getAdjustedBridgeTxGas`. -/
def getAdjustedBridgeTxGas (txAssetId bridgeCallData : Nat) : Nat :=
  R.getAdjustedTxGas txAssetId .DEFI_DEPOSIT + R.getSingleBridgeTxGas bridgeCallData

/-- What the coordinator reads of the resolver. -/
def toTxFeeResolver : TxFeeResolver where
  isFeePayingAsset := R.isFeePayingAsset
  getUnadjustedBaseVerificationGas := R.getUnadjustedBaseVerificationGas
  getUnadjustedTxGas assetId txType := R.getUnadjustedTxGas assetId txType
  getTxCallData txType := getTxCallData txType
  getFullBridgeGas bridgeCallData := R.getFullBridgeGas bridgeCallData
  getFullBridgeGasFromContract bridgeCallData := R.getFullBridgeGasFromContract bridgeCallData
  getSingleBridgeTxGas bridgeCallData := R.getSingleBridgeTxGas bridgeCallData

end FeeResolver

/-- The gas of the transactions of a bridge is the same in every asset. -/
lemma FeeCalculator.getAdjustedTxGas_defi (f : FeeCalculator) {txType : TxType}
    (h : txType = .DEFI_DEPOSIT ∨ txType = .DEFI_CLAIM) (a b : Nat) :
    f.getAdjustedTxGas a txType = f.getAdjustedTxGas b txType := by
  have hoverhead (a b : Nat) :
      f.getGasOverheadForTxType a txType = f.getGasOverheadForTxType b txType := by
    unfold getGasOverheadForTxType getGasOverhead
    rcases h with rfl | rfl <;> cases f.assets[a]? <;> cases f.assets[b]? <;> rfl
  simp only [getAdjustedTxGas, getAdjustedBaseVerificationGas, getTxGasAdjustmentValue,
    getNumAdjustedTxsPerRollup, hoverhead a b]

end AztecConnect.Falafel
