import Mathlib.Algebra.Group.Nat.Defs
import Mathlib.Data.Nat.Log

/-!
# Bridge call data in the client

Translation of `barretenberg.js/src/bridge_call_data`: `bit_config.ts`, `bridge_call_data.ts`,
`bridge_call_data_config.ts`, `validate_bridge_call_data.ts`, and of `toBufferBE`. A `bigint` is a
natural number, as is a `number` (all of them are integers below `2 ^ 53`); an optional member is an
`Option`.
-/

namespace AztecConnect.Client

def ADDRESS_BIT_LEN : Nat := 32
def INPUT_ASSET_ID_A_LEN : Nat := 30
def OUTPUT_ASSET_ID_A_LEN : Nat := 30
def OUTPUT_ASSET_ID_B_LEN : Nat := 30
def INPUT_ASSET_ID_B_LEN : Nat := 30
def BITCONFIG_LEN : Nat := 32
def AUX_DATA_LEN : Nat := 64

def ADDRESS_OFFSET : Nat := 0
def INPUT_ASSET_ID_A_OFFSET : Nat := ADDRESS_BIT_LEN
def INPUT_ASSET_ID_B_OFFSET : Nat := INPUT_ASSET_ID_A_OFFSET + INPUT_ASSET_ID_A_LEN
def OUTPUT_ASSET_ID_A_OFFSET : Nat := INPUT_ASSET_ID_B_OFFSET + INPUT_ASSET_ID_B_LEN
def OUTPUT_ASSET_ID_B_OFFSET : Nat := OUTPUT_ASSET_ID_A_OFFSET + OUTPUT_ASSET_ID_A_LEN
def BITCONFIG_OFFSET : Nat := OUTPUT_ASSET_ID_B_OFFSET + OUTPUT_ASSET_ID_B_LEN
def AUX_DATA_OFFSET : Nat := BITCONFIG_OFFSET + BITCONFIG_LEN

/-- `isVirtualAsset`: the flag is the 30th bit. -/
def isVirtualAsset (assetId : Nat) : Bool := 1 <<< 29 ≤ assetId

/-- `extractBigInt`: `size` bits from `offset` on. -/
def extractBigInt (val offset size : Nat) : Nat := (val >>> offset) &&& ((1 <<< size) - 1)

/-! ## The bit config -/

/-- `BitConfig`. -/
structure BitConfig where
  secondInputInUse : Bool
  secondOutputInUse : Bool

/-- `BitConfig.fromBigInt`. -/
def BitConfig.fromBigInt (val : Nat) : BitConfig where
  secondInputInUse := if extractBigInt val 0 1 = 0 then false else true
  secondOutputInUse := if extractBigInt val 1 1 = 0 then false else true

/-- `BitConfig.toBigInt`. -/
def BitConfig.toBigInt (c : BitConfig) : Nat :=
  c.secondInputInUse.toNat + (c.secondOutputInUse.toNat <<< 1)

/-! ## The bridge call data -/

/-- `BridgeCallData`. -/
structure BridgeCallData where
  bridgeAddressId : Nat
  inputAssetIdA : Nat
  outputAssetIdA : Nat
  inputAssetIdB : Option Nat
  outputAssetIdB : Option Nat
  auxData : Nat
  deriving DecidableEq

namespace BridgeCallData

/-- Of the constructor: a second asset is in use if its id is not `undefined`. -/
def bitConfig (d : BridgeCallData) : BitConfig := ⟨d.inputAssetIdB.isSome, d.outputAssetIdB.isSome⟩

/-- `fromBigInt`. A second asset that is not in use is left out, and must be zero. -/
def fromBigInt (val : Nat) : Except String BridgeCallData :=
  let bridgeAddressId := extractBigInt val ADDRESS_OFFSET ADDRESS_BIT_LEN
  let inputAssetIdA := extractBigInt val INPUT_ASSET_ID_A_OFFSET INPUT_ASSET_ID_A_LEN
  let outputAssetIdA := extractBigInt val OUTPUT_ASSET_ID_A_OFFSET OUTPUT_ASSET_ID_A_LEN
  let inputAssetIdB := extractBigInt val INPUT_ASSET_ID_B_OFFSET INPUT_ASSET_ID_B_LEN
  let outputAssetIdB := extractBigInt val OUTPUT_ASSET_ID_B_OFFSET OUTPUT_ASSET_ID_B_LEN
  let auxData := extractBigInt val AUX_DATA_OFFSET AUX_DATA_LEN
  let bitConfig := BitConfig.fromBigInt (extractBigInt val BITCONFIG_OFFSET BITCONFIG_LEN)
  if !bitConfig.secondInputInUse ∧ inputAssetIdB ≠ 0 then .error "Inconsistent second input."
  else if !bitConfig.secondOutputInUse ∧ outputAssetIdB ≠ 0 then
    .error "Inconsistent second output."
  else .ok
    { bridgeAddressId
      inputAssetIdA
      outputAssetIdA
      inputAssetIdB := if bitConfig.secondInputInUse then some inputAssetIdB else none
      outputAssetIdB := if bitConfig.secondOutputInUse then some outputAssetIdB else none
      auxData }

variable (d : BridgeCallData)

/-- `firstInputVirtual`. -/
def firstInputVirtual : Bool := isVirtualAsset d.inputAssetIdA

/-- `secondInputVirtual`. -/
def secondInputVirtual : Bool :=
  d.inputAssetIdB.getD 0 != 0 && isVirtualAsset (d.inputAssetIdB.getD 0)

/-- `firstOutputVirtual`. -/
def firstOutputVirtual : Bool := isVirtualAsset d.outputAssetIdA

/-- `secondOutputVirtual`. -/
def secondOutputVirtual : Bool :=
  d.outputAssetIdB.getD 0 != 0 && isVirtualAsset (d.outputAssetIdB.getD 0)

/-- `secondInputInUse`. -/
def secondInputInUse : Bool := d.bitConfig.secondInputInUse

/-- `secondOutputInUse`. -/
def secondOutputInUse : Bool := d.bitConfig.secondOutputInUse

/-- `toBigInt`: the sum of the shifted fields. -/
def toBigInt : Nat :=
  d.bridgeAddressId +
    (d.inputAssetIdA <<< INPUT_ASSET_ID_A_OFFSET) +
    (d.inputAssetIdB.getD 0 <<< INPUT_ASSET_ID_B_OFFSET) +
    (d.outputAssetIdA <<< OUTPUT_ASSET_ID_A_OFFSET) +
    (d.outputAssetIdB.getD 0 <<< OUTPUT_ASSET_ID_B_OFFSET) +
    (d.bitConfig.toBigInt <<< BITCONFIG_OFFSET) +
    (d.auxData <<< AUX_DATA_OFFSET)

end BridgeCallData

/-- `validateBridgeCallData`. -/
def validateBridgeCallData (d : BridgeCallData) : Except String Unit :=
  if some d.inputAssetIdA = d.inputAssetIdB then .error "Identical input assets."
  else if !d.secondOutputVirtual ∧ some d.outputAssetIdA = d.outputAssetIdB then
    .error "Identical output assets."
  else .ok ()

/-! ## Numbers -/

/-- Bits are extracted by division. -/
lemma extractBigInt_eq (val offset size : Nat) :
    extractBigInt val offset size = val / 2 ^ offset % 2 ^ size := by
  rw [extractBigInt, Nat.one_shiftLeft, Nat.and_two_pow_sub_one_eq_mod, Nat.shiftRight_eq_div_pow]

/-- `isVirtualAsset` reads bit 29 of an asset id. -/
lemma isVirtualAsset_eq {assetId : Nat} (h : assetId < 2 ^ 30) :
    isVirtualAsset assetId = (assetId / 2 ^ 29 % 2 == 1) := by
  rw [isVirtualAsset, Nat.one_shiftLeft]
  rcases Nat.lt_or_ge assetId (2 ^ 29) with hlt | hge
  · have hz : assetId / 2 ^ 29 % 2 = 0 := by omega
    rw [hz, decide_eq_false (Nat.not_le_of_lt hlt)]
    rfl
  · have hone : assetId / 2 ^ 29 % 2 = 1 := by omega
    rw [hone, decide_eq_true hge]
    rfl

/-- The configuration is the two low bits. -/
lemma BitConfig.fromBigInt_eq (val : Nat) : BitConfig.fromBigInt val =
    ⟨val % 2 == 1, val / 2 % 2 == 1⟩ := by
  have hbit (n : Nat) : (if n % 2 = 0 then false else true) = (n % 2 == 1) := by
    rcases Nat.mod_two_eq_zero_or_one n with h | h <;> rw [h] <;> rfl
  simp only [BitConfig.fromBigInt, extractBigInt_eq, Nat.pow_zero, Nat.div_one, Nat.pow_one, hbit]

/-- The number that `toBigInt` packs. -/
lemma BridgeCallData.toBigInt_eq (d : BridgeCallData) : d.toBigInt =
    d.bridgeAddressId + d.inputAssetIdA * 2 ^ 32 + d.inputAssetIdB.getD 0 * 2 ^ 62 +
      d.outputAssetIdA * 2 ^ 92 + d.outputAssetIdB.getD 0 * 2 ^ 122 +
      (d.inputAssetIdB.isSome.toNat + d.outputAssetIdB.isSome.toNat * 2) * 2 ^ 152 +
      d.auxData * 2 ^ 184 := by
  simp only [BridgeCallData.toBigInt, BitConfig.toBigInt, BridgeCallData.bitConfig,
    Nat.shiftLeft_eq, Nat.pow_one]
  rfl

/-- The first `width` bytes of the big-endian representation, padded to that length, as a number. -/
def toBufferBE (num width : Nat) : Nat := num / 16 ^ (Nat.log 16 num + 1 - 2 * width)

/-- A number that fits the buffer is not cut off. -/
lemma toBufferBE_eq {num width : Nat} (h : num < 16 ^ (2 * width)) : toBufferBE num width = num := by
  rcases Nat.eq_zero_or_pos num with rfl | hpos
  · rw [toBufferBE, Nat.zero_div]
  · have hlog : Nat.log 16 num < 2 * width := Nat.log_lt_of_lt_pow hpos.ne' h
    rw [toBufferBE, Nat.sub_eq_zero_of_le hlog, Nat.pow_zero, Nat.div_one]

end AztecConnect.Client
