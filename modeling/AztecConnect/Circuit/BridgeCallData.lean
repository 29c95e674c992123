import Mathlib.Algebra.Group.Nat.Defs
import Mathlib.Data.Nat.Notation
import Mathlib.Logic.Basic

/-!
# Bridge call data in the circuits

Translation of `rollup/proofs/notes/circuit/bridge_call_data.hpp`. A safe unsigned integer
(`suint_ct`) is a natural number: its range constraint is part of `Satisfied`, and the library
refuses arithmetic on it that could reach the modulus of the field (`toSafeUint_lt`). A prover may
assign any values to the witnesses that the constructor makes.
-/

namespace AztecConnect.Circuit

def DEFI_BRIDGE_ADDRESS_ID_LEN : Nat := 32
def MAX_NUM_ASSETS_BIT_LENGTH : Nat := 30
def DEFI_BRIDGE_INPUT_A_ASSET_ID_LEN : Nat := MAX_NUM_ASSETS_BIT_LENGTH
def DEFI_BRIDGE_INPUT_B_ASSET_ID_LEN : Nat := MAX_NUM_ASSETS_BIT_LENGTH
def DEFI_BRIDGE_OUTPUT_A_ASSET_ID_LEN : Nat := MAX_NUM_ASSETS_BIT_LENGTH
def DEFI_BRIDGE_OUTPUT_B_ASSET_ID_LEN : Nat := MAX_NUM_ASSETS_BIT_LENGTH
def DEFI_BRIDGE_BITCONFIG_LEN : Nat := 32
def DEFI_BRIDGE_AUX_DATA : Nat := 64

def inputAssetIdAShift : Nat := DEFI_BRIDGE_ADDRESS_ID_LEN
def inputAssetIdBShift : Nat := inputAssetIdAShift + DEFI_BRIDGE_INPUT_A_ASSET_ID_LEN
def outputAssetIdAShift : Nat := inputAssetIdBShift + DEFI_BRIDGE_INPUT_B_ASSET_ID_LEN
def outputAssetIdBShift : Nat := outputAssetIdAShift + DEFI_BRIDGE_OUTPUT_A_ASSET_ID_LEN
def bitconfigShift : Nat := outputAssetIdBShift + DEFI_BRIDGE_OUTPUT_B_ASSET_ID_LEN
def auxDataShift : Nat := bitconfigShift + DEFI_BRIDGE_BITCONFIG_LEN

/-- Bit 29 of an asset id (`get_asset_id_flag`). -/
def getAssetIdFlag (assetId : Nat) : Bool :=
  assetId / 2 ^ (MAX_NUM_ASSETS_BIT_LENGTH - 1) % 2 == 1

/-- `bit_config`. -/
structure BitConfig where
  secondInputInUse : Bool
  secondOutputInUse : Bool
  deriving DecidableEq

/-- `to_suint`, at its place in the call data. -/
def BitConfig.toSuint (c : BitConfig) : Nat :=
  (c.secondInputInUse.toNat + c.secondOutputInUse.toNat * 2) * 2 ^ bitconfigShift

/-- `bridge_call_data`. -/
structure BridgeCallData where
  bridgeAddressId : Nat
  inputAssetIdA : Nat
  inputAssetIdB : Nat
  outputAssetIdA : Nat
  outputAssetIdB : Nat
  config : BitConfig
  auxData : Nat
  deriving DecidableEq

/-- `virtual_asset_id_placeholder`. -/
def virtualAssetIdPlaceholder : Nat := 2 ^ (MAX_NUM_ASSETS_BIT_LENGTH - 1)

/-- `validate_bit_config`, one member for each constraint. -/
structure BridgeCallData.ValidateBitConfig (d : BridgeCallData) : Prop where
  secondInput : d.inputAssetIdB ≠ 0 → d.config.secondInputInUse = true
  secondOutput : d.outputAssetIdB ≠ 0 → d.config.secondOutputInUse = true
  inputs : d.config.secondInputInUse = true → d.inputAssetIdA ≠ d.inputAssetIdB
  outputs : d.config.secondOutputInUse = true →
    getAssetIdFlag d.outputAssetIdA = false ∧ getAssetIdFlag d.outputAssetIdB = false →
    d.outputAssetIdA ≠ d.outputAssetIdB
  firstPlaceholder : getAssetIdFlag d.outputAssetIdA = true →
    d.outputAssetIdA = virtualAssetIdPlaceholder
  secondPlaceholder : getAssetIdFlag d.outputAssetIdB = true →
    d.outputAssetIdB = virtualAssetIdPlaceholder

/-- The constraints of the constructor. -/
structure BridgeCallData.Satisfied (d : BridgeCallData) : Prop where
  bridgeAddressId : d.bridgeAddressId < 2 ^ DEFI_BRIDGE_ADDRESS_ID_LEN
  inputAssetIdA : d.inputAssetIdA < 2 ^ DEFI_BRIDGE_INPUT_A_ASSET_ID_LEN
  inputAssetIdB : d.inputAssetIdB < 2 ^ DEFI_BRIDGE_INPUT_B_ASSET_ID_LEN
  outputAssetIdA : d.outputAssetIdA < 2 ^ DEFI_BRIDGE_OUTPUT_A_ASSET_ID_LEN
  outputAssetIdB : d.outputAssetIdB < 2 ^ DEFI_BRIDGE_OUTPUT_B_ASSET_ID_LEN
  auxData : d.auxData < 2 ^ DEFI_BRIDGE_AUX_DATA
  valid : d.ValidateBitConfig

instance (d : BridgeCallData) : Decidable d.ValidateBitConfig :=
  decidable_of_iff
    ((d.inputAssetIdB ≠ 0 → d.config.secondInputInUse = true) ∧
      (d.outputAssetIdB ≠ 0 → d.config.secondOutputInUse = true) ∧
      (d.config.secondInputInUse = true → d.inputAssetIdA ≠ d.inputAssetIdB) ∧
      (d.config.secondOutputInUse = true →
        getAssetIdFlag d.outputAssetIdA = false ∧ getAssetIdFlag d.outputAssetIdB = false →
        d.outputAssetIdA ≠ d.outputAssetIdB) ∧
      (getAssetIdFlag d.outputAssetIdA = true → d.outputAssetIdA = virtualAssetIdPlaceholder) ∧
      (getAssetIdFlag d.outputAssetIdB = true → d.outputAssetIdB = virtualAssetIdPlaceholder))
    ⟨fun ⟨h₁, h₂, h₃, h₄, h₅, h₆⟩ => ⟨h₁, h₂, h₃, h₄, h₅, h₆⟩,
      fun ⟨h₁, h₂, h₃, h₄, h₅, h₆⟩ => ⟨h₁, h₂, h₃, h₄, h₅, h₆⟩⟩

instance (d : BridgeCallData) : Decidable d.Satisfied :=
  decidable_of_iff
    (d.bridgeAddressId < 2 ^ DEFI_BRIDGE_ADDRESS_ID_LEN ∧
      d.inputAssetIdA < 2 ^ DEFI_BRIDGE_INPUT_A_ASSET_ID_LEN ∧
      d.inputAssetIdB < 2 ^ DEFI_BRIDGE_INPUT_B_ASSET_ID_LEN ∧
      d.outputAssetIdA < 2 ^ DEFI_BRIDGE_OUTPUT_A_ASSET_ID_LEN ∧
      d.outputAssetIdB < 2 ^ DEFI_BRIDGE_OUTPUT_B_ASSET_ID_LEN ∧
      d.auxData < 2 ^ DEFI_BRIDGE_AUX_DATA ∧ d.ValidateBitConfig)
    ⟨fun ⟨h₁, h₂, h₃, h₄, h₅, h₆, h₇⟩ => ⟨h₁, h₂, h₃, h₄, h₅, h₆, h₇⟩,
      fun ⟨h₁, h₂, h₃, h₄, h₅, h₆, h₇⟩ => ⟨h₁, h₂, h₃, h₄, h₅, h₆, h₇⟩⟩

/-- `to_safe_uint`: every field at its shift. -/
def BridgeCallData.toSafeUint (d : BridgeCallData) : Nat :=
  d.bridgeAddressId + d.inputAssetIdA * 2 ^ inputAssetIdAShift +
    d.inputAssetIdB * 2 ^ inputAssetIdBShift + d.outputAssetIdA * 2 ^ outputAssetIdAShift +
    d.outputAssetIdB * 2 ^ outputAssetIdBShift + d.config.toSuint + d.auxData * 2 ^ auxDataShift

/-- Nothing wraps around in the field. -/
lemma BridgeCallData.toSafeUint_lt {d : BridgeCallData} (h : d.Satisfied) :
    d.toSafeUint < 2 ^ 248 := by
  have h₁ : d.bridgeAddressId < 2 ^ 32 := h.bridgeAddressId
  have h₂ : d.inputAssetIdA < 2 ^ 30 := h.inputAssetIdA
  have h₃ : d.inputAssetIdB < 2 ^ 30 := h.inputAssetIdB
  have h₄ : d.outputAssetIdA < 2 ^ 30 := h.outputAssetIdA
  have h₅ : d.outputAssetIdB < 2 ^ 30 := h.outputAssetIdB
  have h₆ : d.auxData < 2 ^ 64 := h.auxData
  have h₇ := d.config.secondInputInUse.toNat_le
  have h₈ := d.config.secondOutputInUse.toNat_le
  have heq : d.toSafeUint = d.bridgeAddressId + d.inputAssetIdA * 2 ^ 32 +
      d.inputAssetIdB * 2 ^ 62 + d.outputAssetIdA * 2 ^ 92 + d.outputAssetIdB * 2 ^ 122 +
      (d.config.secondInputInUse.toNat + d.config.secondOutputInUse.toNat * 2) * 2 ^ 152 +
      d.auxData * 2 ^ 184 := rfl
  omega

end AztecConnect.Circuit
