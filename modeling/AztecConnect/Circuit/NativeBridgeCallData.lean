import AztecConnect.Circuit.BridgeCallData
import Mathlib.Data.BitVec

/-!
# Bridge call data outside of the circuits

Translation of `rollup/proofs/notes/native/bridge_call_data.hpp`. A `uint256_t` is a vector of 256
bits, and a `static_cast` to `uint32_t` keeps the lower 32 of them (`castUint32`).
-/

namespace AztecConnect.Circuit.Native

/-- `uint256_t`. -/
abbrev Uint256 := BitVec 256

/-- `static_cast<uint32_t>`, which keeps the low 32 bits. -/
def castUint32 (v : Uint256) : UInt32 := UInt32.ofNat v.toNat

/-- A shift and a mask of as many bits. -/
def bits (v : Uint256) (shift len : Nat) : Uint256 := (v >>> shift) &&& ((1#256 <<< len) - 1#256)

/-- `bit_config`. -/
structure BitConfig where
  secondInputInUse : Bool
  secondOutputInUse : Bool
  deriving DecidableEq

namespace BitConfig

def inputAssetIdAShift : Nat := DEFI_BRIDGE_ADDRESS_ID_LEN
def outputAssetIdAShift : Nat := inputAssetIdAShift + DEFI_BRIDGE_INPUT_A_ASSET_ID_LEN
def outputAssetIdBShift : Nat := outputAssetIdAShift + DEFI_BRIDGE_OUTPUT_A_ASSET_ID_LEN
def inputAssetIdBShift : Nat := outputAssetIdBShift + DEFI_BRIDGE_OUTPUT_B_ASSET_ID_LEN
def bitconfigShift : Nat := inputAssetIdBShift + DEFI_BRIDGE_INPUT_B_ASSET_ID_LEN

/-- `to_uint256`, at its place in the call data. -/
def toUint256 (c : BitConfig) : Uint256 :=
  let result := BitVec.ofNat 256 c.secondInputInUse.toNat +
    (BitVec.ofNat 256 c.secondOutputInUse.toNat <<< 1)
  result <<< bitconfigShift

/-- `from_uint256`. -/
def fromUint256 (bridgeCallData : Uint256) : BitConfig :=
  let configU32 := castUint32 (bits bridgeCallData bitconfigShift DEFI_BRIDGE_BITCONFIG_LEN)
  { secondInputInUse := configU32 &&& 1 != 0
    secondOutputInUse := (configU32 >>> 1) &&& 1 != 0 }

end BitConfig

/-- `bridge_call_data`. -/
structure BridgeCallData where
  bridgeAddressId : UInt32
  inputAssetIdA : UInt32
  inputAssetIdB : UInt32
  outputAssetIdA : UInt32
  outputAssetIdB : UInt32
  config : BitConfig
  auxData : UInt64
  deriving DecidableEq

namespace BridgeCallData

def inputAssetIdAShift : Nat := DEFI_BRIDGE_ADDRESS_ID_LEN
def inputAssetIdBShift : Nat := inputAssetIdAShift + DEFI_BRIDGE_OUTPUT_B_ASSET_ID_LEN
def outputAssetIdAShift : Nat := inputAssetIdBShift + DEFI_BRIDGE_INPUT_A_ASSET_ID_LEN
def outputAssetIdBShift : Nat := outputAssetIdAShift + DEFI_BRIDGE_OUTPUT_A_ASSET_ID_LEN
def bitconfigShift : Nat := outputAssetIdBShift + DEFI_BRIDGE_INPUT_B_ASSET_ID_LEN
def auxDataShift : Nat := bitconfigShift + DEFI_BRIDGE_BITCONFIG_LEN

/-- The auxiliary data is cast to 32 bits as the asset ids are. -/
def fromUint256 (bridgeCallData : Uint256) : BridgeCallData where
  bridgeAddressId := castUint32 (bits bridgeCallData 0 DEFI_BRIDGE_ADDRESS_ID_LEN)
  inputAssetIdA :=
    castUint32 (bits bridgeCallData inputAssetIdAShift DEFI_BRIDGE_INPUT_A_ASSET_ID_LEN)
  inputAssetIdB :=
    castUint32 (bits bridgeCallData inputAssetIdBShift DEFI_BRIDGE_INPUT_B_ASSET_ID_LEN)
  outputAssetIdA :=
    castUint32 (bits bridgeCallData outputAssetIdAShift DEFI_BRIDGE_OUTPUT_A_ASSET_ID_LEN)
  outputAssetIdB :=
    castUint32 (bits bridgeCallData outputAssetIdBShift DEFI_BRIDGE_OUTPUT_B_ASSET_ID_LEN)
  config := BitConfig.fromUint256 bridgeCallData
  auxData := (castUint32 (bits bridgeCallData auxDataShift DEFI_BRIDGE_AUX_DATA)).toUInt64

variable (x : BridgeCallData)

/-- `to_uint256`. Asset ids beyond their lengths throw. -/
def toUint256 : Except String Uint256 :=
  let inputAssetIdACheck := x.inputAssetIdA.toNat >>> DEFI_BRIDGE_INPUT_A_ASSET_ID_LEN = 0
  let inputAssetIdBCheck := x.inputAssetIdB.toNat >>> DEFI_BRIDGE_INPUT_A_ASSET_ID_LEN = 0
  let outputAssetIdACheck := x.outputAssetIdA.toNat >>> DEFI_BRIDGE_OUTPUT_A_ASSET_ID_LEN = 0
  let outputAssetIdBCheck := x.outputAssetIdB.toNat >>> DEFI_BRIDGE_OUTPUT_B_ASSET_ID_LEN = 0
  if ¬ (inputAssetIdACheck ∧ inputAssetIdBCheck ∧ outputAssetIdACheck ∧ outputAssetIdBCheck) then
    .error "Structure of the bridge_call_data incorrect!"
  else .ok (BitVec.ofNat 256 x.bridgeAddressId.toNat +
    (BitVec.ofNat 256 x.inputAssetIdA.toNat <<< inputAssetIdAShift) +
    (BitVec.ofNat 256 x.inputAssetIdB.toNat <<< inputAssetIdBShift) +
    (BitVec.ofNat 256 x.outputAssetIdA.toNat <<< outputAssetIdAShift) +
    (BitVec.ofNat 256 x.outputAssetIdB.toNat <<< outputAssetIdBShift) +
    x.config.toUint256 + (BitVec.ofNat 256 x.auxData.toNat <<< auxDataShift))

/-- The asset ids have 30 bits. -/
structure WithinLengths : Prop where
  inputAssetIdA : x.inputAssetIdA.toNat < 2 ^ DEFI_BRIDGE_INPUT_A_ASSET_ID_LEN
  inputAssetIdB : x.inputAssetIdB.toNat < 2 ^ DEFI_BRIDGE_INPUT_B_ASSET_ID_LEN
  outputAssetIdA : x.outputAssetIdA.toNat < 2 ^ DEFI_BRIDGE_OUTPUT_A_ASSET_ID_LEN
  outputAssetIdB : x.outputAssetIdB.toNat < 2 ^ DEFI_BRIDGE_OUTPUT_B_ASSET_ID_LEN

/-- The same fields in a circuit. -/
def toCircuit : Circuit.BridgeCallData where
  bridgeAddressId := x.bridgeAddressId.toNat
  inputAssetIdA := x.inputAssetIdA.toNat
  inputAssetIdB := x.inputAssetIdB.toNat
  outputAssetIdA := x.outputAssetIdA.toNat
  outputAssetIdB := x.outputAssetIdB.toNat
  config := ⟨x.config.secondInputInUse, x.config.secondOutputInUse⟩
  auxData := x.auxData.toNat

end BridgeCallData

end AztecConnect.Circuit.Native

namespace AztecConnect.Circuit

/-- The ranges of the members, without the other constraints. -/
structure BridgeCallData.WithinLengths (d : BridgeCallData) : Prop where
  bridgeAddressId : d.bridgeAddressId < 2 ^ DEFI_BRIDGE_ADDRESS_ID_LEN
  inputAssetIdA : d.inputAssetIdA < 2 ^ DEFI_BRIDGE_INPUT_A_ASSET_ID_LEN
  inputAssetIdB : d.inputAssetIdB < 2 ^ DEFI_BRIDGE_INPUT_B_ASSET_ID_LEN
  outputAssetIdA : d.outputAssetIdA < 2 ^ DEFI_BRIDGE_OUTPUT_A_ASSET_ID_LEN
  outputAssetIdB : d.outputAssetIdB < 2 ^ DEFI_BRIDGE_OUTPUT_B_ASSET_ID_LEN
  auxData : d.auxData < 2 ^ DEFI_BRIDGE_AUX_DATA

namespace Native

/-! ## Numbers -/

/-- Bits are extracted by division. -/
lemma bits_toNat (v : Uint256) (shift len : Nat) (hlen : len < 256) :
    (bits v shift len).toNat = v.toNat / 2 ^ shift % 2 ^ len := by
  have hone : 1 ≤ 2 ^ len := Nat.one_le_two_pow
  have hlt : 2 ^ len < 2 ^ 256 := Nat.pow_lt_pow_right (by decide) hlen
  have hmask : ((1#256 <<< len) - 1#256).toNat = 2 ^ len - 1 := by
    have hshift : (1#256 <<< len).toNat = 2 ^ len := by
      rw [BitVec.toNat_shiftLeft, show (1#256).toNat = 1 from rfl, Nat.one_shiftLeft,
        Nat.mod_eq_of_lt hlt]
    rw [BitVec.toNat_sub_of_le, hshift]
    · rfl
    · rw [BitVec.le_def, hshift]
      exact hone
  rw [bits, BitVec.toNat_and, hmask, Nat.and_two_pow_sub_one_eq_mod, BitVec.toNat_ushiftRight,
    Nat.shiftRight_eq_div_pow]

/-- The cast keeps the remainder. -/
lemma castUint32_toNat (v : Uint256) : (castUint32 v).toNat = v.toNat % 2 ^ 32 := UInt32.toNat_ofNat'

/-- The configuration stands at bit 152. -/
lemma BitConfig.toUint256_toNat (c : BitConfig) : c.toUint256.toNat =
    (c.secondInputInUse.toNat + c.secondOutputInUse.toNat * 2) * 2 ^ 152 := by
  cases c with
  | mk i o => cases i <;> cases o <;> rfl

/-- It is read from there. -/
lemma BitConfig.fromUint256_eq (v : Uint256) : BitConfig.fromUint256 v =
    ⟨v.toNat / 2 ^ 152 % 2 == 1, v.toNat / 2 ^ 153 % 2 == 1⟩ := by
  have hconfig : (castUint32 (bits v bitconfigShift DEFI_BRIDGE_BITCONFIG_LEN)).toNat =
      v.toNat / 2 ^ 152 % 2 ^ 32 := by
    rw [castUint32_toNat, bits_toNat v _ _ (by decide)]
    exact Nat.mod_mod _ _
  have hbit (u : UInt32) : (u &&& 1 != 0) = (u.toNat % 2 == 1) := by
    have hand : (u &&& 1).toNat = u.toNat % 2 := by
      rw [UInt32.toNat_and]
      exact Nat.and_one_is_mod _
    rcases Nat.mod_two_eq_zero_or_one u.toNat with hzero | hone
    · rw [hzero]
      have hz : u &&& 1 = 0 := UInt32.toNat_inj.mp (hand.trans hzero)
      rw [hz]
      rfl
    · rw [hone]
      have ho : u &&& 1 = 1 := UInt32.toNat_inj.mp (hand.trans hone)
      rw [ho]
      rfl
  have hsecond (u : UInt32) : (u >>> 1).toNat = u.toNat / 2 := by
    rw [UInt32.toNat_shiftRight, Nat.shiftRight_eq_div_pow]
    rfl
  have hfirst : v.toNat / 2 ^ 152 % 2 ^ 32 % 2 = v.toNat / 2 ^ 152 % 2 := by omega
  have hnext : v.toNat / 2 ^ 152 % 2 ^ 32 / 2 % 2 = v.toNat / 2 ^ 153 % 2 := by omega
  rw [fromUint256, hbit, hbit, hsecond, hconfig, hfirst, hnext]

namespace BridgeCallData

variable {x : BridgeCallData}

/-- Every field is read from its bits, the auxiliary data from 32 of theirs. -/
lemma fromUint256_toNat (v : Uint256) :
    (fromUint256 v).bridgeAddressId.toNat = v.toNat % 2 ^ 32 ∧
    (fromUint256 v).inputAssetIdA.toNat = v.toNat / 2 ^ 32 % 2 ^ 30 ∧
    (fromUint256 v).inputAssetIdB.toNat = v.toNat / 2 ^ 62 % 2 ^ 30 ∧
    (fromUint256 v).outputAssetIdA.toNat = v.toNat / 2 ^ 92 % 2 ^ 30 ∧
    (fromUint256 v).outputAssetIdB.toNat = v.toNat / 2 ^ 122 % 2 ^ 30 ∧
    (fromUint256 v).auxData.toNat = v.toNat / 2 ^ 184 % 2 ^ 32 := by
  have hfield (shift len : Nat) (hlen : len < 256) : (castUint32 (bits v shift len)).toNat =
      v.toNat / 2 ^ shift % 2 ^ len % 2 ^ 32 := by
    rw [castUint32_toNat, bits_toNat v shift len hlen]
  have hasset (shift : Nat) : (castUint32 (bits v shift 30)).toNat = v.toNat / 2 ^ shift % 2 ^ 30 := by
    rw [hfield shift 30 (by decide)]
    omega
  refine ⟨?_, hasset 32, hasset 62, hasset 92, hasset 122, ?_⟩
  · refine (hfield 0 32 (by decide)).trans ?_
    omega
  · have haux := hfield 184 64 (by decide)
    show (castUint32 (bits v 184 64)).toUInt64.toNat = _
    rw [UInt32.toNat_toUInt64, haux]
    omega

/-- The circuit packs every field at its bits. -/
lemma toSafeUint_eq (d : Circuit.BridgeCallData) : d.toSafeUint =
    d.bridgeAddressId + d.inputAssetIdA * 2 ^ 32 + d.inputAssetIdB * 2 ^ 62 + d.outputAssetIdA * 2 ^ 92 +
      d.outputAssetIdB * 2 ^ 122 +
      (d.config.secondInputInUse.toNat + d.config.secondOutputInUse.toNat * 2) * 2 ^ 152 +
      d.auxData * 2 ^ 184 := rfl

/-- So it does for the fields of a native call data. -/
lemma toSafeUint_toCircuit (x : BridgeCallData) : x.toCircuit.toSafeUint =
    x.bridgeAddressId.toNat + x.inputAssetIdA.toNat * 2 ^ 32 + x.inputAssetIdB.toNat * 2 ^ 62 +
      x.outputAssetIdA.toNat * 2 ^ 92 + x.outputAssetIdB.toNat * 2 ^ 122 +
      (x.config.secondInputInUse.toNat + x.config.secondOutputInUse.toNat * 2) * 2 ^ 152 +
      x.auxData.toNat * 2 ^ 184 := toSafeUint_eq x.toCircuit

/-- What the two functions make of each other: the packed number is that of the circuit. -/
lemma toUint256_eq (h : x.WithinLengths) :
    ∃ v, x.toUint256 = .ok v ∧ v.toNat = x.toCircuit.toSafeUint := by
  have h₁ := x.bridgeAddressId.toNat_lt
  have h₂ : x.inputAssetIdA.toNat < 2 ^ 30 := h.inputAssetIdA
  have h₃ : x.inputAssetIdB.toNat < 2 ^ 30 := h.inputAssetIdB
  have h₄ : x.outputAssetIdA.toNat < 2 ^ 30 := h.outputAssetIdA
  have h₅ : x.outputAssetIdB.toNat < 2 ^ 30 := h.outputAssetIdB
  have h₆ := x.auxData.toNat_lt
  have h₇ := x.config.secondInputInUse.toNat_le
  have h₈ := x.config.secondOutputInUse.toNat_le
  have hcheck (n : Nat) (hn : n < 2 ^ 30) : n >>> 30 = 0 := by
    rw [Nat.shiftRight_eq_div_pow, Nat.div_eq_of_lt hn]
  have hpart (n shift : Nat) (hn : n * 2 ^ shift < 2 ^ 256) :
      (BitVec.ofNat 256 n <<< shift).toNat = n * 2 ^ shift := by
    have hle : n ≤ n * 2 ^ shift := Nat.le_mul_of_pos_right n (Nat.two_pow_pos shift)
    have hsmall : (BitVec.ofNat 256 n).toNat = n := by
      rw [BitVec.toNat_ofNat]
      exact Nat.mod_eq_of_lt (Nat.lt_of_le_of_lt hle hn)
    rw [BitVec.toNat_shiftLeft, hsmall, Nat.shiftLeft_eq, Nat.mod_eq_of_lt hn]
  have hsafe := toSafeUint_toCircuit x
  refine ⟨_, if_neg (not_not.mpr ⟨hcheck _ h₂, hcheck _ h₃, hcheck _ h₄, hcheck _ h₅⟩), ?_⟩
  have hconfig := x.config.toUint256_toNat
  have p₁ : (BitVec.ofNat 256 x.bridgeAddressId.toNat).toNat = x.bridgeAddressId.toNat := by
    rw [BitVec.toNat_ofNat]
    omega
  have p₂ := hpart x.inputAssetIdA.toNat inputAssetIdAShift (show _ * 2 ^ 32 < _ by omega)
  have p₃ := hpart x.inputAssetIdB.toNat inputAssetIdBShift (show _ * 2 ^ 62 < _ by omega)
  have p₄ := hpart x.outputAssetIdA.toNat outputAssetIdAShift (show _ * 2 ^ 92 < _ by omega)
  have p₅ := hpart x.outputAssetIdB.toNat outputAssetIdBShift (show _ * 2 ^ 122 < _ by omega)
  have p₆ := hpart x.auxData.toNat auxDataShift (show _ * 2 ^ 184 < _ by omega)
  have s₂ : 2 ^ inputAssetIdAShift = 2 ^ 32 := rfl
  have s₃ : 2 ^ inputAssetIdBShift = 2 ^ 62 := rfl
  have s₄ : 2 ^ outputAssetIdAShift = 2 ^ 92 := rfl
  have s₅ : 2 ^ outputAssetIdBShift = 2 ^ 122 := rfl
  have s₆ : 2 ^ auxDataShift = 2 ^ 184 := rfl
  rw [s₂] at p₂
  rw [s₃] at p₃
  rw [s₄] at p₄
  rw [s₅] at p₅
  rw [s₆] at p₆
  -- no sum reaches the modulus
  simp only [BitVec.toNat_add, hconfig, p₁, p₂, p₃, p₄, p₅, p₆]
  rw [hsafe]
  omega

/-! ## Round trips -/

/-- A bit is a remainder. -/
lemma beq_one_toNat (n : Nat) : (n % 2 == 1).toNat = n % 2 := by
  rcases Nat.mod_two_eq_zero_or_one n with hzero | hone
  · rw [hzero]
    rfl
  · rw [hone]
    rfl

/-- What is read fits its lengths. -/
lemma withinLengths_fromUint256 (v : Uint256) : (fromUint256 v).WithinLengths := by
  obtain ⟨-, h₂, h₃, h₄, h₅, -⟩ := fromUint256_toNat v
  have hlt (n : Nat) : n % 2 ^ 30 < 2 ^ 30 := Nat.mod_lt n (by decide)
  exact ⟨h₂ ▸ hlt _, h₃ ▸ hlt _, h₄ ▸ hlt _, h₅ ▸ hlt _⟩

/-- The members of a number that a circuit packs. -/
lemma members_toSafeUint {d : Circuit.BridgeCallData} (h : d.WithinLengths) {n : Nat}
    (hn : n = d.toSafeUint) : n % 2 ^ 32 = d.bridgeAddressId ∧ n / 2 ^ 32 % 2 ^ 30 = d.inputAssetIdA ∧
      n / 2 ^ 62 % 2 ^ 30 = d.inputAssetIdB ∧ n / 2 ^ 92 % 2 ^ 30 = d.outputAssetIdA ∧
      n / 2 ^ 122 % 2 ^ 30 = d.outputAssetIdB ∧ n / 2 ^ 152 % 2 = d.config.secondInputInUse.toNat ∧
      n / 2 ^ 153 % 2 = d.config.secondOutputInUse.toNat ∧ n / 2 ^ 184 = d.auxData := by
  have h₁ : d.bridgeAddressId < 2 ^ 32 := h.bridgeAddressId
  have h₂ : d.inputAssetIdA < 2 ^ 30 := h.inputAssetIdA
  have h₃ : d.inputAssetIdB < 2 ^ 30 := h.inputAssetIdB
  have h₄ : d.outputAssetIdA < 2 ^ 30 := h.outputAssetIdA
  have h₅ : d.outputAssetIdB < 2 ^ 30 := h.outputAssetIdB
  have h₆ : d.auxData < 2 ^ 64 := h.auxData
  have h₇ := d.config.secondInputInUse.toNat_le
  have h₈ := d.config.secondOutputInUse.toNat_le
  have hsafe := toSafeUint_eq d
  refine ⟨?_, ?_, ?_, ?_, ?_, ?_, ?_, ?_⟩ <;> omega

/-- Fields that fit natively fit in the circuit. -/
lemma withinLengths_toCircuit (h : x.WithinLengths) : x.toCircuit.WithinLengths :=
  ⟨x.bridgeAddressId.toNat_lt, h.inputAssetIdA, h.inputAssetIdB, h.outputAssetIdA, h.outputAssetIdB,
    x.auxData.toNat_lt⟩

/-- A number is packed again as it was. -/
def RoundTrips (v : Uint256) : Prop := (fromUint256 v).toUint256 = .ok v

/-- The fields are recovered from the number, which is the one that a circuit packs. -/
def Recovered (x : BridgeCallData) : Prop :=
  ∃ v, x.toUint256 = .ok v ∧ fromUint256 v = x ∧ v.toNat = x.toCircuit.toSafeUint

/-- What fits is packed into 256 bits. -/
lemma toSafeUint_lt {d : Circuit.BridgeCallData} (h : d.WithinLengths) : d.toSafeUint < 2 ^ 256 := by
  have h₆ : d.auxData < 2 ^ 64 := h.auxData
  obtain ⟨-, -, -, -, -, -, -, haux⟩ := members_toSafeUint h rfl
  rw [← haux, Nat.div_lt_iff_lt_mul (by decide)] at h₆
  exact Nat.lt_trans h₆ (by decide)

/-- Of the number, the upper half of the auxiliary data is lost. -/
lemma roundTrips_iff {d : Circuit.BridgeCallData} (h : d.WithinLengths) :
    RoundTrips (BitVec.ofNat 256 d.toSafeUint) ↔ d.auxData < 2 ^ 32 := by
  have hv : (BitVec.ofNat 256 d.toSafeUint).toNat = d.toSafeUint := by
    rw [BitVec.toNat_ofNat, Nat.mod_eq_of_lt (toSafeUint_lt h)]
  obtain ⟨f₁, f₂, f₃, f₄, f₅, f₆⟩ := fromUint256_toNat (BitVec.ofNat 256 d.toSafeUint)
  have hconfig : (fromUint256 (BitVec.ofNat 256 d.toSafeUint)).config = _ := BitConfig.fromUint256_eq _
  obtain ⟨m₁, m₂, m₃, m₄, m₅, m₆, m₇, m₈⟩ := members_toSafeUint h hv
  obtain ⟨w, hw, hpacked⟩ := toUint256_eq (withinLengths_fromUint256 (BitVec.ofNat 256 d.toSafeUint))
  rw [toSafeUint_toCircuit, f₁, f₂, f₃, f₄, f₅, f₆, hconfig, beq_one_toNat, beq_one_toNat, m₁, m₂, m₃,
    m₄, m₅, m₆, m₇, m₈] at hpacked
  rw [RoundTrips, hw, Except.ok.injEq, ← BitVec.toNat_inj, hv, hpacked, toSafeUint_eq]
  constructor
  · intro heq
    omega
  · intro haux
    rw [Nat.mod_eq_of_lt haux]

/-- Fields that fit are recovered exactly when the auxiliary data have 32 bits. -/
lemma recovered_iff (h : x.WithinLengths) : x.Recovered ↔ x.auxData.toNat < 2 ^ 32 := by
  obtain ⟨v, hv, hpacked⟩ := toUint256_eq h
  obtain ⟨f₁, f₂, f₃, f₄, f₅, f₆⟩ := fromUint256_toNat v
  have hconfig : (fromUint256 v).config = _ := BitConfig.fromUint256_eq v
  obtain ⟨m₁, m₂, m₃, m₄, m₅, m₆, m₇, m₈⟩ := members_toSafeUint (withinLengths_toCircuit h) hpacked
  have hbit (b : Bool) : (b.toNat == 1) = b := by cases b <;> rfl
  rw [m₆, m₇, hbit, hbit] at hconfig
  rw [m₁] at f₁
  rw [m₂] at f₂
  rw [m₃] at f₃
  rw [m₄] at f₄
  rw [m₅] at f₅
  rw [m₈] at f₆
  constructor
  · rintro ⟨v', hv', heq, -⟩
    obtain rfl := Except.ok.inj (hv'.symm.trans hv)
    rw [← heq, f₆]
    exact Nat.mod_lt _ (by decide)
  · intro haux
    rw [show x.toCircuit.auxData = x.auxData.toNat from rfl, Nat.mod_eq_of_lt haux] at f₆
    refine ⟨v, hv, ?_, hpacked⟩
    cases hx : fromUint256 v with
    | mk bridgeAddressId inputAssetIdA inputAssetIdB outputAssetIdA outputAssetIdB config auxData =>
      rw [hx] at f₁ f₂ f₃ f₄ f₅ f₆ hconfig
      obtain rfl : bridgeAddressId = x.bridgeAddressId := UInt32.toNat_inj.mp f₁
      obtain rfl : inputAssetIdA = x.inputAssetIdA := UInt32.toNat_inj.mp f₂
      obtain rfl : inputAssetIdB = x.inputAssetIdB := UInt32.toNat_inj.mp f₃
      obtain rfl : outputAssetIdA = x.outputAssetIdA := UInt32.toNat_inj.mp f₄
      obtain rfl : outputAssetIdB = x.outputAssetIdB := UInt32.toNat_inj.mp f₅
      obtain rfl : auxData = x.auxData := UInt64.toNat_inj.mp f₆
      obtain rfl : config = x.config := hconfig
      rfl

/-- The auxiliary data has to fit into 32 bits, in a number that a circuit packs and in the fields. -/
theorem fromUint256_toUint256_iff {d : Circuit.BridgeCallData} (hd : d.WithinLengths)
    {x : BridgeCallData} (hx : x.WithinLengths) :
    (RoundTrips (BitVec.ofNat 256 d.toSafeUint) ↔ d.auxData < 2 ^ 32) ∧
      (x.Recovered ↔ x.auxData.toNat < 2 ^ 32) :=
  ⟨roundTrips_iff hd, recovered_iff hx⟩

/-- A call data with short auxiliary data. -/
theorem fromUint256_toUint256_iff_sample :
    (RoundTrips
        (BitVec.ofNat 256 (⟨3, 1, 2, 4, 5, ⟨true, true⟩, 7⟩ : Circuit.BridgeCallData).toSafeUint) ↔
      7 < 2 ^ 32) ∧
    ((⟨3, 1, 2, 4, 5, ⟨true, true⟩, 7⟩ : BridgeCallData).Recovered ↔ 7 < 2 ^ 32) :=
  fromUint256_toUint256_iff
    ⟨by decide, by decide, by decide, by decide, by decide, by decide⟩
    ⟨by decide, by decide, by decide, by decide⟩

/-- Auxiliary data of one bit, the upper half's first. -/
theorem not_fromUint256_toUint256 : ¬
    ((∀ d : Circuit.BridgeCallData, d.WithinLengths → RoundTrips (BitVec.ofNat 256 d.toSafeUint)) ∧
    ∀ x : BridgeCallData, x.WithinLengths → x.Recovered) := by
  rintro ⟨-, hall⟩
  let x : BridgeCallData := ⟨0, 0, 0, 1, 0, ⟨false, false⟩, 2 ^ 32⟩
  have hwithin : x.WithinLengths := ⟨by decide, by decide, by decide, by decide⟩
  exact absurd ((recovered_iff hwithin).mp (hall x hwithin)) (by decide)

end BridgeCallData

end Native

end AztecConnect.Circuit
