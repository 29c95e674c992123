import AztecConnect.Client.Serialize

/-!
# Blocks

Translation of `barretenberg.js/src/block_source` (`block.ts` and `defi_interaction_event.ts`) and of
the serialising of `TxHash` and `BridgeCallData`. Decoding a serialised block, in whatever buffer it
stands, gives the block, and goes exactly to its end (`Block.decodes_toBuffer`).
-/

namespace AztecConnect.Client

open ByteFormat Serialize

/-! ## Transaction hashes and bridge call data -/

/-- `TxHash.deserialize`. -/
def TxHash.deserialize : Decoder Bytes := fun buffer offset =>
  let hash := slice buffer offset (offset + 32)
  if hash.length ≠ 32 then .error "Invalid hash buffer." else .ok (hash, 32)

namespace BridgeCallData

/-- `BridgeCallData.toBuffer`. -/
def toBuffer (d : BridgeCallData) : Bytes := Serialize.toBufferBE d.toBigInt 32

/-- `BridgeCallData.fromBuffer`. -/
def fromBuffer (buf : Bytes) : Except String BridgeCallData :=
  if buf.length ≠ 32 then .error "Invalid buffer." else fromBigInt (toBigIntBE buf)

/-- The members have the bits of the layout. -/
structure WithinLengths (d : BridgeCallData) : Prop where
  bridgeAddressId : d.bridgeAddressId < 2 ^ ADDRESS_BIT_LEN
  inputAssetIdA : d.inputAssetIdA < 2 ^ INPUT_ASSET_ID_A_LEN
  outputAssetIdA : d.outputAssetIdA < 2 ^ OUTPUT_ASSET_ID_A_LEN
  inputAssetIdB : ∀ a ∈ d.inputAssetIdB, a < 2 ^ INPUT_ASSET_ID_B_LEN
  outputAssetIdB : ∀ a ∈ d.outputAssetIdB, a < 2 ^ OUTPUT_ASSET_ID_B_LEN
  auxData : d.auxData < 2 ^ AUX_DATA_LEN

end BridgeCallData

/-! ## Interaction events -/

/-- `DefiInteractionEvent`. -/
structure DefiInteractionEvent where
  bridgeCallData : BridgeCallData
  nonce : Nat
  totalInputValue : Nat
  totalOutputValueA : Nat
  totalOutputValueB : Nat
  result : Bool
  errorReason : Bytes
  deriving DecidableEq

namespace DefiInteractionEvent

/-- `DefiInteractionEvent.toBuffer`. -/
def toBuffer (e : DefiInteractionEvent) : Except String Bytes := do
  let nonce ← Serialize.numToUInt32BE e.nonce
  let errorReason ← serializeBufferToVector e.errorReason
  .ok [e.bridgeCallData.toBuffer, serializeBigInt e.totalInputValue,
    serializeBigInt e.totalOutputValueA, serializeBigInt e.totalOutputValueB, nonce,
    boolToByte e.result, errorReason].flatten

/-- `DefiInteractionEvent.deserialize`. -/
def deserialize : Decoder DefiInteractionEvent := fun buffer offset => do
  let des := offset
  let (bridgeCallDataBuffer, des) ← Deserializer.buffer 32 buffer des
  let bridgeCallData ← BridgeCallData.fromBuffer bridgeCallDataBuffer
  let (totalInputValue, des) ← exec (deserializeBigInt 32) buffer des
  let (totalOutputValueA, des) ← exec (deserializeBigInt 32) buffer des
  let (totalOutputValueB, des) ← exec (deserializeBigInt 32) buffer des
  let (nonce, des) ← exec deserializeUInt32 buffer des
  let (result, des) ← Deserializer.bool buffer des
  let (errorReason, des) ← exec deserializeBufferFromVector buffer des
  .ok (⟨bridgeCallData, nonce, totalInputValue, totalOutputValueA, totalOutputValueB, result,
    errorReason⟩, des - offset)

/-- The numbers have the widths that are written. -/
structure WellFormed (e : DefiInteractionEvent) : Prop where
  bridgeCallData : e.bridgeCallData.WithinLengths
  nonce : e.nonce < 2 ^ 32
  totalInputValue : e.totalInputValue < 2 ^ 256
  totalOutputValueA : e.totalOutputValueA < 2 ^ 256
  totalOutputValueB : e.totalOutputValueB < 2 ^ 256
  errorReason : e.errorReason.length < 2 ^ 32

end DefiInteractionEvent

/-! ## Blocks -/

/-- `Block`. -/
structure Block where
  txHash : Bytes
  /-- In milliseconds. -/
  mined : Nat
  rollupId : Nat
  rollupSize : Nat
  encodedRollupProofData : Bytes
  offchainTxData : List Bytes
  interactionResult : List DefiInteractionEvent
  gasUsed : Nat
  gasPrice : Nat
  subtreeRoot : Option Bytes
  deriving DecidableEq

namespace Block

/-- `Block.toBuffer`. -/
def toBuffer (b : Block) : Except String Bytes := do
  let rollupId ← Serialize.numToUInt32BE b.rollupId
  let rollupSize ← Serialize.numToUInt32BE b.rollupSize
  let encodedRollupProofData ← serializeBufferToVector b.encodedRollupProofData
  let offchainTxData ← b.offchainTxData.mapM serializeBufferToVector >>= serializeBufferArrayToVector
  let interactionResult ←
    b.interactionResult.mapM DefiInteractionEvent.toBuffer >>= serializeBufferArrayToVector
  let gasUsed ← Serialize.numToUInt32BE b.gasUsed
  let subtreeRoot ← serializeBufferToVector (b.subtreeRoot.getD [])
  .ok [b.txHash, serializeDate b.mined, rollupId, rollupSize, encodedRollupProofData,
    offchainTxData, interactionResult, gasUsed, serializeBigInt b.gasPrice, subtreeRoot].flatten

/-- `Block.deserialize`. -/
def deserialize : Decoder Block := fun buf offset => do
  let des := offset
  let (txHash, des) ← exec TxHash.deserialize buf des
  let (mined, des) ← exec (deserializeBigInt 8) buf des
  let (rollupId, des) ← exec deserializeUInt32 buf des
  let (rollupSize, des) ← exec deserializeUInt32 buf des
  let (rollupProofData, des) ← exec deserializeBufferFromVector buf des
  let (offchainTxData, des) ← exec (deserializeArrayFromVector deserializeBufferFromVector) buf des
  let (interactionResult, des) ←
    exec (deserializeArrayFromVector DefiInteractionEvent.deserialize) buf des
  let (gasUsed, des) ← exec deserializeUInt32 buf des
  let (gasPrice, des) ← exec (deserializeBigInt 32) buf des
  let (subtreeRoot, des) ← exec deserializeBufferFromVector buf des
  .ok (⟨txHash, mined, rollupId, rollupSize, rollupProofData, offchainTxData, interactionResult,
    gasUsed, gasPrice, if subtreeRoot = [] then none else some subtreeRoot⟩, des - offset)

/-- `Block.fromBuffer`. -/
def fromBuffer (buf : Bytes) : Except String Block := do
  let (elem, _) ← deserialize buf 0
  .ok elem

/-- The latest time that is a date. -/
def MAX_TIME : Nat := 8640000000000000

/-- A hash has 32 bytes, a root is not empty, a number has the width that is written, and buffers and
arrays are as long as they can be. -/
structure WellFormed (b : Block) : Prop where
  txHash : b.txHash.length = 32
  mined : b.mined ≤ MAX_TIME
  rollupId : b.rollupId < 2 ^ 32
  rollupSize : b.rollupSize < 2 ^ 32
  encodedRollupProofData : b.encodedRollupProofData.length < 2 ^ 32
  numOffchainTxData : b.offchainTxData.length < 2 ^ 32
  offchainTxData : ∀ data ∈ b.offchainTxData, data.length < 2 ^ 32
  numInteractions : b.interactionResult.length < 2 ^ 32
  interactionResult : ∀ e ∈ b.interactionResult, e.WellFormed
  gasUsed : b.gasUsed < 2 ^ 32
  gasPrice : b.gasPrice < 2 ^ 256
  subtreeRoot : ∀ root ∈ b.subtreeRoot, root ≠ [] ∧ root.length < 2 ^ 32

end Block

/-! ## What is decoded -/

/-- A hash of 32 bytes is read back. -/
lemma TxHash.decodes {hash : Bytes} (h : hash.length = 32) : Decodes TxHash.deserialize hash hash := by
  intro buf offset hat
  have hslice := hat.slice
  rw [h] at hslice
  rw [TxHash.deserialize, hslice, if_neg (not_not.mpr h), h]

/-- So is a word. -/
lemma decodes_serializeBigInt {n : Nat} (h : n < 2 ^ 256) :
    Decodes (deserializeBigInt 32) (serializeBigInt n) n := by
  rw [serializeBigInt, Serialize.toBufferBE_eq h]
  exact decodes_deserializeBigInt h

/-- So is a date. -/
lemma decodes_serializeDate {date : Nat} (h : date ≤ Block.MAX_TIME) :
    Decodes (deserializeBigInt 8) (serializeDate date) date := by
  have hlt : date < 256 ^ 8 := Nat.lt_of_le_of_lt h (by decide)
  rw [serializeDate, serializeBigInt, Serialize.toBufferBE_eq hlt]
  exact decodes_deserializeBigInt hlt

namespace BridgeCallData

variable {d : BridgeCallData}

/-- The members of the number, each at its offset. -/
lemma members_toBigInt (h : d.WithinLengths) {n : Nat} (hn : n = d.toBigInt) :
    n % 2 ^ 32 = d.bridgeAddressId ∧ n / 2 ^ 32 % 2 ^ 30 = d.inputAssetIdA ∧
      n / 2 ^ 62 % 2 ^ 30 = d.inputAssetIdB.getD 0 ∧ n / 2 ^ 92 % 2 ^ 30 = d.outputAssetIdA ∧
      n / 2 ^ 122 % 2 ^ 30 = d.outputAssetIdB.getD 0 ∧
      n / 2 ^ 152 % 2 = d.inputAssetIdB.isSome.toNat ∧
      n / 2 ^ 153 % 2 = d.outputAssetIdB.isSome.toNat ∧ n / 2 ^ 184 = d.auxData := by
  have hgetD {a : Option Nat} (ha : ∀ v ∈ a, v < 2 ^ 30) : a.getD 0 < 2 ^ 30 := by
    cases a with
    | none => exact Nat.two_pow_pos 30
    | some v => exact ha v rfl
  have h₁ : d.bridgeAddressId < 2 ^ 32 := h.bridgeAddressId
  have h₂ : d.inputAssetIdA < 2 ^ 30 := h.inputAssetIdA
  have h₃ := hgetD h.inputAssetIdB
  have h₄ : d.outputAssetIdA < 2 ^ 30 := h.outputAssetIdA
  have h₅ := hgetD h.outputAssetIdB
  have h₆ : d.auxData < 2 ^ 64 := h.auxData
  have h₇ := d.inputAssetIdB.isSome.toNat_le
  have h₈ := d.outputAssetIdB.isSome.toNat_le
  have hsum := d.toBigInt_eq
  refine ⟨?_, ?_, ?_, ?_, ?_, ?_, ?_, ?_⟩ <;> omega

/-- A call data within its lengths fits a word. -/
lemma toBigInt_lt (h : d.WithinLengths) : d.toBigInt < 2 ^ 256 := by
  have haux : d.auxData < 2 ^ 64 := h.auxData
  obtain ⟨-, -, -, -, -, -, -, hlast⟩ := members_toBigInt h rfl
  rw [← hlast, Nat.div_lt_iff_lt_mul (by decide)] at haux
  exact Nat.lt_trans haux (by decide)

/-- It is read back from the word. -/
lemma fromBigInt_toBigInt (h : d.WithinLengths) : fromBigInt d.toBigInt = .ok d := by
  have haux : d.auxData < 2 ^ 64 := h.auxData
  obtain ⟨m₁, m₂, m₃, m₄, m₅, m₆, m₇, m₈⟩ := members_toBigInt h rfl
  have hfirst : extractBigInt d.toBigInt BITCONFIG_OFFSET BITCONFIG_LEN % 2 =
      d.inputAssetIdB.isSome.toNat := by
    rw [extractBigInt_eq, ← m₆]
    exact Nat.mod_mod_of_dvd _ (by decide)
  have hsecond : extractBigInt d.toBigInt BITCONFIG_OFFSET BITCONFIG_LEN / 2 % 2 =
      d.outputAssetIdB.isSome.toNat := by
    rw [extractBigInt_eq, ← m₇]
    show d.toBigInt / 2 ^ 152 % 2 ^ 32 / 2 % 2 = _
    omega
  have hbit (b : Bool) : (b.toNat == 1) = b := by cases b <;> rfl
  have hconfig : BitConfig.fromBigInt (extractBigInt d.toBigInt BITCONFIG_OFFSET BITCONFIG_LEN) =
      ⟨d.inputAssetIdB.isSome, d.outputAssetIdB.isSome⟩ := by
    rw [BitConfig.fromBigInt_eq, hfirst, hsecond, hbit, hbit]
  have e₁ : extractBigInt d.toBigInt ADDRESS_OFFSET ADDRESS_BIT_LEN = d.bridgeAddressId := by
    rw [extractBigInt_eq, ← m₁]
    exact congrArg (· % 2 ^ 32) (Nat.div_one _)
  have e₂ : extractBigInt d.toBigInt INPUT_ASSET_ID_A_OFFSET INPUT_ASSET_ID_A_LEN = d.inputAssetIdA :=
    (extractBigInt_eq _ _ _).trans m₂
  have e₃ : extractBigInt d.toBigInt INPUT_ASSET_ID_B_OFFSET INPUT_ASSET_ID_B_LEN =
      d.inputAssetIdB.getD 0 := (extractBigInt_eq _ _ _).trans m₃
  have e₄ : extractBigInt d.toBigInt OUTPUT_ASSET_ID_A_OFFSET OUTPUT_ASSET_ID_A_LEN =
      d.outputAssetIdA := (extractBigInt_eq _ _ _).trans m₄
  have e₅ : extractBigInt d.toBigInt OUTPUT_ASSET_ID_B_OFFSET OUTPUT_ASSET_ID_B_LEN =
      d.outputAssetIdB.getD 0 := (extractBigInt_eq _ _ _).trans m₅
  have e₆ : extractBigInt d.toBigInt AUX_DATA_OFFSET AUX_DATA_LEN = d.auxData := by
    rw [extractBigInt_eq]
    show d.toBigInt / 2 ^ 184 % 2 ^ 64 = _
    rw [m₈, Nat.mod_eq_of_lt haux]
  unfold fromBigInt
  rw [e₁, e₂, e₃, e₄, e₅, e₆, hconfig]
  obtain ⟨bridgeAddressId, inputAssetIdA, outputAssetIdA, inputAssetIdB, outputAssetIdB, auxData⟩ := d
  cases inputAssetIdB <;> cases outputAssetIdB <;> rfl

/-- It is written to 32 bytes. -/
lemma length_toBuffer (h : d.WithinLengths) : d.toBuffer.length = 32 := by
  rw [toBuffer, Serialize.toBufferBE_eq (toBigInt_lt h), length_beBytes]

/-- And read back from them. -/
lemma fromBuffer_toBuffer (h : d.WithinLengths) : fromBuffer d.toBuffer = .ok d := by
  rw [fromBuffer, if_neg (not_not.mpr (length_toBuffer h)), toBuffer,
    Serialize.toBufferBE_eq (toBigInt_lt h), toBigIntBE, beNat_beBytes (toBigInt_lt h),
    fromBigInt_toBigInt h]

end BridgeCallData

/-- A well-formed event is read back. -/
lemma DefiInteractionEvent.decodes_event {e : DefiInteractionEvent} (h : e.WellFormed) :
    ∃ bytes, e.toBuffer = .ok bytes ∧ Decodes deserialize bytes e := by
  have hdata := BridgeCallData.length_toBuffer h.bridgeCallData
  refine ⟨[e.bridgeCallData.toBuffer, serializeBigInt e.totalInputValue,
    serializeBigInt e.totalOutputValueA, serializeBigInt e.totalOutputValueB, beBytes 4 e.nonce,
    boolToByte e.result, beBytes 4 e.errorReason.length ++ e.errorReason].flatten, ?_, ?_⟩
  · rw [toBuffer, numToUInt32BE_eq h.nonce, serializeBufferToVector_eq h.errorReason]
    rfl
  · intro buf offset hat
    obtain ⟨h₁, hat⟩ := at_flatten_cons.mp hat
    obtain ⟨h₂, hat⟩ := at_flatten_cons.mp hat
    obtain ⟨h₃, hat⟩ := at_flatten_cons.mp hat
    obtain ⟨h₄, hat⟩ := at_flatten_cons.mp hat
    obtain ⟨h₅, hat⟩ := at_flatten_cons.mp hat
    obtain ⟨h₆, hat⟩ := at_flatten_cons.mp hat
    obtain ⟨h₇, -⟩ := at_flatten_cons.mp hat
    refine (bind_of_ok (buffer_eq hdata h₁) _).trans ?_
    refine (bind_of_ok (BridgeCallData.fromBuffer_toBuffer h.bridgeCallData) _).trans ?_
    refine (exec_bind (decodes_serializeBigInt h.totalInputValue) h₂ _).trans ?_
    refine (exec_bind (decodes_serializeBigInt h.totalOutputValueA) h₃ _).trans ?_
    refine (exec_bind (decodes_serializeBigInt h.totalOutputValueB) h₄ _).trans ?_
    refine (exec_bind (decodes_deserializeUInt32 h.nonce) h₅ _).trans ?_
    refine (bind_of_ok (bool_eq h₆) _).trans ?_
    refine (exec_bind (decodes_deserializeBufferFromVector h.errorReason) h₇ _).trans ?_
    refine congrArg (fun adv => Except.ok (e, adv)) ?_
    simp only [List.flatten_cons, List.flatten_nil, List.length_append, List.length_nil]
    omega

/-- Wherever a serialised block stands, it is decoded, and nothing but its bytes is passed over. -/
theorem Block.decodes_toBuffer {b : Block} (h : b.WellFormed) :
    ∃ bytes, b.toBuffer = .ok bytes ∧ fromBuffer bytes = .ok b ∧ Decodes deserialize bytes b := by
  obtain ⟨offchainTxData, hoffchain, hoffchain'⟩ := array_decodes h.numOffchainTxData fun data hdata =>
    ⟨_, serializeBufferToVector_eq (h.offchainTxData data hdata),
      decodes_deserializeBufferFromVector (h.offchainTxData data hdata)⟩
  obtain ⟨interactionResult, hevents, hevents'⟩ := array_decodes h.numInteractions fun e he =>
    DefiInteractionEvent.decodes_event (h.interactionResult e he)
  have hroot : (b.subtreeRoot.getD []).length < 2 ^ 32 := by
    cases hb : b.subtreeRoot with
    | none => exact Nat.two_pow_pos 32
    | some root => exact (h.subtreeRoot root hb).2
  have hsubtree : (if b.subtreeRoot.getD [] = [] then none else some (b.subtreeRoot.getD [])) =
      b.subtreeRoot := by
    cases hb : b.subtreeRoot with
    | none => rfl
    | some root => exact if_neg (h.subtreeRoot root hb).1
  let bytes := [b.txHash, serializeDate b.mined, beBytes 4 b.rollupId, beBytes 4 b.rollupSize,
    beBytes 4 b.encodedRollupProofData.length ++ b.encodedRollupProofData, offchainTxData,
    interactionResult, beBytes 4 b.gasUsed, serializeBigInt b.gasPrice,
    beBytes 4 (b.subtreeRoot.getD []).length ++ b.subtreeRoot.getD []].flatten
  have hbytes : b.toBuffer = .ok bytes := by
    rw [toBuffer, numToUInt32BE_eq h.rollupId, numToUInt32BE_eq h.rollupSize,
      serializeBufferToVector_eq h.encodedRollupProofData, hoffchain, hevents,
      numToUInt32BE_eq h.gasUsed, serializeBufferToVector_eq hroot]
    rfl
  have hdecodes : Decodes deserialize bytes b := by
    intro buf offset hat
    obtain ⟨h₁, hat⟩ := at_flatten_cons.mp hat
    obtain ⟨h₂, hat⟩ := at_flatten_cons.mp hat
    obtain ⟨h₃, hat⟩ := at_flatten_cons.mp hat
    obtain ⟨h₄, hat⟩ := at_flatten_cons.mp hat
    obtain ⟨h₅, hat⟩ := at_flatten_cons.mp hat
    obtain ⟨h₆, hat⟩ := at_flatten_cons.mp hat
    obtain ⟨h₇, hat⟩ := at_flatten_cons.mp hat
    obtain ⟨h₈, hat⟩ := at_flatten_cons.mp hat
    obtain ⟨h₉, hat⟩ := at_flatten_cons.mp hat
    obtain ⟨h₁₀, -⟩ := at_flatten_cons.mp hat
    refine (exec_bind (TxHash.decodes h.txHash) h₁ _).trans ?_
    refine (exec_bind (decodes_serializeDate h.mined) h₂ _).trans ?_
    refine (exec_bind (decodes_deserializeUInt32 h.rollupId) h₃ _).trans ?_
    refine (exec_bind (decodes_deserializeUInt32 h.rollupSize) h₄ _).trans ?_
    refine (exec_bind (decodes_deserializeBufferFromVector h.encodedRollupProofData) h₅ _).trans ?_
    refine (exec_bind hoffchain' h₆ _).trans ?_
    refine (exec_bind hevents' h₇ _).trans ?_
    refine (exec_bind (decodes_deserializeUInt32 h.gasUsed) h₈ _).trans ?_
    refine (exec_bind (decodes_serializeBigInt h.gasPrice) h₉ _).trans ?_
    refine (exec_bind (decodes_deserializeBufferFromVector hroot) h₁₀ _).trans ?_
    dsimp only
    rw [hsubtree]
    refine congrArg (fun adv => Except.ok (b, adv)) ?_
    simp only [bytes, List.flatten_cons, List.flatten_nil, List.length_append, List.length_nil]
    omega
  refine ⟨bytes, hbytes, ?_, hdecodes⟩
  rw [fromBuffer, hdecodes bytes 0 (at_zero bytes)]
  rfl

namespace Sample

/-- Two offchain buffers, one of them empty, an interaction with a reason, and a root. -/
def block : Block where
  txHash := List.replicate 32 7
  mined := 1670000000000
  rollupId := 5
  rollupSize := 2
  encodedRollupProofData := [1, 2, 3]
  offchainTxData := [[4, 5], []]
  interactionResult := [⟨⟨3, 0, 1, none, some (2 ^ 29), 2 ^ 63⟩, 160, 1000, 2 ^ 255, 0, false, [9, 9]⟩]
  gasUsed := 400000
  gasPrice := 2 ^ 200
  subtreeRoot := some (List.replicate 32 8)

end Sample

/-- A block with a rollup and an event. -/
theorem Block.decodes_toBuffer_sample :
    ∃ bytes, Sample.block.toBuffer = .ok bytes ∧ fromBuffer bytes = .ok Sample.block ∧
      Decodes deserialize bytes Sample.block :=
  decodes_toBuffer {
    txHash := by decide
    mined := by decide
    rollupId := by decide
    rollupSize := by decide
    encodedRollupProofData := by decide
    numOffchainTxData := by decide
    offchainTxData := by decide
    numInteractions := by decide
    interactionResult := fun e he => by
      rw [List.mem_singleton.mp he]
      exact ⟨⟨by decide, by decide, by decide, by decide, by decide, by decide⟩, by decide, by decide,
        by decide, by decide, by decide⟩
    gasUsed := by decide
    gasPrice := by decide
    subtreeRoot := by decide }

end AztecConnect.Client
