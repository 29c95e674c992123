import AztecConnect.Client.InnerProofData

/-!
# Rollup proof data

Translation of `barretenberg.js/src/rollup_proof/rollup_proof_data.ts`. The header has 142 fields of 32
bytes. Behind it `toBuffer` writes all inner proofs, and `encode` those up to the last that is no
padding, each in the fields of its type. Both are read back (`roundTrips`). The hashes that a proof
keeps once they have been computed are computed each time.
-/

namespace AztecConnect.Client.RollupProof

open ByteFormat Serialize

/-! ## The header -/

def NUM_FEE_ASSETS_PER_BLOCK : Nat := 16
def NUM_BRIDGE_CALLS_PER_BLOCK : Nat := 32

namespace RollupProofDataFields

def ROLLUP_ID : Nat := 0
def ROLLUP_SIZE : Nat := 1
def DATA_START_INDEX : Nat := 2
def OLD_DATA_ROOT : Nat := 3
def NEW_DATA_ROOT : Nat := 4
def OLD_NULL_ROOT : Nat := 5
def NEW_NULL_ROOT : Nat := 6
def OLD_ROOT_ROOT : Nat := 7
def NEW_ROOT_ROOT : Nat := 8
def OLD_DEFI_ROOT : Nat := 9
def NEW_DEFI_ROOT : Nat := 10
def BRIDGE_CALL_DATAS : Nat := 11
def DEFI_DEPOSIT_SUMS : Nat := BRIDGE_CALL_DATAS + NUM_BRIDGE_CALLS_PER_BLOCK
def FEE_ASSET_IDS : Nat := DEFI_DEPOSIT_SUMS + NUM_BRIDGE_CALLS_PER_BLOCK
def FEE_SUMS : Nat := FEE_ASSET_IDS + NUM_FEE_ASSETS_PER_BLOCK
def DEFI_INTERACTIONS : Nat := FEE_SUMS + NUM_FEE_ASSETS_PER_BLOCK
def PREV_DEFI_INTERACTION_HASH : Nat := DEFI_INTERACTIONS + NUM_BRIDGE_CALLS_PER_BLOCK
def ROLLUP_BENEFICIARY : Nat := PREV_DEFI_INTERACTION_HASH + 1
def NUM_ROLLUP_TXS : Nat := ROLLUP_BENEFICIARY + 1

end RollupProofDataFields

open RollupProofDataFields

/-- What `parseHeaderInputs` returns. -/
structure HeaderInputs where
  rollupId : Nat
  rollupSize : Nat
  dataStartIndex : Nat
  oldDataRoot : Bytes
  newDataRoot : Bytes
  oldNullRoot : Bytes
  newNullRoot : Bytes
  oldDataRootsRoot : Bytes
  newDataRootsRoot : Bytes
  oldDefiRoot : Bytes
  newDefiRoot : Bytes
  bridgeCallDatas : List Bytes
  defiDepositSums : List Nat
  assetIds : List Nat
  totalTxFees : List Nat
  defiInteractionNotes : List Bytes
  prevDefiInteractionHash : Bytes
  rollupBeneficiary : Bytes
  numRollupTxs : Nat
  deriving DecidableEq

/-- The field of a buffer that consists of fields. -/
def field (proofData : Bytes) (i : Nat) : Bytes := slice proofData (i * 32) (i * 32 + 32)

/-- The low four bytes of the `i`-th word. -/
def uint32 (proofData : Bytes) (i : Nat) : Except String Nat := readUInt32BE proofData (i * 32 + 28)

/-- `parseHeaderInputs`: the fields of the header at their word indices. -/
def parseHeaderInputs (proofData : Bytes) : Except String HeaderInputs := do
  let rollupId ← uint32 proofData ROLLUP_ID
  let rollupSize ← uint32 proofData ROLLUP_SIZE
  let dataStartIndex ← uint32 proofData DATA_START_INDEX
  let assetIds ← (List.range NUM_FEE_ASSETS_PER_BLOCK).mapM fun i => uint32 proofData (FEE_ASSET_IDS + i)
  let numRollupTxs ← uint32 proofData NUM_ROLLUP_TXS
  .ok { rollupId, rollupSize, dataStartIndex
        oldDataRoot := field proofData OLD_DATA_ROOT
        newDataRoot := field proofData NEW_DATA_ROOT
        oldNullRoot := field proofData OLD_NULL_ROOT
        newNullRoot := field proofData NEW_NULL_ROOT
        oldDataRootsRoot := field proofData OLD_ROOT_ROOT
        newDataRootsRoot := field proofData NEW_ROOT_ROOT
        oldDefiRoot := field proofData OLD_DEFI_ROOT
        newDefiRoot := field proofData NEW_DEFI_ROOT
        bridgeCallDatas :=
          (List.range NUM_BRIDGE_CALLS_PER_BLOCK).map fun i => field proofData (BRIDGE_CALL_DATAS + i)
        defiDepositSums := (List.range NUM_BRIDGE_CALLS_PER_BLOCK).map fun i =>
          toBigIntBE (field proofData (DEFI_DEPOSIT_SUMS + i))
        assetIds
        totalTxFees := (List.range NUM_FEE_ASSETS_PER_BLOCK).map fun i =>
          toBigIntBE (field proofData (FEE_SUMS + i))
        defiInteractionNotes :=
          (List.range NUM_BRIDGE_CALLS_PER_BLOCK).map fun i => field proofData (DEFI_INTERACTIONS + i)
        prevDefiInteractionHash := field proofData PREV_DEFI_INTERACTION_HASH
        rollupBeneficiary := field proofData ROLLUP_BENEFICIARY
        numRollupTxs }

/-- What `toBuffer` and `encode` write before the inner proofs. -/
def HeaderInputs.toBuffer (x : HeaderInputs) : Except String Bytes := do
  let rollupId ← Serialize.numToUInt32BE x.rollupId 32
  let rollupSize ← Serialize.numToUInt32BE x.rollupSize 32
  let dataStartIndex ← Serialize.numToUInt32BE x.dataStartIndex 32
  let assetIds ← x.assetIds.mapM (Serialize.numToUInt32BE · 32)
  let numRollupTxs ← Serialize.numToUInt32BE x.numRollupTxs 32
  .ok [rollupId, rollupSize, dataStartIndex, x.oldDataRoot, x.newDataRoot, x.oldNullRoot, x.newNullRoot,
    x.oldDataRootsRoot, x.newDataRootsRoot, x.oldDefiRoot, x.newDefiRoot, x.bridgeCallDatas.flatten,
    (x.defiDepositSums.map fun v => Serialize.toBufferBE v 32).flatten, assetIds.flatten,
    (x.totalTxFees.map fun a => Serialize.toBufferBE a 32).flatten, x.defiInteractionNotes.flatten,
    x.prevDefiInteractionHash, x.rollupBeneficiary, numRollupTxs].flatten

/-! ## The proof -/

/-- `RollupProofData`: the header and the public inputs of the transactions. -/
structure RollupProofData extends HeaderInputs where
  innerProofData : List InnerProofData
  deriving DecidableEq

namespace RollupProofData

def NUM_ROLLUP_HEADER_INPUTS : Nat :=
  14 + NUM_FEE_ASSETS_PER_BLOCK * 2 + NUM_BRIDGE_CALLS_PER_BLOCK * 3

def LENGTH_ROLLUP_HEADER_INPUTS : Nat := NUM_ROLLUP_HEADER_INPUTS * 32

/-- The constructor. -/
def create (x : HeaderInputs) (innerProofData : List InnerProofData) : Except String RollupProofData :=
  if x.bridgeCallDatas.length ≠ NUM_BRIDGE_CALLS_PER_BLOCK then
    .error "Expect bridgeCallDatas to be an array of size 32."
  else if x.defiDepositSums.length ≠ NUM_BRIDGE_CALLS_PER_BLOCK then
    .error "Expect defiDepositSums to be an array of size 32."
  else if x.totalTxFees.length ≠ NUM_FEE_ASSETS_PER_BLOCK then
    .error "Expect totalTxFees to be an array of size 16."
  else if x.defiInteractionNotes.length ≠ NUM_BRIDGE_CALLS_PER_BLOCK then
    .error "Expect defiInteractionNotes to be an array of size 32."
  else .ok { x with innerProofData }

/-- `toBuffer`: header and transactions, 32 bytes a field. -/
def toBuffer (x : RollupProofData) : Except String Bytes := do
  let header ← x.toHeaderInputs.toBuffer
  let innerProofData ← x.innerProofData.mapM InnerProofData.toBuffer
  .ok (header ++ innerProofData.flatten)

/-- The index of the last proof that is no padding, and 0 if all are. -/
def lastNonEmptyIndex (innerProofData : List InnerProofData) : Nat :=
  innerProofData.zipIdx.foldl (fun last (p, i) => if p.proofId ≠ ProofId.PADDING then i else last) 0

/-- `encode`: the trailing padding is left out, and every transaction is written in the form of its
kind. -/
def encode (x : RollupProofData) : Except String Bytes := do
  let numRealTxns := lastNonEmptyIndex x.innerProofData + 1
  let encodedInnerProof ← (x.innerProofData.take numRealTxns).mapM encodeInnerProof
  let header ← x.toHeaderInputs.toBuffer
  let numTxns ← Serialize.numToUInt32BE numRealTxns
  let encodedLength ← Serialize.numToUInt32BE encodedInnerProof.flatten.length
  .ok ([header, numTxns, encodedLength].flatten ++ encodedInnerProof.flatten)

/-- The loop of `fromBuffer`. -/
def readInnerProofs (proofData : Bytes) : Nat → Nat → Except String (List InnerProofData)
  | 0, _ => .ok []
  | n + 1, startIndex => do
    let p ← InnerProofData.fromBuffer (slice proofData startIndex (startIndex + InnerProofData.LENGTH))
    let ps ← readInnerProofs proofData n (startIndex + InnerProofData.LENGTH)
    .ok (p :: ps)

/-- `fromBuffer`. -/
def fromBuffer (proofData : Bytes) : Except String RollupProofData := do
  let x ← parseHeaderInputs proofData
  if x.rollupSize = 0 then .error "Empty rollup."
  else do
    let innerProofData ← readInnerProofs proofData x.rollupSize LENGTH_ROLLUP_HEADER_INPUTS
    create x innerProofData

/-- The loop of `decode`, while there are bytes left. The first argument bounds the rounds: every
encoding has at least a byte. -/
def decodeInnerProofs (encoded : Bytes) : Nat → Nat → Nat → Except String (List InnerProofData)
  | 0, _, _ => .ok []
  | rounds + 1, startIndex, innerProofDataLength =>
    if 0 < innerProofDataLength then do
      let (p, length) ← decodeInnerProof (encoded.drop startIndex)
      let ps ← decodeInnerProofs encoded rounds (startIndex + length) (innerProofDataLength - length)
      .ok (p :: ps)
    else .ok []

/-- `decode`. The slots that were left out are filled with padding. -/
def decode (encoded : Bytes) : Except String RollupProofData := do
  let x ← parseHeaderInputs encoded
  if x.rollupSize = 0 then .error "Empty rollup."
  else do
    -- the number of real transactions is passed over
    let startIndex := LENGTH_ROLLUP_HEADER_INPUTS + 4
    let innerProofDataLength ← readUInt32BE encoded startIndex
    let startIndex := startIndex + 4
    let innerProofData ← decodeInnerProofs encoded innerProofDataLength startIndex innerProofDataLength
    let padding := List.replicate (x.rollupSize - innerProofData.length) InnerProofData.PADDING
    create x (innerProofData ++ padding)

/-- `getNonPaddingProofs`. -/
def getNonPaddingProofs (x : RollupProofData) : List InnerProofData :=
  x.innerProofData.filter fun p => !p.isPadding

section Hashes

variable (keccak256 sha256 : Bytes → Bytes)

/-- `rollupHash`: the hash of the transaction ids, those of the padding included. -/
def rollupHash (x : RollupProofData) : Except String Bytes := do
  let allTxIds ← x.innerProofData.mapM (InnerProofData.txId keccak256)
  .ok (sha256 allTxIds.flatten)

/-- `getNonPaddingTxIds`. -/
def getNonPaddingTxIds (x : RollupProofData) : Except String (List Bytes) :=
  x.getNonPaddingProofs.mapM (InnerProofData.txId keccak256)

end Hashes

end RollupProofData

/-! ## What is well formed -/

/-- Numbers have the width that is written, roots and hashes 32 bytes, and lists their fixed lengths. -/
structure HeaderInputs.WellFormed (x : HeaderInputs) : Prop where
  rollupId : x.rollupId < 2 ^ 32
  rollupSize : x.rollupSize < 2 ^ 32
  dataStartIndex : x.dataStartIndex < 2 ^ 32
  oldDataRoot : x.oldDataRoot.length = 32
  newDataRoot : x.newDataRoot.length = 32
  oldNullRoot : x.oldNullRoot.length = 32
  newNullRoot : x.newNullRoot.length = 32
  oldDataRootsRoot : x.oldDataRootsRoot.length = 32
  newDataRootsRoot : x.newDataRootsRoot.length = 32
  oldDefiRoot : x.oldDefiRoot.length = 32
  newDefiRoot : x.newDefiRoot.length = 32
  numBridgeCallDatas : x.bridgeCallDatas.length = NUM_BRIDGE_CALLS_PER_BLOCK
  bridgeCallDatas : ∀ b ∈ x.bridgeCallDatas, b.length = 32
  numDefiDepositSums : x.defiDepositSums.length = NUM_BRIDGE_CALLS_PER_BLOCK
  defiDepositSums : ∀ v ∈ x.defiDepositSums, v < 2 ^ 256
  numAssetIds : x.assetIds.length = NUM_FEE_ASSETS_PER_BLOCK
  assetIds : ∀ a ∈ x.assetIds, a < 2 ^ 32
  numTotalTxFees : x.totalTxFees.length = NUM_FEE_ASSETS_PER_BLOCK
  totalTxFees : ∀ a ∈ x.totalTxFees, a < 2 ^ 256
  numDefiInteractionNotes : x.defiInteractionNotes.length = NUM_BRIDGE_CALLS_PER_BLOCK
  defiInteractionNotes : ∀ note ∈ x.defiInteractionNotes, note.length = 32
  prevDefiInteractionHash : x.prevDefiInteractionHash.length = 32
  rollupBeneficiary : x.rollupBeneficiary.length = 32
  numRollupTxs : x.numRollupTxs < 2 ^ 32

namespace RollupProofData

/-- A rollup has as many inner proofs as its size, at least one, and they fit in a buffer. -/
structure Enforced (x : RollupProofData) : Prop where
  header : x.toHeaderInputs.WellFormed
  nonempty : 0 < x.rollupSize
  size : x.innerProofData.length = x.rollupSize
  fits : x.rollupSize * InnerProofData.LENGTH < 2 ^ 32
  innerProofData : ∀ p ∈ x.innerProofData, p.Enforced

/-- The owners of the deposits and withdrawals are addresses. -/
def OwnersAreAddresses (x : RollupProofData) : Prop := ∀ p ∈ x.innerProofData, p.OwnerIsAddress

/-- Both formats are read back: the proof is the same, with its hash and its transactions. -/
def RoundTrips (keccak256 sha256 : Bytes → Bytes) (x : RollupProofData) : Prop :=
  (∃ bytes y, x.encode = .ok bytes ∧ decode bytes = .ok y ∧ y = x ∧
    y.rollupHash keccak256 sha256 = x.rollupHash keccak256 sha256 ∧
    y.getNonPaddingProofs = x.getNonPaddingProofs ∧
    y.getNonPaddingTxIds keccak256 = x.getNonPaddingTxIds keccak256) ∧
  ∃ bytes y, x.toBuffer = .ok bytes ∧ fromBuffer bytes = .ok y ∧ y = x ∧
    y.rollupHash keccak256 sha256 = x.rollupHash keccak256 sha256 ∧
    y.getNonPaddingProofs = x.getNonPaddingProofs ∧
    y.getNonPaddingTxIds keccak256 = x.getNonPaddingTxIds keccak256

end RollupProofData

/-! ## The header is read back -/

section Header

variable {buf : Bytes} {start : Nat}

/-- A 32-bit number in a 32-byte field is 28 zeros and its four bytes. -/
lemma beBytes_32 {n : Nat} (h : n < 2 ^ 32) : beBytes 32 n = List.replicate 28 0 ++ beBytes 4 n :=
  @beBytes_add 4 n (Nat.lt_of_lt_of_eq h rfl) 28

/-- `numToUInt32BE` to 32 bytes writes that field. -/
lemma numToUInt32BE_32 {n : Nat} (h : n < 2 ^ 32) :
    Serialize.numToUInt32BE n 32 = .ok (beBytes 32 n) := by
  rw [Serialize.numToUInt32BE, writeUInt32BE_eq h]
  exact congrArg Except.ok (beBytes_32 h).symm

/-- A 32-byte field is read from where it stands. -/
lemma field_at {f : Bytes} (h : f.length = 32) (hat : At buf (start * 32) f) : field buf start = f := by
  have hslice := hat.slice
  rwa [h] at hslice

/-- So is a 32-bit number in such a field. -/
lemma uint32_at {n : Nat} (h : n < 2 ^ 32) (hat : At buf (start * 32) (beBytes 32 n)) :
    uint32 buf start = .ok n := by
  rw [beBytes_32 h] at hat
  have hlow := (at_append.mp hat).2
  rw [List.length_replicate] at hlow
  exact readUInt32BE_eq h hlow

/-- So is a list of fields. -/
lemma fields_at {fields : List Bytes} (h : ∀ f ∈ fields, f.length = 32)
    (hat : At buf (start * 32) fields.flatten) :
    (List.range fields.length).map (fun i => field buf (start + i)) = fields := by
  induction fields generalizing start with
  | nil => rfl
  | cons f fields ih =>
    obtain ⟨hfirst, hrest⟩ := at_flatten_cons.mp hat
    have hf := h f List.mem_cons_self
    rw [hf, ← Nat.succ_mul] at hrest
    have hfields := ih (fun f hmem => h f (List.mem_cons_of_mem _ hmem)) hrest
    rw [List.length_cons, List.range_succ_eq_map, List.map_cons, List.map_map, Nat.add_zero,
      field_at hf hfirst]
    have hshift : (fun i => field buf (start + i)) ∘ Nat.succ = fun i => field buf (start.succ + i) :=
      funext fun i => congrArg (field buf) (Nat.succ_add_eq_add_succ start i).symm
    rw [hshift, hfields]

/-- So is a list of 256-bit numbers. -/
lemma bigInts_at {values : List Nat} (h : ∀ v ∈ values, v < 2 ^ 256)
    (hat : At buf (start * 32) (values.map (beBytes 32)).flatten) :
    (List.range values.length).map (fun i => toBigIntBE (field buf (start + i))) = values := by
  have hfields := fields_at (List.forall_mem_map.mpr fun v _ => length_beBytes 32 v) hat
  rw [List.length_map] at hfields
  have hvalues := congrArg (List.map toBigIntBE) hfields
  rw [List.map_map, List.map_map] at hvalues
  refine hvalues.trans ((List.map_congr_left fun v hv => ?_).trans (List.map_id values))
  have hwidth : v < 256 ^ 32 := Nat.lt_of_lt_of_eq (h v hv) rfl
  rw [Function.comp_apply, toBigIntBE, beNat_beBytes hwidth, id_eq]

/-- So is a list of 32-bit numbers. -/
lemma uint32s_at {values : List Nat} (h : ∀ v ∈ values, v < 2 ^ 32)
    (hat : At buf (start * 32) (values.map (beBytes 32)).flatten) :
    (List.range values.length).mapM (fun i => uint32 buf (start + i)) = .ok values := by
  induction values generalizing start with
  | nil => rfl
  | cons v values ih =>
    obtain ⟨hfirst, hrest⟩ := at_flatten_cons.mp hat
    rw [length_beBytes, ← Nat.succ_mul] at hrest
    have hvalues := ih (fun v hmem => h v (List.mem_cons_of_mem _ hmem)) hrest
    have hshift : (fun i => uint32 buf (start + i)) ∘ Nat.succ = fun i => uint32 buf (start.succ + i) :=
      funext fun i => congrArg (uint32 buf) (Nat.succ_add_eq_add_succ start i).symm
    rw [List.length_cons, List.range_succ_eq_map, List.mapM_cons, List.mapM_map, Nat.add_zero,
      uint32_at (h v List.mem_cons_self) hfirst, hshift, hvalues]
    rfl

/-- What is written before the inner proofs. -/
def HeaderInputs.parts (x : HeaderInputs) : List Bytes :=
  [beBytes 32 x.rollupId, beBytes 32 x.rollupSize, beBytes 32 x.dataStartIndex, x.oldDataRoot,
    x.newDataRoot, x.oldNullRoot, x.newNullRoot, x.oldDataRootsRoot, x.newDataRootsRoot, x.oldDefiRoot,
    x.newDefiRoot, x.bridgeCallDatas.flatten, (x.defiDepositSums.map (beBytes 32)).flatten,
    (x.assetIds.map (beBytes 32)).flatten, (x.totalTxFees.map (beBytes 32)).flatten,
    x.defiInteractionNotes.flatten, x.prevDefiInteractionHash, x.rollupBeneficiary,
    beBytes 32 x.numRollupTxs]

variable {x : HeaderInputs}

/-- Numbers below 2²⁵⁶ are written as their 32 bytes. -/
lemma bigInts_eq {values : List Nat} (h : ∀ v ∈ values, v < 2 ^ 256) :
    values.map (fun v => Serialize.toBufferBE v 32) = values.map (beBytes 32) :=
  List.map_congr_left fun v hv => Serialize.toBufferBE_eq (Nat.lt_of_lt_of_eq (h v hv) rfl)

/-- A well-formed header is written as its parts. -/
lemma HeaderInputs.toBuffer_eq (h : x.WellFormed) : x.toBuffer = .ok x.parts.flatten := by
  have hassetIds : x.assetIds.mapM (Serialize.numToUInt32BE · 32) = .ok (x.assetIds.map (beBytes 32)) :=
    mapM_eq fun a ha => numToUInt32BE_32 (h.assetIds a ha)
  rw [toBuffer, numToUInt32BE_32 h.rollupId, numToUInt32BE_32 h.rollupSize,
    numToUInt32BE_32 h.dataStartIndex, hassetIds, numToUInt32BE_32 h.numRollupTxs,
    bigInts_eq h.defiDepositSums, bigInts_eq h.totalTxFees]
  rfl

/-- A list of fields has 32 bytes for each. -/
lemma length_fields {fields : List Bytes} (h : ∀ f ∈ fields, f.length = 32) :
    fields.flatten.length = fields.length * 32 := by
  induction fields with
  | nil => rfl
  | cons f fields ih =>
    rw [List.flatten_cons, List.length_append, h f List.mem_cons_self,
      ih fun f hmem => h f (List.mem_cons_of_mem _ hmem), List.length_cons]
    omega

/-- So has a list of numbers. -/
lemma length_values (values : List Nat) : (values.map (beBytes 32)).flatten.length = values.length * 32 := by
  rw [length_fields (List.forall_mem_map.mpr fun v _ => length_beBytes 32 v), List.length_map]

/-- The header is read back from a buffer that begins with it. -/
lemma parseHeaderInputs_eq (h : x.WellFormed) (hat : At buf 0 x.parts.flatten) :
    parseHeaderInputs buf = .ok x := by
  obtain ⟨h₁, hat⟩ := at_flatten_cons.mp hat
  obtain ⟨h₂, hat⟩ := at_flatten_cons.mp hat
  obtain ⟨h₃, hat⟩ := at_flatten_cons.mp hat
  obtain ⟨h₄, hat⟩ := at_flatten_cons.mp hat
  obtain ⟨h₅, hat⟩ := at_flatten_cons.mp hat
  obtain ⟨h₆, hat⟩ := at_flatten_cons.mp hat
  obtain ⟨h₇, hat⟩ := at_flatten_cons.mp hat
  obtain ⟨h₈, hat⟩ := at_flatten_cons.mp hat
  obtain ⟨h₉, hat⟩ := at_flatten_cons.mp hat
  obtain ⟨h₁₀, hat⟩ := at_flatten_cons.mp hat
  obtain ⟨h₁₁, hat⟩ := at_flatten_cons.mp hat
  obtain ⟨h₁₂, hat⟩ := at_flatten_cons.mp hat
  obtain ⟨h₁₃, hat⟩ := at_flatten_cons.mp hat
  obtain ⟨h₁₄, hat⟩ := at_flatten_cons.mp hat
  obtain ⟨h₁₅, hat⟩ := at_flatten_cons.mp hat
  obtain ⟨h₁₆, hat⟩ := at_flatten_cons.mp hat
  obtain ⟨h₁₇, hat⟩ := at_flatten_cons.mp hat
  obtain ⟨h₁₈, hat⟩ := at_flatten_cons.mp hat
  obtain ⟨h₁₉, -⟩ := at_flatten_cons.mp hat
  simp only [length_beBytes, h.oldDataRoot, h.newDataRoot, h.oldNullRoot, h.newNullRoot,
    h.oldDataRootsRoot, h.newDataRootsRoot, h.oldDefiRoot, h.newDefiRoot,
    length_fields h.bridgeCallDatas, length_values, length_fields h.defiInteractionNotes,
    h.numBridgeCallDatas, h.numDefiDepositSums, h.numAssetIds, h.numTotalTxFees,
    h.numDefiInteractionNotes, h.prevDefiInteractionHash, h.rollupBeneficiary]
    at h₂ h₃ h₄ h₅ h₆ h₇ h₈ h₉ h₁₀ h₁₁ h₁₂ h₁₃ h₁₄ h₁₅ h₁₆ h₁₇ h₁₈ h₁₉
  have hdatas := @fields_at buf BRIDGE_CALL_DATAS _ h.bridgeCallDatas h₁₂
  have hsums := @bigInts_at buf DEFI_DEPOSIT_SUMS _ h.defiDepositSums h₁₃
  have hassetIds := @uint32s_at buf FEE_ASSET_IDS _ h.assetIds h₁₄
  have hfees := @bigInts_at buf FEE_SUMS _ h.totalTxFees h₁₅
  have hnotes := @fields_at buf DEFI_INTERACTIONS _ h.defiInteractionNotes h₁₆
  rw [h.numBridgeCallDatas] at hdatas
  rw [h.numDefiDepositSums] at hsums
  rw [h.numAssetIds] at hassetIds
  rw [h.numTotalTxFees] at hfees
  rw [h.numDefiInteractionNotes] at hnotes
  rw [parseHeaderInputs, @uint32_at buf ROLLUP_ID _ h.rollupId h₁,
    @uint32_at buf ROLLUP_SIZE _ h.rollupSize h₂, @uint32_at buf DATA_START_INDEX _ h.dataStartIndex h₃,
    hassetIds, @uint32_at buf NUM_ROLLUP_TXS _ h.numRollupTxs h₁₉,
    @field_at buf OLD_DATA_ROOT _ h.oldDataRoot h₄, @field_at buf NEW_DATA_ROOT _ h.newDataRoot h₅,
    @field_at buf OLD_NULL_ROOT _ h.oldNullRoot h₆, @field_at buf NEW_NULL_ROOT _ h.newNullRoot h₇,
    @field_at buf OLD_ROOT_ROOT _ h.oldDataRootsRoot h₈,
    @field_at buf NEW_ROOT_ROOT _ h.newDataRootsRoot h₉, @field_at buf OLD_DEFI_ROOT _ h.oldDefiRoot h₁₀,
    @field_at buf NEW_DEFI_ROOT _ h.newDefiRoot h₁₁, hdatas, hsums, hfees, hnotes,
    @field_at buf PREV_DEFI_INTERACTION_HASH _ h.prevDefiInteractionHash h₁₇,
    @field_at buf ROLLUP_BENEFICIARY _ h.rollupBeneficiary h₁₈]
  rfl

/-- A well-formed header has the length the reader skips. -/
lemma HeaderInputs.length_parts (h : x.WellFormed) :
    x.parts.flatten.length = RollupProofData.LENGTH_ROLLUP_HEADER_INPUTS := by
  simp only [parts, List.flatten_cons, List.flatten_nil, List.length_append, List.length_nil,
    length_beBytes, h.oldDataRoot, h.newDataRoot, h.oldNullRoot, h.newNullRoot, h.oldDataRootsRoot,
    h.newDataRootsRoot, h.oldDefiRoot, h.newDefiRoot, length_fields h.bridgeCallDatas, length_values,
    length_fields h.defiInteractionNotes, h.numBridgeCallDatas, h.numDefiDepositSums, h.numAssetIds,
    h.numTotalTxFees, h.numDefiInteractionNotes, h.prevDefiInteractionHash, h.rollupBeneficiary]
  rfl

/-- `create` accepts a well-formed header. -/
lemma create_eq (h : x.WellFormed) (innerProofData : List InnerProofData) :
    RollupProofData.create x innerProofData = .ok { x with innerProofData } := by
  rw [RollupProofData.create, if_neg (not_not.mpr h.numBridgeCallDatas),
    if_neg (not_not.mpr h.numDefiDepositSums), if_neg (not_not.mpr h.numTotalTxFees),
    if_neg (not_not.mpr h.numDefiInteractionNotes)]

end Header

/-! ## The inner proofs of a buffer -/

section InnerProofs

variable {buf : Bytes} {start : Nat} {p : InnerProofData} {ps : List InnerProofData}

/-- What `toBuffer` writes of an inner proof. -/
def InnerProofData.parts (p : InnerProofData) : List Bytes :=
  [beBytes 32 p.proofId, p.noteCommitment1, p.noteCommitment2, p.nullifier1, p.nullifier2, p.publicValue,
    p.publicOwner, p.publicAssetId]

/-- The proof id of a transaction the circuits accept fits 32 bits. -/
lemma InnerProofData.Enforced.proofId_lt (h : p.Enforced) : p.proofId < 2 ^ 32 :=
  Nat.lt_of_le_of_lt h.proofId (by decide)

/-- Such a transaction is written as its parts. -/
lemma InnerProofData.toBuffer_eq (h : p.Enforced) : p.toBuffer = .ok p.parts.flatten := by
  rw [toBuffer, numToUInt32BE_32 h.proofId_lt]
  rfl

/-- They have the length the reader advances by. -/
lemma InnerProofData.length_parts (h : p.Enforced) : p.parts.flatten.length = LENGTH := by
  simp only [parts, List.flatten_cons, List.flatten_nil, List.length_append, List.length_nil,
    length_beBytes, h.noteCommitment1, h.noteCommitment2, h.nullifier1, h.nullifier2, h.publicValue,
    h.publicOwner, h.publicAssetId]
  rfl

/-- And are read back. -/
lemma InnerProofData.fromBuffer_eq (h : p.Enforced) (hat : At buf 0 p.parts.flatten) :
    fromBuffer buf = .ok p := by
  obtain ⟨h₁, hat⟩ := at_flatten_cons.mp hat
  obtain ⟨h₂, hat⟩ := at_flatten_cons.mp hat
  obtain ⟨h₃, hat⟩ := at_flatten_cons.mp hat
  obtain ⟨h₄, hat⟩ := at_flatten_cons.mp hat
  obtain ⟨h₅, hat⟩ := at_flatten_cons.mp hat
  obtain ⟨h₆, hat⟩ := at_flatten_cons.mp hat
  obtain ⟨h₇, hat⟩ := at_flatten_cons.mp hat
  obtain ⟨h₈, -⟩ := at_flatten_cons.mp hat
  simp only [length_beBytes, h.noteCommitment1, h.noteCommitment2, h.nullifier1, h.nullifier2,
    h.publicValue, h.publicOwner] at h₂ h₃ h₄ h₅ h₆ h₇ h₈
  refine (bind_of_ok (@uint32_at buf 0 _ h.proofId_lt h₁) _).trans (congrArg Except.ok ?_)
  exact InnerProofData.ext rfl (@field_at buf 1 _ h.noteCommitment1 h₂)
    (@field_at buf 2 _ h.noteCommitment2 h₃) (@field_at buf 3 _ h.nullifier1 h₄)
    (@field_at buf 4 _ h.nullifier2 h₅) (@field_at buf 5 _ h.publicValue h₆)
    (@field_at buf 6 _ h.publicOwner h₇) (@field_at buf 7 _ h.publicAssetId h₈)

/-- All transactions of a rollup are read back from where they stand. -/
lemma readInnerProofs_eq (h : ∀ p ∈ ps, p.Enforced)
    (hat : At buf start (ps.map fun p => p.parts.flatten).flatten) :
    RollupProofData.readInnerProofs buf ps.length start = .ok ps := by
  induction ps generalizing start with
  | nil => rfl
  | cons p ps ih =>
    obtain ⟨hfirst, hrest⟩ := at_flatten_cons.mp hat
    have hp := h p List.mem_cons_self
    have hslice := hfirst.slice
    rw [InnerProofData.length_parts hp] at hrest hslice
    refine (bind_of_ok ?_ _).trans
      (bind_of_ok (ih (fun p hmem => h p (List.mem_cons_of_mem _ hmem)) hrest) _)
    rw [hslice]
    exact InnerProofData.fromBuffer_eq hp (at_zero _)

end InnerProofs

/-! ## The encoded inner proofs -/

section EncodedProofs

variable {ps : List InnerProofData}

/-- Transactions that each decode back do so one after the other, wherever they stand. -/
lemma decodeInnerProofs_eq (h : ∀ p ∈ ps, DecodesBack p) :
    ∃ bss, ps.mapM encodeInnerProof = .ok bss ∧
      bss.flatten.length ≤ ps.length * InnerProofData.LENGTH ∧
      ∀ encoded start rounds, bss.flatten.length ≤ rounds → At encoded start bss.flatten →
        RollupProofData.decodeInnerProofs encoded rounds start bss.flatten.length = .ok ps := by
  induction ps with
  | nil =>
    refine ⟨[], rfl, Nat.zero_le _, fun encoded start rounds _ _ => ?_⟩
    cases rounds <;> rfl
  | cons p ps ih =>
    obtain ⟨bs, hbs, hpos, hle, hdecode⟩ := h p List.mem_cons_self
    obtain ⟨bss, hbss, hle', hrest⟩ := ih fun p hmem => h p (List.mem_cons_of_mem _ hmem)
    refine ⟨bs :: bss, ?_, ?_, fun encoded start rounds hrounds hat => ?_⟩
    · rw [List.mapM_cons, hbs, hbss]
      rfl
    · rw [List.flatten_cons, List.length_append, List.length_cons, Nat.succ_mul]
      omega
    · obtain ⟨hfirst, hat⟩ := at_flatten_cons.mp hat
      rw [List.flatten_cons, List.length_append] at hrounds ⊢
      cases rounds with
      | zero => omega
      | succ rounds =>
        rw [RollupProofData.decodeInnerProofs, if_pos (by omega)]
        refine (bind_of_ok (hdecode (encoded.drop start) hfirst) _).trans ?_
        dsimp only
        rw [Nat.add_sub_cancel_left]
        exact bind_of_ok (hrest encoded _ rounds (by omega) hat) _

/-- One step of the search for the last transaction that is no padding. -/
def lastNonEmptyStep (last : Nat) (entry : InnerProofData × Nat) : Nat :=
  if entry.1.proofId ≠ ProofId.PADDING then entry.2 else last

/-- The index only grows, stays in the list, and reaches every proof that is no padding. -/
lemma foldl_lastNonEmpty (ps : List InnerProofData) {last k : Nat} (hlast : last ≤ k) :
    last ≤ (ps.zipIdx k).foldl lastNonEmptyStep last ∧
      (ps.zipIdx k).foldl lastNonEmptyStep last ≤ k + ps.length ∧
      ∀ j p, ps[j]? = some p → p.proofId ≠ ProofId.PADDING →
        k + j ≤ (ps.zipIdx k).foldl lastNonEmptyStep last := by
  induction ps generalizing last k with
  | nil => exact ⟨Nat.le_refl _, hlast, fun j p hp => nomatch hp⟩
  | cons p ps ih =>
    rw [List.zipIdx_cons, List.foldl_cons, List.length_cons]
    have hle : last ≤ lastNonEmptyStep last (p, k) := by unfold lastNonEmptyStep; split <;> omega
    have hnext : lastNonEmptyStep last (p, k) ≤ k + 1 := by unfold lastNonEmptyStep; split <;> omega
    obtain ⟨hgrows, hstays, hreaches⟩ := ih hnext
    refine ⟨Nat.le_trans hle hgrows, by omega, fun j q hq hreal => ?_⟩
    cases j with
    | zero =>
      cases hq
      have hstep : lastNonEmptyStep last (p, k) = k := if_pos hreal
      rw [hstep] at hgrows ⊢
      exact hgrows
    | succ j =>
      have hreach := hreaches j q hq hreal
      omega

/-- The search as a fold of its steps. -/
lemma lastNonEmptyIndex_eq (ps : List InnerProofData) :
    RollupProofData.lastNonEmptyIndex ps = ps.zipIdx.foldl lastNonEmptyStep 0 := rfl

/-- Behind the last proof that is no padding there is nothing but padding. -/
lemma padding_behind (h : ∀ p ∈ ps, p.Enforced) :
    ps = ps.take (RollupProofData.lastNonEmptyIndex ps + 1) ++
      List.replicate (ps.length - (ps.take (RollupProofData.lastNonEmptyIndex ps + 1)).length)
        InnerProofData.PADDING := by
  have hdrop : ps.drop (RollupProofData.lastNonEmptyIndex ps + 1) =
      List.replicate (ps.drop (RollupProofData.lastNonEmptyIndex ps + 1)).length InnerProofData.PADDING := by
    rw [List.eq_replicate_iff]
    refine ⟨rfl, fun p hp => ?_⟩
    obtain ⟨j, hj, hget⟩ := List.getElem_of_mem hp
    rw [List.getElem_drop] at hget
    refine (h p (List.mem_of_mem_drop hp)).padding ?_
    by_contra hreal
    have hreach := (foldl_lastNonEmpty ps (Nat.le_refl 0)).2.2 _ p
      (List.getElem?_eq_some_iff.mpr ⟨_, hget⟩) hreal
    rw [← lastNonEmptyIndex_eq] at hreach
    omega
  have hlength : ps.length - (ps.take (RollupProofData.lastNonEmptyIndex ps + 1)).length =
      (ps.drop (RollupProofData.lastNonEmptyIndex ps + 1)).length := by
    rw [List.length_take, List.length_drop]
    omega
  rw [hlength, ← hdrop, List.take_append_drop]

end EncodedProofs

/-! ## Round trips -/

namespace RollupProofData

variable {x : RollupProofData}

/-- `fromBuffer` reads back what `toBuffer` wrote. -/
lemma fromBuffer_toBuffer (h : x.Enforced) : ∃ bytes, x.toBuffer = .ok bytes ∧ fromBuffer bytes = .ok x := by
  have hinner := mapM_eq fun p hp => InnerProofData.toBuffer_eq (h.innerProofData p hp)
  refine ⟨x.parts.flatten ++ (x.innerProofData.map fun p => p.parts.flatten).flatten, ?_, ?_⟩
  · rw [toBuffer, HeaderInputs.toBuffer_eq h.header, hinner]
    rfl
  · obtain ⟨hheader, hproofs⟩ := at_append.mp
      (at_zero (x.parts.flatten ++ (x.innerProofData.map fun p => p.parts.flatten).flatten))
    rw [HeaderInputs.length_parts h.header, Nat.zero_add] at hproofs
    have hread := readInnerProofs_eq h.innerProofData hproofs
    rw [h.size] at hread
    refine (bind_of_ok (parseHeaderInputs_eq h.header hheader) _).trans ?_
    rw [if_neg h.nonempty.ne']
    exact (bind_of_ok hread _).trans (create_eq h.header _)

/-- `decode` reads back what `encode` wrote, if the owners are addresses. -/
lemma decode_encode (h : x.Enforced) (howners : x.OwnersAreAddresses) :
    ∃ bytes, x.encode = .ok bytes ∧ decode bytes = .ok x := by
  have hbehind := padding_behind h.innerProofData
  have hlast := (foldl_lastNonEmpty x.innerProofData (Nat.le_refl 0)).2.1
  rw [← lastNonEmptyIndex_eq, Nat.zero_add, h.size] at hlast
  have hfits : x.rollupSize * 256 < 2 ^ 32 := h.fits
  have hnum : lastNonEmptyIndex x.innerProofData + 1 < 2 ^ 32 := by omega
  obtain ⟨numRealTxns, hn⟩ : ∃ n, n = lastNonEmptyIndex x.innerProofData + 1 := ⟨_, rfl⟩
  rw [← hn] at hbehind hnum
  obtain ⟨bss, hencode, hle, hdecode⟩ := @decodeInnerProofs_eq (x.innerProofData.take numRealTxns)
    fun p hp => decodesBack (h.innerProofData p (List.mem_of_mem_take hp))
      (howners p (List.mem_of_mem_take hp))
  have hcount : (x.innerProofData.take numRealTxns).length ≤ x.rollupSize := by
    rw [← h.size]
    exact List.length_take_le' _ _
  have hlength : bss.flatten.length < 2 ^ 32 :=
    Nat.lt_of_le_of_lt (Nat.le_trans hle (Nat.mul_le_mul_right _ hcount)) hfits
  refine ⟨[x.parts.flatten, beBytes 4 numRealTxns, beBytes 4 bss.flatten.length, bss.flatten].flatten,
    ?_, ?_⟩
  · rw [encode, ← hn]
    refine (bind_of_ok hencode _).trans ?_
    refine (bind_of_ok (HeaderInputs.toBuffer_eq h.header) _).trans ?_
    refine (bind_of_ok (numToUInt32BE_eq hnum) _).trans ?_
    refine (bind_of_ok (numToUInt32BE_eq hlength) _).trans ?_
    simp only [List.flatten_cons, List.flatten_nil, List.append_nil, List.append_assoc]
  · obtain ⟨hheader, hat⟩ := at_flatten_cons.mp (at_zero
      [x.parts.flatten, beBytes 4 numRealTxns, beBytes 4 bss.flatten.length, bss.flatten].flatten)
    obtain ⟨-, hat⟩ := at_flatten_cons.mp hat
    obtain ⟨hread, hat⟩ := at_flatten_cons.mp hat
    obtain ⟨hproofs, -⟩ := at_flatten_cons.mp hat
    rw [HeaderInputs.length_parts h.header, Nat.zero_add, length_beBytes] at hread hproofs
    rw [length_beBytes] at hproofs
    refine (bind_of_ok (parseHeaderInputs_eq h.header hheader) _).trans ?_
    rw [if_neg h.nonempty.ne']
    refine (bind_of_ok (readUInt32BE_eq hlength hread) _).trans ?_
    refine (bind_of_ok (hdecode _ _ _ (Nat.le_refl _) hproofs) _).trans ?_
    rw [← h.size]
    dsimp only
    rw [← hbehind]
    exact create_eq h.header _

/-- Both formats are read back, if the owners are addresses. -/
theorem roundTrips (keccak256 sha256 : Bytes → Bytes) (h : x.Enforced) (howners : x.OwnersAreAddresses) :
    x.RoundTrips keccak256 sha256 := by
  obtain ⟨encoded, hencode, hdecode⟩ := decode_encode h howners
  obtain ⟨bytes, hbytes, hread⟩ := fromBuffer_toBuffer h
  exact ⟨⟨encoded, x, hencode, hdecode, rfl, rfl, rfl, rfl⟩, ⟨bytes, x, hbytes, hread, rfl, rfl, rfl, rfl⟩⟩

end RollupProofData

end AztecConnect.Client.RollupProof
