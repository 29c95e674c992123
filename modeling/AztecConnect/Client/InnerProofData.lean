import AztecConnect.Client.Block

/-!
# Inner proofs

Translation of `barretenberg.js/src/rollup_proof` for one transaction (`inner_proof.ts`, the seven
`rollup_*_proof_data.ts`, `encode_inner_proof.ts` and `decode_inner_proof.ts`) and of the constructor of
`EthAddress`. A proof is encoded in the fields its type has; a deposit or a withdrawal has its owner in
20 bytes and its asset in 4. A proof with fields in the ranges of its type is decoded from what it has
been encoded to, whatever follows (`decodes_encodeInnerProof`).
-/

namespace AztecConnect.Client

open ByteFormat Serialize

/-! ## Addresses -/

namespace EthAddress

/-- The constructor: a buffer of 32 bytes is one of 20 with zeros in front. -/
def create (buffer : Bytes) : Except String Bytes :=
  if buffer.length = 32 then
    if slice buffer 0 12 ≠ List.replicate 12 0 then .error "Invalid address buffer."
    else .ok (buffer.drop 12)
  else if buffer.length ≠ 20 then .error "Invalid address buffer."
  else .ok buffer

/-- `toBuffer32`: the address behind twelve zeros. -/
def toBuffer32 (address : Bytes) : Bytes := List.replicate 12 0 ++ address

variable {buffer address : Bytes}

/-- An address is read back from its 32-byte form. -/
lemma create_toBuffer32 (h : address.length = 20) : create (toBuffer32 address) = .ok address := by
  have hlength : (toBuffer32 address).length = 32 := by
    rw [toBuffer32, List.length_append, List.length_replicate, h]
  have hzeros : slice (toBuffer32 address) 0 12 = List.replicate 12 0 := rfl
  rw [create, if_pos hlength, if_neg (not_not.mpr hzeros)]
  rfl

/-- `create` accepts that form, and 20 bytes. -/
lemma create_ok (h : create buffer = .ok address) :
    buffer.length = 32 ∧ buffer = toBuffer32 address ∨ buffer.length = 20 := by
  unfold create at h
  split at h
  case isTrue hlength =>
    split at h
    case isTrue => nomatch h
    case isFalse hzeros =>
      cases h
      refine .inl ⟨hlength, ?_⟩
      rw [toBuffer32, ← not_not.mp hzeros]
      exact (List.take_append_drop 12 buffer).symm
  case isFalse =>
    split at h
    case isTrue => nomatch h
    case isFalse hlength => exact .inr (not_not.mp hlength)

end EthAddress

/-! ## Proofs -/

namespace ProofId

/-- The public inputs of an empty slot. -/
def PADDING : Nat := 0
def DEPOSIT : Nat := 1
def WITHDRAW : Nat := 2
def SEND : Nat := 3
def ACCOUNT : Nat := 4
def DEFI_DEPOSIT : Nat := 5
def DEFI_CLAIM : Nat := 6

end ProofId

section TxIds

variable (keccak256 : Bytes → Bytes)

/-- `createTxId`: the hash of the public inputs that the user's proof fixes. -/
def createTxId (rawProofData : Bytes) : Except String Bytes := do
  let proofId ← readUInt32BE rawProofData 28
  let txIdData := if proofId = ProofId.DEFI_DEPOSIT then
      -- the commitment that the rollup circuit completes is left out
      slice rawProofData 0 32 ++ List.replicate 32 0 ++ rawProofData.drop (2 * 32)
    else rawProofData
  .ok (keccak256 txIdData)

end TxIds

namespace RollupProof

/-- `InnerProofData`, the public inputs of one transaction. -/
@[ext] structure InnerProofData where
  proofId : Nat
  noteCommitment1 : Bytes
  noteCommitment2 : Bytes
  nullifier1 : Bytes
  nullifier2 : Bytes
  publicValue : Bytes
  publicOwner : Bytes
  publicAssetId : Bytes
  deriving DecidableEq

/-- `Buffer.alloc`. -/
def alloc (n : Nat) : Bytes := List.replicate n 0

namespace InnerProofData

def NUM_PUBLIC_INPUTS : Nat := 8
def LENGTH : Nat := NUM_PUBLIC_INPUTS * 32

def PADDING : InnerProofData :=
  ⟨ProofId.PADDING, alloc 32, alloc 32, alloc 32, alloc 32, alloc 32, alloc 32, alloc 32⟩

/-- `toBuffer`: the eight fields in 32 bytes each. -/
def toBuffer (p : InnerProofData) : Except String Bytes := do
  let proofId ← Serialize.numToUInt32BE p.proofId 32
  .ok [proofId, p.noteCommitment1, p.noteCommitment2, p.nullifier1, p.nullifier2, p.publicValue,
    p.publicOwner, p.publicAssetId].flatten

/-- `fromBuffer`. -/
def fromBuffer (innerPublicInputs : Bytes) : Except String InnerProofData := do
  let proofId ← readUInt32BE innerPublicInputs 28
  let field (i : Nat) := slice innerPublicInputs (i * 32) (i * 32 + 32)
  .ok ⟨proofId, field 1, field 2, field 3, field 4, field 5, field 6, field 7⟩

/-- `txId`. -/
def txId (keccak256 : Bytes → Bytes) (p : InnerProofData) : Except String Bytes :=
  p.toBuffer >>= createTxId keccak256

/-- `isPadding`. -/
def isPadding (p : InnerProofData) : Bool := p.proofId == ProofId.PADDING

end InnerProofData

/-! ## Encodings -/

section Encodings

/-- The encoding of what has no public fields. -/
def encodeNotes (proofId : Nat) (p : InnerProofData) : Bytes :=
  [[UInt8.ofNat proofId], p.noteCommitment1, p.noteCommitment2, p.nullifier1, p.nullifier2].flatten

/-- Reads the kinds that publish notes and nullifiers only. -/
def decodeNotes (proofId : Nat) (error : String) (encoded : Bytes) : Except String InnerProofData := do
  let id ← readUInt8 encoded 0
  if id ≠ proofId then .error error
  else .ok ⟨proofId, slice encoded 1 33, slice encoded 33 65, slice encoded 65 97, slice encoded 97 129,
    alloc 32, alloc 32, alloc 32⟩

/-- The encoding of a deposit or a withdrawal. -/
def encodePublic (proofId : Nat) (p : InnerProofData) : Except String Bytes := do
  let publicOwner ← EthAddress.create p.publicOwner
  .ok [[UInt8.ofNat proofId], p.noteCommitment1, p.noteCommitment2, p.nullifier1, p.nullifier2,
    p.publicValue, publicOwner, slice p.publicAssetId 28 32].flatten

/-- Reads the kinds that publish a value, its owner and its asset as well. -/
def decodePublic (proofId : Nat) (error : String) (encoded : Bytes) : Except String InnerProofData := do
  let id ← readUInt8 encoded 0
  if id ≠ proofId then .error error
  else .ok ⟨proofId, slice encoded 1 33, slice encoded 33 65, slice encoded 65 97, slice encoded 97 129,
    slice encoded 129 161, alloc 12 ++ slice encoded 161 181, alloc 28 ++ slice encoded 181 185⟩

end Encodings

namespace RollupDepositProofData

def ENCODED_LENGTH : Nat := 1 + 5 * 32 + 20 + 4
def encode : InnerProofData → Except String Bytes := encodePublic ProofId.DEPOSIT
def decode : Bytes → Except String InnerProofData := decodePublic ProofId.DEPOSIT "Not a deposit proof."

end RollupDepositProofData

namespace RollupWithdrawProofData

def ENCODED_LENGTH : Nat := 1 + 5 * 32 + 20 + 4
def encode : InnerProofData → Except String Bytes := encodePublic ProofId.WITHDRAW
def decode : Bytes → Except String InnerProofData := decodePublic ProofId.WITHDRAW "Not a withdraw proof."

end RollupWithdrawProofData

namespace RollupSendProofData

def ENCODED_LENGTH : Nat := 1 + 4 * 32
def encode : InnerProofData → Bytes := encodeNotes ProofId.SEND
def decode : Bytes → Except String InnerProofData := decodeNotes ProofId.SEND "Not a send proof."

end RollupSendProofData

namespace RollupAccountProofData

def ENCODED_LENGTH : Nat := 1 + 4 * 32
def encode : InnerProofData → Bytes := encodeNotes ProofId.ACCOUNT
def decode : Bytes → Except String InnerProofData := decodeNotes ProofId.ACCOUNT "Not an account proof."

end RollupAccountProofData

namespace RollupDefiDepositProofData

def ENCODED_LENGTH : Nat := 1 + 4 * 32
def encode : InnerProofData → Bytes := encodeNotes ProofId.DEFI_DEPOSIT
def decode : Bytes → Except String InnerProofData :=
  decodeNotes ProofId.DEFI_DEPOSIT "Not a defi deposit proof."

end RollupDefiDepositProofData

namespace RollupDefiClaimProofData

def ENCODED_LENGTH : Nat := 1 + 4 * 32
def encode : InnerProofData → Bytes := encodeNotes ProofId.DEFI_CLAIM
def decode : Bytes → Except String InnerProofData :=
  decodeNotes ProofId.DEFI_CLAIM "Not a defi claim proof."

end RollupDefiClaimProofData

namespace RollupPaddingProofData

def ENCODED_LENGTH : Nat := 1

def encode : Bytes := [UInt8.ofNat ProofId.PADDING]

def decode (encoded : Bytes) : Except String InnerProofData := do
  let id ← readUInt8 encoded 0
  if id ≠ ProofId.PADDING then .error "Not a padding proof." else .ok .PADDING

end RollupPaddingProofData

/-- The encoding of the kind of the transaction. -/
def encodeInnerProof (p : InnerProofData) : Except String Bytes :=
  if p.proofId = ProofId.DEPOSIT then RollupDepositProofData.encode p
  else if p.proofId = ProofId.WITHDRAW then RollupWithdrawProofData.encode p
  else if p.proofId = ProofId.SEND then .ok (RollupSendProofData.encode p)
  else if p.proofId = ProofId.ACCOUNT then .ok (RollupAccountProofData.encode p)
  else if p.proofId = ProofId.DEFI_DEPOSIT then .ok (RollupDefiDepositProofData.encode p)
  else if p.proofId = ProofId.DEFI_CLAIM then .ok (RollupDefiClaimProofData.encode p)
  else if p.proofId = ProofId.PADDING then .ok RollupPaddingProofData.encode
  else .error "Cannot read properties of undefined"

/-- The proof that the encoding begins with, and its `ENCODED_LENGTH`. -/
def decodeInnerProof (encoded : Bytes) : Except String (InnerProofData × Nat) := do
  let proofId ← readUInt8 encoded 0
  if proofId = ProofId.DEPOSIT then do
    let p ← RollupDepositProofData.decode encoded
    .ok (p, RollupDepositProofData.ENCODED_LENGTH)
  else if proofId = ProofId.WITHDRAW then do
    let p ← RollupWithdrawProofData.decode encoded
    .ok (p, RollupWithdrawProofData.ENCODED_LENGTH)
  else if proofId = ProofId.SEND then do
    let p ← RollupSendProofData.decode encoded
    .ok (p, RollupSendProofData.ENCODED_LENGTH)
  else if proofId = ProofId.ACCOUNT then do
    let p ← RollupAccountProofData.decode encoded
    .ok (p, RollupAccountProofData.ENCODED_LENGTH)
  else if proofId = ProofId.DEFI_DEPOSIT then do
    let p ← RollupDefiDepositProofData.decode encoded
    .ok (p, RollupDefiDepositProofData.ENCODED_LENGTH)
  else if proofId = ProofId.DEFI_CLAIM then do
    let p ← RollupDefiClaimProofData.decode encoded
    .ok (p, RollupDefiClaimProofData.ENCODED_LENGTH)
  else if proofId = ProofId.PADDING then do
    let p ← RollupPaddingProofData.decode encoded
    .ok (p, RollupPaddingProofData.ENCODED_LENGTH)
  else .error "Cannot read properties of undefined"

/-! ## What is decoded -/

namespace InnerProofData

/-- What the circuits enforce: the fields are field elements, a proof without public fields has zeros
there, padding has zeros only, and the asset of a public proof is in the range of asset ids. -/
structure Enforced (p : InnerProofData) : Prop where
  proofId : p.proofId ≤ ProofId.DEFI_CLAIM
  noteCommitment1 : p.noteCommitment1.length = 32
  noteCommitment2 : p.noteCommitment2.length = 32
  nullifier1 : p.nullifier1.length = 32
  nullifier2 : p.nullifier2.length = 32
  publicValue : p.publicValue.length = 32
  publicOwner : p.publicOwner.length = 32
  publicAssetId : p.publicAssetId.length = 32
  padding : p.proofId = ProofId.PADDING → p = PADDING
  unpublished : p.proofId ∈ [ProofId.SEND, ProofId.ACCOUNT, ProofId.DEFI_DEPOSIT, ProofId.DEFI_CLAIM] →
    p.publicValue = alloc 32 ∧ p.publicOwner = alloc 32 ∧ p.publicAssetId = alloc 32
  assetId : p.proofId ∈ [ProofId.DEPOSIT, ProofId.WITHDRAW] → toBigIntBE p.publicAssetId < 2 ^ 30

/-- The owner of a public proof is an address. -/
def OwnerIsAddress (p : InnerProofData) : Prop :=
  p.proofId ∈ [ProofId.DEPOSIT, ProofId.WITHDRAW] → toBigIntBE p.publicOwner < 2 ^ 160

end InnerProofData

variable {p : InnerProofData} {encoded : Bytes} {proofId : Nat} {error : String}

/-- The first byte of an encoding is read as the proof id. -/
lemma readUInt8_eq (hid : proofId < 256) (hat : At encoded 0 [UInt8.ofNat proofId]) :
    readUInt8 encoded 0 = .ok proofId := by
  have hle : 0 + 1 ≤ encoded.length := hat.le (List.cons_ne_nil _ _)
  have hslice : slice encoded 0 (0 + 1) = [UInt8.ofNat proofId] := hat.slice
  have hbyte : (UInt8.ofNat proofId).toNat = proofId := (UInt8.toNat_ofNat').trans (Nat.mod_eq_of_lt hid)
  rw [readUInt8, if_pos hle, hslice, beNat_cons, hbyte]
  simp [beNat]

/-- `decodeNotes` reads back what `encodeNotes` wrote, if nothing else is published. -/
lemma decodeNotes_encodeNotes (h : p.Enforced) (hp : p.proofId = proofId) (hid : proofId < 256)
    (hunpublished : p.publicValue = alloc 32 ∧ p.publicOwner = alloc 32 ∧ p.publicAssetId = alloc 32)
    (hat : At encoded 0 (encodeNotes proofId p)) : decodeNotes proofId error encoded = .ok p := by
  obtain ⟨h₁, hat⟩ := at_flatten_cons.mp hat
  obtain ⟨h₂, hat⟩ := at_flatten_cons.mp hat
  obtain ⟨h₃, hat⟩ := at_flatten_cons.mp hat
  obtain ⟨h₄, hat⟩ := at_flatten_cons.mp hat
  obtain ⟨h₅, -⟩ := at_flatten_cons.mp hat
  have s₂ := h₂.slice
  have s₃ := h₃.slice
  have s₄ := h₄.slice
  have s₅ := h₅.slice
  rw [h.noteCommitment1] at s₂ s₃ s₄ s₅
  rw [h.noteCommitment2] at s₃ s₄ s₅
  rw [h.nullifier1] at s₄ s₅
  rw [h.nullifier2] at s₅
  obtain ⟨hvalue, howner, hasset⟩ := hunpublished
  refine (bind_of_ok (readUInt8_eq hid h₁) _).trans ?_
  rw [if_neg (not_not.mpr rfl)]
  change slice encoded 1 33 = _ at s₂
  change slice encoded 33 65 = _ at s₃
  change slice encoded 65 97 = _ at s₄
  change slice encoded 97 129 = _ at s₅
  rw [s₂, s₃, s₄, s₅]
  exact congrArg Except.ok (InnerProofData.ext hp.symm rfl rfl rfl rfl hvalue.symm howner.symm hasset.symm)

/-- The owner has 20 bytes, and the asset 4. -/
lemma decodePublic_encodePublic (h : p.Enforced) (hp : p.proofId = proofId) (hid : proofId < 256)
    (hassetId : toBigIntBE p.publicAssetId < 2 ^ 30) (howner : toBigIntBE p.publicOwner < 2 ^ 160) :
    ∃ bytes, encodePublic proofId p = .ok bytes ∧ bytes.length = 185 ∧
      ∀ encoded, At encoded 0 bytes →
        readUInt8 encoded 0 = .ok proofId ∧ decodePublic proofId error encoded = .ok p := by
  obtain ⟨owner, hlength, howner⟩ := eq_zeros_append (show _ = 12 + 20 from h.publicOwner)
    (show _ < 256 ^ 20 from howner)
  obtain ⟨assetId, hlength', hasset⟩ := eq_zeros_append (show _ = 28 + 4 from h.publicAssetId)
    (show _ < 256 ^ 4 from Nat.lt_trans hassetId (by decide))
  have hcreate : EthAddress.create p.publicOwner = .ok owner := by
    rw [howner]
    exact EthAddress.create_toBuffer32 hlength
  have hslice : slice p.publicAssetId 28 32 = assetId := by
    rw [hasset, slice, List.take_of_length_le (by rw [List.length_append, List.length_replicate, hlength'])]
    rfl
  refine ⟨[[UInt8.ofNat proofId], p.noteCommitment1, p.noteCommitment2, p.nullifier1, p.nullifier2,
    p.publicValue, owner, assetId].flatten, ?_, ?_, fun encoded hat => ?_⟩
  · rw [encodePublic, hcreate, hslice]
    rfl
  · simp only [List.flatten_cons, List.flatten_nil, List.length_append, List.length_cons, List.length_nil,
      h.noteCommitment1, h.noteCommitment2, h.nullifier1, h.nullifier2, h.publicValue, hlength, hlength']
  · obtain ⟨h₁, hat⟩ := at_flatten_cons.mp hat
    obtain ⟨h₂, hat⟩ := at_flatten_cons.mp hat
    obtain ⟨h₃, hat⟩ := at_flatten_cons.mp hat
    obtain ⟨h₄, hat⟩ := at_flatten_cons.mp hat
    obtain ⟨h₅, hat⟩ := at_flatten_cons.mp hat
    obtain ⟨h₆, hat⟩ := at_flatten_cons.mp hat
    obtain ⟨h₇, hat⟩ := at_flatten_cons.mp hat
    obtain ⟨h₈, -⟩ := at_flatten_cons.mp hat
    have s₂ := h₂.slice
    have s₃ := h₃.slice
    have s₄ := h₄.slice
    have s₅ := h₅.slice
    have s₆ := h₆.slice
    have s₇ := h₇.slice
    have s₈ := h₈.slice
    rw [h.noteCommitment1] at s₂ s₃ s₄ s₅ s₆ s₇ s₈
    rw [h.noteCommitment2] at s₃ s₄ s₅ s₆ s₇ s₈
    rw [h.nullifier1] at s₄ s₅ s₆ s₇ s₈
    rw [h.nullifier2] at s₅ s₆ s₇ s₈
    rw [h.publicValue] at s₆ s₇ s₈
    rw [hlength] at s₇ s₈
    rw [hlength'] at s₈
    change slice encoded 1 33 = _ at s₂
    change slice encoded 33 65 = _ at s₃
    change slice encoded 65 97 = _ at s₄
    change slice encoded 97 129 = _ at s₅
    change slice encoded 129 161 = _ at s₆
    change slice encoded 161 181 = _ at s₇
    change slice encoded 181 185 = _ at s₈
    refine ⟨readUInt8_eq hid h₁, (bind_of_ok (readUInt8_eq hid h₁) _).trans ?_⟩
    rw [if_neg (not_not.mpr rfl), s₂, s₃, s₄, s₅, s₆, s₇, s₈]
    exact congrArg Except.ok
      (InnerProofData.ext hp.symm rfl rfl rfl rfl rfl howner.symm hasset.symm)

/-- It has one byte for the proof id and 32 for each of the four fields. -/
lemma length_encodeNotes (h : p.Enforced) : (encodeNotes proofId p).length = 129 := by
  simp only [encodeNotes, List.flatten_cons, List.flatten_nil, List.length_append, List.length_cons,
    List.length_nil, h.noteCommitment1, h.noteCommitment2, h.nullifier1, h.nullifier2]

/-- What is encoded is decoded wherever it begins, and is as long as it says. -/
def DecodesBack (p : InnerProofData) : Prop :=
  ∃ bytes, encodeInnerProof p = .ok bytes ∧ 0 < bytes.length ∧ bytes.length ≤ InnerProofData.LENGTH ∧
    ∀ encoded, At encoded 0 bytes → decodeInnerProof encoded = .ok (p, bytes.length)

/-- Padding is read back. -/
lemma decodesBack_padding : DecodesBack .PADDING := by
  refine ⟨[0], rfl, by decide, by decide, fun encoded hat => ?_⟩
  have hread : readUInt8 encoded 0 = .ok 0 := readUInt8_eq (by decide) hat
  have hdecode : RollupPaddingProofData.decode encoded = .ok .PADDING := bind_of_ok hread _
  exact (bind_of_ok hread _).trans (bind_of_ok hdecode _)

/-- The kinds that publish notes and nullifiers only are read back. -/
lemma decodesBack_notes (h : p.Enforced) (hp : p.proofId = proofId) (hid : proofId < 256)
    (hunpublished : p.publicValue = alloc 32 ∧ p.publicOwner = alloc 32 ∧ p.publicAssetId = alloc 32)
    (hencode : encodeInnerProof p = .ok (encodeNotes proofId p))
    (hdecode : ∀ encoded, readUInt8 encoded 0 = .ok proofId →
      decodeInnerProof encoded = (decodeNotes proofId error encoded >>= fun p => .ok (p, 129))) :
    DecodesBack p := by
  have hlength : (encodeNotes proofId p).length = 129 := length_encodeNotes h
  refine ⟨_, hencode, by omega, by rw [hlength]; decide, fun encoded hat => ?_⟩
  have hread := readUInt8_eq hid (at_flatten_cons.mp hat).1
  rw [hdecode encoded hread, hlength]
  exact bind_of_ok (decodeNotes_encodeNotes h hp hid hunpublished hat) _

/-- The kinds that publish a value are read back if the owner fits 20 bytes and the asset four. -/
lemma decodesBack_public (h : p.Enforced) (hp : p.proofId = proofId) (hid : proofId < 256)
    (hassetId : toBigIntBE p.publicAssetId < 2 ^ 30) (howner : toBigIntBE p.publicOwner < 2 ^ 160)
    (hencode : encodeInnerProof p = encodePublic proofId p)
    (hdecode : ∀ encoded, readUInt8 encoded 0 = .ok proofId →
      decodeInnerProof encoded = (decodePublic proofId error encoded >>= fun p => .ok (p, 185))) :
    DecodesBack p := by
  obtain ⟨bytes, hbytes, hlength, hbytes'⟩ := @decodePublic_encodePublic p proofId error h hp hid hassetId howner
  refine ⟨bytes, hencode.trans hbytes, by omega, by rw [hlength]; decide, fun encoded hat => ?_⟩
  obtain ⟨hread, hpublic⟩ := hbytes' encoded hat
  rw [hdecode encoded hread, hlength]
  exact bind_of_ok hpublic _

/-- Wherever its encoding begins, a proof is decoded. -/
theorem decodesBack (h : p.Enforced) (howner : p.OwnerIsAddress) : DecodesBack p := by
  have hle : p.proofId ≤ 6 := h.proofId
  have hencode : ∀ id, p.proofId = id → encodeInnerProof p = encodeInnerProof { p with proofId := id } := by
    rintro id rfl
    rfl
  have hunpublished (id : Nat) (hp : p.proofId = id) (hmem : id ∈ [ProofId.SEND, ProofId.ACCOUNT,
      ProofId.DEFI_DEPOSIT, ProofId.DEFI_CLAIM]) := h.unpublished (hp ▸ hmem)
  have hpublic (id : Nat) (hp : p.proofId = id) (hmem : id ∈ [ProofId.DEPOSIT, ProofId.WITHDRAW]) :
      p.proofId ∈ [ProofId.DEPOSIT, ProofId.WITHDRAW] := hp ▸ hmem
  obtain hp | hp | hp | hp | hp | hp | hp : p.proofId = 0 ∨ p.proofId = 1 ∨ p.proofId = 2 ∨ p.proofId = 3 ∨
    p.proofId = 4 ∨ p.proofId = 5 ∨ p.proofId = 6 := by omega
  · rw [h.padding hp]
    exact decodesBack_padding
  · have hmem := hpublic 1 hp (by decide)
    exact decodesBack_public h hp (by decide) (h.assetId hmem) (howner hmem) (hencode 1 hp)
      fun encoded hread => bind_of_ok hread _
  · have hmem := hpublic 2 hp (by decide)
    exact decodesBack_public h hp (by decide) (h.assetId hmem) (howner hmem) (hencode 2 hp)
      fun encoded hread => bind_of_ok hread _
  · exact decodesBack_notes h hp (by decide) (hunpublished 3 hp (by decide)) (hencode 3 hp)
      fun encoded hread => bind_of_ok hread _
  · exact decodesBack_notes h hp (by decide) (hunpublished 4 hp (by decide)) (hencode 4 hp)
      fun encoded hread => bind_of_ok hread _
  · exact decodesBack_notes h hp (by decide) (hunpublished 5 hp (by decide)) (hencode 5 hp)
      fun encoded hread => bind_of_ok hread _
  · exact decodesBack_notes h hp (by decide) (hunpublished 6 hp (by decide)) (hencode 6 hp)
      fun encoded hread => bind_of_ok hread _

end RollupProof

end AztecConnect.Client
