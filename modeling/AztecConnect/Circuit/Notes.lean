import AztecConnect.Circuit.BridgeCallData
import AztecConnect.Circuit.Field

/-!
# Notes in the circuits

Translation of `rollup/proofs/notes/circuit/claim` and `rollup/proofs/notes/circuit/defi_interaction`,
and of the layout of the public inputs of a transaction circuit (`inner_proof_data.hpp`). What the
circuit library computes (Pedersen hashes, paths in Merkle trees) is a parameter.
-/

namespace AztecConnect.Circuit

/-- `notes::GeneratorIndex`. -/
inductive GeneratorIndex where
  | VALUE_NOTE_PARTIAL_COMMITMENT
  | VALUE_NOTE_COMMITMENT
  | CLAIM_NOTE_PARTIAL_COMMITMENT
  | CLAIM_NOTE_COMMITMENT
  | ACCOUNT_NOTE_COMMITMENT
  | DEFI_INTERACTION_NOTE_COMMITMENT
  | JOIN_SPLIT_NULLIFIER
  | JOIN_SPLIT_NULLIFIER_ACCOUNT_PRIVATE_KEY
  | CLAIM_NOTE_NULLIFIER
  | ACCOUNT_ALIAS_HASH_NULLIFIER
  | DEFI_INTERACTION_NULLIFIER
  | ACCOUNT_PUBLIC_KEY_NULLIFIER
  deriving DecidableEq

/-- A point of Grumpkin. -/
structure Point where
  x : Fr
  y : Fr
  deriving DecidableEq

/-- The circuit library. -/
structure Primitives where
  /-- `pedersen::compress`. -/
  compress : List Fr → GeneratorIndex → Fr
  /-- `pedersen::compress` with the default generators. -/
  compressMessage : List Fr → Fr
  /-- `blake2s` of the bytes of a field element, as a field element. -/
  blake2s : Fr → Fr
  /-- `sha256` of words of 32 bytes. -/
  sha256 : List Nat → Nat
  /-- `create_point_witness` constrains the coordinates. -/
  onCurve : Point → Bool
  /-- `fixed_base_scalar_mul_g1`. -/
  fixedBaseScalarMulG1 : Fr → Point
  fixedBaseScalarMul : Fr → GeneratorIndex → Point
  Signature : Type
  /-- `schnorr::verify_signature`. -/
  verifySignature : Fr → Point → Signature → Bool
  HashPath : Type
  /-- `merkle_tree::check_membership`: the root, the path, the value, the index. -/
  checkMembership : Fr → HashPath → Fr → Nat → Bool
  /-- `merkle_tree::update_membership`: the new root and value, the old root, path and value, the
  index. -/
  updateMembership : Fr → Fr → Fr → HashPath → Fr → Nat → Bool
  /-- `merkle_tree::batch_update_membership`: the new root, the old root and path, the new values, the
  index of the first of them. -/
  batchUpdateMembership : Fr → Fr → HashPath → List Fr → Fr → Bool

/-- `sha256_to_field` of field elements. -/
def Primitives.sha256ToField (H : Primitives) (fields : List Fr) : Fr :=
  (H.sha256 (fields.map ZMod.val) : Fr)

namespace ProofIds

def PADDING : Fr := 0
def DEPOSIT : Fr := 1
def WITHDRAW : Fr := 2
def SEND : Fr := 3
def ACCOUNT : Fr := 4
def DEFI_DEPOSIT : Fr := 5
def DEFI_CLAIM : Fr := 6

end ProofIds

/-- The public inputs of a transaction circuit, in the order of `InnerProofFields`. -/
structure InnerProof where
  proofId : Fr
  noteCommitment1 : Fr
  noteCommitment2 : Fr
  nullifier1 : Fr
  nullifier2 : Fr
  publicValue : Fr
  publicOwner : Fr
  publicAssetId : Fr
  merkleRoot : Fr
  txFee : Fr
  txFeeAssetId : Fr
  bridgeCallData : Fr
  defiDepositValue : Fr
  defiRoot : Fr
  backwardLink : Fr
  allowChain : Fr
  deriving DecidableEq

/-- All public inputs times a factor. -/
def InnerProof.scale (p : InnerProof) (factor : Fr) : InnerProof where
  proofId := p.proofId * factor
  noteCommitment1 := p.noteCommitment1 * factor
  noteCommitment2 := p.noteCommitment2 * factor
  nullifier1 := p.nullifier1 * factor
  nullifier2 := p.nullifier2 * factor
  publicValue := p.publicValue * factor
  publicOwner := p.publicOwner * factor
  publicAssetId := p.publicAssetId * factor
  merkleRoot := p.merkleRoot * factor
  txFee := p.txFee * factor
  txFeeAssetId := p.txFeeAssetId * factor
  bridgeCallData := p.bridgeCallData * factor
  defiDepositValue := p.defiDepositValue * factor
  defiRoot := p.defiRoot * factor
  backwardLink := p.backwardLink * factor
  allowChain := p.allowChain * factor

instance : Zero InnerProof := ⟨⟨0, 0, 0, 0, 0, 0, 0, 0, 0, 0, 0, 0, 0, 0, 0, 0⟩⟩

/-- A real transaction is taken as it is. -/
@[simp] lemma InnerProof.scale_one (p : InnerProof) : p.scale 1 = p := by
  simp only [InnerProof.scale, mul_one]

/-- A padding one is cleared. -/
@[simp] lemma InnerProof.scale_zero (p : InnerProof) : p.scale 0 = 0 := by
  simp only [InnerProof.scale, mul_zero]
  rfl

/-- The witnesses of a bridge call data. -/
def bridgeCallData (d : BridgeCallData) : Circuit BridgeCallData := do
  Circuit.assert d.Satisfied
  return d

variable (H : Primitives)

/-! ## Value notes -/

/-- `value::complete_partial_commitment`. -/
def completeValueNote (valueNotePartialCommitment : Fr) (value assetId : Nat) (inputNullifier : Fr) :
    Fr :=
  H.compress [valueNotePartialCommitment, value, assetId, inputNullifier] .VALUE_NOTE_COMMITMENT

/-! ## Claim notes -/

/-- What a prover assigns to the witnesses of a claim note. -/
structure ClaimNoteTx where
  depositValue : Fr
  bridgeCallData : BridgeCallData
  defiInteractionNonce : Fr
  fee : Fr
  valueNotePartialCommitment : Fr
  inputNullifier : Fr

/-- `claim_note_witness_data`. -/
structure ClaimNoteWitnessData where
  depositValue : Nat
  bridgeCallDataLocal : BridgeCallData
  defiInteractionNonce : Nat
  fee : Nat
  valueNotePartialCommitment : Fr
  inputNullifier : Fr

/-- `claim_note_witness_data`, with its range constraints. -/
def claimNoteWitnessData (noteData : ClaimNoteTx) : Circuit ClaimNoteWitnessData := do
  let depositValue ← suint noteData.depositValue DEFI_DEPOSIT_VALUE_BIT_LENGTH
  let bridgeCallDataLocal ← bridgeCallData noteData.bridgeCallData
  let defiInteractionNonce ← suint noteData.defiInteractionNonce DEFI_INTERACTION_NONCE_BIT_LENGTH
  let fee ← suint noteData.fee TX_FEE_BIT_LENGTH
  return ⟨depositValue, bridgeCallDataLocal, defiInteractionNonce, fee,
    noteData.valueNotePartialCommitment, noteData.inputNullifier⟩

/-- `claim::create_partial_commitment`. -/
def createPartialClaimNote (depositValue bridgeCallData valueNotePartialCommitment inputNullifier : Fr) :
    Fr :=
  H.compress [depositValue, bridgeCallData, valueNotePartialCommitment, inputNullifier]
    .CLAIM_NOTE_PARTIAL_COMMITMENT

/-- `claim::complete_partial_commitment`. -/
def completeClaimNote (partialCommitment interactionNonce : Fr) (fee : Nat) : Fr :=
  H.compress [partialCommitment, interactionNonce, fee] .CLAIM_NOTE_COMMITMENT

/-- `claim_note`. -/
structure ClaimNote where
  depositValue : Nat
  bridgeCallData : Nat
  valueNotePartialCommitment : Fr
  inputNullifier : Fr
  defiInteractionNonce : Nat
  fee : Nat
  commitment : Fr

/-- Its constructor from the witness data. -/
def claimNote (data : ClaimNoteWitnessData) : ClaimNote where
  depositValue := data.depositValue
  bridgeCallData := data.bridgeCallDataLocal.toSafeUint
  valueNotePartialCommitment := data.valueNotePartialCommitment
  inputNullifier := data.inputNullifier
  defiInteractionNonce := data.defiInteractionNonce
  fee := data.fee
  commitment := completeClaimNote H
    (createPartialClaimNote H data.depositValue data.bridgeCallDataLocal.toSafeUint
      data.valueNotePartialCommitment data.inputNullifier)
    data.defiInteractionNonce data.fee

/-- `claim::compute_nullifier`. -/
def claimNullifier (noteCommitment : Fr) : Fr := H.compress [noteCommitment] .CLAIM_NOTE_NULLIFIER

/-! ## Defi interaction notes -/

/-- What a prover assigns to the witnesses of a defi interaction note. -/
structure DefiInteractionNoteTx where
  bridgeCallData : BridgeCallData
  interactionNonce : Fr
  totalInputValue : Fr
  totalOutputValueA : Fr
  totalOutputValueB : Fr
  interactionResult : Bool

/-- `defi_interaction::note`. -/
structure DefiInteractionNote where
  bridgeCallData : Nat
  interactionNonce : Nat
  totalInputValue : Nat
  totalOutputValueA : Nat
  totalOutputValueB : Nat
  interactionResult : Bool
  commitment : Fr

/-- `defi_interaction::witness_data` and the `note` of it. -/
def defiInteractionNote (noteData : DefiInteractionNoteTx) : Circuit DefiInteractionNote := do
  let bridgeCallDataLocal ← bridgeCallData noteData.bridgeCallData
  let interactionNonce ← suint noteData.interactionNonce DEFI_INTERACTION_NONCE_BIT_LENGTH
  let totalInputValue ← suint noteData.totalInputValue NOTE_VALUE_BIT_LENGTH
  let totalOutputValueA ← suint noteData.totalOutputValueA NOTE_VALUE_BIT_LENGTH
  let totalOutputValueB ← suint noteData.totalOutputValueB NOTE_VALUE_BIT_LENGTH
  let bridgeCallData := bridgeCallDataLocal.toSafeUint
  let commitment := H.compress [bridgeCallData, totalInputValue, totalOutputValueA, totalOutputValueB,
    interactionNonce, fieldOfBool noteData.interactionResult] .DEFI_INTERACTION_NOTE_COMMITMENT
  return ⟨bridgeCallData, interactionNonce, totalInputValue, totalOutputValueA, totalOutputValueB,
    noteData.interactionResult, commitment⟩

/-- `defi_interaction::compute_nullifier`. -/
def defiInteractionNullifier (defiInteractionNoteCommitment nonce : Fr) : Fr :=
  H.compress [defiInteractionNoteCommitment, nonce] .DEFI_INTERACTION_NULLIFIER

/-! ## The integers of the notes -/

section

variable {H} {Q : ClaimNoteWitnessData → Prop} {R : DefiInteractionNote → Prop}

/-- A bridge call data ensures the constraints on its fields. -/
@[simp] lemma ensures_bridgeCallData {d : BridgeCallData} {Q : BridgeCallData → Prop} :
    (bridgeCallData d).Ensures Q ↔ (d.Satisfied → Q d) := by
  simp only [bridgeCallData, Circuit.ensures_bind, Circuit.ensures_assert, Circuit.ensures_pure]

/-- The witnesses of a claim note are in range. -/
structure ClaimNoteTx.InRange (noteData : ClaimNoteTx) : Prop where
  depositValue : noteData.depositValue.val < 2 ^ 242
  bridgeCallData : noteData.bridgeCallData.Satisfied
  defiInteractionNonce : noteData.defiInteractionNonce.val < 2 ^ 30
  fee : noteData.fee.val < 2 ^ 242

/-- The data as numbers. -/
def ClaimNoteTx.witnessData (noteData : ClaimNoteTx) : ClaimNoteWitnessData where
  depositValue := noteData.depositValue.val
  bridgeCallDataLocal := noteData.bridgeCallData
  defiInteractionNonce := noteData.defiInteractionNonce.val
  fee := noteData.fee.val
  valueNotePartialCommitment := noteData.valueNotePartialCommitment
  inputNullifier := noteData.inputNullifier

/-- The witness data ensure their ranges. -/
lemma ensures_claimNoteWitnessData {noteData : ClaimNoteTx} :
    (claimNoteWitnessData noteData).Ensures Q ↔ (noteData.InRange → Q noteData.witnessData) := by
  simp only [claimNoteWitnessData, Circuit.ensures_bind, ensures_suint, ensures_bridgeCallData,
    Circuit.ensures_pure]
  exact ⟨fun h hr => h hr.depositValue hr.bridgeCallData hr.defiInteractionNonce hr.fee,
    fun h h₁ h₂ h₃ h₄ => h ⟨h₁, h₂, h₃, h₄⟩⟩

/-- Data in range are accepted. -/
lemma claimNoteWitnessData_apply {noteData : ClaimNoteTx} (h : noteData.InRange) :
    claimNoteWitnessData noteData noteData.witnessData :=
  ⟨_, suint_apply h.depositValue, _, ⟨(), h.bridgeCallData, rfl⟩, _,
    suint_apply h.defiInteractionNonce, _, suint_apply h.fee, rfl⟩

/-- The witnesses of a defi interaction note are in range. -/
structure DefiInteractionNoteTx.InRange (noteData : DefiInteractionNoteTx) : Prop where
  bridgeCallData : noteData.bridgeCallData.Satisfied
  interactionNonce : noteData.interactionNonce.val < 2 ^ 30
  totalInputValue : noteData.totalInputValue.val < 2 ^ 252
  totalOutputValueA : noteData.totalOutputValueA.val < 2 ^ 252
  totalOutputValueB : noteData.totalOutputValueB.val < 2 ^ 252

variable (H) in
/-- `defi_interaction::note`, of witnesses in range. -/
def DefiInteractionNoteTx.note (noteData : DefiInteractionNoteTx) : DefiInteractionNote where
  bridgeCallData := noteData.bridgeCallData.toSafeUint
  interactionNonce := noteData.interactionNonce.val
  totalInputValue := noteData.totalInputValue.val
  totalOutputValueA := noteData.totalOutputValueA.val
  totalOutputValueB := noteData.totalOutputValueB.val
  interactionResult := noteData.interactionResult
  commitment := H.compress [(noteData.bridgeCallData.toSafeUint : Fr), noteData.totalInputValue,
    noteData.totalOutputValueA, noteData.totalOutputValueB, noteData.interactionNonce,
    fieldOfBool noteData.interactionResult] .DEFI_INTERACTION_NOTE_COMMITMENT

/-- An interaction note ensures its ranges. -/
lemma ensures_defiInteractionNote {noteData : DefiInteractionNoteTx} :
    (defiInteractionNote H noteData).Ensures R ↔ (noteData.InRange → R (noteData.note H)) := by
  simp only [defiInteractionNote, Circuit.ensures_bind, ensures_suint, ensures_bridgeCallData,
    Circuit.ensures_pure, natCast_val]
  exact ⟨fun h hr => h hr.bridgeCallData hr.interactionNonce hr.totalInputValue
    hr.totalOutputValueA hr.totalOutputValueB, fun h h₁ h₂ h₃ h₄ h₅ => h ⟨h₁, h₂, h₃, h₄, h₅⟩⟩

/-- One in range is accepted. -/
lemma defiInteractionNote_apply {noteData : DefiInteractionNoteTx} (h : noteData.InRange) :
    defiInteractionNote H noteData (noteData.note H) := by
  refine ⟨_, ⟨(), h.bridgeCallData, rfl⟩, _, suint_apply h.interactionNonce, _,
    suint_apply h.totalInputValue, _, suint_apply h.totalOutputValueA, _,
    suint_apply h.totalOutputValueB, ?_⟩
  simp only [natCast_val]
  rfl

end

end AztecConnect.Circuit
