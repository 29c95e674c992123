import AztecConnect.Circuit.Account

/-!
# The join-split circuit

Translation of `rollup/proofs/join_split/join_split_circuit.cpp` and of
`rollup/proofs/notes/circuit/value`.
-/

namespace AztecConnect.Circuit

/-- `ASSET_ID_BIT_LENGTH`. -/
def ASSET_ID_BIT_LENGTH : Nat := 30

variable (H : Primitives)

/-! ## Value notes -/

/-- `value::witness_data`, as a prover assigns it. -/
structure ValueNoteTx where
  owner : Point
  value : Fr
  secret : Fr
  assetId : Fr
  accountRequired : Bool
  creatorPubkey : Fr
  inputNullifier : Fr

/-- `value::value_note`. -/
structure ValueNote where
  owner : Point
  value : Nat
  secret : Fr
  assetId : Nat
  accountRequired : Bool
  creatorPubkey : Fr
  inputNullifier : Fr
  commitment : Fr

/-- `value::create_partial_commitment`. -/
def createPartialValueNote (secret : Fr) (owner : Point) (accountRequired : Bool)
    (creatorPubkey : Fr) : Fr :=
  H.compress [secret, owner.x, owner.y, fieldOfBool accountRequired, creatorPubkey]
    .VALUE_NOTE_PARTIAL_COMMITMENT

/-- `value::witness_data` and the `value_note` of it. -/
def valueNote (note : ValueNoteTx) : Circuit ValueNote := do
  let value ← suint note.value NOTE_VALUE_BIT_LENGTH
  let assetId ← suint note.assetId ASSET_ID_BIT_LENGTH
  let partialCommitment := createPartialValueNote H note.secret note.owner note.accountRequired
    note.creatorPubkey
  return ⟨note.owner, value, note.secret, assetId, note.accountRequired, note.creatorPubkey,
    note.inputNullifier, completeValueNote H partialCommitment value assetId note.inputNullifier⟩

/-- `compute_nullifier`. -/
def computeNullifier (noteCommitment accountPrivateKey : Fr) (isNoteInUse : Bool) : Fr :=
  let hashedPrivateKey :=
    H.fixedBaseScalarMul accountPrivateKey .JOIN_SPLIT_NULLIFIER_ACCOUNT_PRIVATE_KEY
  H.blake2s (H.compress [noteCommitment, hashedPrivateKey.x, hashedPrivateKey.y,
    fieldOfBool isNoteInUse] .JOIN_SPLIT_NULLIFIER)

/-! ## Partial claim notes -/

/-- `partial_claim_note_witness_data`, as a prover assigns it. -/
structure PartialClaimNoteTx where
  depositValue : Fr
  bridgeCallData : BridgeCallData
  noteSecret : Fr
  inputNullifier : Fr

/-- `partial_claim_note`. -/
structure PartialClaimNote where
  depositValue : Nat
  bridgeCallDataLocal : BridgeCallData
  bridgeCallData : Nat
  inputNullifier : Fr
  partialCommitment : Fr

/-- `partial_claim_note`, with the ranges of its witnesses. -/
def partialClaimNote (data : PartialClaimNoteTx) (owner : Point) (ownerAccountRequired : Bool) :
    Circuit PartialClaimNote := do
  let depositValue ← suint data.depositValue DEFI_DEPOSIT_VALUE_BIT_LENGTH
  let bridgeCallDataLocal ← bridgeCallData data.bridgeCallData
  let valueNotePartialCommitment :=
    createPartialValueNote H data.noteSecret owner ownerAccountRequired 0
  return ⟨depositValue, bridgeCallDataLocal, bridgeCallDataLocal.toSafeUint, data.inputNullifier,
    createPartialClaimNote H depositValue bridgeCallDataLocal.toSafeUint valueNotePartialCommitment
      data.inputNullifier⟩

/-! ## The circuit -/

/-- What a prover assigns to the witnesses of the circuit. -/
structure JoinSplitTx where
  proofId : Fr
  publicValue : Fr
  publicOwner : Fr
  assetId : Fr
  numInputNotes : Fr
  inputNote1Index : Fr
  inputNote2Index : Fr
  inputNote1 : ValueNoteTx
  inputNote2 : ValueNoteTx
  outputNote1 : ValueNoteTx
  outputNote2 : ValueNoteTx
  partialClaimNote : PartialClaimNoteTx
  signingPubKey : Point
  signature : H.Signature
  merkleRoot : Fr
  inputPath1 : H.HashPath
  inputPath2 : H.HashPath
  accountNoteIndex : Fr
  accountNotePath : H.HashPath
  accountPrivateKey : Fr
  aliasHash : Fr
  accountRequired : Bool
  backwardLink : Fr
  allowChain : Fr

/-- `process_input_note`: a note that is used is a member of the tree, or propagated. Returns its
nullifier. -/
def processInputNote (accountPrivateKey merkleRoot : Fr) (hashPath : H.HashPath) (index : Nat)
    (note : ValueNote) (isPropagated isNoteInUse : Bool) : Circuit Fr := do
  let validValue := note.value == 0 || isNoteInUse
  Circuit.assert (validValue = true)
  let exists' := H.checkMembership merkleRoot hashPath note.commitment index
  let valid := exists' || isPropagated || !isNoteInUse
  Circuit.assert (valid = true)
  return computeNullifier H note.commitment accountPrivateKey isNoteInUse

/-- The difference of two safe integers, in the given number of bits. -/
abbrev subtractFee (a b : Nat) : Circuit Nat := subtract a b TX_FEE_BIT_LENGTH

/-- `join_split_circuit`, for the four kinds of transaction. -/
def joinSplitCircuit (tx : JoinSplitTx H) : Circuit InnerProof := do
  let publicValue ← suint tx.publicValue NOTE_VALUE_BIT_LENGTH
  let assetId ← suint tx.assetId ASSET_ID_BIT_LENGTH
  let inputNote1Index ← suint tx.inputNote1Index DATA_TREE_DEPTH
  let inputNote2Index ← suint tx.inputNote2Index DATA_TREE_DEPTH
  let inputNote1 ← valueNote H tx.inputNote1
  let inputNote2 ← valueNote H tx.inputNote2
  let outputNote1 ← valueNote H tx.outputNote1
  let outputNote2 ← valueNote H tx.outputNote2
  let partialClaimNote ← partialClaimNote H tx.partialClaimNote inputNote1.owner
    inputNote1.accountRequired
  let signingPubKey ← createPointWitness H tx.signingPubKey
  let accountNoteIndex ← suint tx.accountNoteIndex DATA_TREE_DEPTH
  let aliasHash ← suint tx.aliasHash ALIAS_HASH_BIT_LENGTH
  -- join_split_circuit_component
  let isDeposit := tx.proofId == ProofIds.DEPOSIT
  let isWithdraw := tx.proofId == ProofIds.WITHDRAW
  let isSend := tx.proofId == ProofIds.SEND
  let isDefiDeposit := tx.proofId == ProofIds.DEFI_DEPOSIT
  let notDefiDeposit := !isDefiDeposit
  let isPublicTx := isDeposit || isWithdraw
  let publicAssetId := assetId * isPublicTx.toNat
  let publicInput := publicValue * isDeposit.toNat
  let publicOutput := publicValue * isWithdraw.toNat
  let outputNote1Commitment := if isDefiDeposit then partialClaimNote.partialCommitment
    else outputNote1.commitment
  let defiDepositValue := partialClaimNote.depositValue * isDefiDeposit.toNat
  let bridgeCallData := partialClaimNote.bridgeCallData * isDefiDeposit.toNat
  let noInputNotes := tx.numInputNotes == 0
  let oneInputNote := tx.numInputNotes == 1
  let twoInputNotes := tx.numInputNotes == 2
  Circuit.assert ((noInputNotes || oneInputNote || twoInputNotes) = true)
  let inputNote1InUse := oneInputNote || twoInputNotes
  let inputNote2InUse := twoInputNotes
  let equalInputAssetIds := inputNote1.assetId == inputNote2.assetId
  let differentInputAssetIds := !equalInputAssetIds
  let inputNote1Value := inputNote1.value
  let outputNote1Value := outputNote1.value * notDefiDeposit.toNat
  let outputNote2Value := outputNote2.value
  Circuit.assert ((isPublicTx == (publicValue == 0)) = false)
  Circuit.assert ((isPublicTx == (tx.publicOwner == 0)) = false)
  Circuit.assert (tx.proofId ∈ [ProofIds.DEPOSIT, ProofIds.WITHDRAW, ProofIds.SEND,
    ProofIds.DEFI_DEPOSIT])
  Circuit.assert (inputNote1.commitment ≠ inputNote2.commitment)
  Circuit.assert (noInputNotes = true → isDeposit = true)
  let assetIdsMatch := assetId == inputNote1.assetId && assetId == outputNote1.assetId &&
    assetId == outputNote2.assetId
  Circuit.assert (assetIdsMatch = true)
  Circuit.assert ((inputNote2InUse && (isDeposit || isSend || isWithdraw)) = true →
    equalInputAssetIds = true)
  -- defi-deposit checks
  Circuit.assert (isDefiDeposit = true → defiDepositValue ≠ 0)
  Circuit.assert ((isDefiDeposit && inputNote2InUse && differentInputAssetIds) = true →
    defiDepositValue = inputNote2.value)
  let bridgeCallDataLocal := partialClaimNote.bridgeCallDataLocal
  Circuit.assert (isDefiDeposit = true → bridgeCallDataLocal.inputAssetIdA = inputNote1.assetId)
  Circuit.assert (bridgeCallDataLocal.config.secondInputInUse = true → inputNote2InUse = true)
  Circuit.assert ((inputNote2InUse && differentInputAssetIds) = true →
    bridgeCallDataLocal.config.secondInputInUse = true)
  Circuit.assert (bridgeCallDataLocal.config.secondInputInUse = true →
    bridgeCallDataLocal.inputAssetIdB = inputNote2.assetId)
  -- transaction chaining
  let note1Propagated := tx.backwardLink == inputNote1.commitment
  let note2Propagated := tx.backwardLink == inputNote2.commitment
  Circuit.assert (tx.backwardLink ≠ 0 → (note1Propagated || note2Propagated) = true)
  let allowChain1And2 := tx.allowChain == 3
  let allowChain1 := tx.allowChain == 1 || allowChain1And2
  let allowChain2 := tx.allowChain == 2 || allowChain1And2
  Circuit.assert ((tx.allowChain == 0 || allowChain1 || allowChain2) = true)
  Circuit.assert (allowChain1 = true → outputNote1.owner = inputNote1.owner)
  Circuit.assert (allowChain2 = true → outputNote2.owner = inputNote1.owner)
  Circuit.assert (isDefiDeposit = true → allowChain1 = false)
  -- the fee is what the outputs leave of the inputs
  let inputNote2Value := inputNote2.value *
    (!(isDefiDeposit && inputNote2InUse && differentInputAssetIds)).toNat
  let totalInValue := publicInput + inputNote1Value + inputNote2Value
  let totalOutValue := publicOutput + outputNote1Value + outputNote2Value + defiDepositValue
  let txFee ← subtractFee totalInValue totalOutValue
  Circuit.assert (inputNote1.owner = inputNote2.owner)
  Circuit.assert (inputNote1.accountRequired = inputNote2.accountRequired)
  Circuit.assert (tx.accountPrivateKey ≠ 0)
  let accountPublicKey := H.fixedBaseScalarMulG1 tx.accountPrivateKey
  Circuit.assert (accountPublicKey = inputNote1.owner)
  Circuit.assert (tx.accountRequired = inputNote1.accountRequired)
  Circuit.assert (outputNote1.creatorPubkey ∈ [0, accountPublicKey.x])
  Circuit.assert (outputNote2.creatorPubkey ∈ [0, accountPublicKey.x])
  let signer := if tx.accountRequired then signingPubKey else accountPublicKey
  let signingKeyExists := H.checkMembership tx.merkleRoot tx.accountNotePath
    (accountNoteCommitment H aliasHash accountPublicKey signer) accountNoteIndex
  Circuit.assert ((signingKeyExists || !tx.accountRequired) = true)
  let nullifier1 ← processInputNote H tx.accountPrivateKey tx.merkleRoot tx.inputPath1
    inputNote1Index inputNote1 note1Propagated inputNote1InUse
  let nullifier2 ← processInputNote H tx.accountPrivateKey tx.merkleRoot tx.inputPath2
    inputNote2Index inputNote2 note2Propagated inputNote2InUse
  Circuit.assert (outputNote1.inputNullifier = nullifier1)
  Circuit.assert (outputNote2.inputNullifier = nullifier2)
  Circuit.assert (partialClaimNote.inputNullifier = nullifier1 * fieldOfBool isDefiDeposit)
  let message := H.compressMessage [(publicValue : Fr), tx.publicOwner, publicAssetId,
    outputNote1Commitment, outputNote2.commitment, nullifier1, nullifier2, tx.backwardLink,
    tx.allowChain]
  let verified := H.verifySignature message signer tx.signature
  let isSameOwner := inputNote1.owner == outputNote1.owner && inputNote2.owner == outputNote2.owner
  let isSameAmount := totalInValue == totalOutValue
  let isSameAccountFlag := inputNote1.accountRequired == outputNote1.accountRequired &&
    inputNote2.accountRequired == outputNote2.accountRequired
  let isMergeSend := isSend && (outputNote1Value == 0 || outputNote2Value == 0) && isSameOwner &&
    isSameAmount && isSameAccountFlag
  Circuit.assert ((verified || isMergeSend) = true)
  return ⟨tx.proofId, outputNote1Commitment, outputNote2.commitment, nullifier1, nullifier2,
    publicValue, tx.publicOwner, publicAssetId, tx.merkleRoot, txFee, assetId, bridgeCallData,
    defiDepositValue, 0, tx.backwardLink, tx.allowChain⟩

variable {H}

/-! ## The integers of the notes -/

/-- The ranges the witnesses of a value note are constrained to. -/
structure ValueNoteTx.InRange (note : ValueNoteTx) : Prop where
  value : note.value.val < 2 ^ 252
  assetId : note.assetId.val < 2 ^ 30

variable (H) in
/-- `value::value_note`, of witnesses in range. -/
def ValueNoteTx.note (note : ValueNoteTx) : ValueNote where
  owner := note.owner
  value := note.value.val
  secret := note.secret
  assetId := note.assetId.val
  accountRequired := note.accountRequired
  creatorPubkey := note.creatorPubkey
  inputNullifier := note.inputNullifier
  commitment := completeValueNote H (createPartialValueNote H note.secret note.owner
    note.accountRequired note.creatorPubkey) note.value.val note.assetId.val note.inputNullifier

/-- A value note witness: its ranges may be assumed. -/
@[simp] lemma ensures_valueNote {note : ValueNoteTx} {Q : ValueNote → Prop} :
    (valueNote H note).Ensures Q ↔ (note.InRange → Q (note.note H)) := by
  simp only [valueNote, Circuit.ensures_bind, ensures_suint, Circuit.ensures_pure]
  exact ⟨fun h hr => h hr.value hr.assetId, fun h h₁ h₂ => h ⟨h₁, h₂⟩⟩

/-- Those of a partial claim note. -/
structure PartialClaimNoteTx.InRange (data : PartialClaimNoteTx) : Prop where
  depositValue : data.depositValue.val < 2 ^ 242
  bridgeCallData : data.bridgeCallData.Satisfied

variable (H) in
/-- `partial_claim_note`, of witnesses in range. -/
def PartialClaimNoteTx.note (data : PartialClaimNoteTx) (owner : Point) (accountRequired : Bool) :
    PartialClaimNote where
  depositValue := data.depositValue.val
  bridgeCallDataLocal := data.bridgeCallData
  bridgeCallData := data.bridgeCallData.toSafeUint
  inputNullifier := data.inputNullifier
  partialCommitment := createPartialClaimNote H data.depositValue.val data.bridgeCallData.toSafeUint
    (createPartialValueNote H data.noteSecret owner accountRequired 0) data.inputNullifier

/-- A partial claim note witness: likewise. -/
@[simp] lemma ensures_partialClaimNote {data : PartialClaimNoteTx} {owner : Point}
    {accountRequired : Bool} {Q : PartialClaimNote → Prop} :
    (partialClaimNote H data owner accountRequired).Ensures Q ↔
      (data.InRange → Q (data.note H owner accountRequired)) := by
  simp only [partialClaimNote, Circuit.ensures_bind, ensures_suint, ensures_bridgeCallData,
    Circuit.ensures_pure]
  exact ⟨fun h hr => h hr.depositValue hr.bridgeCallData, fun h h₁ h₂ => h ⟨h₁, h₂⟩⟩

/-- An input note: no value unless it is used, and the nullifier that follows. -/
@[simp] lemma ensures_processInputNote {accountPrivateKey merkleRoot : Fr} {hashPath : H.HashPath}
    {index : Nat} {note : ValueNote} {isPropagated isNoteInUse : Bool} {Q : Fr → Prop} :
    (processInputNote H accountPrivateKey merkleRoot hashPath index note isPropagated
      isNoteInUse).Ensures Q ↔
      ((note.value == 0 || isNoteInUse) = true →
        (H.checkMembership merkleRoot hashPath note.commitment index || isPropagated ||
          !isNoteInUse) = true →
        Q (computeNullifier H note.commitment accountPrivateKey isNoteInUse)) := by
  simp only [processInputNote, Circuit.ensures_bind, Circuit.ensures_assert, Circuit.ensures_pure]

/-- The circuit makes proofs of four kinds only. -/
lemma joinSplitCircuit_proofId (tx : JoinSplitTx H) : (joinSplitCircuit H tx).Ensures fun p =>
    p.proofId ∈ [ProofIds.DEPOSIT, ProofIds.WITHDRAW, ProofIds.SEND, ProofIds.DEFI_DEPOSIT] := by
  simp only [joinSplitCircuit, Circuit.ensures_bind, ensures_suint, Circuit.ensures_assert,
    ensures_createPointWitness, ensures_valueNote, ensures_partialClaimNote, subtractFee, subtract,
    ensures_createRangeConstraint, ensures_processInputNote, Circuit.ensures_pure]
  intro _ _ _ _ _ _ _ _ _ _ _ _ _ _ _ hproofId
  intros
  exact hproofId

end AztecConnect.Circuit
