import AztecConnect.Circuit.Notes
import AztecConnect.Circuit.RatioCheck

/-!
# The claim circuit

Translation of `rollup/proofs/claim/claim_circuit.cpp`: the outputs of a claim are its share of the
outputs of the interaction, rounded down (`claimCircuit_spec`).
-/

namespace AztecConnect.Circuit

variable (H : Primitives)

/-- What a prover assigns to the witnesses of the circuit. -/
structure ClaimTx where
  dataRoot : Fr
  defiRoot : Fr
  claimNoteIndex : Fr
  claimNotePath : H.HashPath
  claimNote : ClaimNoteTx
  defiNoteIndex : Fr
  defiInteractionNotePath : H.HashPath
  defiInteractionNote : DefiInteractionNoteTx
  outputValueA : Fr
  outputValueB : Fr

/-- `claim_circuit`: the claim note and the interaction note are members of their trees, and the
outputs are the note's share of what the interaction returned. -/
def claimCircuit (tx : ClaimTx H) : Circuit InnerProof := do
  let proofId := ProofIds.DEFI_CLAIM
  let claimNoteIndex ← suint tx.claimNoteIndex DATA_TREE_DEPTH
  let defiNoteIndex ← suint tx.defiNoteIndex DEFI_TREE_DEPTH
  let claimNoteData ← claimNoteWitnessData tx.claimNote
  let claimNote := claimNote H claimNoteData
  let defiInteractionNote ← defiInteractionNote H tx.defiInteractionNote
  let outputValueA ← suint tx.outputValueA NOTE_VALUE_BIT_LENGTH
  let outputValueB ← suint tx.outputValueB NOTE_VALUE_BIT_LENGTH
  let bridgeCallDataLocal := claimNoteData.bridgeCallDataLocal
  let firstOutputVirtual := getAssetIdFlag bridgeCallDataLocal.outputAssetIdA
  let secondOutputVirtual := getAssetIdFlag bridgeCallDataLocal.outputAssetIdB
  let secondInputInUse := bridgeCallDataLocal.config.secondInputInUse
  let secondOutputInUse := bridgeCallDataLocal.config.secondOutputInUse
  Circuit.assert ((claimNote.depositValue : Fr) ≠ 0)
  let _ ← subtract defiInteractionNote.totalInputValue claimNote.depositValue NOTE_VALUE_BIT_LENGTH
  let _ ← subtract defiInteractionNote.totalOutputValueA outputValueA NOTE_VALUE_BIT_LENGTH
  let _ ← subtract defiInteractionNote.totalOutputValueB outputValueB NOTE_VALUE_BIT_LENGTH
  -- ratio checks
  let rc1 ← ratioCheck ⟨claimNote.depositValue, defiInteractionNote.totalInputValue, outputValueA,
    defiInteractionNote.totalOutputValueA⟩
  let valid1 := (outputValueA == 0 && defiInteractionNote.totalOutputValueA == 0) || rc1
  Circuit.assert (valid1 = true)
  let rc2 ← ratioCheck ⟨claimNote.depositValue, defiInteractionNote.totalInputValue, outputValueB,
    defiInteractionNote.totalOutputValueB⟩
  let valid2 := (outputValueB == 0 && defiInteractionNote.totalOutputValueB == 0) || rc2
  Circuit.assert (valid2 = true)
  let nullifier1 := claimNullifier H claimNote.commitment
  let nullifier2 := defiInteractionNullifier H defiInteractionNote.commitment claimNote.commitment
  -- output notes
  let virtualNoteFlag := 2 ^ (MAX_NUM_ASSETS_BIT_LENGTH - 1)
  let interactionSuccess := defiInteractionNote.interactionResult
  let outputValue1 := if interactionSuccess then outputValueA else claimNoteData.depositValue
  let outputAssetId1IfSuccess := if firstOutputVirtual
    then virtualNoteFlag + claimNote.defiInteractionNonce else bridgeCallDataLocal.outputAssetIdA
  let outputAssetId1 := if interactionSuccess
    then outputAssetId1IfSuccess else bridgeCallDataLocal.inputAssetIdA
  let outputNoteCommitment1 := completeValueNote H claimNote.valueNotePartialCommitment outputValue1
    outputAssetId1 nullifier1
  let outputValue2 := if interactionSuccess then outputValueB else claimNoteData.depositValue
  let outputAssetId2IfSuccess := if secondOutputVirtual
    then virtualNoteFlag + claimNote.defiInteractionNonce else bridgeCallDataLocal.outputAssetIdB
  let outputAssetId2 := if interactionSuccess
    then outputAssetId2IfSuccess else bridgeCallDataLocal.inputAssetIdB
  let outputNoteCommitment2 := completeValueNote H claimNote.valueNotePartialCommitment outputValue2
    outputAssetId2 nullifier2
  let isBridgeOutputBInUse := interactionSuccess && secondOutputInUse
  let wasBridgeInputBInUse := !interactionSuccess && secondInputInUse
  let outputNote2Exists := isBridgeOutputBInUse || wasBridgeInputBInUse
  let outputNoteCommitment2 := outputNoteCommitment2 * fieldOfBool outputNote2Exists
  -- the claim note and the interaction note are related
  Circuit.assert ((claimNote.bridgeCallData : Fr) = defiInteractionNote.bridgeCallData)
  Circuit.assert ((claimNote.defiInteractionNonce : Fr) = defiInteractionNote.interactionNonce)
  -- both exist
  Circuit.assert (H.checkMembership tx.dataRoot tx.claimNotePath claimNote.commitment claimNoteIndex
    = true)
  Circuit.assert (H.checkMembership tx.defiRoot tx.defiInteractionNotePath
    defiInteractionNote.commitment defiNoteIndex = true)
  return ⟨proofId, outputNoteCommitment1, outputNoteCommitment2, nullifier1, nullifier2, 0, 0, 0,
    tx.dataRoot, claimNote.fee, bridgeCallDataLocal.inputAssetIdA, claimNote.bridgeCallData, 0,
    tx.defiRoot, 0, 0⟩

variable {H}

/-- The note commitments that the circuit publishes. -/
def ClaimTx.claimCommitment (tx : ClaimTx H) : Fr :=
  (Circuit.claimNote H tx.claimNote.witnessData).commitment

/-- What holds of the integers of an accepted claim. -/
structure ClaimTx.Accepted (tx : ClaimTx H) (proof : InnerProof) : Prop where
  proofId : proof.proofId = ProofIds.DEFI_CLAIM
  claimNote : tx.claimNote.InRange
  defiInteractionNote : tx.defiInteractionNote.InRange
  deposit_pos : 0 < tx.claimNote.depositValue.val
  deposit_le : tx.claimNote.depositValue.val ≤ tx.defiInteractionNote.totalInputValue.val
  outputValueA : tx.outputValueA.val = tx.claimNote.depositValue.val *
    tx.defiInteractionNote.totalOutputValueA.val / tx.defiInteractionNote.totalInputValue.val
  outputValueB : tx.outputValueB.val = tx.claimNote.depositValue.val *
    tx.defiInteractionNote.totalOutputValueB.val / tx.defiInteractionNote.totalInputValue.val
  bridgeCallData : tx.claimNote.bridgeCallData.toSafeUint =
    tx.defiInteractionNote.bridgeCallData.toSafeUint
  nonce : tx.claimNote.defiInteractionNonce.val = tx.defiInteractionNote.interactionNonce.val
  nullifier1 : proof.nullifier1 = claimNullifier H tx.claimCommitment
  noteCommitment1 : tx.defiInteractionNote.interactionResult = true →
    proof.noteCommitment1 = completeValueNote H tx.claimNote.valueNotePartialCommitment
      tx.outputValueA.val (if getAssetIdFlag tx.claimNote.bridgeCallData.outputAssetIdA
        then 2 ^ 29 + tx.claimNote.defiInteractionNonce.val
        else tx.claimNote.bridgeCallData.outputAssetIdA) proof.nullifier1
  noteCommitment2 : tx.defiInteractionNote.interactionResult = true →
    proof.noteCommitment2 = if tx.claimNote.bridgeCallData.config.secondOutputInUse
      then completeValueNote H tx.claimNote.valueNotePartialCommitment
        tx.outputValueB.val (if getAssetIdFlag tx.claimNote.bridgeCallData.outputAssetIdB
          then 2 ^ 29 + tx.claimNote.defiInteractionNonce.val
          else tx.claimNote.bridgeCallData.outputAssetIdB) proof.nullifier2
      else 0

/-- A ratio check, where an output of zero needs none. -/
lemma valid_spec {a1 a2 b1 b2 : Nat} (h₁ : a1 < 2 ^ 252) (h₂ : a2 < 2 ^ 252) (h₃ : b1 < 2 ^ 252)
    (h₄ : b2 < 2 ^ 252) : (ratioCheck ⟨a1, a2, b1, b2⟩).Ensures fun rc =>
      ((b1 == 0 && b2 == 0) || rc) = true → b1 = a1 * b2 / a2 := by
  have hr := two_pow_lt_fieldModulus
  refine (ratioCheck_spec _).mono fun rc ⟨_, hrc⟩ hvalid => ?_
  simp only [Bool.or_eq_true, Bool.and_eq_true, beq_iff_eq] at hvalid
  cases hvalid with
  | inl hzero => rw [hzero.1, hzero.2, Nat.mul_zero, Nat.zero_div]
  | inr h =>
    have heq := hrc h
    simpa only [val_natCast_of_lt (show a1 < fieldModulus by omega),
      val_natCast_of_lt (show a2 < fieldModulus by omega),
      val_natCast_of_lt (show b1 < fieldModulus by omega),
      val_natCast_of_lt (show b2 < fieldModulus by omega)] using heq

/-- Every satisfying assignment of the claim circuit meets its specification. -/
lemma claimCircuit_spec (tx : ClaimTx H) : (claimCircuit H tx).Ensures tx.Accepted := by
  have hr := two_pow_lt_fieldModulus
  simp only [claimCircuit, Circuit.ensures_bind, ensures_suint, ensures_claimNoteWitnessData,
    ensures_defiInteractionNote, Circuit.ensures_assert]
  intro _ _ hclaim hnote hA hB hpos
  have hA' : tx.outputValueA.val < 2 ^ 252 := hA
  have hB' : tx.outputValueB.val < 2 ^ 252 := hB
  have hdep : tx.claimNote.depositValue.val < 2 ^ 252 :=
    hclaim.depositValue.trans (Nat.pow_lt_pow_right (by decide) (by decide))
  refine ensures_subtract hnote.totalInputValue hdep fun hle => ?_
  refine ensures_subtract hnote.totalOutputValueA hA' fun _ => ?_
  refine ensures_subtract hnote.totalOutputValueB hB' fun _ => ?_
  refine (valid_spec hdep hnote.totalInputValue hA' hnote.totalOutputValueA).mono fun _ hvalid1 h₁ => ?_
  refine (valid_spec hdep hnote.totalInputValue hB' hnote.totalOutputValueB).mono fun _ hvalid2 h₂ => ?_
  simp only [Circuit.ensures_pure]
  intro hdata hnonce _ _
  have hdata' : tx.claimNote.bridgeCallData.toSafeUint =
      tx.defiInteractionNote.bridgeCallData.toSafeUint := by
    have hlt₁ := BridgeCallData.toSafeUint_lt hclaim.bridgeCallData
    have hlt₂ := BridgeCallData.toSafeUint_lt hnote.bridgeCallData
    exact natCast_inj (by omega) (by omega) hdata
  have hnonce' : tx.claimNote.defiInteractionNonce.val =
      tx.defiInteractionNote.interactionNonce.val := by
    have hlt₁ := hclaim.defiInteractionNonce
    have hlt₂ := hnote.interactionNonce
    exact natCast_inj (by omega) (by omega) hnonce
  have hpos' : 0 < tx.claimNote.depositValue.val := by
    refine Nat.pos_of_ne_zero fun hzero => hpos ?_
    show ((tx.claimNote.depositValue.val : Nat) : Fr) = 0
    rw [hzero, Nat.cast_zero]
  refine ⟨rfl, hclaim, hnote, hpos', hle, hvalid1 h₁, hvalid2 h₂, hdata', hnonce', rfl, ?_, ?_⟩
  · intro hsuccess
    have hs : (tx.defiInteractionNote.note H).interactionResult = true := hsuccess
    simp only [hs, if_true]
    rfl
  · intro hsuccess
    have hs : (tx.defiInteractionNote.note H).interactionResult = true := hsuccess
    simp only [hs, if_true, Bool.true_and, Bool.not_true, Bool.false_and, Bool.or_false]
    cases huse : tx.claimNote.bridgeCallData.config.secondOutputInUse with
    | false =>
      have huse' : tx.claimNote.witnessData.bridgeCallDataLocal.config.secondOutputInUse = false :=
        huse
      rw [huse']
      exact mul_zero _
    | true =>
      have huse' : tx.claimNote.witnessData.bridgeCallDataLocal.config.secondOutputInUse = true :=
        huse
      rw [huse']
      exact mul_one _

/-! ## The output notes -/

/-- The value and the asset of an output note. -/
structure ClaimOutput where
  value : Nat
  assetId : Nat
  deriving DecidableEq

section

variable (tx : ClaimTx H)

/-- The id of an output asset: a virtual one is named by the nonce of the interaction. -/
def ClaimTx.outputAssetId (assetId : Nat) : Nat :=
  if getAssetIdFlag assetId then 2 ^ 29 + tx.claimNote.defiInteractionNonce.val else assetId

/-- An output of the interaction, or the deposit. -/
def ClaimTx.claimOutput (outputValue : Fr) (outputAssetId inputAssetId : Nat) : ClaimOutput :=
  if tx.defiInteractionNote.interactionResult then
    ⟨outputValue.val, tx.outputAssetId outputAssetId⟩
  else ⟨tx.claimNote.depositValue.val, inputAssetId⟩

/-- The first output: the share of the first asset, or the refund of the first input. -/
def ClaimTx.output1 : ClaimOutput :=
  tx.claimOutput tx.outputValueA tx.claimNote.bridgeCallData.outputAssetIdA
    tx.claimNote.bridgeCallData.inputAssetIdA

/-- The second output, likewise. -/
def ClaimTx.output2 : ClaimOutput :=
  tx.claimOutput tx.outputValueB tx.claimNote.bridgeCallData.outputAssetIdB
    tx.claimNote.bridgeCallData.inputAssetIdB

/-- The second output note exists: the interaction has succeeded with its second output in use, or
failed with its second input in use. -/
def ClaimTx.outputNote2Exists : Bool :=
  if tx.defiInteractionNote.interactionResult then
    tx.claimNote.bridgeCallData.config.secondOutputInUse
  else tx.claimNote.bridgeCallData.config.secondInputInUse

variable (H) in
/-- The commitment to an output note. -/
def ClaimOutput.commitment (o : ClaimOutput) (partialCommitment inputNullifier : Fr) : Fr :=
  completeValueNote H partialCommitment o.value o.assetId inputNullifier

/-- The output notes of an accepted claim, whatever became of the interaction. -/
structure ClaimTx.Emits (proof : InnerProof) : Prop where
  noteCommitment1 : proof.noteCommitment1 =
    tx.output1.commitment H tx.claimNote.valueNotePartialCommitment proof.nullifier1
  noteCommitment2 : proof.noteCommitment2 = if tx.outputNote2Exists then
      tx.output2.commitment H tx.claimNote.valueNotePartialCommitment proof.nullifier2
    else 0

/-- And its public inputs are those of the transaction. -/
lemma claimCircuit_emits : (claimCircuit H tx).Ensures tx.Emits := by
  simp only [claimCircuit, Circuit.ensures_bind, ensures_suint, ensures_claimNoteWitnessData,
    ensures_defiInteractionNote, Circuit.ensures_assert]
  intro _ _ _ _ _ _ _
  -- the subtractions and the ratio checks say nothing of the output notes
  refine fun _ _ _ _ _ _ => fun _ _ _ _ _ _ => ?_
  simp only [Circuit.ensures_pure, mul_fieldOfBool]
  intro _ _ _ _
  have hs : (tx.defiInteractionNote.note H).interactionResult =
      tx.defiInteractionNote.interactionResult := rfl
  cases hr : tx.defiInteractionNote.interactionResult with
  | true =>
    refine ⟨?_, ?_⟩
    · simp only [hs, hr, if_true, ClaimTx.output1, ClaimTx.claimOutput]
      rfl
    · simp only [hs, hr, if_true, ClaimTx.outputNote2Exists, ClaimTx.output2, ClaimTx.claimOutput,
        Bool.true_and, Bool.not_true, Bool.false_and, Bool.or_false]
      rfl
  | false =>
    refine ⟨?_, ?_⟩
    · simp only [hs, hr, Bool.false_eq_true, if_false, ClaimTx.output1, ClaimTx.claimOutput]
      rfl
    · simp only [hs, hr, Bool.false_eq_true, if_false, ClaimTx.outputNote2Exists, ClaimTx.output2,
        ClaimTx.claimOutput, Bool.false_and, Bool.not_false, Bool.true_and, Bool.false_or]
      rfl

end

/-! ## A claim of 3 out of 7 -/

namespace SampleClaim

/-- Hashes that add up what they are given, enough for one claim. -/
def primitives : Primitives where
  compress values _ := values.sum
  compressMessage values := values.sum
  blake2s x := x
  sha256 words := words.sum
  onCurve _ := true
  fixedBaseScalarMulG1 x := ⟨x, x⟩
  fixedBaseScalarMul x _ := ⟨x, x⟩
  Signature := Unit
  verifySignature _ _ _ := true
  HashPath := Unit
  checkMembership root _ value _ := root == value
  updateMembership newRoot newValue oldRoot _ oldValue _ := newRoot == oldRoot + newValue - oldValue
  batchUpdateMembership newRoot oldRoot _ newValues _ := newRoot == oldRoot + newValues.sum

/-- One input asset and one output asset, neither virtual. -/
def data : BridgeCallData := ⟨1, 0, 0, 1, 0, ⟨false, false⟩, 0⟩

/-- The interaction of nonce 0 turned 7 into 5. -/
def noteTx : DefiInteractionNoteTx := ⟨data, 0, 7, 5, 0, true⟩

/-- A claim note that put in 3 of the 7. -/
def claimNoteTx : ClaimNoteTx := ⟨3, data, 0, 5, 0, 0⟩

/-- Its claim, in trees of one leaf. -/
def tx : ClaimTx primitives where
  dataRoot := (claimNote primitives claimNoteTx.witnessData).commitment
  defiRoot := (noteTx.note primitives).commitment
  claimNoteIndex := 0
  claimNotePath := ()
  claimNote := claimNoteTx
  defiNoteIndex := 0
  defiInteractionNotePath := ()
  defiInteractionNote := noteTx
  outputValueA := 2
  outputValueB := 0

/-- The claim note is within its ranges. -/
lemma claimNote_inRange : claimNoteTx.InRange where
  depositValue := by decide +kernel
  bridgeCallData := ⟨by decide, by decide, by decide, by decide, by decide, by decide,
    ⟨by decide, by decide, by decide, by decide, by decide, by decide⟩⟩
  defiInteractionNonce := by decide +kernel
  fee := by decide +kernel

/-- So is the interaction note. -/
lemma note_inRange : noteTx.InRange where
  bridgeCallData := claimNote_inRange.bridgeCallData
  interactionNonce := by decide +kernel
  totalInputValue := by decide +kernel
  totalOutputValueA := by decide +kernel
  totalOutputValueB := by decide +kernel

/-- The public inputs. -/
def proof : InnerProof :=
  let nullifier1 := claimNullifier primitives tx.claimCommitment
  { (0 : InnerProof) with
    proofId := ProofIds.DEFI_CLAIM
    noteCommitment1 := completeValueNote primitives 0 2 1 nullifier1
    nullifier1 := nullifier1
    nullifier2 := defiInteractionNullifier primitives (noteTx.note primitives).commitment
      tx.claimCommitment
    merkleRoot := tx.dataRoot
    txFee := 5
    bridgeCallData := data.toSafeUint
    defiRoot := tx.defiRoot }

/-- The circuit accepts the claim. -/
lemma accepted : claimCircuit primitives tx proof := by
  refine ⟨_, suint_apply ?_, _, suint_apply ?_,
    _, claimNoteWitnessData_apply claimNote_inRange,
    _, defiInteractionNote_apply note_inRange,
    _, suint_apply ?_, _, suint_apply ?_, (), Circuit.assert_apply ?_,
    _, subtract_apply ?_ ?_ ?_, _, subtract_apply ?_ ?_ ?_,
    _, subtract_apply ?_ ?_ ?_,
    _, ratioCheck_single ?_ ?_ ?_ ?_ ?_ ?_, (), Circuit.assert_apply ?_,
    _, ratioCheck_single ?_ ?_ ?_ ?_ ?_ ?_, (), Circuit.assert_apply ?_,
    (), Circuit.assert_apply ?_, (), Circuit.assert_apply ?_, (), Circuit.assert_apply ?_,
    (), Circuit.assert_apply ?_, Circuit.pure_apply ?_⟩
  all_goals decide +kernel

end SampleClaim

end AztecConnect.Circuit
