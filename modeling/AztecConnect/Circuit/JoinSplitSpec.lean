import AztecConnect.Circuit.JoinSplit

/-!
# What an accepted join-split transaction has checked

The checks of the join-split circuit and its public inputs (`JoinSplitTx.Accepted`). The sums of the
balance stay below the modulus of the field, and so does what the range of the fee leaves of it: the
balance is one of integers (`joinSplit_balanced`).
-/

namespace AztecConnect.Circuit

variable {H : Primitives}

namespace JoinSplitTx

variable (tx : JoinSplitTx H)

/-- It is a deposit. -/
def isDeposit : Bool := tx.proofId == ProofIds.DEPOSIT

/-- It is a withdrawal. -/
def isWithdraw : Bool := tx.proofId == ProofIds.WITHDRAW

/-- It is a transfer. -/
def isSend : Bool := tx.proofId == ProofIds.SEND

/-- It is a deposit to a bridge. -/
def isDefiDeposit : Bool := tx.proofId == ProofIds.DEFI_DEPOSIT

/-- It moves a public value. -/
def isPublicTx : Bool := tx.isDeposit || tx.isWithdraw

/-- The first input note is spent. -/
def inputNote1InUse : Bool := tx.numInputNotes == 1 || tx.numInputNotes == 2

/-- The second input note is spent. -/
def inputNote2InUse : Bool := tx.numInputNotes == 2

/-- The input notes are of two assets. -/
def differentInputAssetIds : Bool := !(tx.inputNote1.assetId.val == tx.inputNote2.assetId.val)

/-- The second input note is the second input of the bridge: its value is not in the balance. -/
def isSecondInput : Bool := tx.isDefiDeposit && tx.inputNote2InUse && tx.differentInputAssetIds

/-- The outputs may be spent in the same rollup. -/
def allowChain1 : Bool := tx.allowChain == 1 || tx.allowChain == 3

/-- The second output may be chained from. -/
def allowChain2 : Bool := tx.allowChain == 2 || tx.allowChain == 3

/-! ## The terms of the balance -/

/-- What is paid in. -/
def publicInput : Nat := tx.publicValue.val * tx.isDeposit.toNat

/-- What is paid out. -/
def publicOutput : Nat := tx.publicValue.val * tx.isWithdraw.toNat

/-- What the first input note contributes. -/
def inputNote1Value : Nat := tx.inputNote1.value.val

/-- What the second input note contributes, unless it is a second input of the bridge. -/
def inputNote2Value : Nat := tx.inputNote2.value.val * (!tx.isSecondInput).toNat

/-- What the first output note takes, unless a claim note stands in its place. -/
def outputNote1Value : Nat := tx.outputNote1.value.val * (!tx.isDefiDeposit).toNat

/-- What the second output note takes. -/
def outputNote2Value : Nat := tx.outputNote2.value.val

/-- What is deposited to a bridge. -/
def defiDepositValue : Nat := tx.partialClaimNote.depositValue.val * tx.isDefiDeposit.toNat

/-- All that comes in. -/
def totalInValue : Nat := tx.publicInput + tx.inputNote1Value + tx.inputNote2Value

/-- All that goes out, without the fee. -/
def totalOutValue : Nat :=
  tx.publicOutput + tx.outputNote1Value + tx.outputNote2Value + tx.defiDepositValue

/-! ## The public inputs -/

/-- The claim note of a deposit to a bridge. -/
def claimNote : PartialClaimNote :=
  tx.partialClaimNote.note H tx.inputNote1.owner tx.inputNote1.accountRequired

/-- The first commitment published. -/
def outputCommitment1 : Fr :=
  if tx.isDefiDeposit then tx.claimNote.partialCommitment else (tx.outputNote1.note H).commitment

/-- The second commitment published. -/
def outputCommitment2 : Fr := (tx.outputNote2.note H).commitment

/-- The nullifier of the first input note. -/
def nullifier1 : Fr :=
  computeNullifier H (tx.inputNote1.note H).commitment tx.accountPrivateKey tx.inputNote1InUse

/-- The nullifier of the second input note. -/
def nullifier2 : Fr :=
  computeNullifier H (tx.inputNote2.note H).commitment tx.accountPrivateKey tx.inputNote2InUse

/-- The public inputs the circuit publishes. -/
def publicInputs : InnerProof where
  proofId := tx.proofId
  noteCommitment1 := tx.outputCommitment1
  noteCommitment2 := tx.outputCommitment2
  nullifier1 := tx.nullifier1
  nullifier2 := tx.nullifier2
  publicValue := tx.publicValue
  publicOwner := tx.publicOwner
  publicAssetId := (tx.assetId.val * tx.isPublicTx.toNat : Nat)
  merkleRoot := tx.merkleRoot
  txFee := (tx.totalInValue : Fr) - tx.totalOutValue
  txFeeAssetId := tx.assetId
  bridgeCallData := (tx.claimNote.bridgeCallData * tx.isDefiDeposit.toNat : Nat)
  defiDepositValue := tx.defiDepositValue
  defiRoot := 0
  backwardLink := tx.backwardLink
  allowChain := tx.allowChain

/-- An input note that is in use is in the data tree, unless the transaction is chained to it. -/
def InputChecked (path : H.HashPath) (index : Fr) (note : ValueNoteTx) (inUse : Bool) : Prop :=
  (note.value.val ≠ 0 → inUse = true) ∧
    (inUse = true → H.checkMembership tx.merkleRoot path (note.note H).commitment index.val = true ∨
      tx.backwardLink = (note.note H).commitment)

/-- What the circuit has checked, and the public inputs. -/
structure Accepted (p : InnerProof) : Prop where
  publicValue : tx.publicValue.val < 2 ^ 252
  assetId : tx.assetId.val < 2 ^ 30
  inputNote1 : tx.inputNote1.InRange
  inputNote2 : tx.inputNote2.InRange
  outputNote1 : tx.outputNote1.InRange
  outputNote2 : tx.outputNote2.InRange
  partialClaimNote : tx.partialClaimNote.InRange
  isPublicTx : tx.isPublicTx = true ↔ tx.publicValue.val ≠ 0
  proofId : tx.proofId ∈ [ProofIds.DEPOSIT, ProofIds.WITHDRAW, ProofIds.SEND, ProofIds.DEFI_DEPOSIT]
  differentNotes : (tx.inputNote1.note H).commitment ≠ (tx.inputNote2.note H).commitment
  assetIds : tx.assetId.val = tx.inputNote1.assetId.val ∧
    tx.assetId.val = tx.outputNote1.assetId.val ∧ tx.assetId.val = tx.outputNote2.assetId.val
  sameInputAssetIds : tx.inputNote2InUse = true → tx.isDefiDeposit = false →
    tx.differentInputAssetIds = false
  deposit : tx.isDefiDeposit = true → tx.defiDepositValue ≠ 0
  secondInput : tx.isSecondInput = true → tx.defiDepositValue = tx.inputNote2.value.val
  inputAssetIdA : tx.isDefiDeposit = true →
    tx.partialClaimNote.bridgeCallData.inputAssetIdA = tx.inputNote1.assetId.val
  secondInputInUse : tx.isSecondInput = true →
    tx.partialClaimNote.bridgeCallData.config.secondInputInUse = true
  inputAssetIdB : tx.partialClaimNote.bridgeCallData.config.secondInputInUse = true →
    tx.partialClaimNote.bridgeCallData.inputAssetIdB = tx.inputNote2.assetId.val
  backwardLink : tx.backwardLink ≠ 0 → tx.backwardLink = (tx.inputNote1.note H).commitment ∨
    tx.backwardLink = (tx.inputNote2.note H).commitment
  allowChain : tx.allowChain = 0 ∨ tx.allowChain1 = true ∨ tx.allowChain2 = true
  chainFrom1 : tx.allowChain1 = true →
    tx.outputNote1.owner = tx.inputNote1.owner ∧ tx.isDefiDeposit = false
  chainFrom2 : tx.allowChain2 = true → tx.outputNote2.owner = tx.inputNote1.owner
  txFee : ((tx.totalInValue : Fr) - tx.totalOutValue).val < 2 ^ 242
  owner : H.fixedBaseScalarMulG1 tx.accountPrivateKey = tx.inputNote1.owner ∧
    tx.inputNote1.owner = tx.inputNote2.owner
  input1 : tx.InputChecked tx.inputPath1 tx.inputNote1Index tx.inputNote1 tx.inputNote1InUse
  input2 : tx.InputChecked tx.inputPath2 tx.inputNote2Index tx.inputNote2 tx.inputNote2InUse
  inputNullifiers : tx.outputNote1.inputNullifier = tx.nullifier1 ∧
    tx.outputNote2.inputNullifier = tx.nullifier2
  proof_eq : p = tx.publicInputs

variable {tx}

/-- An input note that passes the checks is unused, a member of the tree, or the one chained
from. -/
lemma InputChecked.of_valid {path : H.HashPath} {index : Fr} {note : ValueNoteTx} {inUse : Bool}
    (hvalue : ((note.note H).value == 0 || inUse) = true)
    (hvalid : (H.checkMembership tx.merkleRoot path (note.note H).commitment index.val ||
      tx.backwardLink == (note.note H).commitment || !inUse) = true) :
    tx.InputChecked path index note inUse := by
  constructor
  · intro hne
    exact (Bool.or_eq_true_iff.mp hvalue).resolve_left fun h => hne (beq_iff_eq.mp h)
  · intro hinUse
    rw [hinUse, Bool.not_true, Bool.or_false, Bool.or_eq_true, beq_iff_eq] at hvalid
    exact hvalid

/-- A transaction that is no defi deposit has notes of one asset. -/
lemma isPayment (h : tx.proofId ∈ [ProofIds.DEPOSIT, ProofIds.WITHDRAW, ProofIds.SEND,
    ProofIds.DEFI_DEPOSIT]) (hdefi : tx.isDefiDeposit = false) :
    (tx.isDeposit || tx.isSend || tx.isWithdraw) = true := by
  simp only [List.mem_cons, List.not_mem_nil, or_false] at h
  simp only [Bool.or_eq_true, isDeposit, isSend, isWithdraw, beq_iff_eq]
  obtain hid | hid | hid | hid := h
  · exact .inl (.inl hid)
  · exact .inr hid
  · exact .inl (.inr hid)
  · exact absurd (beq_iff_eq.mpr hid) (Bool.eq_false_iff.mp hdefi)

end JoinSplitTx

/-- The specification follows from the constraints. -/
lemma joinSplitCircuit_accepted (tx : JoinSplitTx H) :
    (joinSplitCircuit H tx).Ensures tx.Accepted := by
  simp only [joinSplitCircuit, Circuit.ensures_bind, ensures_suint, Circuit.ensures_assert,
    ensures_createPointWitness, ensures_valueNote, ensures_partialClaimNote, subtractFee, subtract,
    ensures_createRangeConstraint, ensures_processInputNote, Circuit.ensures_pure, natCast_val]
  intro hpublic hasset _ _ hin1 hin2 hout1 hout2 hclaim _ _ _ _ hvalue _ hid hne _ hassets hsame
    hdeposit hsecond hassetA _ hsecondInUse hassetB hlink hallow hchain1 hchain2 hdefi hfee howner _
    _ hkey _ _ _ _ hpad1 hmem1 hpad2 hmem2 hnull1 hnull2 _ _
  constructor
  case publicValue => exact hpublic
  case assetId => exact hasset
  case inputNote1 => exact hin1
  case inputNote2 => exact hin2
  case outputNote1 => exact hout1
  case outputNote2 => exact hout2
  case partialClaimNote => exact hclaim
  case isPublicTx =>
    have hne : (tx.isPublicTx == (tx.publicValue.val == 0)) = false := hvalue
    rw [Bool.beq_eq_decide_eq, decide_eq_false_iff_not] at hne
    rw [← bne_iff_ne, bne]
    constructor
    · intro hpublic
      rw [hpublic] at hne
      exact Bool.not_eq_true' _ |>.mpr (Bool.eq_false_iff.mpr fun h => hne h.symm)
    · intro hvalue
      rw [Bool.not_eq_true'] at hvalue
      exact Bool.not_eq_false _ |>.mp fun h => hne (h.trans hvalue.symm)
  case proofId => exact hid
  case differentNotes => exact hne
  case assetIds =>
    simp only [Bool.and_eq_true, beq_iff_eq] at hassets
    exact ⟨hassets.1.1, hassets.1.2, hassets.2⟩
  case sameInputAssetIds =>
    intro hinUse hpayment
    have heq := hsame (Bool.and_eq_true_iff.mpr ⟨hinUse, JoinSplitTx.isPayment hid hpayment⟩)
    exact (Bool.not_eq_false' _).mpr heq
  case deposit => exact hdeposit
  case secondInput => exact hsecond
  case inputAssetIdA => exact hassetA
  case secondInputInUse =>
    intro hsecond
    refine hsecondInUse ?_
    rw [JoinSplitTx.isSecondInput, Bool.and_assoc] at hsecond
    exact (Bool.and_eq_true_iff.mp hsecond).2
  case inputAssetIdB => exact hassetB
  case backwardLink =>
    intro hne
    have h := hlink hne
    rw [Bool.or_eq_true, beq_iff_eq, beq_iff_eq] at h
    exact h
  case allowChain =>
    rw [Bool.or_eq_true, Bool.or_eq_true, beq_iff_eq, or_assoc] at hallow
    exact hallow
  case chainFrom1 =>
    intro hchain
    refine ⟨hchain1 hchain, Bool.eq_false_iff.mpr fun h => ?_⟩
    exact Bool.eq_false_iff.mp (hdefi h) hchain
  case chainFrom2 => exact hchain2
  case txFee => exact hfee
  case owner => exact ⟨hkey, howner⟩
  case input1 => exact .of_valid hpad1 hmem1
  case input2 => exact .of_valid hpad2 hmem2
  case inputNullifiers => exact ⟨hnull1, hnull2⟩
  case proof_eq => rfl

/-! ## The balance over the integers -/

namespace JoinSplitTx

/-- The balance, and the public inputs as those of the notes in it. -/
structure Balanced (tx : JoinSplitTx H) (p : InnerProof) : Prop where
  balance : tx.publicInput + tx.inputNote1Value + tx.inputNote2Value =
    tx.publicOutput + tx.outputNote1Value + tx.outputNote2Value + tx.defiDepositValue + p.txFee.val
  noWrap : tx.publicInput + tx.inputNote1Value + tx.inputNote2Value < fieldModulus
  inputs_lt : tx.publicInput < 2 ^ 252 ∧ tx.inputNote1Value < 2 ^ 252 ∧ tx.inputNote2Value < 2 ^ 252
  outputs_lt : tx.publicOutput < 2 ^ 252 ∧ tx.outputNote1Value < 2 ^ 252 ∧
    tx.outputNote2Value < 2 ^ 252 ∧ tx.defiDepositValue < 2 ^ 242
  txFee_lt : p.txFee.val < 2 ^ 242
  publicValue : p.publicValue.val = tx.publicInput + tx.publicOutput
  defiDepositValue : p.defiDepositValue.val = tx.defiDepositValue
  /-- All values are of one asset, that in which the fee is paid. -/
  assetIds : p.txFeeAssetId.val < 2 ^ 30 ∧ tx.inputNote1.assetId = p.txFeeAssetId ∧
    (tx.inputNote2Value ≠ 0 → tx.inputNote2.assetId = p.txFeeAssetId) ∧
    tx.outputNote1.assetId = p.txFeeAssetId ∧ tx.outputNote2.assetId = p.txFeeAssetId
  publicAssetId : p.publicAssetId = if tx.publicInput + tx.publicOutput = 0 then 0 else p.txFeeAssetId
  bridgeCallData : p.bridgeCallData =
    if tx.isDefiDeposit then (tx.partialClaimNote.bridgeCallData.toSafeUint : Fr) else 0
  inputAssetIdA : tx.isDefiDeposit = true →
    tx.partialClaimNote.bridgeCallData.inputAssetIdA = p.txFeeAssetId.val
  /-- What is not in the balance is deposited as a whole, as the second input of the bridge. -/
  secondInput : tx.isSecondInput = true → tx.defiDepositValue = tx.inputNote2.value.val ∧
    tx.partialClaimNote.bridgeCallData.config.secondInputInUse = true ∧
    tx.partialClaimNote.bridgeCallData.inputAssetIdB = tx.inputNote2.assetId.val
  nullifier1 : p.nullifier1 = tx.nullifier1 ∧ (tx.inputNote1Value ≠ 0 → tx.inputNote1InUse = true)
  nullifier2 : p.nullifier2 = tx.nullifier2 ∧
    (tx.inputNote2.value.val ≠ 0 → tx.inputNote2InUse = true)
  differentNotes : (tx.inputNote1.note H).commitment ≠ (tx.inputNote2.note H).commitment
  noteCommitments : p.noteCommitment1 = tx.outputCommitment1 ∧ p.noteCommitment2 = tx.outputCommitment2

variable {tx : JoinSplitTx H} {p : InnerProof}

/-- A product with a boolean keeps a bound. -/
lemma mul_toNat_lt {a n : Nat} (h : a < n) (b : Bool) : a * b.toNat < n := by
  cases b with
  | false => exact Nat.zero_lt_of_lt h
  | true => rwa [Bool.toNat_true, Nat.mul_one]

/-- No sum reaches the modulus. -/
lemma Accepted.sums_lt (h : tx.Accepted p) :
    tx.totalInValue < fieldModulus ∧ tx.totalOutValue + 2 ^ 242 ≤ fieldModulus := by
  have hin : tx.publicInput < 2 ^ 252 := mul_toNat_lt h.publicValue _
  have hin1 : tx.inputNote1Value < 2 ^ 252 := h.inputNote1.value
  have hin2 : tx.inputNote2Value < 2 ^ 252 := mul_toNat_lt h.inputNote2.value _
  have hout : tx.publicOutput < 2 ^ 252 := mul_toNat_lt h.publicValue _
  have hout1 : tx.outputNote1Value < 2 ^ 252 := mul_toNat_lt h.outputNote1.value _
  have hout2 : tx.outputNote2Value < 2 ^ 252 := h.outputNote2.value
  have hdefi : tx.defiDepositValue < 2 ^ 242 := mul_toNat_lt h.partialClaimNote.depositValue _
  have hmod : 3 * 2 ^ 252 + 2 ^ 243 < fieldModulus := by decide
  unfold totalInValue totalOutValue
  omega

/-- The fee is the difference of the sums. -/
lemma Accepted.txFee_val (h : tx.Accepted p) :
    tx.totalOutValue ≤ tx.totalInValue ∧ p.txFee.val = tx.totalInValue - tx.totalOutValue := by
  obtain ⟨hin, hout⟩ := h.sums_lt
  rw [h.proof_eq]
  exact le_of_sub_lt hin hout h.txFee

/-- The public value is what is paid in or out. -/
lemma Accepted.publicValue_eq (h : tx.Accepted p) :
    tx.publicInput + tx.publicOutput = tx.publicValue.val := by
  unfold publicInput publicOutput
  have hpublic := h.isPublicTx
  rw [JoinSplitTx.isPublicTx, Bool.or_eq_true] at hpublic
  cases hdeposit : tx.isDeposit with
  | true =>
    have hwithdraw : tx.isWithdraw = false := by
      refine Bool.eq_false_iff.mpr fun hwithdraw => ?_
      have heq : ProofIds.DEPOSIT = ProofIds.WITHDRAW :=
        (beq_iff_eq.mp hdeposit).symm.trans (beq_iff_eq.mp hwithdraw)
      exact absurd heq (by decide)
    rw [hwithdraw, Bool.toNat_true, Bool.toNat_false, Nat.mul_one, Nat.mul_zero, Nat.add_zero]
  | false =>
    cases hwithdraw : tx.isWithdraw with
    | true => rw [Bool.toNat_true, Bool.toNat_false, Nat.mul_one, Nat.mul_zero, Nat.zero_add]
    | false =>
      -- there is no public value
      rw [hdeposit, hwithdraw] at hpublic
      have hzero : tx.publicValue.val = 0 := by
        by_contra hne
        exact absurd (hpublic.mpr hne) (by decide)
      rw [hzero, Nat.zero_mul]

/-- Field elements with the same number are the same. -/
lemma val_inj {x y : Fr} (h : x.val = y.val) : y = x := (ZMod.val_injective _ h).symm

/-- The second note is counted if it is of the same asset. -/
lemma Accepted.counted (h : tx.Accepted p) (hne : tx.inputNote2Value ≠ 0) :
    tx.inputNote2.assetId = tx.assetId := by
  have hinUse : tx.inputNote2InUse = true := by
    refine h.input2.1 fun hzero => hne ?_
    rw [inputNote2Value, hzero, Nat.zero_mul]
  have hcounted : tx.isSecondInput = false := by
    refine Bool.eq_false_iff.mpr fun hsecond => hne ?_
    rw [inputNote2Value, hsecond]
    exact Nat.mul_zero _
  have hsame : tx.differentInputAssetIds = false := by
    cases hdefi : tx.isDefiDeposit with
    | false => exact h.sameInputAssetIds hinUse hdefi
    | true => rwa [isSecondInput, hdefi, hinUse, Bool.true_and, Bool.true_and] at hcounted
  have heq := beq_iff_eq.mp ((Bool.not_eq_false' _).mp hsame)
  exact val_inj (h.assetIds.1.trans heq)

/-- The public asset is that of the transaction if a value is public. -/
lemma Accepted.publicAssetId (h : tx.Accepted p) :
    p.publicAssetId = if tx.publicInput + tx.publicOutput = 0 then 0 else tx.assetId := by
  have hasset : p.publicAssetId = (tx.assetId.val * tx.isPublicTx.toNat : Nat) :=
    congrArg InnerProof.publicAssetId h.proof_eq
  rw [hasset, h.publicValue_eq]
  cases hpublic : tx.isPublicTx with
  | true => rw [if_neg (h.isPublicTx.mp hpublic), Bool.toNat_true, Nat.mul_one, natCast_val]
  | false =>
    have hzero : tx.publicValue.val = 0 := by
      by_contra hne
      exact absurd (hpublic.symm.trans (h.isPublicTx.mpr hne)) (by decide)
    rw [if_pos hzero, Bool.toNat_false, Nat.mul_zero, Nat.cast_zero]

/-- The bridge call data are published for a deposit to a bridge only. -/
lemma Accepted.bridgeCallData (h : tx.Accepted p) : p.bridgeCallData =
    if tx.isDefiDeposit then (tx.partialClaimNote.bridgeCallData.toSafeUint : Fr) else 0 := by
  have hdata : p.bridgeCallData =
      (tx.partialClaimNote.bridgeCallData.toSafeUint * tx.isDefiDeposit.toNat : Nat) :=
    congrArg InnerProof.bridgeCallData h.proof_eq
  rw [hdata]
  cases tx.isDefiDeposit with
  | true =>
    rw [Bool.toNat_true, Nat.mul_one]
    rfl
  | false =>
    rw [Bool.toNat_false, Nat.mul_zero]
    exact Nat.cast_zero

/-- What comes in is what goes out, and the fee. -/
lemma Accepted.balanced (h : tx.Accepted p) : tx.Balanced p := by
  obtain ⟨hle, hfee⟩ := h.txFee_val
  obtain ⟨hin1, hout1, hout2⟩ := h.assetIds
  have hdefi : tx.defiDepositValue < 2 ^ 242 := mul_toNat_lt h.partialClaimNote.depositValue _
  have hasset : p.txFeeAssetId = tx.assetId := congrArg InnerProof.txFeeAssetId h.proof_eq
  have hpublicValue : p.publicValue = tx.publicValue := congrArg InnerProof.publicValue h.proof_eq
  have hdeposit : p.defiDepositValue = (tx.defiDepositValue : Fr) :=
    congrArg InnerProof.defiDepositValue h.proof_eq
  constructor
  case balance =>
    unfold totalInValue totalOutValue at hle hfee
    omega
  case noWrap => exact h.sums_lt.1
  case inputs_lt =>
    exact ⟨mul_toNat_lt h.publicValue _, h.inputNote1.value, mul_toNat_lt h.inputNote2.value _⟩
  case outputs_lt =>
    exact ⟨mul_toNat_lt h.publicValue _, mul_toNat_lt h.outputNote1.value _, h.outputNote2.value,
      hdefi⟩
  case txFee_lt =>
    rw [h.proof_eq]
    exact h.txFee
  case publicValue => rw [hpublicValue, h.publicValue_eq]
  case defiDepositValue =>
    have hmod := two_pow_lt_fieldModulus
    rw [hdeposit, val_natCast_of_lt (by omega)]
  case assetIds =>
    rw [hasset]
    exact ⟨h.assetId, val_inj hin1, h.counted, val_inj hout1, val_inj hout2⟩
  case publicAssetId =>
    rw [hasset]
    exact h.publicAssetId
  case bridgeCallData => exact h.bridgeCallData
  case inputAssetIdA =>
    intro hdefi
    rw [hasset, h.inputAssetIdA hdefi, hin1]
  case secondInput =>
    intro hsecond
    have hinUse := h.secondInputInUse hsecond
    exact ⟨h.secondInput hsecond, hinUse, h.inputAssetIdB hinUse⟩
  case nullifier1 => exact ⟨congrArg InnerProof.nullifier1 h.proof_eq, h.input1.1⟩
  case nullifier2 => exact ⟨congrArg InnerProof.nullifier2 h.proof_eq, h.input2.1⟩
  case differentNotes => exact h.differentNotes
  case noteCommitments =>
    exact ⟨congrArg InnerProof.noteCommitment1 h.proof_eq,
      congrArg InnerProof.noteCommitment2 h.proof_eq⟩

end JoinSplitTx

/-! ## A defi deposit of two assets -/

namespace SampleJoinSplit

/-- The data tree with the two input notes. -/
abbrev primitives : Primitives := TreeTable.primitives [TreeTable.leaves [13, 11]]

/-- A note of the sample. -/
def note (value assetId inputNullifier : Fr) : ValueNoteTx :=
  ⟨⟨1, 1⟩, value, 0, assetId, false, 0, inputNullifier⟩

/-- The second note is deposited, the fee and the change are paid from the first. -/
def tx : JoinSplitTx primitives where
  proofId := ProofIds.DEFI_DEPOSIT
  publicValue := 0
  publicOwner := 0
  assetId := 1
  numInputNotes := 2
  inputNote1Index := 0
  inputNote2Index := 1
  inputNote1 := note 10 1 0
  inputNote2 := note 7 2 0
  outputNote1 := note 0 1 16
  outputNote2 := note 2 1 14
  partialClaimNote := ⟨7, ⟨1, 1, 2, 3, 0, ⟨true, false⟩, 0⟩, 0, 16⟩
  signingPubKey := ⟨1, 1⟩
  signature := ()
  merkleRoot := 1
  inputPath1 := ()
  inputPath2 := ()
  accountNoteIndex := 0
  accountNotePath := ()
  accountPrivateKey := 1
  aliasHash := 0
  accountRequired := false
  backwardLink := 0
  allowChain := 0

/-- The circuit accepts the sample. -/
lemma accepted : joinSplitCircuit primitives tx tx.publicInputs := by
  simp only [joinSplitCircuit, suint, valueNote, partialClaimNote, createPointWitness,
    Circuit.bridgeCallData, processInputNote, subtractFee, subtract, createRangeConstraint, bind_assoc,
    pure_bind, Circuit.assert_bind_iff, Circuit.pure_iff]
  and_intros
  all_goals decide +kernel

end SampleJoinSplit

/-- Whatever a prover assigns, no value is created or lost by wrapping around in the field. -/
theorem joinSplit_balanced {tx : JoinSplitTx H} {p : InnerProof} (h : joinSplitCircuit H tx p) :
    tx.Balanced p :=
  ((joinSplitCircuit_accepted tx).apply h).balanced

/-- The fee is what the first note has left. -/
theorem joinSplit_balanced_sample : SampleJoinSplit.tx.isSecondInput = true ∧
    SampleJoinSplit.tx.publicInputs.txFee = 1 ∧
    SampleJoinSplit.tx.Balanced SampleJoinSplit.tx.publicInputs :=
  ⟨by decide +kernel, by decide +kernel, joinSplit_balanced SampleJoinSplit.accepted⟩

end AztecConnect.Circuit
