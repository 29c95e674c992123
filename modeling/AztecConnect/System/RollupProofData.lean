import AztecConnect.Circuit.Account
import AztecConnect.Circuit.Claim
import AztecConnect.Circuit.JoinSplit
import AztecConnect.Client.RollupProofData

/-!
# The formats of rollup proofs and the circuits

What the circuits publish of a transaction is in the ranges with which the client's formats are read
back, except that the join split circuit does not keep the owner of a deposit or a withdrawal below
`2 ^ 160`. An owner that is no address cannot be encoded (`not_roundTrips`).
-/

namespace AztecConnect.System

open ByteFormat Client.RollupProof AztecConnect.Circuit
open Client (ProofId.DEPOSIT ProofId.WITHDRAW ProofId.SEND ProofId.ACCOUNT ProofId.DEFI_DEPOSIT
  ProofId.DEFI_CLAIM ProofId.PADDING)

variable {H : Primitives}

/-- The inner proof of the public inputs of a circuit. -/
def published (p : InnerProof) : InnerProofData where
  proofId := p.proofId.val
  noteCommitment1 := beBytes 32 p.noteCommitment1.val
  noteCommitment2 := beBytes 32 p.noteCommitment2.val
  nullifier1 := beBytes 32 p.nullifier1.val
  nullifier2 := beBytes 32 p.nullifier2.val
  publicValue := beBytes 32 p.publicValue.val
  publicOwner := beBytes 32 p.publicOwner.val
  publicAssetId := beBytes 32 p.publicAssetId.val

/-- What a circuit publishes of its kind is what the client assumes. -/
lemma published_enforced {p : InnerProof} {id : Nat} (hp : p.proofId = id) (hid : id ≤ 6)
    (hpos : 0 < id) (hunpublished : id ∉ [ProofId.DEPOSIT, ProofId.WITHDRAW] →
      p.publicValue = 0 ∧ p.publicOwner = 0 ∧ p.publicAssetId = 0)
    (hasset : p.publicAssetId.val < 2 ^ 30) : (published p).Enforced := by
  have hval : (published p).proofId = id := by
    have hmodulus : id < fieldModulus := Nat.lt_of_le_of_lt hid (by decide)
    rw [published, hp, val_natCast_of_lt hmodulus]
  have hzero : beBytes 32 (0 : Fr).val = alloc 32 := by
    rw [ZMod.val_zero]
    rfl
  refine ⟨hval ▸ hid, length_beBytes _ _, length_beBytes _ _, length_beBytes _ _, length_beBytes _ _,
    length_beBytes _ _, length_beBytes _ _, length_beBytes _ _, fun h => ?_, fun h => ?_, fun _ => ?_⟩
  · exact absurd (hval.symm.trans h) hpos.ne'
  · rw [hval] at h
    have hnot : id ∉ [ProofId.DEPOSIT, ProofId.WITHDRAW] := by
      intro hpublic
      simp only [List.mem_cons, List.not_mem_nil, or_false, ProofId.DEPOSIT, ProofId.WITHDRAW, ProofId.SEND,
        ProofId.ACCOUNT, ProofId.DEFI_DEPOSIT, ProofId.DEFI_CLAIM] at h hpublic
      omega
    obtain ⟨hvalue, howner, hassetId⟩ := hunpublished hnot
    rw [published, hvalue, howner, hassetId]
    exact ⟨hzero, hzero, hzero⟩
  · have hwidth : p.publicAssetId.val < 256 ^ 32 := Nat.lt_trans hasset (by decide)
    show beNat (beBytes 32 p.publicAssetId.val) < 2 ^ 30
    rw [beNat_beBytes hwidth]
    exact hasset

/-- Padding is published as padding. -/
lemma published_zero : published 0 = .PADDING := by
  have hzero : beBytes 32 (0 : Fr).val = alloc 32 := by
    rw [ZMod.val_zero]
    rfl
  have hid : (published 0).proofId = 0 := @ZMod.val_zero fieldModulus
  exact InnerProofData.ext hid hzero hzero hzero hzero hzero hzero hzero

/-- Zero is in range. -/
lemma zero_range : (0 : Fr).val < 2 ^ 30 := by
  rw [ZMod.val_zero]
  decide

/-- The account circuit enforces it. -/
lemma accountCircuit_enforced (tx : AccountTx H) :
    (accountCircuit H tx).Ensures fun p => (published p).Enforced := by
  refine (accountCircuit_accepted tx).mono fun p h => ?_
  rw [h.proof_eq]
  exact published_enforced (show ProofIds.ACCOUNT = ((4 : Nat) : Fr) from rfl) (by decide) (by decide)
    (fun _ => ⟨rfl, rfl, rfl⟩) zero_range

/-- So does the claim circuit. -/
lemma claimCircuit_enforced (tx : ClaimTx H) :
    (claimCircuit H tx).Ensures fun p => (published p).Enforced := by
  simp only [claimCircuit, Circuit.ensures_bind, ensures_suint, ensures_claimNoteWitnessData,
    ensures_defiInteractionNote, Circuit.ensures_assert, Circuit.ensures_pure, subtract,
    ensures_createRangeConstraint]
  intros
  refine (Circuit.ensures_trivial _).mono fun rc₁ _ _ => (Circuit.ensures_trivial _).mono fun rc₂ _ => ?_
  intros
  exact published_enforced (show ProofIds.DEFI_CLAIM = ((6 : Nat) : Fr) from rfl) (by decide) (by decide)
    (fun _ => ⟨rfl, rfl, rfl⟩) zero_range

/-- The owner is not kept below `2 ^ 160`. -/
lemma joinSplitCircuit_enforced (tx : JoinSplitTx H) :
    (joinSplitCircuit H tx).Ensures fun p => (published p).Enforced := by
  simp only [joinSplitCircuit, Circuit.ensures_bind, ensures_suint, Circuit.ensures_assert,
    ensures_createPointWitness, ensures_valueNote, ensures_partialClaimNote, subtractFee, subtract,
    ensures_createRangeConstraint, ensures_processInputNote, Circuit.ensures_pure]
  intro hvalue hassetId _ _ _ _ _ _ _ _ _ _ _ hpublicValue hpublicOwner hproofId
  intros
  clear * - hvalue hassetId hpublicValue hpublicOwner hproofId
  have hasset (b : Bool) : ((tx.assetId.val * b.toNat : Nat) : Fr).val < 2 ^ 30 := by
    have hle : tx.assetId.val * b.toNat < 2 ^ 30 := by
      refine Nat.lt_of_le_of_lt (Nat.mul_le_mul_left _ b.toNat_le) ?_
      rw [Nat.mul_one]
      exact hassetId
    rwa [val_natCast_of_lt (Nat.lt_trans hle (by decide))]
  -- without a public value there is neither a public owner nor a public asset
  have hprivate (h : (tx.proofId == ProofIds.DEPOSIT || tx.proofId == ProofIds.WITHDRAW) = false) :
      ((tx.publicValue.val : Nat) : Fr) = 0 ∧ tx.publicOwner = 0 ∧
        ((tx.assetId.val * (tx.proofId == ProofIds.DEPOSIT || tx.proofId == ProofIds.WITHDRAW).toNat : Nat) :
          Fr) = 0 := by
    rw [h] at hpublicValue hpublicOwner ⊢
    have hzero : (tx.publicValue.val == 0) = true := by
      cases hv : tx.publicValue.val == 0 with
      | false => rw [hv] at hpublicValue; exact absurd hpublicValue (by decide)
      | true => rfl
    have hzero' : (tx.publicOwner == 0) = true := by
      cases ho : tx.publicOwner == 0 with
      | false => rw [ho] at hpublicOwner; exact absurd hpublicOwner (by decide)
      | true => rfl
    rw [eq_of_beq hzero]
    exact ⟨Nat.cast_zero, eq_of_beq hzero', Nat.cast_zero⟩
  simp only [List.mem_cons, List.not_mem_nil, or_false] at hproofId
  obtain hid | hid | hid | hid := hproofId
  · exact published_enforced (show tx.proofId = ((1 : Nat) : Fr) from hid) (by decide) (by decide)
      (fun h => absurd (by decide) h) (hasset _)
  · exact published_enforced (show tx.proofId = ((2 : Nat) : Fr) from hid) (by decide) (by decide)
      (fun h => absurd (by decide) h) (hasset _)
  · exact published_enforced (show tx.proofId = ((3 : Nat) : Fr) from hid) (by decide) (by decide)
      (fun _ => hprivate (by rw [hid]; decide)) (hasset _)
  · exact published_enforced (show tx.proofId = ((5 : Nat) : Fr) from hid) (by decide) (by decide)
      (fun _ => hprivate (by rw [hid]; decide)) (hasset _)

/-! ## A rollup of each kind -/

namespace SampleProofData

/-- A deposit. -/
def deposit : InnerProofData :=
  ⟨1, beBytes 32 11, beBytes 32 12, beBytes 32 13, beBytes 32 14, beBytes 32 1000, beBytes 32 9, beBytes 32 1⟩

/-- A transfer. -/
def send : InnerProofData :=
  ⟨3, beBytes 32 21, beBytes 32 22, beBytes 32 23, beBytes 32 24, alloc 32, alloc 32, alloc 32⟩

/-- A withdrawal, the owner of which is no address. -/
def withdrawal : InnerProofData :=
  ⟨2, beBytes 32 31, beBytes 32 32, beBytes 32 33, beBytes 32 34, beBytes 32 1000, beBytes 32 (2 ^ 160),
    beBytes 32 1⟩

/-- The hashes of the proofs of the first rollup. -/
def keccak256 (rawProofData : Bytes) : Bytes :=
  if rawProofData.take 32 = beBytes 32 1 then
    beBytes 32 0x269e0abb4e9c2beb0e95543842c6d0787c2ba23872ecef344255bd1376e94009
  else if rawProofData.take 32 = beBytes 32 3 then
    beBytes 32 0x73adfbc26aa767702e6940f402eb7d88943097498d1841c99c9e443a68d6a46c
  else beBytes 32 0xd397b3b043d87fcd6fad1291ff0bfd16401c274896d8c63a923727f077b8e0b5

/-- The hash of the transaction ids of the first rollup. -/
def sha256 (_ : Bytes) : Bytes :=
  beBytes 32 0x7fd704cd4ec1d75a845049b0f2617efc032a7d1a49355ef179f0caf02a548805

/-- The header of the samples. -/
def header (rollupSize : Nat) : HeaderInputs where
  rollupId := 5
  rollupSize
  dataStartIndex := 16
  oldDataRoot := beBytes 32 1
  newDataRoot := beBytes 32 2
  oldNullRoot := beBytes 32 3
  newNullRoot := beBytes 32 4
  oldDataRootsRoot := beBytes 32 5
  newDataRootsRoot := beBytes 32 6
  oldDefiRoot := beBytes 32 7
  newDefiRoot := beBytes 32 8
  bridgeCallDatas := List.replicate 32 (alloc 32)
  defiDepositSums := List.replicate 32 0
  assetIds := List.replicate 16 1
  totalTxFees := List.replicate 16 10
  defiInteractionNotes := List.replicate 32 (alloc 32)
  prevDefiInteractionHash := beBytes 32 9
  rollupBeneficiary := beBytes 32 10
  numRollupTxs := 1

/-- A deposit, a padding and a send, and a padding behind them. -/
def rollup : RollupProofData := { header 4 with innerProofData := [deposit, .PADDING, send, .PADDING] }

/-- A rollup with a withdrawal to a long address. -/
def withdrawalRollup : RollupProofData := { header 1 with innerProofData := [withdrawal] }

/-- The header is well formed. -/
lemma header_wellFormed {rollupSize : Nat} (h : rollupSize < 2 ^ 32) : (header rollupSize).WellFormed where
  rollupId := by show 5 < 2 ^ 32; decide
  rollupSize := h
  dataStartIndex := by show 16 < 2 ^ 32; decide
  oldDataRoot := length_beBytes _ _
  newDataRoot := length_beBytes _ _
  oldNullRoot := length_beBytes _ _
  newNullRoot := length_beBytes _ _
  oldDataRootsRoot := length_beBytes _ _
  newDataRootsRoot := length_beBytes _ _
  oldDefiRoot := length_beBytes _ _
  newDefiRoot := length_beBytes _ _
  numBridgeCallDatas := List.length_replicate
  bridgeCallDatas b hb := by rw [List.eq_of_mem_replicate hb]; exact List.length_replicate
  numDefiDepositSums := List.length_replicate
  defiDepositSums v hv := by rw [List.eq_of_mem_replicate hv]; exact Nat.two_pow_pos 256
  numAssetIds := List.length_replicate
  assetIds a ha := by rw [List.eq_of_mem_replicate ha]; decide
  numTotalTxFees := List.length_replicate
  totalTxFees a ha := by rw [List.eq_of_mem_replicate ha]; decide
  numDefiInteractionNotes := List.length_replicate
  defiInteractionNotes note hnote := by rw [List.eq_of_mem_replicate hnote]; exact List.length_replicate
  prevDefiInteractionHash := length_beBytes _ _
  rollupBeneficiary := length_beBytes _ _
  numRollupTxs := by show 1 < 2 ^ 32; decide

/-- A transaction with fields in range is enforced. -/
lemma enforced {p : InnerProofData} (hwidths : ∀ f ∈ [p.noteCommitment1, p.noteCommitment2, p.nullifier1,
      p.nullifier2, p.publicValue, p.publicOwner, p.publicAssetId], f.length = 32)
    (hid : p.proofId ≤ 6) (hpadding : p.proofId = 0 → p = .PADDING)
    (hunpublished : p.proofId ∈ [3, 4, 5, 6] →
      p.publicValue = alloc 32 ∧ p.publicOwner = alloc 32 ∧ p.publicAssetId = alloc 32)
    (hasset : beNat p.publicAssetId < 2 ^ 30) : p.Enforced :=
  ⟨hid, hwidths _ (by simp), hwidths _ (by simp), hwidths _ (by simp), hwidths _ (by simp),
    hwidths _ (by simp), hwidths _ (by simp), hwidths _ (by simp), hpadding, hunpublished, fun _ => hasset⟩

/-- The deposit is. -/
lemma deposit_enforced : deposit.Enforced :=
  enforced (by decide) (by decide) (by decide) (by decide) (by decide)

/-- So is the transfer. -/
lemma send_enforced : send.Enforced :=
  enforced (by decide) (by decide) (by decide) (fun _ => ⟨rfl, rfl, rfl⟩) (by decide)

/-- So is padding. -/
lemma padding_enforced : InnerProofData.PADDING.Enforced :=
  enforced (by decide) (by decide) (fun _ => rfl) (by decide) (by decide)

/-- So is the withdrawal. -/
lemma withdrawal_enforced : withdrawal.Enforced :=
  enforced (by decide) (by decide) (by decide) (by decide) (by decide)

/-- So is the rollup of the first two. -/
lemma rollup_enforced : rollup.Enforced where
  header := header_wellFormed (by decide)
  nonempty := by show 0 < 4; decide
  size := rfl
  fits := by show 4 * 256 < 2 ^ 32; decide
  innerProofData := by
    refine List.forall_mem_cons.mpr ⟨deposit_enforced, List.forall_mem_cons.mpr ⟨padding_enforced,
      List.forall_mem_cons.mpr ⟨send_enforced, List.forall_mem_singleton.mpr padding_enforced⟩⟩⟩

/-- So is that of the withdrawal. -/
lemma withdrawalRollup_enforced : withdrawalRollup.Enforced where
  header := header_wellFormed (by decide)
  nonempty := by show 0 < 1; decide
  size := rfl
  fits := by show 1 * 256 < 2 ^ 32; decide
  innerProofData := List.forall_mem_singleton.mpr withdrawal_enforced

/-- Its owners are addresses. -/
lemma rollup_owners : rollup.OwnersAreAddresses := by
  have hdeposit : deposit.OwnerIsAddress := fun _ => by
    show beNat (beBytes 32 9) < 2 ^ 160
    decide
  have hsend : send.OwnerIsAddress := fun h => absurd h (by decide)
  have hpadding : InnerProofData.PADDING.OwnerIsAddress := fun h => absurd h (by decide)
  exact List.forall_mem_cons.mpr ⟨hdeposit, List.forall_mem_cons.mpr ⟨hpadding,
    List.forall_mem_cons.mpr ⟨hsend, List.forall_mem_singleton.mpr hpadding⟩⟩⟩

end SampleProofData

open SampleProofData in
/-- A rollup with padding between and behind its transactions is read back. -/
theorem roundTrips_sample : rollup.RoundTrips keccak256 sha256 :=
  RollupProofData.roundTrips keccak256 sha256 rollup_enforced rollup_owners

open SampleProofData in
/-- The owner that the join split circuit admits is not encoded. -/
theorem not_roundTrips :
    ¬ ∀ x : RollupProofData, x.Enforced → x.RoundTrips keccak256 sha256 := by
  intro h
  obtain ⟨⟨bytes, y, hencode, -⟩, -⟩ := h withdrawalRollup withdrawalRollup_enforced
  have hthrows : withdrawalRollup.encode = .error "Invalid address buffer." := rfl
  rw [hthrows] at hencode
  nomatch hencode

end AztecConnect.System
