import AztecConnect.Circuit.SpentNotes
import Mathlib.Algebra.BigOperators.Fin
import Mathlib.Data.List.Perm.Subperm

/-!
# The value of all notes

Along a chain of accepted root rollups, what is paid out of an asset and what is left in notes is what has
been taken in (`value_conserved`). Each transaction keeps the balance of the notes that it spends and those
that it publishes, and what is spent are notes that earlier transactions have published, each of them
once. This needs that no two of the values that the notes of the chain hash have one hash.
-/

namespace AztecConnect.Circuit

variable {H : Primitives} {place : PlacedTx H}

/-! ## What commitments hash -/

/-- The values that are compressed, and the generators. -/
abbrev Preimage : Type := List Fr × GeneratorIndex

variable (H) in

/-- The hash of what is committed to. -/
def Preimage.hash (x : Preimage) : Fr := H.compress x.1 x.2

/-- The value of a note in an asset: only value notes have one. -/
def Preimage.value (assetId : Fr) : Preimage → Nat
  | ([_, value, assetId', _], .VALUE_NOTE_COMMITMENT) => if assetId' = assetId then value.val else 0
  | _ => 0

/-- The value of notes in an asset. -/
def valueOf (assetId : Fr) (notes : List Preimage) : Nat := (notes.map (Preimage.value assetId)).sum

/-- The values of two lists add up. -/
lemma valueOf_append (assetId : Fr) (l l' : List Preimage) :
    valueOf assetId (l ++ l') = valueOf assetId l + valueOf assetId l' := by
  rw [valueOf, List.map_append, List.sum_append]
  rfl

/-- Different notes that are among others, and those that are left of them. -/
lemma valueOf_diff (assetId : Fr) {l l' : List Preimage} (hnodup : l.Nodup) (hsub : l ⊆ l') :
    valueOf assetId l + valueOf assetId (l'.diff l) = valueOf assetId l' := by
  have hperm : List.Perm (l ++ l'.diff l) l' := List.subperm_append_diff_self_of_count_le fun x _ =>
    (List.subperm_of_subset hnodup hsub).count_le x
  calc valueOf assetId l + valueOf assetId (l'.diff l) = valueOf assetId (l ++ l'.diff l) :=
        (valueOf_append assetId l (l'.diff l)).symm
    _ = valueOf assetId l' := (hperm.map _).sum_eq

namespace ValueNoteTx

variable (H) in

/-- What the commitment of a value note is the hash of. -/
def preimage (note : ValueNoteTx) : Preimage :=
  ([createPartialValueNote H note.secret note.owner note.accountRequired note.creatorPubkey,
    note.value, note.assetId, note.inputNullifier], .VALUE_NOTE_COMMITMENT)

/-- Under the partial commitment. -/
def ownerPreimage (note : ValueNoteTx) : Preimage :=
  ([note.secret, note.owner.x, note.owner.y, fieldOfBool note.accountRequired, note.creatorPubkey],
    .VALUE_NOTE_PARTIAL_COMMITMENT)

/-- Its hash is the commitment. -/
lemma hash_preimage (note : ValueNoteTx) : (note.preimage H).hash H = (note.note H).commitment := by
  show _ = H.compress _ _
  rw [natCast_val, natCast_val]
  rfl

/-- Its value counts for the asset of the note. -/
lemma value_preimage (assetId : Fr) (note : ValueNoteTx) :
    (note.preimage H).value assetId = if note.assetId = assetId then note.value.val else 0 := rfl

end ValueNoteTx

variable (H) in

/-- What the commitment of an account note is the hash of. -/
def accountPreimage (aliasHash : Fr) (accountPublicKey signingPubKey : Point) : Preimage :=
  ([aliasHash, accountPublicKey.x, signingPubKey.x], .ACCOUNT_NOTE_COMMITMENT)

/-- An output note of a claim. -/
def ClaimOutput.preimage (o : ClaimOutput) (partialCommitment inputNullifier : Fr) : Preimage :=
  ([partialCommitment, o.value, o.assetId, inputNullifier], .VALUE_NOTE_COMMITMENT)

/-- The output of a claim is a field element. -/
lemma ClaimTx.value_lt (tx : ClaimTx H) (x : Fr) (a b : Nat) :
    (tx.claimOutput x a b).value < fieldModulus := by
  unfold ClaimTx.claimOutput
  split
  · exact ZMod.val_lt x
  · exact ZMod.val_lt tx.claimNote.depositValue

/-! ## The witnesses of a transaction -/

/-- The slot is not padding. -/
def PlacedTx.Real (place : PlacedTx H) : Prop := place.index.val < place.rollup.numTxs.val

/-- What a prover has assigned to the witnesses of a transaction. -/
inductive TxWitness (place : PlacedTx H) : Type where
  | padding (h : ¬ place.Real)
  | joinSplit (tx : JoinSplitTx H) (hreal : place.Real) (h : joinSplitCircuit H tx place.proof)
  | account (tx : AccountTx H) (h : accountCircuit H tx place.proof)
  | claim (tx : ClaimTx H) (h : claimCircuit H tx place.proof)

/-- Every transaction of accepted root rollups has such witnesses. -/
lemma TxWitness.nonempty {as : List (AcceptedRollup H)} (h : place ∈ placesOf as) :
    Nonempty (TxWitness place) := by
  obtain ⟨a, -, hplace⟩ := List.mem_flatMap.mp h
  obtain ⟨i, -, hplace⟩ := List.mem_flatMap.mp hplace
  obtain ⟨j, -, rfl⟩ := List.mem_map.mp hplace
  by_cases hreal : PlacedTx.Real ⟨a.rollups i, j⟩
  · have hproof : PlacedTx.proof ⟨a.rollups i, j⟩ = (a.rollups i).txs j := RollupTx.masked_real hreal
    cases (a.accepted.rollups i).txs j with
    | joinSplit tx h => exact ⟨.joinSplit tx hreal (hproof ▸ h)⟩
    | account tx h => exact ⟨.account tx (hproof ▸ h)⟩
    | claim tx h => exact ⟨.claim tx (hproof ▸ h)⟩
  · exact ⟨.padding hreal⟩

/-- The inputs that have a value. -/
def JoinSplitTx.spentInputs (tx : JoinSplitTx H) : List (Fin 2) :=
  (List.finRange 2).filter fun k => (tx.inputNote k).value ≠ 0

namespace TxWitness

/-- The notes with a value that are spent. -/
def spent : TxWitness place → List Preimage
  | joinSplit tx _ _ => tx.spentInputs.map fun k => (tx.inputNote k).preimage H
  | _ => []

/-- What their partial commitments hash. -/
def owners : TxWitness place → List Preimage
  | joinSplit tx _ _ => tx.spentInputs.map fun k => (tx.inputNote k).ownerPreimage
  | _ => []

/-- The notes that are published, the claim note of a deposit apart. -/
def outputs : TxWitness place → List Preimage
  | padding _ => []
  | joinSplit tx _ _ => (if tx.isDefiDeposit then [] else [tx.outputNote1.preimage H]) ++
      [tx.outputNote2.preimage H]
  | account tx _ => [accountPreimage tx.aliasHash tx.newAccountPublicKey tx.newSigningPubKey1,
      accountPreimage tx.aliasHash tx.newAccountPublicKey tx.newSigningPubKey2]
  | claim tx _ =>
      let partialCommitment := tx.claimNote.valueNotePartialCommitment
      [tx.output1.preimage partialCommitment place.proof.nullifier1] ++
        if tx.outputNote2Exists then [tx.output2.preimage partialCommitment place.proof.nullifier2]
        else []

/-- What a claim takes of the outputs of an interaction, or back of a deposit. -/
def claimed (assetId : Fr) : TxWitness place → Nat
  | claim tx _ => (if (tx.output1.assetId : Fr) = assetId then tx.output1.value else 0) +
      if tx.outputNote2Exists ∧ (tx.output2.assetId : Fr) = assetId then tx.output2.value else 0
  | _ => 0

/-- What is deposited in an interaction, in one asset or in two. -/
def invested (assetId : Fr) : TxWitness place → Nat
  | joinSplit tx _ _ => (if tx.assetId = assetId then tx.defiDepositValue else 0) +
      if tx.isSecondInput ∧ tx.inputNote2.assetId = assetId then tx.defiDepositValue else 0
  | _ => 0

end TxWitness

/-- The claim note of a deposit. -/
def PlacedTx.ClaimNote (place : PlacedTx H) (x : Preimage) : Prop :=
  ∃ scope, Scoped place.rollup scope ∧ place.proof.isDefiDeposit = true ∧
    x = ([place.proof.noteCommitment1, claimNonce place.rollup.rollupId scope place.proof,
      (place.proof.claimFee : Fr)], .CLAIM_NOTE_COMMITMENT)

/-- All that is hashed for the notes of a chain. -/
def Hashed (initial : List Preimage) {places : List (PlacedTx H)}
    (witness : ∀ i, TxWitness (places.get i)) (x : Preimage) : Prop :=
  x ∈ initial ∨ ∃ i, x ∈ (witness i).spent ∨ x ∈ (witness i).owners ∨ x ∈ (witness i).outputs ∨
    (places.get i).ClaimNote x

/-- The notes that were there or have been published, and have not been spent. -/
def unspent (initial : List Preimage) {places : List (PlacedTx H)}
    (witness : ∀ i, TxWitness (places.get i)) : List Preimage :=
  (initial ++ (List.finRange _).flatMap fun i => (witness i).outputs).diff
    ((List.finRange _).flatMap fun i => (witness i).spent)

/-! ## One transaction -/

namespace InnerProof

/-- What transactions of a kind make public of an asset. -/
def publicAmount (proofId assetId : Fr) (p : InnerProof) : Nat :=
  if p.proofId = proofId ∧ p.publicAssetId = assetId then p.publicValue.val else 0

/-- What is deposited from outside. -/
def deposited (assetId : Fr) (p : InnerProof) : Nat := p.publicAmount ProofIds.DEPOSIT assetId

/-- What is withdrawn. -/
def withdrawn (assetId : Fr) (p : InnerProof) : Nat := p.publicAmount ProofIds.WITHDRAW assetId

/-- The fee of a join-split transaction. The fee of a claim is a part of that of the deposit. -/
def paid (assetId : Fr) (p : InnerProof) : Nat :=
  if p.proofId ∈ [ProofIds.DEPOSIT, ProofIds.WITHDRAW, ProofIds.SEND, ProofIds.DEFI_DEPOSIT] ∧
    p.txFeeAssetId = assetId then p.txFee.val else 0

/-- Only these kinds pay a fee to the rollup. -/
lemma paid_of_notMem {assetId : Fr} {p : InnerProof} (h : p.proofId ∉
    [ProofIds.DEPOSIT, ProofIds.WITHDRAW, ProofIds.SEND, ProofIds.DEFI_DEPOSIT]) :
    p.paid assetId = 0 := if_neg fun hboth => h hboth.1

/-- A public value counts for its own kind only. -/
lemma publicAmount_of_ne {proofId assetId : Fr} {p : InnerProof} (h : p.proofId ≠ proofId) :
    p.publicAmount proofId assetId = 0 := if_neg fun hboth => h hboth.1

end InnerProof

/-- The value of the inputs. Those without a value have none. -/
lemma JoinSplitTx.valueOf_spent (tx : JoinSplitTx H) (assetId : Fr) :
    valueOf assetId (tx.spentInputs.map fun k => (tx.inputNote k).preimage H) =
      (if tx.inputNote1.assetId = assetId then tx.inputNote1.value.val else 0) +
        if tx.inputNote2.assetId = assetId then tx.inputNote2.value.val else 0 := by
  have hsplit := List.sum_map_filter_add_sum_map_filter_not (fun k => (tx.inputNote k).value ≠ 0)
    (fun k => ((tx.inputNote k).preimage H).value assetId) (List.finRange 2)
  have hnone : (((List.finRange 2).filter fun k => ¬ (tx.inputNote k).value ≠ 0).map fun k =>
      ((tx.inputNote k).preimage H).value assetId).sum = 0 := by
    refine List.sum_eq_zero fun v hv => ?_
    obtain ⟨k, hk, rfl⟩ := List.mem_map.mp hv
    have hzero : (tx.inputNote k).value = 0 := by simpa using (List.mem_filter.mp hk).2
    rw [ValueNoteTx.value_preimage, hzero, ZMod.val_zero, ite_self]
  rw [hnone, Nat.add_zero] at hsplit
  rw [valueOf, List.map_map]
  exact hsplit

namespace JoinSplitTx.Accepted

variable {tx : JoinSplitTx H} {p : InnerProof} {assetId : Fr}

/-- A public value is of the asset of the transaction. -/
lemma publicAssetId_of_public (h : tx.Accepted p) (hpublic : tx.isPublicTx = true) :
    p.publicAssetId = tx.assetId := by
  rw [h.publicAssetId, h.publicValue_eq, if_neg (h.isPublicTx.mp hpublic)]

/-- The public value of a kind that is public. -/
lemma publicAmount (h : tx.Accepted p) {proofId : Fr}
    (hpublic : tx.proofId = proofId → tx.isPublicTx = true) :
    p.publicAmount proofId assetId =
      if tx.assetId = assetId then tx.publicValue.val * (tx.proofId == proofId).toNat else 0 := by
  have hid : p.proofId = tx.proofId := congrArg InnerProof.proofId h.proof_eq
  have hvalue : p.publicValue = tx.publicValue := congrArg InnerProof.publicValue h.proof_eq
  by_cases hkind : tx.proofId = proofId
  · rw [InnerProof.publicAmount, h.publicAssetId_of_public (hpublic hkind), hvalue,
      beq_iff_eq.mpr hkind, Bool.toNat_true, Nat.mul_one]
    exact if_congr (and_iff_right (hid.trans hkind)) rfl rfl
  · rw [InnerProof.publicAmount_of_ne (hid ▸ hkind), beq_eq_false_iff_ne.mpr hkind, Bool.toNat_false,
      Nat.mul_zero, ite_self]

/-- A transaction deposits what is paid in. -/
lemma deposited (h : tx.Accepted p) :
    p.deposited assetId = if tx.assetId = assetId then tx.publicInput else 0 := by
  refine h.publicAmount fun hid => ?_
  rw [JoinSplitTx.isPublicTx, JoinSplitTx.isDeposit, beq_iff_eq.mpr hid, Bool.true_or]

/-- It withdraws what is paid out. -/
lemma withdrawn (h : tx.Accepted p) :
    p.withdrawn assetId = if tx.assetId = assetId then tx.publicOutput else 0 := by
  refine h.publicAmount fun hid => ?_
  rw [JoinSplitTx.isPublicTx, JoinSplitTx.isWithdraw, beq_iff_eq.mpr hid, Bool.or_true]

/-- It pays its fee in its asset. -/
lemma paid (h : tx.Accepted p) : p.paid assetId = if tx.assetId = assetId then p.txFee.val else 0 := by
  have hid : p.proofId = tx.proofId := congrArg InnerProof.proofId h.proof_eq
  have hasset : p.txFeeAssetId = tx.assetId := congrArg InnerProof.txFeeAssetId h.proof_eq
  have hmem : p.proofId ∈ [ProofIds.DEPOSIT, ProofIds.WITHDRAW, ProofIds.SEND, ProofIds.DEFI_DEPOSIT] :=
    hid ▸ h.proofId
  rw [InnerProof.paid, hasset]
  exact if_congr (and_iff_right hmem) rfl rfl

/-- The second input note is in the balance, or deposited as a whole. -/
lemma inputNote2_split (h : tx.Accepted p) :
    (if tx.inputNote2.assetId = assetId then tx.inputNote2.value.val else 0) =
      (if tx.assetId = assetId then tx.inputNote2Value else 0) +
        if tx.isSecondInput ∧ tx.inputNote2.assetId = assetId then tx.defiDepositValue else 0 := by
  cases hsecond : tx.isSecondInput with
  | true =>
    have hnone : tx.inputNote2Value = 0 := by
      rw [inputNote2Value, hsecond]
      exact Nat.mul_zero _
    rw [hnone, ite_self, Nat.zero_add, h.secondInput hsecond]
    exact if_congr (and_iff_right rfl).symm rfl rfl
  | false =>
    have hcounted : tx.inputNote2Value = tx.inputNote2.value.val := by
      rw [inputNote2Value, hsecond]
      exact Nat.mul_one _
    have hnot : ¬ (false = true ∧ tx.inputNote2.assetId = assetId) :=
      fun hboth => Bool.false_ne_true hboth.1
    rw [if_neg hnot, Nat.add_zero, ← hcounted]
    by_cases hzero : tx.inputNote2Value = 0
    · rw [hzero, ite_self, ite_self]
    · rw [h.counted hzero]

end JoinSplitTx.Accepted

namespace TxWitness

/-- What comes in is what goes out. -/
def Accounts (assetId : Fr) (w : TxWitness place) : Prop :=
  place.proof.deposited assetId + valueOf assetId w.spent + w.claimed assetId =
    place.proof.withdrawn assetId + valueOf assetId w.outputs + w.invested assetId +
      place.proof.paid assetId

variable {assetId : Fr}

/-- A join-split transaction accounts for what it spends. -/
lemma accounts_joinSplit (tx : JoinSplitTx H) (hreal : place.Real)
    (h : joinSplitCircuit H tx place.proof) : (joinSplit tx hreal h).Accounts assetId := by
  have hacc := (joinSplitCircuit_accepted tx).apply h
  obtain ⟨hin1, hout1, hout2⟩ := hacc.assetIds
  have hbalance := hacc.balanced.balance
  have houtputs : valueOf assetId (joinSplit tx hreal h).outputs =
      if tx.assetId = assetId then tx.outputNote1Value + tx.outputNote2Value else 0 := by
    have hsecond : valueOf assetId [tx.outputNote2.preimage H] =
        if tx.assetId = assetId then tx.outputNote2Value else 0 := by
      rw [← JoinSplitTx.val_inj hout2]
      rfl
    have hfirst : valueOf assetId (if tx.isDefiDeposit then [] else [tx.outputNote1.preimage H]) =
        if tx.assetId = assetId then tx.outputNote1Value else 0 := by
      rw [JoinSplitTx.outputNote1Value]
      cases tx.isDefiDeposit with
      | true =>
        rw [Bool.not_true, Bool.toNat_false, Nat.mul_zero, ite_self]
        rfl
      | false =>
        rw [← JoinSplitTx.val_inj hout1, Bool.not_false, Bool.toNat_true, Nat.mul_one]
        rfl
    rw [outputs, valueOf_append, hfirst, hsecond]
    split
    · rfl
    · rfl
  have hspent : valueOf assetId (joinSplit tx hreal h).spent = _ := tx.valueOf_spent assetId
  have hclaimed : (joinSplit tx hreal h).claimed assetId = 0 := rfl
  have hinvested : (joinSplit tx hreal h).invested assetId =
      (if tx.assetId = assetId then tx.defiDepositValue else 0) +
        if tx.isSecondInput ∧ tx.inputNote2.assetId = assetId then tx.defiDepositValue else 0 := rfl
  rw [Accounts, hacc.deposited, hacc.withdrawn, hacc.paid, houtputs, hspent, hacc.inputNote2_split,
    JoinSplitTx.val_inj hin1, hclaimed, hinvested]
  have hvalue1 : tx.inputNote1.value.val = tx.inputNote1Value := rfl
  rw [hvalue1]
  by_cases hasset : tx.assetId = assetId
  · simp only [if_pos hasset]
    omega
  · simp only [if_neg hasset]
    omega

/-- A transaction that is no join-split transaction takes nothing from outside, and pays nothing out. -/
lemma outside_eq_zero (assetId : Fr) (p : InnerProof) (h : p.proofId ∉
    [ProofIds.DEPOSIT, ProofIds.WITHDRAW, ProofIds.SEND, ProofIds.DEFI_DEPOSIT]) :
    p.deposited assetId = 0 ∧ p.withdrawn assetId = 0 ∧ p.paid assetId = 0 := by
  simp only [List.mem_cons, not_or] at h
  refine ⟨InnerProof.publicAmount_of_ne h.1, InnerProof.publicAmount_of_ne h.2.1, ?_⟩
  refine InnerProof.paid_of_notMem ?_
  simp only [List.mem_cons, not_or]
  exact h

/-- Every transaction does. -/
lemma accounts (w : TxWitness place) (assetId : Fr) : w.Accounts assetId := by
  cases w with
  | joinSplit tx hreal h => exact accounts_joinSplit tx hreal h
  | padding h =>
    have hproof : place.proof = 0 := RollupTx.masked_padding h
    obtain ⟨hin, hout, hpaid⟩ := outside_eq_zero assetId place.proof (by
      rw [hproof]
      decide)
    rw [Accounts, hin, hout, hpaid]
    rfl
  | account tx h =>
    have hid : place.proof.proofId = ProofIds.ACCOUNT :=
      congrArg InnerProof.proofId ((accountCircuit_accepted tx).apply h).proof_eq
    obtain ⟨hin, hout, hpaid⟩ := outside_eq_zero assetId place.proof (by
      rw [hid]
      decide)
    rw [Accounts, hin, hout, hpaid]
    rfl
  | claim tx h =>
    have hid : place.proof.proofId = ProofIds.DEFI_CLAIM := ((claimCircuit_spec tx).apply h).proofId
    obtain ⟨hin, hout, hpaid⟩ := outside_eq_zero assetId place.proof (by
      rw [hid]
      decide)
    have hvalue (o : ClaimOutput) (hlt : o.value < fieldModulus) (partialCommitment nullifier : Fr) :
        valueOf assetId [o.preimage partialCommitment nullifier] =
          if (o.assetId : Fr) = assetId then o.value else 0 := by
      show (if (o.assetId : Fr) = assetId then ((o.value : Nat) : Fr).val else 0) + 0 = _
      rw [val_natCast_of_lt hlt, Nat.add_zero]
    have hlt1 : tx.output1.value < fieldModulus := tx.value_lt _ _ _
    have hlt2 : tx.output2.value < fieldModulus := tx.value_lt _ _ _
    have hoptional : valueOf assetId (if tx.outputNote2Exists then
        [tx.output2.preimage tx.claimNote.valueNotePartialCommitment place.proof.nullifier2] else []) =
          if tx.outputNote2Exists ∧ (tx.output2.assetId : Fr) = assetId then tx.output2.value else 0 := by
      cases tx.outputNote2Exists with
      | true =>
        rw [if_pos rfl, hvalue _ hlt2]
        exact if_congr (and_iff_right rfl).symm rfl rfl
      | false =>
        have hnot : ¬ (false = true ∧ (tx.output2.assetId : Fr) = assetId) :=
          fun hboth => Bool.false_ne_true hboth.1
        rw [if_neg Bool.false_ne_true, if_neg hnot]
        rfl
    have hclaimed : (claim tx h).claimed assetId =
        (if (tx.output1.assetId : Fr) = assetId then tx.output1.value else 0) +
          if tx.outputNote2Exists ∧ (tx.output2.assetId : Fr) = assetId then tx.output2.value else 0 := rfl
    have hnone : valueOf assetId (claim tx h).spent = 0 := rfl
    have hinvested : (claim tx h).invested assetId = 0 := rfl
    rw [Accounts, hin, hout, hpaid, outputs, valueOf_append, hvalue _ hlt1, hoptional, hnone, hinvested,
      hclaimed]
    omega

/-- What a transaction publishes is a claim note, or one of its public inputs. -/
lemma emits_cases {commitment : Fr} (h : place.Emits commitment) :
    (∃ x, place.ClaimNote x ∧ x.hash H = commitment) ∨
      ∃ k, (place.proof.isDefiDeposit = true → k ≠ 0) ∧ place.proof.noteCommitment k = commitment := by
  obtain ⟨scope, hscope, k, hnote⟩ := h
  obtain rfl | rfl : k = 0 ∨ k = 1 := by omega
  · have hfirst : (if place.proof.isDefiDeposit then
        completeClaimNote H place.proof.noteCommitment1
          (claimNonce place.rollup.rollupId scope place.proof) place.proof.claimFee
        else place.proof.noteCommitment1) = commitment := hnote
    cases hdefi : place.proof.isDefiDeposit with
    | true =>
      rw [hdefi, if_pos rfl] at hfirst
      exact .inl ⟨_, ⟨scope, hscope, hdefi, rfl⟩, hfirst⟩
    | false =>
      rw [hdefi, if_neg Bool.false_ne_true] at hfirst
      exact .inr ⟨0, fun htrue => absurd htrue Bool.false_ne_true, hfirst⟩
  · exact .inr ⟨1, fun _ => by decide, hnote⟩

/-- The notes a join-split transaction publishes are those it accounts for. -/
lemma hash_joinSplit (tx : JoinSplitTx H) (hreal : place.Real) (h : joinSplitCircuit H tx place.proof)
    {k : Fin 2} (hk : place.proof.isDefiDeposit = true → k ≠ 0) :
    ∃ x ∈ (joinSplit tx hreal h).outputs, x.hash H = place.proof.noteCommitment k := by
  have hproof := ((joinSplitCircuit_accepted tx).apply h).proof_eq
  obtain rfl | rfl : k = 0 ∨ k = 1 := by omega
  · have hid : place.proof.proofId = tx.proofId := congrArg InnerProof.proofId hproof
    have hdefi : tx.isDefiDeposit = false := by
      refine Bool.eq_false_iff.mpr fun hdefi => hk ?_ rfl
      rw [InnerProof.isDefiDeposit, hid]
      exact hdefi
    have hcommitment : place.proof.noteCommitment1 = tx.outputCommitment1 :=
      congrArg InnerProof.noteCommitment1 hproof
    refine ⟨tx.outputNote1.preimage H, ?_, ?_⟩
    · rw [outputs, hdefi]
      exact List.mem_cons_self
    · show _ = place.proof.noteCommitment1
      rw [ValueNoteTx.hash_preimage, hcommitment, JoinSplitTx.outputCommitment1, hdefi]
      rfl
  · have hcommitment : place.proof.noteCommitment2 = tx.outputCommitment2 :=
      congrArg InnerProof.noteCommitment2 hproof
    refine ⟨tx.outputNote2.preimage H, List.mem_append_right _ List.mem_cons_self, ?_⟩
    rw [ValueNoteTx.hash_preimage]
    exact hcommitment.symm

/-- So are those of an account transaction. -/
lemma hash_account (tx : AccountTx H) (h : accountCircuit H tx place.proof) (k : Fin 2) :
    ∃ x ∈ (account tx h).outputs, x.hash H = place.proof.noteCommitment k := by
  have hproof := ((accountCircuit_accepted tx).apply h).proof_eq
  obtain rfl | rfl : k = 0 ∨ k = 1 := by omega
  · exact ⟨_, List.mem_cons_self, (congrArg InnerProof.noteCommitment1 hproof).symm⟩
  · exact ⟨_, List.mem_cons_of_mem _ List.mem_cons_self,
      (congrArg InnerProof.noteCommitment2 hproof).symm⟩

/-- And those of a claim, apart from an output that is not used. -/
lemma hash_claim (tx : ClaimTx H) (h : claimCircuit H tx place.proof) (k : Fin 2) :
    place.proof.noteCommitment k = 0 ∨
      ∃ x ∈ (claim tx h).outputs, x.hash H = place.proof.noteCommitment k := by
  have hemits := (claimCircuit_emits tx).apply h
  obtain rfl | rfl : k = 0 ∨ k = 1 := by omega
  · exact .inr ⟨_, List.mem_append_left _ List.mem_cons_self, hemits.noteCommitment1.symm⟩
  · have hsecond : place.proof.noteCommitment 1 = if tx.outputNote2Exists then
        tx.output2.commitment H tx.claimNote.valueNotePartialCommitment place.proof.nullifier2 else 0 :=
      hemits.noteCommitment2
    rw [hsecond, outputs]
    cases tx.outputNote2Exists with
    | false => exact .inl rfl
    | true => exact .inr ⟨tx.output2.preimage _ _, List.mem_append_right _ List.mem_cons_self, rfl⟩

/-- What a transaction publishes is zero, one of its outputs, or a claim note. -/
lemma outputs_hash (w : TxWitness place) {commitment : Fr} (h : place.Emits commitment) :
    commitment = 0 ∨ (∃ x ∈ w.outputs, x.hash H = commitment) ∨
      ∃ x, place.ClaimNote x ∧ x.hash H = commitment := by
  rcases emits_cases h with hclaim | ⟨k, hk, rfl⟩
  · exact .inr (.inr hclaim)
  cases w with
  | padding hpad =>
    have hproof : place.proof = 0 := RollupTx.masked_padding hpad
    rw [hproof]
    obtain rfl | rfl : k = 0 ∨ k = 1 := by omega
    · exact .inl rfl
    · exact .inl rfl
  | joinSplit tx hreal h => exact .inr (.inl (hash_joinSplit tx hreal h hk))
  | account tx h => exact .inr (.inl (hash_account tx h k))
  | claim tx h => exact (hash_claim tx h k).imp_right .inl

/-- A spent input is a note that the transaction spends. -/
lemma spends_of_mem {tx : JoinSplitTx H} {k : Fin 2} (hreal : place.Real)
    (h : joinSplitCircuit H tx place.proof) (hk : k ∈ tx.spentInputs) : place.Spends tx k := by
  have hproof : place.proof = place.rollup.txs place.index := RollupTx.masked_real hreal
  refine ⟨hreal, hproof ▸ h, ?_⟩
  simpa using (List.mem_filter.mp hk).2

/-- A note that is spent. -/
lemma mem_spent {w : TxWitness place} {x : Preimage} (h : x ∈ w.spent) :
    ∃ (tx : JoinSplitTx H) (k : Fin 2), place.Spends tx k ∧ x = (tx.inputNote k).preimage H ∧
      (tx.inputNote k).ownerPreimage ∈ w.owners := by
  cases w with
  | joinSplit tx hreal hcircuit =>
    obtain ⟨k, hk, rfl⟩ := List.mem_map.mp h
    exact ⟨tx, k, spends_of_mem hreal hcircuit hk, rfl, List.mem_map_of_mem hk⟩
  | padding => exact absurd h List.not_mem_nil
  | account => exact absurd h List.not_mem_nil
  | claim => exact absurd h List.not_mem_nil

/-- The two inputs are different notes where they cannot be the same. -/
lemma spent_nodup {w : TxWitness place}
    (h : ∀ (tx : JoinSplitTx H) k k', place.Spends tx k → place.Spends tx k' →
      (tx.inputNote k).ownerPreimage ∈ w.owners → (tx.inputNote k').ownerPreimage ∈ w.owners →
      (tx.inputNote k).preimage H = (tx.inputNote k').preimage H → k = k') : w.spent.Nodup := by
  cases w with
  | joinSplit tx hreal hcircuit =>
    refine List.Nodup.map_on (fun k hk k' hk' heq => ?_) ((List.nodup_finRange 2).filter _)
    exact h tx k k' (spends_of_mem hreal hcircuit hk) (spends_of_mem hreal hcircuit hk')
      (List.mem_map_of_mem hk) (List.mem_map_of_mem hk') heq
  | padding => exact List.nodup_nil
  | account => exact List.nodup_nil
  | claim => exact List.nodup_nil

end TxWitness

/-! ## A chain of root rollups -/

variable (H) in
/-- It is the commitment of one of the notes. -/
def CommitsTo (notes : List Preimage) (commitment : Fr) : Prop := ∃ x ∈ notes, x.hash H = commitment

/-- Equal notes have equal owners. -/
lemma ValueNoteTx.owner_eq {hashed : Set Preimage} (hbinding : Set.InjOn (Preimage.hash H) hashed)
    {note note' : ValueNoteTx} (h : note.ownerPreimage ∈ hashed) (h' : note'.ownerPreimage ∈ hashed)
    (heq : note.preimage H = note'.preimage H) : note.owner = note'.owner := by
  have hpartial : note.ownerPreimage.hash H = note'.ownerPreimage.hash H :=
    (List.cons.inj (congrArg Prod.fst heq)).1
  obtain ⟨-, hpoint⟩ := List.cons.inj (congrArg Prod.fst (hbinding h h' hpartial))
  obtain ⟨hx, hy⟩ := List.cons.inj hpoint
  show (⟨note.owner.x, note.owner.y⟩ : Point) = ⟨note'.owner.x, note'.owner.y⟩
  rw [hx, (List.cons.inj hy).1]

section Chain

variable {dataRoot nullRoot rootsRoot : (Nat → Fr) → Fr} {r : Roots} {as : List (AcceptedRollup H)}
  {initial : List Preimage} {witness : ∀ i, TxWitness ((placesOf as).get i)}

/-- Two positions that spend a note are the same. -/
lemma RootsChain.index_unique (hnull : SoundTree H nullRoot)
    (hnullifier : ∀ values, H.blake2s (H.compress values .JOIN_SPLIT_NULLIFIER) ≠ 0)
    (hkey : Function.Injective H.fixedBaseScalarMulG1) {null : Nat → Fr}
    (hroot : r.null = nullRoot null) (h : RootsChain r as)
    (hbinding : Set.InjOn (Preimage.hash H) {x | Hashed initial witness x})
    {i i' : Fin (placesOf as).length} {tx tx' : JoinSplitTx H} {k k' : Fin 2}
    (hs : ((placesOf as).get i).Spends tx k) (hs' : ((placesOf as).get i').Spends tx' k')
    (howner : (tx.inputNote k).ownerPreimage ∈ (witness i).owners)
    (howner' : (tx'.inputNote k').ownerPreimage ∈ (witness i').owners)
    (heq : (tx'.inputNote k').preimage H = (tx.inputNote k).preimage H) : i' = i ∧ k' = k := by
  refine h.spent_unique hnull hnullifier hkey hroot hs hs' ?_ ?_
  · rw [JoinSplitTx.inputCommitment, ← ValueNoteTx.hash_preimage, heq, ValueNoteTx.hash_preimage]
    rfl
  · exact ValueNoteTx.owner_eq hbinding (.inr ⟨i', .inr (.inl howner')⟩)
      (.inr ⟨i, .inr (.inl howner)⟩) heq

/-- The notes that are spent are different. -/
lemma RootsChain.spent_nodup (hnull : SoundTree H nullRoot)
    (hnullifier : ∀ values, H.blake2s (H.compress values .JOIN_SPLIT_NULLIFIER) ≠ 0)
    (hkey : Function.Injective H.fixedBaseScalarMulG1) {null : Nat → Fr}
    (hroot : r.null = nullRoot null) (h : RootsChain r as)
    (hbinding : Set.InjOn (Preimage.hash H) {x | Hashed initial witness x}) :
    ((List.finRange _).flatMap fun i => (witness i).spent).Nodup := by
  refine List.nodup_flatMap.mpr ⟨fun i _ => ?_, ?_⟩
  · refine TxWitness.spent_nodup fun tx k k' hs hs' howner howner' heq => ?_
    exact (h.index_unique hnull hnullifier hkey hroot hbinding hs' hs howner' howner heq).2
  · refine (List.nodup_finRange _).imp fun {i i'} hne x hx hx' => hne ?_
    obtain ⟨tx, k, hs, hxs, howner⟩ := TxWitness.mem_spent hx
    obtain ⟨tx', k', hs', hxs', howner'⟩ := TxWitness.mem_spent hx'
    exact (h.index_unique hnull hnullifier hkey hroot hbinding hs' hs howner' howner
      (hxs.symm.trans hxs')).1

/-- They are among the notes that are there or have been published. -/
lemma RootsChain.spent_subset (hdata : SoundTree H dataRoot) (hroots : SoundTree H rootsRoot)
    (hcommitment : ∀ values, H.compress values .VALUE_NOTE_COMMITMENT ≠ 0)
    (hheld : NotesHeld dataRoot rootsRoot r (CommitsTo H initial)) (h : RootsChain r as)
    (hbinding : Set.InjOn (Preimage.hash H) {x | Hashed initial witness x}) :
    ((List.finRange _).flatMap fun i => (witness i).spent) ⊆
      initial ++ (List.finRange _).flatMap fun i => (witness i).outputs := by
  intro x hx
  obtain ⟨i, -, hxi⟩ := List.mem_flatMap.mp hx
  have hhashed : Hashed initial witness x := .inr ⟨i, .inl hxi⟩
  obtain ⟨tx, k, hs, hxs, -⟩ := TxWitness.mem_spent hxi
  have hnote : x.hash H = tx.inputCommitment k := hxs ▸ ValueNoteTx.hash_preimage _
  rcases h.spent_held hdata hroots hcommitment hheld hs with ⟨y, hy, hhash⟩ | ⟨j, -, hemits⟩
  · rw [hbinding hhashed (.inl hy) (hnote.trans hhash.symm)]
    exact List.mem_append_left _ hy
  · rcases (witness j).outputs_hash hemits with hzero | ⟨y, hy, hhash⟩ | ⟨y, hclaim, hhash⟩
    · exact absurd hzero (hcommitment _)
    · rw [hbinding hhashed (.inr ⟨j, .inr (.inr (.inl hy))⟩) (hnote.trans hhash.symm)]
      exact List.mem_append_right _ (List.mem_flatMap.mpr ⟨j, List.mem_finRange j, hy⟩)
    · -- a claim note has its own generator
      have hsame := hbinding hhashed (.inr ⟨j, .inr (.inr (.inr hclaim))⟩) (hnote.trans hhash.symm)
      obtain ⟨scope, -, -, hy⟩ := hclaim
      have hgenerator : GeneratorIndex.VALUE_NOTE_COMMITMENT = .CLAIM_NOTE_COMMITMENT :=
        congrArg Prod.snd (hxs.symm.trans (hsame.trans hy))
      exact absurd hgenerator (by decide)

end Chain

/-- The value of lists one after the other is the sum of their values. -/
lemma valueOf_flatMap (assetId : Fr) {m : Nat} (f : Fin m → List Preimage) :
    valueOf assetId ((List.finRange m).flatMap f) = ∑ i, valueOf assetId (f i) := by
  rw [Fin.sum_univ_def]
  induction List.finRange m with
  | nil => rfl
  | cons i l ih => rw [List.flatMap_cons, valueOf_append, ih, List.map_cons, List.sum_cons]

/-- A sum over all transactions of the chain is one over their places. -/
lemma sum_txsOf (as : List (AcceptedRollup H)) (f : InnerProof → Nat) :
    ((txsOf as).map f).sum = ∑ i, f ((placesOf as).get i).proof := by
  rw [← placesOf_proof, List.map_map, ← Fin.sum_univ_fun_getElem]
  rfl

/-! ## The value of two sends -/

namespace SampleSpentNotes

/-- The sample has two transactions. -/
lemma length : (placesOf [accepted]).length = 2 := by decide +kernel

/-- None of them is padding. -/
lemma real : ∀ i, ((placesOf [accepted]).get i).index.val <
    ((placesOf [accepted]).get i).rollup.numTxs.val := by decide +kernel

/-- They publish what is in their slots. -/
lemma publicInputs : ∀ i, (SampleChainedTxs.txs (i.cast length)).publicInputs =
    ((placesOf [accepted]).get i).proof := by decide +kernel

/-- The witnesses of the two transactions. -/
def witness (i : Fin (placesOf [accepted]).length) : TxWitness ((placesOf [accepted]).get i) :=
  .joinSplit (txs (i.cast length)) (real i) (publicInputs i ▸ txs_accepted (i.cast length))

/-- The note that the first send spends. -/
def initial : List Preimage := [((txs 0).inputNote 0).preimage primitives]

/-- Everything that is hashed in the sample. -/
def hashed : List Preimage := initial ++ (List.finRange _).flatMap fun i =>
  (witness i).spent ++ (witness i).owners ++ (witness i).outputs

/-- What is hashed is listed. -/
lemma mem_hashed {x : Preimage} (h : Hashed initial witness x) : x ∈ hashed := by
  rcases h with hx | ⟨i, hx⟩
  · exact List.mem_append_left _ hx
  refine List.mem_append_right _ (List.mem_flatMap.mpr ⟨i, List.mem_finRange i, ?_⟩)
  rcases hx with hspent | howner | houtput | ⟨_, -, hdefi, -⟩
  · exact List.mem_append_left _ (List.mem_append_left _ hspent)
  · exact List.mem_append_left _ (List.mem_append_right _ howner)
  · exact List.mem_append_right _ houtput
  · have hnone : ∀ i, ((placesOf [accepted]).get i).proof.isDefiDeposit = false := by decide +kernel
    exact absurd (hdefi.symm.trans (hnone i)) (by decide)

/-- The sample hash has no collision on it. -/
lemma binding : Set.InjOn (Preimage.hash primitives) {x | Hashed initial witness x} := by
  have hinjective : ∀ x ∈ hashed, ∀ y ∈ hashed,
      Preimage.hash primitives x = Preimage.hash primitives y → x = y := by decide +kernel
  exact fun x hx y hy => hinjective x (mem_hashed hx) y (mem_hashed hy)

/-- The notes of the sample are held by the first tree. -/
lemma held : NotesHeld (TreeTable.rootOf table) (TreeTable.rootOf table) roots
    (CommitsTo primitives initial) := by
  refine notesHeld.mono fun x hx => ?_
  subst hx
  exact ⟨_, List.mem_cons_self, by decide +kernel⟩

end SampleSpentNotes

/-- What is withdrawn of an asset, deposited in interactions and paid as fees, with the notes that are left,
is the value of the notes that were there, what is deposited from outside and what claims have taken. -/
theorem value_conserved {dataRoot nullRoot rootsRoot : (Nat → Fr) → Fr}
    (hdata : SoundTree H dataRoot) (hroots : SoundTree H rootsRoot) (hnull : SoundTree H nullRoot)
    (hcommitment : ∀ values, H.compress values .VALUE_NOTE_COMMITMENT ≠ 0)
    (hnullifier : ∀ values, H.blake2s (H.compress values .JOIN_SPLIT_NULLIFIER) ≠ 0)
    (hkey : Function.Injective H.fixedBaseScalarMulG1) {initial : List Preimage} {null : Nat → Fr}
    {r : Roots} (hheld : NotesHeld dataRoot rootsRoot r (CommitsTo H initial))
    (hroot : r.null = nullRoot null) {as : List (AcceptedRollup H)} (h : RootsChain r as)
    (witness : ∀ i, TxWitness ((placesOf as).get i))
    (hbinding : Set.InjOn (Preimage.hash H) {x | Hashed initial witness x}) (assetId : Fr) :
    ((txsOf as).map (InnerProof.withdrawn assetId)).sum + ∑ i, (witness i).invested assetId +
        ((txsOf as).map (InnerProof.paid assetId)).sum + valueOf assetId (unspent initial witness) =
      valueOf assetId initial + ((txsOf as).map (InnerProof.deposited assetId)).sum +
        ∑ i, (witness i).claimed assetId := by
  have hspent : _ + valueOf assetId (unspent initial witness) = _ :=
    valueOf_diff assetId (h.spent_nodup hnull hnullifier hkey hroot hbinding)
      (h.spent_subset hdata hroots hcommitment hheld hbinding)
  rw [valueOf_append, valueOf_flatMap, valueOf_flatMap] at hspent
  have haccounts := Finset.sum_congr (Eq.refl Finset.univ) fun i _ => (witness i).accounts assetId
  simp only [Finset.sum_add_distrib] at haccounts
  rw [sum_txsOf, sum_txsOf, sum_txsOf]
  omega

/-- Two sends of a note with a value of 10, and what is left. -/
theorem value_conserved_sample :
    ((txsOf [SampleSpentNotes.accepted]).map (InnerProof.paid 1)).sum +
      valueOf 1 (unspent SampleSpentNotes.initial SampleSpentNotes.witness) = 10 := by
  have hsound := @TreeTable.sound SampleSpentNotes.table (by decide +kernel)
  have hne (values : List Fr) (g : GeneratorIndex) :
      SampleSpentNotes.primitives.compress values g ≠ 0 := TreeTable.compress_ne values g
  have hempty : SampleSpentNotes.roots.null =
      TreeTable.rootOf SampleSpentNotes.table (TreeTable.leaves []).tree := by decide +kernel
  have hconserved := value_conserved hsound hsound hsound (fun values => hne values _)
    (fun values => hne values .JOIN_SPLIT_NULLIFIER) (fun _ _ heq => congrArg Point.x heq)
    SampleSpentNotes.held hempty SampleSpentNotes.chain SampleSpentNotes.witness
    SampleSpentNotes.binding 1
  have hin : valueOf 1 SampleSpentNotes.initial +
      ((txsOf [SampleSpentNotes.accepted]).map (InnerProof.deposited 1)).sum +
        ∑ i, (SampleSpentNotes.witness i).claimed 1 = 10 := by decide +kernel
  have hout : ((txsOf [SampleSpentNotes.accepted]).map (InnerProof.withdrawn 1)).sum +
      ∑ i, (SampleSpentNotes.witness i).invested 1 = 0 := by decide +kernel
  rwa [hin, hout, Nat.zero_add] at hconserved

end AztecConnect.Circuit
