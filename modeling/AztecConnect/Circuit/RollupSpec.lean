import AztecConnect.Circuit.RootRollup

/-!
# What an accepted rollup has checked

The checks of the rollup circuit, for each transaction (`TxChecked`), and its public inputs as sums
over the transactions (`rollupCircuit_spec`). A transaction that is not real is zero.
-/

namespace AztecConnect.Circuit

open Checks (Ensures count)

variable {H : Primitives} {n : Nat}

/-! ## Matches -/

/-- A sum of selectors is their number. -/
lemma sum_fieldOfBool {N : Nat} (p : Fin N → Bool) : (∑ k, fieldOfBool (p k)) = (count p : Fr) := by
  rw [count, Nat.cast_sum]
  exact Finset.sum_congr rfl fun k _ => fieldOfBool_eq_natCast (p k)

/-- A sum of few selectors fixes their number, as it does not wrap. -/
lemma count_eq_of_sum {N c : Nat} {p : Fin N → Bool} (hN : N < 2 ^ 10) (hc : c < 2 ^ 10)
    (h : (∑ k, fieldOfBool (p k)) = (c : Fr)) : count p = c := by
  rw [sum_fieldOfBool] at h
  have hr := two_pow_lt_fieldModulus
  have hle := Checks.count_le p
  exact natCast_inj (by omega) (by omega) h

/-- The entries in scope that are the bridge call data of a transaction. -/
def RollupScope.isBridgeMatch (scope : RollupScope) (p : InnerProof)
    (k : Fin NUM_BRIDGE_CALLS_PER_BLOCK) : Bool :=
  p.bridgeCallData.val == scope.bridgeCallDatas k && decide (k < scope.numDefiInteractions)

/-- The entries in scope that are the asset in which a transaction pays. -/
def RollupScope.isAssetMatch (scope : RollupScope) (p : InnerProof) (k : Fin NUM_ASSETS) : Bool :=
  p.txFeeAssetId == scope.assetIds k && decide (k < scope.numAssetIds)

/-! ## The fee -/

/-- The inner proof is a defi deposit. -/
def InnerProof.isDefiDeposit (p : InnerProof) : Bool := p.proofId == ProofIds.DEFI_DEPOSIT

/-- The part of the fee that the claim note does not carry. -/
def InnerProof.netFee (p : InnerProof) : Nat := if p.isDefiDeposit then p.txFee.val / 2 else p.txFee.val

/-- The part of the fee that the claim note carries. -/
def InnerProof.claimFee (p : InnerProof) : Nat := p.txFee.val - p.txFee.val / 2

/-! ## One transaction -/

/-- The public inputs of a transaction, zero if it is not real. -/
def RollupTx.masked (rollup : RollupTx H n) (numTxs : Nat) (i : Fin n) : InnerProof :=
  (rollup.txs i).scale (fieldOfBool (i < numTxs))

/-- A real transaction goes in unchanged. -/
lemma RollupTx.masked_real {rollup : RollupTx H n} {numTxs : Nat} {i : Fin n} (h : i < numTxs) :
    rollup.masked numTxs i = rollup.txs i := by
  rw [masked, decide_eq_true h, fieldOfBool_true, InnerProof.scale_one]

/-- A padding one goes in as zeros. -/
lemma RollupTx.masked_padding {rollup : RollupTx H n} {numTxs : Nat} {i : Fin n}
    (h : ¬ i < numTxs) : rollup.masked numTxs i = 0 := by
  rw [masked, decide_eq_false h, fieldOfBool_false, InnerProof.scale_zero]

/-- The nonce in the claim note of a deposit. -/
def claimNonce (rollupId : Fr) (scope : RollupScope) (p : InnerProof) : Fr :=
  (rollupId * NUM_BRIDGE_CALLS_PER_BLOCK +
    ∑ k, (k.val : Fr) * fieldOfBool (scope.isBridgeMatch p k)) * fieldOfBool p.isDefiDeposit

/-- A transaction whose claim note is completed, if it is a deposit. -/
def completed (H : Primitives) (rollupId : Fr) (scope : RollupScope) (p : InnerProof) : InnerProof :=
  { p with noteCommitment1 := if p.isDefiDeposit
      then completeClaimNote H p.noteCommitment1 (claimNonce rollupId scope p) p.claimFee
      else p.noteCommitment1 }

/-- A defi deposit is added to the sum of its bridge call, and the nonce goes into its claim
note. -/
lemma processDefiDeposit_spec (rollupId : Fr) (p : InnerProof) (scope : RollupScope)
    (sums : BridgeCalls Nat) :
    Ensures (processDefiDeposit H rollupId p scope.bridgeCallDatas sums scope.numDefiInteractions)
      fun (p', sums', fee) =>
        (p.bridgeCallData.val < 2 ^ 250 ∧ p.defiDepositValue.val < 2 ^ 242 ∧ p.txFee.val < 2 ^ 242) ∧
        (p.isDefiDeposit = true → ∃! k, scope.isBridgeMatch p k = true) ∧
        p' = completed H rollupId scope p ∧
        (∀ k, sums' k = sums k + p.defiDepositValue.val * p.isDefiDeposit.toNat *
          (scope.isBridgeMatch p k).toNat) ∧
        fee = p.netFee := by
  simp only [processDefiDeposit, Checks.ensures_bind, ensures_rangeCheck, ensures_assertTrue,
    Checks.ensures_pure]
  intro hdata hdeposit hvalid hfee
  refine ⟨⟨hdata, hdeposit, hfee⟩, fun hdefi => ?_, ?_, fun k => rfl, rfl⟩
  · have hdefi' : (p.proofId == ProofIds.DEFI_DEPOSIT) = true := hdefi
    rw [hdefi', Bool.not_true, Bool.or_false, beq_iff_eq, ← Nat.cast_one] at hvalid
    exact Checks.existsUnique_of_count (count_eq_of_sum (by decide) (by decide) hvalid)
  · show _ = completed H rollupId scope p
    unfold completed
    cases hdefi : p.isDefiDeposit with
    | false =>
      have hdefi' : (p.proofId == ProofIds.DEFI_DEPOSIT) = false := hdefi
      simp only [hdefi']
      rfl
    | true =>
      have hdefi' : (p.proofId == ProofIds.DEFI_DEPOSIT) = true := hdefi
      simp only [hdefi', if_true, claimNonce, hdefi, Bool.toNat_true, Nat.mul_one]
      rfl

/-- The fee is added to the total of its asset, if the asset is listed. -/
lemma accumulateTxFees_spec (totals : Assets Nat) (p : InnerProof) (proofId : Fr) (fee : Nat)
    (scope : RollupScope) (isReal : Bool) :
    Ensures (accumulateTxFees totals proofId p.txFeeAssetId fee scope.assetIds scope.numAssetIds isReal)
      fun totals' =>
        (isReal = true → proofId ≠ ProofIds.ACCOUNT → count (scope.isAssetMatch p) ≤ 1) ∧
        ∀ k, totals' k = totals k + fee * (scope.isAssetMatch p k).toNat := by
  simp only [accumulateTxFees, Checks.ensures_bind, ensures_assertTrue, Checks.ensures_pure]
  intro hvalid
  refine ⟨fun hreal haccount => ?_, fun k => rfl⟩
  rw [hreal, Bool.not_true, Bool.false_or, beq_eq_false_iff_ne.mpr haccount, Bool.or_false,
    Bool.or_eq_true, beq_iff_eq, beq_iff_eq] at hvalid
  cases hvalid with
  | inl hzero => exact (count_eq_of_sum (by decide) (by decide) (hzero.trans Nat.cast_zero.symm)).le.trans (by decide)
  | inr hone => exact (count_eq_of_sum (by decide) (by decide) (hone.trans Nat.cast_one.symm)).le

/-! ## The scope -/

/-- The witnesses before the loop. -/
structure Scoped (rollup : RollupTx H n) (scope : RollupScope) : Prop where
  numTxs : scope.numTxs = rollup.numTxs.val
  numTxs_lt : scope.numTxs < 2 ^ 10
  numDefiInteractions : scope.numDefiInteractions = rollup.numDefiInteractions.val
  bridgeCallDatas : ∀ k, scope.bridgeCallDatas k < 2 ^ 250
  bridge_eq : ∀ k : Fin NUM_BRIDGE_CALLS_PER_BLOCK, k < scope.numDefiInteractions →
    scope.bridgeCallDatas k = (rollup.bridgeCallDatas k).val
  bridge_out : ∀ k : Fin NUM_BRIDGE_CALLS_PER_BLOCK, ¬ k < scope.numDefiInteractions →
    scope.bridgeCallDatas k = 0
  bridge_in : ∀ k : Fin NUM_BRIDGE_CALLS_PER_BLOCK, k < scope.numDefiInteractions →
    scope.bridgeCallDatas k ≠ 0
  numAssetIds : scope.numAssetIds = rollup.numAssetIds.val
  assetIds : ∀ k : Fin NUM_ASSETS, k < scope.numAssetIds → scope.assetIds k = rollup.assetIds k
  asset_out : ∀ k : Fin NUM_ASSETS, ¬ k < scope.numAssetIds → scope.assetIds k = MAX_NUM_ASSETS
  asset_in : ∀ k : Fin NUM_ASSETS, k < scope.numAssetIds → scope.assetIds k ≠ MAX_NUM_ASSETS

/-- What is in scope for all transactions of a rollup. -/
lemma rollupScope_spec (rollup : RollupTx H n) : Ensures (rollupScope rollup) (Scoped rollup) := by
  simp only [rollupScope, uint32, Checks.ensures_bind, ensures_rangeCheck, Checks.ensures_require,
    Checks.ensures_pure]
  intro _ hnum hdatas _ hin _ hassets
  refine ⟨rfl, hnum, rfl, fun k => ?_, fun k hk => ?_, fun k hk => ?_, fun k hk => ?_, rfl,
    fun k hk => ?_, fun k hk => ?_, fun k hk => ?_⟩
  · calc (rollup.bridgeCallDatas k).val * _ ≤ (rollup.bridgeCallDatas k).val * 1 :=
          Nat.mul_le_mul_left _ (Bool.toNat_le _)
      _ = (rollup.bridgeCallDatas k).val := Nat.mul_one _
      _ < 2 ^ 250 := hdatas k
  · show _ * (decide (k.val < rollup.numDefiInteractions.val)).toNat = _
    rw [decide_eq_true hk]
    exact Nat.mul_one _
  · show _ * (decide (k.val < rollup.numDefiInteractions.val)).toNat = 0
    rw [decide_eq_false hk]
    exact Nat.mul_zero _
  · have hk' := hin k
    simp only [decide_eq_true hk] at hk'
    simpa [hk] using hk'
  · show (if decide (k.val < rollup.numAssetIds.val) = true then _ else _) = _
    rw [decide_eq_true hk]
    rfl
  · show (if decide (k.val < rollup.numAssetIds.val) = true then _ else _) = _
    rw [decide_eq_false hk]
    rfl
  · have hk' := hassets k
    simp only [decide_eq_true hk] at hk'
    simpa [hk] using hk'

/-! ## All transactions -/

/-- What the body of the loop has checked for a transaction. -/
structure TxChecked (rollup : RollupTx H n) (scope : RollupScope) (i : Fin n) : Prop where
  bridgeCallData : (rollup.masked scope.numTxs i).bridgeCallData.val < 2 ^ 250
  defiDepositValue : (rollup.masked scope.numTxs i).defiDepositValue.val < 2 ^ 242
  txFee : (rollup.masked scope.numTxs i).txFee.val < 2 ^ 242
  deposit : (rollup.masked scope.numTxs i).isDefiDeposit = true →
    ∃! k, scope.isBridgeMatch (rollup.masked scope.numTxs i) k = true
  claim : (rollup.masked scope.numTxs i).proofId = ProofIds.DEFI_CLAIM →
    (rollup.masked scope.numTxs i).defiRoot = rollup.newDefiRoot
  chained : processChainedTxs rollup i (i < scope.numTxs)
    (completed H rollup.rollupId scope (rollup.masked scope.numTxs i))
    (fun j => if j.val < i.val then completed H rollup.rollupId scope (rollup.masked scope.numTxs j)
      else 0) =
      .ok ()
  dataRoot : i < scope.numTxs → (rollup.txs i).merkleRoot ≠ 0 ∧
    H.checkMembership rollup.dataRootsRoot (rollup.dataRootsPaths i) (rollup.txs i).merkleRoot
      (rollup.dataRootsIndicies i).val = true
  asset : i < scope.numTxs → (rollup.txs i).proofId ≠ ProofIds.ACCOUNT →
    count (scope.isAssetMatch (rollup.txs i)) ≤ 1

/-- The deposit that a transaction adds to an entry. -/
def RollupScope.depositAt (scope : RollupScope) (p : InnerProof)
    (k : Fin NUM_BRIDGE_CALLS_PER_BLOCK) : Nat :=
  p.defiDepositValue.val * p.isDefiDeposit.toNat * (scope.isBridgeMatch p k).toNat

/-- The fee that a transaction adds to an entry. -/
def RollupScope.feeAt (scope : RollupScope) (p : InnerProof) (k : Fin NUM_ASSETS) : Nat :=
  p.netFee * (scope.isAssetMatch p k).toNat

/-- The state of the loop before the `i`-th transaction. -/
structure LoopInv (rollup : RollupTx H n) (scope : RollupScope) (i : Nat) (st : RollupLoop n) :
    Prop where
  checked : ∀ j : Fin n, j.val < i → TxChecked rollup scope j
  publicInputs : st.publicInputs = fun j =>
    if j.val < i then completed H rollup.rollupId scope (rollup.masked scope.numTxs j) else 0
  deposits : ∀ k, st.defiDepositSums k =
    ∑ j : Fin n, if j.val < i then scope.depositAt (rollup.masked scope.numTxs j) k else 0
  fees : ∀ k, st.totalTxFees k =
    ∑ j : Fin n, if j.val < i then scope.feeAt (rollup.masked scope.numTxs j) k else 0

/-- One transaction. -/
lemma rollupStep_spec (rollup : RollupTx H n) (scope : RollupScope) (i : Fin n) (st : RollupLoop n)
    (hst : LoopInv rollup scope i st) :
    Ensures (rollupStep rollup scope st i) (LoopInv rollup scope (i + 1)) := by
  simp only [rollupStep, Checks.ensures_bind]
  refine (processDefiDeposit_spec _ _ _ _).mono ?_
  rintro ⟨p', sums', fee⟩ ⟨⟨hdata, hdeposit, hfee⟩, hmatch, rfl, hsums, rfl⟩
  simp only [processClaims, ensures_assertTrue, decomposeIntoBits, ensures_rangeCheck]
  intro hclaim _ hchained hindex hroot
  refine (accumulateTxFees_spec _ _ _ _ _ _).mono ?_
  rintro totals' ⟨hasset, htotals⟩
  rw [Checks.ensures_pure]
  have hchecked : TxChecked rollup scope i := by
    refine ⟨hdata, hdeposit, hfee, hmatch, fun hid => ?_, ?_, fun hreal => ?_, fun hreal => ?_⟩
    · have hid' : ((completed H rollup.rollupId scope (rollup.masked scope.numTxs i)).proofId ==
          ProofIds.DEFI_CLAIM) = true := beq_iff_eq.mpr hid
      rw [RollupTx.masked] at hid'
      rw [hid', Bool.not_true, Bool.or_false, beq_iff_eq] at hclaim
      exact hclaim
    · rw [← hst.publicInputs]
      exact hchained
    · rw [decide_eq_true hreal, beq_iff_eq] at hroot
      have hroot' := hroot.symm
      rw [Bool.and_eq_true, bne_iff_ne, fieldOfBool_true, InnerProof.scale_one] at hroot'
      exact hroot'
    · rw [← RollupTx.masked_real hreal]
      exact hasset (decide_eq_true hreal)
  refine ⟨fun j hj => ?_, funext fun j => ?_, fun k => ?_, fun k => ?_⟩
  · rcases Nat.lt_succ_iff_lt_or_eq.mp hj with hlt | heq
    · exact hst.checked j hlt
    · exact Fin.ext heq ▸ hchecked
  · show Function.update st.publicInputs i _ j = _
    rcases lt_trichotomy j.val i.val with hlt | heq | hgt
    · rw [Function.update_of_ne (fun h => by omega), hst.publicInputs, if_pos (by omega)]
      exact if_pos hlt
    · cases Fin.ext heq
      rw [Function.update_self, if_pos (Nat.lt_succ_self _)]
      rfl
    · rw [Function.update_of_ne (fun h => by omega), hst.publicInputs, if_neg (by omega)]
      exact if_neg (by omega)
  · rw [Checks.sum_lt_succ, ← hst.deposits k]
    exact hsums k
  · rw [Checks.sum_lt_succ, ← hst.fees k]
    exact htotals k

/-! ## The rollup -/

/-- An accepted rollup: the checks, and the public inputs. -/
structure RollupSpec (rollup : RollupTx H n) (scope : RollupScope) (proof : RollupProof) : Prop where
  inScope : Scoped rollup scope
  checked : ∀ i, TxChecked rollup scope i
  dataStartIndex : rollup.dataStartIndex.val < 2 ^ 32
  dataUpdated : H.batchUpdateMembership rollup.newDataRoot rollup.oldDataRoot rollup.oldDataPath
    (newDataValues fun i => completed H rollup.rollupId scope (rollup.masked scope.numTxs i))
    rollup.dataStartIndex = true
  nullifiers : checkNullifiersInserted rollup scope.numTxs
    (fun i => completed H rollup.rollupId scope (rollup.masked scope.numTxs i)) = .ok proof.newNullRoot
  proof_eq : proof = {
    rollupId := rollup.rollupId, rollupSize := rollupSizePow2 n
    dataStartIndex := rollup.dataStartIndex
    oldDataRoot := rollup.oldDataRoot, newDataRoot := rollup.newDataRoot
    oldNullRoot := rollup.oldNullRoot, newNullRoot := proof.newNullRoot
    oldDataRootsRoot := rollup.dataRootsRoot, newDataRootsRoot := rollup.newDataRootsRoot
    oldDefiRoot := 0, newDefiRoot := rollup.newDefiRoot
    defiBridgeCallDatas := fun k => scope.bridgeCallDatas k
    defiBridgeDeposits := fun k =>
      (∑ i, scope.depositAt (rollup.masked scope.numTxs i) k : Nat)
    assetIds := scope.assetIds
    totalTxFees := fun k => (∑ i, scope.feeAt (rollup.masked scope.numTxs i) k : Nat)
    inputsHash := H.sha256ToField (innerProofsData fun i =>
      completed H rollup.rollupId scope (rollup.masked scope.numTxs i))
    innerProofsData := innerProofsData fun i =>
      completed H rollup.rollupId scope (rollup.masked scope.numTxs i) }

/-- The invariant of the loop holds at its start. -/
lemma loopInv_init (rollup : RollupTx H n) (scope : RollupScope) :
    LoopInv rollup scope 0 RollupLoop.init where
  checked _ hj := absurd hj (Nat.not_lt_zero _)
  publicInputs := funext fun _ => (if_neg (Nat.not_lt_zero _)).symm
  deposits _ := (Checks.sum_lt_zero _).symm
  fees _ := (Checks.sum_lt_zero _).symm

/-- Every accepted inner rollup meets its specification. -/
theorem rollupCircuit_spec (rollup : RollupTx H n) : Ensures (rollupCircuit rollup) fun proof =>
    ∃ scope, RollupSpec rollup scope proof := by
  simp only [rollupCircuit, Checks.ensures_bind, ensures_rangeCheck, ensures_assertTrue]
  refine (rollupScope_spec rollup).mono fun scope hscope hstart => ?_
  refine (Checks.ensures_foldlM (loopInv_init rollup scope) (rollupStep_spec rollup scope)).mono
    fun st hst hdata newNullRoot hnull => Checks.ensures_pure.mpr ?_
  have hinputs : st.publicInputs = fun i =>
      completed H rollup.rollupId scope (rollup.masked scope.numTxs i) := by
    rw [hst.publicInputs]
    exact funext fun i => if_pos i.isLt
  rw [hinputs] at hdata hnull
  refine ⟨scope, hscope, fun i => hst.checked i i.isLt, hstart, ?_, hnull, ?_⟩
  · rw [natCast_val] at hdata
    exact hdata
  · rw [hinputs]
    simp only [hst.deposits, hst.fees, Checks.sum_lt_all, natCast_val]

end AztecConnect.Circuit
