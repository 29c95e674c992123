import AztecConnect.Circuit.RootRollupSpec

/-!
# The sums of a root rollup

The deposits and fees in the header of an accepted root rollup, as sums over the transactions: every
real deposit is counted in the entry of its bridge call data (`header_deposits`), and every real fee in
the entry of its asset, if its inner rollup lists the asset (`header_fees`). Nothing wraps around in
circuits of up to `2 ^ 10` transactions.
-/

namespace AztecConnect.Circuit

open Checks (count)

variable {H : Primitives} {m n : Nat}

/-! ## One transaction -/

/-- Among the matches of a transaction, at most one counts. -/
lemma sum_unique_match {N : Nat} {v : Nat} {isMatch : Fin N → Bool} (g : Fin N → Nat) {j : Fin N}
    (hj : isMatch j = true) (huniq : ∀ j', isMatch j' = true → j' = j) :
    ∑ j', v * (isMatch j').toNat * g j' = v * g j := by
  rw [Finset.sum_eq_single j]
  · rw [hj, Bool.toNat_true, Nat.mul_one]
  · intro j' _ hne
    cases hm : isMatch j' with
    | false => rw [Bool.toNat_false, Nat.mul_zero, Nat.zero_mul]
    | true => exact absurd (huniq j' hm) hne
  · exact fun h => absurd (Finset.mem_univ j) h

/-- Whether an entry of an inner rollup counts for an entry of the header. -/
def counts (entry header padding : Fr) : Nat := (entry == header).toNat * (!(entry == padding)).toNat

/-- An entry that is no padding counts for its own header. -/
lemma counts_eq {entry header padding : Fr} (h : entry ≠ padding) :
    counts entry header padding = if entry = header then 1 else 0 := by
  rw [counts, beq_eq_false_iff_ne.mpr h, Bool.not_false, Bool.toNat_true, Nat.mul_one]
  by_cases heq : entry = header
  · rw [if_pos heq, beq_iff_eq.mpr heq]
    rfl
  · rw [if_neg heq, beq_eq_false_iff_ne.mpr heq]
    rfl

section

variable {rollup : RollupTx H n} {scope : RollupScope} {p : InnerProof}

/-- A transaction in a bridge call of an inner rollup: the entry is not padding. -/
lemma bridge_entry (hs : Scoped rollup scope) {j : Fin NUM_BRIDGE_CALLS_PER_BLOCK}
    (hj : scope.isBridgeMatch p j = true) :
    (scope.bridgeCallDatas j : Fr) = p.bridgeCallData ∧ (scope.bridgeCallDatas j : Fr) ≠ 0 := by
  rw [RollupScope.isBridgeMatch, Bool.and_eq_true, beq_iff_eq, decide_eq_true_iff] at hj
  have hr := two_pow_lt_fieldModulus
  have hlt := hs.bridgeCallDatas j
  refine ⟨by rw [← hj.1, natCast_val], fun hzero => hs.bridge_in j hj.2 ?_⟩
  exact natCast_inj (by omega) (by omega) (hzero.trans Nat.cast_zero.symm)

/-- The deposit of a transaction in a bridge call. -/
def InnerProof.depositIn (p : InnerProof) (bridgeCallData : Fr) : Nat :=
  if p.proofId = ProofIds.DEFI_DEPOSIT ∧ p.bridgeCallData = bridgeCallData
    then p.defiDepositValue.val else 0

/-- What a transaction adds to an entry of the header. -/
lemma deposit_entries (hs : Scoped rollup scope)
    (hmatch : p.isDefiDeposit = true → ∃! k, scope.isBridgeMatch p k = true) (header : Fr) :
    (∑ j, scope.depositAt p j * counts (scope.bridgeCallDatas j) header 0) = p.depositIn header := by
  unfold InnerProof.depositIn
  cases hdefi : p.isDefiDeposit with
  | false =>
    have hne : p.proofId ≠ ProofIds.DEFI_DEPOSIT := beq_eq_false_iff_ne.mp hdefi
    rw [if_neg fun h => hne h.1]
    refine Finset.sum_eq_zero fun j _ => ?_
    rw [RollupScope.depositAt, hdefi, Bool.toNat_false, Nat.mul_zero, Nat.zero_mul, Nat.zero_mul]
  | true =>
    have heq : p.proofId = ProofIds.DEFI_DEPOSIT := beq_iff_eq.mp hdefi
    obtain ⟨j, hj, huniq⟩ := hmatch hdefi
    obtain ⟨hdata, hne⟩ := bridge_entry hs hj
    simp only [RollupScope.depositAt, hdefi, Bool.toNat_true, Nat.mul_one]
    rw [sum_unique_match _ hj huniq, counts_eq hne, hdata]
    by_cases hh : p.bridgeCallData = header
    · rw [if_pos hh, if_pos ⟨heq, hh⟩, Nat.mul_one]
    · rw [if_neg hh, if_neg fun h => hh h.2, Nat.mul_zero]

/-- The rollup lists the asset among those in which fees are paid. -/
def RollupTx.Lists (rollup : RollupTx H n) (assetId : Fr) : Prop :=
  ∃ j : Fin NUM_ASSETS, j.val < rollup.numAssetIds.val ∧ rollup.assetIds j = assetId

instance (rollup : RollupTx H n) (assetId : Fr) : Decidable (rollup.Lists assetId) :=
  inferInstanceAs (Decidable (∃ j : Fin NUM_ASSETS,
    j.val < rollup.numAssetIds.val ∧ rollup.assetIds j = assetId))

/-- The fee of a transaction in an asset that its rollup lists. -/
def RollupTx.feeIn (rollup : RollupTx H n) (p : InnerProof) (assetId : Fr) : Nat :=
  if rollup.Lists p.txFeeAssetId ∧ p.txFeeAssetId = assetId then p.netFee else 0

/-- A transaction matches the listed asset of its fee. -/
lemma asset_match_iff (hs : Scoped rollup scope) {j : Fin NUM_ASSETS} :
    scope.isAssetMatch p j = true ↔
      j.val < rollup.numAssetIds.val ∧ rollup.assetIds j = p.txFeeAssetId := by
  rw [RollupScope.isAssetMatch, Bool.and_eq_true, beq_iff_eq, decide_eq_true_iff, and_comm, eq_comm,
    hs.numAssetIds]
  refine and_congr_right fun hj => ?_
  rw [hs.assetIds j (hs.numAssetIds ▸ hj)]

/-- What a transaction adds to an entry of the header. -/
lemma fee_entries (hs : Scoped rollup scope)
    (hmatch : count (scope.isAssetMatch p) ≤ 1 ∨ p.netFee = 0) (header : Fr) :
    (∑ j, scope.feeAt p j * counts (scope.assetIds j) header MAX_NUM_ASSETS) =
      rollup.feeIn p header := by
  unfold RollupTx.feeIn
  cases hmatch with
  | inr hfee =>
    rw [hfee, ite_self]
    exact Finset.sum_eq_zero fun j _ => by
      rw [RollupScope.feeAt, hfee, Nat.zero_mul, Nat.zero_mul]
  | inl hcount =>
    by_cases hlists : rollup.Lists p.txFeeAssetId
    · obtain ⟨j, hj⟩ := hlists
      have hm : scope.isAssetMatch p j = true := (asset_match_iff hs).mpr hj
      have hin : j < scope.numAssetIds := hs.numAssetIds ▸ hj.1
      have hone : count (scope.isAssetMatch p) = 1 := by
        refine Nat.le_antisymm hcount ?_
        calc 1 = (scope.isAssetMatch p j).toNat := by rw [hm, Bool.toNat_true]
          _ ≤ count (scope.isAssetMatch p) :=
            Finset.single_le_sum (fun k _ => Nat.zero_le (scope.isAssetMatch p k).toNat)
              (Finset.mem_univ j)
      have huniq (j') (hj' : scope.isAssetMatch p j' = true) : j' = j :=
        (Checks.existsUnique_of_count hone).unique hj' hm
      simp only [RollupScope.feeAt]
      rw [sum_unique_match _ hm huniq, counts_eq (hs.asset_in j hin), hs.assetIds j hin, hj.2]
      by_cases hh : p.txFeeAssetId = header
      · rw [if_pos hh, if_pos ⟨⟨j, hj⟩, hh⟩, Nat.mul_one]
      · rw [if_neg hh, if_neg fun h => hh h.2, Nat.mul_zero]
    · rw [if_neg fun h => hlists h.1]
      refine Finset.sum_eq_zero fun j _ => ?_
      cases hm : scope.isAssetMatch p j with
      | true => exact absurd ⟨j, (asset_match_iff hs).mp hm⟩ hlists
      | false => rw [RollupScope.feeAt, hm, Bool.toNat_false, Nat.mul_zero, Nat.zero_mul]

end

/-- An account transaction pays no fee. -/
lemma netFee_account {p : InnerProof} (h : TxAccepted H p) (hid : p.proofId = ProofIds.ACCOUNT) :
    p.netFee = 0 := by
  have hfee : p.txFee = 0 := by
    cases h with
    | joinSplit tx h =>
      have hmem : p.proofId ∈ [ProofIds.DEPOSIT, ProofIds.WITHDRAW, ProofIds.SEND,
        ProofIds.DEFI_DEPOSIT] := joinSplitCircuit_proofId tx p h
      rw [hid] at hmem
      exact absurd hmem (by decide +kernel)
    | account tx h => exact (accountCircuit_spec tx _ h).2.1
    | claim tx h =>
      have hclaim := (claimCircuit_spec tx _ h).proofId
      rw [hid] at hclaim
      exact absurd hclaim (by decide +kernel)
  rw [InnerProof.netFee, hfee, ZMod.val_zero]
  exact ite_self _

/-! ## One inner rollup -/

/-- Sums over inner rollups are sums over transactions. -/
lemma matchedSum_cast {N : Nat} (header entries : Fin N → Fr) (amount : Fin n → Fin N → Nat)
    (padding : Fr) (k : Fin N) :
    matchedSum header entries (fun j => ((∑ t, amount t j : Nat) : Fr)) padding k =
      ((∑ t, ∑ j, amount t j * counts (entries j) (header k) padding : Nat) : Fr) := by
  rw [Finset.sum_comm, Nat.cast_sum]
  refine Finset.sum_congr rfl fun j _ => ?_
  rw [mul_assoc, fieldOfBool_eq_natCast, fieldOfBool_eq_natCast, ← Nat.cast_mul, ← Nat.cast_mul,
    ← counts, Finset.sum_mul]

section

variable {rollup : RollupTx H n} {scope : RollupScope} {proof : RollupProof}

/-- The sum over the real transactions. -/
def RollupTx.sumReal (rollup : RollupTx H n) (amount : InnerProof → Nat) : Nat :=
  ∑ t : Fin n, if t.val < rollup.numTxs.val then amount (rollup.txs t) else 0

/-- A real transaction is not masked. -/
lemma Scoped.masked_real (hs : Scoped rollup scope) {t : Fin n} (ht : t.val < rollup.numTxs.val) :
    rollup.masked scope.numTxs t = rollup.txs t :=
  RollupTx.masked_real (hs.numTxs ▸ ht)

/-- A sum over the masked transactions is one over the real ones. -/
lemma sum_masked (hs : Scoped rollup scope) {amount : InnerProof → Nat} (hzero : amount 0 = 0) :
    (∑ t, amount (rollup.masked scope.numTxs t)) = rollup.sumReal amount := by
  refine Finset.sum_congr rfl fun t _ => ?_
  by_cases ht : t.val < rollup.numTxs.val
  · rw [if_pos ht, hs.masked_real ht]
  · rw [if_neg ht, RollupTx.masked_padding (hs.numTxs ▸ ht), hzero]

/-- An inner rollup publishes the bridge calls it was given. -/
lemma RollupSpec.bridgeCallData_eq (h : RollupSpec rollup scope proof)
    (j : Fin NUM_BRIDGE_CALLS_PER_BLOCK) : proof.defiBridgeCallDatas j = scope.bridgeCallDatas j :=
  congrFun (congrArg RollupProof.defiBridgeCallDatas h.proof_eq) j

/-- And the assets it was given. -/
lemma RollupSpec.assetId_eq (h : RollupSpec rollup scope proof) (j : Fin NUM_ASSETS) :
    proof.assetIds j = scope.assetIds j :=
  congrFun (congrArg RollupProof.assetIds h.proof_eq) j

/-- What it adds to the deposits of a bridge call is what its transactions deposit. -/
lemma RollupSpec.deposits (h : RollupSpec rollup scope proof) (header : BridgeCalls Fr)
    (k : Fin NUM_BRIDGE_CALLS_PER_BLOCK) :
    matchedSum header proof.defiBridgeCallDatas proof.defiBridgeDeposits 0 k =
      (rollup.sumReal fun p => p.depositIn (header k) : Nat) := by
  have hdatas := congrArg RollupProof.defiBridgeCallDatas h.proof_eq
  have hdeposits := congrArg RollupProof.defiBridgeDeposits h.proof_eq
  rw [hdatas, hdeposits, matchedSum_cast, ← sum_masked h.inScope rfl]
  exact congrArg Nat.cast (Finset.sum_congr rfl fun t _ =>
    deposit_entries h.inScope (h.checked t).deposit (header k))

/-- What it adds to the fees of an asset is what its transactions pay. -/
lemma RollupSpec.fees (h : RollupSpec rollup scope proof) (htxs : ∀ t, TxAccepted H (rollup.txs t))
    (header : Assets Fr) (k : Fin NUM_ASSETS) :
    matchedSum header proof.assetIds proof.totalTxFees MAX_NUM_ASSETS k =
      (rollup.sumReal fun p => rollup.feeIn p (header k) : Nat) := by
  have hassets := congrArg RollupProof.assetIds h.proof_eq
  have hfees := congrArg RollupProof.totalTxFees h.proof_eq
  have hzero : rollup.feeIn 0 (header k) = 0 := ite_self _
  rw [hassets, hfees, matchedSum_cast, ← sum_masked h.inScope hzero]
  refine congrArg Nat.cast (Finset.sum_congr rfl fun t _ => fee_entries h.inScope ?_ (header k))
  by_cases ht : t.val < scope.numTxs
  · rw [RollupTx.masked_real ht]
    by_cases hid : (rollup.txs t).proofId = ProofIds.ACCOUNT
    · exact .inr (netFee_account (htxs t) hid)
    · exact .inl ((h.checked t).asset ht hid)
  · rw [RollupTx.masked_padding ht]
    exact .inr rfl

end

/-! ## The root rollup -/

/-- Sums of up to `2 ^ 10` amounts of 242 bits do not wrap around. -/
lemma val_of_sum {amount : Fin m → Fin n → Nat} (hsize : m * n ≤ 2 ^ MAX_TXS_BIT_LENGTH)
    (h : ∀ i t, amount i t < 2 ^ 242) {x : Fr} (hx : x = (∑ i, ∑ t, amount i t : Nat)) :
    x.val = ∑ i, ∑ t, amount i t := by
  have hle : ∑ i, ∑ t, amount i t ≤ m * n * 2 ^ 242 :=
    calc ∑ i, ∑ t, amount i t ≤ ∑ _i : Fin m, ∑ _t : Fin n, 2 ^ 242 :=
          Finset.sum_le_sum fun i _ => Finset.sum_le_sum fun t _ => (h i t).le
      _ = m * n * 2 ^ 242 := by
          simp only [Finset.sum_const, Finset.card_univ, Fintype.card_fin, smul_eq_mul]
          exact (Nat.mul_assoc m n _).symm
  have hbound : m * n * 2 ^ 242 ≤ 2 ^ MAX_TXS_BIT_LENGTH * 2 ^ 242 := Nat.mul_le_mul_right _ hsize
  have hr := two_pow_lt_fieldModulus
  have hpow : 2 ^ MAX_TXS_BIT_LENGTH * 2 ^ 242 = 2 ^ 252 := rfl
  rw [hx]
  exact val_natCast_of_lt (by omega)

/-- A transaction that is not padding, in an inner rollup that is not padding. -/
def IsReal (tx : RootRollupTx H m) (rollups : Fin m → RollupTx H n) (i : Fin m) (t : Fin n) : Prop :=
  i.val < tx.numInnerProofs.val ∧ t.val < (rollups i).numTxs.val

instance (tx : RootRollupTx H m) (rollups : Fin m → RollupTx H n) (i : Fin m) (t : Fin n) :
    Decidable (IsReal tx rollups i t) := instDecidableAnd

section

variable {tx : RootRollupTx H m} {rollups : Fin m → RollupTx H n} {proof : RootRollupProof}

/-- Its inner rollups are as specified. -/
lemma RootAccepted.inner (h : RootAccepted tx rollups proof) (i : Fin m) :
    ∃ scope, RollupSpec (rollups i) scope (tx.rollups i) :=
  rollupCircuit_spec (rollups i) _ (h.rollups i).accepted

/-- So is the root rollup. -/
lemma RootAccepted.root (h : RootAccepted tx rollups proof) :
    RootRollupSpec tx (rollupSizePow2 n) (rollupSizePow2 (m * rollupSizePow2 n))
      tx.numInnerProofs.val proof := by
  obtain ⟨num, hspec⟩ := rootRollupCircuit_spec tx _ _ _ h.accepted
  exact hspec.num_eq ▸ hspec

/-- The amounts of the inner rollups that are real, in an entry of the header. -/
lemma header_entry (hsize : m * n ≤ 2 ^ MAX_TXS_BIT_LENGTH)
    (amount : Fin m → InnerProof → Nat) {x : Fr} {inner : Fin m → Fr}
    (hx : x = ∑ i : Fin m, if i.val < tx.numInnerProofs.val then inner i else 0)
    (hinner : ∀ i, inner i = ((rollups i).sumReal (amount i) : Nat))
    (hrange : ∀ i t, IsReal tx rollups i t → amount i ((rollups i).txs t) < 2 ^ 242) :
    x.val = ∑ i, ∑ t, if IsReal tx rollups i t then amount i ((rollups i).txs t) else 0 := by
  refine val_of_sum hsize (fun i t => ?_) (hx.trans ?_)
  · split
    case isTrue hreal => exact hrange i t hreal
    case isFalse => exact Nat.two_pow_pos 242
  · rw [Nat.cast_sum]
    refine Finset.sum_congr rfl fun i _ => ?_
    by_cases hi : i.val < tx.numInnerProofs.val
    · rw [if_pos hi, hinner i]
      refine congrArg Nat.cast (Finset.sum_congr rfl fun t _ => ?_)
      exact if_congr ⟨fun ht => ⟨hi, ht⟩, fun ht => ht.2⟩ rfl rfl
    · rw [if_neg hi, Finset.sum_eq_zero fun t _ => if_neg fun ht => hi ht.1, Nat.cast_zero]

/-- Values of real transactions are in range. -/
lemma RootAccepted.txChecked (h : RootAccepted tx rollups proof) {i : Fin m} {t : Fin n}
    (ht : t.val < (rollups i).numTxs.val) :
    ((rollups i).txs t).defiDepositValue.val < 2 ^ 242 ∧ ((rollups i).txs t).txFee.val < 2 ^ 242 := by
  obtain ⟨scope, hspec⟩ := h.inner i
  have hchecked := hspec.checked t
  have hmasked := hspec.inScope.masked_real ht
  exact ⟨hmasked ▸ hchecked.defiDepositValue, hmasked ▸ hchecked.txFee⟩

/-- The net fee is at most the fee. -/
lemma netFee_le (p : InnerProof) : p.netFee ≤ p.txFee.val := by
  unfold InnerProof.netFee
  split
  · exact Nat.div_le_self _ _
  · exact Nat.le_refl _

/-- A deposit is counted in one entry of the header. -/
lemma RootAccepted.deposit_entry (h : RootAccepted tx rollups proof) {i : Fin m} {t : Fin n}
    (hreal : IsReal tx rollups i t) (hid : ((rollups i).txs t).proofId = ProofIds.DEFI_DEPOSIT) :
    ∃! k, proof.header.bridgeCallDatas k = ((rollups i).txs t).bridgeCallData := by
  obtain ⟨scope, hspec⟩ := h.inner i
  have hmasked := hspec.inScope.masked_real hreal.2
  obtain ⟨j, hj, -⟩ := (hspec.checked t).deposit (hmasked ▸ beq_iff_eq.mpr hid)
  obtain ⟨hdata, hne⟩ := bridge_entry hspec.inScope hj
  have hmatched := (h.root.checked i hreal.1).bridges j
  rw [hspec.bridgeCallData_eq, hdata, hmasked] at hmatched
  have hheader := congrArg RootRollupHeader.bridgeCallDatas h.root.header
  rw [hheader]
  refine hmatched ?_
  rw [← hmasked, ← hdata]
  exact hne

/-- A fee in an asset that the inner rollup lists is counted in one entry of the header. -/
lemma RootAccepted.fee_entry (h : RootAccepted tx rollups proof) {i : Fin m}
    (hi : i.val < tx.numInnerProofs.val) {assetId : Fr} (hlists : (rollups i).Lists assetId) :
    ∃! k, proof.header.assetIds k = assetId := by
  obtain ⟨scope, hspec⟩ := h.inner i
  obtain ⟨j, hj, rfl⟩ := hlists
  have hin : j < scope.numAssetIds := hspec.inScope.numAssetIds ▸ hj
  have hmatched := (h.root.checked i hi).assets j
  rw [hspec.assetId_eq] at hmatched
  have hheader := congrArg RootRollupHeader.assetIds h.root.header
  rw [hheader, ← hspec.inScope.assetIds j hin]
  exact hmatched (hspec.inScope.asset_in j hin)

end

/-- The header of an accepted root rollup: the deposits of the real transactions, each in the entry of
its bridge call data, and their net fees, each in the entry of its asset if the inner rollup lists it.
The claim note of a deposit carries the rest of its fee. -/
theorem header_sums {tx : RootRollupTx H m} {rollups : Fin m → RollupTx H n} {proof : RootRollupProof}
    (h : RootAccepted tx rollups proof) (hsize : m * n ≤ 2 ^ MAX_TXS_BIT_LENGTH) :
    (∀ k, (proof.header.defiDepositSums k).val = ∑ i, ∑ t, if IsReal tx rollups i t
      then ((rollups i).txs t).depositIn (proof.header.bridgeCallDatas k) else 0) ∧
    (∀ k, (proof.header.totalTxFees k).val = ∑ i, ∑ t, if IsReal tx rollups i t
      then (rollups i).feeIn ((rollups i).txs t) (proof.header.assetIds k) else 0) ∧
    ∀ i t, IsReal tx rollups i t →
      ((rollups i).txs t).defiDepositValue.val < 2 ^ 242 ∧
      ((rollups i).txs t).txFee.val < 2 ^ 242 ∧
      (((rollups i).txs t).proofId = ProofIds.DEFI_DEPOSIT →
        ∃! k, proof.header.bridgeCallDatas k = ((rollups i).txs t).bridgeCallData) ∧
      ((rollups i).Lists ((rollups i).txs t).txFeeAssetId →
        ∃! k, proof.header.assetIds k = ((rollups i).txs t).txFeeAssetId) ∧
      ∃ published : Fin n → InnerProof,
        (tx.rollups i).innerProofsData = innerProofsData published ∧
        (((rollups i).txs t).proofId = ProofIds.DEFI_DEPOSIT → ∃ nonce claimFee,
          (published t).noteCommitment1 =
            completeClaimNote H ((rollups i).txs t).noteCommitment1 nonce claimFee ∧
          ((rollups i).txs t).netFee + claimFee = ((rollups i).txs t).txFee.val) := by
  refine ⟨fun k => ?_, fun k => ?_, fun i t hreal => ?_⟩
  · refine header_entry hsize (fun _ p => p.depositIn (proof.header.bridgeCallDatas k))
      (h.root.deposits k) (fun i => ?_) fun i t hreal => ?_
    · obtain ⟨scope, hspec⟩ := h.inner i
      have hheader := congrArg RootRollupHeader.bridgeCallDatas h.root.header
      rw [hheader]
      exact hspec.deposits tx.bridgeCallDatas k
    · unfold InnerProof.depositIn
      split
      · exact (h.txChecked hreal.2).1
      · exact Nat.two_pow_pos 242
  · refine header_entry hsize (fun i p => (rollups i).feeIn p (proof.header.assetIds k))
      (h.root.fees k) (fun i => ?_) fun i t hreal => ?_
    · obtain ⟨scope, hspec⟩ := h.inner i
      have hheader := congrArg RootRollupHeader.assetIds h.root.header
      rw [hheader]
      exact hspec.fees (h.rollups i).txs tx.assetIds k
    · unfold RollupTx.feeIn
      split
      · exact (netFee_le _).trans_lt (h.txChecked hreal.2).2
      · exact Nat.two_pow_pos 242
  · obtain ⟨hdeposit, hfee⟩ := h.txChecked hreal.2
    refine ⟨hdeposit, hfee, h.deposit_entry hreal, h.fee_entry hreal.1, ?_⟩
    obtain ⟨scope, hspec⟩ := h.inner i
    refine ⟨_, congrArg RollupProof.innerProofsData hspec.proof_eq, fun hid => ?_⟩
    have hdefi : ((rollups i).txs t).isDefiDeposit = true := beq_iff_eq.mpr hid
    refine ⟨claimNonce (rollups i).rollupId scope ((rollups i).txs t), ((rollups i).txs t).claimFee,
      ?_, ?_⟩
    · show (completed H _ scope ((rollups i).masked scope.numTxs t)).noteCommitment1 = _
      rw [hspec.inScope.masked_real hreal.2]
      exact if_pos hdefi
    · rw [InnerProof.netFee, if_pos hdefi, InnerProof.claimFee]
      exact Nat.add_sub_of_le (Nat.div_le_self _ _)

/-- The fees of two inner rollups. -/
theorem header_sums_sample :
    ((SampleRollup.proof true).header.totalTxFees ⟨0, by decide⟩).val = 5 := by
  rw [(header_sums (SampleRollup.accepted true) (by decide)).2.1]
  decide +kernel

/-- The fee of a real claim, in the asset of an entry that the inner rollup does not list, is not
counted there. -/
theorem fee_not_listed : ∃ k : Fin NUM_ASSETS,
    RootAccepted (SampleRollup.tx false) (fun _ => SampleRollup.rollup false)
      (SampleRollup.proof false) ∧
    ((SampleRollup.proof false).header.totalTxFees k).val ≠ ∑ i, ∑ t,
      if IsReal (SampleRollup.tx false) (fun _ => SampleRollup.rollup false) i t ∧
        ((SampleRollup.rollup false).txs t).txFeeAssetId =
          (SampleRollup.proof false).header.assetIds k
      then ((SampleRollup.rollup false).txs t).netFee else 0 := by
  refine ⟨⟨0, by decide⟩, SampleRollup.accepted false, ?_⟩
  decide +kernel

end AztecConnect.Circuit
