import AztecConnect.Circuit.RollupSpec

/-!
# What an accepted root rollup has checked

The checks of the root rollup circuit, for each inner rollup (`InnerChecked`), the chain of their roots
(`Chained`), and the header as sums over the inner rollups (`rootRollupCircuit_spec`).
-/

namespace AztecConnect.Circuit

open Checks (Ensures count)

variable {H : Primitives} {m : Nat}

/-- A real rollup is scaled by one. -/
@[simp] lemma RollupProof.scale_one (p : RollupProof) : p.scale 1 = p := by
  simp only [RollupProof.scale, mul_one, List.map_id']

/-! ## The sums of one inner rollup -/

/-- What an inner rollup adds to an entry of the header. -/
def matchedSum {N : Nat} (header entries amounts : Fin N → Fr) (padding : Fr) (k : Fin N) : Fr :=
  ∑ j, amounts j * fieldOfBool (entries j == header k) * fieldOfBool (!(entries j == padding))

/-- The entries of an inner rollup are entries of the header. -/
def Matched {N : Nat} (header entries : Fin N → Fr) (padding : Fr) : Prop :=
  ∀ j, entries j ≠ padding → ∃! k, header k = entries j

/-- The amounts of the matching entries are added to each total of the header. -/
lemma accumulateMatches_spec {N : Nat} (hN : N < 2 ^ 10)
    (totals header entries amounts : Fin N → Fr) (padding : Fr) (isReal : Bool)
    (msg : Fin N → Nat → String) :
    Ensures (accumulateMatches totals header entries amounts padding isReal msg) fun totals' =>
      (∀ k, totals' k = totals k + matchedSum header entries amounts padding k) ∧
      (isReal = true → Matched header entries padding) := by
  have hloop : Ensures (accumulateMatches totals header entries amounts padding isReal msg)
      fun totals' => (∀ k, totals' k = totals k + ∑ j : Fin N, if j.val < N then
        amounts j * fieldOfBool (entries j == header k) * fieldOfBool (!(entries j == padding)) else 0) ∧
      (isReal = true → ∀ j : Fin N, j.val < N → entries j ≠ padding → ∃! k, header k = entries j) := by
    refine Checks.ensures_foldlM (I := fun c (totals' : Fin N → Fr) =>
      (∀ k, totals' k = totals k + ∑ j : Fin N, if j.val < c then
        amounts j * fieldOfBool (entries j == header k) * fieldOfBool (!(entries j == padding)) else 0) ∧
      (isReal = true → ∀ j : Fin N, j.val < c → entries j ≠ padding → ∃! k, header k = entries j))
      ⟨fun k => ?_, fun _ j hj => absurd hj (Nat.not_lt_zero _)⟩ ?_
    · rw [Checks.sum_lt_zero, add_zero]
    · rintro i acc ⟨hacc, hmatched⟩
      simp only [Checks.ensures_bind, ensures_assertTrue, Checks.ensures_pure]
      intro hvalid
      refine ⟨fun k => ?_, fun hreal j hj hpad => ?_⟩
      · rw [Checks.sum_lt_succ, ← add_assoc, ← hacc k]
      · rcases Nat.lt_succ_iff_lt_or_eq.mp hj with hlt | heq
        · exact hmatched hreal j hlt hpad
        · cases Fin.ext heq
          rw [hreal, Bool.not_true, Bool.false_or, beq_eq_false_iff_ne.mpr hpad, Bool.or_false,
            beq_iff_eq, ← Nat.cast_one] at hvalid
          obtain ⟨k, hk, huniq⟩ :=
            Checks.existsUnique_of_count (count_eq_of_sum hN (by decide) hvalid)
          exact ⟨k, (beq_iff_eq.mp hk).symm, fun k' hk' => huniq k' (beq_iff_eq.mpr hk'.symm)⟩
  refine hloop.mono ?_
  rintro totals' ⟨hsum, hmatched⟩
  refine ⟨fun k => ?_, fun hreal j => ?_⟩
  · rw [hsum k, Checks.sum_lt_all]
    rfl
  · exact hmatched hreal j j.isLt

/-- Amounts of zero. -/
lemma matchedSum_zero {N : Nat} (header entries : Fin N → Fr) (amounts : Fin N → Fr) (padding : Fr)
    (k : Fin N) (h : ∀ j, amounts j = 0) : matchedSum header entries amounts padding k = 0 :=
  Finset.sum_eq_zero fun j _ => by rw [h j, zero_mul, zero_mul]

/-! ## One inner rollup -/

/-- What the loop has checked for a real inner rollup. -/
structure InnerChecked (tx : RootRollupTx H m) (i : Fin m) : Prop where
  rollupId : (tx.rollups i).rollupId = tx.rollupId
  oldDataRootsRoot : (tx.rollups i).oldDataRootsRoot = tx.oldDataRootsRoot
  newDefiRoot : (tx.rollups i).newDefiRoot = tx.newDefiRoot
  assets : Matched tx.assetIds (tx.rollups i).assetIds MAX_NUM_ASSETS
  bridges : Matched tx.bridgeCallDatas (tx.rollups i).defiBridgeCallDatas 0

/-- A real inner rollup, other than the first, continues the one before it. -/
structure Follows (numInnerTxsPow2 : Nat) (first prev p : RollupProof) (i : Nat) : Prop where
  dataStartIndex : p.dataStartIndex = first.dataStartIndex + (i * numInnerTxsPow2 * 2 : Nat)
  oldDataRoot : p.oldDataRoot = prev.newDataRoot
  oldNullRoot : p.oldNullRoot = prev.newNullRoot

/-- The variables after the `last` real inner rollup. -/
structure Sequence.Reached (first last : RollupProof) (sq : Sequence) : Prop where
  dataStartIndex : sq.dataStartIndex = first.dataStartIndex
  oldDataRoot : sq.oldDataRoot = first.oldDataRoot
  oldNullRoot : sq.oldNullRoot = first.oldNullRoot
  newDataRoot : sq.newDataRoot = last.newDataRoot
  newNullRoot : sq.newNullRoot = last.newNullRoot

/-- The state of the loop before the `i`-th inner rollup. -/
structure RootLoopInv (tx : RootRollupTx H m) (numInnerTxsPow2 num i : Nat) (st : RootLoop) : Prop where
  checked : ∀ j : Fin m, j.val < i → j.val < num → InnerChecked tx j
  follows : ∀ first prev j : Fin m, first.val = 0 → prev.val + 1 = j.val → j.val < i → j.val < num →
    Follows numInnerTxsPow2 (tx.rollups first) (tx.rollups prev) (tx.rollups j) j
  reached : ∀ first last : Fin m, first.val = 0 → last.val + 1 = min i num →
    st.sq.Reached (tx.rollups first) (tx.rollups last)
  num_pos : 0 < i → 0 < num
  empty : i = 0 → st.sq.newDataRoot = st.sq.oldDataRoot ∧ st.sq.newNullRoot = st.sq.oldNullRoot
  fees : ∀ k, st.totalTxFees k = ∑ j : Fin m, if j.val < i then (if j.val < num then
    matchedSum tx.assetIds (tx.rollups j).assetIds (tx.rollups j).totalTxFees MAX_NUM_ASSETS k
    else 0) else 0
  deposits : ∀ k, st.defiDepositSums k = ∑ j : Fin m, if j.val < i then (if j.val < num then
    matchedSum tx.bridgeCallDatas (tx.rollups j).defiBridgeCallDatas
      (tx.rollups j).defiBridgeDeposits 0 k else 0) else 0
  inputHashes : st.innerInputHashes = (List.ofFn fun j : Fin m => if j.val < num
    then (tx.rollups j).inputsHash else computeSha256OfZeroes H numInnerTxsPow2).take i

/-- A real rollup continues where the one before it ended. -/
lemma assertInnerProofSequential_spec (tx : RootRollupTx H m) (numInnerTxsPow2 i : Nat) (sq : Sequence)
    (p : RollupProof) (isReal : Bool) :
    Ensures (assertInnerProofSequential numInnerTxsPow2 i tx.rollupId sq tx.oldDataRootsRoot
      tx.newDefiRoot p isReal) fun sq' =>
      (isReal = true → p.rollupId = tx.rollupId ∧ p.oldDataRootsRoot = tx.oldDataRootsRoot ∧
        p.newDefiRoot = tx.newDefiRoot) ∧
      (i = 0 → isReal = true ∧ sq' = ⟨p.dataStartIndex, p.oldDataRoot, p.newDataRoot, p.oldNullRoot,
        p.newNullRoot⟩) ∧
      (i ≠ 0 → (isReal = false → sq' = sq) ∧
        (isReal = true → sq' = { sq with newDataRoot := p.newDataRoot, newNullRoot := p.newNullRoot } ∧
          p.dataStartIndex = sq.dataStartIndex + (i * numInnerTxsPow2 * 2 : Nat) ∧
          p.oldDataRoot = sq.newDataRoot ∧ p.oldNullRoot = sq.newNullRoot)) := by
  simp only [assertInnerProofSequential, Checks.ensures_bind, ensures_assertTrue]
  intro hroot hdefi hid
  have hor {b : Bool} (hreal : isReal = true) (h : (!isReal || b) = true) : b = true := by
    rw [hreal, Bool.not_true, Bool.false_or] at h
    exact h
  have hcommon (hreal : isReal = true) : p.rollupId = tx.rollupId ∧
      p.oldDataRootsRoot = tx.oldDataRootsRoot ∧ p.newDefiRoot = tx.newDefiRoot :=
    ⟨beq_iff_eq.mp (hor hreal hid), beq_iff_eq.mp (hor hreal hroot), beq_iff_eq.mp (hor hreal hdefi)⟩
  by_cases hi : i = 0
  · rw [if_pos hi, Checks.ensures_bind, ensures_assertTrue, Checks.ensures_pure]
    exact fun hreal => ⟨hcommon, fun _ => ⟨hreal, rfl⟩, fun h => absurd hi h⟩
  · rw [if_neg hi]
    simp only [Checks.ensures_bind, ensures_assertTrue, Checks.ensures_pure]
    intro hstart hdata hnull
    refine ⟨hcommon, fun h => absurd h hi, fun _ => ⟨fun hpad => ?_, fun hreal => ⟨?_, ?_, ?_, ?_⟩⟩⟩
    · rw [hpad]
      rfl
    · rw [hreal]
      rfl
    · exact beq_iff_eq.mp (hor hreal hstart)
    · exact beq_iff_eq.mp (hor hreal hdata)
    · exact beq_iff_eq.mp (hor hreal hnull)

/-- One inner rollup. -/
lemma rootStep_spec (tx : RootRollupTx H m) (numInnerTxsPow2 num : Nat) (i : Fin m) (st : RootLoop)
    (hst : RootLoopInv tx numInnerTxsPow2 num i st) :
    Ensures (rootStep tx numInnerTxsPow2 num st i) (RootLoopInv tx numInnerTxsPow2 num (i + 1)) := by
  simp only [rootStep, Checks.ensures_bind, checkAssetIdsAndAccumulateTxFees,
    checkBridgeCallDatasAndAccumulateDefiDeposits]
  refine (accumulateMatches_spec (by decide) _ _ _ _ _ _ _).mono ?_
  rintro fees ⟨hfees, hassets⟩
  refine (accumulateMatches_spec (by decide) _ _ _ _ _ _ _).mono ?_
  rintro deposits ⟨hdeposits, hbridges⟩
  refine (assertInnerProofSequential_spec tx _ _ _ _ _).mono ?_
  rintro sq ⟨hcommon, hzero, hsucc⟩
  refine Checks.ensures_pure.mpr ?_
  have hlast (j : Fin m) (h : j.val = i.val) : j = i := Fin.ext h
  have hhash (hash : Fr) (h : hash = if i.val < num then (tx.rollups i).inputsHash
      else computeSha256OfZeroes H numInnerTxsPow2) : st.innerInputHashes ++ [hash] =
      (List.ofFn fun j : Fin m => if j.val < num then (tx.rollups j).inputsHash
        else computeSha256OfZeroes H numInnerTxsPow2).take (i + 1) := by
    rw [List.take_add_one, ← hst.inputHashes, List.getElem?_ofFn, dif_pos i.isLt, h]
    rfl
  rcases Nat.lt_or_ge i.val num with hreal | hpad
  · -- a real rollup
    simp only [decide_eq_true hreal, fieldOfBool_true, RollupProof.scale_one] at hfees hassets hcommon
    simp only [decide_eq_true hreal, fieldOfBool_true, RollupProof.scale_one] at hdeposits hbridges
    simp only [decide_eq_true hreal, fieldOfBool_true, RollupProof.scale_one] at hzero hsucc ⊢
    obtain ⟨hid, hroot, hdefi⟩ := hcommon trivial
    have hmin : min i.val num = i.val := Nat.min_eq_left hreal.le
    have hmin' : min (i.val + 1) num = i.val + 1 := Nat.min_eq_left hreal
    refine ⟨fun j hj hjr => ?_, fun first prev j h₀ hp hj hjr => ?_, fun first last h₀ hl => ?_,
      fun _ => (Nat.zero_le _).trans_lt hreal, fun h => absurd h (Nat.succ_ne_zero _), fun k => ?_,
      fun k => ?_,
      hhash _ (if_pos hreal).symm⟩
    · rcases Nat.lt_succ_iff_lt_or_eq.mp hj with hlt | heq
      · exact hst.checked j hlt hjr
      · exact hlast j heq ▸ ⟨hid, hroot, hdefi, hassets trivial, hbridges trivial⟩
    · rcases Nat.lt_succ_iff_lt_or_eq.mp hj with hlt | heq
      · exact hst.follows first prev j h₀ hp hlt hjr
      · cases hlast j heq
        have hreached := hst.reached first prev h₀ (by omega)
        obtain ⟨-, hstart, hdata, hnull⟩ := (hsucc (by omega)).2 trivial
        exact ⟨by rw [hstart, hreached.dataStartIndex], hdata.trans hreached.newDataRoot,
          hnull.trans hreached.newNullRoot⟩
    · cases hlast last (by omega)
      by_cases hi : i.val = 0
      · cases hlast first (by omega)
        rw [(hzero hi).2]
        exact ⟨rfl, rfl, rfl, rfl, rfl⟩
      · have hprev : i.val - 1 < m := by omega
        have hreached := hst.reached first ⟨i.val - 1, hprev⟩ h₀ (by
          show i.val - 1 + 1 = min i.val num
          omega)
        rw [((hsucc hi).2 trivial).1]
        exact ⟨hreached.dataStartIndex, hreached.oldDataRoot, hreached.oldNullRoot, rfl, rfl⟩
    · rw [Checks.sum_lt_succ, ← hst.fees k, if_pos hreal]
      exact hfees k
    · rw [Checks.sum_lt_succ, ← hst.deposits k, if_pos hreal]
      exact hdeposits k
  · -- padding
    have hnot : ¬ i.val < num := Nat.not_lt_of_le hpad
    simp only [decide_eq_false hnot, fieldOfBool_false] at hfees hdeposits hzero hsucc ⊢
    have hi : i.val ≠ 0 := fun h => by
      obtain ⟨hc, -⟩ := hzero h
      cases hc
    have hsq : sq = st.sq := (hsucc hi).1 trivial
    have hmin : min (i.val + 1) num = min i.val num := by omega
    refine ⟨fun j hj hjr => hst.checked j (by omega) hjr,
      fun first prev j h₀ hp hj hjr => hst.follows first prev j h₀ hp (by omega) hjr,
      fun first last h₀ hl => hsq ▸ hst.reached first last h₀ (hmin ▸ hl),
      fun _ => hst.num_pos (Nat.pos_of_ne_zero hi), fun h => absurd h (Nat.succ_ne_zero _), fun k => ?_,
      fun k => ?_,
      hhash _ (if_neg hnot).symm⟩
    · rw [Checks.sum_lt_succ, ← hst.fees k, if_neg hnot, add_zero]
      have hz := matchedSum_zero tx.assetIds ((tx.rollups i).scale 0).assetIds
        ((tx.rollups i).scale 0).totalTxFees MAX_NUM_ASSETS k fun j => mul_zero _
      exact (hfees k).trans (by rw [hz, add_zero])
    · rw [Checks.sum_lt_succ, ← hst.deposits k, if_neg hnot, add_zero]
      have hz := matchedSum_zero tx.bridgeCallDatas ((tx.rollups i).scale 0).defiBridgeCallDatas
        ((tx.rollups i).scale 0).defiBridgeDeposits 0 k fun j => mul_zero _
      exact (hdeposits k).trans (by rw [hz, add_zero])

/-! ## The root rollup -/

/-- An accepted root rollup: the checks of its `num` real inner rollups, and its header. -/
structure RootRollupSpec (tx : RootRollupTx H m) (numInnerTxsPow2 numOuterTxsPow2 num : Nat)
    (proof : RootRollupProof) : Prop where
  num_eq : num = tx.numInnerProofs.val
  num_pos : 0 < m → 0 < num
  empty : m = 0 → proof.header.newDataRoot = proof.header.oldDataRoot ∧
    proof.header.newNullRoot = proof.header.oldNullRoot
  checked : ∀ j : Fin m, j.val < num → InnerChecked tx j
  follows : ∀ first prev j : Fin m, first.val = 0 → prev.val + 1 = j.val → j.val < num →
    Follows numInnerTxsPow2 (tx.rollups first) (tx.rollups prev) (tx.rollups j) j
  ends : ∀ first last : Fin m, first.val = 0 → last.val + 1 = min m num →
    proof.header.dataStartIndex = (tx.rollups first).dataStartIndex ∧
    proof.header.oldDataRoot = (tx.rollups first).oldDataRoot ∧
    proof.header.oldNullRoot = (tx.rollups first).oldNullRoot ∧
    proof.header.newDataRoot = (tx.rollups last).newDataRoot ∧
    proof.header.newNullRoot = (tx.rollups last).newNullRoot
  fees : ∀ k, proof.header.totalTxFees k = ∑ j : Fin m, if j.val < num then
    matchedSum tx.assetIds (tx.rollups j).assetIds (tx.rollups j).totalTxFees MAX_NUM_ASSETS k else 0
  deposits : ∀ k, proof.header.defiDepositSums k = ∑ j : Fin m, if j.val < num then
    matchedSum tx.bridgeCallDatas (tx.rollups j).defiBridgeCallDatas
      (tx.rollups j).defiBridgeDeposits 0 k else 0
  header : proof.header = { proof.header with
    rollupId := tx.rollupId, rollupSize := numOuterTxsPow2
    oldDataRootsRoot := tx.oldDataRootsRoot, newDataRootsRoot := tx.newDataRootsRoot
    oldDefiRoot := tx.oldDefiRoot, newDefiRoot := tx.newDefiRoot
    bridgeCallDatas := tx.bridgeCallDatas, assetIds := tx.assetIds
    rollupBeneficiary := tx.rollupBeneficiary }
  notes : ∀ i, proof.header.defiInteractionNotes i = ((tx.defiInteractionNotes i).note H).commitment *
    fieldOfBool (i < tx.numPreviousDefiInteractions.val)
  defiUpdated : H.batchUpdateMembership proof.header.newDefiRoot proof.header.oldDefiRoot
    tx.oldDefiPath (List.ofFn proof.header.defiInteractionNotes)
    (proof.header.rollupId * NUM_INTERACTION_RESULTS_PER_BLOCK) = true
  rootIndex : (proof.header.rollupId + 1).val < 2 ^ ROOT_TREE_DEPTH
  rootUpdated : H.updateMembership proof.header.newDataRootsRoot proof.header.newDataRoot
    proof.header.oldDataRootsRoot tx.oldDataRootsPath 0 (proof.header.rollupId + 1).val = true
  inputHash : proof.inputHash = H.sha256ToField (proof.header.toList ++
    (List.ofFn fun j : Fin m => if j.val < num then (tx.rollups j).inputsHash
      else computeSha256OfZeroes H numInnerTxsPow2) ++
    List.replicate (numOuterTxsPow2 / numInnerTxsPow2 - m) (computeSha256OfZeroes H numInnerTxsPow2))

/-- The invariant of the loop holds at its start. -/
lemma rootLoopInv_init (tx : RootRollupTx H m) (numInnerTxsPow2 num : Nat) :
    RootLoopInv tx numInnerTxsPow2 num 0 RootLoop.init where
  checked _ hj := absurd hj (Nat.not_lt_zero _)
  follows _ _ _ _ _ hj := absurd hj (Nat.not_lt_zero _)
  reached _ _ _ hl := absurd hl (by omega)
  num_pos h := absurd h (Nat.lt_irrefl 0)
  empty _ := ⟨rfl, rfl⟩
  fees _ := (Checks.sum_lt_zero _).symm
  deposits _ := (Checks.sum_lt_zero _).symm
  inputHashes := List.take_zero.symm

/-- Every accepted root rollup meets its specification. -/
theorem rootRollupCircuit_spec (tx : RootRollupTx H m) (numInnerTxsPow2 numOuterTxsPow2 : Nat) :
    Ensures (rootRollupCircuit tx numInnerTxsPow2 numOuterTxsPow2) fun proof =>
      ∃ num, RootRollupSpec tx numInnerTxsPow2 numOuterTxsPow2 num proof := by
  simp only [rootRollupCircuit, uint32, Checks.ensures_bind, ensures_rangeCheck]
  intro hnum _ _ _
  refine (Checks.ensures_foldlM (rootLoopInv_init tx numInnerTxsPow2 tx.numInnerProofs.val)
    (rootStep_spec tx numInnerTxsPow2 _)).mono fun st hst => ?_
  simp only [processDefiInteractionNotes, uint32, checkRootTreeUpdated, decomposeIntoBits,
    Checks.ensures_bind, ensures_rangeCheck, ensures_assertTrue, Checks.ensures_pure]
  intro _ hdefi hindex hroot
  refine ⟨_, rfl, fun h => hst.num_pos h, hst.empty, fun j hj => hst.checked j j.isLt hj,
    fun a b j h₀ hp hj => hst.follows a b j h₀ hp j.isLt hj, fun a b h₀ hl => ?_, fun k => ?_,
    fun k => ?_, rfl, fun i => rfl, hdefi, hindex, hroot, ?_⟩
  · have h := hst.reached a b h₀ hl
    exact ⟨h.dataStartIndex, h.oldDataRoot, h.oldNullRoot, h.newDataRoot, h.newNullRoot⟩
  · refine (hst.fees k).trans ?_
    rw [Checks.sum_lt_all]
  · refine (hst.deposits k).trans ?_
    rw [Checks.sum_lt_all]
  · have hhashes := hst.inputHashes
    rw [List.take_of_length_le (List.length_ofFn).le] at hhashes
    rw [hhashes]

/-! ## A rollup of one claim -/

namespace SampleRollup

open SampleClaim (primitives)

/-- The fee of the claim is in asset 0. -/
def assetIds (k : Fin NUM_ASSETS) : Fr := if k.val = 0 then 0 else MAX_NUM_ASSETS

/-- The rollup may list the asset. -/
def rollup (listed : Bool) : RollupTx primitives 1 where
  rollupId := 0
  numTxs := 1
  dataStartIndex := 0
  txs _ := SampleClaim.proof
  oldDataRoot := 0
  newDataRoot := SampleClaim.proof.noteCommitment1
  oldDataPath := ()
  linkedCommitmentPaths _ := ()
  linkedCommitmentIndices _ := 0
  oldNullRoot := 0
  newNullRoots _ i := i.val + 1
  oldNullPaths _ _ := ()
  dataRootsRoot := SampleClaim.tx.dataRoot
  dataRootsPaths _ := ()
  dataRootsIndicies _ := 0
  newDataRootsRoot := 0
  newDefiRoot := SampleClaim.tx.defiRoot
  numDefiInteractions := 0
  bridgeCallDatas _ := 0
  numAssetIds := fieldOfBool listed
  assetIds := assetIds

/-- The inner circuit accepts the sample, whether or not its asset is listed. -/
lemma rollup_ok : ∀ listed, (rollupCircuit (rollup listed)).toBool = true
  | false => by decide +kernel
  | true => by decide +kernel

/-- The root rollup of that inner rollup. -/
def tx (listed : Bool) : RootRollupTx primitives 1 where
  rollupId := 0
  numInnerProofs := 1
  rollups _ := Checks.value (rollupCircuit (rollup listed)) (rollup_ok listed)
  oldDataRootsRoot := SampleClaim.tx.dataRoot
  newDataRootsRoot := SampleClaim.tx.dataRoot + SampleClaim.proof.noteCommitment1
  oldDataRootsPath := ()
  oldDefiRoot := SampleClaim.tx.defiRoot
  newDefiRoot := SampleClaim.tx.defiRoot
  oldDefiPath := ()
  bridgeCallDatas _ := 0
  assetIds := assetIds
  defiInteractionNotes _ := SampleClaim.noteTx
  numPreviousDefiInteractions := 0
  rollupBeneficiary := 0

/-- The root circuit accepts it. -/
lemma tx_ok : ∀ listed, (rootRollupCircuit (tx listed) (rollupSizePow2 1)
    (rollupSizePow2 (1 * rollupSizePow2 1))).toBool = true
  | false => by decide +kernel
  | true => by decide +kernel

/-- Its public inputs. -/
def proof (listed : Bool) : RootRollupProof := Checks.value _ (tx_ok listed)

/-- Both circuits are satisfied. -/
lemma accepted (listed : Bool) : RootAccepted (tx listed) (fun _ => rollup listed) (proof listed) where
  rollups _ := ⟨fun _ => .claim SampleClaim.tx SampleClaim.accepted, Checks.eq_ok_value _ _⟩
  accepted := Checks.eq_ok_value _ (tx_ok listed)

end SampleRollup

end AztecConnect.Circuit
