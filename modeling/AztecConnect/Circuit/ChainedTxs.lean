import AztecConnect.Circuit.Accounts
import AztecConnect.Circuit.JoinSplitSpec

/-!
# The notes that an inner rollup spends

The join-split circuit leaves an input note unchecked if the transaction is chained to it; the rollup
circuit then finds the link among the outputs of the earlier transactions that permit it, or in the
data tree before the rollup. Between them no note stays unchecked, and the nullifiers make each a note
of one transaction (`spends_linked`). The data tree before an inner rollup is not one of the historic
trees if another inner rollup comes before it in the root rollup (`spends_unrecorded`).
-/

namespace AztecConnect.Circuit

open Checks (Ensures)
open InsertOnce (Fresh)

variable {H : Primitives} {n : Nat} {dataRoot rootsRoot nullRoot : (Nat → Fr) → Fr}

/-! ## One transaction -/

namespace JoinSplitTx

variable (tx : JoinSplitTx H)

/-- One of the two input notes. -/
def inputNote (k : Fin 2) : ValueNoteTx := if k = 0 then tx.inputNote1 else tx.inputNote2

/-- Its commitment. -/
def inputCommitment (k : Fin 2) : Fr := ((tx.inputNote k).note H).commitment

/-- One of the two output notes. -/
def outputNote (k : Fin 2) : ValueNoteTx := if k = 0 then tx.outputNote1 else tx.outputNote2

/-- The output may be spent in the same rollup. -/
def allowsChain (k : Fin 2) : Bool := if k = 0 then tx.allowChain1 else tx.allowChain2

end JoinSplitTx

/-- One of the two nullifiers. -/
def InnerProof.nullifier (p : InnerProof) (k : Fin 2) : Fr :=
  if k = 0 then p.nullifier1 else p.nullifier2

/-- One of the two commitments. -/
def InnerProof.noteCommitment (p : InnerProof) (k : Fin 2) : Fr :=
  if k = 0 then p.noteCommitment1 else p.noteCommitment2

/-- What the public input says of an output. -/
def InnerProof.AllowsChain (p : InnerProof) (k : Fin 2) : Prop :=
  p.allowChain = (k.val + 1 : Nat) ∨ p.allowChain = 3

namespace JoinSplitTx.Accepted

variable {tx : JoinSplitTx H} {p : InnerProof}

/-- A note with a value is in use: it has a path, or the transaction is chained to it. -/
lemma spends (h : tx.Accepted p) {k : Fin 2} (hvalue : (tx.inputNote k).value ≠ 0) :
    p.nullifier k = computeNullifier H (tx.inputCommitment k) tx.accountPrivateKey true ∧
      ((∃ path index, H.checkMembership p.merkleRoot path (tx.inputCommitment k) index = true) ∨
        p.backwardLink = tx.inputCommitment k) := by
  have hval {x : Fr} (hx : x ≠ 0) : x.val ≠ 0 := fun hzero => hx ((ZMod.val_eq_zero x).mp hzero)
  rw [h.proof_eq]
  match k with
  | 0 =>
    obtain ⟨hinUse, hchecked⟩ := h.input1
    have huse := hinUse (hval hvalue)
    refine ⟨?_, (hchecked huse).imp_left fun hmem => ⟨_, _, hmem⟩⟩
    show tx.nullifier1 = _
    rw [JoinSplitTx.nullifier1, huse]
    rfl
  | 1 =>
    obtain ⟨hinUse, hchecked⟩ := h.input2
    have huse := hinUse (hval hvalue)
    refine ⟨?_, (hchecked huse).imp_left fun hmem => ⟨_, _, hmem⟩⟩
    show tx.nullifier2 = _
    rw [JoinSplitTx.nullifier2, huse]
    rfl

/-- Both input notes are owned by the key of the account. -/
lemma inputOwner (h : tx.Accepted p) (k : Fin 2) :
    H.fixedBaseScalarMulG1 tx.accountPrivateKey = (tx.inputNote k).owner := by
  match k with
  | 0 => exact h.owner.1
  | 1 => exact h.owner.1.trans h.owner.2

/-- An output to which a transaction may be chained is a value note of the owner of the inputs. -/
lemma allowsChain (h : tx.Accepted p) {k : Fin 2} (hchain : p.AllowsChain k) :
    tx.allowsChain k = true ∧ p.noteCommitment k = ((tx.outputNote k).note H).commitment ∧
      (tx.outputNote k).owner = tx.inputNote1.owner := by
  rw [h.proof_eq] at hchain ⊢
  match k with
  | 0 =>
    have hallow : tx.allowChain1 = true := by
      rw [JoinSplitTx.allowChain1, Bool.or_eq_true, beq_iff_eq, beq_iff_eq]
      exact hchain
    obtain ⟨howner, hdefi⟩ := h.chainFrom1 hallow
    refine ⟨hallow, ?_, howner⟩
    show tx.outputCommitment1 = _
    rw [JoinSplitTx.outputCommitment1, hdefi]
    rfl
  | 1 =>
    have hallow : tx.allowChain2 = true := by
      rw [JoinSplitTx.allowChain2, Bool.or_eq_true, beq_iff_eq, beq_iff_eq]
      exact hchain
    exact ⟨hallow, rfl, h.chainFrom2 hallow⟩

end JoinSplitTx.Accepted

/-- Nothing is chained from a claim. -/
lemma claimCircuit_allowChain (tx : ClaimTx H) :
    (claimCircuit H tx).Ensures fun p => p.allowChain = 0 := by
  simp only [claimCircuit, Circuit.ensures_bind, ensures_suint, ensures_claimNoteWitnessData,
    ensures_defiInteractionNote, Circuit.ensures_assert, Circuit.ensures_pure, subtract,
    ensures_createRangeConstraint]
  intros
  refine (Circuit.ensures_trivial _).mono fun _ _ _ => (Circuit.ensures_trivial _).mono fun _ _ => ?_
  intros
  trivial

/-- A transaction that allows chaining is a join-split transaction. -/
lemma TxAccepted.allowsChain {p : InnerProof} (h : TxAccepted H p) {k : Fin 2}
    (hchain : p.AllowsChain k) : ∃ tx : JoinSplitTx H, joinSplitCircuit H tx p := by
  have hne : p.allowChain ≠ 0 := by
    intro hzero
    rw [InnerProof.AllowsChain, hzero] at hchain
    revert hchain
    match k with
    | 0 => decide
    | 1 => decide
  cases h with
  | joinSplit tx h => exact ⟨tx, h⟩
  | account tx h =>
    rw [((accountCircuit_accepted tx).apply h).proof_eq] at hne
    exact absurd rfl hne
  | claim tx h => exact absurd ((claimCircuit_allowChain tx).apply h) hne

/-! ## The search for the link -/

/-- The accumulators come from one transaction. -/
structure ChainSearch.From (backwardLink : Fr) (acc : ChainSearch) (prev : InnerProof) : Prop where
  allowChain : acc.prevAllowChain = prev.allowChain
  output1 : acc.isPropagatingPrevOutput1 = true → prev.noteCommitment1 = backwardLink
  output2 : acc.isPropagatingPrevOutput2 = true → prev.noteCommitment2 = backwardLink
  found : acc.isPropagatingPrevOutput1 = true ∨ acc.isPropagatingPrevOutput2 = true

/-- Looking at one more transaction finds it or changes nothing. -/
lemma ChainSearch.look_from (backwardLink : Fr) (isTxReal : Bool) (acc : ChainSearch)
    (prev : InnerProof) : acc.look backwardLink isTxReal prev = acc ∨
      (acc.look backwardLink isTxReal prev).From backwardLink prev := by
  unfold ChainSearch.look
  dsimp only
  split
  case isFalse => exact .inl rfl
  case isTrue hfound =>
    refine .inr ⟨rfl, fun h => ?_, fun h => ?_, Bool.or_eq_true_iff.mp hfound⟩
    · exact (beq_iff_eq.mp (Bool.and_eq_true_iff.mp h).1).symm
    · exact (beq_iff_eq.mp (Bool.and_eq_true_iff.mp h).1).symm

/-- What the loop has found comes from one of the transactions. -/
lemma ChainSearch.loop_from (backwardLink : Fr) (isTxReal : Bool) (prevs : Fin n → InnerProof)
    (js : List (Fin n)) :
    let acc : ChainSearch := js.foldl (fun acc j => acc.look backwardLink isTxReal (prevs j))
      ⟨0, false, false, false⟩
    acc.foundLinkInRollup = true → ∃ j ∈ js, acc.From backwardLink (prevs j) := by
  refine List.foldlRecOn js _ (motive := fun acc : ChainSearch =>
    acc.foundLinkInRollup = true → ∃ j ∈ js, acc.From backwardLink (prevs j))
    (fun h => absurd h Bool.false_ne_true) ?_
  intro acc hacc j hj hfound
  rcases ChainSearch.look_from backwardLink isTxReal acc (prevs j) with heq | hfrom
  · rw [heq] at hfound ⊢
    exact hacc hfound
  · exact ⟨j, hj, hfrom⟩

/-- A transaction with a link is chained to an output that permits it, or to a note of the data tree
before the rollup. -/
lemma processChainedTxs_spec (rollup : RollupTx H n) (i : Fin n) (isTxReal : Bool) (p : InnerProof)
    (prevs : Fin n → InnerProof) (hlink : p.backwardLink ≠ 0) :
    Ensures (processChainedTxs rollup i isTxReal p prevs) fun _ =>
      (∃ path index, H.checkMembership rollup.oldDataRoot path p.backwardLink index = true) ∨
        ∃ j < i, ∃ k, (prevs j).noteCommitment k = p.backwardLink ∧ (prevs j).AllowsChain k := by
  have hchaining : (p.backwardLink != 0) = true := bne_iff_ne.mpr hlink
  have hfrom := ChainSearch.loop_from p.backwardLink isTxReal prevs
    ((List.finRange n).filter (· < i))
  simp only [processChainedTxs, hchaining, Bool.true_and, decomposeIntoBits, Checks.ensures_bind,
    ensures_rangeCheck, ensures_mustImply]
  intro _ hstart hmiddle
  generalize ((List.finRange n).filter (· < i)).foldl
    (fun (acc : ChainSearch) j => acc.look p.backwardLink isTxReal (prevs j))
    ⟨0, false, false, false⟩ = acc at *
  cases hfound : acc.foundLinkInRollup with
  | false =>
    rw [hfound] at hstart
    exact .inl ⟨_, _, hstart rfl⟩
  | true =>
    obtain ⟨j, hj, hfrom⟩ := hfrom hfound
    refine .inr ⟨j, of_decide_eq_true (List.mem_filter.mp hj).2, ?_⟩
    have hallow := hmiddle hfound
    rw [Bool.or_eq_true, beq_iff_eq, beq_iff_eq, hfrom.allowChain] at hallow
    cases houtput : acc.isPropagatingPrevOutput1 with
    | true =>
      rw [houtput, if_pos rfl] at hallow
      exact ⟨0, hfrom.output1 houtput, hallow.imp_left fun h => h.trans Nat.cast_one.symm⟩
    | false =>
      have houtput' := hfrom.found.resolve_left (Bool.eq_false_iff.mp houtput)
      rw [houtput, houtput', if_neg Bool.false_ne_true, if_pos rfl] at hallow
      exact ⟨1, hfrom.output2 houtput', hallow.imp_left fun h => h.trans Nat.cast_ofNat.symm⟩

/-! ## One inner rollup -/

/-- A real transaction of an inner rollup spends a note that has a value. -/
structure Spends (rollup : RollupTx H n) (i : Fin n) (tx : JoinSplitTx H) (k : Fin 2) : Prop where
  real : i.val < rollup.numTxs.val
  accepted : joinSplitCircuit H tx (rollup.txs i)
  value : (tx.inputNote k).value ≠ 0

/-- The output note of an earlier transaction that permits to chain from it. -/
def EarlierOutput (rollup : RollupTx H n) (i : Fin n) (commitment : Fr) : Prop :=
  ∃ j < i, ∃ (tx : JoinSplitTx H) (k : Fin 2), joinSplitCircuit H tx (rollup.txs j) ∧
    tx.allowsChain k = true ∧ ((tx.outputNote k).note H).commitment = commitment ∧
      (rollup.txs j).noteCommitment k = commitment ∧ (tx.outputNote k).owner = tx.inputNote1.owner

/-- The trees behind the roots from which an inner rollup starts. The tree of data roots has the data
trees of the history behind it. -/
structure StartTrees (rollup : RollupTx H n) (dataRoot rootsRoot nullRoot : (Nat → Fr) → Fr) where
  roots : Nat → Fr
  history : Nat → Nat → Fr
  data : Nat → Fr
  null : Nat → Fr
  dataRootsRoot : rollup.dataRootsRoot = rootsRoot roots
  historicRoot : ∀ k, roots k ≠ 0 → roots k = dataRoot (history k)
  oldDataRoot : rollup.oldDataRoot = dataRoot data
  oldNullRoot : rollup.oldNullRoot = nullRoot null

/-- The note is a leaf of a historic data tree. -/
def StartTrees.Recorded {rollup : RollupTx H n} (trees : StartTrees rollup dataRoot rootsRoot nullRoot)
    (commitment : Fr) : Prop :=
  ∃ k index, trees.roots k ≠ 0 ∧ trees.history k index = commitment

section Rollup

variable {rollup : RollupTx H n} {scope : RollupScope} {proof : RollupProof}

/-- The claim note of a deposit is completed; nothing can be chained to it. -/
lemma completed_noteCommitment {rollupId : Fr} {p : InnerProof} {tx : JoinSplitTx H}
    (h : tx.Accepted p) {k : Fin 2} (hchain : p.AllowsChain k) :
    (completed H rollupId scope p).noteCommitment k = p.noteCommitment k := by
  match k with
  | 0 =>
    have hdefi : p.isDefiDeposit = false := by
      have hid : p.proofId = tx.proofId := congrArg InnerProof.proofId h.proof_eq
      rw [InnerProof.isDefiDeposit, hid]
      exact (h.chainFrom1 (h.allowsChain hchain).1).2
    show (if p.isDefiDeposit then _ else p.noteCommitment1) = p.noteCommitment1
    rw [hdefi]
    rfl
  | 1 => rfl

/-- A link is to a note of the tree, or to an output of an earlier transaction. -/
lemma RollupSpec.linked (h : RollupSpec rollup scope proof) (htxs : ∀ i, TxAccepted H (rollup.txs i))
    {i : Fin n} (hreal : i < scope.numTxs) (hlink : (rollup.txs i).backwardLink ≠ 0) :
    (∃ path index, H.checkMembership rollup.oldDataRoot path (rollup.txs i).backwardLink index = true) ∨
      EarlierOutput rollup i (rollup.txs i).backwardLink := by
  have hchained := (h.checked i).chained
  rw [RollupTx.masked_real hreal] at hchained
  refine ((processChainedTxs_spec _ _ _ _ _ hlink).apply hchained).imp_right ?_
  rintro ⟨j, hj, k, hcommitment, hchain⟩
  have hprev : (if j.val < i.val then
      completed H rollup.rollupId scope (rollup.masked scope.numTxs j) else 0) =
        completed H rollup.rollupId scope (rollup.txs j) := by
    rw [if_pos (show j.val < i.val from hj), RollupTx.masked_real (lt_trans hj hreal)]
  rw [hprev] at hcommitment hchain
  obtain ⟨tx, htx⟩ := (htxs j).allowsChain hchain
  have hacc := (joinSplitCircuit_accepted tx).apply htx
  obtain ⟨hallow, hnote, howner⟩ := hacc.allowsChain hchain
  have heq := (completed_noteCommitment hacc hchain).symm.trans hcommitment
  exact ⟨j, hj, tx, k, htx, hallow, hnote.symm.trans heq, heq, howner⟩

/-- A nullifier that is not zero is inserted once. -/
lemma nullifier_unique {ps : Fin n → InnerProof}
    (hnodup : (((List.finRange n).flatMap fun i => (ps i).nullifiers).filter (· ≠ 0)).Nodup)
    {i i' : Fin n} {k k' : Fin 2} (hne : (ps i).nullifier k ≠ 0)
    (heq : (ps i').nullifier k' = (ps i).nullifier k) : i' = i ∧ k' = k := by
  rw [List.filter_flatMap, List.nodup_flatMap] at hnodup
  obtain ⟨hone, htwo⟩ := hnodup
  have hmem (p : InnerProof) (k : Fin 2) (h : p.nullifier k ≠ 0) :
      p.nullifier k ∈ p.nullifiers.filter (· ≠ 0) := by
    refine List.mem_filter.mpr ⟨?_, decide_eq_true h⟩
    match k with
    | 0 => exact List.mem_cons_self
    | 1 => exact List.mem_cons_of_mem _ List.mem_cons_self
  have hsame : i' = i := by
    by_contra hdiff
    have hsymm : Std.Symm (Function.onFun List.Disjoint fun i =>
        (ps i).nullifiers.filter (· ≠ 0)) := ⟨fun _ _ hdisj => hdisj.symm⟩
    have hdisj := htwo.forall (List.mem_finRange i') (List.mem_finRange i) hdiff
    refine hdisj (hmem (ps i') k' (heq ▸ hne)) ?_
    rw [heq]
    exact hmem (ps i) k hne
  refine ⟨hsame, ?_⟩
  rw [hsame] at heq
  have hpair := hone i (List.mem_finRange i)
  by_contra hdiff
  have hboth : (ps i).nullifier1 = (ps i).nullifier2 ∧ (ps i).nullifier1 ≠ 0 := by
    match k, k' with
    | 0, 0 => exact absurd rfl hdiff
    | 0, 1 => exact ⟨heq.symm, hne⟩
    | 1, 0 => exact ⟨heq, fun hzero => hne (heq.symm.trans hzero)⟩
    | 1, 1 => exact absurd rfl hdiff
  obtain ⟨hequal, hne₁⟩ := hboth
  have hne₂ : (ps i).nullifier2 ≠ 0 := hequal ▸ hne₁
  simp [InnerProof.nullifiers, hequal, hne₂] at hpair

/-- No nullifier is inserted twice. -/
lemma RollupSpec.nullifiers_nodup (h : RollupSpec rollup scope proof) (hsound : SoundTree H nullRoot)
    {t : Nat → Fr} (hroot : rollup.oldNullRoot = nullRoot t) :
    (((List.finRange n).flatMap fun i => (rollup.masked rollup.numTxs.val i).nullifiers).filter
      (· ≠ 0)).Nodup := by
  have hold : proof.oldNullRoot = nullRoot t :=
    (congrArg RollupProof.oldNullRoot h.proof_eq).trans hroot
  have hnodup := (h.inserted hsound hold).2.fresh.nodup.of_map
  have heq : rollup.insertions.map Prod.fst =
      (List.finRange n).flatMap fun i => (rollup.masked rollup.numTxs.val i).nullifiers := by
    rw [RollupTx.insertions, List.map_flatMap]
    rfl
  rwa [heq] at hnodup

end Rollup

/-! ## A chain across two inner rollups -/

namespace SampleChainedTxs

/-- The nullifier tree with these nullifiers. -/
def nullifiers (indices : List Nat) : TreeTable.Leaves := fun i => if i.val ∈ indices then 1 else 0

/-- The data tree holds one note. -/
def oldData : TreeTable.Leaves := TreeTable.leaves [13]

/-- The empty tree, the data tree before and after the inner rollup, the nullifier tree after each
nullifier, and the tree of data roots, where only the root of the empty tree is. -/
def table : List TreeTable.Leaves :=
  [TreeTable.leaves [], oldData, TreeTable.leaves [13, 0, 0, 0, 28, 8, 43, 9], nullifiers [16],
    nullifiers [16, 5], nullifiers [16, 5, 31], nullifiers [16, 5, 31, 6], TreeTable.leaves [1]]

/-- The trees of the sample. -/
abbrev primitives : Primitives := TreeTable.primitives table

/-- A send of one note. -/
def send (inputNote1 inputNote2 outputNote1 outputNote2 : ValueNoteTx) (backwardLink allowChain : Fr) :
    JoinSplitTx primitives where
  proofId := ProofIds.SEND
  publicValue := 0
  publicOwner := 0
  assetId := 1
  numInputNotes := 1
  inputNote1Index := 0
  inputNote2Index := 0
  inputNote1
  inputNote2
  outputNote1
  outputNote2
  partialClaimNote := ⟨0, ⟨0, 0, 0, 0, 0, ⟨false, false⟩, 0⟩, 0, 0⟩
  signingPubKey := ⟨1, 1⟩
  signature := ()
  merkleRoot := 1
  inputPath1 := ()
  inputPath2 := ()
  accountNoteIndex := 0
  accountNotePath := ()
  accountPrivateKey := 1
  aliasHash := 0
  accountRequired := false
  backwardLink
  allowChain

open SampleJoinSplit (note)

/-- The first is chained to a note of the data tree before the rollup, the second to the first. -/
def txs : Fin 2 → JoinSplitTx primitives
  | 0 => send (note 10 1 0) (note 0 1 0) (note 9 1 16) (note 0 1 5) 13 1
  | 1 => send (note 9 1 16) (note 0 2 0) (note 9 1 31) (note 0 1 6) 28 0

/-- The circuit accepts both transactions. -/
lemma txs_accepted (i : Fin 2) : joinSplitCircuit primitives (txs i) (txs i).publicInputs := by
  simp only [joinSplitCircuit, suint, valueNote, partialClaimNote, createPointWitness,
    Circuit.bridgeCallData, processInputNote, subtractFee, subtract, createRangeConstraint, bind_assoc,
    pure_bind, Circuit.assert_bind_iff, Circuit.pure_iff]
  and_intros
  all_goals revert i; decide +kernel

/-- The inner rollup of both. -/
def rollup : RollupTx primitives 2 where
  rollupId := 0
  numTxs := 2
  dataStartIndex := 4
  txs i := (txs i).publicInputs
  oldDataRoot := 2
  newDataRoot := 3
  oldDataPath := ()
  linkedCommitmentPaths _ := ()
  linkedCommitmentIndices _ := 0
  oldNullRoot := 1
  newNullRoots i k := (2 * i.val + k.val + 4 : Nat)
  oldNullPaths _ _ := ()
  dataRootsRoot := 8
  dataRootsPaths _ := ()
  dataRootsIndicies _ := 0
  newDataRootsRoot := 0
  newDefiRoot := 1
  numDefiInteractions := 0
  bridgeCallDatas _ := 0
  numAssetIds := 0
  assetIds _ := MAX_NUM_ASSETS

/-- Its circuit accepts. -/
lemma rollup_ok : (rollupCircuit rollup).toBool = true := by decide +kernel

/-- All circuits accept. -/
lemma accepted : RollupAccepted rollup (Checks.value _ rollup_ok) where
  txs i := .joinSplit (txs i) (txs_accepted i)
  accepted := Checks.eq_ok_value _ rollup_ok

/-- Of the historic data trees only the empty one is recorded. -/
def trees : StartTrees rollup (TreeTable.rootOf table) (TreeTable.rootOf table)
    (TreeTable.rootOf table) where
  roots := (TreeTable.leaves [1]).tree
  history _ := (TreeTable.leaves []).tree
  data := oldData.tree
  null := (TreeTable.leaves []).tree
  dataRootsRoot := by decide +kernel
  historicRoot k hk := by
    cases k with
    | zero => decide +kernel
    | succ k =>
      refine absurd ?_ hk
      by_cases hlt : k + 1 < TreeTable.SIZE
      · rw [TreeTable.Leaves.tree_of_lt _ hlt]
        rfl
      · exact dif_neg hlt
  oldDataRoot := by decide +kernel
  oldNullRoot := by decide +kernel

/-- Both spend their first input. -/
lemma spends (i : Fin 2) : Spends rollup i (txs i) 0 where
  real := by
    revert i
    decide +kernel
  accepted := txs_accepted i
  value := by
    revert i
    decide +kernel

end SampleChainedTxs

/-- A note with a value that is spent is a leaf of a historic data tree, or of the data tree before the
inner rollup, or the output of an earlier transaction of it that permits to chain from it; and no
other input of the inner rollup is that note of its owner. -/
theorem spends_linked (hdata : SoundTree H dataRoot) (hroots : SoundTree H rootsRoot)
    (hnull : SoundTree H nullRoot)
    (hcommitment : ∀ values, H.compress values .VALUE_NOTE_COMMITMENT ≠ 0)
    (hnullifier : ∀ values, H.blake2s (H.compress values .JOIN_SPLIT_NULLIFIER) ≠ 0)
    (hkey : Function.Injective H.fixedBaseScalarMulG1) {rollup : RollupTx H n} {proof : RollupProof}
    (h : RollupAccepted rollup proof) (trees : StartTrees rollup dataRoot rootsRoot nullRoot)
    {i : Fin n} {tx : JoinSplitTx H} {k : Fin 2} (hs : Spends rollup i tx k) :
    (trees.Recorded (tx.inputCommitment k) ∨ (∃ index, trees.data index = tx.inputCommitment k) ∨
      EarlierOutput rollup i (tx.inputCommitment k)) ∧
    ∀ i' (tx' : JoinSplitTx H) k', Spends rollup i' tx' k' →
      tx'.inputCommitment k' = tx.inputCommitment k →
      (tx'.inputNote k').owner = (tx.inputNote k).owner → i' = i ∧ k' = k := by
  obtain ⟨scope, hspec⟩ := (rollupCircuit_spec rollup).apply h.accepted
  have hacc := (joinSplitCircuit_accepted tx).apply hs.accepted
  obtain ⟨hnull₁, hchecked⟩ := hacc.spends hs.value
  have hreal : i < scope.numTxs := hspec.inScope.numTxs ▸ hs.real
  refine ⟨?_, fun i' tx' k' hs' hsame howner => ?_⟩
  · rcases hchecked with ⟨path, index, hmem⟩ | hlink
    · -- in the tree that the transaction names, the root of which is recorded
      obtain ⟨hne, hroot⟩ := (hspec.checked i).dataRoot hreal
      rw [trees.dataRootsRoot] at hroot
      have hleaf := hroots.check _ _ _ _ hroot
      rw [← hleaf, trees.historicRoot _ (hleaf ▸ hne)] at hmem
      exact .inl ⟨_, index, hleaf ▸ hne, hdata.check _ _ _ _ hmem⟩
    · have hne : (rollup.txs i).backwardLink ≠ 0 := by
        rw [hlink]
        exact hcommitment _
      rw [← hlink]
      refine .inr ((hspec.linked h.txs hreal hne).imp_left ?_)
      rintro ⟨path, index, hmem⟩
      rw [trees.oldDataRoot] at hmem
      exact ⟨index, hdata.check _ _ _ _ hmem⟩
  · -- both have the nullifier of the note
    have hacc' := (joinSplitCircuit_accepted tx').apply hs'.accepted
    have hprivate : tx'.accountPrivateKey = tx.accountPrivateKey :=
      hkey ((hacc'.inputOwner k').trans (howner.trans (hacc.inputOwner k).symm))
    have hnull₂ := (hacc'.spends hs'.value).1
    rw [hsame, hprivate] at hnull₂
    have hne : (rollup.txs i).nullifier k ≠ 0 := by
      rw [hnull₁]
      exact hnullifier _
    refine nullifier_unique (hspec.nullifiers_nodup hnull trees.oldNullRoot) ?_ ?_
    · rwa [RollupTx.masked_real hs.real]
    · rw [RollupTx.masked_real hs.real, RollupTx.masked_real hs'.real, hnull₁, hnull₂]

/-- The second transaction spends the output of the first. -/
theorem spends_linked_sample : SampleChainedTxs.trees.Recorded
      ((SampleChainedTxs.txs 1).inputCommitment 0) ∨
    (∃ index, SampleChainedTxs.trees.data index = (SampleChainedTxs.txs 1).inputCommitment 0) ∨
      EarlierOutput SampleChainedTxs.rollup 1 ((SampleChainedTxs.txs 1).inputCommitment 0) := by
  have hsound := @TreeTable.sound SampleChainedTxs.table (by decide +kernel)
  have hne (values : List Fr) (g : GeneratorIndex) :
      SampleChainedTxs.primitives.compress values g ≠ 0 := TreeTable.compress_ne values g
  refine (spends_linked hsound hsound hsound (fun values => hne values _)
    (fun values => hne values .JOIN_SPLIT_NULLIFIER) (fun _ _ heq => congrArg Point.x heq)
    SampleChainedTxs.accepted SampleChainedTxs.trees (SampleChainedTxs.spends 1)).1

/-- The first transaction spends a note that is in no historic data tree, nor an output of the inner
rollup: its chain starts in the data tree before the inner rollup. -/
theorem spends_unrecorded : (∃ proof, RollupAccepted SampleChainedTxs.rollup proof) ∧
    ∃ (tx : JoinSplitTx SampleChainedTxs.primitives) (k : Fin 2),
      Spends SampleChainedTxs.rollup 0 tx k ∧ SampleChainedTxs.trees.data 0 = tx.inputCommitment k ∧
        ¬ SampleChainedTxs.trees.Recorded (tx.inputCommitment k) ∧
        ¬ EarlierOutput SampleChainedTxs.rollup 0 (tx.inputCommitment k) := by
  refine ⟨⟨_, SampleChainedTxs.accepted⟩, _, _, SampleChainedTxs.spends 0, by decide +kernel, ?_, ?_⟩
  · rintro ⟨k, index, -, hleaf⟩
    have hempty : (TreeTable.leaves []).tree index = 0 := by
      by_cases hlt : index < TreeTable.SIZE
      · rw [TreeTable.Leaves.tree_of_lt _ hlt]
        rfl
      · exact dif_neg hlt
    have hne : (0 : Fr) ≠ (SampleChainedTxs.txs 0).inputCommitment 0 := by decide +kernel
    exact hne (hempty.symm.trans hleaf)
  · rintro ⟨j, hj, -⟩
    exact absurd hj (Nat.not_lt_zero _)

end AztecConnect.Circuit
