import AztecConnect.Circuit.ChainedTxs
import AztecConnect.Lib.History

/-!
# The notes of all rollups

Along a chain of accepted root rollups every note with a value that is spent was in the data tree from
the start, or is an output of an earlier transaction, and it is spent once (`notes_spentOnce`). What the
trees hold is followed through the inner rollups: the data tree gets the commitments that they publish,
and the tree of data roots gets the root of the data tree.
-/

namespace AztecConnect.Circuit

open History (Sequentially)

variable {H : Primitives} {n : Nat} {dataRoot nullRoot rootsRoot : (Nat → Fr) → Fr}

/-! ## The transactions, where they stand -/

/-- A transaction of an inner rollup. -/
structure PlacedTx (H : Primitives) where
  {n : Nat}
  rollup : RollupTx H n
  index : Fin n

namespace PlacedTx

variable (place : PlacedTx H)

/-- The public inputs, zero where it is padding. -/
def proof : InnerProof := place.rollup.masked place.rollup.numTxs.val place.index

/-- It publishes a note commitment. The claim note of a deposit is completed. -/
def Emits (commitment : Fr) : Prop :=
  ∃ scope, Scoped place.rollup scope ∧
    ∃ k, (completed H place.rollup.rollupId scope place.proof).noteCommitment k = commitment

/-- It is real, and spends a note that has a value. -/
def Spends (tx : JoinSplitTx H) (k : Fin 2) : Prop := Circuit.Spends place.rollup place.index tx k

end PlacedTx

/-- The slots of an inner rollup. -/
def RollupTx.places (rollup : RollupTx H n) : List (PlacedTx H) :=
  (List.finRange n).map fun i => ⟨rollup, i⟩

namespace AcceptedRollup

/-- The transactions of the inner rollups before the `k`-th. -/
def placesBefore (a : AcceptedRollup H) (k : Nat) : List (PlacedTx H) :=
  (a.before k).flatMap fun i => (a.rollups i).places

/-- The transactions of the real inner rollups. -/
def places (a : AcceptedRollup H) : List (PlacedTx H) := a.placesBefore a.tx.numReal

/-- The slots before the next inner rollup. -/
lemma placesBefore_succ (a : AcceptedRollup H) (i : Fin a.m) :
    a.placesBefore (i + 1) = a.placesBefore i ++ (a.rollups i).places := by
  rw [placesBefore, a.before_succ i, List.flatMap_append, List.flatMap_singleton]
  rfl

/-- The slots hold the transactions of the root rollup. -/
lemma places_proof (a : AcceptedRollup H) : a.places.map PlacedTx.proof = a.txs := by
  simp only [places, placesBefore, txs, RollupTx.places, List.map_flatMap, List.map_map]
  rfl

end AcceptedRollup

/-- The transactions of the root rollups. -/
def placesOf (as : List (AcceptedRollup H)) : List (PlacedTx H) := as.flatMap AcceptedRollup.places

/-- The slots of a chain hold its transactions. -/
lemma placesOf_proof (as : List (AcceptedRollup H)) : (placesOf as).map PlacedTx.proof = txsOf as := by
  simp only [placesOf, txsOf, List.map_flatMap, AcceptedRollup.places_proof]

/-! ## What the trees hold -/

/-- A value is there from the start, or the commitment of a note that one of the transactions
publishes. -/
def Held (initial : Fr → Prop) (places : List (PlacedTx H)) (value : Fr) : Prop :=
  initial value ∨ ∃ place ∈ places, place.Emits value

/-- The leaves of a tree that are not zero. -/
def LeavesIn (t : Nat → Fr) (held : Fr → Prop) : Prop := ∀ i, t i ≠ 0 → held (t i)

/-- Leaves that are held by fewer are held by more. -/
lemma LeavesIn.mono {t : Nat → Fr} {held held' : Fr → Prop} (h : LeavesIn t held)
    (himp : ∀ x, held x → held' x) : LeavesIn t held' := fun i hi => himp _ (h i hi)

/-- The data tree and the trees whose roots are recorded hold nothing else. -/
structure NotesHeld (dataRoot rootsRoot : (Nat → Fr) → Fr) (r : Roots) (held : Fr → Prop) : Prop where
  data : ∃ t, r.data = dataRoot t ∧ LeavesIn t held
  roots : ∃ t, r.roots = rootsRoot t ∧ LeavesIn t fun x => ∃ d, x = dataRoot d ∧ LeavesIn d held

/-- A history of roots, where the trees may hold more. -/
lemma recorded_mono {t : Nat → Fr} {held held' : Fr → Prop}
    (h : LeavesIn t fun x => ∃ d, x = dataRoot d ∧ LeavesIn d held) (himp : ∀ x, held x → held' x) :
    LeavesIn t fun x => ∃ d, x = dataRoot d ∧ LeavesIn d held' := by
  refine h.mono fun x hx => ?_
  obtain ⟨d, hd, hleaves⟩ := hx
  exact ⟨d, hd, hleaves.mono himp⟩

/-- So are the notes of all trees. -/
lemma NotesHeld.mono {r : Roots} {held held' : Fr → Prop} (h : NotesHeld dataRoot rootsRoot r held)
    (himp : ∀ x, held x → held' x) : NotesHeld dataRoot rootsRoot r held' := by
  obtain ⟨⟨t, ht, hleaves⟩, roots, hrecorded, hhistory⟩ := h
  exact ⟨⟨t, ht, hleaves.mono himp⟩, roots, hrecorded, recorded_mono hhistory himp⟩

section Held

variable {initial : Fr → Prop} {past places : List (PlacedTx H)} {value : Fr}

/-- A note that is held stays held. -/
lemma Held.append (h : Held initial past value) : Held initial (past ++ places) value := by
  cases h with
  | inl hinitial => exact .inl hinitial
  | inr hemits =>
    obtain ⟨place, hmem, hemits⟩ := hemits
    exact .inr ⟨place, List.mem_append_left _ hmem, hemits⟩

/-- A history of roots keeps what it holds. -/
lemma recorded_append {t : Nat → Fr}
    (h : LeavesIn t fun x => ∃ d, x = dataRoot d ∧ LeavesIn d (Held initial past)) :
    LeavesIn t fun x => ∃ d, x = dataRoot d ∧ LeavesIn d (Held initial (past ++ places)) :=
  recorded_mono h fun _ hheld => hheld.append

end Held

/-- A leaf after a batch is an old one, or of the batch. -/
lemma insertBatch_leaf (t : Nat → Fr) (start : Nat) (values : List Fr) (i : Nat) :
    insertBatch t start values i = t i ∨ insertBatch t start values i ∈ values := by
  unfold insertBatch
  split
  case isFalse => exact .inl rfl
  case isTrue =>
    cases hget : values[i - start]? with
    | none => exact .inl rfl
    | some x => exact .inr (List.mem_of_getElem? hget)

/-- A new leaf that is not zero is a note of a slot. -/
lemma mem_newDataValues {published : Fin n → InnerProof} {x : Fr} (hx : x ∈ newDataValues published)
    (hne : x ≠ 0) : ∃ i k, (published i).noteCommitment k = x := by
  rw [newDataValues, resize, List.mem_append] at hx
  cases hx with
  | inl hnote =>
    obtain ⟨i, -, hi⟩ := List.mem_flatMap.mp hnote
    rw [List.mem_cons, List.mem_singleton] at hi
    cases hi with
    | inl h1 => exact ⟨i, 0, h1.symm⟩
    | inr h2 => exact ⟨i, 1, h2.symm⟩
  | inr hpad => exact absurd (List.eq_of_mem_replicate hpad) hne

/-! ## One inner rollup -/

/-- A slot is among the slots of its rollup. -/
lemma RollupTx.place_mem (rollup : RollupTx H n) (i : Fin n) : ⟨rollup, i⟩ ∈ rollup.places :=
  List.mem_map_of_mem (List.mem_finRange i)

section Rollup

variable {rollup : RollupTx H n} {scope : RollupScope} {inner : RollupProof} {initial : Fr → Prop}
  {past : List (PlacedTx H)} {t : Nat → Fr}

/-- The data tree gets the commitments that the inner rollup publishes. -/
lemma RollupSpec.leavesIn (h : RollupSpec rollup scope inner) (hdata : SoundTree H dataRoot)
    (hroot : inner.oldDataRoot = dataRoot t) (ht : LeavesIn t (Held initial past)) :
    ∃ t', inner.newDataRoot = dataRoot t' ∧ LeavesIn t' (Held initial (past ++ rollup.places)) := by
  have hupdated := h.dataUpdated
  have hold : inner.oldDataRoot = rollup.oldDataRoot := congrArg RollupProof.oldDataRoot h.proof_eq
  have hnew : inner.newDataRoot = rollup.newDataRoot := congrArg RollupProof.newDataRoot h.proof_eq
  rw [← hold, hroot] at hupdated
  refine ⟨_, hnew.trans (hdata.batch _ _ _ _ _ hupdated), fun i hi => ?_⟩
  rcases insertBatch_leaf t rollup.dataStartIndex.val
    (newDataValues fun j => completed H rollup.rollupId scope (rollup.masked scope.numTxs j)) i
    with hleaf | hmem
  · rw [hleaf] at hi ⊢
    exact (ht i hi).append
  · obtain ⟨j, k, hnote⟩ := mem_newDataValues hmem hi
    have hproof : PlacedTx.proof ⟨rollup, j⟩ = rollup.masked scope.numTxs j := by
      rw [h.inScope.numTxs]
      rfl
    refine .inr ⟨⟨rollup, j⟩, List.mem_append_right _ (rollup.place_mem j), scope, h.inScope, k, ?_⟩
    rw [hproof, hnote]

/-- A note that may be chained from is published as such. -/
lemma JoinSplitTx.Accepted.allowsChain_public {tx : JoinSplitTx H} {p : InnerProof}
    (h : tx.Accepted p) {k : Fin 2} (hchain : tx.allowsChain k = true) : p.AllowsChain k := by
  have hallow : p.allowChain = tx.allowChain := congrArg InnerProof.allowChain h.proof_eq
  rw [InnerProof.AllowsChain, hallow]
  by_cases hk : k = 0
  · subst hk
    rw [JoinSplitTx.allowsChain, if_pos rfl, JoinSplitTx.allowChain1, Bool.or_eq_true, beq_iff_eq,
      beq_iff_eq] at hchain
    exact hchain
  · obtain rfl : k = 1 := by omega
    rw [JoinSplitTx.allowsChain, if_neg (by decide), JoinSplitTx.allowChain2, Bool.or_eq_true,
      beq_iff_eq, beq_iff_eq] at hchain
    exact hchain

/-- An earlier output is a note that an earlier slot emits. -/
lemma EarlierOutput.emits {i : Fin n} {commitment : Fr} (h : EarlierOutput rollup i commitment)
    (hscope : Scoped rollup scope) (hreal : i.val < rollup.numTxs.val) :
    ∃ j < i, PlacedTx.Emits ⟨rollup, j⟩ commitment := by
  obtain ⟨j, hj, tx, k, htx, hallow, -, hnote, -⟩ := h
  have hacc := (joinSplitCircuit_accepted tx).apply htx
  have hproof : PlacedTx.proof ⟨rollup, j⟩ = rollup.txs j :=
    RollupTx.masked_real (lt_trans (show j.val < i.val from hj) hreal)
  refine ⟨j, hj, scope, hscope, k, ?_⟩
  rw [hproof, completed_noteCommitment hacc (hacc.allowsChain_public hallow), hnote]

/-- The note of each input with a value is held before the transaction. -/
def Justified (initial : Fr → Prop) (past : List (PlacedTx H)) (place : PlacedTx H) : Prop :=
  ∀ (tx : JoinSplitTx H) k, place.Spends tx k → Held initial past (tx.inputCommitment k)

/-- Every note spent in an inner rollup was held before it, or emitted by an earlier slot of it. -/
lemma RollupSpec.justified (h : RollupSpec rollup scope inner)
    (htxs : ∀ i, TxAccepted H (rollup.txs i)) (hdata : SoundTree H dataRoot)
    (hroots : SoundTree H rootsRoot)
    (hcommitment : ∀ values, H.compress values .VALUE_NOTE_COMMITMENT ≠ 0)
    (hroot : rollup.oldDataRoot = dataRoot t) (ht : LeavesIn t (Held initial past))
    {roots : Nat → Fr} (hrecorded : rollup.dataRootsRoot = rootsRoot roots)
    (hhistory : LeavesIn roots fun x => ∃ d, x = dataRoot d ∧ LeavesIn d (Held initial past)) :
    Sequentially (Justified initial) past rollup.places := by
  refine History.sequentially_finRange fun i tx k hs => ?_
  have hacc := (joinSplitCircuit_accepted tx).apply hs.accepted
  have hreal : i < scope.numTxs := h.inScope.numTxs ▸ hs.real
  have hne : tx.inputCommitment k ≠ 0 := hcommitment _
  rcases (hacc.spends hs.value).2 with ⟨path, index, hmem⟩ | hlink
  · -- in a data tree whose root is recorded
    obtain ⟨hrootne, hcheck⟩ := (h.checked i).dataRoot hreal
    rw [hrecorded] at hcheck
    have hleaf := hroots.check _ _ _ _ hcheck
    obtain ⟨d, hd, hleaves⟩ := hhistory _ (hleaf ▸ hrootne)
    rw [← hleaf, hd] at hmem
    have hnote := hdata.check _ _ _ _ hmem
    have hheld := hleaves index (hnote ▸ hne)
    rw [hnote] at hheld
    exact hheld.append
  · have hlinkne : (rollup.txs i).backwardLink ≠ 0 := by
      rw [show (rollup.txs i).backwardLink = _ from hlink]
      exact hne
    have hlinked := h.linked htxs hreal hlinkne
    rw [show (rollup.txs i).backwardLink = _ from hlink] at hlinked
    rcases hlinked with ⟨path, index, hmem⟩ | hearlier
    · -- in the data tree before the inner rollup
      rw [hroot] at hmem
      have hnote := hdata.check _ _ _ _ hmem
      have hheld := ht index (hnote ▸ hne)
      rw [hnote] at hheld
      exact hheld.append
    · obtain ⟨j, hj, hemits⟩ := hearlier.emits h.inScope hs.real
      refine .inr ⟨⟨rollup, j⟩, List.mem_append_right _ (List.mem_map_of_mem ?_), hemits⟩
      refine List.mem_take_iff_getElem.mpr ⟨j, ?_, List.getElem_finRange _⟩
      rw [List.length_finRange]
      exact lt_min hj j.isLt

end Rollup

/-! ## A chain of root rollups -/

section Chain

variable {initial : Fr → Prop} {past : List (PlacedTx H)}

/-- The inner rollups of a root rollup read one tree of data roots. -/
lemma AcceptedRollup.dataRootsRoot (a : AcceptedRollup H) {i : Fin a.m} (hi : i.val < a.tx.numReal) :
    (a.rollups i).dataRootsRoot = a.proof.header.oldDataRootsRoot := by
  obtain ⟨scope, hspec⟩ := a.accepted.inner i
  calc (a.rollups i).dataRootsRoot = (a.tx.rollups i).oldDataRootsRoot :=
        (congrArg RollupProof.oldDataRootsRoot hspec.proof_eq).symm
    _ = a.tx.oldDataRootsRoot := (a.accepted.root.checked i (lt_numReal.mp hi)).oldDataRootsRoot
    _ = a.proof.header.oldDataRootsRoot :=
        (congrArg RootRollupHeader.oldDataRootsRoot a.accepted.root.header).symm

/-- The inner rollups, one after another. -/
lemma AcceptedRollup.justifiedBefore (a : AcceptedRollup H) (hdata : SoundTree H dataRoot)
    (hroots : SoundTree H rootsRoot)
    (hcommitment : ∀ values, H.compress values .VALUE_NOTE_COMMITMENT ≠ 0)
    (h : NotesHeld dataRoot rootsRoot a.proof.header.oldRoots (Held initial past)) {k : Nat}
    (hk : k ≤ a.tx.numReal) :
    (∃ t, rootAt a.tx a.proof.header.oldDataRoot (·.newDataRoot) k = dataRoot t ∧
      LeavesIn t (Held initial (past ++ a.placesBefore k))) ∧
    Sequentially (Justified initial) past (a.placesBefore k) := by
  induction k with
  | zero =>
    have hnone : a.placesBefore 0 = [] := rfl
    rw [hnone, List.append_nil]
    exact ⟨h.data, trivial⟩
  | succ k ih =>
    have hlt : k < a.m := lt_of_lt_of_le hk (Nat.min_le_left _ _)
    obtain ⟨⟨t, hold, ht⟩, hbefore⟩ := ih (Nat.le_of_succ_le hk)
    obtain ⟨roots, hrecorded, hhistory⟩ := h.roots
    rw [← (a.accepted.old_roots (i := ⟨k, hlt⟩) hk).1] at hold
    obtain ⟨scope, hspec⟩ := a.accepted.inner ⟨k, hlt⟩
    have hroot : (a.rollups ⟨k, hlt⟩).oldDataRoot = dataRoot t :=
      (congrArg RollupProof.oldDataRoot hspec.proof_eq).symm.trans hold
    have hjustified := hspec.justified (a.accepted.rollups ⟨k, hlt⟩).txs hdata hroots hcommitment hroot
      ht ((a.dataRootsRoot (i := ⟨k, hlt⟩) hk).trans hrecorded) (recorded_append hhistory)
    obtain ⟨t', hnew, ht'⟩ := hspec.leavesIn hdata hold ht
    rw [a.placesBefore_succ ⟨k, hlt⟩, ← List.append_assoc, History.sequentially_append]
    exact ⟨⟨t', (rootAt_succ ⟨k, hlt⟩).trans hnew, ht'⟩, hbefore, hjustified⟩

/-- One root rollup. -/
lemma AcceptedRollup.justified (a : AcceptedRollup H) (hdata : SoundTree H dataRoot)
    (hroots : SoundTree H rootsRoot)
    (hcommitment : ∀ values, H.compress values .VALUE_NOTE_COMMITMENT ≠ 0)
    (h : NotesHeld dataRoot rootsRoot a.proof.header.oldRoots (Held initial past)) :
    Sequentially (Justified initial) past a.places ∧
    NotesHeld dataRoot rootsRoot a.proof.header.newRoots (Held initial (past ++ a.places)) := by
  obtain ⟨⟨t, hlast, ht⟩, hjustified⟩ := a.justifiedBefore hdata hroots hcommitment h le_rfl
  have hnew : a.proof.header.newDataRoot = dataRoot t := a.accepted.new_roots.1.symm.trans hlast
  obtain ⟨roots, hrecorded, hhistory⟩ := h.roots
  have hupdate := a.accepted.root.rootUpdated
  rw [show a.proof.header.oldDataRootsRoot = rootsRoot roots from hrecorded] at hupdate
  obtain ⟨-, hroot⟩ := hroots.update _ _ _ _ _ _ hupdate
  refine ⟨hjustified, ⟨t, hnew, ht⟩, _, hroot, fun i hi => ?_⟩
  by_cases heq : i = (a.proof.header.rollupId + 1).val
  · rw [heq, Function.update_self]
    exact ⟨t, hnew, ht⟩
  · rw [Function.update_of_ne heq] at hi ⊢
    exact recorded_append hhistory i hi

/-- Every note spent in a chain of root rollups was held at first, or emitted by an earlier slot. -/
lemma RootsChain.justified (hdata : SoundTree H dataRoot) (hroots : SoundTree H rootsRoot)
    (hcommitment : ∀ values, H.compress values .VALUE_NOTE_COMMITMENT ≠ 0) {r : Roots}
    (hheld : NotesHeld dataRoot rootsRoot r (Held initial past)) {as : List (AcceptedRollup H)}
    (h : RootsChain r as) : Sequentially (Justified initial) past (placesOf as) := by
  induction as generalizing r past with
  | nil => trivial
  | cons a as ih =>
    obtain ⟨hold, has⟩ := h
    obtain ⟨hjustified, hheld'⟩ := a.justified hdata hroots hcommitment (hold ▸ hheld)
    exact History.sequentially_append.mpr ⟨hjustified, ih hheld' has⟩

/-- No nullifier but zero is published twice. -/
lemma RootsChain.nullifiers_nodup (hnull : SoundTree H nullRoot) {null : Nat → Fr} {r : Roots}
    (hroot : r.null = nullRoot null) {as : List (AcceptedRollup H)} (h : RootsChain r as) :
    (((List.finRange (placesOf as).length).flatMap fun i =>
      ((placesOf as).get i).proof.nullifiers).filter (· ≠ 0)).Nodup := by
  have hnodup := (h.inserted hnull hroot).2.fresh.nodup.of_map
  have hplaces : (List.finRange (placesOf as).length).flatMap
      (fun i => ((placesOf as).get i).proof.nullifiers) = (insertionsOf as).map Prod.fst := by
    rw [insertionsOf_fst, ← placesOf_proof, List.flatMap_map]
    conv_rhs => rw [← List.map_get_finRange (placesOf as), List.flatMap_map]
  rwa [← hplaces] at hnodup

/-- A note that is spent was there from the start, or an earlier transaction has published its
commitment. -/
lemma RootsChain.spent_held (hdata : SoundTree H dataRoot) (hroots : SoundTree H rootsRoot)
    (hcommitment : ∀ values, H.compress values .VALUE_NOTE_COMMITMENT ≠ 0) {r : Roots}
    (hheld : NotesHeld dataRoot rootsRoot r initial) {as : List (AcceptedRollup H)}
    (h : RootsChain r as) {i : Fin (placesOf as).length} {tx : JoinSplitTx H} {k : Fin 2}
    (hs : ((placesOf as).get i).Spends tx k) :
    initial (tx.inputCommitment k) ∨
      ∃ j < i, ((placesOf as).get j).Emits (tx.inputCommitment k) := by
  have hheld' : NotesHeld dataRoot rootsRoot r (Held initial ([] : List (PlacedTx H))) :=
    hheld.mono fun _ hinitial => .inl hinitial
  have hjustified := (h.justified hdata hroots hcommitment hheld').get i tx k hs
  rw [List.nil_append] at hjustified
  refine hjustified.imp_right fun hemits => ?_
  obtain ⟨place, hmem, hemits⟩ := hemits
  obtain ⟨j, hj, heq⟩ := List.mem_take_iff_getElem.mp hmem
  obtain ⟨hji, hjlen⟩ := lt_min_iff.mp hj
  rw [← heq] at hemits
  exact ⟨⟨j, hjlen⟩, hji, hemits⟩

/-- Two inputs that are the same note of one owner have one nullifier. -/
lemma RootsChain.spent_unique (hnull : SoundTree H nullRoot)
    (hnullifier : ∀ values, H.blake2s (H.compress values .JOIN_SPLIT_NULLIFIER) ≠ 0)
    (hkey : Function.Injective H.fixedBaseScalarMulG1) {null : Nat → Fr} {r : Roots}
    (hroot : r.null = nullRoot null) {as : List (AcceptedRollup H)} (h : RootsChain r as)
    {i i' : Fin (placesOf as).length} {tx tx' : JoinSplitTx H} {k k' : Fin 2}
    (hs : ((placesOf as).get i).Spends tx k) (hs' : ((placesOf as).get i').Spends tx' k')
    (hsame : tx'.inputCommitment k' = tx.inputCommitment k)
    (howner : (tx'.inputNote k').owner = (tx.inputNote k).owner) : i' = i ∧ k' = k := by
  have hacc := (joinSplitCircuit_accepted tx).apply hs.accepted
  have hacc' := (joinSplitCircuit_accepted tx').apply hs'.accepted
  have hprivate : tx'.accountPrivateKey = tx.accountPrivateKey :=
    hkey ((hacc'.inputOwner k').trans (howner.trans (hacc.inputOwner k).symm))
  have hnull₁ := (hacc.spends hs.value).1
  have hnull₂ := (hacc'.spends hs'.value).1
  rw [hsame, hprivate] at hnull₂
  have hproof : ((placesOf as).get i).proof = ((placesOf as).get i).rollup.txs _ :=
    RollupTx.masked_real hs.real
  have hproof' : ((placesOf as).get i').proof = ((placesOf as).get i').rollup.txs _ :=
    RollupTx.masked_real hs'.real
  refine nullifier_unique (h.nullifiers_nodup hnull hroot) ?_ ?_
  · rw [hproof, hnull₁]
    exact hnullifier _
  · rw [hproof, hproof', hnull₁, hnull₂]

end Chain

/-! ## A chain of one root rollup with two sends -/

namespace SampleSpentNotes

/-- The trees of the two sends, and the tree of data roots after the root rollup. -/
def table : List TreeTable.Leaves := SampleChainedTxs.table ++ [TreeTable.leaves [1, 3]]

/-- The trees of the sample. -/
abbrev primitives : Primitives := TreeTable.primitives table

/-- A deposit, and a transfer chained on it. -/
def txs (i : Fin 2) : JoinSplitTx primitives :=
  { SampleChainedTxs.txs i with signature := (), inputPath1 := (), inputPath2 := (), accountNotePath := () }

/-- The circuit accepts both. -/
lemma txs_accepted (i : Fin 2) :
    joinSplitCircuit primitives (txs i) (SampleChainedTxs.txs i).publicInputs := by
  simp only [joinSplitCircuit, suint, valueNote, partialClaimNote, createPointWitness,
    Circuit.bridgeCallData, processInputNote, subtractFee, subtract, createRangeConstraint, bind_assoc,
    pure_bind, Circuit.assert_bind_iff, Circuit.pure_iff]
  and_intros
  all_goals revert i; decide +kernel

/-- The inner rollup of both. -/
def rollup : RollupTx primitives 2 :=
  { SampleChainedTxs.rollup with
    oldDataPath := (), linkedCommitmentPaths := fun _ => (), oldNullPaths := fun _ _ => ()
    dataRootsPaths := fun _ => () }

/-- Its circuit accepts. -/
lemma rollup_ok : (rollupCircuit rollup).toBool = true := by decide +kernel

/-- The root rollup. -/
def tx : RootRollupTx primitives 1 where
  rollupId := 0
  numInnerProofs := 1
  rollups _ := Checks.value (rollupCircuit rollup) rollup_ok
  oldDataRootsRoot := 8
  newDataRootsRoot := 9
  oldDataRootsPath := ()
  oldDefiRoot := 1
  newDefiRoot := 1
  oldDefiPath := ()
  bridgeCallDatas _ := 0
  assetIds _ := MAX_NUM_ASSETS
  defiInteractionNotes _ := SampleClaim.noteTx
  numPreviousDefiInteractions := 0
  rollupBeneficiary := 0

/-- Its circuit accepts. -/
lemma tx_ok : (rootRollupCircuit tx (rollupSizePow2 2)
    (rollupSizePow2 (1 * rollupSizePow2 2))).toBool = true := by decide +kernel

/-- The accepted root rollup. -/
def accepted : AcceptedRollup primitives where
  tx := tx
  rollups _ := rollup
  proof := Checks.value _ tx_ok
  accepted := {
    rollups := fun _ => ⟨fun i => .joinSplit (txs i) (txs_accepted i), Checks.eq_ok_value _ rollup_ok⟩
    accepted := Checks.eq_ok_value _ tx_ok }

/-- The data tree with one note, whose root is not recorded. -/
def roots : Roots := ⟨2, 1, 8, 1⟩

/-- The chain of this one rollup. -/
lemma chain : RootsChain roots [accepted] := by
  refine ⟨?_, trivial⟩
  rw [Roots.mk.injEq]
  decide +kernel

/-- A tree of the sample holds its leaves. -/
lemma leavesIn {f : TreeTable.Leaves} {held : Fr → Prop} (h : ∀ i, f i ≠ 0 → held (f i)) :
    LeavesIn f.tree held := by
  intro i hi
  by_cases hlt : i < TreeTable.SIZE
  · rw [TreeTable.Leaves.tree_of_lt _ hlt] at hi ⊢
    exact h _ hi
  · exact absurd (dif_neg hlt) hi

/-- At first one note is held. -/
lemma notesHeld : NotesHeld (TreeTable.rootOf table) (TreeTable.rootOf table) roots (· = 13) where
  data := ⟨SampleChainedTxs.oldData.tree, by decide +kernel, leavesIn (by decide +kernel)⟩
  roots := by
    refine ⟨(TreeTable.leaves [1]).tree, by decide +kernel, leavesIn fun i hi => ?_⟩
    refine ⟨(TreeTable.leaves []).tree, ?_, leavesIn fun j hj => absurd rfl hj⟩
    revert i
    decide +kernel

/-- The transfer spends the note of the deposit. -/
lemma spends : ((placesOf [accepted]).get ⟨1, by decide⟩).Spends (txs 1) 0 where
  real := by decide +kernel
  accepted := txs_accepted 1
  value := by decide +kernel

end SampleSpentNotes

/-- Every note with a value that is spent was there from the start, or an earlier transaction has
published its commitment; and no other input of any transaction is that note of its owner. -/
theorem notes_spentOnce (hdata : SoundTree H dataRoot) (hroots : SoundTree H rootsRoot)
    (hnull : SoundTree H nullRoot)
    (hcommitment : ∀ values, H.compress values .VALUE_NOTE_COMMITMENT ≠ 0)
    (hnullifier : ∀ values, H.blake2s (H.compress values .JOIN_SPLIT_NULLIFIER) ≠ 0)
    (hkey : Function.Injective H.fixedBaseScalarMulG1) {initial : Fr → Prop} {null : Nat → Fr}
    {r : Roots} (hheld : NotesHeld dataRoot rootsRoot r initial) (hroot : r.null = nullRoot null)
    {as : List (AcceptedRollup H)} (h : RootsChain r as) (i : Fin (placesOf as).length)
    (tx : JoinSplitTx H) (k : Fin 2) (hs : ((placesOf as).get i).Spends tx k) :
    (initial (tx.inputCommitment k) ∨
      ∃ j < i, ((placesOf as).get j).Emits (tx.inputCommitment k)) ∧
    ∀ i' (tx' : JoinSplitTx H) k', ((placesOf as).get i').Spends tx' k' →
      tx'.inputCommitment k' = tx.inputCommitment k →
      (tx'.inputNote k').owner = (tx.inputNote k).owner → i' = i ∧ k' = k := by
  refine ⟨h.spent_held hdata hroots hcommitment hheld hs, fun i' tx' k' hs' hsame howner => ?_⟩
  exact h.spent_unique hnull hnullifier hkey hroot hs hs' hsame howner

/-- The second send spends what the first has left. -/
theorem notes_spentOnce_sample : ∃ j : Fin (placesOf [SampleSpentNotes.accepted]).length,
    j.val < 1 ∧ ((placesOf [SampleSpentNotes.accepted]).get j).Emits 28 := by
  have hsound := @TreeTable.sound SampleSpentNotes.table (by decide +kernel)
  have hne (values : List Fr) (g : GeneratorIndex) :
      SampleSpentNotes.primitives.compress values g ≠ 0 := TreeTable.compress_ne values g
  have hempty : SampleSpentNotes.roots.null =
      TreeTable.rootOf SampleSpentNotes.table (TreeTable.leaves []).tree := by decide +kernel
  have hnote : (SampleSpentNotes.txs 1).inputCommitment 0 = 28 := by decide +kernel
  have hemits := ((notes_spentOnce hsound hsound hsound (fun values => hne values _)
    (fun values => hne values .JOIN_SPLIT_NULLIFIER) (fun _ _ heq => congrArg Point.x heq)
    SampleSpentNotes.notesHeld hempty SampleSpentNotes.chain _ _ _
    SampleSpentNotes.spends).1).resolve_left (by decide +kernel)
  obtain ⟨j, hj, hemits⟩ := hemits
  exact ⟨j, hj, hnote ▸ hemits⟩

end AztecConnect.Circuit
