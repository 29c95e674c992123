import AztecConnect.Circuit.Nullifiers

/-!
# The accounts of all rollups

Along a chain of accepted root rollups an alias is created at most once and an account key registered
at most once, and only the holder of a spending key of the account changes it (`accounts_secure`).
The nullifiers make both unique, so a hash that is zero is excluded.
-/

namespace AztecConnect.Circuit

variable {H : Primitives} {m n : Nat} {dataRoot nullRoot rootsRoot : (Nat → Fr) → Fr}

/-! ## The transactions -/

/-- Both nullifiers of a transaction. -/
def InnerProof.nullifiers (p : InnerProof) : List Fr := [p.nullifier1, p.nullifier2]

namespace AcceptedRollup

/-- The transactions of the real inner rollups, zero where they are padding. -/
def txs (a : AcceptedRollup H) : List InnerProof :=
  (a.before a.tx.numReal).flatMap fun i =>
    (List.finRange a.n).map fun t => (a.rollups i).masked (a.rollups i).numTxs.val t

/-- A root rollup inserts the nullifiers of its transactions. -/
lemma insertions_fst (a : AcceptedRollup H) :
    a.insertions.map Prod.fst = a.txs.flatMap InnerProof.nullifiers := by
  simp only [insertions, txs, RollupTx.insertions, List.map_flatMap, List.flatMap_assoc,
    List.flatMap_map]
  rfl

end AcceptedRollup

/-- The transactions of the root rollups. -/
def txsOf (as : List (AcceptedRollup H)) : List InnerProof := as.flatMap AcceptedRollup.txs

/-- So does a chain. -/
lemma insertionsOf_fst (as : List (AcceptedRollup H)) :
    (insertionsOf as).map Prod.fst = (txsOf as).flatMap InnerProof.nullifiers := by
  simp only [insertionsOf, txsOf, List.map_flatMap, List.flatMap_assoc,
    AcceptedRollup.insertions_fst]

/-- A nullifier that is not zero belongs to one transaction. -/
lemma pairwise_of_nullifier {ps : List InnerProof} {x : Fr} {P : InnerProof → Prop}
    (hnodup : ((ps.flatMap InnerProof.nullifiers).filter (· ≠ 0)).Nodup) (hx : x ≠ 0)
    (hP : ∀ p, P p → x ∈ p.nullifiers) : ps.Pairwise fun p q => ¬ (P p ∧ P q) := by
  rw [List.filter_flatMap, List.nodup_flatMap] at hnodup
  refine hnodup.2.imp fun {p q} hdisj hboth => ?_
  obtain ⟨hp, hq⟩ := hboth
  refine hdisj (a := x) ?_ ?_
  · exact List.mem_filter.mpr ⟨hP p hp, decide_eq_true hx⟩
  · exact List.mem_filter.mpr ⟨hP q hq, decide_eq_true hx⟩

/-! ## The data roots -/

/-- The tree of data roots has no other roots than the known ones, and these are roots of trees. -/
structure RootsKnown (dataRoot rootsRoot : (Nat → Fr) → Fr) (r : Roots) (known : List Fr) : Prop where
  data : ∃ t, r.data = dataRoot t
  roots : ∃ t, r.roots = rootsRoot t ∧ ∀ i, t i ≠ 0 → t i ∈ known
  known : ∀ x ∈ known, ∃ t, x = dataRoot t

/-- An inner rollup ends with a data tree if it starts with one. -/
lemma RollupSpec.dataTree {rollup : RollupTx H n} {scope : RollupScope} {inner : RollupProof}
    (h : RollupSpec rollup scope inner) (hsound : SoundTree H dataRoot) {t : Nat → Fr}
    (hroot : inner.oldDataRoot = dataRoot t) : ∃ t', inner.newDataRoot = dataRoot t' := by
  have hdata := h.dataUpdated
  have hold := congrArg RollupProof.oldDataRoot h.proof_eq
  have hnew := congrArg RollupProof.newDataRoot h.proof_eq
  rw [← show inner.oldDataRoot = rollup.oldDataRoot from hold, hroot] at hdata
  exact ⟨_, hnew.trans (hsound.batch _ _ _ _ _ hdata)⟩

/-- So does a root rollup. -/
lemma AcceptedRollup.dataTree (a : AcceptedRollup H) (hsound : SoundTree H dataRoot)
    (hroot : ∃ t, a.proof.header.oldDataRoot = dataRoot t) :
    ∃ t, a.proof.header.newDataRoot = dataRoot t := by
  have hinitial : ∀ k ≤ a.tx.numReal,
      ∃ t, rootAt a.tx a.proof.header.oldDataRoot (·.newDataRoot) k = dataRoot t := by
    intro k
    induction k with
    | zero => exact fun _ => hroot
    | succ k ih =>
      intro hk
      have hlt : k < a.m := lt_of_lt_of_le hk (Nat.min_le_left _ _)
      obtain ⟨t, hold⟩ := ih (Nat.le_of_succ_le hk)
      rw [← (a.accepted.old_roots (i := ⟨k, hlt⟩) hk).1] at hold
      obtain ⟨_, hspec⟩ := a.accepted.inner ⟨k, hlt⟩
      obtain ⟨t', hnew⟩ := hspec.dataTree hsound hold
      exact ⟨t', (rootAt_succ ⟨k, hlt⟩).trans hnew⟩
  obtain ⟨t, ht⟩ := hinitial _ le_rfl
  exact ⟨t, a.accepted.new_roots.1.symm.trans ht⟩

/-- A root rollup adds its data root. -/
lemma AcceptedRollup.rootsKnown (a : AcceptedRollup H) (hdata : SoundTree H dataRoot)
    (hroots : SoundTree H rootsRoot) {known : List Fr}
    (h : RootsKnown dataRoot rootsRoot a.proof.header.oldRoots known) :
    RootsKnown dataRoot rootsRoot a.proof.header.newRoots
      (known ++ [a.proof.header.newDataRoot]) := by
  obtain ⟨t', hnew⟩ := a.dataTree hdata h.data
  obtain ⟨t, ht, hmem⟩ := h.roots
  have hupdate := a.accepted.root.rootUpdated
  rw [show a.proof.header.oldDataRootsRoot = rootsRoot t from ht] at hupdate
  obtain ⟨-, hroot⟩ := hroots.update _ _ _ _ _ _ hupdate
  refine ⟨⟨t', hnew⟩, ⟨_, hroot, fun i hi => ?_⟩, fun x hx => ?_⟩
  · rw [List.mem_append, List.mem_singleton]
    by_cases heq : i = (a.proof.header.rollupId + 1).val
    · rw [heq, Function.update_self]
      exact .inr rfl
    · rw [Function.update_of_ne heq] at hi ⊢
      exact .inl (hmem i hi)
  · cases List.mem_append.mp hx with
    | inl hold => exact h.known x hold
    | inr hlast => exact ⟨t', (List.mem_singleton.mp hlast).trans hnew⟩

/-- The data roots of the root rollups, after the first. -/
def dataRootsOf (r : Roots) (as : List (AcceptedRollup H)) : List Fr :=
  r.data :: as.map (·.proof.header.newDataRoot)

/-- Every data root in the tree of roots is that of an earlier rollup. -/
lemma RootsChain.rootsKnown (hdata : SoundTree H dataRoot) (hroots : SoundTree H rootsRoot)
    {r : Roots} {known : List Fr} (hknown : RootsKnown dataRoot rootsRoot r known)
    {as : List (AcceptedRollup H)} (h : RootsChain r as) :
    RootsKnown dataRoot rootsRoot (lastRoots r as)
      (known ++ as.map (·.proof.header.newDataRoot)) := by
  induction as generalizing r known with
  | nil =>
    rw [List.map_nil, List.append_nil]
    exact hknown
  | cons a as ih =>
    obtain ⟨hold, has⟩ := h
    have hstep := ih (a.rootsKnown hdata hroots (hold ▸ hknown)) has
    rw [List.append_assoc] at hstep
    exact hstep

/-- A chain up to a rollup leads to the roots it starts from. -/
lemma RootsChain.split {r : Roots} {as₁ as₂ : List (AcceptedRollup H)} {a : AcceptedRollup H}
    (h : RootsChain r (as₁ ++ a :: as₂)) :
    RootsChain r as₁ ∧ a.proof.header.oldRoots = lastRoots r as₁ := by
  induction as₁ generalizing r with
  | nil => exact ⟨trivial, h.1⟩
  | cons b as₁ ih =>
    obtain ⟨hold, hrest⟩ := h
    obtain ⟨hchain, hlast⟩ := ih hrest
    exact ⟨⟨hold, hchain⟩, hlast⟩

/-! ## One transaction -/

/-- A transaction of the list that is not zero is a transaction of a rollup, and its data root is in
the tree of data roots. -/
lemma AcceptedRollup.of_mem_txs (a : AcceptedRollup H) {p : InnerProof} (hp : p ∈ a.txs)
    (hid : p.proofId ≠ 0) :
    TxAccepted H p ∧ p.merkleRoot ≠ 0 ∧ ∃ path index,
      H.checkMembership a.proof.header.oldDataRootsRoot path p.merkleRoot index = true := by
  obtain ⟨i, hi, hmem⟩ := List.mem_flatMap.mp hp
  obtain ⟨t, -, rfl⟩ := List.mem_map.mp hmem
  have hreal : t.val < (a.rollups i).numTxs.val := by
    by_contra hpad
    rw [RollupTx.masked_padding hpad] at hid
    exact hid rfl
  have hlt : i.val < a.tx.numReal := by
    obtain ⟨k, hk, heq⟩ := List.mem_iff_getElem.mp hi
    rw [AcceptedRollup.before, List.length_take] at hk
    simp only [AcceptedRollup.before, List.getElem_take, List.getElem_finRange] at heq
    rw [← heq]
    exact lt_of_lt_of_le hk (Nat.min_le_left _ _)
  obtain ⟨scope, hspec⟩ := a.accepted.inner i
  have hdataRoot := (hspec.checked t).dataRoot (hspec.inScope.numTxs ▸ hreal)
  have hroots : (a.rollups i).dataRootsRoot = a.proof.header.oldDataRootsRoot := by
    calc (a.rollups i).dataRootsRoot = (a.tx.rollups i).oldDataRootsRoot :=
          (congrArg RollupProof.oldDataRootsRoot hspec.proof_eq).symm
      _ = a.tx.oldDataRootsRoot := (a.accepted.root.checked i (lt_numReal.mp hlt)).oldDataRootsRoot
      _ = a.proof.header.oldDataRootsRoot :=
          (congrArg RootRollupHeader.oldDataRootsRoot a.accepted.root.header).symm
  rw [hroots] at hdataRoot
  rw [RollupTx.masked_real hreal]
  exact ⟨(a.accepted.rollups i).txs t, hdataRoot.1, _, _, hdataRoot.2⟩

/-- A transaction with the id of an account is one. -/
lemma TxAccepted.account_of_id {p : InnerProof} (h : TxAccepted H p)
    (hid : p.proofId = ProofIds.ACCOUNT) : ∃ tx : AccountTx H, accountCircuit H tx p := by
  cases h with
  | joinSplit tx h =>
    have hmem := (joinSplitCircuit_proofId tx).apply h
    rw [hid] at hmem
    exact absurd hmem (by decide)
  | account tx h => exact ⟨tx, h⟩
  | claim tx h =>
    have hclaim := ((claimCircuit_spec tx).apply h).proofId
    rw [hid] at hclaim
    exact absurd hclaim (by decide)

/-- The transaction creates an account under an alias hash. -/
def Creates (H : Primitives) (aliasHash : Fr) (p : InnerProof) : Prop :=
  ∃ tx : AccountTx H, accountCircuit H tx p ∧ tx.create = true ∧ tx.aliasHash = aliasHash

/-- The transaction registers an account key, by its first coordinate. -/
def Registers (H : Primitives) (x : Fr) (p : InnerProof) : Prop :=
  ∃ tx : AccountTx H, accountCircuit H tx p ∧ (tx.create || tx.migrate) = true ∧
    tx.newAccountPublicKey.x = x

/-- Creating an account nullifies its alias. -/
lemma Creates.nullifier {aliasHash : Fr} {p : InnerProof} (h : Creates H aliasHash p) :
    H.compress [aliasHash] .ACCOUNT_ALIAS_HASH_NULLIFIER ∈ p.nullifiers := by
  obtain ⟨tx, hcircuit, hcreate, rfl⟩ := h
  have hnullifier : p.nullifier1 =
      if tx.create then computeAccountAliasHashNullifier H tx.aliasHash.val else 0 :=
    congrArg InnerProof.nullifier1 ((accountCircuit_accepted tx).apply hcircuit).proof_eq
  rw [hcreate, if_pos rfl, computeAccountAliasHashNullifier, natCast_val] at hnullifier
  rw [← hnullifier]
  exact List.mem_cons_self

/-- Registering a key nullifies it. -/
lemma Registers.nullifier {x : Fr} {p : InnerProof} (h : Registers H x p) :
    H.compress [x] .ACCOUNT_PUBLIC_KEY_NULLIFIER ∈ p.nullifiers := by
  obtain ⟨tx, hcircuit, hflags, rfl⟩ := h
  have hnullifier : p.nullifier2 = if tx.create || tx.migrate
      then computeAccountPublicKeyNullifier H tx.newAccountPublicKey else 0 :=
    congrArg InnerProof.nullifier2 ((accountCircuit_accepted tx).apply hcircuit).proof_eq
  rw [hflags, if_pos rfl] at hnullifier
  show _ ∈ [p.nullifier1, p.nullifier2]
  rw [hnullifier]
  exact List.mem_cons_of_mem _ List.mem_cons_self

/-- A leaf of the trees with a root, of which there is one. -/
def HasLeaf (dataRoot : (Nat → Fr) → Fr) (root value : Fr) : Prop :=
  (∃ t, dataRoot t = root) ∧ ∃ index, ∀ t, dataRoot t = root → t index = value

/-- Who may make an account transaction, and what it does: the account key changes in a migration
only, and notes, nullifiers and signature are of the same alias hash and keys. -/
structure AccountTx.Authorized (dataRoot : (Nat → Fr) → Fr) (known : List Fr) (tx : AccountTx H)
    (p : InnerProof) : Prop where
  created : tx.create = true → tx.migrate = false ∧
    H.verifySignature tx.message tx.newAccountPublicKey tx.signature = true
  changed : tx.create = false →
    H.verifySignature tx.message tx.signingPubKey tx.signature = true ∧
    ∃ root ∈ known, HasLeaf dataRoot root
      (accountNoteCommitment H tx.aliasHash tx.accountPublicKey tx.signingPubKey)
  migrated : tx.accountPublicKey ≠ tx.newAccountPublicKey → tx.migrate = true
  message : tx.message = H.compressMessage [tx.aliasHash, tx.accountPublicKey.x,
    tx.newAccountPublicKey.x, tx.newSigningPubKey1.x, tx.newSigningPubKey2.x, p.nullifier1,
    p.nullifier2]
  outputNote1 : p.noteCommitment1 =
    accountNoteCommitment H tx.aliasHash tx.newAccountPublicKey tx.newSigningPubKey1
  outputNote2 : p.noteCommitment2 =
    accountNoteCommitment H tx.aliasHash tx.newAccountPublicKey tx.newSigningPubKey2
  nullifier1 : p.nullifier1 =
    if tx.create then computeAccountAliasHashNullifier H tx.aliasHash.val else 0
  nullifier2 : p.nullifier2 = if tx.create || tx.migrate
    then computeAccountPublicKeyNullifier H tx.newAccountPublicKey else 0

/-- An account transaction that creates nothing is signed by a key of the account. -/
lemma AccountTx.Accepted.authorized {tx : AccountTx H} {p : InnerProof} (h : tx.Accepted p)
    {known : List Fr} (hnote : tx.create = false → ∃ root ∈ known, HasLeaf dataRoot root
      (accountNoteCommitment H tx.aliasHash tx.accountPublicKey tx.signingPubKey)) :
    tx.Authorized dataRoot known p := by
  have hsigned := h.signed
  have hp := h.proof_eq
  refine ⟨fun hcreate => ⟨h.create hcreate, ?_⟩, fun hcreate => ⟨?_, hnote hcreate⟩, h.migrate,
    ?_, ?_, ?_, ?_, ?_⟩
  · -- a key that changes is migrated
    have hsame : tx.accountPublicKey = tx.newAccountPublicKey := by
      by_contra hne
      exact Bool.false_ne_true ((h.create hcreate).symm.trans (h.migrate hne))
    rw [AccountTx.signer, hcreate, if_pos rfl, hsame] at hsigned
    exact hsigned
  · rw [AccountTx.signer, hcreate] at hsigned
    exact hsigned
  · rw [hp]
    rfl
  · exact congrArg InnerProof.noteCommitment1 hp
  · exact congrArg InnerProof.noteCommitment2 hp
  · exact congrArg InnerProof.nullifier1 hp
  · exact congrArg InnerProof.nullifier2 hp

/-- The note that signs is in a known data tree. -/
lemma AcceptedRollup.authorized (a : AcceptedRollup H) (hdata : SoundTree H dataRoot)
    (hroots : SoundTree H rootsRoot) {known : List Fr}
    (hknown : RootsKnown dataRoot rootsRoot a.proof.header.oldRoots known) {p : InnerProof}
    (hp : p ∈ a.txs) {tx : AccountTx H} (h : accountCircuit H tx p) :
    tx.Authorized dataRoot known p := by
  have hacc := (accountCircuit_accepted tx).apply h
  have hid : p.proofId ≠ 0 := by
    rw [hacc.proof_eq]
    exact (by decide : ProofIds.ACCOUNT ≠ 0)
  have hmerkle : p.merkleRoot = tx.merkleRoot := congrArg InnerProof.merkleRoot hacc.proof_eq
  refine hacc.authorized fun hcreate => ?_
  obtain ⟨-, hne, path, index, hcheck⟩ := a.of_mem_txs hp hid
  obtain ⟨t, ht, hmem⟩ := hknown.roots
  rw [show a.proof.header.oldDataRootsRoot = rootsRoot t from ht] at hcheck
  have hleaf := hroots.check _ _ _ _ hcheck
  have hin : p.merkleRoot ∈ known := hleaf ▸ hmem index (hleaf ▸ hne)
  obtain ⟨d, hd⟩ := hknown.known _ hin
  refine ⟨p.merkleRoot, hin, ⟨d, hd.symm⟩, tx.accountNoteIndex.val, fun d' hd' => ?_⟩
  have hnote := hacc.accountNote hcreate
  rw [← hmerkle, ← hd'] at hnote
  exact hdata.check _ _ _ _ hnote

/-- Along a chain of root rollups each alias hash is created at most once and each account key is
registered at most once. A transaction that creates an account is signed with the key that it
registers; every other is signed with a spending key whose note, for the same alias hash and the old
account key, is in the data tree of an earlier rollup. -/
theorem accounts_secure (hdata : SoundTree H dataRoot) (hnull : SoundTree H nullRoot)
    (hroots : SoundTree H rootsRoot)
    (halias : ∀ v, H.compress [v] .ACCOUNT_ALIAS_HASH_NULLIFIER ≠ 0)
    (hkey : ∀ v, H.compress [v] .ACCOUNT_PUBLIC_KEY_NULLIFIER ≠ 0)
    {t : Nat → Fr} {r : Roots} (ht : r.null = nullRoot t)
    (hknown : RootsKnown dataRoot rootsRoot r [r.data]) {as : List (AcceptedRollup H)}
    (h : RootsChain r as) :
    (∀ aliasHash, (txsOf as).Pairwise fun p q => ¬ (Creates H aliasHash p ∧ Creates H aliasHash q)) ∧
    (∀ x, (txsOf as).Pairwise fun p q => ¬ (Registers H x p ∧ Registers H x q)) ∧
    ∀ as₁ a as₂, as = as₁ ++ a :: as₂ → ∀ p ∈ a.txs,
      (p.proofId = ProofIds.ACCOUNT → ∃ tx : AccountTx H, accountCircuit H tx p) ∧
      ∀ tx : AccountTx H, accountCircuit H tx p →
        tx.Authorized dataRoot (dataRootsOf r as₁) p := by
  have hnodup : (((txsOf as).flatMap InnerProof.nullifiers).filter (· ≠ 0)).Nodup := by
    rw [← insertionsOf_fst]
    exact (h.inserted hnull ht).2.fresh.nodup.of_map
  refine ⟨fun aliasHash => ?_, fun x => ?_, fun as₁ a as₂ heq p hp => ⟨fun hid => ?_, fun tx htx => ?_⟩⟩
  · exact pairwise_of_nullifier hnodup (halias aliasHash) fun p hp => hp.nullifier
  · exact pairwise_of_nullifier hnodup (hkey x) fun p hp => hp.nullifier
  · have hne : p.proofId ≠ 0 := hid ▸ by decide
    exact (a.of_mem_txs hp hne).1.account_of_id hid
  · rw [heq] at h
    obtain ⟨hchain, hold⟩ := h.split
    have hknown' := hchain.rootsKnown hdata hroots hknown
    rw [← hold] at hknown'
    exact a.authorized hdata hroots hknown' hp htx

/-- At first one data root is known. -/
lemma SampleChain.rootsKnown : RootsKnown (TreeTable.rootOf SampleAccount.table)
    (TreeTable.rootOf SampleAccount.table) SampleChain.roots [SampleChain.roots.data] where
  data := ⟨(TreeTable.leaves []).tree, by decide +kernel⟩
  roots := by
    refine ⟨(TreeTable.leaves [1]).tree, by decide +kernel, fun i hi => ?_⟩
    cases i with
    | zero => decide +kernel
    | succ i =>
      refine absurd ?_ hi
      by_cases hlt : i + 1 < TreeTable.SIZE
      · rw [TreeTable.Leaves.tree_of_lt _ hlt]
        rfl
      · exact dif_neg hlt
  known x hx := ⟨(TreeTable.leaves []).tree, by
    rw [List.mem_singleton.mp hx]
    decide +kernel⟩

/-! ### The account is migrated in the next rollup -/

namespace SampleMigration

open SampleAccount (primitives)

/-- The first spending key of the account signs for another account key, and for two other spending keys. -/
def account : AccountTx primitives where
  merkleRoot := 2
  accountPublicKey := ⟨1, 0⟩
  newAccountPublicKey := ⟨2, 0⟩
  newSigningPubKey1 := ⟨12, 0⟩
  newSigningPubKey2 := ⟨13, 0⟩
  aliasHash := 5
  create := false
  migrate := true
  accountNoteIndex := 0
  accountNotePath := ()
  signingPubKey := ⟨10, 0⟩
  signature := ()

/-- The public inputs. -/
def inputs : InnerProof :=
  { (0 : InnerProof) with
    proofId := ProofIds.ACCOUNT
    noteCommitment1 := 19
    noteCommitment2 := 20
    nullifier2 := 2
    merkleRoot := 2 }

/-- The circuit accepts the migration. -/
lemma account_accepted : accountCircuit primitives account inputs := by
  refine ⟨_, ⟨(), Circuit.assert_apply ?_, rfl⟩, _, ⟨(), Circuit.assert_apply ?_, rfl⟩,
    _, suint_apply ?_, _, suint_apply ?_, _, ⟨(), Circuit.assert_apply ?_, rfl⟩,
    (), Circuit.assert_apply ?_, (), Circuit.assert_apply ?_, (), Circuit.assert_apply ?_,
    (), Circuit.assert_apply ?_, (), Circuit.assert_apply ?_, (), Circuit.assert_apply ?_,
    Circuit.pure_apply ?_⟩
  all_goals decide +kernel

/-- The inner rollup of the migration. -/
def rollup : RollupTx primitives 1 :=
  { SampleChain.rollup with
    rollupId := 1
    dataStartIndex := 2
    txs := fun _ => inputs
    oldDataRoot := 2
    newDataRoot := 7
    oldNullRoot := 4
    newNullRoots := fun _ i => if i.val = 0 then 4 else 8
    dataRootsRoot := 6
    dataRootsIndicies := fun _ => 1 }

/-- Its circuit accepts. -/
lemma rollup_ok : (rollupCircuit rollup).toBool = true := by decide +kernel

/-- The second root rollup. -/
def tx : RootRollupTx primitives 1 :=
  { SampleChain.tx with
    rollupId := 1
    rollups := fun _ => Checks.value (rollupCircuit rollup) rollup_ok
    oldDataRootsRoot := 6
    newDataRootsRoot := 9 }

/-- Its circuit accepts. -/
lemma tx_ok : (rootRollupCircuit tx (rollupSizePow2 1)
    (rollupSizePow2 (1 * rollupSizePow2 1))).toBool = true := by decide +kernel

/-- The accepted root rollup. -/
def accepted : AcceptedRollup primitives where
  tx := tx
  rollups _ := rollup
  proof := Checks.value _ tx_ok
  accepted := {
    rollups := fun _ => ⟨fun _ => .account account account_accepted, Checks.eq_ok_value _ rollup_ok⟩
    accepted := Checks.eq_ok_value _ tx_ok }

/-- The chain of both. -/
lemma chain : RootsChain SampleChain.roots [SampleChain.accepted, accepted] := by
  refine ⟨?_, ?_, trivial⟩
  · rw [Roots.mk.injEq]
    decide +kernel
  · rw [Roots.mk.injEq]
    decide +kernel

end SampleMigration

/-- The migration is signed with a spending key whose note is in the data tree of the first rollup. -/
theorem accounts_secure_sample :
    SampleMigration.account.Authorized (TreeTable.rootOf SampleAccount.table)
      (dataRootsOf SampleChain.roots [SampleChain.accepted]) SampleMigration.inputs ∧
    ∃ root ∈ dataRootsOf SampleChain.roots [SampleChain.accepted],
      HasLeaf (TreeTable.rootOf SampleAccount.table) root 16 := by
  have hsize : SampleAccount.table.length < fieldModulus := by decide +kernel
  have hsound := TreeTable.sound hsize
  have hempty : SampleChain.roots.null =
      TreeTable.rootOf SampleAccount.table (TreeTable.leaves []).tree := by decide +kernel
  obtain ⟨-, -, hsecure⟩ := accounts_secure hsound hsound hsound
    (fun v => TreeTable.compress_ne [v] _) (fun v => TreeTable.compress_ne [v] _) hempty
    SampleChain.rootsKnown SampleMigration.chain
  have hmigrated := (hsecure [SampleChain.accepted] SampleMigration.accepted [] rfl SampleMigration.inputs
    (by decide +kernel)).2 _ SampleMigration.account_accepted
  exact ⟨hmigrated, (hmigrated.changed rfl).2⟩

end AztecConnect.Circuit
