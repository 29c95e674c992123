import AztecConnect.Falafel.WorldState
import Mathlib.Logic.Relation

/-!
# The purge of the pool

Translation of `validateTxs` of `falafel/src/world_state.ts`. The pending deposits on chain are a
parameter; they do not change while the transactions are validated.

A transaction is purged for a spent note, for its place in a chain or for its deposit, and no
transaction with such a reason is kept, exactly if the purged commitments that are zero do no harm
(`validateTxs_valid_iff`): a commitment that is zero is taken for a link of every transaction that is
not chained.
-/

namespace AztecConnect.Falafel

/-- `getUserPendingDeposit` of the blockchain, with what the transactions deposit of it. -/
structure PendingDeposit where
  publicOwner : Nat
  publicAssetId : Nat
  contractValue : Nat
  accumulatedDeposit : Nat

/-- The pending deposit of the owner and the asset of the proof. -/
def PendingDeposit.isOf (p : ProofData) (d : PendingDeposit) : Bool :=
  d.publicOwner == p.publicOwner && d.publicAssetId == p.publicAssetId

namespace WorldState

/-- The variables of `validateTxs`. -/
structure Validation where
  txsToPurge : List PendingTx
  pendingDeposits : List PendingDeposit
  discardedCommitments : List Nat

/-- The transaction is purged, and its notes are discarded. -/
def Validation.discardTx (v : Validation) (tx : PendingTx) : Validation :=
  { v with
    discardedCommitments :=
      v.discardedCommitments ++ [tx.proofData.noteCommitment1, tx.proofData.noteCommitment2]
    txsToPurge := v.txsToPurge ++ [tx] }

section

variable (worldStateDb : WorldStateDb) (getUserPendingDeposit : Nat → Nat → Nat)

/-- One of the notes is already in the nullifier tree. -/
def spentNotes (p : ProofData) : Bool := p.nullifiers.any fun n => worldStateDb.get .NULL n == 1

/-- The contract is queried for an owner and an asset that have not been seen before. -/
def queryPendingDeposit (p : ProofData) (ds : List PendingDeposit) : List PendingDeposit :=
  if ds.any (·.isOf p) then ds
  else ds ++ [⟨p.publicOwner, p.publicAssetId,
    getUserPendingDeposit p.publicAssetId p.publicOwner, 0⟩]

/-- The deposit is added to those of its owner and asset, unless they exceed the contract value. -/
def accumulateDeposit (p : ProofData) : List PendingDeposit → Option (List PendingDeposit)
  | [] => none
  | d :: ds =>
    if d.isOf p then
      if d.accumulatedDeposit + p.publicValue > d.contractValue then none
      else some ({ d with accumulatedDeposit := d.accumulatedDeposit + p.publicValue } :: ds)
    else (accumulateDeposit p ds).map (d :: ·)

/-- The body of the loop. -/
def validateTx (v : Validation) (tx : PendingTx) : Validation :=
  let proof := tx.proofData
  -- it chains from a tx that is already discarded
  if v.discardedCommitments.contains proof.backwardLink then v.discardTx tx
  else if spentNotes worldStateDb proof then v.discardTx tx
  else if proof.proofId ≠ .DEPOSIT then v
  else
    let pendingDeposits := queryPendingDeposit getUserPendingDeposit proof v.pendingDeposits
    match accumulateDeposit proof pendingDeposits with
    | none => { v with pendingDeposits }.discardTx tx
    | some pendingDeposits => { v with pendingDeposits }

/-- The ids of the transactions to purge. -/
def validateTxs (txs : List PendingTx) : List Nat :=
  (txs.foldl (validateTx worldStateDb getUserPendingDeposit) ⟨[], [], []⟩).txsToPurge.map (·.id)

/-! ## What the purge is for -/

/-- A transaction is chained on another one. -/
def ChainsFrom (parent tx : PendingTx) : Prop :=
  tx.proofData.backwardLink ≠ 0 ∧ (tx.proofData.backwardLink = parent.proofData.noteCommitment1 ∨
    tx.proofData.backwardLink = parent.proofData.noteCommitment2)

instance (parent tx : PendingTx) : Decidable (ChainsFrom parent tx) :=
  inferInstanceAs (Decidable (_ ∧ _))

/-- Directly or through any number of transactions of the list. -/
def Chained (txs : List PendingTx) : PendingTx → PendingTx → Prop :=
  Relation.TransGen fun parent tx => parent ∈ txs ∧ ChainsFrom parent tx

/-- What transactions deposit for the owner and the asset of a proof. -/
def deposited (txs : List PendingTx) (publicOwner publicAssetId : Nat) : Nat :=
  ((txs.filter fun tx => tx.proofData.proofId = .DEPOSIT ∧
    tx.proofData.publicOwner = publicOwner ∧ tx.proofData.publicAssetId = publicAssetId).map
      (·.proofData.publicValue)).sum

/-- A deposit exceeds what is pending on chain, after those of other transactions. -/
def Exceeds (before : List PendingTx) (tx : PendingTx) : Prop :=
  tx.proofData.proofId = .DEPOSIT ∧
    getUserPendingDeposit tx.proofData.publicAssetId tx.proofData.publicOwner <
      deposited before tx.proofData.publicOwner tx.proofData.publicAssetId +
        tx.proofData.publicValue

instance (before : List PendingTx) (tx : PendingTx) :
    Decidable (Exceeds getUserPendingDeposit before tx) := inferInstanceAs (Decidable (_ ∧ _))

/-- The transactions that are not among those to purge. -/
def kept (purged : List Nat) (txs : List PendingTx) : List PendingTx :=
  txs.filter fun tx => !purged.contains tx.id

/-- No transaction that has to be purged is kept, and no other one is purged. -/
structure Valid (txs : List PendingTx) (purged : List Nat) : Prop where
  unspent : ∀ tx ∈ kept purged txs, spentNotes worldStateDb tx.proofData = false
  unchained : ∀ tx ∈ kept purged txs, ∀ parent ∈ txs, parent.id ∈ purged → ¬ Chained txs parent tx
  deposits : ∀ publicOwner publicAssetId,
    deposited (kept purged txs) publicOwner publicAssetId ≤
      getUserPendingDeposit publicAssetId publicOwner
  reason : ∀ before tx after, txs = before ++ tx :: after → tx.id ∈ purged →
    spentNotes worldStateDb tx.proofData = true ∨
    (∃ parent ∈ txs, parent.id ∈ purged ∧ Chained txs parent tx) ∨
    Exceeds getUserPendingDeposit (kept purged before) tx

/-- Every transaction comes after those on which it is chained. -/
def InCreationOrder (txs : List PendingTx) : Prop :=
  txs.Pairwise (fun tx later => ¬ ChainsFrom later tx) ∧ ∀ tx ∈ txs, ¬ ChainsFrom tx tx

/-- In creation order a parent is listed before its child. -/
lemma InCreationOrder.mem_before {before after : List PendingTx} {parent tx : PendingTx}
    (h : InCreationOrder (before ++ tx :: after)) (hparent : parent ∈ before ++ tx :: after)
    (hchains : ChainsFrom parent tx) : parent ∈ before := by
  rcases List.mem_append.mp hparent with hbefore | hrest
  · exact hbefore
  · rcases List.mem_cons.mp hrest with rfl | hafter
    · exact absurd hchains (h.2 parent hparent)
    · obtain ⟨-, hlater, -⟩ := List.pairwise_append.mp h.1
      exact absurd hchains ((List.pairwise_cons.mp hlater).1 parent hafter)

/-- A prefix of a list in creation order is in creation order. -/
lemma InCreationOrder.before {before after : List PendingTx}
    (h : InCreationOrder (before ++ after)) : InCreationOrder before :=
  ⟨(List.pairwise_append.mp h.1).1, fun tx htx => h.2 tx (List.mem_append_left after htx)⟩

/-! ## Transactions sorted out one after another -/

/-- The transactions of a list, sorted out. -/
structure Split where
  kept : List PendingTx
  purged : List PendingTx

/-- One more transaction is purged. -/
def Split.purge (s : Split) (tx : PendingTx) : Split := { s with purged := s.purged ++ [tx] }

/-- One more transaction is kept. -/
def Split.keep (s : Split) (tx : PendingTx) : Split := { s with kept := s.kept ++ [tx] }

/-- What has been purged and kept decides on the next transaction. -/
def splitBy (P : Split → PendingTx → Prop) [∀ s tx, Decidable (P s tx)] (txs : List PendingTx) : Split :=
  txs.foldl (fun s tx => if P s tx then s.purge tx else s.keep tx) ⟨[], []⟩

/-- The transactions with some ids are the purged ones. -/
def splitOf (purged : List Nat) (txs : List PendingTx) : Split :=
  ⟨kept purged txs, txs.filter fun tx => purged.contains tx.id⟩

/-- Every transaction is sorted out for what comes before it. -/
def Decides (P : Split → PendingTx → Prop) (purged : List Nat) (txs : List PendingTx) : Prop :=
  ∀ before tx after, txs = before ++ tx :: after →
    (tx.id ∈ purged ↔ P (splitOf purged before) tx)

section

variable {P : Split → PendingTx → Prop} {purged : List Nat} {txs : List PendingTx}

/-- A purged transaction at the end is added to the purged ones. -/
lemma splitOf_concat_purged {tx : PendingTx} (h : tx.id ∈ purged) :
    splitOf purged (txs ++ [tx]) = (splitOf purged txs).purge tx := by
  simp [splitOf, kept, Split.purge, h]

/-- A kept one is added to the kept ones. -/
lemma splitOf_concat_kept {tx : PendingTx} (h : tx.id ∉ purged) :
    splitOf purged (txs ++ [tx]) = (splitOf purged txs).keep tx := by
  simp [splitOf, kept, Split.keep, h]

/-- A decision on a list is one on its prefixes. -/
lemma Decides.before {before after : List PendingTx} (h : Decides P purged (before ++ after)) :
    Decides P purged before := by
  intro first tx last hsplit
  refine h first tx (last ++ after) ?_
  rw [hsplit, List.append_assoc, List.cons_append]

variable [∀ s tx, Decidable (P s tx)]

/-- The split of a longer list decides its last transaction by the split before it. -/
lemma splitBy_concat (txs : List PendingTx) (tx : PendingTx) : splitBy P (txs ++ [tx]) =
    if P (splitBy P txs) tx then (splitBy P txs).purge tx else (splitBy P txs).keep tx := by
  rw [splitBy, List.foldl_concat]
  rfl

/-- There is one way only to sort out a list. -/
lemma Decides.splitOf_eq (h : Decides P purged txs) : splitOf purged txs = splitBy P txs := by
  induction txs using List.reverseRecOn with
  | nil => rfl
  | append_singleton txs tx ih =>
    have hprev := ih h.before
    have hiff := h txs tx [] rfl
    rw [splitBy_concat, ← hprev]
    split
    case isTrue hp => exact splitOf_concat_purged (hiff.mpr hp)
    case isFalse hp => exact splitOf_concat_kept fun hin => hp (hiff.mp hin)

/-- Only transactions of the list are purged. -/
lemma mem_purged_splitBy {tx : PendingTx} (h : tx ∈ (splitBy P txs).purged) : tx ∈ txs := by
  induction txs using List.reverseRecOn with
  | nil => exact h
  | append_singleton txs last ih =>
    rw [splitBy_concat] at h
    split at h
    case isTrue =>
      rcases List.mem_append.mp h with hold | hnew
      · exact List.mem_append_left [last] (ih hold)
      · exact List.mem_append_right txs hnew
    case isFalse => exact List.mem_append_left [last] (ih h)

/-- The split depends on which transactions of the list are purged. -/
lemma splitOf_congr {purged' : List Nat} (h : ∀ tx ∈ txs, (tx.id ∈ purged ↔ tx.id ∈ purged')) :
    splitOf purged txs = splitOf purged' txs := by
  have hcontains : ∀ tx ∈ txs, purged.contains tx.id = purged'.contains tx.id := by
    intro tx htx
    rw [List.contains_eq_mem, List.contains_eq_mem, decide_eq_decide]
    exact h tx htx
  unfold splitOf kept
  congr 1
  · exact List.filter_congr fun tx htx => congrArg not (hcontains tx htx)
  · exact List.filter_congr hcontains

/-- A transaction of a longer list is the last one, or one of the list. -/
lemma concat_cases {before after : List PendingTx} {tx last : PendingTx}
    (h : txs ++ [last] = before ++ tx :: after) :
    (before = txs ∧ tx = last) ∨ ∃ after, txs = before ++ tx :: after := by
  rcases List.eq_nil_or_concat after with rfl | ⟨after, final, rfl⟩
  · obtain ⟨htxs, hlast⟩ := List.append_inj' h rfl
    exact .inl ⟨htxs.symm, (List.singleton_inj.mp hlast).symm⟩
  · rw [List.concat_eq_append, ← List.cons_append, ← List.append_assoc] at h
    exact .inr ⟨after, (List.append_inj' h rfl).1⟩

/-- The split by a predicate is decided by it. -/
lemma splitBy_decides (hids : (txs.map (·.id)).Nodup) :
    Decides P ((splitBy P txs).purged.map (·.id)) txs := by
  induction txs using List.reverseRecOn with
  | nil =>
    intro before tx after h
    exact absurd h.symm (by simp)
  | append_singleton txs last ih =>
    rw [List.map_append, List.nodup_append] at hids
    have hlast : ∀ tx ∈ txs, tx.id ≠ last.id := fun tx htx =>
      hids.2.2 _ (List.mem_map_of_mem htx) _ (List.mem_singleton_self _)
    have hprev := ih hids.1
    -- the ids of the earlier transactions are purged as before
    have hsame : ∀ tx ∈ txs, (tx.id ∈ (splitBy P (txs ++ [last])).purged.map (·.id) ↔
        tx.id ∈ (splitBy P txs).purged.map (·.id)) := by
      intro tx htx
      rw [splitBy_concat]
      split
      case isTrue => simp [Split.purge, hlast tx htx]
      case isFalse => rfl
    intro before tx after h
    rcases concat_cases h with ⟨rfl, rfl⟩ | ⟨after, rfl⟩
    · rw [splitOf_congr hsame, hprev.splitOf_eq, splitBy_concat]
      split
      case isTrue hp => exact iff_of_true (by simp [Split.purge]) hp
      case isFalse hp =>
        refine iff_of_false (fun hin => ?_) hp
        obtain ⟨earlier, hearlier, hid⟩ := List.mem_map.mp hin
        exact hlast earlier (mem_purged_splitBy hearlier) hid
    · rw [hsame tx (List.mem_append_right before List.mem_cons_self),
        splitOf_congr fun earlier hearlier => hsame earlier (List.mem_append_left _ hearlier)]
      exact hprev before tx after rfl

end

/-! ## The reasons of a purge -/

/-- A transaction is chained on a purged one, spends a spent note, or deposits too much. -/
def HasReason (s : Split) (tx : PendingTx) : Prop :=
  (∃ parent ∈ s.purged, ChainsFrom parent tx) ∨ spentNotes worldStateDb tx.proofData = true ∨
    Exceeds getUserPendingDeposit s.kept tx

/-- A purged commitment is zero, and the transaction has no link. -/
def Poisoned (s : Split) (tx : PendingTx) : Prop :=
  tx.proofData.backwardLink = 0 ∧
    ∃ other ∈ s.purged, other.proofData.noteCommitment1 = 0 ∨ other.proofData.noteCommitment2 = 0

instance (s : Split) (tx : PendingTx) :
    Decidable (HasReason worldStateDb getUserPendingDeposit s tx) :=
  inferInstanceAs (Decidable (_ ∨ _ ∨ _))

instance (s : Split) (tx : PendingTx) : Decidable (Poisoned s tx) :=
  inferInstanceAs (Decidable (_ ∧ _))

variable {worldStateDb : WorldStateDb} {getUserPendingDeposit : Nat → Nat → Nat}
  {txs : List PendingTx} {purged : List Nat}

/-- The deposits of two lists add up. -/
lemma deposited_append (txs txs' : List PendingTx) (publicOwner publicAssetId : Nat) :
    deposited (txs ++ txs') publicOwner publicAssetId =
      deposited txs publicOwner publicAssetId + deposited txs' publicOwner publicAssetId := by
  simp only [deposited, List.filter_append, List.map_append, List.sum_append]

/-- A deposit counts for its own owner and asset. -/
lemma deposited_of {tx : PendingTx} (h : tx.proofData.proofId = .DEPOSIT) : deposited [tx]
    tx.proofData.publicOwner tx.proofData.publicAssetId = tx.proofData.publicValue := by
  simp [deposited, h]

/-- Other transactions do not. -/
lemma deposited_of_not {tx : PendingTx} {publicOwner publicAssetId : Nat}
    (h : ¬ (tx.proofData.proofId = .DEPOSIT ∧ tx.proofData.publicOwner = publicOwner ∧
      tx.proofData.publicAssetId = publicAssetId)) :
    deposited [tx] publicOwner publicAssetId = 0 := by
  simp [deposited, h]

/-- A transaction is kept if it is listed and not purged. -/
lemma mem_kept {tx : PendingTx} : tx ∈ kept purged txs ↔ tx ∈ txs ∧ tx.id ∉ purged := by
  simp [kept]

/-- A purge is as it should be exactly if every transaction is sorted out for a reason. -/
lemma Decides.valid (hord : InCreationOrder txs)
    (h : Decides (HasReason worldStateDb getUserPendingDeposit) purged txs) :
    Valid worldStateDb getUserPendingDeposit txs purged where
  unspent tx htx := by
    obtain ⟨hin, hkept⟩ := mem_kept.mp htx
    obtain ⟨before, after, rfl⟩ := List.append_of_mem hin
    exact Bool.eq_false_iff.mpr fun hspent =>
      hkept ((h before tx after rfl).mpr (.inr (.inl hspent)))
  unchained tx htx parent _ hparent hchained := by
    obtain ⟨hin, hkept⟩ := mem_kept.mp htx
    -- a transaction is purged after its parent
    have hstep : ∀ parent tx, parent ∈ txs → tx ∈ txs → ChainsFrom parent tx →
        parent.id ∈ purged → tx.id ∈ purged := by
      intro parent tx hpin hin hchains hpurged
      obtain ⟨before, after, rfl⟩ := List.append_of_mem hin
      have hbefore := hord.mem_before hpin hchains
      refine (h before tx after rfl).mpr (.inl ⟨parent, ?_, hchains⟩)
      exact List.mem_filter.mpr ⟨hbefore, by simpa using hpurged⟩
    suffices hpurged : ∀ last, last ∈ txs → Chained txs parent last → last.id ∈ purged from
      hkept (hpurged tx hin hchained)
    intro last hlast hchained
    induction hchained with
    | single hlink => exact hstep parent _ hlink.1 hlast hlink.2 hparent
    | tail _ hlink ih => exact hstep _ _ hlink.1 hlast hlink.2 (ih hlink.1)
  deposits publicOwner publicAssetId := by
    induction txs using List.reverseRecOn with
    | nil => exact Nat.zero_le _
    | append_singleton txs tx ih =>
      have hprev := ih hord.before h.before
      by_cases hpurged : tx.id ∈ purged
      · rw [show kept purged (txs ++ [tx]) = kept purged txs from
          congrArg Split.kept (splitOf_concat_purged hpurged)]
        exact hprev
      · rw [show kept purged (txs ++ [tx]) = kept purged txs ++ [tx] from
          congrArg Split.kept (splitOf_concat_kept hpurged), deposited_append]
        by_cases hof : tx.proofData.proofId = .DEPOSIT ∧ tx.proofData.publicOwner = publicOwner ∧
          tx.proofData.publicAssetId = publicAssetId
        · obtain ⟨hdeposit, rfl, rfl⟩ := hof
          have hfits : ¬ Exceeds getUserPendingDeposit (kept purged txs) tx := fun hexceeds =>
            hpurged ((h txs tx [] rfl).mpr (.inr (.inr hexceeds)))
          rw [deposited_of hdeposit]
          exact Nat.le_of_not_lt fun hlt => hfits ⟨hdeposit, hlt⟩
        · rw [deposited_of_not hof]
          exact hprev
  reason before tx after hsplit hpurged := by
    rcases (h before tx after hsplit).mp hpurged with ⟨parent, hparent, hchains⟩ | hspent | hexceeds
    · obtain ⟨hbefore, hin⟩ := List.mem_filter.mp hparent
      have hmem : parent ∈ txs := hsplit ▸ List.mem_append_left _ hbefore
      exact .inr (.inl ⟨parent, hmem, by simpa using hin, .single ⟨hmem, hchains⟩⟩)
    · exact .inl hspent
    · exact .inr (.inr hexceeds)

/-- A kept deposit and those kept before it are among all that are kept. -/
lemma deposited_kept_le (before after : List PendingTx) {tx : PendingTx} (hkept : tx.id ∉ purged)
    (hdeposit : tx.proofData.proofId = .DEPOSIT) :
    deposited (kept purged before) tx.proofData.publicOwner tx.proofData.publicAssetId +
        tx.proofData.publicValue ≤
      deposited (kept purged (before ++ tx :: after)) tx.proofData.publicOwner
        tx.proofData.publicAssetId := by
  have hsplit : kept purged (before ++ tx :: after) =
      kept purged before ++ ([tx] ++ kept purged after) := by
    simp [kept, hkept]
  rw [hsplit, deposited_append, deposited_append, deposited_of hdeposit]
  omega

/-- A valid purge takes out exactly the transactions that have a reason. -/
lemma Valid.decides (hord : InCreationOrder txs)
    (h : Valid worldStateDb getUserPendingDeposit txs purged) :
    Decides (HasReason worldStateDb getUserPendingDeposit) purged txs := by
  intro before tx after hsplit
  have hin : tx ∈ txs := hsplit ▸ List.mem_append_right before List.mem_cons_self
  constructor
  case mp =>
    intro hpurged
    rcases h.reason before tx after hsplit hpurged with hspent | ⟨root, hroot, hrootPurged, hchained⟩ |
      hexceeds
    · exact .inr (.inl hspent)
    · -- the parent is purged as well
      obtain ⟨parent, hreach, hparent, hchains⟩ :
          ∃ parent, (root = parent ∨ Chained txs root parent) ∧ parent ∈ txs ∧ ChainsFrom parent tx := by
        cases hchained with
        | single hlink => exact ⟨root, .inl rfl, hlink⟩
        | tail hreach hlink => exact ⟨_, .inr hreach, hlink⟩
      have hpurgedParent : parent.id ∈ purged := by
        by_contra hkept
        rcases hreach with rfl | hreach
        · exact hkept hrootPurged
        · exact h.unchained parent (mem_kept.mpr ⟨hparent, hkept⟩) root hroot hrootPurged hreach
      subst hsplit
      exact .inl ⟨parent, List.mem_filter.mpr
        ⟨hord.mem_before hparent hchains, by simpa using hpurgedParent⟩, hchains⟩
    · exact .inr (.inr hexceeds)
  case mpr =>
    intro hreason
    by_contra hkept
    have hmem : tx ∈ kept purged txs := mem_kept.mpr ⟨hin, hkept⟩
    rcases hreason with ⟨parent, hparent, hchains⟩ | hspent | ⟨hdeposit, hlt⟩
    · obtain ⟨hbefore, hpurged⟩ := List.mem_filter.mp hparent
      have hparentIn : parent ∈ txs := hsplit ▸ List.mem_append_left _ hbefore
      exact h.unchained tx hmem parent hparentIn (by simpa using hpurged) (.single ⟨hparentIn, hchains⟩)
    · exact absurd hspent (by rw [h.unspent tx hmem]; exact Bool.false_ne_true)
    · have hle := deposited_kept_le before after hkept hdeposit
      rw [← hsplit] at hle
      have hfits := h.deposits tx.proofData.publicOwner tx.proofData.publicAssetId
      exact absurd (hle.trans hfits) (Nat.not_le_of_lt hlt)

/-! ## What the loop does -/

/-- The entry of the owner and the asset of a proof holds the deposits of the kept transactions. -/
def Accumulated (getUserPendingDeposit : Nat → Nat → Nat) (kept : List PendingTx) (p : ProofData) :
    Option PendingDeposit → Prop
  | none => deposited kept p.publicOwner p.publicAssetId = 0
  | some d => d.contractValue = getUserPendingDeposit p.publicAssetId p.publicOwner ∧
      d.accumulatedDeposit = deposited kept p.publicOwner p.publicAssetId

/-- The variables of the loop, when some transactions are kept and some are purged. -/
structure Tracks (getUserPendingDeposit : Nat → Nat → Nat) (s : Split) (v : Validation) : Prop where
  purged : v.txsToPurge = s.purged
  discarded : v.discardedCommitments =
    s.purged.flatMap fun tx => [tx.proofData.noteCommitment1, tx.proofData.noteCommitment2]
  deposits : ∀ p : ProofData,
    Accumulated getUserPendingDeposit s.kept p (v.pendingDeposits.find? (·.isOf p))

/-- The pending deposit is found by owner and asset. -/
lemma isOf_iff {p : ProofData} {d : PendingDeposit} :
    d.isOf p = true ↔ d.publicOwner = p.publicOwner ∧ d.publicAssetId = p.publicAssetId := by
  simp [PendingDeposit.isOf]

/-- Querying a pending deposit keeps what is accumulated for the others. -/
lemma queryPendingDeposit_spec {kept : List PendingTx} {ds : List PendingDeposit} (p : ProofData)
    (h : ∀ q : ProofData, Accumulated getUserPendingDeposit kept q (ds.find? (·.isOf q))) :
    (∀ q : ProofData, Accumulated getUserPendingDeposit kept q
      ((queryPendingDeposit getUserPendingDeposit p ds).find? (·.isOf q))) ∧
    ∃ d, (queryPendingDeposit getUserPendingDeposit p ds).find? (·.isOf p) = some d := by
  rw [queryPendingDeposit]
  split
  case isTrue hany =>
    refine ⟨h, Option.isSome_iff_exists.mp ?_⟩
    rw [List.find?_isSome]
    simpa using hany
  case isFalse hany =>
    have hnone : ds.find? (·.isOf p) = none := by
      rw [List.find?_eq_none]
      simpa using hany
    refine ⟨fun q => ?_, ?_⟩
    · rw [List.find?_append]
      have hq := h q
      cases hfind : ds.find? (·.isOf q) with
      | some d => rwa [hfind] at hq
      | none =>
        rw [hfind] at hq
        rw [Option.none_or, List.find?_singleton]
        split
        case isTrue hof =>
          obtain ⟨howner, hasset⟩ := isOf_iff.mp hof
          refine ⟨?_, hq.symm⟩
          show getUserPendingDeposit p.publicAssetId p.publicOwner = _
          rw [show p.publicAssetId = q.publicAssetId from hasset,
            show p.publicOwner = q.publicOwner from howner]
        case isFalse => exact hq
    · rw [List.find?_append, hnone, Option.none_or, List.find?_singleton]
      exact ⟨_, if_pos (isOf_iff.mpr ⟨rfl, rfl⟩)⟩

/-- The entry of the owner and the asset is the only one that changes. -/
lemma accumulateDeposit_spec {p : ProofData} {d : PendingDeposit} {ds : List PendingDeposit}
    (h : ds.find? (·.isOf p) = some d) :
    if d.contractValue < d.accumulatedDeposit + p.publicValue then accumulateDeposit p ds = none
    else ∃ ds', accumulateDeposit p ds = some ds' ∧ ∀ q : ProofData, ds'.find? (·.isOf q) =
      if q.publicOwner = p.publicOwner ∧ q.publicAssetId = p.publicAssetId
      then some { d with accumulatedDeposit := d.accumulatedDeposit + p.publicValue }
      else ds.find? (·.isOf q) := by
  induction ds with
  | nil => nomatch h
  | cons e ds ih =>
    rw [accumulateDeposit]
    by_cases he : e.isOf p
    · rw [List.find?_cons_of_pos he] at h
      cases h
      rw [if_pos he]
      split
      case isTrue => rfl
      case isFalse =>
        refine ⟨_, rfl, fun q => ?_⟩
        obtain ⟨howner, hasset⟩ := isOf_iff.mp he
        by_cases hq : q.publicOwner = p.publicOwner ∧ q.publicAssetId = p.publicAssetId
        · rw [if_pos hq, List.find?_cons_of_pos]
          exact isOf_iff.mpr ⟨howner.trans hq.1.symm, hasset.trans hq.2.symm⟩
        · have hne : ¬ d.isOf q = true := fun hof => hq
            ⟨(isOf_iff.mp hof).1.symm.trans howner, (isOf_iff.mp hof).2.symm.trans hasset⟩
          rw [if_neg hq, List.find?_cons_of_neg hne]
          exact List.find?_cons_of_neg hne
    · rw [List.find?_cons_of_neg he] at h
      have hprev := ih h
      rw [if_neg he]
      split at hprev
      case isTrue hlt => rw [if_pos hlt, hprev, Option.map_none]
      case isFalse hlt =>
        rw [if_neg hlt]
        obtain ⟨ds', hds', hfind⟩ := hprev
        refine ⟨e :: ds', by rw [hds', Option.map_some], fun q => ?_⟩
        by_cases heq : e.isOf q
        · have hq : ¬ (q.publicOwner = p.publicOwner ∧ q.publicAssetId = p.publicAssetId) := fun hq =>
            he (isOf_iff.mpr ⟨(isOf_iff.mp heq).1.trans hq.1, (isOf_iff.mp heq).2.trans hq.2⟩)
          rw [if_neg hq, List.find?_cons_of_pos heq, List.find?_cons_of_pos heq]
        · rw [List.find?_cons_of_neg heq, List.find?_cons_of_neg heq]
          exact hfind q

variable {s : Split} {v : Validation} {tx : PendingTx}

/-- Discarding a transaction purges it. -/
lemma Tracks.discardTx (h : Tracks getUserPendingDeposit s v) :
    Tracks getUserPendingDeposit (s.purge tx) (v.discardTx tx) where
  purged := congrArg (· ++ [tx]) h.purged
  discarded := by
    show v.discardedCommitments ++ _ = (s.purged ++ [tx]).flatMap _
    rw [h.discarded, List.flatMap_append, List.flatMap_singleton]
  deposits := h.deposits

/-- A link is discarded if it is poisoned or its parent is purged. -/
lemma Tracks.poisoned_or (h : Tracks getUserPendingDeposit s v) :
    v.discardedCommitments.contains tx.proofData.backwardLink = true ↔
      Poisoned s tx ∨ ∃ parent ∈ s.purged, ChainsFrom parent tx := by
  rw [h.discarded, List.contains_iff_mem, List.mem_flatMap]
  simp only [List.mem_cons, List.not_mem_nil, or_false, Poisoned, ChainsFrom]
  by_cases hlink : tx.proofData.backwardLink = 0
  · simp [hlink, eq_comm]
  · simp [hlink]

/-- A transaction without a deposit is kept. -/
lemma Tracks.keep (h : Tracks getUserPendingDeposit s v) (hproof : tx.proofData.proofId ≠ .DEPOSIT) :
    Tracks getUserPendingDeposit (s.keep tx) v where
  purged := h.purged
  discarded := h.discarded
  deposits q := by
    have hsame : deposited (s.keep tx).kept q.publicOwner q.publicAssetId =
        deposited s.kept q.publicOwner q.publicAssetId := by
      rw [show (s.keep tx).kept = s.kept ++ [tx] from rfl, deposited_append,
        deposited_of_not fun hof => hproof hof.1, Nat.add_zero]
    unfold Accumulated
    rw [hsame]
    exact h.deposits q

/-- One transaction is validated as the split decides it. -/
lemma Tracks.validateTx (h : Tracks getUserPendingDeposit s v) :
    Tracks getUserPendingDeposit
      (if Poisoned s tx ∨ HasReason worldStateDb getUserPendingDeposit s tx then s.purge tx
        else s.keep tx)
      (validateTx worldStateDb getUserPendingDeposit v tx) := by
  have hfree (hlink : ¬ v.discardedCommitments.contains tx.proofData.backwardLink = true) :=
    not_or.mp (mt h.poisoned_or.mpr hlink)
  fun_cases WorldState.validateTx worldStateDb getUserPendingDeposit v tx with
  | case1 proof hlink =>
    rw [if_pos]
    · exact h.discardTx
    · rcases h.poisoned_or.mp hlink with hpoisoned | hchains
      · exact .inl hpoisoned
      · exact .inr (.inl hchains)
  | case2 proof hlink hspent =>
    rw [if_pos (.inr (.inr (.inl hspent)))]
    exact h.discardTx
  | case3 proof hlink hspent hproof =>
    rw [if_neg]
    · exact h.keep hproof
    · rintro (hpoisoned | hchains | hspent' | hexceeds)
      · exact (hfree hlink).1 hpoisoned
      · exact (hfree hlink).2 hchains
      · exact hspent hspent'
      · exact hproof hexceeds.1
  | case4 proof hlink hspent hproof pendingDeposits hfull =>
    obtain ⟨hquery, d, hd⟩ := queryPendingDeposit_spec proof h.deposits
    have hcontract : Accumulated getUserPendingDeposit s.kept proof (some d) := hd ▸ hquery proof
    have hspec := accumulateDeposit_spec hd
    rw [if_pos]
    · have hqueried : Tracks getUserPendingDeposit s { v with pendingDeposits } :=
        { h with deposits := hquery }
      exact hqueried.discardTx
    · split at hspec
      case isTrue hlt =>
        refine .inr (.inr (.inr ⟨not_not.mp hproof, ?_⟩))
        rwa [hcontract.1, hcontract.2] at hlt
      case isFalse =>
        obtain ⟨ds', hds', -⟩ := hspec
        exact absurd (hfull.symm.trans hds') (Option.some_ne_none ds').symm
  | case5 proof hlink hspent hproof pendingDeposits pendingDeposits' hfits =>
    obtain ⟨hquery, d, hd⟩ := queryPendingDeposit_spec proof h.deposits
    have hcontract : Accumulated getUserPendingDeposit s.kept proof (some d) := hd ▸ hquery proof
    have hspec := accumulateDeposit_spec hd
    split at hspec
    case isTrue => exact absurd (hfits.symm.trans hspec) (Option.some_ne_none _)
    case isFalse hlt =>
      obtain ⟨ds', hds', hfind⟩ := hspec
      obtain rfl : pendingDeposits' = ds' := Option.some.inj (hfits.symm.trans hds')
      rw [if_neg]
      · refine { h with deposits := fun q => ?_ }
        show Accumulated _ (s.kept ++ [tx]) q (pendingDeposits'.find? (·.isOf q))
        rw [hfind q]
        split
        case isTrue hq =>
          refine ⟨?_, ?_⟩
          · show d.contractValue = _
            rw [hcontract.1, hq.1, hq.2]
          · show d.accumulatedDeposit + proof.publicValue = _
            rw [hcontract.2, hq.1, hq.2, deposited_append, deposited_of (not_not.mp hproof)]
        case isFalse hq =>
          have hsame : deposited (s.kept ++ [tx]) q.publicOwner q.publicAssetId =
              deposited s.kept q.publicOwner q.publicAssetId := by
            rw [deposited_append, deposited_of_not fun hof => hq ⟨hof.2.1.symm, hof.2.2.symm⟩,
              Nat.add_zero]
          unfold Accumulated
          rw [hsame]
          exact hquery q
      · rintro (hpoisoned | hchains | hspent' | hexceeds)
        · exact (hfree hlink).1 hpoisoned
        · exact (hfree hlink).2 hchains
        · exact hspent hspent'
        · refine hlt ?_
          rw [hcontract.1, hcontract.2]
          exact hexceeds.2

/-- So are all of them. -/
lemma tracks_run (txs : List PendingTx) : Tracks getUserPendingDeposit
    (splitBy (fun s tx => Poisoned s tx ∨ HasReason worldStateDb getUserPendingDeposit s tx) txs)
    (txs.foldl (validateTx worldStateDb getUserPendingDeposit) ⟨[], [], []⟩) := by
  induction txs using List.reverseRecOn with
  | nil => exact ⟨rfl, rfl, fun _ => rfl⟩
  | append_singleton txs tx ih =>
    rw [splitBy_concat, List.foldl_concat]
    exact ih.validateTx

/-- Where a purged commitment is zero, the transactions after it that are not chained have to be
purged as well. -/
def ZeroHarmless (worldStateDb : WorldStateDb) (getUserPendingDeposit : Nat → Nat → Nat)
    (txs : List PendingTx) : Prop :=
  ∀ before tx after, txs = before ++ tx :: after →
    Poisoned (splitBy (HasReason worldStateDb getUserPendingDeposit) before) tx →
      HasReason worldStateDb getUserPendingDeposit
        (splitBy (HasReason worldStateDb getUserPendingDeposit) before) tx

/-- If links of zero do no harm, the poisoned transactions have a reason anyway. -/
lemma ZeroHarmless.splitBy_eq (h : ZeroHarmless worldStateDb getUserPendingDeposit txs) :
    splitBy (fun s tx => Poisoned s tx ∨ HasReason worldStateDb getUserPendingDeposit s tx) txs =
      splitBy (HasReason worldStateDb getUserPendingDeposit) txs := by
  induction txs using List.reverseRecOn with
  | nil => rfl
  | append_singleton txs tx ih =>
    have hprev := ih fun before tx' after hsplit =>
      h before tx' (after ++ [tx]) (by rw [hsplit, List.append_assoc, List.cons_append])
    rw [splitBy_concat, splitBy_concat, hprev]
    exact if_congr (or_iff_right_of_imp (h txs tx [] rfl)) rfl rfl

/-- No harm is done where no transaction has a commitment that is zero. -/
lemma ZeroHarmless.of_ne (h : ∀ tx ∈ txs, tx.proofData.noteCommitment1 ≠ 0 ∧ tx.proofData.noteCommitment2 ≠ 0) :
    ZeroHarmless worldStateDb getUserPendingDeposit txs := by
  rintro before tx after rfl ⟨-, other, hother, hzero⟩
  obtain ⟨hfirst, hsecond⟩ := h other (List.mem_append_left _ (mem_purged_splitBy hother))
  rcases hzero with hzero | hzero
  · exact absurd hzero hfirst
  · exact absurd hzero hsecond

/-- For pending transactions in creation order. -/
theorem validateTxs_valid_iff (hids : (txs.map (·.id)).Nodup) (hord : InCreationOrder txs) :
    Valid worldStateDb getUserPendingDeposit txs
        (validateTxs worldStateDb getUserPendingDeposit txs) ↔
      ZeroHarmless worldStateDb getUserPendingDeposit txs := by
  have hrun : validateTxs worldStateDb getUserPendingDeposit txs =
      (splitBy (fun s tx => Poisoned s tx ∨ HasReason worldStateDb getUserPendingDeposit s tx)
        txs).purged.map (·.id) := by
    rw [validateTxs, (tracks_run txs).purged]
  have hdecides := splitBy_decides
    (P := fun s tx => Poisoned s tx ∨ HasReason worldStateDb getUserPendingDeposit s tx) hids
  rw [hrun]
  constructor
  case mp =>
    intro hvalid before tx after hsplit hpoisoned
    have hreason := hvalid.decides hord
    -- both ways to sort out agree, and so does what they decide on
    have hiff := (hdecides before tx after hsplit).symm.trans (hreason before tx after hsplit)
    rw [hsplit] at hreason hiff
    have hbefore := hreason.before.splitOf_eq
    rw [hbefore] at hiff
    exact hiff.mp (.inl hpoisoned)
  case mpr =>
    intro hzero
    refine Decides.valid hord ?_
    rw [hzero.splitBy_eq]
    exact splitBy_decides hids

end

/-! ## A claim that others have settled -/

namespace Sample

/-- The claim note with this nullifier is spent. -/
def worldStateDb : WorldStateDb :=
  let trees := Trees.put (fun _ => ⟨.empty, 0⟩) .NULL 5 1
  ⟨trees, trees⟩

/-- The claim of an interaction with one output has no second note. -/
def claim : PendingTx :=
  ⟨1, .DEFI_CLAIM, 0, ⟨⟨.DEFI_CLAIM, 11, 0, 5, 6, 0, 0, 0⟩, 0, 0⟩, 0, 0, 0⟩

/-- A transfer. -/
def send : PendingTx := ⟨2, .TRANSFER, 0, ⟨⟨.SEND, 21, 22, 23, 24, 0, 0, 0⟩, 0, 0⟩, 0, 0, 0⟩

/-- A transfer that spends the claim note as well, and the next transaction of its chain. -/
def spentSend : PendingTx := ⟨1, .TRANSFER, 0, ⟨⟨.SEND, 11, 12, 5, 6, 0, 0, 0⟩, 0, 0⟩, 0, 0, 0⟩

/-- A transfer chained on it. -/
def chainedSend : PendingTx := ⟨3, .TRANSFER, 0, ⟨⟨.SEND, 31, 32, 33, 34, 0, 0, 0⟩, 12, 0⟩, 0, 0, 0⟩

/-- The sample is in creation order. -/
lemma order : InCreationOrder [spentSend, send, chainedSend] := by
  unfold InCreationOrder
  decide

end Sample

/-- A transfer of a spent note is purged, with the one chained on it. -/
theorem validateTxs_valid_iff_sample :
    validateTxs Sample.worldStateDb (fun _ _ => 0) [Sample.spentSend, Sample.send, Sample.chainedSend] =
      [1, 3] ∧
    Valid Sample.worldStateDb (fun _ _ => 0) [Sample.spentSend, Sample.send, Sample.chainedSend]
      (validateTxs Sample.worldStateDb (fun _ _ => 0)
        [Sample.spentSend, Sample.send, Sample.chainedSend]) :=
  ⟨by decide, (validateTxs_valid_iff (by decide) Sample.order).mpr (.of_ne (by decide))⟩

/-- The transfer is purged for no reason. -/
theorem validateTxs_zeroCommitment : ¬ ∀ (worldStateDb : WorldStateDb)
    (getUserPendingDeposit : Nat → Nat → Nat) (txs : List PendingTx), (txs.map (·.id)).Nodup →
    InCreationOrder txs → Valid worldStateDb getUserPendingDeposit txs
      (validateTxs worldStateDb getUserPendingDeposit txs) := by
  intro hall
  have hvalid := hall Sample.worldStateDb (fun _ _ => 0) [Sample.claim, Sample.send] (by decide)
    ⟨by decide, by decide⟩
  rcases hvalid.reason [Sample.claim] Sample.send [] rfl (by decide) with hspent | hchained | hexceeds
  · exact absurd hspent (by decide)
  · obtain ⟨parent, -, -, hchain⟩ := hchained
    obtain ⟨last, -, hlink⟩ := Relation.TransGen.tail'_iff.mp hchain
    exact hlink.2.1 rfl
  · exact absurd hexceeds (by decide)

end WorldState

end AztecConnect.Falafel
