import AztecConnect.Falafel.RollupCoordinator
import AztecConnect.Falafel.UnsettledTxs
import Mathlib.Data.List.Nodup

/-!
# What the rollup coordinator selects

The list of transactions that is handed to the rollup creator has no transaction twice, fits in the
slots, and has each transaction after the one that it links to, provided that the pending transactions
have (`processPendingTxs_linked`).
-/

namespace AztecConnect.Falafel

/-- The note of an earlier transaction that it spends, zero if there is none. -/
def PendingTx.link (tx : PendingTx) : Nat := tx.proofData.backwardLink

/-- What the receiver and the circuits ensure: accounts are not chained, nor are claims to others, and
there is no chaining from a defi deposit. -/
structure PendingTx.Accepted (tx : PendingTx) : Prop where
  account : tx.txType = .ACCOUNT → tx.link = 0 ∧ ∀ n, tx.proofData.chainable n = false
  defiDeposit : tx.txType = .DEFI_DEPOSIT → ∀ n, tx.proofData.chainable n = false
  claim : tx.txType = .DEFI_CLAIM → tx.link = 0

/-- The output that a transaction links to is settled or of an earlier transaction. -/
def Linkable (settled : Nat → Prop) (earlier : List PendingTx) (tx : PendingTx) : Prop :=
  tx.link ≠ 0 → settled tx.link ∨ ∃ other ∈ earlier, other.proofData.chainable tx.link = true

/-- Every transaction links to a settled note or to one before it. -/
def LinkedFrom (settled : Nat → Prop) : List PendingTx → List PendingTx → Prop
  | _, [] => True
  | earlier, tx :: txs => Linkable settled earlier tx ∧ LinkedFrom settled (earlier ++ [tx]) txs

/-- Transactions come after those that they link to. -/
def Linked (settled : Nat → Prop) (txs : List PendingTx) : Prop := LinkedFrom settled [] txs

variable {settled : Nat → Prop} {earlier earlier' txs txs' : List PendingTx} {tx : PendingTx}

/-- With more transactions before it, it can still be linked. -/
lemma Linkable.mono (h : Linkable settled earlier tx) (hsub : earlier ⊆ earlier') :
    Linkable settled earlier' tx :=
  fun hne => (h hne).imp_right fun ⟨other, hother, hchain⟩ => ⟨other, hsub hother, hchain⟩

/-- Without a link there is nothing to check. -/
lemma linkable_of_link_eq_zero (h : tx.link = 0) : Linkable settled earlier tx :=
  fun hne => absurd h hne

/-- Two lists are linked if the second is behind the first. -/
lemma linkedFrom_append : LinkedFrom settled earlier (txs ++ txs') ↔
    LinkedFrom settled earlier txs ∧ LinkedFrom settled (earlier ++ txs) txs' := by
  induction txs generalizing earlier with
  | nil => rw [List.nil_append, List.append_nil, LinkedFrom, true_and]
  | cons tx txs ih =>
    rw [List.cons_append, LinkedFrom, LinkedFrom, ih, and_assoc, List.append_assoc,
      List.singleton_append]

/-- All of the transactions can be linked to what comes before the first one. -/
lemma linkedFrom_of_forall (h : ∀ tx ∈ txs, Linkable settled earlier tx) :
    LinkedFrom settled earlier txs := by
  induction txs generalizing earlier with
  | nil => trivial
  | cons tx txs ih =>
    refine ⟨h tx List.mem_cons_self, ih fun other hother => ?_⟩
    exact (h other (List.mem_cons_of_mem tx hother)).mono (List.subset_append_left _ _)

namespace RollupCoordinator

/-! ## The sort -/

/-- It is a claim. -/
def isClaim (tx : PendingTx) : Bool := tx.txType = .DEFI_CLAIM

/-- The order puts claims first, and else nothing. -/
lemma claimFirst_eq (tx other : PendingTx) :
    claimFirst tx other = (isClaim tx && !isClaim other) := by
  unfold claimFirst isClaim
  cases tx.txType <;> cases other.txType <;> rfl

/-- A transaction is inserted behind those of its kind. -/
lemma insertTx_eq (claims others : List PendingTx) (tx : PendingTx)
    (hclaims : ∀ other ∈ claims, isClaim other = true)
    (hothers : ∀ other ∈ others, isClaim other = false) : insertTx (claims ++ others) tx =
      if isClaim tx then claims ++ tx :: others else claims ++ (others ++ [tx]) := by
  unfold insertTx
  simp only [claimFirst_eq]
  cases hclaim : isClaim tx with
  | false =>
    simp only [Bool.false_and, Bool.not_false]
    have hall (txs : List PendingTx) :
        txs.takeWhile (fun _ => true) = txs ∧ txs.dropWhile (fun _ => true) = [] := by
      induction txs with
      | nil => exact ⟨rfl, rfl⟩
      | cons other txs ih =>
        exact ⟨(List.takeWhile_cons_of_pos rfl).trans (congrArg _ ih.1),
          (List.dropWhile_cons_of_pos rfl).trans ih.2⟩
    rw [(hall _).1, (hall _).2, List.append_assoc]
    rfl
  | true =>
    simp only [Bool.true_and, Bool.not_not]
    rw [List.takeWhile_append_of_pos hclaims, List.dropWhile_append_of_pos hclaims]
    cases others with
    | nil =>
      rw [List.takeWhile_nil, List.dropWhile_nil, List.append_nil]
      rfl
    | cons other others =>
      have hother := hothers other List.mem_cons_self
      rw [List.takeWhile_cons_of_neg (by rw [hother]; nofun),
        List.dropWhile_cons_of_neg (by rw [hother]; nofun), List.append_nil]
      rfl

/-- Sorting moves the claims to the front, and keeps the order otherwise. -/
lemma sortTxs_eq (pendingTxs : List PendingTx) :
    sortTxs pendingTxs = pendingTxs.filter isClaim ++ pendingTxs.filter (!isClaim ·) := by
  induction pendingTxs using List.reverseRecOn with
  | nil => rfl
  | append_singleton pendingTxs tx ih =>
    rw [sortTxs, List.foldl_concat, ← sortTxs, ih, insertTx_eq, List.filter_append,
      List.filter_append]
    · cases hclaim : isClaim tx with
      | true =>
        rw [if_pos rfl, List.filter_cons_of_pos hclaim, List.filter_cons_of_neg (by rw [hclaim]; nofun),
          List.filter_nil, List.filter_nil, List.append_nil, List.append_assoc]
        rfl
      | false =>
        rw [if_neg nofun, List.filter_cons_of_neg (by rw [hclaim]; nofun),
          List.filter_cons_of_pos (by rw [hclaim]; rfl), List.filter_nil, List.filter_nil,
          List.append_nil]
    · exact fun other hother => (List.mem_filter.mp hother).2
    · exact fun other hother => Bool.not_eq_true' _ ▸ (List.mem_filter.mp hother).2

/-- Claims go to the front, where nothing is linked; the others keep their order. -/
lemma sortTxs_linked {pendingTxs : List PendingTx} (haccepted : ∀ tx ∈ pendingTxs, tx.Accepted)
    (h : Linked settled pendingTxs) : Linked settled (sortTxs pendingTxs) := by
  have hothers (txs : List PendingTx) : ∀ earlier earlier' : List PendingTx,
      LinkedFrom settled earlier txs → earlier ⊆ earlier' → txs.filter isClaim ⊆ earlier' →
      LinkedFrom settled earlier' (txs.filter (!isClaim ·)) := by
    induction txs with
    | nil => exact fun _ _ _ _ _ => trivial
    | cons tx txs ih =>
      rintro earlier earlier' ⟨htx, hrest⟩ hsub hclaims
      cases hclaim : isClaim tx with
      | true =>
        rw [List.filter_cons_of_pos hclaim] at hclaims
        obtain ⟨hself, hclaims⟩ := List.cons_subset.mp hclaims
        rw [List.filter_cons_of_neg (by rw [hclaim]; nofun)]
        refine ih _ _ hrest ?_ hclaims
        exact List.append_subset.mpr ⟨hsub, List.cons_subset.mpr ⟨hself, List.nil_subset _⟩⟩
      | false =>
        rw [List.filter_cons_of_neg (by rw [hclaim]; nofun)] at hclaims
        rw [List.filter_cons_of_pos (by rw [hclaim]; rfl)]
        refine ⟨htx.mono hsub, ih _ _ hrest ?_ (List.Subset.trans hclaims (List.subset_append_left _ _))⟩
        exact List.append_subset.mpr ⟨List.Subset.trans hsub (List.subset_append_left _ _),
          List.subset_append_right _ _⟩
  rw [Linked, sortTxs_eq, linkedFrom_append]
  refine ⟨linkedFrom_of_forall fun tx htx => ?_, ?_⟩
  · obtain ⟨hmem, hclaim⟩ := List.mem_filter.mp htx
    exact linkable_of_link_eq_zero ((haccepted tx hmem).claim (of_decide_eq_true hclaim))
  · exact hothers pendingTxs [] _ h (List.nil_subset _) (List.subset_append_right _ _)

end RollupCoordinator

/-! ## The queue of a bridge -/

namespace BridgeTxQueue

variable {R : TxFeeResolver} {bridgeCallData : Nat} {txQueue : List RollupTx}

/-- A deposit is added to the queue. -/
lemma addDefiTx_perm (newTx : RollupTx) (txQueue : List RollupTx) :
    (addDefiTx newTx txQueue).Perm (newTx :: txQueue) := by
  induction txQueue with
  | nil => exact .refl _
  | cons tx txQueue ih =>
    rw [addDefiTx]
    split
    case isTrue => exact .refl _
    case isFalse => exact (ih.cons tx).trans (.swap newTx tx txQueue)

/-- The batch grows by transactions of the queue, in their order, up to the slots that remain. -/
lemma consider_spec (slots assets : Nat) (gas callData : Int) (txQueue : List RollupTx) (b : Batch)
    (hslots : b.txsToConsider.length ≤ slots) :
    ∃ txs, (consider R bridgeCallData slots assets gas callData txQueue b).txsToConsider =
        b.txsToConsider ++ txs ∧
      txs.Sublist txQueue ∧ (b.txsToConsider ++ txs).length ≤ slots := by
  induction txQueue generalizing b with
  | nil =>
    rw [consider]
    exact ⟨[], (List.append_nil _).symm, .slnil, by rwa [List.append_nil]⟩
  | cons tx txQueue ih =>
    have hstop : ∃ txs, b.txsToConsider = b.txsToConsider ++ txs ∧ txs.Sublist (tx :: txQueue) ∧
        (b.txsToConsider ++ txs).length ≤ slots :=
      ⟨[], (List.append_nil _).symm, List.nil_sublist _, by rwa [List.append_nil]⟩
    have hadd (newAssets : List Nat) (gasUsed callDataUsed : Int)
        (hlt : b.txsToConsider.length < slots) : ∃ txs,
        (consider R bridgeCallData slots assets gas callData txQueue
          (b.add R bridgeCallData tx newAssets gasUsed callDataUsed)).txsToConsider =
            b.txsToConsider ++ txs ∧
          txs.Sublist (tx :: txQueue) ∧ (b.txsToConsider ++ txs).length ≤ slots := by
      have hlength : (b.txsToConsider ++ [tx]).length ≤ slots := by
        rw [List.length_append, List.length_singleton]
        exact hlt
      obtain ⟨txs, htxs, hsub, hle⟩ :=
        ih (b.add R bridgeCallData tx newAssets gasUsed callDataUsed) hlength
      have hassoc : b.txsToConsider ++ [tx] ++ txs = b.txsToConsider ++ (tx :: txs) :=
        List.append_assoc _ _ _
      exact ⟨tx :: txs, htxs.trans hassoc, hsub.cons_cons tx, hassoc ▸ hle⟩
    rw [consider]
    split
    case isTrue => exact hstop
    case isFalse hlt =>
      rw [not_not] at hlt
      split
      case isTrue => exact hstop
      case isFalse =>
        split
        case isTrue =>
          split
          case isTrue =>
            obtain ⟨txs, htxs, hsub, hle⟩ := ih b hslots
            exact ⟨txs, htxs, hsub.cons tx, hle⟩
          case isFalse => exact hadd _ _ _ hlt
        case isFalse => exact hadd _ _ _ hlt

/-- Either nothing leaves the queue, or a batch of its transactions does. -/
lemma getTxsToRollup_spec (bridgeCallData : Nat) (subsidy : Int) (slots : Nat) (assetIds : List Nat) (assets : Nat)
    (gas callData : Int) (txQueue : List RollupTx) :
    ((getTxsToRollup R bridgeCallData subsidy slots assetIds assets gas callData txQueue).1 = [] ∧
      (getTxsToRollup R bridgeCallData subsidy slots assetIds assets gas callData txQueue).2.2.2 =
        txQueue) ∨
    ((getTxsToRollup R bridgeCallData subsidy slots assetIds assets gas callData txQueue).1 ≠ [] ∧
      (getTxsToRollup R bridgeCallData subsidy slots assetIds assets gas callData txQueue).1.Sublist
        txQueue ∧
      (getTxsToRollup R bridgeCallData subsidy slots assetIds assets gas callData txQueue).1.length ≤
        slots) := by
  unfold getTxsToRollup
  dsimp only
  split
  case isFalse => exact .inl ⟨rfl, rfl⟩
  case isTrue h =>
    obtain ⟨txs, htxs, hsub, hle⟩ := consider_spec slots assets gas callData txQueue
      ⟨[], assetIds, 0, R.getFullBridgeGasFromContract bridgeCallData, 0⟩ (Nat.zero_le slots)
    rw [htxs] at h ⊢
    exact .inr ⟨h.1, hsub, hle⟩

end BridgeTxQueue

namespace RollupCoordinator

/-! ## The invariant of the loop -/

/-- The transactions selected so far. -/
def Selection.placed (s : Selection) : List PendingTx := s.txs.map RollupTx.tx

/-- Their bridge calls. -/
def Selection.bridges (s : Selection) : List Nat := s.resourceConsumption.bridgeCallDatas

/-- What waits for a bridge that the rollup does not call. -/
structure Queued (settled : Nat → Prop) (done placed : List PendingTx) (bridge : Nat)
    (txQueue : List RollupTx) : Prop where
  nodup : (txQueue.map (·.tx.id)).Nodup
  mem : ∀ t ∈ txQueue, t.tx ∈ done
  bridge : ∀ t ∈ txQueue, t.tx.bridgeCallData = bridge ∧ t.bridgeCallData = some bridge
  new : ∀ t ∈ txQueue, t.tx.id ∉ placed.map (·.id)
  linkable : ∀ t ∈ txQueue, Linkable settled placed t.tx

/-- After some of the pending transactions. Those that can be chained from are placed or recorded as
discarded; those in queues cannot. -/
structure Selected (c : RollupCoordinator) (settled : Nat → Prop) (done : List PendingTx)
    (s : Selection) : Prop where
  nodup : (s.placed.map (·.id)).Nodup
  mem : s.placed ⊆ done
  slots : s.txs.length ≤ c.totalSlots
  linked : Linked settled s.placed
  kept : ∀ other ∈ done, ∀ n, other.proofData.chainable n = true →
    other ∈ s.placed ∨ n ∈ s.discardedCommitments
  queues : ∀ bridge ∉ s.bridges, Queued settled done s.placed bridge (s.bridgeQueues bridge)

variable {c : RollupCoordinator} {done placed : List PendingTx} {s s' : Selection}

/-- A queue stays as it is while others are selected. -/
lemma Queued.mono {bridge : Nat} {txQueue : List RollupTx} {done' placed' : List PendingTx}
    (h : Queued settled done placed bridge txQueue) (hdone : done ⊆ done')
    (hnew : ∀ t ∈ txQueue, t.tx.id ∉ placed'.map (·.id)) (hplaced : placed ⊆ placed') :
    Queued settled done' placed' bridge txQueue where
  nodup := h.nodup
  mem t ht := hdone (h.mem t ht)
  bridge := h.bridge
  new := hnew
  linkable t ht := (h.linkable t ht).mono hplaced

/-- Transactions are placed, of those that were processed or are being so. -/
lemma Selected.append {txs : List RollupTx} (h : Selected c settled done s)
    (htxs : s'.txs = s.txs ++ txs) (hdiscarded : s'.discardedCommitments = s.discardedCommitments)
    (hslots : (s.txs ++ txs).length ≤ c.totalSlots) (hnodup : (txs.map (·.tx.id)).Nodup)
    (hnew : ∀ t ∈ txs, t.tx.id ∉ s.placed.map (·.id)) (hmem : ∀ t ∈ txs, t.tx ∈ done ++ [tx])
    (hlinkable : ∀ t ∈ txs, Linkable settled s.placed t.tx)
    (hkept : tx ∈ txs.map RollupTx.tx ∨ ∀ n, tx.proofData.chainable n = false)
    (hqueues : ∀ bridge ∉ s'.bridges,
      Queued settled (done ++ [tx]) s'.placed bridge (s'.bridgeQueues bridge)) :
    Selected c settled (done ++ [tx]) s' := by
  have hplaced : s'.placed = s.placed ++ txs.map RollupTx.tx := by
    rw [Selection.placed, htxs, List.map_append]
    rfl
  refine ⟨?_, ?_, htxs ▸ hslots, ?_, fun other hother n hn => ?_, hqueues⟩
  · rw [hplaced, List.map_append, List.map_map]
    refine List.nodup_append'.mpr ⟨h.nodup, hnodup, fun i hi hi' => ?_⟩
    obtain ⟨t, ht, rfl⟩ := List.mem_map.mp hi'
    exact hnew t ht hi
  · rw [hplaced]
    refine List.append_subset.mpr ⟨List.Subset.trans h.mem (List.subset_append_left _ _), ?_⟩
    intro other hother
    obtain ⟨t, ht, rfl⟩ := List.mem_map.mp hother
    exact hmem t ht
  · rw [hplaced, Linked, linkedFrom_append]
    refine ⟨h.linked, linkedFrom_of_forall fun other hother => ?_⟩
    obtain ⟨t, ht, rfl⟩ := List.mem_map.mp hother
    exact hlinkable t ht
  · rw [hplaced, hdiscarded]
    rcases List.mem_append.mp hother with hold | hself
    · exact (h.kept other hold n hn).imp_left (List.mem_append_left _)
    · cases List.mem_singleton.mp hself
      rcases hkept with hplaced | hnot
      · exact .inl (List.mem_append_right _ hplaced)
      · rw [hnot n] at hn
        nomatch hn

/-- A transaction is left out, with its commitments recorded or when it cannot be chained from. -/
lemma Selected.leaveOut (h : Selected c settled done s) (htxs : s'.txs = s.txs)
    (hbridges : s'.bridges = s.bridges) (hqueues : s'.bridgeQueues = s.bridgeQueues)
    (hdiscarded : s.discardedCommitments ⊆ s'.discardedCommitments)
    (hkept : ∀ n, tx.proofData.chainable n = true → n ∈ s'.discardedCommitments) :
    Selected c settled (done ++ [tx]) s' := by
  have hplaced : s'.placed = s.placed := congrArg (List.map RollupTx.tx) htxs
  refine ⟨hplaced ▸ h.nodup, ?_, htxs ▸ h.slots, hplaced ▸ h.linked, fun other hother n hn => ?_,
    fun bridge hbridge => ?_⟩
  · rw [hplaced]
    exact List.Subset.trans h.mem (List.subset_append_left _ _)
  · rw [hplaced]
    rcases List.mem_append.mp hother with hold | hself
    · exact (h.kept other hold n hn).imp_right (hdiscarded ·)
    · cases List.mem_singleton.mp hself
      exact .inr (hkept n hn)
  · rw [hplaced, hqueues]
    rw [hbridges] at hbridge
    exact (h.queues bridge hbridge).mono (List.subset_append_left _ _)
      (h.queues bridge hbridge).new (List.Subset.refl _)

/-- A transaction that nothing chains from can be left out. -/
lemma Selected.leaveOut_of_not_chainable (h : Selected c settled done s)
    (hnot : ∀ n, tx.proofData.chainable n = false) : Selected c settled (done ++ [tx]) s :=
  h.leaveOut rfl rfl rfl (List.Subset.refl _) fun n hn => by
    rw [hnot n] at hn
    nomatch hn

/-- One transaction is placed. -/
lemma Selected.place {t : RollupTx} (h : Selected c settled done s) (htx : t.tx = tx)
    (hfresh : tx.id ∉ done.map (·.id)) (hlinkable : Linkable settled s.placed tx)
    (hslots : s.txs.length < c.totalSlots) (htxs : s'.txs = s.txs ++ [t])
    (hdiscarded : s'.discardedCommitments = s.discardedCommitments)
    (hbridges : s.bridges ⊆ s'.bridges) (hqueues : s'.bridgeQueues = s.bridgeQueues) :
    Selected c settled (done ++ [tx]) s' := by
  have hplaced : s'.placed = s.placed ++ [tx] := by
    rw [Selection.placed, htxs, List.map_append, List.map_singleton, htx]
    rfl
  have hself : ∀ u ∈ [t], u.tx = tx := fun u hu => by rw [List.mem_singleton.mp hu, htx]
  refine h.append htxs hdiscarded ?_ (List.nodup_singleton _) (fun u hu hmem => ?_)
    (fun u hu => ?_) (fun u hu => ?_) (.inl ?_) fun bridge hbridge => ?_
  · rw [List.length_append, List.length_singleton]
    exact hslots
  · rw [hself u hu] at hmem
    exact hfresh (List.map_subset _ h.mem hmem)
  · rw [hself u hu]
    exact List.mem_append_right _ List.mem_cons_self
  · rw [hself u hu]
    exact hlinkable
  · rw [List.map_singleton, htx]
    exact List.mem_cons_self
  · have hold := h.queues bridge fun hmem => hbridge (hbridges hmem)
    rw [hqueues, hplaced]
    refine hold.mono (List.subset_append_left _ _) (fun u hu hmem => ?_) (List.subset_append_left _ _)
    rw [List.map_append, List.mem_append] at hmem
    rcases hmem with hmem | hmem
    · exact hold.new u hu hmem
    · rw [List.map_singleton, List.mem_singleton] at hmem
      exact hfresh (hmem ▸ List.mem_map_of_mem (hold.mem u hu))

/-! ## The steps of the loop -/

/-- Defi transactions are placed, and their bridge is called. -/
lemma addDefiTxs_spec (c : RollupCoordinator) (bridge : Nat) (s : Selection) (txs : List RollupTx) :
    (c.addDefiTxs bridge s txs).txs = s.txs ++ txs ∧
      (c.addDefiTxs bridge s txs).discardedCommitments = s.discardedCommitments ∧
      (c.addDefiTxs bridge s txs).bridgeQueues = s.bridgeQueues ∧
      s.bridges ⊆ (c.addDefiTxs bridge s txs).bridges ∧
      (txs ≠ [] → (∀ t ∈ txs, t.bridgeCallData = some bridge) →
        bridge ∈ (c.addDefiTxs bridge s txs).bridges) := by
  induction txs generalizing s with
  | nil =>
    exact ⟨(List.append_nil _).symm, rfl, rfl, List.Subset.refl _, fun hne => absurd rfl hne⟩
  | cons t txs ih =>
    rw [addDefiTxs, List.foldl_cons, ← addDefiTxs]
    obtain ⟨htxs, hdiscarded, hqueues, hbridges, -⟩ := ih _
    refine ⟨htxs.trans (List.append_assoc _ _ _), hdiscarded, hqueues,
      List.Subset.trans (fun b hb => ?_) hbridges, fun _ hall => hbridges ?_⟩
    · show b ∈ if s.resourceConsumption.bridgeCallDatas.contains bridge then _ else _
      split
      case isTrue => exact hb
      case isFalse => exact List.mem_append_left _ hb
    · show bridge ∈ if s.resourceConsumption.bridgeCallDatas.contains bridge then _ else _
      split
      case isTrue hcontains => exact List.contains_iff_mem.mp hcontains
      case isFalse =>
        rw [hall t List.mem_cons_self]
        exact List.mem_append_right _ List.mem_cons_self

/-- A transaction that is checked and added can follow what is selected. -/
lemma selected_checkAndAddTx {bridge : Nat} {present : Bool} (h : Selected c settled done s)
    (hfresh : tx.id ∉ done.map (·.id)) (hlinkable : Linkable settled s.placed tx)
    (hslots : s.txs.length < c.totalSlots) (hnot : ∀ n, tx.proofData.chainable n = false) :
    Selected c settled (done ++ [tx]) (c.checkAndAddTx bridge present s (createDefiRollupTx tx)) := by
  fun_cases checkAndAddTx c bridge present s (createDefiRollupTx tx)
  case case1 => exact h.leaveOut_of_not_chainable hnot
  case case2 =>
    obtain ⟨htxs, hdiscarded, hqueues, hbridges, -⟩ :=
      addDefiTxs_spec c bridge s [createDefiRollupTx tx]
    exact h.place rfl hfresh hlinkable hslots htxs hdiscarded hbridges hqueues

/-- The queue of a bridge with one more transaction. -/
lemma Selected.queued (h : Selected c settled done s) (hfresh : tx.id ∉ done.map (·.id))
    (hlinkable : Linkable settled s.placed tx) (hbridge : tx.bridgeCallData ∉ s.bridges) :
    Queued settled (done ++ [tx]) s.placed tx.bridgeCallData
      (BridgeTxQueue.addDefiTx (createDefiRollupTx tx) (s.bridgeQueues tx.bridgeCallData)) := by
  have hold := h.queues tx.bridgeCallData hbridge
  have hperm := BridgeTxQueue.addDefiTx_perm (createDefiRollupTx tx) (s.bridgeQueues tx.bridgeCallData)
  have hcases {t : RollupTx} (ht : t ∈ BridgeTxQueue.addDefiTx (createDefiRollupTx tx)
      (s.bridgeQueues tx.bridgeCallData)) :
      t = createDefiRollupTx tx ∨ t ∈ s.bridgeQueues tx.bridgeCallData :=
    List.mem_cons.mp (hperm.mem_iff.mp ht)
  refine ⟨?_, fun t ht => ?_, fun t ht => ?_, fun t ht => ?_, fun t ht => ?_⟩
  · refine (hperm.map _).nodup_iff.mpr (List.nodup_cons.mpr ⟨fun hmem => ?_, hold.nodup⟩)
    obtain ⟨t, ht, hid⟩ := List.mem_map.mp hmem
    exact hfresh (List.mem_map.mpr ⟨t.tx, hold.mem t ht, hid⟩)
  · rcases hcases ht with rfl | ht
    · exact List.mem_append_right _ List.mem_cons_self
    · exact List.mem_append_left _ (hold.mem t ht)
  · rcases hcases ht with rfl | ht
    · exact ⟨rfl, rfl⟩
    · exact hold.bridge t ht
  · rcases hcases ht with rfl | ht
    · exact fun hmem => hfresh (List.map_subset _ h.mem hmem)
    · exact hold.new t ht
  · rcases hcases ht with rfl | ht
    · exact hlinkable
    · exact hold.linkable t ht

/-- So can a deposit to a bridge, with its queue. -/
lemma selected_handleNewDefiTx {flush : Bool} {index : Nat} (h : Selected c settled done s)
    (hids : ((done ++ [tx]).map (·.id)).Nodup) (hlinkable : Linkable settled s.placed tx)
    (hslots : s.txs.length < c.totalSlots) (hnot : ∀ n, tx.proofData.chainable n = false) :
    Selected c settled (done ++ [tx])
      (c.handleNewDefiTx flush index (c.totalSlots - s.txs.length) s tx) := by
  have hfresh : tx.id ∉ done.map (·.id) := by
    rw [List.map_append, List.nodup_append'] at hids
    exact fun hmem => hids.2.2 hmem List.mem_cons_self
  fun_cases handleNewDefiTx c flush index (c.totalSlots - s.txs.length) s tx
  case case1 => exact selected_checkAndAddTx h hfresh hlinkable hslots hnot
  case case2 => exact h.leaveOut_of_not_chainable hnot
  case case3 => exact selected_checkAndAddTx h hfresh hlinkable hslots hnot
  case case4 bridge present hpresent _ _ txQueue txs gasUsed callDataUsed rest hresult _ =>
    have hbridge : tx.bridgeCallData ∉ s.bridges := fun hmem =>
      hpresent (List.contains_iff_mem.mpr hmem)
    have hqueued := h.queued hfresh hlinkable hbridge
    obtain ⟨htxs, hdiscarded, hqueues, hbridges, hcalled⟩ := addDefiTxs_spec c bridge s txs
    have hspec := BridgeTxQueue.getTxsToRollup_spec (R := c.feeResolver) tx.bridgeCallData
      (c.getBridgeSubsidy index tx.bridgeCallData)
      (c.totalSlots - s.txs.length) s.resourceConsumption.assetIds NUMBER_OF_ASSETS
      (c.maxGasForRollup - s.resourceConsumption.gasUsed)
      (c.maxCallDataForRollup - s.resourceConsumption.callDataUsed)
      (BridgeTxQueue.addDefiTx (createDefiRollupTx tx) (s.bridgeQueues tx.bridgeCallData))
    rw [hresult] at hspec
    -- the queues of the other bridges stay
    have hothers (b : Nat) (hb : b ∉ s.bridges) (hne : b ≠ tx.bridgeCallData) (t u : RollupTx)
        (ht : t ∈ s.bridgeQueues b) (hu : u.tx.bridgeCallData = tx.bridgeCallData)
        (hmem : u.tx ∈ done ++ [tx]) : t.tx.id ≠ u.tx.id := by
      intro hid
      have hsame : t.tx = u.tx := List.inj_on_of_nodup_map hids
        (List.mem_append_left _ ((h.queues b hb).mem t ht)) hmem hid
      exact hne (((h.queues b hb).bridge t ht).1.symm.trans (hsame ▸ hu))
    rcases hspec with ⟨hnone, hrest⟩ | ⟨hsome, hsub, hle⟩
    · dsimp only at hnone hrest
      subst hnone hrest
      refine h.append htxs hdiscarded ?_ List.nodup_nil (List.forall_mem_nil _)
        (List.forall_mem_nil _) (List.forall_mem_nil _) (.inr hnot) fun b hb => ?_
      · rw [List.append_nil]
        exact h.slots
      · have hold : b ∉ s.bridges := fun hmem => hb (hbridges hmem)
        have hplaced : (c.addDefiTxs bridge s []).placed = s.placed := rfl
        show Queued settled _ (c.addDefiTxs bridge s []).placed b
          (Function.update (c.addDefiTxs bridge s []).bridgeQueues bridge _ b)
        rw [hplaced, hqueues]
        by_cases heq : b = bridge
        · rw [heq, Function.update_self]
          exact hqueued
        · rw [Function.update_of_ne heq]
          exact (h.queues b hold).mono (List.subset_append_left _ _) (h.queues b hold).new
            (List.Subset.refl _)
    · dsimp only at hsome hsub hle
      have hplaced : (c.addDefiTxs bridge s txs).placed = s.placed ++ txs.map RollupTx.tx := by
        rw [Selection.placed, htxs, List.map_append]
        rfl
      have hself : bridge ∈ (c.addDefiTxs bridge s txs).bridges :=
        hcalled hsome fun t ht => (hqueued.bridge t (hsub.subset ht)).2
      refine h.append htxs hdiscarded ?_ (hqueued.nodup.sublist (hsub.map _))
        (fun t ht => hqueued.new t (hsub.subset ht)) (fun t ht => hqueued.mem t (hsub.subset ht))
        (fun t ht => hqueued.linkable t (hsub.subset ht)) (.inr hnot) fun b hb => ?_
      · rw [List.length_append]
        omega
      · have hold : b ∉ s.bridges := fun hmem => hb (hbridges hmem)
        have hnot : b ∉ (c.addDefiTxs bridge s txs).bridges := hb
        have hne : b ≠ bridge := fun heq => hnot (heq ▸ hself)
        show Queued settled _ (c.addDefiTxs bridge s txs).placed b
          (Function.update (c.addDefiTxs bridge s txs).bridgeQueues bridge _ b)
        rw [hplaced, hqueues, Function.update_of_ne hne]
        refine (h.queues b hold).mono (List.subset_append_left _ _) (fun t ht hmem => ?_)
          (List.subset_append_left _ _)
        rw [List.map_append, List.mem_append] at hmem
        rcases hmem with hmem | hmem
        · exact (h.queues b hold).new t ht hmem
        · obtain ⟨u', hu', hid⟩ := List.mem_map.mp hmem
          obtain ⟨u, hu, rfl⟩ := List.mem_map.mp hu'
          exact hothers b hold hne t u ht (hqueued.bridge u (hsub.subset hu)).1
            (hqueued.mem u (hsub.subset hu)) hid.symm

/-- What can be chained from is one of the two notes. -/
lemma chainable_mem {p : ProofData} {n : Nat} (h : p.chainable n = true) :
    n ∈ [p.noteCommitment1, p.noteCommitment2] := by
  rcases (Bool.or_eq_true _ _).mp h with h | h
  · rw [← eq_of_beq ((Bool.and_eq_true _ _).mp h).2]
    exact List.mem_cons_self
  · rw [← eq_of_beq ((Bool.and_eq_true _ _).mp h).2]
    exact List.mem_cons_of_mem _ List.mem_cons_self

/-- The resources keep their bridge calls. -/
lemma validateAndUpdateRollupResources_bridges {txType : TxType} {feeAssetId : Nat}
    {r r' : RollupResources}
    (h : c.validateAndUpdateRollupResources txType feeAssetId r = some r') :
    r'.bridgeCallDatas = r.bridgeCallDatas := by
  unfold validateAndUpdateRollupResources at h
  dsimp only at h
  split at h
  case isTrue => cases h
  case isFalse =>
    cases h
    rfl

/-- One transaction of the list is selected or left out. -/
lemma selected_selectTx {flush : Bool} {index : Nat} (h : Selected c settled done s)
    (hids : ((done ++ [tx]).map (·.id)).Nodup) (haccepted : tx.Accepted)
    (hlinkable : Linkable settled done tx) (hslots : s.txs.length < c.totalSlots) :
    Selected c settled (done ++ [tx]) (c.selectTx flush index s tx) := by
  have hfresh : tx.id ∉ done.map (·.id) := by
    rw [List.map_append, List.nodup_append'] at hids
    exact fun hmem => hids.2.2 hmem List.mem_cons_self
  -- what it links to is placed, unless that is discarded
  have hplaced (hnot : ¬ (tx.link ≠ 0 ∧ s.discardedCommitments.contains tx.link = true)) :
      Linkable settled s.placed tx := by
    intro hne
    refine (hlinkable hne).imp_right fun ⟨other, hother, hchain⟩ => ⟨other, ?_, hchain⟩
    rcases h.kept other hother _ hchain with hmem | hdiscarded
    · exact hmem
    · exact absurd ⟨hne, List.contains_iff_mem.mpr hdiscarded⟩ hnot
  have hdiscard : Selected c settled (done ++ [tx]) { s with
      discardedCommitments :=
        s.discardedCommitments ++ [tx.proofData.noteCommitment1, tx.proofData.noteCommitment2] } :=
    h.leaveOut rfl rfl rfl (List.subset_append_left _ _) fun n hn =>
      List.mem_append_right _ (chainable_mem hn)
  fun_cases selectTx c flush index s tx
  case case1 haccount r hr =>
    refine h.place rfl hfresh (linkable_of_link_eq_zero (haccepted.account haccount).1) hslots rfl rfl
      ?_ rfl
    show s.bridges ⊆ r.bridgeCallDatas
    rw [validateAndUpdateRollupResources_bridges hr]
    exact List.Subset.refl _
  case case2 haccount _ => exact h.leaveOut_of_not_chainable (haccepted.account haccount).2
  case case3 => exact hdiscard
  case case4 => exact hdiscard
  case case5 hnot _ r hr =>
    refine h.place rfl hfresh (hplaced hnot) hslots rfl rfl ?_ rfl
    show s.bridges ⊆ r.bridgeCallDatas
    rw [validateAndUpdateRollupResources_bridges hr]
    exact List.Subset.refl _
  case case6 => exact hdiscard
  case case7 hnot hdefi =>
    exact selected_handleNewDefiTx h hids (hplaced hnot) hslots
      (haccepted.defiDeposit (not_not.mp hdefi))

/-- So are all of them. -/
lemma selected_selectTxs (flush : Bool) (index : Nat) {rest : List PendingTx}
    (h : Selected c settled done s) (hids : ((done ++ rest).map (·.id)).Nodup)
    (haccepted : ∀ tx ∈ rest, tx.Accepted) (hlinked : LinkedFrom settled done rest) :
    ∃ done', done' ⊆ done ++ rest ∧
      Selected c settled done' (c.selectTxs flush index rest s) := by
  induction rest generalizing done s index with
  | nil => exact ⟨done, List.subset_append_left _ _, h⟩
  | cons tx rest ih =>
    rw [selectTxs]
    split
    case isFalse => exact ⟨done, List.subset_append_left _ _, h⟩
    case isTrue hslots =>
      have hassoc : done ++ tx :: rest = done ++ [tx] ++ rest := List.append_cons done tx rest
      rw [hassoc] at hids ⊢
      have hone : ((done ++ [tx]).map (·.id)).Nodup := by
        rw [List.map_append] at hids
        exact (List.nodup_append'.mp hids).1
      exact ih (index + 1) (selected_selectTx h hone (haccepted tx List.mem_cons_self) hlinked.1 hslots) hids
        (fun other hother => haccepted other (List.mem_cons_of_mem tx hother)) hlinked.2

/-- What the loop selects from the pending transactions. -/
lemma selected_getNextTxsToRollup {pendingTxs : List PendingTx} (flush : Bool)
    (hids : (pendingTxs.map (·.id)).Nodup) (haccepted : ∀ tx ∈ pendingTxs, tx.Accepted)
    (hlinked : Linked settled pendingTxs) :
    ∃ done ⊆ pendingTxs, Selected c settled done (c.getNextTxsToRollup pendingTxs flush) := by
  have hperm : (sortTxs pendingTxs).Perm pendingTxs := by
    rw [sortTxs_eq]
    exact List.filter_append_perm isClaim pendingTxs
  have hstart : Selected c settled []
      { txs := []
        resourceConsumption :=
          ⟨c.totalSlots * c.feeResolver.getUnadjustedBaseVerificationGas, 0, [], []⟩
        discardedCommitments := []
        bridgeQueues := fun _ => [] } :=
    ⟨List.nodup_nil, List.Subset.refl _, Nat.zero_le _, trivial, List.forall_mem_nil _,
      fun _ _ => ⟨List.nodup_nil, List.forall_mem_nil _, List.forall_mem_nil _, List.forall_mem_nil _,
        List.forall_mem_nil _⟩⟩
  obtain ⟨done, hdone, hselected⟩ := selected_selectTxs flush 0 hstart
    ((hperm.map _).nodup_iff.mpr hids) (fun tx htx => haccepted tx (hperm.mem_iff.mp htx))
    (sortTxs_linked haccepted hlinked)
  exact ⟨done, fun tx htx => hperm.mem_iff.mp (hdone htx), hselected⟩

/-! ## The second class -/

/-- Accounts are added, up to the slots that are left. -/
lemma selectSecondClass_spec (txsToRollup : List RollupTx) (txs : List PendingTx)
    (secondClassTxs : List RollupTx) (r : RollupResources)
    (hslots : txsToRollup.length + secondClassTxs.length ≤ c.totalSlots) :
    ∃ accounts : List PendingTx, c.selectSecondClass txsToRollup txs secondClassTxs r =
        secondClassTxs ++ accounts.map createRollupTx ∧
      accounts.Sublist txs ∧ (∀ tx ∈ accounts, tx.txType = .ACCOUNT) ∧
      txsToRollup.length + (secondClassTxs.length + accounts.length) ≤ c.totalSlots := by
  induction txs generalizing secondClassTxs r with
  | nil => exact ⟨[], (List.append_nil _).symm, .slnil, List.forall_mem_nil _, hslots⟩
  | cons tx txs ih =>
    rw [selectSecondClass, addSecondClass]
    split
    case isFalse => exact ⟨[], (List.append_nil _).symm, List.nil_sublist _, List.forall_mem_nil _, hslots⟩
    case isTrue hlt =>
      have hskip (r : RollupResources) : ∃ accounts : List PendingTx,
          c.selectSecondClass txsToRollup txs secondClassTxs r =
            secondClassTxs ++ accounts.map createRollupTx ∧
          accounts.Sublist (tx :: txs) ∧ (∀ tx ∈ accounts, tx.txType = .ACCOUNT) ∧
          txsToRollup.length + (secondClassTxs.length + accounts.length) ≤ c.totalSlots := by
        obtain ⟨accounts, heq, hsub, htype, hle⟩ := ih secondClassTxs r hslots
        exact ⟨accounts, heq, hsub.cons tx, htype, hle⟩
      split
      case isFalse => exact hskip r
      case isTrue haccount =>
        split
        case h_2 => exact hskip r
        case h_1 r' _ =>
          have hlength : txsToRollup.length + (secondClassTxs ++ [createRollupTx tx]).length ≤
              c.totalSlots := by
            rw [List.length_append, List.length_singleton]
            omega
          obtain ⟨accounts, heq, hsub, htype, hle⟩ := ih _ r' hlength
          refine ⟨tx :: accounts, ?_, hsub.cons_cons tx, ?_, ?_⟩
          · rw [List.append_assoc] at heq
            exact heq
          · exact List.forall_mem_cons.mpr ⟨haccount, htype⟩
          · rw [List.length_append, List.length_singleton] at hle
            rw [List.length_cons]
            omega

/-! ## The list that is handed to the rollup creator -/

/-- The coordinator never finds more transactions than slots, and the list is as it should be, provided
that what the pending transactions link to is settled or comes before them. -/
theorem processPendingTxs_linked {pendingTxs secondClassTxs : List PendingTx} {flush : Bool}
    (hids : ((pendingTxs ++ secondClassTxs).map (·.id)).Nodup)
    (haccepted : ∀ tx ∈ pendingTxs ++ secondClassTxs, tx.Accepted)
    (hlinked : Linked settled pendingTxs) :
    ∃ handed, c.processPendingTxs pendingTxs secondClassTxs flush = .ok handed ∧
      ∀ txs, handed = some txs → (txs.map (·.tx.id)).Nodup ∧ txs.length ≤ c.totalSlots ∧
        Linked settled (txs.map RollupTx.tx) := by
  rw [List.map_append, List.nodup_append'] at hids
  obtain ⟨hpending, hsecond, hdisjoint⟩ := hids
  obtain ⟨done, hdone, h⟩ := selected_getNextTxsToRollup (c := c) flush hpending
    (fun tx htx => haccepted tx (List.mem_append_left _ htx)) hlinked
  have hnodup : ((c.getNextTxsToRollup pendingTxs flush).txs.map (·.tx.id)).Nodup := by
    have := h.nodup
    rwa [Selection.placed, List.map_map] at this
  unfold processPendingTxs aggregateAndPublish
  rw [if_neg (Nat.not_lt.mpr h.slots)]
  split
  case isTrue => exact ⟨none, rfl, nofun⟩
  case isFalse =>
    split
    case isTrue =>
      refine ⟨_, rfl, fun txs htxs => ?_⟩
      cases htxs
      exact ⟨hnodup, h.slots, h.linked⟩
    case isFalse =>
      refine ⟨_, rfl, fun txs htxs => ?_⟩
      cases htxs
      obtain ⟨accounts, heq, hsub, htype, hle⟩ := selectSecondClass_spec (c := c)
        (c.getNextTxsToRollup pendingTxs flush).txs
        (secondClassTxs.take (c.totalSlots - (c.getNextTxsToRollup pendingTxs flush).txs.length)) []
        (c.getNextTxsToRollup pendingTxs flush).resourceConsumption h.slots
      have hmem : accounts.Sublist secondClassTxs := hsub.trans (List.take_sublist _ _)
      rw [heq, List.nil_append]
      refine ⟨?_, ?_, ?_⟩
      · rw [List.map_append, List.map_map]
        refine List.nodup_append'.mpr ⟨hnodup, hsecond.sublist (hmem.map _), fun i hi hi' => ?_⟩
        obtain ⟨t, ht, rfl⟩ := List.mem_map.mp hi
        have hplaced := hdone (h.mem (List.mem_map_of_mem ht))
        exact hdisjoint (List.mem_map_of_mem hplaced) ((hmem.map _).subset hi')
      · rw [List.length_append, List.length_map]
        rwa [List.length_nil, Nat.zero_add] at hle
      · rw [List.map_append, List.map_map, Linked, linkedFrom_append]
        refine ⟨h.linked, linkedFrom_of_forall fun tx htx => ?_⟩
        obtain ⟨account, haccount, rfl⟩ := List.mem_map.mp htx
        have haccepted := haccepted account (List.mem_append_right _ (hmem.subset haccount))
        exact linkable_of_link_eq_zero (haccepted.account (htype account haccount)).1

/-! ## What the receiver lets through -/

instance [DecidablePred settled] (earlier : List PendingTx) (tx : PendingTx) :
    Decidable (Linkable settled earlier tx) := inferInstanceAs (Decidable (_ → _))

instance decidableLinkedFrom [DecidablePred settled] :
    (earlier txs : List PendingTx) → Decidable (LinkedFrom settled earlier txs)
  | _, [] => .isTrue trivial
  | earlier, tx :: txs =>
    let _ := decidableLinkedFrom (earlier ++ [tx]) txs
    inferInstanceAs (Decidable (_ ∧ _))

instance [DecidablePred settled] (txs : List PendingTx) : Decidable (Linked settled txs) :=
  decidableLinkedFrom [] txs

/-- The pending transactions of the database of the receiver, without fees. -/
def pendingTxsOf (s : TxReceiver.State) : List PendingTx :=
  s.db.getPendingTxs.map fun t => ⟨t.id, t.txType, 0, s.proofData t.id, 0, 0, 0⟩

namespace Sample

/-- A coordinator for one rollup of four transactions, without limits. -/
def coordinator : RollupCoordinator where
  numInnerRollupTxs := 4
  numOuterRollupProofs := 1
  feeResolver :=
    { isFeePayingAsset := fun _ => false
      getUnadjustedBaseVerificationGas := 0
      getUnadjustedTxGas := fun _ _ => 0
      getTxCallData := fun _ => 0
      getFullBridgeGas := fun _ => 0
      getFullBridgeGasFromContract := fun _ => 0
      getSingleBridgeTxGas := fun _ => 0 }
  maxGasForRollup := 0
  maxCallDataForRollup := 0
  getBridgeSubsidy _ _ := 0
  shouldPublish _ := true
  outOfResources _ := false

/-- A deposit, a payment that is chained to it, a defi deposit and an account. -/
def deposit : PendingTx := ⟨1, .DEPOSIT, 0, ⟨⟨.DEPOSIT, 100, 101, 1, 2, 10, 7, 0⟩, 0, 1⟩, 0, 0, 0⟩

/-- A transfer chained on the deposit. -/
def send : PendingTx := ⟨2, .TRANSFER, 0, ⟨⟨.SEND, 102, 103, 3, 4, 0, 0, 0⟩, 100, 1⟩, 0, 0, 0⟩

/-- A deposit to a bridge chained on the transfer. -/
def defi : PendingTx :=
  ⟨3, .DEFI_DEPOSIT, 0, ⟨⟨.DEFI_DEPOSIT, 104, 105, 5, 6, 0, 0, 0⟩, 102, 0⟩, 0, 0, 8⟩

/-- An account transaction. -/
def account : PendingTx := ⟨4, .ACCOUNT, 0, ⟨⟨.ACCOUNT, 106, 107, 0, 0, 0, 0, 0⟩, 0, 0⟩, 0, 0, 0⟩

/-- The receiver accepts all of them. -/
lemma accepted : ∀ tx ∈ [deposit, send, defi] ++ [account], tx.Accepted := by
  have hnone (tx : PendingTx) (h : tx.proofData.allowChain = 0) (n : Nat) :
      tx.proofData.chainable n = false := by
    unfold ProofData.chainable ProofData.allowChainFromNote1 ProofData.allowChainFromNote2
    rw [h]
    rfl
  intro tx htx
  simp only [List.cons_append, List.nil_append, List.mem_cons, List.not_mem_nil, or_false] at htx
  rcases htx with rfl | rfl | rfl | rfl
  · exact ⟨nofun, nofun, nofun⟩
  · exact ⟨nofun, nofun, nofun⟩
  · exact ⟨nofun, fun _ => hnone _ rfl, nofun⟩
  · exact ⟨fun _ => ⟨rfl, hnone _ rfl⟩, nofun, nofun⟩

end Sample

/-- A chain of three and an account transaction. -/
theorem processPendingTxs_linked_sample :
    ∃ handed, Sample.coordinator.processPendingTxs [Sample.deposit, Sample.send, Sample.defi]
        [Sample.account] false = .ok handed ∧
      ∀ txs, handed = some txs → (txs.map (·.tx.id)).Nodup ∧
        txs.length ≤ Sample.coordinator.totalSlots ∧ Linked (fun _ => False) (txs.map RollupTx.tx) :=
  processPendingTxs_linked (by decide) Sample.accepted
    ⟨by decide, by decide, by decide, trivial⟩

/-- Two requests in the same millisecond: the transaction of the second one gets an earlier time than the
one of the first that it links to, and comes before it. -/
theorem processPendingTxs_unlinked : ¬ ∀ (as : List TxReceiver.Action) (s : TxReceiver.State)
    (txs : List RollupTx),
    Transition.Run (Transition.Steps (TxReceiver.step TxReceiver.Sample.env)) .init as s →
    Sample.coordinator.processPendingTxs (pendingTxsOf s) [] true = .ok (some txs) →
    Linked (fun n => ∃ t ∈ s.db.txs.rows, t.mined ≠ none ∧ (s.proofData t.id).chainable n = true)
      (txs.map RollupTx.tx) := by
  intro hall
  obtain ⟨s, hs, hunlinked⟩ := Option.map_eq_some_iff.mp
    (show (Transition.exec (TxReceiver.step TxReceiver.Sample.env) .init TxReceiver.Sample.chained).map
      (fun s => (Sample.coordinator.processPendingTxs (pendingTxsOf s) [] true).toOption.join.any fun txs =>
        !decide (Linked (fun n => ∃ t ∈ s.db.txs.rows,
          t.mined ≠ none ∧ (s.proofData t.id).chainable n = true) (txs.map RollupTx.tx))) =
      some true by decide +kernel)
  cases hrun : Sample.coordinator.processPendingTxs (pendingTxsOf s) [] true with
  | error e =>
    rw [hrun] at hunlinked
    cases hunlinked
  | ok chosen =>
    rw [hrun] at hunlinked
    cases chosen with
    | none => cases hunlinked
    | some txs =>
      have hnot := (Bool.not_eq_true' _).mp hunlinked
      exact of_decide_eq_false hnot (hall _ s txs (Transition.exec_run hs) hrun)

end RollupCoordinator

end AztecConnect.Falafel
