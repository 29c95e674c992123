import AztecConnect.Falafel.RollupProfile
import Mathlib.Data.Finset.Card

/-!
# The limits of a rollup

The coordinator stays within the limits, and its figures are those of the profile. The creator then
extends the assets with those of the zero fees too, so that the limits hold at the end if and only if the
selected transactions are in few enough assets (`Counts.within_iff`). They are where every pending deposit
to a bridge pays its fee, or where all pending transactions are (`withinLimits_of_pending`).
-/

namespace AztecConnect.Falafel

/-! ## Lists that are extended -/

section Lists

variable {α : Type*} (p : α → Prop) [DecidablePred p] (f : α → Nat)

/-- The values of some elements are added to a set. -/
def addAll (xs : List Nat) (ts : List α) : List Nat :=
  ts.foldl (fun xs t => if p t then addToSet xs (f t) else xs) xs

variable {p f}

/-- The last element is added if it counts and is new. -/
lemma addAll_concat (xs : List Nat) (ts : List α) (t : α) : addAll p f xs (ts ++ [t]) =
    if p t then addToSet (addAll p f xs ts) (f t) else addAll p f xs ts := List.foldl_concat _ _ _ _

/-- What is added are the values of the elements that count. -/
lemma mem_addAll {xs : List Nat} {ts : List α} {y : Nat} :
    y ∈ addAll p f xs ts ↔ y ∈ xs ∨ ∃ t ∈ ts, p t ∧ f t = y := by
  induction ts using List.reverseRecOn with
  | nil => simp [addAll]
  | append_singleton ts t ih =>
    rw [addAll_concat]
    have hcons : (∃ u ∈ ts ++ [t], p u ∧ f u = y) ↔ (∃ u ∈ ts, p u ∧ f u = y) ∨ (p t ∧ f t = y) := by
      constructor
      · rintro ⟨u, hu, hpu⟩
        rcases List.mem_append.mp hu with hu | hu
        · exact .inl ⟨u, hu, hpu⟩
        · exact .inr (List.mem_singleton.mp hu ▸ hpu)
      · rintro (⟨u, hu, hpu⟩ | hpt)
        · exact ⟨u, List.mem_append_left _ hu, hpu⟩
        · exact ⟨t, List.mem_append_right _ List.mem_cons_self, hpt⟩
    rw [hcons, ← or_assoc, ← ih]
    split
    case isTrue hp =>
      rw [mem_addToSet]
      exact or_congr_right ⟨fun heq => ⟨hp, heq.symm⟩, fun heq => heq.2.symm⟩
    case isFalse hp => exact ⟨.inl, fun hor => hor.elim id fun hpt => absurd hpt.1 hp⟩

/-- Nothing is added twice. -/
lemma nodup_addAll {xs : List Nat} (h : xs.Nodup) (ts : List α) : (addAll p f xs ts).Nodup := by
  induction ts using List.reverseRecOn with
  | nil => exact h
  | append_singleton ts t ih =>
    rw [addAll_concat]
    split
    case isTrue => exact nodup_addToSet ih _
    case isFalse => exact ih

/-- Values that are there are not added. -/
lemma addAll_of_mem {xs : List Nat} {ts : List α} (h : ∀ t ∈ ts, p t → f t ∈ xs) :
    addAll p f xs ts = xs := by
  induction ts using List.reverseRecOn with
  | nil => rfl
  | append_singleton ts t ih =>
    rw [addAll_concat, ih fun u hu => h u (List.mem_append_left _ hu)]
    split
    case isTrue hp => exact addToSet_of_mem (h t (List.mem_append_right _ List.mem_cons_self) hp)
    case isFalse => rfl

end Lists

/-! ## What the creator adds -/

namespace RollupCreator

variable {E : WorldStateEnv} {feePaying : Nat → Bool}

/-- The creator adds the bridge call of a defi deposit, and the asset of a fee. -/
lemma insertTx_lists (rollupId : Nat) (l : Loop) (tx : PendingTx) :
    (insertTx E feePaying rollupId l tx).rootRollupBridgeCallDatas =
      (if tx.proofData.proofId = .DEFI_DEPOSIT
        then addToSet l.rootRollupBridgeCallDatas tx.bridgeCallData
        else l.rootRollupBridgeCallDatas) ∧
    (insertTx E feePaying rollupId l tx).rootRollupAssetIds =
      (if tx.proofData.proofId ≠ .ACCOUNT ∧ feePaying tx.feeAssetId
        then addToSet l.rootRollupAssetIds tx.feeAssetId else l.rootRollupAssetIds) := by
  have hasset : (addAsset feePaying l tx).rootRollupBridgeCallDatas = l.rootRollupBridgeCallDatas ∧
      (addAsset feePaying l tx).rootRollupAssetIds =
        if tx.proofData.proofId ≠ .ACCOUNT ∧ feePaying tx.feeAssetId
        then addToSet l.rootRollupAssetIds tx.feeAssetId else l.rootRollupAssetIds := by
    unfold addAsset
    split
    case isTrue => exact ⟨rfl, rfl⟩
    case isFalse => exact ⟨rfl, rfl⟩
  have hnotes (l : Loop) : (insertNotes E rollupId l tx).rootRollupBridgeCallDatas =
      (if tx.proofData.proofId = .DEFI_DEPOSIT
        then addToSet l.rootRollupBridgeCallDatas tx.bridgeCallData
        else l.rootRollupBridgeCallDatas) ∧
      (insertNotes E rollupId l tx).rootRollupAssetIds = l.rootRollupAssetIds := by
    unfold insertNotes
    dsimp only
    split
    case isTrue => exact ⟨rfl, rfl⟩
    case isFalse heq =>
      refine ⟨?_, rfl⟩
      rw [if_pos (not_not.mp heq)]
      dsimp only
      -- the index is past the end where the call is new
      by_cases hmem : tx.bridgeCallData ∈ l.rootRollupBridgeCallDatas
      · rw [addToSet_of_mem hmem, if_neg]
        have hlt : l.rootRollupBridgeCallDatas.findIdx (· == tx.bridgeCallData) <
            l.rootRollupBridgeCallDatas.length :=
          List.findIdx_lt_length_of_exists ⟨tx.bridgeCallData, hmem, beq_self_eq_true _⟩
        exact Nat.ne_of_lt hlt
      · rw [addToSet_of_notMem hmem, if_pos]
        refine List.findIdx_eq_length_of_false fun b hb => ?_
        exact beq_eq_false_iff_ne.mpr fun heq => hmem (heq ▸ hb)
  exact ⟨(hnotes _).1.trans (by rw [hasset.1]), (hnotes _).2.trans hasset.2⟩

/-- The lists of a rollup gain the bridge calls and fee assets of its transactions. -/
lemma insertTxs_lists (rollupId : Nat) (txs : List PendingTx) (l : Loop) :
    (txs.foldl (insertTx E feePaying rollupId) l).rootRollupBridgeCallDatas =
      addAll (·.proofData.proofId = .DEFI_DEPOSIT) PendingTx.bridgeCallData
        l.rootRollupBridgeCallDatas txs ∧
    (txs.foldl (insertTx E feePaying rollupId) l).rootRollupAssetIds =
      addAll (fun tx => tx.proofData.proofId ≠ .ACCOUNT ∧ feePaying tx.feeAssetId)
        PendingTx.feeAssetId l.rootRollupAssetIds txs := by
  induction txs using List.reverseRecOn with
  | nil => exact ⟨rfl, rfl⟩
  | append_singleton txs tx ih =>
    rw [List.foldl_concat, addAll_concat, addAll_concat, ← ih.1, ← ih.2]
    exact insertTx_lists rollupId _ tx

/-- So they do when an inner rollup is created. -/
lemma createRollup_lists (c : Config) (rollupId : Nat) (db : WorldStateDb) (txs : List PendingTx)
    (bridgeCallDatas assetIds : List Nat) (firstInner : Bool) :
    (createRollup E feePaying c rollupId db txs bridgeCallDatas assetIds
        firstInner).2.rootRollupBridgeCallDatas =
      addAll (·.proofData.proofId = .DEFI_DEPOSIT) PendingTx.bridgeCallData bridgeCallDatas txs ∧
    (createRollup E feePaying c rollupId db txs bridgeCallDatas assetIds
        firstInner).2.rootRollupAssetIds =
      addAll (fun tx => tx.proofData.proofId ≠ .ACCOUNT ∧ feePaying tx.feeAssetId)
        PendingTx.feeAssetId assetIds txs := by
  have hloop := @insertTxs_lists E feePaying rollupId txs
    ⟨db, dataStartIndex c (db.getSize .DATA) firstInner, [], bridgeCallDatas, assetIds, []⟩
  unfold createRollup
  dsimp only
  split
  case isTrue => exact hloop
  case isFalse => exact hloop

end RollupCreator

/-- The chunks are the transactions in their order. -/
lemma flatten_chunkTxs {n fuel : Nat} (hn : 0 < n) {txs : List PendingTx} (hfuel : txs.length ≤ fuel) :
    (chunkTxs n fuel txs).flatten = txs := by
  induction fuel generalizing txs with
  | zero =>
    rw [List.length_eq_zero_iff.mp (Nat.le_zero.mp hfuel)]
    rfl
  | succ fuel ih =>
    cases txs with
    | nil => rfl
    | cons tx txs =>
      have hle : ((tx :: txs).drop n).length ≤ fuel := by
        rw [List.length_drop]
        omega
      rw [chunkTxs, List.flatten_cons, ih hle, List.take_append_drop]

namespace RollupCoordinator

variable {c : RollupCoordinator}

/-- All inner rollups gain what their transactions have. -/
lemma createRollups_eq (E : WorldStateEnv) (rollupId : Nat) (chunkedTx : List (List PendingTx))
    (db : WorldStateDb) (lists : List Nat × List Nat) (firstInner : Bool) :
    c.createRollups E rollupId chunkedTx db lists firstInner =
      (addAll (·.proofData.proofId = .DEFI_DEPOSIT) PendingTx.bridgeCallData lists.1
          chunkedTx.flatten,
        addAll (fun tx => tx.proofData.proofId ≠ .ACCOUNT ∧
            c.feeResolver.isFeePayingAsset tx.feeAssetId) PendingTx.feeAssetId lists.2
          chunkedTx.flatten) := by
  induction chunkedTx generalizing db lists firstInner with
  | nil => rfl
  | cons txs chunkedTx ih =>
    obtain ⟨hbridges, hassets⟩ := @RollupCreator.createRollup_lists E
      c.feeResolver.isFeePayingAsset ⟨c.numInnerRollupTxs, c.numOuterRollupProofs⟩
      rollupId db txs lists.1 lists.2 firstInner
    rw [createRollups, ih, hbridges, hassets, List.flatten_cons]
    simp only [addAll, List.foldl_append]

/-! ## The resources of some transactions -/

variable (c) in
/-- The assets that pay fees, or could. -/
def feeAssets (txs : List RollupTx) : Finset Nat :=
  ((txs.filter fun t => t.tx.txType ≠ .ACCOUNT ∧ c.feeResolver.isFeePayingAsset t.tx.feeAssetId).map
    (·.tx.feeAssetId)).toFinset

/-- A fee asset is one in which a transaction that is no account pays. -/
lemma mem_feeAssets {txs : List RollupTx} {a : Nat} : a ∈ c.feeAssets txs ↔
    ∃ t ∈ txs, (t.tx.txType ≠ .ACCOUNT ∧ c.feeResolver.isFeePayingAsset t.tx.feeAssetId) ∧
      t.tx.feeAssetId = a := by
  simp [feeAssets, and_assoc]

/-- The bridge calls and assets counted are those of the transactions. -/
lemma resourcesOf_lists (txs : List RollupTx) :
    (c.resourcesOf txs).bridgeCallDatas =
      addAll (·.tx.txType = .DEFI_DEPOSIT) (·.tx.bridgeCallData) [] txs ∧
    (c.resourcesOf txs).assetIds =
      addAll (fun t => c.CountsAsset t.tx) (·.tx.feeAssetId) [] txs := by
  induction txs using List.reverseRecOn with
  | nil => exact ⟨rfl, rfl⟩
  | append_singleton txs t ih =>
    rw [resourcesOf_concat, addAll_concat, addAll_concat, ← ih.1, ← ih.2]
    exact ⟨rfl, rfl⟩

/-- A bridge call that is counted is one of a deposit. -/
lemma mem_bridgeCallDatas {txs : List RollupTx} {b : Nat} :
    b ∈ (c.resourcesOf txs).bridgeCallDatas ↔
      ∃ t ∈ txs, t.tx.txType = .DEFI_DEPOSIT ∧ t.tx.bridgeCallData = b := by
  rw [(resourcesOf_lists txs).1, mem_addAll]
  exact or_iff_right List.not_mem_nil

/-- An asset that is counted is a fee asset. -/
lemma mem_assetIds {txs : List RollupTx} {a : Nat} (h : a ∈ (c.resourcesOf txs).assetIds) :
    a ∈ c.feeAssets txs := by
  rw [(resourcesOf_lists txs).2, mem_addAll] at h
  obtain ⟨t, ht, hcounts, heq⟩ := h.resolve_left List.not_mem_nil
  exact mem_feeAssets.mpr ⟨t, ht, ⟨hcounts.1, hcounts.2.1⟩, heq⟩

/-- The type of a transaction is that of its proof. -/
def Typed (E : Env) (tx : PendingTx) : Prop :=
  tx.txType = TxReceiver.getTxTypeFromProofData E tx.proofData

/-- The type of a deposit to a bridge is that of its proof. -/
lemma Typed.defi_iff {E : Env} {tx : PendingTx} (h : Typed E tx) :
    tx.proofData.proofId = .DEFI_DEPOSIT ↔ tx.txType = .DEFI_DEPOSIT := by
  rw [h, TxReceiver.getTxTypeFromProofData]
  cases tx.proofData.proofId <;> simp <;> split <;> nofun

/-- So is the type of an account transaction. -/
lemma Typed.account_iff {E : Env} {tx : PendingTx} (h : Typed E tx) :
    tx.proofData.proofId = .ACCOUNT ↔ tx.txType = .ACCOUNT := by
  rw [h, TxReceiver.getTxTypeFromProofData]
  cases tx.proofData.proofId <;> simp <;> split <;> nofun

/-- The creator finds every bridge call in the list, and leaves the assets of all fees. -/
lemma Counts.createdLists {E : Env} {txs : List RollupTx} {r : RollupResources}
    (h : c.Counts (Typed E) txs r)
    (hslots : c.numInnerRollupTxs = 0 → txs = []) (W : WorldStateEnv) (rollupId : Nat)
    (db : WorldStateDb) :
    (c.createdLists W rollupId db txs r).1 = r.bridgeCallDatas ∧
      (c.createdLists W rollupId db txs r).2.length = (c.feeAssets txs).card := by
  have hflatten : (chunkTxs c.numInnerRollupTxs txs.length (txs.map RollupTx.tx)).flatten =
      txs.map RollupTx.tx := by
    rcases Nat.eq_zero_or_pos c.numInnerRollupTxs with hzero | hpos
    · rw [hslots hzero]
      rfl
    · exact flatten_chunkTxs hpos (List.length_map _).le
  rw [RollupCoordinator.createdLists, createRollups_eq, hflatten]
  constructor
  · refine addAll_of_mem fun tx htx hdefi => ?_
    obtain ⟨t, ht, rfl⟩ := List.mem_map.mp htx
    rw [h.resources]
    exact mem_bridgeCallDatas.mpr ⟨t, ht, (h.formed t ht).pending.defi_iff.mp hdefi, rfl⟩
  · have hnodup : (addAll (fun tx : PendingTx => tx.proofData.proofId ≠ .ACCOUNT ∧
        c.feeResolver.isFeePayingAsset tx.feeAssetId) PendingTx.feeAssetId r.assetIds
        (txs.map RollupTx.tx)).Nodup := nodup_addAll h.nodup.1 _
    rw [← List.toFinset_card_of_nodup hnodup]
    congr 1
    ext a
    rw [List.mem_toFinset, mem_addAll, mem_feeAssets]
    constructor
    · rintro (hmem | ⟨tx, htx, ⟨hacc, hpaying⟩, heq⟩)
      · rw [h.resources] at hmem
        exact mem_feeAssets.mp (mem_assetIds hmem)
      · obtain ⟨t, ht, rfl⟩ := List.mem_map.mp htx
        exact ⟨t, ht, ⟨(h.formed t ht).pending.account_iff.not.mp hacc, hpaying⟩, heq⟩
    · rintro ⟨t, ht, ⟨hacc, hpaying⟩, heq⟩
      exact .inr ⟨t.tx, List.mem_map_of_mem ht,
        ⟨(h.formed t ht).pending.account_iff.not.mpr hacc, hpaying⟩, heq⟩

end RollupCoordinator

/-! ## The profile -/

namespace RollupProfile

variable {R : FeeResolver} {getClaimedSubsidy : Nat → Int}

/-- The bridge calls of the profile. -/
def bridges (p : RollupProfile) : List Nat := p.bridgeProfiles.map (·.bridgeCallData)

/-- The first transaction of a bridge adds its gas. -/
lemma addBridge_spec (p : RollupProfile) (b : Nat) :
    (p.addBridge R getClaimedSubsidy b).totalGas =
      p.totalGas + (if b ∉ p.bridges then (R.getFullBridgeGasFromContract b : Int) else 0) ∧
    (p.addBridge R getClaimedSubsidy b).totalCallData = p.totalCallData ∧
    (p.addBridge R getClaimedSubsidy b).bridges = addToSet p.bridges b := by
  have hany : p.bridgeProfiles.any (·.bridgeCallData == b) = true ↔ b ∈ p.bridges := by
    rw [List.any_eq_true, bridges, List.mem_map]
    exact exists_congr fun _ => and_congr_right fun _ => beq_iff_eq
  unfold addBridge
  split
  case isTrue hmem =>
    rw [hany] at hmem
    rw [if_neg (not_not.mpr hmem), Int.add_zero, addToSet_of_mem hmem]
    exact ⟨rfl, rfl, rfl⟩
  case isFalse hmem =>
    rw [hany] at hmem
    rw [if_pos hmem, addToSet_of_notMem hmem]
    exact ⟨rfl, rfl, List.map_append⟩

/-- A transaction of a bridge. -/
lemma addBridgeTx_spec (p : RollupProfile) (b : Nat) (excessGas : Int) :
    ((p.addBridge R getClaimedSubsidy b).addBridgeTx R b excessGas).totalGas =
      p.totalGas + (if b ∉ p.bridges then (R.getFullBridgeGasFromContract b : Int) else 0) ∧
    ((p.addBridge R getClaimedSubsidy b).addBridgeTx R b excessGas).totalCallData =
      p.totalCallData ∧
    ((p.addBridge R getClaimedSubsidy b).addBridgeTx R b excessGas).bridges =
      addToSet p.bridges b := by
  obtain ⟨hgas, hcallData, hbridges⟩ := @addBridge_spec R getClaimedSubsidy p b
  refine ⟨hgas, hcallData, Eq.trans ?_ hbridges⟩
  rw [bridges, bridges, addBridgeTx, List.map_map]
  refine List.map_congr_left fun profile _ => ?_
  rw [Function.comp_apply]
  split
  case isTrue => rfl
  case isFalse => rfl

/-- The gas, the call data and the bridges after a transaction. A deposit to the bridge `0` counts as
one to no bridge. -/
lemma addTx_spec {P : PendingTx → Prop} {t : RollupTx} (ht : RollupCoordinator.Formed P t) (p : RollupProfile) :
    (p.addTx R getClaimedSubsidy t).totalGas = p.totalGas +
      R.getUnadjustedTxGas t.tx.feeAssetId t.tx.txType +
      (if t.tx.txType = .DEFI_DEPOSIT ∧ t.tx.bridgeCallData ≠ 0 ∧ t.tx.bridgeCallData ∉ p.bridges
        then (R.getFullBridgeGasFromContract t.tx.bridgeCallData : Int) else 0) ∧
    (p.addTx R getClaimedSubsidy t).totalCallData = p.totalCallData + getTxCallData t.tx.txType ∧
    (p.addTx R getClaimedSubsidy t).bridges =
      if t.tx.txType = .DEFI_DEPOSIT ∧ t.tx.bridgeCallData ≠ 0
      then addToSet p.bridges t.tx.bridgeCallData else p.bridges := by
  by_cases hdefi : t.tx.txType = .DEFI_DEPOSIT
  case neg =>
    rw [addTx, if_pos hdefi, if_neg fun h => hdefi h.1, if_neg fun h => hdefi h.1, Int.add_zero]
    exact ⟨rfl, rfl, rfl⟩
  case pos =>
    rw [addTx, if_neg (not_not.mpr hdefi), ht.bridge hdefi]
    generalize t.tx.bridgeCallData = bridge
    cases bridge with
    | zero =>
      rw [if_neg fun h => h.2.1 rfl, if_neg fun h => h.2 rfl, Int.add_zero]
      exact ⟨rfl, rfl, rfl⟩
    | succ b =>
      obtain ⟨hgas, hcallData, hbridges⟩ := @addBridgeTx_spec R getClaimedSubsidy
        { p with
          totalGas := p.totalGas + R.getUnadjustedTxGas t.tx.feeAssetId t.tx.txType
          totalCallData := p.totalCallData + getTxCallData t.tx.txType
          gasBalance := p.gasBalance + (R.getAdjustedTxGas t.tx.feeAssetId t.tx.txType -
            R.getUnadjustedTxGas t.tx.feeAssetId t.tx.txType) } (b + 1) t.excessGas
      refine ⟨hgas.trans (congrArg _ ?_), hcallData, hbridges.trans ?_⟩
      · exact if_congr ⟨fun hnot => ⟨hdefi, Nat.succ_ne_zero b, hnot⟩, fun h => h.2.2⟩ rfl rfl
      · exact (if_pos ⟨hdefi, Nat.succ_ne_zero b⟩).symm

end RollupProfile

namespace RollupCoordinator

variable {c : RollupCoordinator} {R : FeeResolver} {getClaimedSubsidy : Nat → Int}
  {P : PendingTx → Prop} {E : Env} {txs : List RollupTx}

/-- The gas of the bridge `0`, where the coordinator counts it. -/
def unprofiledGas (R : FeeResolver) (r : RollupResources) : Int :=
  if 0 ∈ r.bridgeCallDatas then R.getFullBridgeGasFromContract 0 else 0

/-- The gas of a bridge is profiled, or it is that of the bridge `0`. -/
lemma bridgeGas_countTx (R : FeeResolver) (r : RollupResources) (t : RollupTx) :
    (if t.tx.txType = .DEFI_DEPOSIT ∧ t.tx.bridgeCallData ≠ 0 ∧
        ¬ (t.tx.bridgeCallData ≠ 0 ∧ t.tx.bridgeCallData ∈ r.bridgeCallDatas)
      then (R.getFullBridgeGasFromContract t.tx.bridgeCallData : Int) else 0) +
        unprofiledGas R (c.countTx r t) =
      unprofiledGas R r +
        if t.tx.txType = .DEFI_DEPOSIT ∧ t.tx.bridgeCallData ∉ r.bridgeCallDatas
        then (R.getFullBridgeGasFromContract t.tx.bridgeCallData : Int) else 0 := by
  by_cases hdefi : t.tx.txType = .DEFI_DEPOSIT
  case neg =>
    have hsame : (c.countTx r t).bridgeCallDatas = r.bridgeCallDatas := if_neg hdefi
    rw [unprofiledGas, hsame, ← unprofiledGas]
    simp only [hdefi, false_and, if_false, Int.zero_add, Int.add_zero]
  case pos =>
    have hadded : (c.countTx r t).bridgeCallDatas = addToSet r.bridgeCallDatas t.tx.bridgeCallData :=
      if_pos hdefi
    rw [unprofiledGas, unprofiledGas, hadded]
    by_cases hzero : t.tx.bridgeCallData = 0
    · rw [hzero]
      by_cases hmem : 0 ∈ r.bridgeCallDatas <;> simp [hdefi, hmem]
    · have hne : 0 ≠ t.tx.bridgeCallData := Ne.symm hzero
      by_cases hmem : t.tx.bridgeCallData ∈ r.bridgeCallDatas <;>
        simp [hdefi, hzero, hne, hmem, Int.add_comm]

/-- The loop of the profiler counts what the coordinator counts, but for empty slots and the bridge
`0`. -/
lemma addTxs_spec (hc : c.feeResolver = R.toTxFeeResolver) (p₀ : RollupProfile)
    (hgas₀ : p₀.totalGas = 0) (hcallData₀ : p₀.totalCallData = 0) (hbridges₀ : p₀.bridgeProfiles = [])
    (hformed : ∀ t ∈ txs, Formed P t) :
    ((txs.foldl (RollupProfile.addTx R getClaimedSubsidy) p₀).totalGas +
        ((c.totalSlots : Int) - txs.length) * R.getUnadjustedBaseVerificationGas +
        unprofiledGas R (c.resourcesOf txs) = (c.resourcesOf txs).gasUsed) ∧
    (txs.foldl (RollupProfile.addTx R getClaimedSubsidy) p₀).totalCallData =
      (c.resourcesOf txs).callDataUsed ∧
    ∀ b, b ∈ (txs.foldl (RollupProfile.addTx R getClaimedSubsidy) p₀).bridges ↔
      b ≠ 0 ∧ b ∈ (c.resourcesOf txs).bridgeCallDatas := by
  induction txs using List.reverseRecOn with
  | nil =>
    refine ⟨?_, hcallData₀, fun b => ?_⟩
    · show p₀.totalGas + ((c.totalSlots : Int) - 0) * _ + 0 = c.totalSlots * _
      rw [hgas₀, hc]
      simp [FeeResolver.toTxFeeResolver]
    · show b ∈ p₀.bridgeProfiles.map _ ↔ _ ∧ b ∈ []
      rw [hbridges₀]
      simp
  | append_singleton txs t ih =>
    obtain ⟨hgas, hcallData, hbridges⟩ := ih fun u hu => hformed u (List.mem_append_left _ hu)
    have ht := hformed t (List.mem_append_right _ List.mem_cons_self)
    obtain ⟨hgas', hcallData', hbridges'⟩ := @RollupProfile.addTx_spec R getClaimedSubsidy _ _ ht
      (txs.foldl (RollupProfile.addTx R getClaimedSubsidy) p₀)
    rw [List.foldl_concat, resourcesOf_concat]
    refine ⟨?_, ?_, fun b => ?_⟩
    · have hslots : ((c.totalSlots : Int) - (txs ++ [t]).length) * R.getUnadjustedBaseVerificationGas =
          ((c.totalSlots : Int) - txs.length) * R.getUnadjustedBaseVerificationGas -
            R.getUnadjustedBaseVerificationGas := by
        rw [List.length_append, List.length_singleton, Int.natCast_add, ← Int.sub_sub, Int.sub_mul]
        exact congrArg _ (Int.one_mul _)
      have hcount : (c.countTx (c.resourcesOf txs) t).gasUsed = (c.resourcesOf txs).gasUsed +
          (R.getUnadjustedTxGas t.tx.feeAssetId t.tx.txType - R.getUnadjustedBaseVerificationGas) +
          (if t.tx.txType = .DEFI_DEPOSIT ∧ t.tx.bridgeCallData ∉ (c.resourcesOf txs).bridgeCallDatas
            then (R.getFullBridgeGasFromContract t.tx.bridgeCallData : Int) else 0) := by
        rw [countTx, hc]
        rfl
      have hbridge := bridgeGas_countTx (c := c) R (c.resourcesOf txs) t
      simp only [hbridges] at hgas'
      rw [hgas', hslots, hcount]
      omega
    · rw [hcallData', hcallData]
      show _ = (c.resourcesOf txs).callDataUsed + _
      rw [hc]
      rfl
    · rw [hbridges']
      show _ ↔ _ ∧ b ∈ if _ then addToSet _ _ else _
      by_cases hdefi : t.tx.txType = .DEFI_DEPOSIT
      · rw [if_pos hdefi, mem_addToSet]
        by_cases hzero : t.tx.bridgeCallData = 0
        · rw [if_neg fun h => h.2 hzero, hbridges, hzero]
          exact and_congr_right fun hne => (or_iff_left hne).symm
        · rw [if_pos ⟨hdefi, hzero⟩, mem_addToSet, hbridges, and_or_left]
          exact or_congr_right ⟨fun heq => ⟨heq ▸ hzero, heq⟩, And.right⟩
      · rw [if_neg fun h => hdefi h.1, if_neg hdefi]
        exact hbridges b

/-- The profile counts the gas and call data that the coordinator counted. -/
lemma totalGas_profileRollup (hc : c.feeResolver = R.toTxFeeResolver) {r : RollupResources}
    (h : c.Counts P txs r) :
    (profileRollup R getClaimedSubsidy c.totalSlots txs).totalGas + unprofiledGas R r = r.gasUsed ∧
      (profileRollup R getClaimedSubsidy c.totalSlots txs).totalCallData = r.callDataUsed := by
  obtain ⟨hgas, hcallData, -⟩ := @addTxs_spec _ _ getClaimedSubsidy _ _ hc
    ⟨c.totalSlots, txs.length, 0, 0, 0, []⟩ rfl rfl rfl h.formed
  rw [h.resources]
  exact ⟨hgas, hcallData⟩

/-! ## Within the limits -/

variable (c R getClaimedSubsidy)

/-- The resources of a rollup are within the limits, they are those of its transactions and of its
profile, and the creator leaves them within the limits. -/
structure WithinLimits (W : WorldStateEnv) (rollupId : Nat) (db : WorldStateDb) (txs : List RollupTx)
    (r : RollupResources) : Prop where
  gasUsed : txs ≠ [] → r.gasUsed ≤ c.maxGasForRollup
  callDataUsed : txs ≠ [] → r.callDataUsed ≤ c.maxCallDataForRollup
  assetIds : r.assetIds.length ≤ NUMBER_OF_ASSETS
  bridgeCallDatas : r.bridgeCallDatas.length ≤ NUM_BRIDGE_CALLS_PER_BLOCK
  nodup : r.bridgeCallDatas.Nodup
  listed : ∀ b, b ∈ r.bridgeCallDatas ↔
    ∃ t ∈ txs, t.tx.txType = .DEFI_DEPOSIT ∧ t.tx.bridgeCallData = b
  totalGas : (profileRollup R getClaimedSubsidy c.totalSlots txs).totalGas = r.gasUsed
  totalCallData : (profileRollup R getClaimedSubsidy c.totalSlots txs).totalCallData = r.callDataUsed
  createdBridgeCallDatas :
    (c.createdLists W rollupId db txs r).1.length ≤ NUM_BRIDGE_CALLS_PER_BLOCK
  createdAssetIds : (c.createdLists W rollupId db txs r).2.length ≤ NUMBER_OF_ASSETS

/-- The transactions, the ones with a zero fee included, are in few enough assets that pay fees, and
the bridge `0` takes no gas where it is called. -/
structure FewAssets (txs : List RollupTx) : Prop where
  bridge : (∃ t ∈ txs, t.tx.txType = .DEFI_DEPOSIT ∧ t.tx.bridgeCallData = 0) →
    R.getFullBridgeGasFromContract 0 = 0
  assets : (c.feeAssets txs).card ≤ NUMBER_OF_ASSETS

variable {c R getClaimedSubsidy}

/-- Counted transactions are within the limits exactly when their assets are few enough. -/
lemma Counts.within_iff (hc : c.feeResolver = R.toTxFeeResolver) {r : RollupResources}
    (h : c.Counts (Typed E) txs r) (hslots : c.numInnerRollupTxs = 0 → txs = []) (W : WorldStateEnv)
    (rollupId : Nat) (db : WorldStateDb) :
    c.WithinLimits R getClaimedSubsidy W rollupId db txs r ↔ c.FewAssets R txs := by
  obtain ⟨hgas, hcallData⟩ := @totalGas_profileRollup _ _ getClaimedSubsidy _ _ hc _ h
  obtain ⟨hbridges, hassets⟩ := h.createdLists hslots W rollupId db
  have hlisted (b : Nat) : b ∈ r.bridgeCallDatas ↔
      ∃ t ∈ txs, t.tx.txType = .DEFI_DEPOSIT ∧ t.tx.bridgeCallData = b := by
    rw [h.resources]
    exact mem_bridgeCallDatas
  constructor
  case mp =>
    intro hwithin
    refine ⟨fun hzero => ?_, hassets ▸ hwithin.createdAssetIds⟩
    have hunprofiled : unprofiledGas R r = R.getFullBridgeGasFromContract 0 :=
      if_pos ((hlisted 0).mpr hzero)
    have htotal := hwithin.totalGas
    omega
  case mpr =>
    intro hfew
    have hunprofiled : unprofiledGas R r = 0 := by
      rw [unprofiledGas]
      split
      case isTrue hmem => exact Int.natCast_eq_zero.mpr (hfew.bridge ((hlisted 0).mp hmem))
      case isFalse => rfl
    exact {
      gasUsed := h.gas
      callDataUsed := h.callData
      assetIds := h.assets
      bridgeCallDatas := h.bridges
      nodup := h.nodup.2
      listed := hlisted
      totalGas := by omega
      totalCallData := hcallData
      createdBridgeCallDatas := hbridges ▸ h.bridges
      createdAssetIds := hassets ▸ hfew.assets }

/-- The second class is account transactions. -/
lemma account_of_mem_addSecondClass (txsToRollup : List RollupTx) (pendingTxs : List PendingTx)
    (secondClassTxs : List RollupTx) (r : RollupResources)
    (h : ∀ t ∈ secondClassTxs, t.tx.txType = .ACCOUNT) :
    ∀ t ∈ (c.addSecondClass txsToRollup pendingTxs secondClassTxs r).1, t.tx.txType = .ACCOUNT := by
  induction pendingTxs generalizing secondClassTxs r with
  | nil => exact h
  | cons tx pendingTxs ih =>
    rw [addSecondClass]
    split
    case isFalse => exact h
    case isTrue =>
      split
      case isFalse => exact ih _ _ h
      case isTrue hacc =>
        split
        case h_2 => exact ih _ _ h
        case h_1 => exact ih _ _ (List.forall_mem_append.mpr ⟨h, List.forall_mem_singleton.mpr hacc⟩)

/-- Account transactions are in no asset and call no bridge. -/
lemma fewAssets_append {others : List RollupTx} (h : ∀ t ∈ others, t.tx.txType = .ACCOUNT) :
    c.FewAssets R (txs ++ others) ↔ c.FewAssets R txs := by
  have hassets : c.feeAssets (txs ++ others) = c.feeAssets txs := by
    ext a
    rw [mem_feeAssets, mem_feeAssets]
    constructor
    · rintro ⟨t, ht, hpaying⟩
      rcases List.mem_append.mp ht with ht | ht
      · exact ⟨t, ht, hpaying⟩
      · exact absurd (h t ht) hpaying.1.1
    · exact fun ⟨t, ht, hpaying⟩ => ⟨t, List.mem_append_left _ ht, hpaying⟩
  constructor
  · exact fun hfew => ⟨fun ⟨t, ht, hzero⟩ => hfew.bridge ⟨t, List.mem_append_left _ ht, hzero⟩,
      hassets ▸ hfew.assets⟩
  · refine fun hfew => ⟨fun ⟨t, ht, hzero⟩ => ?_, hassets.symm ▸ hfew.assets⟩
    rcases List.mem_append.mp ht with ht | ht
    · exact hfew.bridge ⟨t, ht, hzero⟩
    · rw [h t ht] at hzero
      nomatch hzero.1

/-- Without slots nothing is selected. -/
lemma selectTxs_of_totalSlots (h : c.totalSlots = 0) (flush : Bool) (index : Nat)
    (rest : List PendingTx) (s : Selection) : c.selectTxs flush index rest s = s := by
  cases rest with
  | nil => rfl
  | cons tx rest => exact if_neg (h.symm ▸ Nat.not_lt_zero _)

/-- The second class adds accounts. -/
lemma processedTxs_eq (pendingTxs : List PendingTx) (flush : Bool)
    (pendingSecondClassTxs : List PendingTx) : ∃ others : List RollupTx,
    (c.processedTxs pendingTxs flush pendingSecondClassTxs).1 =
      (c.getNextTxsToRollup pendingTxs flush).txs ++ others ∧
    (∀ t ∈ others, t.tx.txType = .ACCOUNT) ∧ (c.totalSlots = 0 → others = []) := by
  unfold processedTxs
  dsimp only
  split
  case isTrue => exact ⟨[], (List.append_nil _).symm, nofun, fun _ => rfl⟩
  case isFalse =>
    refine ⟨_, rfl, account_of_mem_addSecondClass _ _ [] _ nofun, fun hzero => ?_⟩
    rw [hzero, Nat.zero_sub, List.take_zero]
    rfl

/-- The gas of an account transaction does not depend on an asset. -/
lemma getUnadjustedTxGas_account (hc : c.feeResolver = R.toTxFeeResolver) (a : Nat) :
    c.feeResolver.getUnadjustedTxGas a .ACCOUNT = c.feeResolver.getUnadjustedTxGas 0 .ACCOUNT := by
  rw [hc]
  show ((R.getUnadjustedTxGas a .ACCOUNT : Nat) : Int) = R.getUnadjustedTxGas 0 .ACCOUNT
  unfold FeeCalculator.getUnadjustedTxGas FeeCalculator.getGasOverheadForTxType
  cases R.assets[a]? <;> cases R.assets[0]? <;> rfl

variable (c R) in
/-- Every pending deposit to a bridge pays its fee, if its asset can pay fees, or the pending
transactions are in few enough assets; and there is no pending deposit to the bridge `0`, or this bridge
takes no gas. -/
structure PaysFees (pendingTxs : List PendingTx) : Prop where
  bridge : (∃ tx ∈ pendingTxs, tx.txType = .DEFI_DEPOSIT ∧ tx.bridgeCallData = 0) →
    R.getFullBridgeGasFromContract 0 = 0
  assets : (∀ tx ∈ pendingTxs, tx.txType = .DEFI_DEPOSIT →
      c.feeResolver.isFeePayingAsset tx.feeAssetId → tx.txFee ≠ 0) ∨
    (c.feeAssets (pendingTxs.map createRollupTx)).card ≤ NUMBER_OF_ASSETS

/-- Where every pending deposit to a bridge pays its fee, the coordinator counts every asset; otherwise
the selected transactions are in no more assets than the pending ones. -/
lemma fewAssets_of_pending (hc : c.feeResolver = R.toTxFeeResolver) {pendingTxs : List PendingTx}
    (flush : Bool) (hpays : c.PaysFees R pendingTxs) :
    c.FewAssets R (c.getNextTxsToRollup pendingTxs flush).txs := by
  have hcounts := @counts_getNextTxsToRollup c (· ∈ pendingTxs) (getUnadjustedTxGas_account hc) pendingTxs
    flush fun _ h => h
  refine ⟨fun ⟨t, ht, hdefi, hzero⟩ =>
    hpays.bridge ⟨t.tx, (hcounts.formed t ht).pending, hdefi, hzero⟩, ?_⟩
  rcases hpays.assets with hpaid | hfew
  · have hsub : c.feeAssets (c.getNextTxsToRollup pendingTxs flush).txs ⊆
        (c.getNextTxsToRollup pendingTxs flush).resourceConsumption.assetIds.toFinset := by
      intro a ha
      obtain ⟨t, ht, ⟨hacc, hpaying⟩, heq⟩ := mem_feeAssets.mp ha
      rw [List.mem_toFinset, hcounts.resources, (resourcesOf_lists _).2, mem_addAll]
      exact .inr ⟨t, ht, ⟨hacc, hpaying, fun hdefi =>
        hpaid t.tx (hcounts.formed t ht).pending hdefi hpaying⟩, heq⟩
    exact (Finset.card_le_card hsub).trans ((List.toFinset_card_le _).trans hcounts.assets)
  · have hsub : c.feeAssets (c.getNextTxsToRollup pendingTxs flush).txs ⊆
        c.feeAssets (pendingTxs.map createRollupTx) := by
      intro a ha
      obtain ⟨t, ht, hpaying, heq⟩ := mem_feeAssets.mp ha
      exact mem_feeAssets.mpr
        ⟨_, List.mem_map_of_mem (hcounts.formed t ht).pending, hpaying, heq⟩
    exact (Finset.card_le_card hsub).trans hfew

/-- The rollups that are selected from such a list, with and without the second class, are within the
limits, and stay within them when they are created. -/
theorem withinLimits_of_pending (hc : c.feeResolver = R.toTxFeeResolver)
    {pendingTxs pendingSecondClassTxs : List PendingTx} (flush : Bool)
    (htyped : ∀ tx ∈ pendingTxs, Typed E tx)
    (htyped' : ∀ tx ∈ pendingSecondClassTxs, Typed E tx) (hpays : c.PaysFees R pendingTxs)
    (W : WorldStateEnv) (rollupId : Nat) (db : WorldStateDb) :
    c.WithinLimits R getClaimedSubsidy W rollupId db (c.getNextTxsToRollup pendingTxs flush).txs
        (c.getNextTxsToRollup pendingTxs flush).resourceConsumption ∧
      c.WithinLimits R getClaimedSubsidy W rollupId db
        (c.processedTxs pendingTxs flush pendingSecondClassTxs).1
        (c.processedTxs pendingTxs flush pendingSecondClassTxs).2 := by
  obtain ⟨others, hothers, hacc, hnone⟩ := processedTxs_eq (c := c) pendingTxs flush
    pendingSecondClassTxs
  have hslots (h : c.numInnerRollupTxs = 0) : c.totalSlots = 0 := by
    rw [totalSlots, h, Nat.mul_zero]
  have hselected (h : c.numInnerRollupTxs = 0) : (c.getNextTxsToRollup pendingTxs flush).txs = [] :=
    congrArg Selection.txs (selectTxs_of_totalSlots (hslots h) flush 0 _ _)
  have hfew := fewAssets_of_pending hc flush hpays
  constructor
  · exact ((counts_getNextTxsToRollup (getUnadjustedTxGas_account hc) flush htyped).within_iff hc
      hselected W rollupId db).mpr hfew
  · refine ((counts_processedTxs (getUnadjustedTxGas_account hc) flush htyped htyped').within_iff hc
      (fun h => ?_) W rollupId db).mpr ?_
    · rw [hothers, hselected h, hnone (hslots h)]
      rfl
    · rw [hothers, fewAssets_append hacc]
      exact hfew

namespace ZeroFee

/-- The calculator of the sample, with 17 assets. -/
def calculator : FeeCalculator where
  priceTracker := ⟨[⟨1, fun _ => 1⟩]⟩
  assets := List.replicate 17 ⟨18, 30000⟩
  assets_ne_nil := List.cons_ne_nil _ _
  verificationGas := 500000
  feeGasPriceMultiplier := 10 ^ 8
  txsPerRollup := 18
  callDataPerRollup := 128 * 1024
  gasPerRollup := 12000000

/-- Only ETH has a gas limit of its own. -/
lemma calculator_fits (assetId : Nat) (txType : TxType) :
    0 < calculator.getNumAdjustedTxsPerRollup assetId txType := by
  have hoverhead : calculator.getGasOverheadForTxType assetId txType =
        calculator.getGasOverheadForTxType 0 txType ∨
      calculator.getGasOverheadForTxType assetId txType =
        calculator.getGasOverheadForTxType 1 txType := by
    unfold FeeCalculator.getGasOverheadForTxType
    rw [show calculator.assets[assetId]? = _ from List.getElem?_replicate]
    cases assetId with
    | zero => exact .inl rfl
    | succ n =>
      split_ifs
      · exact .inr (by cases txType <;> rfl)
      · exact .inl rfl
  rcases hoverhead with h | h <;>
    rw [FeeCalculator.getNumAdjustedTxsPerRollup, h] <;> cases txType <;> decide +kernel

/-- Seventeen assets pay fees. -/
def resolver : FeeResolver where
  toFeeCalculator := calculator
  feePayingAssetIds := List.range 17
  getFullBridgeGas _ := 100000
  getFullBridgeGasFromContract _ := 100000
  numBridgeTxs _ := 10
  numBridgeTxs_pos _ := by decide
  fits := calculator_fits

/-- The coordinator of the sample. -/
def coordinator : RollupCoordinator where
  numInnerRollupTxs := 9
  numOuterRollupProofs := 2
  feeResolver := resolver.toTxFeeResolver
  maxGasForRollup := 12000000
  maxCallDataForRollup := 128 * 1024
  getBridgeSubsidy _ _ := 0
  shouldPublish _ := true
  outOfResources _ := false

/-- No withdrawal goes to a contract. -/
def env : Env := ⟨fun _ => 0, fun _ => true, fun _ => false⟩

/-- The hashes of the sample. -/
def worldStateEnv : WorldStateEnv where
  getRoot _ _ := 0
  claimNoteCompletePartialCommitment _ _ _ := 0
  claimNoteNullifier _ := 0
  defiInteractionNoteCommitment _ := 0
  offchainDefiDepositData _ := none

/-- Empty trees. -/
def db : WorldStateDb := ⟨Trees.empty worldStateEnv, Trees.empty worldStateEnv⟩

/-- A transfer that pays in an asset. -/
def transfer (feeAssetId : Nat) : PendingTx where
  id := feeAssetId
  txType := .TRANSFER
  excessGas := 0
  proofData := { (default : ProofData) with proofId := .SEND }
  txFee := 30000
  feeAssetId := feeAssetId
  bridgeCallData := 0

/-- A deposit without a fee, in the last of the assets. -/
def deposit : PendingTx where
  id := 16
  txType := .DEFI_DEPOSIT
  excessGas := 0
  proofData := { (default : ProofData) with proofId := .DEFI_DEPOSIT }
  txFee := 0
  feeAssetId := 16
  bridgeCallData := 1

/-- The deposit and the transfers in the other assets. -/
def pendingTxs : List PendingTx := deposit :: (List.range 16).map transfer

/-- The deposit pays its fee; the transfers are in all assets. -/
def paidTxs : List PendingTx := { deposit with txFee := 30000 } :: (List.range 17).map transfer

/-- Transfers are typed, and so is a deposit before them. -/
lemma typed_of_deposit (tx : PendingTx) (htx : Typed env tx) (n : Nat) :
    ∀ tx' ∈ tx :: (List.range n).map transfer, Typed env tx' := by
  refine List.forall_mem_cons.mpr ⟨htx, fun tx htx => ?_⟩
  obtain ⟨a, -, rfl⟩ := List.mem_map.mp htx
  rfl

/-- The types are those of the proofs. -/
lemma typed_pendingTxs : ∀ tx ∈ pendingTxs, Typed env tx := typed_of_deposit deposit rfl 16

/-- Those of the others too. -/
lemma typed_paidTxs : ∀ tx ∈ paidTxs, Typed env tx :=
  typed_of_deposit { deposit with txFee := 30000 } rfl 17

/-- They pay in fee assets. -/
lemma paidTxs_paysFees : coordinator.PaysFees resolver paidTxs where
  bridge := by decide
  assets := .inl (by decide)

end ZeroFee

/-- All of eighteen pending transactions pay their fees, in seventeen assets; the one in the last asset to
be met is left out. -/
theorem withinLimits_of_pending_sample :
    (ZeroFee.coordinator.getNextTxsToRollup ZeroFee.paidTxs true).txs.length = 17 ∧
    ZeroFee.coordinator.WithinLimits ZeroFee.resolver (fun _ => 0) ZeroFee.worldStateEnv 0 ZeroFee.db
        (ZeroFee.coordinator.getNextTxsToRollup ZeroFee.paidTxs true).txs
        (ZeroFee.coordinator.getNextTxsToRollup ZeroFee.paidTxs true).resourceConsumption ∧
      ZeroFee.coordinator.WithinLimits ZeroFee.resolver (fun _ => 0) ZeroFee.worldStateEnv 0
        ZeroFee.db
        (ZeroFee.coordinator.processedTxs ZeroFee.paidTxs true []).1
        (ZeroFee.coordinator.processedTxs ZeroFee.paidTxs true []).2 :=
  ⟨by decide +kernel, withinLimits_of_pending rfl true ZeroFee.typed_paidTxs
    (List.forall_mem_nil _) ZeroFee.paidTxs_paysFees ZeroFee.worldStateEnv 0 ZeroFee.db⟩

/-- The deposit is selected before sixteen other assets are. -/
theorem not_withinLimits : ¬ ∀ (c : RollupCoordinator) (R : FeeResolver) (E : Env)
    (pendingTxs : List PendingTx) (flush : Bool) (W : WorldStateEnv) (rollupId : Nat)
    (db : WorldStateDb), c.feeResolver = R.toTxFeeResolver → (∀ tx ∈ pendingTxs, Typed E tx) →
    c.WithinLimits R (fun _ => 0) W rollupId db (c.getNextTxsToRollup pendingTxs flush).txs
      (c.getNextTxsToRollup pendingTxs flush).resourceConsumption := by
  intro hall
  have hwithin := hall ZeroFee.coordinator ZeroFee.resolver ZeroFee.env ZeroFee.pendingTxs true
    ZeroFee.worldStateEnv 0 ZeroFee.db rfl ZeroFee.typed_pendingTxs
  have hcounts := counts_getNextTxsToRollup (c := ZeroFee.coordinator)
    (getUnadjustedTxGas_account (R := ZeroFee.resolver) rfl) true ZeroFee.typed_pendingTxs
  have hfew := (hcounts.within_iff rfl nofun _ _ _).mp hwithin
  have hcard : (ZeroFee.coordinator.feeAssets
      (ZeroFee.coordinator.getNextTxsToRollup ZeroFee.pendingTxs true).txs).card = 17 := by
    decide +kernel
  exact absurd hfew.assets (by rw [hcard]; decide)

end RollupCoordinator

end AztecConnect.Falafel
