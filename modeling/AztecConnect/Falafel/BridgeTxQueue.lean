import AztecConnect.Falafel.NextRollup
import Mathlib.Algebra.Ring.Int.Defs

/-!
# The calls of the queue of a bridge

Transactions are added to the queue of a bridge and leave it in batches, over any sequence of calls of
`addDefiTx` and `getTxsToRollup`. A batch is removed from the front of the queue, by the number of its
transactions, while the loop passes over a transaction whose fee is in an asset that the rollup cannot
take.
-/

namespace AztecConnect.Falafel.BridgeTxQueue

/-- The parameters of `getTxsToRollup`, with what the resolver and the subsidy provider answer during
the call. -/
structure Limits where
  feeResolver : TxFeeResolver
  availableSubsidy : Int
  maxRemainingTransactions : Nat
  assetIds : List Nat
  assetIds_nodup : assetIds.Nodup
  maxAssets : Nat
  gasRemainingInRollup : Int
  callDataRemainingInRollup : Int

/-- `BridgeQueueResult`. -/
structure BridgeQueueResult where
  txsToRollup : List RollupTx
  resourcesConsumed : RollupResources

/-- What the loop of `getTxsToRollup` considers. -/
def Limits.consider (l : Limits) (bridgeCallData : Nat) (txQueue : List RollupTx) : Batch :=
  BridgeTxQueue.consider l.feeResolver bridgeCallData l.maxRemainingTransactions l.maxAssets
    l.gasRemainingInRollup l.callDataRemainingInRollup txQueue
    ⟨[], l.assetIds, 0, l.feeResolver.getFullBridgeGasFromContract bridgeCallData, 0⟩

/-- What is considered pays for the call of the bridge. -/
def Limits.Profitable (l : Limits) (bridgeCallData : Nat) (b : Batch) : Prop :=
  b.txsToConsider ≠ [] ∧
    b.gasFromTxs + l.availableSubsidy ≥ l.feeResolver.getFullBridgeGas bridgeCallData

instance (l : Limits) (bridgeCallData : Nat) (b : Batch) :
    Decidable (l.Profitable bridgeCallData b) :=
  inferInstanceAs (Decidable (¬ b.txsToConsider = [] ∧ _))

/-- `getTxsToRollup` with all that it returns, and the queue that is left. -/
def Limits.getTxsToRollup (l : Limits) (bridgeCallData : Nat) (txQueue : List RollupTx) :
    BridgeQueueResult × List RollupTx :=
  let b := l.consider bridgeCallData txQueue
  if l.Profitable bridgeCallData b
  then ({ txsToRollup := b.txsToConsider
          resourcesConsumed :=
            { gasUsed := b.totalGasUsedByTxs
              callDataUsed := b.totalCallDataUsedByTxs
              bridgeCallDatas := [bridgeCallData]
              assetIds := b.newAssets } },
    txQueue.drop b.txsToConsider.length)
  else (⟨[], ⟨0, 0, [], []⟩⟩, txQueue)

/-- A profitable batch is returned and leaves the queue. -/
lemma Limits.getTxsToRollup_of_profitable {l : Limits} {bridgeCallData : Nat}
    {txQueue : List RollupTx} (h : l.Profitable bridgeCallData (l.consider bridgeCallData txQueue)) :
    l.getTxsToRollup bridgeCallData txQueue =
      ({ txsToRollup := (l.consider bridgeCallData txQueue).txsToConsider
         resourcesConsumed :=
          { gasUsed := (l.consider bridgeCallData txQueue).totalGasUsedByTxs
            callDataUsed := (l.consider bridgeCallData txQueue).totalCallDataUsedByTxs
            bridgeCallDatas := [bridgeCallData]
            assetIds := (l.consider bridgeCallData txQueue).newAssets } },
        txQueue.drop (l.consider bridgeCallData txQueue).txsToConsider.length) := if_pos h

/-- Another one stays. -/
lemma Limits.getTxsToRollup_of_not_profitable {l : Limits} {bridgeCallData : Nat}
    {txQueue : List RollupTx} (h : ¬ l.Profitable bridgeCallData (l.consider bridgeCallData txQueue)) :
    l.getTxsToRollup bridgeCallData txQueue = (⟨[], ⟨0, 0, [], []⟩⟩, txQueue) := if_neg h

/-- The coordinator uses the transactions, their gas and their call data. -/
lemma getTxsToRollup_eq (l : Limits) (bridgeCallData : Nat) (txQueue : List RollupTx) :
    getTxsToRollup l.feeResolver bridgeCallData l.availableSubsidy l.maxRemainingTransactions
        l.assetIds l.maxAssets l.gasRemainingInRollup l.callDataRemainingInRollup txQueue =
      ((l.getTxsToRollup bridgeCallData txQueue).1.txsToRollup,
        (l.getTxsToRollup bridgeCallData txQueue).1.resourcesConsumed.gasUsed,
        (l.getTxsToRollup bridgeCallData txQueue).1.resourcesConsumed.callDataUsed,
        (l.getTxsToRollup bridgeCallData txQueue).2) := by
  by_cases h : l.Profitable bridgeCallData (l.consider bridgeCallData txQueue)
  · rw [Limits.getTxsToRollup_of_profitable h]
    exact if_pos h
  · rw [Limits.getTxsToRollup_of_not_profitable h]
    exact if_neg h

/-! ## A run -/

/-- A call of the queue. -/
inductive Call where
  | addDefiTx (newTx : RollupTx)
  | getTxsToRollup (l : Limits)

/-- The queue, with what was added to it and what was returned. -/
structure History where
  txQueue : List RollupTx
  added : List RollupTx
  returned : List (Limits × BridgeQueueResult)

/-- The queue, what was added and what was returned, after a call. -/
def History.call (bridgeCallData : Nat) (h : History) : Call → History
  | .addDefiTx newTx =>
    { h with txQueue := addDefiTx newTx h.txQueue, added := h.added ++ [newTx] }
  | .getTxsToRollup l =>
    let (result, txQueue) := l.getTxsToRollup bridgeCallData h.txQueue
    { h with txQueue, returned := h.returned ++ [(l, result)] }

/-- After a list of calls. -/
def History.run (bridgeCallData : Nat) (calls : List Call) : History :=
  calls.foldl (History.call bridgeCallData) ⟨[], [], []⟩

/-! ## What a batch has to be -/

namespace Limits

variable (l : Limits) (bridgeCallData : Nat)

/-- The transaction pays a fee in a fee asset. -/
def PaysFee (tx : RollupTx) : Prop := tx.feeValue ≠ 0 ∧ l.feeResolver.isFeePayingAsset tx.feeAssetId

instance (tx : RollupTx) : Decidable (l.PaysFee tx) := inferInstanceAs (Decidable (_ ∧ _))

/-- The gas of a transaction beside its share of the verification. -/
def gasUsedBy (tx : RollupTx) : Int :=
  l.feeResolver.getUnadjustedTxGas tx.feeAssetId .DEFI_DEPOSIT -
    l.feeResolver.getUnadjustedBaseVerificationGas

/-- The gas that is used, the call of the bridge included. -/
def gasUsed (txs : List RollupTx) : Int :=
  l.feeResolver.getFullBridgeGasFromContract bridgeCallData + (txs.map l.gasUsedBy).sum

/-- The call data of the transactions. -/
def callDataUsed (txs : List RollupTx) : Int :=
  txs.length * l.feeResolver.getTxCallData .DEFI_DEPOSIT

/-- What the transactions pay for the call of the bridge. -/
def gasFromTxs (txs : List RollupTx) : Int :=
  (txs.map fun tx => min (l.feeResolver.getSingleBridgeTxGas bridgeCallData + tx.excessGas)
    (l.feeResolver.getFullBridgeGas bridgeCallData)).sum

/-- The assets of the rollup with those of the fees. -/
def assetsWith (txs : List RollupTx) : List Nat :=
  txs.foldl (fun assets tx => if l.PaysFee tx then addToSet assets tx.feeAssetId else assets) l.assetIds

/-- A batch that is returned. -/
structure Batched (r : BridgeQueueResult) : Prop where
  nonempty : r.txsToRollup ≠ []
  slots : r.txsToRollup.length ≤ l.maxRemainingTransactions
  gas : r.resourcesConsumed.gasUsed ≤ l.gasRemainingInRollup
  callData : r.resourcesConsumed.callDataUsed ≤ l.callDataRemainingInRollup
  assets : r.resourcesConsumed.assetIds.length ≤ l.maxAssets
  profitable : l.feeResolver.getFullBridgeGas bridgeCallData ≤
    l.gasFromTxs bridgeCallData r.txsToRollup + l.availableSubsidy
  gasUsed : r.resourcesConsumed.gasUsed = l.gasUsed bridgeCallData r.txsToRollup
  callDataUsed : r.resourcesConsumed.callDataUsed = l.callDataUsed r.txsToRollup
  nodup : r.resourcesConsumed.assetIds.Nodup
  assetIds : ∀ a, a ∈ r.resourcesConsumed.assetIds ↔
    a ∈ l.assetIds ∨ ∃ tx ∈ r.txsToRollup, l.PaysFee tx ∧ tx.feeAssetId = a
  bridgeCallDatas : r.resourcesConsumed.bridgeCallDatas = [bridgeCallData]

end Limits

/-- What was added is in the queue or was returned, as often as it was added, and what was returned
are batches, or nothing. -/
structure Sound (bridgeCallData : Nat) (h : History) : Prop where
  conserved : h.added.Perm (h.txQueue ++ h.returned.flatMap fun r => r.2.txsToRollup)
  batched : ∀ r ∈ h.returned,
    r.1.Batched bridgeCallData r.2 ∨ r.2 = ⟨[], ⟨0, 0, [], []⟩⟩

/-! ## The loop -/

namespace Limits

variable (l : Limits) (bridgeCallData : Nat)

/-- What is considered after some transactions have been taken. -/
def batchOf (txs : List RollupTx) : Batch where
  txsToConsider := txs
  newAssets := l.assetsWith txs
  gasFromTxs := l.gasFromTxs bridgeCallData txs
  totalGasUsedByTxs := l.gasUsed bridgeCallData txs
  totalCallDataUsedByTxs := l.callDataUsed txs

/-- There are slots, gas and call data for one more. -/
def Fits (taken : List RollupTx) (tx : RollupTx) : Prop :=
  taken.length < l.maxRemainingTransactions ∧
    l.gasUsed bridgeCallData (taken ++ [tx]) ≤ l.gasRemainingInRollup ∧
    l.callDataUsed (taken ++ [tx]) ≤ l.callDataRemainingInRollup

/-- The fee is in an asset for which there is no room. -/
def NeedsAsset (taken : List RollupTx) (tx : RollupTx) : Prop :=
  l.PaysFee tx ∧ tx.feeAssetId ∉ l.assetsWith taken ∧ (l.assetsWith taken).length = l.maxAssets

instance (taken : List RollupTx) (tx : RollupTx) : Decidable (l.Fits bridgeCallData taken tx) :=
  inferInstanceAs (Decidable (_ ∧ _))

instance (taken : List RollupTx) (tx : RollupTx) : Decidable (l.NeedsAsset taken tx) :=
  inferInstanceAs (Decidable (_ ∧ _))

variable {l bridgeCallData}

/-- One more transaction uses its gas. -/
@[simp] lemma gasUsed_concat (txs : List RollupTx) (tx : RollupTx) :
    l.gasUsed bridgeCallData (txs ++ [tx]) = l.gasUsed bridgeCallData txs + l.gasUsedBy tx := by
  rw [gasUsed, gasUsed, List.map_append, List.sum_append, ← add_assoc]
  exact congrArg _ (add_zero _)

/-- And its call data. -/
@[simp] lemma callDataUsed_concat (txs : List RollupTx) (tx : RollupTx) :
    l.callDataUsed (txs ++ [tx]) =
      l.callDataUsed txs + l.feeResolver.getTxCallData .DEFI_DEPOSIT := by
  rw [callDataUsed, callDataUsed, List.length_append, List.length_singleton]
  push_cast
  rw [Int.add_mul, Int.one_mul]

/-- And its fee asset, if it pays. -/
lemma assetsWith_concat (txs : List RollupTx) (tx : RollupTx) :
    l.assetsWith (txs ++ [tx]) =
      if l.PaysFee tx then addToSet (l.assetsWith txs) tx.feeAssetId else l.assetsWith txs := by
  rw [assetsWith, List.foldl_concat]
  rfl

/-- The batch grows by one transaction. -/
lemma batchOf_concat (txs : List RollupTx) (tx : RollupTx) :
    l.batchOf bridgeCallData (txs ++ [tx]) =
      (l.batchOf bridgeCallData txs).add l.feeResolver bridgeCallData tx (l.assetsWith (txs ++ [tx]))
        (l.gasUsed bridgeCallData (txs ++ [tx])) (l.callDataUsed (txs ++ [tx])) := by
  have hgas : l.gasFromTxs bridgeCallData (txs ++ [tx]) = l.gasFromTxs bridgeCallData txs +
      min (l.feeResolver.getSingleBridgeTxGas bridgeCallData + tx.excessGas)
        (l.feeResolver.getFullBridgeGas bridgeCallData) := by
    rw [gasFromTxs, List.map_append, List.sum_append]
    exact congrArg _ (add_zero _)
  unfold batchOf Batch.add
  rw [hgas]

/-- `consider` starts from the empty batch. -/
lemma consider_eq (txQueue : List RollupTx) : l.consider bridgeCallData txQueue =
    BridgeTxQueue.consider l.feeResolver bridgeCallData l.maxRemainingTransactions l.maxAssets
      l.gasRemainingInRollup l.callDataRemainingInRollup txQueue (l.batchOf bridgeCallData []) := by
  have hnil : l.batchOf bridgeCallData [] =
      ⟨[], l.assetIds, 0, l.feeResolver.getFullBridgeGasFromContract bridgeCallData, 0⟩ := by
    simp [batchOf, assetsWith, gasFromTxs, gasUsed, callDataUsed]
  rw [hnil]
  rfl

/-- One step of the loop. -/
lemma consider_cons (tx : RollupTx) (txQueue taken : List RollupTx) :
    BridgeTxQueue.consider l.feeResolver bridgeCallData l.maxRemainingTransactions l.maxAssets
        l.gasRemainingInRollup l.callDataRemainingInRollup (tx :: txQueue)
        (l.batchOf bridgeCallData taken) =
      if l.Fits bridgeCallData taken tx then
        BridgeTxQueue.consider l.feeResolver bridgeCallData l.maxRemainingTransactions l.maxAssets
          l.gasRemainingInRollup l.callDataRemainingInRollup txQueue
          (l.batchOf bridgeCallData (if l.NeedsAsset taken tx then taken else taken ++ [tx]))
      else l.batchOf bridgeCallData taken := by
  rw [BridgeTxQueue.consider]
  by_cases hslots : taken.length < l.maxRemainingTransactions
  case neg => exact (if_pos hslots).trans (if_neg fun hfits => hslots hfits.1).symm
  case pos =>
    refine (if_neg (not_not.mpr hslots)).trans ?_
    by_cases hused : l.gasUsed bridgeCallData (taken ++ [tx]) ≤ l.gasRemainingInRollup ∧
        l.callDataUsed (taken ++ [tx]) ≤ l.callDataRemainingInRollup
    case neg =>
      refine (if_pos ?_).trans (if_neg fun hfits => hused hfits.2).symm
      rw [gasUsed_concat, callDataUsed_concat, not_and_or, not_le, not_le] at hused
      exact hused
    case pos =>
      have hfits : l.Fits bridgeCallData taken tx := ⟨hslots, hused⟩
      have hwithin : ¬ (l.gasUsed bridgeCallData taken + l.gasUsedBy tx > l.gasRemainingInRollup ∨
          l.callDataUsed taken + l.feeResolver.getTxCallData .DEFI_DEPOSIT >
            l.callDataRemainingInRollup) := by
        rw [gasUsed_concat, callDataUsed_concat] at hused
        exact not_or.mpr ⟨hused.1.not_gt, hused.2.not_gt⟩
      rw [if_pos hfits]
      refine (if_neg hwithin).trans ?_
      by_cases hpays : l.PaysFee tx
      case neg =>
        refine (if_neg hpays).trans ?_
        rw [if_neg fun hneeds : l.NeedsAsset taken tx => hpays hneeds.1, batchOf_concat,
          assetsWith_concat, if_neg hpays, gasUsed_concat, callDataUsed_concat]
        rfl
      case pos =>
        refine (if_pos hpays).trans ?_
        by_cases hneeds : l.NeedsAsset taken tx
        case pos =>
          rw [if_pos hneeds]
          exact if_pos ⟨fun hmem => hneeds.2.1 (List.contains_iff_mem.mp hmem), hneeds.2.2⟩
        case neg =>
          rw [if_neg hneeds, batchOf_concat, assetsWith_concat, if_pos hpays, gasUsed_concat,
            callDataUsed_concat]
          exact if_neg fun hfull =>
            hneeds ⟨hpays, fun hmem => hfull.1 (List.contains_iff_mem.mpr hmem), hfull.2⟩

/-- Each of the transactions was taken when its turn came. -/
def AllTaken (l : Limits) (bridgeCallData : Nat) (taken : List RollupTx) : Prop :=
  ∀ before tx after, taken = before ++ tx :: after →
    l.Fits bridgeCallData before tx ∧ ¬ l.NeedsAsset before tx

/-- The empty batch was taken. -/
lemma AllTaken.nil : l.AllTaken bridgeCallData [] := by
  intro before tx after hsplit
  exact absurd hsplit.symm (List.append_ne_nil_of_right_ne_nil _ (List.cons_ne_nil tx after))

/-- A transaction that fits and needs no new asset is taken. -/
lemma AllTaken.concat {taken : List RollupTx} {tx : RollupTx} (h : l.AllTaken bridgeCallData taken)
    (hfits : l.Fits bridgeCallData taken tx) (hneeds : ¬ l.NeedsAsset taken tx) :
    l.AllTaken bridgeCallData (taken ++ [tx]) := by
  intro before t after hsplit
  induction after using List.reverseRecOn with
  | nil =>
    obtain ⟨rfl, heq⟩ := List.append_inj' hsplit rfl
    obtain rfl := List.singleton_inj.mp heq
    exact ⟨hfits, hneeds⟩
  | append_singleton after u =>
    rw [← List.cons_append, ← List.append_assoc] at hsplit
    exact h before t after (List.append_inj' hsplit rfl).1

/-- The loop passes over some transactions, for the asset of their fee, and takes one behind them. -/
def TakesBehind (l : Limits) (bridgeCallData : Nat) (txQueue : List RollupTx) : Prop :=
  ∃ taken passed tx rest, txQueue = taken ++ (passed ++ tx :: rest) ∧ passed ≠ [] ∧
    l.AllTaken bridgeCallData taken ∧
    (∀ t ∈ passed, l.Fits bridgeCallData taken t ∧ l.NeedsAsset taken t) ∧
    l.Fits bridgeCallData taken tx ∧ ¬ l.NeedsAsset taken tx

/-- The loop after some transactions of the queue have been taken. -/
lemma consider_taken (txQueue : List RollupTx) {taken : List RollupTx}
    (htaken : l.AllTaken bridgeCallData taken) :
    ∃ txs, BridgeTxQueue.consider l.feeResolver bridgeCallData l.maxRemainingTransactions l.maxAssets
        l.gasRemainingInRollup l.callDataRemainingInRollup txQueue (l.batchOf bridgeCallData taken) =
        l.batchOf bridgeCallData txs ∧ l.AllTaken bridgeCallData txs := by
  induction txQueue generalizing taken with
  | nil => exact ⟨taken, rfl, htaken⟩
  | cons tx txQueue ih =>
    rw [consider_cons]
    by_cases hfits : l.Fits bridgeCallData taken tx
    case neg =>
      rw [if_neg hfits]
      exact ⟨taken, rfl, htaken⟩
    case pos =>
      rw [if_pos hfits]
      by_cases hneeds : l.NeedsAsset taken tx
      case pos =>
        rw [if_pos hneeds]
        exact ih htaken
      case neg =>
        rw [if_neg hneeds]
        exact ih (htaken.concat hfits hneeds)

/-- Where some transactions have been passed over, either no other one is taken, or one is. -/
lemma consider_passed (txQueue taken : List RollupTx) :
    BridgeTxQueue.consider l.feeResolver bridgeCallData l.maxRemainingTransactions l.maxAssets
        l.gasRemainingInRollup l.callDataRemainingInRollup txQueue (l.batchOf bridgeCallData taken) =
        l.batchOf bridgeCallData taken ∨
      ∃ passed tx rest, txQueue = passed ++ tx :: rest ∧
        (∀ t ∈ passed, l.Fits bridgeCallData taken t ∧ l.NeedsAsset taken t) ∧
        l.Fits bridgeCallData taken tx ∧ ¬ l.NeedsAsset taken tx := by
  induction txQueue with
  | nil => exact .inl rfl
  | cons tx txQueue ih =>
    rw [consider_cons]
    by_cases hfits : l.Fits bridgeCallData taken tx
    case neg => exact .inl (if_neg hfits)
    case pos =>
      rw [if_pos hfits]
      by_cases hneeds : l.NeedsAsset taken tx
      case neg => exact .inr ⟨[], tx, txQueue, rfl, List.forall_mem_nil _, hfits, hneeds⟩
      case pos =>
        rw [if_pos hneeds]
        refine ih.imp_right ?_
        rintro ⟨passed, tx', rest, hsplit, hpassed, htx'⟩
        refine ⟨tx :: passed, tx', rest, by rw [hsplit]; rfl, ?_, htx'⟩
        exact List.forall_mem_cons.mpr ⟨⟨hfits, hneeds⟩, hpassed⟩

/-- What is taken is the front of the queue, unless something is taken behind what is passed over. -/
lemma consider_cases (txQueue : List RollupTx) {taken : List RollupTx}
    (htaken : l.AllTaken bridgeCallData taken) :
    (∃ txs, BridgeTxQueue.consider l.feeResolver bridgeCallData l.maxRemainingTransactions
        l.maxAssets l.gasRemainingInRollup l.callDataRemainingInRollup txQueue
        (l.batchOf bridgeCallData taken) = l.batchOf bridgeCallData txs ∧
        txs <+: taken ++ txQueue) ∨
      l.TakesBehind bridgeCallData (taken ++ txQueue) := by
  induction txQueue generalizing taken with
  | nil => exact .inl ⟨taken, rfl, List.prefix_append _ _⟩
  | cons tx txQueue ih =>
    rw [consider_cons]
    by_cases hfits : l.Fits bridgeCallData taken tx
    case neg =>
      rw [if_neg hfits]
      exact .inl ⟨taken, rfl, List.prefix_append _ _⟩
    case pos =>
      rw [if_pos hfits]
      by_cases hneeds : l.NeedsAsset taken tx
      case neg =>
        have happend : taken ++ tx :: txQueue = taken ++ [tx] ++ txQueue :=
          List.append_cons taken tx txQueue
        rw [if_neg hneeds, happend]
        exact ih (htaken.concat hfits hneeds)
      case pos =>
        rw [if_pos hneeds]
        rcases @consider_passed l bridgeCallData txQueue taken with
          hend | ⟨passed, tx', rest, hsplit, hpassed, hfits', hneeds'⟩
        · exact .inl ⟨taken, hend, List.prefix_append _ _⟩
        · refine .inr ⟨taken, tx :: passed, tx', rest, by rw [hsplit]; rfl, List.cons_ne_nil _ _,
            htaken, ?_, hfits', hneeds'⟩
          exact List.forall_mem_cons.mpr ⟨⟨hfits, hneeds⟩, hpassed⟩

/-! ## A batch -/

/-- No asset is counted twice. -/
lemma nodup_assetsWith (txs : List RollupTx) : (l.assetsWith txs).Nodup := by
  induction txs using List.reverseRecOn with
  | nil => exact l.assetIds_nodup
  | append_singleton txs tx ih =>
    rw [assetsWith_concat]
    split
    case isTrue => exact nodup_addToSet ih tx.feeAssetId
    case isFalse => exact ih

/-- The assets are those given and those paid in. -/
lemma mem_assetsWith (txs : List RollupTx) (a : Nat) : a ∈ l.assetsWith txs ↔
    a ∈ l.assetIds ∨ ∃ tx ∈ txs, l.PaysFee tx ∧ tx.feeAssetId = a := by
  induction txs using List.reverseRecOn with
  | nil =>
    refine (or_iff_left ?_).symm
    rintro ⟨tx, htx, -⟩
    exact absurd htx List.not_mem_nil
  | append_singleton txs tx ih =>
    have hexists : (∃ t ∈ txs ++ [tx], l.PaysFee t ∧ t.feeAssetId = a) ↔
        (∃ t ∈ txs, l.PaysFee t ∧ t.feeAssetId = a) ∨ l.PaysFee tx ∧ tx.feeAssetId = a := by
      simp only [List.mem_append, List.mem_singleton, or_and_right, exists_or, exists_eq_left]
    rw [assetsWith_concat, hexists, ← or_assoc, ← ih]
    split
    case isTrue hpays =>
      rw [mem_addToSet, and_iff_right hpays]
      exact or_congr_right eq_comm
    case isFalse hpays => exact (or_iff_left fun h => hpays h.1).symm

/-- Where an asset is added, there is room for it. -/
lemma AllTaken.assets_le {txs : List RollupTx} (h : l.AllTaken bridgeCallData txs)
    (hassets : l.assetIds.length ≤ l.maxAssets) : (l.assetsWith txs).length ≤ l.maxAssets := by
  induction txs using List.reverseRecOn with
  | nil => exact hassets
  | append_singleton txs tx ih =>
    have hprev : (l.assetsWith txs).length ≤ l.maxAssets := ih fun before t after hsplit =>
      h before t (after ++ [tx]) (by rw [hsplit, List.append_assoc, List.cons_append])
    have hneeds := (h txs tx [] rfl).2
    rw [assetsWith_concat]
    split
    case isFalse => exact hprev
    case isTrue hpays =>
      by_cases hmem : tx.feeAssetId ∈ l.assetsWith txs
      · rwa [addToSet_of_mem hmem]
      · rw [addToSet_of_notMem hmem, List.length_append, List.length_singleton]
        exact lt_of_le_of_ne hprev fun hfull => hneeds ⟨hpays, hmem, hfull⟩

/-- What is returned is within the limits and profitable. -/
lemma batched_of_profitable {txQueue : List RollupTx}
    (hprofit : l.Profitable bridgeCallData (l.consider bridgeCallData txQueue))
    (hassets : l.assetIds.length ≤ l.maxAssets) :
    l.Batched bridgeCallData (l.getTxsToRollup bridgeCallData txQueue).1 := by
  obtain ⟨txs, htxs, htaken⟩ := @consider_taken l bridgeCallData txQueue _ AllTaken.nil
  have hbatch := (consider_eq txQueue).trans htxs
  rw [getTxsToRollup_of_profitable hprofit]
  rw [hbatch] at hprofit ⊢
  obtain ⟨hne, hprofit⟩ := hprofit
  obtain ⟨before, tx, rfl⟩ := List.eq_nil_or_concat' txs |>.resolve_left hne
  obtain ⟨hslots, hgas, hcallData⟩ := (htaken before tx [] rfl).1
  refine ⟨hne, ?_, hgas, hcallData, htaken.assets_le hassets, hprofit, rfl, rfl, nodup_assetsWith _,
    mem_assetsWith _, rfl⟩
  show (before ++ [tx]).length ≤ l.maxRemainingTransactions
  rw [List.length_append, List.length_singleton]
  exact hslots

/-- What is returned and what is left are what was in the queue. -/
lemma getTxsToRollup_perm {txQueue : List RollupTx}
    (h : l.Profitable bridgeCallData (l.consider bridgeCallData txQueue) →
      ¬ l.TakesBehind bridgeCallData txQueue) :
    txQueue.Perm ((l.getTxsToRollup bridgeCallData txQueue).2 ++
      (l.getTxsToRollup bridgeCallData txQueue).1.txsToRollup) := by
  by_cases hprofit : l.Profitable bridgeCallData (l.consider bridgeCallData txQueue)
  case neg =>
    rw [getTxsToRollup_of_not_profitable hprofit]
    exact .of_eq (List.append_nil txQueue).symm
  case pos =>
    rcases @consider_cases l bridgeCallData txQueue _ AllTaken.nil with
      ⟨txs, htxs, hinitial⟩ | hbehind
    · have hbatch := (consider_eq txQueue).trans htxs
      rw [getTxsToRollup_of_profitable hprofit, hbatch]
      show txQueue.Perm (txQueue.drop txs.length ++ txs)
      rw [List.nil_append, List.prefix_iff_eq_append] at hinitial
      nth_rewrite 1 [← hinitial]
      exact List.perm_append_comm
    · exact absurd hbehind (h hprofit)

end Limits

/-- A call that returns a batch is given no more assets than the limit, and takes no transaction
behind one that it passes over. -/
def CallOk (bridgeCallData : Nat) (txQueue : List RollupTx) : Call → Prop
  | .addDefiTx _ => True
  | .getTxsToRollup l => l.Profitable bridgeCallData (l.consider bridgeCallData txQueue) →
    l.assetIds.length ≤ l.maxAssets ∧ ¬ l.TakesBehind bridgeCallData txQueue

variable {bridgeCallData : Nat}

/-- A call keeps the queue sound. -/
lemma Sound.call {h : History} (hsound : Sound bridgeCallData h) {c : Call}
    (hok : CallOk bridgeCallData h.txQueue c) : Sound bridgeCallData (h.call bridgeCallData c) := by
  cases c with
  | addDefiTx newTx =>
    refine ⟨?_, hsound.batched⟩
    have hqueue := (addDefiTx_perm newTx h.txQueue).symm.append_right
      (h.returned.flatMap fun r => r.2.txsToRollup)
    exact (List.perm_append_singleton newTx h.added).trans
      ((hsound.conserved.cons newTx).trans hqueue)
  | getTxsToRollup l =>
    constructor
    case conserved =>
      have hperm := Limits.getTxsToRollup_perm fun hprofit => (hok hprofit).2
      show h.added.Perm (_ ++ (h.returned ++ [_]).flatMap _)
      rw [List.flatMap_append, List.flatMap_singleton]
      refine hsound.conserved.trans ((hperm.append_right _).trans ?_)
      rw [List.append_assoc]
      exact List.perm_append_comm.append_left _
    case batched =>
      intro r hr
      rcases List.mem_append.mp hr with hr | hr
      · exact hsound.batched r hr
      · obtain rfl := List.mem_singleton.mp hr
        by_cases hprofit : l.Profitable bridgeCallData (l.consider bridgeCallData h.txQueue)
        · exact .inl (Limits.batched_of_profitable hprofit (hok hprofit).1)
        · exact .inr (congrArg Prod.fst (Limits.getTxsToRollup_of_not_profitable hprofit))

/-- After every list of calls within the limits, transactions are returned once, and what is
returned is within the limits. -/
theorem sound_run (calls : List Call) (hok : ∀ before c after, calls = before ++ c :: after →
    CallOk bridgeCallData (History.run bridgeCallData before).txQueue c) :
    Sound bridgeCallData (History.run bridgeCallData calls) := by
  induction calls using List.reverseRecOn with
  | nil => exact ⟨.refl [], List.forall_mem_nil _⟩
  | append_singleton calls c ih =>
    have hprev := ih fun before c' after hsplit =>
      hok before c' (after ++ [c]) (by rw [hsplit, List.append_assoc, List.cons_append])
    rw [History.run, List.foldl_concat]
    exact hprev.call (hok calls c [] rfl)

/-! ## Two transactions -/

namespace Sample

/-- The fees of the sample. -/
def feeResolver : TxFeeResolver where
  isFeePayingAsset _ := true
  getUnadjustedBaseVerificationGas := 5000
  getUnadjustedTxGas _ _ := 12504
  getTxCallData _ := 129
  getFullBridgeGas _ := 100000
  getFullBridgeGasFromContract _ := 100000
  getSingleBridgeTxGas _ := 10000

/-- A transaction that pays for the call of the bridge. -/
def tx (id excessGas feeAssetId : Nat) : RollupTx :=
  ⟨⟨id, .DEFI_DEPOSIT, excessGas, ⟨⟨.DEFI_DEPOSIT, 1, 2, 3, 4, 0, 0, 0⟩, 0, 0⟩, 10, feeAssetId, 7⟩,
    excessGas, feeAssetId, 10, some 7⟩

/-- The rollup takes the fees of the first asset, and of others up to the limit. -/
def limits (maxAssets : Nat) : Limits :=
  ⟨feeResolver, 0, 28, [0], List.nodup_singleton 0, maxAssets, 1000000, 100000⟩

/-- Two deposits are added, and a batch is asked for. -/
def calls (maxAssets : Nat) : List Call :=
  [.addDefiTx (tx 1 95000 1), .addDefiTx (tx 2 90000 0), .getTxsToRollup (limits maxAssets)]

/-- The set of assets is not full when the loop begins. -/
lemma not_takesBehind {txQueue : List RollupTx} (h : txQueue.length = 2) :
    ¬ (limits 2).TakesBehind 7 txQueue := by
  rintro ⟨taken, passed, tx, rest, rfl, hne, -, hpassed, -⟩
  obtain ⟨t, passed, rfl⟩ := List.exists_cons_of_ne_nil hne
  obtain rfl : taken = [] := by
    rw [List.length_append, List.length_append, List.length_cons, List.length_cons] at h
    exact List.eq_nil_of_length_eq_zero (by omega)
  have hfull := (hpassed t List.mem_cons_self).2.2.2
  exact absurd hfull (by decide)

end Sample

/-- Both are returned. -/
theorem sound_run_sample : Sound 7 (History.run 7 (Sample.calls 2)) := by
  refine sound_run (Sample.calls 2) fun before c after hsplit => ?_
  cases before with
  | nil =>
    obtain ⟨rfl, -⟩ := List.cons.inj hsplit
    trivial
  | cons c₁ before =>
    obtain ⟨rfl, hsplit₁⟩ := List.cons.inj hsplit
    cases before with
    | nil =>
      obtain ⟨rfl, -⟩ := List.cons.inj hsplit₁
      trivial
    | cons c₂ before =>
      obtain ⟨rfl, hsplit₂⟩ := List.cons.inj hsplit₁
      cases before with
      | nil =>
        obtain ⟨rfl, -⟩ := List.cons.inj hsplit₂
        exact fun _ => ⟨by decide, Sample.not_takesBehind rfl⟩
      | cons c₃ before =>
        obtain ⟨-, hsplit₃⟩ := List.cons.inj hsplit₂
        exact absurd hsplit₃.symm (List.append_ne_nil_of_right_ne_nil _ (List.cons_ne_nil c after))

/-- The first transaction leaves the queue, and the second, that was returned, stays. -/
theorem not_sound : ¬ ∀ (bridgeCallData : Nat) (calls : List Call),
    Sound bridgeCallData (History.run bridgeCallData calls) := by
  intro hall
  have hperm := ((hall 7 (Sample.calls 1)).conserved.map fun t => t.tx.id)
  exact absurd hperm (by decide)

end AztecConnect.Falafel.BridgeTxQueue
