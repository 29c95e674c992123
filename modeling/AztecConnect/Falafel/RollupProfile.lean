import AztecConnect.Falafel.BridgeTxQueue
import AztecConnect.Falafel.DataStartIndex
import AztecConnect.Falafel.FeeCalculator

/-!
# The resources of a rollup

Translation of `profileRollup` of `falafel/src/pipeline_coordinator/rollup_profiler.ts` (the gas, the
call data and the bridges), and of the resources that `aggregateAndPublish` hands to the rollup creator.
The coordinator counts the resources as it selects, the profiler counts them again, and the creator
extends the bridge calls and the assets.
-/

namespace AztecConnect.Falafel

/-! ## The profile -/

/-- `BridgeProfile`. -/
structure BridgeProfile where
  bridgeCallData : Nat
  numTxs : Nat
  gasThreshold : Int
  gasAccrued : Int
  gasSubsidy : Int

/-- `RollupProfile`. -/
structure RollupProfile where
  rollupSize : Nat
  totalTxs : Nat
  gasBalance : Int
  totalGas : Int
  totalCallData : Int
  bridgeProfiles : List BridgeProfile

variable (R : FeeResolver) (getClaimedSubsidy : Nat → Int)

/-- The first transaction of a bridge incurs the cost of the bridge. -/
def RollupProfile.addBridge (p : RollupProfile) (bridgeCallData : Nat) : RollupProfile :=
  if p.bridgeProfiles.any (·.bridgeCallData == bridgeCallData) then p
  else
    let fullGasCostOfBridgeInteraction : Int := R.getFullBridgeGas bridgeCallData
    let claimedSubsidy := getClaimedSubsidy bridgeCallData
    { p with
      bridgeProfiles := p.bridgeProfiles ++
        [⟨bridgeCallData, 0, fullGasCostOfBridgeInteraction, 0, claimedSubsidy⟩]
      gasBalance := p.gasBalance - fullGasCostOfBridgeInteraction + claimedSubsidy
      totalGas := p.totalGas + R.getFullBridgeGasFromContract bridgeCallData }

/-- A defi deposit pays for its bridge, up to the gas of the bridge. -/
def RollupProfile.addBridgeTx (p : RollupProfile) (bridgeCallData : Nat) (excessGas : Int) :
    RollupProfile :=
  let totalGasProvidedWithTx := R.getSingleBridgeTxGas bridgeCallData + excessGas
  let gasTowardsBridge := min totalGasProvidedWithTx (R.getFullBridgeGas bridgeCallData)
  { p with
    gasBalance := p.gasBalance + totalGasProvidedWithTx
    bridgeProfiles := p.bridgeProfiles.map fun b =>
      if b.bridgeCallData = bridgeCallData
      then { b with numTxs := b.numTxs + 1, gasAccrued := b.gasAccrued + gasTowardsBridge } else b }

/-- The body of the loop. -/
def RollupProfile.addTx (p : RollupProfile) (tx : RollupTx) : RollupProfile :=
  let assetId := tx.tx.feeAssetId
  let txGasAdjustment : Int :=
    R.getAdjustedTxGas assetId tx.tx.txType - R.getUnadjustedTxGas assetId tx.tx.txType
  let p := { p with
    totalGas := p.totalGas + R.getUnadjustedTxGas assetId tx.tx.txType
    totalCallData := p.totalCallData + getTxCallData tx.tx.txType
    gasBalance := p.gasBalance + txGasAdjustment }
  if tx.tx.txType ≠ .DEFI_DEPOSIT then { p with gasBalance := p.gasBalance + tx.excessGas }
  else
    match tx.bridgeCallData with
    | none => p
    -- the call data of no bridge is as good as none
    | some 0 => p
    | some bridgeCallData =>
      (p.addBridge R getClaimedSubsidy bridgeCallData).addBridgeTx R bridgeCallData tx.excessGas

/-- `profileRollup`. -/
def profileRollup (rollupSize : Nat) (allTxs : List RollupTx) : RollupProfile :=
  let p := allTxs.foldl (RollupProfile.addTx R getClaimedSubsidy) ⟨rollupSize, allTxs.length, 0, 0, 0, []⟩
  let numEmptySlots : Int := rollupSize - allTxs.length
  let gasForEmptySlots := numEmptySlots * R.getUnadjustedBaseVerificationGas
  { p with
    gasBalance := p.gasBalance - gasForEmptySlots
    totalGas := p.totalGas + gasForEmptySlots }

/-! ## What the creator is given -/

namespace RollupCoordinator

variable (c : RollupCoordinator)

/-- The transactions of a rollup that is published, with the resources that they consume. -/
def processedTxs (pendingTxs : List PendingTx) (flush : Bool) (pendingSecondClassTxs : List PendingTx) :
    List RollupTx × RollupResources :=
  let s := c.getNextTxsToRollup pendingTxs flush
  if c.outOfResources s.txs then (s.txs, s.resourceConsumption)
  else
    let (secondClassTxs, r) := c.addSecondClass s.txs
      (pendingSecondClassTxs.take (c.totalSlots - s.txs.length)) [] s.resourceConsumption
    (s.txs ++ secondClassTxs, r)

/-- These are the transactions of a rollup. -/
lemma processPendingTxs_eq {pendingTxs pendingSecondClassTxs : List PendingTx} {flush : Bool}
    {txs : List RollupTx}
    (h : c.processPendingTxs pendingTxs pendingSecondClassTxs flush = .ok (some txs)) :
    txs = (c.processedTxs pendingTxs flush pendingSecondClassTxs).1 := by
  unfold processPendingTxs aggregateAndPublish at h
  unfold processedTxs
  dsimp only
  split at h
  case isTrue => cases h
  case isFalse =>
    split at h
    case isTrue => cases h
    case isFalse =>
      split at h
      case isTrue hout =>
        cases h
        rw [if_pos hout]
      case isFalse hout =>
        cases h
        rw [if_neg hout]
        rfl

/-- The inner rollups are created one after another, on the bridge calls and the assets of the
rollup. -/
def createRollups (E : WorldStateEnv) (rollupId : Nat) : List (List PendingTx) → WorldStateDb →
    List Nat × List Nat → Bool → List Nat × List Nat
  | [], _, lists, _ => lists
  | txs :: chunkedTx, db, lists, firstInner =>
    let l := (RollupCreator.createRollup E c.feeResolver.isFeePayingAsset
      ⟨c.numInnerRollupTxs, c.numOuterRollupProofs⟩ rollupId db txs lists.1 lists.2 firstInner).2
    createRollups E rollupId chunkedTx l.db (l.rootRollupBridgeCallDatas, l.rootRollupAssetIds) false

/-- The bridge calls and the assets after every inner rollup is created. -/
def createdLists (E : WorldStateEnv) (rollupId : Nat) (db : WorldStateDb) (txs : List RollupTx)
    (r : RollupResources) : List Nat × List Nat :=
  c.createRollups E rollupId (chunkTxs c.numInnerRollupTxs txs.length (txs.map RollupTx.tx)) db
    (r.bridgeCallDatas, r.assetIds) true

/-! ## The resources of a selection -/

/-- The asset of the fee counts: that of a defi deposit only with a fee. -/
def CountsAsset (tx : PendingTx) : Prop :=
  tx.txType ≠ .ACCOUNT ∧ c.feeResolver.isFeePayingAsset tx.feeAssetId ∧
    (tx.txType = .DEFI_DEPOSIT → tx.txFee ≠ 0)

instance (tx : PendingTx) : Decidable (c.CountsAsset tx) := inferInstanceAs (Decidable (_ ∧ _))

/-- What a transaction adds to the resources. -/
def countTx (r : RollupResources) (t : RollupTx) : RollupResources where
  gasUsed := r.gasUsed + (c.feeResolver.getUnadjustedTxGas t.tx.feeAssetId t.tx.txType -
      c.feeResolver.getUnadjustedBaseVerificationGas) +
    (if t.tx.txType = .DEFI_DEPOSIT ∧ t.tx.bridgeCallData ∉ r.bridgeCallDatas
      then c.feeResolver.getFullBridgeGasFromContract t.tx.bridgeCallData else 0)
  callDataUsed := r.callDataUsed + c.feeResolver.getTxCallData t.tx.txType
  bridgeCallDatas :=
    if t.tx.txType = .DEFI_DEPOSIT then addToSet r.bridgeCallDatas t.tx.bridgeCallData
    else r.bridgeCallDatas
  assetIds :=
    if c.CountsAsset t.tx then addToSet r.assetIds t.tx.feeAssetId else r.assetIds

/-- What the transactions consume, starting from the verification. -/
def resourcesOf (txs : List RollupTx) : RollupResources :=
  txs.foldl c.countTx ⟨c.totalSlots * c.feeResolver.getUnadjustedBaseVerificationGas, 0, [], []⟩

/-- One more transaction is counted. -/
lemma resourcesOf_concat (txs : List RollupTx) (t : RollupTx) :
    c.resourcesOf (txs ++ [t]) = c.countTx (c.resourcesOf txs) t :=
  List.foldl_concat _ _ _ _

/-- A transaction of the pool as it is considered. -/
structure Formed (P : PendingTx → Prop) (t : RollupTx) : Prop where
  pending : P t.tx
  fee : t.feeAssetId = t.tx.feeAssetId ∧ t.feeValue = t.tx.txFee
  excessGas : t.excessGas = t.tx.excessGas
  bridge : t.tx.txType = .DEFI_DEPOSIT → t.bridgeCallData = some t.tx.bridgeCallData

/-- Some transactions are selected, and their resources are counted. -/
structure Counts (P : PendingTx → Prop) (txs : List RollupTx) (r : RollupResources) : Prop where
  resources : r = c.resourcesOf txs
  gas : txs ≠ [] → r.gasUsed ≤ c.maxGasForRollup
  callData : txs ≠ [] → r.callDataUsed ≤ c.maxCallDataForRollup
  assets : r.assetIds.length ≤ NUMBER_OF_ASSETS
  bridges : r.bridgeCallDatas.length ≤ NUM_BRIDGE_CALLS_PER_BLOCK
  formed : ∀ t ∈ txs, Formed P t

/-- What waits for a bridge are defi deposits to the bridge. -/
structure Waits (P : PendingTx → Prop) (s : Selection) : Prop where
  formed : ∀ b, ∀ t ∈ s.bridgeQueues b, Formed P t
  bridge : ∀ b, ∀ t ∈ s.bridgeQueues b, t.tx.txType = .DEFI_DEPOSIT ∧ t.tx.bridgeCallData = b

variable {c} {P : PendingTx → Prop} {txs : List RollupTx} {r : RollupResources} {s : Selection}

/-- Resources that are accepted are the old ones with the transaction. -/
lemma validateAndUpdateRollupResources_some {txType : TxType} {feeAssetId : Nat}
    {r' : RollupResources}
    (h : c.validateAndUpdateRollupResources txType feeAssetId r = some r') :
    r' = { r with
      gasUsed := r.gasUsed + (c.feeResolver.getUnadjustedTxGas feeAssetId txType -
        c.feeResolver.getUnadjustedBaseVerificationGas)
      callDataUsed := r.callDataUsed + c.feeResolver.getTxCallData txType } ∧
    r'.gasUsed ≤ c.maxGasForRollup ∧ r'.callDataUsed ≤ c.maxCallDataForRollup := by
  unfold validateAndUpdateRollupResources at h
  dsimp only at h
  split at h
  case isTrue => cases h
  case isFalse hlimits =>
    obtain rfl := Option.some.inj h
    rw [not_or, not_lt, not_lt] at hlimits
    refine ⟨?_, hlimits⟩
    rw [Int.add_comm r.gasUsed, Int.add_comm r.callDataUsed]

/-- One more transaction, within the limits. -/
lemma Counts.concat (h : c.Counts P txs r) {t : RollupTx} (ht : Formed P t)
    (hgas : (c.countTx r t).gasUsed ≤ c.maxGasForRollup)
    (hcallData : (c.countTx r t).callDataUsed ≤ c.maxCallDataForRollup)
    (hassets : (c.countTx r t).assetIds.length ≤ NUMBER_OF_ASSETS)
    (hbridges : (c.countTx r t).bridgeCallDatas.length ≤ NUM_BRIDGE_CALLS_PER_BLOCK) :
    c.Counts P (txs ++ [t]) (c.countTx r t) where
  resources := by rw [h.resources, resourcesOf_concat]
  gas _ := hgas
  callData _ := hcallData
  assets := hassets
  bridges := hbridges
  formed u hu := (List.mem_append.mp hu).elim (h.formed u) fun hself => List.mem_singleton.mp hself ▸ ht

/-- A transaction that calls no bridge. -/
lemma countTx_of_ne {t : RollupTx} (h : t.tx.txType ≠ .DEFI_DEPOSIT) : c.countTx r t =
    { r with
      gasUsed := r.gasUsed + (c.feeResolver.getUnadjustedTxGas t.tx.feeAssetId t.tx.txType -
        c.feeResolver.getUnadjustedBaseVerificationGas)
      callDataUsed := r.callDataUsed + c.feeResolver.getTxCallData t.tx.txType
      assetIds := if c.CountsAsset t.tx then addToSet r.assetIds t.tx.feeAssetId else r.assetIds } := by
  rw [countTx, if_neg fun hdefi => h hdefi.1, if_neg h, Int.add_zero]

/-- A transaction in a rollup is formed from a pending one. -/
lemma formed_createRollupTx {tx : PendingTx}
    (hpending : P tx)
    (h : tx.txType ≠ .DEFI_DEPOSIT) : Formed P (createRollupTx tx) :=
  ⟨hpending, ⟨rfl, rfl⟩, rfl, fun hdefi => absurd hdefi h⟩

/-- So is a deposit to a bridge. -/
lemma formed_createDefiRollupTx {tx : PendingTx}
    (hpending : P tx) :
    Formed P (createDefiRollupTx tx) := ⟨hpending, ⟨rfl, rfl⟩, rfl, fun _ => rfl⟩

/-- A set with room gains one element at most. -/
lemma length_addToSet_le {xs : List Nat} {x n : Nat} (h : xs.length ≤ n)
    (hroom : x ∉ xs → xs.length ≠ n) : (addToSet xs x).length ≤ n := by
  by_cases hmem : x ∈ xs
  · rwa [addToSet_of_mem hmem]
  · rw [addToSet_of_notMem hmem, List.length_append, List.length_singleton]
    exact Nat.lt_of_le_of_ne h (hroom hmem)

/-- An account transaction takes gas in no asset. -/
lemma Counts.account (h : c.Counts P txs r) {tx : PendingTx}
    (hpending : P tx)
    (hacc : tx.txType = .ACCOUNT)
    (haccount : ∀ a, c.feeResolver.getUnadjustedTxGas a .ACCOUNT =
      c.feeResolver.getUnadjustedTxGas 0 .ACCOUNT)
    {r' : RollupResources} (hr : c.validateAndUpdateRollupResources .ACCOUNT 0 r = some r') :
    c.Counts P (txs ++ [createRollupTx tx]) r' := by
  obtain ⟨heq, hgas, hcallData⟩ := validateAndUpdateRollupResources_some hr
  have hne : tx.txType ≠ .DEFI_DEPOSIT := by
    rw [hacc]
    nofun
  have hcount : c.countTx r (createRollupTx tx) = r' := by
    rw [countTx_of_ne (show (createRollupTx tx).tx.txType ≠ .DEFI_DEPOSIT from hne), heq,
      if_neg fun hcounts : c.CountsAsset (createRollupTx tx).tx => hcounts.1 hacc,
      show (createRollupTx tx).tx.txType = .ACCOUNT from hacc, haccount]
  have hlists : r'.assetIds = r.assetIds ∧ r'.bridgeCallDatas = r.bridgeCallDatas := by
    rw [heq]
    exact ⟨rfl, rfl⟩
  rw [← hcount] at hgas hcallData hlists ⊢
  refine h.concat (formed_createRollupTx hpending hne) hgas hcallData ?_ ?_
  · rw [hlists.1]
    exact h.assets
  · rw [hlists.2]
    exact h.bridges

/-- A transaction that is no account and no defi deposit. -/
lemma Counts.plain (h : c.Counts P txs r) {tx : PendingTx}
    (hpending : P tx)
    (hacc : tx.txType ≠ .ACCOUNT)
    (hdefi : tx.txType ≠ .DEFI_DEPOSIT)
    (hroom : ¬ (c.feeResolver.isFeePayingAsset tx.feeAssetId ∧
      ¬ r.assetIds.contains tx.feeAssetId ∧ r.assetIds.length = NUMBER_OF_ASSETS))
    {r' : RollupResources}
    (hr : c.validateAndUpdateRollupResources tx.txType tx.feeAssetId r = some r') :
    c.Counts P (txs ++ [createRollupTx tx]) { r' with
      assetIds := if c.feeResolver.isFeePayingAsset tx.feeAssetId
        then addToSet r'.assetIds tx.feeAssetId else r'.assetIds } := by
  obtain ⟨heq, hgas, hcallData⟩ := validateAndUpdateRollupResources_some hr
  have hcounts : c.CountsAsset tx ↔ c.feeResolver.isFeePayingAsset tx.feeAssetId :=
    ⟨fun hcounts => hcounts.2.1, fun hpaying => ⟨hacc, hpaying, fun hd => absurd hd hdefi⟩⟩
  have hcount : c.countTx r (createRollupTx tx) = { r' with
      assetIds := if c.feeResolver.isFeePayingAsset tx.feeAssetId
        then addToSet r'.assetIds tx.feeAssetId else r'.assetIds } := by
    rw [countTx_of_ne (show (createRollupTx tx).tx.txType ≠ .DEFI_DEPOSIT from hdefi), heq]
    simp only [createRollupTx, hcounts]
  have hassets : (c.countTx r (createRollupTx tx)).assetIds.length ≤ NUMBER_OF_ASSETS := by
    rw [hcount, heq]
    dsimp only
    split
    case isFalse => exact h.assets
    case isTrue hpaying =>
      exact length_addToSet_le h.assets fun hnot hfull =>
        hroom ⟨hpaying, fun hin => hnot (List.contains_iff_mem.mp hin), hfull⟩
  have hbridges : (c.countTx r (createRollupTx tx)).bridgeCallDatas.length ≤
      NUM_BRIDGE_CALLS_PER_BLOCK := by
    rw [hcount, heq]
    exact h.bridges
  rw [← hcount]
  refine h.concat (formed_createRollupTx hpending hdefi) ?_ ?_ hassets hbridges
  · rw [hcount]
    exact hgas
  · rw [hcount]
    exact hcallData

/-! ## The batch of a bridge -/

/-- Defi deposits to a bridge. -/
def Batch (P : PendingTx → Prop) (bridge : Nat) (batch : List RollupTx) : Prop :=
  ∀ t ∈ batch, Formed P t ∧ t.tx.txType = .DEFI_DEPOSIT ∧ t.tx.bridgeCallData = bridge

/-- A batch is made of deposits to its bridge. -/
lemma Batch.concat {bridge : Nat} {batch : List RollupTx} {t : RollupTx}
    (h : Batch P bridge (batch ++ [t])) :
    Batch P bridge batch ∧ Formed P t ∧ t.tx.txType = .DEFI_DEPOSIT ∧ t.tx.bridgeCallData = bridge :=
  ⟨fun u hu => h u (List.mem_append_left _ hu), h t (List.mem_append_right _ List.mem_cons_self)⟩

/-- The asset of a deposit counts if it pays a fee. -/
lemma countsAsset_of_defi {t : RollupTx} (ht : Formed P t) (hdefi : t.tx.txType = .DEFI_DEPOSIT) :
    c.CountsAsset t.tx ↔ t.feeValue ≠ 0 ∧ c.feeResolver.isFeePayingAsset t.feeAssetId := by
  rw [ht.fee.1, ht.fee.2, CountsAsset]
  constructor
  · exact fun ⟨_, hpaying, hfee⟩ => ⟨hfee hdefi, hpaying⟩
  · exact fun ⟨hfee, hpaying⟩ => ⟨by rw [hdefi]; nofun, hpaying, fun _ => hfee⟩

/-- The lists that `addDefiTxs` extends are those of the resources. -/
lemma addDefiTxs_resources {bridge : Nat} (s : Selection) (batch : List RollupTx)
    (h : Batch P bridge batch) : (c.addDefiTxs bridge s batch).resourceConsumption =
      { batch.foldl c.countTx s.resourceConsumption with
        gasUsed := s.resourceConsumption.gasUsed
        callDataUsed := s.resourceConsumption.callDataUsed } := by
  induction batch using List.reverseRecOn with
  | nil => rfl
  | append_singleton batch t ih =>
    obtain ⟨hbatch, ht, hdefi, hbridge⟩ := h.concat
    have hprev := ih hbatch
    rw [addDefiTxs, List.foldl_concat, ← addDefiTxs, List.foldl_concat, countTx, hprev, if_pos hdefi]
    have hassets := countsAsset_of_defi (c := c) ht hdefi
    rw [if_congr hassets rfl rfl, ht.bridge hdefi, hbridge, ht.fee.1]
    rfl

/-- What the transactions of a batch use, with the call of the bridge by the first of them. -/
lemma foldl_countTx {bridge : Nat} {batch : List RollupTx} (h : Batch P bridge batch)
    (l : BridgeTxQueue.Limits) (hl : l.feeResolver = c.feeResolver) (hassets : l.assetIds = r.assetIds) :
    (batch.foldl c.countTx r).gasUsed = r.gasUsed + (batch.map l.gasUsedBy).sum +
      (if batch = [] ∨ bridge ∈ r.bridgeCallDatas then 0
        else c.feeResolver.getFullBridgeGasFromContract bridge) ∧
    (batch.foldl c.countTx r).callDataUsed = r.callDataUsed + l.callDataUsed batch ∧
    (batch.foldl c.countTx r).assetIds = l.assetsWith batch ∧
    (batch.foldl c.countTx r).bridgeCallDatas =
      if batch = [] then r.bridgeCallDatas else addToSet r.bridgeCallDatas bridge := by
  induction batch using List.reverseRecOn with
  | nil =>
    refine ⟨?_, ?_, hassets.symm, rfl⟩
    · rw [if_pos (.inl rfl)]
      simp
    · simp [BridgeTxQueue.Limits.callDataUsed]
  | append_singleton batch t ih =>
    obtain ⟨hbatch, ht, hdefi, hbridge⟩ := h.concat
    obtain ⟨hgas, hcallData, hassets', hbridges⟩ := ih hbatch
    have hne : batch ++ [t] ≠ [] := List.append_ne_nil_of_right_ne_nil _ (List.cons_ne_nil t [])
    have hused : c.feeResolver.getUnadjustedTxGas t.tx.feeAssetId t.tx.txType -
        c.feeResolver.getUnadjustedBaseVerificationGas = l.gasUsedBy t := by
      rw [BridgeTxQueue.Limits.gasUsedBy, hl, hdefi, ht.fee.1]
    rw [List.foldl_concat, countTx]
    refine ⟨?_, ?_, ?_, ?_⟩
    · show (batch.foldl c.countTx r).gasUsed + _ + _ = _
      rw [hgas, hused, hbridges, hbridge, List.map_append, List.sum_append, List.map_singleton,
        List.sum_singleton]
      by_cases hmem : bridge ∈ r.bridgeCallDatas
      · have hcalled : bridge ∈ if batch = [] then r.bridgeCallDatas
            else addToSet r.bridgeCallDatas bridge := by
          split
          · exact hmem
          · exact mem_addToSet.mpr (.inl hmem)
        simp only [hcalled, hmem, not_true, and_false, or_true, if_true, if_false]
        omega
      · by_cases hempty : batch = []
        · subst hempty
          simp only [hmem, hdefi, hne, not_false_eq_true, and_self, or_false, if_true, if_false]
          omega
        · have hcalled : bridge ∈ addToSet r.bridgeCallDatas bridge := mem_addToSet.mpr (.inr rfl)
          simp only [hempty, hcalled, hmem, hne, not_true, and_false, or_self, if_false]
          omega
    · show (batch.foldl c.countTx r).callDataUsed + _ = _
      rw [hcallData, BridgeTxQueue.Limits.callDataUsed_concat, hl, hdefi, Int.add_assoc]
    · show (if c.CountsAsset t.tx then addToSet (batch.foldl c.countTx r).assetIds _
        else (batch.foldl c.countTx r).assetIds) = _
      have hpays : c.CountsAsset t.tx ↔ l.PaysFee t := by
        rw [countsAsset_of_defi ht hdefi, ← hl]
        rfl
      rw [hassets', BridgeTxQueue.Limits.assetsWith_concat, if_congr hpays rfl rfl, ht.fee.1]
    · show (if _ then addToSet (batch.foldl c.countTx r).bridgeCallDatas _ else _) = _
      rw [if_pos hdefi, hbridges, if_neg hne, hbridge]
      split
      case isTrue => rfl
      case isFalse => exact addToSet_of_mem (mem_addToSet.mpr (.inr rfl))

/-- A batch of one, where a call of the bridge is possible. -/
lemma Counts.checkAndAddTx (h : c.Counts P s.txs s.resourceConsumption) {tx : PendingTx}
    (hpending : P tx)
    (hdefi : tx.txType = .DEFI_DEPOSIT)
    (hroom : ¬ (c.feeResolver.isFeePayingAsset tx.feeAssetId ∧
      ¬ s.resourceConsumption.assetIds.contains tx.feeAssetId ∧
      s.resourceConsumption.assetIds.length = NUMBER_OF_ASSETS))
    (hbridge : tx.bridgeCallData ∉ s.resourceConsumption.bridgeCallDatas →
      s.resourceConsumption.bridgeCallDatas.length ≠ NUM_BRIDGE_CALLS_PER_BLOCK)
    {s' : Selection} (hs' : s' = c.checkAndAddTx tx.bridgeCallData
      (s.resourceConsumption.bridgeCallDatas.contains tx.bridgeCallData) s (createDefiRollupTx tx)) :
    c.Counts P s'.txs s'.resourceConsumption ∧ s'.bridgeQueues = s.bridgeQueues := by
  have ht := formed_createDefiRollupTx hpending
  have hbatch : Batch P tx.bridgeCallData [createDefiRollupTx tx] :=
    List.forall_mem_singleton.mpr ⟨ht, hdefi, rfl⟩
  -- the figures of the source are those of the transaction
  have hgas : (c.countTx s.resourceConsumption (createDefiRollupTx tx)).gasUsed =
      s.resourceConsumption.gasUsed +
      (if s.resourceConsumption.bridgeCallDatas.contains tx.bridgeCallData then 0
        else c.feeResolver.getFullBridgeGasFromContract tx.bridgeCallData) +
      (c.feeResolver.getUnadjustedTxGas (createDefiRollupTx tx).feeAssetId .DEFI_DEPOSIT -
        c.feeResolver.getUnadjustedBaseVerificationGas) := by
    rw [countTx, show (createDefiRollupTx tx).tx.txType = .DEFI_DEPOSIT from hdefi]
    by_cases hmem : tx.bridgeCallData ∈ s.resourceConsumption.bridgeCallDatas
    · rw [if_pos (List.contains_iff_mem.mpr hmem), if_neg fun hnot => hnot.2 hmem]
      exact Int.add_right_comm _ _ _
    · rw [if_neg fun hin => hmem (List.contains_iff_mem.mp hin), if_pos ⟨rfl, hmem⟩]
      exact Int.add_right_comm _ _ _
  have hcallData : (c.countTx s.resourceConsumption (createDefiRollupTx tx)).callDataUsed =
      s.resourceConsumption.callDataUsed + c.feeResolver.getTxCallData .DEFI_DEPOSIT := by
    rw [countTx, show (createDefiRollupTx tx).tx.txType = .DEFI_DEPOSIT from hdefi]
  unfold RollupCoordinator.checkAndAddTx at hs'
  dsimp only at hs'
  rw [← hgas, ← hcallData] at hs'
  split at hs'
  case isTrue =>
    rw [hs']
    exact ⟨h, rfl⟩
  case isFalse hlimits =>
    rw [not_or, not_lt, not_lt] at hlimits
    obtain ⟨htxs, -, hqueues, -⟩ := addDefiTxs_spec c tx.bridgeCallData s [createDefiRollupTx tx]
    have hresources : s'.resourceConsumption =
        c.countTx s.resourceConsumption (createDefiRollupTx tx) := by
      rw [hs', addDefiTxs_resources s _ hbatch]
      rfl
    have htxs' : s'.txs = s.txs ++ [createDefiRollupTx tx] := by
      rw [hs']
      exact htxs
    rw [hresources, htxs']
    refine ⟨h.concat ht hlimits.1 hlimits.2 ?_ ?_, ?_⟩
    · show (if _ then addToSet _ _ else _).length ≤ _
      split
      case isTrue hcounts =>
        exact length_addToSet_le h.assets fun hnot hfull =>
          hroom ⟨hcounts.2.1, fun hin => hnot (List.contains_iff_mem.mp hin), hfull⟩
      case isFalse => exact h.assets
    · show (if _ then addToSet _ _ else _).length ≤ _
      rw [if_pos (show (createDefiRollupTx tx).tx.txType = .DEFI_DEPOSIT from hdefi)]
      exact length_addToSet_le h.bridges hbridge
    · rw [hs']
      exact hqueues

/-- No asset or bridge is counted twice. -/
lemma nodup_resourcesOf (txs : List RollupTx) :
    (c.resourcesOf txs).assetIds.Nodup ∧ (c.resourcesOf txs).bridgeCallDatas.Nodup := by
  induction txs using List.reverseRecOn with
  | nil => exact ⟨List.nodup_nil, List.nodup_nil⟩
  | append_singleton txs t ih =>
    rw [resourcesOf_concat, countTx]
    dsimp only
    constructor
    · split
      case isTrue => exact nodup_addToSet ih.1 _
      case isFalse => exact ih.1
    · split
      case isTrue => exact nodup_addToSet ih.2 _
      case isFalse => exact ih.2

/-- A batch that the queue of a bridge returns. -/
lemma Counts.batch (h : c.Counts P s.txs s.resourceConsumption) {bridge : Nat} {batch : List RollupTx}
    (hbatch : Batch P bridge batch) (hnew : bridge ∉ s.resourceConsumption.bridgeCallDatas)
    (hbridges : s.resourceConsumption.bridgeCallDatas.length ≠ NUM_BRIDGE_CALLS_PER_BLOCK)
    {l : BridgeTxQueue.Limits} (hl : l.feeResolver = c.feeResolver)
    (hassets : l.assetIds = s.resourceConsumption.assetIds) (hmax : l.maxAssets = NUMBER_OF_ASSETS)
    (hgas : l.gasRemainingInRollup = c.maxGasForRollup - s.resourceConsumption.gasUsed)
    (hcallData : l.callDataRemainingInRollup =
      c.maxCallDataForRollup - s.resourceConsumption.callDataUsed)
    {result : BridgeTxQueue.BridgeQueueResult} (hresult : l.Batched bridge result)
    (htxs : result.txsToRollup = batch) :
    c.Counts P (s.txs ++ batch) { (c.addDefiTxs bridge s batch).resourceConsumption with
      gasUsed := s.resourceConsumption.gasUsed + result.resourcesConsumed.gasUsed
      callDataUsed := s.resourceConsumption.callDataUsed + result.resourcesConsumed.callDataUsed } := by
  obtain ⟨hgas', hcallData', hassets', hbridges'⟩ :=
    foldl_countTx (c := c) (r := s.resourceConsumption) hbatch l hl hassets
  have hne : batch ≠ [] := htxs ▸ hresult.nonempty
  have hresources : { (c.addDefiTxs bridge s batch).resourceConsumption with
      gasUsed := s.resourceConsumption.gasUsed + result.resourcesConsumed.gasUsed
      callDataUsed := s.resourceConsumption.callDataUsed + result.resourcesConsumed.callDataUsed } =
      batch.foldl c.countTx s.resourceConsumption := by
    rw [addDefiTxs_resources s batch hbatch, hresult.gasUsed, hresult.callDataUsed, htxs,
      BridgeTxQueue.Limits.gasUsed, hl, ← hcallData']
    have hgasEq : s.resourceConsumption.gasUsed + (c.feeResolver.getFullBridgeGasFromContract bridge +
        (batch.map l.gasUsedBy).sum) = (batch.foldl c.countTx s.resourceConsumption).gasUsed := by
      rw [hgas', if_neg (not_or.mpr ⟨hne, hnew⟩)]
      omega
    rw [hgasEq]
  rw [hresources]
  constructor
  case resources => rw [h.resources, resourcesOf, resourcesOf, List.foldl_append]
  case gas =>
    intro _
    have hle := hresult.gas
    rw [← hresources]
    show s.resourceConsumption.gasUsed + result.resourcesConsumed.gasUsed ≤ _
    omega
  case callData =>
    intro _
    have hle := hresult.callData
    rw [← hresources]
    show s.resourceConsumption.callDataUsed + result.resourcesConsumed.callDataUsed ≤ _
    omega
  case assets =>
    have hperm : (l.assetsWith batch).Perm result.resourcesConsumed.assetIds := by
      rw [List.perm_ext_iff_of_nodup (BridgeTxQueue.Limits.nodup_assetsWith batch) hresult.nodup]
      intro a
      rw [BridgeTxQueue.Limits.mem_assetsWith, hresult.assetIds, htxs]
    rw [hassets', hperm.length_eq, ← hmax]
    exact hresult.assets
  case bridges =>
    rw [hbridges', if_neg hne]
    exact length_addToSet_le h.bridges fun _ => hbridges
  case formed =>
    intro t ht
    rcases List.mem_append.mp ht with ht | ht
    · exact h.formed t ht
    · exact (hbatch t ht).1

/-- The limits that a bridge queue is given. -/
def queueLimits (c : RollupCoordinator) (s : Selection) (subsidy : Int) (remainingTxSlots : Nat)
    (h : s.resourceConsumption.assetIds.Nodup) : BridgeTxQueue.Limits where
  feeResolver := c.feeResolver
  availableSubsidy := subsidy
  maxRemainingTransactions := remainingTxSlots
  assetIds := s.resourceConsumption.assetIds
  assetIds_nodup := h
  maxAssets := NUMBER_OF_ASSETS
  gasRemainingInRollup := c.maxGasForRollup - s.resourceConsumption.gasUsed
  callDataRemainingInRollup := c.maxCallDataForRollup - s.resourceConsumption.callDataUsed

/-- A deposit waits in the queue of its bridge. -/
lemma Waits.addDefiTx (h : Waits P s) {tx : PendingTx}
    (hpending : P tx)
    (hdefi : tx.txType = .DEFI_DEPOSIT) :
    Batch P tx.bridgeCallData (BridgeTxQueue.addDefiTx (createDefiRollupTx tx)
      (s.bridgeQueues tx.bridgeCallData)) := by
  intro t ht
  have hperm := BridgeTxQueue.addDefiTx_perm (createDefiRollupTx tx)
    (s.bridgeQueues tx.bridgeCallData)
  rcases List.mem_cons.mp (hperm.mem_iff.mp ht) with rfl | ht
  · exact ⟨formed_createDefiRollupTx hpending, hdefi, rfl⟩
  · exact ⟨h.formed _ t ht, h.bridge _ t ht⟩

/-- What is counted has no duplicates. -/
lemma Counts.nodup (h : c.Counts P txs r) : r.assetIds.Nodup ∧ r.bridgeCallDatas.Nodup :=
  h.resources ▸ nodup_resourcesOf txs

/-- What the queue of a bridge returns, and what it keeps. -/
lemma Counts.getTxsToRollup (h : c.Counts P s.txs s.resourceConsumption) {bridge : Nat}
    {txQueue : List RollupTx} (hqueue : Batch P bridge txQueue)
    (hnew : bridge ∉ s.resourceConsumption.bridgeCallDatas)
    (hbridges : s.resourceConsumption.bridgeCallDatas.length ≠ NUM_BRIDGE_CALLS_PER_BLOCK)
    (subsidy : Int) (slots : Nat) {result : BridgeTxQueue.BridgeQueueResult} {rest : List RollupTx}
    (heq : (queueLimits c s subsidy slots h.nodup.1).getTxsToRollup bridge txQueue = (result, rest)) :
    c.Counts P (s.txs ++ result.txsToRollup)
      { (c.addDefiTxs bridge s result.txsToRollup).resourceConsumption with
        gasUsed := s.resourceConsumption.gasUsed + result.resourcesConsumed.gasUsed
        callDataUsed := s.resourceConsumption.callDataUsed + result.resourcesConsumed.callDataUsed } ∧
    Batch P bridge rest := by
  by_cases hprofit : (queueLimits c s subsidy slots h.nodup.1).Profitable bridge
      ((queueLimits c s subsidy slots h.nodup.1).consider bridge txQueue)
  case neg =>
    rw [BridgeTxQueue.Limits.getTxsToRollup_of_not_profitable hprofit] at heq
    cases heq
    refine ⟨?_, hqueue⟩
    show c.Counts P (s.txs ++ []) { s.resourceConsumption with
      gasUsed := s.resourceConsumption.gasUsed + 0
      callDataUsed := s.resourceConsumption.callDataUsed + 0 }
    rw [List.append_nil, Int.add_zero, Int.add_zero]
    exact h
  case pos =>
    have hbatched := BridgeTxQueue.Limits.batched_of_profitable hprofit h.assets
    rw [heq] at hbatched
    rw [BridgeTxQueue.Limits.getTxsToRollup_of_profitable hprofit] at heq
    cases heq
    obtain ⟨txs, htxs, hsub, -⟩ := @BridgeTxQueue.consider_spec c.feeResolver bridge
      slots NUMBER_OF_ASSETS (c.maxGasForRollup - s.resourceConsumption.gasUsed)
      (c.maxCallDataForRollup - s.resourceConsumption.callDataUsed) txQueue
      ⟨[], s.resourceConsumption.assetIds, 0, c.feeResolver.getFullBridgeGasFromContract bridge, 0⟩
      (Nat.zero_le slots)
    refine ⟨h.batch (fun t ht => ?_) hnew hbridges rfl rfl rfl rfl rfl hbatched rfl,
      fun t ht => hqueue t (List.mem_of_mem_drop ht)⟩
    have hmem : t ∈ [] ++ txs := htxs ▸ ht
    exact hqueue t (hsub.subset hmem)

/-- What remains of a queue waits. -/
lemma Waits.of_batch (h : Waits P s) {s' : Selection} {bridge : Nat} {rest : List RollupTx}
    (hrest : Batch P bridge rest) (hs' : s'.bridgeQueues = Function.update s.bridgeQueues bridge rest) :
    Waits P s' := by
  have hqueues (b : Nat) : Batch P b (s'.bridgeQueues b) := by
    rw [hs']
    by_cases heq : b = bridge
    · rw [heq, Function.update_self]
      exact hrest
    · rw [Function.update_of_ne heq]
      exact fun t ht => ⟨h.formed b t ht, h.bridge b t ht⟩
  exact ⟨fun b t ht => (hqueues b t ht).1, fun b t ht => (hqueues b t ht).2⟩

/-- Queues that stay wait. -/
lemma Waits.of_eq (h : Waits P s) {s' : Selection} (hs' : s'.bridgeQueues = s.bridgeQueues) :
    Waits P s' := ⟨hs' ▸ h.formed, hs' ▸ h.bridge⟩

/-- A deposit that is taken or queued keeps the count. -/
lemma counts_handleNewDefiTx (h : c.Counts P s.txs s.resourceConsumption) (hwaits : Waits P s)
    {tx : PendingTx} (hpending : P tx)
    {flush : Bool} {index slots : Nat} (hdefi : tx.txType = .DEFI_DEPOSIT)
    (hroom : ¬ (c.feeResolver.isFeePayingAsset tx.feeAssetId ∧
      ¬ s.resourceConsumption.assetIds.contains tx.feeAssetId ∧
      s.resourceConsumption.assetIds.length = NUMBER_OF_ASSETS)) :
    c.Counts P (c.handleNewDefiTx flush index slots s tx).txs
        (c.handleNewDefiTx flush index slots s tx).resourceConsumption ∧
      Waits P (c.handleNewDefiTx flush index slots s tx) := by
  fun_cases handleNewDefiTx c flush index slots s tx
  case case1 hpresent =>
    obtain ⟨hcounts, hqueues⟩ := h.checkAndAddTx hpending hdefi hroom
      (fun hnot => absurd (List.contains_iff_mem.mp hpresent) hnot)
      (show c.checkAndAddTx _ true s _ = _ from congrArg (c.checkAndAddTx _ · s _) (Eq.symm hpresent))
    exact ⟨hcounts, hwaits.of_eq hqueues⟩
  case case2 => exact ⟨h, hwaits⟩
  case case3 hpresent hfull _ =>
    obtain ⟨hcounts, hqueues⟩ := h.checkAndAddTx hpending hdefi hroom (fun _ => hfull)
      (show c.checkAndAddTx _ false s _ = _ from
        congrArg (c.checkAndAddTx _ · s _) (Eq.symm (eq_false_of_ne_true hpresent)))
    exact ⟨hcounts, hwaits.of_eq hqueues⟩
  case case4 bridge present hpresent hfull _ txQueue txs gasUsed callDataUsed rest hresult _ =>
    have hnew : bridge ∉ s.resourceConsumption.bridgeCallDatas := fun hmem =>
      hpresent (List.contains_iff_mem.mpr hmem)
    have heq := hresult.symm.trans (BridgeTxQueue.getTxsToRollup_eq
      (queueLimits c s (c.getBridgeSubsidy index bridge) slots h.nodup.1) bridge txQueue)
    obtain ⟨result, left, hreturned⟩ : ∃ result left, (queueLimits c s
        (c.getBridgeSubsidy index bridge) slots h.nodup.1).getTxsToRollup bridge txQueue =
          (result, left) := ⟨_, _, rfl⟩
    obtain ⟨hcounts, hrest⟩ := h.getTxsToRollup (hwaits.addDefiTx hpending hdefi) hnew hfull
      (c.getBridgeSubsidy index bridge) slots hreturned
    rw [hreturned] at heq
    simp only [Prod.mk.injEq] at heq
    obtain ⟨rfl, rfl, rfl, rfl⟩ := heq
    obtain ⟨hadded, -, hqueues, -⟩ := addDefiTxs_spec c bridge s result.txsToRollup
    have hsame : (c.addDefiTxs bridge s result.txsToRollup).resourceConsumption.gasUsed =
        s.resourceConsumption.gasUsed ∧
        (c.addDefiTxs bridge s result.txsToRollup).resourceConsumption.callDataUsed =
          s.resourceConsumption.callDataUsed := by
      refine List.foldlRecOn result.txsToRollup _ (motive := fun s' : Selection =>
        s'.resourceConsumption.gasUsed = s.resourceConsumption.gasUsed ∧
          s'.resourceConsumption.callDataUsed = s.resourceConsumption.callDataUsed) ⟨rfl, rfl⟩ ?_
      exact fun s' hs' t _ => hs'
    refine ⟨?_, hwaits.of_batch hrest ?_⟩
    · dsimp only
      rw [hadded, hsame.1, hsame.2]
      exact hcounts
    · dsimp only
      rw [hqueues]

/-! ## The selection -/

/-- Sorting keeps the transactions. -/
lemma mem_sortTxs {pendingTxs : List PendingTx} {tx : PendingTx} :
    tx ∈ sortTxs pendingTxs ↔ tx ∈ pendingTxs := by
  rw [sortTxs_eq]
  exact (List.filter_append_perm isClaim pendingTxs).mem_iff

section Selection

variable (haccount : ∀ a, c.feeResolver.getUnadjustedTxGas a .ACCOUNT =
  c.feeResolver.getUnadjustedTxGas 0 .ACCOUNT)
include haccount

/-- One transaction keeps the count. -/
lemma counts_selectTx (h : c.Counts P s.txs s.resourceConsumption) (hwaits : Waits P s) (flush : Bool)
    (index : Nat) {tx : PendingTx}
    (hpending : P tx) :
    c.Counts P (c.selectTx flush index s tx).txs (c.selectTx flush index s tx).resourceConsumption ∧
      Waits P (c.selectTx flush index s tx) := by
  have hdiscard : Waits P { s with
      discardedCommitments := s.discardedCommitments ++
        [tx.proofData.noteCommitment1, tx.proofData.noteCommitment2] } := hwaits.of_eq rfl
  fun_cases selectTx c flush index s tx
  case case1 hacc r hr => exact ⟨h.account hpending hacc haccount hr, hwaits.of_eq rfl⟩
  case case2 => exact ⟨h, hwaits⟩
  case case3 => exact ⟨h, hdiscard⟩
  case case4 => exact ⟨h, hdiscard⟩
  case case5 hacc hroom _ hdefi r hr => exact ⟨h.plain hpending hacc hdefi hroom hr, hwaits.of_eq rfl⟩
  case case6 => exact ⟨h, hdiscard⟩
  case case7 hacc hroom _ hdefi =>
    exact counts_handleNewDefiTx h hwaits hpending (not_not.mp hdefi) hroom

/-- So do all of them. -/
lemma counts_selectTxs (flush : Bool) (index : Nat) {rest : List PendingTx}
    (hpending : ∀ tx ∈ rest, P tx)
    (h : c.Counts P s.txs s.resourceConsumption) (hwaits : Waits P s) :
    c.Counts P (c.selectTxs flush index rest s).txs
      (c.selectTxs flush index rest s).resourceConsumption := by
  induction rest generalizing s index with
  | nil => exact h
  | cons tx rest ih =>
    rw [selectTxs]
    split
    case isFalse => exact h
    case isTrue =>
      obtain ⟨hcounts, hwaits⟩ := counts_selectTx haccount h hwaits flush index
        (hpending tx List.mem_cons_self)
      exact ih (index + 1) (fun tx htx => hpending tx (List.mem_cons_of_mem _ htx)) hcounts hwaits

/-- The selection is counted. -/
lemma counts_getNextTxsToRollup {pendingTxs : List PendingTx} (flush : Bool)
    (hpending : ∀ tx ∈ pendingTxs, P tx) :
    c.Counts P (c.getNextTxsToRollup pendingTxs flush).txs
      (c.getNextTxsToRollup pendingTxs flush).resourceConsumption := by
  refine counts_selectTxs haccount flush 0 (fun tx htx => hpending tx (mem_sortTxs.mp htx)) ?_
    ⟨fun _ => List.forall_mem_nil _, fun _ => List.forall_mem_nil _⟩
  exact ⟨rfl, (absurd rfl ·), (absurd rfl ·), Nat.zero_le _, Nat.zero_le _, List.forall_mem_nil _⟩

/-- The second class is counted on top of it. -/
lemma counts_addSecondClass (txsToRollup : List RollupTx) {txs : List PendingTx}
    (hpending : ∀ tx ∈ txs, P tx)
    (secondClassTxs : List RollupTx) (r : RollupResources)
    (h : c.Counts P (txsToRollup ++ secondClassTxs) r) :
    c.Counts P (txsToRollup ++ (c.addSecondClass txsToRollup txs secondClassTxs r).1)
      (c.addSecondClass txsToRollup txs secondClassTxs r).2 := by
  induction txs generalizing secondClassTxs r with
  | nil => exact h
  | cons tx txs ih =>
    obtain ⟨hself, hpending⟩ := List.forall_mem_cons.mp hpending
    rw [addSecondClass]
    split
    case isFalse => exact h
    case isTrue =>
      split
      case isFalse => exact ih hpending _ _ h
      case isTrue hacc =>
        split
        case h_2 => exact ih hpending _ _ h
        case h_1 r' hr =>
          refine ih hpending _ _ ?_
          rw [← List.append_assoc]
          exact h.account hself hacc haccount hr

/-- So is what is handed on. -/
lemma counts_processedTxs {pendingTxs pendingSecondClassTxs : List PendingTx} (flush : Bool)
    (hpending : ∀ tx ∈ pendingTxs, P tx)
    (hpending' : ∀ tx ∈ pendingSecondClassTxs,
      P tx) :
    c.Counts P (c.processedTxs pendingTxs flush pendingSecondClassTxs).1
      (c.processedTxs pendingTxs flush pendingSecondClassTxs).2 := by
  have h := counts_getNextTxsToRollup haccount flush hpending
  unfold processedTxs
  dsimp only
  split
  case isTrue => exact h
  case isFalse =>
    have hstart : c.Counts P ((c.getNextTxsToRollup pendingTxs flush).txs ++ [])
        (c.getNextTxsToRollup pendingTxs flush).resourceConsumption := by
      rw [List.append_nil]
      exact h
    exact counts_addSecondClass haccount _ (fun tx htx => hpending' tx (List.mem_of_mem_take htx)) [] _
      hstart

end Selection

end RollupCoordinator

end AztecConnect.Falafel
