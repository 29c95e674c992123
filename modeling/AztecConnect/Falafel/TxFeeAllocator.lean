import AztecConnect.Falafel.FeeCalculator
import AztecConnect.Lib.Resumption
import Mathlib.Algebra.BigOperators.Group.List.Basic

/-!
# The gas of a request

Translation of `falafel/src/tx_receiver/tx_fee_allocator.ts`, as `receiveTxs` calls it. What is paid
for the verification and the bridge beyond the gas that is required is given to the transactions of the
request as excess gas, which counts for the batch of a bridge.
-/

namespace AztecConnect.Falafel

/-- What the allocator reads of a transaction, with its type. -/
structure ReceivedTx where
  txType : TxType
  feeAssetId : Nat
  txFee : Nat
  /-- Of a defi deposit. -/
  bridgeCallData : Client.BridgeCallData

/-- `TxGroupValidation`. -/
structure TxGroupValidation where
  hasFeelessTxs : Bool
  feePayingAsset : Option Nat
  gasRequired : Nat
  gasProvided : Nat

namespace TxFeeAllocator

open Resumption (bind_eq_ok)

variable (R : FeeResolver)

/-- The transaction pays a fee in a fee asset. -/
def paysFee (tx : ReceivedTx) : Bool := R.isFeePayingAsset tx.feeAssetId && tx.txFee != 0

/-- The first loop of `validateReceivedTxs`. -/
def addFeeAsset (s : List Nat × Bool) (tx : ReceivedTx) : List Nat × Bool :=
  if paysFee R tx then (addToSet s.1 tx.feeAssetId, s.2) else (s.1, true)

/-- With the gas of the claim of a defi deposit. -/
def gasCost (assetId : Nat) (tx : ReceivedTx) : Nat :=
  if tx.txType = .DEFI_DEPOSIT
  then R.getAdjustedBridgeTxGas assetId tx.bridgeCallData.toBigInt +
    R.getAdjustedTxGas assetId .DEFI_CLAIM
  else R.getAdjustedTxGas assetId tx.txType

/-- The second loop, on the gas that is required and the gas that is provided. -/
def countGas (exitOnly : Bool) (feePayingAsset : Option Nat) (g : Nat × Nat) (tx : ReceivedTx) :
    Except String (Nat × Nat) := do
  let gasRequired := if exitOnly then 0 else g.1 + gasCost R tx.feeAssetId tx
  if some tx.feeAssetId = feePayingAsset then
    let gasPaidFor ← R.getGasPaidForByFee tx.feeAssetId tx.txFee
    .ok (gasRequired, g.2 + gasPaidFor)
  else .ok (gasRequired, g.2)

/-- In exit-only mode there may be no fee. -/
def allowedFeeAssetCount (exitOnly : Bool) : List Nat := if exitOnly then [0, 1] else [1]

/-- `validateReceivedTxs`. -/
def validateReceivedTxs (txs : List ReceivedTx) (exitOnly : Bool) :
    Except String TxGroupValidation := do
  let (feePayingAssets, hasFeelessTxs) := txs.foldl (addFeeAsset R) ([], false)
  if !(allowedFeeAssetCount exitOnly).contains feePayingAssets.length
  then .error "Transactions don't have the correct number of fee paying assets"
  else
    let feePayingAsset := feePayingAssets.head?
    let (gasRequired, gasProvided) ← txs.foldlM (countGas R exitOnly feePayingAsset) (0, 0)
    .ok { hasFeelessTxs, feePayingAsset, gasRequired, gasProvided }

/-- The excess of a transaction that pays a fee. -/
def excessGasOf (tx : ReceivedTx) : Except String Int := do
  let gasProvidedThisTx ← R.getGasPaidForByFee tx.feeAssetId tx.txFee
  .ok (max 0 ((gasProvidedThisTx : Int) - gasCost R tx.feeAssetId tx))

/-- The cost of a defi deposit is that in its input asset. -/
def gasCostOfFeeless (tx : ReceivedTx) : Nat :=
  gasCost R (if tx.txType = .DEFI_DEPOSIT then tx.bridgeCallData.inputAssetIdA else tx.feeAssetId) tx

/-- On the excess gas of the transactions. -/
def reallocateGas (txs : List ReceivedTx) (validation : TxGroupValidation) (excessGas : List Int) :
    Except String (List Int) :=
  if validation.gasProvided ≤ validation.gasRequired then .ok excessGas
  else if !validation.hasFeelessTxs then txs.mapM (excessGasOf R)
  else
    let providedGas : Int :=
      txs.foldl (fun (g : Int) tx => g - gasCostOfFeeless R tx) validation.gasProvided
    if providedGas = 0 then .ok excessGas
    else
      -- if we have a defi, allocate the excess gas to it
      match txs.findIdx? (·.txType = .DEFI_DEPOSIT) with
      | some defiIndex => .ok (excessGas.set defiIndex (max 0 providedGas))
      | none =>
        match txs.findIdx? (fun tx => !paysFee R tx) with
        | some nonFeeIndex => .ok (excessGas.set nonFeeIndex (max 0 providedGas))
        | none => .error "Failed to allocate fee to tx"

/-- Of the fee of a transaction. -/
def gasPaid (tx : ReceivedTx) : Nat := ((R.getGasPaidForByFee tx.feeAssetId tx.txFee).toOption).getD 0

/-! ## What the loops count -/

variable {R}

/-- The fee assets of all that pay are collected, and whether some do not. -/
lemma foldl_addFeeAsset (txs : List ReceivedTx) :
    (∀ tx ∈ txs, paysFee R tx → tx.feeAssetId ∈ (txs.foldl (addFeeAsset R) ([], false)).1) ∧
    ((txs.foldl (addFeeAsset R) ([], false)).2 = false ↔ ∀ tx ∈ txs, paysFee R tx) := by
  induction txs using List.reverseRecOn with
  | nil => exact ⟨nofun, ⟨fun _ => nofun, fun _ => rfl⟩⟩
  | append_singleton txs tx ih =>
    obtain ⟨hassets, hfeeless⟩ := ih
    rw [List.foldl_concat]
    unfold addFeeAsset
    split
    case isTrue hpays =>
      refine ⟨fun tx' hmem hpays' => ?_, ?_⟩
      · show tx'.feeAssetId ∈ addToSet _ tx.feeAssetId
        rw [mem_addToSet]
        rcases List.mem_append.mp hmem with hmem | hmem
        · exact .inl (hassets tx' hmem hpays')
        · exact .inr (congrArg _ (List.mem_singleton.mp hmem))
      · refine hfeeless.trans ⟨fun h tx' hmem => ?_, fun h tx' hmem => h tx' (List.mem_append_left _ hmem)⟩
        rcases List.mem_append.mp hmem with hmem | hmem
        · exact h tx' hmem
        · exact List.mem_singleton.mp hmem ▸ hpays
    case isFalse hpays =>
      refine ⟨fun tx' hmem hpays' => ?_, ⟨nofun, fun h => ?_⟩⟩
      · rcases List.mem_append.mp hmem with hmem | hmem
        · exact hassets tx' hmem hpays'
        · exact absurd (List.mem_singleton.mp hmem ▸ hpays') hpays
      · exact absurd (h tx (List.mem_append_right _ (List.mem_singleton.mpr rfl))) hpays

/-- The gas a fee pays for. -/
lemma gasPaid_of_ok {tx : ReceivedTx} {g : Nat}
    (h : R.getGasPaidForByFee tx.feeAssetId tx.txFee = .ok g) : gasPaid R tx = g := by
  rw [gasPaid, h]
  rfl

/-- A transaction is counted with what it needs and what it pays. -/
lemma countGas_ok {exitOnly : Bool} {feePayingAsset : Option Nat} {g g' : Nat × Nat}
    {tx : ReceivedTx} (h : countGas R exitOnly feePayingAsset g tx = .ok g') :
    g'.1 = (if exitOnly then 0 else g.1 + gasCost R tx.feeAssetId tx) ∧
    g'.2 = g.2 + (if some tx.feeAssetId = feePayingAsset then gasPaid R tx else 0) ∧
    (some tx.feeAssetId = feePayingAsset →
      R.getGasPaidForByFee tx.feeAssetId tx.txFee = .ok (gasPaid R tx)) := by
  unfold countGas at h
  dsimp only at h
  split at h
  case isTrue hasset =>
    obtain ⟨gasPaidFor, hpaid, heq⟩ := bind_eq_ok h
    cases heq
    rw [if_pos hasset, gasPaid_of_ok hpaid]
    exact ⟨rfl, rfl, fun _ => hpaid⟩
  case isFalse hasset =>
    cases h
    rw [if_neg hasset]
    exact ⟨rfl, rfl, fun hasset' => absurd hasset' hasset⟩

/-- So are all of them. -/
lemma foldlM_countGas {exitOnly : Bool} {feePayingAsset : Option Nat} (txs : List ReceivedTx) {g}
    (h : txs.foldlM (countGas R exitOnly feePayingAsset) (0, 0) = .ok g) :
    g.1 = (if exitOnly then 0 else (txs.map fun tx => gasCost R tx.feeAssetId tx).sum) ∧
    g.2 = (txs.map fun tx =>
      if some tx.feeAssetId = feePayingAsset then gasPaid R tx else 0).sum ∧
    ∀ tx ∈ txs, some tx.feeAssetId = feePayingAsset →
      R.getGasPaidForByFee tx.feeAssetId tx.txFee = .ok (gasPaid R tx) := by
  induction txs using List.reverseRecOn generalizing g with
  | nil =>
    cases h
    refine ⟨?_, rfl, nofun⟩
    split <;> rfl
  | append_singleton txs tx ih =>
    rw [List.foldlM_append] at h
    obtain ⟨g₁, h₁, h⟩ := bind_eq_ok h
    rw [List.foldlM_cons] at h
    obtain ⟨g₂, h₂, heq⟩ := bind_eq_ok h
    cases heq
    obtain ⟨hreq, hprov, hall⟩ := ih h₁
    obtain ⟨hreq', hprov', hpaid⟩ := countGas_ok h₂
    simp only [List.map_append, List.map_cons, List.map_nil, List.sum_append, List.sum_singleton]
    refine ⟨?_, ?_, ?_⟩
    · rw [hreq', hreq]
      split <;> rfl
    · rw [hprov', hprov]
    · intro tx' hmem hasset
      rcases List.mem_append.mp hmem with hmem | hmem
      · exact hall tx' hmem hasset
      · obtain rfl := List.mem_singleton.mp hmem
        exact hpaid hasset

/-- There is at most one fee asset. -/
lemma le_one_of_allowed {exitOnly : Bool} {n : Nat} (h : n ∈ allowedFeeAssetCount exitOnly) :
    n ≤ 1 := by
  cases exitOnly with
  | false => exact (List.mem_singleton.mp h).le
  | true =>
    rcases List.mem_pair.mp h with rfl | rfl
    · exact Nat.zero_le 1
    · exact le_rfl

/-- What the validation says of a request. -/
structure Validated (R : FeeResolver) (txs : List ReceivedTx) (exitOnly : Bool)
    (validation : TxGroupValidation) : Prop where
  feeless : validation.hasFeelessTxs = false ↔ ∀ tx ∈ txs, paysFee R tx
  required : validation.gasRequired =
    if exitOnly then 0 else (txs.map fun tx => gasCost R tx.feeAssetId tx).sum
  /-- Where every transaction pays a fee, the fees are in one asset. -/
  provided : (∀ tx ∈ txs, paysFee R tx) →
    validation.gasProvided = (txs.map (gasPaid R)).sum ∧
    ∀ tx ∈ txs, R.getGasPaidForByFee tx.feeAssetId tx.txFee = .ok (gasPaid R tx)

/-- Outside exit-only mode, the gas required is the cost of all. -/
lemma Validated.gasRequired_eq {txs : List ReceivedTx} {validation : TxGroupValidation}
    (h : Validated R txs false validation) :
    validation.gasRequired = (txs.map fun tx => gasCost R tx.feeAssetId tx).sum := h.required

/-- What is validated. -/
lemma validateReceivedTxs_ok {txs : List ReceivedTx} {exitOnly : Bool}
    {validation : TxGroupValidation} (h : validateReceivedTxs R txs exitOnly = .ok validation) :
    Validated R txs exitOnly validation := by
  obtain ⟨hassets, hfeeless⟩ := foldl_addFeeAsset (R := R) txs
  unfold validateReceivedTxs at h
  dsimp only at h
  split at h
  case isTrue => cases h
  case isFalse hcount =>
    obtain ⟨g, hg, heq⟩ := bind_eq_ok h
    cases heq
    obtain ⟨hrequired, hprovided, hpaid⟩ := foldlM_countGas txs hg
    refine ⟨hfeeless, hrequired, fun hall => ?_⟩
    have hone : ∀ tx ∈ txs, some tx.feeAssetId =
        (txs.foldl (addFeeAsset R) ([], false)).1.head? := by
      intro tx hmem
      have hin := hassets tx hmem (hall tx hmem)
      have hlen : (txs.foldl (addFeeAsset R) ([], false)).1.length ≤ 1 := by
        refine le_one_of_allowed (?_ : _ ∈ allowedFeeAssetCount exitOnly)
        simpa using hcount
      match hassets : (txs.foldl (addFeeAsset R) ([], false)).1, hlen with
      | [], _ => exact absurd (hassets ▸ hin) List.not_mem_nil
      | [a], _ => exact congrArg _ (List.mem_singleton.mp (hassets ▸ hin))
    refine ⟨?_, fun tx hmem => hpaid tx hmem (hone tx hmem)⟩
    show g.2 = _
    rw [hprovided]
    exact congrArg _ (List.map_congr_left fun tx hmem => if_pos (hone tx hmem))

/-! ## The excess -/

/-- Every transaction gets its excess, none of it is negative, and together it is what the request
pays beyond what it requires. -/
def Covered (R : FeeResolver) (txs : List ReceivedTx) (validation : TxGroupValidation) : Prop :=
  ∃ excessGas, reallocateGas R txs validation (txs.map fun _ => 0) = .ok excessGas ∧
    excessGas.length = txs.length ∧ (∀ g ∈ excessGas, 0 ≤ g) ∧
    excessGas.sum ≤ (validation.gasProvided : Int) - validation.gasRequired

/-- Where every transaction of a request pays a fee, and together they pay for more gas than the
request requires, every one of them pays for its own gas. -/
def OwnGasPaid (R : FeeResolver) (txs : List ReceivedTx) (exitOnly : Bool) : Prop :=
  exitOnly ∨ (∃ tx ∈ txs, ¬ paysFee R tx) ∨
    (txs.map (gasPaid R)).sum = (txs.map fun tx => gasCost R tx.feeAssetId tx).sum ∨
    ∀ tx ∈ txs, gasCost R tx.feeAssetId tx ≤ gasPaid R tx

/-- The excess of all is at most the sum of the positive ones. -/
lemma sub_le_sum_max (txs : List ReceivedTx) (paid cost : ReceivedTx → Nat) :
    ((txs.map paid).sum : Int) - (txs.map cost).sum ≤
      (txs.map fun tx => max 0 ((paid tx : Int) - cost tx)).sum := by
  induction txs with
  | nil => exact le_rfl
  | cons tx txs ih =>
    simp only [List.map_cons, List.sum_cons]
    have hle := le_max_right 0 ((paid tx : Int) - cost tx)
    rw [Nat.cast_add, Nat.cast_add]
    omega

/-- Nothing is lost to a transaction that pays less than its cost. -/
lemma sum_max_le_iff (txs : List ReceivedTx) (paid cost : ReceivedTx → Nat) :
    (txs.map fun tx => max 0 ((paid tx : Int) - cost tx)).sum ≤
      ((txs.map paid).sum : Int) - (txs.map cost).sum ↔ ∀ tx ∈ txs, cost tx ≤ paid tx := by
  induction txs with
  | nil => exact ⟨fun _ => nofun, fun _ => le_rfl⟩
  | cons tx txs ih =>
    have hle := sub_le_sum_max txs paid cost
    rw [List.forall_mem_cons, ← ih]
    simp only [List.map_cons, List.sum_cons]
    rw [Nat.cast_add, Nat.cast_add]
    rcases le_or_gt (cost tx) (paid tx) with hpaid | hpaid
    · rw [max_eq_right (by omega)]
      constructor
      · exact fun h => ⟨hpaid, by omega⟩
      · exact fun h => by omega
    · rw [max_eq_left (by omega)]
      constructor
      · exact fun h => absurd h (by omega)
      · exact fun h => absurd h.1 (by omega)

/-- The sum of the positive ones is at most what is paid. -/
lemma sum_max_le (txs : List ReceivedTx) (paid cost : ReceivedTx → Nat) :
    (txs.map fun tx => max 0 ((paid tx : Int) - cost tx)).sum ≤ ((txs.map paid).sum : Int) := by
  induction txs with
  | nil => exact le_rfl
  | cons tx txs ih =>
    simp only [List.map_cons, List.sum_cons]
    have hle : max 0 ((paid tx : Int) - cost tx) ≤ paid tx := max_le (by omega) (by omega)
    rw [Nat.cast_add]
    omega

/-- The excess of each. -/
lemma mapM_excessGasOf {txs : List ReceivedTx} (h : ∀ tx ∈ txs,
    R.getGasPaidForByFee tx.feeAssetId tx.txFee = .ok (gasPaid R tx)) :
    txs.mapM (excessGasOf R) =
      .ok (txs.map fun tx => max 0 ((gasPaid R tx : Int) - gasCost R tx.feeAssetId tx)) := by
  induction txs with
  | nil => rfl
  | cons tx txs ih =>
    have hone : excessGasOf R tx =
        .ok (max 0 ((gasPaid R tx : Int) - gasCost R tx.feeAssetId tx)) := by
      rw [excessGasOf, h tx List.mem_cons_self]
      rfl
    rw [List.mapM_cons, hone, ih fun tx' hmem => h tx' (List.mem_cons_of_mem tx hmem)]
    rfl

/-- A transaction without a fee costs as much. -/
lemma gasCostOfFeeless_eq (tx : ReceivedTx) :
    gasCostOfFeeless R tx = gasCost R tx.feeAssetId tx := by
  unfold gasCostOfFeeless
  split
  case isTrue hdefi =>
    unfold gasCost
    rw [if_pos hdefi, if_pos hdefi, FeeResolver.getAdjustedBridgeTxGas,
      R.getAdjustedTxGas_defi (.inl rfl) _ tx.feeAssetId,
      R.getAdjustedTxGas_defi (.inr rfl) _ tx.feeAssetId]
    rfl
  case isFalse => rfl

/-- What is left after the costs of all. -/
lemma foldl_providedGas (txs : List ReceivedTx) (gasProvided : Int) :
    txs.foldl (fun (g : Int) tx => g - gasCostOfFeeless R tx) gasProvided =
      gasProvided - (txs.map fun tx => gasCost R tx.feeAssetId tx).sum := by
  induction txs using List.reverseRecOn with
  | nil => exact (sub_zero _).symm
  | append_singleton txs tx ih =>
    rw [List.foldl_concat, ih, gasCostOfFeeless_eq, List.map_append, List.sum_append]
    push_cast [List.map_cons, List.map_nil, List.sum_singleton]
    omega

/-- If one transaction gets all, the sum is that. -/
lemma sum_set_zero {txs : List ReceivedTx} {i : Nat} (hi : i < txs.length) (g : Int) :
    ((txs.map fun _ => (0 : Int)).set i g).sum = g := by
  induction txs generalizing i with
  | nil => exact absurd hi (Nat.not_lt_zero i)
  | cons tx txs ih =>
    cases i with
    | zero =>
      rw [List.map_cons, List.set_cons_zero, List.sum_cons, List.map_const', List.sum_replicate,
        nsmul_zero, add_zero]
    | succ i =>
      rw [List.map_cons, List.set_cons_succ, List.sum_cons, zero_add]
      exact ih (Nat.lt_of_succ_lt_succ hi)

/-- The excess goes to one transaction, if there is any. -/
lemma reallocateGas_feeless {txs : List ReceivedTx} {validation : TxGroupValidation}
    (hlt : validation.gasRequired < validation.gasProvided)
    (hfeeless : validation.hasFeelessTxs = true) (hone : ∃ tx ∈ txs, ¬ paysFee R tx) :
    ∃ excessGas, reallocateGas R txs validation (txs.map fun _ => 0) = .ok excessGas ∧
      excessGas.length = txs.length ∧ (∀ g ∈ excessGas, 0 ≤ g) ∧
      excessGas.sum ≤ max 0 ((validation.gasProvided : Int) -
        (txs.map fun tx => gasCost R tx.feeAssetId tx).sum) := by
  have hset {i : Nat} (hi : i < txs.length) (providedGas : Int) :
      ((txs.map fun _ => (0 : Int)).set i (max 0 providedGas)).length = txs.length ∧
      (∀ g ∈ (txs.map fun _ => (0 : Int)).set i (max 0 providedGas), 0 ≤ g) ∧
      ((txs.map fun _ => (0 : Int)).set i (max 0 providedGas)).sum ≤ max 0 providedGas := by
    refine ⟨by rw [List.length_set, List.length_map], fun g hg => ?_, (sum_set_zero hi _).le⟩
    rcases List.mem_or_eq_of_mem_set hg with hzero | rfl
    · obtain ⟨-, -, rfl⟩ := List.mem_map.mp hzero
      exact le_rfl
    · exact le_max_left 0 providedGas
  unfold reallocateGas
  rw [if_neg (not_le.mpr hlt), if_neg (by rw [hfeeless]; exact Bool.false_ne_true),
    foldl_providedGas]
  dsimp only
  split
  case isTrue =>
    refine ⟨_, rfl, List.length_map _, fun g hg => ?_, ?_⟩
    · obtain ⟨-, -, rfl⟩ := List.mem_map.mp hg
      exact le_rfl
    · rw [List.map_const', List.sum_replicate, nsmul_zero]
      exact le_max_left _ _
  case isFalse =>
    split
    case h_1 defiIndex hdefi =>
      exact ⟨_, rfl, hset (List.findIdx?_eq_some_iff_getElem.mp hdefi).1 _⟩
    case h_2 =>
      split
      case h_1 nonFeeIndex hnonFee =>
        exact ⟨_, rfl, hset (List.findIdx?_eq_some_iff_getElem.mp hnonFee).1 _⟩
      case h_2 hnone =>
        obtain ⟨tx, hmem, hpays⟩ := hone
        have hno := List.findIdx?_eq_none_iff.mp hnone tx hmem
        rw [Bool.not_eq_false'] at hno
        exact absurd hno hpays

/-- There is no excess. -/
lemma covered_of_eq {txs : List ReceivedTx} {validation : TxGroupValidation}
    (h : validation.gasRequired = validation.gasProvided) : Covered R txs validation := by
  refine ⟨_, if_pos h.ge, List.length_map _, fun g hg => ?_, ?_⟩
  · obtain ⟨-, -, rfl⟩ := List.mem_map.mp hg
    exact le_rfl
  · rw [List.map_const', List.sum_replicate, nsmul_zero, h, sub_self]

/-- With a transaction that pays no fee the excess is covered. -/
lemma covered_of_feeless {txs : List ReceivedTx} {exitOnly : Bool} {validation : TxGroupValidation}
    (hv : Validated R txs exitOnly validation)
    (hlt : validation.gasRequired < validation.gasProvided) (hone : ∃ tx ∈ txs, ¬ paysFee R tx) :
    Covered R txs validation := by
  have hfeeless : validation.hasFeelessTxs = true := by
    rw [← Bool.not_eq_false, hv.feeless]
    push Not
    exact hone
  obtain ⟨excessGas, hok, hlen, hnonneg, hsum⟩ := reallocateGas_feeless hlt hfeeless hone
  refine ⟨excessGas, hok, hlen, hnonneg, hsum.trans (max_le (by omega) ?_)⟩
  have hrequired := hv.required
  split at hrequired
  · omega
  · omega

/-- If all pay, the excess is covered exactly when each pays for its own gas. -/
lemma covered_iff_of_pays {txs : List ReceivedTx} {exitOnly : Bool} {validation : TxGroupValidation}
    (hv : Validated R txs exitOnly validation)
    (hlt : validation.gasRequired < validation.gasProvided) (hall : ∀ tx ∈ txs, paysFee R tx) :
    Covered R txs validation ↔
      exitOnly ∨ ∀ tx ∈ txs, gasCost R tx.feeAssetId tx ≤ gasPaid R tx := by
  obtain ⟨hprovided, hok⟩ := hv.provided hall
  have hrun : reallocateGas R txs validation (txs.map fun _ => 0) =
      .ok (txs.map fun tx => max 0 ((gasPaid R tx : Int) - gasCost R tx.feeAssetId tx)) := by
    rw [reallocateGas, if_neg (not_le.mpr hlt), if_pos (by rw [hv.feeless.mpr hall]; rfl)]
    exact mapM_excessGasOf hok
  have hiff : Covered R txs validation ↔
      (txs.map fun tx => max 0 ((gasPaid R tx : Int) - gasCost R tx.feeAssetId tx)).sum ≤
        (validation.gasProvided : Int) - validation.gasRequired := by
    constructor
    · rintro ⟨excessGas, hok', -, -, hsum⟩
      obtain rfl := Except.ok.inj (hrun.symm.trans hok')
      exact hsum
    · intro hsum
      refine ⟨_, hrun, List.length_map _, fun g hg => ?_, hsum⟩
      obtain ⟨tx, -, rfl⟩ := List.mem_map.mp hg
      exact le_max_left _ _
  rw [hiff, hprovided, hv.required]
  cases exitOnly with
  | true =>
    refine iff_of_true ?_ (.inl rfl)
    exact (sum_max_le txs (gasPaid R) _).trans_eq (sub_zero _).symm
  | false =>
    rw [or_iff_right Bool.false_ne_true]
    exact sum_max_le_iff txs (gasPaid R) _

/-- A validated group is covered exactly when its transactions pay their own gas. -/
theorem covered_iff_ownGasPaid {txs : List ReceivedTx} {exitOnly : Bool}
    {validation : TxGroupValidation} (h : validateReceivedTxs R txs exitOnly = .ok validation)
    (hle : validation.gasRequired ≤ validation.gasProvided) :
    Covered R txs validation ↔ OwnGasPaid R txs exitOnly := by
  have hv := validateReceivedTxs_ok h
  by_cases hall : ∀ tx ∈ txs, paysFee R tx
  case neg =>
    have hone : ∃ tx ∈ txs, ¬ paysFee R tx := by
      push Not at hall
      exact hall
    refine iff_of_true ?_ (.inr (.inl hone))
    rcases hle.lt_or_eq with hlt | heq
    · exact covered_of_feeless hv hlt hone
    · exact covered_of_eq heq
  case pos =>
    have hnone : ¬ ∃ tx ∈ txs, ¬ paysFee R tx := fun ⟨tx, hmem, hpays⟩ => hpays (hall tx hmem)
    unfold OwnGasPaid
    rw [or_iff_right hnone]
    have hprovided := (hv.provided hall).1
    rcases hle.lt_or_eq with hlt | heq
    · rw [covered_iff_of_pays hv hlt hall]
      cases exitOnly with
      | true => exact iff_of_true (.inl rfl) (.inl rfl)
      | false =>
        rw [hv.gasRequired_eq, hprovided] at hlt
        rw [or_iff_right hlt.ne']
    · refine iff_of_true (covered_of_eq heq) ?_
      cases exitOnly with
      | true => exact .inl rfl
      | false =>
        refine .inr (.inl ?_)
        rw [← hprovided, ← heq, hv.gasRequired_eq]

/-! ## Two transfers -/

namespace Sample

/-- A fee pays for as much gas. -/
def calculator : FeeCalculator where
  priceTracker := ⟨[⟨1, fun _ => 1⟩]⟩
  assets := [⟨0, 30000⟩]
  assets_ne_nil := List.cons_ne_nil _ _
  verificationGas := 500000
  feeGasPriceMultiplier := 10 ^ 8
  txsPerRollup := 100
  callDataPerRollup := 128 * 1024
  gasPerRollup := 12000000

/-- The fees of the sample. -/
def resolver : FeeResolver where
  toFeeCalculator := calculator
  feePayingAssetIds := [0]
  getFullBridgeGas _ := 100000
  getFullBridgeGasFromContract _ := 100000
  numBridgeTxs _ := 10
  numBridgeTxs_pos _ := Nat.succ_pos 9
  fits assetId txType := by
    have heth : calculator.getNumAdjustedTxsPerRollup assetId txType =
        calculator.getNumAdjustedTxsPerRollup 0 txType := by cases assetId <;> rfl
    rw [heth]
    cases txType <;> decide +kernel

/-- A transfer with a fee. -/
def transfer (txFee : Nat) : ReceivedTx := ⟨.TRANSFER, 0, txFee, ⟨0, 0, 0, none, none, 0⟩⟩

end Sample

/-- Two transfers that pay for themselves. -/
theorem covered_iff_ownGasPaid_sample :
    Covered Sample.resolver [Sample.transfer 20000, Sample.transfer 12000]
        ⟨false, some 0, 23472, 32000⟩ ↔
      OwnGasPaid Sample.resolver [Sample.transfer 20000, Sample.transfer 12000] false :=
  covered_iff_ownGasPaid (by rfl) (by decide)

/-- The second transfer pays less than its cost, out of the excess of the first. -/
theorem not_covered : ¬ ∀ (R : FeeResolver) (txs : List ReceivedTx) (exitOnly : Bool)
    (validation : TxGroupValidation), validateReceivedTxs R txs exitOnly = .ok validation →
    validation.gasRequired ≤ validation.gasProvided → Covered R txs validation := by
  intro hall
  obtain ⟨excessGas, hok, -, -, hsum⟩ := hall Sample.resolver
    [Sample.transfer 30000, Sample.transfer 1000] false ⟨false, some 0, 23472, 31000⟩ rfl (by decide)
  have hrun : reallocateGas Sample.resolver [Sample.transfer 30000, Sample.transfer 1000]
      ⟨false, some 0, 23472, 31000⟩ [0, 0] = .ok [18264, 0] := rfl
  obtain rfl := Except.ok.inj (hrun.symm.trans hok)
  exact absurd hsum (by decide)

end TxFeeAllocator

end AztecConnect.Falafel
