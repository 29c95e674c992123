import Mathlib.Algebra.BigOperators.Group.List.Basic
import AztecConnect.Client.InnerProofData
import AztecConnect.Client.DefiTxs
import AztecConnect.Lib.Grouping

/-!
# User transactions

Translation of `sdk/src/aztec_sdk/group_user_txs.ts`, with the transactions of `sdk/src/core_tx` and
`sdk/src/user_tx`. Transactions of a request share a reference number; a transaction without one is a
group of its own, at the first bytes of its id. If no such bytes are the key of another transaction,
the groups partition the transactions (`groupTxsByTxRefNo_partition_iff`). The fees of the groups that are
shown are those of their transactions (`groupUserTxs_fees`). Members that only the database uses are left
out, and a time is an integer.
-/

namespace AztecConnect.Client.GroupUserTxs

open ByteFormat Serialize

/-! ## Transactions -/

/-- `TxId`: 32 bytes. -/
structure TxId where
  buffer : Bytes
  length_eq : buffer.length = 32
  deriving DecidableEq

/-- `toBuffer().readUInt32BE(0)`. -/
def TxId.firstUInt32 (txId : TxId) : Nat := beNat (slice txId.buffer 0 4)

/-- `AssetValue`. -/
structure AssetValue where
  assetId : Nat
  value : Int
  deriving DecidableEq

/-- `emptyAssetValue`. -/
def emptyAssetValue : AssetValue := ⟨0, 0⟩

/-- `CoreAccountTx`. -/
structure CoreAccountTx where
  txId : TxId
  userId : Nat
  aliasHash : Nat
  newSpendingPublicKey1 : Option Bytes
  newSpendingPublicKey2 : Option Bytes
  migrated : Bool
  txRefNo : Nat
  created : Int
  settled : Option Int
  deriving DecidableEq

/-- The proof ids of payments. -/
inductive PaymentProofId where
  | DEPOSIT
  | WITHDRAW
  | SEND
  deriving DecidableEq

/-- `CorePaymentTx`. -/
structure CorePaymentTx where
  txId : TxId
  userId : Nat
  proofId : PaymentProofId
  assetId : Nat
  publicValue : Int
  publicOwner : Option Nat
  privateInput : Int
  recipientPrivateOutput : Int
  senderPrivateOutput : Int
  isRecipient : Bool
  isSender : Bool
  txRefNo : Nat
  created : Int
  settled : Option Int
  deriving DecidableEq

/-- `CoreDefiTx`. -/
structure CoreDefiTx where
  txId : TxId
  userId : Nat
  bridgeCallData : BridgeCallData
  depositValue : Int
  txFee : Int
  txRefNo : Nat
  created : Int
  settled : Option Int
  interactionNonce : Option Nat
  isAsync : Option Bool
  success : Option Bool
  outputValueA : Option Int
  outputValueB : Option Int
  finalised : Option Int
  claimSettled : Option Int
  claimTxId : Option TxId
  deriving DecidableEq

/-- `CoreUserTx`. -/
inductive CoreUserTx where
  | account (tx : CoreAccountTx)
  | payment (tx : CorePaymentTx)
  | defi (tx : CoreDefiTx)
  deriving DecidableEq

/-- Its id. -/
def CoreUserTx.txId : CoreUserTx → TxId
  | .account tx => tx.txId
  | .payment tx => tx.txId
  | .defi tx => tx.txId

/-- The reference number that the transactions of one request share. -/
def CoreUserTx.txRefNo : CoreUserTx → Nat
  | .account tx => tx.txRefNo
  | .payment tx => tx.txRefNo
  | .defi tx => tx.txRefNo

/-- The number of the proof id. -/
def PaymentProofId.toNat : PaymentProofId → Nat
  | .DEPOSIT => ProofId.DEPOSIT
  | .WITHDRAW => ProofId.WITHDRAW
  | .SEND => ProofId.SEND

/-- `proofId` of the transaction. -/
def CoreUserTx.proofId : CoreUserTx → Nat
  | .account _ => ProofId.ACCOUNT
  | .payment tx => tx.proofId.toNat
  | .defi _ => ProofId.DEFI_DEPOSIT

/-! ## What is shown -/

/-- `UserAccountTx`. -/
structure UserAccountTx where
  txId : TxId
  userId : Nat
  aliasHash : Nat
  newSpendingPublicKey1 : Option Bytes
  newSpendingPublicKey2 : Option Bytes
  migrated : Bool
  fee : AssetValue
  created : Int
  settled : Option Int
  deriving DecidableEq

/-- `UserPaymentTx`. -/
structure UserPaymentTx where
  txId : TxId
  userId : Nat
  proofId : PaymentProofId
  value : AssetValue
  fee : AssetValue
  publicOwner : Option Nat
  isSender : Bool
  created : Int
  settled : Option Int
  deriving DecidableEq

/-- The asset id of an output that is virtual is no number while there is no nonce. -/
structure OutputValue where
  assetId : Option Nat
  value : Int
  deriving DecidableEq

/-- `UserDefiInteractionResultState`. -/
inductive UserDefiInteractionResultState where
  | PENDING
  | AWAITING_FINALISATION
  | AWAITING_SETTLEMENT
  | SETTLED
  deriving DecidableEq

/-- `UserDefiInteractionResult`. -/
structure UserDefiInteractionResult where
  state : UserDefiInteractionResultState
  isAsync : Option Bool
  interactionNonce : Option Nat
  success : Option Bool
  outputValueA : Option OutputValue
  outputValueB : Option OutputValue
  claimSettled : Option Int
  finalised : Option Int
  deriving DecidableEq

/-- `UserDefiTx`. -/
structure UserDefiTx where
  txId : TxId
  userId : Nat
  bridgeCallData : BridgeCallData
  depositValue : AssetValue
  fee : AssetValue
  created : Int
  settled : Option Int
  interactionResult : UserDefiInteractionResult
  deriving DecidableEq

/-- `UserDefiClaimTx`. -/
structure UserDefiClaimTx where
  txId : Option TxId
  defiTxId : TxId
  userId : Nat
  bridgeCallData : BridgeCallData
  depositValue : AssetValue
  success : Option Bool
  outputValueA : Option OutputValue
  outputValueB : Option OutputValue
  created : Int
  settled : Option Int
  deriving DecidableEq

/-- `UserTx`: what the user is shown. -/
inductive UserTx where
  | account (tx : UserAccountTx)
  | payment (tx : UserPaymentTx)
  | defi (tx : UserDefiTx)
  | defiClaim (tx : UserDefiClaimTx)
  deriving DecidableEq

namespace UserTx

/-- The id of the transaction that is shown, of a claim that of the deposit. -/
def coreTxId : UserTx → TxId
  | .account tx => tx.txId
  | .payment tx => tx.txId
  | .defi tx => tx.txId
  | .defiClaim tx => tx.defiTxId

/-- A claim has no fee. -/
def fee : UserTx → Option AssetValue
  | .account tx => some tx.fee
  | .payment tx => some tx.fee
  | .defi tx => some tx.fee
  | .defiClaim _ => none

/-- When it was created. -/
def created : UserTx → Int
  | .account tx => tx.created
  | .payment tx => tx.created
  | .defi tx => tx.created
  | .defiClaim tx => tx.created

/-- When it was settled. -/
def settled : UserTx → Option Int
  | .account tx => tx.settled
  | .payment tx => tx.settled
  | .defi tx => tx.settled
  | .defiClaim tx => tx.settled

end UserTx

/-! ## Conversions -/

/-- `toUserAccountTx`. -/
def toUserAccountTx (tx : CoreAccountTx) (fee : AssetValue) : UserAccountTx :=
  ⟨tx.txId, tx.userId, tx.aliasHash, tx.newSpendingPublicKey1, tx.newSpendingPublicKey2, tx.migrated,
    fee, tx.created, tx.settled⟩

/-- `toUserPaymentTx`. -/
def toUserPaymentTx (tx : CorePaymentTx) (value fee : AssetValue) : UserPaymentTx :=
  ⟨tx.txId, tx.userId, tx.proofId, value, fee, tx.publicOwner, tx.isSender, tx.created, tx.settled⟩

/-- `getUserDefiInteractionResultState`: the latest stage that has a date. -/
def getUserDefiInteractionResultState (tx : CoreDefiTx) : UserDefiInteractionResultState :=
  if tx.claimSettled.isSome then .SETTLED
  else if tx.finalised.isSome then .AWAITING_SETTLEMENT
  else if tx.settled.isSome then .AWAITING_FINALISATION
  else .PENDING

/-- `toUserDefiTx`. -/
def toUserDefiTx (tx : CoreDefiTx) (fee : AssetValue) : UserDefiTx where
  txId := tx.txId
  userId := tx.userId
  bridgeCallData := tx.bridgeCallData
  depositValue := ⟨tx.bridgeCallData.inputAssetIdA, tx.depositValue⟩
  fee
  created := tx.created
  settled := tx.settled
  interactionResult := {
    state := getUserDefiInteractionResultState tx
    isAsync := tx.isAsync
    interactionNonce := tx.interactionNonce
    success := tx.success
    outputValueA := tx.outputValueA.map fun value =>
      ⟨if tx.bridgeCallData.firstOutputVirtual then tx.interactionNonce.map (· + virtualAssetIdFlag)
        else some tx.bridgeCallData.outputAssetIdA, value⟩
    outputValueB := if tx.bridgeCallData.outputAssetIdB = none then none else
      tx.outputValueB.map fun value =>
        ⟨if tx.bridgeCallData.secondOutputVirtual then tx.interactionNonce.map (· + virtualAssetIdFlag)
          else tx.bridgeCallData.outputAssetIdB, value⟩
    claimSettled := tx.claimSettled
    finalised := tx.finalised }

/-- Of a transaction that has been finalised. -/
def toUserDefiClaimTx (claimTxId : Option TxId) (tx : UserDefiTx) (finalised : Int) : UserDefiClaimTx :=
  ⟨claimTxId, tx.txId, tx.userId, tx.bridgeCallData, tx.depositValue, tx.interactionResult.success,
    tx.interactionResult.outputValueA, tx.interactionResult.outputValueB, finalised,
    tx.interactionResult.claimSettled⟩

/-- `getPaymentValue`. -/
def getPaymentValue (tx : CorePaymentTx) : AssetValue where
  assetId := tx.assetId
  value := match tx.proofId with
    | .DEPOSIT => tx.recipientPrivateOutput
    | .WITHDRAW => tx.publicValue
    | .SEND =>
      if tx.isRecipient ∨ tx.recipientPrivateOutput ≠ 0 then tx.recipientPrivateOutput
      else tx.privateInput - tx.senderPrivateOutput

/-- `getFee`: what a transaction takes in beyond what it pays out. -/
def getFee : CoreUserTx → AssetValue
  | .account _ => emptyAssetValue
  | .defi tx => ⟨tx.bridgeCallData.inputAssetIdA, tx.txFee⟩
  | .payment tx =>
    { assetId := tx.assetId
      value := match tx.proofId with
        | .DEPOSIT => tx.publicValue - tx.recipientPrivateOutput
        | .WITHDRAW => tx.privateInput - (tx.publicValue + tx.senderPrivateOutput)
        | .SEND =>
          if !tx.isSender ∨ (!tx.isRecipient ∧ tx.recipientPrivateOutput = 0) then 0
          else tx.privateInput - tx.recipientPrivateOutput - tx.senderPrivateOutput }

/-- `getTotalFee`. Fees in two assets throw. -/
def getTotalFee (txs : List CoreUserTx) : Except String AssetValue :=
  match txs.map getFee with
  | [] => .ok emptyAssetValue
  | first :: fees =>
    let assetId := (((first :: fees).find? fun fee => fee.value ≠ 0).getD first).assetId
    if (first :: fees).any fun fee => fee.value ≠ 0 ∧ fee.assetId ≠ assetId then
      .error "Inconsistent fee paying assets."
    else .ok ⟨assetId, ((first :: fees).map AssetValue.value).sum⟩

/-- All but what merges or splits notes. -/
def isRelevant : CoreUserTx → Bool
  | .payment tx => tx.proofId ≠ .SEND ∨ tx.privateInput = 0 ∨ tx.privateInput ≠ tx.senderPrivateOutput
  | _ => true

/-- The transaction, if it is a deposit. -/
def depositOf : CoreUserTx → Option CorePaymentTx
  | .payment tx => if tx.proofId = .DEPOSIT then some tx else none
  | _ => none

/-- `getPrimaryTx`: the transaction by which a group is shown. -/
def getPrimaryTx (coreTxs : List CoreUserTx) : Option CoreUserTx :=
  let txs := coreTxs.filter isRelevant
  (txs.find? fun tx => tx.txRefNo = 0) <|>
  (txs.find? fun
    | .payment tx => tx.proofId = .WITHDRAW
    | _ => true) <|>
  (txs.find? fun tx => (depositOf tx).isSome) <|>
  (txs.find? fun
    | .payment tx => tx.proofId = .SEND ∧ (!tx.isSender ∨ !tx.isRecipient ∨ tx.recipientPrivateOutput ≠ 0)
    | _ => false)

/-- `toUserTx`: what is shown of a group. -/
def toUserTx (txs : List CoreUserTx) : Except String (Option (List UserTx)) :=
  match getPrimaryTx txs with
  | none => .ok none
  | some primaryTx => do
    let fee ← getTotalFee txs
    match primaryTx with
    | .account tx =>
      match txs.findSome? depositOf with
      | some depositTx =>
        let depositValue := getPaymentValue depositTx
        if depositValue.value ≠ 0 then
          .ok (some [.payment (toUserPaymentTx depositTx depositValue fee),
            .account (toUserAccountTx tx emptyAssetValue)])
        else .ok (some [.account (toUserAccountTx tx fee)])
      | none => .ok (some [.account (toUserAccountTx tx fee)])
    | .defi tx =>
      let userDefiTx := toUserDefiTx tx fee
      match userDefiTx.interactionResult.finalised with
      | some finalised =>
        .ok (some [.defi userDefiTx, .defiClaim (toUserDefiClaimTx tx.claimTxId userDefiTx finalised)])
      | none => .ok (some [.defi userDefiTx])
    | .payment tx => .ok (some [.payment (toUserPaymentTx tx (getPaymentValue tx) fee)])

/-! ## Grouping -/

/-- The key of a transaction in the map of the groups. -/
def groupKey (tx : CoreUserTx) : Nat := if tx.txRefNo = 0 then tx.txId.firstUInt32 else tx.txRefNo

/-- A transaction without a reference number is not part of a group. -/
def WithoutRefNo (tx : CoreUserTx) : Prop := tx.txRefNo = 0

instance : DecidablePred WithoutRefNo := fun tx => inferInstanceAs (Decidable (tx.txRefNo = 0))

/-- `groupTxsByTxRefNo`. -/
def groupTxsByTxRefNo (txs : List CoreUserTx) : List (List CoreUserTx) :=
  Grouping.groups groupKey WithoutRefNo txs

/-- `bySettledThenCreated`: unsettled transactions first, then the latest. -/
def bySettledThenCreated (tx1 tx2 : UserTx) : Int :=
  let createdSort := tx2.created - tx1.created
  match tx1.settled, tx2.settled with
  | some settled1, some settled2 =>
    let sort := settled2 - settled1
    if sort = 0 then createdSort else sort
  | none, some _ => -1
  | some _, none => 1
  | none, none => createdSort

/-- `groupUserTxs`: the groups as they are shown, in that order. -/
def groupUserTxs (txs : List CoreUserTx) : Except String (List UserTx) := do
  let userTxs ← (groupTxsByTxRefNo txs).mapM toUserTx
  .ok ((userTxs.filterMap id).flatten.mergeSort fun tx1 tx2 => bySettledThenCreated tx1 tx2 ≤ 0)

/-! ## The groups -/

/-- Two transactions of one request. -/
def SharesRefNo (tx tx' : CoreUserTx) : Prop := tx.txRefNo = tx'.txRefNo ∧ tx.txRefNo ≠ 0

/-- No transaction without a reference number has the key of another transaction. -/
def KeysApart (txs : List CoreUserTx) : Prop :=
  txs.Pairwise fun tx tx' => groupKey tx = groupKey tx' → tx.txRefNo ≠ 0 ∧ tx'.txRefNo ≠ 0

/-- A transaction with a reference number is grouped by it. -/
lemma groupKey_of_ne {tx : CoreUserTx} (h : tx.txRefNo ≠ 0) : groupKey tx = tx.txRefNo := if_neg h

/-- Two transactions are grouped together when they share a reference number. -/
lemma together_eq : Grouping.Together groupKey WithoutRefNo = SharesRefNo := by
  funext tx tx'
  apply propext
  constructor
  · rintro ⟨hkey, htx, htx'⟩
    rw [groupKey_of_ne htx, groupKey_of_ne htx'] at hkey
    exact ⟨hkey, htx⟩
  · rintro ⟨heq, htx⟩
    have htx' : tx'.txRefNo ≠ 0 := heq ▸ htx
    refine ⟨?_, htx, htx'⟩
    rw [groupKey_of_ne htx, groupKey_of_ne htx']
    exact heq

/-- The groups are those of the requests exactly if the keys are apart. -/
theorem groupTxsByTxRefNo_partition_iff (txs : List CoreUserTx) :
    Grouping.Partition SharesRefNo (groupTxsByTxRefNo txs) txs ↔ KeysApart txs := by
  rw [← together_eq]
  exact Grouping.partition_iff txs

/-! ## Fees -/

/-- The fees in an asset. -/
def feeSum (assetId : Nat) (fees : List AssetValue) : Int :=
  (fees.map fun fee => if fee.assetId = assetId then fee.value else 0).sum

/-- The fees of the transactions that have any are in one asset. -/
def OneFeeAsset (txs : List CoreUserTx) : Prop :=
  ∀ tx ∈ txs, ∀ tx' ∈ txs, (getFee tx).value ≠ 0 → (getFee tx').value ≠ 0 →
    (getFee tx).assetId = (getFee tx').assetId

/-- The fees of two lists add up. -/
lemma feeSum_append (assetId : Nat) (fees fees' : List AssetValue) :
    feeSum assetId (fees ++ fees') = feeSum assetId fees + feeSum assetId fees' := by
  rw [feeSum, List.map_append, List.sum_append]
  rfl

/-- A fee counts for its own asset only. -/
lemma feeSum_singleton (assetId : Nat) (fee : AssetValue) :
    feeSum assetId [fee] = if fee.assetId = assetId then fee.value else 0 := by
  rw [feeSum, List.map_singleton, List.sum_singleton]

/-- No fee counts for no asset. -/
lemma feeSum_empty (assetId : Nat) : feeSum assetId [emptyAssetValue] = 0 := by
  rw [feeSum_singleton]
  exact ite_self 0

/-- Fees of one asset add up in this asset. -/
lemma feeSum_of_assetId {fees : List AssetValue} {feeAssetId : Nat}
    (h : ∀ fee ∈ fees, fee.value ≠ 0 → fee.assetId = feeAssetId) (assetId : Nat) :
    feeSum assetId fees = feeSum assetId [⟨feeAssetId, (fees.map AssetValue.value).sum⟩] := by
  induction fees with
  | nil =>
    rw [feeSum_singleton]
    exact (ite_self 0).symm
  | cons fee fees ih =>
    obtain ⟨hfee, hfees⟩ := List.forall_mem_cons.mp h
    have hone : (if fee.assetId = assetId then fee.value else 0) =
        if feeAssetId = assetId then fee.value else 0 := by
      by_cases hzero : fee.value = 0
      · rw [hzero, ite_self, ite_self]
      · rw [hfee hzero]
    rw [← List.singleton_append, feeSum_append, ih hfees, feeSum_singleton, feeSum_singleton,
      feeSum_singleton, hone, List.singleton_append, List.map_cons, List.sum_cons]
    dsimp only
    split
    case isTrue => rfl
    case isFalse => rfl

/-- The total fee is that of the transactions, in every asset. -/
lemma getTotalFee_ok {txs : List CoreUserTx} {fee : AssetValue} (h : getTotalFee txs = .ok fee)
    (assetId : Nat) : feeSum assetId [fee] = feeSum assetId (txs.map getFee) := by
  unfold getTotalFee at h
  cases hfees : txs.map getFee with
  | nil =>
    rw [hfees, Except.ok.injEq] at h
    rw [← h]
    exact feeSum_empty assetId
  | cons first fees =>
    rw [hfees] at h
    dsimp only at h
    generalize (((first :: fees).find? fun fee => fee.value ≠ 0).getD first).assetId = feeAssetId at h
    split at h
    case isTrue => nomatch h
    case isFalse hall =>
      rw [Except.ok.injEq] at h
      rw [← h]
      refine (feeSum_of_assetId (fun fee hfee hvalue => ?_) assetId).symm
      by_contra hne
      exact hall (List.any_eq_true.mpr ⟨fee, hfee, decide_eq_true ⟨hvalue, hne⟩⟩)

/-- There is a total fee exactly if the fees are in one asset. -/
lemma getTotalFee_cases (txs : List CoreUserTx) :
    (OneFeeAsset txs ∧ ∃ fee, getTotalFee txs = .ok fee) ∨
      (¬ OneFeeAsset txs ∧ getTotalFee txs = .error "Inconsistent fee paying assets.") := by
  have hiff : OneFeeAsset txs ↔ ∀ fee ∈ txs.map getFee, ∀ fee' ∈ txs.map getFee,
      fee.value ≠ 0 → fee'.value ≠ 0 → fee.assetId = fee'.assetId := by
    simp only [OneFeeAsset, List.forall_mem_map]
  rw [hiff]
  unfold getTotalFee
  cases txs.map getFee with
  | nil => exact .inl ⟨List.forall_mem_nil _, _, rfl⟩
  | cons first fees =>
    dsimp only
    cases hfind : (first :: fees).find? fun fee => decide (fee.value ≠ 0) with
    | none =>
      have hzero : ∀ fee ∈ first :: fees, ¬ fee.value ≠ 0 := fun fee hfee =>
        mt decide_eq_true (List.find?_eq_none.mp hfind fee hfee)
      refine .inl ⟨fun fee hfee fee' _ h => absurd h (hzero fee hfee), _, if_neg fun hany => ?_⟩
      obtain ⟨fee, hfee, h⟩ := List.any_eq_true.mp hany
      exact hzero fee hfee (of_decide_eq_true h).1
    | some found =>
      have hfound := List.mem_of_find?_eq_some hfind
      have hvalue : decide (found.value ≠ 0) = true := by
        have hsome := List.find?_some hfind
        exact hsome
      by_cases hany : ((first :: fees).any fun fee =>
          decide (fee.value ≠ 0 ∧ fee.assetId ≠ ((some found).getD first).assetId)) = true
      · -- a fee in another asset than the first
        obtain ⟨fee, hfee, h⟩ := List.any_eq_true.mp hany
        obtain ⟨hne, hasset⟩ := of_decide_eq_true h
        exact .inr ⟨fun hall => hasset (hall fee hfee found hfound hne (of_decide_eq_true hvalue)),
          if_pos hany⟩
      · refine .inl ⟨fun fee hfee fee' hfee' hne hne' => ?_, _, if_neg hany⟩
        have hasset : ∀ f ∈ first :: fees, f.value ≠ 0 → f.assetId = found.assetId := by
          intro f hf hfne
          by_contra hother
          exact hany (List.any_eq_true.mpr ⟨f, hf, decide_eq_true ⟨hfne, hother⟩⟩)
        rw [hasset fee hfee hne, hasset fee' hfee' hne']

/-! ## What is shown of a group -/

/-- The fees that are shown. -/
def shownFees (userTxs : List UserTx) : List AssetValue := userTxs.filterMap UserTx.fee

/-- What is shown of a group has the fees of its transactions. -/
lemma toUserTx_fees {txs : List CoreUserTx} {userTxs : List UserTx}
    (h : toUserTx txs = .ok (some userTxs)) (assetId : Nat) :
    feeSum assetId (shownFees userTxs) = feeSum assetId (txs.map getFee) := by
  unfold toUserTx at h
  cases hprimary : getPrimaryTx txs with
  | none =>
    rw [hprimary] at h
    nomatch h
  | some primaryTx =>
    rw [hprimary] at h
    obtain ⟨fee, hfee, h⟩ := bind_ok h
    rw [← getTotalFee_ok hfee]
    cases primaryTx with
    | account tx =>
      dsimp only at h
      cases hdeposit : txs.findSome? depositOf with
      | none =>
        rw [hdeposit, Except.ok.injEq, Option.some.injEq] at h
        subst h
        rfl
      | some depositTx =>
        rw [hdeposit] at h
        dsimp only at h
        split at h
        case isTrue =>
          -- the fee is shown with the deposit
          rw [Except.ok.injEq, Option.some.injEq] at h
          subst h
          show feeSum assetId ([fee] ++ [emptyAssetValue]) = _
          rw [feeSum_append, feeSum_empty, Int.add_zero]
        case isFalse =>
          rw [Except.ok.injEq, Option.some.injEq] at h
          subst h
          rfl
    | defi tx =>
      dsimp only at h
      split at h
      all_goals
        rw [Except.ok.injEq, Option.some.injEq] at h
        subst h
        rfl
    | payment tx =>
      rw [Except.ok.injEq, Option.some.injEq] at h
      subst h
      rfl

/-- A group is shown if it has a primary transaction. -/
def IsShown (txs : List CoreUserTx) : Bool := (getPrimaryTx txs).isSome

/-- What becomes of a group. -/
lemma toUserTx_cases (txs : List CoreUserTx) :
    (IsShown txs = false ∧ toUserTx txs = .ok none) ∨
    (IsShown txs = true ∧ OneFeeAsset txs ∧ ∃ userTxs, toUserTx txs = .ok (some userTxs)) ∨
    (IsShown txs = true ∧ ¬ OneFeeAsset txs ∧
      toUserTx txs = .error "Inconsistent fee paying assets.") := by
  rw [IsShown, toUserTx]
  cases getPrimaryTx txs with
  | none => exact .inl ⟨rfl, rfl⟩
  | some primaryTx =>
    obtain ⟨hone, fee, hfee⟩ | ⟨hone, herror⟩ := getTotalFee_cases txs
    · refine .inr (.inl ⟨rfl, hone, ?_⟩)
      simp only [hfee]
      cases primaryTx with
      | account tx =>
        cases hdeposit : txs.findSome? depositOf with
        | none => exact ⟨_, rfl⟩
        | some depositTx =>
          by_cases hvalue : (getPaymentValue depositTx).value ≠ 0
          · exact ⟨_, if_pos hvalue⟩
          · exact ⟨_, if_neg hvalue⟩
      | defi tx =>
        cases hfinalised : (toUserDefiTx tx fee).interactionResult.finalised with
        | none => exact ⟨[.defi (toUserDefiTx tx fee)], by simp only [Except.bind, bind, hfinalised]⟩
        | some finalised => exact ⟨_, by simp only [Except.bind, bind, hfinalised]; rfl⟩
      | payment tx => exact ⟨_, rfl⟩
    · refine .inr (.inr ⟨rfl, hone, ?_⟩)
      rw [herror]
      rfl

/-- A transaction alone, unless it is a send, is what is shown of it. -/
lemma toUserTx_alone {tx : CoreUserTx} (href : tx.txRefNo = 0) (hsend : tx.proofId ≠ ProofId.SEND) :
    ∃ own, toUserTx [tx] = .ok (some own) ∧ own ≠ [] ∧ ∀ userTx ∈ own, userTx.coreTxId = tx.txId := by
  have hrelevant : isRelevant tx = true := by
    cases tx with
    | account tx => rfl
    | defi tx => rfl
    | payment tx =>
      have hproof : tx.proofId ≠ .SEND := fun h => hsend (congrArg PaymentProofId.toNat h)
      exact decide_eq_true (.inl hproof)
  have hprimary : getPrimaryTx [tx] = some tx := by
    rw [getPrimaryTx, List.filter_singleton, hrelevant, cond_true, List.find?_singleton,
      if_pos (decide_eq_true href)]
    rfl
  have hone : OneFeeAsset [tx] := by
    intro x hx y hy _ _
    rw [List.mem_singleton.mp hx, List.mem_singleton.mp hy]
  obtain ⟨-, fee, hfee⟩ := (getTotalFee_cases [tx]).resolve_right fun h => h.1 hone
  rw [toUserTx, hprimary]
  simp only [hfee]
  cases tx with
  | account tx => exact ⟨_, rfl, List.cons_ne_nil _ _, List.forall_mem_singleton.mpr rfl⟩
  | payment tx => exact ⟨_, rfl, List.cons_ne_nil _ _, List.forall_mem_singleton.mpr rfl⟩
  | defi tx =>
    cases hfinalised : (toUserDefiTx tx fee).interactionResult.finalised with
    | none =>
      refine ⟨[.defi (toUserDefiTx tx fee)], ?_, List.cons_ne_nil _ _, List.forall_mem_singleton.mpr rfl⟩
      simp only [Except.bind, bind, hfinalised]
    | some finalised =>
      refine ⟨[.defi (toUserDefiTx tx fee),
        .defiClaim (toUserDefiClaimTx tx.claimTxId (toUserDefiTx tx fee) finalised)], ?_,
        List.cons_ne_nil _ _, List.forall_mem_cons.mpr ⟨rfl, List.forall_mem_singleton.mpr rfl⟩⟩
      simp only [Except.bind, bind, hfinalised]

/-! ## What is shown of all groups -/

/-- Every group is shown if the fees of each are in one asset. -/
lemma mapM_toUserTx_ok {groups : List (List CoreUserTx)}
    (h : ∀ g ∈ groups, IsShown g = true → OneFeeAsset g) : ∃ shown, groups.mapM toUserTx = .ok shown := by
  induction groups with
  | nil => exact ⟨[], rfl⟩
  | cons g groups ih =>
    obtain ⟨hg, hgroups⟩ := List.forall_mem_cons.mp h
    obtain ⟨shown, hshown⟩ := ih hgroups
    rw [List.mapM_cons, hshown]
    obtain ⟨-, hok⟩ | ⟨-, -, userTxs, hok⟩ | ⟨hisShown, hone, -⟩ := toUserTx_cases g
    · exact ⟨_, bind_of_ok hok _⟩
    · exact ⟨_, bind_of_ok hok _⟩
    · exact absurd (hg hisShown) hone

/-- Fees of one group in two assets throw. -/
lemma mapM_toUserTx_error {groups : List (List CoreUserTx)}
    (h : ¬ ∀ g ∈ groups, IsShown g = true → OneFeeAsset g) :
    groups.mapM toUserTx = .error "Inconsistent fee paying assets." := by
  induction groups with
  | nil => exact absurd (List.forall_mem_nil _) h
  | cons g groups ih =>
    rw [List.mapM_cons]
    obtain ⟨hisShown, hok⟩ | ⟨-, hone, userTxs, hok⟩ | ⟨-, -, herror⟩ := toUserTx_cases g
    · refine (bind_of_ok hok _).trans ?_
      rw [ih fun hall => h (List.forall_mem_cons.mpr ⟨fun hg => ?_, hall⟩)]
      · rfl
      · rw [hisShown] at hg
        nomatch hg
    · refine (bind_of_ok hok _).trans ?_
      rw [ih fun hall => h (List.forall_mem_cons.mpr ⟨fun _ => hone, hall⟩)]
      rfl
    · rw [herror]
      rfl

/-- The fees of what is shown are those of the groups that are shown. -/
lemma mapM_toUserTx_fees {groups : List (List CoreUserTx)} {shown : List (Option (List UserTx))}
    (h : groups.mapM toUserTx = .ok shown) (assetId : Nat) :
    feeSum assetId (shownFees (shown.filterMap id).flatten) =
      feeSum assetId ((groups.filter IsShown).flatten.map getFee) := by
  induction groups generalizing shown with
  | nil =>
    rw [List.mapM_nil] at h
    cases h
    rfl
  | cons g groups ih =>
    rw [List.mapM_cons] at h
    obtain ⟨first, hfirst, h⟩ := bind_ok h
    obtain ⟨rest, hrest, h⟩ := bind_ok h
    cases h
    obtain ⟨hisShown, hok⟩ | ⟨hisShown, -, userTxs, hok⟩ | ⟨-, -, herror⟩ := toUserTx_cases g
    · rw [hfirst, Except.ok.injEq] at hok
      rw [hok, List.filterMap_cons_none rfl, List.filter_cons_of_neg (Bool.eq_false_iff.mp hisShown)]
      exact ih hrest
    · have hfees := toUserTx_fees hok assetId
      rw [hfirst, Except.ok.injEq] at hok
      have hcons : (some userTxs :: rest).filterMap id = userTxs :: rest.filterMap id := rfl
      rw [hok, hcons, List.filter_cons_of_pos hisShown, List.flatten_cons, List.flatten_cons, shownFees,
        List.filterMap_append, List.map_append, feeSum_append, feeSum_append]
      exact congrArg₂ _ hfees (ih hrest)
    · rw [hfirst] at herror
      nomatch herror

/-- What is shown of a group is shown. -/
lemma mem_of_mapM_toUserTx {groups : List (List CoreUserTx)} {shown : List (Option (List UserTx))}
    (h : groups.mapM toUserTx = .ok shown) {g : List CoreUserTx} (hg : g ∈ groups)
    {own : List UserTx} (hown : toUserTx g = .ok (some own)) : own ∈ shown.filterMap id := by
  induction groups generalizing shown with
  | nil => nomatch hg
  | cons g' groups ih =>
    rw [List.mapM_cons] at h
    obtain ⟨first, hfirst, h⟩ := bind_ok h
    obtain ⟨rest, hrest, h⟩ := bind_ok h
    cases h
    rw [List.mem_filterMap]
    rcases List.mem_cons.mp hg with rfl | hg
    · rw [hfirst, Except.ok.injEq] at hown
      exact ⟨first, List.mem_cons_self, hown⟩
    · obtain ⟨x, hx, heq⟩ := List.mem_filterMap.mp (ih hrest hg)
      exact ⟨x, List.mem_cons_of_mem _ hx, heq⟩

/-- The transaction is shown, apart from all others. -/
def ShownAlone (userTxs : List UserTx) (tx : CoreUserTx) : Prop :=
  ∃ own, toUserTx [tx] = .ok (some own) ∧ own ≠ [] ∧ (∀ userTx ∈ own, userTx.coreTxId = tx.txId) ∧
    own.Subperm userTxs

/-- What is shown has the fees of the groups that are shown. -/
theorem groupUserTxs_fees {txs : List CoreUserTx} {userTxs : List UserTx}
    (h : groupUserTxs txs = .ok userTxs) (assetId : Nat) :
    feeSum assetId (shownFees userTxs) =
      feeSum assetId (((groupTxsByTxRefNo txs).filter IsShown).flatten.map getFee) := by
  obtain ⟨shown, hshown, h⟩ := bind_ok h
  rw [Except.ok.injEq] at h
  rw [← mapM_toUserTx_fees hshown assetId, ← h]
  exact (((List.mergeSort_perm _ _).filterMap _).map _).sum_eq

/-- The groups are those of the requests, with every other transaction alone. They are shown if no group
that is shown pays fees in two assets, with the fees of its transactions; a group without a primary
transaction is not. -/
theorem groupUserTxs_groups {txs : List CoreUserTx} (h : KeysApart txs) :
    Grouping.Partition SharesRefNo (groupTxsByTxRefNo txs) txs ∧
    (¬ (∀ g ∈ groupTxsByTxRefNo txs, IsShown g = true → OneFeeAsset g) →
      groupUserTxs txs = .error "Inconsistent fee paying assets.") ∧
    ((∀ g ∈ groupTxsByTxRefNo txs, IsShown g = true → OneFeeAsset g) →
      ∃ userTxs, groupUserTxs txs = .ok userTxs ∧
        (∀ tx ∈ txs, tx.txRefNo = 0 → tx.proofId ≠ ProofId.SEND → ShownAlone userTxs tx) ∧
        ∀ assetId, feeSum assetId (shownFees userTxs) =
          feeSum assetId (((groupTxsByTxRefNo txs).filter IsShown).flatten.map getFee)) := by
  have hpartition := (groupTxsByTxRefNo_partition_iff txs).mpr h
  refine ⟨hpartition, fun hnone => ?_, fun hall => ?_⟩
  · rw [groupUserTxs, mapM_toUserTx_error hnone]
    rfl
  · obtain ⟨shown, hshown⟩ := mapM_toUserTx_ok hall
    have hok : groupUserTxs txs = .ok _ := bind_of_ok hshown _
    refine ⟨_, hok, fun tx htx href hsend => ?_, groupUserTxs_fees hok⟩
    have halone : ∀ tx', ¬ SharesRefNo tx tx' ∧ ¬ SharesRefNo tx' tx := fun tx' =>
      ⟨fun hshares => hshares.2 href, fun hshares => hshares.2 (hshares.1.trans href)⟩
    obtain ⟨own, hown, hne, hids⟩ := toUserTx_alone href hsend
    refine ⟨own, hown, hne, hids, ?_⟩
    have hmem := mem_of_mapM_toUserTx hshown (hpartition.singleton_mem htx halone) hown
    exact (List.sublist_flatten_of_mem hmem).subperm.trans (List.mergeSort_perm _ _).symm.subperm

namespace SampleUserTxs

/-- An id of equal bytes. -/
def txId (b : UInt8) : TxId := ⟨List.replicate 32 b, List.length_replicate⟩

/-- A send to the user itself that pays the fee of a request. -/
def feeTx : CoreUserTx :=
  .payment ⟨txId 1, 5, .SEND, 0, 0, none, 20, 0, 0, true, true, 7, 100, none⟩

/-- The deposit of the request into a bridge. -/
def defiTx : CoreUserTx :=
  .defi ⟨txId 2, 5, ⟨1, 2, 3, none, none, 0⟩, 1000, 0, 7, 101, none, none, none, none, none, none, none,
    none, none⟩

/-- The deposit of a request, without a reference number. -/
def depositTx : CoreUserTx :=
  .payment ⟨txId 3, 5, .DEPOSIT, 0, 1000, some 9, 0, 990, 0, true, true, 0, 102, none⟩

end SampleUserTxs

open SampleUserTxs in
/-- A request that pays its fee in another asset, and a deposit. -/
theorem groupUserTxs_sample :
    Grouping.Partition SharesRefNo (groupTxsByTxRefNo [feeTx, defiTx, depositTx])
      [feeTx, defiTx, depositTx] ∧
    ∃ userTxs, groupUserTxs [feeTx, defiTx, depositTx] = .ok userTxs ∧
      ShownAlone userTxs depositTx ∧ feeSum 0 (shownFees userTxs) = 30 := by
  have hapart : KeysApart [feeTx, defiTx, depositTx] := by
    unfold KeysApart
    decide
  have hall : ∀ g ∈ groupTxsByTxRefNo [feeTx, defiTx, depositTx], IsShown g = true → OneFeeAsset g := by
    unfold OneFeeAsset
    decide
  obtain ⟨hpartition, -, hshown⟩ := groupUserTxs_groups hapart
  obtain ⟨userTxs, hok, halone, hfees⟩ := hshown hall
  refine ⟨hpartition, userTxs, hok, halone depositTx (by simp) rfl (by decide), ?_⟩
  rw [hfees]
  decide

open SampleUserTxs in
/-- The fee of a transaction that has been left alone in its group is not shown. -/
theorem not_groupUserTxs : ¬ ∀ txs : List CoreUserTx,
    Grouping.Partition SharesRefNo (groupTxsByTxRefNo txs) txs ∧
      ∃ userTxs, groupUserTxs txs = .ok userTxs ∧
        (∀ tx ∈ txs, tx.txRefNo = 0 → tx.proofId ≠ ProofId.SEND → ShownAlone userTxs tx) ∧
        ∀ assetId, feeSum assetId (shownFees userTxs) = feeSum assetId (txs.map getFee) := by
  intro h
  obtain ⟨-, userTxs, hshown, -, hfees⟩ := h [feeTx]
  have hnone : groupUserTxs [feeTx] = .ok [] := by
    have hfee : toUserTx [feeTx] = .ok none := by decide
    have hgroups : (groupTxsByTxRefNo [feeTx]).mapM toUserTx = .ok [none] := bind_of_ok hfee _
    exact (bind_of_ok hgroups _).trans (congrArg _ List.mergeSort_nil)
  rw [hnone, Except.ok.injEq] at hshown
  rw [← hshown] at hfees
  have hfee := hfees 0
  revert hfee
  decide

end AztecConnect.Client.GroupUserTxs
