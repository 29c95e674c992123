import AztecConnect.Contract.Queue

/-!
# What called contracts can do to a locked processor

While an entry point of the processor runs, the contracts it calls may call any entry point back.
This file shows that the lock confines them: from a state in which the lock is held (`Busy`), every
entry point either reverts, or touches neither queue, or resolves one pending interaction; in each
case it keeps to `Rely` (`V2.run_keeps`). By the rule for nested calls this holds for whatever called
contracts do, at every call depth (`V2.env_rely`).

The functions that write no queue are followed through once for every discipline that allows the
spending of an ETH payment (`Pays`); an argument of its own is needed only where the queues are
written, in `pushAsyncHash` and `finalise`.
-/

namespace AztecConnect.Contract

open Resumption Bits

/-- The lock is held and the queue lengths are bounded. -/
structure Busy (s : State) : Prop where
  locked : s.lock ≠ Lock.UNLOCKED.toWord
  bounded : s.Bounded

/-- The lock is free and the queue lengths are bounded. -/
structure Quiet (s : State) : Prop where
  unlocked : s.lock = Lock.UNLOCKED.toWord
  bounded : s.Bounded

/-! ## Functions that write no queue -/

/-- The storage after `validateAndUpdateMerkleRoots`. -/
def State.updateRoots (newStateHash : Word) (datasize : BitVec 32) (s : State) : State :=
  ({ s with rollupStateHash := newStateHash } : State).setRollupState DATASIZE_BIT_OFFSET 32
    (datasize.setWidth 256)

/-- Disciplines of the contract's programs. -/
abbrev ContractDiscipline := Discipline State ExternalCall Reply

/-- A call of `convert`. -/
def ExternalCall.isConvert : ExternalCall → Bool
  | .convert .. => true
  | _ => false

/-- A discipline under which every call but `convert` may be made. -/
class Transfers (D : ContractDiscipline) : Prop where
  request : ∀ {c}, c.isConvert = false → ∀ s, D.Inv s → D.Guar c s

/-- A discipline that allows ETH payments to be spent. -/
class Pays (D : ContractDiscipline) : Prop where
  clearEthPayment : ∀ (s : State) (nonce : Word),
    D.Allows s { s with ethPayments := Function.update s.ethPayments nonce 0 }

end AztecConnect.Contract

namespace Resumption.Discipline.Keeps

open AztecConnect AztecConnect.Contract

variable {D : ContractDiscipline} {α : Type}

/-- The modifier keeps a discipline that its body keeps. -/
lemma whenNotPaused {m : Program α} (h : D.Keeps m) : D.Keeps (whenNotPaused m) :=
  bind get fun _ => bind (require _ _) fun _ => h

/-- So does this one. -/
lemma whenPaused {m : Program α} (h : D.Keeps m) : D.Keeps (whenPaused m) :=
  bind get fun _ => bind (require _ _) fun _ => h

/-- And a check of the role of the caller. -/
lemma onlyRole {m : Program α} (x : Context) (role : Role) (h : D.Keeps m) :
    D.Keeps (onlyRole x role m) :=
  bind (require _ _) fun _ => h

/-- And the check that third parties may call. -/
lemma checkThirdPartyContractStatus {m : Program α} (x : Context) (h : D.Keeps m) :
    D.Keeps (checkThirdPartyContractStatus x m) :=
  bind get fun _ => bind (require _ _) fun _ => h

/-- A program without a return value keeps what it keeps with one. -/
lemma noReturnValue {m : Program Unit} (h : D.Keeps m) : D.Keeps (noReturnValue m) :=
  bind h fun _ => pure _

/-- The check of the provider writes the time of the last rollup at most. -/
lemma checkProvider (P : Params) (x : Context)
    (hm : ∀ (s : State) t, D.Allows s { s with lastRollupTimeStamp := t }) :
    D.Keeps (checkProvider P x) := by
  refine bind get fun _ => ite (modify fun s hs => ?_) (require _ _)
  split
  · exact hm s _ hs
  · exact ⟨hs, D.refl s⟩

/-- Decreasing a pending deposit writes the deposits only. -/
lemma decreasePendingDepositBalance (assetId : Word) (owner : Address) (amount : Word)
    (hm : ∀ (s : State) d, D.Allows s { s with userPendingDeposits := d }) :
    D.Keeps (V2.decreasePendingDepositBalance assetId owner amount) :=
  bind (require _ _) fun _ => bind get fun _ => bind (modify fun s => hm s _) fun _ => require _ _

variable [Transfers D]

/-- A transfer of tokens writes nothing. -/
lemma safeTransferTo (x : Context) (token receiver : Address) (amount : Word) :
    D.Keeps (TokenTransfers.safeTransferTo x token receiver amount) :=
  bind (require _ _) fun _ => bind (request (Transfers.request rfl)) fun _ => require _ _

/-- Nor does one from another account. -/
lemma safeTransferFrom (x : Context) (token source : Address) (amount : Word) :
    D.Keeps (TokenTransfers.safeTransferFrom x token source amount) :=
  bind (require _ _) fun _ => bind (request (Transfers.request rfl)) fun _ => require _ _

/-- Nor does one whose failure is ignored. -/
lemma transferToDoNotBubbleErrors (token receiver : Address) (amount gas : Word) :
    D.Keeps (TokenTransfers.transferToDoNotBubbleErrors token receiver amount gas) :=
  bind (request (Transfers.request rfl)) fun _ => pure _

/-- A withdrawal writes nothing. -/
lemma withdraw (value : Word) (receiver : Address) (assetId : Word) :
    D.Keeps (withdraw value receiver assetId) :=
  bind (require _ _) fun _ => ite (bind (request (Transfers.request rfl)) fun _ => pure _)
    (bind get fun _ => bind (ofExcept _) fun _ => transferToDoNotBubbleErrors _ _ _ _)

/-- Paying the fee of one asset writes nothing. -/
lemma payFee (proofData : ProofData) (receiver : Address) (i : Nat) :
    D.Keeps (payFee proofData receiver i) :=
  ite (bind (ofExcept _) fun _ => ite (bind (request (Transfers.request rfl)) fun _ => pure _)
    (bind get fun _ => bind (ofExcept _) fun _ => transferToDoNotBubbleErrors _ _ _ _)) (pure _)

/-- Nor does paying all fees. -/
lemma transferFee (proofData : ProofData) (receiver : Address) :
    D.Keeps (transferFee proofData receiver) := by
  have h (is : List Nat) : D.Keeps (payFees proofData receiver is) := by
    induction is with
    | nil => exact pure _
    | cons i is ih => exact bind (payFee _ _ _) fun _ => ih
  exact h _

/-- The loop over the transactions; a withdrawal hands control to its receiver. -/
lemma depositsAndWithdrawals (P : Params) {decrease : Word → Address → Word → Program Unit}
    (hd : ∀ a o v, D.Keeps (decrease a o v)) (signatures : List Byte) (ts : List InnerTx)
    (sigIndex : Nat) : D.Keeps (depositsAndWithdrawals P decrease signatures ts sigIndex) := by
  induction ts generalizing sigIndex with
  | nil => exact pure ()
  | cons t ts ih =>
    refine bind ?_ fun _ => ih _
    refine ite (ite ?_ (ite ?_ (pure _))) (pure _)
    · refine bind ?_ fun _ => bind (hd _ _ _) fun _ => pure _
      exact bind get fun _ => ite (pure _) (bind (require _ _) fun _ => pure _)
    · exact bind (withdraw _ _ _) fun _ => pure _

/-- Verifying a rollup writes the state hash and the size of the tree. -/
lemma verifyProofAndUpdateState (P : Params) (x : Context) (cd : Calldata) (start length : Nat)
    (proofData : ProofData) (publicInputsHash : Word)
    (hm : ∀ (s : State) h d, D.Allows s (s.updateRoots h d)) :
    D.Keeps (verifyProofAndUpdateState P x cd start length proofData publicInputsHash) :=
  bind (require _ _) fun _ => bind get fun _ => bind (require _ _) fun _ =>
    bind (request (Transfers.request rfl)) fun _ => bind (require _ _) fun _ =>
    bind (ofExcept _) fun _ => bind get fun _ => bind (require _ _) fun _ =>
    bind (require _ _) fun _ => bind (require _ _) fun _ =>
    bind (modify fun s => hm s _ _) fun _ => pure _

variable [Pays D]

/-- The proxy writes nothing itself when it recovers tokens. -/
lemma recoverTokens (x : Context) (asset : AztecAsset) (value nonce : Word) (bridge : Address) :
    D.Keeps (DefiBridgeProxy.recoverTokens x asset value nonce bridge) := by
  apply ite (pure _)
  cases asset.assetType with
  | NOT_USED => exact pure _
  | ETH =>
    exact bind get fun _ => bind (require _ _) fun _ =>
      modify fun s => Pays.clearEthPayment s nonce
  | ERC20 => exact safeTransferFrom _ _ _ _
  | VIRTUAL => exact pure _

/-- Nor when it settles a conversion, apart from the payments of the bridge. -/
lemma settle (x : Context) (bridge : Address) (a : BridgeAssets) (nonce outA outB : Word)
    (isAsync : Bool) : D.Keeps (DefiBridgeProxy.settle x bridge a nonce outA outB isAsync) := by
  apply ite (require _ _)
  exact bind (require _ _) fun _ => bind (require _ _) fun _ =>
    bind (recoverTokens _ _ _ _ _) fun _ => recoverTokens _ _ _ _ _

/-- `DefiBridgeProxy.convert`: the proxy runs on the processor's storage, but only the ETH payments
are within its reach. -/
lemma convert (hreq : ∀ c s, D.Inv s → D.Guar c s) (x : Context) (bridge : Address)
    (a : BridgeAssets)
    (totalInputValue nonce aux : Word) (beneficiary : Address) :
    D.Keeps (DefiBridgeProxy.convert x bridge a totalInputValue nonce aux beneficiary) := by
  have hsend (asset : AztecAsset) :
      D.Keeps (DefiBridgeProxy.sendInput x asset bridge totalInputValue) :=
    ite (safeTransferTo _ _ _ _) (pure _)
  refine bind (hsend _) fun _ => bind (hsend _) fun _ => bind (request (hreq _)) fun _ =>
    bind (ofExcept _) fun out => ?_
  exact bind (settle _ _ _ _ _ _ _) fun _ => pure _

/-- A bridge call, up to its result (`processBridgeCalls`). -/
lemma runBridgeCall (hreq : ∀ c s, D.Inv s → D.Guar c s)
    (getAssets : State → FullBridgeCallData → Word → Except RevertReason BridgeAssets)
    (x : Context) (beneficiary : Address) (e totalInputValue nonce : Word) :
    D.Keeps (runBridgeCall getAssets x beneficiary e totalInputValue nonce) :=
  bind (require _ _) fun _ => bind get fun _ => bind (ofExcept _) fun _ =>
    bind (ofExcept _) fun _ => bind (require _ _) fun _ =>
    bind (attempt (convert hreq _ _ _ _ _ _ _)) fun _ => pure _

/-- Nor when a finalised output is collected. -/
lemma transferTokensAsync (x : Context) (bridge : Address) (asset : AztecAsset)
    (value nonce : Word) : D.Keeps (transferTokensAsync x bridge asset value nonce) := by
  apply ite (pure _)
  cases asset.assetType with
  | NOT_USED => exact pure _
  | ETH =>
    exact bind get fun _ => bind (require _ _) fun _ =>
      modify fun s => Pays.clearEthPayment s nonce
  | ERC20 => exact safeTransferFrom _ _ _ _
  | VIRTUAL => exact pure _

/-- Nor when both outputs are. -/
lemma transferResult (x : Context) (bridge : Address) (a : BridgeAssets)
    (totalInputValue nonce outA outB : Word) :
    D.Keeps (transferResult x bridge a totalInputValue nonce outA outB) :=
  ite (bind (transferTokensAsync _ _ _ _ _) fun _ => transferTokensAsync _ _ _ _ _)
    (bind (transferTokensAsync _ _ _ _ _) fun _ => transferTokensAsync _ _ _ _ _)

end Resumption.Discipline.Keeps

namespace AztecConnect.Contract

open Resumption Bits

/-! ## The disciplines of a locked processor -/

/-- What the processor itself may do to the storage while it holds the lock and before it comes to
the bridge calls of a rollup. -/
structure LockedStep (P : Params) (s s' : State) : Prop extends QueueStep P s s' where
  lock : s'.lock = s.lock
  stateHash : s'.rollupStateHash = s.rollupStateHash

/-- An invariant that implies the lock is held and depends, beyond that, on the defi queue only. -/
structure Guarded (Inv : State → Prop) : Prop where
  busy : ∀ {s}, Inv s → Busy s
  keep : ∀ {s s'}, Inv s → Busy s' → SameDefi s s' → Inv s'

/-- Every invariant of locked states is guarded by the lock. -/
lemma Guarded.ofBusy : Guarded Busy := ⟨fun h => h, fun _ h _ => h⟩

variable {P : Params} {answers : ExternalCall → State → Reply → Prop} {Inv : State → Prop} {α : Type}

/-- A locked state can stay as it is. -/
lemma LockedStep.refl (s : State) : LockedStep P s s := ⟨.refl s, rfl, rfl⟩

/-- Two locked steps are one. -/
lemma LockedStep.trans {s s' s'' : State} (h : LockedStep P s s') (h' : LockedStep P s' s'') :
    LockedStep P s s'' :=
  ⟨h.toQueueStep.trans h'.toQueueStep, h'.lock.trans h.lock, h'.stateHash.trans h.stateHash⟩

/-- A locked step keeps the lock. -/
lemma LockedStep.busy {s s' : State} (h : LockedStep P s s') (hs : Busy s) : Busy s' :=
  ⟨by rw [h.lock]; exact hs.locked, h.bounded hs.bounded⟩

/-- A guarded invariant survives a locked step. -/
lemma LockedStep.guarded {s s' : State} (h : LockedStep P s s') (hI : Guarded Inv) (hs : Inv s) :
    Inv s' :=
  hI.keep hs (h.busy (hI.busy hs)) h.toSameDefi

/-- What other contracts can do is a locked step. -/
lemma Rely.locked {s s' : State} (h : Rely P s s') : LockedStep P s s' :=
  ⟨h.toQueueStep, h.lock, h.stateHash⟩

/-- Programs whose effect is one that called contracts may have too. -/
def relyDiscipline (P : Params) (answers : ExternalCall → State → Reply → Prop)
    (Inv : State → Prop) : ContractDiscipline where
  Inv := Inv
  Guar := fun _ => Inv
  env := (V2.world P answers).rely Inv (Rely P)
  Rel := Rely P
  refl := Rely.refl
  trans := Rely.trans
  sound _ h := h.2.2

/-- Programs that run before the bridge calls of a rollup. -/
def lockedDiscipline (P : Params) (answers : ExternalCall → State → Reply → Prop)
    (Inv : State → Prop) : ContractDiscipline where
  Inv := Inv
  Guar := fun _ => Inv
  env := (V2.world P answers).rely Inv (Rely P)
  Rel := LockedStep P
  refl := .refl
  trans := .trans
  sound _ h := ⟨h.2.2.1, h.2.2.2.locked⟩

/-- What they can do is allowed by the discipline. -/
lemma Rely.allows (hI : Guarded Inv) {s s' : State} (h : Rely P s s') :
    (relyDiscipline P answers Inv).Allows s s' := fun hs => ⟨h.locked.guarded hI hs, h⟩

/-- A locked step is allowed by the discipline. -/
lemma LockedStep.allows (hI : Guarded Inv) {s s' : State} (h : LockedStep P s s') :
    (lockedDiscipline P answers Inv).Allows s s' := fun hs => ⟨h.guarded hI hs, h⟩

/-- What called contracts may do is allowed before the bridge calls. -/
lemma keeps_locked {m : Program α} (h : (relyDiscipline P answers Inv).Keeps m) :
    (lockedDiscipline P answers Inv).Keeps m :=
  fun s hs => Res.wp_mono (fun _ _ h => ⟨h.1, h.2.locked⟩) (h s hs)

/-- Spending an ETH payment touches no queue. -/
lemma Rely.clearEthPayment (s : State) (nonce : Word) :
    Rely P s { s with ethPayments := Function.update s.ethPayments nonce 0 } :=
  ⟨.of_eq rfl rfl rfl rfl rfl rfl rfl, ⟨rfl, rfl, rfl, rfl, rfl, rfl⟩⟩

instance : Transfers (relyDiscipline P answers Inv) := ⟨fun _ _ h => h⟩

instance : Transfers (lockedDiscipline P answers Inv) := ⟨fun _ _ h => h⟩

/-- Payments of a bridge are allowed. -/
lemma pays_rely (hI : Guarded Inv) : Pays (relyDiscipline P answers Inv) where
  clearEthPayment s nonce := (Rely.clearEthPayment s nonce).allows hI

/-- Functions that take the lock revert. -/
lemma keeps_withLock (hI : Guarded Inv) (l : Lock) (m : Program α) :
    (relyDiscipline P answers Inv).Keeps (withLock l m) := by
  intro s hs
  simp only [withLock, Prog.wp_bind, Prog.wp_get, Prog.wp_require]
  exact fun h => absurd h (hI.busy hs).locked

/-! ## Finalising an interaction -/

/-- The storage after `pushAsyncHash`. -/
def State.pushAsync (h : Word) (s : State) : State :=
  ({ s with
      asyncDefiInteractionHashes :=
        Function.update s.asyncDefiInteractionHashes s.asyncArrayLen h } :
    State).setRollupState ASYNCDEFIINTERACTIONHASHES_BIT_OFFSET ARRAY_LENGTH_BITS
    (s.asyncArrayLen + 1)

section Push

variable {s : State} {h : Word}

/-- The check of `pushAsyncHash`, over the integers. -/
lemma pushAsync_room (hs : s.Bounded) (hr : ¬ 512 < 1 + s.asyncArrayLen + s.defiArrayLen) :
    s.numAsyncDefiInteractionHashes.toNat + 1 + s.numDefiInteractionHashes.toNat ≤ 512 := by
  rw [State.asyncArrayLen_eq hs, State.defiArrayLen_eq hs] at hr
  have ha := hs.async
  have hd := hs.defi
  simp only [ARRAY_LENGTH_BITS] at ha hd
  bv_omega

/-- The value written by `pushAsyncHash` fits the mask. -/
lemma pushAsync_lt (hs : s.Bounded)
    (hr : s.numAsyncDefiInteractionHashes.toNat + 1 + s.numDefiInteractionHashes.toNat ≤ 512) :
    (s.asyncArrayLen + 1).toNat < 2 ^ ARRAY_LENGTH_BITS := by
  rw [State.asyncArrayLen_eq hs, ARRAY_LENGTH_BITS]
  bv_omega

/-- A hash pushed makes the async queue longer by one. -/
lemma State.numAsync_pushAsync (hs : s.Bounded)
    (hr : s.numAsyncDefiInteractionHashes.toNat + 1 + s.numDefiInteractionHashes.toNat ≤ 512) :
    (s.pushAsync h).numAsyncDefiInteractionHashes.toNat =
      s.numAsyncDefiInteractionHashes.toNat + 1 := by
  have hset : (s.pushAsync h).numAsyncDefiInteractionHashes = s.asyncArrayLen + 1 :=
    field_setField_prefix _ (pushAsync_lt hs hr) (by decide) (by decide) hs.async
  rw [hset, State.asyncArrayLen_eq hs]
  bv_omega

/-- It is behind the others. -/
lemma State.asyncHashes_pushAsync (hs : s.Bounded)
    (hr : s.numAsyncDefiInteractionHashes.toNat + 1 + s.numDefiInteractionHashes.toNat ≤ 512) :
    (s.pushAsync h).asyncHashes = s.asyncHashes ++ [h] := by
  have hkey : s.asyncArrayLen = BitVec.ofNat 256 s.numAsyncDefiInteractionHashes.toNat := by
    rw [State.asyncArrayLen_eq hs, BitVec.ofNat_toNat, BitVec.setWidth_eq]
  rw [State.asyncHashes, State.numAsync_pushAsync hs hr]
  show MappedArray.contents (Function.update s.asyncDefiInteractionHashes s.asyncArrayLen h) _ = _
  rw [hkey, MappedArray.contents_push _ _ (by omega)]
  rfl

/-- The defi queue keeps its length. -/
lemma State.numDefi_pushAsync (hs : s.Bounded)
    (hr : s.numAsyncDefiInteractionHashes.toNat + 1 + s.numDefiInteractionHashes.toNat ≤ 512) :
    (s.pushAsync h).numDefiInteractionHashes = s.numDefiInteractionHashes :=
  State.numDefi_setRollupState (pushAsync_lt hs hr) (by decide)

/-- The lock stays. -/
lemma State.lock_pushAsync (hs : s.Bounded)
    (hr : s.numAsyncDefiInteractionHashes.toNat + 1 + s.numDefiInteractionHashes.toNat ≤ 512) :
    (s.pushAsync h).lock = s.lock :=
  State.lock_setRollupState (pushAsync_lt hs hr) (by decide)

end Push

/-- `pushAsyncHash` as a state change. -/
lemma wp_pushAsyncHash {G : ExternalCall → State → Prop}
    {R : Env State ExternalCall Reply} {Q : State → Unit → Prop} {s : State} {h : Word} :
    (V2.pushAsyncHash h s).wp G R Q ↔
      (¬ 512 < 1 + s.asyncArrayLen + s.defiArrayLen → Q (s.pushAsync h) ()) := by
  simp only [V2.pushAsyncHash, Prog.wp_bind, Prog.wp_get, Prog.wp_require, Prog.wp_modify]
  exact Iff.rfl

/-- An interaction that did not complete is put back; the others resolved meanwhile stay resolved. -/
lemma Results.restore {s s' : State} {n : Word} {new : List Interaction}
    (h : Results P (setPendingCallData n 0 s) new s') :
    Results P s new
      (setPendingCallData n (s.pendingDefiInteractions n).encodedBridgeCallData s') := by
  have hn : n ∉ new.map Interaction.nonce := by
    intro hm
    obtain ⟨i, hi, rfl⟩ := List.mem_map.mp hm
    exact (h.completed i hi).1 (by simp [setPendingCallData])
  refine ⟨h.produced, h.async, h.nodup, ?_, ?_, h.room⟩
  · intro i hi
    have hin : i.nonce ≠ n := fun e => hn (e ▸ List.mem_map_of_mem hi)
    have hc := h.completed i hi
    simpa [setPendingCallData, State.Pending, hin] using hc
  · intro m hm
    have hu := h.untouched m hm
    by_cases hmn : m = n
    · subst hmn
      simp only [setPendingCallData, Function.update_self] at hu ⊢
      rw [hu]
    · simpa [setPendingCallData, hmn] using hu

/-- A completed interaction is resolved after those resolved while its bridge ran. -/
lemma Results.complete {s s' : State} {n : Word} {new : List Interaction} (outA outB : Word)
    (result : Bool) (reason : Option RevertReason)
    (h : Results P (setPendingCallData n 0 s) new s') (hp : s.Pending n) (hs : s'.Bounded)
    (hr : s'.numAsyncDefiInteractionHashes.toNat + 1 + s'.numDefiInteractionHashes.toNat ≤ 512) :
    let i : Interaction := ⟨(s.pendingDefiInteractions n).encodedBridgeCallData, n,
      (s.pendingDefiInteractions n).totalInputValue, outA, outB, result⟩
    Results P s (new ++ [i]) ((s'.pushAsync (i.hash P)).emit (.DefiBridgeProcessed
      i.encodedBridgeCallData n i.totalInputValue outA outB result reason)) := by
  intro i
  have hn : n ∉ new.map Interaction.nonce := by
    intro hm
    obtain ⟨j, hj, rfl⟩ := List.mem_map.mp hm
    exact (h.completed j hj).1 (by simp [setPendingCallData])
  refine ⟨?_, ?_, ?_, ?_, ?_, ?_⟩
  · have hprod := h.produced
    simp only [State.produced, State.emit, State.pushAsync, State.setRollupState,
      List.filterMap_append, setPendingCallData] at hprod ⊢
    rw [hprod, List.append_assoc]
    rfl
  · rw [List.map_append, ← List.append_assoc]
    have ha := h.async
    have hpush := State.asyncHashes_pushAsync (h := i.hash P) hs hr
    rw [ha] at hpush
    exact hpush
  · rw [List.map_append, List.nodup_append]
    refine ⟨h.nodup, by simp, ?_⟩
    intro a ha b hb e
    simp only [List.map_cons, List.map_nil, List.mem_singleton] at hb
    exact hn (by rw [← show b = n from hb, ← e]; exact ha)
  · intro j hj
    rcases List.mem_append.mp hj with hj | hj
    · have hjn : j.nonce ≠ n := fun e => hn (e ▸ List.mem_map_of_mem hj)
      have hc := h.completed j hj
      simpa [setPendingCallData, State.Pending, hjn, State.emit, State.pushAsync,
        State.setRollupState] using hc
    · rw [List.mem_singleton] at hj
      subst hj
      refine ⟨hp, ?_, rfl⟩
      have hu := h.untouched n hn
      simp only [setPendingCallData, Function.update_self] at hu
      show ¬ (s'.pendingDefiInteractions n).encodedBridgeCallData ≠ 0
      rw [hu]
      simp
  · intro m hm
    rw [List.map_append, List.mem_append, not_or] at hm
    have hmn : m ≠ n := fun e => hm.2 (by simp [i, e])
    have hu := h.untouched m hm.1
    simpa [setPendingCallData, hmn, State.emit, State.pushAsync, State.setRollupState] using hu
  · right
    show (s'.pushAsync _).numAsyncDefiInteractionHashes.toNat +
      (s'.pushAsync _).numDefiInteractionHashes.toNat ≤ 512
    rw [State.numAsync_pushAsync hs hr, State.numDefi_pushAsync hs hr]
    exact hr

/-- What `prepareFinalisation` reads off the pending entry. -/
lemma prepareFinalisation_eq {getAssets : State → FullBridgeCallData → Word →
      Except RevertReason BridgeAssets} {getBridge : State → Word → Except RevertReason Address}
    {s : State} {n : Word} {f : Finalisation}
    (h : prepareFinalisation getAssets getBridge s n = .ok f) :
    f.interactionNonce = n ∧ s.Pending n ∧
      s.pendingDefiInteractions n = ⟨f.encodedBridgeCallData, f.totalInputValue⟩ := by
  unfold prepareFinalisation at h
  by_cases hp : (s.pendingDefiInteractions n).encodedBridgeCallData = 0
  · simp [hp, throw, throwThe, MonadExceptOf.throw, bind, Except.bind] at h
  · simp only [hp, if_false, bind, Except.bind, pure, Except.pure] at h
    split at h
    · cases h
    · split at h
      · cases h
      · split at h
        · cases h
        · cases h
          exact ⟨rfl, hp, rfl⟩

/-- From a locked state, finalising an interaction resolves at most that interaction, and what the
called contracts resolve meanwhile. -/
lemma finalise_keeps (hI : Guarded Inv) {x : Context} {f : Finalisation} {s : State} (hs : Inv s)
    (hp : s.Pending f.interactionNonce)
    (hf : s.pendingDefiInteractions f.interactionNonce =
      ⟨f.encodedBridgeCallData, f.totalInputValue⟩) :
    (finalise P V2.pushAsyncHash x f s).wp (fun _ => Inv)
      ((V2.world P answers).rely Inv (Rely P)) fun s' _ => Inv s' ∧ Rely P s s' := by
  have hclear : Inv (setPendingCallData f.interactionNonce 0 s) :=
    hI.keep hs ⟨(hI.busy hs).locked, (hI.busy hs).bounded.async, (hI.busy hs).bounded.defi⟩
      ⟨rfl, rfl, rfl⟩
  simp only [finalise, Prog.wp_bind, Prog.wp_modify, Prog.wp_request, Prog.wp_ofExcept,
    Prog.wp_ite, Prog.wp_pure]
  refine ⟨hclear, ?_⟩
  rintro r s₂ ⟨-, -, hb₂, h₁₂⟩ ⟨outA, outB, done⟩ -
  obtain ⟨new, hnew⟩ := h₁₂.results
  refine ⟨fun _ => ?_, fun _ => ?_⟩
  · -- completed: transfers, then the hash is pushed
    simp only [completeFinalisation, Prog.wp_bind, Prog.wp_require]
    intro _
    have : Pays (relyDiscipline P answers Inv) := pays_rely hI
    refine Res.wp_mono ?_ (Discipline.Keeps.transferResult (D := relyDiscipline P answers Inv)
      _ _ _ _ _ _ _ s₂ hb₂)
    rintro s₃ - ⟨hb₃, h₂₃ : Rely P s₂ s₃⟩
    have hbound := (hI.busy hb₃).bounded
    rw [wp_pushAsyncHash]
    intro hroom
    have hr := pushAsync_room hbound hroom
    obtain ⟨new', hnew'⟩ := h₂₃.results
    have hres := (hnew.trans h₂₃.numDefi hnew').complete outA outB
      (finaliseResult outA outB) none hp hbound hr
    rw [hf] at hres
    have h₁₃ := h₁₂.trans h₂₃
    have hrely : Rely P s ((s₃.pushAsync (P.defiInteractionHash f.encodedBridgeCallData
        f.interactionNonce f.totalInputValue outA outB (finaliseResult outA outB))).emit
        (.DefiBridgeProcessed f.encodedBridgeCallData f.interactionNonce f.totalInputValue outA
          outB (finaliseResult outA outB) none)) :=
      { numDefi := (State.numDefi_pushAsync hbound hr).trans h₁₃.numDefi
        defiHashes := h₁₃.defiHashes
        prevHash := h₁₃.prevHash
        stateHash := h₁₃.stateHash
        results := ⟨_, hres⟩
        lock := (State.lock_pushAsync hbound hr).trans h₁₃.lock
        deposits := h₁₃.deposits
        assets := h₁₃.assets
        assetGas := h₁₃.assetGas
        proxy := h₁₃.proxy }
    exact (hrely.allows hI : (relyDiscipline P answers Inv).Allows _ _) hs
  · -- not completed: the entry is put back
    have hres := hnew.restore
    rw [hf] at hres
    have hrely : Rely P s (setPendingCallData f.interactionNonce f.encodedBridgeCallData s₂) :=
      { numDefi := h₁₂.numDefi
        defiHashes := h₁₂.defiHashes
        prevHash := h₁₂.prevHash
        stateHash := h₁₂.stateHash
        results := ⟨_, hres⟩
        lock := h₁₂.lock
        deposits := h₁₂.deposits
        assets := h₁₂.assets
        assetGas := h₁₂.assetGas
        proxy := h₁₂.proxy }
    exact (hrely.allows hI : (relyDiscipline P answers Inv).Allows _ _) hs

/-! ## All entry points -/

/-- What a discipline has to allow for every entry point to keep to it while the lock is held. -/
structure ConfinesEntries (P : Params) (D : ContractDiscipline) : Prop where
  locked : ∀ {s}, D.Inv s → s.lock ≠ Lock.UNLOCKED.toWord
  processAsync : ∀ x n, D.Keeps (V2.processAsyncDefiInteraction P x n)
  approveProof : ∀ x h, D.Keeps (approveProof x h)
  ethPayments : ∀ s f, D.Allows s { s with ethPayments := f }
  emit : ∀ s e, e.interaction? = none → D.Allows s (s.emit e)

/-- Functions that take the lock revert. -/
lemma ConfinesEntries.withLock {D : ContractDiscipline} (hD : ConfinesEntries P D) (l : Lock)
    (m : Program α) : D.Keeps (withLock l m) := by
  intro s hs
  simp only [Contract.withLock, Prog.wp_bind, Prog.wp_get, Prog.wp_require]
  exact fun h => absurd h (hD.locked hs)

/-- Every entry point, called back while the lock is held. -/
lemma ConfinesEntries.run {D : ContractDiscipline} (hD : ConfinesEntries P D) (e : Entry) :
    D.Keeps (V2.run P e) := by
  cases e with
  | processRollup x c =>
    exact .noReturnValue (.bind (.ofOption _ _) fun _ => .whenNotPaused (hD.withLock _ _))
  | processAsyncDefiInteraction x n => exact .bind (hD.processAsync x n) fun _ => .pure _
  | receiveEthFromBridge x n => exact .noReturnValue (.modify fun s => hD.ethPayments s _)
  | approveProof x h => exact .noReturnValue (hD.approveProof x h)
  | depositPendingFunds x a v o h => exact .noReturnValue (.whenNotPaused (hD.withLock _ _))
  | offchainData x i c n =>
    exact .noReturnValue (.whenNotPaused (.modify fun s => hD.emit s _ rfl))
  | pause x => exact .noReturnValue (.whenNotPaused (.onlyRole x _ (hD.withLock _ _)))
  | unpause x => exact .noReturnValue (.whenPaused (.onlyRole x _ (hD.withLock _ _)))
  | setCapped x b => exact .noReturnValue (.onlyRole x _ (hD.withLock _ _))
  | setRollupProvider x a b => exact .noReturnValue (.onlyRole x _ (hD.withLock _ _))
  | setAssetCap x i pc dc p => exact .noReturnValue (.onlyRole x _ (hD.withLock _ _))
  | setDelayBeforeEscapeHatch x d => exact .noReturnValue (.onlyRole x _ (hD.withLock _ _))
  | setVerifier x a => exact .noReturnValue (.onlyRole x _ (hD.withLock _ _))
  | setAllowThirdPartyContracts x b => exact .noReturnValue (.onlyRole x _ (hD.withLock _ _))
  | setDefiBridgeProxy x a => exact .noReturnValue (.onlyRole x _ (hD.withLock _ _))
  | setSupportedAsset x a g =>
    exact .noReturnValue (.whenNotPaused (.checkThirdPartyContractStatus x (hD.withLock _ _)))
  | setSupportedBridge x a g =>
    exact .noReturnValue (.whenNotPaused (.checkThirdPartyContractStatus x (hD.withLock _ _)))

/-- The body of `processAsyncDefiInteraction`. -/
lemma keeps_finaliseBody (hI : Guarded Inv) (x : Context) (n : Word) :
    (relyDiscipline P answers Inv).Keeps (do
      let s ← Prog.get
      let f ← Prog.ofExcept (prepareFinalisation getAztecAssetTypes V2.bridgeOf s n)
      finalise P V2.pushAsyncHash x f : Program Bool) := by
  intro s hs
  simp only [Prog.wp_bind, Prog.wp_get, Prog.wp_ofExcept]
  intro f hf
  obtain ⟨rfl, hp, hentry⟩ := prepareFinalisation_eq hf
  exact finalise_keeps hI hs hp hentry

/-- A storage update that touches neither the queues nor anything `Frame` fixes. -/
lemma keeps_modifyRely (hI : Guarded Inv) {f : State → State} (hf : ∀ s, Rely P s (f s)) :
    (relyDiscipline P answers Inv).Keeps (Prog.modify f : Program Unit) :=
  .modify fun s => (hf s).allows hI

/-- Approving a proof is allowed. -/
lemma keeps_approveProof (hI : Guarded Inv) (x : Context) (h : Word) :
    (relyDiscipline P answers Inv).Keeps (approveProof x h) :=
  .whenNotPaused (keeps_modifyRely hI fun _ =>
    ⟨.of_eq rfl rfl rfl rfl rfl rfl rfl, ⟨rfl, rfl, rfl, rfl, rfl, rfl⟩⟩)

/-- An event that publishes no interaction leaves the resolved interactions alone. -/
lemma produced_emit (s : State) {e : Event} (he : e.interaction? = none) :
    (s.emit e).produced = s.produced := by
  simp [State.produced, State.emit, List.filterMap_append, he]

/-- All entries that a locked contract accepts keep the discipline. -/
lemma confinesEntries_rely (hI : Guarded Inv) :
    ConfinesEntries P (relyDiscipline P answers Inv) where
  locked hs := (hI.busy hs).locked
  processAsync x n :=
    .whenNotPaused (.bind .get fun _ => .ite (keeps_finaliseBody hI x n) (keeps_withLock hI _ _))
  approveProof x h := keeps_approveProof hI x h
  ethPayments _ _ := Rely.allows hI ⟨.of_eq rfl rfl rfl rfl rfl rfl rfl, ⟨rfl, rfl, rfl, rfl, rfl, rfl⟩⟩
  emit s _ he := Rely.allows hI
    ⟨.of_eq rfl rfl rfl rfl rfl rfl (produced_emit s he), ⟨rfl, rfl, rfl, rfl, rfl, rfl⟩⟩

/-- Every entry point, called back while the lock is held, keeps to `Rely`. -/
theorem V2.run_keeps (hI : Guarded Inv) (e : Entry) :
    (relyDiscipline P answers Inv).Keeps (V2.run P e) :=
  (confinesEntries_rely hI).run e

/-- Whatever called contracts do while the lock is held keeps to `Rely`. -/
theorem V2.env_rely (hI : Guarded Inv) (n : Nat) {c : ExternalCall} {s s' : State} {r : Reply}
    (hs : Inv s) (h : (V2.world P answers).env n c s r s') :
    (V2.world P answers).rely Inv (Rely P) c s r s' :=
  World.env_rely Rely.refl (fun _ _ _ => Rely.trans) (fun e s hs => V2.run_keeps hI e s hs) n hs h

section

variable {n : Nat} {Q : State → α → Prop} {t : Res State RevertReason ExternalCall Reply α}

/-- A run against the world establishes the postcondition. -/
lemma V2.wp_completes (hI : Guarded Inv) {tr : List (Exchange State ExternalCall Reply)} {s : State}
    {a : α} (h : Completes ((V2.world P answers).env n) t tr s a)
    (hwp : t.wp (fun _ => Inv) ((V2.world P answers).rely Inv (Rely P)) Q) : Q s a :=
  Res.wp_completes (fun _ _ _ _ => V2.env_rely hI n) h hwp

end

end AztecConnect.Contract
