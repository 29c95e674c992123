import AztecConnect.Contract.Interference

/-!
# Calls from outside that are not rollups

Started with the lock free, every entry point other than `processRollup` leaves the defi queue, the
hash of its top and the state hash alone, and resolves pending interactions into the async queue only
(`V2.run_outside`). The functions that take the lock are handled by one rule, `Outside.withLock`.
-/

namespace AztecConnect.Contract

open Resumption Bits

/-- What a call other than `processRollup` does to the queues. -/
structure QuietStep (P : Params) (s s' : State) : Prop extends QueueStep P s s' where
  stateHash : s'.rollupStateHash = s.rollupStateHash

variable {P : Params} {answers : ExternalCall → State → Reply → Prop} {Inv : State → Prop} {α : Type}

/-- A state whose defi queue satisfies `Inv` once the lock is taken. -/
def Ready (Inv : State → Prop) (s : State) : Prop := ∀ s', Busy s' → SameDefi s s' → Inv s'

/-- A condition on locked states asks nothing at the start. -/
lemma Ready.ofBusy (s : State) : Ready Busy s := fun _ h _ => h

/-- A program whose effect, from an unlocked state, is a `QuietStep`. -/
def Outside (P : Params) (answers : ExternalCall → State → Reply → Prop) (Inv : State → Prop)
    (m : Program α) : Prop :=
  ∀ s, Quiet s → Ready Inv s →
    (m s).wp (fun _ => Inv) ((V2.world P answers).rely Inv (Rely P))
      fun s' _ => Quiet s' ∧ QuietStep P s s'

/-- Taking the lock touches neither queue. -/
lemma QueueStep.setLock (s : State) (l : Lock) : QueueStep P s (s.setLock l) :=
  .of_eq (State.numAsync_setLock l) (State.numDefi_setLock l) rfl rfl rfl rfl rfl

/-- A quiet state is busy once the lock is set. -/
lemma Quiet.setLock {s : State} (hs : Quiet s) {l : Lock} (hl : l ≠ .UNLOCKED) :
    Busy (s.setLock l) where
  locked := by
    rw [State.lock_setLock]
    cases l with
    | UNLOCKED => exact absurd rfl hl
    | ALLOW_ASYNC_REENTER => decide
    | LOCKED => decide
  bounded := (QueueStep.setLock (P := ⟨fun _ => 0, fun _ => 0, fun _ _ _ _ => true, 0, 0⟩) s l).bounded
    hs.bounded

/-- Releasing the lock. -/
lemma Busy.unlock {s : State} (hs : Busy s) : Quiet (s.setLock .UNLOCKED) where
  unlocked := State.lock_setLock _
  bounded := ⟨by rw [State.numAsync_setLock]; exact hs.bounded.async,
    by rw [State.numDefi_setLock]; exact hs.bounded.defi⟩

/-- The rule of `withLock`, from an unlocked state. -/
lemma wp_withLock {G : ExternalCall → State → Prop} {R : Env State ExternalCall Reply}
    {Q : State → α → Prop} {l : Lock} {m : Program α} {s : State}
    (h : (m (s.setLock l)).wp G R fun s' a => Q (s'.setLock .UNLOCKED) a) :
    (withLock l m s).wp G R Q := by
  simp only [withLock, Prog.wp_bind, Prog.wp_get, Prog.wp_require, Prog.wp_modify, Prog.wp_pure]
  exact fun _ => h

namespace Outside

/-- A change of the state under the lock is one the outside may see. -/
lemma modify {f : State → State} (hf : ∀ s, LockedStep P s (f s)) :
    Outside P answers Inv (Prog.modify f) :=
  fun s hs _ => ⟨⟨(hf s).lock.trans hs.unlocked, (hf s).bounded hs.bounded⟩, (hf s).toQueueStep,
    (hf s).stateHash⟩

/-- A body that keeps the discipline may be run under the lock. -/
lemma withLock (hI : Guarded Inv) {l : Lock} (hl : l ≠ .UNLOCKED) {m : Program α}
    (h : (lockedDiscipline P answers Inv).Keeps m) : Outside P answers Inv (withLock l m) := by
  intro s hs hr
  apply wp_withLock
  refine Res.wp_mono ?_ (h _ (hr _ (hs.setLock hl) (QueueStep.setLock (P := P) s l).toSameDefi))
  rintro s' a ⟨hb, hstep⟩
  refine ⟨(hI.busy hb).unlock, ?_, hstep.stateHash⟩
  exact ((QueueStep.setLock s l).trans hstep.toQueueStep).trans (QueueStep.setLock s' .UNLOCKED)

/-- So may one under `noReenter`. -/
lemma noReenter (hI : Guarded Inv) {m : Program α} (h : (lockedDiscipline P answers Inv).Keeps m) :
    Outside P answers Inv (noReenter m) := withLock hI (by decide) h

/-- The guards in front of a body do not matter: `whenNotPaused`, -/
lemma whenNotPaused {m : Program α} (h : Outside P answers Inv m) :
    Outside P answers Inv (whenNotPaused m) := by
  intro s hs hr
  simp only [Contract.whenNotPaused, Prog.wp_bind, Prog.wp_get, Prog.wp_require]
  exact fun _ => h s hs hr

/-- `whenPaused`, -/
lemma whenPaused {m : Program α} (h : Outside P answers Inv m) : Outside P answers Inv (whenPaused m) := by
  intro s hs hr
  simp only [Contract.whenPaused, Prog.wp_bind, Prog.wp_get, Prog.wp_require]
  exact fun _ => h s hs hr

/-- `onlyRole`, -/
lemma onlyRole {m : Program α} (x : Context) (role : Role) (h : Outside P answers Inv m) :
    Outside P answers Inv (onlyRole x role m) := by
  intro s hs hr
  simp only [Contract.onlyRole, Prog.wp_bind, Prog.wp_require]
  exact fun _ => h s hs hr

/-- and the flag for third parties. -/
lemma checkThirdPartyContractStatus {m : Program α} (x : Context) (h : Outside P answers Inv m) :
    Outside P answers Inv (checkThirdPartyContractStatus x m) := by
  intro s hs hr
  simp only [Contract.checkThirdPartyContractStatus, Prog.wp_bind, Prog.wp_get, Prog.wp_require]
  exact fun _ => h s hs hr

/-- Nor does dropping the value. -/
lemma noReturnValue {m : Program Unit} (h : Outside P answers Inv m) :
    Outside P answers Inv (noReturnValue m) := by
  intro s hs hr
  simp only [Contract.noReturnValue, Prog.wp_bind, Prog.wp_pure]
  exact h s hs hr

end Outside

/-- A storage update that leaves the packed word and the queues alone. -/
lemma LockedStep.of_eq {s s' : State} (hr : s'.rollupState = s.rollupState)
    (hah : s'.asyncDefiInteractionHashes = s.asyncDefiInteractionHashes)
    (hdh : s'.defiInteractionHashes = s.defiInteractionHashes)
    (hpr : s'.prevDefiInteractionsHash = s.prevDefiInteractionsHash)
    (hst : s'.rollupStateHash = s.rollupStateHash)
    (hpe : s'.pendingDefiInteractions = s.pendingDefiInteractions)
    (hlo : s'.produced = s.produced) : LockedStep P s s' where
  toQueueStep := .of_eq (by simp only [State.numAsyncDefiInteractionHashes, hr])
    (by simp only [State.numDefiInteractionHashes, hr]) hah hdh hpr hpe hlo
  lock := by simp only [State.lock, hr]
  stateHash := hst

/-- A write to a member of the packed word that is neither a queue length nor the lock, together
with an event. -/
lemma LockedStep.setRollupState (s : State) {off len : Nat} {v : Word} {e : Event}
    (hv : v.toNat < 2 ^ len) (hd : off + len ≤ 192 ∨ 232 ≤ off) (he : e.interaction? = none) :
    LockedStep P s ((s.setRollupState off len v).emit e) where
  toQueueStep := .of_eq (State.numAsync_setRollupState hv (by omega))
    (State.numDefi_setRollupState hv (by omega)) rfl rfl rfl rfl
    (produced_emit (s.setRollupState off len v) he)
  lock := State.lock_setRollupState hv (by omega)
  stateHash := rfl

/-- A `LockedStep` update, as a program. -/
lemma keeps_modifyLocked (hI : Guarded Inv) {f : State → State} (hf : ∀ s, LockedStep P s (f s)) :
    (lockedDiscipline P answers Inv).Keeps (Prog.modify f : Program Unit) :=
  .modify fun s => (hf s).allows hI

/-- The setters of the owner. -/
lemma Outside.ownerSetter (hI : Guarded Inv) {x : Context} {role : Role} {f : State → State}
    (hf : ∀ s, LockedStep P s (f s)) : Outside P answers Inv (ownerSetter x role f) :=
  .onlyRole x role (.noReenter hI (keeps_modifyLocked hI hf))

/-- `depositPendingFunds` writes only deposits, caps and approvals before it calls the token. -/
lemma Outside.depositPendingFunds (hI : Guarded Inv) (x : Context) (assetId amount : Word) (owner : Address)
    (proofHash : Word) :
    Outside P answers Inv (depositPendingFunds x assetId amount owner proofHash) := by
  apply whenNotPaused
  apply noReenter hI
  refine .bind (.require _ _) fun _ => .bind (.require _ _) fun _ => .bind ?_ fun _ =>
    .bind ?_ fun _ => .bind ?_ fun _ => ?_
  · intro s hs
    simp only [increasePendingDepositBalance, Prog.wp_bind, Prog.wp_require, Prog.wp_get,
      Prog.wp_ofExcept, Prog.wp_modify]
    rintro - s' hs'
    have hstep : LockedStep P s s' := by
      unfold increasePending at hs'
      simp only [bind, Except.bind, pure, Except.pure] at hs'
      split at hs'
      · cases hs'
      · split at hs'
        · cases hs'
        · cases hs'
          exact .of_eq rfl rfl rfl rfl rfl rfl rfl
    exact (hstep.allows hI : (lockedDiscipline P answers Inv).Allows _ _) hs
  · exact .ite (keeps_locked (keeps_approveProof hI x proofHash)) (.pure ())
  · exact keeps_modifyLocked hI fun s => .of_eq rfl rfl rfl rfl rfl rfl (produced_emit s rfl)
  · refine .ite ?_ (.pure ())
    exact .bind .get fun _ => .bind (.ofExcept _) fun _ => .bind (.request fun _ h => h) fun _ =>
      .bind (.require _ _) fun _ => .bind (.require _ _) fun _ => .bind (.require _ _) fun _ =>
      .safeTransferFrom _ _ _ _

/-- `processAsyncDefiInteraction`, called from outside. -/
lemma Outside.processAsync (hI : Guarded Inv) (x : Context) (n : Word) :
    Outside P answers Inv (V2.processAsyncDefiInteraction P x n) := by
  apply whenNotPaused
  intro s hs hr
  simp only [noReenterButAsync, Prog.wp_bind, Prog.wp_get, Prog.wp_ite]
  refine ⟨fun h => ?_, fun _ => ?_⟩
  · rw [hs.unlocked] at h
    exact absurd h (by decide)
  · exact Outside.withLock hI (by decide) (keeps_locked (keeps_finaliseBody hI x n)) s hs hr

/-- Every entry point other than `processRollup`, called from outside. -/
theorem V2.run_outside (hI : Guarded Inv) (e : Entry) (he : ∀ x c, e ≠ .processRollup x c) :
    Outside P answers Inv (V2.run P e) := by
  have hzero : (0 : Word).toNat < 2 ^ 8 := by decide
  have hone : (1 : Word).toNat < 2 ^ 8 := by decide
  cases e with
  | processRollup x c => exact absurd rfl (he x c)
  | processAsyncDefiInteraction x n =>
    intro s hs hr
    exact Prog.wp_map.mpr (Outside.processAsync hI x n s hs hr)
  | receiveEthFromBridge x n =>
    exact .noReturnValue (.modify fun _ => .of_eq rfl rfl rfl rfl rfl rfl rfl)
  | approveProof x h =>
    exact .noReturnValue (.whenNotPaused (.modify fun _ =>
      .of_eq rfl rfl rfl rfl rfl rfl rfl))
  | depositPendingFunds x a v o h => exact .noReturnValue (.depositPendingFunds hI x a v o h)
  | offchainData x i c n =>
    exact .noReturnValue (.whenNotPaused (.modify fun s =>
      .of_eq rfl rfl rfl rfl rfl rfl (produced_emit s rfl)))
  | pause x =>
    refine .noReturnValue (.whenNotPaused (.onlyRole x _ (.noReenter hI (keeps_modifyLocked hI fun s => ?_))))
    exact LockedStep.setRollupState s (e := .Paused x.sender) hone (by decide) rfl
  | unpause x =>
    refine .noReturnValue (.whenPaused (.onlyRole x _ (.noReenter hI (keeps_modifyLocked hI fun s => ?_))))
    exact .setRollupState s hzero (by decide) rfl
  | setCapped x b =>
    refine .noReturnValue (.ownerSetter hI fun s => ?_)
    split
    · exact .refl s
    · cases b with
      | false => exact .setRollupState s hzero (by decide) rfl
      | true =>
        have htime : LockedStep P s { s with lastRollupTimeStamp := x.timestamp.setWidth 32 } :=
          .of_eq rfl rfl rfl rfl rfl rfl rfl
        exact htime.trans (.setRollupState _ hone (by decide) rfl)
  | setRollupProvider x a b =>
    exact .noReturnValue (.ownerSetter hI fun s =>
      .of_eq rfl rfl rfl rfl rfl rfl (produced_emit s rfl))
  | setAssetCap x i pc dc p =>
    exact .noReturnValue (.onlyRole x _ (.noReenter hI (.bind (.ofExcept _) fun _ =>
      .bind (.ofExcept _) fun _ => .bind (.ofExcept _) fun _ => keeps_modifyLocked hI fun s =>
      .of_eq rfl rfl rfl rfl rfl rfl (produced_emit s rfl))))
  | setDelayBeforeEscapeHatch x d =>
    exact .noReturnValue (.ownerSetter hI fun s =>
      .of_eq rfl rfl rfl rfl rfl rfl (produced_emit s rfl))
  | setVerifier x a =>
    refine .noReturnValue (.onlyRole x _ (.noReenter hI (.bind (.require _ _) fun _ =>
      keeps_modifyLocked hI fun s => .setRollupState s ?_ (by decide) rfl)))
    rw [BitVec.toNat_setWidth]
    exact lt_of_le_of_lt (Nat.mod_le _ _) a.isLt
  | setAllowThirdPartyContracts x b =>
    exact .noReturnValue (.ownerSetter hI fun s =>
      .of_eq rfl rfl rfl rfl rfl rfl (produced_emit s rfl))
  | setDefiBridgeProxy x a =>
    exact .noReturnValue (.onlyRole x _ (.noReenter hI (.bind (.require _ _) fun _ =>
      keeps_modifyLocked hI fun s => .of_eq rfl rfl rfl rfl rfl rfl (produced_emit s rfl))))
  | setSupportedAsset x a g =>
    exact .noReturnValue (.whenNotPaused (.checkThirdPartyContractStatus x (.noReenter hI
      (.bind (.require _ _) fun _ => .bind (.require _ _) fun _ => keeps_modifyLocked hI fun s =>
      .of_eq rfl rfl rfl rfl rfl rfl (produced_emit s rfl)))))
  | setSupportedBridge x a g =>
    exact .noReturnValue (.whenNotPaused (.checkThirdPartyContractStatus x (.noReenter hI
      (.bind (.require _ _) fun _ => .bind (.require _ _) fun _ => keeps_modifyLocked hI fun s =>
      .of_eq rfl rfl rfl rfl rfl rfl (produced_emit s rfl)))))

end AztecConnect.Contract
