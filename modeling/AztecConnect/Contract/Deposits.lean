import Mathlib.Algebra.Order.BigOperators.Group.List
import Mathlib.Algebra.Order.Group.Nat
import AztecConnect.Contract.Phases

/-!
# Deposits and withdrawals of a rollup

`processDepositsAndWithdrawals` visits the first `numTxs` slots; the public inputs hash covers whole
inner rollups. `Performed` says what it means that the deposits and withdrawals of a list of
transactions were performed by a call, and `RollupPhases.performed` that an accepted rollup performs
those of the first `numTxs` slots: nothing else in the call, called contracts included, touches the
pending deposits. `committed_performed_iff` compares this with the slots that the hash covers.
-/

namespace AztecConnect.Contract

open Resumption Bits

variable {P : Params} {answers : ExternalCall → State → Reply → Prop} {α : Type}

/-! ## What other contracts can do to deposits -/

/-- The lock and the assets are the same, and no approval is taken back. -/
structure SameAssets (s s' : State) : Prop where
  lock : s'.lock = s.lock
  assets : s'.supportedAssets = s.supportedAssets
  assetGas : s'.assetGasLimits = s.assetGasLimits
  approvals : ∀ owner digest, s.depositProofApprovals owner digest = true →
    s'.depositProofApprovals owner digest = true

/-- The pending deposits are the same, too. -/
structure SameDeposits (s s' : State) : Prop extends SameAssets s s' where
  deposits : s'.userPendingDeposits = s.userPendingDeposits

/-- A state has its own assets. -/
lemma SameAssets.refl (s : State) : SameAssets s s := ⟨rfl, rfl, rfl, fun _ _ h => h⟩

/-- Assets that stay twice stay. -/
lemma SameAssets.trans {s s' s'' : State} (h : SameAssets s s') (h' : SameAssets s' s'') :
    SameAssets s s'' :=
  ⟨h'.lock.trans h.lock, h'.assets.trans h.assets, h'.assetGas.trans h.assetGas,
    fun o d hd => h'.approvals o d (h.approvals o d hd)⟩

/-- A state has its own deposits. -/
lemma SameDeposits.refl (s : State) : SameDeposits s s := ⟨.refl s, rfl⟩

/-- Deposits that stay twice stay. -/
lemma SameDeposits.trans {s s' s'' : State} (h : SameDeposits s s') (h' : SameDeposits s' s'') :
    SameDeposits s s'' :=
  ⟨h.toSameAssets.trans h'.toSameAssets, h'.deposits.trans h.deposits⟩

/-- The lock is held. -/
def Locked (s : State) : Prop := s.lock ≠ Lock.UNLOCKED.toWord

/-- Programs that leave the pending deposits alone, started with the lock held. -/
def depositDiscipline (P : Params) (answers : ExternalCall → State → Reply → Prop) :
    ContractDiscipline where
  Inv := Locked
  Guar _ := Locked
  env := (V2.world P answers).rely Locked SameDeposits
  Rel := SameDeposits
  refl := .refl
  trans := .trans
  sound _ h := h.2.2

/-- What keeps the deposits is allowed. -/
lemma SameDeposits.allows {s s' : State} (h : SameDeposits s s') :
    (depositDiscipline P answers).Allows s s' := fun hs => ⟨fun hl => hs (h.lock.symm.trans hl), h⟩

instance : Transfers (depositDiscipline P answers) := ⟨fun _ _ h => h⟩

instance : Pays (depositDiscipline P answers) :=
  ⟨fun _ _ => SameDeposits.allows ⟨⟨rfl, rfl, rfl, fun _ _ h => h⟩, rfl⟩⟩

section Entries

/-- Updates of fields that deposits do not depend on. -/
lemma SameDeposits.of_eq {s s' : State} (hl : s'.lock = s.lock)
    (ha : s'.supportedAssets = s.supportedAssets) (hg : s'.assetGasLimits = s.assetGasLimits)
    (hp : s'.depositProofApprovals = s.depositProofApprovals)
    (hd : s'.userPendingDeposits = s.userPendingDeposits) : SameDeposits s s' :=
  ⟨⟨hl, ha, hg, fun _ _ h => by rw [hp]; exact h⟩, hd⟩

/-- A write that keeps them is allowed. -/
lemma deposits_modify {f : State → State} (hf : ∀ s, SameDeposits s (f s)) :
    (depositDiscipline P answers).Keeps (Prog.modify f : Program Unit) :=
  .modify fun s => (hf s).allows

/-- A program under the lock keeps them. -/
lemma deposits_withLock (l : Lock) (m : Program α) :
    (depositDiscipline P answers).Keeps (withLock l m) := by
  intro s hs
  simp only [withLock, Prog.wp_bind, Prog.wp_get, Prog.wp_require]
  exact fun h => absurd h hs

/-- So does pushing a hash. -/
lemma deposits_pushAsyncHash (h : Word) :
    (depositDiscipline P answers).Keeps (V2.pushAsyncHash h) := by
  intro s hs
  rw [wp_pushAsyncHash]
  intro hroom
  have ha : s.asyncArrayLen.toNat < 2 ^ 10 := field_toNat_lt _ _ _
  have hd : s.defiArrayLen.toNat < 2 ^ 10 := field_toNat_lt _ _ _
  have hlt : (s.asyncArrayLen + 1).toNat < 2 ^ ARRAY_LENGTH_BITS := by
    rw [ARRAY_LENGTH_BITS]
    bv_omega
  exact SameDeposits.allows
    (.of_eq (State.lock_setRollupState hlt (by decide)) rfl rfl rfl rfl) hs

/-- So does finalising an interaction. -/
lemma deposits_processAsync (x : Context) (n : Word) :
    (depositDiscipline P answers).Keeps (V2.processAsyncDefiInteraction P x n) := by
  refine .whenNotPaused (.bind .get fun _ => .ite ?_ (deposits_withLock _ _))
  refine .bind .get fun _ => .bind (.ofExcept _) fun f => ?_
  refine .bind (deposits_modify fun s => .of_eq rfl rfl rfl rfl rfl) fun _ =>
    .bind (.request fun _ h => h) fun r => .bind (.ofExcept _) fun out => .ite ?_ ?_
  · exact .bind (.require _ _) fun _ => .bind (.transferResult _ _ _ _ _ _ _) fun _ =>
      .bind (deposits_pushAsyncHash _) fun _ =>
      .bind (deposits_modify fun s => .of_eq rfl rfl rfl rfl rfl) fun _ => .pure _
  · exact .bind (deposits_modify fun s => .of_eq rfl rfl rfl rfl rfl) fun _ => .pure _

/-- So does approving a proof. -/
lemma deposits_approveProof (x : Context) (h : Word) :
    (depositDiscipline P answers).Keeps (approveProof x h) := by
  refine .whenNotPaused (deposits_modify fun s => ⟨⟨rfl, rfl, rfl, fun o d hd => ?_⟩, rfl⟩)
  by_cases ho : o = x.sender
  · subst ho
    by_cases hh : d = h
    · simp [hh]
    · simpa [hh] using hd
  · simpa [ho] using hd

/-- So do all entries that a locked contract accepts. -/
lemma confinesEntries_deposits : ConfinesEntries P (depositDiscipline P answers) where
  locked hs := hs
  processAsync := deposits_processAsync
  approveProof := deposits_approveProof
  ethPayments _ _ := SameDeposits.allows (.of_eq rfl rfl rfl rfl rfl)
  emit _ _ _ := SameDeposits.allows (.of_eq rfl rfl rfl rfl rfl)

/-- Whatever called contracts do while the lock is held leaves the pending deposits alone. -/
lemma V2.env_sameDeposits (n : Nat) {c : ExternalCall} {s s' : State} {r : Reply} (hs : Locked s)
    (h : (V2.world P answers).env n c s r s') :
    (V2.world P answers).rely Locked SameDeposits c s r s' :=
  World.env_rely SameDeposits.refl (fun _ _ _ => SameDeposits.trans)
    (fun e s hs => confinesEntries_deposits.run e s hs) n hs h

end Entries

/-! ## The deposit phase -/

/-- A deposit, as `processDepositsAndWithdrawals` recognises it. -/
def InnerTx.IsDeposit (t : InnerTx) : Prop := 0 < t.publicValue ∧ t.proofId = 1

/-- A withdrawal, as `processDepositsAndWithdrawals` recognises it. -/
def InnerTx.IsWithdrawal (t : InnerTx) : Prop := 0 < t.publicValue ∧ t.proofId = 2

instance (t : InnerTx) : Decidable t.IsDeposit := inferInstanceAs (Decidable (_ ∧ _))

instance (t : InnerTx) : Decidable t.IsWithdrawal := inferInstanceAs (Decidable (_ ∧ _))

/-- What a transaction takes from the pending deposit of an owner. -/
def InnerTx.deposited (assetId : Word) (owner : Address) (t : InnerTx) : Nat :=
  if t.IsDeposit ∧ t.assetId = assetId ∧ t.owner = owner then t.publicValue.toNat else 0

/-- The call that pays out a withdrawal. -/
def Withdraws (s : State) (t : InnerTx) (c : ExternalCall) : Prop :=
  if t.assetId = 0 then c = .sendEth 30000 t.owner t.publicValue
  else ∃ token, getSupportedAsset s t.assetId = .ok token ∧
    c = .transfer token t.owner t.publicValue (s.assetGasLimits t.assetId)

/-- From `s` to `s'`, exactly the deposits and withdrawals of `ts` were performed, the latter by
the calls `calls` in this order. -/
structure Performed (P : Params) (signatures : List Byte) (s s' : State)
    (calls : List ExternalCall) (ts : List InnerTx) : Prop where
  deposits : ∀ assetId owner, (s.userPendingDeposits assetId owner).toNat =
    (s'.userPendingDeposits assetId owner).toNat + (ts.map (·.deposited assetId owner)).sum
  approved : ∀ t ∈ ts, t.IsDeposit →
    s'.depositProofApprovals t.owner (P.keccak256 t.words) = true ∨
    ∃ sigIndex, P.validSignature (P.keccak256 t.words) t.owner signatures sigIndex = true
  withdrawals : List.Forall₂ (Withdraws s) (ts.filter (·.IsWithdrawal)) calls

section DepositPhase

variable {E : Env State ExternalCall Reply} {s s' : State} {tr : Trace} {signatures : List Byte}

/-- The address of an asset stays. -/
lemma SameAssets.getSupportedAsset_eq (h : SameAssets s s') (a : Word) :
    getSupportedAsset s' a = getSupportedAsset s a := by
  simp only [getSupportedAsset, h.assets]

/-- So does the call by which it is withdrawn. -/
lemma SameAssets.withdraws (h : SameAssets s s') {t : InnerTx} {c : ExternalCall}
    (hw : Withdraws s' t c) : Withdraws s t c := by
  simpa only [Withdraws, h.getSupportedAsset_eq, h.assetGas] using hw

/-- The store of `decreasePendingDepositBalance`, which is kept only if the balance suffices. -/
lemma decrease_completes {a : Word} {o : Address} {v : Word}
    (h : Completes E (V2.decreasePendingDepositBalance a o v s) tr s' ()) :
    tr = [] ∧ SameAssets s s' ∧ ∀ assetId owner, (s.userPendingDeposits assetId owner).toNat =
      (s'.userPendingDeposits assetId owner).toNat +
        if a = assetId ∧ o = owner then v.toNat else 0 := by
  obtain ⟨-, h₁⟩ := Completes.require_bind h
  obtain ⟨hle, rfl, rfl⟩ := h₁.get_bind.modify_bind.require_inv
  refine ⟨rfl, ⟨rfl, rfl, rfl, fun _ _ h => h⟩, ?_⟩
  intro assetId owner
  by_cases ha : assetId = a
  · subst ha
    by_cases ho : owner = o
    · subst ho
      simp only [Function.update_self, and_self, if_true]
      bv_omega
    · simp [ho, Ne.symm ho]
  · simp [ha, Ne.symm ha]

/-- The approval check makes no calls and writes nothing. -/
lemma checkDepositApproval_completes {owner : Address} {digest : Word} {i j : Nat}
    (h : Completes E (checkDepositApproval P signatures i owner digest s) tr s' j) :
    tr = [] ∧ s' = s ∧ (s.depositProofApprovals owner digest = true ∨
      P.validSignature digest owner signatures i = true) := by
  have h₁ := Completes.get_bind h
  by_cases hap : s.depositProofApprovals owner digest = true
  · simp only [hap, if_true] at h₁
    obtain ⟨rfl, rfl, -⟩ := h₁.done_inv
    exact ⟨rfl, rfl, .inl hap⟩
  · simp only [hap] at h₁
    obtain ⟨hsig, h₂⟩ := Completes.require_bind h₁
    obtain ⟨rfl, rfl, -⟩ := h₂.done_inv
    exact ⟨rfl, rfl, .inr hsig⟩

/-- A withdrawal makes one call; the state it leaves is the one the receiver left. -/
lemma withdraw_completes {v : Word} {receiver : Address} {a : Word}
    (h : Completes E (withdraw v receiver a s) tr s' ()) :
    ∃ c r, tr = [⟨c, s, r, s'⟩] ∧ E c s r s' ∧
      if a = 0 then c = .sendEth 30000 receiver v
      else ∃ token, getSupportedAsset s a = .ok token ∧
        c = .transfer token receiver v (s.assetGasLimits a) := by
  obtain ⟨-, h₁⟩ := Completes.require_bind h
  by_cases ha : a = 0
  · simp only [ha, if_true] at h₁ ⊢
    obtain ⟨r, s₁, tr', rfl, hE, h₂⟩ := Completes.request_bind h₁
    obtain ⟨rfl, rfl, -⟩ := h₂.done_inv
    exact ⟨_, r, rfl, hE, rfl⟩
  · simp only [ha, if_false] at h₁ ⊢
    obtain ⟨token, htoken, h₂⟩ := (Completes.get_bind h₁).ofExcept_bind
    obtain ⟨r, s₁, tr', rfl, hE, h₃⟩ := Completes.request_bind h₂
    obtain ⟨rfl, rfl, -⟩ := h₃.done_inv
    exact ⟨_, r, rfl, hE, token, htoken, rfl⟩

/-- Nothing performed. -/
lemma Performed.nil (h : SameDeposits s s') : Performed P signatures s s' [] [] :=
  ⟨by simp [h.deposits], by simp, .nil⟩

/-- A transaction that is neither a deposit nor a withdrawal. -/
lemma Performed.skip {t : InnerTx} (hd : ¬ t.IsDeposit) (hw : ¬ t.IsWithdrawal) :
    Performed P signatures s s [] [t] :=
  ⟨by simp [InnerTx.deposited, hd], by simp [hd], by simp [hw]⟩

/-- Performing two lists one after the other. -/
lemma Performed.append {s₁ : State} {calls calls' : List ExternalCall} {ts ts' : List InnerTx}
    (h : Performed P signatures s s₁ calls ts) (h' : Performed P signatures s₁ s' calls' ts')
    (hs : SameAssets s s₁) (hs' : SameAssets s₁ s') :
    Performed P signatures s s' (calls ++ calls') (ts ++ ts') where
  deposits a o := by
    rw [h.deposits a o, h'.deposits a o, List.map_append, List.sum_append]
    omega
  approved t ht hd := by
    rcases List.mem_append.mp ht with ht | ht
    · exact (h.approved t ht hd).imp_left (hs'.approvals _ _)
    · exact h'.approved t ht hd
  withdrawals := by
    rw [List.filter_append]
    exact List.rel_append h.withdrawals (h'.withdrawals.imp fun _ _ hw => hs.withdraws hw)

/-- The calls of the deposit phase leave the deposits alone. -/
def KeepsDeposits (E : Env State ExternalCall Reply) : Prop :=
  ∀ c s r s', Locked s → E c s r s' → SameDeposits s s'

/-- One transaction of the deposit phase. -/
lemma processTx_completes (hE : KeepsDeposits E) {t : InnerTx} {i j : Nat} (hs : Locked s)
    (h : Completes E (processTx P V2.decreasePendingDepositBalance signatures i t s) tr s' j) :
    SameAssets s s' ∧ Performed P signatures s s' (tr.map Exchange.request) [t] := by
  by_cases hv : 0 < t.publicValue
  · by_cases h₁ : t.proofId = 1
    · -- a deposit: the approval is checked before the balance is decreased
      have hd : t.IsDeposit := ⟨hv, h₁⟩
      have hw : ¬ t.IsWithdrawal := fun hw => absurd (h₁.symm.trans hw.2) (by decide)
      simp only [processTx, hv, h₁, if_true] at h
      obtain ⟨tr₁, tr₂, s₁, j', rfl, hcheck, h₂⟩ := Completes.bind_inv h
      obtain ⟨rfl, rfl, hap⟩ := checkDepositApproval_completes hcheck
      obtain ⟨tr₃, tr₄, s₂, u, rfl, hdec, h₃⟩ := h₂.bind_inv
      obtain ⟨rfl, hsame, hbal⟩ := decrease_completes hdec
      obtain ⟨rfl, rfl, -⟩ := h₃.done_inv
      refine ⟨hsame, ?_, ?_, ?_⟩
      · intro a o
        rw [hbal a o]
        simp [InnerTx.deposited, hd]
      · intro t' ht' _
        rw [List.mem_singleton] at ht'
        subst ht'
        exact hap.elim (fun h => .inl (hsame.approvals _ _ h)) fun h => .inr ⟨i, h⟩
      · simp [hw]
    · by_cases h₂ : t.proofId = 2
      · -- a withdrawal
        have hd : ¬ t.IsDeposit := fun hd => absurd (h₂.symm.trans hd.2) (by decide)
        have hw : t.IsWithdrawal := ⟨hv, h₂⟩
        have hne : ¬ ((2 : Word) = 1) := by decide
        simp only [processTx, hv, h₂, if_true, hne, if_false] at h
        obtain ⟨tr₁, tr₂, s₁, u, rfl, hwd, h₃⟩ := Completes.bind_inv h
        obtain ⟨rfl, rfl, -⟩ := h₃.done_inv
        obtain ⟨c, r, rfl, he, hc⟩ := withdraw_completes hwd
        have hsame := hE _ _ _ _ hs he
        refine ⟨hsame.toSameAssets, ?_, ?_, ?_⟩
        · simp [InnerTx.deposited, hd, hsame.deposits]
        · simp [hd]
        · simpa [hw, Withdraws] using hc
      · simp only [processTx, hv, h₁, h₂, if_true, if_false] at h
        obtain ⟨rfl, rfl, -⟩ := h.done_inv
        exact ⟨.refl s', .skip (fun hd => h₁ hd.2) fun hw => h₂ hw.2⟩
  · simp only [processTx, hv, if_false] at h
    obtain ⟨rfl, rfl, -⟩ := h.done_inv
    exact ⟨.refl s', .skip (fun hd => hv hd.1) fun hw => hv hw.1⟩

/-- The deposit phase performs the transactions it visits. -/
lemma depositsAndWithdrawals_completes (hE : KeepsDeposits E) {ts : List InnerTx} {i : Nat}
    (hs : Locked s)
    (h : Completes E (depositsAndWithdrawals P V2.decreasePendingDepositBalance signatures ts i s)
      tr s' ()) :
    SameAssets s s' ∧ Performed P signatures s s' (tr.map Exchange.request) ts := by
  induction ts generalizing s tr i with
  | nil =>
    obtain ⟨rfl, rfl, -⟩ := h.done_inv
    exact ⟨.refl s', .nil (.refl s')⟩
  | cons t ts ih =>
    obtain ⟨tr₁, tr₂, s₁, j, rfl, h₁, h₂⟩ := Completes.bind_inv h
    obtain ⟨hsame, hperf⟩ := processTx_completes hE hs h₁
    obtain ⟨hsame', hperf'⟩ := ih (fun hl => hs (hsame.lock.symm.trans hl)) h₂
    rw [List.map_append]
    exact ⟨hsame.trans hsame', hperf.append hperf' hsame hsame'⟩

end DepositPhase

/-! ## The whole rollup -/

section Rollup

variable {x : Context} {c : RollupCall} {beneficiary : Address} {p : ProofData} {s s' : State}
  {tr : Trace} {n : Nat}

/-- Writing the masked length of the defi queue leaves the lock alone. -/
lemma deposits_popPending : (depositDiscipline P answers).Keeps (V2.popPendingInteractions p) := by
  intro s hs
  simp only [V2.popPendingInteractions, Prog.wp_bind, Prog.wp_get, Prog.wp_require, Prog.wp_modify,
    Prog.wp_pure]
  intro _
  have hd : s.defiArrayLen.toNat < 2 ^ 10 := field_toNat_lt _ _ _
  refine SameDeposits.allows (.of_eq (State.lock_setRollupState ?_ (by decide)) rfl rfl rfl rfl) hs
  simp only [V2.getDefiHashesLengthsAndNumPendingInteractions, ARRAY_LENGTH_BITS]
  split
  · rename_i h
    simp only [NUMBER_OF_BRIDGE_CALLS] at h ⊢
    bv_omega
  · bv_omega

/-- The loop of the bridge calls keeps the deposits. -/
lemma deposits_bridgeCallLoop (n i : Nat) (nonce length : Word) :
    (depositDiscipline P answers).Keeps
      (V2.bridgeCallLoop P x beneficiary p n i nonce length) := by
  induction n generalizing i nonce length with
  | zero => exact .pure _
  | succ n ih =>
    refine .ite (.pure _) (.bind ?_ fun _ => ih _ _ _)
    refine .bind (.runBridgeCall (fun _ _ h => h) _ _ _ _ _ _) fun r => .ite ?_ ?_
    · exact .bind (deposits_modify fun s => .of_eq rfl rfl rfl rfl rfl) fun _ => .pure _
    · exact .bind (deposits_modify fun s => .of_eq rfl rfl rfl rfl rfl) fun _ => .pure _

/-- So does copying the async hashes. -/
lemma deposits_copyAsyncHashes (length : Word) :
    (depositDiscipline P answers).Keeps (V2.copyAsyncHashes length) := by
  intro s hs
  simp only [V2.copyAsyncHashes, Prog.wp_bind, Prog.wp_get, Prog.wp_require, Prog.wp_modify]
  intro hroom
  have hmask : (mask 256 ARRAY_LENGTH_BITS).toNat = 1023 := by decide
  rw [BitVec.lt_def, hmask] at hroom
  refine SameDeposits.allows (.of_eq ?_ rfl rfl rfl rfl) hs
  refine (State.lock_setRollupState (by decide) (by decide)).trans ?_
  exact State.lock_setRollupState (s := { s with
    defiInteractionHashes := MappedArray.copyFrom s.asyncDefiInteractionHashes length.toNat 0
      s.asyncArrayLen.toNat s.defiInteractionHashes })
    (by simp only [ARRAY_LENGTH_BITS]; omega) (by decide)

/-- So do all bridge calls. -/
lemma deposits_processBridgeCalls :
    (depositDiscipline P answers).Keeps (V2.processBridgeCalls P x p beneficiary) :=
  .bind deposits_popPending fun _ => .bind (.ofExcept _) fun _ =>
    .bind (deposits_bridgeCallLoop _ _ _ _) fun _ => .bind (deposits_copyAsyncHashes _) fun _ =>
    .bind .get fun _ => .bind (deposits_modify fun _ => .of_eq rfl rfl rfl rfl rfl) fun _ =>
    .pure _

/-- A phase that leaves the deposits alone. -/
lemma sameDeposits_completes {m : Program α} {a : α} (hs : Locked s)
    (hm : (depositDiscipline P answers).Keeps m)
    (h : Completes ((V2.world P answers).env n) (m s) tr s' a) : Locked s' ∧ SameDeposits s s' :=
  Res.wp_completes (G := fun _ => Locked) (Q := fun s' _ => Locked s' ∧ SameDeposits s s')
    (fun _ _ _ _ => V2.env_sameDeposits n) h (hm s hs)

/-- An accepted rollup performs the transactions of the first `numTxs` slots. -/
theorem RollupPhases.performed (ph : RollupPhases P ((V2.world P answers).env n) x c s tr s') :
    Performed P ph.signatures s s' (ph.depositTrace.map Exchange.request)
      (ph.proofData.firstSlots ph.numTxs.toNat) := by
  have hE : KeepsDeposits ((V2.world P answers).env n) :=
    fun _ _ _ _ hs he => (V2.env_sameDeposits n hs he).2.2.2
  have hl₀ : Locked (s.setLock .ALLOW_ASYNC_REENTER) := by
    rw [Locked, State.lock_setLock]
    decide
  obtain ⟨hl₁, h₁⟩ := sameDeposits_completes hl₀
    (.checkProvider P x fun _ _ => SameDeposits.allows (.of_eq rfl rfl rfl rfl rfl)) ph.checkProvider
  obtain ⟨hl₂, h₂⟩ := sameDeposits_completes hl₁
    (.verifyProofAndUpdateState P x _ _ _ _ _ fun s h d =>
      SameDeposits.allows (.of_eq (QueueStep.updateRoots (P := P) s h d).2 rfl rfl rfl rfl))
    ph.verify
  obtain ⟨h₃, hperf⟩ := depositsAndWithdrawals_completes hE hl₂ ph.deposits
  have hl₃ : Locked ph.settled := fun hl => hl₂ (h₃.lock.symm.trans hl)
  obtain ⟨hl₄, h₄⟩ := sameDeposits_completes hl₃ deposits_processBridgeCalls ph.bridgeCalls
  obtain ⟨hl₅, h₅⟩ := sameDeposits_completes (s := ph.bridged.emit _) hl₄ (.transferFee _ _) ph.fees
  have hemit : SameDeposits ph.bridged
      (ph.bridged.emit (.RollupProcessed ph.rollupId ph.hashes x.sender)) :=
    .of_eq rfl rfl rfl rfl rfl
  have h₄₅ := h₄.trans (hemit.trans h₅)
  have hall := ((Performed.nil (h₁.trans h₂)).append hperf (h₁.trans h₂).toSameAssets h₃).append
    (.nil h₄₅) ((h₁.trans h₂).toSameAssets.trans h₃) h₄₅.toSameAssets
  simp only [List.nil_append, List.append_nil] at hall
  -- the lock is not part of what is compared
  have hunlock : Performed P ph.signatures s (ph.paid.setLock .UNLOCKED)
      (ph.depositTrace.map Exchange.request) (ph.proofData.firstSlots ph.numTxs.toNat) :=
    ⟨hall.deposits, hall.approved, hall.withdrawals⟩
  rw [← ph.after_eq] at hunlock
  exact hunlock

/-! ## Committed transactions -/

/-- The slots the public inputs hash of the call covers. -/
def RollupPhases.committed {E : Env State ExternalCall Reply} (ph : RollupPhases P E x c s tr s') :
    List InnerTx :=
  ph.proofData.firstSlots (encoding c.calldata ph.start).layout.hashedSlots

/-- A longer list of slots. -/
lemma ProofData.firstSlots_append (p : ProofData) {m k : Nat} (h : m ≤ k) :
    p.firstSlots k = p.firstSlots m ++ (List.range' m (k - m)).map p.slot := by
  have hrange : List.range k = List.range m ++ List.range' m (k - m) := by
    have happend := List.range'_append_1 (s := 0) (m := m) (n := k - m)
    rw [Nat.zero_add, Nat.add_sub_cancel' h] at happend
    rw [List.range_eq_range', List.range_eq_range', happend]
  rw [ProofData.firstSlots, hrange, List.map_append]
  rfl

section Idle

variable {ts ts' : List InnerTx}

/-- Transactions without deposits take nothing. -/
lemma sum_deposited_idle (hidle : ∀ t ∈ ts', ¬ t.IsDeposit) (a : Word) (o : Address) :
    (ts'.map (·.deposited a o)).sum = 0 := by
  rw [List.sum_eq_zero_iff_forall_eq_nat]
  intro v hv
  obtain ⟨t, ht, rfl⟩ := List.mem_map.mp hv
  simp [InnerTx.deposited, hidle t ht]

variable (hidle : ∀ t ∈ ts', ¬ t.IsDeposit ∧ ¬ t.IsWithdrawal)

include hidle

/-- Transactions without withdrawals pay out nothing. -/
lemma withdrawals_idle : ts'.filter (·.IsWithdrawal) = [] := by
  rw [List.filter_eq_nil_iff]
  intro t ht
  simpa using (hidle t ht).2

/-- Transactions without deposits or withdrawals change nothing. -/
lemma Performed.append_idle {signatures : List Byte} {calls : List ExternalCall}
    (h : Performed P signatures s s' calls ts) :
    Performed P signatures s s' calls (ts ++ ts') where
  deposits a o := by
    rw [List.map_append, List.sum_append, sum_deposited_idle fun t ht => (hidle t ht).1, Nat.add_zero]
    exact h.deposits a o
  approved t ht hd := by
    rcases List.mem_append.mp ht with ht | ht
    · exact h.approved t ht hd
    · exact absurd hd (hidle t ht).1
  withdrawals := by
    rw [List.filter_append, withdrawals_idle hidle, List.append_nil]
    exact h.withdrawals

/-- Nor do they count for what was performed. -/
lemma Performed.of_append_idle {signatures : List Byte} {calls : List ExternalCall}
    (h : Performed P signatures s s' calls (ts ++ ts')) :
    Performed P signatures s s' calls ts where
  deposits a o := by
    have hall := h.deposits a o
    rw [List.map_append, List.sum_append, sum_deposited_idle fun t ht => (hidle t ht).1, Nat.add_zero] at hall
    exact hall
  approved t ht hd := h.approved t (List.mem_append_left _ ht) hd
  withdrawals := by
    have hall := h.withdrawals
    rw [List.filter_append, withdrawals_idle hidle, List.append_nil] at hall
    exact hall

end Idle

/-- Transactions that take nothing from anyone are no deposits. -/
lemma no_deposit_of_sum {ts' : List InnerTx}
    (h : ∀ assetId owner, (ts'.map (·.deposited assetId owner)).sum = 0) :
    ∀ t ∈ ts', ¬ t.IsDeposit := by
  intro t ht hd
  have hle : t.deposited t.assetId t.owner ≤ (ts'.map (·.deposited t.assetId t.owner)).sum :=
    List.le_sum_of_mem (List.mem_map_of_mem ht)
  have hpos : 0 < t.deposited t.assetId t.owner := by
    have hv := hd.1
    simp only [InnerTx.deposited, hd, and_self, if_true]
    bv_omega
  have hzero := h t.assetId t.owner
  omega

/-- Of two lists performed by the same call, the longer one adds no deposits and no withdrawals. -/
lemma Performed.idle_of_both {signatures : List Byte} {calls : List ExternalCall}
    {ts ts' : List InnerTx} (h : Performed P signatures s s' calls ts)
    (h' : Performed P signatures s s' calls (ts ++ ts')) :
    ∀ t ∈ ts', ¬ t.IsDeposit ∧ ¬ t.IsWithdrawal := by
  have hsum : ∀ a o, (ts'.map (·.deposited a o)).sum = 0 := by
    intro a o
    have h₁ := h.deposits a o
    have h₂ := h'.deposits a o
    simp only [List.map_append, List.sum_append] at h₂
    omega
  intro t ht
  refine ⟨no_deposit_of_sum hsum t ht, fun hw => ?_⟩
  have h₁ := h.withdrawals.length_eq
  have h₂ := h'.withdrawals.length_eq
  have hpos : 0 < (ts'.filter (·.IsWithdrawal)).length :=
    List.length_pos_of_mem (List.mem_filter.mpr ⟨ht, by simpa using hw⟩)
  simp only [List.filter_append, List.length_append] at h₂
  omega

/-- The slots the call visits behind those that the public inputs hash covers: none, unless the
hash covers fewer than `numTxs` slots. -/
def RollupPhases.uncovered {E : Env State ExternalCall Reply} (ph : RollupPhases P E x c s tr s') :
    List InnerTx :=
  (List.range' (encoding c.calldata ph.start).layout.hashedSlots
    (ph.numTxs.toNat - (encoding c.calldata ph.start).layout.hashedSlots)).map ph.proofData.slot

/-- The call performs each deposit and each withdrawal that the public inputs hash covers exactly
once, and besides these only those of uncovered slots. -/
def RollupPhases.PerformsCommitted {E : Env State ExternalCall Reply}
    (ph : RollupPhases P E x c s tr s') : Prop :=
  Performed P ph.signatures s s' (ph.depositTrace.map Exchange.request)
    (ph.committed ++ ph.uncovered)

/-- The call performs the deposits and withdrawals that the public inputs hash covers, each exactly
once, and no others. -/
def RollupPhases.PerformsOnlyCommitted {E : Env State ExternalCall Reply}
    (ph : RollupPhases P E x c s tr s') : Prop :=
  Performed P ph.signatures s s' (ph.depositTrace.map Exchange.request) ph.committed

/-- No covered slot from `numTxs` on is a deposit or a withdrawal. -/
def RollupPhases.StatesCommitted {E : Env State ExternalCall Reply}
    (ph : RollupPhases P E x c s tr s') : Prop :=
  ∀ i, ph.numTxs.toNat ≤ i → i < (encoding c.calldata ph.start).layout.hashedSlots →
    ¬ (ph.proofData.slot i).IsDeposit ∧ ¬ (ph.proofData.slot i).IsWithdrawal

/-- No uncovered slot is a deposit or a withdrawal. -/
def RollupPhases.UncoveredIdle {E : Env State ExternalCall Reply}
    (ph : RollupPhases P E x c s tr s') : Prop :=
  ∀ t ∈ ph.uncovered, ¬ t.IsDeposit ∧ ¬ t.IsWithdrawal

/-- Covered slots that are not visited must be idle. -/
lemma RollupPhases.performsCommitted_iff
    (ph : RollupPhases P ((V2.world P answers).env n) x c s tr s') :
    ph.PerformsCommitted ↔ ph.StatesCommitted := by
  have hperf := ph.performed
  rcases Nat.le_total ph.numTxs.toNat
    (encoding c.calldata ph.start).layout.hashedSlots with hle | hle
  · -- no slot is uncovered: the covered slots are those visited and the rest
    have hsplit := ph.proofData.firstSlots_append hle
    have hnone : ph.uncovered = [] := by
      rw [RollupPhases.uncovered, Nat.sub_eq_zero_of_le hle]
      rfl
    rw [RollupPhases.PerformsCommitted, hnone, List.append_nil, RollupPhases.committed, hsplit]
    constructor
    · intro hall i hi hlt
      refine hperf.idle_of_both hall _ (List.mem_map_of_mem ?_)
      rw [List.mem_range'_1]
      omega
    · intro hidle
      refine Performed.append_idle ?_ hperf
      intro t ht
      obtain ⟨i, hi, rfl⟩ := List.mem_map.mp ht
      rw [List.mem_range'_1] at hi
      exact hidle i hi.1 (by omega)
  · -- every covered slot is visited
    refine ⟨fun _ i hi hlt => absurd hlt (by omega), fun _ => ?_⟩
    rw [ph.proofData.firstSlots_append hle] at hperf
    exact hperf

/-- Visited slots that are not covered must be idle, too. -/
lemma RollupPhases.performsOnlyCommitted_iff
    (ph : RollupPhases P ((V2.world P answers).env n) x c s tr s') :
    ph.PerformsOnlyCommitted ↔ ph.StatesCommitted ∧ ph.UncoveredIdle := by
  rw [← ph.performsCommitted_iff]
  constructor
  · intro honly
    have hall : ph.PerformsCommitted := by
      rcases Nat.le_total ph.numTxs.toNat
        (encoding c.calldata ph.start).layout.hashedSlots with hle | hle
      · have hnone : ph.uncovered = [] := by
          rw [RollupPhases.uncovered, Nat.sub_eq_zero_of_le hle]
          rfl
        rw [RollupPhases.PerformsCommitted, hnone, List.append_nil]
        exact honly
      · exact ph.performsCommitted_iff.mpr fun i hi hlt => absurd hlt (by omega)
    exact ⟨hall, honly.idle_of_both hall⟩
  · rintro ⟨hall, hidle⟩
    exact Performed.of_append_idle hidle hall

/-- An accepted rollup performs the deposits and withdrawals of all slots that the public inputs
hash covers, each exactly once, if and only if there are none in covered slots from `numTxs` on; it
performs no others if and only if there are none in uncovered slots either. -/
theorem committed_performed_iff
    (h : Completes ((V2.world P answers).env n) (V2.processRollup P x c s) tr s' ()) :
    Nonempty (RollupPhases P ((V2.world P answers).env n) x c s tr s') ∧
    ∀ ph : RollupPhases P ((V2.world P answers).env n) x c s tr s',
      (ph.PerformsCommitted ↔ ph.StatesCommitted) ∧
      (ph.PerformsOnlyCommitted ↔ ph.StatesCommitted ∧ ph.UncoveredIdle) :=
  ⟨V2.processRollup_phases h, fun ph => ⟨ph.performsCommitted_iff, ph.performsOnlyCommitted_iff⟩⟩

end Rollup

/-! ## The same proof with another number of transactions

A rollup of a private transfer and a withdrawal, with the number of transactions that the calldata
states left open: it is not part of what is hashed. -/

namespace TwoTxs

/-- The header of a rollup of two slots. -/
def header : Nat → Word
  | 1 => 2
  | i => Sample.header i

/-- The two counts, a transfer and a withdrawal of 65 wei. -/
def encodedTxs (numTxs : Nat) : List Nat :=
  [numTxs * 2 ^ 224 + 0x13a030000000000000000000000000000000000000000000000,
    0x330000000000000000000000000000000000000000000000,
    0x340000000000000000000000000000000000000000000000,
    0x350000000000000000000000000000000000000000000000,
    0x360200000000000000000000000000000000000000000000,
    0x3d00000000000000000000000000000000000000000000,
    0x3e00000000000000000000000000000000000000000000,
    0x3f00000000000000000000000000000000000000000000,
    0x4000000000000000000000000000000000000000000000,
    0x4100000000000000000000000000000000000000420000]

/-- The rollup of both, with the number of transactions that it states. -/
def call (numTxs : Nat) : RollupCall where
  calldata := .ofWords 5028 fun
    | 0 => 0x40
    | 1 => 0x1380
    | 2 => 4866
    | i + 3 => if i < 142 then (header i).toNat else (encodedTxs numTxs).getD (i - 142) 0
  memoryPast _ := InnerTx.zero

/-- The first transaction. -/
def transfer : InnerTx := ⟨3, 51, 52, 53, 54, 0, 0, 0⟩

/-- The second transaction. -/
def withdrawal : InnerTx := ⟨2, 61, 62, 63, 64, 65, 66, 0⟩

/-- Hash functions with values at these inputs. -/
def params : Params :=
  { Sample.params with
    sha256 := fun ws =>
      if ws = transfer.words ++ withdrawal.words then
        0x4186a231c60b0cc080dc821695e3b4dc947162c6de32090acd06a1413ca822c2
      else if ws = (List.range 142).map header ++
          [0x4186a231c60b0cc080dc821695e3b4dc947162c6de32090acd06a1413ca822c2 %
            BitVec.ofNat 256 CIRCUIT_MODULUS] then
        0xae51d29edf99305d3ce4cb54db6c94c52cf4b5c24c158cd5a32a8c013822f5fb
      else Sample.params.sha256 ws }

/-- The environment in which every call succeeds and calls nothing back. -/
abbrev env : Env State ExternalCall Reply := (V2.world params fun _ _ _ => True).env 0

/-- A call that evaluates to the end was accepted. -/
lemma accepted (numTxs : Nat)
    (h : ((V2.processRollup params Sample.context (call numTxs) Sample.genesis).eval
      Sample.answer).isSome = true) :
    ∃ tr s', Completes env
      (V2.processRollup params Sample.context (call numTxs) Sample.genesis) tr s' () := by
  obtain ⟨⟨tr, s', a⟩, heval⟩ := Option.isSome_iff_exists.mp h
  exact ⟨tr, s', Res.eval_completes (fun _ _ => ⟨trivial, rfl⟩) heval⟩

/-- What a call decodes to: its second slot, the number of transactions, the number of slots that
the public inputs hash covers, and this hash. -/
def decoded (P : Params) (c : RollupCall) : Option (InnerTx × Nat × Nat × Word) := do
  let (start, _) ← c.arguments
  let (p, numTxs, publicInputsHash) ←
    (decodeProof P c.calldata start c.memoryPast).toOption
  return (p.slot 1, numTxs.toNat, (encoding c.calldata start).layout.hashedSlots, publicInputsHash)

/-- The phases of an accepted call work on what the call decodes to. -/
lemma decoded_eq {E : Env State ExternalCall Reply} {x : Context} {c : RollupCall} {s s' : State}
    {tr : Trace} (ph : RollupPhases P E x c s tr s') :
    decoded P c = some (ph.proofData.slot 1, ph.numTxs.toNat,
      (encoding c.calldata ph.start).layout.hashedSlots, ph.publicInputsHash) := by
  rw [decoded, ph.arguments_eq, Option.bind_eq_bind, Option.bind_some]
  dsimp only
  rw [ph.decode_eq, Except.toOption, Option.bind_eq_bind, Option.bind_some]
  dsimp only
  rw [Option.pure_def]

/-- With two transactions both slots are covered and visited; the hash is the same. -/
lemma decoded_two : decoded params (call 2) = some (withdrawal, 2, 2,
    0xae51d29edf99305d3ce4cb54db6c94c52cf4b5c24c158cd5a32a8c013822f5fb %
      BitVec.ofNat 256 CIRCUIT_MODULUS) := by decide +kernel

/-- With one transaction the second slot is covered, but not visited. -/
lemma decoded_one : decoded params (call 1) = some (withdrawal, 1, 2,
    0xae51d29edf99305d3ce4cb54db6c94c52cf4b5c24c158cd5a32a8c013822f5fb %
      BitVec.ofNat 256 CIRCUIT_MODULUS) := by decide +kernel

end TwoTxs

/-- Stating both transactions, the call performs what is committed and nothing else. -/
theorem committed_performed_iff_sample : ∃ tr s',
    ∃ ph : RollupPhases TwoTxs.params TwoTxs.env Sample.context (TwoTxs.call 2) Sample.genesis tr s',
      ph.PerformsCommitted ∧ ph.PerformsOnlyCommitted := by
  obtain ⟨tr, s', h⟩ := TwoTxs.accepted 2 (by decide +kernel)
  obtain ⟨⟨ph⟩, hiff⟩ := committed_performed_iff h
  have hdec := (TwoTxs.decoded_eq ph).symm.trans TwoTxs.decoded_two
  simp only [Option.some.injEq, Prod.mk.injEq] at hdec
  obtain ⟨-, hnum, hslots, -⟩ := hdec
  have hstates : ph.StatesCommitted := by
    intro i hi hlt
    rw [hnum] at hi
    rw [hslots] at hlt
    exact absurd hlt (Nat.not_lt_of_le hi)
  have hnone : ph.UncoveredIdle := by
    intro t ht
    rw [RollupPhases.uncovered, hnum, hslots] at ht
    cases ht
  exact ⟨tr, s', ph, (hiff ph).1.mpr hstates, (hiff ph).2.mpr ⟨hstates, hnone⟩⟩

/-- Stating one, it is accepted as well, with the same public inputs hash, and does not pay out the
withdrawal. -/
theorem withdrawal_skipped : ∃ tr s',
    Completes TwoTxs.env
      (V2.processRollup TwoTxs.params Sample.context (TwoTxs.call 1) Sample.genesis) tr s' () ∧
    ∀ ph : RollupPhases TwoTxs.params TwoTxs.env Sample.context (TwoTxs.call 1) Sample.genesis tr s',
      ¬ ph.PerformsCommitted ∧ ¬ ph.PerformsOnlyCommitted := by
  obtain ⟨tr, s', h⟩ := TwoTxs.accepted 1 (by decide +kernel)
  refine ⟨tr, s', h, ?_⟩
  intro ph
  have hdec := (TwoTxs.decoded_eq ph).symm.trans TwoTxs.decoded_one
  simp only [Option.some.injEq, Prod.mk.injEq] at hdec
  obtain ⟨hslot, hnum, hslots, -⟩ := hdec
  have hskipped : ¬ ph.StatesCommitted := by
    intro hstates
    have hidle := hstates 1 (by rw [hnum]) (by rw [hslots]; decide)
    rw [hslot] at hidle
    exact hidle.2 (by decide)
  exact ⟨fun hall => hskipped (ph.performsCommitted_iff.mp hall),
    fun honly => hskipped (ph.performsOnlyCommitted_iff.mp honly).1⟩

end AztecConnect.Contract
