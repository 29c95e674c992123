import AztecConnect.Contract.Accounting

/-!
# The phases of an accepted rollup

An accepted call of `processRollup` runs through the check of the provider, the verification of the
proof, the deposits and withdrawals, the bridge calls and the fees. `RollupPhases` records the states
in between and which exchanges belong to which phase; every accepted call has them
(`V2.processRollup_phases`).
-/

namespace AztecConnect.Contract

open Resumption Bits

variable {P : Params}

/-- Exchanges with other contracts. -/
abbrev Trace := List (Exchange State ExternalCall Reply)

/-- The phases of a call of `processRollup` that was accepted in state `s`. -/
structure RollupPhases (P : Params) (E : Env State ExternalCall Reply) (x : Context)
    (c : RollupCall) (s : State) (tr : Trace) (s' : State) where
  start : Nat
  length : Nat
  signatures : List Byte
  proofData : ProofData
  numTxs : Word
  publicInputsHash : Word
  beneficiary : Address
  rollupId : Word
  hashes : List Word
  provided : State
  verified : State
  settled : State
  bridged : State
  paid : State
  providerTrace : Trace
  verifyTrace : Trace
  depositTrace : Trace
  bridgeTrace : Trace
  feeTrace : Trace
  arguments_eq : c.arguments = some (start, length, signatures)
  decode_eq : decodeProof P c.calldata start c.memoryPast = .ok (proofData, numTxs, publicInputsHash)
  beneficiary_eq : proofData.extractRollupBeneficiary = .ok beneficiary
  unlocked : s.lock = Lock.UNLOCKED.toWord
  checkProvider : Completes E (checkProvider P x (s.setLock .ALLOW_ASYNC_REENTER)) providerTrace
    provided ()
  verify : Completes E (verifyProofAndUpdateState P x c.calldata start length proofData
    publicInputsHash provided) verifyTrace verified rollupId
  deposits : Completes E (processDepositsAndWithdrawals P V2.decreasePendingDepositBalance proofData
    numTxs signatures verified) depositTrace settled ()
  bridgeCalls : Completes E (V2.processBridgeCalls P x proofData beneficiary settled) bridgeTrace
    bridged hashes
  fees : Completes E (transferFee proofData beneficiary
    (bridged.emit (.RollupProcessed rollupId hashes x.sender))) feeTrace paid ()
  after_eq : s' = paid.setLock .UNLOCKED
  trace_eq : tr = providerTrace ++ verifyTrace ++ depositTrace ++ bridgeTrace ++ feeTrace

variable {E : Env State ExternalCall Reply} {x : Context} {c : RollupCall} {s s' : State} {tr : Trace}

/-- The call data of an accepted rollup decodes. -/
lemma RollupPhases.decodes (h : RollupPhases P E x c s tr s') :
    c.Decodes P h.proofData h.numTxs h.publicInputsHash :=
  ⟨h.start, h.length, h.signatures, h.arguments_eq, h.decode_eq⟩

/-- Taking and releasing the lock around a body. -/
lemma withLock_inv {α : Type} {l : Lock} {m : Program α} {a : α}
    (h : Completes E (withLock l m s) tr s' a) :
    s.lock = Lock.UNLOCKED.toWord ∧ ∃ s₁, Completes E (m (s.setLock l)) tr s₁ a ∧
      s' = s₁.setLock .UNLOCKED := by
  obtain ⟨hlock, h⟩ := h.get_bind.require_bind
  obtain ⟨tr₁, tr₂, s₁, b, rfl, h₁, h₂⟩ := h.modify_bind.bind_inv
  obtain ⟨rfl, rfl, rfl⟩ := h₂.modify_bind.done_inv
  exact ⟨hlock, s₁, by simpa using h₁, rfl⟩

/-- Every accepted rollup has its phases. -/
theorem V2.processRollup_phases (h : Completes E (V2.processRollup P x c s) tr s' ()) :
    Nonempty (RollupPhases P E x c s tr s') := by
  obtain ⟨⟨start, length, signatures⟩, hargs, h⟩ := Completes.ofOption_bind h
  obtain ⟨-, h⟩ := h.get_bind.require_bind
  obtain ⟨hlock, paid, hbody, hafter⟩ := withLock_inv h
  obtain ⟨trP, tr₁, provided, _, htr, hP, h₁⟩ := Completes.bind_inv hbody
  obtain ⟨⟨p, numTxs, publicInputsHash⟩, hdec, h₂⟩ := h₁.ofExcept_bind
  obtain ⟨beneficiary, hben, h₃⟩ := h₂.ofExcept_bind
  obtain ⟨tr₂, trF, s₁, _, rfl, hproof, hF⟩ := h₃.bind_inv
  obtain ⟨trV, tr₃, verified, rollupId, rfl, hV, h₄⟩ := Completes.bind_inv hproof
  obtain ⟨trW, tr₄, settled, _, rfl, hW, h₅⟩ := h₄.bind_inv
  obtain ⟨trB, tr₅, bridged, hashes, rfl, hB, h₆⟩ := h₅.bind_inv
  obtain ⟨rfl, rfl, -⟩ := h₆.done_inv
  exact ⟨
    { start, length, signatures, proofData := p, numTxs, publicInputsHash, beneficiary, rollupId,
      hashes, provided, verified, settled, bridged, paid
      providerTrace := trP
      verifyTrace := trV
      depositTrace := trW
      bridgeTrace := trB
      feeTrace := trF
      arguments_eq := hargs
      decode_eq := hdec
      beneficiary_eq := hben
      unlocked := hlock
      checkProvider := hP
      verify := hV
      deposits := hW
      bridgeCalls := hB
      fees := hF
      after_eq := hafter
      trace_eq := by simp [htr] }⟩

/-! ## What happens around the bridge calls -/

section Around

variable {answers : ExternalCall → State → Reply → Prop} {n : Nat}

/-- The storage in which the bridge calls start. -/
lemma RollupPhases.before (ph : RollupPhases P ((V2.world P answers).env n) x c s tr s')
    (hs : Quiet s) : Busy ph.settled ∧ QueueStep P s ph.settled := by
  have hI : Guarded Busy := .ofBusy
  have hprovider := V2.wp_completes hI ph.checkProvider (Discipline.Keeps.checkProvider
    (D := lockedDiscipline P answers Busy) P x
    (fun s _ => LockedStep.allows hI (.of_eq rfl rfl rfl rfl rfl rfl rfl)) _
    (hs.setLock (by decide)))
  obtain ⟨hb₁ : Busy ph.provided, h₁ : LockedStep P _ ph.provided⟩ := hprovider
  have hverify := V2.wp_completes hI ph.verify (wp_verifyProofAndUpdateState
    (Q := fun t _ => Busy t ∧ QueueStep P ph.provided t) hb₁ fun t hb hq _ _ _ => ⟨hb, hq⟩)
  obtain ⟨hb₂, h₂⟩ := hverify
  have hdeposits := V2.wp_completes hI ph.deposits (Discipline.Keeps.depositsAndWithdrawals
    (D := lockedDiscipline P answers Busy) P
    (fun _ _ _ => .decreasePendingDepositBalance _ _ _ fun s _ =>
      LockedStep.allows hI (.of_eq rfl rfl rfl rfl rfl rfl rfl)) _ _ _ _ hb₂)
  obtain ⟨hb₃ : Busy ph.settled, h₃ : LockedStep P _ ph.settled⟩ := hdeposits
  exact ⟨hb₃, (QueueStep.setLock s _).trans (h₁.toQueueStep.trans (h₂.trans h₃.toQueueStep))⟩

/-- The state after the bridge calls is still locked. -/
lemma RollupPhases.busy_bridged (ph : RollupPhases P ((V2.world P answers).env n) x c s tr s')
    (hs : Quiet s) : Busy ph.bridged := by
  obtain ⟨hb, -⟩ := ph.before hs
  exact V2.wp_completes Guarded.ofBusy ph.bridgeCalls (V2.wp_processBridgeCalls
    (I := fun _ _ _ => True) (Q := fun t _ => Busy t) hb ⟨fun h _ _ => h, fun _ h _ _ => h,
      fun _ _ _ h _ _ => h⟩ (fun _ _ => trivial)
    fun i len t _ _ _ ht hroom => Busy.joinQueues ht.bounded hroom ht.locked)

/-- After the bridge calls the queues change as in a call from outside. -/
lemma RollupPhases.after (ph : RollupPhases P ((V2.world P answers).env n) x c s tr s')
    (hb : Busy ph.bridged) : Quiet s' ∧ QuietStep P ph.bridged s' := by
  have hemit : LockedStep P ph.bridged
      (ph.bridged.emit (.RollupProcessed ph.rollupId ph.hashes x.sender)) :=
    .of_eq rfl rfl rfl rfl rfl rfl (produced_emit ph.bridged rfl)
  have hfees := V2.wp_completes Guarded.ofBusy ph.fees (Discipline.Keeps.transferFee
    (D := relyDiscipline P answers Busy) _ _ _ (hemit.busy hb))
  obtain ⟨hb₂ : Busy ph.paid, h₂ : Rely P _ ph.paid⟩ := hfees
  have hquiet := hb₂.unlock
  have hstep := (hemit.toQueueStep.trans h₂.toQueueStep).trans
    (QueueStep.setLock (P := P) ph.paid .UNLOCKED)
  have hhash : (ph.paid.setLock .UNLOCKED).rollupStateHash = ph.bridged.rollupStateHash :=
    h₂.stateHash
  rw [← ph.after_eq] at hquiet hstep hhash
  exact ⟨hquiet, hstep, hhash⟩

/-- The states that other contracts leave during a rollup. -/
lemma V2.processRollup_after_busy {a : Unit} (hs : Quiet s)
    (h : Completes ((V2.world P answers).env n) (V2.processRollup P x c s) tr s' a) :
    ∀ y ∈ tr, Busy y.after := by
  intro y hy
  have hx := Res.wp_exchanges (G := fun _ => Busy)
    (fun _ _ _ _ => V2.env_rely Guarded.ofBusy n) h (V2.processRollup_popsPending hs) y hy
  exact hx.2.2.2.1

end Around

end AztecConnect.Contract
