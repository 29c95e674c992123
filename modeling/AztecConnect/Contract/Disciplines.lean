import AztecConnect.Contract.Interference

/-!
# Disciplines of all entry points

What a discipline has to allow for every entry point to keep to it, whether or not the lock is held:
updates of neither the published interactions nor the approvals (`hidden`), and the three functions
that write these, `approveProof`, the recording of a bridge call's result and `finalise`
(`FollowsEntries`). The result of a bridge call that is recorded is `Settled`: the bridge proxy and
`processBridgeCalls` have checked it (`runBridgeCall_settled`).
-/

namespace AztecConnect.Contract

open Resumption Bits

variable {P : Params} {answers : ExternalCall → State → Reply → Prop} {α : Type}

/-! ## The result of a bridge call -/

/-- Outputs that the notes of the circuits can hold, the second one zero if it is not in use. -/
structure Representable (encodedBridgeCallData outputValueA outputValueB : Word) : Prop where
  outputA : outputValueA.toNat < 2 ^ 252
  outputB : outputValueB.toNat < 2 ^ 252
  unused : secondOutputInUse encodedBridgeCallData = false → outputValueB = 0

/-- What holds of every result that `processBridgeCalls` records for a bridge call. -/
structure BridgeResult.Settled (encodedBridgeCallData : Word) (r : BridgeResult) : Prop where
  consistent : Consistent encodedBridgeCallData
  outputs : Representable encodedBridgeCallData r.outputValueA r.outputValueB

/-- Values that pass the checks of the bridge proxy. -/
def InRange (out : Word × Word × Bool) : Prop := out.1.toNat < 2 ^ 252 ∧ out.2.1.toNat < 2 ^ 252

/-- Outputs that are settled are in range. -/
lemma settle_inRange (x : Context) (bridge : Address) (a : BridgeAssets) (nonce outA outB : Word)
    (isAsync : Bool) : (DefiBridgeProxy.settle x bridge a nonce outA outB isAsync).Returns
      fun _ => InRange (outA, outB, isAsync) := by
  intro s
  simp only [DefiBridgeProxy.settle, Prog.wp_ite, Prog.wp_require, Prog.wp_bind]
  refine ⟨fun _ hzero => ?_, fun _ hA hB => ?_⟩
  · -- an asynchronous interaction has no outputs yet
    rw [not_or, BitVec.not_lt, BitVec.not_lt] at hzero
    have hA : outA.toNat = 0 := Nat.le_zero.mp hzero.1
    have hB : outB.toNat = 0 := Nat.le_zero.mp hzero.2
    exact ⟨hA.trans_lt (by decide), hB.trans_lt (by decide)⟩
  · have hrange : InRange (outA, outB, isAsync) := ⟨hA, hB⟩
    exact Res.wp_mono (fun s' _ _ => Res.wp_mono (fun _ _ _ => hrange) (Res.wp_trivial _))
      (Res.wp_trivial _)

/-- So are those of a conversion. -/
lemma convert_inRange (x : Context) (bridge : Address) (a : BridgeAssets)
    (totalInputValue nonce aux : Word) (beneficiary : Address) :
    (DefiBridgeProxy.convert x bridge a totalInputValue nonce aux beneficiary).Returns InRange := by
  refine .after fun _ => .after fun _ => .after fun r => .after fun out => ?_
  exact .bind (settle_inRange _ _ _ _ _ _ _) fun _ h => .pure h

/-- A bridge call, up to its result. -/
lemma runBridgeCall_settled
    (getAssets : State → FullBridgeCallData → Word → Except RevertReason BridgeAssets)
    (x : Context) (beneficiary : Address) (e totalInputValue nonce : Word) :
    (runBridgeCall getAssets x beneficiary e totalInputValue nonce).Returns
      (BridgeResult.Settled e) := by
  refine .after fun _ => .after fun s => .bind (.ofExcept fun _ h => h) fun d hd => ?_
  refine .after fun assets => .after fun _ => .bind (.attempt (convert_inRange _ _ _ _ _ _ _)) ?_
  intro outcome houtcome
  refine .pure ?_
  obtain ⟨hc, bridge, -, rfl⟩ := getFullBridgeCallData_ok_iff.mp hd
  have hrange : (BridgeResult.ofDelegatecall outcome).outputValueA.toNat < 2 ^ 252 ∧
      (BridgeResult.ofDelegatecall outcome).outputValueB.toNat < 2 ^ 252 := by
    cases outcome with
    | ok out => exact houtcome out rfl
    | error r => exact ⟨Nat.two_pow_pos 252, Nat.two_pow_pos 252⟩
  have hdrop (r : BridgeResult) : (r.dropUnusedOutput (secondOutputInUse e)).outputValueA =
      r.outputValueA := by
    rw [BridgeResult.dropUnusedOutput]
    split <;> rfl
  refine ⟨hc, ?_, ?_, fun hu => ?_⟩
  · exact (congrArg BitVec.toNat (hdrop _)).trans_lt hrange.1
  · show ((BridgeResult.ofDelegatecall outcome).dropUnusedOutput
      (secondOutputInUse e)).outputValueB.toNat < _
    rw [BridgeResult.dropUnusedOutput]
    split
    · exact hrange.2
    · exact Nat.two_pow_pos 252
  · show ((BridgeResult.ofDelegatecall outcome).dropUnusedOutput
      (secondOutputInUse e)).outputValueB = 0
    simp [BridgeResult.dropUnusedOutput, hu]

/-! ## Disciplines -/

/-- The call approves the transaction `digest` in the name of `owner`. -/
def Entry.Approves (owner : Address) (digest : Word) : Entry → Prop
  | .approveProof x proofHash => x.sender = owner ∧ proofHash = digest
  | .depositPendingFunds x _ _ _ proofHash =>
    x.sender = owner ∧ proofHash = digest ∧ proofHash ≠ 0
  | _ => False

/-- Neither the interactions published so far nor the approvals differ. -/
structure Hidden (s s' : State) : Prop where
  produced : s'.produced = s.produced
  approvals : s'.depositProofApprovals = s.depositProofApprovals

/-- An event without an interaction is hidden. -/
lemma Hidden.emit (s : State) {e : Event} (he : e.interaction? = none) : Hidden s (s.emit e) :=
  ⟨produced_emit s he, rfl⟩

/-- What a discipline has to allow for the entry points `calls` to keep to it. -/
structure FollowsEntries (P : Params) (calls : Entry → Prop) (D : ContractDiscipline) : Prop where
  request : ∀ c s, D.Inv s → D.Guar c s
  hidden : ∀ {s s'}, Hidden s s' → D.Allows s s'
  approveProof : ∀ x proofHash, (∃ e, calls e ∧ e.Approves x.sender proofHash) →
    D.Keeps (approveProof x proofHash)
  recordSync : ∀ {e v n l r}, BridgeResult.Settled e r → ∀ s,
    D.Allows s (recordSync P e v n r l s)
  finalise : ∀ x {s n f}, prepareFinalisation getAztecAssetTypes V2.bridgeOf s n = .ok f →
    D.Keeps (finalise P V2.pushAsyncHash x f)

namespace FollowsEntries

variable {calls : Entry → Prop} {D : ContractDiscipline}

/-- Transfers follow the entries. -/
lemma transfers (hD : FollowsEntries P calls D) : Transfers D := ⟨fun _ => hD.request _⟩

/-- So do payments. -/
lemma pays (hD : FollowsEntries P calls D) : Pays D := ⟨fun _ _ => hD.hidden ⟨rfl, rfl⟩⟩

/-- Updates of other fields. -/
lemma modify (hD : FollowsEntries P calls D) {g : State → State} (h : ∀ s, Hidden s (g s)) :
    D.Keeps (Prog.modify g : Program Unit) :=
  .modify fun s => hD.hidden (h s)

/-- So does a program under the lock. -/
lemma withLock (hD : FollowsEntries P calls D) {l : Lock} {m : Program α} (h : D.Keeps m) :
    D.Keeps (withLock l m) :=
  .bind .get fun _ => .bind (.require _ _) fun _ => .bind (hD.modify fun _ => ⟨rfl, rfl⟩) fun _ =>
    .bind h fun _ => .bind (hD.modify fun _ => ⟨rfl, rfl⟩) fun _ => .pure _

/-- The setters of the owner. -/
lemma ownerSetter (hD : FollowsEntries P calls D) {x : Context} {role : Role} {g : State → State}
    (h : ∀ s, Hidden s (g s)) : D.Keeps (ownerSetter x role g) :=
  .onlyRole _ _ (hD.withLock (hD.modify h))

/-- So do deposits and withdrawals. -/
lemma depositsAndWithdrawals (hD : FollowsEntries P calls D) (signatures : List Byte)
    (ts : List InnerTx) (i : Nat) : D.Keeps
      (depositsAndWithdrawals P V2.decreasePendingDepositBalance signatures ts i) :=
  have := hD.transfers
  .depositsAndWithdrawals P (fun _ _ _ =>
    .decreasePendingDepositBalance _ _ _ fun _ _ => hD.hidden ⟨rfl, rfl⟩) _ _ _

/-- So does the check of the provider. -/
lemma checkProvider (hD : FollowsEntries P calls D) (x : Context) : D.Keeps (checkProvider P x) :=
  .checkProvider P x fun _ _ => hD.hidden ⟨rfl, rfl⟩

/-- So does the verification. -/
lemma verify (hD : FollowsEntries P calls D) (x : Context) (cd : Calldata) (start length : Nat)
    (p : ProofData) (publicInputsHash : Word) :
    D.Keeps (verifyProofAndUpdateState P x cd start length p publicInputsHash) :=
  have := hD.transfers
  .verifyProofAndUpdateState P x _ _ _ _ _ fun _ _ _ => hD.hidden ⟨rfl, rfl⟩

/-- The loop over the bridge calls; a result is settled when it is recorded. -/
lemma bridgeCallLoop (hD : FollowsEntries P calls D) (x : Context) (beneficiary : Address)
    (p : ProofData) (n i : Nat) (nonce length : Word) :
    D.Keeps (V2.bridgeCallLoop P x beneficiary p n i nonce length) := by
  have := hD.transfers
  have := hD.pays
  induction n generalizing i nonce length with
  | zero => exact .pure _
  | succ n ih =>
    refine .ite (.pure _) (.bind ?_ fun _ => ih _ _ _)
    refine .bind_returns (.runBridgeCall hD.request _ _ _ _ _ _)
      (runBridgeCall_settled _ _ _ _ _ _) fun r hr => .ite ?_ ?_
    · refine .bind (hD.modify fun s => ⟨?_, rfl⟩) fun _ => .pure _
      exact produced_emit s (e := .AsyncDefiBridgeProcessed _ _ _) rfl
    · exact .bind (.modify (hD.recordSync hr)) fun _ => .pure _

/-- So do the bridge calls. -/
lemma processBridgeCalls (hD : FollowsEntries P calls D) (x : Context) (p : ProofData)
    (beneficiary : Address) : D.Keeps (V2.processBridgeCalls P x p beneficiary) := by
  refine .bind ?_ fun _ => .bind (.ofExcept _) fun _ =>
    .bind (hD.bridgeCallLoop _ _ _ _ _ _ _) fun _ => .bind ?_ fun _ => ?_
  · exact .bind .get fun _ => .bind (.require _ _) fun _ =>
      .bind (hD.modify fun _ => ⟨rfl, rfl⟩) fun _ => .pure _
  · exact .bind .get fun _ => .bind (.require _ _) fun _ => hD.modify fun _ => ⟨rfl, rfl⟩
  · exact .bind .get fun _ => .bind (hD.modify fun _ => ⟨rfl, rfl⟩) fun _ => .pure _

/-- So does a whole rollup. -/
lemma processRollup (hD : FollowsEntries P calls D) (x : Context) (c : RollupCall) :
    D.Keeps (V2.processRollup P x c) := by
  have := hD.transfers
  refine .bind (.ofOption _ _) fun _ => .whenNotPaused (hD.withLock ?_)
  refine .bind (hD.checkProvider x) fun _ => .bind (.ofExcept _) fun _ =>
    .bind (.ofExcept _) fun _ => .bind ?_ fun _ => .transferFee _ _
  exact .bind (hD.verify _ _ _ _ _ _) fun _ =>
    .bind (hD.depositsAndWithdrawals _ _ _) fun _ =>
    .bind (hD.processBridgeCalls _ _ _) fun _ => hD.modify fun s => .emit s rfl

/-- So does a finalisation. -/
lemma processAsync (hD : FollowsEntries P calls D) (x : Context) (n : Word) :
    D.Keeps (V2.processAsyncDefiInteraction P x n) := by
  have hbody : D.Keeps (do
      let s ← Prog.get
      let f ← Prog.ofExcept (prepareFinalisation getAztecAssetTypes V2.bridgeOf s n)
      Contract.finalise P V2.pushAsyncHash x f : Program Bool) :=
    .bind .get fun s => .bind_returns (.ofExcept _) (.ofExcept fun _ h => h)
      fun f hf => hD.finalise x hf
  exact .whenNotPaused (.bind .get fun _ => .ite hbody (hD.withLock hbody))

/-- So does an increase of a pending deposit. -/
lemma increasePendingDepositBalance (hD : FollowsEntries P calls D) (x : Context) (assetId : Word)
    (owner : Address) (amount : Word) :
    D.Keeps (increasePendingDepositBalance x assetId owner amount) := by
  intro s hs
  simp only [Contract.increasePendingDepositBalance, Prog.wp_bind, Prog.wp_require, Prog.wp_get,
    Prog.wp_ofExcept, Prog.wp_modify]
  intro _ s' hs'
  refine hD.hidden (?_ : Hidden s s') hs
  simp only [increasePending, bind, Except.bind, pure, Except.pure] at hs'
  split at hs'
  · cases hs'
  · split at hs'
    · cases hs'
    · cases hs'
      exact ⟨rfl, rfl⟩

/-- So does a deposit, if the discipline allows it. -/
lemma depositPendingFunds (hD : FollowsEntries P calls D) {x : Context} {a v : Word} {o : Address}
    {h : Word} (he : calls (.depositPendingFunds x a v o h)) :
    D.Keeps (depositPendingFunds x a v o h) := by
  have := hD.transfers
  refine .whenNotPaused (hD.withLock (.bind (.require _ _) fun _ => .bind (.require _ _) fun _ =>
    .bind (hD.increasePendingDepositBalance _ _ _ _) fun _ => .bind ?_ fun _ =>
    .bind (hD.modify fun s => .emit s rfl) fun _ => .ite ?_ (.pure _)))
  · split
    · exact hD.approveProof x h ⟨_, he, rfl, rfl, ‹_›⟩
    · exact .pure _
  · exact .bind .get fun _ => .bind (.ofExcept _) fun _ =>
      .bind (.request (Transfers.request rfl)) fun _ =>
      .bind (.require _ _) fun _ => .bind (.require _ _) fun _ => .bind (.require _ _) fun _ =>
      .safeTransferFrom _ _ _ _

/-- Every entry point among `calls`. -/
theorem run (hD : FollowsEntries P calls D) {e : Entry} (he : calls e) : D.Keeps (V2.run P e) := by
  cases e with
  | processRollup x c => exact .noReturnValue (hD.processRollup x c)
  | processAsyncDefiInteraction x n => exact .bind (hD.processAsync x n) fun _ => .pure _
  | receiveEthFromBridge x n => exact .noReturnValue (hD.modify fun _ => ⟨rfl, rfl⟩)
  | approveProof x h => exact .noReturnValue (hD.approveProof x h ⟨_, he, rfl, rfl⟩)
  | depositPendingFunds x a v o h => exact .noReturnValue (hD.depositPendingFunds he)
  | offchainData x i c n =>
    exact .noReturnValue (.whenNotPaused (hD.modify fun s => .emit s rfl))
  | pause x =>
    exact .noReturnValue (.whenNotPaused (.onlyRole x _ (hD.withLock
      (hD.modify fun s => ⟨produced_emit (e := .Paused x.sender) _ rfl, rfl⟩))))
  | unpause x =>
    exact .noReturnValue (.whenPaused (.onlyRole x _ (hD.withLock
      (hD.modify fun s => ⟨produced_emit (e := .Unpaused x.sender) _ rfl, rfl⟩))))
  | setCapped x b =>
    refine .noReturnValue (hD.ownerSetter fun s => ?_)
    have hemit (s₁ : State) (h₁ : s₁.logs = s.logs)
        (h₂ : s₁.depositProofApprovals = s.depositProofApprovals) :
        Hidden s (s₁.emit (.CappedUpdated b)) := by
      refine ⟨(produced_emit s₁ rfl).trans ?_, h₂⟩
      rw [State.produced, State.produced, h₁]
    split
    · exact ⟨rfl, rfl⟩
    · cases b with
      | false => exact hemit _ rfl rfl
      | true => exact hemit _ rfl rfl
  | setRollupProvider x a b => exact .noReturnValue (hD.ownerSetter fun s => ⟨produced_emit s rfl, rfl⟩)
  | setAssetCap x i pc dc p =>
    exact .noReturnValue (.onlyRole _ _ (hD.withLock (.bind (.ofExcept _) fun _ =>
      .bind (.ofExcept _) fun _ => .bind (.ofExcept _) fun _ =>
      hD.modify fun s => ⟨produced_emit s rfl, rfl⟩)))
  | setDelayBeforeEscapeHatch x d =>
    exact .noReturnValue (hD.ownerSetter fun s => ⟨produced_emit s rfl, rfl⟩)
  | setVerifier x a =>
    exact .noReturnValue (.onlyRole _ _ (hD.withLock (.bind (.require _ _) fun _ =>
      hD.modify fun s => ⟨produced_emit (e := .VerifierUpdated a) _ rfl, rfl⟩)))
  | setAllowThirdPartyContracts x b =>
    exact .noReturnValue (hD.ownerSetter fun s => ⟨produced_emit s rfl, rfl⟩)
  | setDefiBridgeProxy x a =>
    exact .noReturnValue (.onlyRole _ _ (hD.withLock (.bind (.require _ _) fun _ =>
      hD.modify fun s => ⟨produced_emit s rfl, rfl⟩)))
  | setSupportedAsset x a g =>
    exact .noReturnValue (.whenNotPaused (.checkThirdPartyContractStatus x (hD.withLock
      (.bind (.require _ _) fun _ => .bind (.require _ _) fun _ =>
        hD.modify fun s => ⟨produced_emit s rfl, rfl⟩))))
  | setSupportedBridge x a g =>
    exact .noReturnValue (.whenNotPaused (.checkThirdPartyContractStatus x (hD.withLock
      (.bind (.require _ _) fun _ => .bind (.require _ _) fun _ =>
        hD.modify fun s => ⟨produced_emit s rfl, rfl⟩))))

end FollowsEntries

end AztecConnect.Contract
