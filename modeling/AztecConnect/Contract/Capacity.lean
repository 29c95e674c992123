import AztecConnect.Contract.Phases
import Mathlib.Tactic.IntervalCases

/-!
# How many hashes the queues can hold

`processAsyncDefiInteraction` refuses to go beyond 512 hashes in both queues together, reading the
stored lengths. During a rollup the stored length of the defi queue lacks the results of the rollup's
own bridge calls, so a rollup can leave more than 512 hashes behind (`queues_exceed_limit`). This
file computes the length an accepted rollup leaves (`RollupPhases.numDefi_bridged`) from what other
contracts answered: the bridge calls that were not answered asynchronously, and the async queue as
the calls to other contracts left it. The bound holds in every run whose rollups leave room for both
(`queues_within_limit`).
-/

namespace AztecConnect.Contract

open Resumption Bits

variable {P : Params} {answers : ExternalCall → State → Reply → Prop}
  {E : Env State ExternalCall Reply}

/-! ## Asynchronous answers -/

/-- A reply of a bridge that makes its interaction asynchronous. -/
def Reply.leavesPending (r : Reply) : Bool :=
  r.success && decide (96 ≤ r.returndatasize) && r.word 2 == 1 && r.word 0 == 0 && r.word 1 == 0

/-- A bridge call that was answered asynchronously. -/
def answersAsync (x : Exchange State ExternalCall Reply) : Bool :=
  x.request.isConvert && x.reply.leavesPending

/-- The number of bridge calls that were answered asynchronously. -/
def asyncAnswers (tr : Trace) : Nat := tr.countP answersAsync

/-- The answers of two traces add up. -/
@[simp] lemma asyncAnswers_append (tr tr' : Trace) :
    asyncAnswers (tr ++ tr') = asyncAnswers tr + asyncAnswers tr' := List.countP_append

/-- An exchange counts if it answers a conversion asynchronously. -/
lemma asyncAnswers_cons (x : Exchange State ExternalCall Reply) (tr : Trace) :
    asyncAnswers (x :: tr) = asyncAnswers tr + if answersAsync x then 1 else 0 :=
  List.countP_cons

/-- The programs that do not call `convert`. -/
def noConvert : ContractDiscipline where
  Inv _ := True
  Guar c _ := c.isConvert = false
  env _ _ _ _ := True
  Rel _ _ := True
  refl _ := trivial
  trans _ _ := trivial
  sound _ _ := ⟨trivial, trivial⟩

/-- The discipline restricts no write. -/
lemma noConvert_allows (s s' : State) : noConvert.Allows s s' := fun _ => ⟨trivial, trivial⟩

instance : Transfers noConvert := ⟨fun h _ _ => h⟩

instance : Pays noConvert := ⟨fun _ _ => noConvert_allows _ _⟩

section

variable {α : Type} {m : Program α} {s s' : State} {tr : Trace} {a : α}

/-- Without a conversion there is no such answer. -/
lemma asyncAnswers_eq_zero (h : ∀ x ∈ tr, x.request.isConvert = false) : asyncAnswers tr = 0 := by
  rw [asyncAnswers, List.countP_eq_zero]
  intro x hx
  simp [answersAsync, h x hx]

/-- A completed run under the discipline has none. -/
lemma asyncAnswers_completes (h : noConvert.Keeps m) (hc : Completes E (m s) tr s' a) :
    asyncAnswers tr = 0 :=
  asyncAnswers_eq_zero fun x hx =>
    (Res.wp_exchanges (fun _ _ _ _ _ _ => trivial) hc (h s trivial) x hx).1

/-- Nor has a reverted one. -/
lemma asyncAnswers_reverts (h : noConvert.Keeps m) (hc : Reverts E (m s) tr) :
    asyncAnswers tr = 0 :=
  asyncAnswers_eq_zero fun x hx =>
    (Res.wp_reverts (fun _ _ _ _ _ _ => trivial) hc (h s trivial) x hx).1

end

/-- A decoded return value is asynchronous with zero outputs when the reply leaves it pending. -/
lemma leavesPending_of_decode {r : Reply} {outA outB : Word} {isAsync : Bool}
    (h : decodeBridgeReturn r = .ok (outA, outB, isAsync)) :
    r.leavesPending = (isAsync && outA == 0 && outB == 0) := by
  simp only [decodeBridgeReturn] at h
  split at h
  · cases h
  · split at h
    · cases h
    · rename_i hs hw
      cases h
      simp only [not_or, Nat.not_lt, Bool.not_eq_true, Bool.not_eq_false'] at hs hw
      simp [Reply.leavesPending, hs, hw.1, Bool.and_assoc]

/-- A reply that cannot be decoded leaves nothing pending. -/
lemma leavesPending_of_error {r : Reply} {e : RevertReason}
    (h : decodeBridgeReturn r = .error e) : r.leavesPending = false := by
  simp only [decodeBridgeReturn] at h
  split at h
  · rename_i hs
    simp only [Bool.not_eq_true'] at hs
    simp [Reply.leavesPending, hs]
  · split at h
    · rename_i hs hw
      rcases hw with hw | hw
      · have : ¬ 96 ≤ r.returndatasize := by omega
        simp [Reply.leavesPending, this]
      · have : r.word 2 ≠ 1 := by
          intro h1
          rw [h1] at hw
          exact absurd hw (by decide)
        simp only [Reply.leavesPending, beq_eq_false_iff_ne.mpr this, Bool.and_false,
          Bool.false_and]
    · cases h

section Convert

variable {x : Context} {bridge : Address} {a : BridgeAssets} {v n aux : Word}
  {beneficiary : Address} {s s' : State} {tr : Trace}

/-- Sending inputs to a bridge asks for no conversion. -/
lemma noConvert_sendInput (asset : AztecAsset) :
    noConvert.Keeps (DefiBridgeProxy.sendInput x asset bridge v) :=
  .ite (.safeTransferTo _ _ _ _) (.pure _)

/-- A conversion that completes was answered asynchronously exactly if its result is. -/
lemma convert_completes {out : Word × Word × Bool}
    (h : Completes E (DefiBridgeProxy.convert x bridge a v n aux beneficiary s) tr s' out) :
    asyncAnswers tr = if out.2.2 then 1 else 0 := by
  obtain ⟨tr₁, tr₂, s₁, _, rfl, hA, h₁⟩ := Completes.bind_inv h
  obtain ⟨tr₃, tr₄, s₂, _, rfl, hB, h₂⟩ := h₁.bind_inv
  obtain ⟨r, s₃, tr₅, rfl, -, h₃⟩ := h₂.request_bind
  obtain ⟨⟨outA, outB, isAsync⟩, hdec, h₄⟩ := h₃.ofExcept_bind
  obtain ⟨tr₆, tr₇, s₄, _, rfl, hsettle, h₅⟩ := h₄.bind_inv
  obtain ⟨rfl, -, rfl⟩ := h₅.done_inv
  have hzero : isAsync = true → outA = 0 ∧ outB = 0 := by
    rintro rfl
    simp only [DefiBridgeProxy.settle, if_true] at hsettle
    have := hsettle.require_inv.1
    constructor <;> bv_omega
  have hcount : asyncAnswers tr₆ = 0 := asyncAnswers_completes (.settle _ _ _ _ _ _ _) hsettle
  rw [List.append_nil, asyncAnswers_append, asyncAnswers_append, asyncAnswers_cons, hcount,
    asyncAnswers_completes (noConvert_sendInput _) hA,
    asyncAnswers_completes (noConvert_sendInput _) hB]
  simp only [answersAsync, ExternalCall.isConvert, leavesPending_of_decode hdec]
  cases isAsync with
  | false => rfl
  | true => simp [hzero rfl]

/-- A conversion that reverts was not answered asynchronously. -/
lemma convert_reverts
    (h : Reverts E (DefiBridgeProxy.convert x bridge a v n aux beneficiary s) tr) :
    asyncAnswers tr = 0 := by
  rcases Reverts.bind_inv h with hA | ⟨tr₁, tr₂, s₁, _, rfl, hA, h₁⟩
  · exact asyncAnswers_reverts (noConvert_sendInput _) hA
  rw [asyncAnswers_append, asyncAnswers_completes (noConvert_sendInput _) hA, Nat.zero_add]
  rcases h₁.bind_inv with hB | ⟨tr₃, tr₄, s₂, _, rfl, hB, h₂⟩
  · exact asyncAnswers_reverts (noConvert_sendInput _) hB
  rw [asyncAnswers_append, asyncAnswers_completes (noConvert_sendInput _) hB, Nat.zero_add]
  obtain ⟨r, s₃, tr₅, rfl, h₃⟩ := h₂.request_bind
  have hcons (c : ExternalCall) (tr : Trace) (hr : r.leavesPending = false)
      (htr : asyncAnswers tr = 0) : asyncAnswers (⟨c, s₂, r, s₃⟩ :: tr) = 0 := by
    simp [asyncAnswers_cons, htr, answersAsync, hr]
  cases hdec : decodeBridgeReturn r with
  | error e =>
    rw [hdec] at h₃
    cases h₃
    exact hcons _ _ (leavesPending_of_error hdec) rfl
  | ok out =>
    obtain ⟨outA, outB, isAsync⟩ := out
    rw [hdec] at h₃
    rcases Reverts.bind_inv (t := DefiBridgeProxy.settle x bridge a n outA outB isAsync s₃) h₃ with
      hsettle | ⟨tr₆, tr₇, s₄, _, rfl, -, h₅⟩
    · refine hcons _ _ ?_ (asyncAnswers_reverts (.settle _ _ _ _ _ _ _) hsettle)
      rw [leavesPending_of_decode hdec]
      cases isAsync with
      | false => rfl
      | true =>
        simp only [DefiBridgeProxy.settle, if_true] at hsettle
        by_contra hne
        simp only [Bool.true_and, Bool.not_eq_false, Bool.and_eq_true, beq_iff_eq] at hne
        obtain ⟨rfl, rfl⟩ := hne
        cases hsettle
    · cases h₅

/-- A bridge call is answered asynchronously exactly if its result is asynchronous. -/
lemma runBridgeCall_completes
    {getAssets : State → FullBridgeCallData → Word → Except RevertReason BridgeAssets}
    {e : Word} {r : BridgeResult}
    (h : Completes E (runBridgeCall getAssets x beneficiary e v n s) tr s' r) :
    asyncAnswers tr = if r.isAsync then 1 else 0 := by
  obtain ⟨-, h₁⟩ := Completes.require_bind h
  obtain ⟨d, -, h₂⟩ := h₁.get_bind.ofExcept_bind
  obtain ⟨assets, -, h₃⟩ := h₂.ofExcept_bind
  obtain ⟨-, h₄⟩ := h₃.require_bind
  obtain ⟨tr₁, tr₂, s₁, outcome, rfl, hout, h₅⟩ := h₄.bind_inv
  obtain ⟨rfl, -, rfl⟩ := h₅.done_inv
  have hdrop (o : Except RevertReason (Word × Word × Bool)) :
      ((BridgeResult.ofDelegatecall o).dropUnusedOutput d.secondOutputInUse).isAsync =
        (BridgeResult.ofDelegatecall o).isAsync := by
    unfold BridgeResult.dropUnusedOutput
    split <;> rfl
  rw [List.append_nil, hdrop]
  rcases Completes.rollback_inv hout with ⟨out, rfl, hc⟩ | ⟨⟨e, rfl⟩, -, hr⟩
  · exact convert_completes hc
  · exact convert_reverts hr

end Convert

/-! ## The length a rollup leaves -/

/-- Bridge calls from index `i` on, of at most `n`: the entries before the first zero. -/
def ProofData.bridgeCallsFrom (p : ProofData) : (n i : Nat) → Nat
  | 0, _ => 0
  | n + 1, i => if p.bridgeCallData i = 0 then 0 else p.bridgeCallsFrom n (i + 1) + 1

/-- The number of bridge calls of a rollup. -/
def ProofData.numBridgeCalls (p : ProofData) : Nat := p.bridgeCallsFrom NUMBER_OF_BRIDGE_CALLS 0

/-- There are not more bridge calls than slots for them. -/
lemma ProofData.bridgeCallsFrom_le (p : ProofData) (n i : Nat) : p.bridgeCallsFrom n i ≤ n := by
  induction n generalizing i with
  | zero => exact le_refl _
  | succ n ih =>
    simp only [ProofData.bridgeCallsFrom]
    split
    · omega
    · exact Nat.succ_le_succ (ih _)

section Loop

variable {x : Context} {beneficiary : Address} {p : ProofData} {s s' : State} {tr : Trace}

/-- A bridge call lengthens the defi queue unless it is answered asynchronously. -/
lemma processBridgeCall_length {e v nonce length length' : Word}
    (h : Completes E (V2.processBridgeCall P x beneficiary e v nonce length s) tr s' length') :
    (asyncAnswers tr = 1 ∧ length' = length) ∨ (asyncAnswers tr = 0 ∧ length' = length + 1) := by
  obtain ⟨tr₁, tr₂, s₁, r, rfl, hr, h₁⟩ := Completes.bind_inv h
  have hcount := runBridgeCall_completes hr
  by_cases hasync : r.isAsync = true
  · simp only [hasync, if_true] at h₁ hcount
    obtain ⟨rfl, -, rfl⟩ := h₁.modify_bind.done_inv
    rw [List.append_nil]
    exact .inl ⟨hcount, rfl⟩
  · simp only [hasync] at h₁ hcount
    obtain ⟨rfl, -, rfl⟩ := h₁.modify_bind.done_inv
    rw [List.append_nil]
    exact .inr ⟨hcount, rfl⟩

/-- The loop lengthens the defi queue by the bridge calls that were not answered asynchronously. -/
lemma bridgeCallLoop_length {n i : Nat} {nonce length length' : Word}
    (h : Completes E (V2.bridgeCallLoop P x beneficiary p n i nonce length s) tr s' length') :
    ∃ k, length' = length + BitVec.ofNat 256 k ∧ k + asyncAnswers tr = p.bridgeCallsFrom n i := by
  induction n generalizing i nonce length s tr with
  | zero =>
    obtain ⟨rfl, -, rfl⟩ := h.done_inv
    exact ⟨0, (BitVec.add_zero _).symm, rfl⟩
  | succ n ih =>
    simp only [V2.bridgeCallLoop, ProofData.bridgeCallsFrom] at h ⊢
    by_cases hz : p.bridgeCallData i = 0
    · simp only [hz, if_true] at h ⊢
      obtain ⟨rfl, -, rfl⟩ := h.done_inv
      exact ⟨0, (BitVec.add_zero _).symm, rfl⟩
    · simp only [hz, if_false] at h ⊢
      obtain ⟨tr₁, tr₂, s₁, length₁, rfl, hone, hrest⟩ := Completes.bind_inv h
      obtain ⟨k, rfl, hk⟩ := ih hrest
      rw [asyncAnswers_append]
      rcases processBridgeCall_length hone with ⟨h₁, rfl⟩ | ⟨h₀, rfl⟩
      · exact ⟨k, rfl, by omega⟩
      · refine ⟨k + 1, ?_, by omega⟩
        rw [BitVec.ofNat_add, BitVec.add_assoc, BitVec.add_comm 1]
        rfl

end Loop

/-! ## The async queue while a rollup runs -/

/-- The async queue of `s` is as long as that of one of the states `T`, whose interactions are all
still on record. -/
structure AsyncFrom (T : List State) (s : State) : Prop where
  bounded : s.Bounded
  source : ∃ t ∈ T, s.numAsyncDefiInteractionHashes = t.numAsyncDefiInteractionHashes ∧
    t.produced <+: s.produced

/-- Programs that leave the async queue to other contracts, which may leave any of the states `T`. -/
def leavesAsync (T : List State) (hT : ∀ t ∈ T, t.Bounded) : ContractDiscipline where
  Inv := AsyncFrom T
  Guar _ _ := True
  env _ _ _ s' := s' ∈ T
  Rel _ _ := True
  refl _ := trivial
  trans _ _ := trivial
  sound _ h := ⟨⟨hT _ h, _, h, rfl, List.prefix_rfl⟩, trivial⟩

section LeavesAsync

variable {T : List State} (hT : ∀ t ∈ T, t.Bounded) {x : Context} {beneficiary : Address}
  {p : ProofData}

instance : Transfers (leavesAsync T hT) := ⟨fun _ _ _ => trivial⟩

/-- Updates that keep the length of the async queue and the record. -/
lemma leavesAsync_allows {s s' : State} (hb : s.Bounded → s'.Bounded)
    (ha : s.Bounded → s'.numAsyncDefiInteractionHashes = s.numAsyncDefiInteractionHashes)
    (hp : s.produced <+: s'.produced) : (leavesAsync T hT).Allows s s' := by
  rintro ⟨hs, t, ht, hlen, hpre⟩
  exact ⟨⟨hb hs, t, ht, (ha hs).trans hlen, hpre.trans hp⟩, trivial⟩

/-- A queue step that leaves the length of the async queue is allowed. -/
lemma leavesAsync_queueStep {s s' : State} (h : QueueStep P s s')
    (ha : s'.numAsyncDefiInteractionHashes = s.numAsyncDefiInteractionHashes) :
    (leavesAsync T hT).Allows s s' := by
  obtain ⟨new, hr⟩ := h.results
  exact leavesAsync_allows _ h.bounded (fun _ => ha) ⟨new, hr.produced.symm⟩

instance : Pays (leavesAsync T hT) :=
  ⟨fun _ _ => leavesAsync_allows _ (fun h => ⟨h.async, h.defi⟩) (fun _ => rfl) List.prefix_rfl⟩

/-- Popping the pending interactions leaves the async queue. -/
lemma leavesAsync_popPending : (leavesAsync T hT).Keeps (V2.popPendingInteractions p) := by
  intro s hs
  apply wp_popPendingInteractions hs.bounded
  exact fun _ => leavesAsync_allows hT State.bounded_popPending State.numAsync_popPending
    List.prefix_rfl hs

/-- So does the loop of the bridge calls. -/
lemma leavesAsync_bridgeCallLoop (n i : Nat) (nonce length : Word) :
    (leavesAsync T hT).Keeps (V2.bridgeCallLoop P x beneficiary p n i nonce length) := by
  induction n generalizing i nonce length with
  | zero => exact .pure _
  | succ n ih =>
    refine .ite (.pure _) (.bind ?_ fun _ => ih _ _ _)
    refine .bind (.runBridgeCall (fun _ _ _ => trivial) _ _ _ _ _ _) fun r => .ite ?_ ?_
    · refine .bind (.modify fun s => ?_) fun _ => .pure _
      refine leavesAsync_allows _ (fun h => ⟨h.async, h.defi⟩) (fun _ => rfl) ?_
      exact produced_recordAsync _ _ _ s ▸ List.prefix_rfl
    · refine .bind (.modify fun s => ?_) fun _ => .pure _
      refine leavesAsync_allows _ (fun h => ⟨h.async, h.defi⟩) (fun _ => rfl) ?_
      exact produced_recordSync (P := P) _ _ _ _ r s ▸ List.prefix_append _ _

/-- A program leaves the async queue as one of the states that other contracts left. -/
lemma AsyncFrom.completes {α : Type} {m : Program α} {s s' : State} {tr : Trace} {a : α}
    (h : AsyncFrom T s) (hm : (leavesAsync T hT).Keeps m) (hc : Completes E (m s) tr s' a)
    (htr : ∀ y ∈ tr, y.after ∈ T) : AsyncFrom T s' :=
  (hm.completes h hc fun y hy _ => htr y hy).1

end LeavesAsync

/-! ## One rollup -/

section Rollup

variable {x : Context} {c : RollupCall} {beneficiary : Address} {p : ProofData} {s s' : State}
  {tr : Trace} {n : Nat}

/-- The lengths after the bridge calls of a rollup. -/
lemma processBridgeCalls_length {T : List State} (hT : ∀ t ∈ T, t.Bounded) {hashes : List Word}
    (hs : AsyncFrom T s)
    (h : Completes E (V2.processBridgeCalls P x p beneficiary s) tr s' hashes)
    (htr : ∀ y ∈ tr, y.after ∈ T) :
    ∃ t ∈ T, t.produced <+: s'.produced ∧ s'.numAsyncDefiInteractionHashes = 0 ∧
      s'.numDefiInteractionHashes.toNat + asyncAnswers tr =
        t.numAsyncDefiInteractionHashes.toNat +
          (s.numDefiInteractionHashes.toNat - s.numPending) + p.numBridgeCalls := by
  have hd := hs.bounded.defi
  obtain ⟨tr₁, tr₂, s₁, length, rfl, hpop, h₁⟩ := Completes.bind_inv h
  have hs₁ := hs.completes hT (leavesAsync_popPending hT) hpop fun y hy =>
    htr y (List.mem_append_left _ hy)
  have hlength : length = BitVec.ofNat 256 (s.numDefiInteractionHashes.toNat - s.numPending) :=
    hpop.post (Q := fun _ l => l = BitVec.ofNat 256 _)
      (wp_popPendingInteractions hs.bounded fun _ => rfl)
  have hpop0 : asyncAnswers tr₁ = 0 := by
    refine asyncAnswers_completes ?_ hpop
    exact .bind .get fun _ => .bind (.require _ _) fun _ =>
      .bind (.modify fun _ => noConvert_allows _ _) fun _ => .pure _
  obtain ⟨nonce, -, h₂⟩ := h₁.ofExcept_bind
  obtain ⟨tr₃, tr₄, s₂, length', rfl, hloop, h₃⟩ := h₂.bind_inv
  have hs₂ := hs₁.completes hT (leavesAsync_bridgeCallLoop hT _ _ _ _) hloop fun y hy =>
    htr y (List.mem_append_right _ (List.mem_append_left _ hy))
  obtain ⟨k, hk, hcount⟩ := bridgeCallLoop_length hloop
  have htail0 : asyncAnswers tr₄ = 0 := by
    refine asyncAnswers_completes (m := V2.copyAsyncHashes length' >>= fun _ =>
      V2.updatePrevDefiInteractionsHash P) (.bind ?_ fun _ => ?_) h₃
    · exact .bind .get fun _ => .bind (.require _ _) fun _ => .modify fun _ => noConvert_allows _ _
    · exact .bind .get fun _ => .bind (.modify fun _ => noConvert_allows _ _) fun _ => .pure _
  have hk32 : k ≤ NUMBER_OF_BRIDGE_CALLS := by
    have := p.bridgeCallsFrom_le NUMBER_OF_BRIDGE_CALLS 0
    omega
  have hlt : s.numDefiInteractionHashes.toNat - s.numPending + k < 2 ^ ARRAY_LENGTH_BITS := by
    simp only [State.numPending, NUMBER_OF_BRIDGE_CALLS, ARRAY_LENGTH_BITS] at hd hk32 ⊢
    omega
  rw [hlength, ← BitVec.ofNat_add] at hk
  rw [hk] at h₃
  obtain ⟨t, ht, hasync, hpre⟩ := hs₂.source
  have htail : s₂.numAsyncDefiInteractionHashes.toNat +
      (s.numDefiInteractionHashes.toNat - s.numPending + k) < 2 ^ ARRAY_LENGTH_BITS ∧
      s' = joinQueues P (s.numDefiInteractionHashes.toNat - s.numPending + k) s₂ := by
    refine h₃.post (Q := fun t _ => s₂.numAsyncDefiInteractionHashes.toNat +
        (s.numDefiInteractionHashes.toNat - s.numPending + k) < 2 ^ ARRAY_LENGTH_BITS ∧
        t = joinQueues P _ s₂) ?_
    rw [Prog.wp_bind]
    apply wp_copyAsyncHashes hs₂.bounded hlt
    intro hroom
    exact wp_updatePrevDefiInteractionsHash (State.bounded_copyAsync hs₂.bounded hroom)
      ⟨hroom, rfl⟩
  obtain ⟨hroom, rfl⟩ := htail
  refine ⟨t, ht, hpre, State.numAsync_copyAsync hs₂.bounded hroom, ?_⟩
  have hlen := State.numDefi_copyAsync hs₂.bounded hroom
  change (joinQueues P _ s₂).numDefiInteractionHashes.toNat = _ at hlen
  rw [hlen, hasync, asyncAnswers_append, asyncAnswers_append, hpop0, htail0,
    ProofData.numBridgeCalls, ← hcount]
  omega

/-- The async queue when the bridge calls start is that of `s`, or as other contracts left it. -/
lemma RollupPhases.asyncFrom {T : List State} (hT : ∀ t ∈ T, t.Bounded)
    (ph : RollupPhases P E x c s tr s') (hs : s ∈ T) (htr : ∀ y ∈ tr, y.after ∈ T) :
    AsyncFrom T ph.settled := by
  have hsub {tr₁ : Trace} (h : tr₁ ⊆ ph.providerTrace ++ ph.verifyTrace ++ ph.depositTrace ++
      ph.bridgeTrace ++ ph.feeTrace) : ∀ y ∈ tr₁, y.after ∈ T :=
    fun y hy => htr y (ph.trace_eq ▸ h hy)
  have h₀ : AsyncFrom T (s.setLock .ALLOW_ASYNC_REENTER) :=
    ⟨⟨by rw [State.numAsync_setLock]; exact (hT s hs).async,
      by rw [State.numDefi_setLock]; exact (hT s hs).defi⟩,
      s, hs, State.numAsync_setLock _, List.prefix_rfl⟩
  have h₁ := h₀.completes hT (.checkProvider P x fun s t =>
    leavesAsync_allows _ (fun h => ⟨h.async, h.defi⟩) (fun _ => rfl) List.prefix_rfl)
    ph.checkProvider (hsub (by intro y; simp; tauto))
  have h₂ := h₁.completes hT (.verifyProofAndUpdateState P x _ _ _ _ _ fun s h d =>
    leavesAsync_queueStep _ (QueueStep.updateRoots (P := P) s h d).1
      (State.numAsync_updateRoots s h d)) ph.verify (hsub (by intro y; simp; tauto))
  exact h₂.completes hT (.depositsAndWithdrawals P (fun _ _ _ =>
    .decreasePendingDepositBalance _ _ _ fun s d =>
      leavesAsync_allows _ (fun h => ⟨h.async, h.defi⟩) (fun _ => rfl) List.prefix_rfl) _ _ _)
    ph.deposits (hsub (by intro y; simp; tauto))

/-- Only the bridge calls of a rollup can be answered asynchronously. -/
lemma RollupPhases.asyncAnswers_eq (ph : RollupPhases P E x c s tr s') :
    asyncAnswers tr = asyncAnswers ph.bridgeTrace := by
  have h₁ : asyncAnswers ph.providerTrace = 0 := asyncAnswers_completes
    (.checkProvider P x fun _ _ => noConvert_allows _ _) ph.checkProvider
  have h₂ : asyncAnswers ph.verifyTrace = 0 := asyncAnswers_completes
    (.verifyProofAndUpdateState P x _ _ _ _ _ fun _ _ _ => noConvert_allows _ _) ph.verify
  have h₃ : asyncAnswers ph.depositTrace = 0 := asyncAnswers_completes
    (.depositsAndWithdrawals P (fun _ _ _ =>
      .decreasePendingDepositBalance _ _ _ fun _ _ => noConvert_allows _ _) _ _ _) ph.deposits
  have h₄ : asyncAnswers ph.feeTrace = 0 := asyncAnswers_completes (.transferFee _ _) ph.fees
  conv_lhs => rw [ph.trace_eq]
  simp only [asyncAnswers_append, h₁, h₂, h₃, h₄, Nat.zero_add, Nat.add_zero]

/-- The queues after an accepted rollup: the async queue as one of the surviving calls to other
contracts left it, what was not pending of the defi queue, and the bridge calls that were not
answered asynchronously. -/
theorem V2.processRollup_lengths (hs : Quiet s)
    (h : Completes ((V2.world P answers).env n) (V2.processRollup P x c s) tr s' ()) :
    ∃ p numTxs publicInputsHash, c.Decodes P p numTxs publicInputsHash ∧
    ∃ t ∈ s :: tr.map Exchange.after, t.produced <+: s'.produced ∧
    ∃ s₁, QuietStep P s₁ s' ∧ s₁.numAsyncDefiInteractionHashes = 0 ∧
      s₁.numDefiInteractionHashes.toNat + asyncAnswers tr =
        t.numAsyncDefiInteractionHashes.toNat +
          (s.numDefiInteractionHashes.toNat - s.numPending) + p.numBridgeCalls := by
  obtain ⟨ph⟩ := V2.processRollup_phases h
  have hafter := V2.processRollup_after_busy hs h
  have hT : ∀ t ∈ s :: tr.map Exchange.after, t.Bounded := by
    intro t ht
    rcases List.mem_cons.mp ht with rfl | ht
    · exact hs.bounded
    · obtain ⟨y, hy, rfl⟩ := List.mem_map.mp ht
      exact (hafter y hy).bounded
  have hmem : ∀ y ∈ tr, y.after ∈ s :: tr.map Exchange.after :=
    fun y hy => List.mem_cons_of_mem _ (List.mem_map_of_mem hy)
  have hmem' : ∀ y ∈ ph.bridgeTrace, y.after ∈ s :: tr.map Exchange.after := by
    intro y hy
    apply hmem
    rw [ph.trace_eq]
    simp [hy]
  obtain ⟨t, ht, hpre, ha, hlen⟩ := processBridgeCalls_length hT
    (ph.asyncFrom hT List.mem_cons_self hmem) ph.bridgeCalls hmem'
  obtain ⟨hb, hq⟩ := ph.before hs
  obtain ⟨-, hquiet⟩ := ph.after (ph.busy_bridged hs)
  obtain ⟨new, hr⟩ := hquiet.results
  refine ⟨ph.proofData, ph.numTxs, ph.publicInputsHash, ph.decodes, t, ht,
    hpre.trans ⟨new, hr.produced.symm⟩, ph.bridged, hquiet, ha, ?_⟩
  rw [ph.asyncAnswers_eq, hlen]
  simp only [State.numPending, hq.numDefi]

end Rollup

/-! ## Runs -/

/-- A rollup leaves room for its results: the async queue, as the rollup found it and as the calls
to other contracts left it (if they were not undone), what is not pending of the defi queue, and the
bridge calls that are not answered asynchronously do not exceed 512. -/
def LeavesRoom (P : Params) (call : Call Entry State ExternalCall Reply (Option Bool)) : Prop :=
  ∀ x c p numTxs publicInputsHash, call.entry = .processRollup x c →
    c.Decodes P p numTxs publicInputsHash →
    ∀ t ∈ call.before :: call.exchanges.map Exchange.after, t.produced <+: call.after.produced →
      t.numAsyncDefiInteractionHashes.toNat +
        (call.before.numDefiInteractionHashes.toNat - call.before.numPending) + p.numBridgeCalls ≤
        512 + asyncAnswers call.exchanges

/-- A call from outside keeps to the limit as `pushAsyncHash` checks it. -/
lemma QueueStep.withinLimit {s s' : State} (h : QueueStep P s s')
    (hs : s.numAsyncDefiInteractionHashes.toNat + s.numDefiInteractionHashes.toNat ≤ 512) :
    s'.numAsyncDefiInteractionHashes.toNat + s'.numDefiInteractionHashes.toNat ≤ 512 := by
  obtain ⟨new, hr⟩ := h.results
  rcases hr.room with rfl | hle
  · have hlen := congrArg List.length hr.async
    simp only [State.asyncHashes, MappedArray.length_contents, List.map_nil,
      List.append_nil] at hlen
    rw [h.numDefi, hlen]
    exact hs
  · exact hle

/-- In every run that starts with empty queues and whose rollups leave room for their results, the
queues together hold at most 512 hashes. -/
theorem queues_within_limit {s₀ s : State}
    {history : List (Call Entry State ExternalCall Reply (Option Bool))}
    (hunlocked : s₀.lock = Lock.UNLOCKED.toWord)
    (hasync : s₀.numAsyncDefiInteractionHashes = 0) (hdefi : s₀.numDefiInteractionHashes = 0)
    (h : Run (V2.world P answers) s₀ history s) (hroom : ∀ call ∈ history, LeavesRoom P call) :
    s.numAsyncDefiInteractionHashes.toNat + s.numDefiInteractionHashes.toNat ≤ 512 := by
  have hinv : Quiet s ∧
      s.numAsyncDefiInteractionHashes.toNat + s.numDefiInteractionHashes.toNat ≤ 512 := by
    refine Run.invariant (I := fun history s => (∀ call ∈ history, LeavesRoom P call) → Quiet s ∧
      s.numAsyncDefiInteractionHashes.toNat + s.numDefiInteractionHashes.toNat ≤ 512) h ?_ ?_ hroom
    · intro _
      refine ⟨⟨hunlocked, by rw [hasync]; decide, by rw [hdefi]; decide⟩, ?_⟩
      rw [hasync, hdefi]
      decide
    · intro history s₁ s₂ e tr a n ih hc hroom
      obtain ⟨hq, hle⟩ := ih fun call hcall => hroom call (List.mem_append_left _ hcall)
      by_cases he : ∃ x c, e = .processRollup x c
      · obtain ⟨x, c, rfl⟩ := he
        have hroom' := hroom _ (List.mem_append_right _ List.mem_cons_self)
        have h₁ := V2.run_processRollup hc
        obtain ⟨ph⟩ := V2.processRollup_phases h₁
        refine ⟨(ph.after (ph.busy_bridged hq)).1, ?_⟩
        obtain ⟨p, numTxs, publicInputsHash, hdec, t, ht, hpre, s₄, hquiet, ha, hlen⟩ :=
          V2.processRollup_lengths hq h₁
        have hle' : t.numAsyncDefiInteractionHashes.toNat +
            (s₁.numDefiInteractionHashes.toNat - s₁.numPending) + p.numBridgeCalls ≤
            512 + asyncAnswers tr := hroom' x c p numTxs publicInputsHash rfl hdec t ht hpre
        refine hquiet.toQueueStep.withinLimit ?_
        rw [ha]
        change 0 + _ ≤ 512
        omega
      · obtain ⟨hq', hstep⟩ := V2.wp_completes Guarded.ofBusy hc
          (V2.run_outside Guarded.ofBusy e (fun x c hxc => he ⟨x, c, hxc⟩) s₁ hq (.ofBusy s₁))
        exact ⟨hq', hstep.toQueueStep.withinLimit hle⟩
  exact hinv.2

/-- A rollup whose interaction stays pending, its finalisation, and a rollup that moves its hash to
the defi queue, behind that of its own interaction. -/
theorem queues_within_limit_sample : ∃ history s,
    Run TwoRollups.world Sample.genesis history s ∧
    history.map (fun call => call.after.numAsyncDefiInteractionHashes) = [0, 1, 0] ∧
    history.map (fun call => call.after.numDefiInteractionHashes) = [0, 0, 2] ∧
    s.numAsyncDefiInteractionHashes.toNat + s.numDefiInteractionHashes.toNat ≤ 512 := by
  have hrun : TwoRollups.exec.map (fun r =>
      (r.1.map (fun call => call.after.numAsyncDefiInteractionHashes),
        r.1.map (fun call => call.after.numDefiInteractionHashes),
        r.1.all fun call => call.before.numDefiInteractionHashes = 0 &&
          (call.before :: call.exchanges.map Exchange.after).all fun t =>
            t.numAsyncDefiInteractionHashes ≤ 1)) =
      some ([0, 1, 0], [0, 0, 2], true) := by decide +kernel
  obtain ⟨⟨history, s⟩, hs, heq⟩ := Option.map_eq_some_iff.mp hrun
  simp only [Prod.mk.injEq, List.all_eq_true, Bool.and_eq_true, decide_eq_true_eq] at heq
  obtain ⟨hasync, hdefi, hsmall⟩ := heq
  have hr := TwoRollups.exec_run hs
  refine ⟨history, s, hr, hasync, hdefi, ?_⟩
  refine queues_within_limit (by decide) (by decide) (by decide) hr ?_
  intro call hcall x c p numTxs publicInputsHash _ _ t ht _
  have hone : t.numAsyncDefiInteractionHashes.toNat ≤ 1 := (hsmall call hcall).2 t ht
  have hle := p.bridgeCallsFrom_le NUMBER_OF_BRIDGE_CALLS 0
  rw [(hsmall call hcall).1, ProofData.numBridgeCalls]
  have hlimit : 1 + NUMBER_OF_BRIDGE_CALLS ≤ 512 := by decide
  have hzero : (0 : Word).toNat = 0 := rfl
  omega

/-! ## A run that exceeds the limit

512 interactions are pending, as after 16 rollups with 32 bridge calls each that were all answered
asynchronously. 481 of them are finalised, and a rollup with 32 bridge calls follows. -/

namespace Overfull

/-- The interaction of nonce `n`. Those of one rollup differ in their aux data. -/
def callOf (n : Word) : Word := Sample.bridgeCall + (n % 32) <<< 184

/-- The interactions of nonces `n` to 511 are pending. -/
def state (w n : Word) (logs : List Event) : State :=
  { Sample.genesis with
    rollupState := w
    rollupStateHash := 0xee1decc11400e5444c4a9188e363a07e78a725f142c8a452709b7bb09bb407d2
    pendingDefiInteractions := fun m => ⟨if n ≤ m ∧ m < 512 then callOf m else 0, 5⟩
    logs := logs }

/-- The digests that are compared. The others, those of the interactions, are zero. -/
def params : Params :=
  { Sample.params with
    keccak256 := digestOf
      [([16, 11, 21, 47, INIT_DEFI_ROOT],
          0xee1decc11400e5444c4a9188e363a07e78a725f142c8a452709b7bb09bb407d2),
        ([17, 11, 21, 48, INIT_DEFI_ROOT],
          0xc9662b17166a734fedd67ae304b66013b6b3539b03d26d5584f7718a5f2c4037)]
    sha256 := digestOf [(List.replicate 32 DEFI_RESULT_ZERO_HASH,
      0xd6722d1d32ab3ab724cfb1effc70145ad96e8b7ccf56992dc266ea6872e6fd5f)] }

/-- Every call succeeds with the outputs 1 and 0; `finalise` completes, `convert` is synchronous. -/
def answer : ExternalCall → Reply
  | .finalise .. => ⟨true, 96, fun i => if i = 1 then 0 else 1⟩
  | _ => ⟨true, 96, fun i => if i = 0 then 1 else 0⟩

/-- The deployment with these parameters and answers. -/
abbrev world : World Entry State RevertReason ExternalCall Reply (Option Bool) :=
  V2.world params fun c _ r => r = answer c

/-- A call is answered at once, and changes nothing. -/
lemma env_answer (c : ExternalCall) (s : State) : world.env 0 c s (answer c) s := ⟨rfl, rfl⟩

/-- What `processAsyncDefiInteraction` decodes for nonce `n`. -/
def finalisation (n : Word) : Finalisation :=
  ⟨n, callOf n, 5, n % 32, 7, ⟨⟨0, 0, .VIRTUAL⟩, notUsedAsset, virtualOutput n, notUsedAsset⟩⟩

/-- What a call data decodes to. -/
def fullBridgeCallData (auxData : Word) : FullBridgeCallData where
  bridgeAddressId := 1
  bridgeAddress := 7
  inputAssetIdA := VIRTUAL_ASSET_ID_FLAG
  inputAssetIdB := 0
  outputAssetIdA := VIRTUAL_ASSET_ID_FLAG
  outputAssetIdB := 0
  auxData
  firstInputVirtual := true
  secondInputVirtual := false
  firstOutputVirtual := true
  secondOutputVirtual := false
  secondInputInUse := false
  secondOutputInUse := false
  bridgeGasLimit := 0

/-- Finalising nonce `n` emits this. -/
def event (n : Word) : Event := .DefiBridgeProcessed (callOf n) n 5 1 0 true none

section Step

variable {w w' n : Word} {logs : List Event}

/-- Every one of the 32 call datas decodes. -/
lemma getFullBridgeCallData_callOf (w n : Word) (logs : List Event) : ∀ i < 32,
    getFullBridgeCallData (state w n logs) (callOf (BitVec.ofNat 256 i)) =
      .ok (fullBridgeCallData (BitVec.ofNat 256 i)) := by
  intro i hi
  interval_cases i <;> rfl

/-- And names the bridge. -/
lemma bridgeOf_callOf (w n : Word) (logs : List Event) : ∀ i < 32,
    V2.bridgeOf (state w n logs) (callOf (BitVec.ofNat 256 i)) = .ok 7 := by
  intro i hi
  interval_cases i <;> rfl

/-- None of them is zero. -/
lemma callOf_ne : ∀ i < 32, callOf (BitVec.ofNat 256 i) ≠ 0 := by decide +kernel

/-- All assets are virtual. -/
lemma getAztecAssetTypes_eq (s : State) (auxData : Word) :
    getAztecAssetTypes s (fullBridgeCallData auxData) n = .ok (finalisation n).assets := by
  have hv : virtualInput VIRTUAL_ASSET_ID_FLAG = .ok ⟨0, 0, .VIRTUAL⟩ := by
    rw [virtualInput, if_neg (by decide)]
    rfl
  simp only [getAztecAssetTypes, fullBridgeCallData, hv]
  rfl

/-- The index of an interaction in its rollup. -/
lemma toNat_mod : (n % 32).toNat = n.toNat % 32 := BitVec.toNat_umod ..

/-- A pending interaction can be finalised. -/
lemma prepareFinalisation_eq (hn : n < 512) :
    prepareFinalisation getAztecAssetTypes V2.bridgeOf (state w n logs) n =
      .ok (finalisation n) := by
  have hi : (n % 32).toNat < 32 := toNat_mod ▸ Nat.mod_lt _ (by decide)
  have haux : BitVec.ofNat 256 (n % 32).toNat = n % 32 := by
    rw [BitVec.ofNat_toNat, BitVec.setWidth_eq]
  have hcall : callOf n = callOf (BitVec.ofNat 256 (n % 32).toNat) := by
    have hmod : n % 32 % 32 = n % 32 := by
      apply BitVec.eq_of_toNat_eq
      rw [toNat_mod, toNat_mod, Nat.mod_mod]
    rw [haux, callOf, callOf, hmod]
  have hpend : (state w n logs).pendingDefiInteractions n = ⟨callOf n, 5⟩ := by
    have hin : n ≤ n ∧ n < 512 := ⟨BitVec.le_refl n, hn⟩
    simp only [state, hin, and_self, if_true]
  have hfull := getFullBridgeCallData_callOf w n logs _ hi
  have hbridge := bridgeOf_callOf w n logs _ hi
  have hne := callOf_ne _ hi
  rw [← hcall] at hfull hbridge hne
  rw [haux] at hfull
  simp only [prepareFinalisation, hpend, if_neg hne, hfull, hbridge, getAztecAssetTypes_eq, bind,
    Except.bind, pure, Except.pure]
  rfl

/-- Virtual outputs are not transferred. -/
lemma transferResult_run (s : State) :
    transferResult Sample.context (finalisation n).bridge (finalisation n).assets
      (finalisation n).totalInputValue (finalisation n).interactionNonce 1 0 s = .done s () := by
  rw [transferResult, if_neg (fun h => absurd h.1 (by decide))]
  rfl

/-- Its hash is not among the digests compared. -/
lemma defiInteractionHash_eq : params.defiInteractionHash (callOf n) n 5 1 0 true = 0 := by
  simp only [Params.defiInteractionHash, Params.sha256Mod, params, digestOf]
  rw [List.find?_cons_of_neg]
  · rfl
  · simp

/-- With room a hash is pushed. -/
lemma pushAsyncHash_run {s : State} {h : Word}
    (hroom : s.asyncArrayLen.toNat + s.defiArrayLen.toNat < 512) :
    V2.pushAsyncHash h s = .done (({ s with
        asyncDefiInteractionHashes :=
          Function.update s.asyncDefiInteractionHashes s.asyncArrayLen h } :
      State).setRollupState ASYNCDEFIINTERACTIONHASHES_BIT_OFFSET ARRAY_LENGTH_BITS
      (s.asyncArrayLen + 1)) () := by
  simp only [V2.pushAsyncHash, Prog.run_bind, Prog.run_get, Res.bind_done]
  rw [Prog.run_require (by bv_omega)]
  rfl

/-- The pending interactions after one more was finalised. -/
lemma pendingDefiInteractions_succ (w w' : Word) (logs : List Event) (hn : n < 512) :
    Function.update (state w n logs).pendingDefiInteractions n
      { (state w n logs).pendingDefiInteractions n with encodedBridgeCallData := 0 } =
      (state w' (n + 1) logs).pendingDefiInteractions := by
  funext m
  by_cases hm : m = n
  · subst hm
    have hlt : ¬ (m + 1 ≤ m ∧ m < 512) := by
      rintro ⟨h, -⟩
      bv_omega
    simp only [Function.update_self, state, if_neg hlt]
  · have hle : n ≤ m ↔ n + 1 ≤ m := by
      constructor
      · intro h
        bv_omega
      · intro h
        bv_omega
    simp only [Function.update_of_ne hm, state, hle]

/-- The packed word while the interaction is finalised. -/
def locked (w : Word) : Word := setField LOCK_BIT_OFFSET 8 Lock.ALLOW_ASYNC_REENTER.toWord w

/-- The packed word with an async queue of length `n + 1`. -/
def pushed (w n : Word) : Word :=
  setField ASYNCDEFIINTERACTIONHASHES_BIT_OFFSET ARRAY_LENGTH_BITS (n + 1) (locked w)

/-- Not paused and unlocked, with an async queue of length `n` and an empty defi queue; `w'` is the
word after a push. -/
structure Pushable (w n w' : Word) : Prop where
  room : n < 512
  unpaused : field PAUSED_BIT_OFFSET 8 w = 0
  unlocked : field LOCK_BIT_OFFSET 8 w = Lock.UNLOCKED.toWord
  async : field ASYNCDEFIINTERACTIONHASHES_BIT_OFFSET ARRAY_LENGTH_BITS (locked w) = n
  defi : field DEFIINTERACTIONHASHES_BIT_OFFSET ARRAY_LENGTH_BITS (locked w) = 0
  next : setField LOCK_BIT_OFFSET 8 Lock.UNLOCKED.toWord (pushed w n) = w'

/-- The interaction of nonce `n` is finalised, and its hash is pushed. -/
lemma finalise_run (logs : List Event) (hw : Pushable w n w') : ∃ tr, Completes (world.env 0)
    (finalise params V2.pushAsyncHash Sample.context (finalisation n) (state (locked w) n logs)) tr
    (state (pushed w n) (n + 1) (logs ++ [event n])) true := by
  simp only [finalise, Prog.run_bind, Prog.run_modify, Prog.run_request, Res.bind_done,
    Res.bind_call]
  refine Completes.exists_call (env_answer _ _) ?_
  have hreply : decodeBridgeReturn (answer (.finalise (finalisation n).bridge
      (finalisation n).assets.inputAssetA (finalisation n).assets.inputAssetB
      (finalisation n).assets.outputAssetA (finalisation n).assets.outputAssetB
      (finalisation n).interactionNonce ((finalisation n).auxData.setWidth 64))) =
      .ok (1, 0, true) := rfl
  simp only [Res.bind_done, Prog.run_ofExcept hreply, if_true, completeFinalisation, Prog.run_bind]
  rw [Prog.run_require (fun h => absurd h.1 (by decide))]
  simp only [Res.bind_done, transferResult_run]
  generalize hs : setPendingCallData (finalisation n).interactionNonce 0 (state (locked w) n logs) = s
  have ha : s.asyncArrayLen = n := hs ▸ hw.async
  have hd : s.defiArrayLen = 0 := hs ▸ hw.defi
  have hroom : s.asyncArrayLen.toNat + s.defiArrayLen.toNat < 512 := by
    rw [ha, hd]
    exact hw.room
  rw [pushAsyncHash_run hroom]
  simp only [Res.bind_done, Prog.run_modify, Prog.run_pure]
  have hend : (({ s with
        asyncDefiInteractionHashes :=
          Function.update s.asyncDefiInteractionHashes s.asyncArrayLen 0 } :
      State).setRollupState ASYNCDEFIINTERACTIONHASHES_BIT_OFFSET ARRAY_LENGTH_BITS
      (s.asyncArrayLen + 1)).emit (event n) =
      state (pushed w n) (n + 1) (logs ++ [event n]) := by
    have hqueue : Function.update s.asyncDefiInteractionHashes n 0 = fun _ => 0 := by
      subst hs
      exact Function.update_eq_self (f := fun _ : Word => (0 : Word)) n
    rw [ha]
    simp only [State.setRollupState, State.emit, hqueue]
    subst hs
    simp only [setPendingCallData, finalisation,
      pendingDefiInteractions_succ (locked w) (pushed w n) logs hw.room]
    rfl
  have hhash : params.defiInteractionHash (finalisation n).encodedBridgeCallData
      (finalisation n).interactionNonce (finalisation n).totalInputValue 1 0
      (finaliseResult 1 0) = 0 := defiInteractionHash_eq
  have hevent : Event.DefiBridgeProcessed (finalisation n).encodedBridgeCallData
      (finalisation n).interactionNonce (finalisation n).totalInputValue 1 0
      (finaliseResult 1 0) none = event n := rfl
  rw [hhash, hevent, hend]
  exact ⟨[], .done⟩

/-- Interaction `n` can be finalised next. -/
lemma processAsync_run (logs : List Event) (hw : Pushable w n w') : ∃ tr, Completes (world.env 0)
    (V2.run params (.processAsyncDefiInteraction Sample.context n) (state w n logs)) tr
    (state w' (n + 1) (logs ++ [event n])) (some true) := by
  have hp : (state w n logs).paused = false := by
    simp only [State.paused, state, hw.unpaused]
    decide
  have hu : (state w n logs).lock = Lock.UNLOCKED.toWord := hw.unlocked
  have hl : (state w n logs).lock ≠ Lock.ALLOW_ASYNC_REENTER.toWord := hu.trans_ne (by decide)
  obtain ⟨tr, h⟩ := finalise_run logs hw
  refine ⟨(tr ++ []) ++ [], ?_⟩
  suffices hrun : Completes (world.env 0) (V2.processAsyncDefiInteraction params Sample.context n
      (state w n logs)) (tr ++ []) (state w' (n + 1) (logs ++ [event n])) true from hrun.bind .done
  simp only [V2.processAsyncDefiInteraction, processAsyncWith, whenNotPaused, noReenterButAsync,
    Prog.run_bind, Prog.run_get, Res.bind_done, Prog.run_require hp, if_neg hl, withLock,
    Prog.run_require hu, Prog.run_modify]
  refine Completes.bind (?_ : Completes _ _ tr (state (pushed w n) (n + 1) (logs ++ [event n])) true)
    ?_
  · change Completes _ (Res.bind (Prog.ofExcept (prepareFinalisation getAztecAssetTypes V2.bridgeOf
      (state (locked w) n logs) n) (state (locked w) n logs)) _) _ _ _
    rw [Prog.run_ofExcept (prepareFinalisation_eq hw.room)]
    exact h
  · have hnext : (state (pushed w n) (n + 1) (logs ++ [event n])).setLock .UNLOCKED =
        state w' (n + 1) (logs ++ [event n]) := by
      rw [← hw.next]
      rfl
    rw [← hnext]
    exact .done

end Step

/-- Verifier 3, 32 leaves in the data tree, and `k` hashes in the async queue. -/
def packed (k : Nat) : Word := BitVec.ofNat 256 (3 + 32 * 2 ^ 160 + k * 2 ^ 192)

/-- There is room for 481 hashes. -/
lemma pushable_packed : ∀ k < 481, Pushable (packed k) (BitVec.ofNat 256 k) (packed (k + 1)) := by
  have h : ∀ k < 481, BitVec.ofNat 256 k < (512 : Word) ∧
      field PAUSED_BIT_OFFSET 8 (packed k) = 0 ∧
      field LOCK_BIT_OFFSET 8 (packed k) = Lock.UNLOCKED.toWord ∧
      field ASYNCDEFIINTERACTIONHASHES_BIT_OFFSET ARRAY_LENGTH_BITS (locked (packed k)) =
        BitVec.ofNat 256 k ∧
      field DEFIINTERACTIONHASHES_BIT_OFFSET ARRAY_LENGTH_BITS (locked (packed k)) = 0 ∧
      setField LOCK_BIT_OFFSET 8 Lock.UNLOCKED.toWord (pushed (packed k) (BitVec.ofNat 256 k)) =
        packed (k + 1) := by
    decide +kernel
  intro k hk
  obtain ⟨h₀, h₁, h₂, h₃, h₄, h₅⟩ := h k hk
  exact ⟨h₀, h₁, h₂, h₃, h₄, h₅⟩

/-- What the finalisations emit. -/
def events (k : Nat) : List Event := (List.range k).map fun i => event (BitVec.ofNat 256 i)

/-- `k` interactions can be finalised. -/
lemma finalised : ∀ k ≤ 481, ∃ history, Run world (state (packed 0) 0 []) history
    (state (packed k) (BitVec.ofNat 256 k) (events k)) := by
  intro k hk
  induction k with
  | zero => exact ⟨[], .nil⟩
  | succ k ih =>
    obtain ⟨tr, hc⟩ := processAsync_run (events k) (pushable_packed k hk)
    have hevents : events (k + 1) = events k ++ [event (BitVec.ofNat 256 k)] := by
      rw [events, List.range_succ, List.map_append]
      rfl
    have hn : BitVec.ofNat 256 (k + 1) = BitVec.ofNat 256 k + 1 := BitVec.ofNat_add ..
    rw [hevents, hn]
    exact Run.exists_snoc
      (i := Entry.processAsyncDefiInteraction Sample.context (BitVec.ofNat 256 k))
      (ih (Nat.le_of_succ_le hk)) hc

/-- The header of the rollup, with 32 bridge calls. -/
def header : Nat → Word
  | 0 => 16
  | 1 => 1
  | 2 => 32
  | 3 => 11
  | 4 => 11
  | 5 => 21
  | 6 => 21
  | 7 => 47
  | 8 => 48
  | 9 => INIT_DEFI_ROOT
  | 10 => INIT_DEFI_ROOT
  | 139 => INIT_DEFI_INTERACTIONS_HASH
  | 140 => 7
  | 141 => 1
  | i => if i < 43 then callOf (BitVec.ofNat 256 (i - 11)) else if i < 75 then 5 else 0

/-- The rollup that follows. -/
def rollup : Entry :=
  .processRollup Sample.context ⟨Sample.calldata header, fun _ => InnerTx.zero⟩

/-- It is accepted, and 513 hashes are in the defi queue. -/
lemma rollup_eval : ((V2.run params rollup (state (packed 481) 481 (events 481))).eval answer).map
    (fun r => (r.2.1.numAsyncDefiInteractionHashes, r.2.1.numDefiInteractionHashes)) =
    some (0, 513) := by
  decide +kernel

end Overfull

/-- 481 finalisations and a rollup with 32 bridge calls that are answered at once leave 513 hashes. -/
theorem queues_exceed_limit : ∃ s₀ history s,
    s₀.lock = Lock.UNLOCKED.toWord ∧ s₀.numAsyncDefiInteractionHashes = 0 ∧
    s₀.numDefiInteractionHashes = 0 ∧ Run Overfull.world s₀ history s ∧
    ¬ s.numAsyncDefiInteractionHashes.toNat + s.numDefiInteractionHashes.toNat ≤ 512 := by
  obtain ⟨⟨tr, s, a⟩, heval, hlen⟩ := Option.map_eq_some_iff.mp Overfull.rollup_eval
  simp only [Prod.mk.injEq] at hlen
  obtain ⟨history, hrun⟩ := Run.exists_snoc (i := Overfull.rollup)
    (Overfull.finalised 481 (le_refl _)) (Res.eval_completes Overfull.env_answer heval)
  refine ⟨Overfull.state (Overfull.packed 0) 0 [], history, s, by decide +kernel,
    by decide +kernel, by decide +kernel, hrun, ?_⟩
  rw [hlen.1, hlen.2]
  decide

end AztecConnect.Contract
