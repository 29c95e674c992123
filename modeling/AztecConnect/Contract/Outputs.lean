import AztecConnect.Contract.Disciplines
import AztecConnect.Contract.Phases

/-!
# The outputs of queued interactions

Which interactions the processor publishes and queues. A predicate on interactions that the results
of bridge calls satisfy, and the results of finalisations, is an invariant of all entry points,
locked or not (`interactions_follow`), and the hashes of the published interactions are those in the
queues and those consumed (`Run.booked`). For the range of the outputs this needs a condition on what `finalise`
returns: unlike the bridge proxy, `processAsyncDefiInteraction` does not check it.
-/

namespace AztecConnect.Contract

open Resumption Bits

variable {P : Params} {answers : ExternalCall → State → Reply → Prop} {Ok : Interaction → Prop}
  {s s' : State} {history : List (Call Entry State ExternalCall Reply (Option Bool))}

/-! ## Published interactions -/

/-- All interactions published so far satisfy `Ok`. -/
def AllPublished (Ok : Interaction → Prop) (s : State) : Prop := ∀ i ∈ s.produced, Ok i

/-- The interactions published are those of before and more. -/
def Extends (s s' : State) : Prop := s.produced <+: s'.produced

/-- A state extends itself. -/
lemma Extends.refl (s : State) : Extends s s := List.prefix_rfl

/-- An extension extended. -/
lemma Extends.trans {s s' s'' : State} (h : Extends s s') (h' : Extends s' s'') : Extends s s'' :=
  List.IsPrefix.trans h h'

/-- Programs that publish no interactions but such that satisfy `Ok`. -/
def interactionDiscipline (P : Params) (answers : ExternalCall → State → Reply → Prop)
    (Ok : Interaction → Prop) : ContractDiscipline where
  Inv := AllPublished Ok
  Guar _ := AllPublished Ok
  env := (V2.world P answers).rely (AllPublished Ok) Extends
  Rel := Extends
  refl := Extends.refl
  trans := Extends.trans
  sound _ h := ⟨h.2.2.1, h.2.2.2⟩

/-- What has to satisfy `Ok`: the results of bridge calls, and what `finalise` may return for a
consistent bridge call data. -/
structure ResultsOk (answers : ExternalCall → State → Reply → Prop) (Ok : Interaction → Prop) :
    Prop where
  sync : ∀ {e n v} {r : BridgeResult}, r.Settled e →
    Ok ⟨e, n, v, r.outputValueA, r.outputValueB, r.success⟩
  finalised : ∀ {bridge inA inB outA outB nonce aux s r e v a b},
    answers (.finalise bridge inA inB outA outB nonce aux) s r →
    decodeBridgeReturn r = .ok (a, b, true) → Consistent e →
    (secondOutputInUse e = false → b = 0) → Ok ⟨e, nonce, v, a, b, finaliseResult a b⟩

/-- What produces nothing is allowed. -/
lemma allPublished_allows (h : s'.produced = s.produced) :
    (interactionDiscipline P answers Ok).Allows s s' := by
  intro hs
  refine ⟨?_, ?_⟩
  · show AllPublished Ok s'
    rw [AllPublished, h]
    exact hs
  · show s.produced <+: s'.produced
    rw [h]

/-- Publishing one more. -/
lemma allPublished_publish {i : Interaction} (hi : Ok i) (h : s'.produced = s.produced ++ [i]) :
    (interactionDiscipline P answers Ok).Allows s s' := by
  intro hs
  refine ⟨?_, [i], h.symm⟩
  intro j hj
  rw [h, List.mem_append, List.mem_singleton] at hj
  rcases hj with hj | rfl
  · exact hs j hj
  · exact hi

/-- The asset of the second output. -/
lemma getAztecAssetTypes_outputAssetB {d : FullBridgeCallData} {nonce : Word} {a : BridgeAssets}
    (h : getAztecAssetTypes s d nonce = .ok a) :
    (if d.secondOutputVirtual then .ok (virtualOutput nonce)
      else if d.secondOutputInUse then realAsset s d.outputAssetIdB
      else .ok notUsedAsset) = (.ok a.outputAssetB : Except RevertReason AztecAsset) := by
  rw [getAztecAssetTypes] at h
  cases hfirst : d.firstInputVirtual <;> cases hout : d.firstOutputVirtual <;>
    cases hsecond : d.secondInputVirtual <;> cases huse : d.secondInputInUse <;>
    cases hvirtual : d.secondOutputVirtual <;> cases hused : d.secondOutputInUse <;>
  · simp only [hfirst, hout, hsecond, huse, hvirtual, hused, if_true, if_false,
      Bool.false_eq_true] at h ⊢
    obtain ⟨_, -, h₁⟩ := bind_eq_ok h
    obtain ⟨_, -, h₂⟩ := bind_eq_ok h₁
    obtain ⟨_, -, h₃⟩ := bind_eq_ok h₂
    obtain ⟨_, hB, h₄⟩ := bind_eq_ok h₃
    cases h₄
    exact hB

/-- A second output that is not in use has no asset. -/
lemma outputAssetB_notUsed {d : FullBridgeCallData} {e nonce : Word} {a : BridgeAssets}
    {bridge : Address} (hc : Consistent e) (hd : d = fullBridgeCallData s bridge e)
    (h : getAztecAssetTypes s d nonce = .ok a) (hu : secondOutputInUse e = false) :
    a.outputAssetB.assetType = .NOT_USED := by
  have hvirtual : d.secondOutputVirtual = false := by
    rw [hd]
    apply beq_eq_false_iff_ne.mpr
    intro hone
    have hz := hc.secondOutput hu
    -- the flag is one of the bits of the asset id, which is zero
    have hbit : (bits 122 30 e).getLsbD 29 = true := by
      have h₀ : (bits (122 + 29) 1 e).getLsbD 0 = true := by
        rw [hone]
        decide
      rw [bits, getLsbD_field] at h₀ ⊢
      simpa using h₀
    rw [hz] at hbit
    simp at hbit
  have huse : d.secondOutputInUse = false := by
    rw [hd]
    exact hu
  have hasset := getAztecAssetTypes_outputAssetB h
  simp only [hvirtual, huse, Bool.false_eq_true, if_false] at hasset
  rw [← Except.ok.inj hasset]
  rfl

/-- What finalising an interaction publishes satisfies `Ok`. -/
lemma allPublished_finalise (hOk : ResultsOk answers Ok) (x : Context) {n : Word} {f : Finalisation}
    (hf : prepareFinalisation getAztecAssetTypes V2.bridgeOf s n = .ok f) :
    (interactionDiscipline P answers Ok).Keeps (finalise P V2.pushAsyncHash x f) := by
  have hmodify {g : State → State} (h : ∀ s, (g s).produced = s.produced) :
      (interactionDiscipline P answers Ok).Keeps (Prog.modify g : Program Unit) :=
    .modify fun s => allPublished_allows (h s)
  have : Transfers (interactionDiscipline P answers Ok) := ⟨fun _ _ h => h⟩
  have : Pays (interactionDiscipline P answers Ok) := ⟨fun _ _ => allPublished_allows rfl⟩
  -- what was checked before the call of the bridge
  rw [prepareFinalisation] at hf
  obtain ⟨-, h₁⟩ := check_inv hf
  obtain ⟨d, hd, h₂⟩ := bind_eq_ok h₁
  obtain ⟨a, ha, h₃⟩ := bind_eq_ok h₂
  obtain ⟨b, -, h₄⟩ := bind_eq_ok h₃
  cases h₄
  obtain ⟨hc, bridge, -, hd'⟩ := getFullBridgeCallData_ok_iff.mp hd
  intro s₀ hs₀
  simp only [finalise, Prog.wp_bind, Prog.wp_modify, Prog.wp_request, Prog.wp_ofExcept,
    Prog.wp_ite, Prog.wp_pure]
  refine ⟨hs₀, ?_⟩
  rintro r s₁ ⟨hans, -, hs₁, hext⟩ ⟨outA, outB, done⟩ hout
  refine ⟨fun hdone => ?_, fun _ => ⟨hs₁, hext⟩⟩
  obtain rfl : done = true := hdone
  simp only [completeFinalisation, Prog.wp_bind, Prog.wp_require]
  intro hunused
  let i : Interaction := ⟨(s.pendingDefiInteractions n).encodedBridgeCallData, n,
    (s.pendingDefiInteractions n).totalInputValue, outA, outB, finaliseResult outA outB⟩
  have hok : Ok i := by
    refine hOk.finalised hans hout hc fun hu => ?_
    by_contra hne
    exact hunused ⟨(BitVec.pos_iff_ne_zero _).mpr hne, outputAssetB_notUsed hc hd' ha hu⟩
  refine Res.wp_mono ?_ (Discipline.Keeps.transferResult
    (D := interactionDiscipline P answers Ok) _ _ _ _ _ _ _ s₁ hs₁)
  rintro s₂ - ⟨hs₂, hext₂ : Extends s₁ s₂⟩
  rw [wp_pushAsyncHash]
  intro _
  simp only [Prog.wp_modify, Prog.wp_pure]
  have hpub : ((s₂.pushAsync (i.hash P)).emit (.DefiBridgeProcessed i.encodedBridgeCallData n
      i.totalInputValue outA outB i.result none)).produced = s₂.produced ++ [i] :=
    List.filterMap_append
  have hallows : (interactionDiscipline P answers Ok).Allows s₂ _ := allPublished_publish hok hpub
  obtain ⟨h₃, hext₃⟩ := hallows hs₂
  exact ⟨h₃, hext.trans (hext₂.trans hext₃)⟩

/-- Every entry point publishes only interactions that satisfy `Ok`. -/
lemma interactions_follow (hOk : ResultsOk answers Ok) :
    FollowsEntries P (fun _ => True) (interactionDiscipline P answers Ok) where
  request _ _ h := h
  hidden h := allPublished_allows h.produced
  approveProof _ _ _ := .whenNotPaused (.modify fun _ => allPublished_allows rfl)
  recordSync hr _ := allPublished_publish (hOk.sync hr) (produced_recordSync _ _ _ _ _ _)
  finalise x _ _ _ hf := allPublished_finalise hOk x hf

/-- One accepted call. -/
lemma allPublished_call (hOk : ResultsOk answers Ok) {e : Entry} {n : Nat} {a : Option Bool}
    {tr : List (Exchange State ExternalCall Reply)} (hs : AllPublished Ok s)
    (h : Completes ((V2.world P answers).env n) (V2.run P e s) tr s' a) :
    AllPublished Ok s' ∧ Extends s s' := by
  have hrun (e : Entry) (s : State) (hs : AllPublished Ok s) :=
    (interactions_follow (P := P) hOk).run (e := e) trivial s hs
  refine Res.wp_completes (Q := fun s' _ => AllPublished Ok s' ∧ Extends s s') ?_ h (hrun e s hs)
  intro c t r t' ht henv
  exact World.env_rely Extends.refl (fun _ _ _ => Extends.trans) hrun n ht henv

/-- In every run. -/
lemma Run.allPublished (hOk : ResultsOk answers Ok) (hs : AllPublished Ok s)
    (h : Run (V2.world P answers) s history s') : AllPublished Ok s' :=
  h.invariant (I := fun _ s' => AllPublished Ok s') hs
    fun _ _ _ _ _ _ _ hI hc => (allPublished_call hOk hI hc).1

/-! ## Queued hashes -/

/-- `h` is the hash of an interaction that was published. -/
def Published (P : Params) (s : State) (h : Word) : Prop := ∃ i ∈ s.produced, i.hash P = h

/-- A queued hash is that of a published interaction. -/
lemma Booked.published {consumed defi : List Word} (h : Booked P consumed defi s) {w : Word}
    (hw : w ∈ defi ++ s.asyncHashes) : Published P s w := by
  have hmem : w ∈ consumed ++ defi ++ s.asyncHashes := by
    rw [List.append_assoc]
    exact List.mem_append_right consumed hw
  exact List.mem_map.mp (List.Perm.mem_iff h |>.mpr hmem)

/-- It stays published. -/
lemma Published.queueStep {w : Word} (hp : Published P s w) (hq : QueueStep P s s') :
    Published P s' w := by
  obtain ⟨new, hr⟩ := hq.results
  obtain ⟨i, hi, rfl⟩ := hp
  exact ⟨i, hr.produced ▸ List.mem_append_left new hi, rfl⟩

/-- The books during the bridge calls of a rollup. -/
lemma bookedInvariant (P : Params) (p : ProofData) (consumed : List Word) {start : Nat}
    (hstart : start < 2 ^ ARRAY_LENGTH_BITS) :
    BridgeCallInvariant P p start fun _ len s =>
      Booked P consumed (MappedArray.contents s.defiInteractionHashes len) s where
  rely h _ hr := by
    rw [hr.defiHashes]
    exact h.queueStep hr.toQueueStep
  async _ h _ _ := by
    rw [Booked, produced_recordAsync]
    exact h
  sync := by
    intro i len s r hi hlen h _ _
    have hlt : len < 2 ^ 256 := by
      simp only [ARRAY_LENGTH_BITS, NUMBER_OF_BRIDGE_CALLS] at hstart hi
      omega
    exact h.recordSync _ _ _ r hlt

/-- The bridge calls of a rollup; the hashes it announces are queued. -/
lemma wp_processBridgeCalls_booked {x : Context} {p : ProofData} {beneficiary : Address}
    {consumed : List Word} (hs : Busy s) (h : Booked P consumed s.defiHashes s) :
    (V2.processBridgeCalls P x p beneficiary s).wp (fun _ => Busy)
      ((V2.world P answers).rely Busy (Rely P)) fun s' hashes =>
        Busy s' ∧ Booked P (consumed ++ s.pendingHashes) s'.defiHashes s' ∧
          ∀ w ∈ hashes, w ∈ s'.defiHashes := by
  have hbound : s.numDefiInteractionHashes.toNat - s.numPending < 2 ^ ARRAY_LENGTH_BITS :=
    lt_of_le_of_lt (Nat.sub_le _ _) hs.bounded.defi
  apply V2.wp_processBridgeCalls hs (bookedInvariant P p (consumed ++ s.pendingHashes) hbound)
  · exact fun _ _ => h.popPending hs.bounded
  · intro i len s₁ _ _ h₁ hb₁ hroom
    refine ⟨Busy.joinQueues hb₁.bounded hroom hb₁.locked, h₁.join hb₁.bounded hroom, ?_⟩
    intro w hw
    rw [State.defiHashes_eq]
    exact List.mem_append_right _ hw

/-- One accepted call of the unlocked processor. -/
lemma booked_call {consumed : List Word} {e : Entry} {n : Nat} {a : Option Bool}
    {tr : List (Exchange State ExternalCall Reply)} (hs : Quiet s)
    (hb : Booked P consumed s.defiHashes s)
    (h : Completes ((V2.world P answers).env n) (V2.run P e s) tr s' a) :
    Quiet s' ∧ Booked P (consumed ++ consumedBy ⟨e, s, tr, a, s'⟩) s'.defiHashes s' := by
  have hother (he : ∀ x c, e ≠ .processRollup x c) :
      Quiet s' ∧ Booked P consumed s'.defiHashes s' := by
    obtain ⟨hq, hstep⟩ := V2.wp_completes Guarded.ofBusy h
      (V2.run_outside Guarded.ofBusy e he s hs (.ofBusy s))
    rw [hstep.toSameDefi.defiHashes_eq]
    exact ⟨hq, hb.queueStep hstep.toQueueStep⟩
  cases e with
  | processRollup x c =>
    refine V2.wp_completes Guarded.ofBusy (V2.run_processRollup h)
      (Q := fun s' _ => Quiet s' ∧ Booked P (consumed ++ s.pendingHashes) s'.defiHashes s')
      (V2.wp_processRollup hs ?_)
    intro p numTxs publicInputsHash beneficiary s₁ _ hb₁ hq₁ _ _
    have h₁ : Booked P consumed s₁.defiHashes s₁ := by
      rw [hq₁.toSameDefi.defiHashes_eq]
      exact hb.queueStep hq₁
    have hpend : s₁.pendingHashes = s.pendingHashes := by
      simp only [State.pendingHashes, State.numPending, hq₁.numDefi, hq₁.defiHashes]
    refine Res.wp_mono ?_ (wp_processBridgeCalls_booked hb₁ h₁)
    rintro s₂ hashes ⟨hb₂, h₂, -⟩
    refine ⟨hb₂, fun s₃ h₃ hq₃ => ⟨hq₃, ?_⟩⟩
    rw [h₃.toSameDefi.defiHashes_eq, ← hpend]
    exact h₂.queueStep h₃.toQueueStep
  | _ =>
    rw [consumedBy, List.append_nil]
    exact hother (by simp)

/-- In every run of the initialised contract, the hashes of the published interactions are, as a
multiset, those consumed by rollups and those in the queues. -/
lemma Run.booked (hs : Genesis P s) (h : Run (V2.world P answers) s history s') :
    Quiet s' ∧ Booked P (consumed history) s'.defiHashes s' := by
  refine h.invariant (I := fun history s' => Quiet s' ∧ Booked P (consumed history) s'.defiHashes s')
    ⟨hs.quiet, hs.booked⟩ ?_
  intro history s₁ s₂ e tr a n hI hc
  rw [consumed_append]
  exact booked_call hI.1 hI.2 hc

/-- The hashes that a rollup announces are those of interactions published by then. -/
lemma RollupPhases.hashes_published {x : Context} {c : RollupCall} {tr : Trace} {n : Nat}
    {consumed : List Word} (ph : RollupPhases P ((V2.world P answers).env n) x c s tr s')
    (hs : Quiet s) (hb : Booked P consumed s.defiHashes s) : ∀ w ∈ ph.hashes, Published P s' w := by
  obtain ⟨hbusy, hq⟩ := ph.before hs
  have h₁ : Booked P consumed ph.settled.defiHashes ph.settled := by
    rw [hq.toSameDefi.defiHashes_eq]
    exact hb.queueStep hq
  obtain ⟨hbusy', h₂, hhashes⟩ := V2.wp_completes Guarded.ofBusy ph.bridgeCalls
    (wp_processBridgeCalls_booked hbusy h₁)
  intro w hw
  exact (h₂.published (List.mem_append_left _ (hhashes w hw))).queueStep
    (ph.after hbusy').2.toQueueStep

/-! ## The bridge calls of published interactions -/

/-- All interactions, published or pending, are bridge calls for which `Ok` holds. -/
structure Sourced (Ok : Word → Word → Prop) (s : State) : Prop where
  published : ∀ i ∈ s.produced, Ok i.encodedBridgeCallData i.nonce
  pending : ∀ n, s.Pending n → Ok (s.pendingDefiInteractions n).encodedBridgeCallData n

/-- The bridge calls of a header satisfy `Ok`. -/
def ProofData.Calls (Ok : Word → Word → Prop) (p : ProofData) : Prop :=
  ∀ i < NUMBER_OF_BRIDGE_CALLS, Ok (p.bridgeCallData i) (p.interactionNonce i)

section Sourced

variable {Ok : Word → Word → Prop}

/-- New results that are sourced keep the state sourced. -/
lemma Sourced.results {new : List Interaction} (h : Sourced Ok s) (hr : Results P s new s') :
    Sourced Ok s' where
  published i hi := by
    rw [hr.produced, List.mem_append] at hi
    rcases hi with hi | hi
    · exact h.published i hi
    · obtain ⟨hp, -, heq⟩ := hr.completed i hi
      have hok := h.pending _ hp
      rw [heq] at hok
      exact hok
  pending n hn := by
    by_cases hm : n ∈ new.map Interaction.nonce
    · obtain ⟨i, hi, rfl⟩ := List.mem_map.mp hm
      exact absurd hn (hr.completed i hi).2.1
    · rw [State.Pending, hr.untouched n hm] at hn
      rw [hr.untouched n hm]
      exact h.pending n hn

/-- So does a queue step. -/
lemma Sourced.queueStep (h : Sourced Ok s) (hq : QueueStep P s s') : Sourced Ok s' := by
  obtain ⟨new, hr⟩ := hq.results
  exact h.results hr

/-- So do the bridge calls of a rollup. -/
lemma sourcedInvariant (P : Params) {p : ProofData} (hp : p.Calls Ok) (start : Nat) :
    BridgeCallInvariant P p start fun _ _ => Sourced Ok where
  rely h _ hr := h.queueStep hr.toQueueStep
  async := by
    intro i len s hi h _ _
    refine ⟨fun j hj => h.published j ((produced_recordAsync ..) ▸ hj), fun n hn => ?_⟩
    rcases eq_or_ne n (p.interactionNonce i) with rfl | hne
    · simp only [recordAsync, Function.update_self]
      exact hp i hi
    · simp only [State.Pending, recordAsync, Function.update_of_ne hne] at hn ⊢
      exact h.pending n hn
  sync := by
    intro i len s r hi _ h _ _
    refine ⟨fun j hj => ?_, h.pending⟩
    rw [produced_recordSync, List.mem_append, List.mem_singleton] at hj
    rcases hj with hj | rfl
    · exact h.published j hj
    · exact hp i hi

/-- One accepted call of the unlocked processor. -/
lemma sourced_call {e : Entry} {n : Nat} {a : Option Bool}
    {tr : List (Exchange State ExternalCall Reply)} (hs : Quiet s) (hsrc : Sourced Ok s)
    (hOk : ∀ x c p numTxs h, e = .processRollup x c → c.Decodes P p numTxs h → p.Calls Ok)
    (h : Completes ((V2.world P answers).env n) (V2.run P e s) tr s' a) :
    Quiet s' ∧ Sourced Ok s' := by
  have hother (he : ∀ x c, e ≠ .processRollup x c) : Quiet s' ∧ Sourced Ok s' := by
    obtain ⟨hq, hstep⟩ := V2.wp_completes Guarded.ofBusy h
      (V2.run_outside Guarded.ofBusy e he s hs (.ofBusy s))
    exact ⟨hq, hsrc.queueStep hstep.toQueueStep⟩
  cases e with
  | processRollup x c =>
    refine V2.wp_completes Guarded.ofBusy (V2.run_processRollup h)
      (Q := fun s' _ => Quiet s' ∧ Sourced Ok s') (V2.wp_processRollup hs ?_)
    intro p numTxs publicInputsHash beneficiary s₁ hdec hb₁ hq₁ _ _
    have h₁ := hsrc.queueStep hq₁
    have hcalls := hOk x c p numTxs publicInputsHash rfl hdec
    refine V2.wp_processBridgeCalls hb₁ (sourcedInvariant P hcalls _) (fun _ _ => ?_) ?_
    · exact ⟨h₁.published, h₁.pending⟩
    · intro i len s₂ _ _ h₂ hb₂ hroom
      refine ⟨Busy.joinQueues hb₂.bounded hroom hb₂.locked, fun s₃ h₃ hq₃ => ⟨hq₃, ?_⟩⟩
      have hjoin : Sourced Ok (joinQueues P len s₂) := ⟨h₂.published, h₂.pending⟩
      exact hjoin.queueStep h₃.toQueueStep
  | _ => exact hother (by simp)

/-- At first nothing is queued. -/
lemma Genesis.sourced (h : Genesis P s) : Sourced Ok s := by
  refine ⟨?_, fun n hn => absurd (h.pending n) hn⟩
  rw [h.produced]
  exact fun _ hi => absurd hi List.not_mem_nil

/-- In every run whose headers have only bridge calls for which `Ok` holds. -/
lemma Run.sourced (hs : Genesis P s) (h : Run (V2.world P answers) s history s')
    (hOk : ∀ call ∈ history, ∀ x c p numTxs h, call.entry = .processRollup x c →
      c.Decodes P p numTxs h → p.Calls Ok) : Sourced Ok s' := by
  refine (h.invariant (I := fun history s' => (∀ call ∈ history, ∀ x c p numTxs h,
    call.entry = .processRollup x c → c.Decodes P p numTxs h → p.Calls Ok) →
      Quiet s' ∧ Sourced Ok s') (fun _ => ⟨hs.quiet, hs.sourced⟩) ?_ hOk).2
  intro history s₁ s₂ e tr a n ih hc hOk
  obtain ⟨hq, hsrc⟩ := ih fun call hcall => hOk call (List.mem_append_left _ hcall)
  have hlast := hOk _ (List.mem_append_right history List.mem_cons_self)
  exact sourced_call hq hsrc hlast hc

end Sourced

/-! ## The range of the outputs -/

/-- The outputs of a published interaction can be held by the notes of the circuits. -/
def Interaction.Representable (i : Interaction) : Prop :=
  Contract.Representable i.encodedBridgeCallData i.outputValueA i.outputValueB

/-- Every queued hash is the hash of a published interaction, and all interactions published have
outputs that the notes can hold. -/
structure OutputsRepresentable (P : Params) (s : State) : Prop where
  published : ∀ i ∈ s.produced, i.Representable
  queued : ∀ h ∈ s.defiHashes ++ s.asyncHashes, ∃ i ∈ s.produced, i.hash P = h ∧ i.Representable

/-- Bridges that complete an interaction in `finalise` return outputs of at most 252 bits. -/
def FinalisesInRange (answers : ExternalCall → State → Reply → Prop) : Prop :=
  ∀ {bridge inA inB outA outB nonce aux s r},
    answers (.finalise bridge inA inB outA outB nonce aux) s r → r.success = true →
    r.word 2 = 1 → (r.word 0).toNat < 2 ^ 252 ∧ (r.word 1).toNat < 2 ^ 252

/-- Outputs in range are representable. -/
lemma FinalisesInRange.resultsOk (h : FinalisesInRange answers) :
    ResultsOk answers Interaction.Representable where
  sync hr := hr.outputs
  finalised := by
    intro bridge inA inB outA outB nonce aux s r e v a b hans hr _ hu
    simp only [decodeBridgeReturn] at hr
    split at hr
    · cases hr
    · split at hr
      · cases hr
      · simp only [Except.ok.injEq, Prod.mk.injEq, beq_iff_eq] at hr
        obtain ⟨rfl, rfl, hdone⟩ := hr
        rename_i hsuccess _
        obtain ⟨hA, hB⟩ := h hans (by simpa using hsuccess) hdone
        exact ⟨hA, hB, hu⟩

/-- In every run in which completed finalisations return outputs of at most 252 bits, all queued
interactions are representable. -/
theorem outputs_representable (hs : Genesis P s) (hfin : FinalisesInRange answers)
    (h : Run (V2.world P answers) s history s') : OutputsRepresentable P s' := by
  have hall : AllPublished Interaction.Representable s' := by
    refine Run.allPublished hfin.resultsOk ?_ h
    rw [AllPublished, hs.produced]
    exact fun _ hi => absurd hi List.not_mem_nil
  refine ⟨hall, fun w hw => ?_⟩
  obtain ⟨i, hi, rfl⟩ := (Run.booked hs h).2.published hw
  exact ⟨i, hi, rfl, hall i hi⟩

/-! ## A finalisation with a virtual output

The interaction of the sample rollup is left pending by its bridge, and finalised with `output` of a
virtual asset, of which there are no tokens to transfer. -/

namespace Finalised

/-- `convert` leaves the interaction pending, `finalise` completes it. -/
def answer (output : Word) : ExternalCall → Reply
  | .convert .. => ⟨true, 96, fun i => if i = 2 then 1 else 0⟩
  | .finalise .. => ⟨true, 96, fun i => if i = 0 then output else if i = 2 then 1 else 0⟩
  | _ => ⟨true, 32, fun _ => 1⟩

/-- The digests of both results. -/
def params : Params :=
  { Sample.params with
    sha256 := fun ws =>
      if ws = [Sample.bridgeCall, 0, 5, 5, 0, 1] then
        0x703300efe08201a75d4052ca3dd2767cb6ef55f498b5e8c152d68e806b2413d
      else if ws = [Sample.bridgeCall, 0, 5, 2 ^ 252, 0, 1] then
        0x18cafee06587a1ae0733cb0cd7d6e18bf6f740abf7fe289b1903426c430f2c11
      else Sample.params.sha256 ws }

/-- The deployment with these answers. -/
abbrev world (output : Word) := V2.world params fun c _ r => r = answer output c

/-- The parameters initialise the sample. -/
lemma genesis_spec : Genesis params Sample.genesis :=
  { Sample.genesis_spec with stateHash := ⟨11, 21, 31, by decide⟩ }

/-- The interaction is started by a rollup and finalised. -/
def exec (output : Word) :=
  (world output).exec (answer output) [.processRollup Sample.context Sample.call,
    .processAsyncDefiInteraction Sample.context 0] [] Sample.genesis

end Finalised

/-- Finalised with the output 5. -/
theorem outputs_representable_sample :
    ∃ history s, Run (Finalised.world 5) Sample.genesis history s ∧ s.asyncHashes.length = 1 ∧
      OutputsRepresentable Finalised.params s := by
  have hrun : (Finalised.exec 5).map (·.2.asyncHashes.length) = some 1 := by decide +kernel
  obtain ⟨⟨history, s⟩, hs, hlen⟩ := Option.map_eq_some_iff.mp hrun
  have hR := World.exec_run (fun _ _ => rfl) .nil hs
  refine ⟨history, s, hR, hlen, outputs_representable Finalised.genesis_spec ?_ hR⟩
  rintro bridge inA inB outA outB nonce aux t r rfl _ _
  have hfive : (5 : Word).toNat < 2 ^ 252 := by decide
  have hzero : (0 : Word).toNat < 2 ^ 252 := by decide
  exact ⟨hfive, hzero⟩

/-- Finalised with the output `2 ^ 252`, the interaction is queued all the same. -/
theorem finalised_unrepresentable :
    ∃ history s, Genesis Finalised.params Sample.genesis ∧
      Run (Finalised.world (2 ^ 252)) Sample.genesis history s ∧
      ∃ h ∈ s.asyncHashes, ∀ i ∈ s.produced, i.hash Finalised.params = h → ¬ i.Representable := by
  have hrun : (Finalised.exec (2 ^ 252)).map
      (fun r => (r.2.asyncHashes.length, r.2.produced.map (·.outputValueA))) =
        some (1, [2 ^ 252]) := by
    decide +kernel
  obtain ⟨⟨history, s⟩, hs, hstate⟩ := Option.map_eq_some_iff.mp hrun
  have hR := World.exec_run (fun _ _ => rfl) .nil hs
  simp only [Prod.mk.injEq] at hstate
  obtain ⟨hlen, hout⟩ := hstate
  obtain ⟨h, hqueue⟩ := List.length_eq_one_iff.mp hlen
  refine ⟨history, s, Finalised.genesis_spec, hR, h, by simp [hqueue], ?_⟩
  intro i hi _ hrep
  have hvalue : i.outputValueA ∈ s.produced.map (·.outputValueA) := List.mem_map_of_mem hi
  rw [hout, List.mem_singleton] at hvalue
  have hrange := hrep.outputA
  rw [hvalue] at hrange
  have hbig : ¬ (2 ^ 252 : Word).toNat < 2 ^ 252 := by decide +kernel
  exact hbig hrange

end AztecConnect.Contract
