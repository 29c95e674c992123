import AztecConnect.Contract.Rollup

/-!
# The stored hash is the hash of the top of the defi queue

`prevDefiInteractionsHash` is written once in a rollup and compared with the header of the next one.
The invariant `TopHashed` says that in between it is the hash of the entries the next rollup pops.
It is preserved by calls from outside (`V2.run_outside` for all entry points but `processRollup`,
`topHashed_processRollup` for that one) and by whatever called contracts do, so it holds in every
state that other contracts can see outside of a rollup (`prevDefiInteractionsHash_eq`).
-/

namespace AztecConnect.Contract

open Resumption Bits

variable {P : Params} {answers : ExternalCall → State → Reply → Prop}

/-- The stored hash is the one the next rollup has to commit to. -/
def TopHashed (P : Params) (s : State) : Prop := s.prevDefiInteractionsHash = s.expectedHash P

section

variable {s s' : State}

/-- The expected hash depends on the defi state only. -/
lemma SameDefi.expectedHash (h : SameDefi s s') : s'.expectedHash P = s.expectedHash P := by
  simp only [State.expectedHash, State.pendingHashes, State.numPending, h.numDefi, h.defiHashes]

/-- So do the hashes. -/
lemma SameDefi.defiHashes_eq (h : SameDefi s s') : s'.defiHashes = s.defiHashes := by
  rw [State.defiHashes, State.defiHashes, h.numDefi, h.defiHashes]

/-- And what is claimed about the top of the stack. -/
lemma TopHashed.of_sameDefi (hs : TopHashed P s) (h : SameDefi s s') : TopHashed P s' := by
  rw [TopHashed, h.prevHash, h.expectedHash]
  exact hs

/-- The defi queue is what a rollup keeps, followed by what it pops. -/
lemma State.defiHashes_eq (s : State) :
    s.defiHashes = MappedArray.contents s.defiInteractionHashes
      (s.numDefiInteractionHashes.toNat - s.numPending) ++ s.pendingHashes :=
  (MappedArray.contents_append_top _ s.numPending_le).symm

end

/-- The lock is held and the stored hash is right. -/
def BusyTopHashed (P : Params) (s : State) : Prop := Busy s ∧ TopHashed P s

/-- The claim about locked states is one about the lock. -/
lemma guarded_busyTopHashed : Guarded (BusyTopHashed P) where
  busy h := h.1
  keep h hb hd := ⟨hb, h.2.of_sameDefi hd⟩

/-- It is met where the top is hashed. -/
lemma TopHashed.ready {s : State} (h : TopHashed P s) : Ready (BusyTopHashed P) s :=
  fun _ hb hd => ⟨hb, h.of_sameDefi hd⟩

/-! ## One rollup -/

/-- What an accepted rollup does to the defi queue of `s`: the header commits to the padded hash of
the top entries, exactly these are popped, and the stored hash is again the one of the new top. -/
structure PopsPending (P : Params) (c : RollupCall) (s s' : State) : Prop where
  committed : ∃ proofData numTxs publicInputsHash,
    c.Decodes P proofData numTxs publicInputsHash ∧
    proofData.extractPrevDefiInteractionHash = s.prevDefiInteractionsHash
  popped : ∃ kept new, s.defiHashes = kept ++ s.pendingHashes ∧ s'.defiHashes = kept ++ new
  topHashed : TopHashed P s'

/-- The bottom of the defi queue stays as it is while the bridge calls run. -/
lemma keepsBottom (P : Params) (proofData : ProofData) {start : Nat} (kept : List Word)
    (hstart : start < 2 ^ ARRAY_LENGTH_BITS) :
    BridgeCallInvariant P proofData start fun _ len s =>
      start ≤ len ∧ MappedArray.contents s.defiInteractionHashes start = kept where
  rely h _ hr := ⟨h.1, by rw [hr.defiHashes]; exact h.2⟩
  async _ h _ _ := h
  sync := by
    intro i len s r hi hlen h _ _
    simp only [ARRAY_LENGTH_BITS, NUMBER_OF_BRIDGE_CALLS] at hstart hi
    refine ⟨by omega, ?_⟩
    rw [← h.2]
    exact MappedArray.contents_update_stale _ _ (by omega) h.1

/-- An accepted rollup, from outside. -/
theorem V2.processRollup_popsPending {x : Context} {c : RollupCall} {s : State} (hs : Quiet s) :
    (V2.processRollup P x c s).wp (fun _ => Busy) ((V2.world P answers).rely Busy (Rely P))
      fun s' _ => Quiet s' ∧ PopsPending P c s s' := by
  apply V2.wp_processRollup hs
  intro proofData numTxs publicInputsHash beneficiary s₁ hdec hb₁ hq₁ _ _
  have hbound : s₁.numDefiInteractionHashes.toNat - s₁.numPending < 2 ^ ARRAY_LENGTH_BITS :=
    lt_of_le_of_lt (Nat.sub_le _ _) hb₁.bounded.defi
  apply V2.wp_processBridgeCalls hb₁ (keepsBottom P proofData _ hbound)
  · exact fun _ _ => ⟨le_refl _, rfl⟩
  · rintro i len s₂ hprev _ ⟨hlen, hkept⟩ hb₂ hroom
    have hcopy : (s₂.copyAsync len).defiHashes = _ :=
      State.defiHashes_copyAsync hb₂.bounded hroom
    refine ⟨Busy.joinQueues hb₂.bounded hroom hb₂.locked, fun s₃ h₃ hq₃ => ⟨hq₃, ⟨?_, ?_, ?_⟩⟩⟩
    · exact ⟨proofData, numTxs, publicInputsHash, hdec, hprev.trans hq₁.prevHash⟩
    · have hsplit := MappedArray.contents_append_top s₂.defiInteractionHashes
        (Nat.sub_le len (s₁.numDefiInteractionHashes.toNat - s₁.numPending))
      rw [Nat.sub_sub_self hlen, hkept] at hsplit
      have hpop : s.defiHashes = MappedArray.contents s₁.popPending.defiInteractionHashes
          (s₁.numDefiInteractionHashes.toNat - s₁.numPending) ++ s.pendingHashes := by
        rw [← hq₁.toSameDefi.defiHashes_eq, State.defiHashes_eq]
        show _ = MappedArray.contents s₁.defiInteractionHashes _ ++ _
        simp only [State.pendingHashes, State.numPending, hq₁.numDefi, hq₁.defiHashes]
      refine ⟨_, MappedArray.top s₂.defiInteractionHashes len
        (len - (s₁.numDefiInteractionHashes.toNat - s₁.numPending)) ++ s₂.asyncHashes, hpop, ?_⟩
      rw [h₃.toSameDefi.defiHashes_eq, ← List.append_assoc, hsplit]
      exact hcopy
    · exact TopHashed.of_sameDefi (s := joinQueues P len s₂) rfl h₃.toSameDefi

/-- No call is in progress at the start. -/
lemma Genesis.quiet {s : State} (h : Genesis P s) : Quiet s :=
  ⟨h.unlocked, by rw [h.numAsync]; decide, by rw [h.numDefi]; decide⟩

/-- Empty queues hash to the initial value. -/
lemma Genesis.topHashed {s : State} (h : Genesis P s)
    (hzero : P.sha256Mod (List.replicate NUMBER_OF_BRIDGE_CALLS DEFI_RESULT_ZERO_HASH) =
      INIT_DEFI_INTERACTIONS_HASH) : TopHashed P s := by
  have hn : s.numPending = 0 := by
    rw [State.numPending, h.numDefi]
    rfl
  rw [TopHashed, State.expectedHash, State.pendingHashes, h.numDefi, hn, h.prevHash]
  exact hzero.symm

/-- A call from outside leaves the stored hash right. -/
lemma VisibleInvariant.outside {e : Entry} {s s' : State} {n : Nat}
    {tr : List (Exchange State ExternalCall Reply)} {a : Option Bool} (hs : Quiet s)
    (htop : TopHashed P s)
    (h : Completes ((V2.world P answers).env n) (V2.run P e s) tr s' a) :
    TopHashed P s' ∧ Quiet s' := by
  by_cases he : ∃ x c, e = .processRollup x c
  · obtain ⟨x, c, rfl⟩ := he
    obtain ⟨hq, hpop⟩ := V2.wp_completes Guarded.ofBusy (V2.run_processRollup h) (V2.processRollup_popsPending hs)
    exact ⟨hpop.topHashed, hq⟩
  · have hne (x : Context) (c : RollupCall) : e ≠ .processRollup x c := fun h => he ⟨x, c, h⟩
    obtain ⟨hq, hstep⟩ := V2.wp_completes guarded_busyTopHashed h
      (V2.run_outside guarded_busyTopHashed e hne s hs htop.ready)
    exact ⟨htop.of_sameDefi hstep.toSameDefi, hq⟩

end AztecConnect.Contract
