import AztecConnect.Contract.ExpectedHash

/-!
# Every interaction hash is accounted for

The ledger of the interaction hashes: whatever was produced is either consumed by a rollup, or in
one of the two queues, and no nonce produced two of them (`Ledger`). Resolving pending interactions
moves hashes within the ledger (`Ledger.results`), and so do the bridge calls of a rollup
(`ledgerInvariant`). Over a run the nonces of different rollups differ because the state hash binds
the rollup id (`Accounting`); that is where collision-freeness of the state hash is used, for the
tuples that occur in the run. The main result is `Run.accounting`.
-/

namespace AztecConnect.Contract

open Resumption Bits

variable {P : Params} {answers : ExternalCall → State → Reply → Prop}

/-! ## The ledger -/

/-- Whatever was produced is consumed or in one of the queues. -/
def Booked (P : Params) (consumed defi : List Word) (s : State) : Prop :=
  (s.produced.map (Interaction.hash P)).Perm (consumed ++ defi ++ s.asyncHashes)

section

variable {s s' : State} {consumed defi : List Word}

/-- Resolving pending interactions queues the hashes of what it publishes. -/
lemma Booked.results {new : List Interaction} (h : Booked P consumed defi s)
    (hr : Results P s new s') : Booked P consumed defi s' := by
  rw [Booked, hr.produced, hr.async, List.map_append, ← List.append_assoc]
  exact h.append_right _

/-- A step of the queues keeps the books. -/
lemma Booked.queueStep (h : Booked P consumed defi s) (hq : QueueStep P s s') :
    Booked P consumed defi s' := by
  obtain ⟨new, hr⟩ := hq.results
  exact h.results hr

/-- The hash of a synchronous result is pushed onto the defi queue. -/
lemma Booked.recordSync {len : Nat}
    (h : Booked P consumed (MappedArray.contents s.defiInteractionHashes len) s) (e v n : Word)
    (r : BridgeResult) (hlen : len < 2 ^ 256) :
    let s' := recordSync P e v n r (BitVec.ofNat 256 len) s
    Booked P consumed (MappedArray.contents s'.defiInteractionHashes (len + 1)) s' := by
  intro s'
  have hprod : s'.produced =
      s.produced ++ [⟨e, n, v, r.outputValueA, r.outputValueB, r.success⟩] :=
    produced_recordSync e v n _ r s
  have hpush : MappedArray.contents s'.defiInteractionHashes (len + 1) =
      MappedArray.contents s.defiInteractionHashes len ++ [P.defiInteractionHash e n v
        r.outputValueA r.outputValueB r.success] := MappedArray.contents_push _ _ hlen
  have hasync : s'.asyncHashes = s.asyncHashes := rfl
  rw [Booked, hprod, hpush, hasync, List.map_append, List.map_cons, List.map_nil]
  refine (List.Perm.append_right _ h).trans ?_
  simp only [List.append_assoc]
  exact (List.perm_append_comm.append_left _).append_left _

/-- Popping moves hashes from the queue to the consumed ones. -/
lemma Booked.popPending (h : Booked P consumed s.defiHashes s) (hs : s.Bounded) :
    Booked P (consumed ++ s.pendingHashes) (MappedArray.contents s.defiInteractionHashes
      (s.numDefiInteractionHashes.toNat - s.numPending)) s.popPending := by
  have hasync : s.popPending.asyncHashes = s.asyncHashes := by
    rw [State.asyncHashes, State.numAsync_popPending hs]
    rfl
  rw [Booked, hasync]
  refine List.Perm.trans h (List.Perm.append_right _ ?_)
  rw [State.defiHashes_eq s, List.append_assoc]
  exact List.perm_append_comm.append_left _

/-- Moving the async queue over keeps the books. -/
lemma Booked.join {len : Nat}
    (h : Booked P consumed (MappedArray.contents s.defiInteractionHashes len) s) (hs : s.Bounded)
    (hroom : s.numAsyncDefiInteractionHashes.toNat + len < 2 ^ ARRAY_LENGTH_BITS) :
    Booked P consumed (joinQueues P len s).defiHashes (joinQueues P len s) := by
  have hd : (s.copyAsync len).defiHashes = _ := State.defiHashes_copyAsync hs hroom
  have ha : (s.copyAsync len).asyncHashes = _ := State.asyncHashes_copyAsync hs hroom
  change (Contract.joinQueues P len s).defiHashes = _ at hd
  change (Contract.joinQueues P len s).asyncHashes = _ at ha
  rw [Booked, hd, ha, List.append_nil, ← List.append_assoc]
  exact h

end

/-- The books of the interaction hashes, `defi` being the contents of the defi queue and `consumed`
what rollups took off it. Nonces below `bound` have been handed out. -/
structure Ledger (P : Params) (consumed defi : List Word) (bound : Nat) (s : State) : Prop where
  perm : (s.produced.map (Interaction.hash P)).Perm (consumed ++ defi ++ s.asyncHashes)
  nodup : (s.produced.map Interaction.nonce).Nodup
  resolved : ∀ i ∈ s.produced, ¬ s.Pending i.nonce ∧ i.nonce.toNat < bound
  pending : ∀ n, s.Pending n → n.toNat < bound

section

variable {s s' : State} {consumed defi : List Word} {bound : Nat} {new : List Interaction}

/-- Resolving pending interactions keeps the books. -/
lemma Ledger.results (h : Ledger P consumed defi bound s) (hr : Results P s new s') :
    Ledger P consumed defi bound s' := by
  have hpend (n : Word) (hn : n ∈ new.map Interaction.nonce) : s.Pending n ∧ ¬ s'.Pending n := by
    obtain ⟨i, hi, rfl⟩ := List.mem_map.mp hn
    exact ⟨(hr.completed i hi).1, (hr.completed i hi).2.1⟩
  refine ⟨Booked.results h.perm hr, ?_, ?_, ?_⟩
  · rw [hr.produced, List.map_append, List.nodup_append]
    refine ⟨h.nodup, hr.nodup, ?_⟩
    intro a ha b hb hab
    obtain ⟨i, hi, rfl⟩ := List.mem_map.mp ha
    exact (h.resolved i hi).1 (hab ▸ (hpend b hb).1)
  · intro i hi
    rw [hr.produced] at hi
    rcases List.mem_append.mp hi with hi | hi
    · obtain ⟨hnp, hlt⟩ := h.resolved i hi
      have hn : i.nonce ∉ new.map Interaction.nonce := fun hn => hnp (hpend _ hn).1
      refine ⟨?_, hlt⟩
      rw [State.Pending, hr.untouched _ hn]
      exact hnp
    · obtain ⟨hp, hnp⟩ := hpend _ (List.mem_map_of_mem hi)
      exact ⟨hnp, h.pending _ hp⟩
  · intro n hn
    by_cases hm : n ∈ new.map Interaction.nonce
    · exact absurd hn (hpend n hm).2
    · rw [State.Pending, hr.untouched n hm] at hn
      exact h.pending n hn

/-- And the ledger. -/
lemma Ledger.queueStep (h : Ledger P consumed defi bound s) (hq : QueueStep P s s') :
    Ledger P consumed defi bound s' := by
  obtain ⟨new, hr⟩ := hq.results
  exact h.results hr

/-- A larger bound. -/
lemma Ledger.mono (h : Ledger P consumed defi bound s) {bound' : Nat} (hb : bound ≤ bound') :
    Ledger P consumed defi bound' s where
  perm := h.perm
  nodup := h.nodup
  resolved i hi := ⟨(h.resolved i hi).1, (h.resolved i hi).2.trans_le hb⟩
  pending n hn := (h.pending n hn).trans_le hb

/-- An interaction of the next nonce is left pending. -/
lemma Ledger.recordAsync (h : Ledger P consumed defi bound s) {e v n : Word} (hn : n.toNat = bound) :
    Ledger P consumed defi (bound + 1) (recordAsync e v n s) := by
  have hprod := produced_recordAsync e v n s
  have hother {m : Word} (hm : m ≠ n) :
      (Contract.recordAsync e v n s).Pending m ↔ s.Pending m := by
    simp [State.Pending, Contract.recordAsync, hm]
  refine ⟨?_, ?_, ?_, ?_⟩
  · rw [hprod]
    exact h.perm
  · rw [hprod]
    exact h.nodup
  · intro i hi
    rw [hprod] at hi
    obtain ⟨hnp, hlt⟩ := h.resolved i hi
    have hne : i.nonce ≠ n := by
      rintro rfl
      omega
    exact ⟨fun hp => hnp ((hother hne).mp hp), by omega⟩
  · intro m hm
    by_cases hmn : m = n
    · subst hmn
      omega
    · have := h.pending m ((hother hmn).mp hm)
      omega

/-- An interaction of the next nonce is resolved at once, its hash pushed onto the defi queue. -/
lemma Ledger.recordSync {len : Nat}
    (h : Ledger P consumed (MappedArray.contents s.defiInteractionHashes len) bound s)
    {e v n : Word} (r : BridgeResult) (hn : n.toNat = bound) (hlen : len < 2 ^ 256) :
    let s' := recordSync P e v n r (BitVec.ofNat 256 len) s
    Ledger P consumed (MappedArray.contents s'.defiInteractionHashes (len + 1)) (bound + 1) s' := by
  intro s'
  have hprod : s'.produced =
      s.produced ++ [⟨e, n, v, r.outputValueA, r.outputValueB, r.success⟩] :=
    produced_recordSync e v n _ r s
  have hfresh : n ∉ s.produced.map Interaction.nonce := by
    intro hm
    obtain ⟨i, hi, rfl⟩ := List.mem_map.mp hm
    have := (h.resolved i hi).2
    omega
  have hpend (m : Word) : s'.Pending m ↔ s.Pending m := Iff.rfl
  refine ⟨Booked.recordSync h.perm e v n r hlen, ?_, ?_, ?_⟩
  · rw [hprod, List.map_append]
    refine List.nodup_append.mpr ⟨h.nodup, List.nodup_singleton _, ?_⟩
    intro a ha b hb hab
    rw [List.map_cons, List.map_nil, List.mem_singleton] at hb
    subst hb
    subst hab
    exact hfresh ha
  · intro i hi
    rw [hprod] at hi
    rcases List.mem_append.mp hi with hi | hi
    · have := (h.resolved i hi).2
      exact ⟨(h.resolved i hi).1, by omega⟩
    · rw [List.mem_singleton] at hi
      subst hi
      refine ⟨fun hp => ?_, ?_⟩
      · have := h.pending n ((hpend n).mp hp)
        omega
      · show n.toNat < bound + 1
        omega
  · intro m hm
    have := h.pending m ((hpend m).mp hm)
    omega

end

/-! ## One rollup -/

/-- Nonces of one rollup do not wrap around. -/
lemma ProofData.toNat_interactionNonce {p : ProofData} {i : Nat}
    (hid : p.getRollupId.toNat * NUMBER_OF_BRIDGE_CALLS < 2 ^ 256)
    (hi : i < NUMBER_OF_BRIDGE_CALLS) :
    (p.interactionNonce i).toNat = p.getRollupId.toNat * NUMBER_OF_BRIDGE_CALLS + i := by
  simp only [NUMBER_OF_BRIDGE_CALLS] at hid hi
  simp only [ProofData.interactionNonce, NUMBER_OF_BRIDGE_CALLS, BitVec.toNat_add,
    BitVec.toNat_mul, BitVec.toNat_ofNat]
  omega

/-- The books while the bridge calls of a rollup run. -/
lemma ledgerInvariant (P : Params) (p : ProofData) {start : Nat} (consumed : List Word)
    (hstart : start < 2 ^ ARRAY_LENGTH_BITS) :
    BridgeCallInvariant P p start fun i len s =>
      p.getRollupId.toNat * NUMBER_OF_BRIDGE_CALLS < 2 ^ 256 ∧
      Ledger P consumed (MappedArray.contents s.defiInteractionHashes len)
        (p.getRollupId.toNat * NUMBER_OF_BRIDGE_CALLS + i) s where
  rely h _ hr := ⟨h.1, by rw [hr.defiHashes]; exact h.2.queueStep hr.toQueueStep⟩
  async hi h _ _ := ⟨h.1, h.2.recordAsync (ProofData.toNat_interactionNonce h.1 hi)⟩
  sync := by
    intro i len s r hi hlen h _ _
    have hlt : len < 2 ^ 256 := by
      simp only [ARRAY_LENGTH_BITS, NUMBER_OF_BRIDGE_CALLS] at hstart hi
      omega
    exact ⟨h.1, h.2.recordSync r (ProofData.toNat_interactionNonce h.1 hi) hlt⟩

/-- Moving the async queue over keeps the books. -/
lemma Ledger.join {s : State} {consumed : List Word} {bound len : Nat}
    (h : Ledger P consumed (MappedArray.contents s.defiInteractionHashes len) bound s)
    (hs : s.Bounded)
    (hroom : s.numAsyncDefiInteractionHashes.toNat + len < 2 ^ ARRAY_LENGTH_BITS) :
    Ledger P consumed (joinQueues P len s).defiHashes bound (joinQueues P len s) :=
  ⟨Booked.join h.perm hs hroom, h.nodup, h.resolved, h.pending⟩

/-- An accepted rollup consumes the pending hashes, hands out nonces from `32 * rollupId` on, and
moves the state hash to the new tuple of the header. -/
theorem V2.processRollup_ledger {x : Context} {c : RollupCall} {s : State} {consumed : List Word}
    (hs : Quiet s)
    (hledger : ∀ proofData numTxs publicInputsHash, c.Decodes P proofData numTxs publicInputsHash →
      P.keccak256 proofData.oldStateTuple = s.rollupStateHash →
      Ledger P consumed s.defiHashes (proofData.getRollupId.toNat * NUMBER_OF_BRIDGE_CALLS) s) :
    (V2.processRollup P x c s).wp (fun _ => Busy) ((V2.world P answers).rely Busy (Rely P))
      fun s' _ => Quiet s' ∧ ∃ proofData numTxs publicInputsHash,
        c.Decodes P proofData numTxs publicInputsHash ∧
        P.keccak256 proofData.oldStateTuple = s.rollupStateHash ∧
        s'.rollupStateHash = P.keccak256 proofData.newStateTuple ∧
        proofData.getRollupId.toNat * NUMBER_OF_BRIDGE_CALLS < 2 ^ 256 ∧
        Ledger P (consumed ++ s.pendingHashes) s'.defiHashes
          ((proofData.getRollupId.toNat + 1) * NUMBER_OF_BRIDGE_CALLS) s' := by
  apply V2.wp_processRollup hs
  intro p numTxs publicInputsHash beneficiary s₁ hdec hb₁ hq₁ hold hnew
  have hbound : s₁.numDefiInteractionHashes.toNat - s₁.numPending < 2 ^ ARRAY_LENGTH_BITS :=
    lt_of_le_of_lt (Nat.sub_le _ _) hb₁.bounded.defi
  have h₁ := (hledger p numTxs publicInputsHash hdec hold).queueStep hq₁
  apply V2.wp_processBridgeCalls hb₁
    ((ledgerInvariant P p (consumed ++ s.pendingHashes) hbound).and
      (keepsStateHash P p _ (P.keccak256 p.newStateTuple)))
  · intro _ hid
    have hpend : s₁.pendingHashes = s.pendingHashes := by
      simp only [State.pendingHashes, State.numPending, hq₁.numDefi, hq₁.defiHashes]
    have hperm : Booked P consumed s₁.defiHashes s₁ := by
      rw [hq₁.toSameDefi.defiHashes_eq]
      exact h₁.perm
    refine ⟨⟨hid, ?_, h₁.nodup, h₁.resolved, h₁.pending⟩, hnew⟩
    rw [← hpend]
    exact hperm.popPending hb₁.bounded
  · rintro i len s₂ _ hi ⟨⟨hid, h₂⟩, hst⟩ hb₂ hroom
    refine ⟨Busy.joinQueues hb₂.bounded hroom hb₂.locked, fun s₃ h₃ hq₃ => ⟨hq₃, ?_⟩⟩
    refine ⟨p, numTxs, publicInputsHash, hdec, hold, h₃.stateHash.trans hst, hid, ?_⟩
    rw [h₃.toSameDefi.defiHashes_eq]
    refine ((h₂.join hb₂.bounded hroom).mono ?_).queueStep h₃.toQueueStep
    rw [Nat.add_mul, Nat.one_mul]
    exact Nat.add_le_add_left hi _

/-! ## Runs -/

/-- The hashes an accepted call consumed as previous interactions. -/
def consumedBy (call : Call Entry State ExternalCall Reply (Option Bool)) : List Word :=
  match call.entry with
  | .processRollup .. => call.before.pendingHashes
  | _ => []

/-- The hashes consumed in a run. -/
def consumed (history : List (Call Entry State ExternalCall Reply (Option Bool))) : List Word :=
  history.flatMap consumedBy

/-- The tuples whose hashes are compared in a run: the initial one, and the old and new ones of its
accepted rollups. -/
inductive StateTuple (P : Params) (s₀ : State)
    (history : List (Call Entry State ExternalCall Reply (Option Bool))) : List Word → Prop where
  | initial {dataRoot nullRoot rootRoot} :
      s₀.rollupStateHash = P.keccak256 [0, dataRoot, nullRoot, rootRoot, INIT_DEFI_ROOT] →
      StateTuple P s₀ history [0, dataRoot, nullRoot, rootRoot, INIT_DEFI_ROOT]
  | old {call x c proofData numTxs publicInputsHash} : call ∈ history →
      call.entry = .processRollup x c → c.Decodes P proofData numTxs publicInputsHash →
      StateTuple P s₀ history proofData.oldStateTuple
  | new {call x c proofData numTxs publicInputsHash} : call ∈ history →
      call.entry = .processRollup x c → c.Decodes P proofData numTxs publicInputsHash →
      StateTuple P s₀ history proofData.newStateTuple

/-- The books after a run: the state hash is that of a tuple for rollup `N`, and the nonces below
`32 * N` have been handed out. -/
structure Accounting (P : Params) (s₀ : State)
    (history : List (Call Entry State ExternalCall Reply (Option Bool))) (s : State) : Prop where
  quiet : Quiet s
  ledger : ∃ tuple N, StateTuple P s₀ history tuple ∧ tuple.head? = some N ∧
    s.rollupStateHash = P.keccak256 tuple ∧
    Ledger P (consumed history) s.defiHashes (N.toNat * NUMBER_OF_BRIDGE_CALLS) s

section Run

variable {s₀ s s' : State}
  {history : List (Call Entry State ExternalCall Reply (Option Bool))}
  {call : Call Entry State ExternalCall Reply (Option Bool)}

/-- A longer run has more tuples. -/
lemma StateTuple.append {t : List Word} (h : StateTuple P s₀ history t) :
    StateTuple P s₀ (history ++ [call]) t := by
  cases h with
  | initial h => exact .initial h
  | old hc he hd => exact .old (List.mem_append_left _ hc) he hd
  | new hc he hd => exact .new (List.mem_append_left _ hc) he hd

/-- The hashes consumed by one more call are added at the end. -/
lemma consumed_append : consumed (history ++ [call]) = consumed history ++ consumedBy call := by
  simp [consumed]

/-- Nothing has been produced at the start. -/
lemma Genesis.produced (h : Genesis P s₀) : s₀.produced = [] := by
  rw [State.produced, List.filterMap_eq_nil_iff]
  intro e he
  cases e with
  | DefiBridgeProcessed a b c d e f g => exact absurd he (h.logs a b c d e f g)
  | _ => rfl

/-- The books are right at the start. -/
lemma Genesis.booked (h : Genesis P s₀) : Booked P [] s₀.defiHashes s₀ := by
  rw [Booked, h.produced, State.defiHashes, State.asyncHashes, h.numDefi, h.numAsync]
  exact List.Perm.nil

/-- So is the account of the whole run. -/
lemma Genesis.accounting (h : Genesis P s₀) : Accounting P s₀ [] s₀ := by
  obtain ⟨dataRoot, nullRoot, rootRoot, hhash⟩ := h.stateHash
  refine ⟨h.quiet, _, 0, .initial hhash, rfl, hhash, h.booked, ?_, ?_, ?_⟩
  · rw [h.produced]
    exact List.nodup_nil
  · rw [h.produced]
    simp
  · exact fun n hn => absurd (h.pending n) hn

/-- A call other than `processRollup` keeps the books. -/
lemma Accounting.outside {e : Entry} {n : Nat} {tr : List (Exchange State ExternalCall Reply)}
    {a : Option Bool} (h : Accounting P s₀ history s) (he : ∀ x c, e ≠ .processRollup x c)
    (hc : Completes ((V2.world P answers).env n) (V2.run P e s) tr s' a) :
    Accounting P s₀ (history ++ [⟨e, s, tr, a, s'⟩]) s' := by
  obtain ⟨hq, hstep⟩ := V2.wp_completes Guarded.ofBusy hc
    (V2.run_outside Guarded.ofBusy e he s h.quiet (.ofBusy s))
  obtain ⟨tuple, N, htuple, hhead, hhash, hledger⟩ := h.ledger
  have hnone : consumedBy ⟨e, s, tr, a, s'⟩ = [] := by
    cases e with
    | processRollup x c => exact absurd rfl (he x c)
    | _ => rfl
  refine ⟨hq, tuple, N, htuple.append, hhead, hstep.stateHash.trans hhash, ?_⟩
  rw [consumed_append, hnone, List.append_nil, hstep.toSameDefi.defiHashes_eq]
  exact hledger.queueStep hstep.toQueueStep

/-- An accepted rollup keeps the books, the header's rollup id being the one the state hash binds. -/
lemma Accounting.processRollup {x : Context} {c : RollupCall} {n : Nat}
    {tr : List (Exchange State ExternalCall Reply)} {a : Option Bool}
    (h : Accounting P s₀ history s)
    (hinj : Set.InjOn P.keccak256
      {t | StateTuple P s₀ (history ++ [⟨.processRollup x c, s, tr, a, s'⟩]) t})
    (hc : Completes ((V2.world P answers).env n) (V2.run P (.processRollup x c) s) tr s' a) :
    Accounting P s₀ (history ++ [⟨.processRollup x c, s, tr, a, s'⟩]) s' := by
  obtain ⟨tuple, N, htuple, hhead, hhash, hledger⟩ := h.ledger
  obtain ⟨hq, p, numTxs, publicInputsHash, hdec, -, hnew, hid, hledger'⟩ :=
    V2.wp_completes Guarded.ofBusy (V2.run_processRollup hc) (V2.processRollup_ledger h.quiet (by
      intro p numTxs publicInputsHash hdec hold
      have hmem : StateTuple P s₀ (history ++ [⟨.processRollup x c, s, tr, a, s'⟩])
          p.oldStateTuple :=
        .old (List.mem_append_right history List.mem_cons_self) rfl hdec
      have heq := hinj htuple.append hmem (hhash.symm.trans hold.symm)
      rw [heq] at hhead
      obtain rfl : p.getRollupId = N := Option.some.inj hhead
      exact hledger))
  refine ⟨hq, _, p.getRollupId + 1, .new (List.mem_append_right _ List.mem_cons_self) rfl hdec,
    rfl, hnew, ?_⟩
  have hsucc : (p.getRollupId + 1).toNat = p.getRollupId.toNat + 1 := by
    simp only [NUMBER_OF_BRIDGE_CALLS] at hid
    bv_omega
  rw [consumed_append, hsucc]
  exact hledger'

/-- The books after every run. -/
lemma Run.accounting (hg : Genesis P s₀) (h : Run (V2.world P answers) s₀ history s)
    (hinj : Set.InjOn P.keccak256 {t | StateTuple P s₀ history t}) : Accounting P s₀ history s := by
  refine Run.invariant (I := fun history s =>
    Set.InjOn P.keccak256 {t | StateTuple P s₀ history t} → Accounting P s₀ history s) h
    (fun _ => hg.accounting) ?_ hinj
  intro history s₁ s₂ e tr a n ih hc hinj
  have hacc := ih (hinj.mono fun t ht => ht.append)
  by_cases he : ∃ x c, e = .processRollup x c
  · obtain ⟨x, c, rfl⟩ := he
    exact hacc.processRollup hinj hc
  · exact hacc.outside (fun x c hxc => he ⟨x, c, hxc⟩) hc

/-- Over every run of the contract, no nonce produces two interaction hashes, and the hashes produced
are, as a multiset, those consumed by accepted rollups, those in the defi queue and those in the
async queue. -/
theorem produced_accounted (hg : Genesis P s₀) (h : Run (V2.world P answers) s₀ history s)
    (hinj : Set.InjOn P.keccak256 {t | StateTuple P s₀ history t}) :
    (s.produced.map Interaction.nonce).Nodup ∧
    (s.produced.map (Interaction.hash P)).Perm
      (consumed history ++ s.defiHashes ++ s.asyncHashes) := by
  obtain ⟨tuple, N, -, -, -, hledger⟩ := (Run.accounting hg h hinj).ledger
  exact ⟨hledger.nodup, hledger.perm⟩

/-- The header of the sample rollup. -/
lemma Sample.call_header {p : ProofData} {numTxs h : Word}
    (hdec : Sample.call.Decodes Sample.params p numTxs h) :
    p.header = (encoding Sample.call.calldata 100).header := by
  obtain ⟨start, hstart, hheader, -⟩ := hdec.header_eq
  obtain rfl : 100 = start := by
    have h100 : Sample.call.arguments.map Prod.fst = some 100 := by decide +kernel
    exact Option.some.inj (h100.symm.trans hstart)
  exact hheader

/-- The tuples of the sample rollup. -/
lemma Sample.call_tuples {p : ProofData} {numTxs h : Word}
    (hdec : Sample.call.Decodes Sample.params p numTxs h) :
    p.oldStateTuple = [0, 11, 21, 31, INIT_DEFI_ROOT] ∧ p.newStateTuple = [1, 12, 22, 32, 42] := by
  rw [ProofData.oldStateTuple, ProofData.newStateTuple, Sample.call_header hdec]
  exact ⟨by decide +kernel, by decide +kernel⟩

/-- The state hashes of the sample rollup differ. -/
lemma Sample.keccak_injOn : Set.InjOn Sample.params.keccak256
    {t | t = [0, 11, 21, 31, INIT_DEFI_ROOT] ∨ t = [1, 12, 22, 32, 42]} := by
  have hne : Sample.params.keccak256 [0, 11, 21, 31, INIT_DEFI_ROOT] ≠
      Sample.params.keccak256 [1, 12, 22, 32, 42] := by decide
  rintro t (rfl | rfl) t' (rfl | rfl) h
  · rfl
  · exact absurd h hne
  · exact absurd h.symm hne
  · rfl

/-- The books of a deployment after one rollup with one bridge call. -/
theorem produced_accounted_sample :
    ∃ history s, Run (V2.world Sample.params fun _ _ _ => True) Sample.genesis history s ∧
      s.produced.length = 1 ∧
      (s.produced.map (Interaction.hash Sample.params)).Perm
        (consumed history ++ s.defiHashes ++ s.asyncHashes) := by
  have hrun : (Sample.run [.processRollup Sample.context Sample.call]).map (·.2.produced.length) =
      some 1 := by decide +kernel
  obtain ⟨⟨history, s⟩, hs, hn⟩ := Option.map_eq_some_iff.mp hrun
  have hR := World.exec_run (fun _ _ => trivial) .nil hs
  refine ⟨history, s, hR, hn, (produced_accounted Sample.genesis_spec hR ?_).2⟩
  refine Sample.keccak_injOn.mono ?_
  have hcall : ∀ call ∈ history, call.entry = .processRollup Sample.context Sample.call := by
    simp only [Sample.run, World.exec] at hs
    split at hs
    · cases hs
      simp
    · cases hs
  rintro t (@⟨dataRoot, nullRoot, rootRoot, h⟩ | ⟨hc, he, hd⟩ | ⟨hc, he, hd⟩)
  · left
    by_contra hne
    have h1 : [0, dataRoot, nullRoot, rootRoot, INIT_DEFI_ROOT] ≠ [1, 12, 22, 32, (42 : Word)] := by
      intro h
      simp at h
    have hzero : Sample.params.keccak256 [0, dataRoot, nullRoot, rootRoot, INIT_DEFI_ROOT] = 0 := by
      simp only [Sample.params, digestOf, List.find?, Ne.symm hne, Ne.symm h1, decide_false]
      rfl
    rw [hzero] at h
    exact absurd h (by decide)
  · cases (hcall _ hc).symm.trans he
    exact .inl (Sample.call_tuples hd).1
  · cases (hcall _ hc).symm.trans he
    exact .inr (Sample.call_tuples hd).2

end Run

end AztecConnect.Contract
