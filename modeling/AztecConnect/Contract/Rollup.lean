import AztecConnect.Contract.Outside

/-!
# The rule of `processRollup`

`processRollup` pops the pending hashes off the defi queue, appends the results of the rollup's own
bridge calls under a length it keeps in memory, and at the end moves the async queue over and stores
the hash of the new top. Called contracts resolve other interactions in between.

`V2.wp_processBridgeCalls` is the rule for this: an invariant `I i len` of the state after `i` bridge
calls, with the in-memory length `len`, that is preserved by what called contracts do and by the two
ways of recording a result, holds of the state the queues are joined in (`joinQueues`).
`V2.wp_processRollup` puts it into the whole function.
-/

namespace AztecConnect.Contract

open Resumption Bits

variable {P : Params} {answers : ExternalCall → State → Reply → Prop}

/-! ## The expected hash -/

/-- The hash of the next batch, padded to `NUMBER_OF_BRIDGE_CALLS`. -/
def State.expectedHash (P : Params) (s : State) : Word :=
  P.sha256Mod (s.pendingHashes ++
    List.replicate (NUMBER_OF_BRIDGE_CALLS - s.numPending) DEFI_RESULT_ZERO_HASH)

/-- The two lengths the assembly works with. -/
lemma getDefiHashesLengths_eq {s : State} (hs : s.Bounded) :
    V2.getDefiHashesLengthsAndNumPendingInteractions s =
      (s.numDefiInteractionHashes, BitVec.ofNat 256 s.numPending) := by
  have hd := hs.defi
  simp only [ARRAY_LENGTH_BITS] at hd
  simp only [V2.getDefiHashesLengthsAndNumPendingInteractions, State.defiArrayLen_eq hs,
    State.numPending, NUMBER_OF_BRIDGE_CALLS]
  congr 1
  split
  · have hmin : min 32 s.numDefiInteractionHashes.toNat = 32 := by bv_omega
    rw [hmin]
  · have hmin : min 32 s.numDefiInteractionHashes.toNat = s.numDefiInteractionHashes.toNat := by
      bv_omega
    rw [hmin, BitVec.ofNat_toNat, BitVec.setWidth_eq]

/-- The pending interactions are in the queue. -/
lemma State.numPending_le (s : State) : s.numPending ≤ s.numDefiInteractionHashes.toNat :=
  Nat.min_le_right _ _

/-- `getPendingAndNextExpectedHashes` returns the top of the queue and its padded hash. -/
lemma getPendingAndNextExpectedHashes_eq {s : State} (hs : s.Bounded) :
    V2.getPendingAndNextExpectedHashes P s = (s.pendingHashes, s.expectedHash P) := by
  have hd := hs.defi
  have hle := s.numPending_le
  have h32 : s.numPending ≤ 32 := Nat.min_le_left _ _
  simp only [ARRAY_LENGTH_BITS] at hd
  have hnum : (BitVec.ofNat 256 s.numPending).toNat = s.numPending := by
    rw [BitVec.toNat_ofNat, Nat.mod_eq_of_lt (by omega)]
  have hkey (i : Nat) : s.numDefiInteractionHashes - BitVec.ofNat 256 s.numPending +
      BitVec.ofNat 256 i =
        BitVec.ofNat 256 (s.numDefiInteractionHashes.toNat - s.numPending + i) := by
    apply BitVec.eq_of_toNat_eq
    simp only [BitVec.toNat_add, BitVec.toNat_sub, BitVec.toNat_ofNat]
    omega
  have htop : s.pendingHashes = (List.range s.numPending).map fun i =>
      s.defiInteractionHashes (s.numDefiInteractionHashes - BitVec.ofNat 256 s.numPending +
        BitVec.ofNat 256 i) := by
    rw [State.pendingHashes, MappedArray.top_eq_map _ hle]
    exact List.map_congr_left fun i _ => by rw [hkey]
  simp only [V2.getPendingAndNextExpectedHashes, getDefiHashesLengths_eq hs,
    pendingAndNextExpectedHashes, hnum, State.expectedHash, htop]

/-! ## Joining the queues -/

/-- The storage after the pending hashes were popped. -/
def State.popPending (s : State) : State :=
  s.setRollupState DEFIINTERACTIONHASHES_BIT_OFFSET ARRAY_LENGTH_BITS
    (BitVec.ofNat 256 (s.numDefiInteractionHashes.toNat - s.numPending))

/-- The storage after the async queue was moved onto the defi queue of length `length`. -/
def State.copyAsync (length : Nat) (s : State) : State :=
  (({ s with
    defiInteractionHashes := MappedArray.copyFrom s.asyncDefiInteractionHashes length 0
      s.numAsyncDefiInteractionHashes.toNat s.defiInteractionHashes } : State).setRollupState
    DEFIINTERACTIONHASHES_BIT_OFFSET ARRAY_LENGTH_BITS
      (BitVec.ofNat 256 (s.numAsyncDefiInteractionHashes.toNat + length))).setRollupState
    ASYNCDEFIINTERACTIONHASHES_BIT_OFFSET ARRAY_LENGTH_BITS 0

/-- The end of `processBridgeCalls`: join the queues and store the hash of the new top. -/
def joinQueues (P : Params) (length : Nat) (s : State) : State :=
  { s.copyAsync length with prevDefiInteractionsHash := (s.copyAsync length).expectedHash P }

section Join

variable {s : State} {length : Nat}

/-- Numbers below 1024 survive the round trip through a word. -/
lemma toNat_ofNat_length {n : Nat} (h : n < 2 ^ ARRAY_LENGTH_BITS) :
    (BitVec.ofNat 256 n).toNat = n := by
  simp only [ARRAY_LENGTH_BITS] at h
  rw [BitVec.toNat_ofNat, Nat.mod_eq_of_lt (by omega)]

/-- What remains fits the length field. -/
lemma State.popPending_lt (hs : s.Bounded) :
    (BitVec.ofNat 256 (s.numDefiInteractionHashes.toNat - s.numPending)).toNat <
      2 ^ ARRAY_LENGTH_BITS := by
  have hd := hs.defi
  rw [toNat_ofNat_length (by omega)]
  omega

/-- Popping takes the pending interactions out of the length. -/
lemma State.numDefi_popPending (hs : s.Bounded) :
    s.popPending.numDefiInteractionHashes.toNat =
      s.numDefiInteractionHashes.toNat - s.numPending := by
  have hd := hs.defi
  rw [State.popPending, State.numDefi_set hs (State.popPending_lt hs),
    toNat_ofNat_length (by omega)]

/-- The async queue stays. -/
lemma State.numAsync_popPending (hs : s.Bounded) :
    s.popPending.numAsyncDefiInteractionHashes = s.numAsyncDefiInteractionHashes :=
  State.numAsync_setRollupState (State.popPending_lt hs) (by decide)

/-- So does the lock. -/
lemma State.lock_popPending (hs : s.Bounded) : s.popPending.lock = s.lock :=
  State.lock_setRollupState (State.popPending_lt hs) (by decide)

/-- The lengths stay bounded. -/
lemma State.bounded_popPending (hs : s.Bounded) : s.popPending.Bounded where
  async := by
    rw [State.numAsync_popPending hs]
    exact hs.async
  defi := by
    rw [State.numDefi_popPending hs]
    have hd := hs.defi
    omega

/-- The contract stays locked. -/
lemma Busy.popPending (hs : Busy s) : Busy s.popPending where
  locked := by rw [State.lock_popPending hs.bounded]; exact hs.locked
  bounded := State.bounded_popPending hs.bounded

variable (hs : s.Bounded)
  (hl : s.numAsyncDefiInteractionHashes.toNat + length < 2 ^ ARRAY_LENGTH_BITS)

include hs hl

/-- The async hashes are added behind `length` others. -/
lemma State.numDefi_copyAsync : (s.copyAsync length).numDefiInteractionHashes.toNat =
    s.numAsyncDefiInteractionHashes.toNat + length := by
  have hset := State.numDefi_set (v := BitVec.ofNat 256
    (s.numAsyncDefiInteractionHashes.toNat + length)) hs (by rw [toNat_ofNat_length hl]; exact hl)
  have hkeep : (s.copyAsync length).numDefiInteractionHashes = _ :=
    State.numDefi_setRollupState (v := 0) (by decide) (by decide)
  rw [hkeep]
  exact (congrArg BitVec.toNat hset).trans (toNat_ofNat_length hl)

/-- The async queue is empty then. -/
lemma State.numAsync_copyAsync : (s.copyAsync length).numAsyncDefiInteractionHashes = 0 := by
  have hlt : (BitVec.ofNat 256 (s.numAsyncDefiInteractionHashes.toNat + length)).toNat <
      2 ^ ARRAY_LENGTH_BITS := by
    rw [toNat_ofNat_length hl]
    exact hl
  have hkeep : (s.setRollupState DEFIINTERACTIONHASHES_BIT_OFFSET ARRAY_LENGTH_BITS
      (BitVec.ofNat 256 (s.numAsyncDefiInteractionHashes.toNat + length))
      ).numAsyncDefiInteractionHashes = _ :=
    State.numAsync_setRollupState hlt (by decide)
  have hbound : (s.setRollupState DEFIINTERACTIONHASHES_BIT_OFFSET ARRAY_LENGTH_BITS
      (BitVec.ofNat 256 (s.numAsyncDefiInteractionHashes.toNat + length))
      ).numAsyncDefiInteractionHashes.toNat < 2 ^ ARRAY_LENGTH_BITS := by
    rw [hkeep]
    exact hs.async
  exact field_setField_prefix _ (by decide) (by decide) (by decide) hbound

omit hs in

/-- The lock stays. -/
lemma State.lock_copyAsync : (s.copyAsync length).lock = s.lock := by
  have hlt : (BitVec.ofNat 256 (s.numAsyncDefiInteractionHashes.toNat + length)).toNat <
      2 ^ ARRAY_LENGTH_BITS := by
    rw [toNat_ofNat_length hl]
    exact hl
  have h₁ : (s.setRollupState DEFIINTERACTIONHASHES_BIT_OFFSET ARRAY_LENGTH_BITS
      (BitVec.ofNat 256 (s.numAsyncDefiInteractionHashes.toNat + length))).lock = s.lock :=
    State.lock_setRollupState hlt (by decide)
  refine Eq.trans ?_ h₁
  exact State.lock_setRollupState (by decide) (by decide)

/-- The lengths stay bounded. -/
lemma State.bounded_copyAsync : (s.copyAsync length).Bounded := by
  refine ⟨?_, ?_⟩
  · rw [State.numAsync_copyAsync hs hl]
    decide
  · rw [State.numDefi_copyAsync hs hl]
    exact hl

/-- Joining the queues keeps the lock. -/
lemma Busy.joinQueues (hlock : s.lock ≠ Lock.UNLOCKED.toWord) : Busy (joinQueues P length s) where
  locked := by
    show (s.copyAsync length).lock ≠ _
    rw [State.lock_copyAsync hl]
    exact hlock
  bounded :=
    have h := State.bounded_copyAsync hs hl
    ⟨h.async, h.defi⟩

/-- The defi queue gets the async queue at its end. -/
lemma State.defiHashes_copyAsync : (s.copyAsync length).defiHashes =
    MappedArray.contents s.defiInteractionHashes length ++ s.asyncHashes := by
  have hbits : 2 ^ ARRAY_LENGTH_BITS ≤ 2 ^ 256 := by decide
  rw [State.defiHashes, State.numDefi_copyAsync hs hl, Nat.add_comm]
  exact MappedArray.contents_copyFrom_zero _ _ _ _ (by omega)

/-- No async hash remains. -/
lemma State.asyncHashes_copyAsync : (s.copyAsync length).asyncHashes = [] := by
  rw [State.asyncHashes, State.numAsync_copyAsync hs hl]
  rfl

end Join

/-! ## The rule of `processBridgeCalls` -/

section BridgeCalls

variable {G : ExternalCall → State → Prop} {R : Env State ExternalCall Reply}

/-- If the rollup names the stored hash, its interactions are popped. -/
lemma wp_popPendingInteractions {proofData : ProofData} {s : State} {Q : State → Word → Prop}
    (hs : s.Bounded)
    (h : proofData.extractPrevDefiInteractionHash = s.prevDefiInteractionsHash →
      Q s.popPending (BitVec.ofNat 256 (s.numDefiInteractionHashes.toNat - s.numPending))) :
    (V2.popPendingInteractions proofData s).wp G R Q := by
  have hlen : s.numDefiInteractionHashes - BitVec.ofNat 256 s.numPending =
      BitVec.ofNat 256 (s.numDefiInteractionHashes.toNat - s.numPending) := by
    have hle := s.numPending_le
    apply BitVec.eq_of_toNat_eq
    simp only [BitVec.toNat_sub, BitVec.toNat_ofNat]
    have hd := hs.defi
    simp only [ARRAY_LENGTH_BITS] at hd
    omega
  simp only [V2.popPendingInteractions, Prog.wp_bind, Prog.wp_get, Prog.wp_require,
    getDefiHashesLengths_eq hs, Prog.wp_modify, Prog.wp_pure, hlen]
  exact h

/-- With room the async hashes are copied. -/
lemma wp_copyAsyncHashes {s : State} {length : Nat} {Q : State → Unit → Prop} (hs : s.Bounded)
    (hl : length < 2 ^ ARRAY_LENGTH_BITS)
    (h : s.numAsyncDefiInteractionHashes.toNat + length < 2 ^ ARRAY_LENGTH_BITS →
      Q (s.copyAsync length) ()) :
    (V2.copyAsyncHashes (BitVec.ofNat 256 length) s).wp G R Q := by
  have ha := hs.async
  simp only [ARRAY_LENGTH_BITS] at ha hl
  have hsum : s.numAsyncDefiInteractionHashes + BitVec.ofNat 256 length =
      BitVec.ofNat 256 (s.numAsyncDefiInteractionHashes.toNat + length) := by
    apply BitVec.eq_of_toNat_eq
    simp only [BitVec.toNat_add, BitVec.toNat_ofNat]
    omega
  simp only [V2.copyAsyncHashes, Prog.wp_bind, Prog.wp_get, Prog.wp_require, Prog.wp_modify,
    State.asyncArrayLen_eq hs, hsum, toNat_ofNat_length (n := length)
      (by simp only [ARRAY_LENGTH_BITS]; exact hl)]
  intro hroom
  apply h
  have hmask : (mask 256 ARRAY_LENGTH_BITS).toNat = 1023 := by decide
  rw [BitVec.lt_def, hmask, BitVec.toNat_ofNat] at hroom
  simp only [ARRAY_LENGTH_BITS]
  omega

/-- The expected hash of the pending interactions is stored. -/
lemma wp_updatePrevDefiInteractionsHash {s : State} {Q : State → List Word → Prop}
    (hs : s.Bounded)
    (h : Q { s with prevDefiInteractionsHash := s.expectedHash P } s.pendingHashes) :
    (V2.updatePrevDefiInteractionsHash P s).wp G R Q := by
  simp only [V2.updatePrevDefiInteractionsHash, Prog.wp_bind, Prog.wp_get, Prog.wp_modify,
    Prog.wp_pure, getPendingAndNextExpectedHashes_eq hs]
  exact h

end BridgeCalls

/-- The nonce of the `i`-th bridge call of a rollup. -/
def ProofData.interactionNonce (proofData : ProofData) (i : Nat) : Word :=
  proofData.getRollupId * BitVec.ofNat 256 NUMBER_OF_BRIDGE_CALLS + BitVec.ofNat 256 i

/-- An interaction that stays pending produces no result. -/
lemma produced_recordAsync (e v n : Word) (s : State) :
    (recordAsync e v n s).produced = s.produced :=
  produced_emit s (e := .AsyncDefiBridgeProcessed e n v) rfl

/-- One that is answered at once does. -/
lemma produced_recordSync (e v n l : Word) (r : BridgeResult) (s : State) :
    (recordSync P e v n r l s).produced =
      s.produced ++ [⟨e, n, v, r.outputValueA, r.outputValueB, r.success⟩] := by
  show (s.logs ++ [_]).filterMap _ = _
  rw [List.filterMap_append]
  rfl

/-- An invariant of the loop of `processBridgeCalls`: of the storage after `i` bridge calls, the
defi queue having length `len` in memory. `start` is the length the loop begins with. -/
structure BridgeCallInvariant (P : Params) (proofData : ProofData) (start : Nat)
    (I : Nat → Nat → State → Prop) : Prop where
  rely : ∀ {i len s s'}, I i len s → Busy s → Rely P s s' → I i len s'
  async : ∀ {i len s}, i < NUMBER_OF_BRIDGE_CALLS → I i len s → Busy s →
    proofData.bridgeCallData i ≠ 0 →
    I (i + 1) len (recordAsync (proofData.bridgeCallData i) (proofData.depositSum i)
      (proofData.interactionNonce i) s)
  sync : ∀ {i len s} (r : BridgeResult), i < NUMBER_OF_BRIDGE_CALLS → len ≤ start + i →
    I i len s → Busy s → proofData.bridgeCallData i ≠ 0 →
    I (i + 1) (len + 1) (recordSync P (proofData.bridgeCallData i) (proofData.depositSum i)
      (proofData.interactionNonce i) r (BitVec.ofNat 256 len) s)

/-- Two invariants of the loop together. -/
lemma BridgeCallInvariant.and {proofData : ProofData} {start : Nat} {I I' : Nat → Nat → State → Prop}
    (h : BridgeCallInvariant P proofData start I) (h' : BridgeCallInvariant P proofData start I') :
    BridgeCallInvariant P proofData start fun i len s => I i len s ∧ I' i len s where
  rely hi hb hr := ⟨h.rely hi.1 hb hr, h'.rely hi.2 hb hr⟩
  async hlt hi hb hne := ⟨h.async hlt hi.1 hb hne, h'.async hlt hi.2 hb hne⟩
  sync r hlt hlen hi hb hne := ⟨h.sync r hlt hlen hi.1 hb hne, h'.sync r hlt hlen hi.2 hb hne⟩

/-- The loop leaves the state hash alone. -/
lemma keepsStateHash (P : Params) (proofData : ProofData) (start : Nat) (h : Word) :
    BridgeCallInvariant P proofData start fun _ _ s => s.rollupStateHash = h where
  rely hi _ hr := hr.stateHash.trans hi
  async _ hi _ _ := hi
  sync _ _ _ hi _ _ := hi

section Loop

variable {x : Context} {beneficiary : Address} {proofData : ProofData} {start : Nat}
  {I : Nat → Nat → State → Prop}

/-- Recording it keeps the lock. -/
lemma Busy.recordAsync {s : State} (hs : Busy s) (e v n : Word) : Busy (recordAsync e v n s) :=
  ⟨hs.locked, hs.bounded.async, hs.bounded.defi⟩

/-- So does recording its result. -/
lemma Busy.recordSync {s : State} (hs : Busy s) (e v n : Word) (r : BridgeResult) (l : Word) :
    Busy (recordSync P e v n r l s) :=
  ⟨hs.locked, hs.bounded.async, hs.bounded.defi⟩

/-- One bridge call. -/
lemma wp_processBridgeCall (hI : BridgeCallInvariant P proofData start I) {i len : Nat} {s : State}
    (hi : i < NUMBER_OF_BRIDGE_CALLS) (hlen : len ≤ start + i) (hs : Busy s) (h : I i len s)
    (hne : proofData.bridgeCallData i ≠ 0) :
    (V2.processBridgeCall P x beneficiary (proofData.bridgeCallData i) (proofData.depositSum i)
        (proofData.interactionNonce i) (BitVec.ofNat 256 len) s).wp (fun _ => Busy)
      ((V2.world P answers).rely Busy (Rely P)) fun s' len' =>
        Busy s' ∧ ∃ l, len' = BitVec.ofNat 256 l ∧ l ≤ start + (i + 1) ∧ I (i + 1) l s' := by
  simp only [V2.processBridgeCall, Prog.wp_bind]
  have : Pays (relyDiscipline P answers Busy) := pays_rely Guarded.ofBusy
  refine Res.wp_mono ?_ (Discipline.Keeps.runBridgeCall (D := relyDiscipline P answers Busy)
    (fun _ _ h => h) _ _ _ _ _ _ s hs)
  rintro s₁ r ⟨hb : Busy s₁, hr : Rely P s s₁⟩
  have h₁ := hI.rely h hs hr
  simp only [Prog.wp_ite, Prog.wp_bind, Prog.wp_modify, Prog.wp_pure]
  refine ⟨fun _ => ?_, fun _ => ?_⟩
  · exact ⟨hb.recordAsync _ _ _, len, rfl, by omega, hI.async hi h₁ hb hne⟩
  · refine ⟨hb.recordSync _ _ _ _ _, len + 1, ?_, by omega, hI.sync r hi hlen h₁ hb hne⟩
    rw [BitVec.ofNat_add]
    rfl

/-- The loop, from the `i`-th call on. -/
lemma wp_bridgeCallLoop (hI : BridgeCallInvariant P proofData start I) (n : Nat) {i len : Nat}
    {s : State} (hn : i + n = NUMBER_OF_BRIDGE_CALLS) (hlen : len ≤ start + i) (hs : Busy s)
    (h : I i len s) :
    (V2.bridgeCallLoop P x beneficiary proofData n i (proofData.interactionNonce i)
        (BitVec.ofNat 256 len) s).wp (fun _ => Busy)
      ((V2.world P answers).rely Busy (Rely P)) fun s' len' =>
        Busy s' ∧ ∃ j l, len' = BitVec.ofNat 256 l ∧ j ≤ NUMBER_OF_BRIDGE_CALLS ∧
          l ≤ start + j ∧ I j l s' := by
  induction n generalizing i len s with
  | zero => exact ⟨hs, i, len, rfl, by omega, hlen, h⟩
  | succ n ih =>
    simp only [V2.bridgeCallLoop, Prog.wp_ite, Prog.wp_bind, Prog.wp_pure]
    refine ⟨fun _ => ⟨hs, i, len, rfl, by omega, hlen, h⟩, fun hne => ?_⟩
    refine Res.wp_mono ?_ (wp_processBridgeCall hI (by omega) hlen hs h hne)
    rintro s₁ len' ⟨hb, l, rfl, hl, h₁⟩
    have hnonce : proofData.interactionNonce i + 1 = proofData.interactionNonce (i + 1) := by
      rw [ProofData.interactionNonce, ProofData.interactionNonce, BitVec.ofNat_add,
        BitVec.add_assoc]
      rfl
    rw [hnonce]
    exact ih (by omega) hl hb h₁

/-- The rule of `processBridgeCalls`. -/
theorem V2.wp_processBridgeCalls {s : State} {Q : State → List Word → Prop} (hs : Busy s)
    (hI : BridgeCallInvariant P proofData (s.numDefiInteractionHashes.toNat - s.numPending) I)
    (hstart : proofData.extractPrevDefiInteractionHash = s.prevDefiInteractionsHash →
      proofData.getRollupId.toNat * NUMBER_OF_BRIDGE_CALLS < 2 ^ 256 →
      I 0 (s.numDefiInteractionHashes.toNat - s.numPending) s.popPending)
    (hend : ∀ i len s₁, proofData.extractPrevDefiInteractionHash = s.prevDefiInteractionsHash →
      i ≤ NUMBER_OF_BRIDGE_CALLS → I i len s₁ → Busy s₁ →
      s₁.numAsyncDefiInteractionHashes.toNat + len < 2 ^ ARRAY_LENGTH_BITS →
      Q (joinQueues P len s₁) (s₁.copyAsync len).pendingHashes) :
    (V2.processBridgeCalls P x proofData beneficiary s).wp (fun _ => Busy)
      ((V2.world P answers).rely Busy (Rely P)) Q := by
  simp only [V2.processBridgeCalls, Prog.wp_bind]
  apply wp_popPendingInteractions hs.bounded
  intro hprev
  rw [Prog.wp_ofExcept]
  intro base hbase
  have hnonce : proofData.getRollupId.toNat * NUMBER_OF_BRIDGE_CALLS < 2 ^ 256 ∧
      base = proofData.interactionNonce 0 := by
    unfold firstInteractionNonce at hbase
    split at hbase
    · cases hbase
    · cases hbase
      refine ⟨by omega, ?_⟩
      rw [ProofData.interactionNonce]
      exact (BitVec.add_zero _).symm
  obtain ⟨hid, rfl⟩ := hnonce
  refine Res.wp_mono ?_ (wp_bridgeCallLoop hI NUMBER_OF_BRIDGE_CALLS (Nat.zero_add _)
    (le_refl _) hs.popPending (hstart hprev hid))
  rintro s₁ len' ⟨hb, j, l, rfl, hj, hl, h₁⟩
  have hl' : l < 2 ^ ARRAY_LENGTH_BITS := by
    have hd := hs.bounded.defi
    simp only [State.numPending, NUMBER_OF_BRIDGE_CALLS, ARRAY_LENGTH_BITS] at *
    omega
  apply wp_copyAsyncHashes hb.bounded hl'
  intro hroom
  apply wp_updatePrevDefiInteractionsHash (State.bounded_copyAsync hb.bounded hroom)
  exact hend j l s₁ hprev hj h₁ hb hroom

end Loop

/-! ## The rule of `processRollup` -/

/-- Updating the roots keeps the async queue. -/
lemma State.numAsync_updateRoots (s : State) (h : Word) (d : BitVec 32) :
    (s.updateRoots h d).numAsyncDefiInteractionHashes = s.numAsyncDefiInteractionHashes := by
  have hd : (d.setWidth 256).toNat < 2 ^ 32 := by
    rw [BitVec.toNat_setWidth]
    exact lt_of_le_of_lt (Nat.mod_le _ _) d.isLt
  exact State.numAsync_setRollupState (s := { s with rollupStateHash := h }) hd (by decide)

/-- It keeps both queues, and the lock. -/
lemma QueueStep.updateRoots (s : State) (h : Word) (d : BitVec 32) :
    QueueStep P s (s.updateRoots h d) ∧ (s.updateRoots h d).lock = s.lock := by
  have hd : (d.setWidth 256).toNat < 2 ^ 32 := by
    rw [BitVec.toNat_setWidth]
    exact lt_of_le_of_lt (Nat.mod_le _ _) d.isLt
  refine ⟨.of_eq (State.numAsync_updateRoots s h d) ?_ rfl rfl rfl rfl rfl, ?_⟩
  · exact State.numDefi_setRollupState (s := { s with rollupStateHash := h }) hd (by decide)
  · exact State.lock_setRollupState (s := { s with rollupStateHash := h }) hd (by decide)

/-- Verifying the proof moves the state hash from the old to the new tuple of the header. -/
lemma wp_verifyProofAndUpdateState {x : Context} {cd : Calldata} {start length : Nat}
    {proofData : ProofData} {publicInputsHash : Word} {s : State} {Q : State → Word → Prop}
    (hs : Busy s)
    (h : ∀ s₁, Busy s₁ → QueueStep P s s₁ → s₁.lock = s.lock →
      P.keccak256 proofData.oldStateTuple = s.rollupStateHash →
      s₁.rollupStateHash = P.keccak256 proofData.newStateTuple →
      Q s₁ proofData.getRollupId) :
    (verifyProofAndUpdateState P x cd start length proofData publicInputsHash s).wp
      (fun _ => Busy) ((V2.world P answers).rely Busy (Rely P)) Q := by
  simp only [verifyProofAndUpdateState, validateAndUpdateMerkleRoots, Prog.wp_bind,
    Prog.wp_require, Prog.wp_get, Prog.wp_request, Prog.wp_ofExcept, Prog.wp_modify, Prog.wp_pure]
  refine fun _ _ => ⟨hs, ?_⟩
  rintro r s₁ ⟨-, -, hb, hr⟩ - roots hroots hold - -
  have heq : roots.oldStateHash = P.keccak256 proofData.oldStateTuple ∧
      roots.newStateHash = P.keccak256 proofData.newStateTuple ∧
      roots.rollupId = proofData.getRollupId := by
    simp only [computeRootHashes] at hroots
    split at hroots
    · cases hroots
    · cases hroots
      exact ⟨rfl, rfl, rfl⟩
  obtain ⟨ho, hn, hid⟩ := heq
  obtain ⟨hq, hl⟩ := QueueStep.updateRoots (P := P) s₁ roots.newStateHash
    (roots.dataStartIndex + roots.numDataLeaves)
  have hb' : Busy (s₁.updateRoots roots.newStateHash
      (roots.dataStartIndex + roots.numDataLeaves)) :=
    ⟨by rw [hl]; exact hb.locked, hq.bounded hb.bounded⟩
  rw [hid]
  refine h _ hb' (hr.toQueueStep.trans hq) (hl.trans hr.lock) ?_ hn
  rw [← ho, hold, hr.stateHash]

/-- What `decodeProof` makes of the calldata of a call. -/
def RollupCall.Decodes (P : Params) (c : RollupCall) (proofData : ProofData)
    (numTxs publicInputsHash : Word) : Prop :=
  ∃ start length signatures, c.arguments = some (start, length, signatures) ∧
    decodeProof P c.calldata start c.memoryPast = .ok (proofData, numTxs, publicInputsHash)

/-- The header and the transaction count are read off the calldata. -/
lemma RollupCall.Decodes.header_eq {c : RollupCall} {p : ProofData} {numTxs h : Word}
    (hdec : c.Decodes P p numTxs h) : ∃ start, c.arguments.map Prod.fst = some start ∧
      p.header = (encoding c.calldata start).header ∧
      numTxs = (encoding c.calldata start).numTxs := by
  obtain ⟨start, length, signatures, hargs, hdec⟩ := hdec
  refine ⟨start, by rw [hargs]; rfl, ?_⟩
  simp only [decodeProof, bind, Except.bind, pure, Except.pure] at hdec
  split at hdec
  · cases hdec
  · split at hdec
    · cases hdec
    · split at hdec
      · cases hdec
      · cases hdec
        exact ⟨rfl, rfl⟩

/-- The rule of `processRollup` around its bridge calls: they start with the proof verified and the
state hash updated, and after them only the fees are paid. -/
theorem V2.wp_processRollup {x : Context} {c : RollupCall} {s : State} {Q : State → Unit → Prop}
    (hs : Quiet s)
    (h : ∀ proofData numTxs publicInputsHash beneficiary s₁,
      c.Decodes P proofData numTxs publicInputsHash →
      Busy s₁ → QueueStep P s s₁ → P.keccak256 proofData.oldStateTuple = s.rollupStateHash →
      s₁.rollupStateHash = P.keccak256 proofData.newStateTuple →
      (V2.processBridgeCalls P x proofData beneficiary s₁).wp (fun _ => Busy)
        ((V2.world P answers).rely Busy (Rely P)) fun s₂ _ =>
          Busy s₂ ∧ ∀ s₃, QuietStep P s₂ s₃ → Quiet s₃ → Q s₃ ()) :
    (V2.processRollup P x c s).wp (fun _ => Busy)
      ((V2.world P answers).rely Busy (Rely P)) Q := by
  simp only [V2.processRollup, processRollupWith, Prog.wp_bind, Prog.wp_ofOption]
  rintro ⟨start, length, signatures⟩ hargs
  simp only [whenNotPaused, Prog.wp_bind, Prog.wp_get, Prog.wp_require]
  intro _
  apply wp_withLock
  simp only [processRollupBody, Prog.wp_bind]
  refine Res.wp_mono ?_ (Discipline.Keeps.checkProvider
    (D := lockedDiscipline P answers Busy) P x
    (fun s _ => LockedStep.allows Guarded.ofBusy (.of_eq rfl rfl rfl rfl rfl rfl rfl)) _
    (hs.setLock (by decide)))
  rintro s₁ - ⟨hb₁ : Busy s₁, h₁ : LockedStep P _ s₁⟩
  simp only [Prog.wp_ofExcept]
  rintro ⟨proofData, numTxs, publicInputsHash⟩ hdecode beneficiary -
  simp only [processRollupProof, Prog.wp_bind]
  apply wp_verifyProofAndUpdateState hb₁
  intro s₂ hb₂ hq₂ hl₂ hold hnew
  refine Res.wp_mono ?_ (Discipline.Keeps.depositsAndWithdrawals
    (D := lockedDiscipline P answers Busy) P
    (fun _ _ _ => .decreasePendingDepositBalance _ _ _ fun s _ =>
      LockedStep.allows Guarded.ofBusy (.of_eq rfl rfl rfl rfl rfl rfl rfl)) _ _ _ s₂ hb₂)
  rintro s₃ - ⟨hb₃ : Busy s₃, h₃ : LockedStep P s₂ s₃⟩
  have hq : QueueStep P s s₃ :=
    (QueueStep.setLock s _).trans (h₁.toQueueStep.trans (hq₂.trans h₃.toQueueStep))
  have hold' : P.keccak256 proofData.oldStateTuple = s.rollupStateHash :=
    hold.trans h₁.stateHash
  refine Res.wp_mono ?_ (h proofData numTxs publicInputsHash beneficiary s₃
    ⟨start, length, signatures, hargs, hdecode⟩ hb₃ hq hold' (h₃.stateHash.trans hnew))
  rintro s₄ hashes ⟨hb₄, hQ⟩
  simp only [Prog.wp_modify]
  have hemit : LockedStep P s₄ (s₄.emit (.RollupProcessed proofData.getRollupId hashes x.sender)) :=
    .of_eq rfl rfl rfl rfl rfl rfl (produced_emit s₄ rfl)
  refine Res.wp_mono ?_ (Discipline.Keeps.transferFee
    (D := relyDiscipline P answers Busy) _ _ _ (hemit.busy hb₄))
  rintro s₅ - ⟨hb₅ : Busy s₅, h₅ : Rely P _ s₅⟩
  refine hQ _ ⟨?_, h₅.stateHash⟩ hb₅.unlock
  exact (hemit.toQueueStep.trans h₅.toQueueStep).trans (QueueStep.setLock s₅ .UNLOCKED)

/-- The entry point is the function without a return value. -/
lemma V2.run_processRollup {E : Env State ExternalCall Reply} {x : Context} {c : RollupCall}
    {s s' : State} {tr : List (Exchange State ExternalCall Reply)} {a : Option Bool}
    (h : Completes E (V2.run P (.processRollup x c) s) tr s' a) :
    Completes E (V2.processRollup P x c s) tr s' () := by
  obtain ⟨tr₁, tr₂, s₁, _, rfl, h₁, h₂⟩ := Completes.bind_inv h
  obtain ⟨rfl, rfl, -⟩ := h₂.done_inv
  rw [List.append_nil]
  exact h₁

end AztecConnect.Contract
