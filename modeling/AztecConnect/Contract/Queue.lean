import AztecConnect.Contract.Entries

/-!
# The two queues of interaction hashes

The abstract view of the interaction bookkeeping: the contents of the two mapping-emulated arrays as
lists (`asyncHashes`, `defiHashes`), the interactions resolved so far as the log shows them
(`produced`), and what a stretch of execution outside `processRollup` may do to all of these
(`QueueStep`): resolve pending interactions, each at most once, and append their hashes to the async
queue. `Rely` adds what is fixed while the contract is locked. Both are reflexive and transitive.
-/

namespace AztecConnect.Contract

open Resumption Bits

/-- A resolved interaction, as `DefiBridgeProcessed` publishes it. -/
structure Interaction where
  encodedBridgeCallData : Word
  nonce : Word
  totalInputValue : Word
  outputValueA : Word
  outputValueB : Word
  result : Bool
  deriving DecidableEq

/-- Its hash. -/
def Interaction.hash (P : Params) (i : Interaction) : Word :=
  P.defiInteractionHash i.encodedBridgeCallData i.nonce i.totalInputValue i.outputValueA
    i.outputValueB i.result

/-- The interaction an event publishes. -/
def Event.interaction? : Event → Option Interaction
  | .DefiBridgeProcessed encodedBridgeCallData nonce totalInputValue outA outB result _ =>
    some ⟨encodedBridgeCallData, nonce, totalInputValue, outA, outB, result⟩
  | _ => none

namespace State

variable (s : State)

/-- The interactions resolved so far, oldest first. -/
def produced : List Interaction := s.logs.filterMap Event.interaction?

/-- `asyncDefiInteractionHashes[0..numAsync)`. -/
def asyncHashes : List Word :=
  MappedArray.contents s.asyncDefiInteractionHashes s.numAsyncDefiInteractionHashes.toNat

/-- `defiInteractionHashes[0..numDefi)`. -/
def defiHashes : List Word :=
  MappedArray.contents s.defiInteractionHashes s.numDefiInteractionHashes.toNat

/-- The interaction of this nonce waits to be finalised. -/
def Pending (nonce : Word) : Prop := (s.pendingDefiInteractions nonce).encodedBridgeCallData ≠ 0

/-- Both lengths fit `ARRAY_LENGTH_MASK`. -/
structure Bounded : Prop where
  async : s.numAsyncDefiInteractionHashes.toNat < 2 ^ ARRAY_LENGTH_BITS
  defi : s.numDefiInteractionHashes.toNat < 2 ^ ARRAY_LENGTH_BITS

/-- Number of pending hashes one rollup consumes. -/
def numPending : Nat := min NUMBER_OF_BRIDGE_CALLS s.numDefiInteractionHashes.toNat

/-- The hashes the next rollup consumes. -/
def pendingHashes : List Word :=
  MappedArray.top s.defiInteractionHashes s.numDefiInteractionHashes.toNat s.numPending

end State

/-! ## The packed word -/

section Fields

variable {s : State}

/-- The mask of the assembly loses nothing while the lengths are bounded. -/
lemma State.asyncArrayLen_eq (h : s.Bounded) :
    s.asyncArrayLen = s.numAsyncDefiInteractionHashes := by
  exact field_eq_of_lt (by decide) h.async

/-- Two readings of the length of the defi queue. -/
lemma State.defiArrayLen_eq (h : s.Bounded) : s.defiArrayLen = s.numDefiInteractionHashes := by
  exact field_eq_of_lt (by decide) h.defi

/-- A lock is a byte. -/
lemma Lock.toWord_lt (l : Lock) : l.toWord.toNat < 2 ^ 8 := by cases l <;> decide

/-- The lock that is set. -/
@[simp] lemma State.lock_setLock (l : Lock) : (s.setLock l).lock = l.toWord :=
  field_setField_self _ l.toWord_lt (by decide)

/-- Writing outside a queue length leaves it alone. -/
lemma State.numAsync_setRollupState {off len : Nat} {v : Word} (hv : v.toNat < 2 ^ len)
    (hd : off + len ≤ 192 ∨ 208 ≤ off) :
    (s.setRollupState off len v).numAsyncDefiInteractionHashes =
      s.numAsyncDefiInteractionHashes :=
  field_setField_of_disjoint _ hv (by simp only [ASYNCDEFIINTERACTIONHASHES_BIT_OFFSET]; omega)

/-- Other fields leave the length of the defi queue. -/
lemma State.numDefi_setRollupState {off len : Nat} {v : Word} (hv : v.toNat < 2 ^ len)
    (hd : off + len ≤ 208 ∨ 224 ≤ off) :
    (s.setRollupState off len v).numDefiInteractionHashes = s.numDefiInteractionHashes :=
  field_setField_of_disjoint _ hv (by simp only [DEFIINTERACTIONHASHES_BIT_OFFSET]; omega)

/-- Other fields leave the lock. -/
lemma State.lock_setRollupState {off len : Nat} {v : Word} (hv : v.toNat < 2 ^ len)
    (hd : off + len ≤ 224 ∨ 232 ≤ off) : (s.setRollupState off len v).lock = s.lock :=
  field_setField_of_disjoint _ hv (by simp only [LOCK_BIT_OFFSET]; omega)

/-- The length that is set. -/
lemma State.numDefi_set {v : Word} (hs : s.Bounded) (hv : v.toNat < 2 ^ ARRAY_LENGTH_BITS) :
    (s.setRollupState DEFIINTERACTIONHASHES_BIT_OFFSET ARRAY_LENGTH_BITS v
      ).numDefiInteractionHashes = v :=
  field_setField_prefix _ hv (by decide) (by decide) hs.defi

/-- The lock is not a length. -/
@[simp] lemma State.numAsync_setLock (l : Lock) :
    (s.setLock l).numAsyncDefiInteractionHashes = s.numAsyncDefiInteractionHashes :=
  State.numAsync_setRollupState l.toWord_lt (by decide)

/-- Nor of the other queue. -/
@[simp] lemma State.numDefi_setLock (l : Lock) :
    (s.setLock l).numDefiInteractionHashes = s.numDefiInteractionHashes :=
  State.numDefi_setRollupState l.toWord_lt (by decide)

end Fields

/-! ## Resolving interactions -/

variable (P : Params)

/-- From `s` to `s'`, exactly the pending interactions `new` were resolved, in this order. -/
structure Results (s : State) (new : List Interaction) (s' : State) : Prop where
  produced : s'.produced = s.produced ++ new
  async : s'.asyncHashes = s.asyncHashes ++ new.map (Interaction.hash P)
  nodup : (new.map Interaction.nonce).Nodup
  completed : ∀ i ∈ new, s.Pending i.nonce ∧ ¬ s'.Pending i.nonce ∧
    s.pendingDefiInteractions i.nonce = ⟨i.encodedBridgeCallData, i.totalInputValue⟩
  untouched : ∀ n, n ∉ new.map Interaction.nonce →
    s'.pendingDefiInteractions n = s.pendingDefiInteractions n
  room : new = [] ∨
    s'.numAsyncDefiInteractionHashes.toNat + s'.numDefiInteractionHashes.toNat ≤ 512

/-- The defi queue and the stored hash of its top are the same. -/
structure SameDefi (s s' : State) : Prop where
  numDefi : s'.numDefiInteractionHashes = s.numDefiInteractionHashes
  defiHashes : s'.defiInteractionHashes = s.defiInteractionHashes
  prevHash : s'.prevDefiInteractionsHash = s.prevDefiInteractionsHash

/-- What execution outside `processRollup` does to the queues. -/
structure QueueStep (s s' : State) : Prop extends SameDefi s s' where
  results : ∃ new, Results P s new s'

/-- What is fixed while the lock is held. -/
structure Frame (s s' : State) : Prop where
  lock : s'.lock = s.lock
  stateHash : s'.rollupStateHash = s.rollupStateHash
  deposits : s'.userPendingDeposits = s.userPendingDeposits
  assets : s'.supportedAssets = s.supportedAssets
  assetGas : s'.assetGasLimits = s.assetGasLimits
  proxy : s'.defiBridgeProxy = s.defiBridgeProxy

/-- What code outside the contract can make of the storage while the lock is held. -/
structure Rely (s s' : State) : Prop extends QueueStep P s s', Frame s s'

variable {P}

/-- Nothing was resolved. -/
lemma Results.none {s s' : State} (hp : s'.produced = s.produced)
    (ha : s'.asyncHashes = s.asyncHashes)
    (hi : s'.pendingDefiInteractions = s.pendingDefiInteractions) : Results P s [] s' where
  produced := by rw [hp, List.append_nil]
  async := by rw [ha, List.map_nil, List.append_nil]
  nodup := List.nodup_nil
  completed := by simp
  untouched := fun n _ => congrFun hi n
  room := .inl rfl

/-- Resolving in two stretches. An interaction resolved in the first is not pending in the second. -/
lemma Results.trans {s s' s'' : State} {new new' : List Interaction}
    (hd : s''.numDefiInteractionHashes = s'.numDefiInteractionHashes)
    (h : Results P s new s') (h' : Results P s' new' s'') : Results P s (new ++ new') s'' := by
  have hdisj : ∀ i ∈ new, ∀ j ∈ new', i.nonce ≠ j.nonce := by
    intro i hi j hj e
    exact (h.completed i hi).2.1 (e ▸ (h'.completed j hj).1)
  have hnew {i : Interaction} (hi : i ∈ new) : i.nonce ∉ new'.map Interaction.nonce := by
    intro hm
    obtain ⟨j, hj, e⟩ := List.mem_map.mp hm
    exact hdisj i hi j hj e.symm
  have hnew' {j : Interaction} (hj : j ∈ new') : j.nonce ∉ new.map Interaction.nonce := by
    intro hm
    obtain ⟨i, hi, e⟩ := List.mem_map.mp hm
    exact hdisj i hi j hj e
  refine ⟨?_, ?_, ?_, ?_, ?_, ?_⟩
  · rw [h'.produced, h.produced, List.append_assoc]
  · rw [h'.async, h.async, List.map_append, List.append_assoc]
  · rw [List.map_append, List.nodup_append]
    refine ⟨h.nodup, h'.nodup, ?_⟩
    intro a ha b hb
    obtain ⟨i, hi, rfl⟩ := List.mem_map.mp ha
    obtain ⟨j, hj, rfl⟩ := List.mem_map.mp hb
    exact hdisj i hi j hj
  · intro i hi
    rcases List.mem_append.mp hi with hi | hi
    · obtain ⟨h₁, h₂, h₃⟩ := h.completed i hi
      refine ⟨h₁, ?_, h₃⟩
      rw [State.Pending, h'.untouched _ (hnew hi)]
      exact h₂
    · obtain ⟨h₁, h₂, h₃⟩ := h'.completed i hi
      rw [State.Pending, h.untouched _ (hnew' hi)] at h₁
      rw [h.untouched _ (hnew' hi)] at h₃
      exact ⟨h₁, h₂, h₃⟩
  · intro n hn
    rw [List.map_append, List.mem_append, not_or] at hn
    rw [h'.untouched n hn.2, h.untouched n hn.1]
  · rcases h'.room with e | hle
    · -- nothing resolved in the second stretch: the lengths are those after the first
      subst e
      rcases h.room with e | hle
      · exact .inl (by simp [e])
      · right
        have hlen := congrArg List.length h'.async
        simp only [State.asyncHashes, MappedArray.length_contents, List.map_nil,
          List.append_nil] at hlen
        rw [hd, hlen]
        exact hle
    · exact .inr hle

/-- A defi queue that stays twice stays. -/
lemma SameDefi.trans {s s' s'' : State} (h : SameDefi s s') (h' : SameDefi s' s'') :
    SameDefi s s'' :=
  ⟨h'.numDefi.trans h.numDefi, h'.defiHashes.trans h.defiHashes, h'.prevHash.trans h.prevHash⟩

/-- The queues may stay. -/
@[refl] lemma QueueStep.refl (s : State) : QueueStep P s s :=
  ⟨⟨rfl, rfl, rfl⟩, [], .none rfl rfl rfl⟩

/-- Two queue steps are one. -/
lemma QueueStep.trans {s s' s'' : State} (h : QueueStep P s s') (h' : QueueStep P s' s'') :
    QueueStep P s s'' := by
  obtain ⟨new, hr⟩ := h.results
  obtain ⟨new', hr'⟩ := h'.results
  exact ⟨h.toSameDefi.trans h'.toSameDefi, new ++ new', hr.trans h'.numDefi hr'⟩

/-- A state frames itself. -/
lemma Frame.refl (s : State) : Frame s s := ⟨rfl, rfl, rfl, rfl, rfl, rfl⟩

/-- What stays twice stays. -/
lemma Frame.trans {s s' s'' : State} (h : Frame s s') (h' : Frame s' s'') : Frame s s'' :=
  ⟨h'.lock.trans h.lock, h'.stateHash.trans h.stateHash, h'.deposits.trans h.deposits,
    h'.assets.trans h.assets, h'.assetGas.trans h.assetGas, h'.proxy.trans h.proxy⟩

/-- Other contracts may do nothing. -/
lemma Rely.refl (s : State) : Rely P s s := ⟨.refl s, .refl s⟩

/-- What they do twice they can do. -/
lemma Rely.trans {s s' s'' : State} (h : Rely P s s') (h' : Rely P s' s'') : Rely P s s'' :=
  ⟨h.toQueueStep.trans h'.toQueueStep, h.toFrame.trans h'.toFrame⟩

/-- Steps that touch neither the queues nor the pending interactions nor what they publish. -/
lemma QueueStep.of_eq {s s' : State}
    (ha : s'.numAsyncDefiInteractionHashes = s.numAsyncDefiInteractionHashes)
    (hd : s'.numDefiInteractionHashes = s.numDefiInteractionHashes)
    (hah : s'.asyncDefiInteractionHashes = s.asyncDefiInteractionHashes)
    (hdh : s'.defiInteractionHashes = s.defiInteractionHashes)
    (hpr : s'.prevDefiInteractionsHash = s.prevDefiInteractionsHash)
    (hpe : s'.pendingDefiInteractions = s.pendingDefiInteractions)
    (hlo : s'.produced = s.produced) : QueueStep P s s' :=
  ⟨⟨hd, hdh, hpr⟩, [], .none hlo (by simp only [State.asyncHashes, ha, hah]) hpe⟩

/-- The lengths stay bounded: the async queue grows only within the limit of 512. -/
lemma QueueStep.bounded {s s' : State} (h : QueueStep P s s') (hs : s.Bounded) : s'.Bounded := by
  obtain ⟨new, hr⟩ := h.results
  refine ⟨?_, by rw [h.numDefi]; exact hs.defi⟩
  rcases hr.room with e | hle
  · subst e
    have hlen := congrArg List.length hr.async
    simp only [State.asyncHashes, MappedArray.length_contents, List.map_nil,
      List.append_nil] at hlen
    rw [hlen]
    exact hs.async
  · simp only [ARRAY_LENGTH_BITS]
    omega

end AztecConnect.Contract
