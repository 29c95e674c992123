import AztecConnect.Lib.Reassembly
import AztecConnect.Client.RollupProofData

/-!
# Offchain data

Translation of `barretenberg.js/src/offchain_tx_data/slice_offchain_tx_data.ts` and, from
`blockchain/src/contracts/rollup_processor/rollup_processor.ts`, of `createRollupTxs`,
`getOffchainDataEvents` and `decodeBlock`. The data of the transactions of a rollup are joined and cut
into chunks; the client collects the chunks from the events, joins them, and cuts the data again by the
types of the proofs. A complete publication is found whatever was published before it and by others
(`getOffchainDataEvents_complete`), and gives the data of each transaction (`decodeBlock_offchainTxData`).
-/

namespace AztecConnect.Client

open ByteFormat Reassembly RollupProof Serialize

/-! ## The data of a transaction -/

/-- `OffchainJoinSplitData.SIZE`. -/
def OffchainJoinSplitData.SIZE : Nat := 144 + 144 + 4

/-- `OffchainAccountData.SIZE`. -/
def OffchainAccountData.SIZE : Nat := 64 + 28 + 32 + 32 + 4

/-- `OffchainDefiDepositData.SIZE`. -/
def OffchainDefiDepositData.SIZE : Nat := 32 + 32 + 64 + 32 + 32 + 144 + 4

/-- The length of the offchain data of a kind of transaction. -/
def getOffchainDataLength (proofId : Nat) : Nat :=
  if proofId = ProofId.DEPOSIT ∨ proofId = ProofId.WITHDRAW ∨ proofId = ProofId.SEND then
    OffchainJoinSplitData.SIZE
  else if proofId = ProofId.ACCOUNT then OffchainAccountData.SIZE
  else if proofId = ProofId.DEFI_DEPOSIT then OffchainDefiDepositData.SIZE
  else 0

/-- The slices from `dataStart` on, and where the last ends. -/
def offchainSlices (offchainTxData : Bytes) (dataStart : Nat) : List Nat → List Bytes × Nat
  | [] => ([], dataStart)
  | proofId :: proofIds =>
    let dataEnd := dataStart + getOffchainDataLength proofId
    let (result, last) := offchainSlices offchainTxData dataEnd proofIds
    (slice offchainTxData dataStart dataEnd :: result, last)

/-- `sliceOffchainTxData`. Data of another length throw. -/
def sliceOffchainTxData (proofIds : List Nat) (offchainTxData : Bytes) : Except String (List Bytes) :=
  let (result, dataEnd) := offchainSlices offchainTxData 0 proofIds
  if dataEnd ≠ offchainTxData.length then
    .error "Offchain data has unexpected length for given proof ids."
  else .ok result

namespace RollupProof

/-- `getNonPaddingProofIds`. -/
def RollupProofData.getNonPaddingProofIds (x : RollupProofData) : List Nat :=
  x.getNonPaddingProofs.map InnerProofData.proofId

/-- There are data of the length of its type for every transaction of the rollup. -/
def RollupProofData.Aligned (x : RollupProofData) (offchainTxData : List Bytes) : Prop :=
  offchainTxData.map List.length = x.getNonPaddingProofIds.map getOffchainDataLength

end RollupProof

/-! ## Publishing -/

/-- A call of `offchainData`. -/
structure OffchainDataTx where
  rollupId : Nat
  chunk : Nat
  totalChunks : Nat
  offchainTxData : Bytes
  deriving DecidableEq

/-- `RollupTxs`. -/
structure RollupTxs where
  /-- The data that `processRollup` is called with. -/
  rollupProofTx : Bytes
  offchainDataTxs : List OffchainDataTx
  deriving DecidableEq

/-- An array has less than `2 ^ 32` elements. -/
def MAX_ARRAY_LENGTH : Nat := 2 ^ 32 - 1

/-- The chunks of the offchain data. -/
def ocdChunks (ocData : Bytes) (txDataLimit : Nat) : Except String (List Bytes) :=
  if txDataLimit = 0 then
    -- a quotient that is infinite, or no number
    if ocData = [] then .ok [[]] else .error "Invalid array length"
  else
    let chunks := (ocData.length + (txDataLimit - 1)) / txDataLimit
    if chunks = 0 then .ok [[]]
    else if MAX_ARRAY_LENGTH < chunks then .error "Invalid array length"
    else .ok (cut txDataLimit ocData chunks)

/-- `createRollupTxs`. -/
def createRollupTxs (dataBuf : Bytes) (offchainTxData : List Bytes) (txDataLimit : Nat) :
    Except String RollupTxs := do
  let broadcastData ← RollupProofData.decode dataBuf
  let chunks ← ocdChunks offchainTxData.flatten txDataLimit
  .ok ⟨dataBuf, chunks.zipIdx.map fun (c, i) => ⟨broadcastData.rollupId, i, chunks.length, c⟩⟩

/-! ## Events -/

/-- The contract emits the arguments of the call and its sender. -/
structure OffchainEvent where
  blockNumber : Nat
  sender : Nat
  tx : OffchainDataTx
  gasUsed : Nat
  deriving DecidableEq

/-- The transaction of a rollup, with its receipt and the time of its block. -/
structure RollupTransaction where
  hash : Bytes
  proofData : Bytes
  timestamp : Nat
  gasPrice : Nat
  gasUsed : Nat
  deriving DecidableEq

/-- A `RollupProcessed` event and its transaction. -/
structure RollupEvent where
  blockNumber : Nat
  rollupId : Nat
  sender : Nat
  tx : RollupTransaction
  deriving DecidableEq

/-- The blocks to search before the first rollup. -/
def offchainSearchLead (chainId : Nat) : Nat :=
  if chainId = 1 then 6 * 60 * 24
  else if chainId = 0xa57ec ∨ chainId = 0xdef ∨ chainId = 0x57a93 then 10
  else if chainId = 0xe2e then 10
  else if chainId = 1337 then 10
  else 6 * 60 * 24

/-- The first block of a query: a negative number counts back from the latest block. -/
def queryStart (latestBlock : Nat) (fromBlock : Int) : Nat :=
  if fromBlock < 0 then (latestBlock + fromBlock).toNat else fromBlock.toNat

/-- The block the search for offchain data starts at. -/
def searchStart (chainId latestBlock : Nat) (rollupEvents : List RollupEvent) : Nat :=
  queryStart latestBlock ((rollupEvents.head?.elim 0 RollupEvent.blockNumber : Nat) -
    (offchainSearchLead chainId : Int))

/-- The last block that is searched for offchain data. -/
def searchEnd (rollupEvents : List RollupEvent) : Nat :=
  rollupEvents.getLast?.elim 0 RollupEvent.blockNumber

/-- If there is one rollup event only, its id is used as a filter. -/
def rollupIdFilter : List RollupEvent → Nat → Bool
  | [r], rollupId => rollupId == r.rollupId
  | _, _ => true

/-- The events that `queryFilter` finds. -/
def searched (chainId latestBlock : Nat) (rollupEvents : List RollupEvent) (log : List OffchainEvent) :
    List OffchainEvent :=
  log.filter fun e => rollupIdFilter rollupEvents e.tx.rollupId &&
    (decide (searchStart chainId latestBlock rollupEvents ≤ e.blockNumber) &&
      decide (e.blockNumber ≤ searchEnd rollupEvents))

/-! ## Collecting the chunks -/

/-- `Number.MAX_SAFE_INTEGER`. -/
def MAX_SAFE_INTEGER : Nat := 2 ^ 53 - 1

/-- The arrays of events by the rollup id and the sender. -/
abbrev OffchainEventMap := Nat × Nat → Option (List (Slot OffchainEvent))

/-- Events are grouped by rollup and sender. -/
def OffchainEvent.key (e : OffchainEvent) : Nat × Nat := (e.tx.rollupId, e.sender)

/-- An event as one chunk of its rollup. -/
def OffchainEvent.toChunk (e : OffchainEvent) : Chunk OffchainEvent := ⟨e.tx.chunk, e.tx.totalChunks, e⟩

/-- The callback of `reduce`. -/
def reduceOffchainEvent (rollupEvents : List RollupEvent) (a : OffchainEventMap) (e : OffchainEvent) :
    Except String OffchainEventMap :=
  -- of the id of the event, `toNumber`
  if MAX_SAFE_INTEGER < e.tx.rollupId then .error "overflow"
  else
    let ignored := match rollupEvents.find? fun x => x.rollupId == e.tx.rollupId with
      | some rollupEvent => decide (rollupEvent.blockNumber < e.blockNumber)
      | none => false
    if ignored then .ok a
    else if MAX_ARRAY_LENGTH < e.tx.totalChunks then .error "Invalid array length"
    else .ok (Function.update a e.key (store (a e.key) e.toChunk))

/-- The events of a rollup, if none is missing. A hole is not noticed. -/
def offchainEventsOf (a : OffchainEventMap) (r : RollupEvent) : List (Slot OffchainEvent) :=
  match a (r.rollupId, r.sender) with
  | none => []
  | some offchainEvents => if Slot.undefined ∈ offchainEvents then [] else offchainEvents

/-- `getOffchainDataEvents`. -/
def getOffchainDataEvents (chainId latestBlock : Nat) (log : List OffchainEvent)
    (rollupEvents : List RollupEvent) : Except String (List (List (Slot OffchainEvent))) := do
  let offchainEvents := searched chainId latestBlock rollupEvents log
  let offchainEventMap ← offchainEvents.foldlM (reduceOffchainEvent rollupEvents) fun _ => none
  .ok (rollupEvents.map (offchainEventsOf offchainEventMap))

/-- The transaction of an event; there is none at a hole. -/
def getTransaction : Slot OffchainEvent → Except String OffchainEvent
  | .item e => .ok e
  | _ => .error "Cannot read properties of undefined (reading 'data')"

/-- `decodeBlock`. -/
def decodeBlock (rollupTx : RollupTransaction) (interactionResult : List DefiInteractionEvent)
    (offchainDataTxs : List (Slot OffchainEvent)) : Except String Block := do
  let offchainDataTxs ← offchainDataTxs.mapM getTransaction
  let offchainTxDataBuf := (offchainDataTxs.map fun e => e.tx.offchainTxData).flatten
  let rollupProofData ← RollupProofData.decode rollupTx.proofData
  let validProofIds := rollupProofData.getNonPaddingProofIds
  let offchainTxData ← sliceOffchainTxData validProofIds offchainTxDataBuf
  .ok {
    txHash := rollupTx.hash
    mined := rollupTx.timestamp * 1000
    rollupId := rollupProofData.rollupId
    rollupSize := rollupProofData.rollupSize
    encodedRollupProofData := rollupTx.proofData
    offchainTxData
    interactionResult
    gasUsed := rollupTx.gasUsed + (offchainDataTxs.map OffchainEvent.gasUsed).sum
    gasPrice := rollupTx.gasPrice
    subtreeRoot := none }

/-! ## Slices -/

/-- Data of the lengths that are expected are cut where they were joined. -/
lemma offchainSlices_eq {proofIds : List Nat} {offchainTxData : List Bytes} {buf : Bytes} {dataStart : Nat}
    (hlengths : offchainTxData.map List.length = proofIds.map getOffchainDataLength)
    (hat : At buf dataStart offchainTxData.flatten) :
    offchainSlices buf dataStart proofIds = (offchainTxData, dataStart + offchainTxData.flatten.length) := by
  induction proofIds generalizing offchainTxData dataStart with
  | nil =>
    rw [List.map_nil, List.map_eq_nil_iff] at hlengths
    subst hlengths
    rfl
  | cons proofId proofIds ih =>
    cases offchainTxData with
    | nil => nomatch hlengths
    | cons data offchainTxData =>
      rw [List.map_cons, List.map_cons, List.cons.injEq] at hlengths
      obtain ⟨hlength, hlengths⟩ := hlengths
      obtain ⟨hdata, hrest⟩ := at_flatten_cons.mp hat
      rw [offchainSlices, ← hlength, ih hlengths hrest, hdata.slice, List.flatten_cons,
        List.length_append, Nat.add_assoc]

/-- Data of the lengths of their types are sliced again. -/
lemma sliceOffchainTxData_flatten {proofIds : List Nat} {offchainTxData : List Bytes}
    (hlengths : offchainTxData.map List.length = proofIds.map getOffchainDataLength) :
    sliceOffchainTxData proofIds offchainTxData.flatten = .ok offchainTxData := by
  rw [sliceOffchainTxData, offchainSlices_eq hlengths (at_zero _), Nat.zero_add]
  exact if_neg (not_not.mpr rfl)

/-! ## Chunks -/

/-- The chunks are the data, and there is at least one. -/
lemma ocdChunks_ok {ocData : Bytes} {txDataLimit : Nat} {chunks : List Bytes}
    (h : ocdChunks ocData txDataLimit = .ok chunks) :
    chunks.flatten = ocData ∧ chunks ≠ [] ∧ chunks.length ≤ MAX_ARRAY_LENGTH := by
  have hone : (1 : Nat) ≤ MAX_ARRAY_LENGTH := by decide
  unfold ocdChunks at h
  by_cases hlimit : txDataLimit = 0
  · rw [if_pos hlimit] at h
    by_cases hdata : ocData = []
    · rw [if_pos hdata, Except.ok.injEq] at h
      subst h hdata
      exact ⟨rfl, List.cons_ne_nil _ _, hone⟩
    · rw [if_neg hdata] at h
      nomatch h
  rw [if_neg hlimit] at h
  have hceil := Nat.div_add_mod (ocData.length + (txDataLimit - 1)) txDataLimit
  have hmod := Nat.mod_lt (ocData.length + (txDataLimit - 1)) (Nat.pos_of_ne_zero hlimit)
  generalize (ocData.length + (txDataLimit - 1)) / txDataLimit = n at h hceil
  dsimp only at h
  by_cases hn : n = 0
  · rw [if_pos hn, Except.ok.injEq] at h
    subst h hn
    rw [Nat.mul_zero, Nat.zero_add] at hceil
    have hempty : ocData = [] := List.eq_nil_of_length_eq_zero (by omega)
    exact ⟨hempty.symm, List.cons_ne_nil _ _, hone⟩
  rw [if_neg hn] at h
  by_cases hmax : MAX_ARRAY_LENGTH < n
  · rw [if_pos hmax] at h
    nomatch h
  rw [if_neg hmax, Except.ok.injEq] at h
  subst h
  have hlength : (cut txDataLimit ocData n).length = n := by
    rw [cut, List.length_map, List.length_range]
  refine ⟨?_, ?_, by omega⟩
  · -- the last chunk reaches the end
    rw [flatten_cut, List.take_of_length_le]
    rw [Nat.mul_comm]
    omega
  · apply List.ne_nil_of_length_pos
    omega

/-- Every chunk is sent with its index and the number of chunks. -/
lemma mem_offchainDataTxs {rollupId : Nat} {chunks : List Bytes} {tx : OffchainDataTx} :
    tx ∈ chunks.zipIdx.map (fun (c, i) => (⟨rollupId, i, chunks.length, c⟩ : OffchainDataTx)) ↔
      tx.rollupId = rollupId ∧ tx.totalChunks = chunks.length ∧
        chunks[tx.chunk]? = some tx.offchainTxData := by
  rw [List.mem_map]
  constructor
  · rintro ⟨⟨c, i⟩, hmem, rfl⟩
    exact ⟨rfl, rfl, List.mem_zipIdx_iff_getElem?.mp hmem⟩
  · rintro ⟨hid, htotal, hget⟩
    refine ⟨(tx.offchainTxData, tx.chunk), List.mem_zipIdx_iff_getElem?.mpr hget, ?_⟩
    rw [← hid, ← htotal]

/-! ## Events of a rollup -/

/-- Published by the sender of the rollup, and not in a later block. -/
def OffchainEvent.PublishedFor (r : RollupEvent) (e : OffchainEvent) : Prop :=
  e.key = (r.rollupId, r.sender) ∧ e.blockNumber ≤ r.blockNumber

instance (r : RollupEvent) : DecidablePred (OffchainEvent.PublishedFor r) := fun _ =>
  inferInstanceAs (Decidable (_ ∧ _))

/-- The id is a number of the client, and there is an array of that many chunks. -/
structure OffchainEvent.Representable (e : OffchainEvent) : Prop where
  rollupId : e.tx.rollupId ≤ MAX_SAFE_INTEGER
  totalChunks : e.tx.totalChunks ≤ MAX_ARRAY_LENGTH

/-- Rollups have increasing ids, and events come in the order of their blocks. -/
def Chronological (rollupEvents : List RollupEvent) : Prop :=
  rollupEvents.Pairwise fun r r' => r.rollupId < r'.rollupId ∧ r.blockNumber ≤ r'.blockNumber

section Events

variable {rollupEvents : List RollupEvent} {r : RollupEvent}

/-- The event of a rollup is found by its id. -/
lemma Chronological.find_eq (h : Chronological rollupEvents) (hr : r ∈ rollupEvents) :
    rollupEvents.find? (fun x => x.rollupId == r.rollupId) = some r := by
  induction rollupEvents with
  | nil => nomatch hr
  | cons x rollupEvents ih =>
    obtain ⟨hx, h⟩ := List.pairwise_cons.mp h
    rcases List.mem_cons.mp hr with rfl | hr
    · exact List.find?_cons_of_pos (beq_self_eq_true _)
    · have hne : (x.rollupId == r.rollupId) = false := beq_false_of_ne (hx r hr).1.ne
      rw [List.find?_cons, hne]
      exact ih h hr

/-- No event is behind the blocks searched. -/
lemma Chronological.le_searchEnd (h : Chronological rollupEvents) (hr : r ∈ rollupEvents) :
    r.blockNumber ≤ searchEnd rollupEvents := by
  obtain ⟨rs, last, rfl⟩ := List.eq_nil_or_concat rollupEvents |>.resolve_left (List.ne_nil_of_mem hr)
  rw [searchEnd, List.concat_eq_append, List.getLast?_concat]
  rw [List.concat_eq_append] at hr h
  rcases List.mem_append.mp hr with hr | hr
  · exact ((List.pairwise_append.mp h).2.2 r hr last (List.mem_singleton_self _)).2
  · rw [List.mem_singleton.mp hr]
    exact Nat.le_refl _

/-- The filter on the id admits the rollups. -/
lemma rollupIdFilter_of_mem (hr : r ∈ rollupEvents) :
    rollupIdFilter rollupEvents r.rollupId = true := by
  match rollupEvents with
  | [x] =>
    rw [List.mem_singleton.mp hr]
    exact beq_self_eq_true _
  | [] => rfl
  | _ :: _ :: _ => rfl

/-- Of what has been published for a rollup, the search finds what is in its blocks. -/
lemma filter_searched (chainId latestBlock : Nat) (h : Chronological rollupEvents)
    (hr : r ∈ rollupEvents) (log : List OffchainEvent) :
    (searched chainId latestBlock rollupEvents log).filter (OffchainEvent.PublishedFor r) =
      (log.filter (OffchainEvent.PublishedFor r)).filter
        fun e => searchStart chainId latestBlock rollupEvents ≤ e.blockNumber := by
  rw [searched, List.filter_filter, List.filter_filter]
  refine List.filter_congr fun e _ => ?_
  by_cases hpublished : e.PublishedFor r
  · obtain ⟨hkey, hblock⟩ := hpublished
    have hid : e.tx.rollupId = r.rollupId := congrArg Prod.fst hkey
    have hend := Nat.le_trans hblock (h.le_searchEnd hr)
    rw [hid, rollupIdFilter_of_mem hr, Bool.true_and, decide_eq_true hend, Bool.and_true]
    rw [Bool.and_comm]
  · rw [decide_eq_false hpublished, Bool.false_and, Bool.and_false]

/-- What an event does to the chunks of a rollup. -/
lemma reduceOffchainEvent_ok (hfind : rollupEvents.find? (fun x => x.rollupId == r.rollupId) = some r)
    {e : OffchainEvent} (he : e.Representable) (a : OffchainEventMap) :
    ∃ a', reduceOffchainEvent rollupEvents a e = .ok a' ∧ a' (r.rollupId, r.sender) =
      if e.PublishedFor r then store (a (r.rollupId, r.sender)) e.toChunk
      else a (r.rollupId, r.sender) := by
  rw [reduceOffchainEvent, if_neg (Nat.not_lt.mpr he.rollupId),
    if_neg (Nat.not_lt.mpr he.totalChunks)]
  by_cases hkey : e.key = (r.rollupId, r.sender)
  · have hid : e.tx.rollupId = r.rollupId := congrArg Prod.fst hkey
    rw [hid, hfind]
    by_cases hblock : r.blockNumber < e.blockNumber
    · -- published after the rollup
      rw [if_neg fun h : e.PublishedFor r => absurd h.2 (Nat.not_le.mpr hblock)]
      exact ⟨a, if_pos (decide_eq_true hblock), rfl⟩
    · have hpublished : e.PublishedFor r := ⟨hkey, Nat.not_lt.mp hblock⟩
      have hignored : ¬ decide (r.blockNumber < e.blockNumber) = true := mt of_decide_eq_true hblock
      rw [if_pos hpublished, ← hkey]
      exact ⟨_, if_neg hignored, Function.update_self _ _ _⟩
  · -- of another rollup, or by another sender
    rw [if_neg fun h : e.PublishedFor r => hkey h.1]
    dsimp only
    by_cases hignored : (match rollupEvents.find? fun x => x.rollupId == e.tx.rollupId with
      | some rollupEvent => decide (rollupEvent.blockNumber < e.blockNumber)
      | none => false) = true
    · exact ⟨a, if_pos hignored, rfl⟩
    · exact ⟨_, if_neg hignored, Function.update_of_ne (Ne.symm hkey) _ _⟩

/-- All events together do to the chunks of a rollup what those published for it do. -/
lemma foldlM_reduceOffchainEvent
    (hfind : rollupEvents.find? (fun x => x.rollupId == r.rollupId) = some r)
    {events : List OffchainEvent} (hevents : ∀ e ∈ events, e.Representable) (a : OffchainEventMap) :
    ∃ a', events.foldlM (reduceOffchainEvent rollupEvents) a = .ok a' ∧ a' (r.rollupId, r.sender) =
      ((events.filter (OffchainEvent.PublishedFor r)).map OffchainEvent.toChunk).foldl store
        (a (r.rollupId, r.sender)) := by
  induction events generalizing a with
  | nil => exact ⟨a, rfl, rfl⟩
  | cons e events ih =>
    obtain ⟨a', hstep, hkey⟩ := reduceOffchainEvent_ok hfind (hevents e List.mem_cons_self) a
    obtain ⟨a'', hrun, hkeys⟩ := ih (fun e he => hevents e (List.mem_cons_of_mem _ he)) a'
    refine ⟨a'', ?_, ?_⟩
    · rw [List.foldlM_cons, hstep]
      exact hrun
    · rw [hkeys, hkey]
      by_cases hpublished : e.PublishedFor r
      · rw [if_pos hpublished, List.filter_cons, if_pos (decide_eq_true hpublished)]
        rfl
      · rw [if_neg hpublished, List.filter_cons, if_neg (mt of_decide_eq_true hpublished)]

/-- The events publish the transactions: every one at least once, and nothing else. -/
structure Publishes (events : List OffchainEvent) (txs : List OffchainDataTx) : Prop where
  each : ∀ e ∈ events, e.tx ∈ txs
  all : ∀ tx ∈ txs, ∃ e ∈ events, e.tx = tx

/-- The last publication for a rollup is found, if it is in the blocks that are searched. -/
theorem getOffchainDataEvents_complete {chainId latestBlock i txDataLimit : Nat}
    {log earlier last : List OffchainEvent} {offchainTxData : List Bytes} {txs : RollupTxs}
    (hrollups : Chronological rollupEvents) (hr : rollupEvents[i]? = some r)
    (hevents : ∀ e ∈ searched chainId latestBlock rollupEvents log, e.Representable)
    (htxs : createRollupTxs r.tx.proofData offchainTxData txDataLimit = .ok txs)
    (hlog : log.filter (OffchainEvent.PublishedFor r) = earlier ++ last)
    (hlast : Publishes last txs.offchainDataTxs)
    (hstart : ∀ e ∈ last, searchStart chainId latestBlock rollupEvents ≤ e.blockNumber) :
    ∃ ess es, getOffchainDataEvents chainId latestBlock log rollupEvents = .ok ess ∧
      ess[i]? = some (es.map .item) ∧ es ≠ [] ∧
      (es.map fun e => e.tx.offchainTxData).flatten = offchainTxData.flatten := by
  have hmem := List.mem_of_getElem? hr
  obtain ⟨x, hx, htxs⟩ := bind_ok htxs
  obtain ⟨chunks, hchunks, htxs⟩ := bind_ok htxs
  rw [Except.ok.injEq] at htxs
  subst htxs
  obtain ⟨hflatten, hne, -⟩ := ocdChunks_ok hchunks
  obtain ⟨a, hrun, hkey⟩ := foldlM_reduceOffchainEvent (hrollups.find_eq hmem) hevents fun _ => none
  rw [filter_searched chainId latestBlock hrollups hmem, hlog, List.filter_append,
    List.filter_eq_self.mpr fun e he => decide_eq_true (hstart e he), List.map_append,
    List.foldl_append] at hkey
  have htx : ∀ c ∈ last.map OffchainEvent.toChunk, c.total = chunks.length ∧
      chunks[c.index]? = some c.data.tx.offchainTxData := fun c hc => by
    obtain ⟨e, he, rfl⟩ := List.mem_map.mp hc
    exact (mem_offchainDataTxs.mp (hlast.each e he)).2
  have hall : ∀ j < chunks.length, ∃ c ∈ last.map OffchainEvent.toChunk, c.index = j := fun j hj => by
    obtain ⟨e, he, heq⟩ := hlast.all ⟨x.rollupId, j, chunks.length, chunks[j]⟩
      (mem_offchainDataTxs.mpr ⟨rfl, rfl, List.getElem?_eq_getElem hj⟩)
    exact ⟨e.toChunk, List.mem_map_of_mem he, congrArg OffchainDataTx.chunk heq⟩
  obtain ⟨es, hes, hdata⟩ := foldl_store_complete (fun e : OffchainEvent => e.tx.offchainTxData) hne
    (fun c hc => (htx c hc).1) (fun c hc => (htx c hc).2) hall _
  rw [hes] at hkey
  refine ⟨_, es, bind_of_ok hrun _, ?_, ?_, ?_⟩
  · rw [List.getElem?_map, hr, Option.map_some, offchainEventsOf, hkey]
    have hall : Slot.undefined ∉ es.map Slot.item := fun h => by
      obtain ⟨e, -, he⟩ := List.mem_map.mp h
      nomatch he
    exact congrArg some (if_neg hall)
  · rintro rfl
    exact hne hdata.symm
  · rw [hdata, hflatten]

end Events

/-- A block has the data of its transactions, from events that together have them. -/
theorem decodeBlock_offchainTxData {rollupTx : RollupTransaction} {x : RollupProofData}
    {offchainTxData : List Bytes} (hx : RollupProofData.decode rollupTx.proofData = .ok x)
    (haligned : x.Aligned offchainTxData) (interactionResult : List DefiInteractionEvent)
    {es : List OffchainEvent}
    (hes : (es.map fun e => e.tx.offchainTxData).flatten = offchainTxData.flatten) :
    ∃ b, decodeBlock rollupTx interactionResult (es.map .item) = .ok b ∧
      b.offchainTxData = offchainTxData := by
  have hget : (es.map Slot.item).mapM getTransaction = .ok es := by
    rw [List.mapM_map]
    exact (mapM_eq (g := id) fun e _ => rfl).trans (congrArg _ (List.map_id es))
  have hslice := sliceOffchainTxData_flatten haligned
  rw [← hes] at hslice
  exact ⟨_, (bind_of_ok hget _).trans ((bind_of_ok hx _).trans (bind_of_ok hslice _)), rfl⟩

end AztecConnect.Client
