import AztecConnect.Kebab.LogDb

/-!
# The retrieval of the events of a topic

Translation of `kebab/src/topic_event_retriever.ts`, of the event properties of `config.ts` and of
`getEarliestBlock` (`blockchain/src/earliest_block/index.ts`). The node has a chain that is not
reorganised. `syncToLatest` is a sequence of steps, one for each promise that it awaits; between them the
retrievers of the other topics go on.
-/

namespace AztecConnect.Kebab

open CatchUp

/-! ## The node -/

/-- The logs of all blocks, those to come included. -/
structure Chain where
  logs : Nat → List EthEvent
  numbered : Numbered logs EthEvent.blockNumber
  keys : ∀ n, ((between logs 0 n).map EthEvent.key).Nodup
  addresses : ∀ k, ∀ e ∈ logs k, toLowerCase e.address = e.address
  topics : ∀ k, ∀ e ∈ logs k, ∀ t ∈ e.topics, t.length = 66 ∧ toLowerCase t = t

/-- `ChainProperties`. -/
structure ChainProperties where
  rollupContractAddress : Text
  earliestBlock : Nat
  logBatchSize : Nat

/-- The earliest block and the chunk. -/
def getEarliestBlock (chainId : Nat) : Nat × Nat :=
  match chainId with
  | 1 => (14728000, 100000)
  | 0xa57ec | 0xdef | 0x57a93 => (15918000, 100000)
  | 0xe2e => (15918000, 10)
  | 1337 => (0, 10)
  | _ => (0, 100000)

/-- The chain properties of the server. -/
def chainProperties (chainId : Nat) (rollupContractAddress : Text) : ChainProperties where
  rollupContractAddress
  earliestBlock := (getEarliestBlock chainId).1
  logBatchSize := (getEarliestBlock chainId).2

/-- Every chain has batches. -/
lemma logBatchSize_pos (chainId : Nat) (address : Text) :
    0 < (chainProperties chainId address).logBatchSize := by
  show 0 < (getEarliestBlock chainId).2
  unfold getEarliestBlock
  split <;> decide

/-- The logs of the contract with a main topic. -/
def Chain.topicLogs (c : Chain) (cp : ChainProperties) (topic : Text) (k : Nat) : List EthEvent :=
  (c.logs k).filter fun e => e.address = toLowerCase cp.rollupContractAddress ∧ e.topics.head? = some topic

/-- `eth_getLogs` for the contract and a main topic. -/
def Chain.getLogs (c : Chain) (cp : ChainProperties) (topic : Text) (fromBlock toBlock : Nat) :
    List EthEvent := between (c.topicLogs cp topic) fromBlock (toBlock + 1)

/-! ## The properties of the events -/

/-- `EventRetrieverErrors`. -/
inductive EventRetrieverErrors
  | NONE
  | PROVIDER
  | STREAM
  | DB
deriving DecidableEq

/-- `EventProperties`. -/
structure EventProperties where
  mainTopic : Text
  /-- The message, if the sequence is broken. -/
  sequenceValidator : Option (Option EthEvent → List EthEvent → Option String)

/-- The value of a hexadecimal digit. -/
def hexDigit (c : Char) : Option Nat :=
  if '0' ≤ c ∧ c ≤ '9' then some (c.toNat - '0'.toNat)
  else if 'a' ≤ c ∧ c ≤ 'f' then some (c.toNat - 'a'.toNat + 10)
  else if 'A' ≤ c ∧ c ≤ 'F' then some (c.toNat - 'A'.toNat + 10)
  else none

/-- `Number` of hexadecimal text, if it is not NaN. -/
def number : Option Text → Option Int
  | some ('0' :: 'x' :: d :: ds) =>
    ((d :: ds).foldlM (fun n c => (hexDigit c).map (n * 16 + ·)) 0).map Int.ofNat
  | _ => none

/-- The number of a rollup event. -/
def rollupNumber (e : EthEvent) : Option Int := number e.topics[1]?

/-- A number in a message. -/
def showNumber : Option Int → String
  | some n => toString n
  | none => "NaN"

/-- The next rollup has the next number. -/
def isNext : Option Int → Option Int → Bool
  | some current, some next => next = current + 1
  | _, _ => false

/-- `rollupSequenceValidation`: rollups must be consecutive. -/
def rollupSequenceValidation (prev : Option EthEvent) : List EthEvent → Option String
  | [] => none
  | e :: es =>
    let currentRollupNumber := prev.elim (some (-1)) rollupNumber
    let currentBlockNumber := prev.elim "N/A" fun p => toString p.blockNumber
    if isNext currentRollupNumber (rollupNumber e) then rollupSequenceValidation (some e) es
    else some ("Missing rollup event! Current " ++ showNumber currentRollupNumber ++ " at block " ++
      currentBlockNumber ++ ", next " ++ showNumber (rollupNumber e) ++ " at block " ++
      toString e.blockNumber)

/-- The indexed topics. -/
inductive EventTopic
  | rollupProcessed
  | defiBridge
  | offchain
deriving DecidableEq

def ROLLUP_PROCESSED_EVENT_TOPIC : Text :=
  "0x14054a15b39bfd65ec00fc6d15c7e5f9cbc1dc6f452cbefa359b4da61ad89fb6".toList
def DEFI_BRIDGE_EVENT_TOPIC : Text :=
  "0x692cf5822a02f5edf084dc7249b3a06293621e069f11975ed70908ed10ed2e2c".toList
def OFFCHAIN_EVENT_TOPIC : Text :=
  "0xb92710e3fad9222f817fcd828bd1ce3612ad0cd1c8bd5f3a3f4b8d85c4444621".toList

/-- `EVENT_PROPERTIES`. -/
def EVENT_PROPERTIES : EventTopic → EventProperties
  | .rollupProcessed => ⟨ROLLUP_PROCESSED_EVENT_TOPIC, some rollupSequenceValidation⟩
  | .defiBridge => ⟨DEFI_BRIDGE_EVENT_TOPIC, none⟩
  | .offchain => ⟨OFFCHAIN_EVENT_TOPIC, none⟩

/-- The topic by which an event is found. -/
def EventTopic.mainTopic (t : EventTopic) : Text := (EVENT_PROPERTIES t).mainTopic

/-- The three topics are different. -/
lemma EventTopic.mainTopic_inj {t t' : EventTopic} (h : t.mainTopic = t'.mainTopic) : t = t' := by
  cases t <;> cases t' <;> first | rfl | exact absurd h (by decide)

/-- They are in lower case. -/
lemma EventTopic.toLowerCase_mainTopic (t : EventTopic) : toLowerCase t.mainTopic = t.mainTopic := by
  cases t <;> decide

/-! ## `syncToLatest` -/

/-- Where `syncToLatest` stands: before the last event is read, at the next request, at the next write, or
at its end. -/
inductive Scan
  | begins
  | scanning (start : Nat) (previousEvent : Option EthEvent)
  | storing (start : Nat) (receivedEvents : List EthEvent)
  | settled (type : EventRetrieverErrors) (message : String)
deriving DecidableEq

section Scans

variable (c : Chain) (cp : ChainProperties) (t : EventTopic)

/-- Where a scan starts: behind the last event, and not before the earliest block. -/
def initialStart (lastEvent : Option EthEvent) : Nat :=
  max (lastEvent.elim 0 (·.blockNumber + 1)) cp.earliestBlock

/-- The last block of a request. -/
def endBlock (start toBlock : Nat) : Nat := min (start + cp.logBatchSize - 1) toBlock

/-- After a request. -/
def received (start : Nat) (previousEvent : Option EthEvent) (receivedEvents : List EthEvent) : Scan :=
  if receivedEvents = [] then .scanning start previousEvent
  else match (EVENT_PROPERTIES t).sequenceValidator.bind (· previousEvent receivedEvents) with
  | some message => .settled .STREAM message
  | none => .storing start receivedEvents

/-- The steps other than the writes. The messages of the node and of the database are left open. -/
inductive ScanStep (rows : List EthEventDao) (toBlock : Nat) : Scan → Scan → Prop
  | lastEvent {last : Option EthEvent} (hlast : LastEvent rows t.mainTopic last) :
    ScanStep rows toBlock .begins (.scanning (initialStart cp last) last)
  | lastEventFails {message : String} : ScanStep rows toBlock .begins (.settled .DB message)
  | request {start : Nat} {previousEvent : Option EthEvent} (hstart : start ≤ toBlock) :
    ScanStep rows toBlock (.scanning start previousEvent)
      (received t (endBlock cp start toBlock + 1) previousEvent
        (c.getLogs cp t.mainTopic start (endBlock cp start toBlock)))
  | requestFails {start : Nat} {previousEvent : Option EthEvent} {message : String}
      (hstart : start ≤ toBlock) :
    ScanStep rows toBlock (.scanning start previousEvent) (.settled .PROVIDER message)
  | finished {start : Nat} {previousEvent : Option EthEvent} (hstart : toBlock < start) :
    ScanStep rows toBlock (.scanning start previousEvent) (.settled .NONE "")

end Scans

/-! ## What is held of a topic -/

section Held

variable {c : Chain} {cp : ChainProperties} {t t' : EventTopic} {rows : List EthEventDao}
  {cache es : List EthEvent} {floor toBlock n m start : Nat} {scan scan' : Scan} {e : EthEvent}

/-- The logs of a topic are in their blocks. -/
lemma Chain.topicLogs_numbered (c : Chain) (cp : ChainProperties) (topic : Text) :
    Numbered (c.topicLogs cp topic) EthEvent.blockNumber :=
  fun k e he => c.numbered k e (List.mem_filter.mp he).1

/-- The logs of a topic in a range are logs of the range. -/
lemma Chain.between_topicLogs (c : Chain) (cp : ChainProperties) (topic : Text) (a b : Nat) :
    between (c.topicLogs cp topic) a b = (between c.logs a b).filter
      fun e => e.address = toLowerCase cp.rollupContractAddress ∧ e.topics.head? = some topic :=
  (filter_between _).symm

/-- Two logs of one key are one. -/
lemma Chain.key_inj (c : Chain) {x y : EthEvent} (hx : x ∈ c.logs x.blockNumber)
    (hy : y ∈ c.logs y.blockNumber) (h : x.key = y.key) : x = y := by
  have hmem {z : EthEvent} (hz : z ∈ c.logs z.blockNumber) (hlt : z.blockNumber ≤
      max x.blockNumber y.blockNumber) : z ∈ between c.logs 0 (max x.blockNumber y.blockNumber + 1) :=
    (mem_between c.numbered).mpr ⟨Nat.zero_le _, Nat.lt_succ_of_le hlt, hz⟩
  exact List.inj_on_of_nodup_map (c.keys _) (hmem hx (Nat.le_max_left _ _))
    (hmem hy (Nat.le_max_right _ _)) h

/-- The events of a topic in the rows and in a cache. -/
def held (t : EventTopic) (rows : List EthEventDao) (cache : List EthEvent) : List EthEvent :=
  (rows.filter (·.mainTopic = some t.mainTopic)).map serializeData ++
    cache.filter (·.topics.head? = some t.mainTopic)

/-- All events of a topic up to a block are held, and no others. -/
def Reaches (c : Chain) (cp : ChainProperties) (rows : List EthEventDao) (cache : List EthEvent)
    (t : EventTopic) (n : Nat) : Prop :=
  held t rows cache = between (c.topicLogs cp t.mainTopic) cp.earliestBlock n

/-- What a scan up to a block has read, over rows that reach at least to `floor`. -/
def ScanInv (c : Chain) (cp : ChainProperties) (rows : List EthEventDao) (cache : List EthEvent)
    (t : EventTopic) (limit : Nat) : Scan → Prop
  | .begins => cache.filter (·.topics.head? = some t.mainTopic) = []
  | .scanning start _ => Reaches c cp rows cache t start ∧ cp.earliestBlock ≤ start ∧ start ≤ limit
  | .storing start es => ∃ a, Reaches c cp rows cache t a ∧ cp.earliestBlock ≤ a ∧ a ≤ start ∧
      start ≤ limit ∧ es = between (c.topicLogs cp t.mainTopic) a start
  | .settled .NONE _ => Reaches c cp rows cache t limit
  | .settled _ _ => True

/-- What is known of a scan: what the rows and the cache hold of its topic reaches where it is. -/
structure TopicInv (c : Chain) (cp : ChainProperties) (rows : List EthEventDao) (cache : List EthEvent)
    (floor toBlock : Nat) (t : EventTopic) (scan : Scan) : Prop where
  base : ∃ n, Reaches c cp rows [] t n ∧ floor ≤ n ∧ n ≤ max floor (toBlock + 1)
  scan : ScanInv c cp rows cache t (max floor (toBlock + 1)) scan

/-- The rows reach a block if they are the logs up to it. -/
lemma reaches_nil_iff : Reaches c cp rows [] t n ↔
    (rows.filter (·.mainTopic = some t.mainTopic)).map serializeData =
      between (c.topicLogs cp t.mainTopic) cp.earliestBlock n := by
  rw [Reaches, held, List.filter_nil, List.append_nil]

/-- A cache without events of the topic does not count. -/
lemma reaches_of_cache_nil (hcache : cache.filter (·.topics.head? = some t.mainTopic) = []) :
    Reaches c cp rows cache t n ↔ Reaches c cp rows [] t n := by
  rw [Reaches, held, hcache, reaches_nil_iff, List.append_nil]

/-- The scan resumes where the rows end. -/
lemma Reaches.resume (h : Reaches c cp rows [] t n) (hn : cp.earliestBlock ≤ n) {last : Option EthEvent}
    (hlast : LastEvent rows t.mainTopic last) :
    Reaches c cp rows [] t (initialStart cp last) ∧ initialStart cp last ≤ n := by
  rw [reaches_nil_iff] at h ⊢
  cases last with
  | none =>
    have hempty : rows.filter (·.mainTopic = some t.mainTopic) = [] :=
      List.filter_eq_nil_iff.mpr fun row hrow => by simpa using hlast row hrow
    have hstart : initialStart cp none = cp.earliestBlock := Nat.max_eq_right (Nat.zero_le _)
    rw [hstart, hempty, between_self]
    exact ⟨rfl, hn⟩
  | some e =>
    obtain ⟨row, hrow, htopic, rfl, hmax⟩ := hlast
    have hmem : serializeData row ∈ between (c.topicLogs cp t.mainTopic) cp.earliestBlock n :=
      h ▸ List.mem_map_of_mem (List.mem_filter.mpr ⟨hrow, decide_eq_true htopic⟩)
    obtain ⟨hearliest, hlt, -⟩ := (mem_between (c.topicLogs_numbered cp _)).mp hmem
    have hstart : initialStart cp (some (serializeData row)) = (serializeData row).blockNumber + 1 :=
      Nat.max_eq_left (by show cp.earliestBlock ≤ (serializeData row).blockNumber + 1; omega)
    rw [hstart, h, between_resume (c.topicLogs_numbered cp _) hmem]
    · exact ⟨rfl, hlt⟩
    · intro y hy
      obtain ⟨row', hrow', rfl⟩ := List.mem_map.mp (h ▸ hy)
      obtain ⟨hin, htopic'⟩ := List.mem_filter.mp hrow'
      exact hmax row' hin (of_decide_eq_true htopic')

/-- What rows and cache reach together. -/
lemma Reaches.max (hrows : Reaches c cp rows [] t n) (h : Reaches c cp rows cache t m) :
    Reaches c cp rows cache t (max n m) := between_max (reaches_nil_iff.mp hrows) h

/-- A step of a scan. -/
lemma TopicInv.step (h : TopicInv c cp rows cache floor toBlock t scan) (hfloor : cp.earliestBlock ≤ floor)
    (hbatch : 0 < cp.logBatchSize) (hstep : ScanStep c cp t rows toBlock scan scan') :
    TopicInv c cp rows cache floor toBlock t scan' := by
  obtain ⟨⟨n, hn, hfn, hnl⟩, hscan⟩ := h
  refine ⟨⟨n, hn, hfn, hnl⟩, ?_⟩
  cases hstep with
  | lastEvent hlast =>
    obtain ⟨hreaches, hle⟩ := hn.resume (hfloor.trans hfn) hlast
    exact ⟨(reaches_of_cache_nil hscan).mpr hreaches, Nat.le_max_right _ _, hle.trans hnl⟩
  | lastEventFails => trivial
  | request hstart =>
    rename_i start prev
    obtain ⟨hreaches, hearliest, hlimit⟩ := hscan
    have hend : start ≤ endBlock cp start toBlock + 1 ∧ endBlock cp start toBlock + 1 ≤ toBlock + 1 := by
      rw [endBlock]
      omega
    have hlimit' : endBlock cp start toBlock + 1 ≤ Nat.max floor (toBlock + 1) :=
      hend.2.trans (Nat.le_max_right _ _)
    unfold received
    split
    case isTrue hnone =>
      refine ⟨?_, hearliest.trans hend.1, hlimit'⟩
      rw [Reaches, ← between_append hearliest hend.1, ← hreaches]
      rw [Chain.getLogs] at hnone
      rw [hnone, List.append_nil]
    case isFalse =>
      split
      case h_1 => trivial
      case h_2 => exact ⟨start, hreaches, hearliest, hend.1, hlimit', rfl⟩
  | requestFails => trivial
  | finished hstart =>
    rename_i start prev
    obtain ⟨hreaches, -, hlimit⟩ := hscan
    have hmax : Nat.max floor (toBlock + 1) = Nat.max n start := by
      have h₁ : Nat.max floor (toBlock + 1) ≤ Nat.max n start :=
        Nat.max_le.mpr ⟨hfn.trans (Nat.le_max_left _ _), le_trans hstart (Nat.le_max_right _ _)⟩
      exact le_antisymm h₁ (Nat.max_le.mpr ⟨hnl, hlimit⟩)
    show Reaches c cp rows cache t (Nat.max floor (toBlock + 1))
    exact hmax ▸ hn.max hreaches

end Held

end AztecConnect.Kebab
