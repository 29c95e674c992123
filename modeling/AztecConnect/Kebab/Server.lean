import AztecConnect.Kebab.TopicEventRetriever
import AztecConnect.Lib.Transition
import Mathlib.Data.Nat.Find

/-!
# The synchronisation of kebab

Translation of the synchronisation of `kebab/src/server.ts`. The process can die at any moment and is
started again on the same database. In every state that is reached the database holds the events of each
topic up to some block, and while the server is ready this is the same block for all topics
(`Inv.rowsReach_all`).
-/

namespace AztecConnect.Kebab

open CatchUp Transition

/-- Where the server is in `start` and its loop. -/
inductive Phase
  /-- The first synchronisation. -/
  | starting
  /-- Between two polls. -/
  | sleeping
  /-- `retrieveNewEvents`, with the cache. -/
  | polling (newBlockNumber : Nat) (events : List EthEvent)
  /-- `start` has returned without success, or the loop has ended. -/
  | stopped

/-- The server, its database and the height of the chain. The block number that `start` asks for first is
the height; a request for it that fails is not caught and ends the process, which is a restart. -/
structure Server where
  height : Nat
  rows : List EthEventDao
  phase : Phase
  scans : EventTopic → Scan
  ready : Bool
  blockNumber : Nat
  eventSyncedToBlockNumber : Int

/-- A server that has been created on an empty database. -/
def Server.init (height : Nat) : Server where
  height
  rows := []
  phase := .starting
  scans _ := .begins
  ready := false
  blockNumber := height
  eventSyncedToBlockNumber := -1

/-- The block to which the retrievers scan. -/
def Server.toBlock (s : Server) : Option Nat :=
  match s.phase with
  | .starting => some s.blockNumber
  | .polling newBlockNumber _ => some newBlockNumber
  | _ => none

/-- All promises are settled. -/
def Server.AllSettled (s : Server) : Prop := ∀ t, ∃ type message, s.scans t = .settled type message

/-- A retriever has stopped with this error. -/
def Server.Failed (s : Server) (type : EventRetrieverErrors) : Prop :=
  ∃ t message, s.scans t = .settled type message

/-- All promises are fulfilled. -/
def Server.Succeeded (s : Server) : Prop := ∀ t, ∃ message, s.scans t = .settled .NONE message

/-- `writeEventsToDB`: an error of the database is logged, and nothing is written. -/
def writeEventsToDB (fails : Nat → Option String) (rows : List EthEventDao) (events : List EthEvent) :
    List EthEventDao :=
  if events = [] then rows
  else match addEthLogs fails rows events 200 with
  | .ok rows' => rows'
  | .error _ => rows

/-- Either all is written, or nothing. -/
lemma writeEventsToDB_cases (fails : Nat → Option String) (rows : List EthEventDao)
    (events : List EthEvent) : writeEventsToDB fails rows events = rows ∨
      writeEventsToDB fails rows events = (events.map formatData).foldl save rows := by
  unfold writeEventsToDB
  split
  case isTrue => exact .inl rfl
  case isFalse =>
    split
    case h_1 hwrite => exact .inr (addEthLogs_ok (by decide) hwrite)
    case h_2 => exact .inl rfl

/-- Who takes a step. -/
inductive Actor
  | node
  | retriever (t : EventTopic)
  | server
  | system

section Steps

variable (c : Chain) (cp : ChainProperties)

/-- A step of the system. -/
inductive Step (s : Server) : Actor → Server → Prop where
  | mine : Step s .node { s with height := s.height + 1 }
  | scan {t : EventTopic} {toBlock : Nat} {scan : Scan} (hblock : s.toBlock = some toBlock)
      (hscan : ScanStep c cp t s.rows toBlock (s.scans t) scan) :
    Step s (.retriever t) { s with scans := Function.update s.scans t scan }
  /-- The first synchronisation writes to the database. -/
  | writeDb {t : EventTopic} {start : Nat} {events : List EthEvent} {fails : Nat → Option String}
      {rows : List EthEventDao} (hphase : s.phase = .starting) (hscan : s.scans t = .storing start events)
      (hwrite : addEthLogs fails s.rows events 200 = .ok rows) :
    Step s (.retriever t) { s with
      rows
      scans := Function.update s.scans t (.scanning start events.getLast?) }
  | writeDbFails {t : EventTopic} {start : Nat} {events : List EthEvent} {fails : Nat → Option String}
      {message : String} (hphase : s.phase = .starting) (hscan : s.scans t = .storing start events)
      (hwrite : addEthLogs fails s.rows events 200 = .error message) :
    Step s (.retriever t) { s with scans := Function.update s.scans t (.settled .DB message) }
  /-- A poll writes to its cache. -/
  | writeCache {t : EventTopic} {start newBlockNumber : Nat} {cache events : List EthEvent}
      (hphase : s.phase = .polling newBlockNumber cache) (hscan : s.scans t = .storing start events) :
    Step s (.retriever t) { s with
      phase := .polling newBlockNumber (cache ++ events)
      scans := Function.update s.scans t (.scanning start events.getLast?) }
  | startFails (hphase : s.phase = .starting) (hsettled : s.AllSettled) (hstream : s.Failed .STREAM) :
    Step s .server { s with phase := .stopped }
  | startAgain (hphase : s.phase = .starting) (hsettled : s.AllSettled) (hstream : ¬ s.Failed .STREAM)
      (hfailed : ¬ s.Succeeded) :
    Step s .server { s with scans := fun _ => .begins }
  /-- The loop asks for the block number again; if this request fails, the process ends (`restart`). -/
  | started (hphase : s.phase = .starting) (hsettled : s.Succeeded) :
    Step s .server { s with
      phase := .sleeping
      ready := true
      blockNumber := s.height
      eventSyncedToBlockNumber := s.blockNumber }
  /-- The node gives its height, or the request fails. -/
  | poll {newBlockNumber : Nat} (hphase : s.phase = .sleeping)
      (hblock : newBlockNumber = s.height ∨ newBlockNumber = s.blockNumber) :
    Step s .server { s with
      phase := .polling newBlockNumber []
      scans := fun _ => .begins
      blockNumber := newBlockNumber }
  | pollStops {newBlockNumber : Nat} {cache : List EthEvent}
      (hphase : s.phase = .polling newBlockNumber cache) (hsettled : s.AllSettled)
      (hstream : s.Failed .STREAM) :
    Step s .server { s with phase := .stopped, ready := false }
  /-- Nothing is written; the server takes itself to be synchronised all the same. -/
  | pollSkips {newBlockNumber : Nat} {cache : List EthEvent}
      (hphase : s.phase = .polling newBlockNumber cache) (hsettled : s.AllSettled)
      (hstream : ¬ s.Failed .STREAM) (hfailed : ¬ s.Succeeded) :
    Step s .server { s with phase := .sleeping, eventSyncedToBlockNumber := newBlockNumber }
  | pollWrites {newBlockNumber : Nat} {cache : List EthEvent} {fails : Nat → Option String}
      (hphase : s.phase = .polling newBlockNumber cache) (hsettled : s.Succeeded) :
    Step s .server { s with
      phase := .sleeping
      rows := writeEventsToDB fails s.rows cache
      eventSyncedToBlockNumber := newBlockNumber }
  /-- The process dies and is started again. -/
  | restart : Step s .system { Server.init s.height with rows := s.rows }

end Steps

/-! ## The rows -/

section Rows

variable {c : Chain} {cp : ChainProperties} {t t' : EventTopic} {rows rows' : List EthEventDao}
  {cache cache' es : List EthEvent} {floor toBlock n m a : Nat} {scan : Scan} {e : EthEvent}

/-- A log of an indexed topic. -/
def Indexed (c : Chain) (cp : ChainProperties) (e : EthEvent) : Prop :=
  ∃ t : EventTopic, e ∈ c.topicLogs cp t.mainTopic e.blockNumber

/-- Every row is an event of the contract as it was on the chain. -/
def RowsInv (c : Chain) (cp : ChainProperties) (rows : List EthEventDao) : Prop :=
  ∀ row ∈ rows, row = formatData (serializeData row) ∧ Indexed c cp (serializeData row)

/-- The logs of a topic are those of the contract with this topic. -/
lemma mem_topicLogs : e ∈ c.topicLogs cp t.mainTopic n ↔
    e ∈ c.logs n ∧ e.address = toLowerCase cp.rollupContractAddress ∧ e.topics.head? = some t.mainTopic := by
  rw [Chain.topicLogs, List.mem_filter, decide_eq_true_iff]

/-- No log of a range is repeated. -/
lemma Chain.nodup_between (c : Chain) (cp : ChainProperties) (topic : Text) (a b : Nat) :
    (between (c.topicLogs cp topic) a b).Nodup := by
  rw [c.between_topicLogs]
  refine List.Nodup.filter _ ?_
  rcases Nat.le_total a b with hab | hba
  · have hall : (between c.logs 0 b).Nodup := List.Nodup.of_map _ (c.keys b)
    rw [← between_append (Nat.zero_le a) hab] at hall
    exact (List.nodup_append.mp hall).2.1
  · rw [between_of_le hba]
    exact List.nodup_nil

/-- Saved events are held. -/
lemma held_formatData : held t (rows ++ es.map formatData) [] = held t rows es := by
  have hfilter : ((es.map formatData).filter (·.mainTopic = some t.mainTopic)).map serializeData =
      es.filter (·.topics.head? = some t.mainTopic) := by
    rw [List.filter_map, List.map_map]
    exact List.map_id _
  rw [held, held, List.filter_append, List.map_append, hfilter, List.filter_nil, List.append_nil]

/-- Events that are cached are held, if they are of the topic. -/
lemma held_append : held t rows (cache ++ es) =
    held t rows cache ++ es.filter (·.topics.head? = some t.mainTopic) := by
  rw [held, held, List.filter_append, List.append_assoc]

/-- The logs of a topic are of this topic. -/
lemma filter_between_self : (between (c.topicLogs cp t.mainTopic) n m).filter
    (·.topics.head? = some t.mainTopic) = between (c.topicLogs cp t.mainTopic) n m := by
  refine List.filter_eq_self.mpr fun e he => decide_eq_true ?_
  exact (mem_topicLogs.mp ((mem_between (c.topicLogs_numbered cp _)).mp he).2.2).2.2

/-- They are of no other topic. -/
lemma filter_between_ne (h : t ≠ t') : (between (c.topicLogs cp t.mainTopic) n m).filter
    (·.topics.head? = some t'.mainTopic) = [] := by
  refine List.filter_eq_nil_iff.mpr fun e he => ?_
  have htopic := (mem_topicLogs.mp ((mem_between (c.topicLogs_numbered cp _)).mp he).2.2).2.2
  rw [decide_eq_true_iff, htopic]
  exact fun heq => h (EventTopic.mainTopic_inj (Option.some.inj heq))

/-- What a node returns can be a row. -/
lemma indexed_of_mem_between (h : e ∈ between (c.topicLogs cp t.mainTopic) n m) : Indexed c cp e :=
  ⟨t, ((mem_between (c.topicLogs_numbered cp _)).mp h).2.2⟩

/-- A row is a log of its block. -/
lemma Indexed.mem_logs (h : Indexed c cp e) : e ∈ c.logs e.blockNumber := by
  obtain ⟨t, ht⟩ := h
  exact (mem_topicLogs.mp ht).1

/-- Events that continue what the rows hold are appended to them. -/
lemma save_indexed (hrows : RowsInv c cp rows) (hes : ∀ e ∈ es, Indexed c cp e)
    (hreaches : ∀ t, ∃ n, Reaches c cp rows es t n) :
    (es.map formatData).foldl save rows = rows ++ es.map formatData ∧
      RowsInv c cp (rows ++ es.map formatData) := by
  have hnodup (t : EventTopic) : (held t rows es).Nodup := by
    obtain ⟨n, hn⟩ := hreaches t
    exact hn ▸ c.nodup_between cp _ _ _
  have hevents : es.Nodup := by
    refine List.nodup_iff_count_le_one.mpr fun e => ?_
    by_cases he : e ∈ es
    · obtain ⟨t, ht⟩ := hes e he
      have hcount := List.nodup_iff_count_le_one.mp (List.nodup_append.mp (hnodup t)).2.1 e
      have hfilter : (es.filter (·.topics.head? = some t.mainTopic)).count e = es.count e :=
        List.count_filter (decide_eq_true (mem_topicLogs.mp ht).2.2)
      rwa [hfilter] at hcount
    · rw [List.count_eq_zero_of_not_mem he]
      exact Nat.zero_le 1
  have hkeys : (es.map EthEvent.key).Nodup := hevents.map_on fun x hx y hy hkey =>
    c.key_inj (hes x hx).mem_logs (hes y hy).mem_logs hkey
  refine ⟨foldl_save_fresh hkeys fun row hrow e he hkey => ?_, fun row hrow => ?_⟩
  · -- the row is the event, and would be held twice
    obtain ⟨hformat, hindexed⟩ := hrows row hrow
    have heq : serializeData row = e := c.key_inj hindexed.mem_logs (hes e he).mem_logs hkey
    obtain ⟨t, ht⟩ := hes e he
    have htopic := (mem_topicLogs.mp ht).2.2
    refine (List.nodup_append.mp (hnodup t)).2.2 e ?_ e ?_ rfl
    · refine List.mem_map.mpr ⟨row, List.mem_filter.mpr ⟨hrow, decide_eq_true ?_⟩, heq⟩
      rw [hformat, heq]
      exact htopic
    · exact List.mem_filter.mpr ⟨he, decide_eq_true htopic⟩
  · rcases List.mem_append.mp hrow with hold | hnew
    · exact hrows row hold
    · obtain ⟨e, he, rfl⟩ := List.mem_map.mp hnew
      exact ⟨rfl, hes e he⟩

/-- The invariant of a retriever depends on what is held of its topic only. -/
lemma TopicInv.congr (h : TopicInv c cp rows cache floor toBlock t scan)
    (hrows : held t rows [] = held t rows' []) (hheld : held t rows cache = held t rows' cache')
    (hcache : cache.filter (·.topics.head? = some t.mainTopic) =
      cache'.filter (·.topics.head? = some t.mainTopic)) :
    TopicInv c cp rows' cache' floor toBlock t scan := by
  obtain ⟨⟨n, hn, hfn, hnl⟩, hscan⟩ := h
  refine ⟨⟨n, hrows.symm.trans hn, hfn, hnl⟩, ?_⟩
  have hreaches (m : Nat) : Reaches c cp rows cache t m ↔ Reaches c cp rows' cache' t m := by
    rw [Reaches, Reaches, hheld]
  cases scan with
  | begins => exact hcache.symm.trans hscan
  | scanning start prev => exact ⟨(hreaches _).mp hscan.1, hscan.2⟩
  | storing start es =>
    obtain ⟨a, ha, hrest⟩ := hscan
    exact ⟨a, (hreaches a).mp ha, hrest⟩
  | settled type message =>
    cases type with
    | NONE => exact (hreaches _).mp hscan
    | _ => trivial

/-- With the logs of the next range cached, its end is reached. -/
lemma Reaches.append (h : Reaches c cp rows cache t a) (ha : cp.earliestBlock ≤ a) (ham : a ≤ m) :
    Reaches c cp rows (cache ++ between (c.topicLogs cp t.mainTopic) a m) t m := by
  rw [Reaches, held_append, h, filter_between_self, between_append ha ham]

end Rows

/-! ## The invariant -/

section Invariant

variable {c : Chain} {cp : ChainProperties} {s s' : Server} {a : Actor}

/-- What the rows hold of each topic, from its first block to at most the height of the chain. -/
def RowsReach (c : Chain) (cp : ChainProperties) (s : Server) (t : EventTopic) (n : Nat) : Prop :=
  Reaches c cp s.rows [] t n ∧ cp.earliestBlock ≤ n ∧ n ≤ max cp.earliestBlock (s.height + 1)

/-- All topics are held up to a block. -/
def Holds (c : Chain) (cp : ChainProperties) (s : Server) (n : Nat) : Prop := ∀ t, RowsReach c cp s t n

/-- What holds of a server in a phase. -/
def PhaseInv (c : Chain) (cp : ChainProperties) (s : Server) : Phase → Prop
  | .starting => ∀ t, TopicInv c cp s.rows [] cp.earliestBlock s.blockNumber t (s.scans t)
  | .sleeping => ∃ n, ∀ t, RowsReach c cp s t n
  | .polling newBlockNumber events => newBlockNumber ≤ s.height ∧ (∀ e ∈ events, Indexed c cp e) ∧
    ∃ n, ∀ t, RowsReach c cp s t n ∧ TopicInv c cp s.rows events n newBlockNumber t (s.scans t)
  | .stopped => ∀ t, ∃ n, RowsReach c cp s t n

/-- What holds in every reachable state. -/
structure Inv (c : Chain) (cp : ChainProperties) (s : Server) : Prop where
  blockNumber : s.blockNumber ≤ s.height
  rows : RowsInv c cp s.rows
  phase : PhaseInv c cp s s.phase
  ready : s.ready = true → s.phase = .sleeping ∨ ∃ newBlockNumber events,
    s.phase = .polling newBlockNumber events

/-- It holds of a new server. -/
lemma inv_init (height : Nat) : Inv c cp (Server.init height) where
  blockNumber := Nat.le_refl height
  rows row hrow := absurd hrow List.not_mem_nil
  phase _ := ⟨⟨cp.earliestBlock, by rw [Reaches, between_self]; rfl, le_refl _, Nat.le_max_left _ _⟩, rfl⟩
  ready h := absurd h Bool.false_ne_true

/-- What it says of the phase the server is in. -/
lemma Inv.phaseInv (h : Inv c cp s) {phase : Phase} (hphase : s.phase = phase) : PhaseInv c cp s phase :=
  hphase ▸ h.phase

/-- In every phase each topic is held up to some block. -/
lemma Inv.rowsReach (h : Inv c cp s) (t : EventTopic) : ∃ n, RowsReach c cp s t n := by
  have hblock := h.blockNumber
  cases hphase : s.phase with
  | starting =>
    obtain ⟨n, hn, hfloor, hlimit⟩ := (h.phaseInv hphase t).base
    exact ⟨n, hn, hfloor, by omega⟩
  | sleeping =>
    obtain ⟨n, hn⟩ := h.phaseInv hphase
    exact ⟨n, hn t⟩
  | polling newBlockNumber events =>
    obtain ⟨-, -, n, hn⟩ := h.phaseInv hphase
    exact ⟨n, (hn t).1⟩
  | stopped => exact h.phaseInv hphase t

/-- A step of a retriever leaves the others alone. -/
lemma topicInv_update {floor toBlock : Nat} {rows : List EthEventDao} {cache : List EthEvent}
    {t : EventTopic} {scan : Scan} (hinv : TopicInv c cp rows cache floor toBlock t scan)
    (hothers : ∀ t', t' ≠ t → TopicInv c cp rows cache floor toBlock t' (s.scans t')) (t' : EventTopic) :
    TopicInv c cp rows cache floor toBlock t' (Function.update s.scans t scan t') := by
  by_cases h : t' = t
  · cases h
    rwa [Function.update_self]
  · rw [Function.update_of_ne h]
    exact hothers t' h

/-- What the rows reach stays reached while blocks are mined. -/
lemma RowsReach.mono {t : EventTopic} {n : Nat} (h : RowsReach c cp s t n) (hrows : s'.rows = s.rows)
    (hheight : s.height ≤ s'.height) : RowsReach c cp s' t n :=
  ⟨hrows ▸ h.1, h.2.1, h.2.2.trans (by omega)⟩

/-- A write of the first synchronisation. -/
lemma Inv.writeDb (h : Inv c cp s) {t : EventTopic} {start : Nat} {events : List EthEvent}
    (hphase : s.phase = .starting) (hscan : s.scans t = .storing start events) :
    (events.map formatData).foldl save s.rows = s.rows ++ events.map formatData ∧
    RowsInv c cp (s.rows ++ events.map formatData) ∧
    ∀ t', TopicInv c cp (s.rows ++ events.map formatData) [] cp.earliestBlock s.blockNumber t'
      (Function.update s.scans t (.scanning start events.getLast?) t') := by
  have htopics := h.phaseInv hphase
  have hstoring := (htopics t).scan
  rw [hscan] at hstoring
  obtain ⟨a, ha, hearliest, hle, hlimit, hevents⟩ := hstoring
  have hstart : Reaches c cp s.rows events t start := by
    have happend := ha.append hearliest hle
    rwa [← hevents, List.nil_append] at happend
  have hnone (t' : EventTopic) (hne : t' ≠ t) :
      events.filter (·.topics.head? = some t'.mainTopic) = [] := hevents ▸ filter_between_ne hne.symm
  have hreaches (t' : EventTopic) : ∃ n, Reaches c cp s.rows events t' n := by
    by_cases heq : t' = t
    · exact ⟨start, heq ▸ hstart⟩
    · obtain ⟨n, hn, -, -⟩ := (htopics t').base
      exact ⟨n, (reaches_of_cache_nil (hnone t' heq)).mpr hn⟩
  obtain ⟨hsave, hrows⟩ := save_indexed h.rows
    (fun e he => indexed_of_mem_between (hevents ▸ he)) hreaches
  refine ⟨hsave, hrows, topicInv_update ?_ fun t' hne => ?_⟩
  · have hstart' : Reaches c cp (s.rows ++ events.map formatData) [] t start := by
      rw [Reaches, held_formatData]
      exact hstart
    exact ⟨⟨start, hstart', hearliest.trans hle, hlimit⟩, hstart', hearliest.trans hle, hlimit⟩
  · have hheld : held t' s.rows [] = held t' (s.rows ++ events.map formatData) [] := by
      rw [held_formatData, held, held, hnone t' hne, List.filter_nil]
    exact (htopics t').congr hheld hheld rfl

/-- A write to the cache of a poll. -/
lemma Inv.writeCache (h : Inv c cp s) {t : EventTopic} {start newBlockNumber : Nat}
    {cache events : List EthEvent} (hphase : s.phase = .polling newBlockNumber cache)
    (hscan : s.scans t = .storing start events) :
    (∀ e ∈ cache ++ events, Indexed c cp e) ∧
    ∃ n, ∀ t', RowsReach c cp s t' n ∧ TopicInv c cp s.rows (cache ++ events) n newBlockNumber t'
      (Function.update s.scans t (.scanning start events.getLast?) t') := by
  obtain ⟨-, hcache, n, hn⟩ := h.phaseInv hphase
  have hstoring := (hn t).2.scan
  rw [hscan] at hstoring
  obtain ⟨a, ha, hearliest, hle, hlimit, hevents⟩ := hstoring
  refine ⟨fun e he => ?_, n, fun t' => ⟨(hn t').1, ?_⟩⟩
  · rcases List.mem_append.mp he with hold | hnew
    · exact hcache e hold
    · exact indexed_of_mem_between (hevents ▸ hnew)
  · refine topicInv_update ?_ (fun t' hne => ?_) t'
    · refine ⟨(hn t).2.base, ?_, hearliest.trans hle, hlimit⟩
      exact hevents ▸ ha.append hearliest hle
    · have hnone : events.filter (·.topics.head? = some t'.mainTopic) = [] :=
        hevents ▸ filter_between_ne hne.symm
      refine (hn t').2.congr rfl ?_ ?_
      · rw [held_append, hnone, List.append_nil]
      · rw [List.filter_append, hnone, List.append_nil]

/-- The rows after a poll in which nothing fails reach to its block. -/
lemma Inv.pollWrites (h : Inv c cp s) {newBlockNumber : Nat} {cache : List EthEvent}
    (hphase : s.phase = .polling newBlockNumber cache) (hsettled : s.Succeeded) :
    (cache.map formatData).foldl save s.rows = s.rows ++ cache.map formatData ∧
    RowsInv c cp (s.rows ++ cache.map formatData) ∧
    ∃ n, newBlockNumber + 1 ≤ n ∧ cp.earliestBlock ≤ n ∧ n ≤ max cp.earliestBlock (s.height + 1) ∧
      ∀ t, Reaches c cp (s.rows ++ cache.map formatData) [] t n := by
  obtain ⟨hblock, hcache, n, hn⟩ := h.phaseInv hphase
  have hreaches (t : EventTopic) : Reaches c cp s.rows cache t (max n (newBlockNumber + 1)) := by
    obtain ⟨message, hnone⟩ := hsettled t
    have hscan := (hn t).2.scan
    rwa [hnone] at hscan
  obtain ⟨hsave, hrows⟩ := save_indexed h.rows hcache fun t => ⟨_, hreaches t⟩
  obtain ⟨-, hearliest, hheight⟩ := (hn .offchain).1
  refine ⟨hsave, hrows, _, Nat.le_max_right _ _, hearliest.trans (Nat.le_max_left _ _), by omega,
    fun t => ?_⟩
  rw [Reaches, held_formatData]
  exact hreaches t

/-- The first synchronisation has succeeded. -/
lemma Inv.started (h : Inv c cp s) (hphase : s.phase = .starting) (hsettled : s.Succeeded) (t : EventTopic) :
    Reaches c cp s.rows [] t (max cp.earliestBlock (s.blockNumber + 1)) := by
  obtain ⟨message, hnone⟩ := hsettled t
  have hscan := (h.phaseInv hphase t).scan
  rwa [hnone] at hscan

/-- Every step keeps what the rows hold of the chain. -/
lemma Inv.step (h : Inv c cp s) (hbatch : 0 < cp.logBatchSize) (hstep : Step c cp s a s') :
    Inv c cp s' := by
  have hmono {s' : Server} {t : EventTopic} {n : Nat} (hrows : s'.rows = s.rows)
      (hheight : s.height ≤ s'.height) (hr : RowsReach c cp s t n) : RowsReach c cp s' t n :=
    hr.mono hrows hheight
  cases hstep with
  | mine =>
    have hheight : s.height ≤ s.height + 1 := s.height.le_succ
    refine ⟨h.blockNumber.trans hheight, h.rows, ?_, h.ready⟩
    show PhaseInv c cp _ s.phase
    cases hphase : s.phase with
    | starting => exact h.phaseInv hphase
    | sleeping =>
      obtain ⟨n, hn⟩ := h.phaseInv hphase
      exact ⟨n, fun t => hmono rfl hheight (hn t)⟩
    | polling newBlockNumber events =>
      obtain ⟨hblock, hevents, n, hn⟩ := h.phaseInv hphase
      exact ⟨hblock.trans hheight, hevents, n, fun t => ⟨hmono rfl hheight (hn t).1, (hn t).2⟩⟩
    | stopped =>
      intro t
      obtain ⟨n, hn⟩ := h.phaseInv hphase t
      exact ⟨n, hmono rfl hheight hn⟩
  | scan hblock hscan =>
    refine ⟨h.blockNumber, h.rows, ?_, h.ready⟩
    show PhaseInv c cp _ s.phase
    rw [Server.toBlock] at hblock
    cases hphase : s.phase with
    | starting =>
      have htopics := h.phaseInv hphase
      rw [hphase] at hblock
      cases hblock
      exact topicInv_update ((htopics _).step (le_refl _) hbatch hscan) fun t' _ => htopics t'
    | polling newBlockNumber events =>
      obtain ⟨hle, hevents, n, hn⟩ := h.phaseInv hphase
      rw [hphase] at hblock
      cases hblock
      exact ⟨hle, hevents, n, fun t => ⟨(hn t).1, topicInv_update
        ((hn _).2.step (hn t).1.2.1 hbatch hscan) (fun t' _ => (hn t').2) t⟩⟩
    | _ =>
      rw [hphase] at hblock
      cases hblock
  | writeDb hphase hscan hwrite =>
    obtain ⟨hsave, hrows, htopics⟩ := h.writeDb hphase hscan
    cases (addEthLogs_ok (by decide) hwrite).trans hsave
    refine ⟨h.blockNumber, hrows, ?_, h.ready⟩
    show PhaseInv c cp _ s.phase
    rw [hphase]
    exact htopics
  | writeDbFails hphase hscan hwrite =>
    have htopics := h.phaseInv hphase
    refine ⟨h.blockNumber, h.rows, ?_, h.ready⟩
    show PhaseInv c cp _ s.phase
    rw [hphase]
    exact topicInv_update ⟨(htopics _).base, trivial⟩ fun t' _ => htopics t'
  | writeCache hphase hscan =>
    obtain ⟨hle, -, -⟩ := h.phaseInv hphase
    exact ⟨h.blockNumber, h.rows, ⟨hle, h.writeCache hphase hscan⟩, fun _ => .inr ⟨_, _, rfl⟩⟩
  | startFails hphase hsettled hstream =>
    refine ⟨h.blockNumber, h.rows, h.rowsReach, fun hready => ?_⟩
    rcases h.ready hready with hsleeping | ⟨newBlockNumber, events, hpolling⟩
    · cases hphase.symm.trans hsleeping
    · cases hphase.symm.trans hpolling
  | startAgain hphase hsettled hstream hfailed =>
    have htopics := h.phaseInv hphase
    refine ⟨h.blockNumber, h.rows, ?_, h.ready⟩
    show PhaseInv c cp _ s.phase
    rw [hphase]
    exact fun t => ⟨(htopics t).base, rfl⟩
  | started hphase hsettled =>
    have hblock := h.blockNumber
    exact ⟨Nat.le_refl _, h.rows, ⟨max cp.earliestBlock (s.blockNumber + 1), fun t =>
      ⟨h.started hphase hsettled t, Nat.le_max_left _ _, by
        show _ ≤ max cp.earliestBlock (s.height + 1); omega⟩⟩, fun _ => .inl rfl⟩
  | poll hphase hblock =>
    rename_i newBlockNumber
    obtain ⟨n, hn⟩ := h.phaseInv hphase
    have hle : newBlockNumber ≤ s.height := by
      rcases hblock with rfl | rfl
      · exact Nat.le_refl _
      · exact h.blockNumber
    exact ⟨hle, h.rows, ⟨hle, fun e he => absurd he List.not_mem_nil, n,
      fun t => ⟨hn t, ⟨n, (hn t).1, Nat.le_refl _, Nat.le_max_left _ _⟩, rfl⟩⟩,
      fun _ => .inr ⟨_, _, rfl⟩⟩
  | pollStops hphase hsettled hstream =>
    exact ⟨h.blockNumber, h.rows, h.rowsReach, fun hready => absurd hready Bool.false_ne_true⟩
  | pollSkips hphase hsettled hstream hfailed =>
    obtain ⟨-, -, n, hn⟩ := h.phaseInv hphase
    exact ⟨h.blockNumber, h.rows, ⟨n, fun t => (hn t).1⟩, fun _ => .inl rfl⟩
  | pollWrites hphase hsettled =>
    rename_i newBlockNumber cache fails
    obtain ⟨-, -, n, hn⟩ := h.phaseInv hphase
    obtain ⟨hsave, hrows, n', -, hearliest, hheight, hn'⟩ := h.pollWrites hphase hsettled
    rcases writeEventsToDB_cases fails s.rows cache with hunchanged | hwritten
    · refine ⟨h.blockNumber, ?_, ⟨n, fun t => (hn t).1.mono hunchanged (Nat.le_refl _)⟩, fun _ => .inl rfl⟩
      show RowsInv c cp (writeEventsToDB fails s.rows cache)
      rw [hunchanged]
      exact h.rows
    · rw [hsave] at hwritten
      refine ⟨h.blockNumber, ?_, ⟨n', fun t => ⟨?_, hearliest, hheight⟩⟩, fun _ => .inl rfl⟩
      · show RowsInv c cp (writeEventsToDB fails s.rows cache)
        exact hwritten ▸ hrows
      · show Reaches c cp (writeEventsToDB fails s.rows cache) [] t n'
        exact hwritten ▸ hn' t
  | restart =>
    refine ⟨Nat.le_refl _, h.rows, fun t => ⟨?_, rfl⟩, fun hready => absurd hready Bool.false_ne_true⟩
    exact h.rowsReach t

/-- While a server is ready its rows hold all topics up to one block. -/
lemma Inv.rowsReach_all (h : Inv c cp s) (hready : s.ready = true) : ∃ n, Holds c cp s n := by
  rcases h.ready hready with hsleeping | ⟨newBlockNumber, events, hpolling⟩
  · exact h.phaseInv hsleeping
  · obtain ⟨-, -, n, hn⟩ := h.phaseInv hpolling
    exact ⟨n, fun t => (hn t).1⟩

/-- There is a greatest such block. -/
lemma Inv.exists_greatest (h : Inv c cp s) (hready : s.ready = true) :
    ∃ n, Holds c cp s n ∧ ∀ m, Holds c cp s m → m ≤ n := by
  classical
  obtain ⟨n, hn⟩ := h.rowsReach_all hready
  have hlimit {m : Nat} (hm : Holds c cp s m) : m ≤ max cp.earliestBlock (s.height + 1) := (hm .offchain).2.2
  exact ⟨_, Nat.findGreatest_spec (P := Holds c cp s) (hlimit hn) hn,
    fun m hm => Nat.le_findGreatest (hlimit hm) hm⟩

/-! ## What stays -/

/-- Rows are only added. -/
lemma Inv.rows_append (h : Inv c cp s) (hstep : Step c cp s a s') :
    s.height ≤ s'.height ∧ ∃ rows, s'.rows = s.rows ++ rows := by
  cases hstep with
  | mine => exact ⟨s.height.le_succ, [], (List.append_nil _).symm⟩
  | writeDb hphase hscan hwrite =>
    obtain ⟨hsave, -, -⟩ := h.writeDb hphase hscan
    exact ⟨Nat.le_refl _, _, (addEthLogs_ok (by decide) hwrite).trans hsave⟩
  | pollWrites hphase hsettled =>
    rename_i newBlockNumber cache fails
    obtain ⟨hsave, -, -⟩ := h.pollWrites hphase hsettled
    rcases writeEventsToDB_cases fails s.rows cache with hunchanged | hwritten
    · exact ⟨Nat.le_refl _, [], hunchanged.trans (List.append_nil _).symm⟩
    · exact ⟨Nat.le_refl _, _, hwritten.trans hsave⟩
  | _ => exact ⟨Nat.le_refl _, [], (List.append_nil _).symm⟩

/-- With the rows that are added a topic is held up to the later of the two blocks. -/
lemma RowsReach.max {t : EventTopic} {n m : Nat} (h : RowsReach c cp s t n) (h' : RowsReach c cp s' t m)
    (hheight : s.height ≤ s'.height) {rows : List EthEventDao} (hrows : s'.rows = s.rows ++ rows) :
    RowsReach c cp s' t (max n m) := by
  obtain ⟨hreaches, hearliest, hlimit⟩ := h
  obtain ⟨hreaches', -, hlimit'⟩ := h'
  refine ⟨?_, hearliest.trans (Nat.le_max_left _ _), by omega⟩
  rw [reaches_nil_iff] at hreaches hreaches' ⊢
  rw [hrows, List.filter_append, List.map_append] at hreaches' ⊢
  exact between_max hreaches hreaches'

/-- The first synchronisation goes on with the block it was started with, or is started anew. -/
lemma Step.starting (hstep : Step c cp s a s') (hphase : s'.phase = .starting) :
    s.phase = .starting ∧ s'.blockNumber = s.blockNumber ∨ s'.blockNumber = s.height := by
  cases hstep with
  | restart => exact .inr rfl
  | mine => exact .inl ⟨hphase, rfl⟩
  | scan hblock hscan => exact .inl ⟨hphase, rfl⟩
  | writeDb hstarting => exact .inl ⟨hstarting, rfl⟩
  | writeDbFails hstarting => exact .inl ⟨hstarting, rfl⟩
  | startAgain hstarting => exact .inl ⟨hstarting, rfl⟩
  | _ => cases hphase

/-- A server becomes ready by its first synchronisation. -/
lemma Step.ready (hstep : Step c cp s a s') (hready : s'.ready = true) :
    s.ready = true ∨ s.phase = .starting ∧ s.Succeeded ∧ s'.rows = s.rows := by
  cases hstep with
  | started hphase hsettled => exact .inr ⟨hphase, hsettled, rfl⟩
  | pollStops => cases hready
  | restart => cases hready
  | _ => exact .inl hready

/-- Along a run rows are only added, and blocks. -/
lemma Inv.run (h : Inv c cp s) (hbatch : 0 < cp.logBatchSize) {as : List Actor}
    (hrun : Run (Step c cp) s as s') :
    Inv c cp s' ∧ s.height ≤ s'.height ∧ ∃ rows, s'.rows = s.rows ++ rows := by
  refine hrun.invariant (I := fun s' => Inv c cp s' ∧ s.height ≤ s'.height ∧ ∃ rows, s'.rows = s.rows ++ rows)
    ⟨h, Nat.le_refl _, [], (List.append_nil _).symm⟩ fun s₁ a s₂ hs hstep => ?_
  obtain ⟨hinv, hheight, rows, hrows⟩ := hs
  obtain ⟨hheight', rows', hrows'⟩ := hinv.rows_append hstep
  refine ⟨hinv.step hbatch hstep, hheight.trans hheight', rows ++ rows', ?_⟩
  rw [hrows', hrows, List.append_assoc]

/-- What was held up to a block is held by a later server that is ready. -/
lemma Inv.holds_max (h : Inv c cp s) (hbatch : 0 < cp.logBatchSize) {as : List Actor}
    (hrun : Run (Step c cp) s as s') (hready : s'.ready = true) {n : Nat} (hn : Holds c cp s n) :
    ∃ m, n ≤ m ∧ Holds c cp s' m := by
  obtain ⟨hinv, hheight, rows, hrows⟩ := h.run hbatch hrun
  obtain ⟨m, hm⟩ := hinv.rowsReach_all hready
  exact ⟨max n m, Nat.le_max_left _ _, fun t => (hn t).max (hm t) hheight hrows⟩

/-- A server that was started at a block, and is ready later, holds more than that block. -/
lemma Inv.holds_started (h : Inv c cp s) (hbatch : 0 < cp.logBatchSize) {as : List Actor}
    (hrun : Run (Step c cp) s as s') (hphase : s.phase = .starting) (hready : s'.ready = true) :
    ∃ m, s.blockNumber < m ∧ Holds c cp s' m := by
  have hall := hrun.invariant
    (I := fun s' => Inv c cp s' ∧ s.blockNumber ≤ s'.height ∧
      (s'.phase = .starting → s.blockNumber ≤ s'.blockNumber) ∧
      (s'.ready = true → ∃ m, s.blockNumber < m ∧ Holds c cp s' m)) ?_ ?_
  · exact hall.2.2.2 hready
  · refine ⟨h, h.blockNumber, fun _ => Nat.le_refl _, fun hready => ?_⟩
    -- the process is not ready while it starts
    rcases h.ready hready with hsleeping | ⟨_, _, hpolling⟩
    · cases hphase.symm.trans hsleeping
    · cases hphase.symm.trans hpolling
  · rintro s₁ a s₂ ⟨hinv, hheight, hstarting, hholds⟩ hstep
    obtain ⟨hheight', rows, hrows⟩ := hinv.rows_append hstep
    have hinv' := hinv.step hbatch hstep
    refine ⟨hinv', hheight.trans hheight', fun hphase' => ?_, fun hready' => ?_⟩
    · rcases hstep.starting hphase' with ⟨hphase₁, hblock⟩ | hblock
      · exact hblock ▸ hstarting hphase₁
      · exact hblock ▸ hheight
    · obtain ⟨m, hm⟩ := hinv'.rowsReach_all hready'
      rcases hstep.ready hready' with hready₁ | ⟨hphase₁, hsettled, hsame⟩
      · obtain ⟨n, hn, hheld⟩ := hholds hready₁
        exact ⟨max n m, hn.trans_le (Nat.le_max_left _ _), fun t => (hheld t).max (hm t) hheight' hrows⟩
      · have hle := hstarting hphase₁
        have hblock := hinv.blockNumber
        refine ⟨max cp.earliestBlock (s₁.blockNumber + 1), by omega, fun t => ⟨?_, Nat.le_max_left _ _, by omega⟩⟩
        rw [hsame]
        exact hinv.started hphase₁ hsettled t

end Invariant

/-! ## The sequence of the rollups -/

section Sequence

variable {c : Chain} {cp : ChainProperties} {s s' : Server} {a : Actor} {t : EventTopic}

/-- The rollups are numbered from zero on, and no block has two of them. -/
structure Sequential (c : Chain) (cp : ChainProperties) : Prop where
  consecutive : ∀ n, rollupSequenceValidation none
    (between (c.topicLogs cp EventTopic.rollupProcessed.mainTopic) cp.earliestBlock n) = none
  single : ∀ k, (c.topicLogs cp EventTopic.rollupProcessed.mainTopic k).length ≤ 1

/-- The validator is given the events that come next. -/
def SequenceInv (c : Chain) (cp : ChainProperties) (t : EventTopic) : Scan → Prop
  | .scanning start previousEvent => t = .rollupProcessed →
    previousEvent = (between (c.topicLogs cp t.mainTopic) cp.earliestBlock start).getLast?
  | .storing start es => t = .rollupProcessed → es ≠ [] ∧
    ∃ xs, between (c.topicLogs cp t.mainTopic) cp.earliestBlock start = xs ++ es
  | .settled .STREAM _ => False
  | _ => True

/-- A sequence that is validated goes on validated. -/
lemma rollupSequenceValidation_append {prev : Option EthEvent} {xs ys : List EthEvent}
    (h : rollupSequenceValidation prev (xs ++ ys) = none) :
    rollupSequenceValidation (xs.getLast?.or prev) ys = none := by
  induction xs generalizing prev with
  | nil => exact h
  | cons x xs ih =>
    rw [List.cons_append, rollupSequenceValidation] at h
    split at h
    case isTrue =>
      have hrest := ih h
      cases xs with
      | nil => exact hrest
      | cons y xs =>
        rw [List.getLast?_cons_cons]
        rw [List.getLast?_cons] at hrest ⊢
        exact hrest
    case isFalse => cases h

/-- The last event of the rows is the last event of the chain that they hold. -/
lemma lastEvent_eq (hsequential : Sequential c cp) {rows : List EthEventDao} {n : Nat}
    (hreaches : Reaches c cp rows [] .rollupProcessed n) (hn : cp.earliestBlock ≤ n)
    {last : Option EthEvent} (hlast : LastEvent rows EventTopic.rollupProcessed.mainTopic last) :
    last = (between (c.topicLogs cp EventTopic.rollupProcessed.mainTopic) cp.earliestBlock
      (initialStart cp last)).getLast? := by
  have hresume := (hreaches.resume hn hlast).1
  cases last with
  | none =>
    have hstart : initialStart cp none = cp.earliestBlock := Nat.max_eq_right (Nat.zero_le _)
    rw [hstart, between_self]
    rfl
  | some e =>
    obtain ⟨row, hrow, htopic, rfl, -⟩ := hlast
    have hmem : serializeData row ∈ between (c.topicLogs cp EventTopic.rollupProcessed.mainTopic)
        cp.earliestBlock n := reaches_nil_iff.mp hreaches ▸
      List.mem_map_of_mem (List.mem_filter.mpr ⟨hrow, decide_eq_true htopic⟩)
    obtain ⟨hearliest, -, hlogs⟩ := (mem_between (c.topicLogs_numbered cp _)).mp hmem
    have hstart : initialStart cp (some (serializeData row)) = (serializeData row).blockNumber + 1 :=
      Nat.max_eq_left (hearliest.trans (Nat.le_succ _))
    have hsingle := hsequential.single (serializeData row).blockNumber
    rw [hstart, between_succ hearliest]
    obtain ⟨x, hx⟩ : ∃ x, c.topicLogs cp EventTopic.rollupProcessed.mainTopic
        (serializeData row).blockNumber = [x] :=
      List.length_eq_one_iff.mp (le_antisymm hsingle (List.length_pos_of_mem hlogs))
    rw [hx] at hlogs ⊢
    rw [List.mem_singleton.mp hlogs, List.getLast?_concat]

/-- A retriever that has reached a block validates the events that follow. -/
lemma SequenceInv.step (hsequential : Sequential c cp) {rows : List EthEventDao} {n toBlock : Nat}
    (hreaches : Reaches c cp rows [] t n) (hn : cp.earliestBlock ≤ n) {scan scan' : Scan}
    (hscan : ∀ start prev, scan = .scanning start prev → cp.earliestBlock ≤ start)
    (h : SequenceInv c cp t scan) (hstep : ScanStep c cp t rows toBlock scan scan') :
    SequenceInv c cp t scan' := by
  cases hstep with
  | lastEvent hlast =>
    intro ht
    cases ht
    exact lastEvent_eq hsequential hreaches hn hlast
  | lastEventFails => trivial
  | request hstart =>
    rename_i start prev
    have hearliest := hscan start prev rfl
    have hend : start ≤ endBlock cp start toBlock + 1 := by
      rw [endBlock]
      omega
    have hall : between (c.topicLogs cp t.mainTopic) _ _ ++ _ = _ := between_append hearliest hend
    unfold received
    split
    case isTrue hnone =>
      intro ht
      rw [Chain.getLogs] at hnone
      rw [← hall, hnone, List.append_nil]
      exact h ht
    case isFalse hsome =>
      split
      case h_1 message hbroken =>
        cases t with
        | rollupProcessed =>
          have hnext := hsequential.consecutive (endBlock cp start toBlock + 1)
          rw [← hall] at hnext
          have hvalid := rollupSequenceValidation_append hnext
          rw [Option.or_none, ← h rfl] at hvalid
          exact absurd (hvalid.symm.trans hbroken) (Option.some_ne_none message).symm
        | _ => cases hbroken
      case h_2 => exact fun _ => ⟨hsome, _, hall.symm⟩
  | requestFails => trivial
  | finished => trivial

/-- After the events are written it goes on from the last of them. -/
lemma SequenceInv.written {start : Nat} {es : List EthEvent} (h : SequenceInv c cp t (.storing start es)) :
    SequenceInv c cp t (.scanning start es.getLast?) := by
  intro ht
  obtain ⟨hne, xs, hxs⟩ := h ht
  rw [hxs, List.getLast?_append_of_ne_nil _ hne]

/-- No retriever starts before the earliest block. -/
lemma Inv.scanning_ge (h : Inv c cp s) {toBlock : Nat} (hblock : s.toBlock = some toBlock) {start : Nat}
    {prev : Option EthEvent} (hscan : s.scans t = .scanning start prev) : cp.earliestBlock ≤ start := by
  have hle {floor toBlock : Nat} {cache : List EthEvent}
      (hinv : TopicInv c cp s.rows cache floor toBlock t (s.scans t)) : cp.earliestBlock ≤ start := by
    have hs := hinv.scan
    rw [hscan] at hs
    exact hs.2.1
  rw [Server.toBlock] at hblock
  cases hphase : s.phase with
  | starting => exact hle (h.phaseInv hphase t)
  | polling newBlockNumber events =>
    obtain ⟨-, -, n, hn⟩ := h.phaseInv hphase
    exact hle (hn t).2
  | _ =>
    rw [hphase] at hblock
    cases hblock

/-- No sequence is broken, and the server has not stopped. -/
structure Running (c : Chain) (cp : ChainProperties) (s : Server) : Prop where
  scans : ∀ t, SequenceInv c cp t (s.scans t)
  phase : s.phase ≠ .stopped
  ready : s.phase = .starting ∨ s.ready = true

/-- A running server has seen no broken sequence. -/
lemma Running.not_stream (h : Running c cp s) : ¬ s.Failed .STREAM := by
  rintro ⟨t, message, hscan⟩
  have hseq := h.scans t
  rwa [hscan] at hseq

/-- On a chain with consecutive rollups every step keeps it running. -/
lemma Running.step (hsequential : Sequential c cp) (hinv : Inv c cp s) (h : Running c cp s)
    (hstep : Step c cp s a s') : Running c cp s' := by
  have hstream := h.not_stream
  obtain ⟨hscans, hphase, hready⟩ := h
  have hserving (hne : s.phase ≠ .starting) : s.ready = true := hready.resolve_left hne
  have hupdate (t : EventTopic) {scan : Scan} (hscan : SequenceInv c cp t scan) (t' : EventTopic) :
      SequenceInv c cp t' (Function.update s.scans t scan t') := by
    by_cases heq : t' = t
    · cases heq
      rwa [Function.update_self]
    · rw [Function.update_of_ne heq]
      exact hscans t'
  cases hstep with
  | scan hblock hscan =>
    rename_i t toBlock scan
    obtain ⟨n, hn⟩ := hinv.rowsReach t
    exact ⟨hupdate t ((hscans t).step hsequential hn.1 hn.2.1
      (fun start prev heq => hinv.scanning_ge hblock heq) hscan), hphase, hready⟩
  | writeDb hstarting hscan hwrite =>
    exact ⟨hupdate _ (hscan ▸ hscans _ : SequenceInv c cp _ (.storing _ _)).written, hphase, hready⟩
  | writeDbFails => exact ⟨hupdate _ trivial, hphase, hready⟩
  | writeCache hpolling hscan =>
    exact ⟨hupdate _ (hscan ▸ hscans _ : SequenceInv c cp _ (.storing _ _)).written,
      fun h => (by cases h), .inr (hserving fun h => by cases hpolling.symm.trans h)⟩
  | startFails _ _ hfailed => exact absurd hfailed hstream
  | pollStops _ _ hfailed => exact absurd hfailed hstream
  | startAgain => exact ⟨fun _ => trivial, hphase, hready⟩
  | poll hsleeping =>
    exact ⟨fun _ => trivial, fun h => (by cases h),
      .inr (hserving fun h => by cases hsleeping.symm.trans h)⟩
  | restart => exact ⟨fun _ => trivial, fun h => (by cases h), .inl rfl⟩
  | mine => exact ⟨hscans, hphase, hready⟩
  | started => exact ⟨hscans, fun h => (by cases h), .inr rfl⟩
  | pollSkips hpolling =>
    exact ⟨hscans, fun h => (by cases h), .inr (hserving fun h => by cases hpolling.symm.trans h)⟩
  | pollWrites hpolling =>
    exact ⟨hscans, fun h => (by cases h), .inr (hserving fun h => by cases hpolling.symm.trans h)⟩

end Sequence

/-- The invariants hold in every state that is reached. -/
lemma running {c : Chain} {chainId : Nat} {address : Text}
    (hsequential : Sequential c (chainProperties chainId address)) {height : Nat} {as : List Actor}
    {s : Server} (h : Run (Step c (chainProperties chainId address)) (Server.init height) as s) :
    Inv c (chainProperties chainId address) s ∧ Running c (chainProperties chainId address) s := by
  have hinit : Running c (chainProperties chainId address) (Server.init height) :=
    ⟨fun _ => trivial, fun hphase => (by cases hphase), .inl rfl⟩
  exact h.invariant (I := fun s => Inv c _ s ∧ Running c _ s) ⟨inv_init height, hinit⟩
    fun s a s' hs hstep => ⟨hs.1.step (logBatchSize_pos chainId address) hstep,
      hs.2.step hsequential hs.1 hstep⟩

end AztecConnect.Kebab
