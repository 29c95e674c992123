import AztecConnect.Kebab.Server
import Mathlib.Data.Finset.Max

/-!
# Kebab catches up

Whatever has failed before, a server that does not fail any more reaches the height of the chain: no scan
is stuck (`advance`), a scan that goes on comes to its end (`settle`), and the poll that follows writes the
events of all topics (`catches_up`).
-/

namespace AztecConnect.Kebab

open CatchUp Transition

variable {c : Chain} {cp : ChainProperties} {s s' s'' : Server} {t : EventTopic}

/-! ## Runs of one process -/

/-- From one state to another while the process does not die and no block is mined. -/
def Leads (c : Chain) (cp : ChainProperties) (s s' : Server) : Prop :=
  ∃ as, (∀ a ∈ as, a ≠ .system ∧ a ≠ .node) ∧ Run (Step c cp) s as s'

/-- A state leads to itself. -/
lemma Leads.refl (s : Server) : Leads c cp s s := ⟨[], fun _ h => absurd h List.not_mem_nil, .nil⟩

/-- What it leads to leads on. -/
lemma Leads.trans (h : Leads c cp s s') (h' : Leads c cp s' s'') : Leads c cp s s'' := by
  obtain ⟨as, has, hrun⟩ := h
  obtain ⟨bs, hbs, hrun'⟩ := h'
  exact ⟨as ++ bs, fun a ha => (List.mem_append.mp ha).elim (has a) (hbs a), hrun.append hrun'⟩

/-- By a step of a retriever. -/
lemma Leads.of_retriever (h : Step c cp s (.retriever t) s') : Leads c cp s s' :=
  ⟨[.retriever t], fun a ha => by cases List.mem_singleton.mp ha; exact ⟨Actor.noConfusion, Actor.noConfusion⟩,
    .snoc .nil h⟩

/-- Or of the server. -/
lemma Leads.of_server (h : Step c cp s .server s') : Leads c cp s s' :=
  ⟨[.server], fun a ha => by cases List.mem_singleton.mp ha; exact ⟨Actor.noConfusion, Actor.noConfusion⟩,
    .snoc .nil h⟩

/-- What holds in every state that is reached. -/
structure Sound (c : Chain) (cp : ChainProperties) (s : Server) : Prop where
  batch : 0 < cp.logBatchSize
  sequential : Sequential c cp
  inv : Inv c cp s
  running : Running c cp s

/-- Every step keeps the state sound. -/
lemma Sound.step (h : Sound c cp s) {a : Actor} (hstep : Step c cp s a s') : Sound c cp s' :=
  ⟨h.batch, h.sequential, h.inv.step h.batch hstep, h.running.step h.sequential h.inv hstep⟩

/-! ## One scan -/

/-- The same synchronisation, in which only the scan of one topic has gone on. -/
structure Advances (t : EventTopic) (s s' : Server) : Prop where
  height : s'.height = s.height
  toBlock : s'.toBlock = s.toBlock
  starting : s.phase = .starting → s'.phase = .starting
  polling : ∀ newBlockNumber cache, s.phase = .polling newBlockNumber cache →
    ∃ cache', s'.phase = .polling newBlockNumber cache'
  others : ∀ t', t' ≠ t → s'.scans t' = s.scans t'

/-- A retriever that does nothing has not moved. -/
lemma Advances.refl (t : EventTopic) (s : Server) : Advances t s s :=
  ⟨rfl, rfl, id, fun _ cache h => ⟨cache, h⟩, fun _ _ => rfl⟩

/-- Steps of one retriever add up. -/
lemma Advances.trans (h : Advances t s s') (h' : Advances t s' s'') : Advances t s s'' where
  height := h'.height.trans h.height
  toBlock := h'.toBlock.trans h.toBlock
  starting hphase := h'.starting (h.starting hphase)
  polling newBlockNumber cache hphase := by
    obtain ⟨cache', hphase'⟩ := h.polling newBlockNumber cache hphase
    exact h'.polling newBlockNumber cache' hphase'
  others t' hne := (h'.others t' hne).trans (h.others t' hne)

/-- How much of a scan is left. -/
def Scan.remaining (toBlock : Nat) : Scan → Nat
  | .begins => 2 * (toBlock + 1) + 2
  | .scanning start _ => 2 * (toBlock + 1 - start) + 1
  | .storing start _ => 2 * (toBlock + 1 - start) + 2
  | .settled _ _ => 0

/-- There is a last event of the rows, or none. -/
lemma exists_lastEvent (rows : List EthEventDao) (topic : Text) : ∃ last, LastEvent rows topic last := by
  by_cases h : ∃ row ∈ rows, row.mainTopic = some topic
  · obtain ⟨row, hrow, htopic⟩ := h
    have hne : ((rows.filter (·.mainTopic = some topic)).toFinset).Nonempty :=
      ⟨row, List.mem_toFinset.mpr (List.mem_filter.mpr ⟨hrow, decide_eq_true htopic⟩)⟩
    obtain ⟨last, hlast, hmax⟩ := Finset.exists_max_image _ (fun row => row.blockNumber) hne
    simp only [List.mem_toFinset, List.mem_filter, decide_eq_true_eq] at hlast hmax
    exact ⟨some (serializeData last), last, hlast.1, hlast.2, rfl, fun row' hrow' htopic' =>
      hmax row' ⟨hrow', htopic'⟩⟩
  · exact ⟨none, fun row hrow htopic => h ⟨row, hrow, htopic⟩⟩

/-- A database that does not fail saves all logs. -/
lemma addEthLogs_none (rows : List EthEventDao) (logs : List EthEvent) :
    addEthLogs (fun _ => none) rows logs 200 = .ok ((logs.map formatData).foldl save rows) := by
  rw [addEthLogs, saveSlices_eq (by decide)]

/-- A step of a scan is one of the server that leaves the others. -/
lemma advance_scan {toBlock : Nat} {scan : Scan} (hblock : s.toBlock = some toBlock)
    (hscan : ScanStep c cp t s.rows toBlock (s.scans t) scan) :
    ∃ s', Step c cp s (.retriever t) s' ∧ Advances t s s' ∧ s'.scans t = scan :=
  ⟨_, .scan hblock hscan, ⟨rfl, rfl, id, fun _ cache hphase => ⟨cache, hphase⟩,
    fun _ hne => Function.update_of_ne hne _ _⟩, Function.update_self _ _ _⟩

/-- A write, if the database does not fail. -/
lemma advance_write (c : Chain) (cp : ChainProperties) {toBlock start : Nat} {es : List EthEvent} (hblock : s.toBlock = some toBlock)
    (hscan : s.scans t = .storing start es) :
    ∃ s', Step c cp s (.retriever t) s' ∧ Advances t s s' ∧
      s'.scans t = .scanning start es.getLast? := by
  cases hphase : s.phase with
  | starting =>
    exact ⟨_, .writeDb hphase hscan (addEthLogs_none s.rows es),
      ⟨rfl, rfl, id, fun _ cache hpolling => ⟨cache, hpolling⟩, fun _ hne => Function.update_of_ne hne _ _⟩,
      Function.update_self _ _ _⟩
  | polling newBlockNumber cache =>
    refine ⟨_, .writeCache hphase hscan, ⟨rfl, ?_, fun hstarting => ?_, fun _ cache' hpolling => ?_,
      fun _ hne => Function.update_of_ne hne _ _⟩, Function.update_self _ _ _⟩
    · rw [Server.toBlock, Server.toBlock, hphase]
    · cases hphase.symm.trans hstarting
    · cases hphase.symm.trans hpolling
      exact ⟨_, rfl⟩
  | _ =>
    rw [Server.toBlock, hphase] at hblock
    cases hblock

/-- A received batch ends the scan only if the sequence is broken. -/
lemma received_settled {start : Nat} {prev : Option EthEvent} {es : List EthEvent}
    {type : EventRetrieverErrors} {message : String}
    (h : received t start prev es = .settled type message) : type = .STREAM := by
  unfold received at h
  split at h
  case isTrue => cases h
  case isFalse =>
    split at h
    case h_1 =>
      cases h
      rfl
    case h_2 => cases h

/-- Else less remains. -/
lemma received_remaining (t : EventTopic) (start toBlock : Nat) (prev : Option EthEvent)
    (es : List EthEvent) :
    (received t start prev es).remaining toBlock ≤ 2 * (toBlock + 1 - start) + 2 := by
  unfold received
  split
  case isTrue => exact Nat.le_succ _
  case isFalse =>
    split
    case h_1 => exact Nat.zero_le _
    case h_2 => exact Nat.le_refl _

/-- No scan is stuck. -/
lemma advance (h : Sound c cp s) {toBlock : Nat} (hblock : s.toBlock = some toBlock)
    (hunsettled : ∀ type message, s.scans t ≠ .settled type message) :
    ∃ s', Step c cp s (.retriever t) s' ∧ Advances t s s' ∧
      (s'.scans t).remaining toBlock < (s.scans t).remaining toBlock ∧
      ∀ type message, s'.scans t = .settled type message → type = .NONE := by
  cases hscan : s.scans t with
  | begins =>
    obtain ⟨last, hlast⟩ := exists_lastEvent s.rows t.mainTopic
    obtain ⟨s', hstep, hadvances, hnext⟩ := advance_scan hblock (hscan ▸ ScanStep.lastEvent hlast :
      ScanStep c cp t s.rows toBlock (s.scans t) _)
    refine ⟨s', hstep, hadvances, ?_, fun type message hsettled => ?_⟩
    · rw [hnext, Scan.remaining, Scan.remaining]
      omega
    · cases hnext.symm.trans hsettled
  | scanning start prev =>
    rcases Nat.lt_or_ge toBlock start with hdone | hmore
    · obtain ⟨s', hstep, hadvances, hnext⟩ := advance_scan hblock (hscan ▸ ScanStep.finished hdone :
        ScanStep c cp t s.rows toBlock (s.scans t) _)
      refine ⟨s', hstep, hadvances, ?_, fun type message hsettled => ?_⟩
      · rw [hnext, Scan.remaining, Scan.remaining]
        omega
      · cases hnext.symm.trans hsettled
        rfl
    · obtain ⟨s', hstep, hadvances, hnext⟩ := advance_scan hblock (hscan ▸ ScanStep.request hmore :
        ScanStep c cp t s.rows toBlock (s.scans t) _)
      refine ⟨s', hstep, hadvances, ?_, fun type message hsettled => ?_⟩
      · have hbatch := h.batch
        have hle := received_remaining t (endBlock cp start toBlock + 1) toBlock prev
          (c.getLogs cp t.mainTopic start (endBlock cp start toBlock))
        rw [hnext, Scan.remaining]
        rw [endBlock] at hle ⊢
        omega
      · -- the sequence is not broken
        cases received_settled (hnext.symm.trans hsettled)
        exact absurd ⟨t, message, hsettled⟩ (h.step hstep).running.not_stream
  | storing start es =>
    obtain ⟨s', hstep, hadvances, hnext⟩ := advance_write c cp hblock hscan
    refine ⟨s', hstep, hadvances, ?_, fun type message hsettled => ?_⟩
    · rw [hnext, Scan.remaining, Scan.remaining]
      omega
    · cases hnext.symm.trans hsettled
  | settled type message => exact absurd hscan (hunsettled type message)

/-- A scan that goes on comes to its end. -/
lemma settle (h : Sound c cp s) {toBlock : Nat} (hblock : s.toBlock = some toBlock)
    (hunsettled : ∀ type message, s.scans t ≠ .settled type message) :
    ∃ s', Leads c cp s s' ∧ Sound c cp s' ∧ Advances t s s' ∧ ∃ message, s'.scans t = .settled .NONE message := by
  induction hn : (s.scans t).remaining toBlock using Nat.strongRecOn generalizing s with
  | ind n ih =>
    obtain ⟨s₁, hstep, hadvances, hless, hnone⟩ := advance h hblock hunsettled
    have hsound := h.step hstep
    by_cases hsettled : ∃ type message, s₁.scans t = .settled type message
    · obtain ⟨type, message, heq⟩ := hsettled
      cases hnone type message heq
      exact ⟨s₁, .of_retriever hstep, hsound, hadvances, message, heq⟩
    · have hunsettled' (type : EventRetrieverErrors) (message : String) :
          s₁.scans t ≠ .settled type message := fun heq => hsettled ⟨type, message, heq⟩
      obtain ⟨s₂, hleads, hsound', hadvances', hend⟩ := ih _ (hn ▸ hless) hsound
        (hadvances.toBlock.trans hblock) hunsettled' rfl
      exact ⟨s₂, (Leads.of_retriever hstep).trans hleads, hsound', hadvances.trans hadvances', hend⟩

/-! ## All scans -/

/-- The same synchronisation, at its end. -/
structure Ends (s s' : Server) : Prop where
  height : s'.height = s.height
  starting : s.phase = .starting → s'.phase = .starting
  polling : ∀ newBlockNumber cache, s.phase = .polling newBlockNumber cache →
    ∃ cache', s'.phase = .polling newBlockNumber cache'
  settled : s'.AllSettled
  succeeded : (∀ t, s.scans t = .begins) → s'.Succeeded

/-- The scan of a topic is brought to its end, if it is not there. -/
lemma settle_topic (t : EventTopic) (h : Sound c cp s) {toBlock : Nat} (hblock : s.toBlock = some toBlock) :
    ∃ s', Leads c cp s s' ∧ Sound c cp s' ∧ Advances t s s' ∧
      (∃ type message, s'.scans t = .settled type message) ∧
      (s.scans t = .begins → ∃ message, s'.scans t = .settled .NONE message) := by
  by_cases hsettled : ∃ type message, s.scans t = .settled type message
  · obtain ⟨type, message, heq⟩ := hsettled
    exact ⟨s, .refl s, h, .refl t s, ⟨type, message, heq⟩, fun hbegins => by cases heq.symm.trans hbegins⟩
  · obtain ⟨s', hleads, hsound, hadvances, message, heq⟩ := settle h hblock
      fun type message heq => hsettled ⟨type, message, heq⟩
    exact ⟨s', hleads, hsound, hadvances, ⟨_, message, heq⟩, fun _ => ⟨message, heq⟩⟩

/-- From every sound state all retrievers come to their end. -/
lemma settle_all (h : Sound c cp s) {toBlock : Nat} (hblock : s.toBlock = some toBlock) :
    ∃ s', Leads c cp s s' ∧ Sound c cp s' ∧ Ends s s' := by
  obtain ⟨s₁, hleads₁, hsound₁, hadv₁, hsettled₁, hnone₁⟩ := settle_topic .rollupProcessed h hblock
  have hblock₁ := hadv₁.toBlock.trans hblock
  obtain ⟨s₂, hleads₂, hsound₂, hadv₂, hsettled₂, hnone₂⟩ := settle_topic .defiBridge hsound₁ hblock₁
  have hblock₂ := hadv₂.toBlock.trans hblock₁
  obtain ⟨s₃, hleads₃, hsound₃, hadv₃, hsettled₃, hnone₃⟩ := settle_topic .offchain hsound₂ hblock₂
  have hrollup : s₃.scans .rollupProcessed = s₁.scans .rollupProcessed :=
    (hadv₃.others _ (by decide)).trans (hadv₂.others _ (by decide))
  have hdefi : s₃.scans .defiBridge = s₂.scans .defiBridge := hadv₃.others _ (by decide)
  have hdefi₁ : s₁.scans .defiBridge = s.scans .defiBridge := hadv₁.others _ (by decide)
  have hoffchain₂ : s₂.scans .offchain = s.scans .offchain :=
    (hadv₂.others _ (by decide)).trans (hadv₁.others _ (by decide))
  refine ⟨s₃, (hleads₁.trans hleads₂).trans hleads₃, hsound₃, ?_, ?_, ?_, ?_, ?_⟩
  · rw [hadv₃.height, hadv₂.height, hadv₁.height]
  · exact fun hphase => hadv₃.starting (hadv₂.starting (hadv₁.starting hphase))
  · intro newBlockNumber cache hphase
    obtain ⟨cache₁, hphase₁⟩ := hadv₁.polling _ _ hphase
    obtain ⟨cache₂, hphase₂⟩ := hadv₂.polling _ _ hphase₁
    exact hadv₃.polling _ _ hphase₂
  · intro t
    cases t with
    | rollupProcessed => exact hrollup ▸ hsettled₁
    | defiBridge => exact hdefi ▸ hsettled₂
    | offchain => exact hsettled₃
  · intro hbegins t
    cases t with
    | rollupProcessed => exact hrollup ▸ hnone₁ (hbegins _)
    | defiBridge => exact hdefi ▸ hnone₂ (hdefi₁.trans (hbegins _))
    | offchain => exact hnone₃ (hoffchain₂.trans (hbegins _))

/-! ## Polls -/

/-- A database that does not fail saves all events. -/
lemma writeEventsToDB_none (rows : List EthEventDao) (events : List EthEvent) :
    writeEventsToDB (fun _ => none) rows events = (events.map formatData).foldl save rows := by
  unfold writeEventsToDB
  split
  case isTrue hempty =>
    rw [hempty]
    rfl
  case isFalse => rw [addEthLogs_none]

/-- The rows hold all topics up to the height of the chain. -/
def Complete (c : Chain) (cp : ChainProperties) (s : Server) : Prop :=
  ∃ n, s.height < n ∧ ∀ t, Reaches c cp s.rows [] t n

/-- A poll of a server that sleeps. -/
lemma poll_completes (h : Sound c cp s) (hphase : s.phase = .sleeping) :
    ∃ s', Leads c cp s s' ∧ s'.height = s.height ∧ s'.ready = true ∧ Complete c cp s' := by
  have hpoll : Step c cp s .server _ := .poll hphase (.inl rfl)
  obtain ⟨s₁, hleads, hsound, hends⟩ := settle_all (h.step hpoll) rfl
  obtain ⟨cache, hpolling⟩ := hends.polling _ _ rfl
  have hsucceeded := hends.succeeded fun _ => rfl
  have hwrite : Step c cp s₁ .server _ := @Step.pollWrites _ _ _ _ _ (fun _ => none) hpolling hsucceeded
  have hready : s₁.ready = true := hsound.running.ready.resolve_left fun hstarting => by
    cases hpolling.symm.trans hstarting
  obtain ⟨hsave, -, n, hn, -, -, hreaches⟩ := hsound.inv.pollWrites hpolling hsucceeded
  have hheight : s₁.height = s.height := hends.height
  refine ⟨_, ((Leads.of_server hpoll).trans hleads).trans (.of_server hwrite), hheight, hready, n, ?_, ?_⟩
  · show s₁.height < n
    omega
  · intro t
    show Reaches c cp (writeEventsToDB (fun _ => none) s₁.rows cache) [] t n
    rw [writeEventsToDB_none, hsave]
    exact hreaches t

/-- A synchronisation of which something has failed ends, and the server sleeps. -/
lemma sleeps (h : Sound c cp s) : ∃ s', Leads c cp s s' ∧ Sound c cp s' ∧ s'.height = s.height ∧
    s'.phase = .sleeping := by
  cases hphase : s.phase with
  | starting =>
    obtain ⟨s₁, hleads, hsound, hends⟩ := settle_all h (by rw [Server.toBlock, hphase])
    have hstarting := hends.starting hphase
    by_cases hsucceeded : s₁.Succeeded
    · have hstep : Step c cp s₁ .server _ := .started hstarting hsucceeded
      exact ⟨_, hleads.trans (.of_server hstep), hsound.step hstep, hends.height, rfl⟩
    · have hagain : Step c cp s₁ .server _ := .startAgain hstarting hends.settled
        hsound.running.not_stream hsucceeded
      have hblock : Server.toBlock { s₁ with scans := fun _ => Scan.begins } = some s₁.blockNumber := by
        rw [Server.toBlock, hstarting]
      obtain ⟨s₂, hleads₂, hsound₂, hends₂⟩ := settle_all (hsound.step hagain) hblock
      have hstep : Step c cp s₂ .server _ := .started (hends₂.starting hstarting)
        (hends₂.succeeded fun _ => rfl)
      exact ⟨_, ((hleads.trans (.of_server hagain)).trans hleads₂).trans (.of_server hstep),
        hsound₂.step hstep, hends₂.height.trans hends.height, rfl⟩
  | sleeping => exact ⟨s, .refl s, h, rfl, hphase⟩
  | polling newBlockNumber cache =>
    obtain ⟨s₁, hleads, hsound, hends⟩ := settle_all h (by rw [Server.toBlock, hphase])
    obtain ⟨cache', hpolling⟩ := hends.polling _ _ hphase
    by_cases hsucceeded : s₁.Succeeded
    · have hstep : Step c cp s₁ .server _ := @Step.pollWrites _ _ _ _ _ (fun _ => none) hpolling hsucceeded
      exact ⟨_, hleads.trans (.of_server hstep), hsound.step hstep, hends.height, rfl⟩
    · have hstep : Step c cp s₁ .server _ := .pollSkips hpolling hends.settled hsound.running.not_stream
        hsucceeded
      exact ⟨_, hleads.trans (.of_server hstep), hsound.step hstep, hends.height, rfl⟩
  | stopped => exact absurd hphase h.running.phase

/-! ## A chain with one rollup -/

namespace SampleChain

/-- The first rollup. -/
def event : EthEvent where
  address := "0xff1f2b4adb9df6fc8eafecdcbf96a2b351680455".toList
  blockHash := "0x01".toList
  blockNumber := 0
  data := "0x".toList
  logIndex := 0
  removed := false
  topics := [ROLLUP_PROCESSED_EVENT_TOPIC, '0' :: 'x' :: List.replicate 64 '0']
  transactionHash := "0x02".toList
  transactionIndex := 0

/-- It is in the first block. -/
def logs : Nat → List EthEvent
  | 0 => [event]
  | _ + 1 => []

/-- It is the only event. -/
lemma between_logs (n : Nat) : between logs 0 n = if n = 0 then [] else [event] := by
  induction n with
  | zero => exact between_self
  | succ n ih =>
    rw [between_succ (Nat.zero_le n), ih]
    cases n <;> rfl

/-- The chain of this event. -/
def chain : Chain where
  logs := logs
  numbered
    | 0, e, he => by cases List.mem_singleton.mp he; rfl
    | _ + 1, _, he => absurd he List.not_mem_nil
  keys n := by
    rw [between_logs]
    split
    · exact List.nodup_nil
    · exact List.nodup_singleton _
  addresses
    | 0, e, he => by cases List.mem_singleton.mp he; decide
    | _ + 1, _, he => absurd he List.not_mem_nil
  topics
    | 0, e, he => by cases List.mem_singleton.mp he; decide
    | _ + 1, _, he => absurd he List.not_mem_nil

/-- The chain of the development network. -/
abbrev properties : ChainProperties := chainProperties 1337 event.address

/-- Its rollups are consecutive. -/
lemma sequential : Sequential chain properties where
  consecutive n := by
    show rollupSequenceValidation none (between (chain.topicLogs properties _) 0 n) = none
    rw [chain.between_topicLogs]
    show rollupSequenceValidation none ((between logs 0 n).filter _) = none
    rw [between_logs]
    split
    · rfl
    · decide
  single
    | 0 => by decide
    | _ + 1 => Nat.zero_le 1

end SampleChain

/-- From every state that is reached, whatever has failed before, a run on which nothing fails leads to a
server that is ready and answers with all logs up to the height of the chain. -/
theorem catches_up {c : Chain} {chainId : Nat} {address : Text}
    (hsequential : Sequential c (chainProperties chainId address)) {height : Nat} {as : List Actor}
    {s : Server} (h : Run (Step c (chainProperties chainId address)) (Server.init height) as s) :
    ∃ s', Leads c (chainProperties chainId address) s s' ∧ s'.height = s.height ∧ s'.ready = true ∧
      Complete c (chainProperties chainId address) s' := by
  obtain ⟨hinv, hrunning⟩ := running hsequential h
  obtain ⟨s₁, hleads, hsound, hheight, hsleeping⟩ :=
    sleeps ⟨logBatchSize_pos chainId address, hsequential, hinv, hrunning⟩
  obtain ⟨s₂, hleads₂, hheight₂, hready, hcomplete⟩ := poll_completes hsound hsleeping
  exact ⟨s₂, hleads.trans hleads₂, hheight₂.trans hheight, hready, hcomplete⟩

/-- A server that is started, with a scan for the rollups. -/
def SampleChain.server (scan : Scan) : Server :=
  { Server.init 20 with scans := Function.update (Server.init 20).scans .rollupProcessed scan }

/-- A run in which the first request for the rollups fails. -/
lemma SampleChain.fails : ∃ s : Server, s.Failed .PROVIDER ∧
    Run (Step SampleChain.chain SampleChain.properties) (Server.init 20)
      [.retriever .rollupProcessed, .retriever .rollupProcessed] s := by
  have hlast : LastEvent [] EventTopic.rollupProcessed.mainTopic none := fun row hrow => by cases hrow
  have hbegins : Step SampleChain.chain SampleChain.properties (Server.init 20)
    (.retriever .rollupProcessed) (SampleChain.server (.scanning 0 none)) := .scan rfl (.lastEvent hlast)
  have hfails : ScanStep SampleChain.chain SampleChain.properties .rollupProcessed [] 20
    (.scanning 0 none) (.settled .PROVIDER "") := .requestFails (Nat.zero_le 20)
  have hrequest : Step SampleChain.chain SampleChain.properties (SampleChain.server (.scanning 0 none))
    (.retriever .rollupProcessed) _ := .scan rfl hfails
  exact ⟨_, ⟨.rollupProcessed, "", rfl⟩, .snoc (.snoc .nil hbegins) hrequest⟩

/-- After a request failed, the server becomes ready with the whole log. -/
theorem catches_up_sample : ∃ s s', s.Failed .PROVIDER ∧
    Leads SampleChain.chain SampleChain.properties s s' ∧ s'.ready = true ∧
    Complete SampleChain.chain SampleChain.properties s' := by
  obtain ⟨s, hfailed, hrun⟩ := SampleChain.fails
  obtain ⟨s', hleads, -, hready, hcomplete⟩ := catches_up SampleChain.sequential hrun
  exact ⟨s, s', hfailed, hleads, hready, hcomplete⟩

/-- If the rollups are numbered from zero on, and no block has two of them, then the server never takes the
sequence to be broken, and never stops: the event behind which the validator continues is the last one of
the chain before the block of the scan. -/
theorem never_stops {c : Chain} {chainId : Nat} {address : Text}
    (hsequential : Sequential c (chainProperties chainId address)) {height : Nat} {as : List Actor}
    {s : Server} (h : Run (Step c (chainProperties chainId address)) (Server.init height) as s) :
    s.phase ≠ .stopped ∧ ¬ s.Failed .STREAM ∧
      ∀ start previousEvent, s.scans .rollupProcessed = .scanning start previousEvent →
        previousEvent = (between (c.topicLogs (chainProperties chainId address)
          EventTopic.rollupProcessed.mainTopic) (getEarliestBlock chainId).1 start).getLast? := by
  obtain ⟨-, hrunning⟩ := running hsequential h
  refine ⟨hrunning.phase, hrunning.not_stream, fun start previousEvent hscan => ?_⟩
  have hsequence := hrunning.scans .rollupProcessed
  rw [hscan] at hsequence
  exact hsequence rfl

/-- A failed request does not stop it. -/
theorem never_stops_sample : ∃ s : Server, s.Failed .PROVIDER ∧ s.phase ≠ .stopped ∧ ¬ s.Failed .STREAM := by
  obtain ⟨s, hfailed, hrun⟩ := SampleChain.fails
  obtain ⟨hphase, hstream, -⟩ := never_stops SampleChain.sequential hrun
  exact ⟨s, hfailed, hphase, hstream⟩

end AztecConnect.Kebab
