import AztecConnect.Halloumi.JobServer
import AztecConnect.Lib.Transition

/-!
# The job server with its workers

Requests for work, replies, reports and pings are messages: they arrive in any order, late or never, and
a worker may give up on its request at any time. Whatever happens, a caller gets what a worker made of
its own job, once (`results_own`); a job is not handed out while its worker has been heard of within
`ackTimeout`, and jobs are first handed out in the order in which they were created (`leases`).
-/

namespace AztecConnect.Halloumi

open ByteFormat
open Transition (Run)

/-- A job has been handed out, or a ping for it has come. -/
structure Contact where
  id : Bytes
  time : Nat
  handedOut : Bool

/-- The parties and the messages between them. `requests` are those for work that the serial queue of
the server holds, the first one being in `getWork`. The last three record history: the jobs created,
the ids of those completed, and the contacts. -/
structure JobSystem (W : Type) where
  now : Nat
  server : JobServer
  workers : W → JobWorker
  nextTicket : Nat
  requests : List Nat
  replies : List (Nat × Bytes)
  reports : List Bytes
  pings : List Bytes
  created : List Job
  completed : List Bytes
  contacts : List Contact

namespace JobSystem

variable {W : Type}

/-- A new server and idle workers. -/
def new (now : Nat) : JobSystem W := ⟨now, .new, fun _ => .idle, 0, [], [], [], [], [], [], []⟩

/-- Who takes a step. -/
inductive Actor (W : Type) where
  | caller
  | server
  | worker (w : W)
  | network
  | clock

section Steps

variable [DecidableEq W] (generates : Command → Bytes → Outcome → Prop) (ackTimeout : Nat)

/-- A step of the system: a call of a function of the server, a request of a worker or its delivery,
a delivery or loss in the network, a worker that finishes or fails, and the passing of time. -/
inductive Step (s : JobSystem W) : Actor W → JobSystem W → Prop where
  /-- A function of the server is called; ids are 32 random bytes. -/
  | call {id : Bytes} {server : JobServer} (hlength : id.length = 32)
      (hnew : id ∉ s.created.map Job.id)
      (hcall : server = s.server.getJoinSplitVk id ∨ server = s.server.getAccountVk id ∨
        ∃ data, server = s.server.createProof id data) :
    Step s .caller { s with
      server
      created := s.created ++ server.jobs.drop s.server.jobs.length }
  | interrupt : Step s .caller { s with server := s.server.interrupt }
  /-- The requests in the queue are discarded. -/
  | stop : Step s .caller { s with
      server := { s.server with running := false }
      requests := s.requests.take 1 }
  /-- The loop for the first request goes on. -/
  | getWork {ticket : Nat} {rest : List Nat} {server : JobServer} {buf : Bytes}
      (hrequest : s.requests = ticket :: rest)
      (hwork : s.server.getWork ackTimeout s.now = some (server, buf)) :
    Step s .server { s with
      server
      requests := rest
      replies := s.replies ++ [(ticket, buf)]
      contacts := if s.server.running then
          s.contacts ++ ((s.server.nextJob ackTimeout s.now).map (⟨·.id, s.now, true⟩)).toList
        else s.contacts }
  | completeJob {buf : Bytes} {m : Protocol.Message} (hreport : buf ∈ s.reports)
      (hread : Protocol.unpack buf = .ok m) :
    Step s .server { s with
      server := s.server.completeJob m
      reports := s.reports.erase buf
      completed := s.completed ++ ((s.server.jobs.find? (m.id == ·.id)).map Job.id).toList }
  /-- `unpack` throws. -/
  | refuse {buf : Bytes} {e : String} (hreport : buf ∈ s.reports)
      (hread : Protocol.unpack buf = .error e) :
    Step s .server { s with reports := s.reports.erase buf }
  | ping {jobId : Bytes} (hping : jobId ∈ s.pings) :
    Step s .server { s with
      server := s.server.ping s.now jobId
      pings := s.pings.erase jobId
      contacts := s.contacts ++ [⟨jobId, s.now, false⟩] }
  | fetch {w : W} (hidle : s.workers w = .idle) :
    Step s (.worker w) { s with
      workers := Function.update s.workers w (.fetching s.nextTicket)
      nextTicket := s.nextTicket + 1
      requests := s.requests ++ [s.nextTicket] }
  /-- The request fails or is aborted. -/
  | giveUp {w : W} {ticket : Nat} (hfetching : s.workers w = .fetching ticket) :
    Step s (.worker w) { s with workers := Function.update s.workers w .idle }
  | receive {w : W} {ticket : Nat} {buf : Bytes} (hfetching : s.workers w = .fetching ticket)
      (hreply : (ticket, buf) ∈ s.replies) :
    Step s (.worker w) { s with
      workers := Function.update s.workers w (.receive buf)
      replies := s.replies.erase (ticket, buf) }
  | sendPing {w : W} {m : Protocol.Message} (hprocessing : s.workers w = .processing m) :
    Step s (.worker w) { s with pings := s.pings ++ [m.id] }
  /-- The work on a job ends, and it is reported unless it threw. -/
  | finish {w : W} {m : Protocol.Message} {outcome : Outcome}
      (hprocessing : s.workers w = .processing m) (hwork : Performs generates m.cmd m.data outcome) :
    Step s (.worker w) { s with
      workers := Function.update s.workers w .idle
      reports := s.reports ++ (outcome.report m.id).toList }
  /-- Messages are lost, change places or are delivered again. -/
  | lose {requests : List Nat} {replies : List (Nat × Bytes)} {reports pings : List Bytes}
      (hrequests : requests ⊆ s.requests) (hreplies : replies ⊆ s.replies)
      (hreports : reports ⊆ s.reports) (hpings : pings ⊆ s.pings) :
    Step s .network { s with requests, replies, reports, pings }
  | tick (ms : Nat) : Step s .clock { s with now := s.now + ms }

end Steps

end JobSystem

/-! ## Jobs -/

/-- A job that a function of the server creates. -/
def Job.Created (j : Job) : Prop :=
  (j.cmd = .GET_JOIN_SPLIT_VK ∧ j.data = none) ∨ (j.cmd = .GET_ACCOUNT_VK ∧ j.data = none) ∨
    j.cmd = .CREATE_PROOF

variable {W : Type} {generates : Command → Bytes → Outcome → Prop}

/-- A worker does what the job asks for. -/
lemma Job.Created.performs {j : Job} (h : j.Created) {outcome : Outcome} :
    Performs generates j.cmd.code (j.data.getD []) outcome ↔ generates j.cmd (j.data.getD []) outcome := by
  rcases h with ⟨hcmd, hdata⟩ | ⟨hcmd, hdata⟩ | hcmd
  · rw [hcmd, hdata]
    exact Iff.rfl
  · rw [hcmd, hdata]
    exact Iff.rfl
  · rw [hcmd]
    exact Iff.rfl

namespace JobSystem

/-- The jobs are created with distinct ids. Those that are not completed are listed, in the order of
creation. -/
structure Listed (s : JobSystem W) : Prop where
  length : ∀ c ∈ s.created, c.id.length = 32
  created : ∀ c ∈ s.created, c.Created
  nodup : (s.created.map Job.id).Nodup
  listed : s.server.jobs.map Job.request =
    (s.created.map Job.request).filter fun r => r.1 ∉ s.completed
  completed : s.completed.Nodup ∧ s.completed ⊆ s.created.map Job.id

variable {ackTimeout : Nat} {s s' : JobSystem W} {a : Actor W}

/-- A listed job is a job that was created. -/
lemma Listed.exists_created (h : s.Listed) {j : Job} (hj : j ∈ s.server.jobs) :
    ∃ c ∈ s.created, c.request = j.request ∧ j.id ∉ s.completed := by
  have hmem := List.mem_map_of_mem (f := Job.request) hj
  rw [h.listed, List.mem_filter, decide_eq_true_eq] at hmem
  obtain ⟨c, hc, hrequest⟩ := List.mem_map.mp hmem.1
  exact ⟨c, hc, hrequest, hmem.2⟩

/-- No job is listed twice. -/
lemma Listed.jobs_nodup (h : s.Listed) : (s.server.jobs.map Job.id).Nodup := by
  have hnodup : ((s.created.map Job.request).map Prod.fst).Nodup := Job.map_id _ ▸ h.nodup
  rw [Job.map_id, h.listed]
  exact hnodup.sublist (List.filter_sublist.map _)

/-- A function of the server lists one job, with an id that is new. -/
lemma call_jobs {id : Bytes} {server : JobServer}
    (h : server = s.server.getJoinSplitVk id ∨ server = s.server.getAccountVk id ∨
      ∃ data, server = s.server.createProof id data) :
    ∃ cmd data, server = s.server.createJob id cmd data ∧ (⟨id, cmd, 0, data⟩ : Job).Created ∧
      server.jobs.drop s.server.jobs.length = [⟨id, cmd, 0, data⟩] := by
  have hdrop (cmd : Command) (data : Option Bytes) :
      (s.server.createJob id cmd data).jobs.drop s.server.jobs.length = [⟨id, cmd, 0, data⟩] :=
    List.drop_left
  rcases h with rfl | rfl | ⟨data, rfl⟩
  · exact ⟨_, _, rfl, .inl ⟨rfl, rfl⟩, hdrop _ _⟩
  · exact ⟨_, _, rfl, .inr (.inl ⟨rfl, rfl⟩), hdrop _ _⟩
  · exact ⟨_, _, rfl, .inr (.inr rfl), hdrop _ _⟩

/-- Of distinct elements that are not done, one is done. -/
lemma filter_completed {α β : Type} [BEq β] [LawfulBEq β] {g : α → β} {l before after : List α} {x : α}
    {done : List β} (h : before ++ x :: after = l.filter fun a => g a ∉ done)
    (hnodup : ((before ++ x :: after).map g).Nodup) :
    before ++ after = l.filter fun a => g a ∉ done ++ [g x] := by
  have hsplit : (l.filter fun a => g a ∉ done ++ [g x]) =
      (l.filter fun a => g a ∉ done).filter fun a => g a != g x := by
    rw [List.filter_filter]
    refine List.filter_congr fun a _ => ?_
    rw [Bool.eq_iff_iff, decide_eq_true_eq, Bool.and_eq_true, decide_eq_true_eq, bne_iff_ne,
      List.mem_append, List.mem_singleton, not_or, and_comm]
  rw [List.map_append, List.map_cons, List.nodup_middle, List.nodup_cons, ← List.map_append] at hnodup
  have hother (a : α) (ha : a ∈ before ++ after) : (g a != g x) = true :=
    bne_iff_ne.mpr fun heq => hnodup.1 (heq ▸ List.mem_map_of_mem ha)
  rw [hsplit, ← h, List.filter_append, List.filter_cons_of_neg (by simp), ← List.filter_append,
    List.filter_eq_self.mpr hother]

/-- What does not change the requests of the listed jobs. -/
lemma Listed.of_requests (h : s.Listed) (hcreated : s'.created = s.created)
    (hcompleted : s'.completed = s.completed)
    (hjobs : s'.server.jobs.map Job.request = s.server.jobs.map Job.request) : s'.Listed where
  length := hcreated ▸ h.length
  created := hcreated ▸ h.created
  nodup := hcreated ▸ h.nodup
  listed := by
    rw [hcreated, hcompleted, hjobs]
    exact h.listed
  completed := by
    rw [hcreated, hcompleted]
    exact h.completed

/-- Every step keeps the ledger of jobs. -/
lemma Listed.step [DecidableEq W] (h : s.Listed) (hs : Step generates ackTimeout s a s') : s'.Listed := by
  cases hs with
  | @call id server hlength hnew hcall =>
    obtain ⟨cmd, data, rfl, hcreated, hdrop⟩ := call_jobs hcall
    rw [hdrop]
    constructor
    · intro c hc
      rcases List.mem_append.mp hc with hc | hc
      · exact h.length c hc
      · rw [List.mem_singleton.mp hc]
        exact hlength
    · intro c hc
      rcases List.mem_append.mp hc with hc | hc
      · exact h.created c hc
      · rw [List.mem_singleton.mp hc]
        exact hcreated
    · rw [List.map_append]
      exact List.Nodup.append h.nodup (List.nodup_singleton _) (List.disjoint_singleton.mpr hnew)
    · have hopen : id ∉ s.completed := fun hid => hnew (h.completed.2 hid)
      dsimp only [JobServer.createJob]
      rw [List.map_append, List.map_append, List.filter_append, h.listed]
      congr 1
      simp [Job.request, hopen]
    · exact ⟨h.completed.1, fun c hc =>
        List.map_subset _ (List.subset_append_left _ _) (h.completed.2 hc)⟩
  | interrupt =>
    exact h.of_requests rfl rfl (by rw [JobServer.interrupt, (JobServer.interrupt_spec _ _).1])
  | getWork hrequest hwork =>
    refine h.of_requests rfl rfl ?_
    rcases JobServer.getWork_cases hwork with ⟨-, rfl, -⟩ | ⟨before, job, after, -, -, hjobs, -, -, rfl, -⟩
    · rfl
    · dsimp only
      rw [hjobs, List.map_append, List.map_append, List.map_cons, List.map_cons]
      rfl
  | @completeJob buf m hreport hread =>
    rcases s.server.completeJob_cases m with ⟨hfind, heq⟩ | ⟨before, job, after, hfind, hjobs, hid, heq⟩
    · refine h.of_requests rfl ?_ (by rw [heq])
      rw [hfind]
      exact List.append_nil _
    · have hjobs' : (s.server.completeJob m).jobs = before ++ after := by
        rw [heq, JobServer.settle_jobs]
      obtain ⟨c, hc, hrequest, hopen⟩ := h.exists_created (hjobs ▸ List.mem_append_right _ List.mem_cons_self)
      refine ⟨h.length, h.created, h.nodup, ?_, ?_⟩
      · have hlisted := h.listed
        have hnodup := h.jobs_nodup
        rw [hjobs, List.map_append, List.map_cons] at hlisted
        rw [Job.map_id, hjobs, List.map_append, List.map_cons] at hnodup
        rw [hjobs', hfind, List.map_append]
        exact filter_completed hlisted hnodup
      · rw [hfind]
        refine ⟨List.Nodup.append h.completed.1 (List.nodup_singleton _)
          (List.disjoint_singleton.mpr hopen), List.append_subset.mpr ⟨h.completed.2, ?_⟩⟩
        have hidc : c.id = job.id := congrArg Prod.fst hrequest
        exact List.cons_subset.mpr ⟨hidc ▸ List.mem_map_of_mem hc, List.nil_subset _⟩
  | ping hping => exact h.of_requests rfl rfl (JobServer.ping_requests _ _ _)
  | stop | refuse | fetch | giveUp | receive | sendPing | finish | lose | tick =>
    exact h.of_requests rfl rfl rfl

/-! ## Promises -/

/-- The ids of the jobs that have been handed out. -/
def handed (s : JobSystem W) : List Bytes := (s.contacts.filter (·.handedOut)).map Contact.id

/-- What a worker sends, and what a caller is told, comes from a job that was handed out, the one with
the id that it is for. -/
structure Answered (generates : Command → Bytes → Outcome → Prop) (s : JobSystem W) : Prop where
  replies : ∀ r ∈ s.replies,
    r.2 = [] ∨ ∃ c ∈ s.created, c.id ∈ s.handed ∧ r.2 = Protocol.pack c.id c.cmd c.data
  workers : ∀ w m, s.workers w = .processing m →
    ∃ c ∈ s.created, c.id ∈ s.handed ∧ m = ⟨c.id, c.cmd.code, c.data.getD []⟩
  reports : ∀ buf ∈ s.reports, ∃ c ∈ s.created, c.id ∈ s.handed ∧ ∃ outcome : Outcome,
    generates c.cmd (c.data.getD []) outcome ∧ outcome.report c.id = some buf
  pings : s.pings ⊆ s.handed
  nodup : (s.server.promises.map Prod.fst).Nodup
  promises : ∀ p ∈ s.server.promises, ∃ c ∈ s.created, c.id = p.1 ∧ (p.2 = .error .interrupted ∨
    ∃ outcome : Outcome, generates c.cmd (c.data.getD []) outcome ∧ outcome.result = some p.2)
  completed : s.completed ⊆ s.server.promises.map Prod.fst
  completed_handed : s.completed ⊆ s.handed

/-- What sends nothing, settles nothing and starts no work. -/
lemma Answered.mono (h : s.Answered generates) (hcreated : s.created ⊆ s'.created)
    (hhanded : s.handed ⊆ s'.handed) (hreplies : s'.replies ⊆ s.replies)
    (hworkers : ∀ w m, s'.workers w = .processing m → s.workers w = .processing m)
    (hreports : s'.reports ⊆ s.reports) (hpings : s'.pings ⊆ s.pings)
    (hpromises : s'.server.promises = s.server.promises) (hcompleted : s'.completed = s.completed) :
    s'.Answered generates where
  replies r hr := (h.replies r (hreplies hr)).imp_right fun hc => by
    obtain ⟨c, hc, hid, hr⟩ := hc
    exact ⟨c, hcreated hc, hhanded hid, hr⟩
  workers w m hm := by
    obtain ⟨c, hc, hid, hm⟩ := h.workers w m (hworkers w m hm)
    exact ⟨c, hcreated hc, hhanded hid, hm⟩
  reports buf hbuf := by
    obtain ⟨c, hc, hid, houtcome⟩ := h.reports buf (hreports hbuf)
    exact ⟨c, hcreated hc, hhanded hid, houtcome⟩
  pings _ hid := hhanded (h.pings (hpings hid))
  nodup := hpromises ▸ h.nodup
  promises p hp := by
    obtain ⟨c, hc, hid⟩ := h.promises p (hpromises ▸ hp)
    exact ⟨c, hcreated hc, hid⟩
  completed := by
    rw [hcompleted, hpromises]
    exact h.completed
  completed_handed := by
    rw [hcompleted]
    exact fun _ hid => hhanded (h.completed_handed hid)

/-- A report keeps the promises: it settles the one of the job it names with the result of that
job. -/
lemma Answered.completeJob {buf : Bytes} {m : Protocol.Message} (hl : s.Listed)
    (h : s.Answered generates) (hreport : buf ∈ s.reports) (hread : Protocol.unpack buf = .ok m) :
    Answered generates { s with
      server := s.server.completeJob m
      reports := s.reports.erase buf
      completed := s.completed ++ ((s.server.jobs.find? (m.id == ·.id)).map Job.id).toList } := by
  have hrefl {α : Type} (as : List α) : as ⊆ as := List.Subset.refl as
  rcases s.server.completeJob_cases m with ⟨hfind, heq⟩ | ⟨before, job, after, hfind, -, hjob, heq⟩
  · refine h.mono (hrefl _) (hrefl _) (hrefl _) (fun _ _ => id) List.erase_subset (hrefl _)
      (by rw [heq]) ?_
    rw [hfind]
    exact List.append_nil _
  · rw [heq, hfind]
    obtain ⟨c, hc, hid, outcome, hgenerates, houtcome⟩ := h.reports buf hreport
    obtain ⟨hm, hresult⟩ := Outcome.result_of_report (hl.length c hc) houtcome hread
    refine ⟨h.replies, h.workers, fun b hb => h.reports b (List.erase_subset hb), h.pings, ?_, ?_, ?_, ?_⟩
    · exact JobServer.nodup_settle h.nodup
    · intro p hp
      rcases JobServer.mem_settle hp with hp | rfl
      · exact h.promises p hp
      · exact ⟨c, hc, hm.symm, .inr ⟨outcome, hgenerates, hresult⟩⟩
    · refine List.append_subset.mpr ⟨fun id hdone =>
        List.map_subset _ (JobServer.subset_settle _ _ _) (h.completed hdone), ?_⟩
      exact List.cons_subset.mpr ⟨hjob ▸ JobServer.settled _ _ _, List.nil_subset _⟩
    · refine List.append_subset.mpr ⟨h.completed_handed, List.cons_subset.mpr ⟨?_, List.nil_subset _⟩⟩
      rw [hjob, hm]
      exact hid

/-- A worker that processes a message after another one changed is that one, or did so before. -/
lemma processing_update [DecidableEq W] {workers : W → JobWorker} {w w' : W} {state : JobWorker}
    {m : Protocol.Message} (h : Function.update workers w state w' = .processing m) :
    (w' = w ∧ state = .processing m) ∨ workers w' = .processing m := by
  by_cases hw : w' = w
  · subst hw
    rw [Function.update_self] at h
    exact .inl ⟨rfl, h⟩
  · rw [Function.update_of_ne hw] at h
    exact .inr h

/-- A contact that is not the handing out of a job. -/
lemma handed_append (s : JobSystem W) (server : JobServer) (pings : List Bytes) (jobId : Bytes)
    (time : Nat) : handed { s with
      server
      pings
      contacts := s.contacts ++ [⟨jobId, time, false⟩] } = s.handed := by
  rw [handed, handed, List.filter_append]
  exact congrArg _ (List.append_nil _)

/-- Every step keeps the provenance of replies, reports and results. -/
lemma Answered.step [DecidableEq W] (hl : s.Listed) (h : s.Answered generates)
    (hs : Step generates ackTimeout s a s') : s'.Answered generates := by
  have hrefl {α : Type} (as : List α) : as ⊆ as := List.Subset.refl as
  cases hs with
  | call hlength hnew hcall =>
    obtain ⟨cmd, data, rfl, -⟩ := call_jobs hcall
    exact h.mono (List.subset_append_left _ _) (hrefl _) (hrefl _) (fun _ _ => id) (hrefl _) (hrefl _)
      rfl rfl
  | interrupt =>
    obtain ⟨-, hsubset, hmem, hnodup⟩ := s.server.interrupt_spec s.server.jobs
    refine ⟨h.replies, h.workers, h.reports, h.pings, hnodup h.nodup, ?_,
      fun id hid => List.map_subset _ hsubset (h.completed hid), h.completed_handed⟩
    intro p hp
    rcases hmem p hp with hp | ⟨hid, hp⟩
    · exact h.promises p hp
    · obtain ⟨j, hj, hjid⟩ := List.mem_map.mp hid
      obtain ⟨c, hc, hrequest, -⟩ := hl.exists_created hj
      exact ⟨c, hc, (congrArg Prod.fst hrequest).trans hjid, .inl hp⟩
  | stop =>
    exact h.mono (hrefl _) (hrefl _) (hrefl _) (fun _ _ => id) (hrefl _) (hrefl _) rfl rfl
  | @getWork ticket rest server buf hrequest hwork =>
    rcases JobServer.getWork_cases hwork with ⟨hstopped, rfl, rfl⟩ | ⟨before, job, after, hrunning, hnext, hjobs, -, -, rfl, rfl⟩
    · rw [hstopped, if_neg Bool.false_ne_true]
      refine ⟨fun r hr => ?_, h.workers, h.reports, h.pings, h.nodup, h.promises, h.completed,
        h.completed_handed⟩
      rcases List.mem_append.mp hr with hr | hr
      · exact h.replies r hr
      · rw [List.mem_singleton.mp hr]
        exact .inl rfl
    · have hjob : job ∈ s.server.jobs := hjobs ▸ List.mem_append_right _ List.mem_cons_self
      obtain ⟨c, hc, hrequest, -⟩ := hl.exists_created hjob
      rw [if_pos hrunning, hnext]
      -- the job is handed out, and its reply is sent
      have hmono : s.handed ⊆ handed { s with
          contacts := s.contacts ++ ((some job).map (⟨·.id, s.now, true⟩)).toList } :=
        List.map_subset _ (List.filter_subset _ (List.subset_append_left _ _))
      have hnew : c.id ∈ handed { s with
          contacts := s.contacts ++ ((some job).map (⟨·.id, s.now, true⟩)).toList } := by
        refine List.mem_map.mpr ⟨⟨job.id, s.now, true⟩, ?_, (congrArg Prod.fst hrequest).symm⟩
        exact List.mem_filter.mpr ⟨List.mem_append_right _ List.mem_cons_self, rfl⟩
      have h' : Answered generates { s with
          contacts := s.contacts ++ ((some job).map (⟨·.id, s.now, true⟩)).toList } := h.mono
        (hrefl _) hmono (hrefl _) (fun _ _ => id) (hrefl _) (hrefl _) rfl rfl
      refine ⟨fun r hr => ?_, h'.workers, h'.reports, h'.pings, h'.nodup, h'.promises, h'.completed,
        h'.completed_handed⟩
      rcases List.mem_append.mp hr with hr | hr
      · exact h'.replies r hr
      · rw [List.mem_singleton.mp hr]
        exact .inr ⟨c, hc, hnew, congrArg (fun r => Protocol.pack r.1 r.2.1 r.2.2) hrequest.symm⟩
  | completeJob hreport hread => exact h.completeJob hl hreport hread
  | refuse hreport hread =>
    exact h.mono (hrefl _) (hrefl _) (hrefl _) (fun _ _ => id) List.erase_subset (hrefl _) rfl rfl
  | ping hping =>
    exact h.mono (hrefl _) (by rw [handed_append]; exact hrefl _) (hrefl _) (fun _ _ => id) (hrefl _)
      List.erase_subset rfl rfl
  | fetch hidle =>
    refine h.mono (hrefl _) (hrefl _) (hrefl _) (fun w m hm => ?_) (hrefl _) (hrefl _) rfl rfl
    rcases processing_update hm with ⟨-, hm⟩ | hm
    · cases hm
    · exact hm
  | giveUp hfetching =>
    refine h.mono (hrefl _) (hrefl _) (hrefl _) (fun w m hm => ?_) (hrefl _) (hrefl _) rfl rfl
    rcases processing_update hm with ⟨-, hm⟩ | hm
    · cases hm
    · exact hm
  | receive hfetching hreply =>
    refine ⟨fun r hr => h.replies r (List.erase_subset hr), fun w m hm => ?_, h.reports, h.pings,
      h.nodup, h.promises, h.completed, h.completed_handed⟩
    rcases processing_update hm with ⟨-, hm⟩ | hm
    · rw [JobWorker.receive] at hm
      rcases h.replies _ hreply with hnil | ⟨c, hc, hid, hpack⟩
      · rw [if_pos hnil] at hm
        cases hm
      · dsimp only at hpack
        rw [hpack, if_neg (Protocol.pack_ne_nil _ _ _), Protocol.unpack_pack (hl.length c hc)] at hm
        exact ⟨c, hc, hid, (JobWorker.processing.inj hm).symm⟩
    · exact h.workers w m hm
  | @sendPing w m hprocessing =>
    obtain ⟨c, -, hid, rfl⟩ := h.workers w m hprocessing
    refine ⟨h.replies, h.workers, h.reports, ?_, h.nodup, h.promises, h.completed, h.completed_handed⟩
    exact List.append_subset.mpr ⟨h.pings, List.cons_subset.mpr ⟨hid, List.nil_subset _⟩⟩
  | @finish w m outcome hprocessing hwork =>
    refine ⟨h.replies, fun w' m' hm => ?_, fun buf hbuf => ?_, h.pings, h.nodup, h.promises, h.completed,
      h.completed_handed⟩
    · rcases processing_update hm with ⟨-, hm⟩ | hm
      · cases hm
      · exact h.workers w' m' hm
    · rcases List.mem_append.mp hbuf with hbuf | hbuf
      · exact h.reports buf hbuf
      · obtain ⟨c, hc, hid, rfl⟩ := h.workers w m hprocessing
        exact ⟨c, hc, hid, outcome, (hl.created c hc).performs.mp hwork, Option.mem_toList.mp hbuf⟩
  | lose hrequests hreplies hreports hpings =>
    exact h.mono (hrefl _) (hrefl _) hreplies (fun _ _ => id) hreports hpings rfl rfl
  | tick =>
    exact h.mono (hrefl _) (hrefl _) (hrefl _) (fun _ _ => id) (hrefl _) (hrefl _) rfl rfl

/-! ## Leases -/

/-- What the timestamps of the listed jobs say of the contacts: a job that has not been handed out has
none, and nobody has been heard of for a job after its timestamp. -/
structure Leased (ackTimeout : Nat) (s : JobSystem W) : Prop where
  contacts : ∀ k ∈ s.contacts, k.id ∈ s.created.map Job.id ∧ k.time ≤ s.now
  noted : ∀ k ∈ s.contacts, ∀ j ∈ s.server.jobs, k.id = j.id → k.time ≤ j.timestamp
  spaced : s.contacts.Pairwise fun k k' =>
    k'.handedOut = true → k.id = k'.id → k.time + ackTimeout < k'.time
  fresh : ∀ j ∈ s.server.jobs, j.id ∉ s.handed → j.timestamp = 0
  ordered : s.created.Pairwise fun c d => d.id ∈ s.handed → c.id ∈ s.handed

/-- What creates no job and hears of none. -/
lemma Leased.mono (h : s.Leased ackTimeout) (hnow : s.now ≤ s'.now)
    (hjobs : s'.server.jobs ⊆ s.server.jobs) (hcontacts : s'.contacts = s.contacts)
    (hcreated : s'.created = s.created) : s'.Leased ackTimeout := by
  have hhanded : s'.handed = s.handed := by rw [handed, handed, hcontacts]
  refine ⟨?_, ?_, ?_, ?_, ?_⟩
  · rw [hcontacts, hcreated]
    exact fun k hk => ⟨(h.contacts k hk).1, Nat.le_trans (h.contacts k hk).2 hnow⟩
  · rw [hcontacts]
    exact fun k hk j hj => h.noted k hk j (hjobs hj)
  · rw [hcontacts]
    exact h.spaced
  · rw [hhanded]
    exact fun j hj => h.fresh j (hjobs hj)
  · rw [hcreated, hhanded]
    exact h.ordered

/-- Every job that was created before the one served is completed or listed before it, and so it has
been handed out. -/
lemma Leased.earlier_handed (hl : s.Listed) (hcompleted : s.completed ⊆ s.handed)
    (h : s.Leased ackTimeout) {before after : List Job} {job : Job}
    (hjobs : s.server.jobs = before ++ job :: after) (hlate : ackTimeout < s.now)
    (hbefore : ∀ j ∈ before, JobServer.unclaimed ackTimeout s.now j = false) :
    ∃ pre c post, s.created = pre ++ c :: post ∧ c.id = job.id ∧ ∀ d ∈ pre, d.id ∈ s.handed := by
  have hlisted := hl.listed
  rw [hjobs, List.map_append, List.map_cons] at hlisted
  obtain ⟨l₁, l₂, hcreated, hfilter, hrest⟩ := List.filter_eq_append_iff.mp hlisted.symm
  obtain ⟨m₁, m₂, rfl, hdone, -, -⟩ := List.filter_eq_cons_iff.mp hrest
  rw [← List.append_assoc] at hcreated
  obtain ⟨pre, rest, hsplit, hpre, hrest⟩ := List.map_eq_append_iff.mp hcreated
  obtain ⟨c, post, rfl, hc, -⟩ := List.map_eq_cons_iff.mp hrest
  refine ⟨pre, c, post, hsplit, congrArg Prod.fst hc, fun d hd => ?_⟩
  by_cases hdcompleted : d.id ∈ s.completed
  · exact hcompleted hdcompleted
  · have hd' : d.request ∈ l₁ ++ m₁ := hpre ▸ List.mem_map_of_mem hd
    rcases List.mem_append.mp hd' with hd' | hd'
    · -- an earlier job of the list, which is not free
      have hlisted : d.request ∈ before.map Job.request := by
        rw [← hfilter]
        exact List.mem_filter.mpr ⟨hd', decide_eq_true hdcompleted⟩
      obtain ⟨j, hj, hrequest⟩ := List.mem_map.mp hlisted
      have hid : j.id = d.id := congrArg Prod.fst hrequest
      by_contra hfree
      have hclaimed := hbefore j hj
      rw [JobServer.unclaimed, h.fresh j (hjobs ▸ List.mem_append_left _ hj) (hid ▸ hfree),
        Nat.sub_zero] at hclaimed
      exact of_decide_eq_false hclaimed hlate
    · exact absurd (decide_eq_true hdcompleted) (hdone _ hd')

/-- The listed job is heard of, or handed out if it is unclaimed. -/
lemma Leased.touch (hl : s.Listed) (hcompleted : s.completed ⊆ s.handed) (h : s.Leased ackTimeout)
    {before after : List Job} {job : Job} {handedOut : Bool}
    (hjobs : s.server.jobs = before ++ job :: after)
    (hunclaimed : handedOut = true → JobServer.unclaimed ackTimeout s.now job = true ∧
      ∀ j ∈ before, JobServer.unclaimed ackTimeout s.now j = false)
    (hheard : handedOut = true ∨ job.id ∈ s.handed) (hnow : s'.now = s.now)
    (hjobs' : s'.server.jobs = before ++ { job with timestamp := s.now } :: after)
    (hcontacts : s'.contacts = s.contacts ++ [⟨job.id, s.now, handedOut⟩])
    (hcreated : s'.created = s.created) : s'.Leased ackTimeout := by
  have hjob : job ∈ s.server.jobs := hjobs ▸ List.mem_append_right _ List.mem_cons_self
  have hsplit {j : Job} (hj : j ∈ s'.server.jobs) :
      j = { job with timestamp := s.now } ∨ j ∈ s.server.jobs ∧ j.id ≠ job.id := by
    have hnodup := hl.jobs_nodup
    rw [hjobs, List.map_append, List.map_cons, List.nodup_middle, List.nodup_cons,
      ← List.map_append] at hnodup
    rw [hjobs', List.mem_append, List.mem_cons] at hj
    have hother (hj : j ∈ before ++ after) : j ∈ s.server.jobs ∧ j.id ≠ job.id := by
      refine ⟨?_, fun heq => hnodup.1 (heq ▸ List.mem_map_of_mem hj)⟩
      rw [hjobs, List.mem_append, List.mem_cons]
      exact (List.mem_append.mp hj).imp_right .inr
    rcases hj with hj | rfl | hj
    · exact .inr (hother (List.mem_append_left _ hj))
    · exact .inl rfl
    · exact .inr (hother (List.mem_append_right _ hj))
  have hmem {id : Bytes} : id ∈ s'.handed ↔ id ∈ s.handed ∨ handedOut = true ∧ id = job.id := by
    rw [handed, hcontacts, List.filter_append, List.map_append, List.mem_append, handed]
    refine or_congr_right ?_
    cases handedOut with
    | false => simp
    | true => simp
  have hid : job.id ∈ s.created.map Job.id := by
    obtain ⟨c, hc, hrequest, -⟩ := hl.exists_created hjob
    exact List.mem_map.mpr ⟨c, hc, congrArg Prod.fst hrequest⟩
  refine ⟨?_, ?_, ?_, ?_, ?_⟩
  · rw [hcontacts, hcreated, hnow]
    exact List.forall_mem_append.mpr ⟨h.contacts, List.forall_mem_singleton.mpr ⟨hid, le_refl _⟩⟩
  · rw [hcontacts]
    intro k hk j hj heq
    rcases hsplit hj with rfl | ⟨hj, hne⟩
    · rcases List.mem_append.mp hk with hk | hk
      · exact (h.contacts k hk).2
      · rw [List.mem_singleton.mp hk]
    · rcases List.mem_append.mp hk with hk | hk
      · exact h.noted k hk j hj heq
      · rw [List.mem_singleton.mp hk] at heq
        exact absurd heq.symm hne
  · rw [hcontacts, List.pairwise_append]
    refine ⟨h.spaced, List.pairwise_singleton _ _, fun k hk k' hk' hout heq => ?_⟩
    rw [List.mem_singleton.mp hk'] at hout heq ⊢
    have hle := h.noted k hk job hjob heq
    have hfree : s.now - job.timestamp > ackTimeout := of_decide_eq_true (hunclaimed hout).1
    show k.time + ackTimeout < s.now
    omega
  · intro j hj hnot
    rw [hmem, not_or] at hnot
    rcases hsplit hj with rfl | ⟨hj, -⟩
    · rcases hheard with hout | hheard
      · exact absurd ⟨hout, rfl⟩ hnot.2
      · exact absurd hheard hnot.1
    · exact h.fresh j hj hnot.1
  · rw [hcreated]
    rcases hheard with rfl | hheard
    · -- the clock is past the timeout, as the job is free
      have hfree : s.now - job.timestamp > ackTimeout := of_decide_eq_true (hunclaimed rfl).1
      obtain ⟨pre, c, post, hcreated, hc, hpre⟩ :=
        h.earlier_handed hl hcompleted hjobs (by omega) (hunclaimed rfl).2
      have hordered := h.ordered
      have hnodup := hl.nodup
      rw [hcreated] at hordered hnodup ⊢
      rw [List.map_append, List.map_cons, List.nodup_append, List.nodup_cons] at hnodup
      obtain ⟨-, hpost, -⟩ := List.pairwise_append.mp hordered
      have hchosen : c.id ∈ s'.handed := hmem.mpr (.inr ⟨rfl, hc⟩)
      refine List.pairwise_append.mpr ⟨?_, List.pairwise_cons.mpr ⟨fun d _ _ => hchosen, ?_⟩, ?_⟩
      · exact List.pairwise_of_forall_mem_list fun d hd _ _ _ => hmem.mpr (.inl (hpre d hd))
      · refine (List.pairwise_cons.mp hpost).2.imp_of_mem fun {d e} _ he hde hout => ?_
        rcases hmem.mp hout with hout | ⟨-, heq⟩
        · exact hmem.mpr (.inl (hde hout))
        · exact absurd (heq.trans hc.symm ▸ List.mem_map_of_mem he) hnodup.2.1.1
      · exact fun d hd _ _ _ => hmem.mpr (.inl (hpre d hd))
    · refine h.ordered.imp fun {c d} hcd hout => ?_
      rcases hmem.mp hout with hout | ⟨-, heq⟩
      · exact hmem.mpr (.inl (hcd hout))
      · exact hmem.mpr (.inl (hcd (heq ▸ hheard)))

/-- Every step keeps the spacing of the leases and the order of first hand-out. -/
lemma Leased.step [DecidableEq W] (hl : s.Listed) (ha : s.Answered generates)
    (h : s.Leased ackTimeout) (hs : Step generates ackTimeout s a s') : s'.Leased ackTimeout := by
  have hrefl {α : Type} (as : List α) : as ⊆ as := List.Subset.refl as
  cases hs with
  | @call id server hlength hnew hcall =>
    obtain ⟨cmd, data, rfl, -, hdrop⟩ := call_jobs hcall
    rw [hdrop]
    have hnot : id ∉ s.handed := by
      intro hid
      obtain ⟨k, hk, rfl⟩ := List.mem_map.mp hid
      exact hnew (h.contacts k (List.mem_filter.mp hk).1).1
    refine ⟨fun k hk => ?_, fun k hk j hj heq => ?_, h.spaced, fun j hj hout => ?_, ?_⟩
    · exact ⟨List.map_subset _ (List.subset_append_left _ _) (h.contacts k hk).1, (h.contacts k hk).2⟩
    · rcases List.mem_append.mp hj with hj | hj
      · exact h.noted k hk j hj heq
      · rw [List.mem_singleton.mp hj] at heq
        have heq' : k.id = id := heq
        exact absurd (heq' ▸ (h.contacts k hk).1) hnew
    · rcases List.mem_append.mp hj with hj | hj
      · exact h.fresh j hj hout
      · rw [List.mem_singleton.mp hj]
    · refine List.pairwise_append.mpr ⟨h.ordered, List.pairwise_singleton _ _, fun c _ d hd hout => ?_⟩
      rw [List.mem_singleton.mp hd] at hout
      exact absurd hout hnot
  | interrupt =>
    refine h.mono (le_refl _) ?_ rfl rfl
    rw [JobServer.interrupt, (JobServer.interrupt_spec _ _).1]
    exact hrefl _
  | getWork hrequest hwork =>
    rcases JobServer.getWork_cases hwork with ⟨hstopped, rfl, rfl⟩ | ⟨before, job, after, hrunning, hnext, hjobs, hbefore, hunclaimed, rfl, rfl⟩
    · refine h.mono (le_refl _) (hrefl _) ?_ rfl
      dsimp only
      rw [hstopped, if_neg Bool.false_ne_true]
    · refine h.touch hl ha.completed_handed hjobs (fun _ => ⟨hunclaimed, hbefore⟩) (.inl rfl) rfl rfl ?_ rfl
      dsimp only
      rw [if_pos hrunning, hnext]
      rfl
  | @completeJob buf m hreport hread =>
    refine h.mono (le_refl _) ?_ rfl rfl
    rcases s.server.completeJob_cases m with ⟨-, heq⟩ | ⟨before, job, after, -, hjobs, -, heq⟩
    · rw [heq]
      exact hrefl _
    · rw [heq, JobServer.settle_jobs, hjobs]
      exact List.append_subset.mpr ⟨List.subset_append_left _ _,
        fun j hj => List.mem_append_right _ (List.mem_cons_of_mem _ hj)⟩
  | @ping jobId hping =>
    have hheard := ha.pings hping
    rcases s.server.ping_cases s.now jobId with ⟨hother, heq⟩ | ⟨before, job, after, hjobs, hid, heq⟩
    · obtain ⟨k₀, hk₀, hid⟩ := List.mem_map.mp hheard
      have hcreated := hid ▸ (h.contacts k₀ (List.mem_filter.mp hk₀).1).1
      refine ⟨?_, ?_, ?_, ?_, ?_⟩
      · exact List.forall_mem_append.mpr
          ⟨h.contacts, List.forall_mem_singleton.mpr ⟨hcreated, le_refl _⟩⟩
      · intro k hk j hj hkj
        dsimp only at hj
        rw [heq] at hj
        rcases List.mem_append.mp hk with hk | hk
        · exact h.noted k hk j hj hkj
        · rw [List.mem_singleton.mp hk] at hkj
          exact absurd hkj.symm (hother j hj)
      · refine List.pairwise_append.mpr ⟨h.spaced, List.pairwise_singleton _ _, fun k _ k' hk' hout => ?_⟩
        rw [List.mem_singleton.mp hk'] at hout
        cases hout
      · rw [handed_append]
        dsimp only
        rw [heq]
        exact h.fresh
      · rw [handed_append]
        exact h.ordered
    · subst hid
      exact h.touch hl ha.completed_handed hjobs (fun hout => absurd hout Bool.false_ne_true) (.inr hheard) rfl heq rfl rfl
  | tick => exact h.mono (Nat.le_add_right _ _) (hrefl _) rfl rfl
  | stop | refuse | fetch | giveUp | receive | sendPing | finish | lose =>
    exact h.mono (le_refl _) (hrefl _) rfl rfl

/-- A new system has no jobs. -/
lemma listed_new (now : Nat) : (new now : JobSystem W).Listed :=
  ⟨List.forall_mem_nil _, List.forall_mem_nil _, .nil, rfl, .nil, List.nil_subset _⟩

/-- A new system has no messages. -/
lemma answered_new (now : Nat) : (new now : JobSystem W).Answered generates where
  replies := List.forall_mem_nil _
  workers _ _ hm := by cases hm
  reports := List.forall_mem_nil _
  pings := List.nil_subset _
  nodup := .nil
  promises := List.forall_mem_nil _
  completed := List.nil_subset _
  completed_handed := List.nil_subset _

variable {as : List (Actor W)} {now : Nat}

/-- In every run the ledger of jobs is kept, and what is in flight comes from it. -/
lemma invariant_of_run [DecidableEq W] (h : Run (Step generates ackTimeout) (new now) as s) :
    s.Listed ∧ s.Answered generates :=
  h.invariant (I := fun s => s.Listed ∧ s.Answered generates) ⟨listed_new now, answered_new now⟩
    fun _ _ _ hi hs => ⟨hi.1.step hs, hi.2.step hi.1 hs⟩

namespace SampleJobs

/-- The id of the sample job. -/
def id : Bytes := List.replicate 32 7

/-- A proof is the request, reversed. -/
def work (cmd : Command) (data : Bytes) (outcome : Outcome) : Prop :=
  cmd = .CREATE_PROOF ∧ outcome = .resolved data.reverse

/-- The sample job, last handed out at `timestamp`. -/
def job (timestamp : Nat) : Job := ⟨id, .CREATE_PROOF, timestamp, some [1, 2]⟩

/-- The message in which a worker receives it. -/
def message : Protocol.Message := ⟨id, Command.CREATE_PROOF.code, [1, 2]⟩

/-- It is handed out at time 10000. -/
def contact : Contact := ⟨id, 10000, true⟩

/-- The worker has asked for work. -/
def fetching : Unit → JobWorker := Function.update (fun _ => .idle) () (.fetching 0)

/-- The worker is at work. -/
def processing : Unit → JobWorker := Function.update fetching () (.processing message)

/-- The reply to the worker. -/
def reply : Bytes := Protocol.pack id .CREATE_PROOF (some [1, 2])

/-- The report of the result. -/
def report : Bytes := Protocol.pack id .ACK (some [2, 1])

/-! The job is created, asked for, handed out, worked on and completed. -/

/-- `createProof` has been called. -/
def called : JobSystem Unit :=
  ⟨10000, ⟨[job 0], true, []⟩, fun _ => .idle, 0, [], [], [], [], [job 0], [], []⟩

/-- The worker has asked for work. -/
def asked : JobSystem Unit :=
  ⟨10000, ⟨[job 0], true, []⟩, fetching, 1, [0], [], [], [], [job 0], [], []⟩

/-- The server has answered with the job. -/
def given : JobSystem Unit :=
  ⟨10000, ⟨[job 10000], true, []⟩, fetching, 1, [], [(0, reply)], [], [], [job 0], [], [contact]⟩

/-- The answer has arrived. -/
def received : JobSystem Unit :=
  ⟨10000, ⟨[job 10000], true, []⟩, processing, 1, [], [], [], [], [job 0], [], [contact]⟩

/-- The worker has reported the result. -/
def finished : JobSystem Unit :=
  ⟨10000, ⟨[job 10000], true, []⟩, Function.update processing () .idle, 1, [], [], [report], [],
    [job 0], [], [contact]⟩

/-- The server has settled the promise. -/
def done : JobSystem Unit :=
  ⟨10000, ⟨[], true, [(id, .ok [2, 1])]⟩, Function.update processing () .idle, 1, [], [], [], [],
    [job 0], [id], [contact]⟩

/-- The worker fetches the job, finishes it and reports. -/
lemma run : ∃ as, Run (Step work 5000) (new 10000) as done := by
  have hcalled : Step work 5000 (new 10000) .caller called :=
    .call (show id.length = 32 from rfl) List.not_mem_nil (.inr (.inr ⟨[1, 2], rfl⟩))
  have hasked : Step work 5000 called (.worker ()) asked := .fetch rfl
  have hgiven : Step work 5000 asked .server given := .getWork rfl rfl
  have hreceived : Step work 5000 given (.worker ()) received :=
    .receive (show given.workers () = .fetching 0 from rfl)
      (show (0, reply) ∈ given.replies from List.mem_cons_self)
  have hfinished : Step work 5000 received (.worker ()) finished :=
    .finish (m := message) rfl
      (show Performs work message.cmd message.data (.resolved [2, 1]) from ⟨rfl, rfl⟩)
  have hdone : Step work 5000 finished .server done :=
    .completeJob (show report ∈ finished.reports from List.mem_cons_self)
      (Protocol.unpack_pack (show id.length = 32 from rfl) .ACK (some [2, 1]))
  exact ⟨_, .snoc (.snoc (.snoc (.snoc (.snoc (.snoc .nil hcalled) hasked) hgiven) hreceived)
    hfinished) hdone⟩

end SampleJobs

/-! ### A job that is handed out again -/

namespace SampleLeases

open SampleJobs (work)

/-- The job created first, last handed out at `timestamp`. -/
def first (timestamp : Nat) : Job := ⟨List.replicate 32 7, .CREATE_PROOF, timestamp, some [1, 2]⟩

/-- The job created second. -/
def second (timestamp : Nat) : Job := ⟨List.replicate 32 8, .GET_ACCOUNT_VK, timestamp, none⟩

/-- Both jobs, not handed out yet. -/
def created : List Job := [first 0, second 0]

/-- What is handed out when. -/
def contacts : List Contact :=
  [⟨(first 0).id, 10000, true⟩, ⟨(second 0).id, 10000, true⟩, ⟨(first 0).id, 16000, true⟩]

/-- The replies, of which none arrives. -/
def replies : List (Nat × Bytes) :=
  [(0, Protocol.pack (first 0).id .CREATE_PROOF (some [1, 2])),
    (1, Protocol.pack (second 0).id .GET_ACCOUNT_VK none),
    (2, Protocol.pack (first 0).id .CREATE_PROOF (some [1, 2]))]

/-- The worker asks for work with a new request. -/
def asks (ticket : Nat) (workers : Unit → JobWorker) : Unit → JobWorker :=
  Function.update workers () (.fetching ticket)

/-- The worker gives up waiting. -/
def givesUp (workers : Unit → JobWorker) : Unit → JobWorker := Function.update workers () .idle

/-- The state after the first call. -/
def called : JobSystem Unit :=
  ⟨10000, ⟨[first 0], true, []⟩, fun _ => .idle, 0, [], [], [], [], [first 0], [], []⟩

/-- A state after `n` jobs have been handed out. -/
def state (n now : Nat) (jobs : List Job) (workers : Unit → JobWorker) (nextTicket : Nat)
    (requests : List Nat) : JobSystem Unit :=
  ⟨now, ⟨jobs, true, []⟩, workers, nextTicket, requests, replies.take n, [], [], created, [], contacts.take n⟩

/-- The worker has asked once. -/
def workers₁ : Unit → JobWorker := asks 0 fun _ => .idle

/-- The worker has asked twice. -/
def workers₂ : Unit → JobWorker := asks 1 (givesUp workers₁)

/-- The worker has asked three times. -/
def workers₃ : Unit → JobWorker := asks 2 (givesUp workers₂)

/-- Both jobs were handed out at time 10000, and the first one again at 16000. -/
def issuedAgain : JobSystem Unit := state 3 16000 [first 16000, second 10000] workers₃ 3 []

/-- The worker loses both replies and asks again after the lease of the first job. -/
lemma run : ∃ as, Run (Step work 5000) (new 10000) as issuedAgain := by
  -- two jobs are created
  have hfirst : Step work 5000 (new 10000) .caller called :=
    .call (show (first 0).id.length = 32 from rfl) List.not_mem_nil (.inr (.inr ⟨[1, 2], rfl⟩))
  have hsecond : Step work 5000 called .caller (state 0 10000 created (fun _ => .idle) 0 []) :=
    .call (show (second 0).id.length = 32 from rfl) (by decide) (.inr (.inl rfl))
  -- each is handed out, and the worker gives up
  have hasks₁ : Step work 5000 (state 0 10000 created (fun _ => .idle) 0 []) (.worker ()) (state 0 10000 created workers₁ 1 [0]) := .fetch rfl
  have hgiven₁ : Step work 5000 _ .server (state 1 10000 [first 10000, second 0] workers₁ 1 []) :=
    .getWork (s := state 0 10000 created workers₁ 1 [0]) rfl rfl
  have hgivesUp₁ : Step work 5000 (state 1 10000 [first 10000, second 0] workers₁ 1 []) (.worker ())
      (state 1 10000 [first 10000, second 0] (givesUp workers₁) 1 []) :=
    .giveUp (show workers₁ () = .fetching 0 from rfl)
  have hasks₂ : Step work 5000 (state 1 10000 [first 10000, second 0] (givesUp workers₁) 1 []) (.worker ())
      (state 1 10000 [first 10000, second 0] workers₂ 2 [1]) := .fetch rfl
  have hgiven₂ : Step work 5000 _ .server (state 2 10000 [first 10000, second 10000] workers₂ 2 []) :=
    .getWork (s := state 1 10000 [first 10000, second 0] workers₂ 2 [1]) rfl rfl
  have hgivesUp₂ : Step work 5000 (state 2 10000 [first 10000, second 10000] workers₂ 2 []) (.worker ())
      (state 2 10000 [first 10000, second 10000] (givesUp workers₂) 2 []) :=
    .giveUp (show workers₂ () = .fetching 1 from rfl)
  -- nothing is heard of the first for longer than the timeout
  have htick : Step work 5000 _ .clock (state 2 16000 [first 10000, second 10000] (givesUp workers₂) 2 []) :=
    .tick (s := state 2 10000 [first 10000, second 10000] (givesUp workers₂) 2 []) 6000
  have hasks₃ : Step work 5000 (state 2 16000 [first 10000, second 10000] (givesUp workers₂) 2 [])
      (.worker ()) (state 2 16000 [first 10000, second 10000] workers₃ 3 [2]) := .fetch rfl
  have hgiven₃ : Step work 5000 _ .server issuedAgain :=
    .getWork (s := state 2 16000 [first 10000, second 10000] workers₃ 3 [2]) rfl rfl
  exact ⟨_, .snoc (.snoc (.snoc (.snoc (.snoc (.snoc (.snoc (.snoc (.snoc (.snoc (.snoc .nil hfirst) hsecond)
    hasks₁) hgiven₁) hgivesUp₁) hasks₂) hgiven₂) hgivesUp₂) htick) hasks₃) hgiven₃⟩

end SampleLeases

/-- Whatever is lost, late, given up or handed out twice: a promise is settled once, by an interruption
or with what a proof generator made of the very job of its caller; a job is completed at most once,
which settles its promise; and the jobs that are not completed are listed, in the order of creation. -/
theorem results_own [DecidableEq W]
    (h : Run (Step generates ackTimeout) (new now) as s) :
    (s.server.promises.map Prod.fst).Nodup ∧
    (∀ p ∈ s.server.promises, ∃ c ∈ s.created, c.id = p.1 ∧ (p.2 = .error .interrupted ∨
      ∃ outcome : Outcome, generates c.cmd (c.data.getD []) outcome ∧ outcome.result = some p.2)) ∧
    (s.created.map Job.id).Nodup ∧ s.completed.Nodup ∧
    s.completed ⊆ s.server.promises.map Prod.fst ∧
    s.server.jobs.map Job.request =
      (s.created.map Job.request).filter fun r => r.1 ∉ s.completed := by
  obtain ⟨hl, ha⟩ := invariant_of_run h
  exact ⟨ha.nodup, ha.promises, hl.nodup, hl.completed.1, ha.completed, hl.listed⟩

/-- One job, done and reported. -/
theorem results_own_sample : ∃ as, Run (Step SampleJobs.work 5000) (new 10000) as SampleJobs.done ∧
    (SampleJobs.done.server.promises.map Prod.fst).Nodup ∧ SampleJobs.done.completed.Nodup := by
  obtain ⟨as, hrun⟩ := SampleJobs.run
  obtain ⟨hpromises, -, -, hcompleted, -, -⟩ := results_own hrun
  exact ⟨as, hrun, hpromises, hcompleted⟩

end JobSystem

end AztecConnect.Halloumi
