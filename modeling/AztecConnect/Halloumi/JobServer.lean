import Mathlib.Data.List.Nodup
import AztecConnect.Client.Serialize

/-!
# Proofs made by remote workers

Translation of `halloumi/src/proof_generator/http_job_protocol.ts`, `http_job_server.ts` and
`http_job_worker.ts`. The server keeps a list of jobs. It hands the oldest one that nobody works on to a
worker that asks, hands it out again once it has not heard of it for `ackTimeout`, and settles the
promise of its caller with the first result.
-/

namespace AztecConnect.Halloumi

open ByteFormat

/-! ## Messages -/

/-- `Command`, in the order of the source. -/
inductive Command where
  | REQUEST_WORK
  | NO_WORK
  | GET_JOIN_SPLIT_VK
  | GET_ACCOUNT_VK
  | CREATE_PROOF
  | ACK
  | NACK
  deriving DecidableEq

/-- The number of a command. -/
def Command.code : Command → Nat
  | .REQUEST_WORK => 0
  | .NO_WORK => 1
  | .GET_JOIN_SPLIT_VK => 2
  | .GET_ACCOUNT_VK => 3
  | .CREATE_PROOF => 4
  | .ACK => 5
  | .NACK => 6

/-- A command fits the four bytes it is sent in. -/
lemma Command.code_lt (cmd : Command) : cmd.code < 2 ^ 32 := by cases cmd <;> decide

namespace Protocol

/-- What a message says. -/
structure Message where
  id : Bytes
  cmd : Nat
  data : Bytes

/-- `numToUInt32BE` does not fail on a command. -/
def pack (id : Bytes) (cmd : Command) (data : Option Bytes) : Bytes :=
  id ++ (beBytes 4 cmd.code ++ data.getD [])

/-- `Protocol.unpack`: the 32 bytes of the id, the command, and the rest. -/
def unpack (buf : Bytes) : Except String Message := do
  let id := slice buf 0 32
  let cmd ← Client.Serialize.readUInt32BE buf 32
  let data := buf.drop (32 + 4)
  return ⟨id, cmd, data⟩

/-- `unpack` reads back what `pack` wrote; no data is read as empty data. -/
lemma unpack_pack {id : Bytes} (hid : id.length = 32) (cmd : Command) (data : Option Bytes) :
    unpack (pack id cmd data) = .ok ⟨id, cmd.code, data.getD []⟩ := by
  have hslice : slice (pack id cmd data) 0 32 = id := by
    rw [slice, pack, ← hid, List.take_left, List.drop_zero]
  have hat : At (pack id cmd data) 32 (beBytes 4 cmd.code) := hid ▸ at_mid id _ _
  have hdrop : (pack id cmd data).drop (32 + 4) = data.getD [] := by
    rw [pack, ← List.drop_drop, ← hid, List.drop_left]
    exact List.drop_left' (length_beBytes _ _)
  simp only [unpack, hslice, Client.Serialize.readUInt32BE_eq cmd.code_lt hat, hdrop]
  rfl

/-- A packed message is never empty, as the reply without work is. -/
lemma pack_ne_nil (id : Bytes) (cmd : Command) (data : Option Bytes) : pack id cmd data ≠ [] := by
  intro h
  have hlength := congrArg List.length h
  rw [pack, List.length_append, List.length_append, length_beBytes] at hlength
  exact absurd hlength (by rw [List.length_nil]; omega)

end Protocol

/-! ## The server -/

/-- `Job`. The two callbacks of its promise are in `JobServer.promises`. -/
structure Job where
  id : Bytes
  cmd : Command
  timestamp : Nat
  data : Option Bytes

/-- How the promise of a caller is rejected: by `interrupt`, or with the text of a worker. -/
inductive Rejection where
  | interrupted
  | failed (message : Bytes)

/-- The promises are those that are settled, by the ids of their jobs. -/
structure JobServer where
  jobs : List Job
  running : Bool
  promises : List (Bytes × Except Rejection Bytes)

/-- Change the first element that has a property. -/
def updateFirst {α : Type} (p : α → Bool) (f : α → α) : List α → List α
  | [] => []
  | a :: as => if p a then f a :: as else a :: updateFirst p f as

namespace JobServer

/-- A server that has been started. -/
def new : JobServer := ⟨[], true, []⟩

/-- A promise that is settled stays as it is. -/
def settle (s : JobServer) (id : Bytes) (outcome : Except Rejection Bytes) : JobServer :=
  if id ∈ s.promises.map Prod.fst then s else { s with promises := s.promises ++ [(id, outcome)] }

/-- `createJob`, the id being the random one. -/
def createJob (s : JobServer) (id : Bytes) (cmd : Command) (data : Option Bytes) : JobServer :=
  { s with jobs := s.jobs ++ [⟨id, cmd, 0, data⟩] }

/-- `getJoinSplitVk`. -/
def getJoinSplitVk (s : JobServer) (id : Bytes) : JobServer := s.createJob id .GET_JOIN_SPLIT_VK none

/-- `getAccountVk`. -/
def getAccountVk (s : JobServer) (id : Bytes) : JobServer := s.createJob id .GET_ACCOUNT_VK none

/-- `createProof`. -/
def createProof (s : JobServer) (id data : Bytes) : JobServer :=
  s.createJob id .CREATE_PROOF (some data)

/-- New, or not heard of for a while. -/
def unclaimed (ackTimeout now : Nat) (j : Job) : Bool := now - j.timestamp > ackTimeout

/-- The job that the loop of `getWork` would serve. -/
def nextJob (ackTimeout now : Nat) (s : JobServer) : Option Job := s.jobs.find? (unclaimed ackTimeout now)

/-- An iteration of the loop of `getWork`. Without a job it goes to sleep. -/
def getWork (ackTimeout now : Nat) (s : JobServer) : Option (JobServer × Bytes) :=
  if s.running then
    (s.nextJob ackTimeout now).map fun job =>
      ({ s with jobs := updateFirst (unclaimed ackTimeout now) ({ · with timestamp := now }) s.jobs },
        Protocol.pack job.id job.cmd job.data)
  else some (s, [])

/-- `completeJob` of a message that can be read. -/
def completeJob (s : JobServer) (m : Protocol.Message) : JobServer :=
  match s.jobs.find? (m.id == ·.id) with
  | none => s
  | some job =>
    let s' := { s with jobs := s.jobs.eraseP (m.id == ·.id) }
    if m.cmd = Command.ACK.code then s'.settle job.id (.ok m.data)
    else s'.settle job.id (.error (.failed m.data))

/-- `ping`: a worker that is still at work renews the lease of its job. -/
def ping (now : Nat) (s : JobServer) (jobId : Bytes) : JobServer :=
  { s with jobs := updateFirst (·.id == jobId) ({ · with timestamp := now }) s.jobs }

/-- The jobs stay in the list. -/
def interrupt (s : JobServer) : JobServer :=
  s.jobs.foldl (fun s job => s.settle job.id (.error .interrupted)) s

end JobServer

/-! ## What each function does -/

section Functions

variable {α : Type} {p : α → Bool} {f : α → α}

/-- `updateFirst` changes the first element that `p` accepts. -/
lemma updateFirst_append {as bs : List α} {b : α} (has : ∀ a ∈ as, p a = false) (hb : p b = true) :
    updateFirst p f (as ++ b :: bs) = as ++ f b :: bs := by
  induction as with
  | nil => exact if_pos hb
  | cons a as ih =>
    have ha := has a List.mem_cons_self
    rw [List.cons_append, updateFirst, ha, if_neg Bool.false_ne_true,
      ih fun a' ha' => has a' (List.mem_cons_of_mem _ ha'), List.cons_append]

/-- It changes nothing if `p` accepts none. -/
lemma updateFirst_of_forall {as : List α} (has : ∀ a ∈ as, p a = false) : updateFirst p f as = as := by
  induction as with
  | nil => rfl
  | cons a as ih =>
    obtain ⟨ha, has⟩ := List.forall_mem_cons.mp has
    rw [updateFirst, ha, if_neg Bool.false_ne_true, ih has]

/-- What a change of the first element with a property leaves as it is. -/
lemma map_updateFirst {β : Type} {g : α → β} (hg : ∀ a, g (f a) = g a) (as : List α) :
    (updateFirst p f as).map g = as.map g := by
  induction as with
  | nil => rfl
  | cons a as ih =>
    rw [updateFirst]
    split
    · rw [List.map_cons, List.map_cons, hg]
    · rw [List.map_cons, List.map_cons, ih]

end Functions

/-- What a job asks for. -/
def Job.request (j : Job) : Bytes × Command × Option Bytes := (j.id, j.cmd, j.data)

/-- The ids of jobs are those of their requests. -/
lemma Job.map_id (js : List Job) : js.map Job.id = (js.map Job.request).map Prod.fst := by
  rw [List.map_map]
  rfl

namespace JobServer

variable {s server : JobServer} {id : Bytes} {outcome : Except Rejection Bytes}

/-- Settling a promise leaves the jobs alone. -/
lemma settle_jobs (s : JobServer) (id : Bytes) (outcome : Except Rejection Bytes) :
    (s.settle id outcome).jobs = s.jobs := by
  rw [settle]
  split <;> rfl

/-- A settled promise is an old one or that of the given outcome. -/
lemma mem_settle {p : Bytes × Except Rejection Bytes} (h : p ∈ (s.settle id outcome).promises) :
    p ∈ s.promises ∨ p = (id, outcome) := by
  rw [settle] at h
  split at h
  · exact .inl h
  · exact (List.mem_append.mp h).imp_right List.mem_singleton.mp

/-- A promise once settled stays as it is. -/
lemma subset_settle (s : JobServer) (id : Bytes) (outcome : Except Rejection Bytes) :
    s.promises ⊆ (s.settle id outcome).promises := by
  rw [settle]
  split
  · exact List.Subset.refl _
  · exact List.subset_append_left _ _

/-- After `settle` the promise is settled. -/
lemma settled (s : JobServer) (id : Bytes) (outcome : Except Rejection Bytes) :
    id ∈ (s.settle id outcome).promises.map Prod.fst := by
  rw [settle]
  split
  case isTrue h => exact h
  case isFalse => exact List.mem_map.mpr ⟨(id, outcome), List.mem_append_right _ List.mem_cons_self, rfl⟩

/-- No promise is settled twice. -/
lemma nodup_settle (h : (s.promises.map Prod.fst).Nodup) :
    ((s.settle id outcome).promises.map Prod.fst).Nodup := by
  rw [settle]
  split
  case isTrue => exact h
  case isFalse hid =>
    rw [List.map_append]
    exact List.Nodup.append h (List.nodup_singleton _) (List.disjoint_singleton.mpr hid)

/-- A ping changes timestamps only. -/
lemma ping_requests (now : Nat) (s : JobServer) (jobId : Bytes) :
    (s.ping now jobId).jobs.map Job.request = s.jobs.map Job.request := by
  rw [ping]
  refine map_updateFirst ?_ _
  intro j
  rfl

/-- A ping notes the time of the first job of its id. -/
lemma ping_cases (now : Nat) (s : JobServer) (jobId : Bytes) :
    ((∀ j ∈ s.jobs, j.id ≠ jobId) ∧ (s.ping now jobId).jobs = s.jobs) ∨
    ∃ before job after, s.jobs = before ++ job :: after ∧ job.id = jobId ∧
      (s.ping now jobId).jobs = before ++ { job with timestamp := now } :: after := by
  cases hfind : s.jobs.find? (·.id == jobId) with
  | none =>
    have hother : ∀ j ∈ s.jobs, j.id ≠ jobId := by simpa using hfind
    refine .inl ⟨hother, ?_⟩
    rw [ping]
    exact updateFirst_of_forall fun j hj => beq_false_of_ne (hother j hj)
  | some job =>
    obtain ⟨hid, before, after, hjobs, hbefore⟩ := List.find?_eq_some_iff_append.mp hfind
    refine .inr ⟨before, job, after, hjobs, beq_iff_eq.mp hid, ?_⟩
    rw [ping, hjobs]
    exact updateFirst_append (fun j hj => Bool.not_eq_true' _ ▸ hbefore j hj) hid

/-- An interruption only settles promises, those of listed jobs. -/
lemma interrupt_spec (s : JobServer) (js : List Job) :
    let s' := js.foldl (fun s job => s.settle job.id (.error .interrupted)) s
    s'.jobs = s.jobs ∧ s.promises ⊆ s'.promises ∧
      (∀ p ∈ s'.promises, p ∈ s.promises ∨ p.1 ∈ js.map Job.id ∧ p.2 = .error .interrupted) ∧
      ((s.promises.map Prod.fst).Nodup → (s'.promises.map Prod.fst).Nodup) := by
  induction js generalizing s with
  | nil => exact ⟨rfl, List.Subset.refl _, fun _ => .inl, id⟩
  | cons j js ih =>
    obtain ⟨hjobs, hsubset, hmem, hnodup⟩ := ih (s.settle j.id (.error .interrupted))
    refine ⟨hjobs.trans (settle_jobs _ _ _), fun p hp => hsubset (subset_settle _ _ _ hp), ?_,
      fun h => hnodup (nodup_settle h)⟩
    intro p hp
    rcases hmem p hp with h | ⟨hid, hp⟩
    · rcases mem_settle h with h | rfl
      · exact .inl h
      · exact .inr ⟨List.mem_cons_self, rfl⟩
    · exact .inr ⟨List.mem_cons_of_mem _ hid, hp⟩

/-- The loop serves the first job that is unclaimed, and notes the time. -/
lemma getWork_cases {ackTimeout now : Nat} {buf : Bytes}
    (h : s.getWork ackTimeout now = some (server, buf)) :
    (s.running = false ∧ server = s ∧ buf = []) ∨
    ∃ before job after, s.running = true ∧ s.nextJob ackTimeout now = some job ∧
      s.jobs = before ++ job :: after ∧ (∀ j ∈ before, unclaimed ackTimeout now j = false) ∧
      unclaimed ackTimeout now job = true ∧
      server = { s with jobs := before ++ { job with timestamp := now } :: after } ∧
      buf = Protocol.pack job.id job.cmd job.data := by
  rw [getWork] at h
  split at h
  case isTrue hrunning =>
    obtain ⟨job, hjob, heq⟩ := Option.map_eq_some_iff.mp h
    cases heq
    obtain ⟨hunclaimed, before, after, hjobs, hbefore⟩ := List.find?_eq_some_iff_append.mp hjob
    have hbefore' : ∀ j ∈ before, unclaimed ackTimeout now j = false := fun j hj =>
      Bool.not_eq_true' _ ▸ hbefore j hj
    refine .inr ⟨before, job, after, hrunning, hjob, hjobs, hbefore', hunclaimed, ?_, rfl⟩
    rw [hjobs, updateFirst_append hbefore' hunclaimed]
  case isFalse hrunning =>
    cases h
    exact .inl ⟨Bool.not_eq_true _ ▸ hrunning, rfl, rfl⟩

/-- The reply of a worker takes the first job of its id off the list and settles its promise. -/
lemma completeJob_cases (s : JobServer) (m : Protocol.Message) :
    (s.jobs.find? (m.id == ·.id) = none ∧ s.completeJob m = s) ∨
    ∃ before job after, s.jobs.find? (m.id == ·.id) = some job ∧ s.jobs = before ++ job :: after ∧
      job.id = m.id ∧ s.completeJob m = { s with jobs := before ++ after }.settle m.id
        (if m.cmd = Command.ACK.code then .ok m.data else .error (.failed m.data)) := by
  rw [completeJob]
  cases hfind : s.jobs.find? (m.id == ·.id) with
  | none => exact .inl ⟨rfl, rfl⟩
  | some job =>
    obtain ⟨hid, before, after, hjobs, hbefore⟩ := List.find?_eq_some_iff_append.mp hfind
    have heq : job.id = m.id := (beq_iff_eq.mp hid).symm
    have hbefore' : ∀ j ∈ before, ¬ (m.id == j.id) = true := fun j hj => by simpa using hbefore j hj
    have herase : s.jobs.eraseP (m.id == ·.id) = before ++ after := by
      rw [hjobs, List.eraseP_append_right _ hbefore', List.eraseP_cons, hid, cond_true]
    refine .inr ⟨before, job, after, rfl, hjobs, heq, ?_⟩
    dsimp only
    rw [herase, heq]
    split <;> rfl

end JobServer

/-! ## The workers -/

/-- What comes of the work on a job. A rejection with something that is not an error has no text, and
the worker fails to report it. -/
inductive Outcome where
  | resolved (res : Bytes)
  | rejected (message : Bytes)
  | threw

namespace Outcome

/-- The report to the server. -/
def report (id : Bytes) : Outcome → Option Bytes
  | resolved res => some (Protocol.pack id .ACK (some res))
  | rejected message => some (Protocol.pack id .NACK (some message))
  | threw => none

/-- What the caller gets. -/
def result : Outcome → Option (Except Rejection Bytes)
  | resolved res => some (.ok res)
  | rejected message => some (.error (.failed message))
  | threw => none

/-- The report that is read is that of a job, with what came of it. -/
lemma result_of_report {id : Bytes} (hid : id.length = 32) {outcome : Outcome} {buf : Bytes}
    {m : Protocol.Message} (hreport : outcome.report id = some buf) (hread : Protocol.unpack buf = .ok m) :
    m.id = id ∧ outcome.result =
      some (if m.cmd = Command.ACK.code then .ok m.data else .error (.failed m.data)) := by
  cases outcome with
  | resolved res =>
    obtain rfl := Option.some.inj hreport
    rw [Protocol.unpack_pack hid] at hread
    obtain rfl := Except.ok.inj hread
    exact ⟨rfl, rfl⟩
  | rejected message =>
    obtain rfl := Option.some.inj hreport
    rw [Protocol.unpack_pack hid] at hread
    obtain rfl := Except.ok.inj hread
    exact ⟨rfl, rfl⟩
  | threw => cases hreport

end Outcome

/-- `process`, given what the proof generator of a worker may do. A command that is not one of its
three is answered with nothing. -/
def Performs (generates : Command → Bytes → Outcome → Prop) (cmd : Nat) (data : Bytes)
    (outcome : Outcome) : Prop :=
  if cmd = Command.GET_JOIN_SPLIT_VK.code then generates .GET_JOIN_SPLIT_VK [] outcome
  else if cmd = Command.GET_ACCOUNT_VK.code then generates .GET_ACCOUNT_VK [] outcome
  else if cmd = Command.CREATE_PROOF.code then generates .CREATE_PROOF data outcome
  else outcome = .resolved []

/-- Where the loop of a worker is. -/
inductive JobWorker where
  /-- About to ask for work. -/
  | idle
  /-- Waiting for the reply to one of its requests. -/
  | fetching (ticket : Nat)
  /-- Working on what it has received. -/
  | processing (m : Protocol.Message)

/-- A reply arrives. -/
def JobWorker.receive (work : Bytes) : JobWorker :=
  if work = [] then .idle
  else match Protocol.unpack work with
    | .ok m => .processing m
    | .error _ => .idle

end AztecConnect.Halloumi
