import AztecConnect.Lib.Transition

/-!
# The state of a user

Translation of `sdk/src/user_state/index.ts` with `handleTxs` of `db_ops.ts` and the queues of
`barretenberg.js/src/fifo`. A block is its rollup id; what it does to the database is one set of
effects, as `bulkUserStateUpdate` is one transaction. Decoding, decrypting, handling and writing a batch
can fail, and the queue discards the error.

The rollup to which the user is synced is at most that of the effects in the database, in runs in which
no batch is written after another has failed (`synced_effects`). A failed batch is not tried again, and
the next one is accepted.
-/

namespace AztecConnect.Client.UserState

open Transition (Run Steps Guarded exec)

/-- The row of the user, and the blocks whose effects are in the database. -/
structure Database where
  syncedToRollup : Int
  blocks : List Nat

/-- `handleTxs` of a batch. -/
structure DbOps where
  batch : List Nat
  /-- How many of the blocks it has handled. -/
  handled : Nat

/-- `failed` records that a batch has failed since the start. -/
structure State where
  db : Database
  /-- `userData.syncedToRollup`. -/
  syncedToRollup : Int
  latestQueuedRollup : Int
  decryptQueue : List (List Nat)
  /-- The batch of `handleBlocks`, until it is on the other queue. -/
  decrypting : Option (List Nat)
  dbOpsQueue : List (List Nat)
  dbOps : Option DbOps
  failed : Bool

/-- The size of the queue of batches. -/
def maxQueueSize : Nat := 10

/-- The constructor. -/
def State.start (db : Database) : State where
  db := db
  syncedToRollup := db.syncedToRollup
  latestQueuedRollup := db.syncedToRollup
  decryptQueue := []
  decrypting := none
  dbOpsQueue := []
  dbOps := none
  failed := false

/-- What happens to the user state. -/
inductive Action where
  /-- `processBlocks`, when there is room on the queue. -/
  | processBlocks (blocks : List Nat)
  /-- `handleBlocks` of the next batch. -/
  | handleBlocks
  /-- Decoding or decrypting fails. -/
  | failDecrypt
  /-- The batch is put on the other queue. -/
  | putDbOps
  | startDbOps
  /-- The next block of `handleTxs`. -/
  | handleBlock
  /-- `bulkUserStateUpdate`. -/
  | write
  /-- Handling or writing fails. -/
  | failDbOps
  | syncFromDb
  /-- A stop at any time, and a new user state. -/
  | restart

/-- One step; `none` if it cannot happen. -/
def step (s : State) : Action → Option State
  | .processBlocks blocks =>
    if s.decryptQueue.length + s.decrypting.toList.length < maxQueueSize
    then some { s with decryptQueue := s.decryptQueue ++ [blocks] } else none
  | .handleBlocks =>
    match s.decryptQueue, s.decrypting with
    | batch :: queue, none =>
      -- remove any blocks we've already processed
      match batch.filter fun b : Nat => s.latestQueuedRollup < (b : Int) with
      | [] => some { s with decryptQueue := queue }
      | b :: bs =>
        if (b : Int) ≠ s.latestQueuedRollup + 1 then some { s with decryptQueue := queue }
        else some { s with
          decryptQueue := queue
          latestQueuedRollup := ((b :: bs).getLast (List.cons_ne_nil b bs) : Int)
          decrypting := some (b :: bs) }
    | _, _ => none
  | .failDecrypt =>
    match s.decrypting with
    | some _ => some { s with decrypting := none, failed := true }
    | none => none
  | .putDbOps =>
    match s.decrypting with
    | some batch =>
      if s.dbOpsQueue.length + s.dbOps.toList.length < maxQueueSize
      then some { s with decrypting := none, dbOpsQueue := s.dbOpsQueue ++ [batch] } else none
    | none => none
  | .startDbOps =>
    match s.dbOpsQueue, s.dbOps with
    | batch :: queue, none => some { s with dbOpsQueue := queue, dbOps := some ⟨batch, 0⟩ }
    | _, _ => none
  | .handleBlock =>
    match s.dbOps with
    | some ⟨batch, handled⟩ =>
      match batch[handled]? with
      | some b => some { s with syncedToRollup := b, dbOps := some ⟨batch, handled + 1⟩ }
      | none => none
    | none => none
  | .write =>
    match s.dbOps with
    | some ⟨batch, handled⟩ =>
      if handled = batch.length
      then some { s with db := ⟨s.syncedToRollup, s.db.blocks ++ batch⟩, dbOps := none } else none
    | none => none
  | .failDbOps =>
    match s.dbOps with
    | some _ => some { s with dbOps := none, failed := true }
    | none => none
  | .syncFromDb => some { s with syncedToRollup := s.db.syncedToRollup }
  | .restart => some (.start s.db)

/-- What a run must keep to: a batch is of consecutive blocks, and none is written once another has
failed, until the restart. -/
def Kept (s : State) : Action → Prop
  | .processBlocks blocks => blocks = List.range' (blocks.headD 0) blocks.length
  | .write => s.failed = false
  | _ => True

instance (s : State) (a : Action) : Decidable (Kept s a) := by
  cases a with
  | processBlocks blocks => exact instDecidableEqList _ _
  | write => exact instDecidableEqBool _ _
  | _ => exact instDecidableTrue

/-! ## The invariant -/

/-- The effects of all blocks up to a rollup are in the database. -/
def Database.SyncedTo (db : Database) (rollupId : Int) : Prop :=
  ∀ b : Nat, (b : Int) ≤ rollupId → b ∈ db.blocks

/-- The blocks that are queued and not written. -/
def State.pipeline (s : State) : List Nat :=
  s.dbOps.elim [] DbOps.batch ++ s.dbOpsQueue.flatten ++ s.decrypting.getD []

/-- How many blocks of the batch are handled. -/
def State.handled (s : State) : Nat := s.dbOps.elim 0 DbOps.handled

/-- The blocks that are queued follow on those that are written. -/
structure InOrder (s : State) (next len : Nat) : Prop where
  pipeline : s.pipeline = List.range' next len
  latest : s.latestQueuedRollup + 1 = (next + len : Nat)
  written : ∀ b < next, b ∈ s.db.blocks
  row : s.db.syncedToRollup < (next : Int)
  memory : s.syncedToRollup < (next + s.handled : Nat)

/-- What holds in every state reached by steps under the condition. -/
structure Inv (s : State) : Prop where
  lower : -1 ≤ s.db.syncedToRollup
  lower_memory : -1 ≤ s.syncedToRollup
  row : s.db.SyncedTo s.db.syncedToRollup
  batches : ∀ batch ∈ s.decryptQueue, ∃ a n, batch = List.range' a n
  inOrder : s.failed = false → ∃ next len, InOrder s next len

/-- It holds when the user state starts on a synced database. -/
lemma inv_start {db : Database} (hlower : -1 ≤ db.syncedToRollup)
    (hrow : db.SyncedTo db.syncedToRollup) : Inv (State.start db) where
  lower := hlower
  lower_memory := hlower
  row := hrow
  batches _ h := nomatch h
  inOrder _ := by
    obtain ⟨next, hnext⟩ := Int.eq_ofNat_of_zero_le (show 0 ≤ db.syncedToRollup + 1 by omega)
    refine ⟨next, 0, rfl, hnext, fun b hb => hrow b (by omega), ?_, ?_⟩
    · show db.syncedToRollup < (next : Int)
      omega
    · show db.syncedToRollup < ((next + 0 : Nat) : Int)
      omega

/-- What is not yet processed of a batch. -/
lemma filter_range' (a n l : Nat) :
    ∃ b m, (List.range' a n).filter (fun x : Nat => (l : Int) < (x : Int) + 1) = List.range' b m := by
  induction n generalizing a with
  | zero => exact ⟨a, 0, rfl⟩
  | succ n ih =>
    by_cases hle : l ≤ a
    · refine ⟨a, n + 1, List.filter_eq_self.mpr fun x hx => decide_eq_true ?_⟩
      have hge := (List.mem_range'_1.mp hx).1
      omega
    · obtain ⟨b, m, hbm⟩ := ih (a + 1)
      refine ⟨b, m, ?_⟩
      rw [List.range'_succ, List.filter_cons_of_neg ?_, hbm]
      rw [decide_eq_true_iff]
      omega

/-- The last block of a batch. -/
lemma getLast_range' {batch : List Nat} {c m : Nat} (hbatch : batch = List.range' c m)
    (hne : batch ≠ []) : batch.getLast hne + 1 = c + m := by
  subst hbatch
  have hpos : 0 < m := Nat.pos_of_ne_zero fun hzero => hne (hzero ▸ rfl)
  rw [List.getLast_eq_getElem, List.getElem_range', List.length_range']
  omega

variable {s s' : State}

/-- A batch that is queued keeps it. -/
lemma inv_processBlocks {blocks : List Nat} (hinv : Inv s)
    (hblocks : blocks = List.range' (blocks.headD 0) blocks.length)
    (hs : step s (.processBlocks blocks) = some s') : Inv s' := by
  rw [step] at hs
  split at hs
  case isFalse => cases hs
  case isTrue =>
    cases hs
    refine { hinv with batches := ?_, inOrder := ?_ }
    · intro batch hbatch
      rcases List.mem_append.mp hbatch with hold | hnew
      · exact hinv.batches batch hold
      · rw [List.mem_singleton.mp hnew]
        exact ⟨_, _, hblocks⟩
    · intro hfailed
      obtain ⟨next, len, horder⟩ := hinv.inOrder hfailed
      exact ⟨next, len, { horder with }⟩

/-- A batch leaves the queue without effect. -/
lemma Inv.skip {batch : List Nat} {queue : List (List Nat)} (hinv : Inv s)
    (hqueue : s.decryptQueue = batch :: queue) : Inv { s with decryptQueue := queue } where
  lower := hinv.lower
  lower_memory := hinv.lower_memory
  row := hinv.row
  batches b hb := hinv.batches b (hqueue ▸ List.mem_cons_of_mem batch hb)
  inOrder hfailed := by
    obtain ⟨next, len, horder⟩ := hinv.inOrder hfailed
    exact ⟨next, len, { horder with }⟩

/-- So does one that is taken. -/
lemma inv_handleBlocks (hinv : Inv s) (hs : step s .handleBlocks = some s') : Inv s' := by
  rw [step] at hs
  split at hs
  case h_2 => cases hs
  case h_1 batch queue hqueue hnone =>
    split at hs
    case h_1 =>
      cases hs
      exact hinv.skip hqueue
    case h_2 b bs hfilter =>
      split at hs
      case isTrue =>
        cases hs
        exact hinv.skip hqueue
      case isFalse hnext =>
        cases hs
        refine { hinv.skip hqueue with inOrder := ?_ }
        intro hfailed
        obtain ⟨next, len, horder⟩ := hinv.inOrder hfailed
        obtain ⟨a, n, hbatch⟩ := hinv.batches batch (hqueue ▸ List.mem_cons_self)
        obtain ⟨c, m, hrange⟩ := filter_range' a n (next + len)
        have hlatest := horder.latest
        have hsame : (b :: bs) = List.range' c m := by
          rw [← hrange, ← hfilter, hbatch]
          refine List.filter_congr fun x _ => decide_eq_decide.mpr ?_
          omega
        have hc : c = next + len := by
          have hhead : b = c := (List.range'_eq_cons_iff.mp hsame.symm).1.symm
          omega
        refine ⟨next, len + m, ?_, ?_, horder.written, horder.row, horder.memory⟩
        · have hold : s.dbOps.elim [] DbOps.batch ++ s.dbOpsQueue.flatten
              = List.range' next len := by
            have := horder.pipeline
            rwa [State.pipeline, hnone, Option.getD_none, List.append_nil] at this
          show s.dbOps.elim [] DbOps.batch ++ s.dbOpsQueue.flatten ++ (b :: bs) = _
          rw [hold, hsame, hc, List.range'_append_1]
        · have hlast := getLast_range' hsame (List.cons_ne_nil b bs)
          show (((b :: bs).getLast _ : Nat) : Int) + 1 = (next + (len + m) : Nat)
          omega

/-- So does one that cannot be decrypted. -/
lemma inv_failDecrypt (hinv : Inv s) (hs : step s .failDecrypt = some s') : Inv s' := by
  rw [step] at hs
  split at hs
  case h_2 => cases hs
  case h_1 =>
    cases hs
    exact { hinv with inOrder := nofun }

/-- So does one that is decrypted. -/
lemma inv_putDbOps (hinv : Inv s) (hs : step s .putDbOps = some s') : Inv s' := by
  rw [step] at hs
  split at hs
  case h_2 => cases hs
  case h_1 batch hdecrypting =>
    split at hs
    case isFalse => cases hs
    case isTrue =>
      cases hs
      refine { hinv with inOrder := ?_ }
      intro hfailed
      obtain ⟨next, len, horder⟩ := hinv.inOrder hfailed
      refine ⟨next, len, { horder with pipeline := ?_ }⟩
      rw [← horder.pipeline]
      show s.dbOps.elim [] DbOps.batch ++ (s.dbOpsQueue ++ [batch]).flatten ++ [] = s.pipeline
      rw [State.pipeline, hdecrypting, List.flatten_concat, Option.getD_some, List.append_nil,
        List.append_assoc]

/-- So does one that is about to be written. -/
lemma inv_startDbOps (hinv : Inv s) (hs : step s .startDbOps = some s') : Inv s' := by
  rw [step] at hs
  split at hs
  case h_2 => cases hs
  case h_1 batch queue hqueue hnone =>
    cases hs
    refine { hinv with inOrder := ?_ }
    intro hfailed
    obtain ⟨next, len, horder⟩ := hinv.inOrder hfailed
    refine ⟨next, len, { horder with pipeline := ?_, memory := ?_ }⟩
    · rw [← horder.pipeline, State.pipeline, State.pipeline, hqueue, hnone]
      rfl
    · have hmemory := horder.memory
      rwa [State.handled, hnone] at hmemory

/-- The batch that is handled follows on the blocks that are written. -/
lemma InOrder.dbOps {next len handled : Nat} {batch : List Nat} (horder : InOrder s next len)
    (hdbOps : s.dbOps = some ⟨batch, handled⟩) :
    batch = List.range' next batch.length ∧
      s.dbOpsQueue.flatten ++ s.decrypting.getD []
        = List.range' (next + batch.length) (len - batch.length) ∧
      batch.length ≤ len := by
  have hpipeline := horder.pipeline
  rw [State.pipeline, hdbOps, Option.elim_some, List.append_assoc] at hpipeline
  obtain ⟨k, hk, hbatch, hrest⟩ := List.range'_eq_append_iff.mp hpipeline.symm
  have hlength : k = batch.length := by
    have := congrArg List.length hbatch
    rw [List.length_range'] at this
    exact this.symm
  subst hlength
  exact ⟨hbatch, (by rwa [Nat.mul_one] at hrest), hk⟩

/-- So does a block that is handled. -/
lemma inv_handleBlock (hinv : Inv s) (hs : step s .handleBlock = some s') : Inv s' := by
  rw [step] at hs
  split at hs
  case h_2 => cases hs
  case h_1 batch handled hdbOps =>
    split at hs
    case h_2 => cases hs
    case h_1 b hb =>
      cases hs
      refine { hinv with lower_memory := ?_, inOrder := ?_ }
      · show (-1 : Int) ≤ b
        omega
      · intro hfailed
        obtain ⟨next, len, horder⟩ := hinv.inOrder hfailed
        obtain ⟨hbatch, -, -⟩ := horder.dbOps hdbOps
        refine ⟨next, len, { horder with pipeline := ?_, memory := ?_ }⟩
        · rw [← horder.pipeline, State.pipeline, State.pipeline, hdbOps]
          rfl
        · have hvalue : b = next + handled := by
            rw [hbatch] at hb
            obtain ⟨_, hget⟩ := List.getElem?_eq_some_iff.mp hb
            rw [List.getElem_range', Nat.one_mul] at hget
            exact hget.symm
          show (b : Int) < (next + (handled + 1) : Nat)
          omega

/-- So does a batch that is written. -/
lemma inv_write (hinv : Inv s) (hnot : s.failed = false) (hs : step s .write = some s') :
    Inv s' := by
  rw [step] at hs
  split at hs
  case h_2 => cases hs
  case h_1 batch handled hdbOps =>
    split at hs
    case isFalse => cases hs
    case isTrue hall =>
      cases hs
      obtain ⟨next, len, horder⟩ := hinv.inOrder hnot
      obtain ⟨hbatch, hrest, hle⟩ := horder.dbOps hdbOps
      have hmemory : s.syncedToRollup < (next + batch.length : Nat) := by
        have := horder.memory
        rwa [State.handled, hdbOps, Option.elim_some, hall] at this
      have hwritten : ∀ b < next + batch.length, b ∈ s.db.blocks ++ batch := by
        intro b hb
        rcases Nat.lt_or_ge b next with hlt | hge
        · exact List.mem_append_left batch (horder.written b hlt)
        · refine List.mem_append_right s.db.blocks ?_
          rw [hbatch]
          exact List.mem_range'_1.mpr ⟨hge, hb⟩
      refine { hinv with lower := hinv.lower_memory, row := ?_, inOrder := fun _ => ?_ }
      · intro b hb
        refine hwritten b ?_
        have : (b : Int) ≤ s.syncedToRollup := hb
        omega
      · refine ⟨next + batch.length, len - batch.length, ?_, ?_, hwritten, hmemory, hmemory⟩
        · rw [← hrest]
          rfl
        · have hlatest := horder.latest
          show s.latestQueuedRollup + 1 = (next + batch.length + (len - batch.length) : Nat)
          omega

/-- So does one that fails. -/
lemma inv_failDbOps (hinv : Inv s) (hs : step s .failDbOps = some s') : Inv s' := by
  rw [step] at hs
  split at hs
  case h_2 => cases hs
  case h_1 =>
    cases hs
    exact { hinv with inOrder := nofun }

/-- So does reading what is synced. -/
lemma inv_syncFromDb (hinv : Inv s) (hs : step s .syncFromDb = some s') : Inv s' := by
  cases hs
  refine { hinv with lower_memory := hinv.lower, inOrder := ?_ }
  intro hfailed
  obtain ⟨next, len, horder⟩ := hinv.inOrder hfailed
  refine ⟨next, len, { horder with memory := ?_ }⟩
  have hrow := horder.row
  show s.db.syncedToRollup < (next + s.handled : Nat)
  omega

/-- So does a restart. -/
lemma inv_restart (hinv : Inv s) (hs : step s .restart = some s') : Inv s' := by
  cases hs
  exact inv_start hinv.lower hinv.row

/-- Every step under the condition keeps it. -/
lemma inv_step (s : State) (a : Action) (s' : State) (hinv : Inv s)
    (hs : Guarded (Steps step) Kept s a s') : Inv s' := by
  obtain ⟨hs, hkept⟩ := hs
  cases a with
  | processBlocks blocks => exact inv_processBlocks hinv hkept hs
  | handleBlocks => exact inv_handleBlocks hinv hs
  | failDecrypt => exact inv_failDecrypt hinv hs
  | putDbOps => exact inv_putDbOps hinv hs
  | startDbOps => exact inv_startDbOps hinv hs
  | handleBlock => exact inv_handleBlock hinv hs
  | write => exact inv_write hinv hkept hs
  | failDbOps => exact inv_failDbOps hinv hs
  | syncFromDb => exact inv_syncFromDb hinv hs
  | restart => exact inv_restart hinv hs

/-- In memory, while no batch is between its first block and its write and none has failed. -/
theorem synced_effects {db : Database} {as : List Action} {s : State}
    (hlower : -1 ≤ db.syncedToRollup) (hrow : db.SyncedTo db.syncedToRollup)
    (h : Run (Guarded (Steps step) Kept) (.start db) as s) :
    s.db.SyncedTo s.db.syncedToRollup ∧
      (s.dbOps = none → s.failed = false → s.db.SyncedTo s.syncedToRollup) := by
  have hinv : Inv s := h.invariant (inv_start hlower hrow) inv_step
  refine ⟨hinv.row, fun hdbOps hfailed b hb => ?_⟩
  obtain ⟨next, len, horder⟩ := hinv.inOrder hfailed
  have hmemory := horder.memory
  rw [State.handled, hdbOps, Option.elim_none] at hmemory
  exact horder.written b (by omega)

/-- The first two blocks, in two batches of which the second is written after a restart. -/
def sampleRun : List Action :=
  [.processBlocks [0], .processBlocks [1, 2], .handleBlocks, .putDbOps, .handleBlocks, .startDbOps,
    .failDecrypt, .handleBlock, .restart, .processBlocks [0, 1], .handleBlocks, .putDbOps,
    .startDbOps, .handleBlock, .handleBlock, .write]

/-- Two blocks are synced. -/
theorem synced_effects_sample : ∃ s : State, s.db.syncedToRollup = 1 ∧ s.db.SyncedTo s.db.syncedToRollup ∧
    (s.dbOps = none → s.failed = false → s.db.SyncedTo s.syncedToRollup) := by
  obtain ⟨s, hs, hrow⟩ : ∃ s, exec (Transition.guard step Kept) (.start ⟨-1, []⟩) sampleRun = some s
      ∧ s.db.syncedToRollup = 1 :=
    Option.map_eq_some_iff.mp
      (show (exec (Transition.guard step Kept) (.start ⟨-1, []⟩) sampleRun).map
        (·.db.syncedToRollup) = some 1 by decide)
  exact ⟨s, hrow, synced_effects (by decide) (fun b hb => absurd hb (by show ¬ (b : Int) ≤ -1; omega))
    (Transition.exec_guard_run hs)⟩

/-- Decrypting the first block fails, and the second one is written: the first is skipped. -/
theorem failedBatch_skipped : ¬ ∀ (as : List Action) (s : State),
    Run (Steps step) (.start ⟨-1, []⟩) as s → s.db.SyncedTo s.db.syncedToRollup := by
  intro hall
  obtain ⟨s, hs, hrow, hmissing⟩ : ∃ s, exec step (.start ⟨-1, []⟩)
      [.processBlocks [0], .handleBlocks, .failDecrypt, .processBlocks [1], .handleBlocks, .putDbOps,
        .startDbOps, .handleBlock, .write] = some s ∧ s.db.syncedToRollup = 1 ∧ 0 ∉ s.db.blocks :=
    ⟨_, rfl, rfl, by decide⟩
  refine hmissing (hall _ s (Transition.exec_run hs) 0 ?_)
  rw [hrow]
  decide

end AztecConnect.Client.UserState
