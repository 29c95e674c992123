import AztecConnect.Client.MemoryFifo

/-!
# A queue of functions

Translation of `barretenberg.js/src/fifo/serial_queue.ts`. The queue is consumed by the loop of
`MemoryFifo.process`, which awaits the job of each function before it gets the next one; a job never
rejects. What waits for a promise goes on at any time after the promise is settled. The functions run
one after the other in the order in which they were put, whatever their outcomes (`sound_of_run`).
-/

namespace AztecConnect.Client

open Transition (Run Steps)

variable {F α ε : Type}

/-- Where `process` is. -/
inductive Process (F α ε : Type) where
  /-- Before `start`. -/
  | idle
  /-- `get` has not returned. -/
  | getting
  /-- `get` has returned; the loop is about to go on. -/
  | got (item : Option F)
  /-- The job of a function has not returned. The function has an outcome once it has. -/
  | handling (fn : F) (outcome : Option (Except ε α))
  /-- The job has returned; the loop is about to go on. -/
  | handled
  | returned

namespace Process

/-- The function that the loop is about to call. -/
def next : Process F α ε → List F
  | .got (some fn) => [fn]
  | _ => []

/-- The function whose job has not returned. -/
def current : Process F α ε → List F
  | .handling fn _ => [fn]
  | _ => []

/-- The function that has begun and has not settled. -/
def running : Process F α ε → List F
  | .handling fn none => [fn]
  | _ => []

/-- The outcome that its job has not passed on. -/
def answer : Process F α ε → List (F × Except ε α)
  | .handling fn (some outcome) => [(fn, outcome)]
  | _ => []

end Process

/-- The queue in use. The lists record history: the functions that have begun, those that have
settled with their outcomes, what the callers of `put` have received, the functions put before `end`
or `cancel`, and whether these have been called. -/
structure SerialQueue (F α ε : Type) where
  queue : MemoryFifo Unit F
  process : Process F α ε
  begun : List F
  settled : List (F × Except ε α)
  results : List (F × Except ε α)
  accepted : List F
  ended : Bool
  cancelled : Bool

namespace SerialQueue

/-- A new queue. -/
def new : SerialQueue F α ε := ⟨.new, .idle, [], [], [], [], false, false⟩

/-- `length`. -/
def length (s : SerialQueue F α ε) : Nat := s.queue.length

/-- What happens to the queue. -/
inductive Action (F α ε : Type) where
  | start
  | put (fn : F)
  | end_
  | cancel
  /-- The function that runs resolves or rejects. -/
  | settle (outcome : Except ε α)
  /-- Its job passes on the outcome, and returns. -/
  | return_
  /-- The loop goes on. -/
  | resume

/-- The promise of the loop's `get` is resolved, unless it is already. -/
def resolve (s : SerialQueue F α ε) (item : Option F) : SerialQueue F α ε :=
  match s.process with
  | .getting => { s with process := .got item }
  | _ => s

/-- An iteration of the loop, up to its first await. -/
def iterate (s : SerialQueue F α ε) : SerialQueue F α ε :=
  let (queue, result) := s.queue.get ()
  match result with
  | some item => { s with queue := queue, process := .got item }
  | none => { s with queue := queue, process := .getting }

/-- One step; `none` if it cannot happen. -/
def step (s : SerialQueue F α ε) : Action F α ε → Option (SerialQueue F α ε)
  | .start =>
    match s.process with
    | .idle => some s.iterate
    | _ => none
  | .put fn =>
    let (queue, resolve) := s.queue.put fn
    let s' := { s with
      queue := queue
      accepted := if s.ended then s.accepted else s.accepted ++ [fn] }
    some (match resolve with
      | some () => s'.resolve (some fn)
      | none => s')
  | .end_ =>
    let (queue, resolves) := s.queue.end_
    some (resolves.foldl (fun s _ => s.resolve none) { s with queue := queue, ended := true })
  | .cancel =>
    let (queue, resolves) := s.queue.cancel
    some (resolves.foldl (fun s _ => s.resolve none)
      { s with queue := queue, ended := true, cancelled := true })
  | .settle outcome =>
    match s.process with
    | .handling fn none =>
      some { s with
        process := .handling fn (some outcome)
        settled := s.settled ++ [(fn, outcome)] }
    | _ => none
  | .return_ =>
    match s.process with
    | .handling fn (some outcome) =>
      some { s with process := .handled, results := s.results ++ [(fn, outcome)] }
    | _ => none
  | .resume =>
    match s.process with
    | .got none => some { s with process := .returned }
    | .got (some fn) => some { s with process := .handling fn none, begun := s.begun ++ [fn] }
    | .handled => some s.iterate
    | _ => none

/-- What the event loop does by itself. -/
def Action.IsContinuation : Action F α ε → Prop
  | .return_ => True
  | .resume => True
  | _ => False

/-- Nothing is about to go on. -/
def Quiet (s : SerialQueue F α ε) : Prop := ∀ a : Action F α ε, a.IsContinuation → step s a = none

/-- What the loop has taken from the queue. -/
def given (s : SerialQueue F α ε) : List F := s.begun ++ s.process.next

/-- The functions run in the order in which they were put, none is lost, one does not begin before the
last has settled, the callers receive the outcomes, and the queue goes on until none is left. -/
structure Sound (s : SerialQueue F α ε) : Prop where
  inOrder : s.given <+: s.accepted
  kept : s.cancelled = false → s.given ++ s.queue.items = s.accepted
  alone : s.begun = s.settled.map Prod.fst ++ s.process.running ∧ s.process.running.length ≤ 1
  results : s.results <+: s.settled
  quiet : s.Quiet → s.process = .idle ∨ s.process.running ≠ [] ∨
    s.queue.items = [] ∧ s.given = s.settled.map Prod.fst
  goesOn : ∃ as s', (∀ a ∈ as, Action.IsContinuation a) ∧ Run (Steps step) s as s' ∧ s'.Quiet

/-! ## One step -/

/-- The loop waits for the queue only if this is empty and has not ended; what it has begun are the
functions whose jobs have returned, and the current one. -/
structure Inv (s : SerialQueue F α ε) : Prop where
  flushing : s.queue.flushing = s.ended
  cancelled : s.cancelled = true → s.ended = true
  waiting : s.ended = false → s.queue.waiting ≠ [] → s.process = .getting
  getting : s.process = .getting →
    s.ended = false ∧ s.queue.items = [] ∧ s.queue.waiting = [()]
  done : s.process = .got none ∨ s.process = .returned → s.ended = true ∧ s.queue.items = []
  begun : s.begun = s.results.map Prod.fst ++ s.process.current
  settled : s.settled = s.results ++ s.process.answer
  accepted : ∃ discarded, s.given ++ s.queue.items ++ discarded = s.accepted ∧
    (s.cancelled = false → discarded = [])

variable {s s' : SerialQueue F α ε} {a : Action F α ε}

/-- The invariant holds of a new queue. -/
lemma inv_new : Inv (new : SerialQueue F α ε) where
  flushing := rfl
  cancelled h := h
  waiting _ h := absurd rfl h
  getting := nofun
  done := nofun
  begun := rfl
  settled := rfl
  accepted := ⟨[], rfl, fun _ => rfl⟩

/-- Only a process that waits takes an item. -/
lemma resolve_of_ne (item : Option F) (h : s.process ≠ .getting) : s.resolve item = s := by
  unfold resolve
  split
  · contradiction
  · rfl

/-- One that waits goes on with it. -/
lemma resolve_of_getting (item : Option F) (h : s.process = .getting) :
    s.resolve item = { s with process := .got item } := by
  rw [resolve, h]

/-- Resolving all waiting gets does nothing if the process does not wait. -/
lemma resolveAll_of_ne {resolves : List Unit} (h : s.process ≠ .getting) :
    resolves.foldl (fun s _ => s.resolve none) s = s := by
  induction resolves with
  | nil => rfl
  | cons _ resolves ih =>
    rw [List.foldl_cons, resolve_of_ne none h]
    exact ih

/-- The loop gets the next function when it has nothing to do. -/
lemma Inv.iterate (h : Inv s) (hprocess : s.process = .idle ∨ s.process = .handled) :
    Inv s.iterate := by
  have hne : s.process ≠ .getting := by
    rintro hp
    rw [hp] at hprocess
    rcases hprocess with hp | hp
    · cases hp
    · cases hp
  have hwaiting : s.ended = false → s.queue.waiting = [] := fun hended => by
    by_contra hw
    exact hne (h.waiting hended hw)
  have hbegun : s.begun = s.results.map Prod.fst := by
    rcases hprocess with hp | hp
    · exact h.begun.trans (by rw [hp]; exact List.append_nil _)
    · exact h.begun.trans (by rw [hp]; exact List.append_nil _)
  have hsettled : s.settled = s.results := by
    rcases hprocess with hp | hp
    · exact h.settled.trans (by rw [hp]; exact List.append_nil _)
    · exact h.settled.trans (by rw [hp]; exact List.append_nil _)
  have hgiven : s.given = s.begun := by
    rcases hprocess with hp | hp
    · rw [given, hp]
      exact List.append_nil _
    · rw [given, hp]
      exact List.append_nil _
  obtain ⟨discarded, haccepted, hnil⟩ := h.accepted
  rw [hgiven] at haccepted
  have hcurrent : s.begun = s.results.map Prod.fst ++ [] := hbegun.trans (List.append_nil _).symm
  have hanswer : s.settled = s.results ++ [] := hsettled.trans (List.append_nil _).symm
  unfold SerialQueue.iterate MemoryFifo.get
  cases hitems : s.queue.items with
  | cons fn items =>
    refine ⟨h.flushing, h.cancelled, fun hended hw => absurd (hwaiting hended) hw, nofun, nofun,
      hcurrent, hanswer, discarded, ?_, hnil⟩
    show s.begun ++ [fn] ++ items ++ discarded = s.accepted
    rw [← haccepted, hitems, List.append_assoc s.begun, List.singleton_append]
  | nil =>
    rw [hitems] at haccepted
    have hkeep : s.begun ++ [] ++ [] ++ discarded = s.accepted := by
      rw [← haccepted, List.append_nil]
    by_cases hflushing : s.queue.flushing = true
    · have hended := h.flushing.symm.trans hflushing
      rw [if_pos hflushing]
      refine ⟨h.flushing, h.cancelled, fun hfalse => ?_, nofun, fun _ => ⟨hended, hitems⟩,
        hcurrent, hanswer, discarded, ?_, hnil⟩
      · exact absurd (hfalse.symm.trans hended) Bool.false_ne_true
      · show s.begun ++ [] ++ s.queue.items ++ discarded = s.accepted
        rw [hitems]
        exact hkeep
    · have hended : s.ended = false := h.flushing.symm.trans (Bool.eq_false_iff.mpr hflushing)
      rw [if_neg hflushing]
      refine ⟨h.flushing, h.cancelled, fun _ _ => rfl, fun _ => ⟨hended, rfl, ?_⟩, nofun,
        hcurrent, hanswer, discarded, hkeep, hnil⟩
      show s.queue.waiting ++ [()] = [()]
      rw [hwaiting hended]
      rfl

/-- A put keeps the invariant. -/
lemma Inv.put (h : Inv s) {fn : F} (hs : step s (.put fn) = some s') : Inv s' := by
  obtain ⟨discarded, haccepted, hnil⟩ := h.accepted
  rw [step, MemoryFifo.put] at hs
  by_cases hflushing : s.queue.flushing = true
  · -- the function is discarded
    rw [if_pos hflushing, if_pos (h.flushing.symm.trans hflushing)] at hs
    cases hs
    exact h
  · have hended : s.ended = false := h.flushing.symm.trans (Bool.eq_false_iff.mpr hflushing)
    have hcancelled : s.cancelled = false :=
      Bool.eq_false_iff.mpr fun hc => Bool.eq_false_iff.mp hended (h.cancelled hc)
    rw [if_neg hflushing, if_neg (Bool.eq_false_iff.mp hended)] at hs
    rw [hnil hcancelled, List.append_nil] at haccepted
    cases hwaiting : s.queue.waiting with
    | cons resolve waiting =>
      have hprocess := h.waiting hended (by rw [hwaiting]; exact List.cons_ne_nil _ _)
      obtain ⟨-, hitems, hsingle⟩ := h.getting hprocess
      rw [hwaiting] at hs hsingle
      obtain ⟨-, rfl⟩ := List.cons.inj hsingle
      have hbegun := h.begun
      have hsettled := h.settled
      rw [hprocess] at hbegun hsettled
      rw [given, hprocess, hitems] at haccepted
      have hs' := (Option.some.inj hs).symm.trans (resolve_of_getting (some fn) hprocess)
      subst hs'
      refine ⟨h.flushing, h.cancelled, fun _ hw => absurd rfl hw, fun hp => ?_,
        fun hp => ?_, hbegun, hsettled, [], ?_, fun _ => rfl⟩
      · cases hp
      · rcases hp with hp | hp <;> cases hp
      · show s.begun ++ [fn] ++ s.queue.items ++ [] = s.accepted ++ [fn]
        rw [← haccepted, hitems]
        simp only [Process.next, List.append_nil]
    | nil =>
      rw [hwaiting] at hs
      have hne : s.process ≠ .getting := fun hprocess => by
        rw [(h.getting hprocess).2.2] at hwaiting
        cases hwaiting
      cases hs
      refine ⟨h.flushing, h.cancelled, fun _ hw => absurd rfl hw, fun hp => absurd hp hne,
        fun hp => ?_, h.begun, h.settled, [], ?_, fun _ => rfl⟩
      · exact absurd (hended.symm.trans (h.done hp).1) Bool.false_ne_true
      · show s.given ++ (s.queue.items ++ [fn]) ++ [] = s.accepted ++ [fn]
        rw [← haccepted, List.append_nil, List.append_assoc]

/-- `end` and `cancel`: the loop goes on if it waits. -/
lemma Inv.flush (h : Inv s) {items : List F} {cancelled : Bool}
    (hitems : s.process = .getting ∨ s.process = .got none ∨ s.process = .returned → items = [])
    (haccepted : ∃ discarded, s.given ++ items ++ discarded = s.accepted ∧
      (cancelled = false → discarded = [])) :
    Inv (s.queue.waiting.foldl (fun s _ => s.resolve none)
      { s with queue := ⟨s.queue.waiting, items, true⟩, ended := true, cancelled := cancelled }) := by
  by_cases hprocess : s.process = .getting
  · have hbegun := h.begun
    have hsettled := h.settled
    have hgiven : s.given = s.begun ++ [] := by rw [given, hprocess]; rfl
    rw [hprocess] at hbegun hsettled
    rw [hgiven] at haccepted
    rw [(h.getting hprocess).2.2]
    show Inv (SerialQueue.resolve _ none)
    rw [resolve_of_getting (s := { s with
      queue := ⟨[()], items, true⟩, ended := true, cancelled := cancelled }) none hprocess]
    exact ⟨rfl, fun _ => rfl, nofun, nofun, fun _ => ⟨rfl, hitems (.inl hprocess)⟩, hbegun, hsettled,
      haccepted⟩
  · rw [resolveAll_of_ne (s := { s with
      queue := ⟨s.queue.waiting, items, true⟩, ended := true, cancelled := cancelled }) hprocess]
    exact ⟨rfl, fun _ => rfl, nofun, fun hp => absurd hp hprocess,
      fun hp => ⟨rfl, hitems (.inr hp)⟩, h.begun, h.settled, haccepted⟩

/-- Every step keeps it. -/
lemma Inv.step (h : Inv s) (hs : step s a = some s') : Inv s' := by
  obtain ⟨discarded, haccepted, hnil⟩ := h.accepted
  cases a with
  | start =>
    rw [SerialQueue.step] at hs
    split at hs
    case h_1 hprocess =>
      cases hs
      exact h.iterate (.inl hprocess)
    case h_2 => cases hs
  | put fn => exact h.put hs
  | end_ =>
    cases hs
    refine h.flush (fun hp => ?_) h.accepted
    rcases hp with hp | hp
    · exact (h.getting hp).2.1
    · exact (h.done hp).2
  | cancel =>
    cases hs
    refine h.flush (fun _ => rfl) ⟨s.queue.items ++ discarded, ?_, nofun⟩
    rw [List.append_nil, ← List.append_assoc, haccepted]
  | settle outcome =>
    rw [SerialQueue.step] at hs
    split at hs
    case h_1 fn hprocess =>
      cases hs
      have hbegun := h.begun
      have hsettled := h.settled
      rw [hprocess] at hbegun hsettled
      rw [given, hprocess] at haccepted
      refine ⟨h.flushing, h.cancelled, fun hended hw => ?_, nofun, nofun, hbegun, ?_, discarded,
        haccepted, hnil⟩
      · have hp := h.waiting hended hw
        rw [hprocess] at hp
        cases hp
      · show s.settled ++ [(fn, outcome)] = s.results ++ [(fn, outcome)]
        rw [hsettled]
        exact congrArg (· ++ [(fn, outcome)]) (List.append_nil _)
    case h_2 => cases hs
  | return_ =>
    rw [SerialQueue.step] at hs
    split at hs
    case h_1 fn outcome hprocess =>
      cases hs
      have hbegun := h.begun
      have hsettled := h.settled
      rw [hprocess] at hbegun hsettled
      rw [given, hprocess] at haccepted
      refine ⟨h.flushing, h.cancelled, fun hended hw => ?_, nofun, nofun, ?_, ?_, discarded,
        haccepted, hnil⟩
      · have hp := h.waiting hended hw
        rw [hprocess] at hp
        cases hp
      · show s.begun = (s.results ++ [(fn, outcome)]).map Prod.fst ++ []
        rw [hbegun, List.map_append, List.append_nil]
        rfl
      · show s.settled = s.results ++ [(fn, outcome)] ++ []
        rw [hsettled, List.append_nil]
        rfl
    case h_2 => cases hs
  | resume =>
    rw [SerialQueue.step] at hs
    split at hs
    case h_1 hprocess =>
      cases hs
      have hbegun := h.begun
      have hsettled := h.settled
      rw [hprocess] at hbegun hsettled
      rw [given, hprocess] at haccepted
      obtain ⟨hended, hitems⟩ := h.done (.inl hprocess)
      exact ⟨h.flushing, h.cancelled, fun hfalse => absurd (hfalse.symm.trans hended) Bool.false_ne_true,
        nofun, fun _ => ⟨hended, hitems⟩, hbegun, hsettled, discarded, haccepted, hnil⟩
    case h_2 fn hprocess =>
      cases hs
      have hbegun := h.begun
      have hsettled := h.settled
      rw [hprocess] at hbegun hsettled
      rw [given, hprocess] at haccepted
      refine ⟨h.flushing, h.cancelled, fun hended hw => ?_, nofun, nofun, ?_, hsettled, discarded, ?_,
        hnil⟩
      · have hp := h.waiting hended hw
        rw [hprocess] at hp
        cases hp
      · show s.begun ++ [fn] = s.results.map Prod.fst ++ [fn]
        rw [hbegun]
        exact congrArg (· ++ [fn]) (List.append_nil _)
      · show s.begun ++ [fn] ++ [] ++ s.queue.items ++ discarded = s.accepted
        rw [List.append_nil]
        exact haccepted
    case h_3 hprocess =>
      cases hs
      exact h.iterate (.inr hprocess)
    case h_4 => cases hs

/-! ## What a step leaves -/

/-- The function that is put. -/
def Action.puts : Action F α ε → List F
  | .put fn => [fn]
  | _ => []

/-- The queue is ended. -/
def Action.ends : Action F α ε → Bool
  | .end_ => true
  | .cancel => true
  | _ => false

/-- The queue is cancelled. -/
def Action.cancels : Action F α ε → Bool
  | .cancel => true
  | _ => false

/-- The function that runs settles. -/
def Action.settles : Action F α ε → Bool
  | .settle _ => true
  | _ => false

/-- What a step does to the history, and that a function runs until it settles. -/
structure Frame (s : SerialQueue F α ε) (a : Action F α ε) (s' : SerialQueue F α ε) : Prop where
  accepted : s'.accepted = s.accepted ++ if s.ended then [] else a.puts
  ended : s'.ended = (s.ended || a.ends)
  cancelled : s'.cancelled = (s.cancelled || a.cancels)
  settled : s'.settled.map Prod.fst =
    s.settled.map Prod.fst ++ if a.settles then s.process.running else []
  running : a.settles = false → ∀ fn, s.process = .handling fn none → s'.process = .handling fn none

/-- Resolving a get changes the process only. -/
lemma resolve_eq (item : Option F) :
    s.resolve item = { s with process := (s.resolve item).process } := by
  by_cases h : s.process = .getting
  · rw [resolve_of_getting item h]
  · rw [resolve_of_ne item h]

/-- So does resolving all of them. -/
lemma resolveAll_eq (resolves : List Unit) : ∃ process : Process F α ε,
    resolves.foldl (fun s _ => s.resolve none) s = { s with process := process } := by
  induction resolves generalizing s with
  | nil => exact ⟨s.process, rfl⟩
  | cons _ resolves ih =>
    obtain ⟨process, heq⟩ := @ih (s.resolve none)
    refine ⟨process, heq.trans ?_⟩
    rw [resolve_eq none]

/-- A round of the loop changes the queue and the process only. -/
lemma iterate_eq : ∃ (queue : MemoryFifo Unit F) (process : Process F α ε),
    s.iterate = { s with queue := queue, process := process } := by
  unfold iterate
  split
  split
  · exact ⟨_, _, rfl⟩
  · exact ⟨_, _, rfl⟩

/-- A step that does nothing but move the loop. -/
lemma Frame.of_moves {queue : MemoryFifo Unit F} {process : Process F α ε}
    {results : List (F × Except ε α)} {begun : List F}
    (ha : a = .start ∨ a = .return_ ∨ a = .resume)
    (hrunning : ∀ fn, s.process ≠ .handling fn none) :
    Frame s a { s with queue := queue, process := process, results := results, begun := begun } := by
  rcases ha with rfl | rfl | rfl
  all_goals
    constructor
    case accepted => simp only [Action.puts, ite_self, List.append_nil]
    case ended => exact (Bool.or_false _).symm
    case cancelled => exact (Bool.or_false _).symm
    case settled => exact (List.append_nil _).symm
    case running => exact fun _ fn hp => absurd hp (hrunning fn)

/-- `end` and `cancel`. -/
lemma frame_flush {queue : MemoryFifo Unit F} {cancelled : Bool} {resolves : List Unit}
    (hputs : a.puts = []) (hends : a.ends = true) (hcancels : cancelled = (s.cancelled || a.cancels))
    (hsettles : a.settles = false) :
    Frame s a (resolves.foldl (fun s _ => s.resolve none)
      { s with queue := queue, ended := true, cancelled := cancelled }) := by
  constructor
  case running =>
    intro _ fn hp
    rw [resolveAll_of_ne]
    · exact hp
    · exact fun hgetting => by cases hp.symm.trans hgetting
  all_goals
    obtain ⟨process, heq⟩ := resolveAll_eq
      (s := { s with queue := queue, ended := true, cancelled := cancelled }) resolves
    rw [heq]
  case accepted => simp only [hputs, ite_self, List.append_nil]
  case ended => rw [hends, Bool.or_true]
  case cancelled => exact hcancels
  case settled => rw [hsettles, if_neg Bool.false_ne_true, List.append_nil]

/-- What each step changes of the records. -/
lemma step_frame (hs : step s a = some s') : Frame s a s' := by
  cases a with
  | start =>
    rw [step] at hs
    split at hs
    case h_1 hprocess =>
      cases hs
      obtain ⟨queue, process, heq⟩ := @iterate_eq _ _ _ s
      rw [heq]
      exact .of_moves (.inl rfl) fun fn hp => by cases hprocess.symm.trans hp
    case h_2 => cases hs
  | put fn =>
    have heq : ∃ (queue : MemoryFifo Unit F) (process : Process F α ε), s' = { s with
        queue := queue
        process := process
        accepted := if s.ended then s.accepted else s.accepted ++ [fn] } ∧
        (∀ fn, s.process = .handling fn none → process = .handling fn none) := by
      cases hs
      split
      · rw [resolve_eq (some fn)]
        refine ⟨_, _, rfl, fun fn' hp => ?_⟩
        rw [resolve_of_ne]
        · exact hp
        · rw [hp]
          nofun
      · exact ⟨_, _, rfl, fun _ hp => hp⟩
    obtain ⟨queue, process, rfl, hrunning⟩ := heq
    constructor
    case accepted =>
      show (if s.ended then s.accepted else s.accepted ++ [fn]) = _
      split
      · exact (List.append_nil _).symm
      · rfl
    case ended => exact (Bool.or_false _).symm
    case cancelled => exact (Bool.or_false _).symm
    case settled => exact (List.append_nil _).symm
    case running => exact fun _ => hrunning
  | end_ =>
    cases hs
    exact frame_flush rfl rfl (Bool.or_false _).symm rfl
  | cancel =>
    cases hs
    exact frame_flush rfl rfl (Bool.or_true _).symm rfl
  | settle outcome =>
    rw [step] at hs
    split at hs
    case h_1 fn hprocess =>
      cases hs
      constructor
      case accepted => simp only [Action.puts, ite_self, List.append_nil]
      case ended => exact (Bool.or_false _).symm
      case cancelled => exact (Bool.or_false _).symm
      case settled =>
        rw [hprocess, List.map_append]
        rfl
      case running => nofun
    case h_2 => cases hs
  | return_ =>
    rw [step] at hs
    split at hs
    case h_1 fn outcome hprocess =>
      cases hs
      exact .of_moves (.inr (.inl rfl)) fun fn hp => by cases hprocess.symm.trans hp
    case h_2 => cases hs
  | resume =>
    rw [step] at hs
    split at hs
    case h_1 hprocess =>
      cases hs
      exact .of_moves (.inr (.inr rfl)) fun fn hp => by cases hprocess.symm.trans hp
    case h_2 fn hprocess =>
      cases hs
      exact .of_moves (.inr (.inr rfl)) fun fn hp => by cases hprocess.symm.trans hp
    case h_3 hprocess =>
      cases hs
      obtain ⟨queue, process, heq⟩ := @iterate_eq _ _ _ s
      rw [heq]
      exact .of_moves (.inr (.inr rfl)) fun fn hp => by cases hprocess.symm.trans hp
    case h_4 => cases hs

/-! ## Runs -/

/-- How many continuations are left. -/
def continuations (s : SerialQueue F α ε) : Nat :=
  match s.process with
  | .got _ => 1
  | .handled => 2
  | .handling _ (some _) => 3
  | _ => 0

/-- A round of the loop has at most one continuation. -/
lemma continuations_iterate : s.iterate.continuations ≤ 1 := by
  rw [iterate]
  split
  split
  · exact Nat.le_refl 1
  · exact Nat.zero_le 1

/-- A continuation leaves fewer of them. -/
lemma continuations_lt (ha : a.IsContinuation) (hs : step s a = some s') :
    s'.continuations < s.continuations := by
  cases a with
  | return_ =>
    rw [step] at hs
    split at hs
    case h_1 fn outcome hprocess =>
      cases hs
      simp only [continuations, hprocess]
      decide
    case h_2 => cases hs
  | resume =>
    rw [step] at hs
    split at hs
    case h_1 hprocess =>
      cases hs
      simp only [continuations, hprocess]
      decide
    case h_2 fn hprocess =>
      cases hs
      simp only [continuations, hprocess]
      decide
    case h_3 hprocess =>
      cases hs
      have hle := @continuations_iterate _ _ _ s
      have htwo : s.continuations = 2 := by rw [continuations, hprocess]
      omega
    case h_4 => cases hs
  | start => cases ha
  | put fn => cases ha
  | end_ => cases ha
  | cancel => cases ha
  | settle outcome => cases ha

/-- There are never more than three. -/
lemma continuations_le : s.continuations ≤ 3 := by
  unfold continuations
  split
  · exact Nat.le_of_ble_eq_true rfl
  · exact Nat.le_of_ble_eq_true rfl
  · exact Nat.le_refl 3
  · exact Nat.zero_le 3

/-- A put adds at most one. -/
lemma continuations_put {fn : F} (hs : step s (.put fn) = some s') :
    s'.continuations ≤ s.continuations + 1 := by
  cases hs
  split
  · by_cases hprocess : s.process = .getting
    · rw [resolve, hprocess]
      exact Nat.le_add_left 1 _
    · rw [resolve_of_ne]
      · exact Nat.le_succ _
      · exact hprocess
  · exact Nat.le_succ _

/-- What has begun has settled or runs. -/
lemma Inv.begun_eq (h : Inv s) : s.begun = s.settled.map Prod.fst ++ s.process.running := by
  rw [h.begun, h.settled, List.map_append, List.append_assoc]
  refine congrArg _ ?_
  cases s.process with
  | handling fn outcome =>
    cases outcome with
    | none => rfl
    | some outcome => rfl
  | idle => rfl
  | getting => rfl
  | got item => rfl
  | handled => rfl
  | returned => rfl

/-- When nothing goes on, the loop has not started, or a function runs, or the queue is empty. -/
lemma Inv.quiet (h : Inv s) (hquiet : s.Quiet) : s.process = .idle ∨ s.process.running ≠ [] ∨
    s.queue.items = [] ∧ s.process.next = [] ∧ s.process.running = [] := by
  have hresume := hquiet .resume trivial
  have hreturn := hquiet .return_ trivial
  rw [SerialQueue.step] at hresume
  rw [SerialQueue.step] at hreturn
  cases hprocess : s.process with
  | idle => exact .inl rfl
  | getting => exact .inr (.inr ⟨(h.getting hprocess).2.1, rfl, rfl⟩)
  | got item =>
    rw [hprocess] at hresume
    cases item with
    | none => cases hresume
    | some fn => cases hresume
  | handling fn outcome =>
    cases outcome with
    | none => exact .inr (.inl (List.cons_ne_nil _ _))
    | some outcome =>
      rw [hprocess] at hreturn
      cases hreturn
  | handled =>
    rw [hprocess] at hresume
    cases hresume
  | returned => exact .inr (.inr ⟨(h.done (.inr hprocess)).2, rfl, rfl⟩)

/-- At most one function runs. -/
lemma Process.length_running_le (p : Process F α ε) : p.running.length ≤ 1 := by
  unfold Process.running
  split
  · exact Nat.le_refl 1
  · exact Nat.zero_le 1

/-- Under the invariant the queue is sound. -/
lemma Inv.sound (h : Inv s) : s.Sound := by
  obtain ⟨discarded, haccepted, hnil⟩ := h.accepted
  constructor
  case inOrder => exact ⟨s.queue.items ++ discarded, by rw [← List.append_assoc, haccepted]⟩
  case kept =>
    intro hcancelled
    rwa [hnil hcancelled, List.append_nil] at haccepted
  case alone => exact ⟨h.begun_eq, Process.length_running_le _⟩
  case results => exact ⟨s.process.answer, h.settled.symm⟩
  case quiet =>
    intro hquiet
    refine (h.quiet hquiet).imp_right (Or.imp_right fun ⟨hitems, hnext, hrunning⟩ => ⟨hitems, ?_⟩)
    rw [given, hnext, h.begun_eq, hrunning, List.append_nil, List.append_nil]
  case goesOn => exact Transition.exists_run_to_rest continuations (fun _ _ _ => continuations_lt) s

/-- So it is after every run. -/
lemma sound_of_run {actions : List (Action F α ε)} (h : Run (Steps SerialQueue.step) new actions s) :
    s.Sound :=
  (h.invariant inv_new fun _ _ _ hs hstep => hs.step hstep).sound

end SerialQueue

end AztecConnect.Client
