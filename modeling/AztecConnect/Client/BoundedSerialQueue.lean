import AztecConnect.Client.SerialQueue
import Mathlib.Algebra.GroupWithZero.Nat
import Mathlib.Data.List.Range

/-!
# A queue of functions of bounded size

Translation of `barretenberg.js/src/fifo/bounded_serial_queue.ts` and `semaphore.ts`. A call of `put` or
`exec` acquires a slot of the semaphore, and its function is on the serial queue two microtasks later;
the slot is released when the function has settled. Microtasks run in the order in which they are queued,
and what else waits for a promise goes on at any time after the promise is settled.

In any order of calls, outcomes and continuations no more functions than slots are outstanding, and the
functions run one after the other in the order of the calls (`Inv.sound`). A call that is not on the
serial queue when `end` is called is lost (`end_loses`); otherwise none is (`sound_of_run`).
-/

namespace AztecConnect.Client

open Transition (Run Steps Guarded exec)

/-- The queue of tokens. -/
def Semaphore.new (size : Nat) : MemoryFifo Nat Unit :=
  (List.replicate size ()).foldl (fun queue token => (queue.put token).1) .new

namespace BoundedSerialQueue

/-- Whether a function is put or executed. -/
inductive Kind where
  | put
  | exec
  deriving DecidableEq

/-- The continuation of a call. -/
inductive Microtask where
  /-- `acquire` has a token. -/
  | acquired (call : Nat)
  /-- `acquire` has returned. -/
  | enqueue (call : Nat)

variable {α ε : Type}

/-- How a call is answered: enqueued, or with the outcome of its function. -/
inductive Reply (α ε : Type) where
  | enqueued
  | result (outcome : Except ε α)

/-- The queue in use. The calls are numbered, and a function has the number of its call. The last
fields record history: the functions that have settled, those that were put on the serial queue (or
discarded there), those whose slots have been released, what the callers have received, and the number
of calls before `end` or `cancel`. -/
structure State (α ε : Type) where
  queue : SerialQueue Nat α ε
  semaphore : MemoryFifo Nat Unit
  calls : List Kind
  microtasks : List Microtask
  /-- A function has settled, and `finally` has not run. -/
  finishing : Option (Nat × Except ε α)
  settled : List (Nat × Except ε α)
  enqueued : List Nat
  released : List Nat
  replies : List (Nat × Reply α ε)
  calledBefore : Nat

/-- A new queue. -/
def State.init (maxQueueSize : Nat) : State α ε :=
  ⟨.new, Semaphore.new maxQueueSize, [], [], none, [], [], [], [], 0⟩

/-- What happens to the queue. -/
inductive Action (α ε : Type) where
  | start
  | call (kind : Kind)
  | end_
  | cancel
  /-- The next continuation of a call. -/
  | microtask
  /-- The function that runs resolves or rejects. -/
  | settle (outcome : Except ε α)
  /-- The block that releases its slot. -/
  | finally_
  | return_
  | resume

/-- One step; `none` if it cannot happen. -/
def step (s : State α ε) : Action α ε → Option (State α ε)
  | .start => (s.queue.step .start).map fun queue => { s with queue := queue }
  | .call kind =>
    let (semaphore, token) := s.semaphore.get s.calls.length
    some { s with
      semaphore := semaphore
      calls := s.calls ++ [kind]
      microtasks :=
        if token.isSome then s.microtasks ++ [.acquired s.calls.length] else s.microtasks
      calledBefore := if s.queue.ended then s.calledBefore else s.calledBefore + 1 }
  | .end_ => (s.queue.step .end_).map fun queue => { s with queue := queue }
  | .cancel => (s.queue.step .cancel).map fun queue => { s with queue := queue }
  | .microtask =>
    match s.microtasks with
    | [] => none
    | .acquired call :: microtasks => some { s with microtasks := microtasks ++ [.enqueue call] }
    | .enqueue call :: microtasks =>
      (s.queue.step (.put call)).map fun queue => { s with
        queue := queue
        microtasks := microtasks
        enqueued := s.enqueued ++ [call]
        replies :=
          if s.calls[call]? = some .put then s.replies ++ [(call, .enqueued)] else s.replies }
  | .settle outcome =>
    match s.queue.process, s.finishing with
    | .handling call none, none =>
      some { s with
        finishing := some (call, outcome)
        settled := s.settled ++ [(call, outcome)] }
    | _, _ => none
  | .finally_ =>
    match s.finishing with
    | some (call, outcome) =>
      (s.queue.step (.settle outcome)).map fun queue =>
        let (semaphore, resolve) := s.semaphore.put ()
        { s with
          queue := queue
          semaphore := semaphore
          microtasks :=
            match resolve with
            | some waiter => s.microtasks ++ [.acquired waiter]
            | none => s.microtasks
          finishing := none
          released := s.released ++ [call] }
    | none => none
  | .return_ =>
    match s.queue.process with
    | .handling call (some outcome) =>
      (s.queue.step .return_).map fun queue => { s with
        queue := queue
        replies :=
          if s.calls[call]? = some .exec then s.replies ++ [(call, .result outcome)] else s.replies }
    | _ => none
  | .resume => (s.queue.step .resume).map fun queue => { s with queue := queue }

/-- What the event loop does by itself. -/
def Action.IsContinuation : Action α ε → Prop
  | .microtask => True
  | .finally_ => True
  | .return_ => True
  | .resume => True
  | _ => False

namespace State

variable (s : State α ε)

/-- Nothing is about to go on. -/
def Quiet : Prop := ∀ a : Action α ε, a.IsContinuation → step s a = none

/-- The calls whose token is acquired and whose continuation has not run. -/
def acquiring : List Nat := s.microtasks.filterMap fun
  | .acquired call => some call
  | .enqueue _ => none

/-- The calls that are about to enqueue. -/
def enqueueing : List Nat := s.microtasks.filterMap fun
  | .acquired _ => none
  | .enqueue call => some call

/-- The calls whose functions are not on the serial queue yet. -/
def onTheWay : List Nat := s.enqueueing ++ s.acquiring ++ s.semaphore.waiting

/-- The function that has begun and has not settled. -/
def running : List Nat := if s.finishing = none then s.queue.process.running else []

/-- The calls that have a slot. -/
def outstanding : List Nat :=
  (List.range s.calls.length).filter fun call => call ∉ s.semaphore.waiting ∧ call ∉ s.released

/-- The functions run in the order of the calls, none of those called before `end` is lost, one does
not begin before the last has settled, each releases its slot once, no more than the maximum are
outstanding, and the queue goes on until none is left. -/
structure Sound (maxQueueSize : Nat) : Prop where
  inOrder : s.queue.given ++ s.queue.queue.items <+: List.range s.calls.length
  kept : s.queue.cancelled = false → ∀ call < s.calledBefore,
    call ∈ s.queue.given ++ s.queue.queue.items ++ s.onTheWay
  alone : s.queue.begun = s.settled.map Prod.fst ++ s.running ∧ s.running.length ≤ 1
  released : s.released.Nodup ∧
    s.settled.map Prod.fst = s.released ++ (s.finishing.map Prod.fst).toList
  bounded : s.outstanding.length ≤ maxQueueSize
  quiet : s.Quiet → s.queue.process = .idle ∨ s.running ≠ [] ∨
    s.queue.queue.items = [] ∧ s.queue.given = s.released ∧ s.settled.map Prod.fst = s.released ∧
      (s.queue.ended = false → 0 < maxQueueSize → s.onTheWay = [])
  goesOn : ∃ as s', (∀ a ∈ as, Action.IsContinuation a) ∧ Run (Steps step) s as s' ∧ s'.Quiet

end State

/-! ## One step -/

variable {s s' : State α ε} {a : Action α ε} {maxQueueSize : Nat}

/-- The calls are put on the serial queue in their order, and every token is with the semaphore or with
a call that has not released it. -/
structure Inv (maxQueueSize : Nat) (s : State α ε) : Prop where
  queue : s.queue.Inv
  order : s.enqueued ++ s.onTheWay = List.range s.calls.length
  accepted_prefix : s.queue.accepted <+: s.enqueued
  accepted : s.queue.ended = false → s.queue.accepted = s.enqueued
  released : s.queue.settled.map Prod.fst = s.released
  settled : s.settled.map Prod.fst = s.released ++ (s.finishing.map Prod.fst).toList
  finishing : ∀ call outcome, s.finishing = some (call, outcome) →
    s.queue.process = .handling call none
  flushing : s.semaphore.flushing = false
  waiting : s.semaphore.waiting ≠ [] → s.semaphore.items = []
  tokens : s.semaphore.items.length + s.microtasks.length + s.enqueued.length =
    maxQueueSize + s.released.length
  calledBefore : s.queue.ended = false → s.calledBefore = s.calls.length

/-- A new semaphore has its tokens, and nobody waits. -/
lemma semaphore_new (size : Nat) : Semaphore.new size = ⟨[], List.replicate size (), false⟩ := by
  have hput (tokens : List Unit) (items : List Unit) :
      tokens.foldl (fun queue token => (MemoryFifo.put queue token).1)
        (⟨[], items, false⟩ : MemoryFifo Nat Unit) = ⟨[], items ++ tokens, false⟩ := by
    induction tokens generalizing items with
    | nil => rw [List.append_nil]; rfl
    | cons token tokens ih =>
      refine (ih (items ++ [token])).trans ?_
      rw [List.append_assoc, List.singleton_append]
  exact hput _ []

/-- The invariant holds of a new queue. -/
lemma inv_init : Inv maxQueueSize (State.init maxQueueSize : State α ε) := by
  constructor
  case queue => exact SerialQueue.inv_new
  case order =>
    show [] ++ ([] ++ [] ++ (Semaphore.new maxQueueSize).waiting) = []
    rw [semaphore_new]
    rfl
  case accepted_prefix => exact List.prefix_rfl
  case accepted => exact fun _ => rfl
  case released => rfl
  case settled => rfl
  case finishing => nofun
  case flushing =>
    show (Semaphore.new maxQueueSize).flushing = false
    rw [semaphore_new]
  case waiting =>
    show (Semaphore.new maxQueueSize).waiting ≠ [] → _
    rw [semaphore_new]
    exact fun h => absurd rfl h
  case tokens =>
    show (Semaphore.new maxQueueSize).items.length + 0 + 0 = maxQueueSize + 0
    rw [semaphore_new, List.length_replicate]
  case calledBefore => exact fun _ => rfl

/-- A step of the serial queue alone. -/
lemma Inv.serial (h : Inv maxQueueSize s) {action : SerialQueue.Action Nat α ε}
    {queue : SerialQueue Nat α ε} {replies : List (Nat × Reply α ε)}
    (hs : s.queue.step action = some queue) (hputs : action.puts = [])
    (hsettles : action.settles = false) :
    Inv maxQueueSize { s with queue := queue, replies := replies } := by
  have hframe := SerialQueue.step_frame hs
  have haccepted : queue.accepted = s.queue.accepted := by
    rw [hframe.accepted, hputs, ite_self, List.append_nil]
  have hended (hfalse : queue.ended = false) : s.queue.ended = false := by
    rw [hframe.ended, Bool.or_eq_false_iff] at hfalse
    exact hfalse.1
  refine { h with
    queue := h.queue.step hs
    accepted_prefix := ?_
    accepted := fun hfalse => ?_
    released := ?_
    finishing := fun call outcome hfinishing => ?_
    calledBefore := fun hfalse => h.calledBefore (hended hfalse) }
  · rw [haccepted]
    exact h.accepted_prefix
  · exact haccepted.trans (h.accepted (hended hfalse))
  · refine hframe.settled.trans ?_
    rw [hsettles, if_neg Bool.false_ne_true, List.append_nil, h.released]
  · exact hframe.running hsettles call (h.finishing call outcome hfinishing)

/-- A call keeps it. -/
lemma Inv.call (h : Inv maxQueueSize s) {kind : Kind} (hs : step s (.call kind) = some s') :
    Inv maxQueueSize s' := by
  have horder := h.order
  have htokens := h.tokens
  have hcalled (hfalse : s.queue.ended = false) : (if s.queue.ended then s.calledBefore
      else s.calledBefore + 1) = (s.calls ++ [kind]).length := by
    rw [if_neg (Bool.eq_false_iff.mp hfalse), h.calledBefore hfalse, List.length_append]
    rfl
  rw [step, MemoryFifo.get] at hs
  cases hitems : s.semaphore.items with
  | cons token items =>
    rw [hitems] at hs htokens
    have hwaiting : s.semaphore.waiting = [] := by
      by_contra hne
      rw [h.waiting hne] at hitems
      cases hitems
    cases hs
    refine { h with
      order := ?_
      waiting := fun hne => absurd hwaiting hne
      tokens := ?_
      calledBefore := hcalled }
    · rw [State.onTheWay, hwaiting, List.append_nil] at horder
      show s.enqueued ++ ((s.microtasks ++ [_]).filterMap _ ++ (s.microtasks ++ [_]).filterMap _ ++
        s.semaphore.waiting) = List.range (s.calls ++ [kind]).length
      rw [hwaiting, List.filterMap_append, List.filterMap_append, List.length_append,
        List.length_singleton, List.range_succ, ← horder, List.append_nil]
      simp only [State.enqueueing, State.acquiring, List.filterMap_cons, List.filterMap_nil,
        List.append_nil, List.append_assoc]
    · show items.length + (s.microtasks ++ [_]).length + s.enqueued.length =
        maxQueueSize + s.released.length
      rw [List.length_append, List.length_singleton]
      rw [List.length_cons] at htokens
      omega
  | nil =>
    rw [hitems, if_neg (Bool.eq_false_iff.mp h.flushing)] at hs
    rw [hitems] at htokens
    cases hs
    refine { h with
      order := ?_
      waiting := fun _ => rfl
      tokens := htokens
      calledBefore := hcalled }
    show s.enqueued ++ (s.enqueueing ++ s.acquiring ++ (s.semaphore.waiting ++ [s.calls.length])) =
      List.range (s.calls ++ [kind]).length
    rw [List.length_append, List.length_singleton, List.range_succ, ← horder, State.onTheWay]
    simp only [List.append_assoc]

/-- A continuation of a call keeps it. -/
lemma Inv.microtask (h : Inv maxQueueSize s) (hs : step s .microtask = some s') :
    Inv maxQueueSize s' := by
  have horder := h.order
  have htokens := h.tokens
  rw [State.onTheWay, State.enqueueing, State.acquiring] at horder
  rw [step] at hs
  cases hmicrotasks : s.microtasks with
  | nil =>
    rw [hmicrotasks] at hs
    cases hs
  | cons microtask microtasks =>
    rw [hmicrotasks] at hs horder htokens
    cases microtask with
    | acquired call =>
      cases hs
      refine { h with order := ?_, tokens := ?_ }
      · show s.enqueued ++ ((microtasks ++ [_]).filterMap _ ++ (microtasks ++ [_]).filterMap _ ++
          s.semaphore.waiting) = _
        rw [← horder, List.filterMap_append, List.filterMap_append]
        simp only [List.filterMap_cons, List.filterMap_nil, List.append_nil, List.append_assoc,
          List.singleton_append]
      · show s.semaphore.items.length + (microtasks ++ [_]).length + s.enqueued.length = _
        rw [List.length_append]
        exact htokens
    | enqueue call =>
      obtain ⟨queue, hqueue, rfl⟩ := Option.map_eq_some_iff.mp hs
      have hframe := SerialQueue.step_frame hqueue
      have hended : queue.ended = s.queue.ended := hframe.ended.trans (Bool.or_false _)
      constructor
      case queue => exact h.queue.step hqueue
      case order =>
        show s.enqueued ++ [call] ++ (microtasks.filterMap _ ++ microtasks.filterMap _ ++
          s.semaphore.waiting) = _
        rw [← horder]
        simp only [List.filterMap_cons, List.append_assoc, List.cons_append, List.nil_append]
      case accepted_prefix =>
        show queue.accepted <+: s.enqueued ++ [call]
        cases hcase : s.queue.ended with
        | true =>
          rw [hframe.accepted, hcase, if_pos rfl, List.append_nil]
          exact h.accepted_prefix.trans (List.prefix_append _ _)
        | false =>
          rw [hframe.accepted, hcase, if_neg Bool.false_ne_true, h.accepted hcase]
          exact List.prefix_rfl
      case accepted =>
        intro hfalse
        have hcase := hended.symm.trans hfalse
        show queue.accepted = s.enqueued ++ [call]
        rw [hframe.accepted, hcase, if_neg Bool.false_ne_true, h.accepted hcase]
        rfl
      case released => exact (hframe.settled.trans (List.append_nil _)).trans h.released
      case settled => exact h.settled
      case finishing =>
        exact fun call' outcome hf => hframe.running rfl call' (h.finishing call' outcome hf)
      case flushing => exact h.flushing
      case waiting => exact h.waiting
      case tokens =>
        show s.semaphore.items.length + microtasks.length + (s.enqueued ++ [call]).length =
          maxQueueSize + s.released.length
        rw [List.length_append, List.length_singleton]
        rw [List.length_cons] at htokens
        omega
      case calledBefore => exact fun hfalse => h.calledBefore (hended.symm.trans hfalse)

/-- A function that settles keeps it. -/
lemma Inv.settle (h : Inv maxQueueSize s) {outcome : Except ε α}
    (hs : step s (.settle outcome) = some s') : Inv maxQueueSize s' := by
  rw [step] at hs
  split at hs
  case h_1 call hprocess hfinishing =>
    cases hs
    refine { h with settled := ?_, finishing := fun call' outcome' hf => ?_ }
    · have hsettled := h.settled
      rw [hfinishing] at hsettled
      show (s.settled ++ [(call, outcome)]).map Prod.fst = s.released ++ [call]
      rw [List.map_append, hsettled]
      exact congrArg (· ++ [call]) (List.append_nil _)
    · obtain ⟨rfl, -⟩ := Prod.mk.inj (Option.some.inj hf)
      exact hprocess
  case h_2 => cases hs

/-- The release of a token keeps it. -/
lemma Inv.finally_ (h : Inv maxQueueSize s) (hs : step s .finally_ = some s') :
    Inv maxQueueSize s' := by
  have horder := h.order
  have htokens := h.tokens
  have hsettled := h.settled
  rw [State.onTheWay, State.enqueueing, State.acquiring] at horder
  rw [step] at hs
  cases hfinishing : s.finishing with
  | none =>
    rw [hfinishing] at hs
    cases hs
  | some p =>
    obtain ⟨call, outcome⟩ := p
    rw [hfinishing] at hs hsettled
    obtain ⟨queue, hqueue, rfl⟩ := Option.map_eq_some_iff.mp hs
    have hframe := SerialQueue.step_frame hqueue
    have hended : queue.ended = s.queue.ended := hframe.ended.trans (Bool.or_false _)
    have haccepted : queue.accepted = s.queue.accepted := by
      rw [hframe.accepted]
      simp only [SerialQueue.Action.puts, ite_self, List.append_nil]
    have hreleased : queue.settled.map Prod.fst = s.released ++ [call] := by
      rw [hframe.settled, SerialQueue.Action.settles, if_pos rfl, h.released,
        h.finishing call outcome hfinishing]
      rfl
    rw [MemoryFifo.put, if_neg (Bool.eq_false_iff.mp h.flushing)]
    cases hwaiting : s.semaphore.waiting with
    | cons waiter waiting =>
      have hitems := h.waiting (by rw [hwaiting]; exact List.cons_ne_nil _ _)
      refine { h with
        queue := h.queue.step hqueue
        order := ?_
        accepted_prefix := haccepted ▸ h.accepted_prefix
        accepted := fun hfalse => haccepted.trans (h.accepted (hended.symm.trans hfalse))
        released := hreleased
        settled := hsettled.trans (List.append_nil _).symm
        finishing := fun _ _ heq => absurd heq.symm (Option.some_ne_none _)
        waiting := fun _ => hitems
        tokens := ?_
        calledBefore := fun hfalse => h.calledBefore (hended.symm.trans hfalse) }
      · show s.enqueued ++ ((s.microtasks ++ [_]).filterMap _ ++ (s.microtasks ++ [_]).filterMap _ ++
          waiting) = _
        rw [← horder, hwaiting, List.filterMap_append, List.filterMap_append]
        simp only [List.filterMap_cons, List.filterMap_nil, List.append_nil, List.append_assoc,
          List.singleton_append]
      · show s.semaphore.items.length + (s.microtasks ++ [_]).length + s.enqueued.length =
          maxQueueSize + (s.released ++ [call]).length
        rw [List.length_append, List.length_append, List.length_singleton, List.length_singleton]
        omega
    | nil =>
      refine { h with
        queue := h.queue.step hqueue
        order := ?_
        accepted_prefix := haccepted ▸ h.accepted_prefix
        accepted := fun hfalse => haccepted.trans (h.accepted (hended.symm.trans hfalse))
        released := hreleased
        settled := hsettled.trans (List.append_nil _).symm
        finishing := fun _ _ heq => absurd heq.symm (Option.some_ne_none _)
        waiting := fun hne => absurd rfl hne
        tokens := ?_
        calledBefore := fun hfalse => h.calledBefore (hended.symm.trans hfalse) }
      · rw [hwaiting] at horder
        exact horder
      · show (s.semaphore.items ++ [_]).length + s.microtasks.length + s.enqueued.length =
          maxQueueSize + (s.released ++ [call]).length
        rw [List.length_append, List.length_append, List.length_singleton, List.length_singleton]
        omega

/-- Every step keeps it. -/
lemma Inv.step (h : Inv maxQueueSize s) (hs : step s a = some s') : Inv maxQueueSize s' := by
  cases a with
  | start =>
    obtain ⟨queue, hqueue, rfl⟩ := Option.map_eq_some_iff.mp hs
    exact h.serial hqueue rfl rfl
  | call kind => exact h.call hs
  | end_ =>
    rw [BoundedSerialQueue.step] at hs
    obtain ⟨queue, hqueue, rfl⟩ := Option.map_eq_some_iff.mp hs
    exact h.serial hqueue rfl rfl
  | cancel =>
    rw [BoundedSerialQueue.step] at hs
    obtain ⟨queue, hqueue, rfl⟩ := Option.map_eq_some_iff.mp hs
    exact h.serial hqueue rfl rfl
  | microtask => exact h.microtask hs
  | settle outcome => exact h.settle hs
  | finally_ => exact h.finally_ hs
  | return_ =>
    rw [BoundedSerialQueue.step] at hs
    split at hs
    case h_1 =>
      obtain ⟨queue, hqueue, rfl⟩ := Option.map_eq_some_iff.mp hs
      exact h.serial hqueue rfl rfl
    case h_2 => cases hs
  | resume =>
    obtain ⟨queue, hqueue, rfl⟩ := Option.map_eq_some_iff.mp hs
    exact h.serial hqueue rfl rfl

/-! ## The calls before the end -/

/-- `end` is called when every call is on the serial queue. -/
def Steady (s : State α ε) : Action α ε → Prop
  | .end_ => s.queue.ended = true ∨ s.onTheWay = []
  | _ => True

instance (s : State α ε) : ∀ a, Decidable (Steady s a)
  | .end_ => inferInstanceAs (Decidable (s.queue.ended = true ∨ s.onTheWay = []))
  | .start => isTrue trivial
  | .call _ => isTrue trivial
  | .cancel => isTrue trivial
  | .microtask => isTrue trivial
  | .settle _ => isTrue trivial
  | .finally_ => isTrue trivial
  | .return_ => isTrue trivial
  | .resume => isTrue trivial

/-- After `end` the serial queue has taken all functions that were called before. -/
def Kept (s : State α ε) : Prop :=
  s.queue.ended = true → s.queue.cancelled = false → s.queue.accepted = List.range s.calledBefore

/-- What a step does to the serial queue, and when it is a call. -/
lemma step_queue (hs : step s a = some s') :
    (s'.queue = s.queue ∨ ∃ action, s.queue.step action = some s'.queue ∧
      (action.ends = true → a = .end_ ∧ action = .end_ ∨ action = .cancel)) ∧
    (s.queue.ended = true ∨ a = .end_ → s'.calledBefore = s.calledBefore) := by
  cases a with
  | start =>
    obtain ⟨queue, hqueue, rfl⟩ := Option.map_eq_some_iff.mp hs
    exact ⟨.inr ⟨_, hqueue, nofun⟩, fun _ => rfl⟩
  | call kind =>
    cases hs
    exact ⟨.inl rfl, fun h => if_pos (h.resolve_right nofun)⟩
  | end_ =>
    rw [step] at hs
    obtain ⟨queue, hqueue, rfl⟩ := Option.map_eq_some_iff.mp hs
    exact ⟨.inr ⟨_, hqueue, fun _ => .inl ⟨rfl, rfl⟩⟩, fun _ => rfl⟩
  | cancel =>
    rw [step] at hs
    obtain ⟨queue, hqueue, rfl⟩ := Option.map_eq_some_iff.mp hs
    exact ⟨.inr ⟨_, hqueue, fun _ => .inr rfl⟩, fun _ => rfl⟩
  | microtask =>
    rw [step] at hs
    split at hs
    case h_1 => cases hs
    case h_2 =>
      cases hs
      exact ⟨.inl rfl, fun _ => rfl⟩
    case h_3 =>
      obtain ⟨queue, hqueue, rfl⟩ := Option.map_eq_some_iff.mp hs
      exact ⟨.inr ⟨_, hqueue, nofun⟩, fun _ => rfl⟩
  | settle outcome =>
    rw [step] at hs
    split at hs
    case h_1 =>
      cases hs
      exact ⟨.inl rfl, fun _ => rfl⟩
    case h_2 => cases hs
  | finally_ =>
    rw [step] at hs
    split at hs
    case h_1 =>
      obtain ⟨queue, hqueue, rfl⟩ := Option.map_eq_some_iff.mp hs
      exact ⟨.inr ⟨_, hqueue, nofun⟩, fun _ => rfl⟩
    case h_2 => cases hs
  | return_ =>
    rw [step] at hs
    split at hs
    case h_1 =>
      obtain ⟨queue, hqueue, rfl⟩ := Option.map_eq_some_iff.mp hs
      exact ⟨.inr ⟨_, hqueue, nofun⟩, fun _ => rfl⟩
    case h_2 => cases hs
  | resume =>
    obtain ⟨queue, hqueue, rfl⟩ := Option.map_eq_some_iff.mp hs
    exact ⟨.inr ⟨_, hqueue, nofun⟩, fun _ => rfl⟩

/-- A step that does not end the queue over calls on their way loses none. -/
lemma Kept.step (h : Inv maxQueueSize s) (hkept : Kept s) (hs : step s a = some s')
    (hsteady : Steady s a) : Kept s' := by
  intro hended' hcancelled'
  obtain ⟨hstep, hcalled⟩ := step_queue hs
  cases hended : s.queue.ended with
  | true =>
    rw [hcalled (.inl hended)]
    rcases hstep with heq | ⟨action, hqueue, -⟩
    · rw [heq] at hcancelled' ⊢
      exact hkept hended hcancelled'
    · have hframe := SerialQueue.step_frame hqueue
      rw [hframe.cancelled, Bool.or_eq_false_iff] at hcancelled'
      rw [hframe.accepted, hended, if_pos rfl, List.append_nil]
      exact hkept hended hcancelled'.1
  | false =>
    rcases hstep with heq | ⟨action, hqueue, hends⟩
    · rw [heq, hended] at hended'
      cases hended'
    · have hframe := SerialQueue.step_frame hqueue
      rw [hframe.ended, hended, Bool.false_or] at hended'
      rcases hends hended' with ⟨rfl, rfl⟩ | rfl
      · -- every call is on the serial queue
        have hway : s.onTheWay = [] := hsteady.resolve_left (Bool.eq_false_iff.mp hended)
        have horder := h.order
        rw [hway, List.append_nil] at horder
        rw [hcalled (.inr rfl), h.calledBefore hended, ← horder, ← h.accepted hended,
          hframe.accepted]
        simp only [SerialQueue.Action.puts, ite_self, List.append_nil]
      · rw [hframe.cancelled, Bool.or_eq_false_iff] at hcancelled'
        cases hcancelled'.2

/-! ## Runs -/

/-- How many continuations a microtask leads to. -/
def Microtask.continuations : Microtask → Nat
  | .acquired _ => 4
  | .enqueue _ => 3

/-- How many continuations are left, at most. -/
def continuations (s : State α ε) : Nat :=
  (s.microtasks.map Microtask.continuations).sum + (if s.finishing.isSome then 10 else 0) +
    s.queue.continuations

/-- A continuation leaves fewer of them. -/
lemma continuations_lt (ha : a.IsContinuation) (hs : step s a = some s') :
    continuations s' < continuations s := by
  cases a with
  | microtask =>
    rw [step] at hs
    split at hs
    case h_1 => cases hs
    case h_2 call microtasks hmicrotasks =>
      cases hs
      simp only [continuations, hmicrotasks, List.map_append, List.sum_append, List.map_cons,
        List.sum_cons, List.map_nil, List.sum_nil, Microtask.continuations]
      omega
    case h_3 call microtasks hmicrotasks =>
      obtain ⟨queue, hqueue, rfl⟩ := Option.map_eq_some_iff.mp hs
      have hle := SerialQueue.continuations_put hqueue
      simp only [continuations, hmicrotasks, List.map_cons, List.sum_cons, Microtask.continuations]
      omega
  | finally_ =>
    rw [step] at hs
    split at hs
    case h_1 call outcome hfinishing =>
      obtain ⟨queue, hqueue, rfl⟩ := Option.map_eq_some_iff.mp hs
      have hle := @SerialQueue.continuations_le _ _ _ queue
      have hmicrotasks : ((match (s.semaphore.put ()).2 with
          | some waiter => s.microtasks ++ [Microtask.acquired waiter]
          | none => s.microtasks).map Microtask.continuations).sum ≤
          (s.microtasks.map Microtask.continuations).sum + 4 := by
        split
        · rw [List.map_append, List.sum_append]
          exact Nat.le_refl _
        · exact Nat.le_add_right _ _
      simp only [continuations, hfinishing, Option.isSome_none, Option.isSome_some, if_pos,
        Bool.false_eq_true, if_false]
      omega
    case h_2 => cases hs
  | return_ =>
    rw [step] at hs
    split at hs
    case h_1 =>
      obtain ⟨queue, hqueue, rfl⟩ := Option.map_eq_some_iff.mp hs
      exact Nat.add_lt_add_left (SerialQueue.continuations_lt (a := .return_) trivial hqueue) _
    case h_2 => cases hs
  | resume =>
    obtain ⟨queue, hqueue, rfl⟩ := Option.map_eq_some_iff.mp hs
    exact Nat.add_lt_add_left (SerialQueue.continuations_lt (a := .resume) trivial hqueue) _
  | start => cases ha
  | call kind => cases ha
  | end_ => cases ha
  | cancel => cases ha
  | settle outcome => cases ha

/-- The functions whose slots are released are the first on the serial queue. -/
lemma Inv.released_prefix (h : Inv maxQueueSize s) : s.released <+: s.enqueued := by
  refine List.IsPrefix.trans ?_ h.accepted_prefix
  refine List.IsPrefix.trans ?_ h.queue.sound.inOrder
  rw [SerialQueue.given, h.queue.begun_eq, h.released, List.append_assoc]
  exact List.prefix_append _ _

/-- Functions are given in the order of their calls. -/
lemma Inv.inOrder (h : Inv maxQueueSize s) :
    s.queue.given ++ s.queue.queue.items <+: List.range s.calls.length := by
  obtain ⟨discarded, haccepted, -⟩ := h.queue.accepted
  have hprefix : s.queue.given ++ s.queue.queue.items <+: s.queue.accepted := ⟨discarded, haccepted⟩
  exact hprefix.trans (h.accepted_prefix.trans ⟨s.onTheWay, h.order⟩)

/-- A call that was made before the queue ended is given, waits, or is on its way. -/
lemma Inv.kept (h : Inv maxQueueSize s) (hkept : Kept s) (hcancelled : s.queue.cancelled = false)
    {call : Nat} (hcall : call < s.calledBefore) :
    call ∈ s.queue.given ++ s.queue.queue.items ++ s.onTheWay := by
  rw [h.queue.sound.kept hcancelled]
  cases hended : s.queue.ended with
  | true =>
    rw [hkept hended hcancelled]
    exact List.mem_append_left _ (List.mem_range.mpr hcall)
  | false =>
    rw [h.accepted hended, h.order]
    exact List.mem_range.mpr (hcall.trans_eq (h.calledBefore hended))

/-- At most one function runs at a time. -/
lemma Inv.alone (h : Inv maxQueueSize s) :
    s.queue.begun = s.settled.map Prod.fst ++ s.running ∧ s.running.length ≤ 1 := by
  have hbegun := h.queue.begun_eq
  have hsettled := h.settled
  rw [h.released] at hbegun
  cases hfinishing : s.finishing with
  | none =>
    rw [hfinishing] at hsettled
    rw [State.running, if_pos hfinishing, hbegun, hsettled]
    refine ⟨?_, SerialQueue.Process.length_running_le _⟩
    exact congrArg (· ++ _) (List.append_nil _).symm
  | some p =>
    obtain ⟨call, outcome⟩ := p
    rw [hfinishing] at hsettled
    rw [State.running, if_neg (by rw [hfinishing]; nofun), hbegun, hsettled,
      h.finishing call outcome hfinishing, List.append_nil]
    exact ⟨rfl, Nat.zero_le 1⟩

/-- Every continuation is that of one call. -/
lemma State.length_microtasks (s : State α ε) :
    s.enqueueing.length + s.acquiring.length = s.microtasks.length := by
  rw [State.enqueueing, State.acquiring]
  induction s.microtasks with
  | nil => rfl
  | cons microtask microtasks ih =>
    cases microtask with
    | acquired call =>
      simp only [List.filterMap_cons, List.length_cons]
      omega
    | enqueue call =>
      simp only [List.filterMap_cons, List.length_cons]
      omega

/-- At most `maxQueueSize` calls hold a token. -/
lemma Inv.outstanding_le (h : Inv maxQueueSize s) : s.outstanding.length ≤ maxQueueSize := by
  obtain ⟨rest, hrest⟩ := h.released_prefix
  have horder := h.order
  have hnodup := @List.nodup_range s.calls.length
  rw [← hrest, State.onTheWay, List.append_assoc, ← List.append_assoc rest] at horder
  rw [← horder] at hnodup
  have hout : s.outstanding = rest ++ (s.enqueueing ++ s.acquiring) := by
    rw [State.outstanding, ← horder, List.filter_append, List.filter_append]
    obtain ⟨-, hmiddle, hreleased⟩ := List.nodup_append.mp hnodup
    obtain ⟨-, -, hwaiting⟩ := List.nodup_append.mp hmiddle
    have hnone : s.released.filter (fun call => call ∉ s.semaphore.waiting ∧ call ∉ s.released) =
        [] := by
      refine List.filter_eq_nil_iff.mpr fun call hmem hdec => ?_
      exact (of_decide_eq_true hdec).2 hmem
    have hnone' : s.semaphore.waiting.filter
        (fun call => call ∉ s.semaphore.waiting ∧ call ∉ s.released) = [] := by
      refine List.filter_eq_nil_iff.mpr fun call hmem hdec => ?_
      exact (of_decide_eq_true hdec).1 hmem
    have hall : (rest ++ (s.enqueueing ++ s.acquiring)).filter
        (fun call => call ∉ s.semaphore.waiting ∧ call ∉ s.released) =
          rest ++ (s.enqueueing ++ s.acquiring) := by
      refine List.filter_eq_self.mpr fun call hmem => decide_eq_true ⟨fun hw => ?_, fun hr => ?_⟩
      · exact hwaiting call hmem call hw rfl
      · exact hreleased call hr call (List.mem_append_left _ hmem) rfl
    rw [hnone, hnone', hall, List.append_nil, List.nil_append]
  have htokens := h.tokens
  rw [← hrest, List.length_append] at htokens
  have hmicrotasks := s.length_microtasks
  rw [hout, List.length_append, List.length_append]
  omega

/-- A quiet queue has no continuation left. -/
lemma Inv.quiet_cases (h : Inv maxQueueSize s) (hquiet : s.Quiet) :
    s.microtasks = [] ∧ s.finishing = none ∧ s.queue.Quiet := by
  have hmicrotask := hquiet .microtask trivial
  have hfinally := hquiet .finally_ trivial
  have hreturn := hquiet .return_ trivial
  have hresume := hquiet .resume trivial
  rw [BoundedSerialQueue.step] at hmicrotask
  rw [BoundedSerialQueue.step] at hfinally
  rw [BoundedSerialQueue.step] at hreturn
  rw [BoundedSerialQueue.step] at hresume
  refine ⟨?_, ?_, fun a ha => ?_⟩
  · split at hmicrotask
    case h_1 hnil => exact hnil
    case h_2 => cases hmicrotask
    case h_3 => cases Option.map_eq_none_iff.mp hmicrotask
  · split at hfinally
    case h_1 call outcome hfinishing =>
      have hnone := Option.map_eq_none_iff.mp hfinally
      rw [SerialQueue.step, h.finishing call outcome hfinishing] at hnone
      cases hnone
    case h_2 hnone => exact hnone
  · cases a with
    | return_ =>
      split at hreturn
      case h_1 => exact Option.map_eq_none_iff.mp hreturn
      case h_2 hne =>
        rw [SerialQueue.step]
        split
        case h_1 call outcome hprocess => exact absurd hprocess (hne call outcome)
        case h_2 => rfl
    | resume => exact Option.map_eq_none_iff.mp hresume
    | start => cases ha
    | put fn => cases ha
    | end_ => cases ha
    | cancel => cases ha
    | settle outcome => cases ha

/-- A quiet queue has not started, waits for a function, or has run all of them. -/
lemma Inv.quiet (h : Inv maxQueueSize s) (hquiet : s.Quiet) :
    s.queue.process = .idle ∨ s.running ≠ [] ∨
      s.queue.queue.items = [] ∧ s.queue.given = s.released ∧ s.settled.map Prod.fst = s.released ∧
        (s.queue.ended = false → 0 < maxQueueSize → s.onTheWay = []) := by
  obtain ⟨hmicrotasks, hfinishing, hqueue⟩ := h.quiet_cases hquiet
  have hsettled := h.settled
  rw [hfinishing] at hsettled
  rw [State.running, if_pos hfinishing]
  refine (h.queue.quiet hqueue).imp_right (Or.imp_right fun ⟨hitems, hnext, hrunning⟩ => ?_)
  have hgiven : s.queue.given = s.released := by
    rw [SerialQueue.given, hnext, h.queue.begun_eq, hrunning, h.released, List.append_nil,
      List.append_nil]
  refine ⟨hitems, hgiven, hsettled.trans (List.append_nil _), fun hended hpos => ?_⟩
  -- all tokens are back
  have hcancelled : s.queue.cancelled = false :=
    Bool.eq_false_iff.mpr fun hc => Bool.eq_false_iff.mp hended (h.queue.cancelled hc)
  have henqueued : s.enqueued = s.released := by
    rw [← h.accepted hended, ← h.queue.sound.kept hcancelled, hgiven, hitems, List.append_nil]
  have htokens := h.tokens
  rw [hmicrotasks, henqueued, List.length_nil] at htokens
  have hwaiting : s.semaphore.waiting = [] := by
    by_contra hne
    rw [h.waiting hne, List.length_nil] at htokens
    omega
  rw [State.onTheWay, State.enqueueing, State.acquiring, hmicrotasks, hwaiting]
  rfl

/-- Under the invariant a queue that loses no call is sound. -/
lemma Inv.sound (h : Inv maxQueueSize s) (hkept : Kept s) : s.Sound maxQueueSize where
  inOrder := h.inOrder
  kept hcancelled _ hcall := h.kept hkept hcancelled hcall
  alone := h.alone
  released := by
    refine ⟨?_, h.settled⟩
    have hsub := (h.released_prefix.trans ⟨s.onTheWay, h.order⟩).sublist
    exact List.nodup_range.sublist hsub
  bounded := h.outstanding_le
  quiet := h.quiet
  goesOn := Transition.exists_run_to_rest continuations (fun _ _ _ => continuations_lt) s

/-- So it is after every run of steady steps. -/
lemma sound_of_run {actions : List (Action α ε)}
    (h : Run (Guarded (Steps BoundedSerialQueue.step) Steady) (State.init maxQueueSize) actions s) :
    s.Sound maxQueueSize := by
  have hinv : Inv maxQueueSize s ∧ Kept s := by
    refine h.invariant (I := fun s => Inv maxQueueSize s ∧ Kept s) ⟨inv_init, nofun⟩ ?_
    rintro s a s' ⟨hs, hkept⟩ ⟨hstep, hsteady⟩
    exact ⟨hs.step hstep, hkept.step hs hstep hsteady⟩
  exact hinv.1.sound hinv.2

end BoundedSerialQueue

/-- Any interleaving on the three queues, with `end` of the bounded one when every call is on the serial
queue. -/
theorem fifos_sound {T F α ε : Type} {maxQueueSize : Nat} {ms : List (MemoryFifo.Action T)}
    {m : MemoryFifo.State T} {ss : List (SerialQueue.Action F α ε)} {s : SerialQueue F α ε}
    {bs : List (BoundedSerialQueue.Action α ε)} {b : BoundedSerialQueue.State α ε}
    (hm : Run (Steps MemoryFifo.step) .init ms m) (hs : Run (Steps SerialQueue.step) .new ss s)
    (hb : Run (Guarded (Steps BoundedSerialQueue.step) BoundedSerialQueue.Steady)
      (.init maxQueueSize) bs b) :
    m.Sound ∧ s.Sound ∧ b.Sound maxQueueSize :=
  ⟨MemoryFifo.sound_of_run hm, SerialQueue.sound_of_run hs, BoundedSerialQueue.sound_of_run hb⟩

namespace BoundedSerialQueue.Sample

/-- Of two consumers the first gives up. -/
def consumers : List (MemoryFifo.Action Nat) := [.get true, .get false, .expire 0, .put 7, .put 8, .end_]

/-- The first of two functions rejects. -/
def rejects : List (SerialQueue.Action Nat Unit Unit) :=
  [.start, .put 0, .put 1, .resume, .settle (.error ()), .return_, .resume, .resume]

/-- Three calls of a queue of size one, which ends when they are on the serial queue. -/
def calls : List (Action Unit Unit) :=
  [.start, .call .put, .call .exec, .microtask, .microtask, .resume, .settle (.error ()), .finally_,
    .microtask, .microtask, .end_, .call .put, .return_, .resume, .resume]

/-- A call that is not on the serial queue when this ends. -/
def lost : List (Action Unit Unit) := [.start, .call .put, .end_, .microtask, .microtask]

end BoundedSerialQueue.Sample

/-- A run of each of the three queues. -/
theorem fifos_sound_sample : ∃ (m : MemoryFifo.State Nat) (s : SerialQueue Nat Unit Unit)
    (b : BoundedSerialQueue.State Unit Unit), m.given = [(1, 7)] ∧ s.begun = [0, 1] ∧
      b.queue.begun = [0, 1] ∧ m.Sound ∧ s.Sound ∧ b.Sound 1 := by
  have hm : ((exec MemoryFifo.step .init BoundedSerialQueue.Sample.consumers).map fun m =>
      decide (m.given = [(1, 7)])) = some true := by decide
  have hs : ((exec SerialQueue.step .new BoundedSerialQueue.Sample.rejects).map fun s =>
      decide (s.begun = [0, 1])) = some true := by decide
  have hb : ((exec (Transition.guard BoundedSerialQueue.step BoundedSerialQueue.Steady) (.init 1)
      BoundedSerialQueue.Sample.calls).map fun b => decide (b.queue.begun = [0, 1])) = some true := by
    decide
  obtain ⟨m, hm, hgiven⟩ := Option.map_eq_some_iff.mp hm
  obtain ⟨s, hs, hbegun⟩ := Option.map_eq_some_iff.mp hs
  obtain ⟨b, hb, hcalls⟩ := Option.map_eq_some_iff.mp hb
  exact ⟨m, s, b, of_decide_eq_true hgiven, of_decide_eq_true hbegun, of_decide_eq_true hcalls,
    fifos_sound (Transition.exec_run hm) (Transition.exec_run hs) (Transition.exec_guard_run hb)⟩

/-- The caller has been told that the function is on the queue. -/
theorem end_loses : ∃ s : BoundedSerialQueue.State Unit Unit,
    Run (Steps BoundedSerialQueue.step) (.init 1) BoundedSerialQueue.Sample.lost s ∧
      s.replies.map Prod.fst = [0] ∧ ¬ s.Sound 1 := by
  have h : ((exec BoundedSerialQueue.step (.init 1) BoundedSerialQueue.Sample.lost).map fun s =>
      decide (s.replies.map Prod.fst = [0] ∧ s.queue.cancelled = false ∧ 0 < s.calledBefore ∧
        0 ∉ s.queue.given ++ s.queue.queue.items ++ s.onTheWay)) = some true := by decide
  obtain ⟨s, hs, hdec⟩ := Option.map_eq_some_iff.mp h
  obtain ⟨hreplies, hcancelled, hcalled, hlost⟩ := of_decide_eq_true hdec
  exact ⟨s, Transition.exec_run hs, hreplies, fun hsound => hlost (hsound.kept hcancelled 0 hcalled)⟩

end AztecConnect.Client
