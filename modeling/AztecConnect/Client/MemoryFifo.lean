import AztecConnect.Lib.Transition
import Mathlib.Data.List.Nodup

/-!
# A queue in memory

Translation of `barretenberg.js/src/fifo/memory_fifo.ts`. The methods are synchronous; a promise is
settled once, and what is done to it later has no effect. Whatever the order of the calls and of the
timers, the items that are put before `end` or `cancel` are given out in the order in which they were
put, each to one consumer (`sound_of_run`).
-/

namespace AztecConnect.Client

open Transition (Run Steps)

/-- `waiting` holds the functions `resolve` of the promises of `get`. -/
structure MemoryFifo (R T : Type) where
  waiting : List R
  items : List T
  flushing : Bool

namespace MemoryFifo

variable {R T : Type}

/-- A new queue. -/
def new : MemoryFifo R T := ⟨[], [], false⟩

/-- `length`. -/
def length (q : MemoryFifo R T) : Nat := q.items.length

/-- `get`, with the value to which its promise is resolved at once, if it is. -/
def get (q : MemoryFifo R T) (resolve : R) : MemoryFifo R T × Option (Option T) :=
  match q.items with
  | item :: items => ({ q with items := items }, some (some item))
  | [] => if q.flushing then (q, some none) else ({ q with waiting := q.waiting ++ [resolve] }, none)

/-- The timer of a `get`, and whether it rejects the promise. -/
def expire [DecidableEq R] (q : MemoryFifo R T) (resolve : R) : MemoryFifo R T × Bool :=
  if resolve ∈ q.waiting then ({ q with waiting := q.waiting.erase resolve }, true) else (q, false)

/-- `put`, with the function that is called with the item. -/
def put (q : MemoryFifo R T) (item : T) : MemoryFifo R T × Option R :=
  if q.flushing then (q, none)
  else
    match q.waiting with
    | resolve :: waiting => ({ q with waiting := waiting }, some resolve)
    | [] => ({ q with items := q.items ++ [item] }, none)

/-- `end`, with the functions that are called with `null`. -/
def end_ (q : MemoryFifo R T) : MemoryFifo R T × List R := ({ q with flushing := true }, q.waiting)

/-- `cancel`, with the functions that are called with `null`. -/
def cancel (q : MemoryFifo R T) : MemoryFifo R T × List R :=
  ({ q with items := [], flushing := true }, q.waiting)

/-! ## Consumers and producers -/

/-- What becomes of a promise of `get`. -/
inductive Outcome (T : Type) where
  | item (item : T)
  | null
  | timeout
  deriving DecidableEq

/-- A queue in use. The promises of `get` are numbered, and `settled` holds those that are settled, in
this order. The last three fields only record history: the items that are put before `end` or
`cancel`, and whether these have been called. -/
structure State (T : Type) where
  queue : MemoryFifo Nat T
  gets : Nat
  timers : List Nat
  settled : List (Nat × Outcome T)
  accepted : List T
  ended : Bool
  cancelled : Bool

/-- A new queue, of which nothing was asked. -/
def State.init : State T := ⟨new, 0, [], [], [], false, false⟩

/-- What happens to the queue. -/
inductive Action (T : Type) where
  | get (timeout : Bool)
  | put (item : T)
  /-- The timer of a `get` fires. -/
  | expire (promise : Nat)
  | end_
  | cancel

/-- A promise is resolved or rejected, unless it is settled. -/
def State.settle (s : State T) (promise : Nat) (outcome : Outcome T) : State T :=
  if promise ∈ s.settled.map Prod.fst then s
  else { s with settled := s.settled ++ [(promise, outcome)] }

/-- Several promises are settled with nothing. -/
def State.settleAll (s : State T) (promises : List Nat) : State T :=
  promises.foldl (fun s promise => s.settle promise .null) s

/-- One step; `none` if it cannot happen. -/
def step (s : State T) : Action T → Option (State T)
  | .get timeout =>
    let (queue, result) := s.queue.get s.gets
    let s' := { s with queue := queue, gets := s.gets + 1 }
    match result with
    | some (some item) => some (s'.settle s.gets (.item item))
    | some none => some (s'.settle s.gets .null)
    | none => some (if timeout then { s' with timers := s.timers ++ [s.gets] } else s')
  | .put item =>
    let (queue, resolve) := s.queue.put item
    let s' := { s with
      queue := queue
      accepted := if s.ended then s.accepted else s.accepted ++ [item] }
    match resolve with
    | some promise => some (s'.settle promise (.item item))
    | none => some s'
  | .expire promise =>
    if promise ∈ s.timers then
      let (queue, rejects) := s.queue.expire promise
      let s' := { s with queue := queue, timers := s.timers.erase promise }
      some (if rejects then s'.settle promise .timeout else s')
    else none
  | .end_ =>
    let (queue, promises) := s.queue.end_
    some ({ s with queue := queue, ended := true }.settleAll promises)
  | .cancel =>
    let (queue, promises) := s.queue.cancel
    some ({ s with queue := queue, ended := true, cancelled := true }.settleAll promises)

/-- Who was given which item. -/
def State.given (s : State T) : List (Nat × T) :=
  s.settled.filterMap fun
    | (promise, .item item) => some (promise, item)
    | _ => none

/-- The items are given out in order, each to one consumer who has not given up, and none is lost. -/
structure State.Sound (s : State T) : Prop where
  inOrder : s.given.map Prod.snd <+: s.accepted
  kept : s.cancelled = false → s.given.map Prod.snd ++ s.queue.items = s.accepted
  once : (s.given.map Prod.fst).Nodup
  timedOut : ∀ promise, (promise, Outcome.timeout) ∈ s.settled →
    promise ∉ s.given.map Prod.fst ∧ promise ∉ s.queue.waiting

/-! ## Settling promises -/

variable {s s' : State T} {promise : Nat} {outcome : Outcome T}

/-- A promise that is not settled yet is settled. -/
lemma State.settle_eq (h : promise ∉ s.settled.map Prod.fst) :
    s.settle promise outcome = { s with settled := s.settled ++ [(promise, outcome)] } := if_neg h

/-- An item that settles it is given. -/
lemma State.given_item (item : T) (h : promise ∉ s.settled.map Prod.fst) :
    (s.settle promise (.item item)).given = s.given ++ [(promise, item)] := by
  rw [State.settle_eq h, State.given, List.filterMap_append]
  rfl

/-- Everyone who waits has a promise of an earlier call that is not settled, unless the queue has
ended; a promise that timed out does not wait. -/
structure Inv (s : State T) : Prop where
  flushing : s.queue.flushing = s.ended
  cancelled : s.cancelled = true → s.ended = true
  waiting_nodup : s.queue.waiting.Nodup
  waiting_lt : ∀ promise ∈ s.queue.waiting, promise < s.gets
  pending : s.ended = false → ∀ promise ∈ s.queue.waiting, promise ∉ s.settled.map Prod.fst
  items : s.queue.waiting ≠ [] → s.queue.items = []
  settled_nodup : (s.settled.map Prod.fst).Nodup
  settled_lt : ∀ promise ∈ s.settled.map Prod.fst, promise < s.gets
  timedOut : ∀ promise, (promise, Outcome.timeout) ∈ s.settled → promise ∉ s.queue.waiting
  accepted : ∃ discarded, s.given.map Prod.snd ++ s.queue.items ++ discarded = s.accepted ∧
    (s.cancelled = false → discarded = [])

/-- The invariant holds of a new queue. -/
lemma Inv.init : Inv (State.init : State T) where
  flushing := rfl
  cancelled h := h
  waiting_nodup := List.nodup_nil
  waiting_lt := nofun
  pending _ := nofun
  items h := absurd rfl h
  settled_nodup := List.nodup_nil
  settled_lt := nofun
  timedOut _ := nofun
  accepted := ⟨[], rfl, fun _ => rfl⟩

/-- The promise is settled, and those that were. -/
lemma State.mem_keys {q : Nat} : q ∈ (s.settled ++ [(promise, outcome)]).map Prod.fst ↔
    q ∈ s.settled.map Prod.fst ∨ q = promise := by
  rw [List.map_append, List.mem_append, List.map_singleton, List.mem_singleton]

/-- No promise is settled twice. -/
lemma State.keys_nodup (hnew : promise ∉ s.settled.map Prod.fst)
    (h : (s.settled.map Prod.fst).Nodup) :
    ((s.settled ++ [(promise, outcome)]).map Prod.fst).Nodup := by
  rw [List.map_append, List.map_singleton, ← List.concat_eq_append]
  exact h.concat hnew

/-- Settled without an item. -/
lemma Inv.settle (h : Inv s) (hlt : promise < s.gets)
    (houtcome : (outcome = .timeout ∧ promise ∉ s.queue.waiting) ∨
      (outcome = .null ∧ s.ended = true)) : Inv (s.settle promise outcome) := by
  by_cases hmem : promise ∈ s.settled.map Prod.fst
  · rwa [State.settle, if_pos hmem]
  rw [State.settle_eq hmem]
  constructor
  case flushing => exact h.flushing
  case cancelled => exact h.cancelled
  case waiting_nodup => exact h.waiting_nodup
  case waiting_lt => exact h.waiting_lt
  case pending =>
    intro hended q hq hsettled
    rcases State.mem_keys.mp hsettled with hsettled | rfl
    · exact h.pending hended q hq hsettled
    · rcases houtcome with ⟨-, hw⟩ | ⟨-, hended'⟩
      · exact hw hq
      · exact absurd (hended.symm.trans hended') Bool.false_ne_true
  case items => exact h.items
  case settled_nodup => exact State.keys_nodup hmem h.settled_nodup
  case settled_lt =>
    intro q hq
    rcases State.mem_keys.mp hq with hq | rfl
    · exact h.settled_lt q hq
    · exact hlt
  case timedOut =>
    intro q hq
    rcases List.mem_append.mp hq with hq | hq
    · exact h.timedOut q hq
    · obtain ⟨rfl, rfl⟩ := Prod.mk.inj (List.mem_singleton.mp hq)
      rcases houtcome with ⟨-, hw⟩ | ⟨hnull, -⟩
      · exact hw
      · cases hnull
  case accepted =>
    have hgiven : ({ s with settled := s.settled ++ [(promise, outcome)] } : State T).given =
        s.given := by
      rw [State.given, List.filterMap_append]
      rcases houtcome with ⟨rfl, -⟩ | ⟨rfl, -⟩
      · exact List.append_nil _
      · exact List.append_nil _
    rw [hgiven]
    exact h.accepted

/-- Settling asks for nothing. -/
lemma State.settle_gets : (s.settle promise outcome).gets = s.gets := by
  unfold State.settle
  split
  · rfl
  · rfl

/-- Nor does it end the queue. -/
lemma State.settle_ended : (s.settle promise outcome).ended = s.ended := by
  unfold State.settle
  split
  · rfl
  · rfl

/-- Settling all waiting promises keeps the invariant, once the queue has ended. -/
lemma Inv.settleAll {promises : List Nat} (h : Inv s) (hended : s.ended = true)
    (hlt : ∀ promise ∈ promises, promise < s.gets) : Inv (s.settleAll promises) := by
  induction promises generalizing s with
  | nil => exact h
  | cons promise promises ih =>
    refine ih (h.settle (hlt _ (List.mem_cons_self ..)) (.inr ⟨rfl, hended⟩))
      (State.settle_ended.trans hended) fun q hq => ?_
    rw [State.settle_gets]
    exact hlt q (List.mem_cons_of_mem _ hq)

/-- An item is given to a promise that is not settled and does not wait any more. -/
lemma Inv.give {item : T} {queue : MemoryFifo Nat T} {accepted : List T} {gets : Nat} (h : Inv s)
    (hflushing : queue.flushing = s.ended) (hgets : s.gets ≤ gets)
    (hsub : queue.waiting.Sublist s.queue.waiting) (hitems : queue.waiting ≠ [] → queue.items = [])
    (hlt : promise < gets) (hnew : promise ∉ s.settled.map Prod.fst)
    (hwaiting : promise ∉ queue.waiting)
    (haccepted : ∃ discarded, s.given.map Prod.snd ++ item :: queue.items ++ discarded = accepted ∧
      (s.cancelled = false → discarded = [])) :
    Inv ({ s with queue := queue, gets := gets, accepted := accepted }.settle promise
      (.item item)) := by
  have hgiven := State.given_item
    (s := { s with queue := queue, gets := gets, accepted := accepted }) item hnew
  rw [State.settle_eq (s := { s with queue := queue, gets := gets, accepted := accepted }) hnew]
    at hgiven ⊢
  constructor
  case flushing => exact hflushing
  case cancelled => exact h.cancelled
  case waiting_nodup => exact h.waiting_nodup.sublist hsub
  case waiting_lt => exact fun q hq => Nat.lt_of_lt_of_le (h.waiting_lt q (hsub.subset hq)) hgets
  case pending =>
    intro hended q hq hsettled
    rcases State.mem_keys.mp hsettled with hsettled | rfl
    · exact h.pending hended q (hsub.subset hq) hsettled
    · exact hwaiting hq
  case items => exact hitems
  case settled_nodup => exact State.keys_nodup hnew h.settled_nodup
  case settled_lt =>
    intro q hq
    rcases State.mem_keys.mp hq with hq | rfl
    · exact Nat.lt_of_lt_of_le (h.settled_lt q hq) hgets
    · exact hlt
  case timedOut =>
    intro q hq hw
    rcases List.mem_append.mp hq with hq | hq
    · exact h.timedOut q hq (hsub.subset hw)
    · cases List.mem_singleton.mp hq
  case accepted =>
    rw [hgiven, List.map_append]
    obtain ⟨discarded, heq, hnil⟩ := haccepted
    refine ⟨discarded, ?_, hnil⟩
    show s.given.map Prod.snd ++ [item] ++ queue.items ++ discarded = accepted
    rw [← heq, List.append_assoc (s.given.map Prod.snd), List.singleton_append]

/-! ## Steps -/

variable {action : Action T}

/-- A `get` keeps it. -/
lemma Inv.get (h : Inv s) {timeout : Bool} (hs : step s (.get timeout) = some s') : Inv s' := by
  have hfresh : s.gets ∉ s.settled.map Prod.fst := fun hmem => Nat.lt_irrefl _ (h.settled_lt _ hmem)
  have hnotWaiting : s.gets ∉ s.queue.waiting := fun hmem => Nat.lt_irrefl _ (h.waiting_lt _ hmem)
  obtain ⟨discarded, haccepted, hnil⟩ := h.accepted
  rw [step, MemoryFifo.get] at hs
  cases hitems : s.queue.items with
  | cons item items =>
    rw [hitems] at hs
    cases hs
    refine h.give h.flushing s.gets.le_succ (List.Sublist.refl _) (fun hne => ?_)
      s.gets.lt_succ_self hfresh hnotWaiting ⟨discarded, ?_, hnil⟩
    · rw [h.items hne] at hitems
      cases hitems
    · rw [← haccepted, hitems]
  | nil =>
    rw [hitems] at hs
    by_cases hflushing : s.queue.flushing = true
    · rw [if_pos hflushing] at hs
      cases hs
      have hended := h.flushing.symm.trans hflushing
      refine Inv.settle (s := { s with gets := s.gets + 1 }) ?_ s.gets.lt_succ_self
        (.inr ⟨rfl, hended⟩)
      exact { h with
        waiting_lt := fun q hq => Nat.lt_succ_of_lt (h.waiting_lt q hq)
        settled_lt := fun q hq => Nat.lt_succ_of_lt (h.settled_lt q hq) }
    · rw [if_neg hflushing] at hs
      have hwaits (timers : List Nat) : Inv { s with
          queue := ⟨s.queue.waiting ++ [s.gets], [], s.queue.flushing⟩
          gets := s.gets + 1
          timers := timers } := by
        rw [hitems] at haccepted
        have hmem {q : Nat} : q ∈ s.queue.waiting ++ [s.gets] ↔ q ∈ s.queue.waiting ∨ q = s.gets := by
          rw [List.mem_append, List.mem_singleton]
        constructor
        case flushing => exact h.flushing
        case cancelled => exact h.cancelled
        case waiting_nodup =>
          rw [← List.concat_eq_append]
          exact h.waiting_nodup.concat hnotWaiting
        case waiting_lt =>
          intro q hq
          rcases hmem.mp hq with hq | rfl
          · exact Nat.lt_succ_of_lt (h.waiting_lt q hq)
          · exact Nat.lt_succ_self _
        case pending =>
          intro hended q hq
          rcases hmem.mp hq with hq | rfl
          · exact h.pending hended q hq
          · exact hfresh
        case items => exact fun _ => rfl
        case settled_nodup => exact h.settled_nodup
        case settled_lt => exact fun q hq => Nat.lt_succ_of_lt (h.settled_lt q hq)
        case timedOut =>
          intro q hq hw
          rcases hmem.mp hw with hw | rfl
          · exact h.timedOut q hq hw
          · exact hfresh (List.mem_map_of_mem hq)
        case accepted => exact ⟨discarded, haccepted, hnil⟩
      cases hs
      split
      · exact hwaits _
      · exact hwaits _

/-- A `put` keeps it. -/
lemma Inv.put (h : Inv s) {item : T} (hs : step s (.put item) = some s') : Inv s' := by
  obtain ⟨discarded, haccepted, hnil⟩ := h.accepted
  rw [step, MemoryFifo.put] at hs
  by_cases hflushing : s.queue.flushing = true
  · -- the item is discarded
    rw [if_pos hflushing, if_pos (h.flushing.symm.trans hflushing)] at hs
    cases hs
    exact h
  · have hended : s.ended = false := h.flushing.symm.trans (Bool.eq_false_iff.mpr hflushing)
    have hcancelled : s.cancelled = false :=
      Bool.eq_false_iff.mpr fun hc => Bool.eq_false_iff.mp hended (h.cancelled hc)
    rw [if_neg hflushing, if_neg (Bool.eq_false_iff.mp hended)] at hs
    rw [hnil hcancelled, List.append_nil] at haccepted
    cases hwaiting : s.queue.waiting with
    | cons promise waiting =>
      rw [hwaiting] at hs
      cases hs
      have hitems := h.items (by rw [hwaiting]; exact List.cons_ne_nil _ _)
      have hmem : promise ∈ s.queue.waiting := hwaiting ▸ List.mem_cons_self ..
      have hnodup := h.waiting_nodup
      rw [hwaiting, List.nodup_cons] at hnodup
      refine h.give h.flushing (Nat.le_refl _) ?_ (fun _ => hitems) (h.waiting_lt _ hmem)
        (h.pending hended _ hmem) hnodup.1 ⟨[], ?_, fun _ => rfl⟩
      · rw [hwaiting]
        exact List.sublist_cons_self _ _
      · rw [← haccepted, hitems, List.append_nil, List.append_nil]
    | nil =>
      rw [hwaiting] at hs
      cases hs
      refine { h with
        waiting_nodup := List.nodup_nil
        waiting_lt := nofun
        pending := fun _ => nofun
        items := fun hne => absurd rfl hne
        timedOut := fun _ _ => nofun
        accepted := ⟨[], ?_, fun _ => rfl⟩ }
      show s.given.map Prod.snd ++ (s.queue.items ++ [item]) ++ [] = s.accepted ++ [item]
      rw [← haccepted, List.append_nil, List.append_assoc]

/-- So does a timer. -/
lemma Inv.expire (h : Inv s) (hs : step s (.expire promise) = some s') : Inv s' := by
  rw [step] at hs
  by_cases htimer : promise ∈ s.timers
  case neg =>
    rw [if_neg htimer] at hs
    cases hs
  rw [if_pos htimer, MemoryFifo.expire] at hs
  by_cases hmem : promise ∈ s.queue.waiting
  · rw [if_pos hmem] at hs
    cases hs
    have hsub : (s.queue.waiting.erase promise).Sublist s.queue.waiting := List.erase_sublist
    refine Inv.settle (s := { s with
        queue := { s.queue with waiting := s.queue.waiting.erase promise }
        timers := s.timers.erase promise }) ?_ (h.waiting_lt _ hmem)
      (.inl ⟨rfl, h.waiting_nodup.not_mem_erase⟩)
    exact { h with
      waiting_nodup := h.waiting_nodup.sublist hsub
      waiting_lt := fun q hq => h.waiting_lt q (hsub.subset hq)
      pending := fun hended q hq => h.pending hended q (hsub.subset hq)
      items := fun hne => h.items fun hnil => hne (by rw [hnil]; rfl)
      timedOut := fun q hq hw => h.timedOut q hq (hsub.subset hw) }
  · rw [if_neg hmem] at hs
    cases hs
    exact { h with }

/-- Every step keeps it. -/
lemma Inv.step (h : Inv s) (hs : step s action = some s') : Inv s' := by
  cases action with
  | get timeout => exact h.get hs
  | put item => exact h.put hs
  | expire promise => exact h.expire hs
  | end_ =>
    cases hs
    refine Inv.settleAll ?_ rfl h.waiting_lt
    exact { h with flushing := rfl, cancelled := fun _ => rfl, pending := nofun }
  | cancel =>
    cases hs
    refine Inv.settleAll ?_ rfl h.waiting_lt
    obtain ⟨discarded, haccepted, -⟩ := h.accepted
    refine { h with
      flushing := rfl
      cancelled := fun _ => rfl
      pending := nofun
      items := fun _ => rfl
      accepted := ⟨s.queue.items ++ discarded, ?_, nofun⟩ }
    show s.given.map Prod.snd ++ [] ++ (s.queue.items ++ discarded) = s.accepted
    rw [List.append_nil, ← List.append_assoc, haccepted]

/-- What is known of a settled promise. -/
lemma mem_given {item : T} : (promise, item) ∈ s.given ↔ (promise, Outcome.item item) ∈ s.settled := by
  rw [State.given, List.mem_filterMap]
  constructor
  · rintro ⟨⟨q, o⟩, hmem, heq⟩
    cases o with
    | item x =>
      cases heq
      exact hmem
    | null => cases heq
    | timeout => cases heq
  · exact fun hmem => ⟨_, hmem, rfl⟩

/-- Items are given in the order in which promises settle. -/
lemma given_keys_sublist : (s.given.map Prod.fst).Sublist (s.settled.map Prod.fst) := by
  rw [State.given]
  induction s.settled with
  | nil => exact .slnil
  | cons p l ih =>
    obtain ⟨q, o⟩ := p
    cases o with
    | item x => exact ih.cons_cons q
    | null => exact ih.cons q
    | timeout => exact ih.cons q

/-- Under the invariant the queue is sound. -/
lemma Inv.sound (h : Inv s) : s.Sound where
  inOrder := by
    obtain ⟨discarded, haccepted, -⟩ := h.accepted
    exact ⟨s.queue.items ++ discarded, by rw [← List.append_assoc, haccepted]⟩
  kept hcancelled := by
    obtain ⟨discarded, haccepted, hnil⟩ := h.accepted
    rwa [hnil hcancelled, List.append_nil] at haccepted
  once := h.settled_nodup.sublist given_keys_sublist
  timedOut promise hmem := by
    refine ⟨fun hgiven => ?_, h.timedOut promise hmem⟩
    obtain ⟨⟨q, item⟩, hitem, rfl⟩ := List.mem_map.mp hgiven
    have heq := List.inj_on_of_nodup_map h.settled_nodup hmem (mem_given.mp hitem) rfl
    cases heq

/-- So it is after every run. -/
lemma sound_of_run {actions : List (Action T)} (h : Run (Steps step) State.init actions s) : s.Sound :=
  (h.invariant Inv.init fun _ _ _ hs hstep => hs.step hstep).sound

end MemoryFifo

end AztecConnect.Client
