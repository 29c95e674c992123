import AztecConnect.Lib.Transition
import Mathlib.Logic.Function.Basic

/-!
# The mutex of a shared database

Translation of `barretenberg.js/src/mutex` over the table `mutex` of the SDK database
(`acquireLock`, `extendLock` and `releaseLock` of `dexie_database.ts`). Calls of the database are in
flight until they are performed, in any order and after any delay; a timer fires at any time from when
it is due. A call identifies the lock by its name alone, so that a late one takes or extends the lease
of another instance: leases are exclusive in runs in which this does not happen (`leases_exclusive`).
-/

namespace AztecConnect.Client

open Transition (Run Steps Guarded exec)

/-- The fields of an instance that do not change. -/
structure Mutex (Name : Type) where
  name : Name
  timeout : Nat
  pingInterval : Nat

namespace Mutex

/-- A call of the database that has not returned, with what the instance does when it has. -/
inductive Call (ι : Type) where
  /-- The first statement of `acquireLock`, which has read the time. -/
  | deleteExpired (i : ι) (now : Nat)
  /-- The second statement of `acquireLock`. -/
  | add (i : ι) (now : Nat)
  /-- `acquireLock` has returned true. -/
  | acquired (i : ι)
  /-- `extendLock`, in a ping. -/
  | update (i : ι) (id : Nat) (expiredAt : Nat)
  /-- `extendLock` has returned. -/
  | extended (i : ι) (id : Nat)
  /-- `releaseLock`. -/
  | delete (i : ι)
  deriving DecidableEq

/-- A call of `setTimeout`. -/
structure Timer (ι : Type) where
  handle : Nat
  due : Nat
  owner : ι
  id : Nat

/-- The database, the instances and what is in flight. `lease` and `holder` only record history. -/
structure State (ι Name : Type) where
  now : Nat
  /-- When the lock of a name expires. -/
  mutex : Name → Option Nat
  id : ι → Nat
  pingTimeout : ι → Option Nat
  timers : List (Timer ι)
  nextHandle : Nat
  calls : List (Call ι)
  /-- What an instance last wrote to the database, unless it has removed it. -/
  lease : ι → Option Nat
  /-- Which instance last acquired a name. -/
  holder : Name → Option ι

/-- What may happen next: time passes, an instance locks or unlocks, a timer fires or a delayed call
is performed. -/
inductive Action (ι : Type) where
  | tick (ms : Nat)
  /-- An attempt of `lock`. -/
  | lock (i : ι)
  | unlock (i : ι)
  | fire (handle : Nat)
  /-- A call in flight is performed, or the instance goes on after it has returned. -/
  | perform (k : Nat)

variable {ι Name : Type}

section

variable [DecidableEq ι] [DecidableEq Name]

/-- `setTimeout` of a ping. -/
def schedulePing (m : ι → Mutex Name) (s : State ι Name) (i : ι) (id : Nat) : State ι Name :=
  { s with
    timers := s.timers ++ [⟨s.nextHandle, s.now + (m i).pingInterval, i, id⟩]
    pingTimeout := Function.update s.pingTimeout i (some s.nextHandle)
    nextHandle := s.nextHandle + 1 }

/-- `unlock`, up to its call of the database. -/
def unlock (s : State ι Name) (i : ι) : State ι Name :=
  { s with
    timers := s.timers.filter fun t => s.pingTimeout i ≠ some t.handle
    id := Function.update s.id i (s.id i + 1)
    calls := s.calls ++ [.delete i] }

/-- `ping`, up to its call of the database. -/
def ping (m : ι → Mutex Name) (s : State ι Name) (i : ι) (id : Nat) : State ι Name :=
  if id ≠ s.id i then s
  else { s with calls := s.calls ++ [.update i id (s.now + (m i).timeout)] }

/-- A call in flight. -/
def perform (m : ι → Mutex Name) (s : State ι Name) : Call ι → State ι Name
  | .deleteExpired i now =>
    { s with
      mutex := fun n => if n = (m i).name then (s.mutex n).filter (now < ·) else s.mutex n
      calls := s.calls ++ [.add i now] }
  | .add i now =>
    match s.mutex (m i).name with
    | some _ => s
    | none =>
      { s with
        mutex := Function.update s.mutex (m i).name (some (now + (m i).timeout))
        calls := s.calls ++ [.acquired i]
        lease := Function.update s.lease i (some (now + (m i).timeout))
        holder := Function.update s.holder (m i).name (some i) }
  | .acquired i => schedulePing m s i (s.id i)
  | .update i id expiredAt =>
    match s.mutex (m i).name with
    | some _ =>
      { s with
        mutex := Function.update s.mutex (m i).name (some expiredAt)
        calls := s.calls ++ [.extended i id]
        lease := Function.update s.lease i (some expiredAt) }
    | none => { s with calls := s.calls ++ [.extended i id] }
  | .extended i id => schedulePing m s i id
  | .delete i =>
    { s with
      mutex := Function.update s.mutex (m i).name none
      lease := Function.update s.lease i none }

/-- One step of the instances, their timers, the calls in flight and the database they share. -/
def step (m : ι → Mutex Name) (s : State ι Name) : Action ι → Option (State ι Name)
  | .tick ms => some { s with now := s.now + ms }
  | .lock i => some { s with calls := s.calls ++ [.deleteExpired i s.now] }
  | .unlock i => some (unlock s i)
  | .fire handle =>
    match s.timers.find? (·.handle = handle) with
    | none => none
    | some t =>
      if s.now < t.due then none
      else some (ping m { s with timers := s.timers.filter (·.handle ≠ handle) } t.owner t.id)
  | .perform k =>
    match s.calls[k]? with
    | none => none
    | some c => some (perform m { s with calls := s.calls.eraseIdx k } c)

end

/-- Nobody holds a lock, no timer runs and no call is in flight. -/
def State.init : State ι Name where
  now := 0
  mutex _ := none
  id _ := 0
  pingTimeout _ := none
  timers := []
  nextHandle := 0
  calls := []
  lease _ := none
  holder _ := none

/-- The instance has a lease that has not expired. -/
def State.Leased (s : State ι Name) (i : ι) : Prop := ∃ e, s.lease i = some e ∧ s.now < e

instance (s : State ι Name) (i : ι) : Decidable (s.Leased i) :=
  match h : s.lease i with
  | none => .isFalse fun ⟨_, he, _⟩ => nomatch h.symm.trans he
  | some e =>
    if hlt : s.now < e then .isTrue ⟨e, h, hlt⟩
    else .isFalse fun ⟨_, he, hlt'⟩ => hlt (Option.some.inj (h.symm.trans he) ▸ hlt')

/-! ## Late calls -/

/-- The instance whose lock the call extends or releases. -/
def Call.writer : Call ι → Option ι
  | .update i _ _ => some i
  | .delete i => some i
  | _ => none

/-- No other instance has acquired the name of `i` since `i` did, or nothing is there. -/
def OwnRow (m : ι → Mutex Name) (s : State ι Name) (i : ι) : Prop :=
  s.mutex (m i).name = none ∨ s.holder (m i).name = some i

/-- A call that extends or releases a lock finds no lock of another instance. -/
def Timely (m : ι → Mutex Name) (s : State ι Name) : Action ι → Prop
  | .perform k => ∀ i, s.calls[k]?.bind Call.writer = some i → OwnRow m s i
  | _ => True

instance [DecidableEq ι] (m : ι → Mutex Name) (s : State ι Name) (i : ι) :
    Decidable (OwnRow m s i) := instDecidableOr

instance [DecidableEq ι] (m : ι → Mutex Name) (s : State ι Name) : (a : Action ι) →
    Decidable (Timely m s a)
  | .perform k =>
    match h : s.calls[k]?.bind Call.writer with
    | none => .isTrue fun _ hi => nomatch h.symm.trans hi
    | some i => decidable_of_iff (OwnRow m s i)
      ⟨fun hown _ hi => Option.some.inj (h.symm.trans hi) ▸ hown, fun hall => hall i h⟩
  | .tick _ | .lock _ | .unlock _ | .fire _ => .isTrue trivial

/-- `acquireLock` has read a time of the past. -/
def Call.Past (now : Nat) : Call ι → Prop
  | .deleteExpired _ t => t ≤ now
  | _ => True

/-- A lease that has not expired is the row of the database. -/
structure Inv (m : ι → Mutex Name) (s : State ι Name) : Prop where
  row : ∀ i, s.Leased i → s.mutex (m i).name = s.lease i ∧ s.holder (m i).name = some i
  past : ∀ c ∈ s.calls, c.Past s.now

variable {m : ι → Mutex Name} {s s' : State ι Name}

/-- The invariant holds at the start. -/
lemma inv_init : Inv m (State.init : State ι Name) where
  row _ h := nomatch h
  past _ h := nomatch h

/-- Two instances with leases of one name are the same. -/
lemma Inv.exclusive (h : Inv m s) {i j : ι} (hname : (m i).name = (m j).name) (hi : s.Leased i)
    (hj : s.Leased j) : i = j := by
  have hholder := (h.row i hi).2
  rw [hname, (h.row j hj).2] at hholder
  exact (Option.some.inj hholder).symm

/-- A call made in the past stays so as time passes. -/
lemma Call.Past.mono {c : Call ι} {now now' : Nat} (h : c.Past now) (hle : now ≤ now') :
    c.Past now' := by
  cases c with
  | deleteExpired i t => exact Nat.le_trans h hle
  | _ => trivial

/-- A step that changes neither the rows nor the leases. -/
lemma Inv.frame (h : Inv m s) (hnow : s.now ≤ s'.now) (hmutex : s'.mutex = s.mutex)
    (hlease : s'.lease = s.lease) (hholder : s'.holder = s.holder)
    (hcalls : ∀ c ∈ s'.calls, c ∈ s.calls ∨ c.Past s'.now) : Inv m s' where
  row i hi := by
    obtain ⟨e, he, hlt⟩ := hi
    rw [hmutex, hlease, hholder]
    exact h.row i ⟨e, hlease ▸ he, Nat.lt_of_le_of_lt hnow hlt⟩
  past c hc := by
    cases hcalls c hc with
    | inl hold => exact (h.past c hold).mono hnow
    | inr hpast => exact hpast

/-- A call is appended. -/
lemma past_append {calls : List (Call ι)} {c : Call ι} {now : Nat} (h : ∀ c ∈ calls, c.Past now)
    (hc : c.Past now) : ∀ c' ∈ calls ++ [c], c'.Past now := by
  intro c' hmem
  rcases List.mem_append.mp hmem with hold | hnew
  · exact h c' hold
  · exact List.mem_singleton.mp hnew ▸ hc

section

variable [DecidableEq ι] [DecidableEq Name]

/-- Performing a call keeps the invariant, if a call that writes finds its own row or none. -/
lemma inv_perform (h : Inv m s) {c : Call ι} (hpast : c.Past s.now)
    (hown : ∀ i, c.writer = some i → OwnRow m s i) : Inv m (perform m s c) := by
  cases c with
  | deleteExpired i t =>
    refine ⟨fun j hj => ?_, past_append h.past trivial⟩
    obtain ⟨hrow, hholder⟩ := h.row j hj
    refine ⟨?_, hholder⟩
    obtain ⟨e, he, hlt⟩ := hj
    show (if (m j).name = (m i).name then _ else _) = s.lease j
    split
    · -- the lease of `j` expires later than the time that was read
      have hle : t ≤ s.now := hpast
      have he' : s.lease j = some e := he
      rw [hrow, he', Option.filter_some_pos]
      exact decide_eq_true (Nat.lt_of_le_of_lt hle hlt)
    · exact hrow
  | add i t =>
    cases hrow : s.mutex (m i).name with
    | some e =>
      simp only [perform, hrow]
      exact h
    | none =>
      simp only [perform, hrow]
      refine ⟨fun j hj => ?_, past_append h.past trivial⟩
      by_cases hji : j = i
      · cases hji
        simp only [Function.update_self, and_self]
      · obtain ⟨e, he, hlt⟩ := hj
        simp only [Function.update_of_ne hji] at he
        obtain ⟨hrow', hholder⟩ := h.row j ⟨e, he, hlt⟩
        have hname : (m j).name ≠ (m i).name := fun heq => by
          rw [heq, hrow, he] at hrow'
          cases hrow'
        simp only [Function.update_of_ne hji, Function.update_of_ne hname]
        exact ⟨hrow', hholder⟩
  | acquired i => exact h.frame (Nat.le_refl _) rfl rfl rfl fun _ hc => .inl hc
  | extended i id => exact h.frame (Nat.le_refl _) rfl rfl rfl fun _ hc => .inl hc
  | update i id e' =>
    cases hrow : s.mutex (m i).name with
    | none =>
      simp only [perform, hrow]
      exact ⟨h.row, past_append h.past trivial⟩
    | some e =>
      simp only [perform, hrow]
      have hholder : s.holder (m i).name = some i := by
        cases hown i rfl with
        | inl hnone => exact nomatch hnone.symm.trans hrow
        | inr hsome => exact hsome
      refine ⟨fun j hj => ?_, past_append h.past trivial⟩
      by_cases hji : j = i
      · cases hji
        simp only [Function.update_self, hholder, and_self]
      · obtain ⟨e', he', hlt⟩ := hj
        simp only [Function.update_of_ne hji] at he'
        obtain ⟨hrow', hholder'⟩ := h.row j ⟨e', he', hlt⟩
        have hname : (m j).name ≠ (m i).name := fun heq => by
          rw [heq, hholder] at hholder'
          exact hji (Option.some.inj hholder').symm
        simp only [Function.update_of_ne hji, Function.update_of_ne hname]
        exact ⟨hrow', hholder'⟩
  | delete i =>
    refine ⟨fun j hj => ?_, h.past⟩
    have hji : j ≠ i := fun hji => by
      obtain ⟨e, he, -⟩ := hj
      simp only [perform, hji, Function.update_self] at he
      cases he
    obtain ⟨e, he, hlt⟩ := hj
    simp only [perform, Function.update_of_ne hji] at he
    obtain ⟨hrow', hholder'⟩ := h.row j ⟨e, he, hlt⟩
    have hname : (m j).name ≠ (m i).name := fun heq => by
      rw [heq] at hrow' hholder'
      cases hown i rfl with
      | inl hnone => exact nomatch hnone.symm.trans (hrow'.trans he)
      | inr hsome => exact hji (Option.some.inj (hholder'.symm.trans hsome))
    simp only [perform, Function.update_of_ne hji, Function.update_of_ne hname]
    exact ⟨hrow', hholder'⟩

/-- Every timely step keeps the invariant. -/
lemma inv_step {a : Action ι} (h : Inv m s) (ha : Timely m s a) (hs : step m s a = some s') :
    Inv m s' := by
  cases a with
  | tick ms =>
    cases hs
    exact h.frame (Nat.le_add_right _ _) rfl rfl rfl fun _ hc => .inl hc
  | lock i =>
    cases hs
    exact ⟨h.row, past_append h.past (Nat.le_refl _)⟩
  | unlock i =>
    cases hs
    exact ⟨h.row, past_append h.past trivial⟩
  | fire handle =>
    simp only [step] at hs
    split at hs
    · cases hs
    · split at hs
      · cases hs
      · cases hs
        unfold ping
        split
        · exact h.frame (Nat.le_refl _) rfl rfl rfl fun _ hc => .inl hc
        · exact ⟨h.row, past_append h.past trivial⟩
  | perform k =>
    cases hc : s.calls[k]? with
    | none =>
      simp only [step, hc] at hs
      cases hs
    | some c =>
      simp only [step, hc] at hs
      cases hs
      have hmem : c ∈ s.calls := List.mem_of_getElem? hc
      have herased : Inv m { s with calls := s.calls.eraseIdx k } :=
        h.frame (Nat.le_refl _) rfl rfl rfl fun c' hc' => .inl (List.mem_of_mem_eraseIdx hc')
      refine inv_perform herased (h.past c hmem) fun i hi => ?_
      exact ha i (by rw [hc]; exact hi)

/-- A call of an instance whose lease has expired leaves the leases of others alone. -/
lemma Inv.untouched (h : Inv m s) {k : Nat} {c : Call ι} {i j : ι} (hc : s.calls[k]? = some c)
    (hi : c.writer = some i) (hexpired : ¬ s.Leased i) (ht : Timely m s (.perform k))
    (hs : step m s (.perform k) = some s') (hj : s.Leased j) :
    s'.mutex (m j).name = s.mutex (m j).name ∧ s'.Leased j := by
  have hji : j ≠ i := fun heq => hexpired (heq ▸ hj)
  have hname : (m j).name ≠ (m i).name := fun heq => by
    obtain ⟨hrow, hholder⟩ := h.row j hj
    obtain ⟨e, he, -⟩ := hj
    rw [heq] at hrow hholder
    cases ht i (by rw [hc]; exact hi) with
    | inl hnone => exact nomatch hnone.symm.trans (hrow.trans he)
    | inr hsome => exact hji (Option.some.inj (hholder.symm.trans hsome))
  simp only [step, hc] at hs
  cases hs
  obtain ⟨e, he, hlt⟩ := hj
  cases c with
  | update i' id e' =>
    cases hi
    simp only [perform]
    split
    · refine ⟨Function.update_of_ne hname _ _, e, ?_, hlt⟩
      exact (Function.update_of_ne hji _ _).trans he
    · exact ⟨rfl, e, he, hlt⟩
  | delete i' =>
    cases hi
    refine ⟨Function.update_of_ne hname _ _, e, ?_, hlt⟩
    exact (Function.update_of_ne hji _ _).trans he
  | _ => cases hi

end

/-- In a run in which no late call finds the lock of another instance: a name has at most one lease
that has not expired, and an instance without one neither extends nor releases that of another. -/
theorem leases_exclusive [DecidableEq ι] [DecidableEq Name] {m : ι → Mutex Name}
    {as : List (Action ι)} {s : State ι Name}
    (h : Run (Guarded (Steps (step m)) (Timely m)) State.init as s) :
    (∀ i j, (m i).name = (m j).name → s.Leased i → s.Leased j → i = j) ∧
    ∀ k c i s', s.calls[k]? = some c → c.writer = some i → ¬ s.Leased i →
      Timely m s (.perform k) → step m s (.perform k) = some s' →
      ∀ j, s.Leased j → s'.mutex (m j).name = s.mutex (m j).name ∧ s'.Leased j := by
  have hinv : Inv m s := h.invariant inv_init fun s a s' hs hstep => inv_step hs hstep.2 hstep.1
  refine ⟨fun i j hname hi hj => hinv.exclusive hname hi hj, ?_⟩
  exact fun k c i s' hc hi hexpired ht hs j hj => hinv.untouched hc hi hexpired ht hs hj

/-! ## Two instances -/

namespace Sample

/-- The defaults of the constructor. -/
def mutexes (_ : Fin 2) : Mutex Unit := ⟨(), 5000, 2000⟩

/-- An instance acquires the lock. -/
def acquire (i : Fin 2) : List (Action (Fin 2)) := [.lock i, .perform 0, .perform 0, .perform 0]

/-- The first instance pings in time, and unlocks; then the second locks. -/
def punctual : List (Action (Fin 2)) :=
  acquire 0 ++ [.tick 2000, .fire 0, .perform 0, .perform 0, .unlock 0, .perform 0] ++ acquire 1

/-- The first instance pings and unlocks after the second has acquired the lock, and locks again. -/
def late : List (Action (Fin 2)) :=
  acquire 0 ++ [.tick 6000] ++ acquire 1 ++
    [.fire 0, .perform 0, .perform 0, .unlock 0, .perform 0] ++ acquire 0

end Sample

/-- One instance locks, its lease expires and the other one locks: only the second holds a lease. -/
theorem leases_exclusive_sample : ∃ s, Run (Guarded (Steps (step Sample.mutexes))
      (Timely Sample.mutexes)) State.init Sample.punctual s ∧ s.Leased 1 ∧ ¬ s.Leased 0 := by
  have h : ((exec (Transition.guard (step Sample.mutexes) (Timely Sample.mutexes)) State.init
      Sample.punctual).map fun s => decide (s.Leased 1)) = some true := by decide
  obtain ⟨s, hs, hleased⟩ := Option.map_eq_some_iff.mp h
  have hrun := Transition.exec_guard_run hs
  refine ⟨s, hrun, of_decide_eq_true hleased, fun hzero => ?_⟩
  have heq := (leases_exclusive hrun).1 0 1 rfl hzero (of_decide_eq_true hleased)
  exact absurd heq (by decide)

/-- Both instances have a lease of the name. -/
theorem leases_overlap : ∃ s, Run (Steps (step Sample.mutexes)) State.init Sample.late s ∧
    s.Leased 0 ∧ s.Leased 1 := by
  have h : ((exec (step Sample.mutexes) State.init Sample.late).map fun s =>
      decide (s.Leased 0 ∧ s.Leased 1)) = some true := by decide
  obtain ⟨s, hs, hleased⟩ := Option.map_eq_some_iff.mp h
  exact ⟨s, Transition.exec_run hs, of_decide_eq_true hleased⟩

end Mutex

end AztecConnect.Client
