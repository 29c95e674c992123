import AztecConnect.Lib.Transition
import Mathlib.Logic.Function.Basic

/-!
# A cache that is refreshed lazily

Some reads of a store are cached. A read of the cache waits for a refresh, which it starts if there is
none, and a mutation drops the refresh when it is complete; a refresh makes the reads one after
another, each in two steps, as the answer arrives after the store was read. A read then misses no
mutation that was complete when it was issued (`Inv`, `inv_step`), as long as mutations that do not drop the
refresh leave the reads as they are, and no refresh is overtaken by a later one.
-/

namespace LazyCache

open Transition (Run Steps Guarded)

/-- A store, and how it is cached. -/
structure Store (σ μ ι : Type) (V : ι → Type) where
  read : (i : ι) → σ → V i
  apply : μ → σ → σ
  /-- The mutation drops the refresh. -/
  invalidates : μ → Bool
  /-- The order in which a refresh makes the reads. -/
  order : List ι

/-- A refresh: what it has not read yet, and an answer that has not arrived. `born` is history. -/
structure Refresh (ι : Type) (V : ι → Type) where
  todo : List ι
  got : Option ((i : ι) × V i)
  /-- The version of the store when the refresh started. -/
  born : Nat

/-- A read of the cache waits for a refresh. The other fields are history. -/
structure Reader where
  refresh : Nat
  /-- The version of the store when the read was issued. -/
  version : Nat
  /-- The versions that mutations had made which were not complete then. -/
  running : List Nat

/-- `hist` and `version` record which stores there were. -/
structure State (σ μ ι : Type) (V : ι → Type) where
  db : σ
  hist : Nat → σ
  version : Nat
  /-- Mutations that have taken effect and are not complete, with the versions they made. -/
  running : List (Nat × μ)
  fields : (i : ι) → Option (V i)
  refreshes : List (Refresh ι V)
  promise : Option Nat
  readers : List Reader

/-- What happens around the cache. -/
inductive Action (μ : Type) where
  /-- A mutation takes effect. -/
  | effect (m : μ)
  | complete (k : Nat)
  /-- A read of the cache. -/
  | issue
  /-- A refresh reads the store. -/
  | fetch (k : Nat)
  /-- The answer arrives. -/
  | store (k : Nat)

variable {σ μ ι : Type} {V : ι → Type}

namespace Refresh

/-- All fields are refreshed. -/
def Done (r : Refresh ι V) : Prop := r.todo = [] ∧ r.got = none

/-- The refresh has written a field. -/
def Stored (r : Refresh ι V) (i : ι) : Prop := i ∉ r.todo ∧ r.got.map Sigma.fst ≠ some i

instance [DecidableEq ι] (r : Refresh ι V) (i : ι) : Decidable (r.Stored i) := instDecidableAnd

end Refresh

variable (S : Store σ μ ι V)

/-- An empty cache. -/
def State.init (db : σ) : State σ μ ι V where
  db := db
  hist _ := db
  version := 0
  running := []
  fields _ := none
  refreshes := []
  promise := none
  readers := []

/-- Where a read waits, after it has started a refresh if there is none. -/
def awaitRefresh (s : State σ μ ι V) : State σ μ ι V × Nat :=
  match s.promise with
  | some k => (s, k)
  | none =>
    let k := s.refreshes.length
    ({ s with
      refreshes := s.refreshes ++ [⟨S.order, none, s.version⟩]
      promise := some k }, k)

variable [DecidableEq ι]

/-- One step; `none` if it cannot happen. -/
def step (s : State σ μ ι V) : Action μ → Option (State σ μ ι V)
  | .effect m =>
    let db := S.apply m s.db
    some { s with
      db := db
      hist := Function.update s.hist (s.version + 1) db
      version := s.version + 1
      running := s.running ++ [(s.version + 1, m)] }
  | .complete k =>
    match s.running[k]? with
    | none => none
    | some (_, m) =>
      some { s with
        running := s.running.eraseIdx k
        promise := if S.invalidates m then none else s.promise }
  | .issue =>
    let (s, k) := awaitRefresh S s
    some { s with readers := s.readers ++ [⟨k, s.version, s.running.map Prod.fst⟩] }
  | .fetch k =>
    match s.refreshes[k]? with
    | some ⟨i :: todo, none, born⟩ =>
      some { s with refreshes := s.refreshes.set k ⟨todo, some ⟨i, S.read i s.db⟩, born⟩ }
    | _ => none
  | .store k =>
    match s.refreshes[k]? with
    | some ⟨todo, some ⟨i, v⟩, born⟩ =>
      some { s with
        fields := Function.update s.fields i (some v)
        refreshes := s.refreshes.set k ⟨todo, none, born⟩ }
    | _ => none

/-! ## What a step does -/

section

variable {S} {s s' : State σ μ ι V} {k : Nat}

/-- What the completion of a mutation does. -/
lemma step_complete (h : step S s (.complete k) = some s') : ∃ w m, s.running[k]? = some (w, m) ∧
    s' = { s with
      running := s.running.eraseIdx k
      promise := if S.invalidates m then none else s.promise } := by
  simp only [step] at h
  split at h
  case h_1 => nomatch h
  case h_2 w m hk => exact ⟨w, m, hk, (Option.some.inj h).symm⟩

/-- What a read of the store does. -/
lemma step_fetch (h : step S s (.fetch k) = some s') : ∃ i todo born,
    s.refreshes[k]? = some ⟨i :: todo, none, born⟩ ∧
    s' = { s with refreshes := s.refreshes.set k ⟨todo, some ⟨i, S.read i s.db⟩, born⟩ } := by
  simp only [step] at h
  split at h
  case h_1 i todo born hk => exact ⟨i, todo, born, hk, (Option.some.inj h).symm⟩
  case h_2 => nomatch h

/-- What the arrival of an answer does. -/
lemma step_store (h : step S s (.store k) = some s') : ∃ todo i v born,
    s.refreshes[k]? = some ⟨todo, some ⟨i, v⟩, born⟩ ∧
    s' = { s with
      fields := Function.update s.fields i (some v)
      refreshes := s.refreshes.set k ⟨todo, none, born⟩ } := by
  simp only [step] at h
  split at h
  case h_1 todo i v born hk => exact ⟨todo, i, v, born, hk, (Option.some.inj h).symm⟩
  case h_2 => nomatch h

/-- Only a mutation that takes effect makes a version. -/
lemma step_db {a : Action μ} (h : step S s a = some s') :
    (∃ m, a = .effect m ∧ s'.db = S.apply m s.db ∧ s'.version = s.version + 1 ∧
      s'.hist = Function.update s.hist (s.version + 1) (S.apply m s.db)) ∨
    ((∀ m, a ≠ .effect m) ∧ s'.db = s.db ∧ s'.version = s.version ∧ s'.hist = s.hist) := by
  cases a with
  | effect m =>
    cases h
    exact .inl ⟨m, rfl, rfl, rfl, rfl⟩
  | complete k =>
    obtain ⟨_, _, _, rfl⟩ := step_complete h
    exact .inr ⟨nofun, rfl, rfl, rfl⟩
  | issue =>
    cases h
    cases s.promise with
    | some k => exact .inr ⟨nofun, rfl, rfl, rfl⟩
    | none => exact .inr ⟨nofun, rfl, rfl, rfl⟩
  | fetch k =>
    obtain ⟨_, _, _, _, rfl⟩ := step_fetch h
    exact .inr ⟨nofun, rfl, rfl, rfl⟩
  | store k =>
    obtain ⟨_, _, _, _, _, rfl⟩ := step_store h
    exact .inr ⟨nofun, rfl, rfl, rfl⟩

/-- No reader is forgotten, and a read adds one. -/
lemma step_readers {a : Action μ} (h : step S s a = some s') :
    ∃ rs, s'.readers = s.readers ++ rs ∧ (a = .issue → rs.length = 1) := by
  cases a with
  | effect m =>
    cases h
    exact ⟨[], (List.append_nil _).symm, nofun⟩
  | complete k =>
    obtain ⟨_, _, _, rfl⟩ := step_complete h
    exact ⟨[], (List.append_nil _).symm, nofun⟩
  | issue =>
    cases h
    cases s.promise with
    | some k => exact ⟨_, rfl, fun _ => rfl⟩
    | none => exact ⟨_, rfl, fun _ => rfl⟩
  | fetch k =>
    obtain ⟨_, _, _, _, rfl⟩ := step_fetch h
    exact ⟨[], (List.append_nil _).symm, nofun⟩
  | store k =>
    obtain ⟨_, _, _, _, _, rfl⟩ := step_store h
    exact ⟨[], (List.append_nil _).symm, nofun⟩

end

/-- What a run must keep to: a mutation that does not drop the refresh changes no cached read, and
answers do not overtake each other. -/
def Kept (s : State σ μ ι V) : Action μ → Prop
  | .effect m => S.invalidates m = false → ∀ i, S.read i (S.apply m s.db) = S.read i s.db
  | .store k =>
    match s.refreshes[k]? with
    | some ⟨_, some ⟨i, _⟩, _⟩ => ∀ f ∈ s.refreshes.drop (k + 1), ¬ f.Stored i
    | _ => True
  | _ => True

/-! ## What a cached read returns -/

omit [DecidableEq ι]

/-- The version made by a mutation that changes a read. -/
def Changes (hist : Nat → σ) (i : ι) (w : Nat) : Prop := S.read i (hist w) ≠ S.read i (hist (w - 1))

/-- All changes of a read after a version, up to another, are by mutations in a list. -/
def Quiet (hist : Nat → σ) (i : ι) (u n : Nat) (running : List Nat) : Prop :=
  ∀ w, u < w → w ≤ n → Changes S hist i w → w ∈ running

/-- The field is the read of a store that misses no mutation which was complete at the issue. -/
def Fresh (s : State σ μ ι V) (r : Reader) (i : ι) : Prop :=
  ∃ u ≤ s.version, s.fields i = some (S.read i (s.hist u)) ∧ Quiet S s.hist i u r.version r.running

/-- A read stays the same while no mutation changes it. -/
lemma Quiet.read_eq {hist : Nat → σ} {i : ι} {u n : Nat} (h : Quiet S hist i u n []) (hu : u ≤ n) :
    S.read i (hist n) = S.read i (hist u) := by
  obtain ⟨d, rfl⟩ := Nat.exists_eq_add_of_le hu
  have hsame : ∀ e ≤ d, S.read i (hist (u + e)) = S.read i (hist u) := by
    intro e
    induction e with
    | zero => exact fun _ => rfl
    | succ e ih =>
      intro he
      rw [← ih (Nat.le_of_succ_le he)]
      by_contra hne
      nomatch h (u + (e + 1)) (by omega) (by omega) hne
  exact hsame d (Nat.le_refl d)

/-! ## The invariant -/

/-- What holds of a refresh: its answer, and the fields that it has written, are reads of stores since
it started. -/
structure RefreshOk (s : State σ μ ι V) (f : Refresh ι V) : Prop where
  got : ∀ i v, f.got = some ⟨i, v⟩ → ∃ u, f.born ≤ u ∧ u ≤ s.version ∧ v = S.read i (s.hist u)
  fields : ∀ i ∈ S.order, f.Stored i →
    ∃ u, f.born ≤ u ∧ u ≤ s.version ∧ s.fields i = some (S.read i (s.hist u))

/-- When the refreshes started. -/
def State.births (s : State σ μ ι V) : List Nat := s.refreshes.map Refresh.born

/-- What holds in every reachable state. -/
structure Inv (s : State σ μ ι V) : Prop where
  now : s.hist s.version = s.db
  running : ∀ p ∈ s.running, p.1 ≤ s.version ∧
    (S.invalidates p.2 = false → ∀ i, ¬ Changes S s.hist i p.1)
  births_le : ∀ b ∈ s.births, b ≤ s.version
  births_sorted : s.births.Pairwise (· ≤ ·)
  refreshes : ∀ f ∈ s.refreshes, RefreshOk S s f
  promise : ∀ k, s.promise = some k →
    ∃ b, s.births[k]? = some b ∧ ∀ i, Quiet S s.hist i b s.version (s.running.map Prod.fst)
  readers : ∀ r ∈ s.readers, r.version ≤ s.version ∧
    ∃ b, s.births[r.refresh]? = some b ∧ ∀ i, Quiet S s.hist i b r.version r.running

/-- It holds of an empty cache. -/
lemma inv_init (db : σ) : Inv S (State.init (μ := μ) db) where
  now := rfl
  running _ hp := nomatch hp
  births_le _ hb := nomatch hb
  births_sorted := .nil
  refreshes _ hf := nomatch hf
  promise _ hk := nomatch hk
  readers _ hr := nomatch hr

variable {S} {s : State σ μ ι V}

/-- A reader whose refresh is done. -/
lemma Inv.fresh (h : Inv S s) {r : Reader} (hr : r ∈ s.readers) {f : Refresh ι V}
    (hf : s.refreshes[r.refresh]? = some f) (hdone : f.Done) {i : ι} (hi : i ∈ S.order) :
    Fresh S s r i := by
  obtain ⟨-, b, hb, hquiet⟩ := h.readers r hr
  rw [State.births, List.getElem?_map, hf, Option.map_some, Option.some.injEq] at hb
  have hstored : f.Stored i := by
    rw [Refresh.Stored, hdone.1, hdone.2]
    exact ⟨List.not_mem_nil, nofun⟩
  obtain ⟨u, hbu, hu, hfield⟩ := (h.refreshes f (List.mem_of_getElem? hf)).fields i hi hstored
  exact ⟨u, hu, hfield, fun w hw => hquiet i w (Nat.lt_of_le_of_lt (hb ▸ hbu) hw)⟩

/-! ## One step -/

/-- A mutation leaves the history before it. -/
lemma hist_of_le {w : Nat} (hw : w ≤ s.version) (db : σ) :
    Function.update s.hist (s.version + 1) db w = s.hist w :=
  Function.update_of_ne (Nat.ne_of_lt (Nat.lt_succ_of_le hw)) _ _

/-- And what changed before it. -/
lemma changes_of_le {i : ι} {w : Nat} (hw : w ≤ s.version) (db : σ) :
    Changes S (Function.update s.hist (s.version + 1) db) i w ↔ Changes S s.hist i w := by
  unfold Changes
  rw [hist_of_le hw, hist_of_le (Nat.le_trans (Nat.sub_le _ _) hw)]

/-- And the fields that were not changed. -/
lemma quiet_of_le {i : ι} {u n : Nat} {running : List Nat} (hn : n ≤ s.version) (db : σ)
    (h : Quiet S s.hist i u n running) :
    Quiet S (Function.update s.hist (s.version + 1) db) i u n running :=
  fun w hw hle hch => h w hw hle ((changes_of_le (Nat.le_trans hle hn) db).mp hch)

/-- A refresh that is right stays so if the fields stay. -/
lemma RefreshOk.of_le {f : Refresh ι V} (h : RefreshOk S s f) {s' : State σ μ ι V}
    (hversion : s.version ≤ s'.version) (hhist : ∀ w ≤ s.version, s'.hist w = s.hist w)
    (hfields : s'.fields = s.fields) : RefreshOk S s' f where
  got i v hgot := by
    obtain ⟨u, hb, hu, hv⟩ := h.got i v hgot
    exact ⟨u, hb, Nat.le_trans hu hversion, hv.trans (congrArg _ (hhist u hu).symm)⟩
  fields i hi hstored := by
    obtain ⟨u, hb, hu, hv⟩ := h.fields i hi hstored
    refine ⟨u, hb, Nat.le_trans hu hversion, ?_⟩
    rw [hfields, hv, hhist u hu]

variable [DecidableEq ι]

/-- A mutation keeps the invariant. -/
lemma inv_effect (h : Inv S s) {m : μ} {s' : State σ μ ι V} (hs : step S s (.effect m) = some s')
    (hkept : Kept S s (.effect m)) : Inv S s' := by
  cases hs
  have hhist (w : Nat) (hw : w ≤ s.version) := hist_of_le hw (S.apply m s.db)
  refine ⟨Function.update_self _ _ _, fun p hp => ?_, fun b hb => ?_, h.births_sorted,
    fun f hf => ?_, fun k hk => ?_, fun r hr => ?_⟩
  · cases List.mem_append.mp hp with
    | inl hold =>
      obtain ⟨hle, hunchanged⟩ := h.running p hold
      exact ⟨Nat.le_succ_of_le hle, fun hm i => (changes_of_le hle _).not.mpr (hunchanged hm i)⟩
    | inr hnew =>
      cases List.mem_singleton.mp hnew
      refine ⟨Nat.le_refl _, fun hm i hch => hch ?_⟩
      show S.read i (Function.update s.hist (s.version + 1) _ (s.version + 1)) =
        S.read i (Function.update s.hist (s.version + 1) _ s.version)
      rw [Function.update_self, hhist _ (Nat.le_refl _), h.now]
      exact hkept hm i
  · exact Nat.le_succ_of_le (h.births_le b hb)
  · exact (h.refreshes f hf).of_le (Nat.le_succ _) hhist rfl
  · obtain ⟨b, hb, hquiet⟩ := h.promise k hk
    refine ⟨b, hb, fun i w hw hle hch => ?_⟩
    rw [List.map_append, List.mem_append]
    cases Nat.le_succ_iff.mp hle with
    | inl hle => exact .inl (hquiet i w hw hle ((changes_of_le hle _).mp hch))
    | inr heq => exact .inr (heq ▸ List.mem_singleton_self _)
  · obtain ⟨hle, b, hb, hquiet⟩ := h.readers r hr
    exact ⟨Nat.le_succ_of_le hle, b, hb, fun i => quiet_of_le hle _ (hquiet i)⟩

/-- So does its completion. -/
lemma inv_complete (h : Inv S s) {k : Nat} {s' : State σ μ ι V}
    (hs : step S s (.complete k) = some s') : Inv S s' := by
  obtain ⟨w, m, hk, rfl⟩ := step_complete hs
  refine ⟨h.now, fun p hp => h.running p (List.mem_of_mem_eraseIdx hp), h.births_le,
    h.births_sorted, fun f hf => (h.refreshes f hf).of_le (Nat.le_refl _) (fun _ _ => rfl) rfl,
    fun j hj => ?_, h.readers⟩
  cases hm : S.invalidates m with
  | true =>
    simp only [hm] at hj
    nomatch hj
  | false =>
    simp only [hm] at hj
    obtain ⟨b, hb, hquiet⟩ := h.promise j hj
    refine ⟨b, hb, fun i w' hw hle hch => ?_⟩
    obtain ⟨p, hp, rfl⟩ := List.mem_map.mp (hquiet i w' hw hle hch)
    obtain ⟨l, hl, rfl⟩ := List.mem_iff_getElem.mp hp
    refine List.mem_map_of_mem (List.mem_eraseIdx_iff_getElem.mpr ⟨l, hl, fun heq => ?_, rfl⟩)
    -- the mutation that is complete changes no read
    cases heq
    rw [List.getElem?_eq_getElem hl, Option.some.injEq] at hk
    rw [hk] at hch
    exact (h.running (w, m) (List.mem_of_getElem hk)).2 hm i hch

omit [DecidableEq ι] in
/-- A read waits for a refresh that misses nothing. -/
lemma inv_awaitRefresh (h : Inv S s) : Inv S (awaitRefresh S s).1 ∧
    (awaitRefresh S s).1.promise = some (awaitRefresh S s).2 := by
  unfold awaitRefresh
  split
  case h_1 k hk => exact ⟨h, hk⟩
  case h_2 hnone =>
    have hbirths : (s.refreshes ++ [(⟨S.order, none, s.version⟩ : Refresh ι V)]).map Refresh.born =
        s.births ++ [s.version] := List.map_append
    refine ⟨⟨h.now, h.running, fun b hb => ?_, ?_, fun f hf => ?_, fun k hk => ?_, fun r hr => ?_⟩, rfl⟩
    · rw [State.births, hbirths, List.mem_append, List.mem_singleton] at hb
      cases hb with
      | inl hold => exact h.births_le b hold
      | inr hnew => exact Nat.le_of_eq hnew
    · rw [State.births, hbirths, List.pairwise_append]
      refine ⟨h.births_sorted, List.pairwise_singleton _ _, fun b hb b' hb' => ?_⟩
      rw [List.mem_singleton.mp hb']
      exact h.births_le b hb
    · cases List.mem_append.mp hf with
      | inl hold => exact (h.refreshes f hold).of_le (Nat.le_refl _) (fun _ _ => rfl) rfl
      | inr hnew =>
        cases List.mem_singleton.mp hnew
        exact ⟨nofun, fun i hi hstored => absurd hi hstored.1⟩
    · cases hk
      refine ⟨s.version, ?_, fun i w hw hle => absurd hw (Nat.not_lt.mpr hle)⟩
      have hlen : s.refreshes.length = s.births.length := (List.length_map _).symm
      rw [State.births, hbirths, hlen, List.getElem?_concat_length]
    · obtain ⟨hle, b, hb, hquiet⟩ := h.readers r hr
      refine ⟨hle, b, ?_, hquiet⟩
      rw [State.births, hbirths, List.getElem?_append_left (List.getElem?_eq_some_iff.mp hb).1]
      exact hb

/-- So does a read of the cache. -/
lemma inv_issue (h : Inv S s) {s' : State σ μ ι V} (hs : step S s .issue = some s') : Inv S s' := by
  cases hs
  obtain ⟨hinv, hpromise⟩ := inv_awaitRefresh h
  refine ⟨hinv.now, hinv.running, hinv.births_le, hinv.births_sorted,
    fun f hf => (hinv.refreshes f hf).of_le (Nat.le_refl _) (fun _ _ => rfl) rfl, hinv.promise,
    fun r hr => ?_⟩
  cases List.mem_append.mp hr with
  | inl hold => exact hinv.readers r hold
  | inr hnew =>
    cases List.mem_singleton.mp hnew
    exact ⟨Nat.le_refl _, hinv.promise _ hpromise⟩

omit [DecidableEq ι] in

/-- A refresh that goes on keeps its birth. -/
lemma births_set {k : Nat} {f g : Refresh ι V} (hf : s.refreshes[k]? = some f)
    (hborn : g.born = f.born) : (s.refreshes.set k g).map Refresh.born = s.births := by
  obtain ⟨hk, rfl⟩ := List.getElem?_eq_some_iff.mp hf
  rw [List.map_set, hborn, ← List.getElem_map Refresh.born (h := by simpa using hk),
    List.set_getElem_self]
  rfl

omit [DecidableEq ι] in
/-- The other parts of the invariant do not see how far a refresh is. -/
lemma Inv.set_refresh (h : Inv S s) {k : Nat} {f g : Refresh ι V} (hf : s.refreshes[k]? = some f)
    (hborn : g.born = f.born) (fields : (i : ι) → Option (V i))
    (hok : ∀ f' ∈ s.refreshes.set k g,
      RefreshOk S { s with fields := fields, refreshes := s.refreshes.set k g } f') :
    Inv S { s with fields := fields, refreshes := s.refreshes.set k g } := by
  have hbirths := births_set hf hborn
  refine ⟨h.now, h.running, ?_, ?_, hok, ?_, ?_⟩
  · rw [State.births, hbirths]
    exact h.births_le
  · rw [State.births, hbirths]
    exact h.births_sorted
  · rw [State.births, hbirths]
    exact h.promise
  · rw [State.births, hbirths]
    exact h.readers

/-- A read of the store keeps the invariant. -/
lemma inv_fetch (h : Inv S s) {k : Nat} {s' : State σ μ ι V} (hs : step S s (.fetch k) = some s') :
    Inv S s' := by
  obtain ⟨i, todo, born, hk, rfl⟩ := step_fetch hs
  have hmem := List.mem_of_getElem? hk
  refine h.set_refresh (g := ⟨todo, some ⟨i, S.read i s.db⟩, born⟩) hk rfl s.fields fun f hf => ?_
  cases List.mem_or_eq_of_mem_set hf with
  | inl hold => exact (h.refreshes f hold).of_le (Nat.le_refl _) (fun _ _ => rfl) rfl
  | inr hnew =>
    subst hnew
    refine ⟨fun j v hgot => ?_, fun j hj hstored => ?_⟩
    · cases hgot
      refine ⟨s.version, h.births_le born (List.mem_map_of_mem hmem), Nat.le_refl _, ?_⟩
      exact congrArg _ h.now.symm
    · -- what is stored after the fetch was stored before
      refine (h.refreshes _ hmem).fields j hj ⟨fun hin => ?_, nofun⟩
      cases List.mem_cons.mp hin with
      | inl heq => exact hstored.2 (congrArg some heq.symm)
      | inr htodo => exact hstored.1 htodo

omit [DecidableEq ι] in

/-- Refreshes are in the order of their births. -/
lemma Inv.born_le (h : Inv S s) {k k' : Nat} {f f' : Refresh ι V} (hf : s.refreshes[k]? = some f)
    (hf' : s.refreshes[k']? = some f') (hle : k ≤ k') : f.born ≤ f'.born := by
  obtain ⟨hk, rfl⟩ := List.getElem?_eq_some_iff.mp hf
  obtain ⟨hk', rfl⟩ := List.getElem?_eq_some_iff.mp hf'
  cases Nat.lt_or_eq_of_le hle with
  | inl hlt => exact List.pairwise_iff_getElem.mp (List.pairwise_map.mp h.births_sorted) k k' hk hk' hlt
  | inr heq =>
    cases heq
    exact Nat.le_refl _

/-- The arrival of an answer keeps the invariant. -/
lemma inv_store (h : Inv S s) {k : Nat} {s' : State σ μ ι V} (hs : step S s (.store k) = some s')
    (hkept : Kept S s (.store k)) : Inv S s' := by
  obtain ⟨todo, i, v, born, hk, rfl⟩ := step_store hs
  have hok := h.refreshes _ (List.mem_of_getElem? hk)
  obtain ⟨u, hb, hu, rfl⟩ := hok.got i v rfl
  refine h.set_refresh (g := ⟨todo, none, born⟩) hk rfl _ fun f hf => ?_
  -- the field that is written, if the refresh had written it too, and the other fields
  have hfield (hi : f.Stored i → f.born ≤ u)
      (hold : ∀ j ∈ S.order, f.Stored j → j ≠ i →
        ∃ u, f.born ≤ u ∧ u ≤ s.version ∧ s.fields j = some (S.read j (s.hist u))) :
      ∀ j ∈ S.order, f.Stored j → ∃ u', f.born ≤ u' ∧ u' ≤ s.version ∧
        Function.update s.fields i (some (S.read i (s.hist u))) j = some (S.read j (s.hist u')) := by
    intro j hj hstored
    by_cases heq : j = i
    · subst heq
      exact ⟨u, hi hstored, hu, Function.update_self _ _ _⟩
    · rw [Function.update_of_ne heq]
      exact hold j hj hstored heq
  cases List.mem_or_eq_of_mem_set hf with
  | inl hmem =>
    have hf := h.refreshes f hmem
    obtain ⟨k', hk'⟩ := List.mem_iff_getElem?.mp hmem
    refine ⟨hf.got, hfield (fun hstored => ?_) fun j hj hst _ => hf.fields j hj hst⟩
    have hle : k' ≤ k := Nat.le_of_not_lt fun hlt => by
      simp only [Kept, hk] at hkept
      refine hkept f ?_ hstored
      rw [List.mem_iff_getElem?]
      refine ⟨k' - (k + 1), ?_⟩
      rw [List.getElem?_drop, Nat.add_sub_cancel' hlt]
      exact hk'
    exact Nat.le_trans (h.born_le hk' hk hle) hb
  | inr hnew =>
    subst hnew
    refine ⟨nofun, hfield (fun _ => hb) fun j hj hstored hne => hok.fields j hj ⟨hstored.1, ?_⟩⟩
    exact fun heq => hne (Option.some.inj heq).symm

/-- Every step under the condition keeps it. -/
lemma inv_step {a : Action μ} {s' : State σ μ ι V} (h : Inv S s)
    (hs : Guarded (Steps (step S)) (Kept S) s a s') : Inv S s' := by
  obtain ⟨hs, hkept⟩ := hs
  cases a with
  | effect m => exact inv_effect h hs hkept
  | complete k => exact inv_complete h hs
  | issue => exact inv_issue h hs
  | fetch k => exact inv_fetch h hs
  | store k => exact inv_store h hs hkept

end LazyCache
