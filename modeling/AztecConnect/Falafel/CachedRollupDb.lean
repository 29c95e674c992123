import AztecConnect.Falafel.RollupDb
import AztecConnect.Lib.LazyCache

/-!
# The cached database of rollups

Translation of `falafel/src/rollup_db/cached_rollup_db.ts`. A call is cut at its awaits: it calls the
database at some time, and goes on at some time after that. The calls that are passed on to the
database, such as `getPendingTxs` and `isAliasRegistered`, read it themselves and are not modelled.

A mutation that is complete is seen by all reads that are issued then (`cachedReads_fresh`), in runs
that keep to `Kept`; `resetPositionOnTxsWithoutRollupProof` may change a cached read without a refresh.
-/

namespace AztecConnect.Falafel.CachedRollupDb

open RollupDb (Mutation RollupWithTxs)
open Transition (Run Steps Guarded exec)

/-- The properties that are updated by lazy refresh. -/
inductive Field where
  | nextRollupId
  | totalTxCount
  | unsettledTxs
  | pendingSecondClassTxCount
  | unsettledNullifiers
  deriving DecidableEq

/-- What a cached field holds. -/
abbrev Field.Value : Field → Type
  | nextRollupId => Nat
  | totalTxCount => Nat
  | unsettledTxs => List TxDao
  | pendingSecondClassTxCount => Nat
  | unsettledNullifiers => List Nat

/-- The query by which `refresh` fills a field. -/
def Field.read : (i : Field) → RollupDb → i.Value
  | nextRollupId, db => db.getNextRollupId
  | totalTxCount, db => db.getTotalTxCount
  | unsettledTxs, db => db.getUnsettledTxs
  | pendingSecondClassTxCount, db => db.getPendingSecondClassTxCount
  | unsettledNullifiers, db => db.getUnsettledNullifiers

/-- The mutations after which `refreshPromise` is undefined. -/
def invalidates : Mutation → Bool
  | .addTxs _ | .deleteTxsById _ | .deletePendingTxs | .deleteUnsettledClaimTxs => true
  | .addRollupProofs _ | .deleteRollupProof _ | .deleteOrphanedRollupProofs => true
  | .addRollup _ _ _ | .confirmMined _ _ _ _ _ _ _ _ | .eraseDb => true
  | .resetPositionOnTxsWithoutRollupProof | .deleteTxlessRollupProofs | .deleteUnsettledRollups => false
  | .addAccounts _ | .setCallData _ _ | .confirmSent _ _ | .addClaims _ => false
  | .updateClaimsWithResultRollupId _ _ | .confirmClaimed _ _ | .addBridgeMetrics => false

/-- `refresh`. -/
def store : LazyCache.Store RollupDb Mutation Field Field.Value where
  read := Field.read
  apply := RollupDb.apply
  invalidates := invalidates
  order := [.nextRollupId, .totalTxCount, .unsettledTxs, .pendingSecondClassTxCount,
    .unsettledNullifiers]

/-- The cache over the rollup database. -/
abbrev Cache : Type := LazyCache.State RollupDb Mutation Field Field.Value

/-! ## Reads of the properties -/

/-- The reads that wait for the refresh and return a property, or what they make of it. -/
inductive Read where
  | getNumSettledRollups
  | getNextRollupId
  | getPendingSecondClassTxCount
  | getUnsettledTxCount
  | getUnsettledTxs
  | getUnsettledDepositTxs
  | getUnsettledNullifiers
  | getTotalTxCount

namespace Read

/-- The field a read is answered from. -/
def field : Read → Field
  | getNumSettledRollups => .nextRollupId
  | getNextRollupId => .nextRollupId
  | getPendingSecondClassTxCount => .pendingSecondClassTxCount
  | getUnsettledTxCount => .unsettledTxs
  | getUnsettledTxs => .unsettledTxs
  | getUnsettledDepositTxs => .unsettledTxs
  | getUnsettledNullifiers => .unsettledNullifiers
  | getTotalTxCount => .totalTxCount

/-- What a read returns. -/
abbrev Value : Read → Type
  | getUnsettledTxs | getUnsettledDepositTxs => List TxDao
  | getUnsettledNullifiers => List Nat
  | _ => Nat

/-- How it is answered from the field. -/
def ofField : (q : Read) → q.field.Value → q.Value
  | getNumSettledRollups, n => n
  | getNextRollupId, n => n
  | getPendingSecondClassTxCount, n => n
  | getUnsettledTxCount, txs => txs.length
  | getUnsettledTxs, txs => txs
  | getUnsettledDepositTxs, txs => txs.filter (·.txType = .DEPOSIT)
  | getUnsettledNullifiers, nullifiers => nullifiers
  | getTotalTxCount, n => n

/-- What the read returns, if the refresh is done. -/
def answer (q : Read) (fields : (i : Field) → Option i.Value) : Option q.Value :=
  (fields q.field).map q.ofField

/-- The same read of the database. -/
def underlying : (q : Read) → RollupDb → q.Value
  | getNumSettledRollups, db => db.getNumSettledRollups
  | getNextRollupId, db => db.getNextRollupId
  | getPendingSecondClassTxCount, db => db.getPendingSecondClassTxCount
  | getUnsettledTxCount, db => db.getUnsettledTxCount
  | getUnsettledTxs, db => db.getUnsettledTxs
  | getUnsettledDepositTxs, db => db.getUnsettledDepositTxs
  | getUnsettledNullifiers, db => db.getUnsettledNullifiers
  | getTotalTxCount, db => db.getTotalTxCount

/-- From a field that has just been read, the answer is that of the database. -/
lemma ofField_read (q : Read) {db : RollupDb} (h : db.Numbered) :
    q.ofField (q.field.read db) = q.underlying db := by
  cases q with
  | getNumSettledRollups => exact h.getNextRollupId
  | getUnsettledTxCount => exact List.countP_eq_length_filter.symm
  | getUnsettledDepositTxs =>
    exact List.filter_filter
  | _ => rfl

end Read

/-! ## Settled rollups -/

/-- An entry of the sparse cache: the promise of a rollup is in flight, or settled. -/
inductive Entry where
  | undefined
  | pending
  | settled (rollup : Except String (Option RollupWithTxs))

/-- A call of `getSettledRollups` waits for the refresh, and then for the entries below `stop`. -/
structure Get where
  reader : Nat
  start : Nat
  take : Nat
  stop : Option Nat

/-- The cache, the cached settled rollups, and the calls of `getSettledRollups` that have
started. -/
structure State where
  cache : Cache
  settledRollupCache : Nat → Entry
  gets : List Get

/-- An empty cache. -/
def State.init (db : RollupDb) : State := ⟨.init db, fun _ => .undefined, []⟩

/-- What happens around the cache. -/
inductive Action where
  /-- A mutation, a read, or a refresh. -/
  | cache (a : LazyCache.Action Mutation)
  | getSettledRollups (start take : Nat)
  /-- A call of `getSettledRollups` goes on after the refresh. -/
  | resume (k : Nat)
  /-- The database reads a rollup whose promise is in flight. -/
  | fetchRollup (id : Nat)

/-- The entries of a range that are undefined become promises. -/
def promiseRange (entries : Nat → Entry) (start stop : Nat) (i : Nat) : Entry :=
  match entries i with
  | .undefined => if start ≤ i ∧ i < stop then .pending else .undefined
  | e => e

/-- One step; `none` if it cannot happen. -/
def step (s : State) : Action → Option State
  | .cache a => (LazyCache.step store s.cache a).map fun cache => { s with cache := cache }
  | .getSettledRollups start take =>
    (LazyCache.step store s.cache .issue).map fun cache =>
      { s with cache := cache, gets := s.gets ++ [⟨s.cache.readers.length, start, take, none⟩] }
  | .resume k => do
    let g ← s.gets[k]?
    let r ← s.cache.readers[g.reader]?
    let f ← s.cache.refreshes[r.refresh]?
    if f.todo = [] ∧ f.got.isNone ∧ g.stop = none then
      let numSettled ← s.cache.fields .nextRollupId
      let stop := min (g.start + g.take) numSettled
      return { s with
        settledRollupCache := promiseRange s.settledRollupCache g.start stop
        gets := s.gets.set k { g with stop := some stop } }
    else none
  | .fetchRollup id =>
    match s.settledRollupCache id with
    | .pending => some { s with
        settledRollupCache := Function.update s.settledRollupCache id (.settled (s.cache.db.getRollup id)) }
    | _ => none

/-- What a call of `getSettledRollups` returns, if all its entries are there. -/
def Get.answer (g : Get) (entries : Nat → Entry) :
    Option (Except String (List (Option RollupWithTxs))) := do
  let stop ← g.stop
  let rollups ← (List.range' g.start (stop - g.start)).mapM fun i =>
    match entries i with
    | .settled rollup => some rollup
    | _ => none
  return rollups.mapM id

/-! ## What a run must keep to -/

/-- A mutation changes no settled rollup, and settles the next ones. -/
structure SettledKept (db db' : RollupDb) : Prop where
  numbered : db'.Numbered
  next_le : db.getNextRollupId ≤ db'.getNextRollupId
  same : ∀ i < db.getNextRollupId, db'.getRollup i = db.getRollup i

instance (db db' : RollupDb) : Decidable (SettledKept db db') :=
  decidable_of_iff (db'.settledIds.Perm (List.range db'.getNumSettledRollups) ∧
      db.getNextRollupId ≤ db'.getNextRollupId ∧
      ∀ i < db.getNextRollupId, db'.getRollup i = db.getRollup i)
    ⟨fun ⟨h₁, h₂, h₃⟩ => ⟨h₁, h₂, h₃⟩, fun ⟨h₁, h₂, h₃⟩ => ⟨h₁, h₂, h₃⟩⟩

/-- There are no positions to reset, of unsettled transactions. -/
def PositionsKept (db : RollupDb) : Mutation → Prop
  | .resetPositionOnTxsWithoutRollupProof =>
    ∀ t ∈ db.txs.rows, t.mined = none → t.rollupProof = none → t.position = -1
  | _ => True

/-- Positions are reset when there are none to reset, settled rollups stay, and a refresh does not
overtake another. -/
def Kept (s : State) : Action → Prop
  | .cache (.effect m) => PositionsKept s.cache.db m ∧ SettledKept s.cache.db (RollupDb.apply m s.cache.db)
  | .cache a => LazyCache.Kept store s.cache a
  | _ => True

/-! ## Mutations without a refresh -/

/-- A field depends on the transactions and the settled ids only. -/
lemma read_congr {db db' : RollupDb} (htxs : db'.txs.rows = db.txs.rows)
    (hids : db'.settledIds = db.settledIds) (i : Field) : i.read db' = i.read db := by
  cases i with
  | nextRollupId =>
    show db'.getNextRollupId = db.getNextRollupId
    unfold RollupDb.getNextRollupId
    rw [hids]
  | totalTxCount => exact congrArg List.length htxs
  | unsettledTxs => exact congrArg (List.filter (·.mined.isNone)) htxs
  | pendingSecondClassTxCount =>
    exact congrArg (List.countP fun t : TxDao => t.rollupProof.isNone && t.secondClass) htxs
  | unsettledNullifiers =>
    exact congrArg (fun txs : List TxDao => (txs.filter (·.mined.isNone)).flatMap fun t =>
      t.nullifier1.toList ++ t.nullifier2.toList) htxs

/-- A transaction after positions are reset. -/
def resetPosition (t : TxDao) : TxDao := if t.rollupProof.isNone then { t with position := -1 } else t

/-- Resetting a transaction changes its position only. -/
lemma resetPosition_eq (t : TxDao) : ∃ position, resetPosition t = { t with position := position } := by
  unfold resetPosition
  split
  case isTrue => exact ⟨-1, rfl⟩
  case isFalse => exact ⟨t.position, rfl⟩

/-- Resetting positions that are reset changes no field. -/
lemma read_resetPosition {db : RollupDb}
    (h : ∀ t ∈ db.txs.rows, t.mined = none → t.rollupProof = none → t.position = -1) (i : Field) :
    i.read (RollupDb.apply .resetPositionOnTxsWithoutRollupProof db) = i.read db := by
  have hmined (t : TxDao) : (resetPosition t).mined = t.mined := by
    obtain ⟨position, heq⟩ := resetPosition_eq t
    rw [heq]
  have hfilter : (db.txs.rows.map resetPosition).filter (·.mined.isNone) =
      db.txs.rows.filter (·.mined.isNone) := by
    have hcomp : (fun t : TxDao => t.mined.isNone) ∘ resetPosition = fun t => t.mined.isNone :=
      funext fun t => congrArg Option.isNone (hmined t)
    rw [List.filter_map, hcomp]
    conv_rhs => rw [← List.map_id (db.txs.rows.filter _)]
    refine List.map_congr_left fun t ht => ?_
    obtain ⟨hrow, hnone⟩ := List.mem_filter.mp ht
    unfold resetPosition
    split
    case isTrue hproof =>
      have hpos := h t hrow (Option.isNone_iff_eq_none.mp hnone) (Option.isNone_iff_eq_none.mp hproof)
      rw [← hpos]
      rfl
    case isFalse => rfl
  cases i with
  | nextRollupId => rfl
  | totalTxCount => exact List.length_map _
  | unsettledTxs => exact hfilter
  | pendingSecondClassTxCount =>
    show (db.txs.rows.map resetPosition).countP _ = db.txs.rows.countP _
    rw [List.countP_map]
    refine congrArg (List.countP · db.txs.rows) (funext fun t => ?_)
    obtain ⟨position, heq⟩ := resetPosition_eq t
    rw [Function.comp_apply, heq]
  | unsettledNullifiers =>
    exact congrArg (List.flatMap fun t : TxDao => t.nullifier1.toList ++ t.nullifier2.toList) hfilter

/-- Only the reset of positions can change a read. -/
lemma read_apply {m : Mutation} (hm : invalidates m = false) {db : RollupDb}
    (h : PositionsKept db m) (i : Field) : i.read (RollupDb.apply m db) = i.read db := by
  cases m with
  | resetPositionOnTxsWithoutRollupProof => exact read_resetPosition h i
  | deleteTxlessRollupProofs =>
    refine read_congr ?_ ?_ i
    · exact RollupDb.deleteTxless_txs
    · rfl
  | deleteUnsettledRollups =>
    refine read_congr ?_ ?_ i
    · rfl
    · exact RollupDb.settledIds_deleteUnsettled
  | setCallData id processRollupCalldata =>
    refine read_congr ?_ (RollupDb.settledIds_modify ?_ fun r => ?_) i
    · rfl
    · split <;> rfl
  | confirmSent id ethTxHash =>
    refine read_congr ?_ (RollupDb.settledIds_modify ?_ fun r => ?_) i
    · rfl
    · split <;> rfl
  | addAccounts accounts =>
    refine read_congr ?_ ?_ i
    · rfl
    · rfl
  | addClaims claims =>
    refine read_congr ?_ ?_ i
    · rfl
    · rfl
  | updateClaimsWithResultRollupId interactionNonces interactionResultRollupId =>
    refine read_congr ?_ ?_ i
    · rfl
    · rfl
  | confirmClaimed nullifiers claimed =>
    refine read_congr ?_ ?_ i
    · rfl
    · rfl
  | addBridgeMetrics => rfl
  | _ => nomatch hm

/-! ## The invariant -/

/-- Settled rollups that are kept twice are kept. -/
lemma SettledKept.trans {db₁ db₂ db₃ : RollupDb} (h₁ : SettledKept db₁ db₂) (h₂ : SettledKept db₂ db₃) :
    SettledKept db₁ db₃ where
  numbered := h₂.numbered
  next_le := Nat.le_trans h₁.next_le h₂.next_le
  same i hi := (h₂.same i (Nat.lt_of_lt_of_le hi h₁.next_le)).trans (h₁.same i hi)

/-- What a call of `getSettledRollups` waits for. -/
def GetOk (s : State) (g : Get) : Prop :=
  ∃ r, s.cache.readers[g.reader]? = some r ∧ ∀ stop, g.stop = some stop →
    ∃ u ≤ s.cache.version, stop = min (g.start + g.take) (s.cache.hist u).getNextRollupId ∧
      LazyCache.Quiet store s.cache.hist .nextRollupId u r.version r.running

/-- What holds in every reachable state: the invariant of the cache, numbered rollups that are never
changed once settled, and entries that are or will be these rollups. -/
structure Inv (s : State) : Prop where
  cache : LazyCache.Inv store s.cache
  numbered : ∀ w ≤ s.cache.version, (s.cache.hist w).Numbered
  kept : ∀ w ≤ s.cache.version, SettledKept (s.cache.hist w) s.cache.db
  entries : ∀ i, s.settledRollupCache i ≠ .undefined → i < s.cache.db.getNextRollupId
  settled : ∀ i rollup, s.settledRollupCache i = .settled rollup → rollup = s.cache.db.getRollup i
  gets : ∀ g ∈ s.gets, GetOk s g

/-- It holds of an empty cache. -/
lemma inv_init {db : RollupDb} (h : db.Numbered) : Inv (State.init db) where
  cache := LazyCache.inv_init store db
  numbered _ _ := h
  kept _ _ := ⟨h, Nat.le_refl _, fun _ _ => rfl⟩
  entries _ hne := absurd rfl hne
  settled _ _ heq := nomatch heq
  gets _ hg := nomatch hg

variable {s s' : State}

/-- A step of the cache other than the effect of a mutation. -/
lemma GetOk.of_cache {g : Get} (h : GetOk s g) (hinv : Inv s) {a : LazyCache.Action Mutation}
    {cache : Cache} (hs : LazyCache.step store s.cache a = some cache) (entries : Nat → Entry)
    (gets : List Get) : GetOk ⟨cache, entries, gets⟩ g := by
  obtain ⟨r, hr, hstop⟩ := h
  obtain ⟨rs, hreaders, -⟩ := LazyCache.step_readers hs
  have hlt := (List.getElem?_eq_some_iff.mp hr).1
  have hr' : cache.readers[g.reader]? = some r := by
    rw [hreaders, List.getElem?_append_left hlt]
    exact hr
  have hversion := (hinv.cache.readers r (List.mem_of_getElem? hr)).1
  refine ⟨r, hr', fun stop heq => ?_⟩
  obtain ⟨u, hu, hmin, hquiet⟩ := hstop stop heq
  cases LazyCache.step_db hs with
  | inl heffect =>
    obtain ⟨m, -, -, hv, hhist⟩ := heffect
    refine ⟨u, ?_, ?_, ?_⟩
    · show u ≤ cache.version
      rw [hv]
      exact Nat.le_succ_of_le hu
    · show stop = min _ (cache.hist u).getNextRollupId
      rw [hhist, LazyCache.hist_of_le hu]
      exact hmin
    · show LazyCache.Quiet store cache.hist _ _ _ _
      rw [hhist]
      exact LazyCache.quiet_of_le hversion _ hquiet
  | inr hsame =>
    obtain ⟨-, -, hv, hhist⟩ := hsame
    refine ⟨u, hv ▸ hu, ?_, ?_⟩
    · show stop = min _ (cache.hist u).getNextRollupId
      rw [hhist]
      exact hmin
    · show LazyCache.Quiet store cache.hist _ _ _ _
      rw [hhist]
      exact hquiet

/-- A mutation that keeps the settled rollups keeps it. -/
lemma inv_effect (h : Inv s) {m : Mutation} {cache : Cache}
    (hs : LazyCache.step store s.cache (.effect m) = some cache) (hkept : Kept s (.cache (.effect m))) :
    Inv { s with cache := cache } := by
  obtain ⟨hpos, hsettled⟩ := hkept
  have hkept' : LazyCache.Kept store s.cache (.effect m) := fun hm i => read_apply hm hpos i
  have hcache := LazyCache.inv_effect h.cache hs hkept'
  have hgets (g : Get) (hg : g ∈ s.gets) := (h.gets g hg).of_cache h hs s.settledRollupCache s.gets
  cases hs
  have hhist (w : Nat) (hw : w ≤ s.cache.version) :=
    LazyCache.hist_of_le hw (RollupDb.apply m s.cache.db)
  refine ⟨hcache, fun w hw => ?_, fun w hw => ?_, fun i hi => ?_, fun i rollup hi => ?_, hgets⟩
  · show (Function.update s.cache.hist (s.cache.version + 1) (RollupDb.apply m s.cache.db) w).Numbered
    cases Nat.le_succ_iff.mp hw with
    | inl hle =>
      rw [hhist w hle]
      exact h.numbered w hle
    | inr heq =>
      rw [heq, Function.update_self]
      exact hsettled.numbered
  · show SettledKept (Function.update s.cache.hist (s.cache.version + 1) (RollupDb.apply m s.cache.db) w)
      (RollupDb.apply m s.cache.db)
    cases Nat.le_succ_iff.mp hw with
    | inl hle =>
      rw [hhist w hle]
      exact (h.kept w hle).trans hsettled
    | inr heq =>
      rw [heq, Function.update_self]
      exact ⟨hsettled.numbered, Nat.le_refl _, fun _ _ => rfl⟩
  · exact Nat.lt_of_lt_of_le (h.entries i hi) hsettled.next_le
  · have hlt := h.entries i fun hundef => by
      rw [show s.settledRollupCache i = .settled rollup from hi] at hundef
      nomatch hundef
    exact (h.settled i rollup hi).trans (hsettled.same i hlt).symm

/-- Other steps of the cache. -/
lemma inv_cache (h : Inv s) {a : LazyCache.Action Mutation} {cache : Cache}
    (hs : LazyCache.step store s.cache a = some cache) (ha : ∀ m, a ≠ .effect m)
    (hkept : LazyCache.Kept store s.cache a) : Inv { s with cache := cache } := by
  have hcache := LazyCache.inv_step h.cache ⟨hs, hkept⟩
  have hgets (g : Get) (hg : g ∈ s.gets) := (h.gets g hg).of_cache h hs s.settledRollupCache s.gets
  cases LazyCache.step_db hs with
  | inl heffect =>
    obtain ⟨m, heq, -⟩ := heffect
    exact absurd heq (ha m)
  | inr hsame =>
    obtain ⟨-, hdb, hversion, hhist⟩ := hsame
    refine ⟨hcache, ?_, ?_, ?_, ?_, hgets⟩
    · show ∀ w ≤ cache.version, (cache.hist w).Numbered
      rw [hversion, hhist]
      exact h.numbered
    · show ∀ w ≤ cache.version, SettledKept (cache.hist w) cache.db
      rw [hversion, hhist, hdb]
      exact h.kept
    · show ∀ i, _ → i < cache.db.getNextRollupId
      rw [hdb]
      exact h.entries
    · show ∀ i rollup, _ → rollup = cache.db.getRollup i
      rw [hdb]
      exact h.settled

/-- So does a call of `getSettledRollups`. -/
lemma inv_get (h : Inv s) {start take : Nat} (hs : step s (.getSettledRollups start take) = some s') :
    Inv s' := by
  simp only [step, Option.map_eq_some_iff] at hs
  obtain ⟨cache, hissue, rfl⟩ := hs
  have hinv := inv_cache h hissue (fun _ heq => by cases heq) trivial
  refine ⟨hinv.cache, hinv.numbered, hinv.kept, hinv.entries, hinv.settled, fun g hg => ?_⟩
  cases List.mem_append.mp hg with
  | inl hold => exact hinv.gets g hold
  | inr hnew =>
    cases List.mem_singleton.mp hnew
    obtain ⟨rs, hreaders, hlen⟩ := LazyCache.step_readers hissue
    obtain ⟨r, rfl⟩ := List.length_eq_one_iff.mp (hlen rfl)
    refine ⟨r, ?_, nofun⟩
    show cache.readers[s.cache.readers.length]? = some r
    rw [hreaders]
    exact List.getElem?_concat_length

/-- A call goes on only after its refresh, with the number of rollups cached then. -/
lemma step_resume {k : Nat} (hs : step s (.resume k) = some s') : ∃ g r f numSettled,
    s.gets[k]? = some g ∧ s.cache.readers[g.reader]? = some r ∧
    s.cache.refreshes[r.refresh]? = some f ∧ f.Done ∧
    s.cache.fields .nextRollupId = some numSettled ∧
    s' = { s with
      settledRollupCache :=
        promiseRange s.settledRollupCache g.start (min (g.start + g.take) numSettled)
      gets := s.gets.set k { g with stop := some (min (g.start + g.take) numSettled) } } := by
  simp only [step, Option.bind_eq_bind, Option.bind_eq_some_iff] at hs
  obtain ⟨g, hg, r, hr, f, hf, hs⟩ := hs
  split at hs
  case isFalse => nomatch hs
  case isTrue hdone =>
    obtain ⟨numSettled, hnum, hs⟩ := Option.bind_eq_some_iff.mp hs
    exact ⟨g, r, f, numSettled, hg, hr, hf, ⟨hdone.1, Option.isNone_iff_eq_none.mp hdone.2.1⟩, hnum,
      (Option.some.inj hs).symm⟩

/-- A range of promises settles no entry. -/
lemma promiseRange_settled {entries : Nat → Entry} {start stop i : Nat}
    {rollup : Except String (Option RollupWithTxs)}
    (h : promiseRange entries start stop i = .settled rollup) : entries i = .settled rollup := by
  unfold promiseRange at h
  split at h
  case h_1 hundef =>
    split at h
    case isTrue => nomatch h
    case isFalse => nomatch h
  case h_2 => exact h

/-- It defines the entries before `stop` only. -/
lemma promiseRange_undefined {entries : Nat → Entry} {start stop i : Nat}
    (h : promiseRange entries start stop i ≠ .undefined) : entries i ≠ .undefined ∨ i < stop := by
  unfold promiseRange at h
  split at h
  case h_1 hundef =>
    split at h
    case isTrue hrange => exact .inr hrange.2
    case isFalse => exact absurd rfl h
  case h_2 => exact .inl h

/-- A call that goes on keeps the invariant. -/
lemma inv_resume (h : Inv s) {k : Nat} (hs : step s (.resume k) = some s') : Inv s' := by
  obtain ⟨g, r, f, numSettled, hg, hr, hf, hdone, hnum, rfl⟩ := step_resume hs
  obtain ⟨u, hu, hfield, hquiet⟩ := h.cache.fresh (List.mem_of_getElem? hr) hf hdone
    (i := .nextRollupId) List.mem_cons_self
  have hnum' : numSettled = (s.cache.hist u).getNextRollupId := Option.some.inj (hnum.symm.trans hfield)
  refine ⟨h.cache, h.numbered, h.kept, fun i hi => ?_, fun i rollup hi => ?_, fun g' hg' => ?_⟩
  · cases promiseRange_undefined hi with
    | inl hold => exact h.entries i hold
    | inr hlt =>
      have hnext := (h.kept u hu).next_le
      have hmin := Nat.min_le_right (g.start + g.take) numSettled
      exact Nat.lt_of_lt_of_le hlt (Nat.le_trans hmin (hnum' ▸ hnext))
  · exact h.settled i rollup (promiseRange_settled hi)
  · cases List.mem_or_eq_of_mem_set hg' with
    | inl hold => exact h.gets g' hold
    | inr hnew =>
      subst hnew
      refine ⟨r, hr, fun stop heq => ⟨u, hu, ?_, hquiet⟩⟩
      rw [← hnum']
      exact (Option.some.inj heq).symm

/-- So does a rollup that is read from the database. -/
lemma inv_fetchRollup (h : Inv s) {id : Nat} (hs : step s (.fetchRollup id) = some s') : Inv s' := by
  simp only [step] at hs
  split at hs
  case h_2 => nomatch hs
  case h_1 hpending =>
    cases hs
    have hother {i : Nat} (hne : i ≠ id) : Function.update s.settledRollupCache id
        (.settled (s.cache.db.getRollup id)) i = s.settledRollupCache i := Function.update_of_ne hne _ _
    refine ⟨h.cache, h.numbered, h.kept, fun i hi => ?_, fun i rollup hi => ?_, h.gets⟩
    · by_cases heq : i = id
      · refine h.entries i ?_
        rw [heq, hpending]
        nofun
      · exact h.entries i (hother heq ▸ hi)
    · by_cases heq : i = id
      · subst heq
        have hself : Function.update s.settledRollupCache i (.settled (s.cache.db.getRollup i)) i =
            .settled (s.cache.db.getRollup i) := Function.update_self _ _ _
        exact Entry.settled.inj (hi.symm.trans hself)
      · exact h.settled i rollup ((hother heq).symm.trans hi)

/-- Every step that keeps the settled rollups keeps it. -/
lemma inv_step {a : Action} (h : Inv s) (hs : Guarded (Steps step) Kept s a s') : Inv s' := by
  obtain ⟨hs, hkept⟩ := hs
  cases a with
  | cache a =>
    simp only [Steps, step, Option.map_eq_some_iff] at hs
    obtain ⟨cache, hcache, rfl⟩ := hs
    cases a with
    | effect m => exact inv_effect h hcache hkept
    | complete k => exact inv_cache h hcache (fun _ heq => by cases heq) hkept
    | issue => exact inv_cache h hcache (fun _ heq => by cases heq) hkept
    | fetch k => exact inv_cache h hcache (fun _ heq => by cases heq) hkept
    | store k => exact inv_cache h hcache (fun _ heq => by cases heq) hkept
  | getSettledRollups start take => exact inv_get h hs
  | resume k => exact inv_resume h hs
  | fetchRollup id => exact inv_fetchRollup h hs

/-! ## What the reads return -/

/-- The read of a database that misses no mutation which was complete at the issue. -/
def Current (s : State) (r : LazyCache.Reader) (i : Field) (P : RollupDb → Prop) : Prop :=
  ∃ u ≤ s.cache.version, P (s.cache.hist u) ∧
    LazyCache.Quiet store s.cache.hist i u r.version r.running

/-- Every field is refreshed. -/
lemma mem_order (i : Field) : i ∈ store.order := by
  cases i <;> decide

/-- A read after its refresh is that of the database at a moment since it was called. -/
lemma Inv.read (h : Inv s) {r : LazyCache.Reader} (hr : r ∈ s.cache.readers)
    {f : LazyCache.Refresh Field Field.Value} (hf : s.cache.refreshes[r.refresh]? = some f)
    (hdone : f.Done) (q : Read) :
    Current s r q.field fun db => q.answer s.cache.fields = some (q.underlying db) := by
  obtain ⟨u, hu, hfield, hquiet⟩ := h.cache.fresh hr hf hdone (mem_order q.field)
  refine ⟨u, hu, ?_, hquiet⟩
  rw [Read.answer, hfield, Option.map_some]
  exact congrArg some (q.ofField_read (h.numbered u hu))

/-- Functions that agree on a list map it alike. -/
lemma mapM_congr {α β : Type} {f g : α → Except String β} {xs : List α} (h : ∀ x ∈ xs, f x = g x) :
    xs.mapM f = xs.mapM g := by
  induction xs with
  | nil => rfl
  | cons x xs ih =>
    rw [List.mapM_cons, List.mapM_cons, h x List.mem_cons_self,
      ih fun y hy => h y (List.mem_cons_of_mem _ hy)]

/-- If all entries have settled, the list of them is that of the rollups. -/
lemma mapM_settled {entries : Nat → Entry} {f : Nat → Except String (Option RollupWithTxs)}
    (hf : ∀ i rollup, entries i = .settled rollup → rollup = f i) {is : List Nat}
    {rollups : List (Except String (Option RollupWithTxs))}
    (h : (is.mapM fun i => match entries i with
      | .settled rollup => some rollup
      | _ => none) = some rollups) : rollups = is.map f := by
  induction is generalizing rollups with
  | nil => exact (Option.some.inj h).symm
  | cons i is ih =>
    rw [List.mapM_cons] at h
    obtain ⟨rollup, hi, h⟩ := Option.bind_eq_some_iff.mp h
    obtain ⟨rollups', his, h⟩ := Option.bind_eq_some_iff.mp h
    cases h
    rw [List.map_cons, ← ih his]
    refine congrArg (· :: rollups') ?_
    split at hi
    case h_1 rollup' heq => exact (Option.some.inj hi) ▸ hf i rollup' heq
    case h_2 => nomatch hi

/-- So is a call of `getSettledRollups` that has returned. -/
lemma Inv.get (h : Inv s) {g : Get} (hg : g ∈ s.gets)
    {result : Except String (List (Option RollupWithTxs))}
    (hresult : g.answer s.settledRollupCache = some result) :
    ∃ r, s.cache.readers[g.reader]? = some r ∧ Current s r .nextRollupId fun db =>
      result = (db.getSettledRollups g.start g.take).map (List.map some) := by
  obtain ⟨r, hr, hstop⟩ := h.gets g hg
  obtain ⟨stop, heq, hresult⟩ := Option.bind_eq_some_iff.mp hresult
  obtain ⟨rollups, hrollups, hresult⟩ := Option.bind_eq_some_iff.mp hresult
  obtain ⟨u, hu, hmin, hquiet⟩ := hstop stop heq
  refine ⟨r, hr, u, hu, ?_, hquiet⟩
  have hmap := mapM_settled h.settled hrollups
  show result = ((s.cache.hist u).getSettledRollups g.start g.take).map (List.map some)
  rw [(h.numbered u hu).getSettledRollups, ← hmin, ← (Option.some.inj hresult), hmap, List.mapM_map]
  refine mapM_congr fun i hi => (h.kept u hu).same i ?_
  have hrange := List.mem_range'_1.mp hi
  have hle := Nat.min_le_right (g.start + g.take) (s.cache.hist u).getNextRollupId
  omega

/-- No mutation is under way when the read is issued, or takes effect before it returns. -/
def Undisturbed (s : State) (r : LazyCache.Reader) : Prop :=
  r.running = [] ∧ r.version = s.cache.version

instance (s : State) (r : LazyCache.Reader) : Decidable (Undisturbed s r) := instDecidableAnd

/-- A read that nothing disturbs can return. -/
def State.Returns (s : State) (r : LazyCache.Reader) : Prop :=
  Undisturbed s r ∧ ∃ f, s.cache.refreshes[r.refresh]? = some f ∧ f.Done

instance (s : State) (r : LazyCache.Reader) : Decidable (s.Returns r) :=
  decidable_of_iff (Undisturbed s r ∧
      (s.cache.refreshes[r.refresh]?).any fun f => f.todo.isEmpty && f.got.isNone) <| by
    refine and_congr_right fun _ => (Option.any_eq_true _ _).trans (exists_congr fun f => ?_)
    rw [Bool.and_eq_true, List.isEmpty_iff, Option.isNone_iff_eq_none]
    rfl

/-- A read that no mutation disturbs is that of the database now. -/
lemma Inv.read_undisturbed (h : Inv s) {r : LazyCache.Reader} (hr : r ∈ s.cache.readers)
    {f : LazyCache.Refresh Field Field.Value} (hf : s.cache.refreshes[r.refresh]? = some f)
    (hdone : f.Done) (q : Read) (hquiet : Undisturbed s r) :
    q.answer s.cache.fields = some (q.underlying s.cache.db) := by
  obtain ⟨u, hu, hfield, hread⟩ := h.cache.fresh hr hf hdone (mem_order q.field)
  rw [hquiet.1, hquiet.2] at hread
  have hnow := h.numbered s.cache.version (Nat.le_refl _)
  rw [← hread.read_eq store hu, h.cache.now] at hfield
  rw [h.cache.now] at hnow
  rw [Read.answer, hfield, Option.map_some]
  exact congrArg some (q.ofField_read hnow)

/-- So is a call of `getSettledRollups`. -/
lemma Inv.get_undisturbed (h : Inv s) {start take : Nat} {r : LazyCache.Reader}
    {result : Except String (List (Option RollupWithTxs))}
    (hresult : Current s r .nextRollupId fun db =>
      result = (db.getSettledRollups start take).map (List.map some)) (hquiet : Undisturbed s r) :
    result = (s.cache.db.getSettledRollups start take).map (List.map some) := by
  obtain ⟨u, hu, hmoment, hread⟩ := hresult
  rw [hquiet.1, hquiet.2] at hread
  have hnow := h.numbered s.cache.version (Nat.le_refl _)
  have hnext : s.cache.db.getNextRollupId = (s.cache.hist u).getNextRollupId := by
    have heq := hread.read_eq store hu
    rw [h.cache.now] at heq
    exact heq
  rw [h.cache.now] at hnow
  rw [hmoment, hnow.getSettledRollups, (h.numbered u hu).getSettledRollups, hnext]
  refine mapM_congr fun i hi => ((h.kept u hu).same i ?_).symm
  have hrange := List.mem_range'_1.mp hi
  have hle := Nat.min_le_right (start + take) (s.cache.hist u).getNextRollupId
  omega

namespace Sample

/-- A transaction at a position. -/
def tx (position : Int) : TxDao := ⟨7, none, (0, 0), some 1, some 2, .DEPOSIT, 0, none, position, false⟩

/-- A database with a transaction that has a position but no rollup proof. -/
def db : RollupDb := RollupDb.apply (.addTxs [tx 3]) .empty

/-- The steps of a refresh. -/
def refresh : List Action :=
  (List.replicate 5 [Action.cache (.fetch 0), Action.cache (.store 0)]).flatten

/-- A transaction is added, and read. -/
def add : List Action := [.cache (.effect (.addTxs [tx 3])), .cache (.complete 0), .cache .issue] ++ refresh

/-- A read, a reset of the positions, and another read. -/
def reset : List Action := [.cache .issue] ++ refresh ++
  [.cache (.effect .resetPositionOnTxsWithoutRollupProof), .cache (.complete 0), .cache .issue]

end Sample

instance (s : State) (a : Action) : Decidable (Kept s a) := by
  cases a with
  | cache a =>
    cases a with
    | effect m =>
      unfold Kept PositionsKept
      cases m <;> exact instDecidableAnd
    | complete k => exact instDecidableTrue
    | issue => exact instDecidableTrue
    | fetch k => exact instDecidableTrue
    | store k =>
      unfold Kept LazyCache.Kept
      dsimp only
      split <;> infer_instance
  | getSettledRollups start take => exact instDecidableTrue
  | resume k => exact instDecidableTrue
  | fetchRollup id => exact instDecidableTrue

/-- A read of the cache is a read of the database, at a moment which misses no mutation that was
complete when the read was issued; if none disturbs it, of the database as it is. -/
theorem cachedReads_fresh {db : RollupDb} (hdb : db.Numbered) {as : List Action}
    (h : Run (Guarded (Steps step) Kept) (State.init db) as s) :
    (∀ r ∈ s.cache.readers, ∀ f, s.cache.refreshes[r.refresh]? = some f → f.Done → ∀ q : Read,
      Current s r q.field (fun db => q.answer s.cache.fields = some (q.underlying db)) ∧
      (Undisturbed s r → q.answer s.cache.fields = some (q.underlying s.cache.db))) ∧
    ∀ g ∈ s.gets, ∀ result, g.answer s.settledRollupCache = some result →
      ∃ r, s.cache.readers[g.reader]? = some r ∧
        Current s r .nextRollupId (fun db =>
          result = (db.getSettledRollups g.start g.take).map (List.map some)) ∧
        (Undisturbed s r →
          result = (s.cache.db.getSettledRollups g.start g.take).map (List.map some)) := by
  have hinv : Inv s := h.invariant (inv_init hdb) fun _ _ _ => inv_step
  refine ⟨fun r hr f hf hdone q => ⟨hinv.read hr hf hdone q, hinv.read_undisturbed hr hf hdone q⟩,
    fun g hg result hresult => ?_⟩
  obtain ⟨r, hr, hcurrent⟩ := hinv.get hg hresult
  exact ⟨r, hr, hcurrent, hinv.get_undisturbed hcurrent⟩

/-- A transaction is added, and the cache refreshed. -/
theorem cachedReads_fresh_sample : ∃ s, Run (Guarded (Steps step) Kept) (State.init .empty)
    Sample.add s ∧ Read.getUnsettledTxs.answer s.cache.fields = some [Sample.tx 3] := by
  have h : ((exec (Transition.guard step Kept) (State.init .empty) Sample.add).map fun s =>
      decide ((∃ r ∈ s.cache.readers, s.Returns r) ∧
        s.cache.db.getUnsettledTxs = [Sample.tx 3])) = some true := by decide +kernel
  obtain ⟨s, hs, hread⟩ := Option.map_eq_some_iff.mp h
  obtain ⟨⟨r, hr, hquiet, f, hf, hdone⟩, hdb⟩ := of_decide_eq_true hread
  have hrun := Transition.exec_guard_run hs
  have hfresh := (cachedReads_fresh (by decide) hrun).1 r hr f hf hdone .getUnsettledTxs
  exact ⟨s, hrun, (hfresh.2 hquiet).trans (congrArg some hdb)⟩

/-- The position that the cache returns after the reset. -/
theorem resetPosition_stale : ∃ s, Run (Steps step) (State.init Sample.db) Sample.reset s ∧
    (∃ r ∈ s.cache.readers, s.Returns r) ∧
    Read.getUnsettledTxs.answer s.cache.fields = some [Sample.tx 3] ∧
    Read.getUnsettledTxs.underlying s.cache.db = [Sample.tx (-1)] := by
  have h : ((exec step (State.init Sample.db) Sample.reset).map fun s =>
      decide ((∃ r ∈ s.cache.readers, s.Returns r) ∧
        s.cache.fields .unsettledTxs = some [Sample.tx 3] ∧
        s.cache.db.getUnsettledTxs = [Sample.tx (-1)])) = some true := by decide +kernel
  obtain ⟨s, hs, hread⟩ := Option.map_eq_some_iff.mp h
  obtain ⟨hr, hfield, hdb⟩ := of_decide_eq_true hread
  refine ⟨s, Transition.exec_run hs, hr, ?_, hdb⟩
  rw [Read.answer, show s.cache.fields Read.getUnsettledTxs.field = some [Sample.tx 3] from hfield]
  rfl

end AztecConnect.Falafel.CachedRollupDb
