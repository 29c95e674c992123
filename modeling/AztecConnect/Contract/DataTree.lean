import AztecConnect.Contract.Books

/-!
# The leaves of the data tree

An accepted rollup claims the leaves `[dataStartIndex, dataStartIndex + numDataLeaves)` of the data
tree. `validateAndUpdateMerkleRoots` computes where they may start with unchecked 32-bit arithmetic;
`nextMultiple` is the same index over the integers. As long as every range ends below 2³²
(`Entry.FitsTree`), the ranges of a run are aligned and disjoint (`leafRanges_disjoint`). A range
that reaches 2³² is accepted too, and empties the recorded tree (`leafRanges_wrap`).
-/

namespace AztecConnect.Contract

open Resumption Bits

variable {P : Params} {answers : ExternalCall → State → Reply → Prop}

/-! ## Subtree boundaries -/

/-- The least multiple of `n` from `stored` on. -/
def nextMultiple (stored n : Nat) : Nat :=
  if stored % n = 0 then stored else stored + n - stored % n

/-- The next multiple is a multiple. -/
lemma dvd_nextMultiple (stored n : Nat) : n ∣ nextMultiple stored n := by
  rw [nextMultiple]
  split
  · exact Nat.dvd_of_mod_eq_zero ‹_›
  · have hsplit : stored + n - stored % n = stored - stored % n + n := by
      have := Nat.mod_le stored n
      omega
    rw [hsplit]
    exact Nat.dvd_add (Nat.dvd_sub_mod stored) (Nat.dvd_refl n)

/-- It is not below the stored size. -/
lemma le_nextMultiple (stored : Nat) {n : Nat} (hn : 0 < n) : stored ≤ nextMultiple stored n := by
  rw [nextMultiple]
  split
  · exact Nat.le_refl _
  · have := Nat.mod_lt stored hn
    omega

/-- Without overflow, the boundary of the source is the least multiple. -/
lemma toNat_nextBoundary {stored n : BitVec 32}
    (h : nextMultiple stored.toNat n.toNat < 2 ^ 32) :
    (nextBoundary stored n).toNat = nextMultiple stored.toNat n.toNat := by
  have hmod : (stored % n).toNat = stored.toNat % n.toNat := BitVec.toNat_umod ..
  have hzero : stored % n = 0 ↔ stored.toNat % n.toNat = 0 := by
    rw [← hmod]
    exact ⟨fun h => by rw [h]; rfl, fun h => BitVec.eq_of_toNat_eq h⟩
  rw [nextBoundary, nextMultiple]
  rw [nextMultiple] at h
  by_cases hs : stored % n = 0
  · rw [if_pos hs, if_pos (hzero.mp hs)]
  · rw [if_neg hs, if_neg (mt hzero.mpr hs)]
    rw [if_neg (mt hzero.mpr hs)] at h
    have hle : stored.toNat % n.toNat ≤ stored.toNat := Nat.mod_le _ _
    rw [BitVec.toNat_sub, BitVec.toNat_add, hmod]
    omega

/-! ## Ranges -/

/-- The leaves of one rollup. -/
structure LeafRange where
  start : Nat
  size : Nat
  deriving DecidableEq

/-- The first leaf behind the range. -/
def LeafRange.stop (r : LeafRange) : Nat := r.start + r.size

/-- The header of a rollup and what `computeRootHashes` makes of it. -/
def Entry.rollup? (P : Params) : Entry → Option (ProofData × RootHashes)
  | .processRollup _ c => do
    let (p, _) ← c.decoded P
    let h ← (computeRootHashes P p).toOption
    return (p, h)
  | _ => none

/-- The leaves of a rollup, as its header hash has them. -/
def RootHashes.leafRange (h : RootHashes) : LeafRange :=
  ⟨h.dataStartIndex.toNat, h.numDataLeaves.toNat⟩

/-- The accepted rollups of a history. -/
def rollups (P : Params) (history : History) : List (ProofData × RootHashes) :=
  history.filterMap fun call => call.entry.rollup? P

/-- The leaves of the accepted rollups. -/
def leafRanges (P : Params) (history : History) : List LeafRange :=
  (rollups P history).map fun rollup => rollup.2.leafRange

/-- The subtree of the rollup ends before the last leaf of the tree. -/
def Entry.FitsTree (P : Params) (e : Entry) (stored : Nat) : Prop :=
  ∀ p h, e.rollup? P = some (p, h) →
    nextMultiple stored h.numDataLeaves.toNat + h.numDataLeaves.toNat < 2 ^ 32

/-- What one accepted rollup does to the size of the tree and to the state hash. -/
structure Appended (P : Params) (p : ProofData) (h : RootHashes) (s s' : State) : Prop where
  pos : 0 < h.leafRange.size
  /-- No sum of the index arithmetic wraps. -/
  noWrap : s.datasize.toNat + h.leafRange.size < 2 ^ 32 ∧ h.leafRange.stop < 2 ^ 32
  start : h.leafRange.start = nextMultiple s.datasize.toNat h.leafRange.size
  aligned : h.leafRange.size ∣ h.leafRange.start
  above : s.datasize.toNat ≤ h.leafRange.start
  datasize : s'.datasize.toNat = h.leafRange.stop
  oldState : s.rollupStateHash = P.keccak256 p.oldStateTuple
  newState : s'.rollupStateHash = P.keccak256 p.newStateTuple
  nextId : (p.getRollupId + 1).toNat = p.getRollupId.toNat + 1

/-- The two state hashes are those of the header's tuples. -/
lemma computeRootHashes_eq {p : ProofData} {h : RootHashes} (hr : computeRootHashes P p = .ok h) :
    h.oldStateHash = P.keccak256 p.oldStateTuple ∧ h.newStateHash = P.keccak256 p.newStateTuple := by
  simp only [computeRootHashes] at hr
  split at hr
  · cases hr
  · cases hr
    exact ⟨rfl, rfl⟩

/-- An accepted rollup that fits appends its leaves. -/
lemma Books.Rolled.appended {p : ProofData} {ts : List InnerTx} {h : RootHashes} {s s' : State}
    (hr : s.books.Rolled P p ts h s'.books)
    (hfits : nextMultiple s.datasize.toNat h.numDataLeaves.toNat + h.numDataLeaves.toNat < 2 ^ 32) :
    Appended P p h s s' := by
  obtain ⟨hold, hnew⟩ := computeRootHashes_eq hr.roots
  have hpos : 0 < h.numDataLeaves.toNat :=
    Nat.pos_of_ne_zero fun h0 => hr.leaves (BitVec.eq_of_toNat_eq h0)
  have hle := le_nextMultiple s.datasize.toNat hpos
  have hstart : h.dataStartIndex.toNat = nextMultiple s.datasize.toNat h.numDataLeaves.toNat :=
    (congrArg BitVec.toNat hr.start).trans (toNat_nextBoundary (Nat.lt_of_add_right_lt hfits))
  refine ⟨hpos, ⟨?_, ?_⟩, hstart, ?_, ?_, ?_, ?_, hr.stateHash.trans hnew, ?_⟩
  · simp only [RootHashes.leafRange]
    omega
  · simp only [LeafRange.stop, RootHashes.leafRange]
    omega
  · simp only [RootHashes.leafRange, hstart]
    exact dvd_nextMultiple _ _
  · simp only [RootHashes.leafRange, hstart]
    exact hle
  · have hsize : s'.datasize = h.dataStartIndex + h.numDataLeaves := hr.datasize
    rw [hsize, BitVec.toNat_add]
    simp only [LeafRange.stop, RootHashes.leafRange]
    omega
  · exact hr.oldState.symm.trans hold
  · have hid := hr.rollupId
    simp only [NUMBER_OF_BRIDGE_CALLS] at hid
    bv_omega

/-! ## Runs -/

/-- The size of the tree after the rollups of a history, from `n` leaves on. -/
def sizeAfter (P : Params) (n : Nat) (history : History) : Nat :=
  ((leafRanges P history).getLast?.map LeafRange.stop).getD n

/-- The state hash after the rollups of a history. -/
def stateHashAfter (P : Params) (h : Word) (history : History) : Word :=
  ((rollups P history).getLast?.map fun rollup => P.keccak256 rollup.1.newStateTuple).getD h

/-- In a run from `s` to `s'`, every accepted rollup appends its leaves above those of all earlier
ones, and the state hash commits to the last. -/
structure AppendsLeaves (P : Params) (history : History) (s s' : State) : Prop where
  disjoint : (leafRanges P history).Pairwise fun r r' => r.stop ≤ r'.start
  above : ∀ r ∈ leafRanges P history, s.datasize.toNat ≤ r.start
  appended : ∀ call ∈ history, ∀ p h, call.entry.rollup? P = some (p, h) →
    Appended P p h call.before call.after
  datasize : s'.datasize.toNat = sizeAfter P s.datasize.toNat history
  stateHash : s'.rollupStateHash = stateHashAfter P s.rollupStateHash history

section Runs

variable {s s₁ s₂ : State} {history : History} {e : Entry} {tr : Trace} {a : Option Bool}

/-- A step that is no accepted rollup adds none. -/
lemma rollups_snoc_none (he : e.rollup? P = none) :
    rollups P (history ++ [⟨e, s₁, tr, a, s₂⟩]) = rollups P history := by
  simp only [rollups, List.filterMap_append, List.filterMap_cons, he, List.filterMap_nil,
    List.append_nil]

/-- An accepted rollup is added at the end. -/
lemma rollups_snoc_some {r : ProofData × RootHashes} (he : e.rollup? P = some r) :
    rollups P (history ++ [⟨e, s₁, tr, a, s₂⟩]) = rollups P history ++ [r] := by
  simp only [rollups, List.filterMap_append, List.filterMap_cons, he, List.filterMap_nil]

/-- Calls other than rollups leave the tree alone. -/
lemma AppendsLeaves.skip (h : AppendsLeaves P history s s₁) (he : e.rollup? P = none)
    (hsize : s₂.datasize = s₁.datasize) (hhash : s₂.rollupStateHash = s₁.rollupStateHash) :
    AppendsLeaves P (history ++ [⟨e, s₁, tr, a, s₂⟩]) s s₂ := by
  have hrollups : rollups P (history ++ [⟨e, s₁, tr, a, s₂⟩]) = rollups P history :=
    rollups_snoc_none he
  have hranges : leafRanges P (history ++ [⟨e, s₁, tr, a, s₂⟩]) = leafRanges P history := by
    rw [leafRanges, hrollups]
    rfl
  refine ⟨?_, ?_, ?_, ?_, ?_⟩
  · rw [hranges]
    exact h.disjoint
  · rw [hranges]
    exact h.above
  · intro call hcall p r hr
    rcases List.mem_append.mp hcall with hcall | hcall
    · exact h.appended call hcall p r hr
    · rw [List.mem_singleton] at hcall
      subst hcall
      rw [he] at hr
      cases hr
  · rw [hsize, h.datasize, sizeAfter, sizeAfter, hranges]
  · rw [hhash, h.stateHash, stateHashAfter, stateHashAfter, hrollups]

/-- Every range of a run ends where the recorded tree ends, or before. -/
lemma AppendsLeaves.stop_le (h : AppendsLeaves P history s s₁) :
    ∀ r ∈ leafRanges P history, r.stop ≤ s₁.datasize.toNat := by
  intro r hr
  have hd := h.disjoint
  rw [h.datasize, sizeAfter]
  obtain ⟨rs, last, hsplit⟩ := (List.eq_nil_or_concat' (leafRanges P history)).resolve_left
    (List.ne_nil_of_mem hr)
  rw [hsplit] at hr hd ⊢
  rw [List.getLast?_concat]
  rcases List.mem_append.mp hr with hr | hr
  · have hle := (List.pairwise_append.mp hd).2.2 r hr last List.mem_cons_self
    exact hle.trans (Nat.le_add_right _ _)
  · rw [List.mem_singleton] at hr
    rw [hr]
    exact Nat.le_refl _

/-- One more rollup. -/
lemma AppendsLeaves.append {p : ProofData} {r : RootHashes} (h : AppendsLeaves P history s s₁)
    (he : e.rollup? P = some (p, r)) (ha : Appended P p r s₁ s₂)
    (hle : s.datasize.toNat ≤ s₁.datasize.toNat) :
    AppendsLeaves P (history ++ [⟨e, s₁, tr, a, s₂⟩]) s s₂ := by
  have hrollups : rollups P (history ++ [⟨e, s₁, tr, a, s₂⟩]) = rollups P history ++ [(p, r)] :=
    rollups_snoc_some he
  have hranges : leafRanges P (history ++ [⟨e, s₁, tr, a, s₂⟩]) =
      leafRanges P history ++ [r.leafRange] := by
    rw [leafRanges, hrollups, List.map_append]
    rfl
  refine ⟨?_, ?_, ?_, ?_, ?_⟩
  · rw [hranges, List.pairwise_append]
    refine ⟨h.disjoint, List.pairwise_singleton _ _, ?_⟩
    intro r' hr' last hlast
    rw [List.mem_singleton] at hlast
    rw [hlast]
    exact (h.stop_le r' hr').trans ha.above
  · intro r' hr'
    rw [hranges] at hr'
    rcases List.mem_append.mp hr' with hr' | hr'
    · exact h.above r' hr'
    · rw [List.mem_singleton] at hr'
      rw [hr']
      exact hle.trans ha.above
  · intro call hcall p' r' hr'
    rcases List.mem_append.mp hcall with hcall | hcall
    · exact h.appended call hcall p' r' hr'
    · rw [List.mem_singleton] at hcall
      subst hcall
      rw [he] at hr'
      cases hr'
      exact ha
  · rw [ha.datasize, sizeAfter, hranges, List.getLast?_concat]
    rfl
  · rw [ha.newState, stateHashAfter, hrollups, List.getLast?_concat]
    rfl

/-- The tree is written by rollups only. -/
lemma BookStep.tree {b b' : Books} (h : BookStep P e b b') :
    (e.rollup? P = none ∧ b'.datasize = b.datasize ∧ b'.stateHash = b.stateHash) ∨
      ∃ p ts r, e.rollup? P = some (p, r) ∧ b.Rolled P p ts r b' := by
  cases e with
  | processRollup x c =>
    obtain ⟨p, numTxs, hashedSlots, r, hdec, hr⟩ := h
    refine .inr ⟨p, _, r, ?_, hr⟩
    simp only [Entry.rollup?, hdec, Option.bind_eq_bind, Option.bind_some, hr.roots,
      Except.toOption]
    rfl
  | depositPendingFunds x assetId amount owner proofHash =>
    obtain ⟨caps, newPending, -, -, rfl⟩ := Books.deposit_inv h
    exact .inl ⟨rfl, rfl, rfl⟩
  | setCapped x isCapped =>
    obtain rfl : b' = _ := h
    exact .inl ⟨rfl, rfl, rfl⟩
  | setAssetCap x assetId pendingCap dailyCap precision =>
    obtain ⟨-, -, rfl⟩ := Books.setAssetCap_inv h
    exact .inl ⟨rfl, rfl, rfl⟩
  | _ =>
    obtain rfl : b' = b := h
    exact .inl ⟨rfl, rfl, rfl⟩

end Runs

/-- If the subtree of every rollup of a run fits into the tree, the leaf ranges are aligned, disjoint
and increasing, nothing wraps, and the state hash commits to the last rollup. -/
theorem leafRanges_disjoint {s s' : State} {history : History}
    (hs : s.lock = Lock.UNLOCKED.toWord) (h : Run (V2.world P answers) s history s')
    (hfits : ∀ call ∈ history, call.entry.FitsTree P call.before.datasize.toNat) :
    AppendsLeaves P history s s' := by
  have hrun := Run.bookInvariant
    (I := fun history s' => (∀ call ∈ history, call.entry.FitsTree P call.before.datasize.toNat) →
      AppendsLeaves P history s s' ∧ s.datasize.toNat ≤ s'.datasize.toNat) hs h
    (fun _ => ⟨⟨.nil, by simp [leafRanges, rollups], by simp, rfl, rfl⟩, Nat.le_refl _⟩) ?_
  · exact (hrun.2 hfits).1
  intro history s₁ s₂ e tr a ih hstep hall
  obtain ⟨hleaves, hle⟩ := ih fun call hcall => hall call (List.mem_append_left _ hcall)
  rcases hstep.tree with ⟨he, hsize, hhash⟩ | ⟨p, ts, r, he, hr⟩
  · have hsize' : s₂.datasize = s₁.datasize := hsize
    refine ⟨hleaves.skip he hsize' hhash, ?_⟩
    rw [hsize']
    exact hle
  · have happ := hr.appended (hall _ (List.mem_append_right _ List.mem_cons_self) p r he)
    refine ⟨hleaves.append he happ hle, ?_⟩
    rw [happ.datasize]
    exact hle.trans (happ.above.trans (Nat.le_add_right _ _))

/-- The range of a history of one rollup. -/
lemma leafRanges_single {e : Entry} {s s' : State} {tr : Trace} {a : Option Bool} {r : LeafRange}
    (h : (e.rollup? P).map (·.2.leafRange) = some r) :
    leafRanges P [⟨e, s, tr, a, s'⟩] = [r] := by
  obtain ⟨x, hx, rfl⟩ := Option.map_eq_some_iff.mp h
  simp only [leafRanges, rollups, List.filterMap_cons, hx, List.filterMap_nil, List.map_cons,
    List.map_nil]

/-- Two rollups: the second one has twice the size, and starts at a multiple of it. -/
theorem leafRanges_disjoint_sample :
    ∃ history s, Run TwoRollups.world Sample.genesis history s ∧
      leafRanges TwoRollups.params history = [⟨0, 2⟩, ⟨4, 4⟩] ∧
      AppendsLeaves TwoRollups.params history Sample.genesis s := by
  have hrun : TwoRollups.exec.map (fun r => (leafRanges TwoRollups.params r.1,
      r.1.all fun call => (call.entry.rollup? TwoRollups.params).all fun rollup =>
        nextMultiple call.before.datasize.toNat rollup.2.numDataLeaves.toNat +
          rollup.2.numDataLeaves.toNat < 2 ^ 32)) = some ([⟨0, 2⟩, ⟨4, 4⟩], true) := by
    decide +kernel
  obtain ⟨⟨history, s⟩, hs, heq⟩ := Option.map_eq_some_iff.mp hrun
  simp only [Prod.mk.injEq, List.all_eq_true] at heq
  obtain ⟨hranges, hfits⟩ := heq
  have hR := TwoRollups.exec_run hs
  refine ⟨history, s, hR, hranges, leafRanges_disjoint (by decide +kernel) hR ?_⟩
  intro call hcall p r hr
  have hcall' := hfits call hcall
  rw [hr, Option.all_some, decide_eq_true_eq] at hcall'
  exact hcall'

/-! ## The last leaves -/

namespace LastLeaves

/-- The header of the sample rollup, for the last two leaves of the tree. -/
def header (i : Nat) : Word := if i = 2 then 4294967294 else Sample.header i

/-- The call of a sample header, without inner transactions. -/
def call : RollupCall := ⟨Sample.calldata header, fun _ => InnerTx.zero⟩

/-- The parameters of the sample, with the digest of this header. -/
def params : Params :=
  { Sample.params with
    sha256 := fun ws =>
      if ws = (List.range 142).map header ++
          [0x22dd983f8337d97d56071f7986209ab2ee6039a422242e89126701c6ee005af0] then
        0x7dc6336970a25269176ace7d470a1f026b4b860080c95ee6883be716e9c911f2
      else Sample.params.sha256 ws }

/-- The sample deployment, initialised with all but two leaves filled. -/
def genesis : State :=
  { Sample.genesis with rollupState := BitVec.ofNat 256 (3 + 4294967294 * 2 ^ 160) }

/-- The sample deployment is one. -/
lemma genesis_spec : Genesis params genesis where
  unlocked := by decide
  numAsync := by decide
  numDefi := by decide
  pending _ := rfl
  deposits _ _ := rfl
  stateHash := ⟨11, 21, 31, by decide⟩
  prevHash := rfl
  logs := by simp [genesis, Sample.genesis]

end LastLeaves

/-- A rollup that fills the last two leaves is accepted, and the tree is recorded as empty. -/
theorem leafRanges_wrap : ∃ history s, Genesis LastLeaves.params LastLeaves.genesis ∧
    Run (V2.world LastLeaves.params fun _ _ _ => True) LastLeaves.genesis history s ∧
    leafRanges LastLeaves.params history = [⟨4294967294, 2⟩] ∧ s.datasize = 0 ∧
    ¬ AppendsLeaves LastLeaves.params history LastLeaves.genesis s := by
  have hrun : ((V2.world LastLeaves.params fun _ _ _ => True).exec Sample.answer
      [.processRollup Sample.context LastLeaves.call] [] LastLeaves.genesis).map
        (·.2.datasize) = some 0 := by decide +kernel
  obtain ⟨⟨history, s⟩, hs, hzero⟩ := Option.map_eq_some_iff.mp hrun
  have hroll : (Entry.rollup? LastLeaves.params (.processRollup Sample.context
      LastLeaves.call)).map (·.2.leafRange) = some ⟨4294967294, 2⟩ := by decide +kernel
  have hR := World.exec_run (fun _ _ => trivial) .nil hs
  obtain ⟨tr, a, rfl⟩ := World.exec_single hs
  have hranges : leafRanges LastLeaves.params [⟨.processRollup Sample.context LastLeaves.call,
      LastLeaves.genesis, tr, a, s⟩] = [⟨4294967294, 2⟩] := leafRanges_single hroll
  refine ⟨_, s, LastLeaves.genesis_spec, hR, hranges, hzero, ?_⟩
  intro happ
  have hsize := happ.datasize
  rw [sizeAfter, hranges] at hsize
  have hzero' : s.datasize = 0 := hzero
  rw [hzero'] at hsize
  exact absurd hsize (by decide)

end AztecConnect.Contract
