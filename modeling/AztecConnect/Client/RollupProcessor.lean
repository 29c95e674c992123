import AztecConnect.Client.BridgeCallData
import Mathlib.Algebra.Group.Nat.Defs
import Mathlib.Data.Finset.Card
import Mathlib.Data.List.MinMax

/-!
# The defi interaction notes of a rollup, in the client

Translation of `computeInteractionHashes` of `barretenberg.js/src/note_algorithms`, and of
`getDefiBridgeEventsForRollupEvents` and `defiNotesForBlock` of
`blockchain/src/contracts/rollup_processor`: the client searches the events of the contract backwards
for the notes whose hashes a rollup lists. A buffer of 32 bytes is the number it represents, and
`sha256` is a function of such buffers.

The search finds every hash that is the hash of an event after the earliest block and not after the
rollup (`getDefiBridgeEventsForRollupEvents_finds`), if all events decode.
-/

namespace AztecConnect.Client

/-! ## Interaction notes -/

/-- `DefiInteractionNote`. -/
structure DefiInteractionNote where
  bridgeCallData : BridgeCallData
  nonce : Nat
  totalInputValue : Nat
  totalOutputValueA : Nat
  totalOutputValueB : Nat
  result : Bool

/-- `DefiInteractionNote.EMPTY`. -/
def DefiInteractionNote.EMPTY : DefiInteractionNote := ⟨⟨0, 0, 0, none, none, 0⟩, 0, 0, 0, 0, false⟩

/-- The modulus of the field. -/
def groupModulus : Nat :=
  21888242871839275222246405745257275088548364400416034343698204186575808495617

/-- The last four bytes of a buffer are written. -/
def numToUInt32BE (n : Nat) : Except String Nat :=
  if n < 2 ^ 32 then .ok n else .error "ERR_OUT_OF_RANGE"

/-- The hash of an interaction. -/
def interactionHash (sha256 : List Nat → Nat) (note : DefiInteractionNote) : Except String Nat := do
  let nonce ← numToUInt32BE note.nonce
  return toBufferBE (sha256 [toBufferBE note.bridgeCallData.toBigInt 32, nonce,
    toBufferBE note.totalInputValue 32, toBufferBE note.totalOutputValueA 32,
    toBufferBE note.totalOutputValueB 32, note.result.toNat] % groupModulus) 32

/-- `computeInteractionHashes`, padded with the empty note. -/
def computeInteractionHashes (sha256 : List Nat → Nat) (notes : List DefiInteractionNote)
    (padTo : Nat) : Except String (List Nat) :=
  if padTo < notes.length then .error "Invalid array length"
  else (notes ++ List.replicate (padTo - notes.length) DefiInteractionNote.EMPTY).mapM (interactionHash sha256)

/-! ## Events -/

/-- A `DefiBridgeProcessed` event and the block it is in. -/
structure DefiBridgeProcessed where
  blockNumber : Nat
  encodedBridgeCallData : Nat
  nonce : Nat
  totalInputValue : Nat
  totalOutputValueA : Nat
  totalOutputValueB : Nat
  result : Bool

/-- A `RollupProcessed` event and the block it is in. -/
structure RollupProcessed where
  blockNumber : Nat
  rollupId : Nat
  nextExpectedDefiHashes : List Nat

/-- Where a search starts, and how many blocks it takes at once. -/
structure EarliestBlock where
  earliestBlock : Nat
  chunk : Nat

/-- `getEarliestBlock`. -/
def getEarliestBlock (chainId : Nat) : EarliestBlock :=
  if chainId = 1 then ⟨14728000, 100000⟩
  else if chainId = 0xa57ec ∨ chainId = 0xdef ∨ chainId = 0x57a93 then ⟨15918000, 100000⟩
  else if chainId = 0xe2e then ⟨15918000, 10⟩
  else if chainId = 1337 then ⟨0, 10⟩
  else ⟨0, 100000⟩

/-- The events between two blocks, in order. -/
def queryFilter (events : List DefiBridgeProcessed) (startBlock endBlock : Nat) :
    List DefiBridgeProcessed :=
  events.filter fun log => startBlock ≤ log.blockNumber ∧ log.blockNumber ≤ endBlock

/-- Decodes a `DefiBridgeProcessed` event. -/
def decodeEvent (log : DefiBridgeProcessed) : Except String DefiInteractionNote := do
  let bridgeCallData ← BridgeCallData.fromBigInt log.encodedBridgeCallData
  return ⟨bridgeCallData, log.nonce, log.totalInputValue, log.totalOutputValueA,
    log.totalOutputValueB, log.result⟩

/-- An object with hashes as keys; a key of which the note has not been found is `undefined`. -/
abbrev HashMapping := Nat → Option (Option DefiInteractionNote)

/-- The hashes that are looked for. -/
def HashMapping.ofHashes (rollupHashes : List Nat) : HashMapping :=
  rollupHashes.foldl (fun m hash => Function.update m hash (some none)) fun _ => none

/-- The variables of the search. -/
structure Search where
  hashMapping : HashMapping
  numHashesToFind : Nat

/-- The body of the loop over the decoded events. -/
def Search.store (sha256 : List Nat → Nat) (st : Search) (decodedNote : DefiInteractionNote) :
    Except String Search := do
  let noteHash := (← computeInteractionHashes sha256 [decodedNote] 1).headD 0
  match st.hashMapping noteHash with
  | some none => return ⟨Function.update st.hashMapping noteHash (some (some decodedNote)),
      st.numHashesToFind - 1⟩
  | _ => return st

/-- The body of the search loop. -/
def Search.searchBlocks (sha256 : List Nat → Nat) (events : List DefiBridgeProcessed)
    (startBlock endBlock : Nat) (st : Search) : Except String Search := do
  let decodedEvents ← (queryFilter events startBlock endBlock).mapM decodeEvent
  decodedEvents.foldlM (Search.store sha256) st

/-- The search loop; the start block is a function of the end block. -/
def Search.loop (sha256 : List Nat → Nat) (events : List DefiBridgeProcessed) (e : EarliestBlock)
    (endBlock : Nat) (st : Search) : Except String Search :=
  if h : e.earliestBlock < endBlock ∧ 0 < st.numHashesToFind then do
    let startBlock := max (endBlock - e.chunk) e.earliestBlock
    let st ← st.searchBlocks sha256 events startBlock endBlock
    Search.loop sha256 events e (max (startBlock - 1) e.earliestBlock) st
  else .ok st
  termination_by endBlock
  decreasing_by omega

/-- `getDefiBridgeEventsForRollupEvents`. -/
def getDefiBridgeEventsForRollupEvents (sha256 : List Nat → Nat) (chainId : Nat)
    (events : List DefiBridgeProcessed) (rollupEvents : List RollupProcessed) :
    Except String HashMapping := do
  let rollupHashes := rollupEvents.flatMap (·.nextExpectedDefiHashes)
  let e := getEarliestBlock chainId
  let highestBlockNumber := (rollupEvents.map (·.blockNumber)).foldr max 0
  let st ← Search.loop sha256 events e (max highestBlockNumber e.earliestBlock)
    ⟨.ofHashes rollupHashes, rollupHashes.length⟩
  return st.hashMapping

/-- A hash as 64 hexadecimal digits. -/
def hexDigits (hash : Nat) : String :=
  let digits := Nat.toDigits 16 hash
  String.ofList (List.replicate (64 - digits.length) '0' ++ digits)

/-- The notes of the hashes of a rollup. A hash that was not found throws. -/
def defiNotesForBlock (event : RollupProcessed) (allDefiNotes : HashMapping) :
    Except String (List DefiInteractionNote) :=
  event.nextExpectedDefiHashes.mapM fun hash =>
    match allDefiNotes hash with
    | some (some note) => .ok note
    | _ => .error ("Unable to locate defi interaction note for hash " ++ hexDigits hash ++
        " in rollup " ++ toString event.rollupId ++ "!")

/-! ## The search finds what it looks for -/

/-- A single note has a single hash. -/
lemma computeInteractionHashes_singleton (sha256 : List Nat → Nat) (note : DefiInteractionNote) :
    computeInteractionHashes sha256 [note] 1 = (interactionHash sha256 note).map ([·]) := by
  show ([note] ++ []).mapM (interactionHash sha256) = _
  rw [List.append_nil, List.mapM_cons]
  cases interactionHash sha256 note with
  | error e => rfl
  | ok h => rfl

section Search

variable {sha256 : List Nat → Nat} {events : List DefiBridgeProcessed}
  {hashOf : DefiBridgeProcessed → Nat} {st : Search}

/-- The event decodes to a note with this hash. -/
def DefiBridgeProcessed.Hashes (sha256 : List Nat → Nat) (log : DefiBridgeProcessed) (h : Nat) :
    Prop :=
  ∃ note, decodeEvent log = .ok note ∧ computeInteractionHashes sha256 [note] 1 = .ok [h]

/-- The hashes the search has still to find. -/
def Search.Unfound (st : Search) (h : Nat) : Prop := st.hashMapping h = some none

/-- There are no more of them than the search counts. -/
def Search.Counted (st : Search) : Prop :=
  ∃ unfound : Finset Nat, (∀ h, h ∈ unfound ↔ st.Unfound h) ∧ unfound.card ≤ st.numHashesToFind

/-- The search has gone on, and found exactly the hashes `found` of those it looks for. -/
structure Search.Finds (found : Nat → Prop) (st st' : Search) : Prop where
  counted : st'.Counted
  unfound : ∀ h, st'.Unfound h ↔ st.Unfound h ∧ ¬ found h
  keys : ∀ h, st'.hashMapping h = none ↔ st.hashMapping h = none

/-- One note. -/
lemma Search.store_finds (hst : st.Counted) {note : DefiInteractionNote} {h : Nat}
    (hn : computeInteractionHashes sha256 [note] 1 = .ok [h]) :
    ∃ st', st.store sha256 note = .ok st' ∧ Search.Finds (· = h) st st' := by
  obtain ⟨unfound, hmem, hcard⟩ := hst
  have hstore : st.store sha256 note = match st.hashMapping h with
      | some none => .ok ⟨Function.update st.hashMapping h (some (some note)),
          st.numHashesToFind - 1⟩
      | _ => .ok st := by
    rw [Search.store, hn]
    rfl
  rw [hstore]
  by_cases hun : st.Unfound h
  · rw [hun]
    refine ⟨_, rfl, ⟨unfound.erase h, fun k => ?_, ?_⟩, fun k => ?_, fun k => ?_⟩
    · rw [Finset.mem_erase, hmem, Search.Unfound]
      rcases eq_or_ne k h with rfl | hne
      · simp [Search.Unfound]
      · simp [Search.Unfound, hne]
    · rw [Finset.card_erase_of_mem ((hmem h).mpr hun)]
      exact Nat.sub_le_sub_right hcard 1
    · rcases eq_or_ne k h with rfl | hne
      · simp [Search.Unfound]
      · simp [Search.Unfound, hne]
    · rcases eq_or_ne k h with rfl | hne
      · have hkey : st.hashMapping k = some none := hun
        simp [hkey]
      · simp [hne]
  · refine ⟨st, ?_, ⟨unfound, hmem, hcard⟩, fun k => ?_, fun k => Iff.rfl⟩
    · split
      · exact absurd ‹_› hun
      · rfl
    · refine ⟨fun hk => ⟨hk, ?_⟩, fun hk => hk.1⟩
      rintro rfl
      exact hun hk

/-- Two searches find what each finds. -/
lemma Search.Finds.trans {found found' : Nat → Prop} {st st' st'' : Search}
    (h : Search.Finds found st st') (h' : Search.Finds found' st' st'') :
    Search.Finds (fun k => found k ∨ found' k) st st'' where
  counted := h'.counted
  unfound k := by rw [h'.unfound, h.unfound, not_or, and_assoc]
  keys k := (h'.keys k).trans (h.keys k)

/-- What is found may be said in another way. -/
lemma Search.Finds.of_iff {found found' : Nat → Prop} {st st' : Search}
    (h : Search.Finds found st st') (hiff : ∀ k, found k ↔ found' k) :
    Search.Finds found' st st' :=
  ⟨h.counted, fun k => by rw [h.unfound, hiff], h.keys⟩

/-- The events of some blocks. -/
lemma Search.store_all (logs : List DefiBridgeProcessed)
    (hlogs : ∀ log ∈ logs, log.Hashes sha256 (hashOf log)) (hst : st.Counted) :
    ∃ notes st', logs.mapM decodeEvent = .ok notes ∧
      notes.foldlM (Search.store sha256) st = .ok st' ∧
      Search.Finds (fun h => ∃ log ∈ logs, hashOf log = h) st st' := by
  induction logs generalizing st with
  | nil => exact ⟨[], st, rfl, rfl, hst, by simp, fun _ => Iff.rfl⟩
  | cons log logs ih =>
    obtain ⟨note, hdec, hhash⟩ := hlogs log List.mem_cons_self
    obtain ⟨st₁, hstore, h₁⟩ := Search.store_finds hst hhash
    obtain ⟨notes, st₂, hnotes, hfold, h₂⟩ :=
      ih (fun log hl => hlogs log (List.mem_cons_of_mem _ hl)) h₁.counted
    refine ⟨note :: notes, st₂, ?_, ?_, (h₁.trans h₂).of_iff fun k => ?_⟩
    · rw [List.mapM_cons, hdec]
      show logs.mapM decodeEvent >>= _ = _
      rw [hnotes]
      rfl
    · rw [List.foldlM_cons, hstore]
      exact hfold
    · rw [List.exists_mem_cons_iff]
      exact or_congr_left eq_comm

/-- A range of blocks is searched for what is missing. -/
lemma Search.searchBlocks_finds (hlogs : ∀ log ∈ events, log.Hashes sha256 (hashOf log))
    (hst : st.Counted) (startBlock endBlock : Nat) :
    ∃ st', st.searchBlocks sha256 events startBlock endBlock = .ok st' ∧
      Search.Finds (fun h => ∃ log ∈ events, (startBlock ≤ log.blockNumber ∧
        log.blockNumber ≤ endBlock) ∧ hashOf log = h) st st' := by
  have hmem (log : DefiBridgeProcessed) : log ∈ queryFilter events startBlock endBlock ↔
      log ∈ events ∧ startBlock ≤ log.blockNumber ∧ log.blockNumber ≤ endBlock := by
    rw [queryFilter, List.mem_filter, decide_eq_true_iff]
  obtain ⟨notes, st', hnotes, hfold, h⟩ := Search.store_all
    (queryFilter events startBlock endBlock) (fun log hl => hlogs log ((hmem log).mp hl).1) hst
  refine ⟨st', ?_, h.of_iff fun k => ?_⟩
  · rw [Search.searchBlocks, hnotes]
    exact hfold
  · simp only [hmem, and_assoc]

/-- The loop finds everything there is to find: what is not found yet is the hash of an event that
is not after the end block. -/
lemma Search.loop_finds (hlogs : ∀ log ∈ events, log.Hashes sha256 (hashOf log))
    (e : EarliestBlock) (endBlock : Nat) {st : Search} (hst : st.Counted)
    (hleft : ∀ h, st.Unfound h → ∃ log ∈ events, hashOf log = h ∧
      e.earliestBlock < log.blockNumber ∧ log.blockNumber ≤ endBlock) :
    ∃ st', Search.loop sha256 events e endBlock st = .ok st' ∧ (∀ h, ¬ st'.Unfound h) ∧
      ∀ h, st'.hashMapping h = none ↔ st.hashMapping h = none := by
  induction endBlock using Nat.strongRecOn generalizing st with
  | ind endBlock ih =>
    rw [Search.loop]
    split
    · rename_i hgo
      obtain ⟨st₁, hst₁, h₁⟩ := Search.searchBlocks_finds hlogs hst
        (max (endBlock - e.chunk) e.earliestBlock) endBlock
      obtain ⟨st₂, hst₂, hfound, hkeys⟩ := ih (max (max (endBlock - e.chunk) e.earliestBlock - 1)
        e.earliestBlock) (by omega) h₁.counted (by
          intro k hk
          obtain ⟨hold, hnot⟩ := (h₁.unfound k).mp hk
          obtain ⟨log, hlog, rfl, hearliest, hend⟩ := hleft k hold
          have hbefore : ¬ max (endBlock - e.chunk) e.earliestBlock ≤ log.blockNumber :=
            fun hstart => hnot ⟨log, hlog, ⟨hstart, hend⟩, rfl⟩
          exact ⟨log, hlog, rfl, hearliest, by omega⟩)
      refine ⟨st₂, ?_, hfound, fun k => (hkeys k).trans (h₁.keys k)⟩
      show Search.searchBlocks sha256 events _ endBlock st >>= _ = _
      rw [hst₁]
      exact hst₂
    · rename_i hstop
      refine ⟨st, rfl, fun k hk => ?_, fun _ => Iff.rfl⟩
      rcases Nat.eq_zero_or_pos st.numHashesToFind with hzero | hpos
      · -- nothing is left to find
        obtain ⟨unfound, hmem, hcard⟩ := hst
        rw [hzero, Nat.le_zero, Finset.card_eq_zero] at hcard
        have hk' := (hmem k).mpr hk
        rw [hcard] at hk'
        exact absurd hk' (Finset.notMem_empty k)
      · obtain ⟨log, -, -, hearliest, hend⟩ := hleft k hk
        exact hstop ⟨by omega, hpos⟩

end Search

/-- A hash is looked for if it is listed. -/
lemma HashMapping.ofHashes_eq (rollupHashes : List Nat) (h : Nat) :
    HashMapping.ofHashes rollupHashes h = if h ∈ rollupHashes then some none else none := by
  have hfold (m : HashMapping) : rollupHashes.foldl (fun m hash =>
      Function.update m hash (some none)) m h = if h ∈ rollupHashes then some none else m h := by
    induction rollupHashes generalizing m with
    | nil => rfl
    | cons hash hashes ih =>
      rw [List.foldl_cons, ih]
      rcases eq_or_ne h hash with rfl | hne
      · simp
      · simp [hne]
  exact hfold _

/-- The notes of a rollup, if all of them have been found. -/
lemma defiNotesForBlock_ok {ev : RollupProcessed} {m : HashMapping}
    (h : ∀ hash ∈ ev.nextExpectedDefiHashes, ∃ note, m hash = some (some note)) :
    ∃ notes, defiNotesForBlock ev m = .ok notes := by
  rw [defiNotesForBlock]
  generalize ev.nextExpectedDefiHashes = hashes at h ⊢
  induction hashes with
  | nil => exact ⟨[], rfl⟩
  | cons hash hashes ih =>
    obtain ⟨note, hnote⟩ := h hash List.mem_cons_self
    obtain ⟨notes, hnotes⟩ := ih fun k hk => h k (List.mem_cons_of_mem _ hk)
    refine ⟨note :: notes, ?_⟩
    rw [List.mapM_cons, hnotes, hnote]
    rfl

/-- The client finds the notes of all rollups, if the hashes they list are those of events after the
earliest block and not after the rollup, and all events decode. -/
theorem getDefiBridgeEventsForRollupEvents_finds {sha256 : List Nat → Nat} {chainId : Nat}
    {events : List DefiBridgeProcessed} {rollupEvents : List RollupProcessed}
    {hashOf : DefiBridgeProcessed → Nat}
    (hlogs : ∀ log ∈ events, log.Hashes sha256 (hashOf log))
    (hrollups : ∀ ev ∈ rollupEvents, ∀ h ∈ ev.nextExpectedDefiHashes, ∃ log ∈ events,
      hashOf log = h ∧ (getEarliestBlock chainId).earliestBlock < log.blockNumber ∧
        log.blockNumber ≤ ev.blockNumber) :
    ∃ m, getDefiBridgeEventsForRollupEvents sha256 chainId events rollupEvents = .ok m ∧
      ∀ ev ∈ rollupEvents, ∃ notes, defiNotesForBlock ev m = .ok notes := by
  let rollupHashes := rollupEvents.flatMap (·.nextExpectedDefiHashes)
  have hkey := HashMapping.ofHashes_eq rollupHashes
  have hcounted : (⟨.ofHashes rollupHashes, rollupHashes.length⟩ : Search).Counted :=
    ⟨rollupHashes.toFinset, fun h => by simp [Search.Unfound, hkey],
      List.toFinset_card_le rollupHashes⟩
  obtain ⟨st, hst, hfound, hkeys⟩ := Search.loop_finds hlogs (getEarliestBlock chainId)
    (max ((rollupEvents.map (·.blockNumber)).foldr max 0) (getEarliestBlock chainId).earliestBlock)
    hcounted (by
      intro h hh
      have hmem : h ∈ rollupHashes := by
        by_contra hnot
        simp [Search.Unfound, hkey, hnot] at hh
      obtain ⟨ev, hev, hlist⟩ := List.mem_flatMap.mp hmem
      obtain ⟨log, hlog, heq, hearliest, hle⟩ := hrollups ev hev h hlist
      have hmax := List.le_max_of_le' 0 (List.mem_map_of_mem (f := (·.blockNumber)) hev) hle
      exact ⟨log, hlog, heq, hearliest, hmax.trans (le_max_left _ _)⟩)
  refine ⟨st.hashMapping, ?_, fun ev hev => defiNotesForBlock_ok fun h hh => ?_⟩
  · show (Search.loop sha256 events _ _ _ >>= fun st => pure st.hashMapping) = _
    rw [hst]
    rfl
  · have hmem : h ∈ rollupHashes := List.mem_flatMap.mpr ⟨ev, hev, hh⟩
    cases hm : st.hashMapping h with
    | none =>
      have hnone := (hkeys h).mp hm
      simp [hkey, hmem] at hnone
    | some o =>
      cases o with
      | none => exact absurd hm (hfound h)
      | some note => exact ⟨note, rfl⟩

end AztecConnect.Client
