import AztecConnect.Client.BridgeCallData
import AztecConnect.Lib.Transition
import Mathlib.Algebra.Group.Nat.Defs

/-!
# Subsidies of bridges

Translation of `falafel/src/bridge/bridge_subsidy_provider.ts`. A call of `getBridgeSubsidy` is in
flight while it waits for the resolver, or for a value that is already there, and is resumed in any order
with any answer. What it stores may be stored already: in runs in which it is stored as it is, and
nothing is claimed when the last call found no subsidy, a subsidy is claimed once (`claimedOnce`).
-/

namespace AztecConnect.Falafel.BridgeSubsidyProvider

open Transition (Run Steps Guarded exec)
open Client (BridgeCallData)

/-! ## State -/

/-- Bridge call data that are what they are decoded to: as a string they are their own key. -/
structure CanonicalCallData where
  data : Nat
  canonical : (BridgeCallData.fromBigInt data).toOption.map BridgeCallData.toBigInt = some data
  deriving DecidableEq

/-- The bridge and the criteria of a subsidy. -/
structure BridgeCriteria where
  bridgeAddressId : Nat
  criteria : Nat
  deriving DecidableEq

/-- An answer of the resolver. -/
structure BridgeSubsidy where
  addressId : Nat
  criteria : Nat
  subsidyInGas : Int
  deriving DecidableEq

/-- Those of an answer. -/
def BridgeSubsidy.bridgeCriteria (a : BridgeSubsidy) : BridgeCriteria := ⟨a.addressId, a.criteria⟩

/-- A call of `getBridgeSubsidy` that has not returned. -/
inductive Lookup where
  /-- Waits for the resolver, as the criteria were not known. -/
  | criteria (d : CanonicalCallData)
  /-- Waits for the subsidy that it has. -/
  | subsidy (d : CanonicalCallData) (a : BridgeSubsidy) (mapKey : BridgeCriteria)
  /-- Waits for the resolver, as only the criteria were known. -/
  | amount (d : CanonicalCallData) (mapKey : BridgeCriteria)
  deriving DecidableEq

/-- What has been returned: a subsidy, with the criteria unless none was found, or that a claim
succeeded. -/
inductive Event where
  | quote (d : CanonicalCallData) (criteria : Option BridgeCriteria) (subsidy : Int)
  | claim (d : CanonicalCallData) (criteria : BridgeCriteria)
  deriving DecidableEq

/-- The provider, and what is in flight. `events` only records history, the last event first. -/
structure State where
  bridgeCriteriaMap : CanonicalCallData → Option BridgeCriteria
  cache : BridgeCriteria → Option Int
  claimed : List CanonicalCallData
  pending : List Lookup
  events : List Event

namespace State

/-- A new provider. -/
def init : State := ⟨fun _ => none, fun _ => none, [], [], []⟩

variable (s : State)

/-- Whoever has claimed has criteria. -/
def bridgeSubsidyAlreadyClaimed (bridgeCriteria : BridgeCriteria) : Bool :=
  s.claimed.any fun claimedBridge => s.bridgeCriteriaMap claimedBridge == some bridgeCriteria

/-! ## `getBridgeSubsidy` -/

/-- It waits. -/
def wait (l : Lookup) : State := { s with pending := s.pending ++ [l] }

/-- There is no subsidy. -/
def notFound (d : CanonicalCallData) : State := { s with events := .quote d none 0 :: s.events }

/-- The last part: all data are cached. -/
def quote (d : CanonicalCallData) (mapKey : BridgeCriteria) : State :=
  let subsidy := if (s.bridgeCriteriaMap d).elim false s.bridgeSubsidyAlreadyClaimed then 0
    else (s.cache mapKey).getD 0
  { s with events := .quote d (s.bridgeCriteriaMap d) subsidy :: s.events }

/-- The criteria of a call data are stored. -/
def setCriteria (d : CanonicalCallData) (bridgeCriteria : BridgeCriteria) : State :=
  { s with bridgeCriteriaMap := Function.update s.bridgeCriteriaMap d (some bridgeCriteria) }

/-- The subsidy of a criteria is stored. -/
def store (mapKey : BridgeCriteria) (subsidyInGas : Int) : State :=
  { s with cache := Function.update s.cache mapKey (some subsidyInGas) }

/-- From where the criteria are known on. -/
def findSubsidy (d : CanonicalCallData) (mapKey : BridgeCriteria)
    (currentBridgeSubsidy : Option BridgeSubsidy) : State :=
  if s.cache mapKey = none then
    match currentBridgeSubsidy with
    | none => s.wait (.amount d mapKey)
    | some a => s.wait (.subsidy d a mapKey)
  else s.quote d mapKey

/-- `getBridgeSubsidy`, up to its first pending call. -/
def getBridgeSubsidy (d : CanonicalCallData) : State :=
  match s.bridgeCriteriaMap d with
  | none => s.wait (.criteria d)
  | some mapKey => s.findSubsidy d mapKey none

/-- A call goes on, with the answer of the resolver if it waits for one. -/
def resume : Lookup → Option BridgeSubsidy → State
  | .criteria d, none => s.notFound d
  | .criteria d, some a => (s.setCriteria d a.bridgeCriteria).findSubsidy d a.bridgeCriteria (some a)
  | .subsidy d a mapKey, _ => (s.store mapKey a.subsidyInGas).quote d mapKey
  | .amount d _, none => s.notFound d
  | .amount d mapKey, some a => (s.store mapKey a.subsidyInGas).quote d mapKey

/-! ## Claims -/

/-- `claimBridgeSubsidy`. -/
def claimBridgeSubsidy (d : CanonicalCallData) : State :=
  match s.bridgeCriteriaMap d with
  | none => s
  | some bridgeCriteria =>
    if s.bridgeSubsidyAlreadyClaimed bridgeCriteria ∧ d ∉ s.claimed then s
    else { s with
      claimed := if d ∈ s.claimed then s.claimed else s.claimed ++ [d]
      events := .claim d bridgeCriteria :: s.events }

/-- `getClaimedSubsidy`. -/
def getClaimedSubsidy (d : CanonicalCallData) : Int :=
  if d ∈ s.claimed then
    match s.bridgeCriteriaMap d with
    | none => 0
    | some bridgeCriteria => (s.cache bridgeCriteria).getD 0
  else 0

end State

/-! ## Runs -/

/-- A call of the provider, or the answer to a pending lookup. -/
inductive Action where
  | getBridgeSubsidy (d : CanonicalCallData)
  | resume (l : Lookup) (answer : Option BridgeSubsidy)
  | claimBridgeSubsidy (d : CanonicalCallData)

/-- One step; only pending lookups are answered. -/
def step (s : State) : Action → Option State
  | .getBridgeSubsidy d => some (s.getBridgeSubsidy d)
  | .resume l answer =>
    if l ∈ s.pending then some ({ s with pending := s.pending.erase l }.resume l answer) else none
  | .claimBridgeSubsidy d => some (s.claimBridgeSubsidy d)

/-- The last subsidy that was returned, with its criteria. -/
def lastQuote (d : CanonicalCallData) (events : List Event) : Option (Option BridgeCriteria × Int) :=
  events.findSome? fun
    | .quote d' criteria subsidy => if d' = d then some (criteria, subsidy) else none
    | .claim _ _ => none

/-- What is stored is what is there, if anything; and what claims a subsidy that is left was found to
have one when it was last looked up. -/
def Steady (s : State) : Action → Prop
  | .resume (.criteria d) (some a) => ∀ c ∈ s.bridgeCriteriaMap d, c = a.bridgeCriteria
  | .resume (.subsidy _ a mapKey) _ => ∀ v ∈ s.cache mapKey, v = a.subsidyInGas
  | .resume (.amount _ mapKey) (some a) => ∀ v ∈ s.cache mapKey, v = a.subsidyInGas
  | .claimBridgeSubsidy d => ∀ c ∈ s.bridgeCriteriaMap d, s.bridgeSubsidyAlreadyClaimed c = false →
      ∀ last ∈ lastQuote d s.events, last.1 ≠ none
  | _ => True

instance (s : State) : ∀ a, Decidable (Steady s a)
  | .getBridgeSubsidy _ => isTrue trivial
  | .resume (.criteria _) none => isTrue trivial
  | .resume (.criteria d) (some a) =>
    inferInstanceAs (Decidable (∀ c ∈ s.bridgeCriteriaMap d, c = a.bridgeCriteria))
  | .resume (.subsidy _ a mapKey) _ =>
    inferInstanceAs (Decidable (∀ v ∈ s.cache mapKey, v = a.subsidyInGas))
  | .resume (.amount _ _) none => isTrue trivial
  | .resume (.amount _ mapKey) (some a) =>
    inferInstanceAs (Decidable (∀ v ∈ s.cache mapKey, v = a.subsidyInGas))
  | .claimBridgeSubsidy d =>
    inferInstanceAs (Decidable (∀ c ∈ s.bridgeCriteriaMap d, s.bridgeSubsidyAlreadyClaimed c = false →
      ∀ last ∈ lastQuote d s.events, last.1 ≠ none))

/-- A subsidy is claimed by one bridge call data at most, which has what was returned for it before; what
is returned after the claim is nothing. -/
structure ClaimedOnce (s : State) : Prop where
  once : ∀ d d' c, .claim d c ∈ s.events → .claim d' c ∈ s.events → d = d'
  counted : ∀ d d' c, s.bridgeCriteriaMap d = some c → s.bridgeCriteriaMap d' = some c →
    s.getClaimedSubsidy d ≠ 0 → s.getClaimedSubsidy d' ≠ 0 → d = d'
  nothing : ∀ later earlier d d' c subsidy, s.events = later ++ .quote d (some c) subsidy :: earlier →
    .claim d' c ∈ earlier → subsidy = 0
  quoted : ∀ later earlier d c last, s.events = later ++ .claim d c :: earlier →
    (∀ c', .claim d c' ∉ earlier) → lastQuote d earlier = some last → s.getClaimedSubsidy d = last.2

/-! ## The invariant -/

/-- What a call in flight knows of the criteria is what is stored. -/
def Lookup.Knows (s : State) : Lookup → Prop
  | .criteria _ => True
  | .subsidy d _ mapKey => s.bridgeCriteriaMap d = some mapKey
  | .amount d mapKey => s.bridgeCriteriaMap d = some mapKey

/-- What holds in every state reached by steady steps. -/
structure Inv (s : State) : Prop where
  claimed : ∀ d, d ∈ s.claimed ↔ ∃ c, .claim d c ∈ s.events
  criteria : ∀ d c, .claim d c ∈ s.events → s.bridgeCriteriaMap d = some c
  once : ∀ d d' c, .claim d c ∈ s.events → .claim d' c ∈ s.events → d = d'
  /-- What was returned is cached, unless it was claimed. -/
  cached : ∀ d c subsidy, .quote d (some c) subsidy ∈ s.events → s.bridgeCriteriaMap d = some c ∧
    ∃ v, s.cache c = some v ∧ (subsidy = v ∨ ∃ d', .claim d' c ∈ s.events)
  pending : ∀ l ∈ s.pending, l.Knows s
  nothing : ∀ later earlier d d' c subsidy, s.events = later ++ .quote d (some c) subsidy :: earlier →
    .claim d' c ∈ earlier → subsidy = 0
  quoted : ∀ later earlier d c last, s.events = later ++ .claim d c :: earlier →
    (∀ c', .claim d c' ∉ earlier) → lastQuote d earlier = some last → s.cache c = some last.2

variable {s s' : State} {d : CanonicalCallData} {c : BridgeCriteria}

/-- It holds of a new provider. -/
lemma inv_init : Inv State.init where
  claimed d := by
    constructor
    · exact fun h => absurd h List.not_mem_nil
    · rintro ⟨c, h⟩
      exact absurd h List.not_mem_nil
  criteria _ _ h := absurd h List.not_mem_nil
  once _ _ _ h := absurd h List.not_mem_nil
  cached _ _ _ h := absurd h List.not_mem_nil
  pending _ h := absurd h List.not_mem_nil
  nothing later _ _ _ _ _ h := absurd h.symm (List.append_ne_nil_of_right_ne_nil _ (List.cons_ne_nil _ _))
  quoted later _ _ _ _ h := absurd h.symm (List.append_ne_nil_of_right_ne_nil _ (List.cons_ne_nil _ _))

/-- A subsidy is claimed already if there was a claim. -/
lemma Inv.alreadyClaimed_iff (h : Inv s) (c : BridgeCriteria) :
    s.bridgeSubsidyAlreadyClaimed c = true ↔ ∃ d, .claim d c ∈ s.events := by
  rw [State.bridgeSubsidyAlreadyClaimed, List.any_eq_true]
  constructor
  · rintro ⟨d, hd, hc⟩
    obtain ⟨c', hclaim⟩ := (h.claimed d).mp hd
    have heq := (h.criteria d c' hclaim).symm.trans (beq_iff_eq.mp hc)
    rw [Option.some.injEq] at heq
    exact ⟨d, heq ▸ hclaim⟩
  · rintro ⟨d, hclaim⟩
    exact ⟨d, (h.claimed d).mpr ⟨c, hclaim⟩, beq_iff_eq.mpr (h.criteria d c hclaim)⟩

/-- What is stored stays, and nothing is returned. -/
lemma Inv.grow (h : Inv s) (hevents : s'.events = s.events) (hclaimed : s'.claimed = s.claimed)
    (hmap : ∀ d c, s.bridgeCriteriaMap d = some c → s'.bridgeCriteriaMap d = some c)
    (hcache : ∀ c v, s.cache c = some v → s'.cache c = some v)
    (hpending : ∀ l ∈ s'.pending, l ∈ s.pending ∨ l.Knows s') : Inv s' := by
  have hknows : ∀ l : Lookup, l.Knows s → l.Knows s' := fun l hl => by
    cases l with
    | criteria d => trivial
    | subsidy d a mapKey => exact hmap _ _ hl
    | amount d mapKey => exact hmap _ _ hl
  refine ⟨?_, ?_, ?_, ?_, fun l hl => ?_, ?_, ?_⟩
  · rw [hevents, hclaimed]
    exact h.claimed
  · rw [hevents]
    exact fun d c hclaim => hmap d c (h.criteria d c hclaim)
  · rw [hevents]
    exact h.once
  · rw [hevents]
    intro d c subsidy hquote
    obtain ⟨hc, v, hv, hsubsidy⟩ := h.cached d c subsidy hquote
    exact ⟨hmap d c hc, v, hcache c v hv, hsubsidy⟩
  · exact (hpending l hl).elim (fun hold => hknows l (h.pending l hold)) id
  · rw [hevents]
    exact h.nothing
  · rw [hevents]
    exact fun later earlier d c last heq hfirst hlast =>
      hcache _ _ (h.quoted later earlier d c last heq hfirst hlast)

/-- A lookup that starts keeps it. -/
lemma Inv.wait (h : Inv s) {l : Lookup} (hl : l.Knows s) : Inv (s.wait l) :=
  h.grow rfl rfl (fun _ _ => id) (fun _ _ => id) fun l' hl' => by
    rcases List.mem_append.mp hl' with hold | hnew
    · exact .inl hold
    · rw [List.mem_singleton.mp hnew]
      exact .inr hl

/-- So does one that is answered. -/
lemma Inv.erase (h : Inv s) (l : Lookup) : Inv { s with pending := s.pending.erase l } :=
  h.grow rfl rfl (fun _ _ => id) (fun _ _ => id) fun _ hl' => .inl (List.mem_of_mem_erase hl')

/-- Criteria that agree with those stored keep it. -/
lemma Inv.setCriteria (h : Inv s) (hsame : ∀ c' ∈ s.bridgeCriteriaMap d, c' = c) :
    Inv (s.setCriteria d c) := by
  refine h.grow rfl rfl (fun d' c' hc' => ?_) (fun _ _ => id) fun _ => .inl
  by_cases hd : d' = d
  · subst hd
    rw [hsame c' hc']
    exact Function.update_self _ _ _
  · exact (Function.update_of_ne hd _ _).trans hc'

/-- So does a subsidy that agrees with the one stored. -/
lemma Inv.store (h : Inv s) {v : Int} (hsame : ∀ v' ∈ s.cache c, v' = v) : Inv (s.store c v) := by
  refine h.grow rfl rfl (fun _ _ => id) (fun c' v' hv' => ?_) fun _ => .inl
  by_cases hc : c' = c
  · subst hc
    rw [hsame v' hv']
    exact Function.update_self _ _ _
  · exact (Function.update_of_ne hc _ _).trans hv'

/-- What is returned is what is cached, unless it was claimed. -/
lemma Inv.returned (h : Inv s) {criteria : Option BridgeCriteria} {subsidy : Int}
    (hcriteria : ∀ c ∈ criteria, s.bridgeCriteriaMap d = some c ∧ ∃ v, s.cache c = some v ∧
      subsidy = if s.bridgeSubsidyAlreadyClaimed c then 0 else v) :
    Inv { s with events := .quote d criteria subsidy :: s.events } := by
  have hclaim : ∀ d' c', .claim d' c' ∈ Event.quote d criteria subsidy :: s.events ↔
      .claim d' c' ∈ s.events := fun d' c' => by
    rw [List.mem_cons]
    exact ⟨fun hmem => hmem.resolve_left Event.noConfusion, .inr⟩
  refine ⟨fun d' => ?_, fun d' c' hc' => ?_, fun d' d'' c' hc' hc'' => ?_, fun d' c' subsidy' hq => ?_,
    h.pending, fun later earlier d' d'' c' subsidy' heq hc' => ?_,
    fun later earlier d' c' last heq hfirst hlast => ?_⟩
  · simp only [hclaim]
    exact h.claimed d'
  · exact h.criteria d' c' ((hclaim d' c').mp hc')
  · exact h.once d' d'' c' ((hclaim d' c').mp hc') ((hclaim d'' c').mp hc'')
  · simp only [hclaim]
    rcases List.mem_cons.mp hq with heq | hq
    · rw [Event.quote.injEq] at heq
      obtain ⟨rfl, rfl, rfl⟩ := heq
      obtain ⟨hmap, v, hv, hsubsidy⟩ := hcriteria c' rfl
      refine ⟨hmap, v, hv, ?_⟩
      by_cases halready : s.bridgeSubsidyAlreadyClaimed c' = true
      · exact .inr ((h.alreadyClaimed_iff c').mp halready)
      · rw [if_neg halready] at hsubsidy
        exact .inl hsubsidy
    · exact h.cached d' c' subsidy' hq
  · cases later with
    | nil =>
      rw [List.nil_append, List.cons.injEq, Event.quote.injEq] at heq
      obtain ⟨⟨rfl, rfl, rfl⟩, rfl⟩ := heq
      obtain ⟨-, v, -, hsubsidy⟩ := hcriteria c' rfl
      rw [if_pos ((h.alreadyClaimed_iff c').mpr ⟨d'', hc'⟩)] at hsubsidy
      exact hsubsidy
    | cons e later =>
      rw [List.cons_append, List.cons.injEq] at heq
      exact h.nothing later earlier d' d'' c' subsidy' heq.2 hc'
  · cases later with
    | nil =>
      rw [List.nil_append, List.cons.injEq] at heq
      nomatch heq.1
    | cons e later =>
      rw [List.cons_append, List.cons.injEq] at heq
      exact h.quoted later earlier d' c' last heq.2 hfirst hlast

/-- So does an answer without a subsidy. -/
lemma Inv.notFound (h : Inv s) (d : CanonicalCallData) : Inv (s.notFound d) :=
  h.returned fun _ hc => nomatch hc

/-- So does a quote from what is stored. -/
lemma Inv.quote (h : Inv s) (hmap : s.bridgeCriteriaMap d = some c) (hcache : s.cache c ≠ none) :
    Inv (s.quote d c) := by
  obtain ⟨v, hv⟩ := Option.ne_none_iff_exists'.mp hcache
  refine h.returned fun c' hc' => ?_
  have heq : c' = c := Option.some.inj ((Option.mem_def.mp hc').symm.trans hmap)
  subst heq
  refine ⟨hmap, v, hv, ?_⟩
  rw [hmap, hv]
  rfl

/-- So does the second part of a lookup. -/
lemma Inv.findSubsidy (h : Inv s) (hmap : s.bridgeCriteriaMap d = some c) (a : Option BridgeSubsidy) :
    Inv (s.findSubsidy d c a) := by
  unfold State.findSubsidy
  split
  case isTrue =>
    cases a with
    | none => exact h.wait hmap
    | some a => exact h.wait hmap
  case isFalse hcache => exact h.quote hmap hcache

/-- So does a call for a quote. -/
lemma Inv.getBridgeSubsidy (h : Inv s) (d : CanonicalCallData) : Inv (s.getBridgeSubsidy d) := by
  unfold State.getBridgeSubsidy
  cases hmap : s.bridgeCriteriaMap d with
  | none => exact h.wait trivial
  | some c => exact h.findSubsidy hmap none

/-- A call that goes on stores what is there. -/
lemma Inv.resume (h : Inv s) {l : Lookup} (hl : l.Knows s) {answer : Option BridgeSubsidy}
    (hsteady : Steady s (.resume l answer)) : Inv (s.resume l answer) := by
  cases l with
  | criteria d =>
    cases answer with
    | none => exact h.notFound d
    | some a =>
      show Inv ((s.setCriteria d a.bridgeCriteria).findSubsidy d a.bridgeCriteria (some a))
      exact (h.setCriteria hsteady).findSubsidy (Function.update_self _ _ _) (some a)
  | subsidy d a mapKey =>
    have hstored : Function.update s.cache mapKey (some a.subsidyInGas) mapKey ≠ none := by
      rw [Function.update_self]
      exact Option.some_ne_none _
    exact (h.store hsteady).quote hl hstored
  | amount d mapKey =>
    cases answer with
    | none => exact h.notFound d
    | some a =>
      have hstored : Function.update s.cache mapKey (some a.subsidyInGas) mapKey ≠ none := by
        rw [Function.update_self]
        exact Option.some_ne_none _
      exact (h.store hsteady).quote hl hstored

/-- The last quote was made. -/
lemma mem_of_lastQuote {events : List Event} {last : Option BridgeCriteria × Int}
    (h : lastQuote d events = some last) : .quote d last.1 last.2 ∈ events := by
  obtain ⟨e, he, heq⟩ := List.exists_of_findSome?_eq_some h
  cases e with
  | claim d' c => nomatch heq
  | quote d' criteria subsidy =>
    dsimp only at heq
    split at heq
    case isTrue hd =>
      rw [Option.some.injEq] at heq
      rw [← heq, ← hd]
      exact he
    case isFalse => nomatch heq

/-- A steady claim keeps it. -/
lemma Inv.claimBridgeSubsidy (h : Inv s) (hsteady : Steady s (.claimBridgeSubsidy d)) :
    Inv (s.claimBridgeSubsidy d) := by
  unfold State.claimBridgeSubsidy
  cases hmap : s.bridgeCriteriaMap d with
  | none => exact h
  | some c =>
    dsimp only
    split
    case isTrue => exact h
    case isFalse hfree =>
      -- a claim, or a claim again
      have hagain : ∀ d', .claim d' c ∈ s.events → d' = d := fun d' hd' => by
        by_contra hne
        refine hfree ⟨(h.alreadyClaimed_iff c).mpr ⟨d', hd'⟩, fun hd => hne ?_⟩
        obtain ⟨c', hc'⟩ := (h.claimed d).mp hd
        have heq : c' = c := Option.some.inj ((h.criteria d c' hc').symm.trans hmap)
        exact h.once d' d c hd' (heq ▸ hc')
      refine ⟨fun d' => ?_, fun d' c' hc' => ?_, fun d' d'' c' hc' hc'' => ?_,
        fun d' c' subsidy hq => ?_, h.pending, fun later earlier d' d'' c' subsidy heq hc' => ?_,
        fun later earlier d' c' last heq hfirst hlast => ?_⟩
      · have hmem : d' ∈ (if d ∈ s.claimed then s.claimed else s.claimed ++ [d]) ↔
            d' = d ∨ d' ∈ s.claimed := by
          split
          case isTrue hd => exact ⟨.inr, fun hor => hor.elim (fun heq => heq ▸ hd) id⟩
          case isFalse =>
            rw [List.mem_append, List.mem_singleton]
            exact or_comm
        rw [hmem, h.claimed]
        constructor
        · rintro (rfl | ⟨c', hc'⟩)
          · exact ⟨c, List.mem_cons_self⟩
          · exact ⟨c', List.mem_cons_of_mem _ hc'⟩
        · rintro ⟨c', hc'⟩
          rcases List.mem_cons.mp hc' with heq | hc'
          · exact .inl (Event.claim.inj heq).1
          · exact .inr ⟨c', hc'⟩
      · rcases List.mem_cons.mp hc' with heq | hc'
        · rw [Event.claim.injEq] at heq
          rw [heq.1, heq.2]
          exact hmap
        · exact h.criteria d' c' hc'
      · rcases List.mem_cons.mp hc' with heq | hold
        · rcases List.mem_cons.mp hc'' with heq' | hold'
          · rw [(Event.claim.inj heq).1, (Event.claim.inj heq').1]
          · rw [(Event.claim.inj heq).2] at hold'
            rw [(Event.claim.inj heq).1, hagain d'' hold']
        · rcases List.mem_cons.mp hc'' with heq' | hold'
          · rw [(Event.claim.inj heq').2] at hold
            rw [(Event.claim.inj heq').1, hagain d' hold]
          · exact h.once d' d'' c' hold hold'
      · have hq' := (List.mem_cons.mp hq).resolve_left Event.noConfusion
        obtain ⟨hc', v, hv, hor⟩ := h.cached d' c' subsidy hq'
        exact ⟨hc', v, hv, hor.imp_right fun ⟨d'', hd''⟩ => ⟨d'', List.mem_cons_of_mem _ hd''⟩⟩
      · cases later with
        | nil =>
          rw [List.nil_append, List.cons.injEq] at heq
          nomatch heq.1
        | cons e later =>
          rw [List.cons_append, List.cons.injEq] at heq
          exact h.nothing later earlier d' d'' c' subsidy heq.2 hc'
      · cases later with
        | cons e later =>
          rw [List.cons_append, List.cons.injEq] at heq
          exact h.quoted later earlier d' c' last heq.2 hfirst hlast
        | nil =>
          -- the first claim, of what was returned last
          rw [List.nil_append, List.cons.injEq, Event.claim.injEq] at heq
          obtain ⟨⟨rfl, rfl⟩, rfl⟩ := heq
          have hunclaimed : ¬ ∃ d', .claim d' c ∈ s.events := by
            rintro ⟨d', hd'⟩
            rw [hagain d' hd'] at hd'
            exact hfirst c hd'
          have hnot : s.bridgeSubsidyAlreadyClaimed c = false := by
            rw [Bool.eq_false_iff]
            exact mt (h.alreadyClaimed_iff c).mp hunclaimed
          obtain ⟨c', hc'⟩ := Option.ne_none_iff_exists'.mp (hsteady c hmap hnot last hlast)
          have hquote := mem_of_lastQuote hlast
          rw [hc'] at hquote
          obtain ⟨hmap', v, hv, hor⟩ := h.cached d c' last.2 hquote
          have heq : c' = c := Option.some.inj (hmap'.symm.trans hmap)
          subst heq
          rw [hv, hor.resolve_right hunclaimed]

/-! ## Every run -/

/-- Every steady step keeps it. -/
lemma Inv.step {a : Action} (h : Inv s) (hsteady : Steady s a) (hs : step s a = some s') : Inv s' := by
  cases a with
  | getBridgeSubsidy d =>
    cases hs
    exact h.getBridgeSubsidy d
  | claimBridgeSubsidy d =>
    cases hs
    exact h.claimBridgeSubsidy hsteady
  | resume l answer =>
    rw [BridgeSubsidyProvider.step] at hs
    split at hs
    case isTrue hl =>
      cases hs
      have hknows : l.Knows { s with pending := s.pending.erase l } := by
        cases l with
        | criteria d => trivial
        | subsidy d a mapKey => exact h.pending _ hl
        | amount d mapKey => exact h.pending _ hl
      refine (h.erase l).resume hknows ?_
      cases l with
      | criteria d =>
        cases answer with
        | none => trivial
        | some a => exact hsteady
      | subsidy d a mapKey => exact hsteady
      | amount d mapKey =>
        cases answer with
        | none => trivial
        | some a => exact hsteady
    case isFalse => nomatch hs

/-- Only a claim gives a subsidy. -/
lemma Inv.claim_of_getClaimedSubsidy (h : Inv s) (hmap : s.bridgeCriteriaMap d = some c)
    (hne : s.getClaimedSubsidy d ≠ 0) : .claim d c ∈ s.events := by
  by_cases hd : d ∈ s.claimed
  · obtain ⟨c', hc'⟩ := (h.claimed d).mp hd
    have heq : c' = c := Option.some.inj ((h.criteria d c' hc').symm.trans hmap)
    exact heq ▸ hc'
  · exact absurd (if_neg hd) hne

/-- Under it every subsidy is claimed once, at the last quote. -/
lemma Inv.toClaimedOnce (h : Inv s) : ClaimedOnce s where
  once := h.once
  counted d d' c hc hc' hne hne' :=
    h.once d d' c (h.claim_of_getClaimedSubsidy hc hne) (h.claim_of_getClaimedSubsidy hc' hne')
  nothing := h.nothing
  quoted later earlier d c last heq hfirst hlast := by
    have hclaim : .claim d c ∈ s.events := heq ▸ List.mem_append_right _ List.mem_cons_self
    rw [State.getClaimedSubsidy, if_pos ((h.claimed d).mpr ⟨c, hclaim⟩), h.criteria d c hclaim]
    dsimp only
    rw [h.quoted later earlier d c last heq hfirst hlast]
    rfl

/-- In every run in which what is stored is what is there, and no claim follows a call that found
nothing, a subsidy is claimed once. -/
theorem claimedOnce {as : List Action} (h : Run (Guarded (Steps step) Steady) State.init as s) :
    ClaimedOnce s :=
  (h.invariant inv_init fun _ _ _ hs hstep => hs.step hstep.2 hstep.1).toClaimedOnce

/-! ## Two bridge call data with one subsidy -/

namespace SampleSubsidies

/-- The call data of a bridge with some auxiliary data. -/
def first : CanonicalCallData := ⟨1, by decide⟩

/-- The same pair of assets with other auxiliary data. -/
def second : CanonicalCallData := ⟨1 + 2 ^ 184, by decide⟩

/-- The answer of the sample. -/
def answer (subsidyInGas : Int) : BridgeSubsidy := ⟨1, 7, subsidyInGas⟩

/-- Both are looked up at once; the first takes the subsidy. -/
def overlapping (subsidyInGas : Int) : List Action :=
  [.getBridgeSubsidy first, .getBridgeSubsidy second,
    .resume (.criteria first) (some (answer 5)), .resume (.criteria second) (some (answer subsidyInGas)),
    .resume (.subsidy first (answer 5) ⟨1, 7⟩) none, .claimBridgeSubsidy first,
    .resume (.subsidy second (answer subsidyInGas) ⟨1, 7⟩) none, .claimBridgeSubsidy second]

/-- Of two calls for the first, the later answer has other criteria; then the second is looked up. -/
def changing : List Action :=
  [.getBridgeSubsidy first, .getBridgeSubsidy first, .resume (.criteria first) (some (answer 5)),
    .resume (.subsidy first (answer 5) ⟨1, 7⟩) none, .claimBridgeSubsidy first,
    .resume (.criteria first) (some ⟨1, 8, 5⟩), .getBridgeSubsidy second,
    .resume (.criteria second) (some (answer 5)), .claimBridgeSubsidy second]

end SampleSubsidies

open SampleSubsidies in
/-- The second finds the subsidy that the first has found, and claimed. -/
theorem claimedOnce_sample : ∃ s, Run (Guarded (Steps step) Steady) State.init (overlapping 5) s ∧
    ClaimedOnce s ∧ s.getClaimedSubsidy first = 5 ∧ s.getClaimedSubsidy second = 0 := by
  have h : ((exec (Transition.guard step Steady) State.init (overlapping 5)).map fun s =>
      decide (s.getClaimedSubsidy first = 5 ∧ s.getClaimedSubsidy second = 0)) = some true := by decide
  obtain ⟨s, hs, hclaimed⟩ := Option.map_eq_some_iff.mp h
  have hrun := Transition.exec_guard_run hs
  exact ⟨s, hrun, claimedOnce hrun, of_decide_eq_true hclaimed⟩

open SampleSubsidies in
/-- The second finds another subsidy than the first, which has claimed it: then the first has another
than it was told. -/
theorem not_claimedOnce : ¬ ∀ as s, Run (Steps step) State.init as s → ClaimedOnce s := by
  intro hall
  have h : ((exec step State.init (overlapping 9)).map fun s =>
      decide (s.events = [.quote second (some ⟨1, 7⟩) 0] ++ .claim first ⟨1, 7⟩ ::
        [.quote first (some ⟨1, 7⟩) 5] ∧ s.getClaimedSubsidy first = 9)) = some true := by decide
  obtain ⟨s, hs, hdecide⟩ := Option.map_eq_some_iff.mp h
  obtain ⟨hevents, hclaimed⟩ := of_decide_eq_true hdecide
  have hquoted := (hall _ s (Transition.exec_run hs)).quoted _ _ first ⟨1, 7⟩ (some ⟨1, 7⟩, 5) hevents
    (fun c hc => by
      rw [List.mem_singleton] at hc
      nomatch hc) (by decide)
  rw [hclaimed] at hquoted
  exact absurd hquoted (by decide)

open SampleSubsidies in
/-- The criteria of a claim are forgotten, and the subsidy is claimed again. -/
theorem claimed_twice : ∃ s, Run (Steps step) State.init changing s ∧
    .claim first ⟨1, 7⟩ ∈ s.events ∧ .claim second ⟨1, 7⟩ ∈ s.events := by
  have h : ((exec step State.init changing).map fun s =>
      decide (.claim first ⟨1, 7⟩ ∈ s.events ∧ .claim second ⟨1, 7⟩ ∈ s.events)) = some true := by decide
  obtain ⟨s, hs, hclaims⟩ := Option.map_eq_some_iff.mp h
  exact ⟨s, Transition.exec_run hs, of_decide_eq_true hclaims⟩

end AztecConnect.Falafel.BridgeSubsidyProvider
