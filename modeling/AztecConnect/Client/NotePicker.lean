import AztecConnect.Lib.Greedy
import Mathlib.Algebra.GroupWithZero.Nat
import Mathlib.Algebra.Order.Group.Nat
import Mathlib.Data.List.Sort

/-!
# Picking the notes of a payment

Translation of `sdk/src/note_picker/index.ts`. A note is known by its nullifier, and a value is a
natural number.
-/

namespace AztecConnect.Client.NotePicker

open Greedy

/-- What the picker reads of a `Note`. -/
structure Note where
  value : Nat
  nullifier : Nat
  pending : Bool
  allowChain : Bool
  ownerAccountRequired : Bool
  deriving DecidableEq

/-- `NotePickerOptions`. -/
structure NotePickerOptions where
  excludedNullifiers : List Nat := []
  excludePendingNotes : Bool := false
  spendingKeyRequired : Bool := false

/-- `noteSum`. -/
def noteSum (notes : List Note) : Nat := (notes.map (·.value)).sum

/-- The comparison of the sort. -/
def compareNotes (pendingAreLower : Bool) (a b : Note) : Int :=
  if a.value < b.value then -1
  else if a.value > b.value then 1
  else
    let pendingDiff : Int := a.pending.toNat - b.pending.toNat
    if pendingAreLower then -pendingDiff else pendingDiff

/-- The sort is stable. -/
def sortNotes (notes : List Note) (pendingAreLower : Bool) : List Note :=
  notes.insertionSort fun a b => compareNotes pendingAreLower a b ≤ 0

/-- The notes that the constructor keeps. -/
def validNotes (notes : List Note) : List Note := notes.filter fun note => !note.pending || note.allowChain

/-- `getSortedNotes`. -/
def getSortedNotes (notes : List Note) (pendingAreLower : Bool) : List Note :=
  sortNotes (validNotes notes) pendingAreLower

/-- `filterByOptions`. -/
def filterByOptions (notes : List Note) (options : NotePickerOptions) : List Note :=
  notes.filter fun note =>
    !options.excludedNullifiers.any (· == note.nullifier) &&
    (!options.excludePendingNotes || !note.pending) &&
    (if options.spendingKeyRequired then note.ownerAccountRequired else !note.ownerAccountRequired)

/-- The loop of `findMinimumNotes`, on the notes from the last one. -/
def findMinimumFrom (value : Nat) : List Note → Nat → Nat → Bool → Nat
  | [], _, _, _ => 0
  | note :: notes, minimumNotes, accumulatedValue, hasPendingNote =>
    if !note.pending || !hasPendingNote then
      let minimumNotes := minimumNotes + 1
      let accumulatedValue := accumulatedValue + note.value
      if accumulatedValue ≥ value then minimumNotes
      else findMinimumFrom value notes minimumNotes accumulatedValue (hasPendingNote || note.pending)
    else findMinimumFrom value notes minimumNotes accumulatedValue hasPendingNote

/-- `findMinimumNotes`: how many of the largest notes reach the value. -/
def findMinimumNotes (value : Nat) (notes : List Note) : Nat :=
  findMinimumFrom value notes.reverse 0 0 false

/-- The loop of `getMaxSpendableNotes`. -/
def maxSpendableFrom (numNotes : Option Nat) : List Note → List Note → Bool → List Note
  | [], notes, _ => notes
  | note :: filteredNotes, notes, hasPendingNote =>
    let taken := !note.pending || !hasPendingNote
    let notes := if taken then notes ++ [note] else notes
    let hasPendingNote := if taken then hasPendingNote || note.pending else hasPendingNote
    if some notes.length = numNotes then notes
    else maxSpendableFrom numNotes filteredNotes notes hasPendingNote

/-- `getMaxSpendableNotes`. -/
def getMaxSpendableNotes (notes : List Note) (options : NotePickerOptions) (numNotes : Option Nat) :
    List Note :=
  maxSpendableFrom numNotes (filterByOptions (getSortedNotes notes true) options).reverse [] false

/-- A note that may take the place of another one. -/
def potentiallyBetter (noteToImprove : Note) (excessValue : Int) (hasPending : Bool) (note : Note) :
    Bool :=
  let minimumValue := noteToImprove.value - excessValue
  note.value ≥ minimumValue && note.value < noteToImprove.value &&
    (!note.pending || !hasPending || noteToImprove.pending)

/-- The loop of `reducePickedNotesValues`, on the indices that remain. -/
def reduceFrom (targetValue : Nat) (availableNotes : List Note) : List Nat → List Note → List Note
  | [], pickedNotes => pickedNotes
  | index :: indices, pickedNotes =>
    match pickedNotes[index]? with
    | none => pickedNotes
    | some noteToImprove =>
      let excessValue : Int := noteSum pickedNotes - targetValue
      let usedNullifiers := pickedNotes.map (·.nullifier)
      let unusedNotes := availableNotes.filter fun note => !usedNullifiers.contains note.nullifier
      let hasPending := pickedNotes.any (·.pending)
      match unusedNotes.find? (potentiallyBetter noteToImprove excessValue hasPending) with
      -- no better note found, cannot improve further the set
      | none => pickedNotes
      | some betterNote =>
        reduceFrom targetValue availableNotes indices (pickedNotes.set index betterNote)

/-- `reducePickedNotesValues`. -/
def reducePickedNotesValues (notes selectionToImprove : List Note) (targetValue : Nat)
    (options : NotePickerOptions) : List Note :=
  reduceFrom targetValue (filterByOptions (getSortedNotes notes false) options)
    (List.range selectionToImprove.length) selectionToImprove

/-- `pick`. -/
def pick (notes : List Note) (value : Nat) (options : NotePickerOptions) : List Note :=
  let filteredNotes := filterByOptions (getSortedNotes notes true) options
  let minimumNumberOfNotes := findMinimumNotes value filteredNotes
  if minimumNumberOfNotes = 0 then []
  else
    -- we can pick 2 notes with the same cost
    let minimumNumberOfNotes := if minimumNumberOfNotes = 1 then 2 else minimumNumberOfNotes
    let pickedNotes := (getMaxSpendableNotes notes options (some minimumNumberOfNotes)).reverse
    let pickedNotes := reducePickedNotesValues notes pickedNotes value options
    match pickedNotes.find? (·.value == value) with
    | some exactNoteMatch => [exactNoteMatch]
    | none => pickedNotes

/-! ## What can be paid -/

/-- The notes that the options leave. -/
structure Eligible (options : NotePickerOptions) (note : Note) : Prop where
  spendable : note.pending → note.allowChain
  notExcluded : note.nullifier ∉ options.excludedNullifiers
  pending : options.excludePendingNotes → ¬ note.pending
  owner : note.ownerAccountRequired = options.spendingKeyRequired

/-- A set of notes that pays a value. -/
structure Pays (notes : List Note) (options : NotePickerOptions) (value : Nat) (s : List Note) :
    Prop where
  nodup : s.Nodup
  eligible : ∀ note ∈ s, note ∈ notes ∧ Eligible options note
  pending : s.countP (·.pending) ≤ 1
  reaches : value ≤ noteSum s

variable {notes : List Note} {options : NotePickerOptions} {value : Nat}

/-- Notes are ordered by value, and then by whether they are pending. -/
lemma compareNotes_nonpos {pendingAreLower : Bool} {a b : Note} :
    compareNotes pendingAreLower a b ≤ 0 ↔ a.value < b.value ∨ a.value = b.value ∧
      if pendingAreLower then b.pending.toNat ≤ a.pending.toNat
      else a.pending.toNat ≤ b.pending.toNat := by
  unfold compareNotes
  split
  case isTrue hlt => exact iff_of_true (by decide) (.inl hlt)
  case isFalse hlt =>
    split
    case isTrue hgt => exact iff_of_false (by decide) (by omega)
    case isFalse hgt =>
      rw [or_iff_right hlt, and_iff_right (by omega)]
      cases pendingAreLower with
      | true =>
        show -((a.pending.toNat : Int) - b.pending.toNat) ≤ 0 ↔ b.pending.toNat ≤ a.pending.toNat
        omega
      | false =>
        show (a.pending.toNat : Int) - b.pending.toNat ≤ 0 ↔ a.pending.toNat ≤ b.pending.toNat
        omega

instance (pendingAreLower : Bool) :
    Std.Total fun a b : Note => compareNotes pendingAreLower a b ≤ 0 where
  total a b := by
    rw [compareNotes_nonpos, compareNotes_nonpos]
    cases pendingAreLower with
    | true =>
      rw [if_pos rfl, if_pos rfl]
      omega
    | false =>
      rw [if_neg Bool.false_ne_true, if_neg Bool.false_ne_true]
      omega

instance (pendingAreLower : Bool) :
    IsTrans Note fun a b : Note => compareNotes pendingAreLower a b ≤ 0 where
  trans a b c hab hbc := by
    rw [compareNotes_nonpos] at hab hbc ⊢
    cases pendingAreLower with
    | true =>
      rw [if_pos rfl] at hab hbc ⊢
      omega
    | false =>
      rw [if_neg Bool.false_ne_true] at hab hbc ⊢
      omega

/-- The notes considered are those that are eligible. -/
lemma mem_filterByOptions {pendingAreLower : Bool} {note : Note} :
    note ∈ filterByOptions (getSortedNotes notes pendingAreLower) options ↔
      note ∈ notes ∧ Eligible options note := by
  have hoptions : (!options.excludedNullifiers.any (· == note.nullifier) &&
      (!options.excludePendingNotes || !note.pending) &&
      (if options.spendingKeyRequired then note.ownerAccountRequired
        else !note.ownerAccountRequired)) = true ∧ (!note.pending || note.allowChain) = true ↔
      Eligible options note := by
    constructor
    · rintro ⟨hfilter, hvalid⟩
      simp only [Bool.and_eq_true, Bool.not_eq_true', List.any_eq_false, beq_iff_eq] at hfilter
      obtain ⟨⟨hexcluded, hpending⟩, howner⟩ := hfilter
      refine ⟨fun hp => ?_, fun hmem => hexcluded _ hmem rfl, fun hexclude hp => ?_, ?_⟩
      · rwa [hp] at hvalid
      · rw [hexclude, hp] at hpending
        exact Bool.false_ne_true hpending
      · cases hkey : options.spendingKeyRequired <;> simpa [hkey] using howner
    · rintro ⟨hspendable, hexcluded, hpending, howner⟩
      simp only [Bool.and_eq_true, Bool.not_eq_true', List.any_eq_false, beq_iff_eq]
      refine ⟨⟨⟨fun n hmem heq => hexcluded (heq ▸ hmem), ?_⟩, ?_⟩, ?_⟩
      · cases hexclude : options.excludePendingNotes with
        | false => rfl
        | true => exact Bool.or_eq_true _ _ ▸ .inr (Bool.not_eq_true' _ ▸ Bool.eq_false_of_not_eq_true (hpending hexclude))
      · rw [howner]
        cases options.spendingKeyRequired <;> rfl
      · cases hp : note.pending with
        | false => rfl
        | true => exact hspendable hp
  rw [filterByOptions, List.mem_filter, getSortedNotes, sortNotes, List.mem_insertionSort,
    validNotes, List.mem_filter, ← hoptions, and_assoc]
  exact and_congr_right fun _ => and_comm

/-- None is considered twice. -/
lemma nodup_filterByOptions (hnotes : (notes.map (·.nullifier)).Nodup) (pendingAreLower : Bool) :
    (filterByOptions (getSortedNotes notes pendingAreLower) options).Nodup := by
  refine List.Nodup.filter _ ?_
  rw [getSortedNotes, sortNotes, (List.perm_insertionSort _ _).nodup_iff]
  exact (List.Nodup.of_map _ hnotes).filter _

/-- From the top the values fall. -/
lemma pairwise_reverse (pendingAreLower : Bool) :
    (filterByOptions (getSortedNotes notes pendingAreLower) options).reverse.Pairwise
      fun a b => b.value ≤ a.value := by
  rw [List.pairwise_reverse]
  refine List.Pairwise.filter _ ?_
  refine (List.pairwise_insertionSort _ (validNotes notes)).imp fun hle => ?_
  rcases compareNotes_nonpos.mp hle with hlt | ⟨heq, -⟩
  · exact hlt.le
  · exact heq.le

/-! ## The greedy choice -/

/-- The notes from the one of the largest value, with one of those that are pending. -/
def greedyNotes (notes : List Note) (options : NotePickerOptions) : List Note :=
  atMostOne (·.pending) false (filterByOptions (getSortedNotes notes true) options).reverse

/-- The loop ends with the number of notes that reaches the value, or without one. -/
lemma findMinimumFrom_spec (l : List Note) {m acc : Nat} {seen : Bool} (hacc : acc < value) :
    (findMinimumFrom value l m acc seen = 0 ∧ acc + noteSum (atMostOne (·.pending) seen l) < value) ∨
    ∃ k, findMinimumFrom value l m acc seen = m + k + 1 ∧
      k + 1 ≤ (atMostOne (·.pending) seen l).length ∧
      acc + noteSum ((atMostOne (·.pending) seen l).take k) < value ∧
      value ≤ acc + noteSum ((atMostOne (·.pending) seen l).take (k + 1)) := by
  induction l generalizing m acc seen with
  | nil => exact .inl ⟨rfl, hacc⟩
  | cons note l ih =>
    rw [findMinimumFrom]
    by_cases hkeep : (!note.pending || !seen)
    case neg =>
      rw [if_neg hkeep, atMostOne_cons_of_drop hkeep]
      exact ih hacc
    case pos =>
      rw [if_pos hkeep, atMostOne_cons_of_keep hkeep]
      by_cases hreach : acc + note.value ≥ value
      case pos =>
        refine .inr ⟨0, if_pos hreach, Nat.succ_le_succ (Nat.zero_le _), hacc, ?_⟩
        exact hreach
      case neg =>
        have hsum (notes : List Note) : acc + noteSum (note :: notes) =
            acc + note.value + noteSum notes := (Nat.add_assoc _ _ _).symm
        rw [hsum]
        show (ite _ _ _ = 0 ∧ _) ∨ ∃ k, ite _ _ _ = _ ∧ _
        rw [if_neg hreach]
        refine (ih (not_le.mp hreach)).imp_right ?_
        rintro ⟨k, hrun, hlen, hlt, hle⟩
        refine ⟨k + 1, hrun.trans (by omega), Nat.succ_le_succ hlen, ?_, ?_⟩
        · rwa [List.take_succ_cons, hsum]
        · rwa [List.take_succ_cons, hsum]

/-- Up to the number of notes that is asked for. -/
lemma maxSpendableFrom_eq (l picked : List Note) {seen : Bool} {k : Nat} (hlt : picked.length < k) :
    maxSpendableFrom (some k) l picked seen =
      picked ++ (atMostOne (·.pending) seen l).take (k - picked.length) := by
  induction l generalizing picked seen with
  | nil => rw [maxSpendableFrom, atMostOne, List.take_nil, List.append_nil]
  | cons note l ih =>
    rw [maxSpendableFrom]
    by_cases hkeep : (!note.pending || !seen)
    case neg =>
      simp only [if_neg hkeep]
      rw [if_neg fun heq => hlt.ne (Option.some.inj heq), ih picked hlt, atMostOne_cons_of_drop hkeep]
    case pos =>
      simp only [if_pos hkeep]
      have hlen : (picked ++ [note]).length = picked.length + 1 := by
        rw [List.length_append, List.length_singleton]
      obtain ⟨j, hj⟩ := Nat.exists_eq_add_of_lt hlt
      have hcount : k - picked.length = j + 1 := by omega
      rw [atMostOne_cons_of_keep hkeep, hcount, List.take_succ_cons]
      by_cases hfull : k = picked.length + 1
      · obtain rfl : j = 0 := by omega
        rw [if_pos (by rw [hlen, hfull]), List.take_zero]
      · rw [if_neg fun heq => hfull (by rw [← hlen, Option.some.inj heq]),
          ih (picked ++ [note]) (by omega), hlen, List.append_assoc]
        have hrest : k - (picked.length + 1) = j := by omega
        rw [hrest]
        rfl

/-- The largest notes, with at most one pending. -/
lemma getMaxSpendableNotes_eq {k : Nat} (hk : 0 < k) :
    getMaxSpendableNotes notes options (some k) = (greedyNotes notes options).take k :=
  maxSpendableFrom_eq _ [] hk

/-- They are eligible. -/
lemma mem_greedyNotes {note : Note} (h : note ∈ greedyNotes notes options) :
    note ∈ notes ∧ Eligible options note :=
  mem_filterByOptions.mp (List.mem_reverse.mp ((atMostOne_sublist _ _).subset h))

/-- What pays, pays no more than as many notes of the greedy choice. -/
lemma Pays.sum_le {s : List Note} (h : Pays notes options value s) :
    value ≤ noteSum ((greedyNotes notes options).take s.length) := by
  refine h.reaches.trans ?_
  refine sum_le_sum_take (fun note => Nat.zero_le note.value) (pairwise_reverse true) ?_ h.pending
    le_rfl
  refine List.subperm_of_subset h.nodup fun note hmem => ?_
  exact List.mem_reverse.mpr (mem_filterByOptions.mpr (h.eligible note hmem))

/-- The first notes of the greedy choice pay what they reach. -/
lemma pays_take (hnotes : (notes.map (·.nullifier)).Nodup) {k : Nat}
    (hreach : value ≤ noteSum ((greedyNotes notes options).take k)) :
    Pays notes options value ((greedyNotes notes options).take k) where
  nodup := by
    refine List.Nodup.sublist (List.take_sublist _ _) ?_
    refine List.Nodup.sublist (atMostOne_sublist _ _) ?_
    exact List.nodup_reverse.mpr (nodup_filterByOptions hnotes true)
  eligible note hmem := mem_greedyNotes ((List.take_sublist _ _).subset hmem)
  pending := ((List.take_sublist _ _).countP_le).trans (countP_atMostOne false _)
  reaches := hreach

/-! ## Smaller notes -/

/-- A note in the middle adds its value. -/
lemma noteSum_append_cons (before : List Note) (note : Note) (after : List Note) :
    noteSum (before ++ note :: after) = note.value + (noteSum before + noteSum after) := by
  rw [noteSum, List.map_append, List.map_cons, List.sum_append, List.sum_cons]
  exact Nat.add_left_comm _ _ _

/-- A note that is not used takes the place of one that is. -/
lemma Pays.replace {before after : List Note} {noteToImprove betterNote : Note}
    (h : Pays notes options value (before ++ noteToImprove :: after))
    (hmem : betterNote ∈ notes ∧ Eligible options betterNote)
    (hunused : betterNote ∉ before ++ noteToImprove :: after)
    (hbetter : potentiallyBetter noteToImprove
      ((noteSum (before ++ noteToImprove :: after) : Int) - value)
      ((before ++ noteToImprove :: after).any (·.pending)) betterNote) :
    Pays notes options value (before ++ betterNote :: after) := by
  unfold potentiallyBetter at hbetter
  simp only [Bool.and_eq_true, decide_eq_true_eq, Bool.or_eq_true, Bool.not_eq_true'] at hbetter
  obtain ⟨⟨hminimum, -⟩, hpending⟩ := hbetter
  have hperm (note : Note) : (before ++ note :: after).Perm (note :: (before ++ after)) :=
    List.perm_middle
  obtain ⟨-, hnodup⟩ := List.nodup_cons.mp ((hperm noteToImprove).nodup_iff.mp h.nodup)
  constructor
  case nodup =>
    rw [(hperm betterNote).nodup_iff, List.nodup_cons]
    refine ⟨fun hin => hunused ?_, hnodup⟩
    exact (hperm noteToImprove).mem_iff.mpr (List.mem_cons_of_mem _ hin)
  case eligible =>
    intro note hnote
    rcases List.mem_cons.mp ((hperm betterNote).mem_iff.mp hnote) with rfl | hnote
    · exact hmem
    · exact h.eligible note ((hperm noteToImprove).mem_iff.mpr (List.mem_cons_of_mem _ hnote))
  case pending =>
    have hcount := h.pending
    rw [(hperm noteToImprove).countP_eq, List.countP_cons] at hcount
    rw [(hperm betterNote).countP_eq, List.countP_cons]
    rcases hpending with (hsettled | hnone) | himproved
    · rw [hsettled, if_neg Bool.false_ne_true]
      omega
    · have hzero : (before ++ after).countP (·.pending) = 0 := by
        refine List.countP_eq_zero.mpr fun note hnote hp => ?_
        refine List.any_eq_false.mp hnone note ?_ hp
        exact (hperm noteToImprove).mem_iff.mpr (List.mem_cons_of_mem _ hnote)
      rw [hzero]
      split <;> omega
    · rw [himproved, if_pos rfl] at hcount
      split <;> omega
  case reaches =>
    have hreaches := h.reaches
    rw [noteSum_append_cons] at hminimum hreaches ⊢
    omega

/-- The picked notes get smaller, but as many of them still pay. -/
lemma reduceFrom_pays (indices : List Nat) {picked : List Note}
    (h : Pays notes options value picked) :
    Pays notes options value
        (reduceFrom value (filterByOptions (getSortedNotes notes false) options) indices picked) ∧
      (reduceFrom value (filterByOptions (getSortedNotes notes false) options) indices
        picked).length = picked.length := by
  induction indices generalizing picked with
  | nil => exact ⟨h, rfl⟩
  | cons index indices ih =>
    rw [reduceFrom]
    split
    case h_1 => exact ⟨h, rfl⟩
    case h_2 noteToImprove hnote =>
      dsimp only
      split
      case h_1 => exact ⟨h, rfl⟩
      case h_2 betterNote hbetter =>
        obtain ⟨hlt, hget⟩ := List.getElem?_eq_some_iff.mp hnote
        have hsplit : picked = picked.take index ++ noteToImprove :: picked.drop (index + 1) := by
          rw [← hget, ← List.drop_eq_getElem_cons hlt, List.take_append_drop]
        have hset : picked.set index betterNote =
            picked.take index ++ betterNote :: picked.drop (index + 1) :=
          List.set_eq_take_append_cons_drop.trans (if_pos hlt)
        obtain ⟨hmem, hunused⟩ := List.mem_filter.mp (List.mem_of_find?_eq_some hbetter)
        have hpays : Pays notes options value (picked.set index betterNote) := by
          rw [hset]
          refine Pays.replace (hsplit ▸ h) (mem_filterByOptions.mp hmem) ?_ ?_
          · rw [← hsplit]
            intro hin
            rw [Bool.not_eq_true'] at hunused
            exact Bool.eq_false_iff.mp hunused
              (List.contains_iff_mem.mpr (List.mem_map_of_mem hin))
          · rw [← hsplit]
            exact List.find?_some hbetter
        obtain ⟨hpays', hlen⟩ := ih hpays
        exact ⟨hpays', hlen.trans List.length_set⟩

/-! ## The pick -/

/-- A payment needs a note. -/
lemma Pays.ne_nil {s : List Note} (h : Pays notes options value s) (hvalue : 0 < value) : s ≠ [] := by
  rintro rfl
  exact absurd h.reaches hvalue.not_ge

/-- In any order the notes pay. -/
lemma Pays.perm {s s' : List Note} (h : Pays notes options value s) (hperm : s'.Perm s) :
    Pays notes options value s' where
  nodup := hperm.nodup_iff.mpr h.nodup
  eligible note hmem := h.eligible note (hperm.mem_iff.mp hmem)
  pending := hperm.countP_eq _ ▸ h.pending
  reaches := h.reaches.trans_eq (hperm.map _).sum_eq.symm

/-- A note that reaches the value pays alone. -/
lemma Pays.singleton {s : List Note} {note : Note} (h : Pays notes options value s)
    (hmem : note ∈ s) (hreach : value ≤ note.value) : Pays notes options value [note] where
  nodup := List.nodup_singleton note
  eligible := List.forall_mem_singleton.mpr (h.eligible note hmem)
  pending := List.countP_le_length
  reaches := hreach

/-- As few notes as pay, or two where one pays. -/
def Fewest (notes : List Note) (options : NotePickerOptions) (value : Nat) (s : List Note) : Prop :=
  (∀ s', Pays notes options value s' → s.length ≤ s'.length) ∨
    s.length = 2 ∧ ∃ s', Pays notes options value s' ∧ s'.length = 1

/-- More of the largest notes are worth more. -/
lemma noteSum_take_le {i k : Nat} (h : i ≤ k) : noteSum ((greedyNotes notes options).take i) ≤
    noteSum ((greedyNotes notes options).take k) :=
  sum_take_le_sum_take (fun note : Note => Nat.zero_le note.value) _ h

/-- Where `k` notes of the greedy choice do not reach the value, what pays has more. -/
lemma Pays.length_gt {s : List Note} (h : Pays notes options value s) {k : Nat}
    (hlt : noteSum ((greedyNotes notes options).take k) < value) : k < s.length := by
  by_contra hle
  exact absurd h.sum_le (not_le.mpr (lt_of_le_of_lt (noteSum_take_le (not_lt.mp hle)) hlt))

/-- Nothing is picked if nothing pays, else what is picked pays with the fewest notes. -/
lemma pick_cases (hnotes : (notes.map (·.nullifier)).Nodup) (hvalue : 0 < value) :
    (pick notes value options = [] ∧ ∀ s, ¬ Pays notes options value s) ∨
      (Pays notes options value (pick notes value options) ∧
        Fewest notes options value (pick notes value options)) := by
  unfold pick
  dsimp only
  rcases @findMinimumFrom_spec _ (filterByOptions (getSortedNotes notes true) options).reverse 0 _
    false hvalue with ⟨hrun, hlt⟩ | ⟨k, hrun, hlen, hlt, hreach⟩
  · -- not enough notes
    refine .inl ⟨if_pos hrun, fun s hs => ?_⟩
    rw [Nat.zero_add] at hlt
    refine absurd hs.sum_le (not_le.mpr (lt_of_le_of_lt ?_ hlt))
    exact (noteSum_take_le (le_max_left _ (greedyNotes notes options).length)).trans_eq
      (congrArg noteSum (List.take_of_length_le (le_max_right _ _)))
  · refine .inr ?_
    have hmin : findMinimumNotes value (filterByOptions (getSortedNotes notes true) options) = k + 1 :=
      hrun.trans (by omega)
    rw [Nat.zero_add] at hlt hreach
    rw [hmin, if_neg (Nat.succ_ne_zero k)]
    obtain ⟨num, hnum⟩ : ∃ num, num = if k + 1 = 1 then 2 else k + 1 := ⟨_, rfl⟩
    have hle : k + 1 ≤ num := by
      rw [hnum]
      split <;> omega
    rw [← hnum, getMaxSpendableNotes_eq (Nat.lt_of_lt_of_le k.succ_pos hle),
      reducePickedNotesValues]
    have htake : Pays notes options value ((greedyNotes notes options).take num).reverse :=
      (pays_take hnotes (hreach.trans (noteSum_take_le hle))).perm (List.reverse_perm _)
    obtain ⟨hpays, hlength⟩ := reduceFrom_pays (List.range
      ((greedyNotes notes options).take num).reverse.length) htake
    have hcount := hlength.trans (List.length_reverse.trans List.length_take)
    split
    case h_1 note hexact =>
      have hvalueEq : note.value = value := by
        have := List.find?_some hexact
        exact beq_iff_eq.mp this
      refine ⟨hpays.singleton (List.mem_of_find?_eq_some hexact) hvalueEq.ge, .inl fun s hs => ?_⟩
      exact List.length_pos_of_ne_nil (hs.ne_nil hvalue)
    case h_2 =>
      refine ⟨hpays, ?_⟩
      unfold Fewest
      rw [hcount]
      by_cases hone : k + 1 = 1
      · rw [if_pos hone] at hnum
        by_cases htwo : 2 ≤ (greedyNotes notes options).length
        · refine .inr ⟨by omega, _, pays_take hnotes hreach, ?_⟩
          rw [List.length_take]
          omega
        · refine .inl fun s hs => ?_
          have hpos := List.length_pos_of_ne_nil (hs.ne_nil hvalue)
          omega
      · rw [if_neg hone] at hnum
        refine .inl fun s hs => ?_
        have hgt := hs.length_gt hlt
        omega

/-- `pick` returns notes that pay if there are any, and the fewest. -/
theorem pick_spec (hnotes : (notes.map (·.nullifier)).Nodup) (hvalue : 0 < value) :
    (pick notes value options = [] ↔ ∀ s, ¬ Pays notes options value s) ∧
    (pick notes value options ≠ [] →
      Pays notes options value (pick notes value options) ∧
        Fewest notes options value (pick notes value options)) := by
  rcases pick_cases hnotes hvalue with ⟨hempty, hnone⟩ | ⟨hpays, hfewest⟩
  · exact ⟨iff_of_true hempty hnone, fun hne => absurd hempty hne⟩
  · refine ⟨iff_of_false (hpays.ne_nil hvalue) fun hnone => hnone _ hpays, fun _ => ⟨hpays, hfewest⟩⟩

/-- Four notes, one of them pending, and a payment that takes three. -/
def sampleNotes : List Note :=
  [⟨7, 1, false, false, false⟩, ⟨10, 2, true, true, false⟩, ⟨9, 3, false, false, false⟩,
    ⟨3, 4, false, false, false⟩]

example : (pick sampleNotes 15 {}).map (·.value) = [7, 9] := by decide

/-- Two notes are needed. -/
theorem pick_spec_sample :
    (pick sampleNotes 24 {} = [] ↔ ∀ s, ¬ Pays sampleNotes {} 24 s) ∧
    (pick sampleNotes 24 {} ≠ [] →
      Pays sampleNotes {} 24 (pick sampleNotes 24 {}) ∧
        Fewest sampleNotes {} 24 (pick sampleNotes 24 {})) :=
  pick_spec (by decide) (by decide)

end AztecConnect.Client.NotePicker
