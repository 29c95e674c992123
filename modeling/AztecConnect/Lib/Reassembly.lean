import Mathlib.Algebra.Group.Nat.Defs
import Mathlib.Data.List.GetD
import Mathlib.Data.List.Induction

/-!
# Reassembly of chunks

A list is cut into chunks of one length (`cut`). Chunks that arrive with their index and with the
number of chunks are put into an array; a number that is not the length of the array starts a new one.
After chunks of one number the array has that length, and at every index that occurs one of its chunks
(`foldl_store`), whatever was there before.
-/

namespace Reassembly

variable {α : Type}

/-! ## Cutting -/

/-- The list in `n` pieces of a size. -/
def cut (size : Nat) (xs : List α) (n : Nat) : List (List α) :=
  (List.range n).map fun i => (xs.drop (i * size)).take size

/-- The pieces together are the front of the list. -/
lemma flatten_cut (size : Nat) (xs : List α) (n : Nat) :
    (cut size xs n).flatten = xs.take (n * size) := by
  induction n with
  | zero => rw [Nat.zero_mul]; rfl
  | succ n ih =>
    rw [cut, List.range_succ, List.map_append, List.flatten_append]
    change (cut size xs n).flatten ++ [(xs.drop (n * size)).take size].flatten = _
    rw [ih, List.flatten_singleton, Nat.succ_mul, List.take_add]

/-! ## Blocks of one length -/

section Blocks

variable {β : Type} {size : Nat} {blocks : List (List α)}

/-- The length of blocks of one size. -/
lemma length_flatten_blocks (h : ∀ b ∈ blocks, b.length = size) :
    blocks.flatten.length = blocks.length * size := by
  induction blocks with
  | nil => exact (Nat.zero_mul _).symm
  | cons b bs ih =>
    rw [List.flatten_cons, List.length_append, h b List.mem_cons_self,
      ih fun b hb => h b (List.mem_cons_of_mem _ hb), List.length_cons, Nat.succ_mul, Nat.add_comm]

/-- A list is read back by its indices. -/
lemma map_getD_range (xs : List α) (d : α) : (List.range xs.length).map (fun i => xs.getD i d) = xs := by
  refine List.ext_getElem (by rw [List.length_map, List.length_range]) fun i _ hi => ?_
  rw [List.getElem_map, List.getElem_range, List.getD_eq_getElem _ _ hi]

/-- The elements of a block, by their indices in the list. -/
lemma getD_block (h : ∀ b ∈ blocks, b.length = size) {i : Nat} (hi : i < blocks.length) (d : α) :
    (List.range size).map (fun j => blocks.flatten.getD (i * size + j) d) = blocks[i] := by
  induction blocks generalizing i with
  | nil => exact absurd hi (Nat.not_lt_zero _)
  | cons b bs ih =>
    have hb := h b List.mem_cons_self
    cases i with
    | zero =>
      refine Eq.trans (List.map_congr_left fun j hj => ?_) (hb ▸ map_getD_range b d)
      rw [Nat.zero_mul, Nat.zero_add, List.flatten_cons,
        List.getD_append _ _ _ _ (hb ▸ List.mem_range.mp hj)]
    | succ i =>
      have hrest := ih (fun b hb => h b (List.mem_cons_of_mem _ hb)) (Nat.lt_of_succ_lt_succ hi)
      refine Eq.trans (List.map_congr_left fun j _ => ?_) hrest
      rw [Nat.succ_mul, List.flatten_cons, List.getD_append_right _ _ _ _ (by rw [hb]; omega), hb]
      exact congrArg (bs.flatten.getD · d) (by omega)

/-- The blocks, by the indices of their elements. -/
lemma map_blocks (h : ∀ b ∈ blocks, b.length = size) (f : List α → β) (d : α) :
    (List.range blocks.length).map (fun i =>
      f ((List.range size).map fun j => blocks.flatten.getD (i * size + j) d)) = blocks.map f := by
  refine List.ext_getElem (by rw [List.length_map, List.length_map, List.length_range]) fun i hi _ => ?_
  rw [List.length_map, List.length_range] at hi
  rw [List.getElem_map, List.getElem_range, List.getElem_map, getD_block h hi d]

end Blocks

/-! ## Arrays -/

/-- The elements of an array: what has never been assigned beyond the length is a hole. -/
inductive Slot (α : Type) where
  | hole
  | undefined
  | item (a : α)
  deriving DecidableEq

/-- A new array of `n` undefined slots. -/
def fresh (n : Nat) : List (Slot α) := List.replicate n .undefined

/-- The greatest index of an array is `2 ^ 32 - 2`. -/
def assign (arr : List (Slot α)) (i : Nat) (a : α) : List (Slot α) :=
  if i < arr.length then arr.set i (.item a)
  else if i < 2 ^ 32 - 1 then arr ++ List.replicate (i - arr.length) .hole ++ [.item a]
  else arr

/-- An assignment within the array replaces a slot. -/
lemma assign_of_lt {arr : List (Slot α)} {i : Nat} (h : i < arr.length) (a : α) :
    assign arr i a = arr.set i (.item a) := if_pos h

/-! ## Storing -/

/-- A piece of data with its place among how many. -/
structure Chunk (α : Type) where
  index : Nat
  total : Nat
  data : α

/-- The array that a chunk is stored in: a new one, unless there is one of the right length. -/
def target (total : Nat) : Option (List (Slot α)) → List (Slot α)
  | none => fresh total
  | some arr => if arr.length ≠ total then fresh total else arr

/-- The array has a slot for each piece. -/
lemma length_target (total : Nat) (arr : Option (List (Slot α))) :
    (target total arr).length = total := by
  cases arr with
  | none => exact List.length_replicate
  | some arr =>
    by_cases h : arr.length ≠ total
    · rw [target, if_pos h]
      exact List.length_replicate
    · rw [target, if_neg h]
      exact not_not.mp h

/-- A piece is put in its place. -/
def store (arr : Option (List (Slot α))) (c : Chunk α) : Option (List (Slot α)) :=
  some (assign (target c.total arr) c.index c.data)

/-- Chunks of one number fill the array at all their indices. -/
theorem foldl_store {n : Nat} {cs : List (Chunk α)} (hne : cs ≠ []) (htotal : ∀ c ∈ cs, c.total = n)
    (hindex : ∀ c ∈ cs, c.index < n) (start : Option (List (Slot α))) :
    ∃ arr, cs.foldl store start = some arr ∧ arr.length = n ∧
      ∀ c ∈ cs, ∃ c' ∈ cs, c'.index = c.index ∧ arr[c.index]? = some (.item c'.data) := by
  induction cs using List.reverseRecOn with
  | nil => exact absurd rfl hne
  | append_singleton cs c ih =>
    have hc := htotal c (List.mem_append_right _ List.mem_cons_self)
    have hlt := hindex c (List.mem_append_right _ List.mem_cons_self)
    have hlength := length_target c.total (cs.foldl store start)
    rw [List.foldl_append, List.foldl_cons, List.foldl_nil, store, assign_of_lt (by omega)]
    refine ⟨_, rfl, by rw [List.length_set, hlength, hc], fun d hd => ?_⟩
    by_cases heq : d.index = c.index
    · refine ⟨c, List.mem_append_right _ List.mem_cons_self, heq.symm, ?_⟩
      rw [heq, List.getElem?_set_self (by omega)]
    · -- another index: it was there before, in an array of the right length
      have hd' : d ∈ cs := (List.mem_append.mp hd).resolve_right fun h =>
        heq (congrArg Chunk.index (List.mem_singleton.mp h))
      obtain ⟨arr, harr, hlen, hall⟩ := ih (List.ne_nil_of_mem hd')
        (fun c hc => htotal c (List.mem_append_left _ hc))
        (fun c hc => hindex c (List.mem_append_left _ hc))
      obtain ⟨c', hc', hindex', hget⟩ := hall d hd'
      have htarget : target c.total (some arr) = arr := if_neg (not_not.mpr (by omega))
      refine ⟨c', List.mem_append_left _ hc', hindex', ?_⟩
      rw [harr, htarget, List.getElem?_set_ne (Ne.symm heq)]
      exact hget

/-- An array with an element at every index is a list of elements. -/
lemma eq_map_item {β : Type} (f : α → β) {arr : List (Slot α)} {bs : List β}
    (hlength : arr.length = bs.length)
    (h : ∀ i < arr.length, ∃ a, arr[i]? = some (.item a) ∧ bs[i]? = some (f a)) :
    ∃ as : List α, arr = as.map .item ∧ as.map f = bs := by
  induction arr generalizing bs with
  | nil => exact ⟨[], rfl, (List.eq_nil_of_length_eq_zero hlength.symm).symm⟩
  | cons slot arr ih =>
    cases bs with
    | nil => exact absurd hlength (Nat.succ_ne_zero _)
    | cons b bs =>
      obtain ⟨a, ha, hb⟩ := h 0 (Nat.succ_pos _)
      obtain ⟨as, has, hmap⟩ := ih (Nat.succ.inj hlength) fun i hi => h (i + 1) (Nat.succ_lt_succ hi)
      rw [List.getElem?_cons_zero, Option.some.injEq] at ha hb
      exact ⟨a :: as, by rw [ha, has, List.map_cons], by rw [List.map_cons, ← hb, hmap]⟩

/-- Chunks that occur at every index, each with its own datum, are put together, whatever was there. -/
theorem foldl_store_complete {β : Type} (f : α → β) {cs : List (Chunk α)} {bs : List β} (hne : bs ≠ [])
    (htotal : ∀ c ∈ cs, c.total = bs.length) (hdata : ∀ c ∈ cs, bs[c.index]? = some (f c.data))
    (hall : ∀ i < bs.length, ∃ c ∈ cs, c.index = i) (start : Option (List (Slot α))) :
    ∃ as : List α, cs.foldl store start = some (as.map .item) ∧ as.map f = bs := by
  have hcs : cs ≠ [] := by
    obtain ⟨c, hc, -⟩ := hall 0 (List.length_pos_iff.mpr hne)
    exact List.ne_nil_of_mem hc
  have hindex : ∀ c ∈ cs, c.index < bs.length := fun c hc =>
    (List.getElem?_eq_some_iff.mp (hdata c hc)).1
  obtain ⟨arr, hfold, hlength, hget⟩ := foldl_store hcs htotal hindex start
  obtain ⟨as, has, hmap⟩ := eq_map_item f hlength fun i hi => by
    obtain ⟨c, hc, rfl⟩ := hall i (by omega)
    obtain ⟨c', hc', heq, hitem⟩ := hget c hc
    exact ⟨c'.data, hitem, heq ▸ hdata c' hc'⟩
  exact ⟨as, has ▸ hfold, hmap⟩

end Reassembly
