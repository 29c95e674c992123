import Mathlib.Data.BitVec
import Mathlib.Data.List.Basic
import Mathlib.Logic.Function.Basic

/-!
# Arrays emulated by a mapping and a length

A mapping `f` from `w`-bit keys, together with a length `n`, stands for the array of its first `n`
cells; cells past the length are stale and carry no meaning. `contents f n` is that array as a list.
Pushing, overwriting stale cells, truncating from the end and copying one array onto the end of
another become the corresponding list operations, provided the lengths stay within the key space.
-/

namespace MappedArray

variable {w : Nat} {β : Type}

/-- The first `n` cells of the mapping, in order. -/
def contents (f : BitVec w → β) (n : Nat) : List β :=
  (List.range n).map fun i => f (BitVec.ofNat w i)

/-- The last `k` of the first `n` cells. -/
def top (f : BitVec w → β) (n k : Nat) : List β := (contents f n).drop (n - k)

/-- No elements, no contents. -/
@[simp] lemma contents_zero (f : BitVec w → β) : contents f 0 = [] := rfl

/-- As many contents as elements. -/
@[simp] lemma length_contents (f : BitVec w → β) (n : Nat) : (contents f n).length = n := by
  simp [contents]

/-- One more cell is one more entry at the end. -/
lemma contents_succ (f : BitVec w → β) (n : Nat) :
    contents f (n + 1) = contents f n ++ [f (BitVec.ofNat w n)] := by
  simp [contents, List.range_succ]

/-- Dropping cells from the end truncates the list. -/
lemma take_contents (f : BitVec w → β) {m n : Nat} (h : m ≤ n) :
    (contents f n).take m = contents f m := by
  simp [contents, ← List.map_take, List.take_range, Nat.min_eq_left h]

/-- An array is its bottom part followed by its top part. -/
lemma contents_append_top (f : BitVec w → β) {n k : Nat} (_ : k ≤ n) :
    contents f (n - k) ++ top f n k = contents f n := by
  rw [top, ← take_contents f (Nat.sub_le n k), List.take_append_drop]

/-- As many from the top as asked for. -/
@[simp] lemma length_top (f : BitVec w → β) {n k : Nat} (h : k ≤ n) : (top f n k).length = k := by
  simp only [top, List.length_drop, length_contents]
  omega

/-- The top of an array, cell by cell. -/
lemma top_eq_map (f : BitVec w → β) {n k : Nat} (h : k ≤ n) :
    top f n k = (List.range k).map fun i => f (BitVec.ofNat w (n - k + i)) := by
  apply List.ext_getElem
  · rw [length_top f h]
    simp
  · intro i h₁ h₂
    simp [top, contents]

/-- The contents depend only on the cells below the length. -/
lemma contents_congr {f g : BitVec w → β} {n : Nat}
    (h : ∀ i < n, f (BitVec.ofNat w i) = g (BitVec.ofNat w i)) : contents f n = contents g n := by
  apply List.map_congr_left
  intro i hi
  exact h i (List.mem_range.mp hi)

/-- Distinct indices within the key space are distinct keys. -/
lemma ofNat_ne {i j : Nat} (hi : i < 2 ^ w) (hj : j < 2 ^ w) (hij : i ≠ j) :
    BitVec.ofNat w i ≠ BitVec.ofNat w j := by
  intro h
  have h' := congrArg BitVec.toNat h
  rw [BitVec.toNat_ofNat, BitVec.toNat_ofNat, Nat.mod_eq_of_lt hi, Nat.mod_eq_of_lt hj] at h'
  exact hij h'

/-- Writing a stale cell changes nothing. -/
lemma contents_update_stale (f : BitVec w → β) {n k : Nat} (v : β) (hk : k < 2 ^ w) (h : n ≤ k) :
    contents (Function.update f (BitVec.ofNat w k) v) n = contents f n := by
  apply contents_congr
  intro i hi
  exact Function.update_of_ne (ofNat_ne (by omega) hk (by omega)) _ _

/-- Writing the first stale cell and lengthening the array is a push. -/
lemma contents_push (f : BitVec w → β) {n : Nat} (v : β) (hn : n < 2 ^ w) :
    contents (Function.update f (BitVec.ofNat w n) v) (n + 1) = contents f n ++ [v] := by
  rw [contents_succ, contents_update_stale f v hn (le_refl n), Function.update_self]

/-- Copy the first `k` cells of `g` onto the cells `n, n + 1, …` of `f`, starting with cell `i`. -/
def copyFrom (g : BitVec w → β) (n : Nat) : Nat → Nat → (BitVec w → β) → (BitVec w → β)
  | _, 0, f => f
  | i, k + 1, f =>
    copyFrom g n (i + 1) k (Function.update f (BitVec.ofNat w (n + i)) (g (BitVec.ofNat w i)))

/-- Copying an array onto the end of another one appends its contents. -/
lemma contents_copyFrom (g : BitVec w → β) (n i k : Nat) (f : BitVec w → β)
    (h : n + i + k ≤ 2 ^ w) :
    contents (copyFrom g n i k f) (n + i + k) =
      contents f (n + i) ++ (List.range' i k).map fun j => g (BitVec.ofNat w j) := by
  induction k generalizing i f with
  | zero => simp [copyFrom]
  | succ k ih =>
    have hstep := ih (i + 1) (Function.update f (BitVec.ofNat w (n + i)) (g (BitVec.ofNat w i)))
      (by omega)
    rw [copyFrom, show n + i + (k + 1) = n + (i + 1) + k by omega, hstep,
      show n + (i + 1) = n + i + 1 by omega, contents_push f _ (by omega), List.range'_succ]
    simp

/-- The copy started at cell `0`. -/
lemma contents_copyFrom_zero (g : BitVec w → β) (n k : Nat) (f : BitVec w → β)
    (h : n + k ≤ 2 ^ w) :
    contents (copyFrom g n 0 k f) (n + k) = contents f n ++ contents g k := by
  have h' := contents_copyFrom g n 0 k f (by omega)
  rw [Nat.add_zero] at h'
  rw [h']
  simp only [contents, List.range_eq_range']

end MappedArray
