import AztecConnect.Circuit.Notes

/-!
# The trees behind the roots

The gadgets of the circuit library see the roots of trees only. They are sound for the trees with a
root (`SoundTree`) if what they check of the roots holds of the trees.
-/

namespace AztecConnect.Circuit

instance : NeZero (1 : Fr) := ⟨by decide +kernel⟩

/-- The values of a tree from an index on are replaced. -/
def insertBatch (t : Nat → Fr) (start : Nat) (values : List Fr) : Nat → Fr :=
  fun i => if start ≤ i then (values[i - start]?).getD (t i) else t i

/-- The checks of paths are sound: `root` is the root of the tree with the given leaves. -/
structure SoundTree (H : Primitives) (root : (Nat → Fr) → Fr) : Prop where
  check : ∀ t path value index, H.checkMembership (root t) path value index = true → t index = value
  update : ∀ t newRoot newValue path oldValue index,
    H.updateMembership newRoot newValue (root t) path oldValue index = true →
      t index = oldValue ∧ newRoot = root (Function.update t index newValue)
  batch : ∀ t newRoot path values start,
    H.batchUpdateMembership newRoot (root t) path values start = true →
      newRoot = root (insertBatch t start.val values)

/-! ## Trees in a table -/

namespace TreeTable

/-- The leaves of a tree. -/
def SIZE : Nat := 64

/-- A tree is given by its leaves. -/
abbrev Leaves : Type := Fin SIZE → Fr

/-- All other leaves are zero. -/
def Leaves.tree (f : Leaves) : Nat → Fr := fun i => if h : i < SIZE then f ⟨i, h⟩ else 0

/-- A tree whose first leaves are given. -/
def leaves (values : List Fr) : Leaves := fun i => (values[i.val]?).getD 0

variable (table : List Leaves)

/-- The position of the tree in the table, from one on; zero is the root of no tree. -/
def rootOf (t : Nat → Fr) : Fr :=
  match table.findIdx? fun f => decide (∀ i : Fin SIZE, t i = f i) with
  | some k => (k + 1 : Nat)
  | none => 0

/-- The tree with a root, if its index is not too large. -/
def treeOf (root : Fr) (index : Nat) : Option Leaves :=
  if root ≠ 0 ∧ index < SIZE then table[root.val - 1]? else none

/-- A root in the table has one tree, whose leaf is compared. -/
def checkMembership (root : Fr) (_path : Unit) (value : Fr) (index : Nat) : Bool :=
  (treeOf table root index).any fun f => f.tree index == value

/-- The old leaf is compared, the new root is that of the tree with the new leaf. -/
def updateMembership (newRoot newValue oldRoot : Fr) (_path : Unit) (oldValue : Fr) (index : Nat) :
    Bool :=
  (treeOf table oldRoot index).any fun f =>
    f.tree index == oldValue && newRoot == rootOf table (Function.update f.tree index newValue)

/-- The same for a batch of leaves. -/
def batchUpdateMembership (newRoot oldRoot : Fr) (_path : Unit) (newValues : List Fr) (start : Fr) :
    Bool :=
  (treeOf table oldRoot start.val).any fun f =>
    newRoot == rootOf table (insertBatch f.tree start.val newValues)

variable {table}

/-- The leaves below the size are the given ones. -/
lemma Leaves.tree_of_lt (f : Leaves) {i : Nat} (h : i < SIZE) : f.tree i = f ⟨i, h⟩ := dif_pos h

/-- The root is that of the first leaves. -/
lemma rootOf_congr {t t' : Nat → Fr} (h : ∀ i < SIZE, t i = t' i) : rootOf table t = rootOf table t' := by
  have hsame (f : Leaves) : decide (∀ i : Fin SIZE, t i = f i) = decide (∀ i : Fin SIZE, t' i = f i) :=
    decide_eq_decide.mpr (forall_congr' fun i => by rw [h i i.isLt])
  unfold rootOf
  simp only [hsame]

/-- The root of a tree leads back to its leaves: the positions in the table are distinct field
elements. -/
lemma treeOf_rootOf (hsize : table.length < fieldModulus) {t : Nat → Fr} {index : Nat} {f : Leaves}
    (h : treeOf table (rootOf table t) index = some f) :
    index < SIZE ∧ ∀ i < SIZE, t i = f.tree i := by
  unfold treeOf at h
  split at h
  case isFalse => nomatch h
  case isTrue hroot =>
    obtain ⟨hne, hindex⟩ := hroot
    refine ⟨hindex, fun i hi => ?_⟩
    unfold rootOf at h hne
    cases hfind : table.findIdx? fun f => decide (∀ i : Fin SIZE, t i = f i) with
    | none =>
      rw [hfind] at hne
      exact absurd rfl hne
    | some k =>
      obtain ⟨hk, hmatch, -⟩ := List.findIdx?_eq_some_iff_getElem.mp hfind
      have hval : ((k + 1 : Nat) : Fr).val = k + 1 := val_natCast_of_lt (by omega)
      rw [hfind] at h
      simp only [hval, Nat.add_sub_cancel, List.getElem?_eq_getElem hk, Option.some.injEq] at h
      rw [f.tree_of_lt hi, ← h]
      exact of_decide_eq_true hmatch ⟨i, hi⟩

/-- Trees that agree on the leaves still do after an update. -/
lemma update_congr {t t' : Nat → Fr} (h : ∀ i < SIZE, t i = t' i) (index : Nat) (value : Fr) :
    ∀ i < SIZE, Function.update t index value i = Function.update t' index value i := by
  intro i hi
  by_cases heq : i = index
  · rw [heq, Function.update_self, Function.update_self]
  · rw [Function.update_of_ne heq, Function.update_of_ne heq, h i hi]

/-- And after a batch. -/
lemma insertBatch_congr {t t' : Nat → Fr} (h : ∀ i < SIZE, t i = t' i) (start : Nat)
    (values : List Fr) : ∀ i < SIZE, insertBatch t start values i = insertBatch t' start values i := by
  intro i hi
  unfold insertBatch
  rw [h i hi]

variable (table) in
/-- Primitives that know the trees of the table, and a hash that is never zero. -/
def primitives : Primitives where
  compress values _ := if values.sum = 0 then 1 else values.sum
  compressMessage values := values.sum
  blake2s x := x
  sha256 words := words.sum
  onCurve _ := true
  fixedBaseScalarMulG1 x := ⟨x, x⟩
  fixedBaseScalarMul x _ := ⟨x, x⟩
  Signature := Unit
  verifySignature _ _ _ := true
  HashPath := Unit
  checkMembership := checkMembership table
  updateMembership := updateMembership table
  batchUpdateMembership := batchUpdateMembership table

/-- No hash is zero. -/
lemma compress_ne (values : List Fr) (g : GeneratorIndex) : (primitives table).compress values g ≠ 0 := by
  show (if values.sum = 0 then 1 else values.sum) ≠ 0
  split
  case isTrue => decide
  case isFalse h => exact h

/-- The table is a sound tree gadget for every list of trees that fits the field. -/
lemma sound (hsize : table.length < fieldModulus) : SoundTree (primitives table) (rootOf table) where
  check t path value index h := by
    obtain ⟨f, hf, hvalue⟩ := (Option.any_eq_true _ _).mp h
    obtain ⟨hindex, htree⟩ := treeOf_rootOf hsize hf
    exact (htree index hindex).trans (beq_iff_eq.mp hvalue)
  update t newRoot newValue path oldValue index h := by
    obtain ⟨f, hf, hchecked⟩ := (Option.any_eq_true _ _).mp h
    obtain ⟨hindex, htree⟩ := treeOf_rootOf hsize hf
    obtain ⟨hold, hnew⟩ := (Bool.and_eq_true _ _).mp hchecked
    refine ⟨(htree index hindex).trans (beq_iff_eq.mp hold), (beq_iff_eq.mp hnew).trans ?_⟩
    exact (rootOf_congr (update_congr htree index newValue)).symm
  batch t newRoot path values start h := by
    obtain ⟨f, hf, hnew⟩ := (Option.any_eq_true _ _).mp h
    obtain ⟨-, htree⟩ := treeOf_rootOf hsize hf
    exact (beq_iff_eq.mp hnew).trans (rootOf_congr (insertBatch_congr htree start.val values)).symm

end TreeTable

end AztecConnect.Circuit
