import AztecConnect.Client.MerkleTreeAppends

/-!
# The world state of the client

Translation of `barretenberg.js/src/merkle_tree/memory_merkle_tree.ts`,
`barretenberg.js/src/world_state/world_state.ts` and `sdk/src/block_context/block_context.ts`. The
database of a world state is new when it is initialised. Nothing runs while a block context holds its
mutex.
-/

namespace AztecConnect.Client

open HashTree

/-! ## Trees in memory -/

/-- `MemoryMerkleTree`: the leaves and the nodes, layer by layer. -/
structure MemoryMerkleTree (α : Type) where
  notes : List α
  hashes : List α

namespace MemoryMerkleTree

variable {α : Type} (compress : α → α → α) (ZERO_ELEMENT : α)

/-- `isPowerOf2`. -/
def isPowerOf2 (v : Nat) : Prop := v ≠ 0 ∧ v &&& (v - 1) = 0

instance (v : Nat) : Decidable (isPowerOf2 v) := inferInstanceAs (Decidable (_ ∧ _))

/-- `MemoryMerkleTree.new`. -/
def new (notes : List α) : Except String (MemoryMerkleTree α) :=
  if isPowerOf2 notes.length then .ok ⟨notes, hashToTree compress notes.length.log2 notes⟩
  else .error "MemoryMerkleTree can only handle powers of 2."

/-- The loop over the layers. -/
def hashPathLoop (hashes : List α) (index offset layerSize : Nat) : List (α × α) :=
  if layerSize > 1 then
    let hashIndex := index + offset
    (if index % 2 = 1
      then (hashes.getD (hashIndex - 1) ZERO_ELEMENT, hashes.getD hashIndex ZERO_ELEMENT)
      else (hashes.getD hashIndex ZERO_ELEMENT, hashes.getD (hashIndex + 1) ZERO_ELEMENT)) ::
      hashPathLoop hashes (index / 2) (offset + layerSize) (layerSize / 2)
  else []
termination_by layerSize

/-- `getHashPath`. -/
def getHashPath (tree : MemoryMerkleTree α) (index : Int) : Except String (List (α × α)) :=
  if index < 0 ∨ index ≥ tree.notes.length then .error "Index out of bounds"
  else .ok (hashPathLoop ZERO_ELEMENT tree.hashes index.toNat 0 tree.notes.length)

/-- `getRoot`: the last of the nodes. -/
def getRoot (tree : MemoryMerkleTree α) : α := tree.hashes.getD (tree.hashes.length - 1) ZERO_ELEMENT

end MemoryMerkleTree

/-! ## The world state -/

def DATA_TREE_DEPTH : Nat := 32

/-- `WorldState`. -/
structure WorldState (α : Type) where
  tree : MerkleTree α
  subTreeDepth : Nat

/-- A shift of a number turns it into a signed one of 32 bits. -/
def convertNoteIndexToSubTreeIndex (subTreeDepth noteIndex : Nat) : Int :=
  (BitVec.ofNat 32 noteIndex).toInt >>> subTreeDepth

namespace WorldState

variable {α : Type} (compress : α → α → α) (ZERO_ELEMENT : α)

/-- `init`: a tree over subtrees of this depth, all empty. -/
def init (subTreeDepth : Nat) : Except String (WorldState α) := do
  let subTreeSize := 1 <<< subTreeDepth
  let zeroNotes := List.replicate subTreeSize ZERO_ELEMENT
  let subTree ← MemoryMerkleTree.new compress zeroNotes
  let treeSize := DATA_TREE_DEPTH - subTreeDepth
  let tree ← MerkleTree.new compress (fun _ => none) treeSize (subTree.getRoot ZERO_ELEMENT)
  .ok ⟨tree, subTreeDepth⟩

variable [DecidableEq α] (worldState : WorldState α)

/-- Of an index, the tree reads the lower 32 bits. -/
def getHashPath (index : Int) : List (α × α) :=
  worldState.tree.getHashPath compress (BitVec.ofInt 32 index).toNat

/-- `buildFullHashPath`: the path in the subtree, then that of the subtree. -/
def buildFullHashPath (noteIndex : Nat) (immutableHashPath : List (α × α)) : List (α × α) :=
  let noteSubTreeIndex := convertNoteIndexToSubTreeIndex worldState.subTreeDepth noteIndex
  let mutablePath := worldState.getHashPath compress noteSubTreeIndex
  immutableHashPath ++ mutablePath

/-- From a negative index on. The size after the first batch is negative, which `writeUInt32LE` throws
for, or zero. -/
def updateFromNegative (tree : MerkleTree α) (m : Nat) (leafHashes : List α) :
    Except String (MerkleTree α) :=
  if leafHashes = [] then .ok tree
  else
    let index := 2 ^ 32 - (m + 1)
    let subtreeDepth := MerkleTree.subtreeDepthFor leafHashes.length index
    if 2 ^ subtreeDepth < m + 1 then .error
      "The value of \"value\" is out of range. It must be >= 0 and <= 4294967295."
    else do
      let hashes := hashToTree compress subtreeDepth (leafHashes.take (2 ^ subtreeDepth))
      let (root, batch) ← tree.updateElementsInternal compress hashes subtreeDepth tree.depth tree.root index
      MerkleTree.updateLeafHashes compress (tree.after root 0 batch) 0 (leafHashes.drop (2 ^ subtreeDepth))

/-- `updateElements` of the tree, which `insertElements` may call with a negative index. -/
def updateElements (tree : MerkleTree α) (index : Int) (values : List α) :
    Except String (MerkleTree α) :=
  match index with
  | .ofNat index => tree.updateElements compress ZERO_ELEMENT index values
  | .negSucc m => updateFromNegative compress tree m
    (values.map fun v => if v = ZERO_ELEMENT then tree.initialLeafValue else v)

/-- `insertElements`. -/
def insertElements (startIndex : Nat) (elements : List α) : Except String (WorldState α) := do
  let subRootIndex := convertNoteIndexToSubTreeIndex worldState.subTreeDepth startIndex
  let tree ← updateElements compress ZERO_ELEMENT worldState.tree subRootIndex elements
  .ok { worldState with tree }

/-- `getRoot`. -/
def getRoot : α := worldState.tree.root

end WorldState

/-! ## The context of a block -/

/-- `BlockContext`. -/
structure BlockContext (α : Type) where
  rollupSize : Nat
  dataStartIndex : Nat
  /-- The commitments of the inner proofs. -/
  noteCommitments : List α
  subtree : Option (MemoryMerkleTree α)
  startIndex : Nat

namespace BlockContext

variable {α : Type} (compress : α → α → α) (ZERO_ELEMENT : α)

def NUM_NEW_DATA_TREE_NOTES_PER_TX : Nat := 2

/-- `fromBlock`. -/
def fromBlock (rollupSize dataStartIndex : Nat) (noteCommitments : List α) : BlockContext α :=
  ⟨rollupSize, dataStartIndex, noteCommitments, none, 0⟩

/-- What is initialised once. -/
def initSubtree (b : BlockContext α) (index : Nat) : Except String (MemoryMerkleTree α) :=
  let numNotesInFullRollup := NUM_NEW_DATA_TREE_NOTES_PER_TX * b.rollupSize
  let maxIndex := b.dataStartIndex + numNotesInFullRollup
  if index < b.dataStartIndex ∨ index ≥ maxIndex then .error "Index out of bounds."
  else if numNotesInFullRollup < b.noteCommitments.length then .error "Invalid array length"
  else
    let allNotes := b.noteCommitments ++
      List.replicate (numNotesInFullRollup - b.noteCommitments.length) ZERO_ELEMENT
    MemoryMerkleTree.new compress allNotes

/-- The result, and the context after the call. -/
def getBlockSubtreeHashPath (b : BlockContext α) (index : Nat) :
    Except String (List (α × α)) × BlockContext α :=
  match b.subtree with
  | some subtree => (subtree.getHashPath ZERO_ELEMENT ((index : Int) - b.startIndex), b)
  | none =>
    match b.initSubtree compress ZERO_ELEMENT index with
    | .error e => (.error e, { b with startIndex := b.dataStartIndex })
    | .ok subtree =>
      (subtree.getHashPath ZERO_ELEMENT ((index : Int) - b.dataStartIndex),
        { b with subtree := some subtree, startIndex := b.dataStartIndex })

end BlockContext

/-! ## What trees in memory return -/

section Memory

variable {α : Type} {compress : α → α → α} {ZERO_ELEMENT : α} {h : Nat}

namespace MemoryMerkleTree

/-- The loop reads pairs as a tree reads them from a subtree that is stored at once. -/
lemma hashPathLoop_eq (t : MerkleTree α) (hashes : List α) (index offset n : Nat) :
    hashPathLoop t.initialLeafValue hashes index offset (2 ^ n) =
      t.subtreePath hashes n offset (2 ^ n) index := by
  induction n generalizing index offset with
  | zero =>
    rw [hashPathLoop, if_neg (by decide)]
    rfl
  | succ n ih =>
    have hpos := Nat.two_pow_pos n
    have hhalf : 2 ^ (n + 1) / 2 = 2 ^ n := by rw [Nat.pow_succ, Nat.mul_div_cancel _ (by decide)]
    have hdiv : (index - index % 2) / 2 = index / 2 := by omega
    rw [hashPathLoop, if_pos (by rw [Nat.pow_succ]; omega), hhalf, ih, MerkleTree.subtreePath, hhalf, hdiv]
    refine congrArg₂ _ ?_ rfl
    split
    case isTrue hodd =>
      have hleft : index + offset - 1 = offset + (index - index % 2) := by omega
      have hright : index + offset = offset + (index - index % 2) + 1 := by omega
      rw [hleft, hright]
      rfl
    case isFalse heven =>
      have hleft : index + offset = offset + (index - index % 2) := by omega
      rw [hleft]
      rfl

/-- The tree over the notes. -/
lemma new_eq {notes : List α} (hlength : notes.length = 2 ^ h) :
    MemoryMerkleTree.new compress notes = .ok ⟨notes,
      below compress (fun k => notes.getD k ZERO_ELEMENT) h 0 ++
        [node compress (fun k => notes.getD k ZERO_ELEMENT) h 0]⟩ := by
  have hpower : isPowerOf2 notes.length := by
    refine ⟨by rw [hlength]; exact (Nat.two_pow_pos h).ne', ?_⟩
    rw [hlength, Nat.and_two_pow_sub_one_eq_mod, Nat.mod_self]
  have hnotes : notes = (List.range (2 ^ h)).map fun k => notes.getD (0 * 2 ^ h + k) ZERO_ELEMENT := by
    refine List.ext_getElem (by rw [List.length_map, List.length_range, hlength]) fun k hk _ => ?_
    rw [List.getElem_map, List.getElem_range, Nat.zero_mul, Nat.zero_add, List.getD_eq_getElem _ _ hk]
  have hhashes := @MerkleTree.hashToTree_eq _ compress
    (fun k => notes.getD k ZERO_ELEMENT) h 0
  rw [← hnotes] at hhashes
  rw [MemoryMerkleTree.new, if_pos hpower, hlength, Nat.log2_two_pow, hhashes]

/-- The path of a leaf in a full tree. -/
lemma getHashPath_eq {tree : MemoryMerkleTree α} {notes : List α} (hlength : notes.length = 2 ^ h)
    (hnew : MemoryMerkleTree.new compress notes = .ok tree) {index : Nat} (hindex : index < 2 ^ h) :
    tree.getHashPath ZERO_ELEMENT index =
      .ok (path compress (fun k => notes.getD k ZERO_ELEMENT) h index) := by
  rw [@new_eq _ _ ZERO_ELEMENT _ _ hlength] at hnew
  obtain rfl := Except.ok.inj hnew
  rw [getHashPath, if_neg (by rw [hlength]; omega)]
  let t : MerkleTree α := ⟨⟨ZERO_ELEMENT, 1, 0, by decide⟩, fun _ => none,
    ⟨ZERO_ELEMENT, 1, 0, by decide⟩, ZERO_ELEMENT⟩
  have hloop := hashPathLoop_eq t (below compress (fun k => notes.getD k ZERO_ELEMENT) h 0 ++
    [node compress (fun k => notes.getD k ZERO_ELEMENT) h 0]) index 0 h
  have hpath := @MerkleTree.subtreePath_eq _ compress t
    (fun k => notes.getD k ZERO_ELEMENT) [] [node compress (fun k => notes.getD k ZERO_ELEMENT) h 0]
    h 0 _ hindex
  rw [Nat.zero_mul, Nat.zero_add] at hpath
  rw [hlength, Int.toNat_natCast]
  exact congrArg Except.ok (hloop.trans hpath)

/-- The root of a full tree. -/
lemma getRoot_eq {tree : MemoryMerkleTree α} {notes : List α} (hlength : notes.length = 2 ^ h)
    (hnew : MemoryMerkleTree.new compress notes = .ok tree) :
    tree.getRoot ZERO_ELEMENT = node compress (fun k => notes.getD k ZERO_ELEMENT) h 0 := by
  rw [@new_eq _ _ ZERO_ELEMENT _ _ hlength] at hnew
  obtain rfl := Except.ok.inj hnew
  unfold getRoot
  dsimp only
  rw [List.length_append, List.length_singleton, Nat.add_sub_cancel, List.getD_append_right _ _ _ _
    (Nat.le_refl _), Nat.sub_self]
  rfl

end MemoryMerkleTree

namespace BlockContext

/-- A context after calls. -/
def Reached (compress : α → α → α) (ZERO_ELEMENT : α) (rollupSize dataStartIndex : Nat)
    (noteCommitments : List α) (b : BlockContext α) : Prop :=
  ∃ indices : List Nat, b = indices.foldl
    (fun b index => (b.getBlockSubtreeHashPath compress ZERO_ELEMENT index).2)
    (fromBlock rollupSize dataStartIndex noteCommitments)

/-- The subtree of a context, once it is there, is the one over the notes of the block. -/
structure Ready (compress : α → α → α) (rollupSize dataStartIndex : Nat) (noteCommitments : List α)
    (b : BlockContext α) : Prop where
  rollupSize_eq : b.rollupSize = rollupSize
  dataStartIndex_eq : b.dataStartIndex = dataStartIndex
  noteCommitments_eq : b.noteCommitments = noteCommitments
  subtree_eq : ∀ subtree, b.subtree = some subtree →
    MemoryMerkleTree.new compress noteCommitments = .ok subtree ∧ b.startIndex = dataStartIndex

variable {rollupSize dataStartIndex : Nat} {noteCommitments : List α} {b : BlockContext α}

/-- The notes fill the subtree. -/
lemma Ready.initSubtree_eq (hb : Ready compress rollupSize dataStartIndex noteCommitments b)
    (hlength : noteCommitments.length = NUM_NEW_DATA_TREE_NOTES_PER_TX * rollupSize) {index : Nat}
    (hindex : dataStartIndex ≤ index ∧ index < dataStartIndex + noteCommitments.length) :
    b.initSubtree compress ZERO_ELEMENT index = MemoryMerkleTree.new compress noteCommitments := by
  unfold initSubtree
  rw [hb.rollupSize_eq, hb.dataStartIndex_eq, hb.noteCommitments_eq]
  dsimp only
  rw [if_neg (by omega), if_neg (by omega), hlength, Nat.sub_self, List.replicate_zero,
    List.append_nil]

/-- Asking for a path builds the subtree once. -/
lemma Ready.step (hb : Ready compress rollupSize dataStartIndex noteCommitments b)
    (hlength : noteCommitments.length = NUM_NEW_DATA_TREE_NOTES_PER_TX * rollupSize) (index : Nat) :
    Ready compress rollupSize dataStartIndex noteCommitments
      (b.getBlockSubtreeHashPath compress ZERO_ELEMENT index).2 := by
  unfold getBlockSubtreeHashPath
  split
  case h_1 => exact hb
  case h_2 hnone =>
    split
    case h_1 =>
      exact ⟨hb.rollupSize_eq, hb.dataStartIndex_eq, hb.noteCommitments_eq,
        fun subtree hsome => nomatch hnone.symm.trans hsome⟩
    case h_2 subtree hinit =>
      refine ⟨hb.rollupSize_eq, hb.dataStartIndex_eq, hb.noteCommitments_eq, fun subtree' hsome => ?_⟩
      obtain rfl := Option.some.inj hsome
      refine ⟨?_, hb.dataStartIndex_eq⟩
      by_cases hindex : dataStartIndex ≤ index ∧ index < dataStartIndex + noteCommitments.length
      case pos => rwa [hb.initSubtree_eq hlength hindex] at hinit
      case neg =>
        unfold initSubtree at hinit
        rw [hb.rollupSize_eq, hb.dataStartIndex_eq] at hinit
        dsimp only at hinit
        rw [if_pos (by omega)] at hinit
        nomatch hinit

/-- So a context has no subtree, or that of its notes. -/
lemma Reached.ready (hb : Reached compress ZERO_ELEMENT rollupSize dataStartIndex noteCommitments b)
    (hlength : noteCommitments.length = NUM_NEW_DATA_TREE_NOTES_PER_TX * rollupSize) :
    Ready compress rollupSize dataStartIndex noteCommitments b := by
  obtain ⟨indices, rfl⟩ := hb
  induction indices using List.reverseRecOn with
  | nil => exact ⟨rfl, rfl, rfl, nofun⟩
  | append_singleton indices index ih =>
    rw [List.foldl_append]
    exact ih.step hlength index

/-- The path of a note in the subtree of its block. -/
lemma Reached.hashPath
    (hb : Reached compress ZERO_ELEMENT rollupSize dataStartIndex noteCommitments b)
    (hlength : noteCommitments.length = NUM_NEW_DATA_TREE_NOTES_PER_TX * rollupSize)
    (hsize : noteCommitments.length = 2 ^ h) {k : Nat} (hk : k < 2 ^ h) :
    (b.getBlockSubtreeHashPath compress ZERO_ELEMENT (dataStartIndex + k)).1 =
      .ok (path compress (fun k => noteCommitments.getD k ZERO_ELEMENT) h k) := by
  have hready := hb.ready hlength
  have hindex : ((dataStartIndex + k : Nat) : Int) - (dataStartIndex : Nat) = (k : Nat) := by omega
  unfold getBlockSubtreeHashPath
  split
  case h_1 subtree hsome =>
    obtain ⟨hnew, hstart⟩ := hready.subtree_eq subtree hsome
    dsimp only
    rw [hstart, hindex]
    exact MemoryMerkleTree.getHashPath_eq hsize hnew hk
  case h_2 =>
    have hnew := @MemoryMerkleTree.new_eq _ compress ZERO_ELEMENT _ _ hsize
    rw [hready.initSubtree_eq hlength (by omega), hnew, hready.dataStartIndex_eq]
    dsimp only
    rw [hindex]
    exact MemoryMerkleTree.getHashPath_eq hsize hnew hk

end BlockContext

end Memory

/-! ## What the world state returns -/

/-- A note below `2 ^ 31`. -/
lemma convertNoteIndexToSubTreeIndex_eq {noteIndex : Nat} (hlt : noteIndex < 2 ^ 31)
    (subTreeDepth : Nat) : convertNoteIndexToSubTreeIndex subTreeDepth noteIndex =
      (noteIndex / 2 ^ subTreeDepth : Nat) := by
  have hmod : noteIndex % 2 ^ 32 = noteIndex := Nat.mod_eq_of_lt (by omega)
  have hint : (BitVec.ofNat 32 noteIndex).toInt = noteIndex := by
    rw [BitVec.toInt_eq_toNat_cond, BitVec.toNat_ofNat, hmod, if_pos (by omega)]
  rw [convertNoteIndexToSubTreeIndex, hint, Int.shiftRight_eq_div_pow]
  exact (Int.natCast_ediv _ _).symm

/-- The bits that are read of an index are those of its subtree, also where the shift is negative. -/
lemma convertNoteIndexToSubTreeIndex_mod {noteIndex subTreeDepth : Nat} (hlt : noteIndex < 2 ^ 32)
    (hdepth : subTreeDepth ≤ 32) :
    (BitVec.ofInt 32 (convertNoteIndexToSubTreeIndex subTreeDepth noteIndex)).toNat %
      2 ^ (32 - subTreeDepth) = noteIndex / 2 ^ subTreeDepth := by
  have hmod : noteIndex % 2 ^ 32 = noteIndex := Nat.mod_eq_of_lt hlt
  have hpow : 2 ^ (32 - subTreeDepth) * 2 ^ subTreeDepth = 2 ^ 32 := by
    rw [← Nat.pow_add, Nat.sub_add_cancel hdepth]
  have hpos := Nat.two_pow_pos subTreeDepth
  -- the signed number is the index, or less by the size of the tree
  have hsigned : ∃ b : Int, (BitVec.ofNat 32 noteIndex).toInt = noteIndex + b * 2 ^ 32 := by
    rw [BitVec.toInt_eq_toNat_cond, BitVec.toNat_ofNat, hmod]
    split
    case isTrue => exact ⟨0, by omega⟩
    case isFalse => exact ⟨-1, by omega⟩
  obtain ⟨b, hb⟩ := hsigned
  have hshift : convertNoteIndexToSubTreeIndex subTreeDepth noteIndex =
      (noteIndex / 2 ^ subTreeDepth : Nat) + b * (2 ^ (32 - subTreeDepth) : Nat) := by
    have hcast : ((2 : Int) ^ 32) = (2 ^ (32 - subTreeDepth) : Nat) * (2 ^ subTreeDepth : Nat) := by
      rw [← Int.natCast_mul, hpow]
      rfl
    rw [convertNoteIndexToSubTreeIndex, hb, Int.shiftRight_eq_div_pow, hcast, ← Int.mul_assoc,
      Int.natCast_ediv]
    exact Int.add_mul_ediv_right _ _ (by omega)
  have hsmall : noteIndex / 2 ^ subTreeDepth < 2 ^ (32 - subTreeDepth) := by
    rw [Nat.div_lt_iff_lt_mul hpos, hpow]
    exact hlt
  have hdvd : ((2 ^ (32 - subTreeDepth) : Nat) : Int) ∣ (2 ^ 32 : Nat) :=
    Int.natCast_dvd_natCast.mpr ⟨_, hpow.symm⟩
  rw [BitVec.toNat_ofInt, hshift, ← Int.natCast_inj, Int.natCast_emod,
    Int.toNat_of_nonneg (Int.emod_nonneg _ (by decide)), Int.emod_emod_of_dvd _ hdvd,
    Int.add_mul_emod_self_right, ← Int.natCast_emod, Nat.mod_eq_of_lt hsmall]

section Paths

variable {α : Type} {compress : α → α → α} {ZERO_ELEMENT : α}

/-- The upper bits of an index are not read. -/
lemma MerkleTree.Holds.getHashPath_mod {t : MerkleTree α} {f : Nat → α} (h : Holds compress t f)
    (hinj : Function.Injective2 compress) {index : Nat} (hindex : index < 2 ^ MAX_DEPTH) :
    t.getHashPath compress index = path compress f t.depth (index % 2 ^ t.depth) := by
  have hleaf (k : Nat) (hk : k < 2 ^ t.depth) :
      f ((index / 2 ^ t.depth * 2 ^ t.depth + k) % 2 ^ t.depth) = f (0 * 2 ^ t.depth + k) := by
    rw [Nat.mul_comm, Nat.mul_add_mod, Nat.mod_eq_of_lt hk, Nat.zero_mul, Nat.zero_add]
  have hnode : node compress (fun k => f (k % 2 ^ t.depth)) t.depth (index / 2 ^ t.depth) =
      node compress f t.depth 0 := node_shift hleaf
  have hread := hashPathFrom_eq hinj hindex (h.stored.of_eq hinj hnode.symm)
  have hshift := @path_shift _ compress (fun k => f (k % 2 ^ t.depth)) _ _ _ _ _ hleaf
    (Nat.mod_lt index (Nat.two_pow_pos t.depth))
  rw [Nat.mul_comm, Nat.div_add_mod, Nat.zero_mul, Nat.zero_add] at hshift
  rw [hnode, ← h.root, hshift] at hread
  exact hread

/-- A path has a pair for every layer. -/
lemma MerkleTree.subtreePath_length (t : MerkleTree α) (data : List α) (n offset layerSize index : Nat) :
    (t.subtreePath data n offset layerSize index).length = n := by
  induction n generalizing offset layerSize index with
  | zero => rfl
  | succ n ih => rw [MerkleTree.subtreePath, List.length_cons, ih]

/-- A path has a pair for every height. -/
lemma MerkleTree.hashPathFrom_length (t : MerkleTree α) (index height : Nat) (data : Option (List α)) :
    (t.hashPathFrom compress index height data).length = height := by
  induction height generalizing data with
  | zero => rfl
  | succ i ih =>
    cases data with
    | none => rw [MerkleTree.hashPathFrom, List.length_append, ih, List.length_singleton]
    | some data =>
      unfold MerkleTree.hashPathFrom
      split
      case isTrue => exact MerkleTree.subtreePath_length _ _ _ _ _ _
      case isFalse => rw [List.length_append, ih, List.length_singleton]

namespace WorldState

/-- The tree of a new world state has the empty subtree as empty leaf. -/
lemma init_eq (compress : α → α → α) (ZERO_ELEMENT : α) {subTreeDepth : Nat} (hlt : subTreeDepth < 32) :
    ∃ w, init compress ZERO_ELEMENT subTreeDepth = .ok w ∧ w.subTreeDepth = subTreeDepth ∧
      MerkleTree.new compress (fun _ => none) (DATA_TREE_DEPTH - subTreeDepth)
        (node compress (fun _ => ZERO_ELEMENT) subTreeDepth 0) = .ok w.tree := by
  have hlength : (List.replicate (1 <<< subTreeDepth) ZERO_ELEMENT).length = 2 ^ subTreeDepth := by
    rw [List.length_replicate, Nat.one_shiftLeft]
  have hzero : (fun k => (List.replicate (1 <<< subTreeDepth) ZERO_ELEMENT).getD k ZERO_ELEMENT) =
      fun _ => ZERO_ELEMENT := by
    funext k
    rw [List.getD_eq_getElem?_getD, List.getElem?_replicate]
    split
    case isTrue => rfl
    case isFalse => rfl
  obtain ⟨subTree, hnew⟩ : ∃ subTree, MemoryMerkleTree.new compress
      (List.replicate (1 <<< subTreeDepth) ZERO_ELEMENT) = .ok subTree :=
    ⟨_, @MemoryMerkleTree.new_eq _ _ ZERO_ELEMENT _ _ hlength⟩
  have hroot := @MemoryMerkleTree.getRoot_eq _ _ ZERO_ELEMENT _ _ _ hlength hnew
  rw [hzero] at hroot
  have hdepth : DATA_TREE_DEPTH - subTreeDepth ≥ 1 ∧ DATA_TREE_DEPTH - subTreeDepth ≤ MAX_DEPTH := by
    unfold DATA_TREE_DEPTH MAX_DEPTH
    omega
  obtain ⟨tree, htree⟩ : ∃ tree, MerkleTree.new compress (fun _ => none)
      (DATA_TREE_DEPTH - subTreeDepth) (node compress (fun _ => ZERO_ELEMENT) subTreeDepth 0) =
        .ok tree := by
    rw [MerkleTree.new, dif_pos hdepth]
    exact ⟨_, rfl⟩
  refine ⟨⟨tree, subTreeDepth⟩, ?_, rfl, htree⟩
  rw [← hroot] at htree
  unfold init
  dsimp only
  rw [hnew]
  show (do
    let tree ← MerkleTree.new compress (fun _ => none) (DATA_TREE_DEPTH - subTreeDepth)
      (subTree.getRoot ZERO_ELEMENT)
    .ok (⟨tree, subTreeDepth⟩ : WorldState α)) = _
  rw [htree]
  rfl

variable {w : WorldState α} {f : Nat → α}

/-- The path goes on in the tree of subtree roots. -/
lemma buildFullHashPath_eq (h : w.tree.Holds compress f) (hinj : Function.Injective2 compress)
    (hdepth : w.tree.depth = DATA_TREE_DEPTH - w.subTreeDepth) (hle : w.subTreeDepth ≤ 32)
    {noteIndex : Nat} (hlt : noteIndex < 2 ^ 32) (immutableHashPath : List (α × α)) :
    w.buildFullHashPath compress noteIndex immutableHashPath = immutableHashPath ++
      path compress f (DATA_TREE_DEPTH - w.subTreeDepth) (noteIndex / 2 ^ w.subTreeDepth) := by
  have hmod := convertNoteIndexToSubTreeIndex_mod hlt hle
  have hread := h.getHashPath_mod hinj
    (BitVec.ofInt 32 (convertNoteIndexToSubTreeIndex w.subTreeDepth noteIndex)).isLt
  rw [hdepth] at hread
  unfold buildFullHashPath getHashPath
  dsimp only
  rw [hread]
  exact congrArg _ (congrArg _ hmod)

/-- The full path is both paths. -/
lemma buildFullHashPath_length (w : WorldState α) (noteIndex : Nat) (immutableHashPath : List (α × α)) :
    (w.buildFullHashPath compress noteIndex immutableHashPath).length =
      immutableHashPath.length + w.tree.depth := by
  rw [buildFullHashPath, List.length_append]
  exact congrArg _ (MerkleTree.hashPathFrom_length _ _ _ _)

variable [DecidableEq α]

/-- Below 2³¹ the index is that of the subtree. -/
lemma insertElements_eq {startIndex : Nat} (hlt : startIndex < 2 ^ 31) (elements : List α) :
    w.insertElements compress ZERO_ELEMENT startIndex elements = (do
      let tree ← w.tree.updateElements compress ZERO_ELEMENT (startIndex / 2 ^ w.subTreeDepth) elements
      .ok { w with tree }) := by
  unfold insertElements
  dsimp only
  rw [convertNoteIndexToSubTreeIndex_eq hlt]
  rfl

end WorldState

end Paths

end AztecConnect.Client
