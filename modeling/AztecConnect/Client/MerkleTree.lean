import AztecConnect.Lib.NodeStore
import AztecConnect.Lib.Resumption
import Mathlib.Data.Nat.Log

/-!
# The merkle tree of the client

Translation of `barretenberg.js/src/merkle_tree/merkle_tree.ts`. A hash or a leaf is of an arbitrary
type, so that a buffer of the database is the list of its hashes. A batch is written at once, and what
is read while it is built is the database before it. The record under the name of the tree is a field
of its own.
-/

namespace AztecConnect.Client

open HashTree NodeStore

/-- `MAX_DEPTH`. -/
def MAX_DEPTH : Nat := 32

/-- An index is below `2 ^ 32`, where the mask is a remainder. -/
def keepNLsb (input numBits : Nat) : Nat := if numBits ≥ MAX_DEPTH then input else input % 2 ^ numBits

/-- What `writeMeta` writes. -/
structure Meta (α : Type) where
  root : α
  depth : Nat
  size : Nat
  depth_ok : depth ≥ 1 ∧ depth ≤ MAX_DEPTH

/-- `MerkleTree`: the database, the metadata that was written to it, and the one in memory. -/
structure MerkleTree (α : Type) extends Meta α where
  db : α → Option (List α)
  written : Meta α
  initialLeafValue : α

/-! ## The hasher -/

section Hasher

variable {α : Type} (compress : α → α → α)

/-- One layer of `hashTree`, from the layer below. -/
def hashLayer : List α → List α
  | a :: b :: layer => compress a b :: hashLayer layer
  | _ => []

/-- The layers of a tree of a depth, the leaves first and the root last. -/
def hashToTree : Nat → List α → List α
  | 0, layer => layer
  | depth + 1, layer => layer ++ hashToTree depth (hashLayer compress layer)

end Hasher

namespace MerkleTree

variable {α : Type} [DecidableEq α] (compress : α → α → α)

/-- The root of an empty tree of a height. -/
def zeroHashes (initialLeafValue : α) : Nat → α
  | 0 => initialLeafValue
  | h + 1 => compress (zeroHashes initialLeafValue h) (zeroHashes initialLeafValue h)

/-- `writeUInt32LE` throws for what does not fit. -/
def writeMeta (t : MerkleTree α) : Except String (Meta α) :=
  if t.size < 2 ^ 32 then .ok t.toMeta
  else .error "The value of \"value\" is out of range. It must be >= 0 and <= 4294967295."

/-- `MerkleTree.new`: an empty tree, whose metadata is written. -/
def new (db : α → Option (List α)) (depth : Nat) (initialLeafValue : α) :
    Except String (MerkleTree α) :=
  if h : depth ≥ 1 ∧ depth ≤ MAX_DEPTH then
    let m : Meta α := ⟨zeroHashes compress initialLeafValue depth, depth, 0, h⟩
    .ok { m with db, written := m, initialLeafValue }
  else .error "Bad depth"

variable (t : MerkleTree α)

/-- `syncFromDb`: the metadata is read again. -/
def syncFromDb : MerkleTree α := { t with toMeta := t.written }

/-! ## Hash paths -/

/-- A slice of one hash. -/
def slice (data : List α) (i : Nat) : α := data.getD i t.initialLeafValue

/-- The pairs at the heights of a subtree whose layers are stored at once. -/
def subtreePath (data : List α) : Nat → Nat → Nat → Nat → List (α × α)
  | 0, _, _, _ => []
  | n + 1, offset, layerSize, index =>
    let index := index - index % 2
    let lhsOffset := offset + index
    (t.slice data lhsOffset, t.slice data (lhsOffset + 1)) ::
      subtreePath data n (offset + layerSize) (layerSize / 2) (index / 2)

/-- The loop over the heights, with the data of the node above. -/
def hashPathFrom (index : Nat) : Nat → Option (List α) → List (α × α)
  | 0, _ => []
  -- This is an empty subtree. Fill in zero value.
  | i + 1, none =>
    hashPathFrom index i none ++
      [(zeroHashes compress t.initialLeafValue i, zeroHashes compress t.initialLeafValue i)]
  | i + 1, some data =>
    if data.length > 2 then
      let subtreeDepth := i + 1
      t.subtreePath data subtreeDepth 0 (2 ^ subtreeDepth) (keepNLsb index subtreeDepth)
    else
      let lhs := t.slice data 0
      let rhs := t.slice data 1
      let isRight := index / 2 ^ i % 2 = 1
      hashPathFrom index i (t.db (if isRight then rhs else lhs)) ++ [(lhs, rhs)]

/-- `getHashPath`, from the root down. -/
def getHashPath (index : Nat) : List (α × α) :=
  t.hashPathFrom compress index t.depth (t.db t.root)

/-! ## Updates -/

/-- The children of a node, at a height. -/
def children (height : Nat) (data : Option (List α)) : α × α :=
  match data with
  | some data => (t.slice data 0, t.slice data 1)
  | none =>
    (zeroHashes compress t.initialLeafValue height, zeroHashes compress t.initialLeafValue height)

/-- A child is replaced, and the node with it. -/
def replaceChild (root : α) (isRight : Prop) [Decidable isRight] (left right : α)
    (newSubtree : α × List (Write α)) : α × List (Write α) :=
  let left := if isRight then left else newSubtree.1
  let right := if isRight then newSubtree.1 else right
  let newRoot := compress left right
  (newRoot, newSubtree.2 ++ .put newRoot [left, right] :: if root = newRoot then [] else [.del root])

/-- The new root, and the batch. -/
def updateElementInternal (value : α) : Nat → α → Nat → α × List (Write α)
  | 0, _, _ => (value, [])
  | height + 1, root, index =>
    let (left, right) := t.children compress height (t.db root)
    let isRight := index / 2 ^ height % 2 = 1
    replaceChild compress root isRight left right
      (updateElementInternal value height (if isRight then right else left) (keepNLsb index height))

/-- `updateLeafHash`: one path is hashed again and written in one batch with the metadata. -/
def updateLeafHash (index : Nat) (leafHash : α) : Except String (MerkleTree α) := do
  let (root, batch) := t.updateElementInternal compress leafHash t.depth t.root index
  let t := { t with root, size := max t.size (index + 1) }
  let written ← t.writeMeta
  .ok { t with written, db := applyAll t.db batch }

/-- The new root, and the batch, for the layers of a subtree with its root last. -/
def updateElementsInternal (hashes : List α) (subtreeHeight : Nat) :
    Nat → α → Nat → Except String (α × List (Write α))
  | 0, _, _ =>
    if 0 = subtreeHeight then
      let root := t.slice hashes (hashes.length - 1)
      .ok (root, [.put root hashes.dropLast])
    else .error "The \"otherBuffer\" argument must be an instance of Buffer or Uint8Array. Received undefined"
  | height + 1, root, index =>
    let last := t.slice hashes (hashes.length - 1)
    if height + 1 = subtreeHeight then .ok (last, [.put last hashes.dropLast])
    -- Do nothing if updating zero values.
    else if last = zeroHashes compress t.initialLeafValue height then .ok (root, [])
    else
      let data := t.db root
      let isRight := index / 2 ^ height % 2 = 1
      if (data.getD []).length > 2 then
        if root ≠ last then .error "Attempting to update pre-existing subtree." else .ok (root, [])
      else do
        let (left, right) := t.children compress height data
        let newSubtree ← updateElementsInternal hashes subtreeHeight height
          (if isRight then right else left) (keepNLsb index height)
        .ok (replaceChild compress root isRight left right newSubtree)

/-- The subtree is reduced until it has no more leaves than there are values, and a size that divides
the index. An array has few enough elements for the shift of the size to be a half of it. -/
def reduceSubtree (numValues index : Nat) : Nat → Nat
  | 0 => 0
  | subtreeDepth + 1 =>
    if numValues < 2 ^ (subtreeDepth + 1) ∨ index % 2 ^ (subtreeDepth + 1) ≠ 0
    then reduceSubtree numValues index subtreeDepth else subtreeDepth + 1

/-- The depth of the subtree that the next values fill at an aligned index. -/
def subtreeDepthFor (numValues index : Nat) : Nat :=
  reduceSubtree numValues index (Nat.clog 2 numValues)

/-- The body of the loop. -/
def insertSubtree (index subtreeDepth : Nat) (toInsert : List α) : Except String (MerkleTree α) := do
  let hashes := hashToTree compress subtreeDepth toInsert
  let (root, batch) ← t.updateElementsInternal compress hashes subtreeDepth t.depth t.root index
  let t := { t with root, size := index + 2 ^ subtreeDepth }
  let written ← t.writeMeta
  .ok { t with written, db := applyAll t.db batch }

/-- The loop, until a number of batches is written. -/
def writeBatches : Nat → MerkleTree α → Nat → List α → Except String (MerkleTree α)
  | 0, t, _, _ => .ok t
  | n + 1, t, index, leafHashes =>
    if leafHashes = [] then .ok t
    else do
      let subtreeDepth := subtreeDepthFor leafHashes.length index
      let t ← t.insertSubtree compress index subtreeDepth (leafHashes.take (2 ^ subtreeDepth))
      writeBatches n t (index + 2 ^ subtreeDepth) (leafHashes.drop (2 ^ subtreeDepth))

/-- Every batch writes a leaf. -/
def updateLeafHashes (t : MerkleTree α) (index : Nat) (leafHashes : List α) :
    Except String (MerkleTree α) :=
  if h : leafHashes = [] then .ok t
  else do
    let subtreeDepth := subtreeDepthFor leafHashes.length index
    let t ← t.insertSubtree compress index subtreeDepth (leafHashes.take (2 ^ subtreeDepth))
    updateLeafHashes t (index + 2 ^ subtreeDepth) (leafHashes.drop (2 ^ subtreeDepth))
termination_by leafHashes.length
decreasing_by
  have hpos := List.length_pos_iff.mpr h
  have hsize := Nat.two_pow_pos (subtreeDepthFor leafHashes.length index)
  rw [List.length_drop]
  omega

variable (zeroBuf : α)

/-- `updateElement`: a zero buffer stands for the initial leaf. -/
def updateElement (index : Nat) (value : α) : Except String (MerkleTree α) :=
  t.updateLeafHash compress index (if value = zeroBuf then t.initialLeafValue else value)

/-- `updateElements`, in bulk. -/
def updateElements (index : Nat) (values : List α) : Except String (MerkleTree α) :=
  updateLeafHashes compress t index (values.map fun v => if v = zeroBuf then t.initialLeafValue else v)

end MerkleTree

end AztecConnect.Client
