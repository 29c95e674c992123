import AztecConnect.Circuit.Field
import AztecConnect.Lib.ByteFormat

/-!
# The readers of rollup requests

Translation of the readers of `rollup/rollup_tx.hpp`, `root_rollup/root_rollup_tx.hpp` and of the native
`defi_interaction::note`. They stand on barretenberg's `serialize`: big-endian numbers, counts of four
bytes before vectors, and fields of 32 bytes. What a reader is given beyond the bytes is left.
-/

namespace AztecConnect.Circuit.Native

open ByteFormat

/-! ## `serialize` -/

/-- Takes `n` bytes off the stream. -/
def readBytes (n : Nat) : Reader Bytes := fun buf =>
  if n ≤ buf.length then .ok (buf.take n, buf.drop n) else .error "end of buffer"

/-- Reads a big-endian number. -/
def readUint (width : Nat) : Reader Nat := do
  let bytes ← readBytes width
  return beNat bytes

/-- Reads a `uint32_t`. -/
def readUint32 : Reader Nat := readUint 4

/-- Reads a `uint256_t`. -/
def readUint256 : Reader Nat := readUint 32

/-- Reads a field element, modulo the field. -/
def readFr : Reader Fr := do
  let n ← readUint 32
  return (n : Fr)

/-- Reads a `bool`. -/
def readBool : Reader Bool := do
  let n ← readUint 1
  return n != 0

/-- Reads a `std::vector`: its size, then its elements. -/
def readVector {α : Type} (read : Reader α) : Reader (List α) := do
  let size ← readUint32
  repeatReader read size

/-- A `std::vector<uint8_t>`. -/
def readBuffer : Reader Bytes := do
  let size ← readUint32
  readBytes size

/-- `fr_hash_path`. -/
abbrev FrHashPath := List (Fr × Fr)

/-- Reads a pair of nodes. -/
def readNodes : Reader (Fr × Fr) := do
  let left ← readFr
  let right ← readFr
  return (left, right)

/-- Reads a hash path. -/
def readHashPath : Reader FrHashPath := readVector readNodes

/-! ## The requests -/

/-- `native::defi_interaction::note`. -/
structure DefiInteractionNote where
  bridgeCallData : Nat
  interactionNonce : Nat
  totalInputValue : Nat
  totalOutputValueA : Nat
  totalOutputValueB : Nat
  interactionResult : Bool
  deriving DecidableEq

/-- Its `read`. -/
def DefiInteractionNote.read : Reader DefiInteractionNote := do
  let bridgeCallData ← readUint256
  let totalInputValue ← readUint256
  let totalOutputValueA ← readUint256
  let totalOutputValueB ← readUint256
  let interactionNonce ← readUint32
  let interactionResult ← readBool
  return { bridgeCallData, interactionNonce, totalInputValue, totalOutputValueA, totalOutputValueB
           interactionResult }

/-- `rollup_tx`. -/
structure RollupTx where
  rollupId : Nat
  numTxs : Nat
  dataStartIndex : Nat
  txs : List Bytes
  oldDataRoot : Fr
  newDataRoot : Fr
  oldDataPath : FrHashPath
  linkedCommitmentPaths : List FrHashPath
  linkedCommitmentIndices : List Nat
  oldNullRoot : Fr
  newNullRoots : List Fr
  oldNullPaths : List FrHashPath
  dataRootsRoot : Fr
  dataRootsPaths : List FrHashPath
  dataRootsIndicies : List Nat
  newDefiRoot : Fr
  bridgeCallDatas : List Nat
  assetIds : List Nat
  deriving DecidableEq

/-- Its `read`. -/
def RollupTx.read : Reader RollupTx := do
  let rollupId ← readUint32
  let numTxs ← readUint32
  let dataStartIndex ← readUint32
  let txs ← readVector readBuffer
  let oldDataRoot ← readFr
  let newDataRoot ← readFr
  let oldDataPath ← readHashPath
  let linkedCommitmentPaths ← readVector readHashPath
  let linkedCommitmentIndices ← readVector readUint32
  let oldNullRoot ← readFr
  let newNullRoots ← readVector readFr
  let oldNullPaths ← readVector readHashPath
  let dataRootsRoot ← readFr
  let dataRootsPaths ← readVector readHashPath
  let dataRootsIndicies ← readVector readUint32
  let newDefiRoot ← readFr
  let bridgeCallDatas ← readVector readUint256
  let assetIds ← readVector readUint256
  return { rollupId, numTxs, dataStartIndex, txs, oldDataRoot, newDataRoot, oldDataPath
           linkedCommitmentPaths, linkedCommitmentIndices, oldNullRoot, newNullRoots, oldNullPaths
           dataRootsRoot, dataRootsPaths, dataRootsIndicies, newDefiRoot, bridgeCallDatas, assetIds }

/-- `root_rollup_tx`. -/
structure RootRollupTx where
  rollupId : Nat
  numInnerProofs : Nat
  rollups : List Bytes
  oldDataRootsRoot : Fr
  newDataRootsRoot : Fr
  oldDataRootsPath : FrHashPath
  oldDefiRoot : Fr
  newDefiRoot : Fr
  oldDefiPath : FrHashPath
  bridgeCallDatas : List Nat
  assetIds : List Nat
  defiInteractionNotes : List DefiInteractionNote
  rollupBeneficiary : Fr
  deriving DecidableEq

/-- Its `read`. -/
def RootRollupTx.read : Reader RootRollupTx := do
  let rollupId ← readUint32
  let numInnerProofs ← readUint32
  let rollups ← readVector readBuffer
  let oldDataRootsRoot ← readFr
  let newDataRootsRoot ← readFr
  let oldDataRootsPath ← readHashPath
  let oldDefiRoot ← readFr
  let newDefiRoot ← readFr
  let oldDefiPath ← readHashPath
  let bridgeCallDatas ← readVector readUint256
  let assetIds ← readVector readUint256
  let defiInteractionNotes ← readVector DefiInteractionNote.read
  let rollupBeneficiary ← readFr
  return { rollupId, numInnerProofs, rollups, oldDataRootsRoot, newDataRootsRoot, oldDataRootsPath
           oldDefiRoot, newDefiRoot, oldDefiPath, bridgeCallDatas, assetIds, defiInteractionNotes
           rollupBeneficiary }

/-! ## What is read -/

variable {α : Type} {bs : Bytes} {n width : Nat}

/-- Bytes are read. -/
lemma reads_bytes (bs : Bytes) : Reads (readBytes bs.length) bs bs := by
  intro rest
  show (if bs.length ≤ (bs ++ rest).length then Except.ok _ else _) = _
  rw [if_pos (by rw [List.length_append]; exact Nat.le_add_right _ _), List.take_left, List.drop_left]

/-- What is read can be mapped. -/
lemma Reads.map {β : Type} {r : Reader α} {a : α} (h : Reads r bs a) (f : α → β) :
    Reads (do let a ← r; return f a) bs (f a) := by
  have hbind := h.bind (f := fun a => (pure (f a) : Reader β)) (.pure (f a))
  rwa [List.append_nil] at hbind

/-- A number is read from its bytes. -/
lemma reads_uint (h : bs.length = width) : Reads (readUint width) bs (beNat bs) := by
  rw [← h]
  exact Reads.map (reads_bytes bs) beNat

/-- A number of 32 bits is read. -/
lemma reads_uint32 (h : n < 2 ^ 32) : Reads readUint32 (beBytes 4 n) n := by
  have hreads : Reads readUint32 (beBytes 4 n) (beNat (beBytes 4 n)) := reads_uint (length_beBytes 4 n)
  rwa [beNat_beBytes (Nat.lt_of_lt_of_eq h rfl)] at hreads

/-- A number of 256 bits is read. -/
lemma reads_uint256 (h : n < 2 ^ 256) : Reads readUint256 (beBytes 32 n) n := by
  have hreads : Reads readUint256 (beBytes 32 n) (beNat (beBytes 32 n)) := reads_uint (length_beBytes 32 n)
  rwa [beNat_beBytes (Nat.lt_of_lt_of_eq h rfl)] at hreads

/-- A field element is read from 32 bytes. -/
lemma reads_fr (h : bs.length = 32) : Reads readFr bs (beNat bs : Fr) :=
  Reads.map (reads_uint h) fun n => (n : Fr)

/-- A boolean is read. -/
lemma reads_bool (b : Bool) : Reads readBool [if b then 1 else 0] b := by
  have hreads : Reads readBool [if b then 1 else 0] (beNat [if b then 1 else 0] != 0) :=
    Reads.map (@reads_uint [if b then 1 else 0] 1 rfl) fun n => n != 0
  cases b <;> exact hreads

/-- A vector of elements that are read is read. -/
lemma reads_vector {r : Reader α} {bss : List Bytes} {elems : List α} (hcount : elems.length < 2 ^ 32)
    (h : List.Forall₂ (Reads r) bss elems) :
    Reads (readVector r) (beBytes 4 bss.length ++ bss.flatten) elems := by
  rw [h.length_eq]
  exact (reads_uint32 hcount).bind (.repeat h)

/-- A buffer is read. -/
lemma reads_buffer (h : bs.length < 2 ^ 32) : Reads readBuffer (beBytes 4 bs.length ++ bs) bs :=
  (reads_uint32 h).bind (reads_bytes bs)

end AztecConnect.Circuit.Native
