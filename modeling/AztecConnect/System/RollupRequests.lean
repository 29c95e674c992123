import AztecConnect.Circuit.RollupRequests
import AztecConnect.Halloumi.RootRollup

/-!
# Both sides of a rollup request

What `toBuffer` writes of a request, the native reader reads with the same values in the same order, and
nothing is left. Of a request for an inner rollup `fromBuffer` reads the same back, of one for a root
rollup just if there are no interaction notes and the paths agree (`requests_read_iff`).
-/

namespace AztecConnect.System

open ByteFormat Client Serialize Halloumi AztecConnect.Circuit

/-! ## The values -/

/-- The field element of 32 bytes. -/
def fr (field : Bytes) : Fr := (toBigIntBE field : Fr)

/-- A hash path of field elements. -/
def frPath (path : HashPath) : Native.FrHashPath := path.map fun nodes => (fr nodes.1, fr nodes.2)

/-- The note as the native code reads it. -/
def nativeNote (note : Client.DefiInteractionNote) : Native.DefiInteractionNote where
  bridgeCallData := note.bridgeCallData.toBigInt
  interactionNonce := note.nonce
  totalInputValue := note.totalInputValue
  totalOutputValueA := note.totalOutputValueA
  totalOutputValueB := note.totalOutputValueB
  interactionResult := note.result

/-- The request of an inner rollup as the native code reads it. -/
def nativeTx (tx : TxRollup) : Native.RollupTx where
  rollupId := tx.rollupId
  numTxs := tx.proofs.length
  dataStartIndex := tx.dataStartIndex
  txs := tx.proofs
  oldDataRoot := fr tx.oldDataRoot
  newDataRoot := fr tx.newDataRoot
  oldDataPath := frPath tx.oldDataPath
  linkedCommitmentPaths := tx.linkedCommitmentPaths.map frPath
  linkedCommitmentIndices := tx.linkedCommitmentIndices
  oldNullRoot := fr tx.oldNullRoot
  newNullRoots := tx.newNullRoots.map fr
  oldNullPaths := tx.oldNullPaths.map frPath
  dataRootsRoot := fr tx.dataRootsRoot
  dataRootsPaths := tx.dataRootsPaths.map frPath
  dataRootsIndicies := tx.dataRootsIndicies
  newDefiRoot := fr tx.newDefiRoot
  bridgeCallDatas := tx.bridgeCallDatas.map toBigIntBE
  assetIds := tx.assetIds.map toBigIntBE

/-- The request of a root rollup as the native code reads it. -/
def nativeRootTx (tx : RootRollup) (notes : List Client.DefiInteractionNote) : Native.RootRollupTx where
  rollupId := tx.rollupId
  numInnerProofs := tx.proofs.length
  rollups := tx.proofs
  oldDataRootsRoot := fr tx.oldDataRootsRoot
  newDataRootsRoot := fr tx.newDataRootsRoot
  oldDataRootsPath := frPath tx.oldDataRootsPath
  oldDefiRoot := fr tx.oldDefiRoot
  newDefiRoot := fr tx.newDefiRoot
  oldDefiPath := frPath tx.oldDefiPath
  bridgeCallDatas := tx.bridgeCallDatas
  assetIds := tx.assetIds.map toBigIntBE
  defiInteractionNotes := notes.map nativeNote
  rollupBeneficiary := fr (EthAddress.toBuffer32 tx.rollupBeneficiary)

/-! ## The claims about one request -/

/-- Both sides read what is written of the request. -/
def TxRollupRead (keccak256 sha256 : Bytes → Bytes) (tx : TxRollup) : Prop :=
  ∃ bytes, tx.toBuffer = .ok bytes ∧ TxRollup.fromBuffer keccak256 sha256 bytes = .ok tx ∧
    Native.RollupTx.read.run bytes = .ok (nativeTx tx, [])

/-- Both readers read back what was written. -/
def RootRollupRead (tx : RootRollup) (notes : List Client.DefiInteractionNote) : Prop :=
  ∃ bytes, tx.toBuffer = .ok bytes ∧ RootRollup.fromBuffer bytes = .ok tx ∧
    Native.RootRollupTx.read.run bytes = .ok (nativeRootTx tx notes, [])

/-! ## The native readers -/

section Readers

variable {α β : Type}

/-- An array, of whose elements the native values are read. -/
lemma reads_array {r : Reader β} {elems : List α} {bytes : α → Bytes} {value : α → β}
    (hcount : elems.length < 2 ^ 32) (h : ∀ a ∈ elems, Reads r (bytes a) (value a)) :
    Reads (Native.readVector r) (arrayBytes (elems.map bytes)) (elems.map value) := by
  refine Native.reads_vector (by rw [List.length_map]; exact hcount) ?_
  rw [List.forall₂_map_left_iff, List.forall₂_map_right_iff, List.forall₂_same]
  exact h

variable {fields proofs : List Bytes} {paths : List HashPath} {indices : List Nat} {path : HashPath}

/-- A hash path is read. -/
lemma reads_path (h : path.WellFormed) : Reads Native.readHashPath path.bytes (frPath path) :=
  reads_array h.depth fun nodes hnodes => by
    obtain ⟨hleft, hright⟩ := h.nodes nodes hnodes
    exact (Native.reads_fr hleft).bind
      (Native.Reads.map (Native.reads_fr hright) fun right => ((beNat nodes.1 : Fr), right))

/-- A list of hash paths is read. -/
lemma reads_paths (h : Paths paths) : Reads (Native.readVector Native.readHashPath)
    (arrayBytes (paths.map HashPath.bytes)) (paths.map frPath) :=
  reads_array h.count fun path hpath => reads_path (h.each path hpath)

/-- A list of indices is read. -/
lemma reads_indices (h : Indices indices) :
    Reads (Native.readVector Native.readUint32) (arrayBytes (indices.map (beBytes 4))) indices := by
  have hreads := reads_array h.count fun index hindex => Native.reads_uint32 (h.each index hindex)
  rwa [List.map_id'] at hreads

/-- A list of proofs is read. -/
lemma reads_proofs (h : Proofs proofs) :
    Reads (Native.readVector Native.readBuffer) (arrayBytes (proofs.map vector)) proofs := by
  have hreads := reads_array h.count fun proof hproof => Native.reads_buffer (h.each proof hproof)
  rwa [List.map_id'] at hreads

/-- A list of field elements is read. -/
lemma reads_frs (h : Fields fields) :
    Reads (Native.readVector Native.readFr) (arrayBytes fields) (fields.map fr) := by
  have hreads := reads_array h.count fun field hfield => Native.reads_fr (h.width field hfield)
  rwa [List.map_id'] at hreads

/-- A list of words is read. -/
lemma reads_uint256s (h : Fields fields) :
    Reads (Native.readVector Native.readUint256) (arrayBytes fields) (fields.map toBigIntBE) := by
  have hreads := reads_array h.count fun field hfield => Native.reads_uint (h.width field hfield)
  rwa [List.map_id'] at hreads

end Readers

/-- An interaction note is read. -/
lemma reads_note {note : Client.DefiInteractionNote} (h : note.WellFormed) :
    Reads Native.DefiInteractionNote.read note.parts.flatten (nativeNote note) := by
  refine (Native.reads_uint256 (BridgeCallData.toBigInt_lt h.bridgeCallData)).bind_flatten ?_
  refine (Native.reads_uint256 h.totalInputValue).bind_flatten ?_
  refine (Native.reads_uint256 h.totalOutputValueA).bind_flatten ?_
  refine (Native.reads_uint256 h.totalOutputValueB).bind_flatten ?_
  refine (Native.reads_uint32 h.nonce).bind_flatten ?_
  exact (Native.reads_bool note.result).bind_flatten (.pure _)

/-- The request of an inner rollup is read. -/
lemma reads_tx {keccak256 sha256 : Bytes → Bytes} {tx : TxRollup} (h : tx.WellFormed keccak256 sha256) :
    Reads Native.RollupTx.read tx.parts.flatten (nativeTx tx) := by
  refine (Native.reads_uint32 h.rollupId).bind_flatten ?_
  refine (Native.reads_uint32 h.proofs.count).bind_flatten ?_
  refine (Native.reads_uint32 h.dataStartIndex).bind_flatten ?_
  refine (reads_proofs h.proofs).bind_flatten ?_
  refine (Native.reads_fr h.oldDataRoot).bind_flatten ?_
  refine (Native.reads_fr h.newDataRoot).bind_flatten ?_
  refine (reads_path h.oldDataPath).bind_flatten ?_
  refine (reads_paths h.linkedCommitmentPaths).bind_flatten ?_
  refine (reads_indices h.linkedCommitmentIndices).bind_flatten ?_
  refine (Native.reads_fr h.oldNullRoot).bind_flatten ?_
  refine (reads_frs h.newNullRoots).bind_flatten ?_
  refine (reads_paths h.oldNullPaths).bind_flatten ?_
  refine (Native.reads_fr h.dataRootsRoot).bind_flatten ?_
  refine (reads_paths h.dataRootsPaths).bind_flatten ?_
  refine (reads_indices h.dataRootsIndicies).bind_flatten ?_
  refine (Native.reads_fr h.newDefiRoot).bind_flatten ?_
  refine (reads_uint256s h.bridgeCallDatas).bind_flatten ?_
  exact (reads_uint256s h.assetIds).bind_flatten (.pure _)

/-- The request of a root rollup is read. -/
lemma reads_rootTx {tx : RootRollup} {notes : List Client.DefiInteractionNote} (h : tx.WellFormed notes) :
    Reads Native.RootRollupTx.read tx.parts.flatten (nativeRootTx tx notes) := by
  have hbeneficiary : (EthAddress.toBuffer32 tx.rollupBeneficiary).length = 32 := by
    rw [EthAddress.toBuffer32, List.length_append, List.length_replicate, h.rollupBeneficiary]
  have hdatas := reads_array h.numBridgeCallDatas fun b hb => Native.reads_uint256 (h.bridgeCallDatas b hb)
  have hnotes := reads_array h.numNotes fun note hnote => reads_note (h.eachNote note hnote)
  rw [List.map_id'] at hdatas
  rw [← h.notes_eq] at hnotes
  refine (Native.reads_uint32 h.rollupId).bind_flatten ?_
  refine (Native.reads_uint32 h.proofs.count).bind_flatten ?_
  refine (reads_proofs h.proofs).bind_flatten ?_
  refine (Native.reads_fr h.oldDataRootsRoot).bind_flatten ?_
  refine (Native.reads_fr h.newDataRootsRoot).bind_flatten ?_
  refine (reads_path h.oldDataRootsPath).bind_flatten ?_
  refine (Native.reads_fr h.oldDefiRoot).bind_flatten ?_
  refine (Native.reads_fr h.newDefiRoot).bind_flatten ?_
  refine (reads_path h.oldDefiPath).bind_flatten ?_
  refine hdatas.bind_flatten ?_
  refine (reads_uint256s h.assetIds).bind_flatten ?_
  refine hnotes.bind_flatten ?_
  exact (Native.reads_fr hbeneficiary).bind_flatten (.pure _)

/-! ## Requests -/

/-- What is read in full leaves nothing. -/
lemma reads_all {α : Type} {r : Reader α} {bs : Bytes} {a : α} (h : Reads r bs a) :
    r.run bs = .ok (a, []) := by
  have hrun := h []
  rwa [List.append_nil] at hrun

/-- Both readers read back the request of an inner rollup. -/
lemma txRollupRead {keccak256 sha256 : Bytes → Bytes} {tx : TxRollup} (h : tx.WellFormed keccak256 sha256) :
    TxRollupRead keccak256 sha256 tx :=
  ⟨_, TxRollup.toBuffer_eq h, TxRollup.fromBuffer_parts h, reads_all (reads_tx h)⟩

/-- They read back that of a root rollup exactly when it has no notes and its paths agree in
length. -/
lemma rootRollupRead_iff {tx : RootRollup} {notes : List Client.DefiInteractionNote} (h : tx.WellFormed notes) :
    RootRollupRead tx notes ↔ notes = [] ∧ tx.PathsAgree := by
  have hnone : tx.defiInteractionNotes = [] ↔ notes = [] := by rw [h.notes_eq, List.map_eq_nil_iff]
  rw [← hnone, ← RootRollup.fromBuffer_parts_iff h]
  constructor
  · rintro ⟨bytes, hbytes, hread, -⟩
    rw [RootRollup.toBuffer_eq h] at hbytes
    cases hbytes
    exact hread
  · intro hread
    exact ⟨_, RootRollup.toBuffer_eq h, hread, reads_all (reads_rootTx h)⟩

/-- A request for an inner rollup is read on both sides; one for a root rollup just if it has no notes
and its paths agree. -/
theorem requests_read_iff (keccak256 sha256 : Bytes → Bytes) :
    (∀ tx : TxRollup, tx.WellFormed keccak256 sha256 → TxRollupRead keccak256 sha256 tx) ∧
      ∀ (tx : RootRollup) (notes : List Client.DefiInteractionNote), tx.WellFormed notes →
        (RootRollupRead tx notes ↔ notes = [] ∧ tx.PathsAgree) :=
  ⟨fun _ h => txRollupRead h, fun _ _ h => rootRollupRead_iff h⟩

/-! ## A request of each kind -/

namespace SampleRequests

/-- The hash of 256 zeros. -/
def paddingTxId : Bytes :=
  beBytes 32 0xd397b3b043d87fcd6fad1291ff0bfd16401c274896d8c63a923727f077b8e0b5

/-- A hash for the ids. -/
def keccak256 (_ : Bytes) : Bytes := paddingTxId

/-- The hash of `paddingTxId`. -/
def sha256 (_ : Bytes) : Bytes :=
  beBytes 32 0xa9f5f239124bb1654a845e4910d73ccb61182235561d399fe527ec6a479116a3

/-- A root. -/
def root : Bytes := beBytes 32 7

/-- A path with elements beyond 2²⁴⁸. -/
def path (depth : Nat) : HashPath := List.replicate depth (beBytes 32 (2 ^ 250), beBytes 32 5)

/-- It is well formed. -/
lemma path_wellFormed {depth : Nat} (h : depth < 2 ^ 32) : (path depth).WellFormed := by
  refine ⟨by rwa [path, List.length_replicate], fun nodes hnodes => ?_⟩
  rw [List.eq_of_mem_replicate hnodes]
  exact ⟨length_beBytes _ _, length_beBytes _ _⟩

/-- The roots have 32 bytes each. -/
lemma roots_width (n : Nat) : ∀ field ∈ List.replicate n root, field.length = 32 := by
  intro field hfield
  rw [List.eq_of_mem_replicate hfield]
  exact length_beBytes _ _

/-- The request of an inner rollup. -/
def txRollup : TxRollup where
  rollupId := 3
  dataStartIndex := 64
  proofs := [List.replicate 256 0]
  oldDataRoot := root
  newDataRoot := root
  oldDataPath := path 31
  linkedCommitmentPaths := [path 32]
  linkedCommitmentIndices := [0]
  oldNullRoot := root
  newNullRoots := List.replicate 2 root
  oldNullPaths := [path 256, path 256]
  dataRootsRoot := root
  dataRootsPaths := [path 28]
  dataRootsIndicies := [1]
  newDefiRoot := root
  bridgeCallDatas := List.replicate 1 root
  assetIds := List.replicate 1 root
  rollupHash := sha256 paddingTxId

/-- It is well formed. -/
lemma txRollup_wellFormed : txRollup.WellFormed keccak256 sha256 where
  rollupId := by decide
  dataStartIndex := by decide
  proofs := ⟨by decide, List.forall_mem_singleton.mpr (by rw [List.length_replicate]; decide)⟩
  oldDataRoot := length_beBytes _ _
  newDataRoot := length_beBytes _ _
  oldDataPath := path_wellFormed (by decide)
  linkedCommitmentPaths := ⟨by decide, List.forall_mem_singleton.mpr (path_wellFormed (by decide))⟩
  linkedCommitmentIndices := ⟨by decide, by decide⟩
  oldNullRoot := length_beBytes _ _
  newNullRoots := ⟨by decide, roots_width 2⟩
  oldNullPaths := ⟨by decide, List.forall_mem_cons.mpr ⟨path_wellFormed (by decide),
    List.forall_mem_singleton.mpr (path_wellFormed (by decide))⟩⟩
  dataRootsRoot := length_beBytes _ _
  dataRootsPaths := ⟨by decide, List.forall_mem_singleton.mpr (path_wellFormed (by decide))⟩
  dataRootsIndicies := ⟨by decide, by decide⟩
  newDefiRoot := length_beBytes _ _
  bridgeCallDatas := ⟨by decide, roots_width 1⟩
  assetIds := ⟨by decide, roots_width 1⟩
  rollupHash := by
    have hread : readUInt32BE (List.replicate 256 0) 28 = .ok 0 := by
      rw [readUInt32BE, if_pos (by rw [List.length_replicate]; decide)]
      rfl
    have hslice : slice (List.replicate 256 (0 : UInt8)) 0 (NUM_PUBLISHED_PUBLIC_INPUTS * 32) =
        List.replicate 256 0 := by
      rw [slice, List.drop_zero]
      exact List.take_of_length_le (by rw [List.length_replicate]; decide)
    have htxId : ProofData.txId keccak256 (List.replicate 256 0) = .ok paddingTxId := by
      rw [ProofData.txId, hslice, createTxId, hread]
      rfl
    show (do
      let txIds ← [List.replicate 256 0].mapM (ProofData.txId keccak256)
      .ok (sha256 txIds.flatten)) = _
    rw [List.mapM_cons, htxId]
    rfl

/-- A request without notes, whose paths have the given depths. -/
def rootRollup (depth defiDepth : Nat) : RootRollup where
  rollupId := 3
  proofs := [List.replicate 300 1]
  oldDataRootsRoot := root
  newDataRootsRoot := root
  oldDataRootsPath := path depth
  oldDefiRoot := root
  newDefiRoot := root
  oldDefiPath := path defiDepth
  bridgeCallDatas := [1]
  assetIds := List.replicate 1 root
  defiInteractionNotes := []
  rollupBeneficiary := beBytes 20 9

/-- So is that of a root rollup, without notes. -/
lemma rootRollup_wellFormed {depth defiDepth : Nat} (h : depth < 2 ^ 32) (h' : defiDepth < 2 ^ 32) :
    (rootRollup depth defiDepth).WellFormed [] where
  rollupId := by show 3 < 2 ^ 32; decide
  proofs := ⟨by show 1 < 2 ^ 32; decide, fun proof hproof => by
    rw [List.mem_singleton.mp hproof, List.length_replicate]
    decide⟩
  oldDataRootsRoot := length_beBytes _ _
  newDataRootsRoot := length_beBytes _ _
  oldDataRootsPath := path_wellFormed h
  oldDefiRoot := length_beBytes _ _
  newDefiRoot := length_beBytes _ _
  oldDefiPath := path_wellFormed h'
  numBridgeCallDatas := by show 1 < 2 ^ 32; decide
  bridgeCallDatas := fun b hb => by
    rw [List.mem_singleton.mp hb]
    decide
  assetIds := ⟨by show 1 < 2 ^ 32; decide, roots_width 1⟩
  numNotes := by decide
  eachNote := fun note hnote => nomatch hnote
  defiInteractionNotes := rfl
  rollupBeneficiary := length_beBytes _ _

/-- The depths of the trees are 28 and 30. -/
lemma not_rootRollupRead : ¬ RootRollupRead (rootRollup 28 30) [] := by
  rw [rootRollupRead_iff (rootRollup_wellFormed (by decide) (by decide))]
  rintro ⟨-, hagree⟩
  revert hagree
  decide

end SampleRequests

open SampleRequests in
/-- Both kinds of requests are read, with paths that are equally deep. -/
theorem requests_read_sample : TxRollupRead keccak256 sha256 txRollup ∧ RootRollupRead (rootRollup 2 2) [] :=
  ⟨(requests_read_iff keccak256 sha256).1 txRollup txRollup_wellFormed,
    ((requests_read_iff keccak256 sha256).2 _ _ (rootRollup_wellFormed (by decide) (by decide))).mpr
      ⟨rfl, RootRollup.pathsAgree_of_length_eq rfl⟩⟩

open SampleRequests in
/-- A request for a root rollup with the depths that the trees have is not read back. -/
theorem not_requests_read : ¬ ((∀ tx : TxRollup, tx.WellFormed keccak256 sha256 →
      TxRollupRead keccak256 sha256 tx) ∧
    ∀ (tx : RootRollup) (notes : List Client.DefiInteractionNote), tx.WellFormed notes →
      RootRollupRead tx notes) :=
  fun h => not_rootRollupRead (h.2 _ _ (rootRollup_wellFormed (by decide) (by decide)))

end AztecConnect.System
