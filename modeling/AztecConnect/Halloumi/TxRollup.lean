import AztecConnect.Client.InnerProofData

/-!
# Rollup requests

Translation of `halloumi/src/proof_generator/tx_rollup.ts` and of what it uses of `HashPath` and of
`ProofData`. A request is built by its constructor, which hashes the ids of its transactions, so that
one with a proof that has no proof id is not built. What `toBuffer` writes are the parts of
`TxRollup.parts`, and `fromBuffer` reads the same request back (`TxRollup.fromBuffer_toBuffer`).
-/

namespace AztecConnect.Halloumi

open ByteFormat Client Serialize

/-! ## Hash paths -/

/-- `HashPath`: the pairs of nodes from the leaf up. -/
abbrev HashPath := List (Bytes × Bytes)

namespace HashPath

/-- The pairs, 64 bytes each. -/
def elements (path : HashPath) : List Bytes := path.map fun nodes => nodes.1 ++ nodes.2

/-- `toBuffer`. -/
def toBuffer (path : HashPath) : Except String Bytes := serializeBufferArrayToVector path.elements

/-- Reads one pair. -/
def deserializePath : Decoder (Bytes × Bytes) := fun buf offset =>
  .ok ((slice buf offset (offset + 32), slice buf (offset + 32) (offset + 64)), 64)

/-- `HashPath.deserialize`. -/
def deserialize : Decoder HashPath := deserializeArrayFromVector deserializePath

/-- The nodes are fields. -/
structure WellFormed (path : HashPath) : Prop where
  depth : path.length < 2 ^ 32
  nodes : ∀ nodes ∈ path, nodes.1.length = 32 ∧ nodes.2.length = 32

/-- What is written of a path. -/
def bytes (path : HashPath) : Bytes := arrayBytes path.elements

variable {path : HashPath}

/-- A well-formed path is written. -/
lemma toBuffer_eq (h : path.WellFormed) : path.toBuffer = .ok path.bytes := by
  have hlength : path.elements.length < 2 ^ 32 := by
    rw [elements, List.length_map]
    exact h.depth
  exact serializeBufferArrayToVector_eq hlength

/-- A pair is read back. -/
lemma decodes_deserializePath {nodes : Bytes × Bytes} (h : nodes.1.length = 32 ∧ nodes.2.length = 32) :
    Decodes deserializePath (nodes.1 ++ nodes.2) nodes := by
  intro buf offset hat
  obtain ⟨hleft, hright⟩ := at_append.mp hat
  have hleft' := hleft.slice
  have hright' := hright.slice
  rw [h.1] at hleft' hright'
  rw [h.2] at hright'
  rw [deserializePath, List.length_append, h.1, h.2, hleft']
  exact congrArg (fun right => Except.ok ((nodes.1, right), 64)) hright'

/-- So is a well-formed path. -/
lemma decodes (h : path.WellFormed) : Decodes deserialize path.bytes path :=
  decodes_array h.depth fun nodes hnodes => decodes_deserializePath (h.nodes nodes hnodes)

end HashPath

/-! ## Lists of fields -/

/-- A list of fields. -/
structure Fields (fields : List Bytes) : Prop where
  count : fields.length < 2 ^ 32
  width : ∀ field ∈ fields, field.length = 32

/-- Well-formed paths, not more than the count can hold. -/
structure Paths (paths : List HashPath) : Prop where
  count : paths.length < 2 ^ 32
  each : ∀ path ∈ paths, path.WellFormed

/-- Indices that fit 32 bits, not more than the count can hold. -/
structure Indices (indices : List Nat) : Prop where
  count : indices.length < 2 ^ 32
  each : ∀ index ∈ indices, index < 2 ^ 32

/-- Proofs whose lengths fit 32 bits, not more than the count can hold. -/
structure Proofs (proofs : List Bytes) : Prop where
  count : proofs.length < 2 ^ 32
  each : ∀ proof ∈ proofs, proof.length < 2 ^ 32

section Lists

variable {fields proofs : List Bytes} {paths : List HashPath} {indices : List Nat}

/-- Fields are read back. -/
lemma Fields.decodes (h : Fields fields) :
    Decodes (deserializeArrayFromVector deserializeField) (arrayBytes fields) fields := by
  have hdecodes := decodes_array h.count fun field hfield => decodes_deserializeField (h.width field hfield)
  rwa [List.map_id'] at hdecodes

/-- Paths are written. -/
lemma Paths.toBuffer (h : Paths paths) : (paths.mapM HashPath.toBuffer >>= serializeBufferArrayToVector) =
    .ok (arrayBytes (paths.map HashPath.bytes)) :=
  serializeArray_eq h.count fun path hpath => HashPath.toBuffer_eq (h.each path hpath)

/-- And read back. -/
lemma Paths.decodes (h : Paths paths) : Decodes (deserializeArrayFromVector HashPath.deserialize)
    (arrayBytes (paths.map HashPath.bytes)) paths :=
  decodes_array h.count fun path hpath => HashPath.decodes (h.each path hpath)

/-- Indices are written. -/
lemma Indices.toBuffer (h : Indices indices) :
    (indices.mapM (Serialize.numToUInt32BE · 4) >>= serializeBufferArrayToVector) =
      .ok (arrayBytes (indices.map (beBytes 4))) :=
  serializeArray_eq h.count fun index hindex => numToUInt32BE_eq (h.each index hindex)

/-- And read back. -/
lemma Indices.decodes (h : Indices indices) : Decodes (deserializeArrayFromVector deserializeUInt32)
    (arrayBytes (indices.map (beBytes 4))) indices :=
  decodes_array h.count fun index hindex => decodes_deserializeUInt32 (h.each index hindex)

/-- What is written of a proof: its length first. -/
def vector (buf : Bytes) : Bytes := beBytes 4 buf.length ++ buf

/-- Proofs are written. -/
lemma Proofs.toBuffer (h : Proofs proofs) :
    (proofs.mapM serializeBufferToVector >>= serializeBufferArrayToVector) =
      .ok (arrayBytes (proofs.map vector)) :=
  serializeArray_eq h.count fun proof hproof => serializeBufferToVector_eq (h.each proof hproof)

/-- And read back. -/
lemma Proofs.decodes (h : Proofs proofs) :
    Decodes (deserializeArrayFromVector deserializeBufferFromVector) (arrayBytes (proofs.map vector))
      proofs :=
  decodes_array h.count fun proof hproof =>
    decodes_deserializeBufferFromVector (h.each proof hproof)

end Lists

/-! ## Transaction ids -/

section TxIds

variable (keccak256 sha256 : Bytes → Bytes)

def NUM_PUBLISHED_PUBLIC_INPUTS : Nat := 8

/-- `new ProofData(p).txId`. -/
def ProofData.txId (rawProofData : Bytes) : Except String Bytes := do
  let _ ← readUInt32BE rawProofData 28
  createTxId keccak256 (slice rawProofData 0 (NUM_PUBLISHED_PUBLIC_INPUTS * 32))

/-- The hash of the ids of the transactions. -/
def hashOfTxIds (proofs : List Bytes) : Except String Bytes := do
  let txIds ← proofs.mapM (ProofData.txId keccak256)
  .ok (sha256 txIds.flatten)

end TxIds

/-! ## Requests -/

/-- `TxRollup`. -/
structure TxRollup where
  rollupId : Nat
  dataStartIndex : Nat
  proofs : List Bytes
  oldDataRoot : Bytes
  newDataRoot : Bytes
  oldDataPath : HashPath
  linkedCommitmentPaths : List HashPath
  linkedCommitmentIndices : List Nat
  oldNullRoot : Bytes
  newNullRoots : List Bytes
  oldNullPaths : List HashPath
  dataRootsRoot : Bytes
  dataRootsPaths : List HashPath
  dataRootsIndicies : List Nat
  newDefiRoot : Bytes
  bridgeCallDatas : List Bytes
  assetIds : List Bytes
  rollupHash : Bytes
  deriving DecidableEq

namespace TxRollup

section Constructor

variable (keccak256 sha256 : Bytes → Bytes)

/-- The constructor: the hash is computed from the proofs. -/
def create (rollupId dataStartIndex : Nat) (proofs : List Bytes) (oldDataRoot newDataRoot : Bytes)
    (oldDataPath : HashPath) (linkedCommitmentPaths : List HashPath) (linkedCommitmentIndices : List Nat)
    (oldNullRoot : Bytes) (newNullRoots : List Bytes) (oldNullPaths : List HashPath)
    (dataRootsRoot : Bytes) (dataRootsPaths : List HashPath) (dataRootsIndicies : List Nat)
    (newDefiRoot : Bytes) (bridgeCallDatas assetIds : List Bytes) : Except String TxRollup := do
  let rollupHash ← hashOfTxIds keccak256 sha256 proofs
  .ok { rollupId, dataStartIndex, proofs, oldDataRoot, newDataRoot, oldDataPath, linkedCommitmentPaths
        linkedCommitmentIndices, oldNullRoot, newNullRoots, oldNullPaths, dataRootsRoot, dataRootsPaths
        dataRootsIndicies, newDefiRoot, bridgeCallDatas, assetIds, rollupHash }

/-- `fromBuffer`. -/
def fromBuffer (buf : Bytes) : Except String TxRollup := do
  let rollupId ← readUInt32BE buf 0
  -- the number of transactions is passed over
  let dataStartIndex ← readUInt32BE buf 8
  let offset := 12
  let (proofs, offset) ← exec (deserializeArrayFromVector deserializeBufferFromVector) buf offset
  let (oldDataRoot, offset) ← exec deserializeField buf offset
  let (newDataRoot, offset) ← exec deserializeField buf offset
  let (oldDataPath, offset) ← exec HashPath.deserialize buf offset
  let (linkedCommitmentPaths, offset) ← exec (deserializeArrayFromVector HashPath.deserialize) buf offset
  let (linkedCommitmentIndices, offset) ← exec (deserializeArrayFromVector deserializeUInt32) buf offset
  let (oldNullRoot, offset) ← exec deserializeField buf offset
  let (newNullRoots, offset) ← exec (deserializeArrayFromVector deserializeField) buf offset
  let (oldNullPaths, offset) ← exec (deserializeArrayFromVector HashPath.deserialize) buf offset
  let (dataRootsRoot, offset) ← exec deserializeField buf offset
  let (dataRootsPaths, offset) ← exec (deserializeArrayFromVector HashPath.deserialize) buf offset
  let (dataRootsIndicies, offset) ← exec (deserializeArrayFromVector deserializeUInt32) buf offset
  let (newDefiRoot, offset) ← exec deserializeField buf offset
  let (bridgeCallDatas, offset) ← exec (deserializeArrayFromVector deserializeField) buf offset
  let (assetIds, _) ← exec (deserializeArrayFromVector deserializeField) buf offset
  create keccak256 sha256 rollupId dataStartIndex proofs oldDataRoot newDataRoot oldDataPath
    linkedCommitmentPaths linkedCommitmentIndices oldNullRoot newNullRoots oldNullPaths dataRootsRoot
    dataRootsPaths dataRootsIndicies newDefiRoot bridgeCallDatas assetIds

end Constructor

/-- `toBuffer`. -/
def toBuffer (tx : TxRollup) : Except String Bytes := do
  let rollupId ← Serialize.numToUInt32BE tx.rollupId
  let numTxs ← Serialize.numToUInt32BE tx.proofs.length
  let dataStartIndex ← Serialize.numToUInt32BE tx.dataStartIndex
  let proofs ← tx.proofs.mapM serializeBufferToVector >>= serializeBufferArrayToVector
  let oldDataPath ← tx.oldDataPath.toBuffer
  let linkedCommitmentPaths ←
    tx.linkedCommitmentPaths.mapM HashPath.toBuffer >>= serializeBufferArrayToVector
  let linkedCommitmentIndices ←
    tx.linkedCommitmentIndices.mapM (Serialize.numToUInt32BE · 4) >>= serializeBufferArrayToVector
  let newNullRoots ← serializeBufferArrayToVector tx.newNullRoots
  let oldNullPaths ← tx.oldNullPaths.mapM HashPath.toBuffer >>= serializeBufferArrayToVector
  let dataRootsPaths ← tx.dataRootsPaths.mapM HashPath.toBuffer >>= serializeBufferArrayToVector
  let dataRootsIndicies ←
    tx.dataRootsIndicies.mapM (Serialize.numToUInt32BE · 4) >>= serializeBufferArrayToVector
  let bridgeCallDatas ← serializeBufferArrayToVector tx.bridgeCallDatas
  let assetIds ← serializeBufferArrayToVector tx.assetIds
  .ok [rollupId, numTxs, dataStartIndex, proofs, tx.oldDataRoot, tx.newDataRoot, oldDataPath,
    linkedCommitmentPaths, linkedCommitmentIndices, tx.oldNullRoot, newNullRoots, oldNullPaths,
    tx.dataRootsRoot, dataRootsPaths, dataRootsIndicies, tx.newDefiRoot, bridgeCallDatas,
    assetIds].flatten

/-- Roots and what the lists hold have 32 bytes, numbers are `uint32`, and the hash is that of the
proofs: the request has been built. -/
structure WellFormed (keccak256 sha256 : Bytes → Bytes) (tx : TxRollup) : Prop where
  rollupId : tx.rollupId < 2 ^ 32
  dataStartIndex : tx.dataStartIndex < 2 ^ 32
  proofs : Proofs tx.proofs
  oldDataRoot : tx.oldDataRoot.length = 32
  newDataRoot : tx.newDataRoot.length = 32
  oldDataPath : tx.oldDataPath.WellFormed
  linkedCommitmentPaths : Paths tx.linkedCommitmentPaths
  linkedCommitmentIndices : Indices tx.linkedCommitmentIndices
  oldNullRoot : tx.oldNullRoot.length = 32
  newNullRoots : Fields tx.newNullRoots
  oldNullPaths : Paths tx.oldNullPaths
  dataRootsRoot : tx.dataRootsRoot.length = 32
  dataRootsPaths : Paths tx.dataRootsPaths
  dataRootsIndicies : Indices tx.dataRootsIndicies
  newDefiRoot : tx.newDefiRoot.length = 32
  bridgeCallDatas : Fields tx.bridgeCallDatas
  assetIds : Fields tx.assetIds
  rollupHash : hashOfTxIds keccak256 sha256 tx.proofs = .ok tx.rollupHash

/-- What is written, field by field. -/
def parts (tx : TxRollup) : List Bytes :=
  [beBytes 4 tx.rollupId, beBytes 4 tx.proofs.length, beBytes 4 tx.dataStartIndex,
    arrayBytes (tx.proofs.map vector), tx.oldDataRoot, tx.newDataRoot, tx.oldDataPath.bytes,
    arrayBytes (tx.linkedCommitmentPaths.map HashPath.bytes),
    arrayBytes (tx.linkedCommitmentIndices.map (beBytes 4)), tx.oldNullRoot, arrayBytes tx.newNullRoots,
    arrayBytes (tx.oldNullPaths.map HashPath.bytes), tx.dataRootsRoot,
    arrayBytes (tx.dataRootsPaths.map HashPath.bytes), arrayBytes (tx.dataRootsIndicies.map (beBytes 4)),
    tx.newDefiRoot, arrayBytes tx.bridgeCallDatas, arrayBytes tx.assetIds]

variable {keccak256 sha256 : Bytes → Bytes} {tx : TxRollup}

/-- A well-formed request is written as its parts. -/
lemma toBuffer_eq (h : tx.WellFormed keccak256 sha256) : tx.toBuffer = .ok tx.parts.flatten := by
  rw [toBuffer, numToUInt32BE_eq h.rollupId, numToUInt32BE_eq h.proofs.count,
    numToUInt32BE_eq h.dataStartIndex, h.proofs.toBuffer, HashPath.toBuffer_eq h.oldDataPath,
    h.linkedCommitmentPaths.toBuffer, h.linkedCommitmentIndices.toBuffer,
    serializeBufferArrayToVector_eq h.newNullRoots.count, h.oldNullPaths.toBuffer,
    h.dataRootsPaths.toBuffer, h.dataRootsIndicies.toBuffer,
    serializeBufferArrayToVector_eq h.bridgeCallDatas.count,
    serializeBufferArrayToVector_eq h.assetIds.count]
  rfl

/-- The constructor computes the hash of the ids. -/
lemma create_eq (h : hashOfTxIds keccak256 sha256 tx.proofs = .ok tx.rollupHash) :
    create keccak256 sha256 tx.rollupId tx.dataStartIndex tx.proofs tx.oldDataRoot tx.newDataRoot
      tx.oldDataPath tx.linkedCommitmentPaths tx.linkedCommitmentIndices tx.oldNullRoot tx.newNullRoots
      tx.oldNullPaths tx.dataRootsRoot tx.dataRootsPaths tx.dataRootsIndicies tx.newDefiRoot
      tx.bridgeCallDatas tx.assetIds = .ok tx := by
  rw [create, h]
  rfl

/-- The request is read back. -/
lemma fromBuffer_parts (h : tx.WellFormed keccak256 sha256) :
    fromBuffer keccak256 sha256 tx.parts.flatten = .ok tx := by
  obtain ⟨h₁, hat⟩ := at_flatten_cons.mp (at_zero tx.parts.flatten)
  obtain ⟨h₂, hat⟩ := at_flatten_cons.mp hat
  obtain ⟨h₃, hat⟩ := at_flatten_cons.mp hat
  obtain ⟨h₄, hat⟩ := at_flatten_cons.mp hat
  obtain ⟨h₅, hat⟩ := at_flatten_cons.mp hat
  obtain ⟨h₆, hat⟩ := at_flatten_cons.mp hat
  obtain ⟨h₇, hat⟩ := at_flatten_cons.mp hat
  obtain ⟨h₈, hat⟩ := at_flatten_cons.mp hat
  obtain ⟨h₉, hat⟩ := at_flatten_cons.mp hat
  obtain ⟨h₁₀, hat⟩ := at_flatten_cons.mp hat
  obtain ⟨h₁₁, hat⟩ := at_flatten_cons.mp hat
  obtain ⟨h₁₂, hat⟩ := at_flatten_cons.mp hat
  obtain ⟨h₁₃, hat⟩ := at_flatten_cons.mp hat
  obtain ⟨h₁₄, hat⟩ := at_flatten_cons.mp hat
  obtain ⟨h₁₅, hat⟩ := at_flatten_cons.mp hat
  obtain ⟨h₁₆, hat⟩ := at_flatten_cons.mp hat
  obtain ⟨h₁₇, hat⟩ := at_flatten_cons.mp hat
  obtain ⟨h₁₈, -⟩ := at_flatten_cons.mp hat
  refine (bind_of_ok (readUInt32BE_eq h.rollupId h₁) _).trans ?_
  refine (bind_of_ok (readUInt32BE_eq h.dataStartIndex h₃) _).trans ?_
  refine (exec_bind h.proofs.decodes h₄ _).trans ?_
  refine (exec_bind (decodes_deserializeField h.oldDataRoot) h₅ _).trans ?_
  refine (exec_bind (decodes_deserializeField h.newDataRoot) h₆ _).trans ?_
  refine (exec_bind (HashPath.decodes h.oldDataPath) h₇ _).trans ?_
  refine (exec_bind h.linkedCommitmentPaths.decodes h₈ _).trans ?_
  refine (exec_bind h.linkedCommitmentIndices.decodes h₉ _).trans ?_
  refine (exec_bind (decodes_deserializeField h.oldNullRoot) h₁₀ _).trans ?_
  refine (exec_bind h.newNullRoots.decodes h₁₁ _).trans ?_
  refine (exec_bind h.oldNullPaths.decodes h₁₂ _).trans ?_
  refine (exec_bind (decodes_deserializeField h.dataRootsRoot) h₁₃ _).trans ?_
  refine (exec_bind h.dataRootsPaths.decodes h₁₄ _).trans ?_
  refine (exec_bind h.dataRootsIndicies.decodes h₁₅ _).trans ?_
  refine (exec_bind (decodes_deserializeField h.newDefiRoot) h₁₆ _).trans ?_
  refine (exec_bind h.bridgeCallDatas.decodes h₁₇ _).trans ?_
  refine (exec_bind h.assetIds.decodes h₁₈ _).trans ?_
  exact create_eq h.rollupHash

end TxRollup

end AztecConnect.Halloumi
