import AztecConnect.Client.RollupProofData

/-!
# The proof data of a rollup

Translation of the end of `aggregateRollupProofs` of `falafel/src/rollup_aggregator.ts`: what the root
verifier returns is the broadcast data and a proof, and what is stored, and later published, is the
encoded data and the proof. The data of a rollup are encoded whatever proof stands behind them
(`aggregatedProof_eq`).
-/

namespace AztecConnect.Falafel

open ByteFormat Client.RollupProof Client.Serialize

/-- What `aggregateRollupProofs` computes of the proof; the other columns are copied. -/
structure AggregatedProof where
  id : Bytes
  encodedProofData : Bytes

/-- What `aggregateRollupProofs` makes of the final proof: the rollup's hash and the call data. -/
def aggregatedProof (keccak256 sha256 : Bytes → Bytes) (finalProofData : Bytes) :
    Except String AggregatedProof := do
  let rollupProofData ← Client.RollupProof.RollupProofData.fromBuffer finalProofData
  let broadcastData ← rollupProofData.toBuffer
  let proofBuffer := finalProofData.drop broadcastData.length
  let id ← rollupProofData.rollupHash keccak256 sha256
  let encoded ← rollupProofData.encode
  .ok ⟨id, encoded ++ proofBuffer⟩

variable {x : Client.RollupProof.RollupProofData}

/-- The bytes of a rollup. -/
def broadcastBytes (x : Client.RollupProof.RollupProofData) : Bytes :=
  x.parts.flatten ++ (x.innerProofData.map fun p => p.parts.flatten).flatten

/-- A proof in its ranges is written as it was broadcast. -/
lemma toBuffer_eq (h : x.Enforced) : x.toBuffer = .ok (broadcastBytes x) := by
  have hinner := mapM_eq fun p hp => Client.RollupProof.InnerProofData.toBuffer_eq (h.innerProofData p hp)
  rw [Client.RollupProof.RollupProofData.toBuffer, HeaderInputs.toBuffer_eq h.header, hinner]
  rfl

/-- The rollup is read from the front of a buffer. -/
lemma fromBuffer_append (h : x.Enforced) (rest : Bytes) :
    Client.RollupProof.RollupProofData.fromBuffer (broadcastBytes x ++ rest) = .ok x := by
  have hat := at_zero (broadcastBytes x ++ rest)
  obtain ⟨hheader, hproofs⟩ := at_append.mp (at_append.mp hat).1
  rw [HeaderInputs.length_parts h.header, Nat.zero_add] at hproofs
  have hread := readInnerProofs_eq h.innerProofData hproofs
  rw [h.size] at hread
  refine (bind_of_ok (parseHeaderInputs_eq h.header hheader) _).trans ?_
  rw [if_neg h.nonempty.ne']
  exact (bind_of_ok hread _).trans (create_eq h.header _)

/-- The id of a transaction exists. -/
lemma createTxId_ok (keccak256 : Bytes → Bytes) {p : Client.RollupProof.InnerProofData} (h : p.Enforced) :
    ∃ id, p.txId keccak256 = .ok id := by
  have hread : readUInt32BE p.parts.flatten 28 = .ok p.proofId := by
    have hat := (at_flatten_cons.mp (at_zero p.parts.flatten)).1
    show uint32 p.parts.flatten 0 = _
    exact uint32_at h.proofId_lt hat
  exact ⟨_, (bind_of_ok (Client.RollupProof.InnerProofData.toBuffer_eq h) _).trans (bind_of_ok hread _)⟩

/-- So does the hash of a rollup. -/
lemma rollupHash_ok (keccak256 sha256 : Bytes → Bytes) (h : ∀ p ∈ x.innerProofData, p.Enforced) :
    ∃ id, x.rollupHash keccak256 sha256 = .ok id := by
  have hids : ∃ ids, x.innerProofData.mapM (Client.RollupProof.InnerProofData.txId keccak256) = .ok ids := by
    clear sha256
    generalize x.innerProofData = ps at h
    induction ps with
    | nil => exact ⟨[], rfl⟩
    | cons p ps ih =>
      obtain ⟨id, hid⟩ := createTxId_ok keccak256 (h p List.mem_cons_self)
      obtain ⟨ids, hids⟩ := ih fun p hp => h p (List.mem_cons_of_mem _ hp)
      refine ⟨id :: ids, ?_⟩
      rw [List.mapM_cons, hid, hids]
      rfl
  obtain ⟨ids, hids⟩ := hids
  exact ⟨_, bind_of_ok hids _⟩

/-- A broadcast proof is encoded, and the proof bytes follow. -/
lemma aggregatedProof_eq (keccak256 sha256 : Bytes → Bytes) (h : x.Enforced) {encoded : Bytes}
    (hencode : x.encode = .ok encoded) (proofBuffer : Bytes) :
    ∃ id, x.rollupHash keccak256 sha256 = .ok id ∧
      aggregatedProof keccak256 sha256 (broadcastBytes x ++ proofBuffer) =
        .ok ⟨id, encoded ++ proofBuffer⟩ := by
  obtain ⟨id, hid⟩ := rollupHash_ok keccak256 sha256 h.innerProofData
  refine ⟨id, hid, ?_⟩
  refine (bind_of_ok (fromBuffer_append h proofBuffer) _).trans ?_
  refine (bind_of_ok (toBuffer_eq h) _).trans ?_
  refine (bind_of_ok hid _).trans ?_
  refine (bind_of_ok hencode _).trans ?_
  rw [List.drop_left]

end AztecConnect.Falafel
