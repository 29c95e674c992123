import AztecConnect.Client.RollupProcessor
import AztecConnect.Halloumi.TxRollup

/-!
# Root rollup requests

Translation of `halloumi/src/proof_generator/root_rollup.ts` and of `DefiInteractionNote.toBuffer`.
Behind the path of the defi tree `fromBuffer` goes as far as the path of the roots tree is long, and
reads interaction notes as fields, although a note has 133 bytes. So it reads back a request without
notes whose two paths are equally deep, or one where the bytes happen to repeat
(`RootRollup.fromBuffer_parts_iff`).
-/

namespace AztecConnect

open ByteFormat Client Serialize

/-! ## Interaction notes -/

namespace Client.DefiInteractionNote

/-- `DefiInteractionNote.toBuffer`. -/
def toBuffer (note : DefiInteractionNote) : Except String Bytes := do
  let nonce ← Serialize.numToUInt32BE note.nonce
  .ok [note.bridgeCallData.toBuffer, serializeBigInt note.totalInputValue,
    serializeBigInt note.totalOutputValueA, serializeBigInt note.totalOutputValueB, nonce,
    boolToByte note.result].flatten

/-- The fields are in the ranges of their types. -/
structure WellFormed (note : DefiInteractionNote) : Prop where
  bridgeCallData : note.bridgeCallData.WithinLengths
  nonce : note.nonce < 2 ^ 32
  totalInputValue : note.totalInputValue < 2 ^ 256
  totalOutputValueA : note.totalOutputValueA < 2 ^ 256
  totalOutputValueB : note.totalOutputValueB < 2 ^ 256

/-- What is written of a note. -/
def parts (note : DefiInteractionNote) : List Bytes :=
  [beBytes 32 note.bridgeCallData.toBigInt, beBytes 32 note.totalInputValue,
    beBytes 32 note.totalOutputValueA, beBytes 32 note.totalOutputValueB, beBytes 4 note.nonce,
    boolToByte note.result]

variable {note : DefiInteractionNote}

/-- A well-formed note is written as its parts. -/
lemma toBuffer_eq (h : note.WellFormed) : note.toBuffer = .ok note.parts.flatten := by
  rw [toBuffer, numToUInt32BE_eq h.nonce, BridgeCallData.toBuffer,
    Serialize.toBufferBE_eq (BridgeCallData.toBigInt_lt h.bridgeCallData), serializeBigInt, serializeBigInt,
    serializeBigInt, Serialize.toBufferBE_eq h.totalInputValue, Serialize.toBufferBE_eq h.totalOutputValueA,
    Serialize.toBufferBE_eq h.totalOutputValueB]
  rfl

/-- They have 133 bytes. -/
lemma length_parts (note : DefiInteractionNote) : note.parts.flatten.length = 133 := by
  simp [parts, boolToByte]

end Client.DefiInteractionNote

namespace Halloumi

/-! ## The lengths of paths -/

namespace HashPath

variable {path : HashPath}

/-- A path has 64 bytes for every pair. -/
lemma length_elements (h : ∀ nodes ∈ path, nodes.1.length = 32 ∧ nodes.2.length = 32) :
    (elements path).flatten.length = 64 * path.length := by
  induction path with
  | nil => rfl
  | cons nodes path ih =>
    obtain ⟨hleft, hright⟩ := h nodes List.mem_cons_self
    have hrest := ih fun nodes hnodes => h nodes (List.mem_cons_of_mem _ hnodes)
    rw [elements] at hrest ⊢
    rw [List.map_cons, List.flatten_cons, List.length_append, List.length_append, hleft, hright, hrest,
      List.length_cons]
    omega

/-- And four for their number. -/
lemma length_bytes (h : path.WellFormed) : path.bytes.length = 4 + 64 * path.length := by
  rw [bytes, arrayBytes, List.length_append, length_beBytes, length_elements h.nodes]

/-- Behind the bytes of a path as deep as the upper nodes, the deeper nodes follow. -/
lemma drop_bytes (h : path.WellFormed) {depth : Nat} (hdepth : depth ≤ path.length) (rest : Bytes) :
    (path.bytes ++ rest).drop (4 + 64 * depth) = (elements (path.drop depth)).flatten ++ rest := by
  have hupper : (elements (path.take depth)).flatten.length = 64 * depth := by
    rw [length_elements fun nodes hnodes => h.nodes nodes (List.mem_of_mem_take hnodes),
      List.length_take_of_le hdepth]
  have hsplit : path.elements = elements (path.take depth) ++ elements (path.drop depth) := by
    rw [elements, elements, elements, ← List.map_append, List.take_append_drop]
  have hlength : 4 + 64 * depth =
      (beBytes 4 path.elements.length ++ (elements (path.take depth)).flatten).length := by
    rw [List.length_append, length_beBytes, hupper]
  rw [bytes, arrayBytes, hsplit, List.flatten_append, ← hsplit, ← List.append_assoc, List.append_assoc _ _ rest,
    hlength, List.drop_left]

end HashPath

/-! ## Requests -/

/-- `RootRollup`. -/
structure RootRollup where
  rollupId : Nat
  proofs : List Bytes
  oldDataRootsRoot : Bytes
  newDataRootsRoot : Bytes
  oldDataRootsPath : HashPath
  oldDefiRoot : Bytes
  newDefiRoot : Bytes
  oldDefiPath : HashPath
  bridgeCallDatas : List Nat
  assetIds : List Bytes
  defiInteractionNotes : List Bytes
  rollupBeneficiary : Bytes
  deriving DecidableEq

namespace RootRollup

/-- `toBuffer`. -/
def toBuffer (tx : RootRollup) : Except String Bytes := do
  let rollupId ← Serialize.numToUInt32BE tx.rollupId
  let numProofs ← Serialize.numToUInt32BE tx.proofs.length
  let proofs ← tx.proofs.mapM serializeBufferToVector >>= serializeBufferArrayToVector
  let oldDataRootsPath ← tx.oldDataRootsPath.toBuffer
  let oldDefiPath ← tx.oldDefiPath.toBuffer
  let bridgeCallDatas ←
    serializeBufferArrayToVector (tx.bridgeCallDatas.map fun b => Serialize.toBufferBE b 32)
  let assetIds ← serializeBufferArrayToVector tx.assetIds
  let defiInteractionNotes ← serializeBufferArrayToVector tx.defiInteractionNotes
  .ok [rollupId, numProofs, proofs, tx.oldDataRootsRoot, tx.newDataRootsRoot, oldDataRootsPath,
    tx.oldDefiRoot, tx.newDefiRoot, oldDefiPath, bridgeCallDatas, assetIds, defiInteractionNotes,
    EthAddress.toBuffer32 tx.rollupBeneficiary].flatten

/-- The end of `fromBuffer`, from the bridge call data on. -/
def readLists (buf : Bytes) (offset : Nat) :
    Except String (List Nat × List Bytes × List Bytes × Bytes) := do
  let (bridgeCallDatas, offset) ← exec (deserializeArrayFromVector (deserializeBigInt 32)) buf offset
  let (assetIds, offset) ← exec (deserializeArrayFromVector deserializeField) buf offset
  let (defiInteractionNotes, offset) ← exec (deserializeArrayFromVector deserializeField) buf offset
  let (rollupBeneficiary, _) ← exec deserializeField buf offset
  let rollupBeneficiary ← EthAddress.create rollupBeneficiary
  .ok (bridgeCallDatas, assetIds, defiInteractionNotes, rollupBeneficiary)

/-- `fromBuffer`, with the advances it takes. -/
def fromBuffer (buf : Bytes) : Except String RootRollup := do
  let rollupId ← readUInt32BE buf 0
  let offset := 8
  let (proofs, adv) ← deserializeArrayFromVector deserializeBufferFromVector buf offset
  let offset := offset + adv
  let (oldDataRootsRoot, oldDataRootsRootAdv) ← deserializeField buf offset
  let offset := offset + oldDataRootsRootAdv
  let (newDataRootsRoot, newDataRootsRootAdv) ← deserializeField buf offset
  let offset := offset + newDataRootsRootAdv
  let (oldDataRootsPath, oldDataRootsPathAdv) ← HashPath.deserialize buf offset
  let offset := offset + oldDataRootsPathAdv
  let (oldDefiRoot, _) ← deserializeField buf offset
  let offset := offset + oldDataRootsRootAdv
  let (newDefiRoot, _) ← deserializeField buf offset
  let offset := offset + newDataRootsRootAdv
  let (oldDefiPath, _) ← HashPath.deserialize buf offset
  -- the advance of the path of the roots tree, not of the one just read
  let offset := offset + oldDataRootsPathAdv
  let (bridgeCallDatas, assetIds, defiInteractionNotes, rollupBeneficiary) ← readLists buf offset
  .ok { rollupId, proofs, oldDataRootsRoot, newDataRootsRoot, oldDataRootsPath, oldDefiRoot, newDefiRoot
        oldDefiPath, bridgeCallDatas, assetIds, defiInteractionNotes, rollupBeneficiary }

/-- Roots and asset ids have 32 bytes, numbers the width that is written, and the notes are the buffers
of interaction notes. -/
structure WellFormed (tx : RootRollup) (notes : List DefiInteractionNote) : Prop where
  rollupId : tx.rollupId < 2 ^ 32
  proofs : Proofs tx.proofs
  oldDataRootsRoot : tx.oldDataRootsRoot.length = 32
  newDataRootsRoot : tx.newDataRootsRoot.length = 32
  oldDataRootsPath : tx.oldDataRootsPath.WellFormed
  oldDefiRoot : tx.oldDefiRoot.length = 32
  newDefiRoot : tx.newDefiRoot.length = 32
  oldDefiPath : tx.oldDefiPath.WellFormed
  numBridgeCallDatas : tx.bridgeCallDatas.length < 2 ^ 32
  bridgeCallDatas : ∀ b ∈ tx.bridgeCallDatas, b < 2 ^ 256
  assetIds : Fields tx.assetIds
  numNotes : notes.length < 2 ^ 32
  eachNote : ∀ note ∈ notes, note.WellFormed
  defiInteractionNotes : notes.mapM DefiInteractionNote.toBuffer = .ok tx.defiInteractionNotes
  rollupBeneficiary : tx.rollupBeneficiary.length = 20

/-- What is written behind the paths. -/
def lists (tx : RootRollup) : List Bytes :=
  [arrayBytes (tx.bridgeCallDatas.map (beBytes 32)), arrayBytes tx.assetIds,
    arrayBytes tx.defiInteractionNotes, EthAddress.toBuffer32 tx.rollupBeneficiary]

/-- What is written before the path of the defi tree. -/
def front (tx : RootRollup) : List Bytes :=
  [beBytes 4 tx.rollupId, beBytes 4 tx.proofs.length, arrayBytes (tx.proofs.map vector),
    tx.oldDataRootsRoot, tx.newDataRootsRoot, tx.oldDataRootsPath.bytes, tx.oldDefiRoot, tx.newDefiRoot]

/-- What is written, field by field. -/
def parts (tx : RootRollup) : List Bytes := tx.front ++ tx.oldDefiPath.bytes :: tx.lists

/-- Behind as many nodes of the defi path as the roots path has, what is written behind the paths can be
read. It can if the paths are equally deep, and if the deeper nodes of the defi path repeat it. -/
def PathsAgree (tx : RootRollup) : Prop :=
  tx.oldDataRootsPath.length ≤ tx.oldDefiPath.length ∧
    tx.lists.flatten <+:
      (HashPath.elements (tx.oldDefiPath.drop tx.oldDataRootsPath.length)).flatten ++ tx.lists.flatten

instance (tx : RootRollup) : Decidable tx.PathsAgree :=
  inferInstanceAs (Decidable (_ ∧ _))

variable {tx : RootRollup} {notes : List DefiInteractionNote}

/-- Paths of one length agree. -/
lemma pathsAgree_of_length_eq (h : tx.oldDataRootsPath.length = tx.oldDefiPath.length) : tx.PathsAgree := by
  refine ⟨h.le, ?_⟩
  rw [h, List.drop_length]
  exact List.prefix_refl _

/-- Where `fromBuffer` looks for the lists. -/
def listsOffset (tx : RootRollup) : Nat :=
  8 + (arrayBytes (tx.proofs.map vector)).length + 32 + 32 + tx.oldDataRootsPath.bytes.length + 32 + 32 +
    tx.oldDataRootsPath.bytes.length

/-- The notes are written one after the other. -/
lemma WellFormed.notes_eq (h : tx.WellFormed notes) :
    tx.defiInteractionNotes = notes.map fun note => note.parts.flatten := by
  have hmap := mapM_eq fun note hnote => DefiInteractionNote.toBuffer_eq (h.eachNote note hnote)
  rw [h.defiInteractionNotes] at hmap
  exact Except.ok.inj hmap

/-- A well-formed request is written as its parts. -/
lemma toBuffer_eq (h : tx.WellFormed notes) : tx.toBuffer = .ok tx.parts.flatten := by
  have hbridge : tx.bridgeCallDatas.map (fun b => Serialize.toBufferBE b 32) =
      tx.bridgeCallDatas.map (beBytes 32) :=
    List.map_congr_left fun b hb => Serialize.toBufferBE_eq (h.bridgeCallDatas b hb)
  have hnotes : tx.defiInteractionNotes.length < 2 ^ 32 := by
    rw [h.notes_eq, List.length_map]
    exact h.numNotes
  rw [toBuffer, numToUInt32BE_eq h.rollupId, numToUInt32BE_eq h.proofs.count, h.proofs.toBuffer,
    HashPath.toBuffer_eq h.oldDataRootsPath, HashPath.toBuffer_eq h.oldDefiPath, hbridge,
    serializeBufferArrayToVector_eq (by rw [List.length_map]; exact h.numBridgeCallDatas),
    serializeBufferArrayToVector_eq h.assetIds.count, serializeBufferArrayToVector_eq hnotes]
  rfl

/-- A field is read from where it stands. -/
lemma field_eq {buf field : Bytes} {offset : Nat} (h : field.length = 32) (hat : At buf offset field) :
    deserializeField buf offset = .ok (field, 32) := by
  rw [decodes_deserializeField h buf offset hat, h]

/-- All up to the paths is read back. -/
lemma fromBuffer_parts (h : tx.WellFormed notes) : fromBuffer tx.parts.flatten = (do
    let (bridgeCallDatas, assetIds, defiInteractionNotes, rollupBeneficiary) ←
      readLists tx.parts.flatten tx.listsOffset
    .ok { tx with bridgeCallDatas, assetIds, defiInteractionNotes, rollupBeneficiary }) := by
  obtain ⟨h₁, hat⟩ := at_flatten_cons.mp (at_zero tx.parts.flatten)
  obtain ⟨-, hat⟩ := at_flatten_cons.mp hat
  obtain ⟨h₃, hat⟩ := at_flatten_cons.mp hat
  obtain ⟨h₄, hat⟩ := at_flatten_cons.mp hat
  obtain ⟨h₅, hat⟩ := at_flatten_cons.mp hat
  obtain ⟨h₆, hat⟩ := at_flatten_cons.mp hat
  obtain ⟨h₇, hat⟩ := at_flatten_cons.mp hat
  obtain ⟨h₈, hat⟩ := at_flatten_cons.mp hat
  obtain ⟨h₉, -⟩ := at_flatten_cons.mp hat
  rw [h.oldDataRootsRoot] at h₅ h₆ h₇ h₈ h₉
  rw [h.newDataRootsRoot] at h₆ h₇ h₈ h₉
  rw [h.oldDefiRoot] at h₈ h₉
  rw [h.newDefiRoot] at h₉
  refine (bind_of_ok (readUInt32BE_eq h.rollupId h₁) _).trans ?_
  refine (bind_of_ok (h.proofs.decodes _ _ h₃) _).trans ?_
  refine (bind_of_ok (field_eq h.oldDataRootsRoot h₄) _).trans ?_
  refine (bind_of_ok (field_eq h.newDataRootsRoot h₅) _).trans ?_
  refine (bind_of_ok (HashPath.decodes h.oldDataRootsPath _ _ h₆) _).trans ?_
  refine (bind_of_ok (field_eq h.oldDefiRoot h₇) _).trans ?_
  refine (bind_of_ok (field_eq h.newDefiRoot h₈) _).trans ?_
  exact bind_of_ok (HashPath.decodes h.oldDefiPath _ _ h₉) _

/-! ## The lists -/

/-- Without notes the lists are read from where they stand. -/
lemma readLists_of_at {buf : Bytes} {offset : Nat} (h : tx.WellFormed notes)
    (hnone : tx.defiInteractionNotes = []) (hat : At buf offset tx.lists.flatten) :
    readLists buf offset =
      .ok (tx.bridgeCallDatas, tx.assetIds, tx.defiInteractionNotes, tx.rollupBeneficiary) := by
  have hnotes : Fields tx.defiInteractionNotes := by
    rw [hnone]
    exact ⟨Nat.two_pow_pos 32, fun field hfield => nomatch hfield⟩
  have hlength : (EthAddress.toBuffer32 tx.rollupBeneficiary).length = 32 := by
    rw [EthAddress.toBuffer32, List.length_append, List.length_replicate, h.rollupBeneficiary]
  obtain ⟨h₁, hat⟩ := at_flatten_cons.mp hat
  obtain ⟨h₂, hat⟩ := at_flatten_cons.mp hat
  obtain ⟨h₃, hat⟩ := at_flatten_cons.mp hat
  obtain ⟨h₄, -⟩ := at_flatten_cons.mp hat
  refine (exec_bind (decodes_array h.numBridgeCallDatas fun b hb =>
    decodes_deserializeBigInt (h.bridgeCallDatas b hb)) h₁ _).trans ?_
  refine (exec_bind h.assetIds.decodes h₂ _).trans ?_
  refine (exec_bind hnotes.decodes h₃ _).trans ?_
  refine (exec_bind (decodes_deserializeField hlength) h₄ _).trans ?_
  exact bind_of_ok (EthAddress.create_toBuffer32 h.rollupBeneficiary) _

/-- What is read as fields are their bytes. -/
lemma exact_fields : Exact (deserializeArrayFromVector deserializeField) arrayBytes := by
  intro buf offset fields adv h hle
  obtain ⟨hat, hadv⟩ := exact_deserializeArrayFromVector exact_deserializeField buf offset fields adv h hle
  dsimp only at hat hadv
  rw [List.map_id] at hat hadv
  exact ⟨hat, hadv⟩

/-- What has been read stands there; only the address may be a shorter one at the end of the buffer. -/
lemma readLists_ok {buf : Bytes} {offset : Nat} {b : List Nat} {a n : List Bytes} {r : Bytes}
    (h : readLists buf offset = .ok (b, a, n, r)) :
    (∀ note ∈ n, note.length ≤ 32) ∧
      At buf offset [arrayBytes (b.map (beBytes 32)), arrayBytes a, arrayBytes n].flatten ∧
      (At buf (offset + [arrayBytes (b.map (beBytes 32)), arrayBytes a, arrayBytes n].flatten.length)
          (EthAddress.toBuffer32 r) ∨
        offset + [arrayBytes (b.map (beBytes 32)), arrayBytes a, arrayBytes n].flatten.length + 20 =
          buf.length) := by
  obtain ⟨⟨b', stop₁⟩, hb, h⟩ := bind_ok h
  obtain ⟨⟨a', stop₂⟩, ha, h⟩ := bind_ok h
  obtain ⟨⟨n', stop₃⟩, hn, h⟩ := bind_ok h
  obtain ⟨⟨buffer, stop₄⟩, hbuffer, h⟩ := bind_ok h
  obtain ⟨r', hr, h⟩ := bind_ok h
  cases h
  cases hbuffer
  obtain ⟨adv₁, hb', rfl⟩ := exec_ok hb
  obtain ⟨adv₂, ha', rfl⟩ := exec_ok ha
  obtain ⟨adv₃, hn', rfl⟩ := exec_ok hn
  have hnotes : ∀ note ∈ n, note.length ≤ 32 := by
    obtain ⟨size, -, hrepeat⟩ := bind_ok hn'
    obtain ⟨⟨arr, pos⟩, harr, hpos⟩ := bind_ok hrepeat
    cases hpos
    refine repeatDecoder_forall (fun start field adv hfield => ?_) harr
    cases hfield
    exact Nat.le_trans (length_slice_le _ _ _) (by omega)
  generalize hoff : offset + adv₁ + adv₂ + adv₃ = off at hr
  have hlength : (slice buf off (off + 32)).length = min (off + 32) buf.length - off := by
    rw [slice, List.length_drop, List.length_take]
  have hbuffer := EthAddress.create_ok hr
  have hwithin : off + 20 ≤ buf.length := by
    obtain ⟨h32, -⟩ | h20 := hbuffer <;> omega
  obtain ⟨hat₁, rfl⟩ := exact_deserializeArrayFromVector (exact_deserializeBigInt 32) _ _ _ _ hb' (by omega)
  obtain ⟨hat₂, rfl⟩ := exact_fields _ _ _ _ ha' (by omega)
  obtain ⟨hat₃, rfl⟩ := exact_fields _ _ _ _ hn' (by omega)
  dsimp only at hat₁ hat₂ hat₃ hoff
  have hstop : off =
      offset + [arrayBytes (b.map (beBytes 32)), arrayBytes a, arrayBytes n].flatten.length := by
    simp only [List.flatten_cons, List.flatten_nil, List.length_append, List.length_nil]
    omega
  refine ⟨hnotes, ?_, ?_⟩
  · exact at_flatten_cons.mpr ⟨hat₁, at_flatten_cons.mpr ⟨hat₂, at_flatten_cons.mpr
      ⟨hat₃, List.nil_prefix⟩⟩⟩
  · rw [← hstop]
    obtain ⟨-, hbytes⟩ | h20 := hbuffer
    · left
      rw [← hbytes]
      exact at_slice buf off _
    · right
      omega

/-- Where the lists are looked for. -/
lemma listsOffset_eq (h : tx.WellFormed notes) :
    tx.listsOffset = tx.front.flatten.length + tx.oldDataRootsPath.bytes.length := by
  simp only [listsOffset, front, List.flatten_cons, List.flatten_nil, List.length_append, List.length_nil,
    length_beBytes, h.oldDataRootsRoot, h.newDataRootsRoot, h.oldDefiRoot, h.newDefiRoot]
  omega

/-- The lists can be read where `fromBuffer` looks for them just if the paths agree. -/
lemma at_listsOffset (h : tx.WellFormed notes) :
    At tx.parts.flatten tx.listsOffset tx.lists.flatten ↔ tx.PathsAgree := by
  rw [At, listsOffset_eq h, HashPath.length_bytes h.oldDataRootsPath, parts, List.flatten_append,
    List.flatten_cons, ← List.drop_drop, List.drop_left, PathsAgree]
  constructor
  · intro hinitial
    have hdepth : tx.oldDataRootsPath.length ≤ tx.oldDefiPath.length := by
      have hlength := hinitial.length_le
      have hpos : 0 < tx.lists.flatten.length := by
        simp only [lists, List.flatten_cons, arrayBytes, List.length_append, length_beBytes]
        omega
      rw [List.length_drop, List.length_append, HashPath.length_bytes h.oldDefiPath] at hlength
      omega
    rw [HashPath.drop_bytes h.oldDefiPath hdepth] at hinitial
    exact ⟨hdepth, hinitial⟩
  · rintro ⟨hdepth, hinitial⟩
    rw [HashPath.drop_bytes h.oldDefiPath hdepth]
    exact hinitial

/-- A request is read back just if it has no notes and the paths agree. -/
theorem fromBuffer_parts_iff (h : tx.WellFormed notes) :
    fromBuffer tx.parts.flatten = .ok tx ↔ tx.defiInteractionNotes = [] ∧ tx.PathsAgree := by
  rw [fromBuffer_parts h]
  constructor
  · intro hread
    obtain ⟨⟨b, a, n, r⟩, hlists, hread⟩ := bind_ok hread
    have hb := congrArg RootRollup.bridgeCallDatas (Except.ok.inj hread)
    have ha := congrArg RootRollup.assetIds (Except.ok.inj hread)
    have hn := congrArg RootRollup.defiInteractionNotes (Except.ok.inj hread)
    have hr := congrArg RootRollup.rollupBeneficiary (Except.ok.inj hread)
    dsimp only at hb ha hn hr
    subst hb ha hn hr
    obtain ⟨hshort, hat, hend⟩ := readLists_ok hlists
    have hnone : tx.defiInteractionNotes = [] := by
      -- a note has more bytes than a field
      rw [h.notes_eq, List.map_eq_nil_iff, List.eq_nil_iff_forall_not_mem]
      intro note hnote
      have hle := hshort note.parts.flatten (by rw [h.notes_eq]; exact List.mem_map_of_mem hnote)
      rw [DefiInteractionNote.length_parts] at hle
      omega
    refine ⟨hnone, (at_listsOffset h).mp ?_⟩
    have hlists : tx.lists.flatten = [arrayBytes (tx.bridgeCallDatas.map (beBytes 32)),
        arrayBytes tx.assetIds, arrayBytes tx.defiInteractionNotes].flatten ++
          EthAddress.toBuffer32 tx.rollupBeneficiary := by
      simp only [lists, List.flatten_cons, List.flatten_nil, List.append_assoc, List.append_nil]
    rw [hlists]
    refine at_append.mpr ⟨hat, hend.resolve_right fun hshorter => ?_⟩
    -- the nodes that the paths differ by do not have twelve bytes
    have hend : tx.parts.flatten.length =
        tx.front.flatten.length + (tx.oldDefiPath.bytes.length + tx.lists.flatten.length) := by
      rw [parts, List.flatten_append, List.flatten_cons, List.length_append, List.length_append]
    rw [hlists, List.length_append, EthAddress.toBuffer32, List.length_append, List.length_replicate,
      h.rollupBeneficiary, HashPath.length_bytes h.oldDefiPath] at hend
    rw [listsOffset_eq h, HashPath.length_bytes h.oldDataRootsPath] at hshorter
    omega
  · rintro ⟨hnone, hagree⟩
    exact bind_of_ok (readLists_of_at h hnone ((at_listsOffset h).mpr hagree)) _

end RootRollup

end Halloumi

end AztecConnect
