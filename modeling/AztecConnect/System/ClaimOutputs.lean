import AztecConnect.Circuit.JoinSplit
import AztecConnect.System.Claims
import AztecConnect.System.InteractionNotes

/-!
# The notes of a claim

The claim circuit routes the outputs of an interaction, or the deposit if it has failed, to the output
notes of a claim, and the client does so once more from what it keeps of the deposit. Both arrive at the
same notes (`claim_credited`): the client adds the notes with a value among those the circuit emits, and
can recompute their commitments.
-/

namespace AztecConnect.System

open AztecConnect.Circuit (Fr Point ClaimTx ClaimNoteTx ClaimOutput InnerProof Primitives DefiInteractionNoteTx
  completeValueNote createPartialValueNote getAssetIdFlag)

variable (H : Primitives) (fromBuffer : Nat → Point)

/-! ## The note algorithms of the client -/

/-- Hashes are coordinates of points of Grumpkin (`y² = x³ - 17`), and none of these has the coordinate
zero, as `-17` is not a square. -/
def NonzeroHashes : Prop := ∀ fields generator, H.compress fields generator ≠ 0

/-- `valueNotePartialCommitment` of `note_algorithms.ts`; `fromBuffer` reads an address. -/
def valueNotePartialCommitment (noteSecret owner : Nat) (accountRequired : Bool) : Nat :=
  (createPartialValueNote H noteSecret (fromBuffer owner) accountRequired 0).val

/-- The commitment of a note of the client, as the circuit computes it. -/
def valueNoteCommitment (note : Client.TreeNote) : Nat :=
  (completeValueNote H (createPartialValueNote H note.noteSecret (fromBuffer note.ownerPubKey)
    note.accountRequired note.creatorPubKey) note.value (note.assetId.getD 0)
    note.inputNullifier).val

/-! ## What the parties have of a claim -/

/-- The note of a published interaction. -/
structure NoteOf (i : Contract.Interaction) (note : DefiInteractionNoteTx) : Prop where
  bridgeCallData : i.encodedBridgeCallData.toNat = note.bridgeCallData.toSafeUint
  nonce : i.nonce.toNat = note.interactionNonce.val
  totalInputValue : i.totalInputValue.toNat = note.totalInputValue.val
  totalOutputValueA : i.outputValueA.toNat = note.totalOutputValueA.val
  totalOutputValueB : i.outputValueB.toNat = note.totalOutputValueB.val
  result : i.result = note.interactionResult

/-- The buffers of the public inputs. -/
structure ProofDataOf (proof : InnerProof) (data : Client.InnerProofData) : Prop where
  noteCommitment1 : data.noteCommitment1 = proof.noteCommitment1.val
  noteCommitment2 : data.noteCommitment2 = proof.noteCommitment2.val
  nullifier1 : data.nullifier1 = proof.nullifier1.val
  nullifier2 : data.nullifier2 = proof.nullifier2.val

/-- The transaction that the client keeps is the deposit of a claim note: it was made from the same
deposit, and the partial commitment is one to the notes of the user. -/
structure Recorded (note : ClaimNoteTx) (defiTx : Client.CoreDefiTx) : Prop where
  depositValue : defiTx.depositValue = note.depositValue.val
  bridgeCallData :
    Client.BridgeCallData.fromBigInt note.bridgeCallData.toSafeUint = .ok defiTx.bridgeCallData
  partialState : defiTx.partialState = note.valueNotePartialCommitment.val
  owner : ∃ accountRequired, defiTx.partialState =
    valueNotePartialCommitment H fromBuffer defiTx.partialStateSecret defiTx.userId accountRequired

/-! ## The emitted notes -/

/-- A note that a claim emits: where it stands, what it is worth, and what it is made of. -/
structure EmittedNote where
  position : Nat
  output : ClaimOutput
  inputNullifier : Fr
  commitment : Fr

variable {H}

/-- The notes that a claim emits. -/
def emitted (tx : ClaimTx H) (proof : InnerProof) : List EmittedNote :=
  ⟨0, tx.output1, proof.nullifier1, proof.noteCommitment1⟩ ::
    if tx.outputNote2Exists then [⟨1, tx.output2, proof.nullifier2, proof.noteCommitment2⟩] else []

variable (H) in
/-- A note of a user is that of an emitted note, and its commitment can be recomputed. -/
structure Credits (userId noteStartIndex : Nat) (note : Client.Note) (out : EmittedNote) :
    Prop where
  index : note.index = noteStartIndex + out.position
  value : note.treeNote.value = out.output.value
  assetId : note.treeNote.assetId = some out.output.assetId
  inputNullifier : note.treeNote.inputNullifier = out.inputNullifier.val
  owner : note.treeNote.ownerPubKey = userId
  commitment : note.commitment = out.commitment.val
  recomputed : valueNoteCommitment H fromBuffer note.treeNote = note.commitment

variable {fromBuffer} {userId noteStartIndex : Nat} {note : ClaimNoteTx}
  {defiTx : Client.CoreDefiTx}

/-- The notes with a value. -/
lemma credited_credits {notes : List Client.Note} {outs : List EmittedNote}
    (h : List.Forall₂ (Credits H fromBuffer userId noteStartIndex) notes outs) :
    List.Forall₂ (Credits H fromBuffer userId noteStartIndex) (Client.credited notes)
      (outs.filter (·.output.value ≠ 0)) := by
  refine List.rel_filter (fun n out hn => ?_) h
  simp only [decide_eq_true_eq, hn.value]

/-- The client finds out whether the notes of the deposit require an account. -/
lemma Recorded.partialCommitment (h : Recorded H fromBuffer note defiTx) :
    createPartialValueNote H defiTx.partialStateSecret (fromBuffer defiTx.userId)
      (valueNotePartialCommitment H fromBuffer defiTx.partialStateSecret defiTx.userId true ==
        defiTx.partialState) 0 = note.valueNotePartialCommitment := by
  obtain ⟨accountRequired, howner⟩ := h.owner
  refine ZMod.val_injective _ (Eq.trans ?_ h.partialState)
  show valueNotePartialCommitment H fromBuffer _ _ _ = _
  cases hreq : valueNotePartialCommitment H fromBuffer defiTx.partialStateSecret defiTx.userId true ==
      defiTx.partialState with
  | true => exact beq_iff_eq.mp hreq
  | false =>
    cases accountRequired with
    | true => exact absurd howner.symm (beq_eq_false_iff_ne.mp hreq)
    | false => exact howner.symm

/-- A note of the client from its members. -/
lemma Recorded.recomputed (h : Recorded H fromBuffer note defiTx) {value assetId : Nat}
    {inputNullifier : Fr} :
    valueNoteCommitment H fromBuffer ⟨defiTx.userId, value, some assetId,
      valueNotePartialCommitment H fromBuffer defiTx.partialStateSecret defiTx.userId true ==
        defiTx.partialState, defiTx.partialStateSecret, 0, inputNullifier.val⟩ =
      ((ClaimOutput.mk value assetId).commitment H note.valueNotePartialCommitment
        inputNullifier).val := by
  rw [valueNoteCommitment, ClaimOutput.commitment, ← h.partialCommitment]
  simp only [Nat.cast_zero, Circuit.natCast_val, Option.getD_some]

section

variable {tx : ClaimTx H} {proof : InnerProof} {data : Client.InnerProofData} {value : Nat}
  {assetId : Option Nat}

/-- The first note the client adds is the first emitted. -/
lemma firstNote_credits (h : Recorded H fromBuffer tx.claimNote defiTx) (he : tx.Emits proof)
    (hdata : ProofDataOf proof data) (noteStartIndex : Nat) (hvalue : value = tx.output1.value)
    (hasset : assetId = some tx.output1.assetId) :
    Credits H fromBuffer defiTx.userId noteStartIndex
      (defiTx.firstNote (valueNotePartialCommitment H fromBuffer) data noteStartIndex value assetId)
      ⟨0, tx.output1, proof.nullifier1, proof.noteCommitment1⟩ := by
  subst hvalue hasset
  refine ⟨rfl, rfl, rfl, hdata.nullifier1, rfl, hdata.noteCommitment1, ?_⟩
  rw [Client.CoreDefiTx.firstNote, hdata.nullifier1, h.recomputed, hdata.noteCommitment1,
    he.noteCommitment1]

/-- The second one is the second, if there is one. -/
lemma secondNote_credits (h : Recorded H fromBuffer tx.claimNote defiTx) (he : tx.Emits proof)
    (hdata : ProofDataOf proof data) (noteStartIndex : Nat)
    (hexists : tx.outputNote2Exists = true) (hvalue : value = tx.output2.value) (hasset : assetId = some tx.output2.assetId) :
    Credits H fromBuffer defiTx.userId noteStartIndex
      (defiTx.secondNote (valueNotePartialCommitment H fromBuffer) data noteStartIndex value assetId)
      ⟨1, tx.output2, proof.nullifier2, proof.noteCommitment2⟩ := by
  subst hvalue hasset
  refine ⟨rfl, rfl, rfl, hdata.nullifier2, rfl, hdata.noteCommitment2, ?_⟩
  rw [Client.CoreDefiTx.secondNote, hdata.nullifier2, h.recomputed, hdata.noteCommitment2,
    he.noteCommitment2, if_pos hexists]

end

/-! ## The routes -/

section

variable {d : Circuit.BridgeCallData}

/-- What the client decodes of the word of a satisfied circuit. -/
lemma fromBigInt_toSafeUint (hd : d.Satisfied) :
    Client.BridgeCallData.fromBigInt d.toSafeUint = .ok (clientOf (ofCircuit d)) := by
  have hcons := (circuit_members hd).1
  rw [← membersOf_toSafeUint hd] at hcons ⊢
  exact fromBigInt_eq hcons.secondInput hcons.secondOutput

/-- Client and circuit tell virtual assets in the same way. -/
lemma getAssetIdFlag_eq {assetId : Nat} (h : assetId < 2 ^ 30) :
    Client.isVirtualAsset assetId = getAssetIdFlag assetId := Client.isVirtualAsset_eq h

/-- The asset of the first output. -/
lemma firstOutput_asset (hd : d.Satisfied) (nonce : Nat) :
    (if (clientOf (ofCircuit d)).firstOutputVirtual then
        (some nonce).map (Client.virtualAssetIdFlag + ·)
      else some (clientOf (ofCircuit d)).outputAssetIdA) =
      some (if getAssetIdFlag d.outputAssetIdA then 2 ^ 29 + nonce else d.outputAssetIdA) := by
  have hflag : (clientOf (ofCircuit d)).firstOutputVirtual = getAssetIdFlag d.outputAssetIdA :=
    getAssetIdFlag_eq hd.outputAssetIdA
  rw [hflag]
  cases getAssetIdFlag d.outputAssetIdA with
  | true => rfl
  | false => rfl

/-- The asset of a second output in use. -/
lemma secondOutput_asset (hd : d.Satisfied) (hu : d.config.secondOutputInUse = true) (nonce : Nat) :
    (if (clientOf (ofCircuit d)).secondOutputVirtual then
        (some nonce).map (Client.virtualAssetIdFlag + ·)
      else (clientOf (ofCircuit d)).outputAssetIdB) =
      some (if getAssetIdFlag d.outputAssetIdB then 2 ^ 29 + nonce else d.outputAssetIdB) := by
  have hid : (clientOf (ofCircuit d)).outputAssetIdB = some d.outputAssetIdB := if_pos hu
  have hflag : (clientOf (ofCircuit d)).secondOutputVirtual = getAssetIdFlag d.outputAssetIdB := by
    rw [Client.BridgeCallData.secondOutputVirtual, hid, Option.getD_some,
      getAssetIdFlag_eq hd.outputAssetIdB]
    rcases Nat.eq_zero_or_pos d.outputAssetIdB with hz | hpos
    · rw [hz]
      rfl
    · rw [bne_iff_ne.mpr hpos.ne', Bool.true_and]
  rw [hflag, hid]
  cases getAssetIdFlag d.outputAssetIdB with
  | true => rfl
  | false => rfl

/-- What the client keeps does not change when the interaction becomes known. -/
lemma Recorded.finalisedBy (h : Recorded H fromBuffer note defiTx)
    (event : Client.DefiInteractionNote) (mined : Nat) :
    Recorded H fromBuffer note (defiTx.finalisedBy event mined) :=
  ⟨h.depositValue, h.bridgeCallData, h.partialState, h.owner⟩

/-- The call data of the client are those of the circuit. -/
lemma Recorded.data_eq (h : Recorded H fromBuffer note defiTx)
    (hd : note.bridgeCallData.Satisfied) :
    defiTx.bridgeCallData = clientOf (ofCircuit note.bridgeCallData) :=
  (Except.ok.inj ((fromBigInt_toSafeUint hd).symm.trans h.bridgeCallData)).symm

variable {tx : ClaimTx H} {proof : InnerProof} {data : Client.InnerProofData}
  {event : Client.DefiInteractionNote} {mined : Nat}

/-- The values and assets of the output notes after a success. -/
lemma output_success (hr : tx.defiInteractionNote.interactionResult = true) :
    tx.output1 = ⟨tx.outputValueA.val,
        tx.outputAssetId tx.claimNote.bridgeCallData.outputAssetIdA⟩ ∧
      tx.output2 = ⟨tx.outputValueB.val,
        tx.outputAssetId tx.claimNote.bridgeCallData.outputAssetIdB⟩ ∧
      tx.outputNote2Exists = tx.claimNote.bridgeCallData.config.secondOutputInUse :=
  ⟨if_pos hr, if_pos hr, if_pos hr⟩

/-- After a failure the inputs are given back. -/
lemma output_failure (hr : tx.defiInteractionNote.interactionResult = false) :
    tx.output1 = ⟨tx.claimNote.depositValue.val, tx.claimNote.bridgeCallData.inputAssetIdA⟩ ∧
      tx.output2 = ⟨tx.claimNote.depositValue.val, tx.claimNote.bridgeCallData.inputAssetIdB⟩ ∧
      tx.outputNote2Exists = tx.claimNote.bridgeCallData.config.secondInputInUse := by
  have hne : ¬ tx.defiInteractionNote.interactionResult = true := hr ▸ Bool.false_ne_true
  exact ⟨if_neg hne, if_neg hne, if_neg hne⟩

/-- The outputs that the client finalises a transaction with. -/
lemma finalisedBy_outputs (mined : Nat) (hs : Shares tx tx.defiInteractionNote)
    (hevent : EventOf tx.defiInteractionNote event)
    (hr : tx.defiInteractionNote.interactionResult = true)
    (hdeposit : defiTx.depositValue = tx.claimNote.depositValue.val) :
    (defiTx.finalisedBy event mined).outputValueA = some tx.outputValueA.val ∧
      (defiTx.finalisedBy event mined).outputValueB = some tx.outputValueB.val := by
  simp only [Client.CoreDefiTx.finalisedBy, hevent.result.trans hr, if_true, hdeposit,
    share_eqA hs hevent, share_eqB hs hevent, and_self]

/-- After a success the client credits the outputs. -/
lemma outputs_credit (ha : tx.Accepted proof) (he : tx.Emits proof)
    (hevent : EventOf tx.defiInteractionNote event) (hdata : ProofDataOf proof data)
    (hrec : Recorded H fromBuffer tx.claimNote defiTx)
    (hnonce : defiTx.interactionNonce = some event.nonce)
    (hr : tx.defiInteractionNote.interactionResult = true)
    (hunused : tx.claimNote.bridgeCallData.config.secondOutputInUse = false →
      tx.defiInteractionNote.totalOutputValueB.val = 0) :
    List.Forall₂ (Credits H fromBuffer defiTx.userId noteStartIndex)
      (Client.credited ((defiTx.finalisedBy event mined).outputs
        (valueNotePartialCommitment H fromBuffer) data noteStartIndex))
      ((emitted tx proof).filter (·.output.value ≠ 0)) := by
  have hshares : Shares tx tx.defiInteractionNote :=
    ⟨ha.deposit_pos, ha.deposit_le, ha.outputValueA, ha.outputValueB⟩
  have hsat := ha.claimNote.bridgeCallData
  have hnonce' : defiTx.interactionNonce = some tx.claimNote.defiInteractionNonce.val := by
    rw [hnonce, hevent.nonce, ha.nonce]
  obtain ⟨h₁, h₂, hexists⟩ := output_success hr
  obtain ⟨hA, hB⟩ := finalisedBy_outputs mined hshares hevent hr hrec.depositValue
  have hdata' : (defiTx.finalisedBy event mined).bridgeCallData = _ := hrec.data_eq hsat
  have hnonce'' : (defiTx.finalisedBy event mined).interactionNonce = _ := hnonce'
  rw [Client.CoreDefiTx.outputs]
  simp only [hdata', hnonce'', hA, hB, Option.getD_some]
  rw [firstOutput_asset hsat, emitted, hexists]
  have hfirst := firstNote_credits (hrec.finalisedBy event mined) he hdata
    noteStartIndex (congrArg ClaimOutput.value h₁).symm
    (congrArg (some ∘ ClaimOutput.assetId) h₁).symm
  cases hu : tx.claimNote.bridgeCallData.config.secondOutputInUse with
  | true =>
    have hsecond := secondNote_credits (hrec.finalisedBy event mined) he hdata
      noteStartIndex (hexists.trans hu) (congrArg ClaimOutput.value h₂).symm
      (congrArg (some ∘ ClaimOutput.assetId) h₂).symm
    rw [secondOutput_asset hsat hu, if_pos rfl]
    exact credited_credits (.cons hfirst (.cons hsecond .nil))
  | false =>
    -- the contract has seen to it that there is no value in a second output that is not in use
    have hzero : tx.outputValueB.val = 0 := by
      rw [ha.outputValueB, hunused hu, Nat.mul_zero, Nat.zero_div]
    rw [if_neg Bool.false_ne_true, Client.credited_pair hzero]
    exact credited_credits (.cons hfirst .nil)

/-- After a failure it credits the deposit. -/
lemma refunds_credit (ha : tx.Accepted proof) (he : tx.Emits proof) (hdata : ProofDataOf proof data)
    (hrec : Recorded H fromBuffer tx.claimNote defiTx)
    (hsuccess : defiTx.success = some false)
    (hr : tx.defiInteractionNote.interactionResult = false) :
    List.Forall₂ (Credits H fromBuffer defiTx.userId noteStartIndex)
      (Client.credited (defiTx.refunds (valueNotePartialCommitment H fromBuffer) data
        noteStartIndex)) ((emitted tx proof).filter (·.output.value ≠ 0)) := by
  have hsat := ha.claimNote.bridgeCallData
  obtain ⟨h₁, h₂, hexists⟩ := output_failure hr
  have hne : ¬ defiTx.success = some true := by
    rw [hsuccess]
    exact nofun
  have hdeposit : defiTx.depositValue = tx.output1.value := by
    rw [h₁, hrec.depositValue]
  have hdeposit' : defiTx.depositValue = tx.output2.value := by
    rw [h₂, hrec.depositValue]
  have hfirst := firstNote_credits hrec he hdata noteStartIndex hdeposit
    (congrArg (some ∘ ClaimOutput.assetId) h₁).symm
  have huse : (clientOf (ofCircuit tx.claimNote.bridgeCallData)).secondInputInUse =
      tx.claimNote.bridgeCallData.config.secondInputInUse := isSome_ite_some _ _
  refine credited_credits ?_
  rw [Client.CoreDefiTx.refunds, if_neg hne, hrec.data_eq hsat, huse, emitted, hexists]
  cases hu : tx.claimNote.bridgeCallData.config.secondInputInUse with
  | true =>
    have hid : (clientOf (ofCircuit tx.claimNote.bridgeCallData)).inputAssetIdB =
        some tx.claimNote.bridgeCallData.inputAssetIdB := if_pos hu
    have hsecond := secondNote_credits hrec he hdata noteStartIndex (hexists.trans hu) hdeposit'
      (congrArg (some ∘ ClaimOutput.assetId) h₂).symm
    rw [hid]
    exact .cons hfirst (.cons hsecond .nil)
  | false => exact .cons hfirst .nil

/-! ## The claim of a published interaction -/

/-- There is a second note if the second output, or after a failure the second input, is in use. -/
lemma outputNote2Exists_iff : tx.outputNote2Exists = true ↔
    (tx.defiInteractionNote.interactionResult = true ∧
        tx.claimNote.bridgeCallData.config.secondOutputInUse = true) ∨
      (tx.defiInteractionNote.interactionResult = false ∧
        tx.claimNote.bridgeCallData.config.secondInputInUse = true) := by
  cases hr : tx.defiInteractionNote.interactionResult with
  | true => simp [(output_success hr).2.2]
  | false => simp [(output_failure hr).2.2]

/-- The second commitment is not zero if there is a second note. -/
lemma noteCommitment2_ne_zero (hH : NonzeroHashes H) (he : tx.Emits proof) :
    proof.noteCommitment2 ≠ 0 ↔ tx.outputNote2Exists = true := by
  rw [he.noteCommitment2]
  cases tx.outputNote2Exists with
  | true => exact ⟨fun _ => rfl, fun _ => hH _ _⟩
  | false => exact ⟨fun h => absurd rfl h, fun h => absurd h Bool.false_ne_true⟩

/-- The values and assets of credited notes. -/
lemma map_credits {notes : List Client.Note} {outs : List EmittedNote}
    (h : List.Forall₂ (Credits H fromBuffer userId noteStartIndex) notes outs) :
    notes.map (fun n => (n.treeNote.value, n.treeNote.assetId)) =
      outs.map fun out => (out.output.value, some out.output.assetId) := by
  induction h with
  | nil => rfl
  | cons hn _ ih => rw [List.map_cons, List.map_cons, ih, hn.value, hn.assetId]

/-- After a failure every emitted note has the deposit as its value. -/
lemma emitted_failure (hpos : 0 < tx.claimNote.depositValue.val)
    (hr : tx.defiInteractionNote.interactionResult = false) :
    ((emitted tx proof).filter (·.output.value ≠ 0)).map
        (fun out => (out.output.value, some out.output.assetId)) =
      (tx.claimNote.depositValue.val, some tx.claimNote.bridgeCallData.inputAssetIdA) ::
        if tx.claimNote.bridgeCallData.config.secondInputInUse then
          [(tx.claimNote.depositValue.val, some tx.claimNote.bridgeCallData.inputAssetIdB)]
        else [] := by
  obtain ⟨h₁, h₂, hexists⟩ := output_failure hr
  have hall : ∀ out ∈ emitted tx proof, out.output.value = tx.claimNote.depositValue.val := by
    intro out hout
    rw [emitted, List.mem_cons] at hout
    rcases hout with rfl | hout
    · exact congrArg ClaimOutput.value h₁
    · split at hout
      · rw [List.mem_singleton] at hout
        rw [hout, h₂]
      · cases hout
  rw [List.filter_eq_self.mpr fun out hout => ?_]
  · rw [emitted, hexists, List.map_cons, h₁]
    cases hu : tx.claimNote.bridgeCallData.config.secondInputInUse with
    | true => rw [if_pos rfl, if_pos rfl, List.map_singleton, h₂]
    | false => rfl
  · rw [decide_eq_true_eq, hall out hout]
    exact hpos.ne'

/-- The word of an interaction tells whether its second output is in use. -/
lemma NoteOf.secondOutputInUse {i : Contract.Interaction} (h : NoteOf i tx.defiInteractionNote)
    (ha : tx.Accepted proof) : Contract.secondOutputInUse i.encodedBridgeCallData =
      tx.claimNote.bridgeCallData.config.secondOutputInUse := by
  rw [secondOutputInUse_eq, h.bridgeCallData, ← ha.bridgeCallData]
  exact congrArg Members.secondOutputInUse (membersOf_toSafeUint ha.claimNote.bridgeCallData)

variable (fromBuffer) in
/-- What an accepted claim emits and what the client adds for it. -/
structure ClaimCredited (tx : ClaimTx H) (proof : InnerProof) (userId noteStartIndex : Nat)
    (before after : Client.DbOps) : Prop where
  second : proof.noteCommitment2 ≠ 0 ↔
    (tx.defiInteractionNote.interactionResult = true ∧
        tx.claimNote.bridgeCallData.config.secondOutputInUse = true) ∨
      (tx.defiInteractionNote.interactionResult = false ∧
        tx.claimNote.bridgeCallData.config.secondInputInUse = true)
  notes : ∃ notes, after.unspentNotes = before.unspentNotes ++ notes ∧
    List.Forall₂ (Credits H fromBuffer userId noteStartIndex) notes
      ((emitted tx proof).filter (·.output.value ≠ 0)) ∧
    (tx.defiInteractionNote.interactionResult = false →
      notes.map (fun n => (n.treeNote.value, n.treeNote.assetId)) =
        (tx.claimNote.depositValue.val, some tx.claimNote.bridgeCallData.inputAssetIdA) ::
          if tx.claimNote.bridgeCallData.config.secondInputInUse then
            [(tx.claimNote.depositValue.val, some tx.claimNote.bridgeCallData.inputAssetIdB)]
          else [])

end

section

open Contract Resumption

variable {P : Params} {answers : ExternalCall → State → Reply → Prop} {s s' : State}
  {history : History}

/-- Of a second output that is not in use the processor publishes no value. -/
lemma unused_output (hs : Genesis P s) (h : Run (V2.world P answers) s history s') :
    AllPublished (fun i => Contract.secondOutputInUse i.encodedBridgeCallData = false →
      i.outputValueB = 0) s' := by
  refine Run.allPublished ⟨fun hr => hr.outputs.unused, fun _ _ _ hu => hu⟩ ?_ h
  rw [AllPublished, hs.produced]
  exact fun _ hi => absurd hi List.not_mem_nil

/-- The claim of an interaction that the processor has published: of the output notes that its proof
emits, the client adds those with a value, as the circuit made them. -/
theorem claim_credited (hH : NonzeroHashes H) (hs : Genesis P s)
    (hrun : Run (V2.world P answers) s history s') {i : Interaction}
    (hi : i ∈ s'.produced) {tx : ClaimTx H} {proof : InnerProof}
    (h : Circuit.claimCircuit H tx proof) (hnote : NoteOf i tx.defiInteractionNote)
    {event : Client.DefiInteractionNote} (hevent : EventOf tx.defiInteractionNote event)
    {data : Client.InnerProofData} (hdata : ProofDataOf proof data)
    (st : Client.Settlement (valueNotePartialCommitment H fromBuffer) event data.nullifier1)
    (hrec : Recorded H fromBuffer tx.claimNote st.defiTx) (noteStartIndex : Nat) :
    ClaimCredited fromBuffer tx proof st.defiTx.userId noteStartIndex st.db
      (st.db.handleClaimTx (valueNotePartialCommitment H fromBuffer) data noteStartIndex) := by
  have ha := Circuit.claimCircuit_spec tx proof h
  have he := Circuit.claimCircuit_emits tx proof h
  have hcredits : List.Forall₂ (Credits H fromBuffer st.defiTx.userId noteStartIndex)
      (Client.credited (if event.result
        then (st.defiTx.finalisedBy event st.mined).outputs (valueNotePartialCommitment H fromBuffer)
          data noteStartIndex
        else (st.defiTx.finalisedBy event st.mined).refunds (valueNotePartialCommitment H fromBuffer)
          data noteStartIndex))
      ((emitted tx proof).filter (·.output.value ≠ 0)) := by
    cases hr : tx.defiInteractionNote.interactionResult with
    | true =>
      rw [if_pos (hevent.result.trans hr)]
      refine outputs_credit ha he hevent hdata hrec st.nonce hr fun hu => ?_
      have hzero := unused_output hs hrun i hi ((hnote.secondOutputInUse ha).trans hu)
      rw [← hnote.totalOutputValueB, hzero]
      rfl
    | false =>
      have hevent' : event.result = false := hevent.result.trans hr
      rw [if_neg (hevent' ▸ Bool.false_ne_true)]
      exact refunds_credit ha he hdata (hrec.finalisedBy event st.mined) (congrArg some hevent') hr
  refine ⟨(noteCommitment2_ne_zero hH he).trans outputNote2Exists_iff, _, st.unspentNotes _,
    hcredits, fun hr => ?_⟩
  rw [map_credits hcredits, emitted_failure ha.deposit_pos hr]

end

/-! ## The claim of the sample rollup -/

namespace SampleClaimOutputs

/-- Those of the sample claim, with hashes other than zero. -/
def primitives : Primitives :=
  { Circuit.SampleClaim.primitives with
    compress := fun values _ => if values.sum = 0 then 1 else values.sum }

/-- The sample hashes are not zero. -/
lemma nonzeroHashes : NonzeroHashes primitives := by
  intro fields generator
  show (if fields.sum = 0 then 1 else fields.sum) ≠ 0
  split
  · exact one_ne_zero
  · assumption

/-- The key of a user. -/
def address (buffer : Nat) : Point := ⟨buffer, buffer⟩

/-- `Sample.bridgeCall`. -/
def bridgeCall : Circuit.BridgeCallData := ⟨1, 2 ^ 29, 0, 2 ^ 29, 0, ⟨false, false⟩, 0⟩

/-- The interaction of the sample. -/
def noteTx : DefiInteractionNoteTx := ⟨bridgeCall, 0, 5, 1, 0, true⟩

/-- The whole deposit. -/
def claimNoteTx : ClaimNoteTx :=
  ⟨5, bridgeCall, 0, 2, createPartialValueNote primitives 3 (address 7) false 0, 0⟩

/-- The claim of the sample. -/
def tx : ClaimTx primitives where
  dataRoot := (Circuit.claimNote primitives claimNoteTx.witnessData).commitment
  defiRoot := (noteTx.note primitives).commitment
  claimNoteIndex := 0
  claimNotePath := ()
  claimNote := claimNoteTx
  defiNoteIndex := 0
  defiInteractionNotePath := ()
  defiInteractionNote := noteTx
  outputValueA := 1
  outputValueB := 0

/-- What it publishes. -/
def proof : InnerProof :=
  let nullifier1 := Circuit.claimNullifier primitives tx.claimCommitment
  { (0 : InnerProof) with
    proofId := Circuit.ProofIds.DEFI_CLAIM
    noteCommitment1 := completeValueNote primitives claimNoteTx.valueNotePartialCommitment 1 (2 ^ 29)
      nullifier1
    nullifier1 := nullifier1
    nullifier2 := Circuit.defiInteractionNullifier primitives (noteTx.note primitives).commitment
      tx.claimCommitment
    merkleRoot := tx.dataRoot
    txFee := 2
    txFeeAssetId := 2 ^ 29
    bridgeCallData := bridgeCall.toSafeUint
    defiRoot := tx.defiRoot }

/-- Its call data satisfy the circuit. -/
lemma satisfied : bridgeCall.Satisfied :=
  ⟨by decide, by decide, by decide, by decide, by decide, by decide,
    ⟨by decide, by decide, by decide, by decide, by decide, by decide⟩⟩

/-- Its claim note is in range. -/
lemma claimNote_inRange : claimNoteTx.InRange where
  depositValue := by decide +kernel
  bridgeCallData := satisfied
  defiInteractionNonce := by decide +kernel
  fee := by decide +kernel

/-- So is the interaction. -/
lemma note_inRange : noteTx.InRange where
  bridgeCallData := satisfied
  interactionNonce := by decide +kernel
  totalInputValue := by decide +kernel
  totalOutputValueA := by decide +kernel
  totalOutputValueB := by decide +kernel

/-- The circuit accepts it. -/
lemma accepted : Circuit.claimCircuit primitives tx proof := by
  refine ⟨_, Circuit.suint_apply ?_, _, Circuit.suint_apply ?_,
    _, Circuit.claimNoteWitnessData_apply claimNote_inRange,
    _, Circuit.defiInteractionNote_apply note_inRange,
    _, Circuit.suint_apply ?_, _, Circuit.suint_apply ?_, (), Circuit.assert_apply ?_,
    _, Circuit.subtract_apply ?_ ?_ ?_, _, Circuit.subtract_apply ?_ ?_ ?_,
    _, Circuit.subtract_apply ?_ ?_ ?_,
    _, Circuit.ratioCheck_single ?_ ?_ ?_ ?_ ?_ ?_, (), Circuit.assert_apply ?_,
    _, Circuit.ratioCheck_single ?_ ?_ ?_ ?_ ?_ ?_, (), Circuit.assert_apply ?_,
    (), Circuit.assert_apply ?_, (), Circuit.assert_apply ?_,
    (), Circuit.assert_apply ?_, (), Circuit.assert_apply ?_,
    Circuit.pure_apply ?_⟩
  all_goals decide +kernel

/-- The event of the interaction. -/
def event : Client.DefiInteractionNote := ⟨⟨1, 2 ^ 29, 2 ^ 29, none, none, 0⟩, 0, 5, 1, 0, true⟩

/-- What the client keeps of the deposit, by the nullifier of the claim. -/
def depositTx (nullifier : Nat) : Client.CoreDefiTx where
  userId := 7
  bridgeCallData := event.bridgeCallData
  depositValue := 5
  partialState := valueNotePartialCommitment primitives address 3 7 false
  partialStateSecret := 3
  nullifier := some nullifier
  interactionNonce := some 0
  success := none
  outputValueA := none
  outputValueB := none
  finalised := none

/-- The published claim as the client reads it. -/
def data (proof : InnerProof) : Client.InnerProofData :=
  ⟨proof.noteCommitment1.val, proof.noteCommitment2.val, proof.nullifier1.val, proof.nullifier2.val⟩

/-- The client has the deposit, and is given the result. -/
def settlement (nullifier : Nat) :
    Client.Settlement (valueNotePartialCommitment primitives address) event nullifier where
  before := ⟨[], [depositTx nullifier]⟩
  defiTx := depositTx nullifier
  found := by
    rw [Client.DbOps.findDefiTx, List.find?_cons_of_pos]
    exact beq_self_eq_true _
  nonce := rfl
  unfinalised := rfl
  earlier := []
  later := []
  first := nofun
  mined := 1
  settled := ⟨[], [(depositTx nullifier).finalisedBy event 1]⟩
  settles := rfl
  steps := []
  db := ⟨[], [(depositTx nullifier).finalisedBy event 1]⟩
  run := rfl

/-- It has no notes yet. -/
lemma settlement_unspentNotes (nullifier : Nat) : (settlement nullifier).db.unspentNotes = [] := rfl

/-- It reads what is published. -/
lemma proofDataOf (proof : InnerProof) : ProofDataOf proof (data proof) := ⟨rfl, rfl, rfl, rfl⟩

/-- Its record of the deposit is what the claim note commits to. -/
lemma recorded (nullifier : Nat) :
    Recorded primitives address tx.claimNote (settlement nullifier).defiTx where
  depositValue := by
    show 5 = claimNoteTx.depositValue.val
    decide +kernel
  bridgeCallData := by
    have hdata : clientOf (ofCircuit bridgeCall) = event.bridgeCallData := by decide +kernel
    exact (fromBigInt_toSafeUint satisfied).trans (congrArg Except.ok hdata)
  partialState := by
    show valueNotePartialCommitment primitives address 3 7 false = _
    decide +kernel
  owner := ⟨false, rfl⟩

end SampleClaimOutputs

open SampleClaimOutputs Contract Resumption in
/-- Of the output notes of this claim, the client adds the first one, of the virtual asset. -/
theorem claim_credited_sample :
    ∃ st : Client.Settlement (valueNotePartialCommitment primitives address) event
        (data proof).nullifier1,
      ClaimCredited address tx proof st.defiTx.userId 2 st.db
        (st.db.handleClaimTx (valueNotePartialCommitment primitives address) (data proof) 2) ∧
      (st.db.handleClaimTx (valueNotePartialCommitment primitives address) (data proof)
        2).unspentNotes.map (fun n => (n.treeNote.value, n.treeNote.assetId)) =
          [(1, some (2 ^ 29))] := by
  have hrun : (Sample.run [.processRollup Sample.context Sample.call]).map (·.2.produced) =
      some [⟨Sample.bridgeCall, 0, 5, 1, 0, true⟩] := by decide +kernel
  obtain ⟨⟨history, s⟩, hs, hproduced⟩ := Option.map_eq_some_iff.mp hrun
  have hR := World.exec_run (fun _ _ => trivial) .nil hs
  have hi : ⟨Sample.bridgeCall, 0, 5, 1, 0, true⟩ ∈ s.produced := by
    rw [show s.produced = _ from hproduced]
    exact List.mem_cons_self
  have hnote : NoteOf ⟨Sample.bridgeCall, 0, 5, 1, 0, true⟩ tx.defiInteractionNote := by
    constructor <;> decide +kernel
  have hevent : EventOf tx.defiInteractionNote event := by
    constructor <;> decide +kernel
  have h := claim_credited nonzeroHashes Sample.genesis_spec hR hi accepted hnote hevent
    (proofDataOf proof) (settlement (data proof).nullifier1) (recorded _) 2
  refine ⟨settlement (data proof).nullifier1, h, ?_⟩
  obtain ⟨notes, hnotes, hcredits, -⟩ := h.notes
  rw [hnotes, settlement_unspentNotes, List.nil_append]
  refine (map_credits hcredits).trans ?_
  decide +kernel

end AztecConnect.System
