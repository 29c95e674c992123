import AztecConnect.Client.RollupProcessor
import AztecConnect.Lib.Resumption

/-!
# Claims in the client

Translation of `getOutputValues` of `falafel/src/claim_proof_creator.ts`, and of
`processDefiInteractionResults`, `handleClaimTx` and `addNote` of `sdk/src/user_state/db_ops.ts`. A
`DefiInteractionEvent` is a `DefiInteractionNote` here; of the other objects, members that none of
these functions reads are left out. A time is a natural number.

A defi transaction takes its outputs from the first event with its nonce (`processEvents_finalised`),
keeps them (`DbOps.run_find`), and its claim credits them (`DbOps.handleClaimTx_credits`).
-/

namespace AztecConnect.Client

/-- Division of a `bigint`. -/
def divBigInt (a b : Nat) : Except String Nat :=
  if b = 0 then .error "Division by zero" else .ok (a / b)

/-! ## The rollup provider -/

/-- `TreeClaimNote`. -/
structure TreeClaimNote where
  value : Nat
  bridgeCallData : BridgeCallData
  defiInteractionNonce : Nat
  fee : Nat
  partialState : Nat
  inputNullifier : Nat

/-- `getOutputValues` of an interaction that succeeded or failed. -/
def getOutputValues (claimNote : TreeClaimNote) (interactionNote : DefiInteractionNote) :
    Except String (Nat × Nat) := do
  let outputValueA ← (if !interactionNote.result then pure 0
    else divBigInt (interactionNote.totalOutputValueA * claimNote.value) interactionNote.totalInputValue)
  let outputValueB ← (if !interactionNote.result then pure 0
    else divBigInt (interactionNote.totalOutputValueB * claimNote.value) interactionNote.totalInputValue)
  return (outputValueA, outputValueB)

/-! ## The user state of the SDK -/

/-- What is read and written of a `CoreDefiTx`. -/
structure CoreDefiTx where
  userId : Nat
  bridgeCallData : BridgeCallData
  depositValue : Nat
  partialState : Nat
  partialStateSecret : Nat
  nullifier : Option Nat
  interactionNonce : Option Nat
  success : Option Bool
  outputValueA : Option Nat
  outputValueB : Option Nat
  finalised : Option Nat

/-- `TreeNote`. -/
structure TreeNote where
  ownerPubKey : Nat
  value : Nat
  assetId : Option Nat
  accountRequired : Bool
  noteSecret : Nat
  creatorPubKey : Nat
  inputNullifier : Nat

/-- `Note`. -/
structure Note where
  treeNote : TreeNote
  commitment : Nat
  index : Nat

/-- The members of `InnerProofData` that a claim reads. -/
structure InnerProofData where
  noteCommitment1 : Nat
  noteCommitment2 : Nat
  nullifier1 : Nat
  nullifier2 : Nat

/-- What `DbOps` stores of notes and deposits. -/
structure DbOps where
  unspentNotes : List Note
  unclaimedDefiTxs : List CoreDefiTx

/-- The body of the innermost loop of `processDefiInteractionResults`. -/
def CoreDefiTx.finalise (event : DefiInteractionNote) (mined : Nat) (tx : CoreDefiTx) :
    Except String CoreDefiTx := do
  let outputValueA ← (if !event.result then pure 0
    else divBigInt (event.totalOutputValueA * tx.depositValue) event.totalInputValue)
  let outputValueB ← (if !event.result then pure 0
    else divBigInt (event.totalOutputValueB * tx.depositValue) event.totalInputValue)
  return { tx with
    outputValueA := some outputValueA, outputValueB := some outputValueB
    finalised := some mined, success := some event.result }

/-- One event, on all transactions. -/
def processEvent (mined : Nat) (unclaimedDefiTxs : List CoreDefiTx) (event : DefiInteractionNote) :
    Except String (List CoreDefiTx) :=
  unclaimedDefiTxs.mapM fun tx =>
    if tx.interactionNonce = some event.nonce ∧ tx.finalised = none then tx.finalise event mined
    else .ok tx

/-- `processDefiInteractionResults`. -/
def DbOps.processDefiInteractionResults (interactionResult : List DefiInteractionNote) (mined : Nat)
    (db : DbOps) : Except String DbOps := do
  let unclaimedDefiTxs ← interactionResult.foldlM (processEvent mined) db.unclaimedDefiTxs
  return { db with unclaimedDefiTxs := unclaimedDefiTxs }

/-- A note without value is not stored. -/
def DbOps.addNote (index : Nat) (treeNote : TreeNote) (commitment : Nat) (db : DbOps) : DbOps :=
  if treeNote.value ≠ 0 then { db with unspentNotes := db.unspentNotes ++ [⟨treeNote, commitment, index⟩] }
  else db

/-- `virtualAssetIdFlag`. -/
def virtualAssetIdFlag : Nat := 1 <<< 29

/-- The transaction of a claim. -/
def DbOps.findDefiTx (db : DbOps) (nullifier1 : Nat) : Option CoreDefiTx :=
  db.unclaimedDefiTxs.find? fun tx => tx.nullifier == some nullifier1

/-- `valueNotePartialCommitment` is that of the note algorithms. -/
def DbOps.handleClaimTx (valueNotePartialCommitment : Nat → Nat → Bool → Nat) (proof : InnerProofData)
    (noteStartIndex : Nat) (db : DbOps) : DbOps :=
  match db.findDefiTx proof.nullifier1 with
  | none => db
  | some defiTx =>
    let accountRequired :=
      valueNotePartialCommitment defiTx.partialStateSecret defiTx.userId true == defiTx.partialState
    let treeNote (value : Nat) (assetId : Option Nat) (inputNullifier : Nat) : TreeNote :=
      ⟨defiTx.userId, value, assetId, accountRequired, defiTx.partialStateSecret, 0, inputNullifier⟩
    let data := defiTx.bridgeCallData
    -- without a success, also of a transaction that has not been finalised, the deposit comes back
    let db := if defiTx.success ≠ some true then
        let db := db.addNote noteStartIndex
          (treeNote defiTx.depositValue (some data.inputAssetIdA) proof.nullifier1)
          proof.noteCommitment1
        if data.secondInputInUse then db.addNote (noteStartIndex + 1)
          (treeNote defiTx.depositValue data.inputAssetIdB proof.nullifier2) proof.noteCommitment2
        else db
      else db
    let db := if defiTx.outputValueA.getD 0 ≠ 0 then db.addNote noteStartIndex
        (treeNote (defiTx.outputValueA.getD 0)
          (if data.firstOutputVirtual then defiTx.interactionNonce.map (virtualAssetIdFlag + ·)
            else some data.outputAssetIdA) proof.nullifier1) proof.noteCommitment1
      else db
    if defiTx.outputValueB.getD 0 ≠ 0 then db.addNote (noteStartIndex + 1)
      (treeNote (defiTx.outputValueB.getD 0)
        (if data.secondOutputVirtual then defiTx.interactionNonce.map (virtualAssetIdFlag + ·)
          else data.outputAssetIdB) proof.nullifier2) proof.noteCommitment2
    else db

/-- What `handleTxs` does to the unclaimed transactions, in the order of the blocks. -/
inductive DefiStep where
  | handleDefiDepositTx (tx : CoreDefiTx)
  | handleClaimTx (proof : InnerProofData) (noteStartIndex : Nat)
  | processDefiInteractionResults (interactionResult : List DefiInteractionNote) (mined : Nat)

/-- One transaction or result of a block. -/
def DbOps.handleTxs (valueNotePartialCommitment : Nat → Nat → Bool → Nat) (db : DbOps) :
    DefiStep → Except String DbOps
  | .handleDefiDepositTx tx => .ok { db with unclaimedDefiTxs := db.unclaimedDefiTxs ++ [tx] }
  | .handleClaimTx proof noteStartIndex =>
    .ok (db.handleClaimTx valueNotePartialCommitment proof noteStartIndex)
  | .processDefiInteractionResults interactionResult mined =>
    db.processDefiInteractionResults interactionResult mined

/-! ## The outputs of a transaction -/

open Resumption

section

variable {event : DefiInteractionNote} {mined nullifier1 : Nat} {tx tx' : CoreDefiTx}
  {txs txs' : List CoreDefiTx} {db db' : DbOps}
  {valueNotePartialCommitment : Nat → Nat → Bool → Nat}

/-- The share of a deposit in an output of a successful interaction. -/
def share (event : DefiInteractionNote) (totalOutputValue deposit : Nat) : Nat :=
  totalOutputValue * deposit / event.totalInputValue

/-- A transaction with the outputs of a successful interaction. -/
structure CoreDefiTx.Settled (event : DefiInteractionNote) (tx : CoreDefiTx) : Prop where
  finalised : tx.finalised ≠ none
  success : tx.success = some true
  outputValueA : tx.outputValueA = some (share event event.totalOutputValueA tx.depositValue)
  outputValueB : tx.outputValueB = some (share event event.totalOutputValueB tx.depositValue)

/-- A division that does not throw is one. -/
lemma divBigInt_inv {a b q : Nat} (h : divBigInt a b = .ok q) : q = a / b := by
  unfold divBigInt at h
  split at h
  · cases h
  · exact (Except.ok.inj h).symm

/-- The outputs of a successful interaction are the shares of the deposit. -/
lemma getOutputValues_eq {claimNote : TreeClaimNote} (hr : event.result = true)
    (hpos : 0 < event.totalInputValue) : getOutputValues claimNote event =
      .ok (share event event.totalOutputValueA claimNote.value,
        share event event.totalOutputValueB claimNote.value) := by
  simp only [getOutputValues, hr, divBigInt, if_neg hpos.ne']
  rfl

/-- A transaction with the outputs of its interaction, none if that has failed. -/
def CoreDefiTx.finalisedBy (event : DefiInteractionNote) (mined : Nat) (tx : CoreDefiTx) :
    CoreDefiTx :=
  let output (total : Nat) : Nat := if event.result then share event total tx.depositValue else 0
  { tx with
    outputValueA := some (output event.totalOutputValueA)
    outputValueB := some (output event.totalOutputValueB)
    finalised := some mined, success := some event.result }

/-- A deposit is finalised by the event. -/
lemma CoreDefiTx.finalise_eq (h : tx.finalise event mined = .ok tx') :
    tx' = tx.finalisedBy event mined := by
  unfold CoreDefiTx.finalise at h
  obtain ⟨a, ha, h₁⟩ := bind_eq_ok h
  obtain ⟨b, hb, h₂⟩ := bind_eq_ok h₁
  cases h₂
  cases hr : event.result with
  | true =>
    simp only [hr] at ha hb
    simp only [CoreDefiTx.finalisedBy, hr, divBigInt_inv ha, divBigInt_inv hb]
    rfl
  | false =>
    simp only [hr] at ha hb
    cases ha
    cases hb
    simp only [CoreDefiTx.finalisedBy, hr]
    rfl

/-- After a success its outputs are its shares. -/
lemma CoreDefiTx.finalisedBy_settled (hr : event.result = true) :
    (tx.finalisedBy event mined).Settled event := by
  refine ⟨nofun, congrArg some hr, ?_, ?_⟩
  · simp only [CoreDefiTx.finalisedBy, hr, if_true]
  · simp only [CoreDefiTx.finalisedBy, hr, if_true]

/-- It keeps the nullifier by which it is claimed. -/
lemma CoreDefiTx.finalise_nullifier (h : tx.finalise event mined = .ok tx') :
    tx'.nullifier = tx.nullifier := by
  rw [CoreDefiTx.finalise_eq h]
  rfl

/-- The transaction of a claim is at the same place after a loop that keeps nullifiers. -/
lemma find_mapM {f : CoreDefiTx → Except String CoreDefiTx}
    (hf : ∀ tx tx', f tx = .ok tx' → tx'.nullifier = tx.nullifier) (h : txs.mapM f = .ok txs')
    (ht : txs.find? (fun tx => tx.nullifier == some nullifier1) = some tx) :
    ∃ tx', f tx = .ok tx' ∧
      txs'.find? (fun tx => tx.nullifier == some nullifier1) = some tx' := by
  induction txs generalizing txs' with
  | nil => cases ht
  | cons x xs ih =>
    rw [List.mapM_cons] at h
    obtain ⟨x', hx, h₁⟩ := bind_eq_ok h
    obtain ⟨xs', hxs, h₂⟩ := bind_eq_ok h₁
    cases h₂
    rw [List.find?_cons, hf x x' hx]
    rw [List.find?_cons] at ht
    cases hm : x.nullifier == some nullifier1 with
    | true =>
      rw [hm] at ht
      cases ht
      exact ⟨x', hx, rfl⟩
    | false =>
      rw [hm] at ht
      exact ih hxs ht

/-- An event finalises the deposit of its nonce, and no other. -/
lemma processEvent_find (h : processEvent mined txs event = .ok txs')
    (ht : txs.find? (fun tx => tx.nullifier == some nullifier1) = some tx) :
    ∃ tx', (if tx.interactionNonce = some event.nonce ∧ tx.finalised = none
        then tx.finalise event mined else .ok tx) = .ok tx' ∧
      txs'.find? (fun tx => tx.nullifier == some nullifier1) = some tx' := by
  refine find_mapM (fun tx tx' htx => ?_) h ht
  split at htx
  · exact CoreDefiTx.finalise_nullifier htx
  · cases htx
    rfl

/-- Events that do not concern a transaction leave it alone: those with other nonces, and all events
once it is finalised. -/
lemma processEvents_frame {results : List DefiInteractionNote}
    (h : results.foldlM (processEvent mined) txs = .ok txs')
    (ht : txs.find? (fun tx => tx.nullifier == some nullifier1) = some tx)
    (hother : ∀ e ∈ results, tx.interactionNonce ≠ some e.nonce ∨ tx.finalised ≠ none) :
    txs'.find? (fun tx => tx.nullifier == some nullifier1) = some tx := by
  induction results generalizing txs with
  | nil =>
    cases h
    exact ht
  | cons e es ih =>
    rw [List.foldlM_cons] at h
    obtain ⟨txs₁, h₁, h₂⟩ := bind_eq_ok h
    obtain ⟨tx', hcond, ht'⟩ := processEvent_find h₁ ht
    have hne : ¬ (tx.interactionNonce = some e.nonce ∧ tx.finalised = none) := fun hc => by
      cases hother e List.mem_cons_self with
      | inl hn => exact hn hc.1
      | inr hf => exact hf hc.2
    rw [if_neg hne] at hcond
    cases hcond
    exact ih h₂ ht' fun e' he' => hother e' (List.mem_cons_of_mem e he')

/-- The first event with its nonce finalises a transaction. -/
lemma processEvents_finalised {earlier later : List DefiInteractionNote}
    (h : (earlier ++ event :: later).foldlM (processEvent mined) txs = .ok txs')
    (hfirst : ∀ e ∈ earlier, e.nonce ≠ event.nonce)
    (ht : txs.find? (fun tx => tx.nullifier == some nullifier1) = some tx)
    (hnonce : tx.interactionNonce = some event.nonce) (hun : tx.finalised = none) :
    txs'.find? (fun tx => tx.nullifier == some nullifier1) =
      some (tx.finalisedBy event mined) := by
  rw [List.foldlM_append] at h
  obtain ⟨txs₁, h₁, h₂⟩ := bind_eq_ok h
  have ht₁ := processEvents_frame h₁ ht fun e he => Or.inl fun heq =>
    hfirst e he (Option.some.inj (heq.symm.trans hnonce))
  rw [List.foldlM_cons] at h₂
  obtain ⟨txs₂, h₃, h₄⟩ := bind_eq_ok h₂
  obtain ⟨tx', hfin, ht₂⟩ := processEvent_find h₃ ht₁
  rw [if_pos ⟨hnonce, hun⟩] at hfin
  cases CoreDefiTx.finalise_eq hfin
  exact processEvents_frame h₄ ht₂ fun e _ => Or.inr nofun

/-- A note that is added leaves the deposits. -/
@[simp] lemma DbOps.addNote_unclaimedDefiTxs {index commitment : Nat} {treeNote : TreeNote} :
    (db.addNote index treeNote commitment).unclaimedDefiTxs = db.unclaimedDefiTxs := by
  unfold DbOps.addNote
  split
  · rfl
  · rfl

/-- So does a claim. -/
lemma DbOps.handleClaimTx_unclaimedDefiTxs {proof : InnerProofData} {noteStartIndex : Nat} :
    (db.handleClaimTx valueNotePartialCommitment proof noteStartIndex).unclaimedDefiTxs =
      db.unclaimedDefiTxs := by
  unfold DbOps.handleClaimTx
  cases db.findDefiTx proof.nullifier1 with
  | none => rfl
  | some defiTx => simp only [apply_ite DbOps.unclaimedDefiTxs, addNote_unclaimedDefiTxs, ite_self]

/-- A step keeps a transaction that is finalised. -/
lemma DbOps.handleTxs_find {step : DefiStep} (h : db.handleTxs valueNotePartialCommitment step = .ok db')
    (ht : db.findDefiTx nullifier1 = some tx) (hfin : tx.finalised ≠ none) :
    db'.findDefiTx nullifier1 = some tx := by
  cases step with
  | handleDefiDepositTx tx₁ =>
    cases h
    exact (List.find?_append ..).trans (by rw [show List.find? _ _ = _ from ht]; rfl)
  | handleClaimTx proof noteStartIndex =>
    cases h
    rw [DbOps.findDefiTx, DbOps.handleClaimTx_unclaimedDefiTxs]
    exact ht
  | processDefiInteractionResults results mined =>
    obtain ⟨txs', h₁, h₂⟩ := bind_eq_ok h
    cases h₂
    exact processEvents_frame h₁ ht fun _ _ => Or.inr hfin

/-- A finalised deposit is kept until it is claimed. -/
lemma DbOps.run_find {steps : List DefiStep}
    (h : steps.foldlM (DbOps.handleTxs valueNotePartialCommitment) db = .ok db')
    (ht : db.findDefiTx nullifier1 = some tx) (hfin : tx.finalised ≠ none) :
    db'.findDefiTx nullifier1 = some tx := by
  induction steps generalizing db with
  | nil =>
    cases h
    exact ht
  | cons step steps ih =>
    rw [List.foldlM_cons] at h
    obtain ⟨db₁, h₁, h₂⟩ := bind_eq_ok h
    exact ih h₂ (DbOps.handleTxs_find h₁ ht hfin)

/-- The indices and values of notes. -/
def entries (notes : List Note) : List (Nat × Nat) := notes.map fun n => (n.index, n.treeNote.value)

/-- A note is credited if it has a value. -/
lemma DbOps.addNote_entries (db : DbOps) (index commitment : Nat) {a : Nat} {treeNote : TreeNote}
    (ha : treeNote.value = a) :
    ∃ notes, (if a = 0 then db else db.addNote index treeNote commitment).unspentNotes =
        db.unspentNotes ++ notes ∧ entries notes = [(index, a)].filter (·.2 ≠ 0) := by
  by_cases hz : a = 0
  · rw [if_pos hz, hz]
    exact ⟨[], (List.append_nil _).symm, rfl⟩
  · rw [if_neg hz, DbOps.addNote, if_pos (ha ▸ hz)]
    refine ⟨_, rfl, ?_⟩
    rw [List.filter_cons, if_pos (decide_eq_true hz)]
    exact congrArg (fun v => [(index, v)]) ha

/-- Two notes, one after the other. -/
lemma DbOps.addNotes_entries {i j c c' a b : Nat} {treeNoteA treeNoteB : TreeNote}
    (ha : treeNoteA.value = a) (hb : treeNoteB.value = b) :
    ∃ notes, (if b = 0 then if a = 0 then db else db.addNote i treeNoteA c
        else DbOps.addNote j treeNoteB c' (if a = 0 then db else db.addNote i treeNoteA c)).unspentNotes =
          db.unspentNotes ++ notes ∧ entries notes = [(i, a), (j, b)].filter (·.2 ≠ 0) := by
  obtain ⟨notesA, hnotesA, hA⟩ := DbOps.addNote_entries db i c ha
  obtain ⟨notesB, hnotesB, hB⟩ := DbOps.addNote_entries
    (if a = 0 then db else db.addNote i treeNoteA c) j c' hb
  refine ⟨notesA ++ notesB, ?_, ?_⟩
  · rw [hnotesB, hnotesA, List.append_assoc]
  · rw [entries, List.map_append, ← entries, ← entries, hA, hB, ← List.filter_append]
    rfl

section ClaimedNotes

variable (valueNotePartialCommitment : Nat → Nat → Bool → Nat) (proof : InnerProofData)
  (noteStartIndex : Nat) (tx : CoreDefiTx)

/-- The first output note of a claim, of a value and an asset. -/
def CoreDefiTx.firstNote (value : Nat) (assetId : Option Nat) : Note where
  treeNote := ⟨tx.userId, value, assetId,
    valueNotePartialCommitment tx.partialStateSecret tx.userId true == tx.partialState,
    tx.partialStateSecret, 0, proof.nullifier1⟩
  commitment := proof.noteCommitment1
  index := noteStartIndex

/-- The second note of a claim. -/
def CoreDefiTx.secondNote (value : Nat) (assetId : Option Nat) : Note where
  treeNote := ⟨tx.userId, value, assetId,
    valueNotePartialCommitment tx.partialStateSecret tx.userId true == tx.partialState,
    tx.partialStateSecret, 0, proof.nullifier2⟩
  commitment := proof.noteCommitment2
  index := noteStartIndex + 1

/-- Without a success, the deposit. -/
def CoreDefiTx.refunds : List Note :=
  let data := tx.bridgeCallData
  if tx.success = some true then [] else
    tx.firstNote valueNotePartialCommitment proof noteStartIndex tx.depositValue
      (some data.inputAssetIdA) ::
    if data.secondInputInUse then [tx.secondNote valueNotePartialCommitment proof noteStartIndex
      tx.depositValue data.inputAssetIdB] else []

/-- The notes that a claim is worth. -/
def CoreDefiTx.outputs : List Note :=
  let data := tx.bridgeCallData
  [tx.firstNote valueNotePartialCommitment proof noteStartIndex (tx.outputValueA.getD 0)
      (if data.firstOutputVirtual then tx.interactionNonce.map (virtualAssetIdFlag + ·)
        else some data.outputAssetIdA),
    tx.secondNote valueNotePartialCommitment proof noteStartIndex (tx.outputValueB.getD 0)
      (if data.secondOutputVirtual then tx.interactionNonce.map (virtualAssetIdFlag + ·)
        else data.outputAssetIdB)]

end ClaimedNotes

/-- The notes that have a value. -/
def credited (notes : List Note) : List Note := notes.filter (·.treeNote.value ≠ 0)

/-- What two lists credit. -/
lemma credited_append (notes notes' : List Note) :
    credited (notes ++ notes') = credited notes ++ credited notes' := List.filter_append ..

/-- A note of value zero is not credited. -/
lemma credited_cons (note : Note) (notes : List Note) :
    credited (note :: notes) =
      if note.treeNote.value ≠ 0 then note :: credited notes else credited notes := by
  simp only [credited, List.filter_cons, decide_eq_true_eq]

/-- So a pair of notes may credit one. -/
lemma credited_pair {note note' : Note} (h : note'.treeNote.value = 0) :
    credited [note, note'] = credited [note] := by
  rw [credited_cons, credited_cons, credited_cons, if_neg (not_not.mpr h)]

/-- A note that is added is credited. -/
lemma DbOps.addNote_unspentNotes {index commitment : Nat} {treeNote : TreeNote} :
    (db.addNote index treeNote commitment).unspentNotes =
      db.unspentNotes ++ credited [⟨treeNote, commitment, index⟩] := by
  unfold DbOps.addNote
  rw [credited_cons]
  by_cases hv : treeNote.value ≠ 0
  · rw [if_pos hv, if_pos hv]
    rfl
  · rw [if_neg hv, if_neg hv]
    exact (List.append_nil _).symm

/-- An output that is tested before it is added is added if it has a value. -/
lemma DbOps.addOutput_unspentNotes {index commitment value : Nat} {treeNote : TreeNote}
    (hv : treeNote.value = value) :
    (if value ≠ 0 then db.addNote index treeNote commitment else db).unspentNotes =
      db.unspentNotes ++ credited [⟨treeNote, commitment, index⟩] := by
  by_cases hz : value ≠ 0
  · rw [if_pos hz, addNote_unspentNotes]
  · rw [if_neg hz, credited_cons, if_neg (hv ▸ hz)]
    exact (List.append_nil _).symm

/-- A claim adds the notes of its transaction that have a value. -/
lemma DbOps.handleClaimTx_unspentNotes {proof : InnerProofData} {noteStartIndex : Nat}
    (ht : db.findDefiTx proof.nullifier1 = some tx) :
    (db.handleClaimTx valueNotePartialCommitment proof noteStartIndex).unspentNotes =
      db.unspentNotes ++ credited (tx.refunds valueNotePartialCommitment proof noteStartIndex ++
        tx.outputs valueNotePartialCommitment proof noteStartIndex) := by
  have houtputs : credited (tx.outputs valueNotePartialCommitment proof noteStartIndex) =
      credited [_] ++ credited [_] := credited_append [_] [_]
  unfold DbOps.handleClaimTx
  rw [ht, credited_append, houtputs]
  -- the outputs are added last
  refine (addOutput_unspentNotes (by rfl)).trans ?_
  rw [addOutput_unspentNotes (by rfl), ← List.append_assoc, ← List.append_assoc]
  congr 2
  cases hs : decide (tx.success = some true) with
  | true =>
    have hsuccess := of_decide_eq_true hs
    rw [CoreDefiTx.refunds, if_neg (not_not.mpr hsuccess), if_pos hsuccess]
    exact (List.append_nil _).symm
  | false =>
    have hfailure := of_decide_eq_false hs
    rw [CoreDefiTx.refunds, if_pos hfailure, if_neg hfailure]
    cases hin : tx.bridgeCallData.secondInputInUse with
    | true =>
      refine addNote_unspentNotes.trans ?_
      rw [addNote_unspentNotes, List.append_assoc, ← credited_append]
      rfl
    | false => exact addNote_unspentNotes

/-- The claim of a settled transaction credits its outputs. -/
lemma DbOps.handleClaimTx_credits {proof : InnerProofData} {noteStartIndex a b : Nat}
    (ht : db.findDefiTx proof.nullifier1 = some tx) (hs : tx.success = some true)
    (ha : tx.outputValueA = some a) (hb : tx.outputValueB = some b) :
    ∃ notes, (db.handleClaimTx valueNotePartialCommitment proof noteStartIndex).unspentNotes =
        db.unspentNotes ++ notes ∧
      entries notes = [(noteStartIndex, a), (noteStartIndex + 1, b)].filter (·.2 ≠ 0) := by
  unfold DbOps.handleClaimTx
  rw [ht]
  simp only [hs, ha, hb, Option.getD_some, ne_eq, not_true_eq_false, if_false, ite_not]
  exact DbOps.addNotes_entries rfl rfl

/-- A transaction that an event settles, and what follows until its claim. -/
structure Settlement (valueNotePartialCommitment : Nat → Nat → Bool → Nat)
    (event : DefiInteractionNote) (nullifier1 : Nat) where
  before : DbOps
  defiTx : CoreDefiTx
  found : before.findDefiTx nullifier1 = some defiTx
  nonce : defiTx.interactionNonce = some event.nonce
  unfinalised : defiTx.finalised = none
  earlier : List DefiInteractionNote
  later : List DefiInteractionNote
  first : ∀ e ∈ earlier, e.nonce ≠ event.nonce
  mined : Nat
  settled : DbOps
  settles : before.processDefiInteractionResults (earlier ++ event :: later) mined = .ok settled
  steps : List DefiStep
  db : DbOps
  run : steps.foldlM (DbOps.handleTxs valueNotePartialCommitment) settled = .ok db

/-- Its transaction is finalised when its claim comes. -/
lemma Settlement.found_finalised
    (st : Settlement valueNotePartialCommitment event nullifier1) :
    st.db.findDefiTx nullifier1 = some (st.defiTx.finalisedBy event st.mined) := by
  obtain ⟨txs, h₁, h₂⟩ := bind_eq_ok st.settles
  have hfound := processEvents_finalised h₁ st.first st.found st.nonce st.unfinalised
  have hsettled : st.settled.findDefiTx nullifier1 = some (st.defiTx.finalisedBy event st.mined) := by
    rw [← Except.ok.inj h₂]
    exact hfound
  exact DbOps.run_find st.run hsettled nofun

/-- Its claim adds its outputs or, after a failure, its deposit. -/
lemma Settlement.unspentNotes {proof : InnerProofData}
    (st : Settlement valueNotePartialCommitment event proof.nullifier1) (noteStartIndex : Nat) :
    (st.db.handleClaimTx valueNotePartialCommitment proof noteStartIndex).unspentNotes =
      st.db.unspentNotes ++ credited (if event.result
        then (st.defiTx.finalisedBy event st.mined).outputs valueNotePartialCommitment proof
          noteStartIndex
        else (st.defiTx.finalisedBy event st.mined).refunds valueNotePartialCommitment proof
          noteStartIndex) := by
  rw [DbOps.handleClaimTx_unspentNotes st.found_finalised, credited_append]
  cases hr : event.result with
  | true =>
    have hnone : (st.defiTx.finalisedBy event st.mined).refunds valueNotePartialCommitment proof
        noteStartIndex = [] := if_pos (congrArg some hr)
    rw [hnone, if_pos rfl]
    rfl
  | false =>
    have hvalue (totalOutputValue : Nat) : (if event.result
        then share event totalOutputValue st.defiTx.depositValue else 0) = 0 := by
      rw [hr]
      rfl
    have hnone : credited ((st.defiTx.finalisedBy event st.mined).outputs
        valueNotePartialCommitment proof noteStartIndex) = [] := by
      simp only [CoreDefiTx.outputs, CoreDefiTx.finalisedBy, CoreDefiTx.firstNote,
        CoreDefiTx.secondNote, hvalue, Option.getD_some, credited_cons, ne_eq,
        not_true_eq_false, if_false]
      rfl
    rw [hnone, List.append_nil, if_neg Bool.false_ne_true]

/-- Its claim credits its shares of the outputs. -/
lemma Settlement.credits {proof : InnerProofData}
    (st : Settlement valueNotePartialCommitment event proof.nullifier1) (hr : event.result = true)
    (noteStartIndex : Nat) :
    ∃ notes, (st.db.handleClaimTx valueNotePartialCommitment proof noteStartIndex).unspentNotes =
        st.db.unspentNotes ++ notes ∧
      entries notes =
        [(noteStartIndex, share event event.totalOutputValueA st.defiTx.depositValue),
          (noteStartIndex + 1, share event event.totalOutputValueB st.defiTx.depositValue)].filter
            (·.2 ≠ 0) := by
  have hset : (st.defiTx.finalisedBy event st.mined).Settled event :=
    CoreDefiTx.finalisedBy_settled hr
  exact DbOps.handleClaimTx_credits st.found_finalised hset.success hset.outputValueA
    hset.outputValueB

end

end AztecConnect.Client
