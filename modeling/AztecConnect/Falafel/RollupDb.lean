import AztecConnect.Lib.Table
import Mathlib.Data.List.Sort

/-!
# The database of rollups

Translation of `falafel/src/rollup_db/rollup_db.ts` with the entities `tx`, `rollup_proof`, `rollup`,
`account` and `claim`: the tables, the mutations and the reads. A call of the database is atomic; one
that would violate a constraint throws and leaves the tables as they are, and is no mutation. Metrics
are not modelled, dates, buffers and hashes are numbers.
-/

namespace AztecConnect.Falafel

/-- `TxType`. -/
inductive TxType where
  | DEPOSIT
  | TRANSFER
  | WITHDRAW_TO_WALLET
  | WITHDRAW_HIGH_GAS
  | ACCOUNT
  | DEFI_DEPOSIT
  | DEFI_CLAIM
  deriving DecidableEq

/-- `TxDao`. -/
structure TxDao where
  id : Nat
  /-- The id of the rollup proof. -/
  rollupProof : Option Nat
  /-- The account public key and the alias hash in the offchain data of an account transaction. -/
  offchainAccount : Nat × Nat
  nullifier1 : Option Nat
  nullifier2 : Option Nat
  txType : TxType
  created : Nat
  mined : Option Nat
  position : Int
  secondClass : Bool
  deriving DecidableEq

/-- `RollupProofDao`. -/
structure RollupProofDao where
  id : Nat
  /-- The id of the rollup. -/
  rollup : Option Nat
  rollupSize : Nat
  dataStartIndex : Nat
  deriving DecidableEq

/-- `RollupDao`. -/
structure RollupDao where
  id : Nat
  dataRoot : Nat
  processRollupCalldata : Option Nat
  interactionResult : Option Nat
  ethTxHash : Option Nat
  gasPrice : Option Nat
  gasUsed : Option Nat
  mined : Option Nat
  subtreeRoot : Option Nat
  deriving DecidableEq

/-- `AccountDao`. -/
structure AccountDao where
  accountPublicKey : Nat
  aliasHash : Nat
  /-- The id of the transaction. -/
  tx : Option Nat

/-- `ClaimDao`. -/
structure ClaimDao where
  id : Nat
  nullifier : Nat
  bridgeId : Nat
  depositValue : Nat
  partialState : Nat
  partialStateSecretEphPubKey : Nat
  inputNullifier : Nat
  /-- Negative if the call data of the bridge is not found in the first rollup. -/
  interactionNonce : Int
  fee : Nat
  interactionResultRollupId : Option Nat
  claimed : Option Nat
  deriving DecidableEq

/-- The tables. -/
structure RollupDb where
  txs : Table TxDao TxDao.id
  rollupProofs : Table RollupProofDao RollupProofDao.id
  rollups : Table RollupDao RollupDao.id
  accounts : Table AccountDao AccountDao.accountPublicKey
  claims : Table ClaimDao ClaimDao.id

namespace RollupDb

/-- An empty database. -/
def empty : RollupDb := ⟨.empty, .empty, .empty, .empty, .empty⟩

/-! ## Foreign keys -/

/-- Transactions are deleted, and their accounts with them. -/
def deleteTxs (db : RollupDb) (p : TxDao → Bool) : RollupDb :=
  { db with
    txs := db.txs.delete p
    accounts := db.accounts.delete fun a => db.txs.rows.any fun t => p t && a.tx == some t.id }

/-- Rollup proofs are deleted; their transactions have none then. -/
def deleteProofs (db : RollupDb) (p : RollupProofDao → Bool) : RollupDb :=
  { db with
    rollupProofs := db.rollupProofs.delete p
    txs := db.txs.modify (fun t =>
      if db.rollupProofs.rows.any fun r => p r && t.rollupProof == some r.id
      then { t with rollupProof := none } else t) }

/-- Rollups are deleted; their proofs have none then. -/
def deleteRollups (db : RollupDb) (p : RollupDao → Bool) : RollupDb :=
  { db with
    rollups := db.rollups.delete p
    rollupProofs := db.rollupProofs.modify (fun r =>
      if db.rollups.rows.any fun u => p u && r.rollup == some u.id
      then { r with rollup := none } else r) }

/-! ## Mutations -/

/-- It's a new account when the proof is nullifying the account public key. -/
def getNewAccountDaos (txs : List TxDao) : List AccountDao :=
  (txs.filter fun t => t.txType = .ACCOUNT && t.nullifier2.any (· != 0)).map fun t =>
    ⟨t.offchainAccount.1, t.offchainAccount.2, some t.id⟩

/-- A call that changes the tables. -/
inductive Mutation where
  | addTxs (txs : List TxDao)
  | deleteTxsById (ids : List Nat)
  | deletePendingTxs
  | deleteUnsettledClaimTxs
  | resetPositionOnTxsWithoutRollupProof
  | addAccounts (accounts : List AccountDao)
  /-- `addRollupProof` and `addRollupProofs`: proofs with their transactions. -/
  | addRollupProofs (proofs : List (RollupProofDao × List TxDao))
  | deleteRollupProof (id : Nat)
  | deleteTxlessRollupProofs
  | deleteOrphanedRollupProofs
  /-- A rollup with its proof and the transactions of the proof, with their positions in it. -/
  | addRollup (rollup : RollupDao) (proof : RollupProofDao) (txs : List (Nat × TxDao))
  | setCallData (id processRollupCalldata : Nat)
  | confirmSent (id ethTxHash : Nat)
  | confirmMined (id gasUsed gasPrice mined ethTxHash interactionResult : Nat) (txIds : List Nat)
      (subtreeRoot : Nat)
  | deleteUnsettledRollups
  | addClaims (claims : List ClaimDao)
  | updateClaimsWithResultRollupId (interactionNonces : List Int) (interactionResultRollupId : Nat)
  | confirmClaimed (nullifiers : List Nat) (claimed : Nat)
  | addBridgeMetrics
  | eraseDb

/-- `addRollupProof`: the transactions of the proof are linked to it, and others no longer. -/
def addRollupProof (db : RollupDb) (proof : RollupProofDao) (txs : List TxDao) : RollupDb :=
  { db with
    rollupProofs := db.rollupProofs.save proof
    txs := (db.txs.modify fun t =>
        if t.rollupProof = some proof.id then { t with rollupProof := none } else t).saveAll
      (txs.map fun t => { t with rollupProof := some proof.id }) }

/-- `addRollup`: replaces the rollup of this id and its proof. -/
def addRollup (db : RollupDb) (rollup : RollupDao) (proof : RollupProofDao)
    (txs : List (Nat × TxDao)) : RollupDb :=
  let db := db.deleteRollups (·.id = rollup.id)
  let db := { db with rollups := db.rollups.save rollup }
  let db := db.deleteProofs (·.id = proof.id)
  { db with
    rollupProofs := db.rollupProofs.save { proof with rollup := some rollup.id }
    txs := db.txs.saveAll (txs.map fun (i, t) => { t with rollupProof := some proof.id, position := i })
    accounts := db.accounts.saveAll (getNewAccountDaos (txs.map Prod.snd)) }

/-- `save` of a transaction: fields that are undefined keep their values. -/
def saveTx (txs : Table TxDao TxDao.id) (t : TxDao) : Table TxDao TxDao.id :=
  txs.save (match txs.find? t.id with
    | none => t
    | some old => { t with
        rollupProof := t.rollupProof <|> old.rollupProof
        nullifier1 := t.nullifier1 <|> old.nullifier1
        nullifier2 := t.nullifier2 <|> old.nullifier2
        mined := t.mined <|> old.mined
        position := if t.position = -1 then old.position else t.position })

/-- `save` of a claim, too. -/
def saveClaim (claims : Table ClaimDao ClaimDao.id) (c : ClaimDao) : Table ClaimDao ClaimDao.id :=
  claims.save (match claims.find? c.id with
    | none => c
    | some old => { c with
        interactionResultRollupId := c.interactionResultRollupId <|> old.interactionResultRollupId
        claimed := c.claimed <|> old.claimed })

/-- What a mutation does to the database. -/
def apply : Mutation → RollupDb → RollupDb
  | .addTxs txs, db =>
    { db with accounts := db.accounts.saveAll (getNewAccountDaos txs), txs := txs.foldl saveTx db.txs }
  | .deleteTxsById ids, db => db.deleteTxs fun t => ids.contains t.id
  | .deletePendingTxs, db => db.deleteTxs (·.rollupProof.isNone)
  | .deleteUnsettledClaimTxs, db => db.deleteTxs fun t =>
    db.claims.rows.any fun c => c.claimed.isNone && t.nullifier1 == some c.nullifier
  | .resetPositionOnTxsWithoutRollupProof, db =>
    { db with txs := db.txs.modify (fun t =>
        if t.rollupProof.isNone then { t with position := -1 } else t) }
  | .addAccounts accounts, db => { db with accounts := db.accounts.saveAll accounts }
  | .addRollupProofs proofs, db => proofs.foldl (fun db (proof, txs) => db.addRollupProof proof txs) db
  | .deleteRollupProof id, db => db.deleteProofs (·.id = id)
  | .deleteTxlessRollupProofs, db => db.deleteProofs fun r =>
    !db.txs.rows.any fun t => t.rollupProof == some r.id
  | .deleteOrphanedRollupProofs, db => db.deleteProofs (·.rollup.isNone)
  | .addRollup rollup proof txs, db => db.addRollup rollup proof txs
  | .setCallData id processRollupCalldata, db =>
    { db with rollups := db.rollups.modify (fun r =>
        if r.id = id then { r with processRollupCalldata := some processRollupCalldata } else r) }
  | .confirmSent id ethTxHash, db =>
    { db with rollups := db.rollups.modify (fun r =>
        if r.id = id then { r with ethTxHash := some ethTxHash } else r) }
  | .confirmMined id gasUsed gasPrice mined ethTxHash interactionResult txIds subtreeRoot, db =>
    { db with
      txs := db.txs.modify (fun t => if txIds.contains t.id then { t with mined := some mined } else t)
      rollups := db.rollups.modify (fun r => if r.id = id then { r with
          mined := some mined, gasUsed := some gasUsed, gasPrice := some gasPrice
          ethTxHash := some ethTxHash, interactionResult := some interactionResult
          subtreeRoot := some subtreeRoot } else r) }
  | .deleteUnsettledRollups, db => db.deleteRollups (·.mined.isNone)
  | .addClaims claims, db => { db with claims := claims.foldl saveClaim db.claims }
  | .updateClaimsWithResultRollupId interactionNonces interactionResultRollupId, db =>
    { db with claims := db.claims.modify (fun c => if interactionNonces.contains c.interactionNonce
        then { c with interactionResultRollupId := some interactionResultRollupId } else c) }
  | .confirmClaimed nullifiers claimed, db =>
    { db with claims := db.claims.modify (fun c =>
        if nullifiers.contains c.nullifier then { c with claimed := some claimed } else c) }
  | .addBridgeMetrics, db => db
  | .eraseDb, _ => empty

/-! ## Reads -/

/-- `getTotalTxCount`. -/
def getTotalTxCount (db : RollupDb) : Nat := db.txs.rows.length

/-- `getUnsettledTxs`. -/
def getUnsettledTxs (db : RollupDb) : List TxDao := db.txs.rows.filter (·.mined.isNone)

/-- `getUnsettledTxCount`. -/
def getUnsettledTxCount (db : RollupDb) : Nat := db.txs.rows.countP (·.mined.isNone)

/-- `getUnsettledDepositTxs`. -/
def getUnsettledDepositTxs (db : RollupDb) : List TxDao :=
  db.txs.rows.filter fun t => t.txType = .DEPOSIT && t.mined.isNone

/-- `getPendingSecondClassTxCount`. -/
def getPendingSecondClassTxCount (db : RollupDb) : Nat :=
  db.txs.rows.countP fun t => t.rollupProof.isNone && t.secondClass

/-- In the order of the times at which they were created. -/
def getPendingTxs (db : RollupDb) : List TxDao :=
  (db.txs.rows.filter fun t => t.rollupProof.isNone && !t.secondClass).insertionSort
    fun t u => t.created ≤ u.created

/-- `getUnsettledNullifiers`. -/
def getUnsettledNullifiers (db : RollupDb) : List Nat :=
  (db.txs.rows.filter (·.mined.isNone)).flatMap fun t => t.nullifier1.toList ++ t.nullifier2.toList

/-- The ids of the settled rollups. -/
def settledIds (db : RollupDb) : List Nat := (db.rollups.rows.filter (·.mined.isSome)).map (·.id)

/-- `getNumSettledRollups`. -/
def getNumSettledRollups (db : RollupDb) : Nat := db.rollups.rows.countP (·.mined.isSome)

/-- `getNextRollupId`: one more than the last settled id. -/
def getNextRollupId (db : RollupDb) : Nat :=
  match db.settledIds.max? with
  | some latest => latest + 1
  | none => 0

/-- A rollup with its proof and the transactions of the proof, in the order of their positions. -/
structure RollupWithTxs where
  rollup : RollupDao
  rollupProof : RollupProofDao
  txs : List TxDao
  deriving DecidableEq

/-- Populate the txs in order by position. -/
def populate (db : RollupDb) (rollup : RollupDao) : Except String RollupWithTxs :=
  match db.rollupProofs.rows.find? fun r => r.rollup == some rollup.id with
  | none => .error "Cannot set properties of null (setting 'txs')"
  | some proof => .ok ⟨rollup, proof, (db.txs.rows.filter fun t => t.rollupProof == some proof.id).mergeSort
      fun t u => t.position ≤ u.position⟩

/-- `getRollup`, with its proof and transactions. -/
def getRollup (db : RollupDb) (id : Nat) : Except String (Option RollupWithTxs) :=
  match db.rollups.find? id with
  | none => .ok none
  | some rollup => (db.populate rollup).map some

/-- `getSettledRollups`, in the order of their ids. -/
def getSettledRollups (db : RollupDb) (start take : Nat) : Except String (List RollupWithTxs) :=
  ((db.rollups.sorted fun r => r.mined.isSome && decide (start ≤ r.id)).take take).mapM db.populate

/-! ## Rollups in order -/

/-- The settled rollups are numbered from zero. -/
def Numbered (db : RollupDb) : Prop := db.settledIds.Perm (List.range db.getNumSettledRollups)

instance (db : RollupDb) : Decidable db.Numbered :=
  inferInstanceAs (Decidable (db.settledIds.Perm (List.range db.getNumSettledRollups)))

variable {db : RollupDb}

/-- If the settled rollups are numbered, the next id is their number. -/
lemma Numbered.getNextRollupId (h : db.Numbered) : db.getNextRollupId = db.getNumSettledRollups := by
  unfold RollupDb.getNextRollupId
  have hmem (i : Nat) : i ∈ db.settledIds ↔ i < db.getNumSettledRollups :=
    h.mem_iff.trans List.mem_range
  split
  case h_1 latest hmax =>
    obtain ⟨hin, hle⟩ := List.max?_eq_some_iff.mp hmax
    have hlt := (hmem latest).mp hin
    by_contra hne
    have hnext := hle (latest + 1) ((hmem _).mpr (by omega))
    omega
  case h_2 hnone =>
    rw [List.max?_eq_none_iff] at hnone
    rw [Numbered, hnone] at h
    exact (Nat.eq_zero_of_not_pos fun hpos => List.not_mem_nil ((hnone ▸ hmem 0).mpr hpos)).symm

/-- Rows that are there, one by one. -/
lemma mapM_getRollup {ids : List Nat} (h : ∀ i ∈ ids, (db.rollups.find? i).isSome) (take : Nat) :
    (((ids.filterMap db.rollups.find?).take take).mapM db.populate).map (List.map some) =
      (ids.take take).mapM db.getRollup := by
  induction ids generalizing take with
  | nil =>
    rw [List.filterMap_nil, List.take_nil, List.take_nil]
    rfl
  | cons i ids ih =>
    obtain ⟨row, hrow⟩ := Option.isSome_iff_exists.mp (h i List.mem_cons_self)
    rw [List.filterMap_cons_some hrow]
    cases take with
    | zero => rfl
    | succ take =>
      have hget : db.getRollup i = (db.populate row).map some := by rw [getRollup, hrow]
      rw [List.take_succ_cons, List.take_succ_cons, List.mapM_cons, List.mapM_cons, hget,
        ← ih fun j hj => h j (List.mem_cons_of_mem _ hj)]
      cases db.populate row with
      | error e => rfl
      | ok v =>
        cases ((ids.filterMap db.rollups.find?).take take).mapM db.populate with
        | error e => rfl
        | ok vs => rfl

/-- And the settled ids are those below it. -/
lemma Numbered.mem_settledIds (h : db.Numbered) {i : Nat} :
    i ∈ db.settledIds ↔ i < db.getNextRollupId := by
  rw [h.getNextRollupId]
  exact h.mem_iff.trans List.mem_range

/-- Settled rollups, one by one. -/
lemma Numbered.getSettledRollups (h : db.Numbered) (start take : Nat) :
    (db.getSettledRollups start take).map (List.map some) =
      (List.range' start (min (start + take) db.getNextRollupId - start)).mapM db.getRollup := by
  have hnumbered : ((db.rollups.rows.filter (·.mined.isSome)).map RollupDao.id).Perm
      (List.range db.getNextRollupId) := h.getNextRollupId ▸ h
  unfold RollupDb.getSettledRollups
  rw [Table.sorted_eq hnumbered, mapM_getRollup]
  · refine congrArg (List.mapM db.getRollup) ?_
    rcases Nat.le_total (db.getNextRollupId - start) take with hle | hge
    · rw [List.take_range'_of_length_le hle]
      exact congrArg (List.range' start) (by omega)
    · rw [List.take_range'_of_length_ge hge]
      exact congrArg (List.range' start) (by omega)
  · intro i hi
    have hlt : i < db.getNextRollupId := by
      have hrange := List.mem_range'_1.mp hi
      omega
    obtain ⟨row, hrow, rfl⟩ := List.mem_map.mp (h.mem_settledIds.mpr hlt)
    rw [Table.find?_key (List.mem_filter.mp hrow).1]
    rfl

/-! ## What the reads see -/

/-- Rows that keep their ids and dates keep the settled ids. -/
lemma settledIds_modify {f : RollupDao → RollupDao} (h : ∀ r, (f r).id = r.id)
    (hmined : ∀ r, (f r).mined = r.mined) :
    ({ db with rollups := db.rollups.modify f h } : RollupDb).settledIds = db.settledIds := by
  unfold settledIds
  show ((db.rollups.rows.map f).filter _).map _ = _
  rw [List.filter_map, List.map_map]
  have hp : (fun r : RollupDao => r.mined.isSome) ∘ f = fun r => r.mined.isSome :=
    funext fun r => congrArg Option.isSome (hmined r)
  have hid : RollupDao.id ∘ f = RollupDao.id := funext h
  rw [hp, hid]

/-- Deleting unsettled rollups keeps the settled ids. -/
lemma settledIds_deleteUnsettled : (db.deleteRollups (·.mined.isNone)).settledIds = db.settledIds := by
  unfold settledIds
  show ((db.rollups.rows.filter _).filter _).map _ = _
  rw [List.filter_filter]
  refine congrArg (List.map RollupDao.id) (List.filter_congr fun r _ => ?_)
  show (r.mined.isSome && !r.mined.isNone) = r.mined.isSome
  cases r.mined with
  | none => rfl
  | some _ => rfl

/-- The proofs that are deleted have no transactions. -/
lemma deleteTxless_txs : (db.deleteProofs fun r =>
    !db.txs.rows.any fun t => t.rollupProof == some r.id).txs.rows = db.txs.rows := by
  show db.txs.rows.map _ = db.txs.rows
  conv_rhs => rw [← List.map_id db.txs.rows]
  refine List.map_congr_left fun t ht => if_neg fun hany => ?_
  obtain ⟨r, -, hr⟩ := List.any_eq_true.mp hany
  obtain ⟨hnone, heq⟩ := (Bool.and_eq_true _ _).mp hr
  have hany' : (db.txs.rows.any fun t => t.rollupProof == some r.id) = true :=
    List.any_eq_true.mpr ⟨t, ht, heq⟩
  have hnone' : (!db.txs.rows.any fun t => t.rollupProof == some r.id) = true := hnone
  rw [hany'] at hnone'
  nomatch hnone'

end RollupDb

end AztecConnect.Falafel
