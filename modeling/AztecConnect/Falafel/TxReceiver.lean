import AztecConnect.Falafel.RollupDb
import AztecConnect.Lib.Transition
import Mathlib.Algebra.GroupWithZero.Nat

/-!
# Receiving transactions

Translation of `falafel/src/tx_receiver/tx_receiver.ts`, over the cached database and the chain on which
it runs: a request is processed under the mutex in steps that end where the code awaits, and between them
deposits are made, our rollups are mined and then confirmed in the database (`updateDbs`), and rollups
of others are mined, added and followed by a purge of the pool. The unsettled transactions are those that
`CachedRollupDb` has: refreshes read them from the database and store them later, in any order. The checks
of fees, assets, approvals, offchain data and rates only reject, which a request may do at every step.
Claim transactions are not modelled.
-/

namespace AztecConnect.Falafel

open Transition (Steps)

/-- `ProofId`. -/
inductive ProofId where
  | PADDING
  | DEPOSIT
  | WITHDRAW
  | SEND
  | ACCOUNT
  | DEFI_DEPOSIT
  | DEFI_CLAIM
  deriving DecidableEq, Inhabited

/-- The public inputs that are published. -/
structure InnerProofData where
  proofId : ProofId
  noteCommitment1 : Nat
  noteCommitment2 : Nat
  nullifier1 : Nat
  nullifier2 : Nat
  publicValue : Nat
  publicOwner : Nat
  publicAssetId : Nat
  deriving DecidableEq, Inhabited

/-- `ProofData`. -/
structure ProofData extends InnerProofData where
  backwardLink : Nat
  allowChain : Nat
  deriving DecidableEq, Inhabited

namespace ProofData

/-- `allowChainFromNote1`. -/
def allowChainFromNote1 (p : ProofData) : Bool := [1, 3].contains p.allowChain

/-- `allowChainFromNote2`. -/
def allowChainFromNote2 (p : ProofData) : Bool := [2, 3].contains p.allowChain

/-- A note of the outputs can be chained from. -/
def chainable (p : ProofData) (noteCommitment : Nat) : Bool :=
  (p.allowChainFromNote1 && p.noteCommitment1 == noteCommitment) ||
    (p.allowChainFromNote2 && p.noteCommitment2 == noteCommitment)

/-- The nullifiers that are not zero. -/
def nullifiers (p : ProofData) : List Nat := [p.nullifier1, p.nullifier2].filter (· ≠ 0)

end ProofData

/-- A transaction of a request. -/
structure Tx where
  proof : ProofData
  offchainAccount : Nat × Nat

/-- The hash, the verifier and the chain state that the receiver calls. -/
structure Env where
  createTxId : InnerProofData → Nat
  /-- `validatePaymentProof`, `validateAccountProof` and `validateDefiDepositProof`. -/
  verifyProof : ProofData → Bool
  isContractOrEmpty : Nat → Bool

namespace TxReceiver

/-- `getTxTypeFromProofData`. -/
def getTxTypeFromProofData (E : Env) (p : ProofData) : TxType :=
  match p.proofId with
  | .DEPOSIT => .DEPOSIT
  | .SEND => .TRANSFER
  | .ACCOUNT => .ACCOUNT
  | .DEFI_DEPOSIT => .DEFI_DEPOSIT
  | .DEFI_CLAIM => .DEFI_CLAIM
  | _ => if E.isContractOrEmpty p.publicOwner then .WITHDRAW_HIGH_GAS else .WITHDRAW_TO_WALLET

/-! ## The checks -/

/-- `validateChain`, with the transactions that precede. -/
def validateChain (preceding : List ProofData) : List Tx → Bool
  | [] => true
  | tx :: txs =>
    (tx.proof.backwardLink == 0 ||
      !preceding.any (·.backwardLink == tx.proof.backwardLink) &&
        preceding.any (·.chainable tx.proof.backwardLink)) &&
    validateChain (preceding ++ [tx.proof]) txs

/-- `nullifiersExist`. -/
def nullifiersExist (db : RollupDb) (nullifiers : List Nat) : Bool :=
  db.txs.rows.any fun t =>
    t.nullifier1.any (nullifiers.contains ·) || t.nullifier2.any (nullifiers.contains ·)

/-- `validateNullifiers`. -/
def validateNullifiers (db : RollupDb) (txs : List Tx) : Bool :=
  let nullifiers := txs.flatMap (·.proof.nullifiers)
  decide nullifiers.Nodup && !nullifiersExist db nullifiers

/-- What the deposits of an owner require of an asset. -/
structure RequiredDeposit where
  publicOwner : Nat
  publicAssetId : Nat
  value : Nat

/-- A deposit is added to what its owner requires of its asset. -/
def addRequiredDeposit (p : ProofData) : List RequiredDeposit → List RequiredDeposit
  | [] => [⟨p.publicOwner, p.publicAssetId, p.publicValue⟩]
  | d :: ds =>
    if d.publicOwner = p.publicOwner ∧ d.publicAssetId = p.publicAssetId
    then { d with value := d.value + p.publicValue } :: ds else d :: addRequiredDeposit p ds

/-- The proofs of the deposits. -/
def depositProofs (txs : List Tx) : List ProofData :=
  (txs.map Tx.proof).filter (·.proofId = .DEPOSIT)

/-- What they require, by owner and asset. -/
def requiredDeposits (txs : List Tx) : List RequiredDeposit :=
  (depositProofs txs).foldl (fun ds p => addRequiredDeposit p ds) []

/-- What the deposits of an owner in an asset add up to. -/
def depositSum (proofs : List ProofData) (publicOwner publicAssetId : Nat) : Nat :=
  ((proofs.filter fun p => p.publicOwner = publicOwner ∧ p.publicAssetId = publicAssetId).map
    (·.publicValue)).sum

/-- The cases of `validateTx` that do not depend on the rest of the state. -/
def validateProof (E : Env) (p : ProofData) : Bool :=
  match p.proofId with
  | .DEPOSIT | .WITHDRAW | .SEND | .ACCOUNT => E.verifyProof p
  | .DEFI_DEPOSIT => !(p.allowChainFromNote1 || p.allowChainFromNote2) && E.verifyProof p
  | _ => false

/-- Each transaction of a request has a later time than the one before. -/
def getNextTxTime (currentTime : Nat) : Option Nat → Nat
  | none => currentTime
  | some previousTxTime =>
    if previousTxTime < currentTime then currentTime else previousTxTime + 1

/-- `toTxDao`. -/
def toTxDao (E : Env) (tx : Tx) (secondClass : Bool) (created : Nat) : TxDao where
  id := E.createTxId tx.proof.toInnerProofData
  rollupProof := none
  offchainAccount := tx.offchainAccount
  nullifier1 := if tx.proof.nullifier1 = 0 then none else some tx.proof.nullifier1
  nullifier2 := if tx.proof.nullifier2 = 0 then none else some tx.proof.nullifier2
  txType := getTxTypeFromProofData E tx.proof
  created := created
  mined := none
  position := -1
  secondClass := secondClass

/-! ## The system -/

/-- Where a request is between two steps. -/
inductive Stage where
  | chain
  | nullifiers
  | unsettledDeposits
  /-- With what is read of the database, and what is still to be compared with the chain. -/
  | pendingDeposits (unsettledTxs : List ProofData) (required : List RequiredDeposit)
  /-- The transactions up to here are validated. -/
  | validate (txDaos : List TxDao)

/-- A request and how far its checks are. -/
structure Receiving where
  txs : List Tx
  secondClass : Bool
  stage : Stage

/-- `unsettledTxs` of the cached database, with their column `proofData`. `saved` is history. -/
structure Cached where
  unsettledTxs : List TxDao
  proofData : Nat → ProofData
  /-- How many requests were saved when a refresh read it. -/
  saved : Nat

namespace Cached

/-- The proofs of `getUnsettledTxs`. -/
def getUnsettledTxs (c : Cached) : List ProofData := c.unsettledTxs.map fun t => c.proofData t.id

/-- The proofs of `getUnsettledDepositTxs`. -/
def getUnsettledDepositTxs (c : Cached) : List ProofData :=
  (c.unsettledTxs.filter (·.txType = .DEPOSIT)).map fun t => c.proofData t.id

end Cached

/-- The database with its cache, the clock, the pending deposits, and the request in progress. -/
structure State where
  db : RollupDb
  /-- The column `proofData` of the transactions. -/
  proofData : Nat → ProofData
  /-- What a refresh has stored last. -/
  cache : Cached
  /-- What refreshes have read and not stored yet. -/
  fetched : List Cached
  /-- Records how many requests were saved. -/
  saved : Nat
  now : Nat
  /-- `getUserPendingDeposit`. -/
  pendingDeposit : (publicOwner publicAssetId : Nat) → Nat
  /-- The request that has the mutex. -/
  receiving : Option Receiving
  /-- The transactions of our rollups that are mined and not yet confirmed. -/
  mined : List (List Nat)
  /-- Records that a rollup of someone else was mined. -/
  foreign : Bool

/-- What a refresh reads. -/
def State.readUnsettledTxs (s : State) : Cached := ⟨s.db.getUnsettledTxs, s.proofData, s.saved⟩

/-- An empty database. -/
def State.init : State where
  db := .empty
  proofData _ := default
  cache := ⟨[], fun _ => default, 0⟩
  fetched := []
  saved := 0
  now := 0
  pendingDeposit _ _ := 0
  receiving := none
  mined := []
  foreign := false

/-- What happens around the receiver. -/
inductive Action where
  | tick (ms : Nat)
  /-- A refresh of the cached database reads the unsettled transactions. -/
  | fetchUnsettledTxs
  /-- The answer to one of the refreshes arrives and is stored. -/
  | storeUnsettledTxs (k : Nat)
  /-- Funds are deposited on chain. -/
  | depositPendingFunds (owner assetId amount : Nat)
  /-- `receiveTxs`, when it has the mutex. -/
  | receiveTxs (txs : List Tx) (secondClass : Bool)
  /-- The request goes on, up to the next `await`. -/
  | next
  /-- A check that is not modelled fails. -/
  | reject
  /-- A rollup of ours is mined. -/
  | mine (txIds : List Nat)
  /-- The block of our first rollup is handled. -/
  | confirmMined (id gasUsed gasPrice mined ethTxHash interactionResult subtreeRoot : Nat)
  /-- A rollup of someone else is mined, with its deposits. -/
  | mineForeign (deposits : (publicOwner publicAssetId : Nat) → Nat)
  /-- Its block is handled. -/
  | addRollup (rollup : RollupDao) (proof : RollupProofDao) (txs : List (Nat × TxDao × ProofData))
  /-- Some of the pending transactions of the first class are deleted after that. -/
  | purgeInvalidTxs (ids : List Nat)

/-- The unique columns of the transactions. -/
def Unique (db : RollupDb) : Prop :=
  (db.txs.rows.filterMap (·.nullifier1)).Nodup ∧ (db.txs.rows.filterMap (·.nullifier2)).Nodup

instance (db : RollupDb) : Decidable (Unique db) := inferInstanceAs (Decidable (_ ∧ _))

/-- The column `proofData` after transactions are written. -/
def setProofData (proofData : Nat → ProofData) (txs : List (Nat × ProofData)) : Nat → ProofData :=
  txs.foldl (fun f (id, p) => Function.update f id p) proofData

/-- A step of the request. Without a request at the end, the mutex is released. A read of the cached
database waits for a refresh; here it returns what was stored last, however old that is. -/
def next (E : Env) (s : State) (r : Receiving) : State :=
  let fail := { s with receiving := none }
  let goOn stage := { s with receiving := some { r with stage } }
  match r.stage with
  | .chain =>
    if validateChain s.cache.getUnsettledTxs r.txs
    then goOn .nullifiers else fail
  | .nullifiers => if validateNullifiers s.db r.txs then goOn .unsettledDeposits else fail
  | .unsettledDeposits =>
    goOn (.pendingDeposits s.cache.getUnsettledDepositTxs (requiredDeposits r.txs))
  | .pendingDeposits _ [] => goOn (.validate [])
  | .pendingDeposits unsettledTxs (d :: ds) =>
    let total := d.value + depositSum unsettledTxs d.publicOwner d.publicAssetId
    if s.pendingDeposit d.publicOwner d.publicAssetId < total then fail
    else goOn (.pendingDeposits unsettledTxs ds)
  | .validate txDaos =>
    match r.txs[txDaos.length]? with
    | some tx =>
      if validateProof E tx.proof
      then
        let created := getNextTxTime s.now (txDaos.getLast?.map (·.created))
        goOn (.validate (txDaos ++ [toTxDao E tx r.secondClass created]))
      else fail
    | none =>
      let db := RollupDb.apply (.addTxs txDaos) s.db
      if Unique db then
        { s with
          db := db
          proofData := setProofData s.proofData
            (r.txs.map fun tx => (E.createTxId tx.proof.toInnerProofData, tx.proof))
          saved := s.saved + 1
          receiving := none }
      else fail

/-- Sets the pending deposit of an owner in an asset. -/
def setPending (pending : Nat → Nat → Nat) (owner assetId value : Nat) : Nat → Nat → Nat :=
  Function.update pending owner (Function.update (pending owner) assetId value)

/-- The contract takes the deposit of a transaction from what its owner has pending. -/
def takeDeposit (s : State) (pending : Nat → Nat → Nat) (txId : Nat) : Option (Nat → Nat → Nat) :=
  match s.db.txs.find? txId with
  | none => none
  | some t =>
    let p := s.proofData txId
    if t.txType ≠ .DEPOSIT then some pending
    else if pending p.publicOwner p.publicAssetId < p.publicValue then none
    else some (setPending pending p.publicOwner p.publicAssetId
      (pending p.publicOwner p.publicAssetId - p.publicValue))

/-- One step; `none` if it cannot happen. -/
def step (E : Env) (s : State) : Action → Option State
  | .tick ms => some { s with now := s.now + ms }
  | .fetchUnsettledTxs =>
    some { s with fetched := s.fetched ++ [s.readUnsettledTxs] }
  | .storeUnsettledTxs k =>
    s.fetched[k]?.map fun c => { s with cache := c, fetched := s.fetched.eraseIdx k }
  | .depositPendingFunds owner assetId amount =>
    some { s with
      pendingDeposit :=
        setPending s.pendingDeposit owner assetId (s.pendingDeposit owner assetId + amount) }
  | .receiveTxs txs secondClass =>
    match s.receiving with
    | none => some { s with receiving := some ⟨txs, secondClass, .chain⟩ }
    | some _ => none
  | .next => s.receiving.map (next E s)
  | .reject => s.receiving.map fun _ => { s with receiving := none }
  | .mine txIds =>
    -- a transaction is in one rollup only, as its nullifiers are
    if txIds.Nodup ∧ (∀ id ∈ txIds, id ∉ s.mined.flatten ∧ ∃ t ∈ s.db.getUnsettledTxs, t.id = id)
    then (txIds.foldlM (takeDeposit s) s.pendingDeposit).map fun pending =>
      { s with pendingDeposit := pending, mined := s.mined ++ [txIds] }
    else none
  | .confirmMined id gasUsed gasPrice mined ethTxHash interactionResult subtreeRoot =>
    match s.mined with
    | txIds :: rest => some { s with
        db := RollupDb.apply (.confirmMined id gasUsed gasPrice mined ethTxHash interactionResult
          txIds subtreeRoot) s.db
        mined := rest }
    | [] => none
  | .mineForeign deposits =>
    let pending owner assetId := s.pendingDeposit owner assetId - deposits owner assetId
    some { s with pendingDeposit := pending, foreign := true }
  | .addRollup rollup proof txs =>
    let db := RollupDb.apply (.addRollup rollup proof (txs.map fun (i, t, _) => (i, t))) s.db
    if s.foreign ∧ (∀ tx ∈ txs, tx.2.1.mined.isSome) ∧ Unique db
    then some { s with
      db := db
      proofData := setProofData s.proofData (txs.map fun (_, t, p) => (t.id, p)) }
    else none
  | .purgeInvalidTxs ids =>
    if s.foreign ∧ (∀ id ∈ ids, ∃ t ∈ s.db.txs.rows,
      t.id = id ∧ t.rollupProof = none ∧ t.secondClass = false)
    then some { s with db := RollupDb.apply (.deleteTxsById ids) s.db }
    else none

end TxReceiver

end AztecConnect.Falafel
