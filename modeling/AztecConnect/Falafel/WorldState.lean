import AztecConnect.Contract.DataTree
import AztecConnect.Falafel.RollupCoordinator
import AztecConnect.Lib.SparseArray
import Mathlib.Data.Nat.Log

/-!
# The world state of falafel

Translation of `falafel/src/world_state.ts` (`updateDbs`, `processDefiProofs`,
`addRollupToWorldState`), of what `rollup_creator.ts`, `rollup_aggregator.ts` and
`pipeline_coordinator/index.ts` do to the trees, and of `world_state_db`, over the chain of the
rollups that the contract accepts. Of the tables of rollups, only the results of the interactions of
the settled ones are kept. Hash paths, proofs and initialisation files are not modelled.
-/

namespace AztecConnect.Falafel

/-! ## The trees -/

/-- `RollupTreeId`. -/
inductive RollupTreeId where
  | DATA
  | NULL
  | ROOT
  | DEFI
  deriving DecidableEq

/-- A tree: its leaves, and one more than the last index written. -/
structure MerkleTree where
  leaves : SparseArray
  size : Nat
  deriving DecidableEq

/-- The four trees. -/
abbrev Trees : Type := RollupTreeId → MerkleTree

/-- Writes a leaf, growing the tree to it. -/
def Trees.put (ts : Trees) (treeId : RollupTreeId) (index value : Nat) : Trees :=
  Function.update ts treeId
    ⟨(ts treeId).leaves.set index value, max (index + 1) (ts treeId).size⟩

/-- The trees with the changes that are not committed, and the committed trees. -/
structure WorldStateDb where
  trees : Trees
  committed : Trees

namespace WorldStateDb

/-- `getSize`. -/
def getSize (db : WorldStateDb) (treeId : RollupTreeId) : Nat := (db.trees treeId).size

/-- `get`. -/
def get (db : WorldStateDb) (treeId : RollupTreeId) (index : Nat) : Nat :=
  (db.trees treeId).leaves.get index

/-- `put`. -/
def put (db : WorldStateDb) (treeId : RollupTreeId) (index value : Nat) : WorldStateDb :=
  { db with trees := db.trees.put treeId index value }

/-- `commit`. -/
def commit (db : WorldStateDb) : WorldStateDb := { db with committed := db.trees }

/-- `rollback`. -/
def rollback (db : WorldStateDb) : WorldStateDb := { db with trees := db.committed }

variable {treeId treeId' : RollupTreeId}

/-- The tree written has the leaf, and grows to it. -/
lemma put_self (db : WorldStateDb) (index value : Nat) : (db.put treeId index value).trees treeId =
    ⟨(db.trees treeId).leaves.set index value, max (index + 1) (db.trees treeId).size⟩ :=
  Function.update_self ..

/-- The other trees stay. -/
lemma put_of_ne (db : WorldStateDb) (index value : Nat) (h : treeId' ≠ treeId) :
    (db.put treeId index value).trees treeId' = db.trees treeId' := Function.update_of_ne h ..

end WorldStateDb

/-- The tree written has the leaf, and grows to it. -/
@[simp] lemma Trees.put_self (ts : Trees) (treeId : RollupTreeId) (index value : Nat) :
    ts.put treeId index value treeId =
      ⟨(ts treeId).leaves.set index value, max (index + 1) (ts treeId).size⟩ :=
  Function.update_self ..

/-- The other trees stay. -/
@[simp] lemma Trees.put_of_ne {treeId treeId' : RollupTreeId} (ts : Trees) (index value : Nat)
    (h : treeId' ≠ treeId) : ts.put treeId index value treeId' = ts treeId' :=
  Function.update_of_ne h ..

/-! ## Blocks -/

/-- `DefiInteractionNote`. -/
structure DefiInteractionNote where
  bridgeCallData : Nat
  nonce : Nat
  totalInputValue : Nat
  totalOutputValueA : Nat
  totalOutputValueB : Nat
  result : Bool

/-- The fields of `RollupProofData` that falafel reads. -/
structure RollupProofData where
  rollupId : Nat
  rollupSize : Nat
  dataStartIndex : Nat
  newDataRoot : Nat
  newNullRoot : Nat
  newDataRootsRoot : Nat
  newDefiRoot : Nat
  bridgeCallDatas : List Nat
  defiInteractionNotes : List Nat
  innerProofData : List InnerProofData

/-- `RollupProofData.NUM_BRIDGE_CALLS_PER_BLOCK`. -/
def RollupProofData.NUM_BRIDGE_CALLS_PER_BLOCK : Nat := 32

/-- A block with the rollup that is decoded from it. -/
structure Block where
  rollup : RollupProofData
  offchainTxData : List Nat
  interactionResult : List DefiInteractionNote
  mined : Nat

/-- `OffchainDefiDepositData`. -/
structure OffchainDefiDepositData where
  bridgeCallData : Nat
  partialState : Nat
  partialStateSecretEphPubKey : Nat
  depositValue : Nat
  txFee : Nat

/-- `TreeClaimNote`. -/
structure TreeClaimNote where
  value : Nat
  bridgeId : Nat
  defiInteractionNonce : Int
  fee : Nat
  partialState : Nat
  inputNullifier : Nat

/-- The hashes, and the decoder of the offchain data. -/
structure WorldStateEnv where
  getRoot : RollupTreeId → SparseArray → Nat
  claimNoteCompletePartialCommitment : Nat → Nat → Nat → Nat
  /-- The nullifier of the commitment to a claim note. -/
  claimNoteNullifier : TreeClaimNote → Nat
  defiInteractionNoteCommitment : DefiInteractionNote → Nat
  offchainDefiDepositData : Nat → Option OffchainDefiDepositData

variable (E : WorldStateEnv)

/-- The root of a tree. -/
def Trees.root (ts : Trees) (treeId : RollupTreeId) : Nat := E.getRoot treeId (ts treeId).leaves

/-- The tree of the data roots starts with the root of the empty data tree. -/
def Trees.empty : Trees :=
  Trees.put (fun _ => ⟨.empty, 0⟩) .ROOT 0 (E.getRoot .DATA .empty)

/-! ## The rollup creator -/

/-- The sizes the configuration gives: transactions in an inner rollup, inner rollups in a root
rollup. -/
structure Config where
  numInnerRollupTxs : Nat
  numOuterRollupProofs : Nat

namespace Config

variable (c : Config)

/-- `innerRollupSize`. -/
def innerRollupSize : Nat := 1 <<< Nat.clog 2 c.numInnerRollupTxs

/-- `outerRollupSize`. -/
def outerRollupSize : Nat := 1 <<< Nat.clog 2 (c.innerRollupSize * c.numOuterRollupProofs)

/-- `totalSlots`. -/
def totalSlots : Nat := c.numOuterRollupProofs * c.numInnerRollupTxs

end Config

/-- `TxRollup`, as `createRollup` fills it. -/
structure TxRollup where
  rollupId : Nat
  dataStartIndex : Nat
  txs : List PendingTx
  oldDataRoot : Nat
  newDataRoot : Nat
  oldNullRoot : Nat
  newNullRoots : List Nat
  dataRootsRoot : Nat
  newDefiRoot : Nat
  bridgeCallDatas : List Nat
  assetIds : List Nat

namespace RollupCreator

/-- The variables of the loop of `createRollup`. -/
structure Loop where
  db : WorldStateDb
  nextDataIndex : Nat
  newNullRoots : List Nat
  rootRollupBridgeCallDatas : List Nat
  rootRollupAssetIds : List Nat
  localAssetIds : List Nat

variable (feePaying : Nat → Bool)

/-- The note of a defi deposit is completed, for the interaction of its bridge call. -/
def insertNotes (rollupId : Nat) (l : Loop) (tx : PendingTx) : Loop :=
  let proof := tx.proofData
  if proof.proofId ≠ .DEFI_DEPOSIT then
    { l with
      db := (l.db.put .DATA l.nextDataIndex proof.noteCommitment1).put .DATA (l.nextDataIndex + 1)
        proof.noteCommitment2
      nextDataIndex := l.nextDataIndex + 2 }
  else
    let rootBridgeIndex := l.rootRollupBridgeCallDatas.findIdx (· == tx.bridgeCallData)
    let rootRollupBridgeCallDatas :=
      if rootBridgeIndex = l.rootRollupBridgeCallDatas.length
      then l.rootRollupBridgeCallDatas ++ [tx.bridgeCallData] else l.rootRollupBridgeCallDatas
    let interactionNonce := rollupId * RollupProofData.NUM_BRIDGE_CALLS_PER_BLOCK + rootBridgeIndex
    let claimFee := tx.txFee - (tx.txFee >>> 1)
    let encNote := E.claimNoteCompletePartialCommitment proof.noteCommitment1 interactionNonce claimFee
    { l with
      rootRollupBridgeCallDatas
      db := (l.db.put .DATA l.nextDataIndex encNote).put .DATA (l.nextDataIndex + 1)
        proof.noteCommitment2
      nextDataIndex := l.nextDataIndex + 2 }

/-- Writes a nullifier that is not zero, and records the root after it. -/
def insertNullifier (l : Loop) (nullifier : Nat) : Loop :=
  let db := if nullifier ≠ 0 then l.db.put .NULL nullifier 1 else l.db
  { l with db, newNullRoots := l.newNullRoots ++ [db.trees.root E .NULL] }

/-- The asset that pays the fee. -/
def addAsset (l : Loop) (tx : PendingTx) : Loop :=
  if tx.proofData.proofId ≠ .ACCOUNT ∧ feePaying tx.feeAssetId then
    { l with
      localAssetIds := addToSet l.localAssetIds tx.feeAssetId
      rootRollupAssetIds := addToSet l.rootRollupAssetIds tx.feeAssetId }
  else l

/-- The body of the loop. -/
def insertTx (rollupId : Nat) (l : Loop) (tx : PendingTx) : Loop :=
  [tx.proofData.nullifier1, tx.proofData.nullifier2].foldl (insertNullifier E)
    (insertNotes E rollupId (addAsset feePaying l tx) tx)

/-- On an outer rollup size boundary for the first inner proof, and on an inner one for any other. -/
def dataStartIndex (c : Config) (dataSize : Nat) (firstInner : Bool) : Nat :=
  let subtreeSize := if firstInner then c.outerRollupSize * 2 else c.innerRollupSize * 2
  if dataSize % subtreeSize = 0 then dataSize else dataSize + subtreeSize - dataSize % subtreeSize

/-- The rollup, and the loop variables after it. -/
def createRollup (c : Config) (rollupId : Nat) (db : WorldStateDb) (txs : List PendingTx)
    (rootRollupBridgeCallDatas rootRollupAssetIds : List Nat) (firstInner : Bool) : TxRollup × Loop :=
  let start := dataStartIndex c (db.getSize .DATA) firstInner
  let l := txs.foldl (insertTx E feePaying rollupId)
    ⟨db, start, [], rootRollupBridgeCallDatas, rootRollupAssetIds, []⟩
  -- Grows the data tree by inserting 0 at last subtree position.
  let l := if txs.length < c.numInnerRollupTxs
    then { l with db := l.db.put .DATA (start + c.innerRollupSize * 2 - 1) 0 } else l
  ({ rollupId
     dataStartIndex := start
     txs
     oldDataRoot := db.trees.root E .DATA
     newDataRoot := l.db.trees.root E .DATA
     oldNullRoot := db.trees.root E .NULL
     newNullRoots := l.newNullRoots
     dataRootsRoot := l.db.trees.root E .ROOT
     newDefiRoot := l.db.trees.root E .DEFI
     bridgeCallDatas := l.rootRollupBridgeCallDatas
     assetIds := l.localAssetIds }, l)

end RollupCreator

/-! ## The rollup aggregator -/

/-- `RootRollup`, as `createRootRollup` fills it. -/
structure RootRollup where
  rollupId : Nat
  rollups : List TxRollup
  rollupSize : Nat
  dataStartIndex : Nat
  oldDataRootsRoot : Nat
  newDataRootsRoot : Nat
  oldDefiRoot : Nat
  newDefiRoot : Nat
  bridgeCallDatas : List Nat
  assetIds : List Nat

/-- The start index is that of the first inner rollup. -/
def RollupAggregator.createRootRollup (c : Config) (rollupId : Nat) (db : WorldStateDb)
    (rollupProofs : List TxRollup) (oldDefiRoot : Nat) (bridgeCallDatas assetIds : List Nat) :
    Option (RootRollup × WorldStateDb) :=
  match rollupProofs with
  | [] => none
  | first :: _ =>
    let oldDataRootsRoot := db.trees.root E .ROOT
    let db := db.put .ROOT (db.getSize .ROOT) (db.trees.root E .DATA)
    let newDataRootsRoot := db.trees.root E .ROOT
    let newDefiRoot := db.trees.root E .DEFI
    let endIndex := first.dataStartIndex + c.outerRollupSize * 2 - 1
    let db := if rollupProofs.length < c.numOuterRollupProofs then db.put .DATA endIndex 0 else db
    some (⟨rollupId, rollupProofs, c.outerRollupSize, first.dataStartIndex, oldDataRootsRoot,
      newDataRootsRoot, oldDefiRoot, newDefiRoot, bridgeCallDatas, assetIds⟩, db)

/-! ## The pipeline -/

/-- Chunks for each inner rollup, of at most `n` transactions; the fuel is the number of them. -/
def chunkTxs (n : Nat) : Nat → List PendingTx → List (List PendingTx)
  | 0, _ => []
  | _ + 1, [] => []
  | fuel + 1, tx :: txs => (tx :: txs).take n :: chunkTxs n fuel ((tx :: txs).drop n)

/-- How far the rollup of a pipeline is. -/
inductive Stage where
  | ready
  /-- With the inner rollups that are created, and the chunks for the others. -/
  | building (bridgeCallDatas assetIds : List Nat) (txRollups : List TxRollup)
      (chunks : List (List PendingTx))
  | publishing (rootRollup : RootRollup)

/-- A pipeline, with the root of the interaction tree from when it was started. -/
structure Pipeline where
  config : Config
  oldDefiRoot : Nat
  stage : Stage

/-- `init` of the pipeline coordinator: the notes of the last interactions. -/
def putDefiNotes (start : Nat) : List DefiInteractionNote → WorldStateDb → WorldStateDb
  | [], db => db
  | note :: notes, db => putDefiNotes (start + 1) notes
    (db.put .DEFI start (E.defiInteractionNoteCommitment note))

/-! ## The world state -/

/-- `WorldState`, with what it reads of the rollup database. -/
structure WorldState where
  worldStateDb : WorldStateDb
  /-- The results of the interactions of the settled rollups. -/
  settled : List (List DefiInteractionNote)
  claims : Table ClaimDao ClaimDao.id
  pipeline : Option Pipeline

/-- The notes and the nullifiers of the transactions, from an index on. -/
def Trees.addTxs : Nat → List InnerProofData → Trees → Trees
  | _, [], ts => ts
  | index, tx :: txs, ts =>
    let ts := (ts.put .DATA index tx.noteCommitment1).put .DATA (index + 1) tx.noteCommitment2
    let ts := if tx.proofId ≠ .PADDING ∧ tx.nullifier1 ≠ 0 then ts.put .NULL tx.nullifier1 1 else ts
    let ts := if tx.proofId ≠ .PADDING ∧ tx.nullifier2 ≠ 0 then ts.put .NULL tx.nullifier2 1 else ts
    Trees.addTxs (index + 2) txs ts

/-- Writes the interaction notes from an index on. -/
def Trees.addDefiNotes : Nat → List Nat → Trees → Trees
  | _, [], ts => ts
  -- the comparison with an empty buffer never skips a note
  | index, note :: notes, ts => Trees.addDefiNotes (index + 1) notes (ts.put .DEFI index note)

/-- The trees with the data of a rollup. -/
def Trees.addRollup (ts : Trees) (rollup : RollupProofData) : Trees :=
  let ts := ts.addTxs rollup.dataStartIndex rollup.innerProofData
  let ts := ts.put .ROOT (rollup.rollupId + 1) (ts.root E .DATA)
  ts.addDefiNotes (rollup.rollupId * RollupProofData.NUM_BRIDGE_CALLS_PER_BLOCK)
    rollup.defiInteractionNotes

namespace WorldState

/-- `addRollupToWorldState`. -/
def addRollupToWorldState (db : WorldStateDb) (rollup : RollupProofData) : WorldStateDb :=
  -- The tree data is immutable, so if it is larger, this data has been inserted before.
  if db.getSize .DATA > rollup.dataStartIndex then db
  else WorldStateDb.commit { db with trees := db.trees.addRollup E rollup }

/-- The roots are those of our trees. -/
def rollupIsOurs (db : WorldStateDb) (rollup : RollupProofData) : Bool :=
  rollup.newDataRoot == db.trees.root E .DATA && rollup.newNullRoot == db.trees.root E .NULL &&
    rollup.newDataRootsRoot == db.trees.root E .ROOT && rollup.newDefiRoot == db.trees.root E .DEFI

/-- The trees after a block: a rollup of ours is committed, another one is written. -/
def updateTrees (db : WorldStateDb) (rollup : RollupProofData) : WorldStateDb :=
  if rollupIsOurs E db rollup then db.commit else addRollupToWorldState E db.rollback rollup

/-- The claim of a defi deposit, the transaction with index `i`. -/
def claimOf (rollup : RollupProofData) (i : Nat) (tx : InnerProofData)
    (data : OffchainDefiDepositData) : ClaimDao :=
  let fee := data.txFee - (data.txFee >>> 1)
  let index := rollup.bridgeCallDatas.findIdx (· == data.bridgeCallData)
  let findIndex : Int := if index = rollup.bridgeCallDatas.length then -1 else index
  let interactionNonce :=
    findIndex + (rollup.rollupId * RollupProofData.NUM_BRIDGE_CALLS_PER_BLOCK : Nat)
  { id := rollup.dataStartIndex + i * 2
    nullifier := E.claimNoteNullifier
      ⟨data.depositValue, data.bridgeCallData, interactionNonce, fee, data.partialState, tx.nullifier1⟩
    bridgeId := data.bridgeCallData
    depositValue := data.depositValue
    partialState := data.partialState
    partialStateSecretEphPubKey := data.partialStateSecretEphPubKey
    inputNullifier := tx.nullifier1
    interactionNonce
    fee
    interactionResultRollupId := none
    claimed := none }

/-- The claims to add, from the transaction with index `i` on; `offchainTxData` is only there for those
that are not padding. -/
def claimsToAdd (rollup : RollupProofData) : Nat → List InnerProofData → List Nat →
    Except String (List ClaimDao)
  | _, [], _ => .ok []
  | i, tx :: txs, offchainTxData =>
    match tx.proofId with
    | .PADDING => claimsToAdd rollup (i + 1) txs offchainTxData
    | .DEFI_DEPOSIT =>
      match offchainTxData.head?.bind E.offchainDefiDepositData with
      | none => .error "Invalid buffer size."
      | some data => (claimsToAdd rollup (i + 1) txs offchainTxData.tail).map
        (claimOf E rollup i tx data :: ·)
    | _ => claimsToAdd rollup (i + 1) txs offchainTxData.tail

/-- The nullifiers of the claims that are settled. -/
def confirmClaimedNullifiers (rollup : RollupProofData) : List Nat :=
  (rollup.innerProofData.filter (·.proofId = .DEFI_CLAIM)).map (·.nullifier1)

/-- `confirmClaimed` keeps the nullifiers by which claims are found. -/
lemma confirmClaimed_id (nullifiers : List Nat) (mined : Nat) (c : ClaimDao) :
    (if nullifiers.contains c.nullifier then { c with claimed := some mined } else c).id = c.id := by
  split <;> rfl

/-- `confirmClaimed` of the database. -/
def confirmClaimed (claims : Table ClaimDao ClaimDao.id) (nullifiers : List Nat) (mined : Nat) :
    Table ClaimDao ClaimDao.id :=
  claims.modify (fun c => if nullifiers.contains c.nullifier then { c with claimed := some mined } else c)
    (confirmClaimed_id nullifiers mined)

/-- `updateClaimsWithResultRollupId` of the database. -/
def updateClaimsWithResultRollupId (claims : Table ClaimDao ClaimDao.id) (interactionNonces : List Nat)
    (rollupId : Nat) : Table ClaimDao ClaimDao.id :=
  claims.modify fun c => if (interactionNonces.map Int.ofNat).contains c.interactionNonce
    then { c with interactionResultRollupId := some rollupId } else c

/-- `processDefiProofs`. -/
def processDefiProofs (claims : Table ClaimDao ClaimDao.id) (b : Block) :
    Except String (Table ClaimDao ClaimDao.id) :=
  -- the claims are added first as some of them may be updated further down
  (claimsToAdd E b.rollup 0 b.rollup.innerProofData b.offchainTxData).map fun toAdd =>
    updateClaimsWithResultRollupId
      (confirmClaimed (toAdd.foldl RollupDb.saveClaim claims) (confirmClaimedNullifiers b.rollup) b.mined)
      (b.interactionResult.map (·.nonce)) b.rollup.rollupId

/-- `getNextRollupId`. -/
def getNextRollupId (s : WorldState) : Nat := s.settled.length

/-- `updateDbs`. Only the next rollup is taken. -/
def updateDbs (s : WorldState) (b : Block) : Except String WorldState :=
  if b.rollup.rollupId ≠ s.getNextRollupId then .ok s
  else (processDefiProofs E s.claims b).map fun claims =>
    { s with
      worldStateDb := updateTrees E s.worldStateDb b.rollup
      claims
      settled := s.settled ++ [b.interactionResult] }

end WorldState

/-! ## Falafel and the chain -/

/-- The leaves of a rollup, as the contract computes them. -/
def numDataLeaves (rollupSize : Nat) : BitVec 32 := BitVec.ofNat 32 (rollupSize * 2)

/-- The size of the data tree in the contract, after rollups. -/
def datasize (chain : List Block) : BitVec 32 :=
  chain.foldl (fun stored b => Contract.nextBoundary stored (numDataLeaves b.rollup.rollupSize) +
    numDataLeaves b.rollup.rollupSize) 0

/-- Where the contract requires that the next rollup starts. -/
def requiredStartIndex (chain : List Block) (rollupSize : Nat) : Nat :=
  (Contract.nextBoundary (datasize chain) (numDataLeaves rollupSize)).toNat

/-- The rollups of the chain are added to empty trees. -/
def replay (chain : List Block) : Trees :=
  chain.foldl (fun ts b => ts.addRollup E b.rollup) (Trees.empty E)

/-- The contract accepts the rollup: it is the next one, starts where its subtree has to, and is proven
for the trees of the rollups before. -/
structure Accepts (chain : List Block) (b : Block) : Prop where
  rollupId : b.rollup.rollupId = chain.length
  numDataLeaves : Falafel.numDataLeaves b.rollup.rollupSize ≠ 0
  dataStartIndex : b.rollup.dataStartIndex = requiredStartIndex chain b.rollup.rollupSize
  rollupSize : b.rollup.innerProofData.length = b.rollup.rollupSize
  newDataRoot : b.rollup.newDataRoot = (replay E (chain ++ [b])).root E .DATA
  newNullRoot : b.rollup.newNullRoot = (replay E (chain ++ [b])).root E .NULL
  newDataRootsRoot : b.rollup.newDataRootsRoot = (replay E (chain ++ [b])).root E .ROOT
  newDefiRoot : b.rollup.newDefiRoot = (replay E (chain ++ [b])).root E .DEFI

instance (chain : List Block) (b : Block) : Decidable (Accepts E chain b) :=
  decidable_of_iff
    (b.rollup.rollupId = chain.length ∧ Falafel.numDataLeaves b.rollup.rollupSize ≠ 0 ∧
      b.rollup.dataStartIndex = requiredStartIndex chain b.rollup.rollupSize ∧
      b.rollup.innerProofData.length = b.rollup.rollupSize ∧
      b.rollup.newDataRoot = (replay E (chain ++ [b])).root E .DATA ∧
      b.rollup.newNullRoot = (replay E (chain ++ [b])).root E .NULL ∧
      b.rollup.newDataRootsRoot = (replay E (chain ++ [b])).root E .ROOT ∧
      b.rollup.newDefiRoot = (replay E (chain ++ [b])).root E .DEFI)
    ⟨fun ⟨h₁, h₂, h₃, h₄, h₅, h₆, h₇, h₈⟩ => ⟨h₁, h₂, h₃, h₄, h₅, h₆, h₇, h₈⟩,
      fun ⟨h₁, h₂, h₃, h₄, h₅, h₆, h₇, h₈⟩ => ⟨h₁, h₂, h₃, h₄, h₅, h₆, h₇, h₈⟩⟩

/-- The chain and falafel. -/
structure System where
  /-- The blocks that falafel has handled. -/
  chain : List Block
  worldState : WorldState

namespace System

/-- What happens in the system. -/
inductive Action where
  /-- `handleBlock`, which stops the pipeline. -/
  | handleBlock (b : Block)
  | startNewPipeline (config : Config)
  /-- The rollup coordinator has selected transactions. -/
  | startRollup (txs : List PendingTx) (bridgeCallDatas assetIds : List Nat)
  | createRollup
  | aggregateRollupProofs
  /-- Publish failed. Contract state changed underfoot. -/
  | publishFailed
  /-- `restartPipeline`, or falafel is started again. -/
  | restart

/-- The trees are empty. -/
def init : System where
  chain := []
  worldState := ⟨⟨Trees.empty E, Trees.empty E⟩, [], .empty, none⟩

variable (feePaying : Nat → Bool)

/-- A step of the pipeline. -/
def pipelineStep (s : WorldState) (p : Pipeline) : Action → Option WorldState
  | .startRollup txs bridgeCallDatas assetIds =>
    match p.stage with
    | .ready =>
      let chunks := chunkTxs p.config.numInnerRollupTxs txs.length txs
      if txs ≠ [] ∧ txs.length ≤ p.config.totalSlots
      then some { s with pipeline := some { p with stage := .building bridgeCallDatas assetIds [] chunks } }
      else none
    | _ => none
  | .createRollup =>
    match p.stage with
    | .building bridgeCallDatas assetIds txRollups (chunk :: chunks) =>
      let (txRollup, l) := RollupCreator.createRollup E feePaying p.config s.getNextRollupId
        s.worldStateDb chunk bridgeCallDatas assetIds txRollups.isEmpty
      let stage := .building l.rootRollupBridgeCallDatas l.rootRollupAssetIds (txRollups ++ [txRollup])
        chunks
      some { s with worldStateDb := l.db, pipeline := some { p with stage } }
    | _ => none
  | .aggregateRollupProofs =>
    match p.stage with
    | .building bridgeCallDatas assetIds txRollups [] =>
      (RollupAggregator.createRootRollup E p.config s.getNextRollupId s.worldStateDb txRollups
        p.oldDefiRoot bridgeCallDatas assetIds).map fun (rootRollup, db) =>
          { s with worldStateDb := db, pipeline := some { p with stage := .publishing rootRollup } }
    | _ => none
  | .publishFailed =>
    match p.stage with
    | .publishing _ => some { s with pipeline := some { p with stage := .ready } }
    | _ => none
  | _ => none

/-- One step of the system; `none` if it cannot happen. -/
def step (s : System) : Action → Option System
  | .handleBlock b =>
    if Accepts E s.chain b then
      match WorldState.updateDbs E s.worldState b with
      | .error _ => none
      | .ok w => some ⟨s.chain ++ [b], { w with pipeline := none }⟩
    else none
  | .startNewPipeline config =>
    match s.worldState.pipeline with
    | some _ => none
    | none =>
      let w := s.worldState
      let start := w.getNextRollupId * RollupProofData.NUM_BRIDGE_CALLS_PER_BLOCK
      some { s with worldState := { w with
        worldStateDb := putDefiNotes E start (w.settled.getLast?.getD []) w.worldStateDb
        pipeline := some ⟨config, w.worldStateDb.trees.root E .DEFI, .ready⟩ } }
  | .restart => some { s with worldState := { s.worldState with
      worldStateDb := s.worldState.worldStateDb.rollback
      pipeline := none } }
  | a =>
    match s.worldState.pipeline with
    | none => none
    | some p => (pipelineStep E feePaying s.worldState p a).map fun w => { s with worldState := w }

end System

end AztecConnect.Falafel
