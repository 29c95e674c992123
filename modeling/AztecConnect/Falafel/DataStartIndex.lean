import AztecConnect.Circuit.RootRollup
import AztecConnect.Falafel.WorldState

/-!
# Where rollups start

The rollup creator, the root rollup circuit and the contract compute the start of an inner rollup from
different sizes. They agree, and the trees of falafel hold the leaves of every rollup where the contract
has them, as long as the rollups that falafel builds fill their subtrees (`trees_aligned`); a full rollup
whose sizes are no powers of two does not (`trees_unaligned`).
-/

namespace AztecConnect.Falafel

open Contract (nextMultiple)

/-! ## Rounding -/

/-- The next multiple is the only one within one step. -/
lemma nextMultiple_eq {size m a : Nat} (hdvd : m ∣ a) (hle : size ≤ a) (hlt : a < size + m) :
    nextMultiple size m = a := by
  obtain ⟨k, rfl⟩ := hdvd
  have hm : 0 < m := by omega
  unfold nextMultiple
  split
  case isTrue hzero =>
    obtain ⟨j, rfl⟩ := Nat.dvd_of_mod_eq_zero hzero
    have hj : k < j + 1 := Nat.lt_of_mul_lt_mul_left (a := m) (by rw [Nat.mul_add, Nat.mul_one]; exact hlt)
    have hk : j ≤ k := Nat.le_of_mul_le_mul_left hle hm
    rw [Nat.le_antisymm hk (Nat.lt_succ_iff.mp hj)]
  case isFalse hne =>
    have hsplit := Nat.div_add_mod size m
    have hmod := Nat.mod_lt size hm
    have hpos := Nat.pos_of_ne_zero hne
    have hlow : size / m < k := by
      refine Nat.lt_of_mul_lt_mul_left (a := m) ?_
      omega
    have hhigh : k < size / m + 2 := by
      refine Nat.lt_of_mul_lt_mul_left (a := m) ?_
      rw [Nat.mul_add]
      omega
    have hk : k = size / m + 1 := by omega
    rw [hk, Nat.mul_add, Nat.mul_one]
    omega

/-- A larger size has no smaller next multiple. -/
lemma nextMultiple_mono {a b m : Nat} (hm : 0 < m) (h : a ≤ b) : nextMultiple a m ≤ nextMultiple b m := by
  by_contra hlt
  have hstart := Contract.le_nextMultiple b hm
  obtain ⟨k, hk⟩ := Contract.dvd_nextMultiple b m
  obtain ⟨j, hj⟩ := Contract.dvd_nextMultiple a m
  have hnext : nextMultiple a m < a + m := by
    unfold nextMultiple
    split
    case isTrue => omega
    case isFalse hne =>
      have := Nat.mod_le a m
      omega
  have hkj : k < j := by
    refine Nat.lt_of_mul_lt_mul_left (a := m) ?_
    omega
  have hstep : m * (k + 1) ≤ m * j := Nat.mul_le_mul_left m hkj
  rw [Nat.mul_add, Nat.mul_one] at hstep
  omega

/-! ## Sizes of rollups -/

namespace Config

variable (c : Config)

/-- The size of an inner rollup is the next power of two. -/
lemma innerRollupSize_eq : c.innerRollupSize = 2 ^ Nat.clog 2 c.numInnerRollupTxs := by
  rw [innerRollupSize, Nat.shiftLeft_eq, Nat.one_mul]

/-- So is that of the root rollup. -/
lemma outerRollupSize_eq :
    c.outerRollupSize = 2 ^ Nat.clog 2 (c.innerRollupSize * c.numOuterRollupProofs) := by
  rw [outerRollupSize, Nat.shiftLeft_eq, Nat.one_mul]

/-- An inner rollup has slots. -/
lemma innerRollupSize_pos : 0 < c.innerRollupSize := by
  rw [innerRollupSize_eq]
  exact Nat.two_pow_pos _

/-- A root rollup has slots. -/
lemma outerRollupSize_pos : 0 < c.outerRollupSize := by
  rw [outerRollupSize_eq]
  exact Nat.two_pow_pos _

/-- The transactions of an inner rollup fit. -/
lemma numInnerRollupTxs_le : c.numInnerRollupTxs ≤ c.innerRollupSize := by
  rw [innerRollupSize_eq]
  exact Nat.le_pow_clog (by decide) _

/-- The inner rollups fit into the root rollup. -/
lemma inner_le_outer : c.numOuterRollupProofs * c.innerRollupSize ≤ c.outerRollupSize := by
  rw [outerRollupSize_eq, Nat.mul_comm]
  exact Nat.le_pow_clog (by decide) _

/-- The size of an inner rollup divides that of the root rollup. -/
lemma inner_dvd_outer (h : 0 < c.numOuterRollupProofs) : c.innerRollupSize ∣ c.outerRollupSize := by
  rw [outerRollupSize_eq, innerRollupSize_eq]
  refine Nat.pow_dvd_pow 2 ?_
  rw [← Nat.clog_pow 2 (Nat.clog 2 c.numInnerRollupTxs) (by decide)]
  refine Nat.clog_mono_right 2 ?_
  rw [Nat.clog_pow 2 _ (by decide)]
  exact Nat.le_mul_of_pos_right _ h

end Config

/-- The circuits round in the same way. -/
lemma rollupSizePow2_eq {n : Nat} (h : 0 < n) : Circuit.rollupSizePow2 n = 2 ^ Nat.clog 2 n := by
  have hle : 2 ^ n.log2 ≤ n := Nat.log2_self_le (Nat.ne_of_gt h)
  have hlt : n < 2 ^ (n.log2 + 1) := Nat.lt_log2_self
  unfold Circuit.rollupSizePow2
  rw [Nat.shiftLeft_eq, Nat.shiftLeft_eq, Nat.one_mul]
  by_cases heq : n = 2 ^ n.log2
  · have hfalse : (n != 2 ^ n.log2) = false := bne_eq_false_iff_eq.mpr heq
    have hclog : Nat.clog 2 n = n.log2 := by
      conv_lhs => rw [heq]
      exact Nat.clog_pow 2 _ (by decide)
    rw [hfalse, hclog]
    exact Nat.mul_one _
  · have htrue : (n != 2 ^ n.log2) = true := bne_iff_ne.mpr heq
    have hclog : Nat.clog 2 n = n.log2 + 1 :=
      Nat.le_antisymm ((Nat.clog_le_iff_le_pow (by decide)).mpr hlt.le)
        ((Nat.lt_clog_iff_pow_lt (by decide)).mpr (Nat.lt_of_le_of_ne hle (Ne.symm heq)))
    rw [htrue, hclog, Nat.pow_succ]
    rfl

/-- The size is the one with which the circuit pads. -/
lemma Config.innerRollupSize_eq_circuit {c : Config} (h : 0 < c.numInnerRollupTxs) :
    Circuit.rollupSizePow2 c.numInnerRollupTxs = c.innerRollupSize := by
  rw [rollupSizePow2_eq h, c.innerRollupSize_eq]

/-! ## Creating rollups -/

namespace RollupCreator

variable {E : WorldStateEnv} {feePaying : Nat → Bool} {c : Config} {rollupId : Nat} {l : Loop}

/-- What the loop does to the trees, for `n` transactions. -/
structure Inserted (l l' : Loop) (n : Nat) : Prop where
  committed : l'.db.committed = l.db.committed
  root : l'.db.trees .ROOT = l.db.trees .ROOT
  nextDataIndex : l'.nextDataIndex = l.nextDataIndex + n * 2
  size : (l'.db.trees .DATA).size =
    if n = 0 then (l.db.trees .DATA).size else l.nextDataIndex + n * 2

/-- The notes of a transaction take the next two leaves. -/
lemma insertNotes_spec (tx : PendingTx) (h : (l.db.trees .DATA).size ≤ l.nextDataIndex) :
    Inserted l (insertNotes E rollupId l tx) 1 := by
  have hsize (v v' : Nat) : (((l.db.put .DATA l.nextDataIndex v).put .DATA
      (l.nextDataIndex + 1) v').trees .DATA).size = l.nextDataIndex + 1 * 2 := by
    rw [WorldStateDb.put_self, WorldStateDb.put_self]
    dsimp only
    omega
  have hroot (v v' : Nat) : ((l.db.put .DATA l.nextDataIndex v).put .DATA
      (l.nextDataIndex + 1) v').trees .ROOT = l.db.trees .ROOT := by
    rw [WorldStateDb.put_of_ne _ _ _ (by decide), WorldStateDb.put_of_ne _ _ _ (by decide)]
  unfold insertNotes
  dsimp only
  split
  case isTrue => exact ⟨rfl, hroot _ _, rfl, hsize _ _⟩
  case isFalse => exact ⟨rfl, hroot _ _, rfl, hsize _ _⟩

/-- A nullifier takes no leaf of the data tree. -/
lemma insertNullifier_spec (nullifier : Nat) : Inserted l (insertNullifier E l nullifier) 0 := by
  unfold insertNullifier
  dsimp only
  split
  case isTrue =>
    exact ⟨rfl, WorldStateDb.put_of_ne _ _ _ (by decide), rfl,
      congrArg MerkleTree.size (WorldStateDb.put_of_ne _ _ _ (by decide))⟩
  case isFalse => exact ⟨rfl, rfl, rfl, rfl⟩

/-- Insertions add up. -/
lemma Inserted.trans {l₁ l₂ l₃ : Loop} {m n : Nat} (h : Inserted l₁ l₂ m) (h' : Inserted l₂ l₃ n) :
    Inserted l₁ l₃ (m + n) := by
  refine ⟨h'.committed.trans h.committed, h'.root.trans h.root, ?_, ?_⟩
  · rw [h'.nextDataIndex, h.nextDataIndex]
    omega
  · rw [h'.size, h.size, h.nextDataIndex]
    split_ifs <;> omega

/-- A transaction takes the next two leaves. -/
lemma insertTx_spec (tx : PendingTx) (h : (l.db.trees .DATA).size ≤ l.nextDataIndex) :
    Inserted l (insertTx E feePaying rollupId l tx) 1 := by
  have hasset : Inserted l (addAsset feePaying l tx) 0 ∧
      ((addAsset feePaying l tx).db.trees .DATA).size ≤ (addAsset feePaying l tx).nextDataIndex := by
    unfold addAsset
    split
    case isTrue => exact ⟨⟨rfl, rfl, rfl, rfl⟩, h⟩
    case isFalse => exact ⟨⟨rfl, rfl, rfl, rfl⟩, h⟩
  exact ((hasset.1.trans (insertNotes_spec tx hasset.2)).trans (insertNullifier_spec _)).trans
    (insertNullifier_spec _)

/-- A list of transactions takes two leaves for each. -/
lemma insertTxs_spec (txs : List PendingTx) (h : (l.db.trees .DATA).size ≤ l.nextDataIndex) :
    Inserted l (txs.foldl (insertTx E feePaying rollupId) l) txs.length := by
  induction txs generalizing l with
  | nil => exact ⟨rfl, rfl, rfl, rfl⟩
  | cons tx txs ih =>
    have hone : Inserted l (insertTx E feePaying rollupId l tx) 1 := insertTx_spec tx h
    have hle : ((insertTx E feePaying rollupId l tx).db.trees .DATA).size ≤
        (insertTx E feePaying rollupId l tx).nextDataIndex := by
      rw [hone.size, hone.nextDataIndex]
      exact Nat.le_refl _
    rw [List.foldl_cons, List.length_cons, Nat.add_comm]
    exact hone.trans (ih hle)

/-- `dataStartIndex` is the next multiple of the subtree that is started. -/
lemma dataStartIndex_eq (c : Config) (dataSize : Nat) (firstInner : Bool) :
    dataStartIndex c dataSize firstInner =
      nextMultiple dataSize (if firstInner then c.outerRollupSize * 2 else c.innerRollupSize * 2) := rfl

/-- A rollup of transactions grows the data tree to the end of its subtree, unless it is full. -/
structure Created (c : Config) (db : WorldStateDb) (numTxs start : Nat) (r : TxRollup) (l : Loop) :
    Prop where
  committed : l.db.committed = db.committed
  root : l.db.trees .ROOT = db.trees .ROOT
  dataStartIndex : r.dataStartIndex = start
  size : (l.db.trees .DATA).size =
    start + if numTxs < c.numInnerRollupTxs then c.innerRollupSize * 2 else numTxs * 2

/-- An inner rollup inserts the notes of its transactions from its start index on. -/
lemma createRollup_spec (db : WorldStateDb) (txs : List PendingTx) (bridgeCallDatas assetIds : List Nat)
    (firstInner : Bool) (hne : txs ≠ []) :
    Created c db txs.length (dataStartIndex c (db.getSize .DATA) firstInner)
      (createRollup E feePaying c rollupId db txs bridgeCallDatas assetIds firstInner).1
      (createRollup E feePaying c rollupId db txs bridgeCallDatas assetIds firstInner).2 := by
  have hpos : 0 < txs.length := List.length_pos_of_ne_nil hne
  have hinner := c.numInnerRollupTxs_le
  have hstart : (db.trees .DATA).size ≤ dataStartIndex c (db.getSize .DATA) firstInner := by
    rw [dataStartIndex_eq]
    refine Contract.le_nextMultiple _ ?_
    split
    · exact Nat.mul_pos c.outerRollupSize_pos (by decide)
    · exact Nat.mul_pos c.innerRollupSize_pos (by decide)
  have hloop : Inserted _ (txs.foldl (insertTx E feePaying rollupId)
      ⟨db, dataStartIndex c (db.getSize .DATA) firstInner, [], bridgeCallDatas, assetIds, []⟩)
        txs.length := insertTxs_spec txs hstart
  have hsize := hloop.size
  rw [if_neg (Nat.ne_of_gt hpos)] at hsize
  unfold createRollup
  dsimp only
  split
  case isTrue hlt =>
    refine ⟨hloop.committed, ?_, rfl, ?_⟩
    · rw [WorldStateDb.put_of_ne _ _ _ (by decide)]
      exact hloop.root
    · rw [WorldStateDb.put_self, hsize, if_pos hlt]
      dsimp only
      omega
  case isFalse hge => exact ⟨hloop.committed, hloop.root, rfl, by rw [hsize, if_neg hge]⟩

end RollupCreator

/-! ## What a rollup is built of -/

/-- The first inner rollup takes the first transactions, the rest follows. -/
lemma chunkTxs_cons {n fuel : Nat} {txs chunk : List PendingTx} {chunks : List (List PendingTx)}
    (hfuel : txs.length ≤ fuel) (h : chunkTxs n fuel txs = chunk :: chunks) :
    chunk = txs.take n ∧ txs ≠ [] ∧ ∃ fuel', fuel = fuel' + 1 ∧ chunks = chunkTxs n fuel' (txs.drop n) := by
  cases fuel with
  | zero => nomatch h
  | succ fuel =>
    cases txs with
    | nil => nomatch h
    | cons tx txs =>
      cases h
      exact ⟨rfl, nofun, fuel, rfl, rfl⟩

/-- The size of the data tree after `k` inner rollups of `n` transactions. -/
def builtSize (c : Config) (start n k : Nat) : Nat :=
  start + (k - 1) * (c.innerRollupSize * 2) +
    if n < k * c.numInnerRollupTxs then c.innerRollupSize * 2 else c.numInnerRollupTxs * 2

/-- The inner rollups are one after another from a start on. -/
structure Built (c : Config) (start n : Nat) (txRollups : List TxRollup) (size : Nat) : Prop where
  ne_nil : txRollups ≠ []
  starts : ∀ i r, txRollups[i]? = some r → r.dataStartIndex = start + i * (c.innerRollupSize * 2)
  more : (txRollups.length - 1) * c.numInnerRollupTxs < n
  size : size = builtSize c start n txRollups.length

section

variable {c : Config} {start n size : Nat} {txRollups : List TxRollup} {r : TxRollup}

/-- The first inner rollup. -/
lemma Built.single (hstart : r.dataStartIndex = start) (hn : 0 < n)
    (hsize : size = start + if n < c.numInnerRollupTxs then c.innerRollupSize * 2
      else c.numInnerRollupTxs * 2) : Built c start n [r] size where
  ne_nil := nofun
  starts i r' h := by
    cases i with
    | zero =>
      cases h
      rw [hstart, Nat.zero_mul, Nat.add_zero]
    | succ i => nomatch h
  more := by
    rw [List.length_singleton, Nat.sub_self, Nat.zero_mul]
    exact hn
  size := by
    rw [hsize, builtSize, List.length_singleton, Nat.sub_self, Nat.zero_mul, Nat.add_zero, Nat.one_mul]

/-- Another inner rollup starts at the end of the subtree of the one before. -/
lemma Built.next (h : Built c start n txRollups size) (hstart : c.innerRollupSize * 2 ∣ start)
    (hpos : 0 < c.numInnerRollupTxs) (hmore : txRollups.length * c.numInnerRollupTxs < n) :
    nextMultiple size (c.innerRollupSize * 2) =
      start + txRollups.length * (c.innerRollupSize * 2) := by
  have hlength : 0 < txRollups.length := List.length_pos_of_ne_nil h.ne_nil
  have hinner := c.numInnerRollupTxs_le
  obtain ⟨k, hk⟩ : ∃ k, txRollups.length = k + 1 := ⟨txRollups.length - 1, by omega⟩
  have hsize := h.size
  rw [builtSize, if_neg (Nat.not_lt.mpr hmore.le), hk, Nat.add_sub_cancel] at hsize
  rw [hk]
  refine nextMultiple_eq (Nat.dvd_add hstart (Nat.dvd_mul_left _ _)) ?_ ?_
  · rw [hsize, Nat.add_mul]
    omega
  · rw [hsize, Nat.add_mul]
    omega

/-- One more inner rollup continues where the others stop. -/
lemma Built.snoc (h : Built c start n txRollups size)
    (hmore : txRollups.length * c.numInnerRollupTxs < n)
    (hstart : r.dataStartIndex = start + txRollups.length * (c.innerRollupSize * 2)) {size' : Nat}
    (hsize : size' = start + txRollups.length * (c.innerRollupSize * 2) +
      if n < (txRollups.length + 1) * c.numInnerRollupTxs then c.innerRollupSize * 2
      else c.numInnerRollupTxs * 2) : Built c start n (txRollups ++ [r]) size' where
  ne_nil := List.append_ne_nil_of_right_ne_nil _ nofun
  starts i r' hr' := by
    rcases Nat.lt_or_ge i txRollups.length with hlt | hge
    · rw [List.getElem?_append_left hlt] at hr'
      exact h.starts i r' hr'
    · rw [List.getElem?_append_right hge] at hr'
      obtain ⟨hi, rfl⟩ : i = txRollups.length ∧ r' = r := by
        cases hi : i - txRollups.length with
        | zero =>
          rw [hi] at hr'
          cases hr'
          exact ⟨by omega, rfl⟩
        | succ j =>
          rw [hi] at hr'
          nomatch hr'
      rw [hi, hstart]
  more := by
    rw [List.length_append, List.length_singleton, Nat.add_sub_cancel]
    exact hmore
  size := by
    rw [hsize, builtSize, List.length_append, List.length_singleton, Nat.add_sub_cancel]

/-- The inner rollups are in the subtree of the root rollup. -/
lemma Built.size_le (h : Built c start n txRollups size)
    (hlength : txRollups.length ≤ c.numOuterRollupProofs) :
    start ≤ size ∧ size ≤ start + c.outerRollupSize * 2 := by
  have hpos : 0 < txRollups.length := List.length_pos_of_ne_nil h.ne_nil
  obtain ⟨k, hk⟩ : ∃ k, txRollups.length = k + 1 := ⟨txRollups.length - 1, by omega⟩
  have hinner := c.numInnerRollupTxs_le
  have houter := c.inner_le_outer
  have hmul : (k + 1) * c.innerRollupSize ≤ c.numOuterRollupProofs * c.innerRollupSize :=
    Nat.mul_le_mul_right _ (hk ▸ hlength)
  rw [Nat.add_mul, Nat.one_mul] at hmul
  have hsize := h.size
  rw [builtSize, hk, Nat.add_sub_cancel, ← Nat.mul_assoc] at hsize
  split at hsize <;> omega

end

/-! ## The stages of the pipeline -/

/-- Nothing is built: the data tree and the tree of its roots are as committed. -/
structure Fresh (db : WorldStateDb) : Prop where
  data : db.trees .DATA = db.committed .DATA
  root : db.trees .ROOT = db.committed .ROOT

/-- Where the first inner rollup starts. -/
def startOf (c : Config) (db : WorldStateDb) : Nat :=
  nextMultiple (db.committed .DATA).size (c.outerRollupSize * 2)

/-- Some chunks of `n` transactions are inner rollups. -/
structure Building (c : Config) (db : WorldStateDb) (n : Nat) (txRollups : List TxRollup)
    (chunks : List (List PendingTx)) : Prop where
  slots : n ≤ c.totalSlots
  pos : 0 < n
  root : db.trees .ROOT = db.committed .ROOT
  chunks : ∃ fuel rest, chunks = chunkTxs c.numInnerRollupTxs fuel rest ∧ rest.length ≤ fuel ∧
    rest.length = n - txRollups.length * c.numInnerRollupTxs
  built : txRollups = [] ∧ db.trees .DATA = db.committed .DATA ∨
    Built c (startOf c db) n txRollups (db.getSize .DATA)

/-- All of `n` transactions are in inner rollups, and the root rollup grows the tree unless it is
full. -/
structure Aggregated (c : Config) (db : WorldStateDb) (n : Nat) (rootRollup : RootRollup) : Prop where
  dataStartIndex : rootRollup.dataStartIndex = startOf c db
  length : rootRollup.rollups.length ≤ c.numOuterRollupProofs
  slots : n ≤ c.totalSlots
  all : n ≤ rootRollup.rollups.length * c.numInnerRollupTxs
  built : ∃ size, Built c (startOf c db) n rootRollup.rollups size ∧
    db.getSize .DATA = if rootRollup.rollups.length < c.numOuterRollupProofs
      then startOf c db + c.outerRollupSize * 2 else size

/-- The tree does not grow past the subtree of the root rollup. -/
lemma Aggregated.size_le {c : Config} {db : WorldStateDb} {n : Nat} {rootRollup : RootRollup}
    (h : Aggregated c db n rootRollup) : db.getSize .DATA ≤ startOf c db + c.outerRollupSize * 2 := by
  obtain ⟨size, hbuilt, hsize⟩ := h.built
  rw [hsize]
  split
  case isTrue => exact Nat.le_refl _
  case isFalse => exact (hbuilt.size_le h.length).2

/-- The rollup of `n` transactions fills its subtree: not all inner rollups are there, or the inner
rollups fill it, and the last of them is filled or grown. -/
def Config.Fills (c : Config) (n : Nat) : Prop :=
  n ≤ (c.numOuterRollupProofs - 1) * c.numInnerRollupTxs ∨
    c.numOuterRollupProofs * c.innerRollupSize = c.outerRollupSize ∧
      (c.numInnerRollupTxs = c.innerRollupSize ∨ n < c.numOuterRollupProofs * c.numInnerRollupTxs)

/-- It grows to the end of that subtree if the transactions fill it. -/
lemma Aggregated.size_eq {c : Config} {db : WorldStateDb} {n : Nat} {rootRollup : RootRollup}
    (h : Aggregated c db n rootRollup) (hfills : c.Fills n) :
    db.getSize .DATA = startOf c db + c.outerRollupSize * 2 := by
  obtain ⟨size, hbuilt, hsize⟩ := h.built
  rw [hsize]
  split
  case isTrue => rfl
  case isFalse hge =>
    have hlength : rootRollup.rollups.length = c.numOuterRollupProofs :=
      Nat.le_antisymm h.length (Nat.not_lt.mp hge)
    have hmore := hbuilt.more
    rw [hlength] at hmore
    have hpos : 0 < c.numOuterRollupProofs := hlength ▸ List.length_pos_of_ne_nil hbuilt.ne_nil
    obtain ⟨houter, hinner⟩ := hfills.resolve_left (Nat.not_le.mpr hmore)
    have hlast : (if n < c.numOuterRollupProofs * c.numInnerRollupTxs then c.innerRollupSize * 2
        else c.numInnerRollupTxs * 2) = c.innerRollupSize * 2 := by
      split
      case isTrue => rfl
      case isFalse hfull => rw [hinner.resolve_right hfull]
    obtain ⟨k, hk⟩ : ∃ k, c.numOuterRollupProofs = k + 1 := ⟨c.numOuterRollupProofs - 1, by omega⟩
    rw [hbuilt.size, builtSize, hlength, hlast, ← houter, hk, Nat.add_sub_cancel, ← Nat.mul_assoc,
      Nat.add_mul]
    omega

/-- What is built in a stage, of a number of transactions that satisfies `F`. -/
def StageInv (F : Config → Nat → Prop) (db : WorldStateDb) (p : Pipeline) : Prop :=
  match p.stage with
  | .ready => Fresh db ∨ ∃ n rootRollup, F p.config n ∧ Aggregated p.config db n rootRollup
  | .building _ _ txRollups chunks => ∃ n, F p.config n ∧ Building p.config db n txRollups chunks
  | .publishing rootRollup => ∃ n, F p.config n ∧ Aggregated p.config db n rootRollup

/-- What the trees hold at every stage of the pipeline; they are fresh while there is none. -/
def PipelineInv (F : Config → Nat → Prop) (w : WorldState) : Prop :=
  match w.pipeline with
  | none => Fresh w.worldStateDb
  | some p => StageInv F w.worldStateDb p

section

variable {E : WorldStateEnv} {feePaying : Nat → Bool} {F : Config → Nat → Prop} {w w' : WorldState}
  {p : Pipeline}

/-- Transactions that fit have inner rollups with slots. -/
lemma totalSlots_pos {c : Config} {n : Nat} (hpos : 0 < n) (hslots : n ≤ c.totalSlots) :
    0 < c.numOuterRollupProofs ∧ 0 < c.numInnerRollupTxs := by
  have hmul : 0 < c.numOuterRollupProofs * c.numInnerRollupTxs := hpos.trans_le hslots
  exact ⟨Nat.pos_of_mul_pos_right hmul, Nat.pos_of_mul_pos_left hmul⟩

/-- An inner rollup is created. -/
lemma Building.createRollup {c : Config} {db : WorldStateDb} {n rollupId : Nat}
    {txRollups : List TxRollup} {chunk : List PendingTx} {chunks : List (List PendingTx)}
    {bridgeCallDatas assetIds : List Nat} {r : TxRollup} {l : RollupCreator.Loop}
    (h : Building c db n txRollups (chunk :: chunks))
    (heq : RollupCreator.createRollup E feePaying c rollupId db chunk bridgeCallDatas assetIds
      txRollups.isEmpty = (r, l)) :
    Building c l.db n (txRollups ++ [r]) chunks ∧ l.db.committed = db.committed := by
  obtain ⟨hslots, hpos, hroot, ⟨fuel, rest, hchunks, hfuel, hrest⟩, hbuilt⟩ := h
  obtain ⟨houterPos, hinnerPos⟩ := totalSlots_pos hpos hslots
  obtain ⟨hchunk, hne, fuel', rfl, hchunks'⟩ := chunkTxs_cons hfuel hchunks.symm
  have hrestPos : 0 < rest.length := List.length_pos_of_ne_nil hne
  have hlength : chunk.length = min c.numInnerRollupTxs rest.length := by
    rw [hchunk, List.length_take]
  have hchunkNe : chunk ≠ [] := List.ne_nil_of_length_pos (by omega)
  have hcreated : RollupCreator.Created c db chunk.length _
      (RollupCreator.createRollup E feePaying c rollupId db chunk bridgeCallDatas assetIds
        txRollups.isEmpty).1 _ := RollupCreator.createRollup_spec db chunk _ _ _ hchunkNe
  rw [heq] at hcreated
  obtain ⟨hcommitted, hroot', hstart, hsize⟩ := hcreated
  have hstartOf : startOf c l.db = startOf c db := by rw [startOf, hcommitted, startOf]
  have hgrown : (if chunk.length < c.numInnerRollupTxs then c.innerRollupSize * 2
      else chunk.length * 2) = if n < (txRollups.length + 1) * c.numInnerRollupTxs
        then c.innerRollupSize * 2 else c.numInnerRollupTxs * 2 := by
    rw [Nat.add_mul, Nat.one_mul]
    split_ifs <;> omega
  rw [hgrown] at hsize
  refine ⟨⟨hslots, hpos, hroot'.trans (hcommitted ▸ hroot), ⟨fuel', rest.drop c.numInnerRollupTxs,
    hchunks', ?_, ?_⟩, .inr ?_⟩, hcommitted⟩
  · rw [List.length_drop]
    omega
  · rw [List.length_drop, List.length_append, List.length_singleton, Nat.add_mul, Nat.one_mul]
    omega
  · rw [hstartOf]
    rcases hbuilt with ⟨rfl, hdata⟩ | hbuilt
    · have hfirst : RollupCreator.dataStartIndex c (db.getSize .DATA) true = startOf c db := by
        rw [RollupCreator.dataStartIndex_eq, WorldStateDb.getSize, hdata]
        rfl
      rw [List.isEmpty_nil, hfirst] at hstart hsize
      rw [List.length_nil, Nat.zero_add, Nat.one_mul] at hsize
      exact Built.single hstart hpos hsize
    · have hdvd : c.innerRollupSize * 2 ∣ startOf c db :=
        (Nat.mul_dvd_mul_right (c.inner_dvd_outer houterPos) 2).trans (Contract.dvd_nextMultiple _ _)
      have hmore : txRollups.length * c.numInnerRollupTxs < n := by omega
      have hnext : RollupCreator.dataStartIndex c (db.getSize .DATA) false =
          startOf c db + txRollups.length * (c.innerRollupSize * 2) :=
        hbuilt.next hdvd hinnerPos hmore
      have hfalse : txRollups.isEmpty = false := List.isEmpty_eq_false_iff.mpr hbuilt.ne_nil
      rw [hfalse, hnext] at hstart hsize
      exact hbuilt.snoc hmore hstart hsize

/-- Only no transactions make no inner rollups. -/
lemma chunkTxs_nil {n fuel : Nat} {txs : List PendingTx} (hfuel : txs.length ≤ fuel)
    (h : chunkTxs n fuel txs = []) : txs = [] := by
  cases txs with
  | nil => rfl
  | cons tx txs =>
    cases fuel with
    | zero => exact absurd hfuel (Nat.not_succ_le_zero _)
    | succ fuel => nomatch h

/-- The root rollup is created. -/
lemma Building.aggregate {c : Config} {db db' : WorldStateDb} {n rollupId oldDefiRoot : Nat}
    {txRollups : List TxRollup} {bridgeCallDatas assetIds : List Nat} {rootRollup : RootRollup}
    (h : Building c db n txRollups [])
    (heq : RollupAggregator.createRootRollup E c rollupId db txRollups oldDefiRoot bridgeCallDatas
      assetIds = some (rootRollup, db')) :
    Aggregated c db' n rootRollup ∧ db'.committed = db.committed := by
  obtain ⟨hslots, hpos, -, ⟨fuel, rest, hchunks, hfuel, hrest⟩, hbuilt⟩ := h
  have hinnerPos := (totalSlots_pos hpos hslots).2
  have hnil := chunkTxs_nil hfuel hchunks.symm
  rw [hnil, List.length_nil] at hrest
  have hall : n ≤ txRollups.length * c.numInnerRollupTxs := Nat.sub_eq_zero_iff_le.mp hrest.symm
  rcases hbuilt with ⟨rfl, -⟩ | hbuilt
  · nomatch heq
  · have hlength : txRollups.length ≤ c.numOuterRollupProofs := by
      have hmore : (txRollups.length - 1) * c.numInnerRollupTxs <
          c.numOuterRollupProofs * c.numInnerRollupTxs := hbuilt.more.trans_le hslots
      have := Nat.lt_of_mul_lt_mul_right hmore
      omega
    obtain ⟨hlow, hhigh⟩ := hbuilt.size_le hlength
    unfold RollupAggregator.createRootRollup at heq
    split at heq
    case h_1 => nomatch heq
    case h_2 first others =>
      have hfirst : first.dataStartIndex = startOf c db := by
        rw [hbuilt.starts 0 first rfl, Nat.zero_mul, Nat.add_zero]
      have houterPos := c.outerRollupSize_pos
      dsimp only at heq
      cases heq
      have hdata : (db.put .ROOT (db.getSize .ROOT) (db.trees.root E .DATA)).trees .DATA =
          db.trees .DATA := WorldStateDb.put_of_ne _ _ _ (by decide)
      split
      case isTrue hlt =>
        refine ⟨⟨hfirst, hlength, hslots, hall, _, hbuilt, ?_⟩, rfl⟩
        rw [if_pos hlt, WorldStateDb.getSize, WorldStateDb.put_self, hdata, hfirst]
        dsimp only
        rw [WorldStateDb.getSize] at hhigh
        show max _ _ = startOf c db + _
        omega
      case isFalse hge =>
        refine ⟨⟨hfirst, hlength, hslots, hall, _, hbuilt, ?_⟩, rfl⟩
        rw [if_neg hge, WorldStateDb.getSize, hdata]
        rfl

/-- A step of the pipeline keeps what is built, and what is committed. -/
lemma pipelineStep_inv {a : System.Action} (hinv : StageInv F w.worldStateDb p)
    (hstart : ∀ txs bridgeCallDatas assetIds, a = .startRollup txs bridgeCallDatas assetIds →
      Fresh w.worldStateDb ∧ F p.config txs.length)
    (h : System.pipelineStep E feePaying w p a = some w') :
    PipelineInv F w' ∧ w'.worldStateDb.committed = w.worldStateDb.committed ∧
      w'.settled = w.settled ∧ w'.claims = w.claims := by
  unfold StageInv at hinv
  unfold System.pipelineStep at h
  split at h
  case h_1 txs bridgeCallDatas assetIds =>
    obtain ⟨hfresh, hF⟩ := hstart txs bridgeCallDatas assetIds rfl
    split at h
    case h_2 => nomatch h
    case h_1 =>
      dsimp only at h
      split at h
      case isFalse => nomatch h
      case isTrue hsome =>
        cases h
        refine ⟨⟨txs.length, hF, hsome.2, List.length_pos_of_ne_nil hsome.1, hfresh.root,
          ⟨_, txs, rfl, Nat.le_refl _, ?_⟩, .inl ⟨rfl, hfresh.data⟩⟩, rfl, rfl, rfl⟩
        rw [List.length_nil, Nat.zero_mul, Nat.sub_zero]
  case h_2 =>
    split at h
    case h_2 => nomatch h
    case h_1 bridgeCallDatas assetIds txRollups chunk chunks hstage =>
      rw [hstage] at hinv
      obtain ⟨n, hF, hbuilding⟩ := hinv
      split at h
      case h_1 txRollup l heq =>
        cases h
        obtain ⟨hnew, hcommitted⟩ := hbuilding.createRollup heq
        exact ⟨⟨n, hF, hnew⟩, hcommitted, rfl, rfl⟩
  case h_3 =>
    split at h
    case h_2 => nomatch h
    case h_1 bridgeCallDatas assetIds txRollups hstage =>
      rw [hstage] at hinv
      obtain ⟨n, hF, hbuilding⟩ := hinv
      obtain ⟨⟨rootRollup, db⟩, heq, rfl⟩ := Option.map_eq_some_iff.mp h
      obtain ⟨hagg, hcommitted⟩ := hbuilding.aggregate heq
      exact ⟨⟨n, hF, hagg⟩, hcommitted, rfl, rfl⟩
  case h_4 =>
    split at h
    case h_2 => nomatch h
    case h_1 rootRollup hstage =>
      rw [hstage] at hinv
      obtain ⟨n, hF, hagg⟩ := hinv
      cases h
      exact ⟨.inr ⟨n, rootRollup, hF, hagg⟩, rfl, rfl, rfl⟩
  case h_5 => nomatch h

end

/-! ## Adding rollups to trees -/

namespace Trees

variable {E : WorldStateEnv} {ts ts' : Trees} {index : Nat}

/-- The trees have the same leaves. -/
def SameLeaves (ts ts' : Trees) : Prop := ∀ treeId, (ts treeId).leaves = (ts' treeId).leaves

/-- Writing a leaf keeps two databases alike. -/
lemma SameLeaves.put (h : SameLeaves ts ts') (treeId : RollupTreeId) (index value : Nat) :
    SameLeaves (ts.put treeId index value) (ts'.put treeId index value) := by
  intro treeId'
  by_cases heq : treeId' = treeId
  · rw [heq, put_self, put_self, h treeId]
  · rw [put_of_ne _ _ _ heq, put_of_ne _ _ _ heq, h treeId']

/-- Databases with the same leaves have the same roots. -/
lemma SameLeaves.root (h : SameLeaves ts ts') (treeId : RollupTreeId) :
    ts.root E treeId = ts'.root E treeId := congrArg (E.getRoot treeId) (h treeId)

/-- The puts of the nullifiers are at most those. -/
def putNullifier (ts : Trees) (tx : InnerProofData) (nullifier : Nat) : Trees :=
  if tx.proofId ≠ .PADDING ∧ nullifier ≠ 0 then ts.put .NULL nullifier 1 else ts

/-- A nullifier is written to its own tree. -/
lemma putNullifier_of_ne {treeId : RollupTreeId} (tx : InnerProofData) (nullifier : Nat)
    (h : treeId ≠ .NULL) : ts.putNullifier tx nullifier treeId = ts treeId := by
  unfold putNullifier
  split
  case isTrue => exact put_of_ne _ _ _ h
  case isFalse => rfl

/-- Writing a nullifier keeps two databases alike. -/
lemma SameLeaves.putNullifier (h : SameLeaves ts ts') (tx : InnerProofData) (nullifier : Nat) :
    SameLeaves (ts.putNullifier tx nullifier) (ts'.putNullifier tx nullifier) := by
  unfold Trees.putNullifier
  split
  case isTrue => exact h.put _ _ _
  case isFalse => exact h

/-- The notes and nullifiers of the first transaction are written first. -/
lemma addTxs_cons (tx : InnerProofData) (txs : List InnerProofData) :
    addTxs index (tx :: txs) ts = addTxs (index + 2) txs
      ((((ts.put .DATA index tx.noteCommitment1).put .DATA (index + 1) tx.noteCommitment2).putNullifier
        tx tx.nullifier1).putNullifier tx tx.nullifier2) := rfl

/-- Writing the transactions of a rollup keeps two databases alike. -/
lemma SameLeaves.addTxs {txs : List InnerProofData} (h : SameLeaves ts ts') :
    SameLeaves (Trees.addTxs index txs ts) (Trees.addTxs index txs ts') := by
  induction txs generalizing index ts ts' with
  | nil => exact h
  | cons tx txs ih =>
    rw [addTxs_cons, addTxs_cons]
    exact ih ((((h.put _ _ _).put _ _ _).putNullifier _ _).putNullifier _ _)

/-- So does writing its interaction notes. -/
lemma SameLeaves.addDefiNotes {notes : List Nat} (h : SameLeaves ts ts') :
    SameLeaves (Trees.addDefiNotes index notes ts) (Trees.addDefiNotes index notes ts') := by
  induction notes generalizing index ts ts' with
  | nil => exact h
  | cons note notes ih => exact ih (h.put _ _ _)

/-- And writing the whole rollup. -/
lemma SameLeaves.addRollup (h : SameLeaves ts ts') (rollup : RollupProofData) :
    SameLeaves (ts.addRollup E rollup) (ts'.addRollup E rollup) := by
  unfold Trees.addRollup
  have htxs : SameLeaves (Trees.addTxs rollup.dataStartIndex rollup.innerProofData ts)
      (Trees.addTxs rollup.dataStartIndex rollup.innerProofData ts') := h.addTxs
  dsimp only
  rw [htxs.root]
  exact (htxs.put _ _ _).addDefiNotes

/-- The trees of the roots and of the interactions stay as they are. -/
lemma addTxs_of_ne {treeId : RollupTreeId} (txs : List InnerProofData) (hdata : treeId ≠ .DATA)
    (hnull : treeId ≠ .NULL) : addTxs index txs ts treeId = ts treeId := by
  induction txs generalizing index ts with
  | nil => rfl
  | cons tx txs ih =>
    rw [addTxs_cons, ih, putNullifier_of_ne _ _ hnull, putNullifier_of_ne _ _ hnull,
      put_of_ne _ _ _ hdata, put_of_ne _ _ _ hdata]

/-- Interaction notes are written to their own tree. -/
lemma addDefiNotes_of_ne {treeId : RollupTreeId} (notes : List Nat) (hdefi : treeId ≠ .DEFI) :
    addDefiNotes index notes ts treeId = ts treeId := by
  induction notes generalizing index ts with
  | nil => rfl
  | cons note notes ih =>
    rw [addDefiNotes, ih, put_of_ne _ _ _ hdefi]

/-- The data tree grows to the end of the transactions written. -/
lemma addTxs_size (txs : List InnerProofData) (h : txs ≠ []) :
    (addTxs index txs ts .DATA).size = max (index + txs.length * 2) (ts .DATA).size := by
  induction txs generalizing index ts with
  | nil => exact absurd rfl h
  | cons tx txs ih =>
    have hsize : ((((ts.put .DATA index tx.noteCommitment1).put .DATA (index + 1)
        tx.noteCommitment2).putNullifier tx tx.nullifier1).putNullifier tx tx.nullifier2 .DATA).size =
          max (index + 2) (ts .DATA).size := by
      rw [putNullifier_of_ne _ _ (by decide), putNullifier_of_ne _ _ (by decide), put_self, put_self]
      dsimp only
      omega
    rw [addTxs_cons]
    cases txs with
    | nil => exact hsize
    | cons tx' txs =>
      rw [ih nofun, hsize, List.length_cons, List.length_cons, List.length_cons]
      omega

/-- Where the notes are. -/
lemma addTxs_get (txs : List InnerProofData) (j : Nat) :
    (addTxs index txs ts .DATA).leaves.get j =
      if index ≤ j ∧ j < index + txs.length * 2 then
        ((txs[(j - index) / 2]?).map fun tx =>
          if (j - index) % 2 = 0 then tx.noteCommitment1 else tx.noteCommitment2).getD 0
      else (ts .DATA).leaves.get j := by
  induction txs generalizing index ts with
  | nil =>
    rw [if_neg (by rw [List.length_nil]; omega)]
    rfl
  | cons tx txs ih =>
    rw [addTxs_cons, ih, putNullifier_of_ne _ _ (by decide), putNullifier_of_ne _ _ (by decide),
      put_self, put_self]
    dsimp only
    rw [List.length_cons]
    rcases Nat.lt_or_ge j index with hlt | hge
    · rw [if_neg (by omega), if_neg (by omega), SparseArray.get_set_of_ne _ _ (by omega),
        SparseArray.get_set_of_ne _ _ (by omega)]
    · obtain ⟨k, rfl⟩ := Nat.exists_eq_add_of_le hge
      rw [Nat.add_sub_cancel_left]
      match k with
      | 0 =>
        rw [if_neg (by omega), if_pos (by omega), SparseArray.get_set_of_ne _ _ (by omega),
          Nat.add_zero, SparseArray.get_set_self]
        rfl
      | 1 =>
        rw [if_neg (by omega), if_pos (by omega), SparseArray.get_set_self]
        rfl
      | k + 2 =>
        have hdiv : (k + 2) / 2 = k / 2 + 1 := by omega
        have hmod : (k + 2) % 2 = k % 2 := by omega
        have hsub : index + (k + 2) - (index + 2) = k := by omega
        rw [hdiv, hmod, hsub, List.getElem?_cons_succ, SparseArray.get_set_of_ne _ _ (by omega),
          SparseArray.get_set_of_ne _ _ (by omega)]
        by_cases hin : k < txs.length * 2
        · rw [if_pos (by omega), if_pos (by omega)]
        · rw [if_neg (by omega), if_neg (by omega)]

/-- The data tree of a rollup is that of its transactions. -/
lemma addRollup_data (rollup : RollupProofData) : ts.addRollup E rollup .DATA =
    addTxs rollup.dataStartIndex rollup.innerProofData ts .DATA := by
  unfold addRollup
  rw [addDefiNotes_of_ne _ (by decide), put_of_ne _ _ _ (by decide)]

/-- The root tree records the root of the new data tree. -/
lemma addRollup_root (rollup : RollupProofData) : (ts.addRollup E rollup .ROOT).leaves =
    (ts .ROOT).leaves.set (rollup.rollupId + 1)
      ((addTxs rollup.dataStartIndex rollup.innerProofData ts).root E .DATA) := by
  unfold addRollup
  rw [addDefiNotes_of_ne _ (by decide), put_self, addTxs_of_ne _ (by decide) (by decide)]

end Trees

/-! ## Runs -/

/-- The hashes do not collide, and the root of a data tree is not zero. -/
structure WorldStateEnv.Sound (E : WorldStateEnv) : Prop where
  getRoot : ∀ treeId, Function.Injective (E.getRoot treeId)
  ne_zero : ∀ leaves, E.getRoot .DATA leaves ≠ 0

/-- The leaf of a rollup with an index. -/
def RollupProofData.leaf (rollup : RollupProofData) (j : Nat) : Nat :=
  ((rollup.innerProofData[j / 2]?).map fun tx =>
    if j % 2 = 0 then tx.noteCommitment1 else tx.noteCommitment2).getD 0

section

variable {E : WorldStateEnv} {feePaying : Nat → Bool} {F : Nat → Config → Nat → Prop}
  {chain : List Block} {b : Block} {s s' : System}

/-- One more block is added to what the blocks before it built. -/
lemma replay_concat : replay E (chain ++ [b]) = (replay E chain).addRollup E b.rollup := by
  rw [replay, List.foldl_append]
  rfl

/-- One more block moves the recorded size behind its subtree. -/
lemma datasize_concat : datasize (chain ++ [b]) =
    Contract.nextBoundary (datasize chain) (numDataLeaves b.rollup.rollupSize) +
      numDataLeaves b.rollup.rollupSize := by
  rw [datasize, List.foldl_append]
  rfl

/-- The subtree of a rollup ends before the last leaf of the tree. -/
def FitsTree (chain : List Block) (rollupSize : Nat) : Prop :=
  nextMultiple (datasize chain).toNat (rollupSize * 2) + rollupSize * 2 < 2 ^ 32

/-- The start index the contract requires, as long as nothing wraps. -/
lemma requiredStartIndex_eq {rollupSize : Nat} (h : FitsTree chain rollupSize) :
    requiredStartIndex chain rollupSize = nextMultiple (datasize chain).toNat (rollupSize * 2) := by
  unfold FitsTree at h
  have hleaves : (numDataLeaves rollupSize).toNat = rollupSize * 2 := by
    rw [numDataLeaves, BitVec.toNat_ofNat]
    exact Nat.mod_eq_of_lt (by omega)
  rw [requiredStartIndex, Contract.toNat_nextBoundary, hleaves]
  rw [hleaves]
  omega

/-- The rollup is appended. -/
lemma Accepts.datasize (h : Accepts E chain b) (hfits : FitsTree chain b.rollup.rollupSize) :
    b.rollup.dataStartIndex = nextMultiple (datasize chain).toNat (b.rollup.rollupSize * 2) ∧
      (Falafel.datasize (chain ++ [b])).toNat = b.rollup.dataStartIndex + b.rollup.rollupSize * 2 ∧
      0 < b.rollup.rollupSize ∧ (Falafel.datasize chain).toNat ≤ b.rollup.dataStartIndex := by
  have hstart := h.dataStartIndex.trans (requiredStartIndex_eq hfits)
  have hpos : 0 < b.rollup.rollupSize := by
    rcases Nat.eq_zero_or_pos b.rollup.rollupSize with hzero | hpos
    · exact absurd (by rw [hzero]; rfl) h.numDataLeaves
    · exact hpos
  refine ⟨hstart, ?_, hpos, ?_⟩
  · unfold FitsTree at hfits
    have hleaves : (Falafel.numDataLeaves b.rollup.rollupSize).toNat = b.rollup.rollupSize * 2 := by
      rw [Falafel.numDataLeaves, BitVec.toNat_ofNat]
      exact Nat.mod_eq_of_lt (by omega)
    have hrequired := h.dataStartIndex
    rw [requiredStartIndex] at hrequired
    rw [datasize_concat, BitVec.toNat_add, ← hrequired, hleaves, hstart]
    exact Nat.mod_eq_of_lt (by omega)
  · rw [hstart]
    exact Contract.le_nextMultiple _ (by omega)

/-- A block that is handled is accepted and fits, a rollup that is ours has our size, and a rollup is
built of trees to which nothing is added, of a number of transactions that satisfies `F`. -/
def Regular (E : WorldStateEnv) (F : Nat → Config → Nat → Prop) (s : System) :
    System.Action → Prop
  | .handleBlock b => FitsTree s.chain b.rollup.rollupSize ∧
    (WorldState.rollupIsOurs E s.worldState.worldStateDb b.rollup = true →
      ∀ p ∈ s.worldState.pipeline, b.rollup.rollupSize = p.config.outerRollupSize)
  | .startRollup txs _ _ => ∀ p ∈ s.worldState.pipeline,
    Fresh s.worldState.worldStateDb ∧ F (datasize s.chain).toNat p.config txs.length
  | _ => True

/-- Falafel has what is on the chain. -/
structure Inv (E : WorldStateEnv) (F : Nat → Config → Nat → Prop) (s : System) : Prop where
  settled : s.worldState.settled.length = s.chain.length
  size : (s.worldState.worldStateDb.committed .DATA).size ≤ (datasize s.chain).toNat
  leaves : Trees.SameLeaves s.worldState.worldStateDb.committed (replay E s.chain)
  pipeline : PipelineInv (F (datasize s.chain).toNat) s.worldState
  roots : ∀ i, s.chain.length < i → (replay E s.chain .ROOT).leaves.get i = 0
  placed : ∀ b ∈ s.chain, b.rollup.dataStartIndex + b.rollup.rollupSize * 2 ≤ (datasize s.chain).toNat ∧
    ∀ j < b.rollup.rollupSize * 2,
      (replay E s.chain .DATA).leaves.get (b.rollup.dataStartIndex + j) = b.rollup.leaf j

/-- The tree of roots starts empty behind the first root. -/
lemma replay_nil_get (i : Nat) (hi : 0 < i) : (replay E [] .ROOT).leaves.get i = 0 := by
  show ((Trees.empty E) .ROOT).leaves.get i = 0
  rw [Trees.empty, Trees.put_self, SparseArray.get_set_of_ne _ _ (Nat.ne_of_gt hi)]
  rfl

/-- The initial system has aligned trees. -/
lemma inv_init : Inv E F (System.init E) where
  settled := rfl
  size := Nat.le_refl _
  leaves _ := rfl
  pipeline := ⟨rfl, rfl⟩
  roots := replay_nil_get
  placed := nofun

/-- What the block adds to the replay. -/
lemma Inv.replay (h : Inv E F s) (haccepts : Accepts E s.chain b)
    (hfits : FitsTree s.chain b.rollup.rollupSize) :
    (∀ i, (s.chain ++ [b]).length < i → (Falafel.replay E (s.chain ++ [b]) .ROOT).leaves.get i = 0) ∧
      (∀ b' ∈ s.chain ++ [b], b'.rollup.dataStartIndex + b'.rollup.rollupSize * 2 ≤
          (datasize (s.chain ++ [b])).toNat ∧ ∀ j < b'.rollup.rollupSize * 2,
        (Falafel.replay E (s.chain ++ [b]) .DATA).leaves.get (b'.rollup.dataStartIndex + j) =
          b'.rollup.leaf j) := by
  obtain ⟨hstart, hsize, hpos, hle⟩ := haccepts.datasize hfits
  rw [replay_concat]
  refine ⟨fun i hi => ?_, fun b' hb' => ?_⟩
  · rw [List.length_append, List.length_singleton] at hi
    rw [Trees.addRollup_root, haccepts.rollupId, SparseArray.get_set_of_ne _ _ (by omega)]
    exact h.roots i (by omega)
  · rw [hsize, Trees.addRollup_data]
    simp only [Trees.addTxs_get, haccepts.rollupSize]
    rcases List.mem_append.mp hb' with hold | hnew
    · obtain ⟨hend, hleaf⟩ := h.placed b' hold
      refine ⟨by omega, fun j hj => ?_⟩
      rw [if_neg (by omega)]
      exact hleaf j hj
    · rw [List.mem_singleton] at hnew
      subst hnew
      refine ⟨Nat.le_refl _, fun j hj => ?_⟩
      rw [if_pos (by omega), Nat.add_sub_cancel_left]
      rfl

/-- If the roots are ours, so are the leaves. -/
lemma sameLeaves_of_rollupIsOurs {db : WorldStateDb} (hE : E.Sound) (haccepts : Accepts E chain b)
    (h : WorldState.rollupIsOurs E db b.rollup = true) :
    Trees.SameLeaves db.trees (replay E (chain ++ [b])) := by
  unfold WorldState.rollupIsOurs at h
  simp only [Bool.and_eq_true, beq_iff_eq] at h
  obtain ⟨⟨⟨hdata, hnull⟩, hroot⟩, hdefi⟩ := h
  intro treeId
  refine hE.getRoot treeId ?_
  cases treeId with
  | DATA => exact hdata.symm.trans haccepts.newDataRoot
  | NULL => exact hnull.symm.trans haccepts.newNullRoot
  | ROOT => exact hroot.symm.trans haccepts.newDataRootsRoot
  | DEFI => exact hdefi.symm.trans haccepts.newDefiRoot

/-- A rollup with our roots is one that the aggregator has finished. -/
lemma Inv.root_ne (h : Inv E F s) (hE : E.Sound) (haccepts : Accepts E s.chain b)
    (hours : WorldState.rollupIsOurs E s.worldState.worldStateDb b.rollup = true) :
    s.worldState.worldStateDb.trees .ROOT ≠ s.worldState.worldStateDb.committed .ROOT := by
  intro heq
  have hleaves := sameLeaves_of_rollupIsOurs hE haccepts hours .ROOT
  rw [heq, h.leaves .ROOT, replay_concat, Trees.addRollup_root, haccepts.rollupId] at hleaves
  have hget := congrArg (SparseArray.get · (s.chain.length + 1)) hleaves
  rw [SparseArray.get_set_self, h.roots _ (Nat.lt_succ_self _)] at hget
  exact hE.ne_zero _ hget.symm

/-- A block that is ours is the root rollup that was published. -/
lemma Inv.aggregated (h : Inv E F s) (hE : E.Sound) (haccepts : Accepts E s.chain b)
    (hours : WorldState.rollupIsOurs E s.worldState.worldStateDb b.rollup = true) :
    ∃ p n rootRollup, s.worldState.pipeline = some p ∧ F (datasize s.chain).toNat p.config n ∧
      Aggregated p.config s.worldState.worldStateDb n rootRollup := by
  have hne := h.root_ne hE haccepts hours
  have hinv := h.pipeline
  unfold PipelineInv at hinv
  split at hinv
  case h_1 => exact absurd hinv.root hne
  case h_2 p hp =>
    unfold StageInv at hinv
    split at hinv
    case h_1 =>
      obtain ⟨n, rootRollup, hF, hagg⟩ := hinv.resolve_left fun hfresh => hne hfresh.root
      exact ⟨p, n, rootRollup, hp, hF, hagg⟩
    case h_2 =>
      obtain ⟨n, -, hbuilding⟩ := hinv
      exact absurd hbuilding.root hne
    case h_3 rootRollup _ =>
      obtain ⟨n, hF, hagg⟩ := hinv
      exact ⟨p, n, rootRollup, hp, hF, hagg⟩

/-- The trees after a block: our own, or the committed ones with the rollup. -/
lemma Inv.updateTrees {db : WorldStateDb} (h : Inv E F s) (hE : E.Sound) (haccepts : Accepts E s.chain b)
    (hfits : FitsTree s.chain b.rollup.rollupSize)
    (hsize : WorldState.rollupIsOurs E s.worldState.worldStateDb b.rollup = true →
      ∀ p ∈ s.worldState.pipeline, b.rollup.rollupSize = p.config.outerRollupSize)
    (hdb : WorldState.updateTrees E s.worldState.worldStateDb b.rollup = db) :
    db.trees = db.committed ∧ Trees.SameLeaves db.committed (Falafel.replay E (s.chain ++ [b])) ∧
      ((∃ c n rootRollup, F (datasize s.chain).toNat c n ∧ c.outerRollupSize = b.rollup.rollupSize ∧
          Aggregated c s.worldState.worldStateDb n rootRollup ∧
          (db.committed .DATA).size = s.worldState.worldStateDb.getSize .DATA) ∨
        (db.committed .DATA).size = (datasize (s.chain ++ [b])).toNat) := by
  unfold WorldState.updateTrees at hdb
  split at hdb
  case isTrue hours =>
    obtain ⟨p, n, rootRollup, hp, hF, hagg⟩ := h.aggregated hE haccepts hours
    cases hdb
    exact ⟨rfl, sameLeaves_of_rollupIsOurs hE haccepts hours,
      .inl ⟨p.config, n, rootRollup, hF, (hsize hours p hp).symm, hagg, rfl⟩⟩
  case isFalse =>
    obtain ⟨-, hend, hpos, hle⟩ := haccepts.datasize hfits
    have hcommitted : s.worldState.worldStateDb.rollback.getSize .DATA ≤ b.rollup.dataStartIndex :=
      h.size.trans hle
    unfold WorldState.addRollupToWorldState at hdb
    rw [if_neg (Nat.not_lt.mpr hcommitted)] at hdb
    cases hdb
    refine ⟨rfl, ?_, .inr ?_⟩
    · rw [replay_concat]
      exact h.leaves.addRollup b.rollup
    · have hne : b.rollup.innerProofData ≠ [] :=
        List.ne_nil_of_length_pos (haccepts.rollupSize ▸ hpos)
      show ((s.worldState.worldStateDb.committed.addRollup E b.rollup) .DATA).size = _
      rw [Trees.addRollup_data, Trees.addTxs_size _ hne, haccepts.rollupSize, hend]
      exact Nat.max_eq_left (hcommitted.trans (Nat.le_add_right _ _))

/-- The start that our rollup has is not after the one that the contract requires. -/
lemma Inv.startOf_le (h : Inv E F s) (c : Config) :
    startOf c s.worldState.worldStateDb ≤ nextMultiple (datasize s.chain).toNat (c.outerRollupSize * 2) :=
  nextMultiple_mono (Nat.mul_pos c.outerRollupSize_pos (by decide)) h.size

/-- `updateDbs` of the next block updates the trees and the claims. -/
lemma updateDbs_ok {w w' : WorldState} (h : WorldState.updateDbs E w b = .ok w')
    (hid : b.rollup.rollupId = w.settled.length) :
    ∃ claims, WorldState.processDefiProofs E w.claims b = .ok claims ∧ w' = { w with
      worldStateDb := WorldState.updateTrees E w.worldStateDb b.rollup
      claims
      settled := w.settled ++ [b.interactionResult] } := by
  unfold WorldState.updateDbs at h
  rw [if_neg (fun hne => hne hid)] at h
  cases hclaims : WorldState.processDefiProofs E w.claims b with
  | error e =>
    rw [hclaims] at h
    nomatch h
  | ok claims =>
    rw [hclaims] at h
    cases h
    exact ⟨claims, rfl, rfl⟩

/-- A block is handled. -/
lemma Inv.handleBlock {w : WorldState} (h : Inv E F s) (hE : E.Sound) (haccepts : Accepts E s.chain b)
    (hregular : Regular E F s (.handleBlock b))
    (hupdate : WorldState.updateDbs E s.worldState b = .ok w) :
    Inv E F ⟨s.chain ++ [b], { w with pipeline := none }⟩ ∧
      ((∀ D c n, F D c n → c.Fills n) →
        (s.worldState.worldStateDb.committed .DATA).size = (datasize s.chain).toNat →
        (w.worldStateDb.committed .DATA).size = (datasize (s.chain ++ [b])).toNat) := by
  obtain ⟨hfits, hsize⟩ := hregular
  obtain ⟨claims, -, rfl⟩ := updateDbs_ok hupdate (haccepts.rollupId.trans h.settled.symm)
  obtain ⟨hstart, hend, -, -⟩ := haccepts.datasize hfits
  obtain ⟨hroots, hplaced⟩ := h.replay haccepts hfits
  obtain ⟨htrees, hleaves, hcases⟩ := h.updateTrees hE haccepts hfits hsize rfl
  refine ⟨⟨?_, ?_, hleaves, ⟨congrFun htrees .DATA, congrFun htrees .ROOT⟩, hroots, hplaced⟩, ?_⟩
  · show (s.worldState.settled ++ [b.interactionResult]).length = (s.chain ++ [b]).length
    rw [List.length_append, List.length_append, h.settled]
    rfl
  · rcases hcases with ⟨c, n, rootRollup, -, houter, hagg, heq⟩ | heq
    · have hle := hagg.size_le
      have hbefore := h.startOf_le c
      rw [houter] at hle hbefore
      show ((WorldState.updateTrees E s.worldState.worldStateDb b.rollup).committed .DATA).size ≤ _
      rw [heq, hend, hstart]
      omega
    · exact heq.le
  · intro hfills hsame
    rcases hcases with ⟨c, n, rootRollup, hF, houter, hagg, heq⟩ | heq
    · have hgrown := hagg.size_eq (hfills _ _ _ hF)
      refine heq.trans ?_
      rw [hgrown, hend, hstart, startOf, hsame, houter]
    · exact heq

/-- Interaction notes change no other tree and commit nothing. -/
lemma putDefiNotes_spec (start : Nat) (notes : List DefiInteractionNote) (db : WorldStateDb) :
    (putDefiNotes E start notes db).committed = db.committed ∧
      ∀ treeId, treeId ≠ .DEFI → (putDefiNotes E start notes db).trees treeId = db.trees treeId := by
  induction notes generalizing start db with
  | nil => exact ⟨rfl, fun _ _ => rfl⟩
  | cons note notes ih =>
    obtain ⟨hcommitted, htrees⟩ := ih (start + 1)
      (db.put .DEFI start (E.defiInteractionNoteCommitment note))
    refine ⟨hcommitted, fun treeId hne => ?_⟩
    rw [putDefiNotes, htrees treeId hne, WorldStateDb.put_of_ne _ _ _ hne]

/-- What a step does that is no block. -/
lemma Inv.of_pipeline {w : WorldState} (h : Inv E F s)
    (hpipeline : PipelineInv (F (datasize s.chain).toNat) w)
    (hcommitted : w.worldStateDb.committed = s.worldState.worldStateDb.committed)
    (hsettled : w.settled = s.worldState.settled) : Inv E F { s with worldState := w } where
  settled := hsettled ▸ h.settled
  size := hcommitted ▸ h.size
  leaves := hcommitted ▸ h.leaves
  pipeline := hpipeline
  roots := h.roots
  placed := h.placed

/-- One step, and what it does to the size of the data tree if rollups fill their subtrees. -/
lemma Inv.step {a : System.Action} (h : Inv E F s) (hE : E.Sound) (hregular : Regular E F s a)
    (hstep : System.step E feePaying s a = some s') :
    Inv E F s' ∧ ((∀ D c n, F D c n → c.Fills n) →
      (s.worldState.worldStateDb.committed .DATA).size = (datasize s.chain).toNat →
      (s'.worldState.worldStateDb.committed .DATA).size = (datasize s'.chain).toNat) := by
  have hpipeline {a : System.Action} (hregular : Regular E F s a)
      (hs : (match s.worldState.pipeline with
        | none => none
        | some p => (System.pipelineStep E feePaying s.worldState p a).map fun w =>
            { s with worldState := w }) = some s') :
      Inv E F s' ∧ ((∀ D c n, F D c n → c.Fills n) →
        (s.worldState.worldStateDb.committed .DATA).size = (datasize s.chain).toNat →
        (s'.worldState.worldStateDb.committed .DATA).size = (datasize s'.chain).toNat) := by
    split at hs
    case h_1 => nomatch hs
    case h_2 p hp =>
      obtain ⟨w, hw, rfl⟩ := Option.map_eq_some_iff.mp hs
      have hinv := h.pipeline
      rw [PipelineInv, hp] at hinv
      obtain ⟨hnew, hcommitted, hsettled, -⟩ := pipelineStep_inv hinv (fun txs _ _ heq => by
        subst heq
        exact hregular p hp) hw
      refine ⟨h.of_pipeline hnew hcommitted hsettled, fun _ hsame => ?_⟩
      rw [hcommitted]
      exact hsame
  cases a with
  | handleBlock b =>
    rw [System.step] at hstep
    split at hstep
    case isFalse => nomatch hstep
    case isTrue haccepts =>
      split at hstep
      case h_1 => nomatch hstep
      case h_2 w hupdate =>
        cases hstep
        exact h.handleBlock hE haccepts hregular hupdate
  | startNewPipeline config =>
    rw [System.step] at hstep
    split at hstep
    case h_1 => nomatch hstep
    case h_2 hnone =>
      cases hstep
      have hfresh := h.pipeline
      rw [PipelineInv, hnone] at hfresh
      obtain ⟨hcommitted, htrees⟩ := putDefiNotes_spec (E := E)
        (s.worldState.getNextRollupId * RollupProofData.NUM_BRIDGE_CALLS_PER_BLOCK)
        (s.worldState.settled.getLast?.getD []) s.worldState.worldStateDb
      refine ⟨h.of_pipeline (.inl ⟨?_, ?_⟩) hcommitted rfl, fun _ hsame => ?_⟩
      · rw [htrees _ (by decide), hcommitted]
        exact hfresh.data
      · rw [htrees _ (by decide), hcommitted]
        exact hfresh.root
      · show ((putDefiNotes E _ _ _).committed .DATA).size = _
        rw [hcommitted]
        exact hsame
  | restart =>
    cases hstep
    exact ⟨h.of_pipeline ⟨rfl, rfl⟩ rfl rfl, fun _ hsame => hsame⟩
  | startRollup txs bridgeCallDatas assetIds => exact hpipeline hregular hstep
  | createRollup => exact hpipeline hregular hstep
  | aggregateRollupProofs => exact hpipeline hregular hstep
  | publishFailed => exact hpipeline hregular hstep

open Transition (Run Steps Guarded)

/-- In every run of regular steps the trees stay aligned. -/
lemma run_inv {as : List System.Action} (hE : E.Sound)
    (h : Run (Guarded (Steps (System.step E feePaying)) (Regular E F)) (System.init E) as s) :
    Inv E F s :=
  h.invariant inv_init fun _ _ _ hinv hstep => (hinv.step hE hstep.2 hstep.1).1

/-- In every such run whose rollups fill their subtrees, the committed size is the recorded one. -/
lemma run_size {as : List System.Action} (hE : E.Sound) (hF : ∀ D c n, F D c n → c.Fills n)
    (h : Run (Guarded (Steps (System.step E feePaying)) (Regular E F)) (System.init E) as s) :
    (s.worldState.worldStateDb.committed .DATA).size = (datasize s.chain).toNat := by
  have hboth : Inv E F s ∧
      (s.worldState.worldStateDb.committed .DATA).size = (datasize s.chain).toNat := by
    refine h.invariant (I := fun s => Inv E F s ∧
      (s.worldState.worldStateDb.committed .DATA).size = (datasize s.chain).toNat)
      ⟨inv_init, rfl⟩ fun s a s' hinv hstep => ?_
    obtain ⟨hnew, hsize⟩ := hinv.1.step hE hstep.2 hstep.1
    exact ⟨hnew, hsize hF hinv.2⟩
  exact hboth.2

/-! ## The start indices -/

/-- A rollup fills its subtree, and that ends before the last leaf of the tree. -/
def FillsTree (dataSize : Nat) (c : Config) (n : Nat) : Prop :=
  c.Fills n ∧ nextMultiple dataSize (c.outerRollupSize * 2) + c.outerRollupSize * 2 < 2 ^ 32

/-- The inner rollups start where the root rollup circuit requires it, from where the contract requires
that the root rollup starts. -/
def StartsAsRequired (chain : List Block) (c : Config) (txRollups : List TxRollup) : Prop :=
  ∀ i r, txRollups[i]? = some r → r.dataStartIndex = requiredStartIndex chain c.outerRollupSize +
    i * (Circuit.rollupSizePow2 c.numInnerRollupTxs * 2)

/-- What is built starts as required, and ends where the contract has the end of the rollup. -/
def Stage.Aligned (chain : List Block) (c : Config) (db : WorldStateDb) : Stage → Prop
  | .ready => True
  | .building _ _ txRollups _ => StartsAsRequired chain c txRollups
  | .publishing rootRollup =>
    rootRollup.dataStartIndex = requiredStartIndex chain c.outerRollupSize ∧
      StartsAsRequired chain c rootRollup.rollups ∧
      db.getSize .DATA = rootRollup.dataStartIndex + c.outerRollupSize * 2

/-- Inner rollups built from the required index start where the contract requires. -/
lemma Built.startsAsRequired {c : Config} {start n size : Nat} {txRollups : List TxRollup}
    (h : Built c start n txRollups size) (hstart : start = requiredStartIndex chain c.outerRollupSize)
    (hpos : 0 < c.numInnerRollupTxs) : StartsAsRequired chain c txRollups := by
  intro i r hr
  rw [h.starts i r hr, hstart, Config.innerRollupSize_eq_circuit hpos]

/-- The rollups that falafel builds start where the root rollup circuit and the contract require it, and
its data tree has the leaves of every rollup where the contract has them, and the size of the contract. -/
structure TreesAligned (s : System) : Prop where
  size : (s.worldState.worldStateDb.committed .DATA).size = (datasize s.chain).toNat
  leaves : ∀ b ∈ s.chain, ∀ j < b.rollup.rollupSize * 2,
    (s.worldState.worldStateDb.committed .DATA).leaves.get (b.rollup.dataStartIndex + j) =
      b.rollup.leaf j
  stage : ∀ p ∈ s.worldState.pipeline, p.stage.Aligned s.chain p.config s.worldState.worldStateDb

/-- The trees are aligned after every step of a run, as long as its rollups are built of trees to which
nothing is added and fill their subtrees, and a rollup that is ours has our size. -/
theorem trees_aligned {as : List System.Action} (hE : E.Sound)
    (h : Run (Guarded (Steps (System.step E feePaying)) (Regular E FillsTree)) (System.init E) as s) :
    TreesAligned s := by
  have hinv := run_inv hE h
  have hsize := run_size hE (fun _ _ _ hF => hF.1) h
  refine ⟨hsize, fun b hb j hj => ?_, fun p hp => ?_⟩
  · rw [hinv.leaves .DATA]
    exact (hinv.placed b hb).2 j hj
  · have hpipeline : StageInv (FillsTree (datasize s.chain).toNat) s.worldState.worldStateDb p := by
      have hsome := hinv.pipeline
      rw [PipelineInv, Option.mem_def.mp hp] at hsome
      exact hsome
    have hstart (hfits : FitsTree s.chain p.config.outerRollupSize) :
        startOf p.config s.worldState.worldStateDb =
          requiredStartIndex s.chain p.config.outerRollupSize := by
      rw [startOf, hsize, requiredStartIndex_eq hfits]
    unfold StageInv at hpipeline
    split at hpipeline
    case h_1 heq =>
      rw [heq]
      trivial
    case h_2 txRollups chunks heq =>
      obtain ⟨n, hF, hbuilding⟩ := hpipeline
      rw [heq]
      rcases hbuilding.built with ⟨rfl, -⟩ | hbuilt
      · exact nofun
      · exact hbuilt.startsAsRequired (hstart hF.2) (totalSlots_pos hbuilding.pos hbuilding.slots).2
    case h_3 rootRollup heq =>
      obtain ⟨n, hF, hagg⟩ := hpipeline
      rw [heq]
      obtain ⟨size, hbuilt, -⟩ := hagg.built
      have hpos : 0 < p.config.numInnerRollupTxs :=
        (totalSlots_pos ((Nat.zero_le _).trans_lt hbuilt.more) hagg.slots).2
      refine ⟨hagg.dataStartIndex.trans (hstart hF.2), hbuilt.startsAsRequired (hstart hF.2) hpos, ?_⟩
      rw [hagg.size_eq hF.1, hagg.dataStartIndex]

instance (c : Config) (n : Nat) : Decidable (c.Fills n) := inferInstanceAs (Decidable (_ ∨ _))

instance (dataSize : Nat) (c : Config) (n : Nat) : Decidable (FillsTree dataSize c n) :=
  inferInstanceAs (Decidable (_ ∧ _))

instance (chain : List Block) (rollupSize : Nat) : Decidable (FitsTree chain rollupSize) :=
  inferInstanceAs (Decidable (_ < _))

instance (db : WorldStateDb) : Decidable (Fresh db) :=
  decidable_of_iff (db.trees .DATA = db.committed .DATA ∧ db.trees .ROOT = db.committed .ROOT)
    ⟨fun h => ⟨h.1, h.2⟩, fun h => ⟨h.data, h.root⟩⟩

instance [∀ D c n, Decidable (F D c n)] (s : System) (a : System.Action) : Decidable (Regular E F s a) :=
  match a with
  | .handleBlock _ => inferInstanceAs (Decidable (_ ∧ _))
  | .startRollup _ _ _ => inferInstanceAs (Decidable (∀ p ∈ s.worldState.pipeline, _))
  | .startNewPipeline _ | .createRollup | .aggregateRollupProofs | .publishFailed | .restart =>
    inferInstanceAs (Decidable True)

end

namespace Sample

/-- The hash of a tree is a number that encodes its entries. -/
def worldStateEnv : WorldStateEnv where
  getRoot _ a := Encodable.encode a.entries + 1
  claimNoteCompletePartialCommitment partialCommitment interactionNonce fee :=
    partialCommitment + interactionNonce + fee
  claimNoteNullifier note := note.inputNullifier
  defiInteractionNoteCommitment note := note.nonce
  offchainDefiDepositData data := if data = 0 then none else some ⟨data, 0, 0, 0, 3⟩

/-- The sample tree function is injective. -/
lemma worldStateEnv_sound : worldStateEnv.Sound where
  getRoot _ a b h := by
    have hentries : a.entries = b.entries := Encodable.encode_injective (Nat.succ_injective h)
    cases a
    cases b
    cases hentries
    rfl
  ne_zero _ := Nat.succ_ne_zero _

/-- A payment with two notes and two nullifiers. -/
def payment (n : Nat) : PendingTx :=
  ⟨n, .TRANSFER, 0, ⟨⟨.SEND, 4 * n + 1, 4 * n + 2, 4 * n + 3, 4 * n + 4, 0, 0, 0⟩, 0, 0⟩, 0, 0, 0⟩

/-- The rollup of transactions, with its roots. -/
def block (chain : List Block) (rollupSize : Nat) (txs : List InnerProofData) : Block :=
  let rollup : RollupProofData := ⟨chain.length, rollupSize, requiredStartIndex chain rollupSize,
    0, 0, 0, 0, [], [], txs⟩
  let ts := (replay worldStateEnv chain).addRollup worldStateEnv rollup
  { rollup := { rollup with
      newDataRoot := ts.root worldStateEnv .DATA
      newNullRoot := ts.root worldStateEnv .NULL
      newDataRootsRoot := ts.root worldStateEnv .ROOT
      newDefiRoot := ts.root worldStateEnv .DEFI }
    offchainTxData := []
    interactionResult := []
    mined := 0 }

/-- The public inputs of an empty slot. -/
def PADDING : InnerProofData := ⟨.PADDING, 0, 0, 0, 0, 0, 0, 0⟩

/-- Three payments, in two inner rollups. -/
def built : List System.Action :=
  [.startNewPipeline ⟨2, 2⟩, .startRollup [payment 0, payment 1, payment 2] [] [], .createRollup,
    .createRollup, .aggregateRollupProofs]

/-- The rollup of the payments is mined, then one of someone else. -/
def mined : List System.Action :=
  let ours := block [] 4 ([payment 0, payment 1, payment 2].map (·.proofData.toInnerProofData) ++
    [PADDING])
  built ++ [.handleBlock ours, .handleBlock (block [ours] 1 [(payment 3).proofData.toInnerProofData])]

/-- Three payments fill the one inner rollup, of the size of four; they are mined. After a restart with
rollups of one transaction, the next payment is built. -/
def unaligned : List System.Action :=
  let txs := [payment 0, payment 1, payment 2]
  [.startNewPipeline ⟨3, 1⟩, .startRollup txs [] [], .createRollup, .aggregateRollupProofs,
    .handleBlock (block [] 4 (txs.map (·.proofData.toInnerProofData) ++ [PADDING])), .restart,
    .startNewPipeline ⟨1, 1⟩, .startRollup [payment 3] [] [], .createRollup]

/-- The size of the data tree and that of the contract, where the inner rollup in progress starts and
where the contract requires it to. -/
def starts (s : System) : Option (Nat × Nat × Nat × Nat) :=
  match s.worldState.pipeline with
  | some ⟨c, _, .building _ _ [r] _⟩ =>
    some ((s.worldState.worldStateDb.committed .DATA).size, (datasize s.chain).toNat,
      r.dataStartIndex, requiredStartIndex s.chain c.outerRollupSize)
  | _ => none

end Sample

/-- A rollup is built, published and settled. -/
theorem trees_aligned_sample : ∃ s : System, datasize s.chain = 10 ∧ TreesAligned s := by
  obtain ⟨s, hs, hsize⟩ := Option.map_eq_some_iff.mp
    (show (Transition.exec (Transition.guard (System.step Sample.worldStateEnv fun _ => false)
      (Regular Sample.worldStateEnv FillsTree)) (System.init Sample.worldStateEnv) Sample.mined).map
        (fun s => datasize s.chain) = some 10 by decide +kernel)
  exact ⟨s, hsize, trees_aligned Sample.worldStateEnv_sound (Transition.exec_guard_run hs)⟩

/-- A full rollup does not grow the tree: it ends at 6 where the contract has 8, and the next rollup starts
there. -/
theorem trees_unaligned : ∃ s, Transition.Run
    (Transition.Steps (System.step Sample.worldStateEnv fun _ => false))
    (System.init Sample.worldStateEnv) Sample.unaligned s ∧ Sample.starts s = some (6, 8, 6, 8) ∧
    ¬ TreesAligned s := by
  obtain ⟨s, hs, hstarts⟩ := Option.map_eq_some_iff.mp
    (show (Transition.exec (System.step Sample.worldStateEnv fun _ => false)
      (System.init Sample.worldStateEnv) Sample.unaligned).map Sample.starts =
        some (some (6, 8, 6, 8)) by decide +kernel)
  refine ⟨s, Transition.exec_run hs, hstarts, fun haligned => ?_⟩
  have hsize := haligned.size
  unfold Sample.starts at hstarts
  split at hstarts
  case h_1 =>
    simp only [Option.some.injEq, Prod.mk.injEq] at hstarts
    omega
  case h_2 => nomatch hstarts

end AztecConnect.Falafel
