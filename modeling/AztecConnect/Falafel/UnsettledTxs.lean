import AztecConnect.Falafel.TxReceiver
import Mathlib.Data.List.Pairwise
import Mathlib.Data.List.Flatten
import Mathlib.Algebra.Order.BigOperators.Group.List
import Mathlib.Algebra.Order.Group.Nat
import Mathlib.Data.Nat.Pairing

/-!
# The transactions that are not settled

What the receiver keeps of the transactions in the database, at any moment between the steps of a
request and of the settlement of rollups (`unsettledTxs_consistent`). Whatever is settled, the unsettled
transactions have different nullifiers and links. While the rollups are ours, they also share none with
settled ones, their links are found, and their deposits are covered on chain, those apart that a mined
rollup has taken but the database has not confirmed.
-/

namespace AztecConnect.Falafel

/-- The nullifiers of a row, zero ones left out. -/
def TxDao.nullifiers (t : TxDao) : List Nat := t.nullifier1.toList ++ t.nullifier2.toList

/-- The note of an earlier transaction that a received one spends, zero if there is none. -/
def Tx.link (tx : Tx) : Nat := tx.proof.backwardLink

/-- Proofs with the same published inputs have the same id. A proof that is verified and has no
nullifiers is one of an account, of which no note can be chained from. -/
structure Env.Sound (E : Env) : Prop where
  createTxId : Function.Injective E.createTxId
  allowChain : ∀ p, E.verifyProof p = true → p.nullifiers = [] → p.allowChain = 0

namespace TxReceiver

open Transition (Run Steps Guarded exec)

/-! ## The pool -/

/-- The transactions with their proof data. -/
structure Pool where
  txs : Table TxDao TxDao.id
  proofData : Nat → ProofData

namespace Pool

/-- Some of the rows, which are all rows or those that are not mined. -/
def kept (P : Pool) (keep : TxDao → Bool) : List TxDao := P.txs.rows.filter keep

/-- The rows that are not settled. -/
def unsettled (P : Pool) : List TxDao := P.kept (·.mined.isNone)

/-- The nullifiers of all rows. -/
def nullifiers (P : Pool) : List Nat := P.txs.rows.flatMap TxDao.nullifiers

/-- The nullifiers of the unsettled rows. -/
def unsettledNullifiers (P : Pool) : List Nat := P.unsettled.flatMap TxDao.nullifiers

/-- The note that the transaction of a row chains from. -/
def link (P : Pool) (t : TxDao) : Nat := (P.proofData t.id).backwardLink

/-- A transaction of the database has a note that can be chained from. -/
def Chainable (P : Pool) (noteCommitment : Nat) : Prop :=
  ∃ t ∈ P.txs.rows, (P.proofData t.id).chainable noteCommitment

/-- No two unsettled transactions share a link. -/
def LinksApart (P : Pool) : Prop :=
  ∀ t ∈ P.unsettled, ∀ u ∈ P.unsettled, P.link t ≠ 0 → P.link t = P.link u → t.id = u.id

/-- Unsettled transactions link to notes that can be chained from. -/
def Linked (P : Pool) : Prop := ∀ t ∈ P.unsettled, P.link t ≠ 0 → P.Chainable (P.link t)

/-- A transaction has a note that can be chained from, which is settled or created before some time. -/
def ChainableBefore (P : Pool) (noteCommitment time : Nat) : Prop :=
  ∃ t ∈ P.txs.rows, (P.proofData t.id).chainable noteCommitment ∧ (t.mined = none → t.created < time)

/-- Unsettled transactions link to notes of settled ones, or of earlier ones. -/
def LinkedEarlier (P : Pool) : Prop :=
  ∀ t ∈ P.unsettled, P.link t ≠ 0 → P.ChainableBefore (P.link t) t.created

/-- The unsettled deposits, but for the transactions that are mined already. -/
def deposits (P : Pool) (mined : List Nat) (publicOwner publicAssetId : Nat) : Nat :=
  depositSum (((P.unsettled.filter (·.txType = .DEPOSIT)).filter (·.id ∉ mined)).map
    fun t => P.proofData t.id) publicOwner publicAssetId

/-- A transaction of a request is saved. -/
def save (P : Pool) (t : TxDao) (p : ProofData) : Pool :=
  ⟨RollupDb.saveTx P.txs t, Function.update P.proofData t.id p⟩

end Pool

/-- The transactions in the database, with their proof data. -/
def State.pool (s : State) : Pool := ⟨s.db.txs, s.proofData⟩

/-- What the cached database has, or may get from a refresh. -/
def State.cached (s : State) : List Cached := s.cache :: s.fetched

variable {P P' : Pool} {E : Env}

/-! ## Saving one transaction -/

/-- The row that is written is that of the transaction, or that of the transaction over the old row. -/
lemma save_rows (P : Pool) (t : TxDao) (p : ProofData) (hmined : t.mined = none) :
    ∃ row : TxDao, (P.save t p).txs.rows = P.txs.rows.filter (·.id ≠ t.id) ++ [row] ∧
      row.id = t.id ∧ (row.txType = t.txType ∧ row.created = t.created) ∧
      ((row = t ∧ ∀ u ∈ P.txs.rows, u.id ≠ t.id) ∨
        ∃ old ∈ P.txs.rows, old.id = t.id ∧ row.mined = old.mined ∧
          row.nullifier1 = (t.nullifier1 <|> old.nullifier1) ∧
          row.nullifier2 = (t.nullifier2 <|> old.nullifier2)) := by
  have hfilter (row : TxDao) (hid : row.id = t.id) :
      (P.txs.save row).rows = P.txs.rows.filter (·.id ≠ t.id) ++ [row] := by
    show P.txs.rows.filter _ ++ [row] = _
    refine congrArg (· ++ [row]) (List.filter_congr fun u _ => ?_)
    rw [hid, decide_not]
  unfold Pool.save RollupDb.saveTx
  cases hfind : P.txs.find? t.id with
  | none =>
    exact ⟨t, hfilter t rfl, rfl, ⟨rfl, rfl⟩, .inl ⟨rfl, fun u hu => Table.find?_none hfind hu⟩⟩
  | some old =>
    obtain ⟨hmem, hid⟩ := Table.find?_some hfind
    refine ⟨_, hfilter _ rfl, rfl, ⟨rfl, rfl⟩, .inr ⟨old, hmem, hid, ?_, rfl, rfl⟩⟩
    show (t.mined <|> old.mined) = old.mined
    rw [hmined]
    rfl

/-- The nullifiers of a row that is written come from the transaction and the old row. -/
lemma mem_over {t old row : TxDao} (h₁ : row.nullifier1 = (t.nullifier1 <|> old.nullifier1))
    (h₂ : row.nullifier2 = (t.nullifier2 <|> old.nullifier2)) {n : Nat} (hn : n ∈ row.nullifiers) :
    n ∈ t.nullifiers ∨ n ∈ old.nullifiers := by
  have hor (a b : Option Nat) : n ∈ (a <|> b).toList → n ∈ a.toList ∨ n ∈ b.toList := by
    cases a with
    | none => exact .inr
    | some a => exact .inl
  unfold TxDao.nullifiers at hn ⊢
  rw [h₁, h₂] at hn
  simp only [List.mem_append] at hn ⊢
  rcases hn with hn | hn
  · rcases hor _ _ hn with h | h
    · exact .inl (.inl h)
    · exact .inr (.inl h)
  · rcases hor _ _ hn with h | h
    · exact .inl (.inr h)
    · exact .inr (.inr h)

/-- A row repeats no nullifier exactly when its two nullifiers differ or one of them is missing. -/
lemma nodup_nullifiers {t : TxDao} :
    t.nullifiers.Nodup ↔ ∀ n, t.nullifier1 = some n → t.nullifier2 ≠ some n := by
  unfold TxDao.nullifiers
  cases t.nullifier1 <;> cases t.nullifier2 <;> simp [eq_comm]

/-- A row saved over another one repeats no nullifier if the two share none. -/
lemma nodup_over {t old row : TxDao} (h₁ : row.nullifier1 = (t.nullifier1 <|> old.nullifier1))
    (h₂ : row.nullifier2 = (t.nullifier2 <|> old.nullifier2)) (ht : t.nullifiers.Nodup)
    (hold : old.nullifiers.Nodup) (happart : ∀ n ∈ t.nullifiers, n ∉ old.nullifiers) :
    row.nullifiers.Nodup := by
  rw [nodup_nullifiers] at ht hold ⊢
  intro n hn₁ hn₂
  rw [h₁] at hn₁
  rw [h₂] at hn₂
  have hfalse := happart n
  simp only [TxDao.nullifiers, List.mem_append, Option.mem_toList] at hfalse
  cases ht₁ : t.nullifier1 with
  | none =>
    rw [ht₁] at hn₁
    cases ht₂ : t.nullifier2 with
    | none =>
      rw [ht₂] at hn₂
      exact hold n hn₁ hn₂
    | some m =>
      rw [ht₂] at hn₂
      exact hfalse (.inr (ht₂.trans hn₂)) (.inl hn₁)
  | some m =>
    rw [ht₁] at hn₁
    cases ht₂ : t.nullifier2 with
    | none =>
      rw [ht₂] at hn₂
      exact hfalse (.inl (ht₁.trans hn₁)) (.inr hn₂)
    | some k =>
      rw [ht₂] at hn₂
      exact ht n (ht₁.trans hn₁) (ht₂.trans hn₂)

section

variable {keep : TxDao → Bool} {t : TxDao} {p : ProofData}
  (hkeep : ∀ row old : TxDao, row.mined = old.mined → keep row = true → keep old = true)
  (hmined : t.mined = none)

include hkeep hmined

/-- The kept rows after a transaction is saved. -/
lemma save_kept : ∃ row : TxDao,
    (P.save t p).kept keep = (P.kept keep).filter (·.id ≠ t.id) ++ [row].filter keep ∧
      row.id = t.id ∧ row.txType = t.txType ∧
      (keep row = true → ∀ n ∈ row.nullifiers, n ∈ t.nullifiers ∨
        ∃ old ∈ P.kept keep, old.id = t.id ∧ n ∈ old.nullifiers) ∧
      (keep row = true → ((P.kept keep).flatMap TxDao.nullifiers).Nodup → t.nullifiers.Nodup →
        (∀ n ∈ t.nullifiers, n ∉ (P.kept keep).flatMap TxDao.nullifiers) → row.nullifiers.Nodup) := by
  obtain ⟨row, hrows, hid, ⟨htype, -⟩, hrow⟩ := save_rows P t p hmined
  refine ⟨row, ?_, hid, htype, ?_, ?_⟩
  · rw [Pool.kept, hrows, List.filter_append, List.filter_filter, Pool.kept, List.filter_filter]
    simp only [Bool.and_comm]
  · intro hrowkeep n hn
    rcases hrow with ⟨rfl, -⟩ | ⟨old, hold, holdid, holdmined, h₁, h₂⟩
    · exact .inl hn
    · have holdkeep : old ∈ P.kept keep :=
        List.mem_filter.mpr ⟨hold, hkeep row old holdmined hrowkeep⟩
      rcases mem_over h₁ h₂ hn with ht | ho
      · exact .inl ht
      · exact .inr ⟨old, holdkeep, holdid, ho⟩
  · intro hrowkeep happart ht hnew
    rcases hrow with ⟨rfl, -⟩ | ⟨old, hold, holdid, holdmined, h₁, h₂⟩
    · exact ht
    · have holdkeep : old ∈ P.kept keep :=
        List.mem_filter.mpr ⟨hold, hkeep row old holdmined hrowkeep⟩
      refine nodup_over h₁ h₂ ht ((List.nodup_flatMap.mp happart).1 old holdkeep) fun n hn ho => ?_
      exact hnew n hn (List.mem_flatMap.mpr ⟨old, holdkeep, ho⟩)

/-- Saving a transaction with new nullifiers keeps the nullifiers apart. -/
lemma save_apart (happart : ((P.kept keep).flatMap TxDao.nullifiers).Nodup)
    (ht : t.nullifiers.Nodup)
    (hnew : ∀ n ∈ t.nullifiers, n ∉ (P.kept keep).flatMap TxDao.nullifiers) :
    (((P.save t p).kept keep).flatMap TxDao.nullifiers).Nodup := by
  obtain ⟨row, hrows, -, -, hsource, hnodup⟩ := save_kept (P := P) (p := p) hkeep hmined
  have hrest : ((P.kept keep).filter (·.id ≠ t.id)).Sublist (P.kept keep) := List.filter_sublist
  rw [hrows, List.flatMap_append]
  cases hrowkeep : keep row with
  | false =>
    rw [List.filter_cons_of_neg (by rw [hrowkeep]; nofun), List.filter_nil, List.flatMap_nil,
      List.append_nil]
    exact happart.sublist (hrest.flatMap _)
  | true =>
    rw [List.filter_cons_of_pos hrowkeep, List.filter_nil, List.flatMap_singleton,
      List.nodup_append']
    refine ⟨happart.sublist (hrest.flatMap _), hnodup hrowkeep happart ht hnew, ?_⟩
    intro n hn hnrow
    obtain ⟨u, hu, hnu⟩ := List.mem_flatMap.mp hn
    obtain ⟨hu, hne⟩ := List.mem_filter.mp hu
    rcases hsource hrowkeep n hnrow with hnt | ⟨old, hold, holdid, hno⟩
    · exact hnew n hnt (List.mem_flatMap.mpr ⟨u, hu, hnu⟩)
    · have hdiff : u ≠ old := fun heq => of_decide_eq_true hne (heq ▸ holdid)
      have hsymm : Std.Symm (Function.onFun List.Disjoint TxDao.nullifiers) :=
        ⟨fun _ _ hab n ha hb => hab hb ha⟩
      exact (List.nodup_flatMap.mp happart).2.forall hu hold hdiff hnu hno

/-- After a save, every nullifier is one of before or one of the saved row. -/
lemma mem_save_apart {n : Nat} (hn : n ∈ ((P.save t p).kept keep).flatMap TxDao.nullifiers) :
    n ∈ (P.kept keep).flatMap TxDao.nullifiers ∨ n ∈ t.nullifiers := by
  obtain ⟨row, hrows, -, -, hsource, -⟩ := save_kept (P := P) (p := p) hkeep hmined
  rw [hrows, List.flatMap_append, List.mem_append] at hn
  rcases hn with hold | hnew
  · obtain ⟨u, hu, hnu⟩ := List.mem_flatMap.mp hold
    exact .inl (List.mem_flatMap.mpr ⟨u, (List.mem_filter.mp hu).1, hnu⟩)
  · obtain ⟨u, hu, hnu⟩ := List.mem_flatMap.mp hnew
    obtain ⟨hu, hkeeprow⟩ := List.mem_filter.mp hu
    cases List.mem_singleton.mp hu
    rcases hsource hkeeprow n hnu with ht | ⟨old, hold, -, hno⟩
    · exact .inr ht
    · exact .inl (List.mem_flatMap.mpr ⟨old, hold, hno⟩)

end

/-! ## Saving a request -/

/-- A transaction of a request that is validated. -/
def Built (E : Env) (secondClass : Bool) (tx : Tx) (t : TxDao) : Prop :=
  validateProof E tx.proof = true ∧ ∃ created, t = toTxDao E tx secondClass created

variable {secondClass : Bool} {tx : Tx} {t : TxDao} {txs : List Tx} {txDaos : List TxDao}

/-- A received transaction is saved as not settled. -/
lemma Built.mined (h : Built E secondClass tx t) : t.mined = none := by
  obtain ⟨-, created, rfl⟩ := h
  rfl

/-- It is saved under the id of its proof. -/
lemma Built.id (h : Built E secondClass tx t) : t.id = E.createTxId tx.proof.toInnerProofData := by
  obtain ⟨-, created, rfl⟩ := h
  rfl

/-- Its row has the nullifiers of its proof. -/
lemma Built.nullifiers (h : Built E secondClass tx t) : t.nullifiers = tx.proof.nullifiers := by
  obtain ⟨-, created, rfl⟩ := h
  unfold TxDao.nullifiers ProofData.nullifiers toTxDao
  by_cases h₁ : tx.proof.nullifier1 = 0 <;> by_cases h₂ : tx.proof.nullifier2 = 0 <;> simp [h₁, h₂]

/-- Its row is a deposit exactly when its proof is one. -/
lemma Built.txType (h : Built E secondClass tx t) :
    t.txType = .DEPOSIT ↔ tx.proof.proofId = .DEPOSIT := by
  obtain ⟨-, created, rfl⟩ := h
  show getTxTypeFromProofData E tx.proof = .DEPOSIT ↔ _
  unfold getTxTypeFromProofData
  cases tx.proof.proofId
  case PADDING | WITHDRAW =>
    refine ⟨fun h => ?_, nofun⟩
    dsimp only at h
    split at h <;> nomatch h
  case DEPOSIT => exact ⟨fun _ => rfl, fun _ => rfl⟩
  all_goals exact ⟨nofun, nofun⟩

/-- The pool after the transactions of a request are written. -/
def Pool.addTxs (E : Env) (P : Pool) (txs : List Tx) (txDaos : List TxDao) : Pool where
  txs := txDaos.foldl RollupDb.saveTx P.txs
  proofData := setProofData P.proofData
    (txs.map fun tx => (E.createTxId tx.proof.toInnerProofData, tx.proof))

/-- What each transaction keeps, with those that are still to be written, holds when all are. -/
lemma addTxs_induction {I : Pool → List Tx → List TxDao → Prop}
    (hbuilt : List.Forall₂ (Built E secondClass) txs txDaos) (hI : I P txs txDaos)
    (hstep : ∀ P tx txs t txDaos, Built E secondClass tx t → I P (tx :: txs) (t :: txDaos) →
      I (P.save t tx.proof) txs txDaos) :
    I (P.addTxs E txs txDaos) [] [] := by
  induction hbuilt generalizing P with
  | nil => exact hI
  | cons hb _ ih =>
    have hnext := ih (hstep _ _ _ _ _ hb hI)
    unfold Pool.addTxs Pool.save at *
    rw [hb.id] at hnext
    exact hnext

/-! ### Links -/

/-- An unsettled row after a save is an old one with another id, or the saved one with its link. -/
lemma mem_save_unsettled {u : TxDao} {p : ProofData} (hmined : t.mined = none)
    (hu : u ∈ (P.save t p).unsettled) :
    (u ∈ P.unsettled ∧ u.id ≠ t.id ∧ (P.save t p).link u = P.link u) ∨
      (u.id = t.id ∧ u.created = t.created ∧ (P.save t p).link u = p.backwardLink) := by
  obtain ⟨hu, hunmined⟩ := List.mem_filter.mp hu
  obtain ⟨row, hrows, hid, ⟨-, hcreated⟩, -⟩ := save_rows P t p hmined
  rw [hrows, List.mem_append, List.mem_filter, List.mem_singleton] at hu
  rcases hu with ⟨hold, hne⟩ | rfl
  · have hne : u.id ≠ t.id := of_decide_eq_true hne
    refine .inl ⟨List.mem_filter.mpr ⟨hold, hunmined⟩, hne, congrArg ProofData.backwardLink ?_⟩
    show Function.update P.proofData t.id p u.id = P.proofData u.id
    rw [Function.update_of_ne hne]
  · refine .inr ⟨hid, hcreated, congrArg ProofData.backwardLink ?_⟩
    show Function.update P.proofData t.id p u.id = p
    rw [hid, Function.update_self]

/-- The links of a request are new. -/
def FreshLinks (P : Pool) (txs : List Tx) : Prop :=
  txs.Pairwise (fun a b => b.link ≠ 0 → a.link ≠ b.link) ∧
    ∀ tx ∈ txs, tx.link ≠ 0 → ∀ u ∈ P.unsettled, P.link u ≠ tx.link

/-- Saving a transaction whose link no row has keeps the links apart. -/
lemma save_linksApart (hb : Built E secondClass tx t) (hP : P.LinksApart)
    (hfresh : FreshLinks P (tx :: txs)) : (P.save t tx.proof).LinksApart := by
  have hnew := hfresh.2 tx List.mem_cons_self
  intro u hu v hv hne heq
  rcases mem_save_unsettled hb.mined hu with ⟨hu, -, hlu⟩ | ⟨hidu, -, hlu⟩
  · rcases mem_save_unsettled hb.mined hv with ⟨hv, -, hlv⟩ | ⟨-, -, hlv⟩
    · rw [hlu] at hne
      rw [hlu, hlv] at heq
      exact hP u hu v hv hne heq
    · rw [hlu, hlv] at heq
      rw [hlu, heq] at hne
      exact absurd heq (hnew hne u hu)
  · rcases mem_save_unsettled hb.mined hv with ⟨hv, -, hlv⟩ | ⟨hidv, -, -⟩
    · rw [hlu] at hne
      rw [hlu, hlv] at heq
      exact absurd heq.symm (hnew hne v hv)
    · exact hidu.trans hidv.symm

/-- After the save, the links of the transactions that follow are still new. -/
lemma save_freshLinks (hb : Built E secondClass tx t) (hfresh : FreshLinks P (tx :: txs)) :
    FreshLinks (P.save t tx.proof) txs := by
  obtain ⟨hpairs, hnew⟩ := hfresh
  obtain ⟨hhead, htail⟩ := List.pairwise_cons.mp hpairs
  refine ⟨htail, fun b hb' hne u hu => ?_⟩
  rcases mem_save_unsettled hb.mined hu with ⟨hu, -, hlu⟩ | ⟨-, -, hlu⟩
  · rw [hlu]
    exact hnew b (List.mem_cons_of_mem tx hb') hne u hu
  · rw [hlu]
    exact hhead b hb' hne

/-! ### Nullifiers -/

section

/-- The nullifiers of a request are new. -/
def FreshNullifiers (rows : List TxDao) (txs : List Tx) : Prop :=
  (txs.flatMap (·.proof.nullifiers)).Nodup ∧
    ∀ tx ∈ txs, ∀ n ∈ tx.proof.nullifiers, n ∉ rows.flatMap TxDao.nullifiers

variable {keep : TxDao → Bool}
  (hkeep : ∀ row old : TxDao, row.mined = old.mined → keep row = true → keep old = true)

include hkeep

/-- Saving a transaction with new nullifiers keeps the nullifiers distinct, and those of the
transactions that follow new. -/
lemma save_nullifiers (hb : Built E secondClass tx t)
    (hP : ((P.kept keep).flatMap TxDao.nullifiers).Nodup)
    (hfresh : FreshNullifiers (P.kept keep) (tx :: txs)) :
    (((P.save t tx.proof).kept keep).flatMap TxDao.nullifiers).Nodup ∧
      FreshNullifiers ((P.save t tx.proof).kept keep) txs := by
  obtain ⟨hnodup, hnew⟩ := hfresh
  rw [List.flatMap_cons, List.nodup_append'] at hnodup
  obtain ⟨hhead, htail, hdisjoint⟩ := hnodup
  refine ⟨save_apart hkeep hb.mined hP (hb.nullifiers ▸ hhead) fun n hn => ?_, htail, ?_⟩
  · exact hnew tx List.mem_cons_self n (hb.nullifiers ▸ hn)
  · intro b hb' n hn hmem
    rcases mem_save_apart hkeep hb.mined hmem with hold | hself
    · exact hnew b (List.mem_cons_of_mem tx hb') n hn hold
    · rw [hb.nullifiers] at hself
      exact hdisjoint hself (List.mem_flatMap.mpr ⟨b, hb', hn⟩)

end

/-- Keeping every row changes nothing. -/
lemma Pool.kept_true : P.kept (fun _ => true) = P.txs.rows := List.filter_true P.txs.rows

/-! ### Proof data -/

/-- The rows are those of verified proofs. -/
def Verified (E : Env) (P : Pool) : Prop :=
  ∀ t ∈ P.txs.rows, t.id = E.createTxId (P.proofData t.id).toInnerProofData ∧
    t.nullifiers = (P.proofData t.id).nullifiers ∧ E.verifyProof (P.proofData t.id) = true

/-- What `validateProof` accepts, the verifier accepts. -/
lemma verifyProof_of_validateProof {p : ProofData} (h : validateProof E p = true) :
    E.verifyProof p = true := by
  unfold validateProof at h
  cases hid : p.proofId <;> rw [hid] at h
  case PADDING | DEFI_CLAIM => nomatch h
  case DEFI_DEPOSIT => exact ((Bool.and_eq_true _ _).mp h).2
  all_goals exact h

/-- A verified proof without nullifiers has no note to chain from. -/
lemma not_chainable {p : ProofData} (hE : E.Sound) (hverify : E.verifyProof p = true)
    (hnone : p.nullifiers = []) (noteCommitment : Nat) : p.chainable noteCommitment = false := by
  have hallow := hE.allowChain p hverify hnone
  unfold ProofData.chainable ProofData.allowChainFromNote1 ProofData.allowChainFromNote2
  rw [hallow]
  rfl

/-- A row without nullifiers has neither of the two. -/
lemma nullifiers_nil {t : TxDao} :
    t.nullifiers = [] ↔ t.nullifier1 = none ∧ t.nullifier2 = none := by
  unfold TxDao.nullifiers
  cases t.nullifier1 <;> cases t.nullifier2 <;> simp

/-- A transaction with new nullifiers that takes the place of another has none, nor has the other. -/
lemma Verified.replaced {old : TxDao} (hE : E.Sound) (hP : Verified E P)
    (hb : Built E secondClass tx t) (hold : old ∈ P.txs.rows) (hid : old.id = t.id)
    (hfresh : FreshNullifiers P.txs.rows [tx]) :
    old.nullifiers = [] ∧ tx.proof.nullifiers = [] := by
  obtain ⟨hidold, hnullifiers, -⟩ := hP old hold
  have hinner : (P.proofData old.id).toInnerProofData = tx.proof.toInnerProofData :=
    hE.createTxId (hidold.symm.trans (hid.trans hb.id))
  have hsame : old.nullifiers = tx.proof.nullifiers := by
    rw [hnullifiers, ProofData.nullifiers, ProofData.nullifiers, hinner]
  have hnone : tx.proof.nullifiers = [] := by
    refine List.eq_nil_iff_forall_not_mem.mpr fun n hn => ?_
    exact hfresh.2 tx List.mem_cons_self n hn (List.mem_flatMap.mpr ⟨old, hold, hsame ▸ hn⟩)
  exact ⟨hsame.trans hnone, hnone⟩

/-- A save leaves the proof data of the other ids alone. -/
lemma save_proofData_ne {u : TxDao} {p : ProofData} (hne : u.id ≠ t.id) :
    (P.save t p).proofData u.id = P.proofData u.id := by
  show Function.update P.proofData t.id p u.id = P.proofData u.id
  rw [Function.update_of_ne hne]

/-- It stores the given proof data under the id of the row. -/
lemma save_proofData_self {u : TxDao} {p : ProofData} (hid : u.id = t.id) :
    (P.save t p).proofData u.id = p := by
  show Function.update P.proofData t.id p u.id = p
  rw [hid, Function.update_self]

/-- Saving a transaction with a verified proof keeps all proofs verified. -/
lemma save_verified (hE : E.Sound) (hP : Verified E P) (hb : Built E secondClass tx t)
    (hfresh : FreshNullifiers P.txs.rows [tx]) : Verified E (P.save t tx.proof) := by
  intro u hu
  obtain ⟨row, hrows, hid, -, hrow⟩ := save_rows P t tx.proof hb.mined
  rw [hrows, List.mem_append, List.mem_filter, List.mem_singleton] at hu
  rcases hu with ⟨hold, hne⟩ | rfl
  · rw [save_proofData_ne (of_decide_eq_true hne)]
    exact hP u hold
  · rw [save_proofData_self hid]
    refine ⟨hid.trans hb.id, ?_, verifyProof_of_validateProof hb.1⟩
    rcases hrow with ⟨rfl, -⟩ | ⟨old, hold, holdid, -, h₁, h₂⟩
    · exact hb.nullifiers
    · obtain ⟨holdnone, hnone⟩ := hP.replaced hE hb hold holdid hfresh
      obtain ⟨ho₁, ho₂⟩ := nullifiers_nil.mp holdnone
      obtain ⟨ht₁, ht₂⟩ := nullifiers_nil.mp (hb.nullifiers.trans hnone)
      rw [hnone]
      refine nullifiers_nil.mpr ⟨?_, ?_⟩
      · rw [h₁, ht₁, ho₁]
        rfl
      · rw [h₂, ht₂, ho₂]
        rfl

/-- Notes can be chained from as before, and those of the new transaction too. -/
lemma save_chainable {n : Nat} (hE : E.Sound) (hP : Verified E P) (hb : Built E secondClass tx t)
    (hfresh : FreshNullifiers P.txs.rows [tx])
    (hn : P.Chainable n ∨ tx.proof.chainable n = true) : (P.save t tx.proof).Chainable n := by
  obtain ⟨row, hrows, hid, -, -⟩ := save_rows P t tx.proof hb.mined
  unfold Pool.Chainable
  rw [hrows]
  rcases hn with ⟨u, hu, hchain⟩ | hself
  · by_cases heq : u.id = t.id
    · obtain ⟨hnone, -⟩ := hP.replaced hE hb hu heq hfresh
      obtain ⟨-, hnullifiers, hverify⟩ := hP u hu
      rw [not_chainable hE hverify (hnullifiers.symm.trans hnone)] at hchain
      nomatch hchain
    · refine ⟨u, List.mem_append_left _ (List.mem_filter.mpr ⟨hu, decide_eq_true heq⟩), ?_⟩
      rw [save_proofData_ne heq]
      exact hchain
  · refine ⟨row, List.mem_append_right _ List.mem_cons_self, ?_⟩
    rw [save_proofData_self hid]
    exact hself

/-- The links of a request are found, in the database or in an earlier transaction of it. -/
def Chained (source : Nat → Prop) : List Tx → Prop
  | [] => True
  | tx :: txs => (tx.link ≠ 0 → source tx.link) ∧
    Chained (fun n => source n ∨ tx.proof.chainable n = true) txs

/-- More notes to chain from keep a list chained. -/
lemma Chained.mono {source source' : Nat → Prop} (h : Chained source txs)
    (hsource : ∀ n, source n → source' n) : Chained source' txs := by
  induction txs generalizing source source' with
  | nil => trivial
  | cons tx txs ih =>
    exact ⟨fun hne => hsource _ (h.1 hne), ih h.2 fun n hn => hn.imp (hsource n) id⟩

/-- Saving a transaction whose link is chainable keeps the rows linked. -/
lemma save_linked (hE : E.Sound) (hP : Verified E P) (hb : Built E secondClass tx t)
    (hfresh : FreshNullifiers P.txs.rows [tx]) (hlinked : P.Linked)
    (hlink : tx.link ≠ 0 → P.Chainable tx.link) : (P.save t tx.proof).Linked := by
  intro u hu hne
  rcases mem_save_unsettled hb.mined hu with ⟨hu, -, hlu⟩ | ⟨-, -, hlu⟩
  · rw [hlu] at hne ⊢
    exact save_chainable hE hP hb hfresh (.inl (hlinked u hu hne))
  · rw [hlu] at hne ⊢
    exact save_chainable hE hP hb hfresh (.inl (hlink hne))

/-! ### Times -/

/-- Notes that an earlier transaction had are still there, and those of the new transaction are later
than it is. -/
lemma save_chainableBefore {n time : Nat} (hE : E.Sound) (hP : Verified E P)
    (hb : Built E secondClass tx t) (hfresh : FreshNullifiers P.txs.rows [tx])
    (hn : P.ChainableBefore n time ∨ tx.proof.chainable n = true ∧ t.created < time) :
    (P.save t tx.proof).ChainableBefore n time := by
  obtain ⟨row, hrows, hid, ⟨-, hcreated⟩, -⟩ := save_rows P t tx.proof hb.mined
  unfold Pool.ChainableBefore
  rw [hrows]
  rcases hn with ⟨u, hu, hchain, hbefore⟩ | ⟨hself, hlt⟩
  · by_cases heq : u.id = t.id
    · -- a transaction that is written again has no notes to chain from
      obtain ⟨hnone, -⟩ := hP.replaced hE hb hu heq hfresh
      obtain ⟨-, hnullifiers, hverify⟩ := hP u hu
      rw [not_chainable hE hverify (hnullifiers.symm.trans hnone)] at hchain
      nomatch hchain
    · refine ⟨u, List.mem_append_left _ (List.mem_filter.mpr ⟨hu, decide_eq_true heq⟩), ?_, hbefore⟩
      rw [save_proofData_ne heq]
      exact hchain
  · refine ⟨row, List.mem_append_right _ List.mem_cons_self, ?_, fun _ => ?_⟩
    · rw [save_proofData_self hid]
      exact hself
    · rw [hcreated]
      exact hlt

/-- Saving one whose link is chainable from earlier rows keeps the rows linked to earlier ones. -/
lemma save_linkedEarlier (hE : E.Sound) (hP : Verified E P) (hb : Built E secondClass tx t)
    (hfresh : FreshNullifiers P.txs.rows [tx]) (hlinked : P.LinkedEarlier)
    (hlink : tx.link ≠ 0 → P.ChainableBefore tx.link t.created) :
    (P.save t tx.proof).LinkedEarlier := by
  intro u hu hne
  rcases mem_save_unsettled hb.mined hu with ⟨hu, -, hlu⟩ | ⟨-, hcreated, hlu⟩
  · rw [hlu] at hne ⊢
    exact save_chainableBefore hE hP hb hfresh (.inl (hlinked u hu hne))
  · rw [hlu] at hne ⊢
    rw [hcreated]
    exact save_chainableBefore hE hP hb hfresh (.inl (hlink hne))

/-- The links of a request are found at a time before that of the transaction, in the database or in an
earlier transaction of it. -/
def ChainedBefore (source : Nat → Nat → Prop) : List Tx → List TxDao → Prop
  | tx :: txs, t :: txDaos => (tx.link ≠ 0 → source tx.link t.created) ∧
    ChainedBefore (fun n time => source n time ∨ tx.proof.chainable n = true ∧ t.created < time) txs
      txDaos
  | _, _ => True

/-- The same with creation times. -/
lemma ChainedBefore.mono {source source' : Nat → Nat → Prop} (h : ChainedBefore source txs txDaos)
    (hsource : ∀ n time, source n time → source' n time) : ChainedBefore source' txs txDaos := by
  induction txs generalizing source source' txDaos with
  | nil => trivial
  | cons tx txs ih =>
    cases txDaos with
    | nil => trivial
    | cons t txDaos =>
      exact ⟨fun hne => hsource _ _ (h.1 hne), ih h.2 fun n time hn => hn.imp_left (hsource n time)⟩

/-- The links are found, and the times increase. -/
lemma Chained.before {source : Nat → Prop} {source' : Nat → Nat → Prop} (hchained : Chained source txs)
    (htimes : txDaos.Pairwise (·.created < ·.created))
    (hsource : List.Forall₂ (fun tx t => tx.link ≠ 0 → source tx.link → source' tx.link t.created)
      txs txDaos) : ChainedBefore source' txs txDaos := by
  induction txs generalizing source source' txDaos with
  | nil =>
    cases hsource
    trivial
  | cons tx txs ih =>
    obtain _ | @⟨_, t, _, txDaos, hhead, htail⟩ := hsource
    obtain ⟨hlt, htimes⟩ := List.pairwise_cons.mp htimes
    refine ⟨fun hne => hhead hne (hchained.1 hne), ih hchained.2 htimes ?_⟩
    have hlater : List.Forall₂ (fun t' tx' => t.created < t'.created ∧
        (tx'.link ≠ 0 → source tx'.link → source' tx'.link t'.created)) txDaos txs :=
      (List.forall₂_and_left _ _).mpr ⟨hlt, htail.flip⟩
    refine hlater.flip.imp fun tx' t' ⟨hlt', hpair⟩ hne hor => ?_
    exact hor.imp (hpair hne) fun hchain => ⟨hchain, hlt'⟩

/-! ### Deposits -/

/-- The deposits of two lists add up. -/
lemma depositSum_append (ps qs : List ProofData) (o a : Nat) :
    depositSum (ps ++ qs) o a = depositSum ps o a + depositSum qs o a := by
  unfold depositSum
  rw [List.filter_append, List.map_append, List.sum_append]

/-- Fewer proofs deposit no more. -/
lemma depositSum_sublist {ps qs : List ProofData} (h : ps.Sublist qs) (o a : Nat) :
    depositSum ps o a ≤ depositSum qs o a :=
  ((h.filter _).map _).sum_le_sum fun _ _ => Nat.zero_le _

/-- The order of the proofs does not matter. -/
lemma depositSum_perm {ps qs : List ProofData} (h : ps.Perm qs) (o a : Nat) :
    depositSum ps o a = depositSum qs o a :=
  ((h.filter _).map _).sum_eq

/-- The deposits of the first transaction come first. -/
lemma depositProofs_cons (tx : Tx) (txs : List Tx) :
    depositProofs (tx :: txs) = depositProofs [tx] ++ depositProofs txs := by
  unfold depositProofs
  rw [← List.filter_append, ← List.map_append]
  rfl

/-- A transaction adds at most its own deposit. -/
lemma save_deposits (hb : Built E secondClass tx t) (mined : List Nat) (o a : Nat) :
    (P.save t tx.proof).deposits mined o a ≤ P.deposits mined o a +
      depositSum (depositProofs [tx]) o a := by
  obtain ⟨row, hrows, hid, ⟨htype, -⟩, -⟩ := save_rows P t tx.proof hb.mined
  unfold Pool.deposits Pool.unsettled Pool.kept
  rw [hrows]
  simp only [List.filter_append, List.map_append, depositSum_append]
  refine Nat.add_le_add ?_ ?_
  · have hsame : ∀ rows : List TxDao, (∀ u ∈ rows, u.id ≠ t.id) →
        rows.map (fun u => (P.save t tx.proof).proofData u.id) = rows.map fun u => P.proofData u.id :=
      fun rows hne => List.map_congr_left fun u hu => save_proofData_ne (hne u hu)
    rw [hsame _ fun u hu => by
      simp only [List.mem_filter, decide_eq_true_eq] at hu
      exact hu.1.1.1.2]
    exact depositSum_sublist (((List.filter_sublist.filter _).filter _).filter _ |>.map _) o a
  · refine depositSum_sublist ?_ o a
    have hself : [row].map (fun u => (P.save t tx.proof).proofData u.id) = [tx.proof] := by
      rw [List.map_singleton, save_proofData_self hid]
    by_cases hdeposit : tx.proof.proofId = .DEPOSIT
    · have hproofs : depositProofs [tx] = [tx.proof] :=
        List.filter_cons_of_pos (decide_eq_true hdeposit)
      rw [hproofs, ← hself]
      exact ((List.filter_sublist.trans List.filter_sublist).trans List.filter_sublist).map _
    · have hnone : ([row].filter (·.mined.isNone)).filter (·.txType = .DEPOSIT) = [] := by
        refine List.filter_eq_nil_iff.mpr fun u hu => ?_
        cases List.mem_singleton.mp (List.mem_filter.mp hu).1
        rw [decide_eq_true_iff, htype, hb.txType]
        exact hdeposit
      rw [hnone]
      exact List.nil_sublist _

/-! ## What the checks say -/

/-- What `validateChain` accepts: links that differ from each other and from those of the preceding
proofs, each to a note of a preceding or an earlier proof. -/
lemma validateChain_spec {preceding : List ProofData} (h : validateChain preceding txs = true) :
    txs.Pairwise (fun a b => b.link ≠ 0 → a.link ≠ b.link) ∧
      (∀ tx ∈ txs, tx.link ≠ 0 → ∀ p ∈ preceding, p.backwardLink ≠ tx.link) ∧
      Chained (fun n => ∃ p ∈ preceding, p.chainable n = true) txs := by
  induction txs generalizing preceding with
  | nil => exact ⟨.nil, List.forall_mem_nil _, trivial⟩
  | cons tx txs ih =>
    obtain ⟨hhead, htail⟩ := (Bool.and_eq_true _ _).mp h
    obtain ⟨hpairs, hnew, hchained⟩ := ih htail
    have hlinked : tx.link ≠ 0 → (∀ p ∈ preceding, p.backwardLink ≠ tx.link) ∧
        ∃ p ∈ preceding, p.chainable tx.link = true := by
      intro hne
      rcases (Bool.or_eq_true _ _).mp hhead with hzero | hboth
      · exact absurd (eq_of_beq hzero) hne
      · obtain ⟨hnot, hany⟩ := (Bool.and_eq_true _ _).mp hboth
        refine ⟨fun p hp heq => ?_, List.any_eq_true.mp hany⟩
        have hdup : (preceding.any (·.backwardLink == tx.proof.backwardLink)) = true :=
          List.any_eq_true.mpr ⟨p, hp, beq_of_eq heq⟩
        rw [hdup] at hnot
        nomatch hnot
    refine ⟨List.pairwise_cons.mpr ⟨fun b hb hne => ?_, hpairs⟩, ?_, fun hne => (hlinked hne).2, ?_⟩
    · exact hnew b hb hne tx.proof (List.mem_append_right _ List.mem_cons_self)
    · intro b hb hne p hp
      rcases List.mem_cons.mp hb with rfl | hb
      · exact (hlinked hne).1 p hp
      · exact hnew b hb hne p (List.mem_append_left _ hp)
    · refine hchained.mono fun n hn => ?_
      obtain ⟨p, hp, hchain⟩ := hn
      rcases List.mem_append.mp hp with hp | hp
      · exact .inl ⟨p, hp, hchain⟩
      · cases List.mem_singleton.mp hp
        exact .inr hchain

/-- What `validateNullifiers` accepts has new nullifiers that are all different. -/
lemma validateNullifiers_spec {db : RollupDb} (h : validateNullifiers db txs = true) :
    FreshNullifiers db.txs.rows txs := by
  obtain ⟨hnodup, hexist⟩ := (Bool.and_eq_true _ _).mp h
  refine ⟨of_decide_eq_true hnodup, fun tx htx n hn hmem => ?_⟩
  obtain ⟨t, ht, hnt⟩ := List.mem_flatMap.mp hmem
  have hin : n ∈ txs.flatMap (·.proof.nullifiers) := List.mem_flatMap.mpr ⟨tx, htx, hn⟩
  have hany : nullifiersExist db (txs.flatMap (·.proof.nullifiers)) = true := by
    refine List.any_eq_true.mpr ⟨t, ht, ?_⟩
    rcases List.mem_append.mp hnt with h₁ | h₂
    · rw [Option.mem_toList.mp h₁, Option.any_some, List.contains_iff_mem.mpr hin]
      rfl
    · rw [Option.mem_toList.mp h₂, Option.any_some, List.contains_iff_mem.mpr hin, Bool.or_true]
  rw [hany] at hexist
  nomatch hexist

/-- With fewer nullifiers in the rows, new nullifiers stay new. -/
lemma FreshNullifiers.mono {rows rows' : List TxDao} (h : FreshNullifiers rows txs)
    (hsub : ∀ n ∈ rows'.flatMap TxDao.nullifiers, n ∈ rows.flatMap TxDao.nullifiers) :
    FreshNullifiers rows' txs :=
  ⟨h.1, fun tx htx n hn hmem => h.2 tx htx n hn (hsub n hmem)⟩

/-- The owner and the asset of a required deposit. -/
def RequiredDeposit.key (d : RequiredDeposit) : Nat × Nat := (d.publicOwner, d.publicAssetId)

/-- What is required of the owners for deposits. -/
structure Requires (ds : List RequiredDeposit) (proofs : List ProofData) : Prop where
  keys : (ds.map RequiredDeposit.key).Nodup
  value : ∀ d ∈ ds, d.value = depositSum proofs d.publicOwner d.publicAssetId
  complete : ∀ o a, depositSum proofs o a ≠ 0 → (o, a) ∈ ds.map RequiredDeposit.key

/-- A proof adds its value to the sum of its own owner and asset only. -/
lemma depositSum_singleton (p : ProofData) (o a : Nat) : depositSum [p] o a =
    if p.publicOwner = o ∧ p.publicAssetId = a then p.publicValue else 0 := by
  unfold depositSum
  rw [List.filter_singleton]
  by_cases h : p.publicOwner = o ∧ p.publicAssetId = a <;> simp [h]

section

variable {p : ProofData} {ds : List RequiredDeposit}

/-- An owner and asset that is not listed yet is appended. -/
lemma addRequiredDeposit_keys : (addRequiredDeposit p ds).map RequiredDeposit.key =
    if (p.publicOwner, p.publicAssetId) ∈ ds.map RequiredDeposit.key
    then ds.map RequiredDeposit.key
    else ds.map RequiredDeposit.key ++ [(p.publicOwner, p.publicAssetId)] := by
  induction ds with
  | nil => rfl
  | cons d ds ih =>
    rw [addRequiredDeposit, List.map_cons]
    by_cases h : d.publicOwner = p.publicOwner ∧ d.publicAssetId = p.publicAssetId
    · have hkey : (p.publicOwner, p.publicAssetId) = d.key := Prod.ext h.1.symm h.2.symm
      rw [if_pos h, if_pos (hkey ▸ List.mem_cons_self)]
      rfl
    · have hkey : ¬ (p.publicOwner, p.publicAssetId) = d.key := fun heq =>
        h ⟨(Prod.mk.inj heq).1.symm, (Prod.mk.inj heq).2.symm⟩
      rw [if_neg h, List.map_cons, ih]
      by_cases hmem : (p.publicOwner, p.publicAssetId) ∈ ds.map RequiredDeposit.key
      · rw [if_pos hmem, if_pos (List.mem_cons_of_mem _ hmem)]
      · rw [if_neg hmem, if_neg fun h' => (List.mem_cons.mp h').elim hkey hmem, List.cons_append]

/-- An entry is an old one, or the one of the deposit. -/
lemma mem_addRequiredDeposit (hnodup : (ds.map RequiredDeposit.key).Nodup) {d : RequiredDeposit}
    (hd : d ∈ addRequiredDeposit p ds) :
    (d ∈ ds ∧ d.key ≠ (p.publicOwner, p.publicAssetId)) ∨
      d.key = (p.publicOwner, p.publicAssetId) ∧
        ((∃ e ∈ ds, e.key = d.key ∧ d.value = e.value + p.publicValue) ∨
          d.key ∉ ds.map RequiredDeposit.key ∧ d.value = p.publicValue) := by
  induction ds with
  | nil =>
    cases List.mem_singleton.mp hd
    exact .inr ⟨rfl, .inr ⟨List.not_mem_nil, rfl⟩⟩
  | cons e ds ih =>
    obtain ⟨hnot, hnodup⟩ := List.nodup_cons.mp hnodup
    rw [addRequiredDeposit] at hd
    split at hd
    case isTrue h =>
      have hkey : e.key = (p.publicOwner, p.publicAssetId) := Prod.ext h.1 h.2
      rcases List.mem_cons.mp hd with rfl | hd
      · exact .inr ⟨hkey, .inl ⟨e, List.mem_cons_self, rfl, rfl⟩⟩
      · refine .inl ⟨List.mem_cons_of_mem e hd, fun heq => hnot ?_⟩
        rw [hkey, ← heq]
        exact List.mem_map_of_mem hd
    case isFalse h =>
      have hkey : e.key ≠ (p.publicOwner, p.publicAssetId) := fun heq =>
        h ⟨(Prod.mk.inj heq).1, (Prod.mk.inj heq).2⟩
      rcases List.mem_cons.mp hd with rfl | hd
      · exact .inl ⟨List.mem_cons_self, hkey⟩
      · rcases ih hnodup hd with ⟨hmem, hne⟩ | ⟨heq, ⟨e', he', hsame, hvalue⟩ | ⟨hnew, hvalue⟩⟩
        · exact .inl ⟨List.mem_cons_of_mem e hmem, hne⟩
        · exact .inr ⟨heq, .inl ⟨e', List.mem_cons_of_mem e he', hsame, hvalue⟩⟩
        · refine .inr ⟨heq, .inr ⟨?_, hvalue⟩⟩
          rw [List.map_cons, List.mem_cons, not_or]
          exact ⟨fun hsame => hkey (hsame ▸ heq), hnew⟩

end

/-- If the list sums up the proofs, so does it after the next proof. -/
lemma Requires.addRequiredDeposit {ds : List RequiredDeposit} {proofs : List ProofData}
    (h : Requires ds proofs) (p : ProofData) : Requires (addRequiredDeposit p ds) (proofs ++ [p]) where
  keys := by
    rw [addRequiredDeposit_keys]
    split
    case isTrue => exact h.keys
    case isFalse hnew =>
      exact List.nodup_append'.mpr ⟨h.keys, List.nodup_singleton _, fun k hk hkp =>
        hnew (List.mem_singleton.mp hkp ▸ hk)⟩
  value d hd := by
    rw [depositSum_append, depositSum_singleton]
    rcases mem_addRequiredDeposit h.keys hd with ⟨hmem, hne⟩ | ⟨hkey, hsource⟩
    · rw [if_neg fun heq => hne (Prod.ext heq.1.symm heq.2.symm), h.value d hmem, Nat.add_zero]
    · rw [if_pos ⟨(Prod.mk.inj hkey).1.symm, (Prod.mk.inj hkey).2.symm⟩]
      rcases hsource with ⟨e, he, hsame, hvalue⟩ | ⟨hnew, hvalue⟩
      · rw [hvalue, h.value e he, (Prod.mk.inj hsame).1, (Prod.mk.inj hsame).2]
      · have hzero : depositSum proofs d.publicOwner d.publicAssetId = 0 := by
          by_contra hne
          exact hnew (h.complete _ _ hne)
        rw [hvalue, hzero, Nat.zero_add]
  complete o a hne := by
    rw [depositSum_append, depositSum_singleton] at hne
    rw [addRequiredDeposit_keys]
    by_cases hp : p.publicOwner = o ∧ p.publicAssetId = a
    · obtain ⟨rfl, rfl⟩ := hp
      split
      case isTrue hmem => exact hmem
      case isFalse => exact List.mem_append_right _ List.mem_cons_self
    · rw [if_neg hp, Nat.add_zero] at hne
      have hold := h.complete o a hne
      split
      case isTrue => exact hold
      case isFalse => exact List.mem_append_left _ hold

/-- The required deposits sum up the deposits of a request. -/
lemma requiredDeposits_spec (txs : List Tx) : Requires (requiredDeposits txs) (depositProofs txs) := by
  have hfold (ps qs : List ProofData) (ds : List RequiredDeposit) (h : Requires ds qs) :
      Requires (ps.foldl (fun ds p => TxReceiver.addRequiredDeposit p ds) ds) (qs ++ ps) := by
    induction ps generalizing ds qs with
    | nil => rwa [List.append_nil]
    | cons p ps ih =>
      have hnext := ih (qs ++ [p]) _ (h.addRequiredDeposit p)
      rwa [List.append_assoc] at hnext
  exact hfold (depositProofs txs) [] [] ⟨List.nodup_nil, nofun, fun _ _ hne => absurd rfl hne⟩

/-! ## The invariants -/

/-- `validateChain` has been passed. -/
def Stage.pastChain : Stage → Prop
  | .chain => False
  | _ => True

/-- `validateNullifiers` has been passed. -/
def Stage.pastNullifiers : Stage → Prop
  | .chain | .nullifiers => False
  | _ => True

/-- What a request knows of the transactions that are not settled. -/
structure Receiving.Distinct (E : Env) (P : Pool) (r : Receiving) : Prop where
  links : r.stage.pastChain → FreshLinks P r.txs
  nullifiers : r.stage.pastNullifiers → FreshNullifiers P.unsettled r.txs
  built : ∀ txDaos, r.stage = .validate txDaos →
    List.Forall₂ (Built E r.secondClass) (r.txs.take txDaos.length) txDaos
  times : ∀ txDaos, r.stage = .validate txDaos → txDaos.Pairwise (·.created < ·.created)

/-- What is cached has the links of all unsettled transactions. -/
def Cached.Covers (c : Cached) (P : Pool) : Prop :=
  ∀ u ∈ P.unsettled, ∃ p ∈ c.getUnsettledTxs, P.link u = p.backwardLink

/-- The transactions that are not settled have different nullifiers and links, and what is cached has
their links, unless a request was saved since. -/
structure Distinct (E : Env) (s : State) : Prop where
  nullifiers : s.pool.unsettledNullifiers.Nodup
  links : s.pool.LinksApart
  request : ∀ r, s.receiving = some r → r.Distinct E s.pool
  saved : ∀ c ∈ s.cached, c.saved ≤ s.saved
  cached : ∀ c ∈ s.cached, c.saved = s.saved → c.Covers s.pool

/-- What the unsettled rows still take from a pending deposit. -/
def State.unsettledDeposits (s : State) (owner assetId : Nat) : Nat :=
  s.pool.deposits s.mined.flatten owner assetId

/-- With the unsettled deposits, a deposit is at most what is pending. -/
def State.Covered (s : State) (d : RequiredDeposit) : Prop :=
  d.value + s.unsettledDeposits d.publicOwner d.publicAssetId ≤
    s.pendingDeposit d.publicOwner d.publicAssetId

/-- What is known at a stage: the deposits compared so far are covered. -/
def Stage.Covered (s : State) (txs : List Tx) : Stage → Prop
  | .pendingDeposits unsettledTxs required =>
    (∀ o a, s.unsettledDeposits o a ≤ depositSum unsettledTxs o a) ∧
      ∃ done, requiredDeposits txs = done ++ required ∧ ∀ d ∈ done, s.Covered d
  | .validate _ => ∀ d ∈ requiredDeposits txs, s.Covered d
  | _ => True

/-- What a request knows while the rollups are ours. -/
structure Receiving.Own (s : State) (r : Receiving) : Prop where
  chained : r.stage.pastChain → Chained s.pool.Chainable r.txs
  nullifiers : r.stage.pastNullifiers → FreshNullifiers s.pool.txs.rows r.txs
  covered : r.stage.Covered s r.txs

/-- What is cached has notes that can still be chained from, and the deposits that are unsettled. -/
structure Cached.Own (c : Cached) (s : State) : Prop where
  chainable : ∀ p ∈ c.getUnsettledTxs, ∀ n, p.chainable n = true → s.pool.Chainable n
  deposits : ∀ o a, s.unsettledDeposits o a ≤ depositSum c.getUnsettledDepositTxs o a

/-- While the rollups are ours, links are found, and deposits are pending. -/
structure Own (E : Env) (s : State) : Prop where
  nullifiers : s.pool.nullifiers.Nodup
  verified : Verified E s.pool
  linked : s.pool.Linked
  deposits : ∀ o a, s.unsettledDeposits o a ≤ s.pendingDeposit o a
  request : ∀ r, s.receiving = some r → r.Own s
  cached : ∀ c ∈ s.cached, c.saved = s.saved → c.Own s

/-- The transactions that are validated are later than the unsettled ones that they link to. -/
def Receiving.Later (P : Pool) (r : Receiving) : Prop :=
  ∀ txDaos, r.stage = .validate txDaos → List.Forall₂ (fun tx t => tx.link ≠ 0 →
    ∀ u ∈ P.unsettled, (P.proofData u.id).chainable tx.link → u.created < t.created)
    (r.txs.take txDaos.length) txDaos

/-- Links are to earlier transactions. -/
structure Later (s : State) : Prop where
  linked : s.pool.LinkedEarlier
  request : ∀ r, s.receiving = some r → r.Later s.pool

variable {s s' : State} {r : Receiving}

/-! ## What a run must keep to -/

/-- The request reads the cached database. -/
def Stage.readsCache : Stage → Prop
  | .chain | .unsettledDeposits => True
  | _ => False

instance (stage : Stage) : Decidable stage.readsCache := by
  cases stage <;> unfold Stage.readsCache <;> infer_instance

/-- The transaction that is validated next. -/
def Receiving.validating (r : Receiving) : Option Tx :=
  match r.stage with
  | .validate txDaos => r.txs[txDaos.length]?
  | _ => none

/-- What a request reads of the cached database misses no request that is saved. -/
def ReadsSaved (s : State) : Action → Prop
  | .next => ∀ r ∈ s.receiving, r.stage.readsCache → s.cache.saved = s.saved
  | _ => True

/-- When a transaction is validated, the unsettled transactions that it links to have a time that is
past. -/
def ClockPast (s : State) : Action → Prop
  | .next => ∀ r ∈ s.receiving, ∀ tx ∈ r.validating, tx.link ≠ 0 →
    ∀ u ∈ s.pool.unsettled, (s.proofData u.id).chainable tx.link → u.created < s.now
  | _ => True

instance (s : State) (a : Action) : Decidable (ReadsSaved s a) := by
  cases a <;> unfold ReadsSaved <;> infer_instance

instance (s : State) (a : Action) : Decidable (ClockPast s a) := by
  cases a <;> unfold ClockPast <;> infer_instance

/-! ## Settlement -/

/-- No transaction becomes unsettled. -/
structure Shrinks (P P' : Pool) : Prop where
  nullifiers : P'.unsettledNullifiers.Sublist P.unsettledNullifiers
  links : ∀ u ∈ P'.unsettled, ∃ t ∈ P.unsettled, t.id = u.id ∧ P'.link u = P.link t

/-- A pool shrinks to itself. -/
lemma Shrinks.refl : Shrinks P P := ⟨.refl _, fun u hu => ⟨u, hu, rfl, rfl⟩⟩

/-- What a request has established of distinctness outlives rows that go. -/
lemma Receiving.Distinct.shrinks (h : r.Distinct E P) (hP : Shrinks P P') : r.Distinct E P' where
  links hpast := by
    refine ⟨(h.links hpast).1, fun tx htx hne u hu => ?_⟩
    obtain ⟨t, ht, -, hlink⟩ := hP.links u hu
    rw [hlink]
    exact (h.links hpast).2 tx htx hne t ht
  nullifiers hpast := (h.nullifiers hpast).mono fun n hn => hP.nullifiers.subset hn
  built := h.built
  times := h.times

/-- What a step of the settlement leaves alone. -/
structure SameRequest (s s' : State) : Prop where
  receiving : s'.receiving = s.receiving
  cached : s'.cached = s.cached
  saved : s'.saved = s.saved

/-- So does the invariant. -/
lemma Distinct.shrinks (h : Distinct E s) (hsame : SameRequest s s')
    (hP : Shrinks s.pool s'.pool) : Distinct E s' where
  nullifiers := h.nullifiers.sublist hP.nullifiers
  links t ht u hu hne heq := by
    obtain ⟨t', ht', hid, hlink⟩ := hP.links t ht
    obtain ⟨u', hu', hid', hlink'⟩ := hP.links u hu
    rw [hlink] at hne
    rw [hlink, hlink'] at heq
    rw [← hid, ← hid']
    exact h.links t' ht' u' hu' hne heq
  request r hr := (h.request r (hsame.receiving ▸ hr)).shrinks hP
  saved c hc := by
    rw [hsame.saved]
    exact h.saved c (hsame.cached ▸ hc)
  cached c hc heq u hu := by
    obtain ⟨t, ht, -, hlink⟩ := hP.links u hu
    rw [hlink]
    exact h.cached c (hsame.cached ▸ hc) (heq.trans hsame.saved) t ht

/-- What our settlement keeps of the pool and of the deposits. -/
structure Settles (E : Env) (s s' : State) : Prop where
  same : SameRequest s s'
  nullifiers : s'.pool.txs.rows.flatMap TxDao.nullifiers = s.pool.txs.rows.flatMap TxDao.nullifiers
  verified : Verified E s.pool → Verified E s'.pool
  rows : ∀ t ∈ s.pool.txs.rows, ∃ u ∈ s'.pool.txs.rows,
    s'.pool.proofData u.id = s.pool.proofData t.id ∧ u.created = t.created ∧
      (u.mined = none → t.mined = none)
  unsettled : ∀ u ∈ s'.pool.unsettled, ∃ t ∈ s.pool.unsettled,
    s'.pool.proofData u.id = s.pool.proofData t.id ∧ u.created = t.created
  deposits : ∀ o a, s'.unsettledDeposits o a ≤ s.unsettledDeposits o a
  covered : ∀ o a x, x + s.unsettledDeposits o a ≤ s.pendingDeposit o a →
    x + s'.unsettledDeposits o a ≤ s'.pendingDeposit o a

/-- A note that could be chained from still can be after a settlement. -/
lemma Settles.chainable (h : Settles E s s') {n : Nat} (hn : s.pool.Chainable n) :
    s'.pool.Chainable n := by
  obtain ⟨t, ht, hchain⟩ := hn
  obtain ⟨u, hu, hproof, -, -⟩ := h.rows t ht
  exact ⟨u, hu, hproof ▸ hchain⟩

/-- The same for the notes of rows created before a given time. -/
lemma Settles.chainableBefore (h : Settles E s s') {n time : Nat}
    (hn : s.pool.ChainableBefore n time) : s'.pool.ChainableBefore n time := by
  obtain ⟨t, ht, hchain, hbefore⟩ := hn
  obtain ⟨u, hu, hproof, hcreated, hmined⟩ := h.rows t ht
  exact ⟨u, hu, hproof ▸ hchain, fun hnone => hcreated ▸ hbefore (hmined hnone)⟩

/-- What a request has established of its links outlives a settlement. -/
lemma Receiving.Own.settles (h : r.Own s) (hs : Settles E s s') : r.Own s' where
  chained hpast := (h.chained hpast).mono fun _ => hs.chainable
  nullifiers hpast := (h.nullifiers hpast).mono fun n hn => hs.nullifiers ▸ hn
  covered := by
    have hcovered := h.covered
    cases hstage : r.stage with
    | pendingDeposits unsettledTxs required =>
      rw [hstage] at hcovered
      obtain ⟨hread, done, hdone, hall⟩ := hcovered
      exact ⟨fun o a => (hs.deposits o a).trans (hread o a), done, hdone,
        fun d hd => hs.covered _ _ _ (hall d hd)⟩
    | validate txDaos =>
      rw [hstage] at hcovered
      exact fun d hd => hs.covered _ _ _ (hcovered d hd)
    | _ => trivial

/-- So does the invariant. -/
lemma Own.settles (h : Own E s) (hs : Settles E s s') : Own E s' where
  nullifiers := by
    show (s'.pool.txs.rows.flatMap TxDao.nullifiers).Nodup
    rw [hs.nullifiers]
    exact h.nullifiers
  verified := hs.verified h.verified
  linked u hu hne := by
    obtain ⟨t, ht, hproof, -⟩ := hs.unsettled u hu
    have hlink : s'.pool.link u = s.pool.link t := congrArg ProofData.backwardLink hproof
    rw [hlink] at hne ⊢
    exact hs.chainable (h.linked t ht hne)
  deposits o a := by
    have hzero := h.deposits o a
    rw [← Nat.zero_add (s.unsettledDeposits o a)] at hzero
    exact (Nat.zero_add (s'.unsettledDeposits o a)) ▸ hs.covered o a 0 hzero
  request r hr := (h.request r (hs.same.receiving ▸ hr)).settles hs
  cached c hc heq := by
    have hold := h.cached c (hs.same.cached ▸ hc) (heq.trans hs.same.saved)
    exact ⟨fun p hp n hn => hs.chainable (hold.chainable p hp n hn),
      fun o a => (hs.deposits o a).trans (hold.deposits o a)⟩

/-- Creation times stay behind those of the rows linked to. -/
lemma Later.settles (h : Later s) (hs : Settles E s s') : Later s' where
  linked u hu hne := by
    obtain ⟨t, ht, hproof, hcreated⟩ := hs.unsettled u hu
    have hlink : s'.pool.link u = s.pool.link t := congrArg ProofData.backwardLink hproof
    rw [hlink] at hne ⊢
    rw [hcreated]
    exact hs.chainableBefore (h.linked t ht hne)
  request r hr txDaos hstage := by
    refine (h.request r (hs.same.receiving ▸ hr) txDaos hstage).imp fun tx t hlater hne u hu hchain => ?_
    obtain ⟨v, hv, hproof, hcreated⟩ := hs.unsettled u hu
    rw [hcreated]
    exact hlater hne v hv (hproof ▸ hchain)

/-- Nothing changes but what is pending on chain. -/
lemma settles_of_pool (hpool : s'.pool = s.pool) (hsame : SameRequest s s')
    (hmined : s'.mined = s.mined) (hpending : ∀ o a, s.pendingDeposit o a ≤ s'.pendingDeposit o a) :
    Settles E s s' where
  same := hsame
  nullifiers := by rw [hpool]
  verified h := hpool ▸ h
  rows t ht := ⟨t, hpool ▸ ht, by rw [hpool], rfl, id⟩
  unsettled u hu := ⟨u, hpool ▸ hu, by rw [hpool], rfl⟩
  deposits o a := by
    unfold State.unsettledDeposits
    rw [hpool, hmined]
  covered o a x h := by
    unfold State.unsettledDeposits at *
    rw [hpool, hmined]
    exact h.trans (hpending o a)

/-! ### Our rollups -/

/-- The rows after a rollup is confirmed. -/
def confirm (txIds : List Nat) (mined : Nat) (t : TxDao) : TxDao :=
  if txIds.contains t.id then { t with mined := some mined } else t

/-- `confirmMined` keeps the ids. -/
lemma confirm_id (txIds : List Nat) (mined : Nat) (t : TxDao) : (confirm txIds mined t).id = t.id := by
  unfold confirm
  split <;> rfl

/-- It keeps the nullifiers. -/
lemma confirm_nullifiers (txIds : List Nat) (mined : Nat) (t : TxDao) :
    (confirm txIds mined t).nullifiers = t.nullifiers := by
  unfold confirm
  split <;> rfl

/-- It keeps the creation times. -/
lemma confirm_created (txIds : List Nat) (mined : Nat) (t : TxDao) :
    (confirm txIds mined t).created = t.created := by
  unfold confirm
  split <;> rfl

/-- A row that is not settled after it was not settled before. -/
lemma confirm_mined (txIds : List Nat) (mined : Nat) (t : TxDao)
    (h : (confirm txIds mined t).mined = none) : t.mined = none := by
  unfold confirm at h
  split at h
  case isTrue => nomatch h
  case isFalse => exact h

/-- The transactions of the rollup are settled, the others stay. -/
lemma filter_confirm (rows : List TxDao) (txIds : List Nat) (mined : Nat) :
    (rows.map (confirm txIds mined)).filter (·.mined.isNone) =
      (rows.filter (·.mined.isNone)).filter (·.id ∉ txIds) := by
  induction rows with
  | nil => rfl
  | cons t rows ih =>
    by_cases hmem : t.id ∈ txIds
    · have hconfirm : (confirm txIds mined t).mined.isNone = false := by
        rw [confirm, if_pos (List.contains_iff_mem.mpr hmem)]
        rfl
      cases hm : t.mined.isNone <;>
        simp only [List.map_cons, List.filter_cons, hconfirm, hm, hmem, ih, reduceIte,
          Bool.false_eq_true, not_true_eq_false, decide_false]
    · have hconfirm : confirm txIds mined t = t :=
        if_neg fun hc => hmem (List.contains_iff_mem.mp hc)
      cases hm : t.mined.isNone <;>
        simp only [List.map_cons, List.filter_cons, hconfirm, hm, hmem, ih, reduceIte,
          Bool.false_eq_true, not_false_eq_true, decide_true]

section

variable (txIds : List Nat) {rest : List (List Nat)} (minedAt : Nat)
  (hrows : s'.pool.txs.rows = s.pool.txs.rows.map (confirm txIds minedAt))
  (hproof : s'.proofData = s.proofData)

include hrows

/-- The unsettled rows after it are those whose ids are not listed. -/
lemma confirm_unsettled : s'.pool.unsettled = s.pool.unsettled.filter (·.id ∉ txIds) := by
  show s'.pool.txs.rows.filter _ = _
  rw [hrows, filter_confirm]
  rfl

include hproof

/-- It only takes rows out of the unsettled ones. -/
lemma confirm_shrinks : Shrinks s.pool s'.pool := by
  have hsub : s'.pool.unsettled.Sublist s.pool.unsettled := by
    rw [confirm_unsettled txIds minedAt hrows]
    exact List.filter_sublist
  refine ⟨hsub.flatMap _, fun u hu => ⟨u, hsub.subset hu, rfl, ?_⟩⟩
  show (s'.proofData u.id).backwardLink = (s.proofData u.id).backwardLink
  rw [hproof]

/-- It settles the first of the mined rollups. -/
lemma confirm_settles (hsame : SameRequest s s')
    (hmined : s.mined = txIds :: rest) (hrest : s'.mined = rest)
    (hpending : s'.pendingDeposit = s.pendingDeposit) : Settles E s s' := by
  have hdeposits (o a : Nat) : s'.unsettledDeposits o a = s.unsettledDeposits o a := by
    unfold State.unsettledDeposits Pool.deposits
    rw [confirm_unsettled txIds minedAt hrows, hmined, hrest]
    show depositSum (List.map (fun t : TxDao => s'.proofData t.id) _) o a =
      depositSum (List.map (fun t : TxDao => s.proofData t.id) _) o a
    rw [hproof]
    refine congrArg (fun rows : List TxDao => depositSum (rows.map fun t => s.proofData t.id) o a) ?_
    rw [List.filter_filter, List.filter_filter, List.filter_filter]
    refine List.filter_congr fun t _ => ?_
    by_cases h₁ : t.id ∈ txIds <;> by_cases h₂ : t.id ∈ rest.flatten <;> simp [h₁, h₂]
  refine ⟨hsame, ?_, ?_, ?_, ?_, fun o a => (hdeposits o a).le, ?_⟩
  · rw [hrows, List.flatMap_map]
    exact congrArg (List.flatMap · _) (funext (confirm_nullifiers txIds minedAt))
  · intro hverified u hu
    rw [hrows] at hu
    obtain ⟨t, ht, rfl⟩ := List.mem_map.mp hu
    show _ = E.createTxId (s'.proofData _).toInnerProofData ∧ _ = (s'.proofData _).nullifiers ∧
      E.verifyProof (s'.proofData _) = true
    rw [confirm_id, confirm_nullifiers, hproof]
    exact hverified t ht
  · intro t ht
    refine ⟨confirm txIds minedAt t, hrows ▸ List.mem_map_of_mem ht, ?_,
      confirm_created txIds minedAt t, confirm_mined txIds minedAt t⟩
    show s'.proofData _ = s.proofData t.id
    rw [confirm_id, hproof]
  · intro u hu
    rw [confirm_unsettled txIds minedAt hrows] at hu
    exact ⟨u, (List.mem_filter.mp hu).1, congrFun hproof u.id, rfl⟩
  · intro o a x h
    rw [hdeposits, hpending]
    exact h

end

/-- One more settled id takes one row out of those that remain. -/
lemma filter_mined {rows : List TxDao} (hnodup : (rows.map TxDao.id).Nodup) (mined : List Nat)
    (ht : t ∈ rows) (hnew : t.id ∉ mined) :
    (rows.filter (·.id ∉ mined)).Perm (rows.filter (·.id ∉ mined ++ [t.id]) ++ [t]) := by
  have hmem : t ∈ rows.filter (·.id ∉ mined) := List.mem_filter.mpr ⟨ht, decide_eq_true hnew⟩
  have herase : (rows.filter (·.id ∉ mined)).erase t = rows.filter (·.id ∉ mined ++ [t.id]) := by
    rw [((List.Nodup.of_map TxDao.id hnodup).filter _).erase_eq_filter, List.filter_filter]
    refine List.filter_congr fun u hu => ?_
    have hsame : u = t ↔ u.id = t.id :=
      ⟨congrArg TxDao.id, fun hid => List.inj_on_of_nodup_map hnodup hu ht hid⟩
    by_cases h₁ : u.id ∈ mined <;> by_cases h₂ : u.id = t.id <;> simp [h₁, h₂, hsame]
  rw [← herase]
  exact (List.perm_cons_erase hmem).trans (List.perm_append_singleton t _).symm

/-- The unsettled deposits without one more transaction, that is mined. -/
lemma deposits_mined (P : Pool) (mined : List Nat) {t : TxDao} (ht : t ∈ P.unsettled)
    (hnew : t.id ∉ mined) (o a : Nat) :
    P.deposits mined o a = P.deposits (mined ++ [t.id]) o a +
      if t.txType = .DEPOSIT then depositSum [P.proofData t.id] o a else 0 := by
  have hnodup : ((P.unsettled.filter (·.txType = .DEPOSIT)).map TxDao.id).Nodup :=
    P.txs.nodup.sublist ((List.filter_sublist.trans List.filter_sublist).map TxDao.id)
  unfold Pool.deposits
  split
  case isTrue hdeposit =>
    have hmem : t ∈ P.unsettled.filter (·.txType = .DEPOSIT) :=
      List.mem_filter.mpr ⟨ht, decide_eq_true hdeposit⟩
    rw [depositSum_perm ((filter_mined hnodup mined hmem hnew).map _), List.map_append,
      depositSum_append]
    rfl
  case isFalse hdeposit =>
    rw [Nat.add_zero]
    refine congrArg (fun rows : List TxDao => depositSum (rows.map fun t => P.proofData t.id) o a) ?_
    refine List.filter_congr fun u hu => decide_eq_decide.mpr ?_
    rw [List.mem_append, List.mem_singleton, not_or, and_iff_left]
    intro hid
    obtain ⟨hu, htype⟩ := List.mem_filter.mp hu
    have hsame : u = t :=
      List.inj_on_of_nodup_map P.txs.nodup (List.mem_filter.mp hu).1 (List.mem_filter.mp ht).1 hid
    exact hdeposit (hsame ▸ of_decide_eq_true htype)

/-- A pending deposit is changed at its own owner and asset only. -/
lemma setPending_apply (pending : Nat → Nat → Nat) (owner assetId value o a : Nat) :
    setPending pending owner assetId value o a =
      if owner = o ∧ assetId = a then value else pending o a := by
  unfold setPending
  by_cases ho : o = owner
  · subst ho
    rw [Function.update_self]
    by_cases ha : a = assetId
    · subst ha
      rw [Function.update_self, if_pos ⟨rfl, rfl⟩]
    · rw [Function.update_of_ne ha, if_neg fun h => ha h.2.symm]
  · rw [Function.update_of_ne ho, if_neg fun h => ho h.1.symm]

/-- What the contract takes for mined transactions is no longer unsettled. -/
lemma takeDeposit_spec {pending pending' : Nat → Nat → Nat} {txId : Nat} (mined : List Nat)
    (htake : takeDeposit s pending txId = some pending')
    (hunsettled : ∃ t ∈ s.pool.unsettled, t.id = txId) (hnew : txId ∉ mined) (o a : Nat) :
    ∃ v, pending o a = pending' o a + v ∧
      s.pool.deposits mined o a = s.pool.deposits (mined ++ [txId]) o a + v := by
  obtain ⟨t, ht, rfl⟩ := hunsettled
  refine ⟨_, ?_, deposits_mined s.pool mined ht hnew o a⟩
  have hfind : s.db.txs.find? t.id = some t := Table.find?_key (List.mem_filter.mp ht).1
  unfold takeDeposit at htake
  rw [hfind] at htake
  dsimp only at htake
  by_cases hdeposit : t.txType = .DEPOSIT
  · rw [if_neg (not_not_intro hdeposit)] at htake
    rw [if_pos hdeposit, depositSum_singleton]
    split at htake
    case isTrue => cases htake
    case isFalse hle =>
      cases htake
      rw [setPending_apply]
      show pending o a = _ + if (s.proofData t.id).publicOwner = o ∧
        (s.proofData t.id).publicAssetId = a then (s.proofData t.id).publicValue else 0
      split
      case isTrue h =>
        rw [h.1, h.2] at hle ⊢
        omega
      case isFalse => rw [Nat.add_zero]
  · rw [if_pos hdeposit] at htake
    cases htake
    rw [if_neg hdeposit, Nat.add_zero]

/-- What a mined rollup takes from a pending deposit is what its rows deposit. -/
lemma takeDeposits_spec {pending pending' : Nat → Nat → Nat} {txIds : List Nat} (mined : List Nat)
    (htake : txIds.foldlM (takeDeposit s) pending = some pending') (hnodup : txIds.Nodup)
    (hunsettled : ∀ id ∈ txIds, id ∉ mined ∧ ∃ t ∈ s.pool.unsettled, t.id = id) (o a : Nat) :
    ∃ v, pending o a = pending' o a + v ∧
      s.pool.deposits mined o a = s.pool.deposits (mined ++ txIds) o a + v := by
  induction txIds generalizing pending mined with
  | nil =>
    cases htake
    exact ⟨0, rfl, by rw [List.append_nil]; rfl⟩
  | cons id txIds ih =>
    rw [List.foldlM_cons] at htake
    obtain ⟨pending₁, hfirst, hrest⟩ := Option.bind_eq_some_iff.mp htake
    obtain ⟨hnotin, hnodup⟩ := List.nodup_cons.mp hnodup
    obtain ⟨hnew, hself⟩ := hunsettled id List.mem_cons_self
    obtain ⟨v, hv, hdeposits⟩ := takeDeposit_spec mined hfirst hself hnew o a
    obtain ⟨w, hw, hdeposits'⟩ := ih (mined ++ [id]) hrest hnodup fun i hi => by
      obtain ⟨hold, hrow⟩ := hunsettled i (List.mem_cons_of_mem id hi)
      refine ⟨fun hmem => ?_, hrow⟩
      rcases List.mem_append.mp hmem with hm | hm
      · exact hold hm
      · exact hnotin (List.mem_singleton.mp hm ▸ hi)
    refine ⟨w + v, by omega, ?_⟩
    rw [hdeposits, hdeposits', List.append_assoc, List.singleton_append, Nat.add_assoc]

/-- Mining a rollup is a settlement, and pays its deposits. -/
lemma mine_settles {txIds : List Nat} (hs : step E s (.mine txIds) = some s') : Settles E s s' := by
  rw [step] at hs
  split at hs
  case isFalse => cases hs
  case isTrue hguard =>
    obtain ⟨pending, htake, rfl⟩ := Option.map_eq_some_iff.mp hs
    have hspec (o a : Nat) := takeDeposits_spec (s := s) s.mined.flatten htake hguard.1 hguard.2 o a
    have hdeposits (o a : Nat) : State.unsettledDeposits
        { s with pendingDeposit := pending, mined := s.mined ++ [txIds] } o a =
          s.pool.deposits (s.mined.flatten ++ txIds) o a := by
      show s.pool.deposits (s.mined ++ [txIds]).flatten o a = _
      rw [List.flatten_concat]
    refine ⟨⟨rfl, rfl, rfl⟩, rfl, id, fun t ht => ⟨t, ht, rfl, rfl, id⟩, fun u hu => ⟨u, hu, rfl, rfl⟩,
      fun o a => ?_, fun o a x h => ?_⟩
    · obtain ⟨v, -, hv⟩ := hspec o a
      rw [hdeposits, State.unsettledDeposits, hv]
      exact Nat.le_add_right _ v
    · obtain ⟨v, hpending, hv⟩ := hspec o a
      rw [hdeposits]
      rw [State.unsettledDeposits] at h
      show x + s.pool.deposits (s.mined.flatten ++ txIds) o a ≤ pending o a
      omega

/-! ### Rollups of others -/

/-- Proof data of an id that is not listed stays. -/
lemma setProofData_of_notMem {f : Nat → ProofData} {l : List (Nat × ProofData)} {id : Nat}
    (h : id ∉ l.map Prod.fst) : setProofData f l id = f id := by
  induction l generalizing f with
  | nil => rfl
  | cons x l ih =>
    rw [List.map_cons, List.mem_cons, not_or] at h
    exact (ih h.2).trans (Function.update_of_ne h.1 _ _)

/-- Settled transactions are saved. -/
lemma saveAll_unsettled {txs : Table TxDao TxDao.id} {l : List TxDao}
    (hmined : ∀ t ∈ l, t.mined.isSome) :
    (txs.saveAll l).rows.filter (·.mined.isNone) =
      (txs.rows.filter (·.mined.isNone)).filter (·.id ∉ l.map TxDao.id) := by
  induction l generalizing txs with
  | nil =>
    refine (List.filter_eq_self.mpr fun _ _ => ?_).symm
    exact decide_eq_true List.not_mem_nil
  | cons x l ih =>
    have hx : x.mined.isNone = false := by
      rw [← Option.not_isSome, hmined x List.mem_cons_self]
      rfl
    have hself : [x].filter (·.mined.isNone) = [] := by
      rw [List.filter_cons, hx]
      rfl
    have hsave : (txs.save x).rows.filter (·.mined.isNone) =
        (txs.rows.filter (·.mined.isNone)).filter (·.id ≠ x.id) := by
      show ((txs.rows.filter _) ++ [x]).filter _ = _
      rw [List.filter_append, hself, List.append_nil, List.filter_filter, List.filter_filter]
      refine List.filter_congr fun u _ => ?_
      rw [Bool.and_comm, decide_not]
    show ((txs.save x).saveAll l).rows.filter _ = _
    rw [ih fun t ht => hmined t (List.mem_cons_of_mem x ht), hsave, List.filter_filter]
    refine List.filter_congr fun u _ => ?_
    by_cases h₁ : u.id = x.id <;> by_cases h₂ : u.id ∈ l.map TxDao.id <;>
      simp only [List.map_cons, List.mem_cons, h₁, h₂, ne_eq, not_true_eq_false, not_false_eq_true,
        decide_true, decide_false, Bool.and_self, Bool.and_true, Bool.and_false, true_or, or_true,
        or_self]

/-- Deleted proofs change no transaction but for its link to the proof. -/
lemma deleteProofs_txs (db : RollupDb) (p : RollupProofDao → Bool) : ∃ g : TxDao → TxDao,
    (db.deleteProofs p).txs.rows = db.txs.rows.map g ∧
      ∀ t, (g t).id = t.id ∧ (g t).nullifiers = t.nullifiers ∧ (g t).mined = t.mined := by
  refine ⟨_, rfl, fun t => ?_⟩
  split <;> exact ⟨rfl, rfl, rfl⟩

/-- The transactions of the rollup are settled, the others stay. -/
lemma addRollup_unsettled (db : RollupDb) (rollup : RollupDao) (proof : RollupProofDao)
    {txs : List (Nat × TxDao)} (hmined : ∀ tx ∈ txs, tx.2.mined.isSome) : ∃ g : TxDao → TxDao,
    (db.addRollup rollup proof txs).txs.rows.filter (·.mined.isNone) =
      ((db.txs.rows.filter (·.mined.isNone)).map g).filter (·.id ∉ txs.map (·.2.id)) ∧
      ∀ t, (g t).id = t.id ∧ (g t).nullifiers = t.nullifiers := by
  obtain ⟨g, hrows, hg⟩ := deleteProofs_txs
    { db.deleteRollups (·.id = rollup.id) with
      rollups := (db.deleteRollups (·.id = rollup.id)).rollups.save rollup } (·.id = proof.id)
  refine ⟨g, ?_, fun t => ⟨(hg t).1, (hg t).2.1⟩⟩
  have hfilter : (db.txs.rows.map g).filter (·.mined.isNone) =
      (db.txs.rows.filter (·.mined.isNone)).map g := by
    rw [List.filter_map]
    refine congrArg (List.map g) (List.filter_congr fun t _ => ?_)
    show (g t).mined.isNone = t.mined.isNone
    rw [(hg t).2.2]
  unfold RollupDb.addRollup
  dsimp only
  rw [saveAll_unsettled, hrows]
  · show ((db.txs.rows.map g).filter _).filter _ = _
    rw [hfilter, List.map_map]
    rfl
  · intro t ht
    obtain ⟨tx, htx, rfl⟩ := List.mem_map.mp ht
    exact hmined tx htx

/-- The row of a mined rollup of others takes no room in the pool. -/
lemma addRollup_shrinks {rollup : RollupDao} {proof : RollupProofDao}
    {txs : List (Nat × TxDao × ProofData)}
    (hs : step E s (.addRollup rollup proof txs) = some s') : Shrinks s.pool s'.pool := by
  rw [step] at hs
  dsimp only at hs
  split at hs
  case isFalse => cases hs
  case isTrue hguard =>
    cases hs
    have hmined : ∀ tx ∈ txs.map fun tx => (tx.1, tx.2.1), tx.2.mined.isSome := by
      intro tx htx
      obtain ⟨tx', htx', rfl⟩ := List.mem_map.mp htx
      exact hguard.2.1 tx' htx'
    obtain ⟨g, hunsettled, hg⟩ := addRollup_unsettled s.db rollup proof hmined
    have hids : (txs.map fun tx => (tx.2.1.id, tx.2.2)).map Prod.fst =
        (txs.map fun tx => (tx.1, tx.2.1)).map (·.2.id) := by
      rw [List.map_map, List.map_map]
      rfl
    constructor
    · show (List.flatMap TxDao.nullifiers (List.filter (·.mined.isNone)
        (s.db.addRollup rollup proof (txs.map fun tx => (tx.1, tx.2.1))).txs.rows)).Sublist _
      rw [hunsettled]
      refine (List.filter_sublist.flatMap _).trans ?_
      rw [List.flatMap_map, show (fun t => (g t).nullifiers) = TxDao.nullifiers from
        funext fun t => (hg t).2]
      exact .refl _
    · intro u hu
      have hu' : u ∈ List.filter (·.mined.isNone)
        (s.db.addRollup rollup proof (txs.map fun tx => (tx.1, tx.2.1))).txs.rows := hu
      rw [hunsettled] at hu'
      obtain ⟨hmem, hnotin⟩ := List.mem_filter.mp hu'
      obtain ⟨t, ht, rfl⟩ := List.mem_map.mp hmem
      refine ⟨t, ht, (hg t).1.symm, congrArg ProofData.backwardLink ?_⟩
      show setProofData s.proofData (txs.map fun tx => (tx.2.1.id, tx.2.2)) (g t).id = s.proofData t.id
      rw [setProofData_of_notMem (hids ▸ of_decide_eq_true hnotin), (hg t).1]

/-- Purging only takes rows away. -/
lemma purge_shrinks {ids : List Nat} (hs : step E s (.purgeInvalidTxs ids) = some s') :
    Shrinks s.pool s'.pool := by
  rw [step] at hs
  split at hs
  case isFalse => cases hs
  case isTrue =>
    cases hs
    have hsub (rows : List TxDao) (p : TxDao → Bool) :
        ((rows.filter p).filter (·.mined.isNone)).Sublist (rows.filter (·.mined.isNone)) :=
      List.filter_sublist.filter _
    exact ⟨(hsub s.db.txs.rows _).flatMap _,
      fun u hu => ⟨u, (hsub s.db.txs.rows _).subset hu, rfl, rfl⟩⟩

/-! ## The request -/

/-- A request that ends keeps the invariant. -/
lemma Distinct.fail (h : Distinct E s) : Distinct E { s with receiving := none } :=
  ⟨h.nullifiers, h.links, nofun, h.saved, h.cached⟩

/-- A request that ends keeps the links. -/
lemma Own.fail (h : Own E s) : Own E { s with receiving := none } :=
  ⟨h.nullifiers, h.verified, h.linked, h.deposits, nofun, fun c hc heq =>
    ⟨(h.cached c hc heq).chainable, (h.cached c hc heq).deposits⟩⟩

/-- A request that ends keeps the order of creation. -/
lemma Later.fail (h : Later s) : Later { s with receiving := none } := ⟨h.linked, nofun⟩

/-- So does one that moves on with what its next stage has established. -/
lemma Distinct.goOn {stage : Stage} (h : Distinct E s)
    (hr : ({ r with stage } : Receiving).Distinct E s.pool) :
    Distinct E { s with receiving := some { r with stage } } :=
  ⟨h.nullifiers, h.links, fun _ heq => Option.some.inj heq ▸ hr, h.saved, h.cached⟩

/-- So does one that moves on with what its next stage knows of its links. -/
lemma Own.goOn {stage : Stage} (h : Own E s)
    (hr : ({ r with stage } : Receiving).Own { s with receiving := some { r with stage } }) :
    Own E { s with receiving := some { r with stage } } :=
  ⟨h.nullifiers, h.verified, h.linked, h.deposits, fun _ heq => Option.some.inj heq ▸ hr,
    fun c hc heq => ⟨(h.cached c hc heq).chainable, (h.cached c hc heq).deposits⟩⟩

/-- So does one that moves on with what its next stage knows of the times. -/
lemma Later.goOn {stage : Stage} (h : Later s) (hr : ({ r with stage } : Receiving).Later s.pool) :
    Later { s with receiving := some { r with stage } } :=
  ⟨h.linked, fun _ heq => Option.some.inj heq ▸ hr⟩

/-- The transactions of a request are validated one by one. -/
lemma built_snoc {tx : Tx} {created : Nat} {txDaos : List TxDao}
    (h : List.Forall₂ (Built E secondClass) (txs.take txDaos.length) txDaos)
    (htx : txs[txDaos.length]? = some tx) (hvalid : validateProof E tx.proof = true) :
    List.Forall₂ (Built E secondClass)
      (txs.take (txDaos ++ [toTxDao E tx secondClass created]).length)
      (txDaos ++ [toTxDao E tx secondClass created]) := by
  rw [List.length_append, List.length_singleton, List.take_add_one, htx]
  exact List.rel_append h (.cons ⟨hvalid, created, rfl⟩ .nil)

/-- The next time is after the previous one. -/
lemma lt_getNextTxTime (now previous : Nat) : previous < getNextTxTime now (some previous) := by
  unfold getNextTxTime
  dsimp only
  split
  case isTrue hlt => exact hlt
  case isFalse => exact Nat.lt_succ_self previous

/-- A transaction gets a later time than those before it. -/
lemma times_snoc {now : Nat} {t : TxDao} {txDaos : List TxDao}
    (h : txDaos.Pairwise (·.created < ·.created))
    (ht : t.created = getNextTxTime now (txDaos.getLast?.map (·.created))) :
    (txDaos ++ [t]).Pairwise (·.created < ·.created) := by
  refine List.pairwise_append.mpr ⟨h, List.pairwise_singleton _ _, fun u hu v hv => ?_⟩
  rw [List.mem_singleton.mp hv, ht]
  obtain rfl | ⟨front, last, rfl⟩ := List.eq_nil_or_concat txDaos
  · nomatch hu
  · rw [List.concat_eq_append] at h hu ⊢
    rw [List.getLast?_concat, Option.map_some]
    have hlast := lt_getNextTxTime now last.created
    rcases List.mem_append.mp hu with hfront | hself
    · exact ((List.pairwise_append.mp h).2.2 u hfront last List.mem_cons_self).trans hlast
    · rw [List.mem_singleton.mp hself]
      exact hlast

/-- Adding the transactions of an accepted request keeps nullifiers and links distinct. -/
lemma distinct_addTxs (hbuilt : List.Forall₂ (Built E secondClass) txs txDaos)
    (hnullifiers : P.unsettledNullifiers.Nodup) (hapart : P.LinksApart)
    (hlinks : FreshLinks P txs) (hfresh : FreshNullifiers P.unsettled txs) :
    (P.addTxs E txs txDaos).unsettledNullifiers.Nodup ∧ (P.addTxs E txs txDaos).LinksApart ∧
      FreshLinks (P.addTxs E txs txDaos) [] ∧ FreshNullifiers (P.addTxs E txs txDaos).unsettled [] := by
  refine addTxs_induction (I := fun P txs _ => P.unsettledNullifiers.Nodup ∧ P.LinksApart ∧
    FreshLinks P txs ∧ FreshNullifiers P.unsettled txs) hbuilt ⟨hnullifiers, hapart, hlinks, hfresh⟩ ?_
  rintro P tx txs t - hb ⟨hnullifiers, hapart, hlinks, hfresh⟩
  have hkeep : ∀ row old : TxDao, row.mined = old.mined → row.mined.isNone = true →
      old.mined.isNone = true := fun row old heq hnone => heq ▸ hnone
  obtain ⟨hnodup, hrest⟩ := save_nullifiers hkeep hb hnullifiers hfresh
  exact ⟨hnodup, save_linksApart hb hapart hlinks, save_freshLinks hb hlinks, hrest⟩

/-- What a step of a request can do: it ends, it moves on to a stage with what has been checked, or its
transactions are saved. -/
inductive Advances (E : Env) (s : State) (r : Receiving) : State → Prop where
  | fail : Advances E s r { s with receiving := none }
  | chain (hstage : r.stage = .chain)
      (hcheck : validateChain s.cache.getUnsettledTxs r.txs = true) :
      Advances E s r { s with receiving := some { r with stage := .nullifiers } }
  | nullifiers (hstage : r.stage = .nullifiers) (hcheck : validateNullifiers s.db r.txs = true) :
      Advances E s r { s with receiving := some { r with stage := .unsettledDeposits } }
  | unsettledDeposits (hstage : r.stage = .unsettledDeposits) :
      Advances E s r { s with receiving := some { r with
        stage := .pendingDeposits s.cache.getUnsettledDepositTxs (requiredDeposits r.txs) } }
  | deposit {unsettledTxs : List ProofData} {d : RequiredDeposit} {ds : List RequiredDeposit}
      (hstage : r.stage = .pendingDeposits unsettledTxs (d :: ds))
      (hle : d.value + depositSum unsettledTxs d.publicOwner d.publicAssetId ≤
        s.pendingDeposit d.publicOwner d.publicAssetId) :
      Advances E s r { s with receiving := some { r with stage := .pendingDeposits unsettledTxs ds } }
  | deposits {unsettledTxs : List ProofData} (hstage : r.stage = .pendingDeposits unsettledTxs []) :
      Advances E s r { s with receiving := some { r with stage := .validate [] } }
  | validate {txDaos : List TxDao} {tx : Tx} (hstage : r.stage = .validate txDaos)
      (htx : r.txs[txDaos.length]? = some tx) (hvalid : validateProof E tx.proof = true) :
      Advances E s r { s with receiving := some { r with
        stage := .validate (txDaos ++ [toTxDao E tx r.secondClass
          (getNextTxTime s.now (txDaos.getLast?.map (·.created)))]) } }
  | save {txDaos : List TxDao} (hstage : r.stage = .validate txDaos)
      (hall : r.txs.take txDaos.length = r.txs) :
      Advances E s r { s with
        db := RollupDb.apply (.addTxs txDaos) s.db
        proofData := setProofData s.proofData
          (r.txs.map fun tx => (E.createTxId tx.proof.toInnerProofData, tx.proof))
        saved := s.saved + 1
        receiving := none }

/-- A step of a request does one of these. -/
lemma next_advances (E : Env) (s : State) (r : Receiving) : Advances E s r (next E s r) := by
  unfold next
  cases hstage : r.stage with
  | chain =>
    dsimp only
    split
    case isTrue hcheck => exact .chain hstage hcheck
    case isFalse => exact .fail
  | nullifiers =>
    dsimp only
    split
    case isTrue hcheck => exact .nullifiers hstage hcheck
    case isFalse => exact .fail
  | unsettledDeposits => exact .unsettledDeposits hstage
  | pendingDeposits unsettledTxs required =>
    cases required with
    | nil => exact .deposits hstage
    | cons d ds =>
      dsimp only
      split
      case isTrue => exact .fail
      case isFalse hle => exact .deposit hstage (Nat.le_of_not_lt hle)
  | validate txDaos =>
    dsimp only
    split
    case h_1 tx htx =>
      split
      case isTrue hvalid => exact .validate hstage htx hvalid
      case isFalse => exact .fail
    case h_2 hall =>
      split
      case isTrue => exact .save hstage (List.take_of_length_le (List.getElem?_eq_none_iff.mp hall))
      case isFalse => exact .fail

/-- A step of a request keeps the invariant, if it reads what is saved. -/
lemma distinct_next (h : Distinct E s) (hr : s.receiving = some r) (hreads : ReadsSaved s .next)
    (hnext : Advances E s r s') : Distinct E s' := by
  have hrequest := h.request r hr
  cases hnext with
  | fail => exact h.fail
  | chain hstage hcheck =>
    obtain ⟨hpairs, hnew, -⟩ := validateChain_spec hcheck
    have hcovers := h.cached s.cache List.mem_cons_self (hreads r hr (hstage ▸ trivial))
    refine h.goOn ⟨fun _ => ⟨hpairs, fun tx htx hne u hu => ?_⟩, nofun, nofun, nofun⟩
    obtain ⟨p, hp, hlink⟩ := hcovers u hu
    rw [hlink]
    exact hnew tx htx hne p hp
  | nullifiers hstage hcheck =>
    refine h.goOn ⟨fun _ => hrequest.links (hstage ▸ trivial), fun _ => ?_, nofun, nofun⟩
    refine (validateNullifiers_spec hcheck).mono fun n hn => ?_
    exact (List.filter_sublist.flatMap _).subset hn
  | unsettledDeposits hstage =>
    exact h.goOn ⟨fun _ => hrequest.links (hstage ▸ trivial),
      fun _ => hrequest.nullifiers (hstage ▸ trivial), nofun, nofun⟩
  | deposit hstage _ =>
    exact h.goOn ⟨fun _ => hrequest.links (hstage ▸ trivial),
      fun _ => hrequest.nullifiers (hstage ▸ trivial), nofun, nofun⟩
  | deposits hstage =>
    refine h.goOn ⟨fun _ => hrequest.links (hstage ▸ trivial),
      fun _ => hrequest.nullifiers (hstage ▸ trivial), fun txDaos heq => ?_, fun txDaos heq => ?_⟩
    · cases heq
      exact .nil
    · cases heq
      exact .nil
  | @validate txDaos tx hstage htx hvalid =>
    refine h.goOn ⟨fun _ => hrequest.links (hstage ▸ trivial),
      fun _ => hrequest.nullifiers (hstage ▸ trivial), fun txDaos' heq => ?_, fun txDaos' heq => ?_⟩
    · cases heq
      exact built_snoc (hrequest.built txDaos hstage) htx hvalid
    · cases heq
      exact times_snoc (hrequest.times txDaos hstage) rfl
  | @save txDaos hstage hall =>
    have hbuilt := hrequest.built txDaos hstage
    rw [hall] at hbuilt
    obtain ⟨hnew, hapart, -⟩ := distinct_addTxs hbuilt h.nullifiers h.links
      (hrequest.links (hstage ▸ trivial)) (hrequest.nullifiers (hstage ▸ trivial))
    exact ⟨hnew, hapart, nofun, fun c hc => Nat.le_succ_of_le (h.saved c hc),
      fun c hc heq => absurd (h.saved c hc) (Nat.not_le.mpr (heq ▸ Nat.lt_succ_self s.saved))⟩

/-- The first of the transactions has new nullifiers. -/
lemma FreshNullifiers.head {rows : List TxDao} (h : FreshNullifiers rows (tx :: txs)) :
    FreshNullifiers rows [tx] := by
  refine ⟨?_, fun b hb => h.2 b ?_⟩
  · rw [List.flatMap_singleton]
    exact (List.nodup_append'.mp (List.flatMap_cons ▸ h.1)).1
  · rw [List.mem_singleton.mp hb]
    exact List.mem_cons_self

/-- The nullifiers of all transactions, too. -/
lemma save_allNullifiers (hb : Built E secondClass tx t) (hP : P.nullifiers.Nodup)
    (hfresh : FreshNullifiers P.txs.rows (tx :: txs)) :
    (P.save t tx.proof).nullifiers.Nodup ∧ FreshNullifiers (P.save t tx.proof).txs.rows txs := by
  rw [Pool.nullifiers, ← Pool.kept_true] at hP
  rw [← Pool.kept_true] at hfresh
  obtain ⟨hnodup, hrest⟩ := save_nullifiers (fun _ _ _ _ => rfl) hb hP hfresh
  rw [Pool.kept_true] at hnodup hrest
  exact ⟨hnodup, hrest⟩

/-- Adding the transactions of an accepted request keeps the rows verified and linked. -/
lemma own_addTxs (hE : E.Sound) (hbuilt : List.Forall₂ (Built E secondClass) txs txDaos)
    (hnullifiers : P.nullifiers.Nodup) (hverified : Verified E P) (hlinked : P.Linked)
    (hfresh : FreshNullifiers P.txs.rows txs) (hchained : Chained P.Chainable txs) :
    (P.addTxs E txs txDaos).nullifiers.Nodup ∧ Verified E (P.addTxs E txs txDaos) ∧
      (P.addTxs E txs txDaos).Linked := by
  obtain ⟨h₁, h₂, h₃, -, -⟩ := addTxs_induction (I := fun P txs _ => P.nullifiers.Nodup ∧
    Verified E P ∧ P.Linked ∧ FreshNullifiers P.txs.rows txs ∧ Chained P.Chainable txs) hbuilt
    ⟨hnullifiers, hverified, hlinked, hfresh, hchained⟩ (by
      rintro P tx txs t - hb ⟨hnullifiers, hverified, hlinked, hfresh, hlink, hchained⟩
      have hone := hfresh.head
      obtain ⟨hnodup, hrest⟩ := save_allNullifiers hb hnullifiers hfresh
      exact ⟨hnodup, save_verified hE hverified hb hone, save_linked hE hverified hb hone hlinked hlink,
        hrest, hchained.mono fun n hn => save_chainable hE hverified hb hone hn⟩)
  exact ⟨h₁, h₂, h₃⟩

/-- Links to earlier transactions stay so. -/
lemma linkedEarlier_addTxs (hE : E.Sound) (hbuilt : List.Forall₂ (Built E secondClass) txs txDaos)
    (hnullifiers : P.nullifiers.Nodup) (hverified : Verified E P) (hlinked : P.LinkedEarlier)
    (hfresh : FreshNullifiers P.txs.rows txs)
    (hchained : ChainedBefore P.ChainableBefore txs txDaos) :
    (P.addTxs E txs txDaos).LinkedEarlier := by
  obtain ⟨-, -, h, -, -⟩ := addTxs_induction (I := fun P txs txDaos => P.nullifiers.Nodup ∧
    Verified E P ∧ P.LinkedEarlier ∧ FreshNullifiers P.txs.rows txs ∧
      ChainedBefore P.ChainableBefore txs txDaos) hbuilt
    ⟨hnullifiers, hverified, hlinked, hfresh, hchained⟩ (by
      rintro P tx txs t txDaos hb ⟨hnullifiers, hverified, hlinked, hfresh, hlink, hchained⟩
      have hone := hfresh.head
      obtain ⟨hnodup, hrest⟩ := save_allNullifiers hb hnullifiers hfresh
      exact ⟨hnodup, save_verified hE hverified hb hone,
        save_linkedEarlier hE hverified hb hone hlinked hlink, hrest,
        hchained.mono fun n time hn => save_chainableBefore hE hverified hb hone hn⟩)
  exact h

/-- The deposits of a request are added to the unsettled ones. -/
lemma deposits_addTxs (hbuilt : List.Forall₂ (Built E secondClass) txs txDaos) (mined : List Nat)
    (o a : Nat) : (P.addTxs E txs txDaos).deposits mined o a ≤
      P.deposits mined o a + depositSum (depositProofs txs) o a := by
  refine Nat.le_trans (Nat.le_add_right _ 0) (addTxs_induction (I := fun P' txs' _ =>
    P'.deposits mined o a + depositSum (depositProofs txs') o a ≤
      P.deposits mined o a + depositSum (depositProofs txs) o a) hbuilt (Nat.le_refl _) ?_)
  intro P' tx txs' t _ hb hle
  have hsave := save_deposits (P := P') hb mined o a
  rw [depositProofs_cons, depositSum_append] at hle
  omega

/-- The deposits of a request are pending, with the unsettled ones. -/
lemma depositSum_covered (hdeposits : ∀ o a, s.unsettledDeposits o a ≤ s.pendingDeposit o a)
    (hcovered : ∀ d ∈ requiredDeposits txs, s.Covered d) (o a : Nat) :
    s.unsettledDeposits o a + depositSum (depositProofs txs) o a ≤ s.pendingDeposit o a := by
  obtain ⟨-, hvalue, hcomplete⟩ := requiredDeposits_spec txs
  by_cases hzero : depositSum (depositProofs txs) o a = 0
  · rw [hzero]
    exact hdeposits o a
  · obtain ⟨d, hd, hkey⟩ := List.mem_map.mp (hcomplete o a hzero)
    obtain ⟨rfl, rfl⟩ := Prod.mk.inj hkey
    have hle := hcovered d hd
    rw [State.Covered, hvalue d hd] at hle
    omega

/-- A step of a request keeps the links, if it reads what is saved. -/
lemma own_next (hE : E.Sound) (h : Own E s) (hdistinct : Distinct E s) (hr : s.receiving = some r)
    (hreads : ReadsSaved s .next) (hnext : Advances E s r s') : Own E s' := by
  have hrequest := h.request r hr
  have hcovered := hrequest.covered
  cases hnext with
  | fail => exact h.fail
  | chain hstage hcheck =>
    obtain ⟨-, -, hchained⟩ := validateChain_spec hcheck
    have hcached := h.cached s.cache List.mem_cons_self (hreads r hr (hstage ▸ trivial))
    refine h.goOn ⟨fun _ => hchained.mono fun n hn => ?_, nofun, trivial⟩
    obtain ⟨p, hp, hchain⟩ := hn
    exact hcached.chainable p hp n hchain
  | nullifiers hstage hcheck =>
    exact h.goOn ⟨fun _ => hrequest.chained (hstage ▸ trivial),
      fun _ => validateNullifiers_spec hcheck, trivial⟩
  | unsettledDeposits hstage =>
    have hcached := h.cached s.cache List.mem_cons_self (hreads r hr (hstage ▸ trivial))
    exact h.goOn ⟨fun _ => hrequest.chained (hstage ▸ trivial),
      fun _ => hrequest.nullifiers (hstage ▸ trivial), hcached.deposits, [], rfl, nofun⟩
  | @deposit unsettledTxs d ds hstage hle =>
    rw [hstage] at hcovered
    obtain ⟨hread, done, hdone, hall⟩ := hcovered
    refine h.goOn ⟨fun _ => hrequest.chained (hstage ▸ trivial),
      fun _ => hrequest.nullifiers (hstage ▸ trivial), hread, done ++ [d], ?_, fun e he => ?_⟩
    · rw [hdone, List.append_assoc]
      rfl
    · rcases List.mem_append.mp he with he | he
      · exact hall e he
      · rw [List.mem_singleton.mp he]
        exact Nat.le_trans (Nat.add_le_add_left (hread d.publicOwner d.publicAssetId) d.value) hle
  | deposits hstage =>
    rw [hstage] at hcovered
    obtain ⟨-, done, hdone, hall⟩ := hcovered
    refine h.goOn ⟨fun _ => hrequest.chained (hstage ▸ trivial),
      fun _ => hrequest.nullifiers (hstage ▸ trivial), fun d hd => ?_⟩
    rw [hdone, List.append_nil] at hd
    exact hall d hd
  | validate hstage _ _ =>
    rw [hstage] at hcovered
    exact h.goOn ⟨fun _ => hrequest.chained (hstage ▸ trivial),
      fun _ => hrequest.nullifiers (hstage ▸ trivial), hcovered⟩
  | @save txDaos hstage hall =>
    have hbuilt := (hdistinct.request r hr).built txDaos hstage
    rw [hall] at hbuilt
    rw [hstage] at hcovered
    obtain ⟨hnew, hverified, hlinked⟩ := own_addTxs hE hbuilt h.nullifiers h.verified h.linked
      (hrequest.nullifiers (hstage ▸ trivial)) (hrequest.chained (hstage ▸ trivial))
    refine ⟨hnew, hverified, hlinked, fun o a => ?_, nofun, fun c hc heq => ?_⟩
    · exact (deposits_addTxs hbuilt s.mined.flatten o a).trans
        (depositSum_covered h.deposits hcovered o a)
    · exact absurd (hdistinct.saved c hc) (Nat.not_le.mpr (heq ▸ Nat.lt_succ_self s.saved))

/-- The next time is not before the clock. -/
lemma le_getNextTxTime (now : Nat) (previous : Option Nat) : now ≤ getNextTxTime now previous := by
  unfold getNextTxTime
  split
  case h_1 => exact Nat.le_refl now
  case h_2 =>
    split
    case isTrue => exact Nat.le_refl now
    case isFalse => omega

/-- A step of a request keeps the order of creation, if the clock is past the newest row. -/
lemma later_next (hE : E.Sound) (h : Later s) (hown : Own E s) (hdistinct : Distinct E s)
    (hr : s.receiving = some r) (hclock : ClockPast s .next) (hnext : Advances E s r s') :
    Later s' := by
  have hdistinct := hdistinct.request r hr
  have hown' := hown.request r hr
  cases hnext with
  | fail => exact h.fail
  | chain => exact h.goOn nofun
  | nullifiers => exact h.goOn nofun
  | unsettledDeposits => exact h.goOn nofun
  | deposit => exact h.goOn nofun
  | deposits =>
    refine h.goOn fun txDaos heq => ?_
    cases heq
    exact .nil
  | @validate txDaos tx hstage htx _ =>
    refine h.goOn fun txDaos' heq => ?_
    cases heq
    rw [List.length_append, List.length_singleton, List.take_add_one, htx]
    refine List.rel_append (h.request r hr txDaos hstage) (.cons (fun hne u hu hchain => ?_) .nil)
    have hvalidating : tx ∈ r.validating := by
      rw [Receiving.validating, hstage]
      exact htx
    exact (hclock r hr tx hvalidating hne u hu hchain).trans_le (le_getNextTxTime _ _)
  | @save txDaos hstage hall =>
    have hlater := h.request r hr txDaos hstage
    have hbuilt := hdistinct.built txDaos hstage
    rw [hall] at hbuilt hlater
    refine ⟨?_, nofun⟩
    refine linkedEarlier_addTxs hE hbuilt hown.nullifiers hown.verified h.linked
      (hown'.nullifiers (hstage ▸ trivial)) ?_
    refine (hown'.chained (hstage ▸ trivial)).before (hdistinct.times txDaos hstage) ?_
    refine hlater.imp fun tx t hbefore hne ⟨u, hu, hchain⟩ => ⟨u, hu, hchain, fun hnone => ?_⟩
    exact hbefore hne u (List.mem_filter.mpr ⟨hu, Option.isNone_iff_eq_none.mpr hnone⟩) hchain

/-! ## The run -/

/-- The empty database has no duplicates. -/
lemma distinct_init : Distinct E State.init where
  nullifiers := List.nodup_nil
  links := List.forall_mem_nil _
  request _ hr := absurd hr.symm (Option.some_ne_none _)
  saved c hc := by
    rw [List.mem_singleton.mp hc]
    exact Nat.le_refl 0
  cached _ _ _ := List.forall_mem_nil _

/-- It has no rows to link. -/
lemma own_init : Own E State.init where
  nullifiers := List.nodup_nil
  verified := List.forall_mem_nil _
  linked := List.forall_mem_nil _
  deposits _ _ := Nat.zero_le 0
  request _ hr := absurd hr.symm (Option.some_ne_none _)
  cached c hc _ := by
    rw [List.mem_singleton.mp hc]
    exact ⟨List.forall_mem_nil _, fun _ _ => Nat.zero_le 0⟩

/-- It has no rows to order. -/
lemma later_init : Later State.init :=
  ⟨List.forall_mem_nil _, fun _ hr => absurd hr.symm (Option.some_ne_none _)⟩

/-- A new request has established nothing yet. -/
lemma distinct_receiveTxs {secondClass : Bool} (h : Distinct E s) : Distinct E
    { s with receiving := some ⟨txs, secondClass, .chain⟩ } := by
  refine ⟨h.nullifiers, h.links, fun r hr => ?_, h.saved, h.cached⟩
  cases hr
  exact ⟨nofun, nofun, nofun, nofun⟩

/-- A new request keeps the links. -/
lemma own_receiveTxs {secondClass : Bool} (h : Own E s) : Own E
    { s with receiving := some ⟨txs, secondClass, .chain⟩ } := by
  refine ⟨h.nullifiers, h.verified, h.linked, h.deposits, fun r hr => ?_, fun c hc heq =>
    ⟨(h.cached c hc heq).chainable, (h.cached c hc heq).deposits⟩⟩
  cases hr
  exact ⟨nofun, nofun, trivial⟩

/-- A new request keeps the order of creation. -/
lemma later_receiveTxs {secondClass : Bool} (h : Later s) : Later
    { s with receiving := some ⟨txs, secondClass, .chain⟩ } := by
  refine ⟨h.linked, fun r hr => ?_⟩
  cases hr
  exact nofun

/-! ### Refreshes -/

section

variable {cache : Cached} {fetched : List Cached}
  (hcached : ∀ c ∈ cache :: fetched, c ∈ s.cached ∨ c = s.readUnsettledTxs)

include hcached

/-- What is read of the database has the links of all unsettled transactions. -/
lemma Distinct.refresh (h : Distinct E s) :
    Distinct E { s with cache := cache, fetched := fetched } where
  nullifiers := h.nullifiers
  links := h.links
  request := h.request
  saved c hc := by
    rcases hcached c hc with hold | rfl
    · exact h.saved c hold
    · exact Nat.le_refl s.saved
  cached c hc heq := by
    rcases hcached c hc with hold | rfl
    · exact h.cached c hold heq
    · exact fun u hu => ⟨s.proofData u.id, List.mem_map_of_mem hu, rfl⟩

/-- A refresh of the cache leaves the rows alone. -/
lemma Own.refresh (h : Own E s) : Own E { s with cache := cache, fetched := fetched } where
  nullifiers := h.nullifiers
  verified := h.verified
  linked := h.linked
  deposits := h.deposits
  request r hr := ⟨(h.request r hr).chained, (h.request r hr).nullifiers, by
    have hcovered := (h.request r hr).covered
    cases hstage : r.stage <;> rw [hstage] at hcovered <;> exact hcovered⟩
  cached c hc heq := by
    rcases hcached c hc with hold | rfl
    · exact ⟨(h.cached c hold heq).chainable, (h.cached c hold heq).deposits⟩
    · refine ⟨fun p hp n hn => ?_, fun o a => depositSum_sublist (List.filter_sublist.map _) o a⟩
      obtain ⟨t, ht, rfl⟩ := List.mem_map.mp hp
      exact ⟨t, (List.mem_filter.mp ht).1, hn⟩

end

/-- A refresh reads the database, or what it has read is stored. -/
lemma step_refresh {a : Action} (ha : a = .fetchUnsettledTxs ∨ ∃ k, a = .storeUnsettledTxs k)
    (hs : step E s a = some s') : ∃ cache fetched, s' = { s with cache := cache, fetched := fetched } ∧
      ∀ c ∈ cache :: fetched, c ∈ s.cached ∨ c = s.readUnsettledTxs := by
  rcases ha with rfl | ⟨k, rfl⟩
  · cases hs
    refine ⟨_, _, rfl, fun c hc => ?_⟩
    rcases List.mem_cons.mp hc with rfl | hc
    · exact .inl List.mem_cons_self
    · exact (List.mem_append.mp hc).imp (List.mem_cons_of_mem _) List.mem_singleton.mp
  · obtain ⟨c, hk, rfl⟩ := Option.map_eq_some_iff.mp hs
    refine ⟨_, _, rfl, fun c' hc' => .inl (List.mem_cons_of_mem _ ?_)⟩
    rcases List.mem_cons.mp hc' with rfl | hc'
    · exact List.mem_of_getElem? hk
    · exact List.mem_of_mem_eraseIdx hc'

/-! ### The steps -/

/-- What a step can do: it refreshes the cache, it starts, advances or ends a request, or it leaves the
request alone and no transaction becomes unsettled. -/
inductive Moves (E : Env) (s : State) (a : Action) : State → Prop where
  | refresh {cache : Cached} {fetched : List Cached}
      (hcached : ∀ c ∈ cache :: fetched, c ∈ s.cached ∨ c = s.readUnsettledTxs) :
      Moves E s a { s with cache := cache, fetched := fetched }
  | receiveTxs (txs : List Tx) (secondClass : Bool) :
      Moves E s a { s with receiving := some ⟨txs, secondClass, .chain⟩ }
  | next {r : Receiving} {s' : State} (ha : a = .next) (hr : s.receiving = some r)
      (hnext : Advances E s r s') : Moves E s a s'
  | reject : Moves E s a { s with receiving := none }
  | settle {s' : State} (hsame : SameRequest s s') (hshrinks : Shrinks s.pool s'.pool)
      (hsettles : s'.foreign = false → s.foreign = false ∧ Settles E s s') : Moves E s a s'

/-- Every step does one of these. -/
lemma step_moves {a : Action} (hs : step E s a = some s') : Moves E s a s' := by
  cases a with
  | tick ms =>
    cases hs
    exact .settle ⟨rfl, rfl, rfl⟩ .refl fun hforeign =>
      ⟨hforeign, settles_of_pool rfl ⟨rfl, rfl, rfl⟩ rfl fun _ _ => Nat.le_refl _⟩
  | fetchUnsettledTxs =>
    obtain ⟨_, _, rfl, hcached⟩ := step_refresh (.inl rfl) hs
    exact .refresh hcached
  | storeUnsettledTxs k =>
    obtain ⟨_, _, rfl, hcached⟩ := step_refresh (.inr ⟨k, rfl⟩) hs
    exact .refresh hcached
  | depositPendingFunds owner assetId amount =>
    cases hs
    refine .settle ⟨rfl, rfl, rfl⟩ .refl fun hforeign =>
      ⟨hforeign, settles_of_pool rfl ⟨rfl, rfl, rfl⟩ rfl fun o a => ?_⟩
    show s.pendingDeposit o a ≤ setPending s.pendingDeposit owner assetId _ o a
    rw [setPending_apply]
    split
    case isTrue heq => rw [heq.1, heq.2]; exact Nat.le_add_right _ amount
    case isFalse => exact Nat.le_refl _
  | receiveTxs txs secondClass =>
    rw [step] at hs
    split at hs
    case h_1 =>
      cases hs
      exact .receiveTxs txs secondClass
    case h_2 => cases hs
  | next =>
    obtain ⟨r, hr, rfl⟩ := Option.map_eq_some_iff.mp hs
    exact .next rfl hr (next_advances E s r)
  | reject =>
    obtain ⟨r, -, rfl⟩ := Option.map_eq_some_iff.mp hs
    exact .reject
  | mine txIds =>
    have hsettles : Settles E s s' := mine_settles hs
    rw [step] at hs
    split at hs
    case isFalse => cases hs
    case isTrue =>
      obtain ⟨pending, -, rfl⟩ := Option.map_eq_some_iff.mp hs
      exact .settle ⟨rfl, rfl, rfl⟩ .refl fun hforeign => ⟨hforeign, hsettles⟩
  | confirmMined id gasUsed gasPrice mined ethTxHash interactionResult subtreeRoot =>
    rw [step] at hs
    split at hs
    case h_1 txIds rest hmined =>
      cases hs
      exact .settle ⟨rfl, rfl, rfl⟩ (confirm_shrinks txIds mined rfl rfl) fun hforeign =>
        ⟨hforeign, confirm_settles txIds mined rfl rfl ⟨rfl, rfl, rfl⟩ hmined rfl rfl⟩
    case h_2 => cases hs
  | mineForeign deposits =>
    cases hs
    exact .settle ⟨rfl, rfl, rfl⟩ .refl nofun
  | addRollup rollup proof txs =>
    have hshrinks := addRollup_shrinks hs
    rw [step] at hs
    dsimp only at hs
    split at hs
    case isFalse => cases hs
    case isTrue hguard =>
      cases hs
      refine .settle ⟨rfl, rfl, rfl⟩ hshrinks fun hforeign => absurd hguard.1 ?_
      rw [show s.foreign = false from hforeign]
      nofun
  | purgeInvalidTxs ids =>
    have hshrinks := purge_shrinks hs
    rw [step] at hs
    split at hs
    case isFalse => cases hs
    case isTrue hguard =>
      cases hs
      refine .settle ⟨rfl, rfl, rfl⟩ hshrinks fun hforeign => absurd hguard.1 ?_
      rw [show s.foreign = false from hforeign]
      nofun

/-- Requests do not mine rollups of others. -/
lemma Advances.foreign (h : Advances E s r s') : s'.foreign = s.foreign := by
  cases h <;> rfl

/-- A rollup of others stays mined. -/
lemma Moves.foreign {a : Action} (h : Moves E s a s') (hforeign : s'.foreign = false) :
    s.foreign = false := by
  cases h with
  | next _ _ hnext => exact hnext.foreign ▸ hforeign
  | settle _ _ hsettles => exact (hsettles hforeign).1
  | _ => exact hforeign

/-- Every step whose reads are of what is saved keeps the invariant. -/
lemma distinct_step {a : Action} (h : Distinct E s) (hs : Moves E s a s') (hreads : ReadsSaved s a) :
    Distinct E s' := by
  cases hs with
  | refresh hcached => exact h.refresh hcached
  | receiveTxs => exact distinct_receiveTxs h
  | next ha hr hnext => exact distinct_next h hr (ha ▸ hreads) hnext
  | reject => exact h.fail
  | settle hsame hshrinks _ => exact h.shrinks hsame hshrinks

/-- Every such step keeps the links, as long as no rollup of others is mined. -/
lemma own_step {a : Action} (hE : E.Sound) (hdistinct : Distinct E s) (h : s.foreign = false → Own E s)
    (hs : Moves E s a s') (hreads : ReadsSaved s a) (hforeign : s'.foreign = false) : Own E s' := by
  have hown := h (hs.foreign hforeign)
  cases hs with
  | refresh hcached => exact hown.refresh hcached
  | receiveTxs => exact own_receiveTxs hown
  | next ha hr hnext => exact own_next hE hown hdistinct hr (ha ▸ hreads) hnext
  | reject => exact hown.fail
  | settle _ _ hsettles => exact hown.settles (hsettles hforeign).2

/-- Every step at which the clock is past the newest row keeps the order of creation. -/
lemma later_step {a : Action} (hE : E.Sound) (hdistinct : Distinct E s)
    (hown : s.foreign = false → Own E s) (h : s.foreign = false → Later s) (hs : Moves E s a s')
    (hclock : ClockPast s a) (hforeign : s'.foreign = false) : Later s' := by
  have hold := hs.foreign hforeign
  have hlater := h hold
  cases hs with
  | refresh _ => exact ⟨hlater.linked, hlater.request⟩
  | receiveTxs => exact later_receiveTxs hlater
  | next ha hr hnext => exact later_next hE hlater (hown hold) hdistinct hr (ha ▸ hclock) hnext
  | reject => exact hlater.fail
  | settle _ _ hsettles => exact hlater.settles (hsettles hforeign).2

/-- In every run of such steps the unsettled rows are distinct, and linked if no rollup of others is
mined. -/
lemma run_consistent {as : List Action} (hE : E.Sound)
    (h : Run (Guarded (Steps (step E)) ReadsSaved) State.init as s) :
    Distinct E s ∧ (s.foreign = false → Own E s) :=
  h.invariant (I := fun s => Distinct E s ∧ (s.foreign = false → Own E s))
    ⟨distinct_init, fun _ => own_init⟩ fun _ _ _ hinv hs =>
      have hmoves := step_moves hs.1
      ⟨distinct_step hinv.1 hmoves hs.2, own_step hE hinv.1 hinv.2 hmoves hs.2⟩

/-- In every run in which the clock is past the newest row as well, links go to earlier rows. -/
lemma run_later {as : List Action} (hE : E.Sound)
    (h : Run (Guarded (Steps (step E)) fun s a => ReadsSaved s a ∧ ClockPast s a) State.init as s) :
    s.foreign = false → Later s := by
  have hall : (Distinct E s ∧ (s.foreign = false → Own E s)) ∧ (s.foreign = false → Later s) := by
    refine h.invariant (I := fun s =>
      (Distinct E s ∧ (s.foreign = false → Own E s)) ∧ (s.foreign = false → Later s))
      ⟨⟨distinct_init, fun _ => own_init⟩, fun _ => later_init⟩ fun s a s' hinv hs => ?_
    obtain ⟨⟨hdistinct, hown⟩, hlater⟩ := hinv
    have hmoves := step_moves hs.1
    exact ⟨⟨distinct_step hdistinct hmoves hs.2.1, own_step hE hdistinct hown hmoves hs.2.1⟩,
      later_step hE hdistinct hown hlater hmoves hs.2.2⟩
  exact hall.2

/-- The unsettled transactions have different nullifiers and links, as long as requests do not read
cached lists that miss saved requests. While the rollups are ours, they share no nullifier with settled
ones, their links are found and their deposits are pending, those apart that a mined rollup has taken; if
the clock has passed the times of what they link to, the links are to earlier transactions. -/
theorem unsettledTxs_consistent {as : List Action} (hE : E.Sound)
    (h : Run (Guarded (Steps (step E)) ReadsSaved) State.init as s) :
    s.db.getUnsettledNullifiers.Nodup ∧ s.pool.LinksApart ∧
      (∀ r txDaos, s.receiving = some r → r.stage = .validate txDaos →
        txDaos.Pairwise (·.created < ·.created)) ∧
      (s.foreign = false → s.pool.nullifiers.Nodup ∧ s.pool.Linked ∧
        (∀ owner assetId, s.unsettledDeposits owner assetId ≤ s.pendingDeposit owner assetId) ∧
        (Run (Guarded (Steps (step E)) ClockPast) State.init as s → s.pool.LinkedEarlier)) := by
  obtain ⟨hdistinct, hown⟩ := run_consistent hE h
  refine ⟨hdistinct.nullifiers, hdistinct.links, fun r txDaos hr => (hdistinct.request r hr).times txDaos,
    fun hforeign => ?_⟩
  obtain ⟨hnullifiers, -, hlinked, hdeposits, -, -⟩ := hown hforeign
  exact ⟨hnullifiers, hlinked, hdeposits, fun hclock =>
    (run_later hE (Transition.Run.guarded_and h hclock) hforeign).linked⟩

namespace Sample

/-- An id that tells published inputs apart. -/
def createTxId (p : InnerProofData) : Nat :=
  Nat.pair (Nat.pair (Nat.pair p.proofId.ctorIdx p.noteCommitment1)
      (Nat.pair p.noteCommitment2 p.nullifier1))
    (Nat.pair (Nat.pair p.nullifier2 p.publicValue) (Nat.pair p.publicOwner p.publicAssetId))

/-- A verifier that knows that only accounts have no nullifiers. -/
def env : Env where
  createTxId := createTxId
  verifyProof p := p.nullifiers ≠ [] || p.allowChain = 0
  isContractOrEmpty _ := false

/-- A proof id is determined by its number. -/
lemma proofId_injective {a b : ProofId} (h : a.ctorIdx = b.ctorIdx) : a = b := by
  cases a <;> cases b <;> first | rfl | nomatch h

/-- The sample environment has unforgeable proofs and ids without collisions. -/
lemma sound : env.Sound where
  createTxId p q h := by
    cases p
    cases q
    simp only [env, createTxId, Nat.pair_eq_pair] at h
    obtain ⟨⟨⟨h₁, h₂⟩, h₃, h₄⟩, ⟨h₅, h₆⟩, h₇, h₈⟩ := h
    rw [proofId_injective h₁, h₂, h₃, h₄, h₅, h₆, h₇, h₈]
  allowChain p hverify hnone := by
    simpa [env, hnone] using hverify

/-- A deposit of 10, of which the first note can be chained from. -/
def deposit : Tx := ⟨⟨⟨.DEPOSIT, 100, 101, 1, 2, 10, 7, 0⟩, 0, 1⟩, (0, 0)⟩

/-- It sends the note of the deposit on. -/
def send : Tx := ⟨⟨⟨.SEND, 102, 103, 3, 4, 0, 0, 0⟩, 100, 1⟩, (0, 0)⟩

/-- It sends that on. -/
def sendOn : Tx := ⟨⟨⟨.SEND, 104, 105, 5, 6, 0, 0, 0⟩, 102, 0⟩, (0, 0)⟩

/-- A deposit that is mined in a rollup of someone else, with a nullifier of the other one. -/
def other : TxDao := ⟨5, none, (0, 0), some 2, some 1, .DEPOSIT, 9, some 9, -1, false⟩

/-- Another deposit of 10. -/
def again : Tx := ⟨⟨⟨.DEPOSIT, 106, 107, 7, 8, 10, 7, 0⟩, 0, 0⟩, (0, 0)⟩

/-- A refresh of the cached unsettled transactions that nothing interrupts. -/
def refresh : List Action := [.fetchUnsettledTxs, .storeUnsettledTxs 0]

/-- A deposit is made, and sent in one request with the transaction that sends it on. -/
def received : List Action := [.depositPendingFunds 7 0 10, .tick 5, .receiveTxs [deposit, send] false] ++
  List.replicate 8 .next

/-- Another request in the same millisecond. -/
def chained : List Action :=
  received ++ refresh ++ [.receiveTxs [sendOn] false] ++ List.replicate 6 .next

/-- The received deposit is mined. -/
def mined : List Action := received ++ [.mine [env.createTxId deposit.proof.toInnerProofData]]

/-- Another request later, then the deposit is settled. -/
def settled : List Action :=
  received ++ refresh ++ [.tick 5, .receiveTxs [sendOn] false] ++ List.replicate 6 .next ++
    [.mine [env.createTxId deposit.proof.toInnerProofData], .confirmMined 0 0 0 20 0 0 0]

/-- A rollup of others is mined after the deposit was received. -/
def foreign : List Action := received ++
  [.mineForeign fun _ _ => 0, .addRollup ⟨0, 0, none, none, none, none, none, some 9, none⟩
    ⟨0, none, 1, 0⟩ [(0, other, default)]]

/-- Two deposits of the same funds. What the first refresh has read arrives after the second refresh. -/
def overtaken : List Action :=
  [.depositPendingFunds 7 0 10, .fetchUnsettledTxs, .receiveTxs [deposit] false] ++
    List.replicate 7 .next ++
    [.fetchUnsettledTxs, .storeUnsettledTxs 1, .storeUnsettledTxs 0, .receiveTxs [again] false] ++
    List.replicate 7 .next

end Sample

/-- Three transactions of two requests, of which the first is settled. -/
theorem unsettledTxs_consistent_sample : ∃ s : State, s.db.getTotalTxCount = 3 ∧
    s.db.getUnsettledNullifiers.Nodup ∧ s.pool.LinksApart ∧
      s.pool.nullifiers.Nodup ∧ s.pool.Linked ∧
      (∀ owner assetId, s.unsettledDeposits owner assetId ≤ s.pendingDeposit owner assetId) ∧
      s.pool.LinkedEarlier := by
  obtain ⟨s, hs, htotal⟩ := Option.map_eq_some_iff.mp
    (show (exec (Transition.guard (step Sample.env) fun s a => ReadsSaved s a ∧ ClockPast s a)
      State.init Sample.settled).map (fun s => (s.db.getTotalTxCount, s.foreign)) = some (3, false) by
        decide +kernel)
  have hrun := Transition.exec_guard_run hs
  obtain ⟨htotal, hours⟩ := Prod.mk.inj htotal
  obtain ⟨hnullifiers, hapart, -, hown⟩ := unsettledTxs_consistent Sample.sound
    (hrun.mono fun s a s' h => ⟨h.1, h.2.1⟩)
  obtain ⟨hall, hlinked, hdeposits, hearlier⟩ := hown hours
  exact ⟨s, htotal, hnullifiers, hapart, hall, hlinked, hdeposits,
    hearlier (hrun.mono fun s a s' h => ⟨h.1, h.2.2⟩)⟩

/-- All unsettled deposits are pending on chain. -/
def State.AllPending (s : State) : Prop :=
  ∀ t ∈ s.pool.unsettled, s.pool.deposits [] (s.proofData t.id).publicOwner
    (s.proofData t.id).publicAssetId ≤
      s.pendingDeposit (s.proofData t.id).publicOwner (s.proofData t.id).publicAssetId

/-- No unsettled nullifier is one of a settled transaction. -/
def State.Unspent (s : State) : Prop :=
  ∀ n ∈ s.db.getUnsettledNullifiers, ∀ u ∈ s.db.txs.rows, u.mined ≠ none → n ∉ u.nullifiers

instance (s : State) : Decidable s.AllPending := inferInstanceAs (Decidable (∀ _ ∈ _, _))
instance (P : Pool) (noteCommitment time : Nat) : Decidable (P.ChainableBefore noteCommitment time) :=
  inferInstanceAs (Decidable (∃ _ ∈ _, _))

instance (P : Pool) : Decidable P.LinkedEarlier := inferInstanceAs (Decidable (∀ _ ∈ _, _))
instance (s : State) : Decidable s.Unspent := inferInstanceAs (Decidable (∀ _ ∈ _, _))

/-- A deposit is no longer pending when its rollup is mined, but unsettled until that is confirmed. The
times of two requests may be out of order. A rollup of someone else may spend a note of the pool. A request
that reads a cached list without the deposit of the request before takes the same funds again. -/
theorem unsettledTxs_inconsistent :
    (¬ ∀ as s, Run (Steps (step Sample.env)) State.init as s → s.AllPending) ∧
      (¬ ∀ as s, Run (Steps (step Sample.env)) State.init as s → s.pool.LinkedEarlier) ∧
      (¬ ∀ as s, Run (Steps (step Sample.env)) State.init as s → s.Unspent) ∧
      ¬ ∀ as s, Run (Steps (step Sample.env)) State.init as s → s.mined = [] → s.AllPending := by
  have hfails (P : State → Prop) [∀ s, Decidable (P s)] (as : List Action)
      (h : (exec (step Sample.env) State.init as).map (decide <| P ·) = some false) :
      ¬ ∀ as s, Run (Steps (step Sample.env)) State.init as s → P s := by
    obtain ⟨s, hs, hnot⟩ := Option.map_eq_some_iff.mp h
    exact fun hall => of_decide_eq_false hnot (hall as s (Transition.exec_run hs))
  exact ⟨hfails State.AllPending Sample.mined (by decide +kernel),
    hfails (·.pool.LinkedEarlier) Sample.chained (by decide +kernel),
    hfails State.Unspent Sample.foreign (by decide +kernel),
    hfails (fun s => s.mined = [] → s.AllPending) Sample.overtaken (by decide +kernel)⟩

end TxReceiver

end AztecConnect.Falafel
