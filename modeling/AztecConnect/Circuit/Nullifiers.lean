import AztecConnect.Circuit.RootRollupTrees
import AztecConnect.Circuit.Trees
import AztecConnect.Lib.InsertOnce

/-!
# The nullifiers of all rollups

Along a chain of accepted root rollups, each of which starts from the roots of the one before it, the
nullifier tree is a set to which every nullifier that is not zero is added once
(`nullifiers_insertedOnce`). That the checks of the circuit library are sound for the trees with a root
is a hypothesis (`SoundTree`).
-/

namespace AztecConnect.Circuit

open Checks (Ensures)
open InsertOnce (insertAll Fresh)

variable {H : Primitives} {m n : Nat} {root : (Nat → Fr) → Fr}

/-! ## One rollup -/

/-- The keys in the nullifier tree: zero is none. -/
def nullKeys (nullifiers : List Fr) : List Nat := (nullifiers.filter (· ≠ 0)).map ZMod.val

/-- The nullifiers of two lists. -/
lemma nullKeys_append (ns ns' : List Fr) : nullKeys (ns ++ ns') = nullKeys ns ++ nullKeys ns' := by
  rw [nullKeys, List.filter_append, List.map_append]
  rfl

/-- A nullifier that is not zero counts. -/
lemma nullKeys_of_ne {x : Fr} (h : x ≠ 0) : nullKeys [x] = [x.val] := by
  rw [nullKeys, List.filter_cons_of_pos (by simpa using h)]
  rfl

/-- Zero does not. -/
lemma nullKeys_zero : nullKeys [0] = [] := rfl

/-- A nullifier that is not zero was not in the tree, and is in it afterwards. -/
lemma insertNullifier_spec (hsound : SoundTree H root) (t : Nat → Fr) (newNullRoot : Fr)
    (path : H.HashPath) (isTxReal : Bool) (nullifier : Fr) (i : Nat)
    (hpad : isTxReal = false → nullifier = 0) :
    Ensures (insertNullifier newNullRoot path isTxReal (root t) nullifier i) fun r =>
      (newNullRoot = root (insertAll t (nullKeys [nullifier])) ∧
        r = root (insertAll t (nullKeys [nullifier]))) ∧ Fresh t (nullKeys [nullifier]) := by
  simp only [insertNullifier, decomposeIntoBits, Checks.ensures_bind, ensures_rangeCheck,
    ensures_assertTrue, Checks.ensures_pure]
  intro _ hupdate
  obtain ⟨hold, hnew⟩ := hsound.update _ _ _ _ _ _ hupdate
  by_cases hzero : nullifier = 0
  · -- zero is written at index 0, where it is already
    have hreal : fieldOfBool (isTxReal && nullifier != 0) = 0 := by
      rw [hzero, bne_self_eq_false, Bool.and_false]
      rfl
    rw [hreal, mul_zero, ZMod.val_zero] at hold hnew
    rw [hzero, nullKeys_zero]
    have hroot : newNullRoot = root t := by
      rw [hnew, Function.update_eq_self_iff.mpr hold.symm]
    exact ⟨⟨hroot, hroot⟩, trivial⟩
  · have hreal : fieldOfBool (isTxReal && nullifier != 0) = 1 := by
      cases isTxReal with
      | false => exact absurd (hpad rfl) hzero
      | true =>
        rw [bne_iff_ne.mpr hzero]
        rfl
    rw [hreal, mul_one] at hold hnew
    rw [nullKeys_of_ne hzero]
    exact ⟨⟨hnew, hnew⟩, hold, trivial⟩

/-- A nullifier, and the root after it is inserted. -/
abbrev Insertion : Type := Fr × Fr

/-- The nullifiers in the tree after the insertions. -/
def afterInsertions (t : Nat → Fr) (l : List Insertion) : Nat → Fr :=
  insertAll t (nullKeys (l.map Prod.fst))

/-- The insertions, one after another: each is of zero or of a nullifier that is absent, and the root
is that of the tree after it. -/
def Inserted (root : (Nat → Fr) → Fr) : (Nat → Fr) → List Insertion → Prop
  | _, [] => True
  | t, x :: l => Fresh t (nullKeys [x.1]) ∧ x.2 = root (afterInsertions t [x]) ∧
    Inserted root (afterInsertions t [x]) l

/-- Insertions one after the other. -/
lemma afterInsertions_append (t : Nat → Fr) (l l' : List Insertion) :
    afterInsertions t (l ++ l') = afterInsertions (afterInsertions t l) l' := by
  rw [afterInsertions, List.map_append, nullKeys_append, InsertOnce.insertAll_append]
  rfl

/-- So for the checks. -/
lemma inserted_append {t : Nat → Fr} {l l' : List Insertion} :
    Inserted root t (l ++ l') ↔ Inserted root t l ∧ Inserted root (afterInsertions t l) l' := by
  induction l generalizing t with
  | nil => exact ⟨fun h => ⟨trivial, h⟩, And.right⟩
  | cons x l ih =>
    show _ ∧ _ ∧ Inserted root _ (l ++ l') ↔ (_ ∧ _ ∧ Inserted root _ l) ∧ _
    rw [ih, ← afterInsertions_append, and_assoc, and_assoc]
    rfl

/-- Nullifiers that are inserted are new and all different. -/
lemma Inserted.fresh {t : Nat → Fr} {l : List Insertion} (h : Inserted root t l) :
    Fresh t (nullKeys (l.map Prod.fst)) := by
  induction l generalizing t with
  | nil => trivial
  | cons x l ih =>
    obtain ⟨hx, -, hl⟩ := h
    rw [List.map_cons, ← List.singleton_append, nullKeys_append]
    exact InsertOnce.fresh_append.mpr ⟨hx, ih hl⟩

/-- The insertions that a transaction makes. -/
def RollupTx.txInsertions (rollup : RollupTx H n) (i : Fin n) (p : InnerProof) : List Insertion :=
  [(p.nullifier1, rollup.newNullRoots i 0), (p.nullifier2, rollup.newNullRoots i 1)]

/-- The insertions that a rollup makes. -/
def RollupTx.insertions (rollup : RollupTx H n) : List Insertion :=
  (List.finRange n).flatMap fun i => rollup.txInsertions i (rollup.masked rollup.numTxs.val i)

/-- An inner rollup inserts the nullifiers of its transactions. -/
lemma checkNullifiersInserted_spec (hsound : SoundTree H root) (t : Nat → Fr) (rollup : RollupTx H n)
    (numTxs : Nat) (published : Fin n → InnerProof) (hroot : rollup.oldNullRoot = root t)
    (hpad : ∀ i : Fin n, ¬ i < numTxs → (published i).nullifier1 = 0 ∧ (published i).nullifier2 = 0) :
    Ensures (checkNullifiersInserted rollup numTxs published) fun r =>
      let l := (List.finRange n).flatMap fun i => rollup.txInsertions i (published i)
      r = root (afterInsertions t l) ∧ Inserted root t l := by
  unfold checkNullifiersInserted
  rw [hroot]
  clear hroot
  generalize List.finRange n = is
  induction is generalizing t with
  | nil => exact Checks.ensures_pure.mpr ⟨rfl, trivial⟩
  | cons i is ih =>
    have hpad' (h : decide (i.val < numTxs) = false) := hpad i (of_decide_eq_false h)
    rw [List.foldlM_cons]
    simp only [Checks.ensures_bind]
    refine (insertNullifier_spec hsound _ _ _ _ _ _ fun h => (hpad' h).1).mono ?_
    rintro r₁ ⟨h₁, hf₁⟩
    rw [h₁.2]
    refine (insertNullifier_spec hsound _ _ _ _ _ _ fun h => (hpad' h).2).mono ?_
    rintro r₂ ⟨h₂, hf₂⟩
    rw [h₂.2]
    refine (ih _).mono ?_
    rintro r ⟨hr, hl⟩
    have htx : afterInsertions t (rollup.txInsertions i (published i)) =
        insertAll (insertAll t (nullKeys [(published i).nullifier1]))
          (nullKeys [(published i).nullifier2]) := afterInsertions_append t [_] [_]
    rw [List.flatMap_cons]
    refine ⟨?_, ?_⟩
    · rw [hr, afterInsertions_append, htx]
    · rw [← htx] at hl
      exact inserted_append.mpr ⟨⟨hf₁, h₁.1, hf₂, h₂.1, trivial⟩, hl⟩

/-- An accepted rollup inserts its nullifiers, those of the padding being zero. -/
lemma RollupSpec.inserted {rollup : RollupTx H n} {scope : RollupScope} {inner : RollupProof}
    (h : RollupSpec rollup scope inner) (hsound : SoundTree H root) {t : Nat → Fr}
    (hroot : inner.oldNullRoot = root t) :
    inner.newNullRoot = root (afterInsertions t rollup.insertions) ∧
      Inserted root t rollup.insertions := by
  have hold : rollup.oldNullRoot = root t :=
    (congrArg RollupProof.oldNullRoot h.proof_eq).symm.trans hroot
  have hspec := checkNullifiersInserted_spec hsound t rollup scope.numTxs
    (fun i => completed H rollup.rollupId scope (rollup.masked scope.numTxs i)) hold
    fun i hi => ?_
  · have hl := hspec.apply h.nullifiers
    rw [h.inScope.numTxs] at hl
    exact hl
  · show (rollup.masked scope.numTxs i).nullifier1 = 0 ∧ (rollup.masked scope.numTxs i).nullifier2 = 0
    rw [RollupTx.masked_padding hi]
    exact ⟨rfl, rfl⟩

/-! ## One root rollup -/

/-- A root rollup, of any sizes, that is accepted. -/
structure AcceptedRollup (H : Primitives) where
  {m n : Nat}
  tx : RootRollupTx H m
  rollups : Fin m → RollupTx H n
  proof : RootRollupProof
  accepted : RootAccepted tx rollups proof

namespace AcceptedRollup

/-- The inner rollups before the `k`-th. -/
def before (a : AcceptedRollup H) (k : Nat) : List (Fin a.m) := (List.finRange a.m).take k

/-- The rollups before the next one. -/
lemma before_succ (a : AcceptedRollup H) (i : Fin a.m) : a.before (i + 1) = a.before i ++ [i] := by
  rw [before, List.take_succ_eq_append_getElem (by simp), List.getElem_finRange]
  rfl

/-- The insertions that the real inner rollups make. -/
def insertions (a : AcceptedRollup H) : List Insertion :=
  (a.before a.tx.numReal).flatMap fun i => (a.rollups i).insertions

/-- A root rollup inserts the nullifiers of its inner rollups. -/
lemma inserted (a : AcceptedRollup H) (hsound : SoundTree H root) {t : Nat → Fr}
    (hroot : a.proof.header.oldNullRoot = root t) :
    a.proof.header.newNullRoot = root (afterInsertions t a.insertions) ∧
      Inserted root t a.insertions := by
  have hinitial : ∀ k ≤ a.tx.numReal,
      let l := (a.before k).flatMap fun i => (a.rollups i).insertions
      rootAt a.tx a.proof.header.oldNullRoot (·.newNullRoot) k = root (afterInsertions t l) ∧
        Inserted root t l := by
    intro k
    induction k with
    | zero => exact fun _ => ⟨hroot, trivial⟩
    | succ k ih =>
      intro hk
      have hlt : k < a.m := lt_of_lt_of_le hk (Nat.min_le_left _ _)
      obtain ⟨hold, hl⟩ := ih (Nat.le_of_succ_le hk)
      rw [← (a.accepted.old_roots (i := ⟨k, hlt⟩) hk).2] at hold
      obtain ⟨_, hspec⟩ := a.accepted.inner ⟨k, hlt⟩
      obtain ⟨hnew, hl'⟩ := hspec.inserted hsound hold
      rw [a.before_succ ⟨k, hlt⟩, List.flatMap_append, List.flatMap_singleton]
      rw [← afterInsertions_append] at hnew
      exact ⟨(rootAt_succ ⟨k, hlt⟩).trans hnew, inserted_append.mpr ⟨hl, hl'⟩⟩
  have hall := hinitial _ le_rfl
  rw [a.accepted.new_roots.2] at hall
  exact hall

end AcceptedRollup

/-! ## A chain of root rollups -/

/-- The roots that the contract stores. -/
structure Roots where
  data : Fr
  null : Fr
  roots : Fr
  defi : Fr

/-- The roots it starts from. -/
def RootRollupHeader.oldRoots (h : RootRollupHeader) : Roots :=
  ⟨h.oldDataRoot, h.oldNullRoot, h.oldDataRootsRoot, h.oldDefiRoot⟩

/-- The roots it leads to. -/
def RootRollupHeader.newRoots (h : RootRollupHeader) : Roots :=
  ⟨h.newDataRoot, h.newNullRoot, h.newDataRootsRoot, h.newDefiRoot⟩

/-- Each root rollup starts from the roots of the one before it, the first from the given ones. -/
def RootsChain : Roots → List (AcceptedRollup H) → Prop
  | _, [] => True
  | r, a :: as => a.proof.header.oldRoots = r ∧ RootsChain a.proof.header.newRoots as

/-- The roots after the root rollups. -/
def lastRoots (r : Roots) (as : List (AcceptedRollup H)) : Roots :=
  as.foldl (fun _ a => a.proof.header.newRoots) r

/-- The insertions that the root rollups make. -/
def insertionsOf (as : List (AcceptedRollup H)) : List Insertion :=
  as.flatMap AcceptedRollup.insertions

/-- A chain inserts the nullifiers of all its rollups. -/
lemma RootsChain.inserted (hsound : SoundTree H root) {t : Nat → Fr} {r : Roots}
    (hroot : r.null = root t) {as : List (AcceptedRollup H)} (h : RootsChain r as) :
    (lastRoots r as).null = root (afterInsertions t (insertionsOf as)) ∧
      Inserted root t (insertionsOf as) := by
  induction as generalizing t r with
  | nil => exact ⟨hroot, trivial⟩
  | cons a as ih =>
    obtain ⟨hold, has⟩ := h
    obtain ⟨hnew, hl⟩ := a.inserted hsound ((congrArg Roots.null hold).trans hroot)
    obtain ⟨hlast, hl'⟩ := ih (t := afterInsertions t a.insertions) hnew has
    rw [← afterInsertions_append] at hlast
    exact ⟨hlast, inserted_append.mpr ⟨hl, hl'⟩⟩

/-- Zero is not inserted. -/
lemma afterInsertions_zero {t : Nat → Fr} {x : Insertion} (h : x.1 = 0) : afterInsertions t [x] = t := by
  unfold afterInsertions
  rw [List.map_singleton, h, nullKeys_zero]
  rfl

/-- A nullifier stays in the tree. -/
lemma afterInsertions_mem {t : Nat → Fr} {x : Insertion} {l : List Insertion} (hx : x ∈ l)
    (hne : x.1 ≠ 0) : afterInsertions t l x.1.val = 1 := by
  refine InsertOnce.insertAll_of_mem (List.mem_map_of_mem (List.mem_filter.mpr ⟨?_, ?_⟩))
  · exact List.mem_map_of_mem hx
  · exact decide_eq_true hne

/-! ## A chain of one root rollup -/

namespace SampleChain

open SampleAccount (primitives)

/-- The inner rollup of the sample. -/
def rollup : RollupTx primitives 1 where
  rollupId := 0
  numTxs := 1
  dataStartIndex := 0
  txs _ := SampleAccount.proof
  oldDataRoot := 1
  newDataRoot := 2
  oldDataPath := ()
  linkedCommitmentPaths _ := ()
  linkedCommitmentIndices _ := 0
  oldNullRoot := 1
  newNullRoots _ i := i.val + 3
  oldNullPaths _ _ := ()
  dataRootsRoot := 5
  dataRootsPaths _ := ()
  dataRootsIndicies _ := 0
  newDataRootsRoot := 0
  newDefiRoot := 1
  numDefiInteractions := 0
  bridgeCallDatas _ := 0
  numAssetIds := 0
  assetIds _ := MAX_NUM_ASSETS

/-- Its circuit accepts. -/
lemma rollup_ok : (rollupCircuit rollup).toBool = true := by decide +kernel

/-- The root rollup. -/
def tx : RootRollupTx primitives 1 where
  rollupId := 0
  numInnerProofs := 1
  rollups _ := Checks.value (rollupCircuit rollup) rollup_ok
  oldDataRootsRoot := 5
  newDataRootsRoot := 6
  oldDataRootsPath := ()
  oldDefiRoot := 1
  newDefiRoot := 1
  oldDefiPath := ()
  bridgeCallDatas _ := 0
  assetIds _ := MAX_NUM_ASSETS
  defiInteractionNotes _ := SampleClaim.noteTx
  numPreviousDefiInteractions := 0
  rollupBeneficiary := 0

/-- Its circuit accepts. -/
lemma tx_ok : (rootRollupCircuit tx (rollupSizePow2 1)
    (rollupSizePow2 (1 * rollupSizePow2 1))).toBool = true := by decide +kernel

/-- The accepted root rollup. -/
def accepted : AcceptedRollup primitives where
  tx := tx
  rollups _ := rollup
  proof := Checks.value _ tx_ok
  accepted := {
    rollups := fun _ => ⟨fun _ => .account SampleAccount.tx SampleAccount.accepted,
      Checks.eq_ok_value _ rollup_ok⟩
    accepted := Checks.eq_ok_value _ tx_ok }

/-- The empty trees, and the tree of data roots with the empty data tree. -/
def roots : Roots := ⟨1, 1, 5, 1⟩

/-- The chain of this one rollup. -/
lemma chain : RootsChain roots [accepted] := by
  refine ⟨?_, trivial⟩
  rw [Roots.mk.injEq]
  decide +kernel

end SampleChain

/-- Each nullifier of a chain of root rollups is zero, and the tree stays as it is, or it is absent
before and present ever after; no nullifier but zero is inserted twice. -/
theorem nullifiers_insertedOnce (hsound : SoundTree H root) {t : Nat → Fr} {r : Roots}
    (hroot : r.null = root t) {as : List (AcceptedRollup H)} (h : RootsChain r as) :
    (lastRoots r as).null = root (afterInsertions t (insertionsOf as)) ∧
    (((insertionsOf as).map Prod.fst).filter (· ≠ 0)).Nodup ∧
    ∀ l x l', insertionsOf as = l ++ x :: l' →
      x.2 = root (afterInsertions t (l ++ [x])) ∧
      (x.1 = 0 → afterInsertions t (l ++ [x]) = afterInsertions t l) ∧
      (x.1 ≠ 0 → afterInsertions t l x.1.val = 0 ∧
        ∀ l'', l'' <+: l' → afterInsertions t (l ++ x :: l'') x.1.val = 1) := by
  obtain ⟨hlast, hinserted⟩ := h.inserted hsound hroot
  refine ⟨hlast, hinserted.fresh.nodup.of_map, fun l x l' heq => ?_⟩
  rw [heq] at hinserted
  obtain ⟨-, hfresh, hx, -⟩ := inserted_append.mp hinserted
  refine ⟨?_, fun hzero => ?_, fun hne => ⟨?_, fun l'' _ => ?_⟩⟩
  · rw [hx, afterInsertions_append]
  · rw [afterInsertions_append, afterInsertions_zero hzero]
  · refine hfresh.absent ?_
    rw [nullKeys_of_ne hne]
    exact List.mem_singleton_self _
  · exact afterInsertions_mem (List.mem_append_right _ List.mem_cons_self) hne

/-- An account is created: two nullifiers are inserted. -/
theorem nullifiers_insertedOnce_sample :
    (insertionsOf [SampleChain.accepted]).map Prod.fst = [5, 1] ∧
    (lastRoots SampleChain.roots [SampleChain.accepted]).null =
      TreeTable.rootOf SampleAccount.table
        (afterInsertions (TreeTable.leaves []).tree (insertionsOf [SampleChain.accepted])) := by
  refine ⟨by decide +kernel, (nullifiers_insertedOnce (TreeTable.sound ?_) ?_ SampleChain.chain).1⟩
  · decide +kernel
  · decide +kernel

end AztecConnect.Circuit
