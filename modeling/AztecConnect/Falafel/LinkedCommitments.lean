import AztecConnect.Falafel.WorldState
import AztecConnect.Lib.HashTree

/-!
# The commitments that a rollup is linked to

Translation of `getLinkedCommitments` of `falafel/src/rollup_creator.ts`. A transaction that is chained
from a commitment in the data tree gets the index and the path of the commitment, and one that is not
gets the empty path (`getLinkedCommitments_spec`).
-/

namespace AztecConnect.Falafel

open HashTree (path)

/-- `DATA_TREE_DEPTH`. -/
def DATA_TREE_DEPTH : Nat := 32

variable (compress : Nat → Nat → Nat)

/-- Of the data tree. -/
def WorldStateDb.getHashPath (db : WorldStateDb) (index : Nat) : List (Nat × Nat) :=
  path compress (db.get .DATA) DATA_TREE_DEPTH index

namespace RollupCreator

/-- The variables of `getLinkedCommitments`. -/
structure LinkLoop where
  commitmentsInCurrentRollup : List Nat
  linkedCommitmentPaths : List (List (Nat × Nat))
  linkedCommitmentIndices : List Nat
  dataTreeValues : List Nat

variable (db : WorldStateDb)

/-- The scan further back through the tree, with the number of the values that are not in the cache:
the index of the link, if it is found, and the cache. -/
def scanDataTree (backwardLink : Nat) : Nat → List Nat → Option Nat × List Nat
  | 0, dataTreeValues => (none, dataTreeValues)
  | indexIntoTree + 1, dataTreeValues =>
    let valueFromTree := db.get .DATA indexIntoTree
    if valueFromTree = backwardLink then (some indexIntoTree, dataTreeValues ++ [valueFromTree])
    else scanDataTree backwardLink indexIntoTree (dataTreeValues ++ [valueFromTree])

/-- One path and one index are added to the result. -/
def LinkLoop.push (l : LinkLoop) (linkedPath : List (Nat × Nat)) (index : Nat) : LinkLoop :=
  { l with
    linkedCommitmentPaths := l.linkedCommitmentPaths ++ [linkedPath]
    linkedCommitmentIndices := l.linkedCommitmentIndices ++ [index] }

/-- The index and the path of the link of a proof. -/
def linkCommitment (l : LinkLoop) (backwardLink : Nat) : LinkLoop :=
  let dataSize := db.getSize .DATA
  let emptyPath := db.getHashPath compress dataSize
  if backwardLink = 0 ∨ l.commitmentsInCurrentRollup.contains backwardLink then l.push emptyPath 0
  else
    -- the cache has the commitments in reverse order to that of the tree
    let indexIntoCache := l.dataTreeValues.findIdx (· == backwardLink)
    if indexIntoCache < l.dataTreeValues.length then
      let indexIntoTree := dataSize - (indexIntoCache + 1)
      l.push (db.getHashPath compress indexIntoTree) indexIntoTree
    else
      let (found, dataTreeValues) :=
        scanDataTree db backwardLink (dataSize - l.dataTreeValues.length) l.dataTreeValues
      match found with
      | some indexIntoTree =>
        { l with dataTreeValues }.push (db.getHashPath compress indexIntoTree) indexIntoTree
      -- we couldn't find the commitment
      | none => { l with dataTreeValues }.push emptyPath 0

/-- The body of the loop. -/
def linkProof (l : LinkLoop) (p : ProofData) : LinkLoop :=
  let l := linkCommitment compress db l p.backwardLink
  { l with
    commitmentsInCurrentRollup := l.commitmentsInCurrentRollup ++
      [p.noteCommitment1, p.noteCommitment2].filter (· ≠ 0) }

/-- The loop of `createRollup` over the proofs, which collects the linked commitments. -/
def getLinkedCommitments (proofs : List ProofData) : LinkLoop :=
  proofs.foldl (linkProof compress db) ⟨[], [], [], []⟩

/-! ## The cache -/

/-- The cache has the last values of the tree, from the last one. -/
def Cached (dataTreeValues : List Nat) : Prop :=
  dataTreeValues.length ≤ db.getSize .DATA ∧
    ∀ k < dataTreeValues.length,
      dataTreeValues[k]? = some (db.get .DATA (db.getSize .DATA - (k + 1)))

/-- What the index and the path of a link have to be, with the commitments of the earlier proofs. -/
def Linked (earlier : List Nat) (backwardLink : Nat) (linkedPath : List (Nat × Nat)) (index : Nat) :
    Prop :=
  if backwardLink ≠ 0 ∧ backwardLink ∉ earlier ∧
      ∃ i < db.getSize .DATA, db.get .DATA i = backwardLink
  then index < db.getSize .DATA ∧ db.get .DATA index = backwardLink ∧
    linkedPath = db.getHashPath compress index
  else index = 0 ∧ linkedPath = db.getHashPath compress (db.getSize .DATA)

/-- The output notes. -/
def outputs (proofs : List ProofData) : List Nat :=
  proofs.flatMap fun p => [p.noteCommitment1, p.noteCommitment2]

variable {compress} {db} {cache : List Nat} {backwardLink : Nat}

/-- The cache of leaves grows with the tree. -/
lemma Cached.concat (h : Cached db cache) {n : Nat} (hsize : cache.length + (n + 1) = db.getSize .DATA) :
    Cached db (cache ++ [db.get .DATA n]) := by
  refine ⟨?_, fun k hk => ?_⟩
  · rw [List.length_append, List.length_singleton]
    omega
  · rw [List.length_append, List.length_singleton] at hk
    by_cases hlt : k < cache.length
    · rw [List.getElem?_append_left hlt]
      exact h.2 k hlt
    · obtain rfl : k = cache.length := by omega
      rw [List.getElem?_concat_length, show db.getSize .DATA - (cache.length + 1) = n by omega]

/-- The index that is found is that of the link. If none is found, then the link is not further back. -/
lemma scanDataTree_spec (backwardLink : Nat) {n : Nat} (h : Cached db cache)
    (hsize : cache.length + n = db.getSize .DATA) :
    Cached db (scanDataTree db backwardLink n cache).2 ∧
      match (scanDataTree db backwardLink n cache).1 with
      | some i => i < n ∧ db.get .DATA i = backwardLink
      | none => ∀ i < n, db.get .DATA i ≠ backwardLink := by
  induction n generalizing cache with
  | zero => exact ⟨h, fun i hi => absurd hi (Nat.not_lt_zero i)⟩
  | succ n ih =>
    have hnext := h.concat hsize
    rw [scanDataTree]
    split
    case isTrue hvalue => exact ⟨hnext, Nat.lt_succ_self n, hvalue⟩
    case isFalse hvalue =>
      have hlength : (cache ++ [db.get .DATA n]).length + n = db.getSize .DATA := by
        rw [List.length_append, List.length_singleton]
        omega
      obtain ⟨hcached, hfound⟩ := ih hnext hlength
      refine ⟨hcached, ?_⟩
      split at hfound
      case h_1 i hi =>
        exact ⟨Nat.lt_succ_of_lt hfound.1, hfound.2⟩
      case h_2 hnone =>
        intro i hi
        rcases Nat.lt_succ_iff_lt_or_eq.mp hi with hlt | rfl
        · exact hfound i hlt
        · exact hvalue

/-- A value in the cache is that of the tree position into which its place is converted. -/
lemma Cached.get_findIdx (h : Cached db cache) (hlt : cache.findIdx (· == backwardLink) < cache.length) :
    db.get .DATA (db.getSize .DATA - (cache.findIdx (· == backwardLink) + 1)) = backwardLink := by
  have hvalue := List.findIdx_getElem (w := hlt)
  have hget := h.2 _ hlt
  rw [List.getElem?_eq_getElem hlt] at hget
  exact (Option.some.inj hget).symm.trans (beq_iff_eq.mp hvalue)

/-- A value that is not in the cache is not among the last ones of the tree. -/
lemma Cached.ne_of_findIdx (h : Cached db cache)
    (hnot : ¬ cache.findIdx (· == backwardLink) < cache.length) {i : Nat}
    (hlo : db.getSize .DATA - cache.length ≤ i) (hhi : i < db.getSize .DATA) :
    db.get .DATA i ≠ backwardLink := by
  intro hvalue
  have hk : db.getSize .DATA - 1 - i < cache.length := by omega
  have hget := h.2 _ hk
  rw [show db.getSize .DATA - (db.getSize .DATA - 1 - i + 1) = i by omega, hvalue] at hget
  exact hnot (List.findIdx_lt_length_of_exists ⟨_, List.mem_of_getElem? hget, beq_self_eq_true _⟩)

/-- A commitment in the tree is linked where it stands. -/
lemma Linked.found {earlier : List Nat} {i : Nat} (hfree : ¬ (backwardLink = 0 ∨ backwardLink ∈ earlier))
    (hlt : i < db.getSize .DATA) (hvalue : db.get .DATA i = backwardLink) :
    Linked compress db earlier backwardLink (db.getHashPath compress i) i := by
  rw [Linked, if_pos]
  · exact ⟨hlt, hvalue, rfl⟩
  · exact ⟨(not_or.mp hfree).1, (not_or.mp hfree).2, i, hlt, hvalue⟩

/-- One that is not in the tree, or in the rollup itself, gets the empty path. -/
lemma Linked.empty {earlier : List Nat}
    (hnot : ¬ (backwardLink ≠ 0 ∧ backwardLink ∉ earlier ∧
      ∃ i < db.getSize .DATA, db.get .DATA i = backwardLink)) :
    Linked compress db earlier backwardLink (db.getHashPath compress (db.getSize .DATA)) 0 := by
  rw [Linked, if_neg hnot]
  exact ⟨rfl, rfl⟩

/-- One backward link: its path and its index, and the cache stays right. -/
lemma linkCommitment_spec (compress : Nat → Nat → Nat) (backwardLink : Nat) {l : LinkLoop}
    (h : Cached db l.dataTreeValues) :
    ∃ linkedPath index dataTreeValues,
      linkCommitment compress db l backwardLink =
        { l with dataTreeValues }.push linkedPath index ∧
      Cached db dataTreeValues ∧
      Linked compress db l.commitmentsInCurrentRollup backwardLink linkedPath index := by
  fun_cases linkCommitment compress db l backwardLink with
  | case1 dataSize emptyPath hlink =>
    refine ⟨_, _, _, rfl, h, Linked.empty fun hcond => ?_⟩
    rcases hlink with hzero | hearlier
    · exact hcond.1 hzero
    · exact hcond.2.1 (List.contains_iff_mem.mp hearlier)
  | case2 dataSize hlink indexIntoCache hcache indexIntoTree =>
    rw [List.contains_iff_mem] at hlink
    refine ⟨_, _, _, rfl, h, Linked.found hlink ?_ (h.get_findIdx hcache)⟩
    have hle := h.1
    show db.getSize .DATA - (indexIntoCache + 1) < db.getSize .DATA
    omega
  | case3 dataSize hlink indexIntoCache hcache dataTreeValues indexIntoTree hscan =>
    rw [List.contains_iff_mem] at hlink
    obtain ⟨hcached, hfound⟩ := scanDataTree_spec backwardLink h
      (Nat.add_sub_cancel' h.1)
    rw [show scanDataTree db backwardLink (db.getSize .DATA - l.dataTreeValues.length)
      l.dataTreeValues = (some indexIntoTree, dataTreeValues) from hscan] at hcached hfound
    exact ⟨_, _, _, rfl, hcached,
      Linked.found hlink (hfound.1.trans_le (Nat.sub_le _ _)) hfound.2⟩
  | case4 dataSize emptyPath hlink indexIntoCache hcache dataTreeValues hscan =>
    obtain ⟨hcached, hmissing⟩ := scanDataTree_spec backwardLink h
      (Nat.add_sub_cancel' h.1)
    rw [show scanDataTree db backwardLink (db.getSize .DATA - l.dataTreeValues.length)
      l.dataTreeValues = (none, dataTreeValues) from hscan] at hcached hmissing
    refine ⟨_, _, _, rfl, hcached, Linked.empty ?_⟩
    rintro ⟨-, -, i, hlt, hvalue⟩
    -- neither in the cache nor before it
    rcases Nat.lt_or_ge i (db.getSize .DATA - l.dataTreeValues.length) with hback | hin
    · exact hmissing i hback hvalue
    · exact h.ne_of_findIdx hcache hin hlt hvalue

/-! ## All proofs -/

/-- The links of the proofs that have been handled. -/
structure LinkInv (compress : Nat → Nat → Nat) (db : WorldStateDb) (proofs : List ProofData)
    (l : LinkLoop) : Prop where
  cached : Cached db l.dataTreeValues
  commitments : l.commitmentsInCurrentRollup = (outputs proofs).filter (· ≠ 0)
  paths : l.linkedCommitmentPaths.length = proofs.length
  indices : l.linkedCommitmentIndices.length = proofs.length
  linked : ∀ k p, proofs[k]? = some p → ∃ linkedPath index,
    l.linkedCommitmentPaths[k]? = some linkedPath ∧ l.linkedCommitmentIndices[k]? = some index ∧
      Linked compress db (outputs (proofs.take k)) p.backwardLink linkedPath index

/-- Commitments of zero do not count as earlier ones. -/
lemma Linked.of_filter {earlier : List Nat} {linkedPath : List (Nat × Nat)} {index : Nat}
    (h : Linked compress db (earlier.filter (· ≠ 0)) backwardLink linkedPath index) :
    Linked compress db earlier backwardLink linkedPath index := by
  have hmem : (backwardLink ≠ 0 ∧ backwardLink ∉ earlier.filter (· ≠ 0) ∧
      ∃ i < db.getSize .DATA, db.get .DATA i = backwardLink) ↔
      (backwardLink ≠ 0 ∧ backwardLink ∉ earlier ∧
        ∃ i < db.getSize .DATA, db.get .DATA i = backwardLink) := by
    refine and_congr_right fun hne => and_congr_left fun _ => not_congr ?_
    simp [hne]
  unfold Linked at h ⊢
  rwa [if_congr hmem rfl rfl] at h

/-- One proof keeps the invariant. -/
lemma LinkInv.linkProof {proofs : List ProofData} {l : LinkLoop} (h : LinkInv compress db proofs l)
    (p : ProofData) : LinkInv compress db (proofs ++ [p]) (linkProof compress db l p) := by
  obtain ⟨linkedPath, index, dataTreeValues, hlink, hcached, hlinked⟩ :=
    linkCommitment_spec compress p.backwardLink h.cached
  rw [RollupCreator.linkProof, hlink]
  refine ⟨hcached, ?_, ?_, ?_, ?_⟩
  · show l.commitmentsInCurrentRollup ++ _ = _
    rw [h.commitments, RollupCreator.outputs, RollupCreator.outputs, List.flatMap_append,
      List.flatMap_singleton, List.filter_append]
  · show (l.linkedCommitmentPaths ++ [linkedPath]).length = _
    rw [List.length_append, h.paths, List.length_append]
    rfl
  · show (l.linkedCommitmentIndices ++ [index]).length = _
    rw [List.length_append, h.indices, List.length_append]
    rfl
  · intro k q hq
    show ∃ path i, (l.linkedCommitmentPaths ++ [linkedPath])[k]? = some path ∧
      (l.linkedCommitmentIndices ++ [index])[k]? = some i ∧ _
    by_cases hlt : k < proofs.length
    · rw [List.getElem?_append_left hlt] at hq
      rw [List.getElem?_append_left (h.paths.symm ▸ hlt),
        List.getElem?_append_left (h.indices.symm ▸ hlt), List.take_append_of_le_length hlt.le]
      exact h.linked k q hq
    · have hk : k < (proofs ++ [p]).length := (List.getElem?_eq_some_iff.mp hq).1
      obtain rfl : k = proofs.length := by
        rw [List.length_append, List.length_singleton] at hk
        omega
      rw [List.getElem?_concat_length] at hq
      obtain rfl : p = q := Option.some.inj hq
      refine ⟨linkedPath, index, ?_, ?_, ?_⟩
      · rw [← h.paths, List.getElem?_concat_length]
      · rw [← h.indices, List.getElem?_concat_length]
      · rw [List.take_left]
        exact Linked.of_filter (h.commitments ▸ hlinked)

/-- Every proof of the list gets the path and the index of its link. -/
theorem getLinkedCommitments_spec (compress : Nat → Nat → Nat) (db : WorldStateDb)
    (proofs : List ProofData) :
    (getLinkedCommitments compress db proofs).linkedCommitmentPaths.length = proofs.length ∧
    (getLinkedCommitments compress db proofs).linkedCommitmentIndices.length = proofs.length ∧
    ∀ k p, proofs[k]? = some p → ∃ linkedPath index,
      (getLinkedCommitments compress db proofs).linkedCommitmentPaths[k]? = some linkedPath ∧
      (getLinkedCommitments compress db proofs).linkedCommitmentIndices[k]? = some index ∧
      Linked compress db (outputs (proofs.take k)) p.backwardLink linkedPath index := by
  have hinv : LinkInv compress db proofs (getLinkedCommitments compress db proofs) := by
    induction proofs using List.reverseRecOn with
    | nil => exact ⟨⟨Nat.zero_le _, nofun⟩, rfl, rfl, rfl, nofun⟩
    | append_singleton proofs p ih =>
      rw [getLinkedCommitments, List.foldl_concat]
      exact ih.linkProof p
  exact ⟨hinv.paths, hinv.indices, hinv.linked⟩

end RollupCreator

end AztecConnect.Falafel
