import AztecConnect.Client.SubtreeRoots
import AztecConnect.Client.WorldState
import AztecConnect.Falafel.DataStartIndex

/-!
# Hash paths of notes

Falafel puts the notes of every rollup into a tree of depth 32, and stores the root of the subtree of
the rollup with its block. The client inserts these roots into a tree of its own, as many at a time as
it gets blocks, and builds the path of a note from the subtree of its block and from that tree. The path
leads to the root of the tree of falafel if all rollups are of the size that the client was initialised
with (`hashPaths_verify`).
-/

namespace AztecConnect.System

open Falafel HashTree
open Client (BlockContext)
open Client.MerkleTree (setRange)
open Contract (nextMultiple)

/-! ## Falafel -/

section Falafel

variable (compress : Nat → Nat → Nat)

/-- The notes of a rollup, in their order. -/
def noteCommitments (b : Block) : List Nat :=
  b.rollup.innerProofData.flatMap fun x => [x.noteCommitment1, x.noteCommitment2]

/-- The root of the data tree of falafel. -/
def dataRoot (ts : Trees) : Nat := node compress (ts .DATA).leaves.get Client.DATA_TREE_DEPTH 0

/-- `getHashPath` of falafel's data tree. -/
def getHashPath (ts : Trees) (index : Nat) : List (Nat × Nat) :=
  path compress (ts .DATA).leaves.get Client.DATA_TREE_DEPTH index

/-- `getSubtreeRoot`: the sibling pair on the path at the depth of the subtree. -/
def getSubtreeRoot (ts : Trees) (index depth : Nat) : Except String Nat :=
  match (getHashPath compress ts index)[depth]? with
  | none => .error "Cannot read properties of undefined"
  | some hashPair =>
    -- the root is the lhs or rhs of the hash pair
    let isLeft := index / 2 ^ depth % 2 = 0
    .ok (if isLeft then hashPair.1 else hashPair.2)

variable (E : WorldStateEnv)

/-- What is stored with a block, after its rollup is added. -/
def subtreeRoot (before : List Block) (b : Block) : Except String Nat :=
  getSubtreeRoot compress (replay E (before ++ [b])) b.rollup.dataStartIndex
    (Nat.clog 2 (b.rollup.rollupSize * BlockContext.NUM_NEW_DATA_TREE_NOTES_PER_TX))

/-- The roots with which the client is given the blocks of a batch. -/
def subtreeRoots (before : List Block) : List Block → Except String (List Nat)
  | [] => .ok []
  | b :: batch => do
    let root ← subtreeRoot compress E before b
    let roots ← subtreeRoots (before ++ [b]) batch
    .ok (root :: roots)

end Falafel

/-! ## The client -/

section Client

variable (compress : Nat → Nat → Nat) (E : WorldStateEnv)

/-- The blocks that are downloaded at once. -/
def handleBlockContexts (w : Client.WorldState Nat) (before batch : List Block) :
    Except String (Client.WorldState Nat) :=
  match batch with
  | [] => .ok w
  | b :: _ => do
    let roots ← subtreeRoots compress E before batch
    w.insertElements compress 0 b.rollup.dataStartIndex roots

/-- The client handles batches of blocks, one after the other. -/
def sync (w : Client.WorldState Nat) (before : List Block) :
    List (List Block) → Except String (Client.WorldState Nat)
  | [] => .ok w
  | batch :: batches => do
    let w ← handleBlockContexts compress E w before batch
    sync w (before ++ batch) batches

/-- The path of a note, from the context of its block. -/
def fullHashPath (w : Client.WorldState Nat) (context : BlockContext Nat) (noteIndex : Nat) :
    Except String (List (Nat × Nat)) :=
  (context.getBlockSubtreeHashPath compress 0 noteIndex).1.map (w.buildFullHashPath compress noteIndex)

/-- A context of the block, after any calls. -/
def ContextOf (b : Block) (context : BlockContext Nat) : Prop :=
  BlockContext.Reached compress 0 b.rollup.rollupSize b.rollup.dataStartIndex (noteCommitments b) context

end Client

/-! ## The chain -/

/-- The size of the data tree. -/
def dataSize (chain : List Block) : Nat :=
  (chain.getLast?.map fun b => b.rollup.dataStartIndex + b.rollup.rollupSize * 2).getD 0

/-- A rollup starts where its subtree has to, and has as many transactions as its size, some of which are
padding. -/
structure Follows (before : List Block) (b : Block) : Prop where
  dataStartIndex : b.rollup.dataStartIndex = nextMultiple (dataSize before) (b.rollup.rollupSize * 2)
  rollupSize : b.rollup.innerProofData.length = b.rollup.rollupSize
  fits : b.rollup.dataStartIndex + b.rollup.rollupSize * 2 ≤ 2 ^ 32

/-- The rollups that falafel has added. No commitment is the hash of two nodes. -/
structure Chain (compress : Nat → Nat → Nat) (chain : List Block) : Prop where
  follows : ∀ before b after, chain = before ++ b :: after → Follows before b
  leaf : ∀ b ∈ chain, ∀ v ∈ noteCommitments b, ∀ l r, compress l r ≠ v

/-- All rollups have the size of the subtrees, and no two of them with a note have the same notes. -/
structure Uniform (compress : Nat → Nat → Nat) (d : Nat) (chain : List Block) : Prop
    extends Chain compress chain where
  rollupSize : ∀ b ∈ chain, b.rollup.rollupSize * 2 = 2 ^ d
  distinct : chain.Pairwise fun b b' =>
    noteCommitments b = noteCommitments b' → ∀ v ∈ noteCommitments b, v = 0

variable {compress : Nat → Nat → Nat} {E : WorldStateEnv} {d : Nat} {chain before batch : List Block}
  {b : Block}

/-- A prefix of a chain is a chain. -/
lemma Chain.first {after : List Block} (h : Chain compress (before ++ after)) :
    Chain compress before where
  follows first b rest hsplit := h.follows first b (rest ++ after) (by
    rw [hsplit, List.append_assoc, List.cons_append])
  leaf b hb := h.leaf b (List.mem_append_left after hb)

/-- A prefix of a uniform chain is uniform. -/
lemma Uniform.first {after : List Block} (h : Uniform compress d (before ++ after)) :
    Uniform compress d before where
  toChain := h.toChain.first
  rollupSize b hb := h.rollupSize b (List.mem_append_left after hb)
  distinct := (List.pairwise_append.mp h.distinct).1

/-- So it is up to a block. -/
lemma Uniform.concat (h : Uniform compress d (before ++ b :: batch)) :
    Uniform compress d (before ++ [b]) := by
  rw [List.append_cons] at h
  exact h.first

/-- Every transaction has two notes. -/
lemma length_noteCommitments (b : Block) :
    (noteCommitments b).length = b.rollup.innerProofData.length * 2 := by
  unfold noteCommitments
  induction b.rollup.innerProofData with
  | nil => rfl
  | cons tx txs ih =>
    rw [List.flatMap_cons, List.length_append, ih, List.length_cons, List.length_cons,
      List.length_cons, List.length_nil]
    omega

/-- The notes of a block are its leaves. -/
lemma getD_noteCommitments (b : Block) (j : Nat) : (noteCommitments b).getD j 0 = b.rollup.leaf j := by
  unfold noteCommitments RollupProofData.leaf
  induction b.rollup.innerProofData generalizing j with
  | nil => rfl
  | cons tx txs ih =>
    match j with
    | 0 => rfl
    | 1 => rfl
    | j + 2 =>
      have hdiv : (j + 2) / 2 = j / 2 + 1 := by omega
      have hmod : (j + 2) % 2 = j % 2 := by omega
      rw [hdiv, hmod, List.getElem?_cons_succ]
      exact ih j

/-- Where a rollup starts. -/
lemma Uniform.dataSize_eq (h : Uniform compress d chain) :
    dataSize chain = chain.length * 2 ^ d ∧ chain.length * 2 ^ d ≤ 2 ^ 32 := by
  induction chain using List.reverseRecOn with
  | nil => exact ⟨(Nat.zero_mul _).symm, by rw [List.length_nil, Nat.zero_mul]; exact Nat.zero_le _⟩
  | append_singleton before b ih =>
    obtain ⟨hsize, -⟩ := ih h.first
    obtain ⟨hstart, -, hfits⟩ := h.follows before b [] rfl
    have hrollup := h.rollupSize b (List.mem_append_right before List.mem_cons_self)
    rw [hrollup] at hstart hfits
    rw [hsize, nextMultiple, if_pos (Nat.mul_mod_left _ _)] at hstart
    rw [List.length_append, List.length_singleton, Nat.add_mul, Nat.one_mul, ← hstart]
    refine ⟨?_, hfits⟩
    rw [dataSize, List.getLast?_concat]
    exact congrArg _ hrollup

/-- A block of a uniform chain starts behind the blocks before it. -/
lemma Uniform.start (h : Uniform compress d (before ++ b :: batch)) :
    b.rollup.dataStartIndex = before.length * 2 ^ d := by
  have hstart := (h.follows before b batch rfl).dataStartIndex
  have hrollup := h.rollupSize b (List.mem_append_right before List.mem_cons_self)
  rwa [hrollup, h.first.dataSize_eq.1, nextMultiple, if_pos (Nat.mul_mod_left _ _)] at hstart

/-- Its notes fill its subtree. -/
lemma Uniform.length (h : Uniform compress d chain) (hb : b ∈ chain) :
    (noteCommitments b).length = BlockContext.NUM_NEW_DATA_TREE_NOTES_PER_TX * b.rollup.rollupSize ∧
      (noteCommitments b).length = 2 ^ d := by
  obtain ⟨before, after, rfl⟩ := List.append_of_mem hb
  have hfollows := h.follows before b after rfl
  have hrollup := h.rollupSize b hb
  rw [length_noteCommitments, hfollows.rollupSize]
  exact ⟨Nat.mul_comm _ _, hrollup⟩

/-! ## The subtrees of falafel -/

/-- The leaves of the data tree. -/
def leaves (E : WorldStateEnv) (chain : List Block) : Nat → Nat := (replay E chain .DATA).leaves.get

/-- The roots of the subtrees. -/
def roots (compress : Nat → Nat → Nat) (E : WorldStateEnv) (d : Nat) (chain : List Block) : Nat → Nat :=
  node compress (leaves E chain) d

/-- The notes of one more block are in its subtree. -/
lemma leaves_concat (h : Uniform compress d (before ++ [b])) (k : Nat) :
    leaves E (before ++ [b]) k =
      if k / 2 ^ d = before.length then (noteCommitments b).getD (k % 2 ^ d) 0 else leaves E before k := by
  have hstart := h.start
  have hlength := (h.length (List.mem_append_right before List.mem_cons_self)).2
  rw [length_noteCommitments] at hlength
  have hpos := Nat.two_pow_pos d
  unfold leaves
  rw [replay_concat, Trees.addRollup_data, Trees.addTxs_get, hstart, hlength]
  split
  case isTrue hin =>
    have hdiv : k / 2 ^ d = before.length :=
      Nat.div_eq_of_lt_le hin.1 (by rw [Nat.succ_mul]; exact hin.2)
    have hmod : k - before.length * 2 ^ d = k % 2 ^ d := by
      have hsplit := Nat.div_add_mod k (2 ^ d)
      rw [hdiv, Nat.mul_comm] at hsplit
      omega
    rw [if_pos hdiv, hmod, getD_noteCommitments]
    rfl
  case isFalse hout =>
    refine (if_neg fun hdiv => hout ?_).symm
    have hsplit := Nat.div_add_mod k (2 ^ d)
    have hmod := Nat.mod_lt k hpos
    rw [hdiv, Nat.mul_comm] at hsplit
    omega

/-- The subtrees behind the chain are empty. -/
lemma leaves_beyond (h : Uniform compress d chain) {k : Nat} (hk : chain.length ≤ k / 2 ^ d) :
    leaves E chain k = 0 := by
  induction chain using List.reverseRecOn with
  | nil => rfl
  | append_singleton before b ih =>
    rw [List.length_append, List.length_singleton] at hk
    rw [leaves_concat h, if_neg (by omega)]
    exact ih h.first (by omega)

/-- The leaves of a subtree are the notes of its block. -/
lemma leaves_of {after : List Block} (h : Uniform compress d (before ++ b :: after)) {k : Nat}
    (hk : k / 2 ^ d = before.length) :
    leaves E (before ++ b :: after) k = (noteCommitments b).getD (k % 2 ^ d) 0 := by
  induction after using List.reverseRecOn with
  | nil => rw [leaves_concat h, if_pos hk]
  | append_singleton after c ih =>
    rw [← List.cons_append, ← List.append_assoc] at h ⊢
    rw [leaves_concat h, List.length_append, List.length_cons, if_neg (by omega)]
    exact ih h.first

/-- No leaf is the hash of two nodes. -/
lemma height_leaves (h : Uniform compress d chain) (hzero : ∀ l r, compress l r ≠ 0) (k : Nat) :
    Height compress 0 (leaves E chain k) := by
  refine .leaf fun l r => ?_
  rcases Nat.lt_or_ge (k / 2 ^ d) chain.length with hlt | hge
  · have hsplit : chain = chain.take (k / 2 ^ d) ++ chain[k / 2 ^ d] :: chain.drop (k / 2 ^ d + 1) := by
      rw [← List.drop_eq_getElem_cons hlt, List.take_append_drop]
    have hmem : chain[k / 2 ^ d] ∈ chain := List.getElem_mem hlt
    have hlength := (h.length hmem).2
    have hmod : k % 2 ^ d < (noteCommitments chain[k / 2 ^ d]).length := by
      rw [hlength]
      exact Nat.mod_lt k (Nat.two_pow_pos d)
    have hleaf : leaves E chain k = (noteCommitments chain[k / 2 ^ d]).getD (k % 2 ^ d) 0 := by
      rw [hsplit] at h
      have hk : k / 2 ^ d = (chain.take (k / 2 ^ d)).length := by rw [List.length_take]; omega
      have hof := leaves_of (E := E) h hk
      rwa [← hsplit] at hof
    rw [hleaf, List.getD_eq_getElem _ _ hmod]
    exact h.leaf _ hmem _ (List.getElem_mem hmod) l r
  · rw [leaves_beyond h hge]
    exact hzero l r

/-- The roots behind the chain are those of an empty subtree. -/
lemma roots_beyond (h : Uniform compress d chain) {j : Nat} (hj : chain.length ≤ j) :
    roots compress E d chain j = node compress (fun _ => 0) d 0 := by
  rw [roots, ← node_const compress 0 d j]
  exact node_congr fun k hk => leaves_beyond h (hk ▸ hj)

/-- The root of a subtree is that of the notes of its block. -/
lemma roots_of {after : List Block} (h : Uniform compress d (before ++ b :: after)) :
    roots compress E d (before ++ b :: after) before.length =
      node compress (fun k => (noteCommitments b).getD k 0) d 0 := by
  refine node_shift fun k hk => ?_
  have hdiv : (before.length * 2 ^ d + k) / 2 ^ d = before.length := by
    rw [Nat.mul_comm, Nat.mul_add_div (Nat.two_pow_pos d), Nat.div_eq_of_lt hk, Nat.add_zero]
  rw [leaves_of h hdiv, Nat.mul_comm, Nat.mul_add_mod, Nat.mod_eq_of_lt hk, Nat.zero_mul, Nat.zero_add]

/-- A rollup changes the root of its own subtree. -/
lemma roots_concat (h : Uniform compress d (before ++ [b])) :
    setRange (roots compress E d before) before.length
      [roots compress E d (before ++ [b]) before.length] = roots compress E d (before ++ [b]) := by
  rw [Client.MerkleTree.setRange_singleton]
  funext j
  by_cases hj : j = before.length
  · rw [hj, Function.update_self]
  · rw [Function.update_of_ne hj]
    refine node_congr fun k hk => ?_
    rw [leaves_concat h, if_neg (by omega)]

/-- All roots are of the height of a subtree. -/
lemma height_roots (h : Uniform compress d chain) (hzero : ∀ l r, compress l r ≠ 0) (j : Nat) :
    SameHeight compress (node compress (fun _ => 0) d 0) (roots compress E d chain j) :=
  ⟨0 + d, Height.node_of fun _ => .leaf hzero, Height.node_of (height_leaves h hzero)⟩

/-- No two subtrees with a note are the same. -/
lemma Uniform.distinct_roots (h : Uniform compress d chain) (hinj : Function.Injective2 compress) :
    Client.MerkleTree.DistinctLeaves (node compress (fun _ => 0) d 0) (roots compress E d chain) := by
  have hroot (i : Nat) (hi : i < chain.length) : roots compress E d chain i =
      node compress (fun k => (noteCommitments chain[i]).getD k 0) d 0 := by
    have hsplit : chain = chain.take i ++ chain[i] :: chain.drop (i + 1) := by
      rw [← List.drop_eq_getElem_cons hi, List.take_append_drop]
    have hlength : (chain.take i).length = i := by rw [List.length_take]; omega
    have hof := roots_of (E := E) (hsplit ▸ h)
    rwa [← hsplit, hlength] at hof
  have hearlier (i j : Nat) (hij : i < j) (hj : j < chain.length)
      (heq : roots compress E d chain i = roots compress E d chain j) :
      roots compress E d chain i = node compress (fun _ => 0) d 0 := by
    have hi : i < chain.length := Nat.lt_trans hij hj
    have hlengthi := (h.length (List.getElem_mem hi)).2
    have hlengthj := (h.length (List.getElem_mem hj)).2
    have hnodes := heq
    rw [hroot i hi, hroot j hj] at hnodes
    have hnotes : noteCommitments chain[i] = noteCommitments chain[j] := by
      refine List.ext_getElem (hlengthi.trans hlengthj.symm) fun k hk hk' => ?_
      have hleaf := leaf_eq hinj hnodes (hlengthi ▸ hk)
      rwa [Nat.zero_mul, Nat.zero_add, List.getD_eq_getElem _ _ hk, List.getD_eq_getElem _ _ hk'] at hleaf
    have hempty := List.pairwise_iff_getElem.mp h.distinct i j hi hj hij hnotes
    rw [hroot i hi]
    refine node_congr fun k _ => ?_
    rw [List.getD_eq_getElem?_getD]
    cases hget : (noteCommitments chain[i])[k]? with
    | none => rfl
    | some v => exact hempty v (List.mem_of_getElem? hget)
  intro i j heq hne
  rcases Nat.lt_trichotomy i j with hlt | rfl | hgt
  · rcases Nat.lt_or_ge j chain.length with hj | hj
    · exact absurd (hearlier i j hlt hj heq) hne
    · exact absurd (heq.trans (roots_beyond h hj)) hne
  · rfl
  · rcases Nat.lt_or_ge i chain.length with hi | hi
    · exact absurd (heq.trans (hearlier j i hgt hi heq.symm)) hne
    · exact absurd (roots_beyond h hi) hne

/-- What is stored with a block is the root of its subtree. -/
lemma subtreeRoot_eq (h : Uniform compress d (before ++ [b])) (hd : d < 32) :
    subtreeRoot compress E before b = .ok (roots compress E d (before ++ [b]) before.length) := by
  have hsize : b.rollup.rollupSize * BlockContext.NUM_NEW_DATA_TREE_NOTES_PER_TX = 2 ^ d :=
    h.rollupSize b (List.mem_append_right before List.mem_cons_self)
  have hindex : before.length * 2 ^ d / 2 ^ d = before.length := Nat.mul_div_cancel _ (Nat.two_pow_pos d)
  have hup : before.length * 2 ^ d / 2 ^ (d + 1) = before.length / 2 := by
    rw [Nat.pow_succ, ← Nat.div_div_eq_div_mul, hindex]
  have hpair : (path compress (leaves E (before ++ [b])) Client.DATA_TREE_DEPTH (before.length * 2 ^ d))[d]? =
      some (pair compress (leaves E (before ++ [b])) (before.length * 2 ^ d) d) := by
    rw [path, List.getElem?_map, List.getElem?_range (show d < Client.DATA_TREE_DEPTH from hd)]
    rfl
  unfold subtreeRoot getSubtreeRoot getHashPath
  rw [hsize, Nat.clog_pow 2 d (by decide), h.start]
  unfold leaves at hpair
  rw [hpair]
  dsimp only
  rw [hindex, pair, hup]
  split
  case isTrue heven => rw [show 2 * (before.length / 2) = before.length by omega]; rfl
  case isFalse hodd => rw [show 2 * (before.length / 2) + 1 = before.length by omega]; rfl

/-- The client is given the roots of the blocks. -/
lemma subtreeRoots_eq (h : Uniform compress d (before ++ batch)) (hd : d < 32) :
    ∃ rs, subtreeRoots compress E before batch = .ok rs ∧ rs.length = batch.length ∧
      setRange (roots compress E d before) before.length rs = roots compress E d (before ++ batch) := by
  induction batch generalizing before with
  | nil =>
    rw [List.append_nil]
    exact ⟨[], rfl, rfl, Client.MerkleTree.setRange_nil _ _⟩
  | cons b batch ih =>
    have hone := h.concat
    rw [List.append_cons] at h ⊢
    obtain ⟨rs, hrs, hlength, hset⟩ := ih h
    refine ⟨roots compress E d (before ++ [b]) before.length :: rs, ?_, by
      rw [List.length_cons, List.length_cons, hlength], ?_⟩
    · rw [subtreeRoots, subtreeRoot_eq hone hd]
      show (do let roots ← subtreeRoots compress E (before ++ [b]) batch; .ok (_ :: roots)) = _
      rw [hrs]
      rfl
    · rw [← List.singleton_append, ← Client.MerkleTree.setRange_append, List.length_singleton,
        roots_concat hone]
      rwa [List.length_append, List.length_singleton] at hset

/-! ## Runs of the client -/

/-- The tree of the client has the roots of the subtrees of falafel. -/
structure Synced (compress : Nat → Nat → Nat) (E : WorldStateEnv) (d : Nat) (chain : List Block)
    (w : Client.WorldState Nat) : Prop where
  subTreeDepth : w.subTreeDepth = d
  depth : w.tree.depth = Client.DATA_TREE_DEPTH - d
  initialLeafValue : w.tree.initialLeafValue = node compress (fun _ => 0) d 0
  size : w.tree.size = chain.length
  scattered : w.tree.Scattered compress (roots compress E d chain)

/-- A new client has handled no blocks. -/
lemma synced_init (hzero : ∀ l r, compress l r ≠ 0) (hd : d < 32) :
    ∃ w, Client.WorldState.init compress 0 d = .ok w ∧ Synced compress E d [] w := by
  obtain ⟨w, hinit, hsub, hnew⟩ := Client.WorldState.init_eq compress 0 hd
  have hheight : SameHeight compress (node compress (fun _ => 0) d 0) (node compress (fun _ => 0) d 0) :=
    ⟨0 + d, Height.node_of fun _ => .leaf hzero, Height.node_of fun _ => .leaf hzero⟩
  have hroots : roots compress E d [] = fun _ => node compress (fun _ => 0) d 0 :=
    funext fun j => node_const compress 0 d j
  obtain ⟨hholds, hsize, hinitial⟩ := Client.MerkleTree.holds_new hheight hnew
  have hfields : w.tree.depth = Client.DATA_TREE_DEPTH - d ∧ w.tree.db = fun _ => none := by
    unfold Client.MerkleTree.new at hnew
    split at hnew
    case isFalse => cases hnew
    case isTrue => exact Except.ok.inj hnew ▸ ⟨rfl, rfl⟩
  refine ⟨w, hinit, hsub, hfields.1, hinitial, hsize, ?_⟩
  rw [hroots]
  refine ⟨hholds, fun i j _ hne => absurd hinitial.symm hne, ?_⟩
  rintro key ⟨data, hdata, -⟩
  rw [hfields.2] at hdata
  cases hdata

/-- A batch of blocks is added. -/
lemma Synced.handle {w : Client.WorldState Nat} (hw : Synced compress E d before w)
    (h : Uniform compress d (before ++ batch)) (hinj : Function.Injective2 compress)
    (hzero : ∀ l r, compress l r ≠ 0) (hd : d < 32)
    (hstart : ∀ b ∈ batch.head?, b.rollup.dataStartIndex < 2 ^ 31) :
    ∃ w', handleBlockContexts compress E w before batch = .ok w' ∧
      Synced compress E d (before ++ batch) w' := by
  cases batch with
  | nil =>
    rw [List.append_nil]
    exact ⟨w, rfl, hw⟩
  | cons b batch =>
    obtain ⟨rs, hrs, hlength, hset⟩ := subtreeRoots_eq (E := E) h hd
    have hindex : before.length * 2 ^ d / 2 ^ d = before.length :=
      Nat.mul_div_cancel _ (Nat.two_pow_pos d)
    have hlt := hstart b rfl
    have hpos : 0 < d := by
      rcases Nat.eq_zero_or_pos d with rfl | hpos
      · have hrollup := h.rollupSize b (List.mem_append_right before List.mem_cons_self)
        omega
      · exact hpos
    have hmem (v : Nat) (hv : v ∈ rs) : ∃ j, v = roots compress E d (before ++ b :: batch) j := by
      obtain ⟨k, hk, rfl⟩ := List.getElem_of_mem hv
      refine ⟨before.length + k, ?_⟩
      rw [← hset, Client.MerkleTree.setRange_at hk]
    -- a root is no empty buffer
    have hvalues : rs.map (fun v => if v = 0 then w.tree.initialLeafValue else v) = rs := by
      refine (List.map_congr_left fun v hv => if_neg ?_).trans (List.map_id rs)
      obtain ⟨j, rfl⟩ := hmem v hv
      obtain ⟨d, rfl⟩ := Nat.exists_eq_add_of_le' hpos
      exact hzero _ _
    have hfits : before.length + rs.length ≤ 2 ^ w.tree.depth := by
      have hall := h.dataSize_eq.2
      rw [List.length_append, ← hlength] at hall
      rw [hw.depth]
      refine Nat.le_of_mul_le_mul_right ?_ (Nat.two_pow_pos d)
      rwa [← Nat.pow_add, Nat.sub_add_cancel (show d ≤ Client.DATA_TREE_DEPTH from hd.le)]
    have hsmall : 2 ^ w.tree.depth < 2 ^ 32 := by
      rw [hw.depth]
      exact Nat.pow_lt_pow_right (by decide) (by unfold Client.DATA_TREE_DEPTH; omega)
    have hdistinct := h.distinct_roots (E := E) hinj
    rw [← hset, ← hw.initialLeafValue] at hdistinct
    obtain ⟨tree, hrun, hsame, hsize, hscattered⟩ := hw.scattered.insertSubtrees hinj
      (Client.MerkleTree.subtrees_cut before.length rs)
      (fun v hv => by
        obtain ⟨j, rfl⟩ := hmem v hv
        rw [hw.initialLeafValue]
        exact height_roots h hzero j)
      hw.size.le hfits (by omega) hdistinct
    refine ⟨{ w with tree }, ?_, hw.subTreeDepth, hsame.depth.trans hw.depth,
      hsame.initialLeafValue.trans hw.initialLeafValue, ?_, ?_⟩
    · unfold handleBlockContexts
      rw [hrs]
      show w.insertElements compress 0 b.rollup.dataStartIndex rs = _
      rw [Client.WorldState.insertElements_eq hlt, hw.subTreeDepth, h.start, hindex,
        Client.MerkleTree.updateElements, hvalues, Client.MerkleTree.updateLeafHashes_eq, hrun]
      rfl
    · have hne : rs ≠ [] := by
        intro hnil
        rw [hnil] at hlength
        exact absurd hlength (Nat.succ_ne_zero _).symm
      show tree.size = _
      rw [hsize, if_neg hne, hlength, List.length_append]
    · rwa [hset] at hscattered

/-- A client that handles the next batches has handled them too. -/
lemma synced_sync {w : Client.WorldState Nat} {batches : List (List Block)}
    (hw : Synced compress E d before w) (h : Uniform compress d (before ++ batches.flatten))
    (hinj : Function.Injective2 compress) (hzero : ∀ l r, compress l r ≠ 0) (hd : d < 32)
    (hstart : ∀ batch ∈ batches, ∀ b ∈ batch.head?, b.rollup.dataStartIndex < 2 ^ 31) :
    ∃ w', sync compress E w before batches = .ok w' ∧
      Synced compress E d (before ++ batches.flatten) w' := by
  induction batches generalizing w before with
  | nil =>
    rw [List.flatten_nil, List.append_nil]
    exact ⟨w, rfl, hw⟩
  | cons batch batches ih =>
    rw [List.flatten_cons, ← List.append_assoc] at h ⊢
    obtain ⟨w₁, hrun, hw₁⟩ := hw.handle h.first hinj hzero hd (hstart batch List.mem_cons_self)
    obtain ⟨w₂, hrun', hw₂⟩ := ih hw₁ h fun batch hbatch => hstart batch (List.mem_cons_of_mem _ hbatch)
    refine ⟨w₂, ?_, hw₂⟩
    rw [sync, hrun]
    exact hrun'

/-! ## Hash paths -/

/-- The hash path of a note. -/
lemma Synced.fullHashPath {w : Client.WorldState Nat} (hw : Synced compress E d chain w)
    (h : Uniform compress d chain) (hinj : Function.Injective2 compress) (hd : d < 32) (hb : b ∈ chain)
    {context : BlockContext Nat} (hcontext : ContextOf compress b context) {noteIndex : Nat}
    (hnote : b.rollup.dataStartIndex ≤ noteIndex ∧ noteIndex < b.rollup.dataStartIndex + 2 ^ d) :
    System.fullHashPath compress w context noteIndex =
        .ok (path compress (leaves E chain) Client.DATA_TREE_DEPTH noteIndex) ∧
      (noteCommitments b).getD (noteIndex - b.rollup.dataStartIndex) 0 = leaves E chain noteIndex := by
  obtain ⟨hlength, hsize⟩ := h.length hb
  obtain ⟨before, after, rfl⟩ := List.append_of_mem hb
  obtain ⟨k, rfl⟩ := Nat.exists_eq_add_of_le hnote.1
  have hk : k < 2 ^ d := by omega
  have hstart := h.start
  have hleaf (k : Nat) (hk : k < 2 ^ d) : leaves E (before ++ b :: after) (before.length * 2 ^ d + k) =
      (noteCommitments b).getD k 0 := by
    have hdiv : (before.length * 2 ^ d + k) / 2 ^ d = before.length := by
      rw [Nat.mul_comm, Nat.mul_add_div (Nat.two_pow_pos d), Nat.div_eq_of_lt hk, Nat.add_zero]
    rw [leaves_of h hdiv, Nat.mul_comm, Nat.mul_add_mod, Nat.mod_eq_of_lt hk]
  have hpath := BlockContext.Reached.hashPath hcontext hlength hsize hk
  have hshift := @path_shift _ compress _ (fun k => (noteCommitments b).getD k 0) _ _ _ 0
    (fun k hk => (hleaf k hk).trans (by rw [Nat.zero_mul, Nat.zero_add])) hk
  rw [Nat.zero_mul, Nat.zero_add, ← hstart] at hshift
  have hlt : b.rollup.dataStartIndex + k < 2 ^ 32 := by
    have hfits := (h.follows before b after rfl).fits
    rw [h.rollupSize b hb] at hfits
    omega
  have hfull := Client.WorldState.buildFullHashPath_eq hw.scattered.toHolds hinj
    (hw.depth.trans (by rw [hw.subTreeDepth])) (by rw [hw.subTreeDepth]; exact hd.le) hlt
  refine ⟨?_, ?_⟩
  · rw [System.fullHashPath, hpath]
    refine congrArg Except.ok ?_
    rw [hfull, hw.subTreeDepth, ← hshift, roots, ← path_add]
    congr 1
    unfold Client.DATA_TREE_DEPTH
    omega
  · rw [Nat.add_sub_cancel_left, hstart, hleaf k hk]

/-- In every batch after every other, with rollups of the size that the client was initialised with, the
paths of all notes lead to the root of the data tree. -/
theorem hashPaths_verify (hinj : Function.Injective2 compress) (hzero : ∀ l r, compress l r ≠ 0)
    (E : WorldStateEnv) {d : Nat} (hd : d < 32) {batches : List (List Block)}
    (h : Uniform compress d batches.flatten)
    (hstart : ∀ batch ∈ batches, ∀ b ∈ batch.head?, b.rollup.dataStartIndex < 2 ^ 31) :
    ∃ w₀ w, Client.WorldState.init compress 0 d = .ok w₀ ∧ sync compress E w₀ [] batches = .ok w ∧
      ∀ b ∈ batches.flatten, ∀ context, ContextOf compress b context →
        ∀ noteIndex, b.rollup.dataStartIndex ≤ noteIndex →
          noteIndex < b.rollup.dataStartIndex + b.rollup.rollupSize * 2 →
          ∃ hashPath, fullHashPath compress w context noteIndex = .ok hashPath ∧
            hashPath.length = Client.DATA_TREE_DEPTH ∧
            climb compress ((noteCommitments b).getD (noteIndex - b.rollup.dataStartIndex) 0) noteIndex
              hashPath = dataRoot compress (replay E batches.flatten) := by
  obtain ⟨w₀, hinit, hw₀⟩ := synced_init (E := E) hzero hd
  obtain ⟨w, hrun, hw⟩ := synced_sync hw₀ h hinj hzero hd hstart
  refine ⟨w₀, w, hinit, hrun, fun b hb context hcontext noteIndex hle hlt => ?_⟩
  have hfits : noteIndex < 2 ^ Client.DATA_TREE_DEPTH := by
    obtain ⟨before, after, hsplit⟩ := List.append_of_mem hb
    exact Nat.lt_of_lt_of_le hlt (h.follows before b after hsplit).fits
  rw [h.rollupSize b hb] at hlt
  obtain ⟨hpath, hleaf⟩ := hw.fullHashPath h hinj hd hb hcontext ⟨hle, hlt⟩
  refine ⟨_, hpath, path_length _ _ _, ?_⟩
  rw [hleaf, List.nil_append, climb_path, Nat.div_eq_of_lt hfits]
  rfl

/-! ## Rollups of two sizes -/

/-- The path of a note has the depths of its block and of the tree of the client. -/
lemma fullHashPath_length {w : Client.WorldState Nat} {h : Nat} {hashPath : List (Nat × Nat)} {k : Nat}
    {context : BlockContext Nat} (hcontext : ContextOf compress b context)
    (hlength : (noteCommitments b).length =
      BlockContext.NUM_NEW_DATA_TREE_NOTES_PER_TX * b.rollup.rollupSize)
    (hsize : (noteCommitments b).length = 2 ^ h) (hk : k < 2 ^ h)
    (hpath : fullHashPath compress w context (b.rollup.dataStartIndex + k) = .ok hashPath) :
    hashPath.length = h + w.tree.depth := by
  rw [fullHashPath, BlockContext.Reached.hashPath hcontext hlength hsize hk] at hpath
  obtain rfl := Except.ok.inj hpath
  rw [Client.WorldState.buildFullHashPath_length, path_length]

namespace Sample

/-- No output is odd or zero. -/
def hashPair (l r : Nat) : Nat := 2 * Nat.pair l r + 2

/-- The sample hash has no collisions. -/
lemma hashPair_injective : Function.Injective2 hashPair := by
  intro l l' r r' heq
  unfold hashPair at heq
  exact Nat.pair_eq_pair.mp (by omega)

/-- It is never zero. -/
lemma hashPair_ne_zero (l r : Nat) : hashPair l r ≠ 0 := by
  unfold hashPair
  omega

/-- A transfer with two notes. -/
def send (n : Nat) : InnerProofData := ⟨.SEND, 4 * n + 1, 4 * n + 3, 0, 0, 0, 0, 0⟩

/-- A block of the sample. -/
def block (rollupSize dataStartIndex : Nat) (txs : List InnerProofData) : Block :=
  ⟨⟨0, rollupSize, dataStartIndex, 0, 0, 0, 0, [], [], txs⟩, [], [], 0⟩

/-- Two rollups of the smallest size. -/
def uniform : List (List Block) := [[block 1 0 [send 0]], [block 1 2 [send 1]]]

/-- A rollup of the next size after one of the smallest. -/
def growing : List (List Block) := [[block 1 0 [send 0]], [block 2 4 [send 1, send 2]]]

/-- Two blocks that follow each other are a chain. -/
lemma chain_pair {b₁ b₂ : Block} (h₁ : Follows [] b₁) (h₂ : Follows [b₁] b₂)
    (hodd : ∀ b ∈ [b₁, b₂], ∀ v ∈ noteCommitments b, v % 2 = 1) : Chain hashPair [b₁, b₂] where
  follows before b after hsplit := by
    match before with
    | [] =>
      obtain ⟨rfl, -⟩ := List.cons.inj hsplit
      exact h₁
    | [_] =>
      obtain ⟨rfl, hrest⟩ := List.cons.inj hsplit
      obtain ⟨rfl, -⟩ := List.cons.inj hrest
      exact h₂
    | _ :: _ :: _ => simp at hsplit
  leaf b hb v hv l r heq := by
    have hv' := hodd b hb v hv
    rw [← heq] at hv'
    unfold hashPair at hv'
    omega

/-- Two blocks of one transaction. -/
lemma chain_uniform : Chain hashPair uniform.flatten :=
  chain_pair ⟨by decide, by decide, by decide⟩ ⟨by decide, by decide, by decide⟩ (by decide)

/-- A block of one transaction and a block of two. -/
lemma chain_growing : Chain hashPair growing.flatten :=
  chain_pair ⟨by decide, by decide, by decide⟩ ⟨by decide, by decide, by decide⟩ (by decide)

end Sample

/-- Two blocks of one transaction each. -/
theorem hashPaths_verify_sample : ∃ w₀ w,
    Client.WorldState.init Sample.hashPair 0 1 = .ok w₀ ∧
      sync Sample.hashPair Falafel.Sample.worldStateEnv w₀ [] Sample.uniform = .ok w ∧
      ∀ b ∈ Sample.uniform.flatten, ∀ context, ContextOf Sample.hashPair b context →
        ∀ noteIndex, b.rollup.dataStartIndex ≤ noteIndex →
          noteIndex < b.rollup.dataStartIndex + b.rollup.rollupSize * 2 →
          ∃ hashPath, fullHashPath Sample.hashPair w context noteIndex = .ok hashPath ∧
            hashPath.length = Client.DATA_TREE_DEPTH ∧
            climb Sample.hashPair ((noteCommitments b).getD (noteIndex - b.rollup.dataStartIndex) 0)
              noteIndex hashPath =
                dataRoot Sample.hashPair (replay Falafel.Sample.worldStateEnv Sample.uniform.flatten) :=
  hashPaths_verify Sample.hashPair_injective Sample.hashPair_ne_zero Falafel.Sample.worldStateEnv
    (by decide) { Sample.chain_uniform with rollupSize := by decide, distinct := by decide } (by decide)

/-- For two sizes, no depth of the subtrees gives all paths the depth of the data tree. -/
theorem not_hashPaths_verify : ¬ ∀ (compress : Nat → Nat → Nat), Function.Injective2 compress →
    (∀ l r, compress l r ≠ 0) → ∀ (E : WorldStateEnv) (batches : List (List Block)),
    Chain compress batches.flatten → ∃ d w₀ w, d < 32 ∧ Client.WorldState.init compress 0 d = .ok w₀ ∧
      sync compress E w₀ [] batches = .ok w ∧
      ∀ b ∈ batches.flatten, ∀ context, ContextOf compress b context →
        ∀ noteIndex, b.rollup.dataStartIndex ≤ noteIndex →
          noteIndex < b.rollup.dataStartIndex + b.rollup.rollupSize * 2 →
          ∃ hashPath, fullHashPath compress w context noteIndex = .ok hashPath ∧
            hashPath.length = Client.DATA_TREE_DEPTH ∧
            climb compress ((noteCommitments b).getD (noteIndex - b.rollup.dataStartIndex) 0) noteIndex
              hashPath = dataRoot compress (replay E batches.flatten) := by
  intro hall
  obtain ⟨d, w₀, w, hd, hinit, hrun, hpaths⟩ := hall Sample.hashPair Sample.hashPair_injective
    Sample.hashPair_ne_zero Falafel.Sample.worldStateEnv Sample.growing Sample.chain_growing
  -- the depths of both blocks complete the one of the tree
  have hfirst : w.tree.depth + 1 = Client.DATA_TREE_DEPTH := by
    obtain ⟨hashPath, hpath, hlength, -⟩ := hpaths (Sample.block 1 0 [Sample.send 0])
      List.mem_cons_self _ ⟨[], rfl⟩ 0 (Nat.le_refl _) (by decide)
    have hcount := fullHashPath_length (h := 1) (k := 0) ⟨[], rfl⟩ (by decide) (by decide) (by decide) hpath
    omega
  have hsecond : w.tree.depth + 2 = Client.DATA_TREE_DEPTH := by
    obtain ⟨hashPath, hpath, hlength, -⟩ := hpaths (Sample.block 2 4 [Sample.send 1, Sample.send 2])
      (List.mem_cons_of_mem _ List.mem_cons_self) _ ⟨[], rfl⟩ 4 (Nat.le_refl _) (by decide)
    have hcount := fullHashPath_length (h := 2) (k := 0) ⟨[], rfl⟩ (by decide) (by decide) (by decide) hpath
    omega
  omega

end AztecConnect.System
