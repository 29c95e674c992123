import AztecConnect.Client.MerkleTree
import Mathlib.Data.List.GetD

/-!
# The leaves that a merkle tree holds

The database of a tree stores the nodes of its leaves. Its hash paths are those of the leaves
(`Holds.getHashPath`), and an update writes the nodes above what it changes.
-/

namespace AztecConnect.Client.MerkleTree

open HashTree NodeStore

variable {α : Type} {compress : α → α → α}

/-! ## Indices -/

/-- The lowest bits are a remainder. -/
lemma keepNLsb_eq {input : Nat} (hlt : input < 2 ^ MAX_DEPTH) (numBits : Nat) :
    keepNLsb input numBits = input % 2 ^ numBits := by
  unfold keepNLsb
  split
  case isTrue hge => exact (Nat.mod_eq_of_lt (Nat.lt_of_lt_of_le hlt (Nat.pow_le_pow_right (by decide) hge))).symm
  case isFalse => rfl

/-- The bit of an index at a height says which child is on the path. -/
lemma bit_eq {index target height : Nat} (heq : index % 2 ^ (height + 1) = target % 2 ^ (height + 1)) :
    index / 2 ^ height % 2 = target / 2 ^ height % 2 := by
  rw [Nat.pow_succ] at heq
  rw [← Nat.mod_mul_right_div_self, ← Nat.mod_mul_right_div_self, heq]

/-! ## The hashes of a subtree -/

/-- The zero hashes are the nodes of the empty tree. -/
lemma zeroHashes_eq (zero : α) (h j : Nat) :
    zeroHashes compress zero h = node compress (fun _ => zero) h j := by
  induction h generalizing j with
  | zero => rfl
  | succ h ih => rw [zeroHashes, node_succ, ← ih, ← ih]

/-- A layer is hashed pair by pair. -/
lemma hashLayer_map (layer : Nat → α) (n : Nat) :
    hashLayer compress ((List.range (2 * n)).map layer) =
      (List.range n).map fun k => compress (layer (2 * k)) (layer (2 * k + 1)) := by
  induction n generalizing layer with
  | zero => rfl
  | succ n ih =>
    have hrest (m : Nat) (g : Nat → α) : (List.range (m + 1)).map g =
        g 0 :: (List.range m).map fun k => g (k + 1) := by
      rw [List.range_succ_eq_map, List.map_cons, List.map_map]
      rfl
    rw [show 2 * (n + 1) = 2 * n + 1 + 1 by omega, hrest, hrest, hashLayer, ih, hrest]
    rfl

/-- The layers below the root, and the root. -/
lemma hashToTree_eq (leaf : Nat → α) (h j : Nat) :
    hashToTree compress h ((List.range (2 ^ h)).map fun k => leaf (j * 2 ^ h + k)) =
      below compress leaf h j ++ [node compress leaf h j] := by
  induction h generalizing leaf with
  | zero =>
    show [leaf (j * 1 + 0)] = [leaf j]
    rw [Nat.mul_one, Nat.add_zero]
  | succ h ih =>
    have hup : hashLayer compress ((List.range (2 ^ (h + 1))).map fun k => leaf (j * 2 ^ (h + 1) + k)) =
        (List.range (2 ^ h)).map fun k => node compress leaf 1 (j * 2 ^ h + k) := by
      rw [Nat.pow_succ, Nat.mul_comm (2 ^ h) 2, hashLayer_map]
      refine List.map_congr_left fun k _ => ?_
      rw [node_succ, node_zero, node_zero, Nat.mul_add, Nat.mul_left_comm, Nat.add_assoc]
    rw [hashToTree, hup, ih, below, List.append_assoc, node_add]

/-! ## Reading -/

variable {t : MerkleTree α} {f f' : Nat → α} {h j s q i m : Nat}

/-- A slice behind a list is one of the rest. -/
lemma slice_append (xs ys : List α) (k : Nat) : t.slice (xs ++ ys) (xs.length + k) = t.slice ys k := by
  rw [slice, slice, List.getD_append_right _ _ _ _ (Nat.le_add_right _ _), Nat.add_sub_cancel_left]

/-- A slice within a layer. -/
lemma slice_layer (layer : Nat → α) (ys : List α) {n k : Nat} (hk : k < n) :
    t.slice ((List.range n).map layer ++ ys) k = layer k := by
  rw [slice, List.getD_append _ _ _ _ (by rwa [List.length_map, List.length_range]),
    List.getD_eq_getElem _ _ (by rwa [List.length_map, List.length_range]), List.getElem_map,
    List.getElem_range]

/-- The pairs that are extracted from the layers below a node. -/
lemma subtreePath_eq (leaf : Nat → α) (pre post : List α) (h j : Nat) {k : Nat} (hk : k < 2 ^ h) :
    t.subtreePath (pre ++ (below compress leaf h j ++ post)) h pre.length (2 ^ h) k =
      path compress leaf h (j * 2 ^ h + k) := by
  induction h generalizing leaf pre k with
  | zero => rfl
  | succ h ih =>
    have hpow : 2 ^ (h + 1) = 2 * 2 ^ h := by rw [Nat.pow_succ, Nat.mul_comm]
    have hindex : k - k % 2 = 2 * (k / 2) := by omega
    have hhalf : (j * 2 ^ (h + 1) + k) / 2 = j * 2 ^ h + k / 2 := by
      rw [hpow, Nat.mul_left_comm]
      omega
    have hleaf (b : Nat) (hb : b < 2) : t.slice (pre ++ (below compress leaf (h + 1) j ++ post))
        (pre.length + 2 * (k / 2) + b) = leaf (2 * ((j * 2 ^ (h + 1) + k) / 2) + b) := by
      rw [Nat.add_assoc, slice_append, below, List.append_assoc, slice_layer _ _ (by omega), hhalf, hpow,
        Nat.mul_left_comm]
      congr 1
      omega
    have hrest := ih (node compress leaf 1) (pre ++ (List.range (2 ^ (h + 1))).map fun k =>
      leaf (j * 2 ^ (h + 1) + k)) (k := k / 2) (by omega)
    rw [List.append_assoc, ← List.append_assoc (List.map _ _), ← below, List.length_append,
      List.length_map, List.length_range] at hrest
    rw [subtreePath, path_cons, hindex, Nat.mul_div_cancel_left _ (by decide : 0 < 2), hpow,
      Nat.mul_div_cancel_left _ (by decide : 0 < 2), ← hpow, hrest, hhalf]
    unfold pair
    rw [node_zero, node_zero, Nat.zero_add, Nat.pow_one, hleaf 1 (by decide)]
    exact congrArg₂ _ (congrArg₂ _ (hleaf 0 (by decide)) rfl) rfl

/-- Nothing is stored of an empty subtree. -/
lemma hashPathFrom_none (hinj : Function.Injective2 compress) {leaf : Nat → α} {index : Nat}
    (hzero : node compress leaf h (index / 2 ^ h) =
      node compress (fun _ => t.initialLeafValue) h 0) :
    t.hashPathFrom compress index h none = path compress leaf h index := by
  induction h with
  | zero => rfl
  | succ h ih =>
    obtain ⟨hleft, hright⟩ := node_children hinj hzero
    rw [← zeroHashes_eq] at hleft hright
    have hhalf : index / 2 ^ (h + 1) = index / 2 ^ h / 2 := by rw [Nat.pow_succ, Nat.div_div_eq_div_mul]
    have hbelow : node compress leaf h (index / 2 ^ h) =
        node compress (fun _ => t.initialLeafValue) h 0 := by
      rw [← zeroHashes_eq]
      rcases Nat.mod_two_eq_zero_or_one (index / 2 ^ h) with hmod | hmod
      · rw [← hleft, show index / 2 ^ h = 2 * (index / 2 ^ (h + 1)) by omega]
      · rw [← hright, show index / 2 ^ h = 2 * (index / 2 ^ (h + 1)) + 1 by omega]
    rw [hashPathFrom, ih hbelow, path_succ, pair, hleft, hright]

/-- The hash path of a subtree that is stored. -/
lemma hashPathFrom_eq (hinj : Function.Injective2 compress) {leaf : Nat → α} {index : Nat}
    (hindex : index < 2 ^ MAX_DEPTH)
    (hstored : Stored compress t.initialLeafValue t.db leaf h (index / 2 ^ h)) :
    t.hashPathFrom compress index h (t.db (node compress leaf h (index / 2 ^ h))) =
      path compress leaf h index := by
  induction h with
  | zero => cases t.db _ <;> rfl
  | succ h ih =>
    have hhalf : index / 2 ^ (h + 1) = index / 2 ^ h / 2 := by rw [Nat.pow_succ, Nat.div_div_eq_div_mul]
    rcases hstored with ⟨hnone, hzero⟩ | ⟨hpair, hl, hr⟩ | ⟨hblob, hlen⟩
    · rw [hnone]
      exact hashPathFrom_none hinj hzero
    · rw [hpair, hashPathFrom, if_neg (by simp), path_succ]
      dsimp only
      rcases Nat.mod_two_eq_zero_or_one (index / 2 ^ h) with hmod | hmod
      · have hchild : 2 * (index / 2 ^ (h + 1)) = index / 2 ^ h := by omega
        rw [if_neg (by rw [hmod]; decide)]
        rw [hchild] at hl
        refine congrArg₂ _ ?_ rfl
        show t.hashPathFrom compress index h (t.db (node compress leaf h (2 * (index / 2 ^ (h + 1))))) = _
        rw [hchild]
        exact ih hl
      · have hchild : 2 * (index / 2 ^ (h + 1)) + 1 = index / 2 ^ h := by omega
        rw [if_pos hmod]
        rw [hchild] at hr
        refine congrArg₂ _ ?_ rfl
        show t.hashPathFrom compress index h
          (t.db (node compress leaf h (2 * (index / 2 ^ (h + 1)) + 1))) = _
        rw [hchild]
        exact ih hr
    · have hpath := @subtreePath_eq _ compress t leaf [] [] (h + 1) (index / 2 ^ (h + 1))
        _ (Nat.mod_lt index (Nat.two_pow_pos (h + 1)))
      rw [Nat.mul_comm (index / 2 ^ (h + 1)), Nat.div_add_mod, List.append_nil] at hpath
      rw [hblob, hashPathFrom, if_pos hlen]
      dsimp only
      rw [keepNLsb_eq hindex]
      exact hpath

/-! ## Updates -/

/-- The stored children of a node are its children. -/
lemma children_eq (hinj : Function.Injective2 compress) {p : Nat}
    (hstored : Stored compress t.initialLeafValue t.db f (h + 1) p)
    (hblob : ¬ Blob t.db (node compress f (h + 1) p)) :
    t.children compress h (t.db (node compress f (h + 1) p)) =
      (node compress f h (2 * p), node compress f h (2 * p + 1)) := by
  rcases hstored with ⟨hnone, hzero⟩ | ⟨hpair, -, -⟩ | ⟨hdata, hlen⟩
  · obtain ⟨hleft, hright⟩ := node_children hinj hzero
    rw [← zeroHashes_eq] at hleft hright
    rw [hnone, hleft, hright]
    rfl
  · rw [hpair]
    rfl
  · exact absurd ⟨_, hdata, hlen⟩ hblob

/-- The child on the path. -/
lemma child_eq (f : Nat → α) (s : Nat) {isRight : Prop} [Decidable isRight]
    (hright : isRight ↔ q / 2 ^ m % 2 = 1) :
    (if isRight then node compress f (s + m) (2 * (q / 2 ^ (m + 1)) + 1)
      else node compress f (s + m) (2 * (q / 2 ^ (m + 1)))) = node compress f (s + m) (q / 2 ^ m) := by
  have hhalf : q / 2 ^ (m + 1) = q / 2 ^ m / 2 := by rw [Nat.pow_succ, Nat.div_div_eq_div_mul]
  split
  case isTrue h =>
    rw [hright] at h
    rw [show q / 2 ^ m = 2 * (q / 2 ^ (m + 1)) + 1 by omega]
  case isFalse h =>
    rw [hright] at h
    rw [show q / 2 ^ m = 2 * (q / 2 ^ (m + 1)) by omega]

/-- The root of the layers of a subtree. -/
lemma last_hashToTree (leaf : Nat → α) (h j : Nat) (t : MerkleTree α) :
    t.slice (below compress leaf h j ++ [node compress leaf h j])
        ((below compress leaf h j ++ [node compress leaf h j]).length - 1) = node compress leaf h j ∧
      (below compress leaf h j ++ [node compress leaf h j]).dropLast = below compress leaf h j := by
  refine ⟨?_, List.dropLast_concat⟩
  have hlast := slice_append (t := t) (below compress leaf h j) [node compress leaf h j] 0
  rw [List.length_append, List.length_singleton, Nat.add_sub_cancel]
  exact hlast

variable [DecidableEq α]

/-- The node above a subtree that changes. -/
lemma replaceChild_eq (hsame : ∀ k, k / 2 ^ s ≠ q → f' k = f k) {isRight : Prop} [Decidable isRight]
    (hright : isRight ↔ q / 2 ^ m % 2 = 1) (ws : List (Write α)) :
    replaceChild compress (node compress f (s + m + 1) (q / 2 ^ (m + 1))) isRight
        (node compress f (s + m) (2 * (q / 2 ^ (m + 1))))
        (node compress f (s + m) (2 * (q / 2 ^ (m + 1)) + 1)) (node compress f' (s + m) (q / 2 ^ m), ws) =
      (node compress f' (s + m + 1) (q / 2 ^ (m + 1)), ws ++ writeLevel compress f f' s q m) := by
  have hhalf : q / 2 ^ (m + 1) = q / 2 ^ m / 2 := by rw [Nat.pow_succ, Nat.div_div_eq_div_mul]
  have hbeside (p : Nat) (hne : p ≠ q / 2 ^ m) : node compress f (s + m) p = node compress f' (s + m) p := by
    refine node_congr fun k hk => (hsame k fun heq => hne ?_).symm
    rw [← hk, Nat.pow_add, ← Nat.div_div_eq_div_mul, heq]
  have hleft : (if isRight then node compress f (s + m) (2 * (q / 2 ^ (m + 1)))
      else node compress f' (s + m) (q / 2 ^ m)) = node compress f' (s + m) (2 * (q / 2 ^ (m + 1))) := by
    split
    case isTrue h =>
      rw [hright] at h
      exact hbeside _ (by omega)
    case isFalse h =>
      rw [hright] at h
      rw [show q / 2 ^ m = 2 * (q / 2 ^ (m + 1)) by omega]
  have hright' : (if isRight then node compress f' (s + m) (q / 2 ^ m)
      else node compress f (s + m) (2 * (q / 2 ^ (m + 1)) + 1)) =
      node compress f' (s + m) (2 * (q / 2 ^ (m + 1)) + 1) := by
    split
    case isTrue h =>
      rw [hright] at h
      rw [show q / 2 ^ m = 2 * (q / 2 ^ (m + 1)) + 1 by omega]
    case isFalse h =>
      rw [hright] at h
      exact hbeside _ (by omega)
  unfold replaceChild
  dsimp only
  rw [hleft, hright']
  rfl

/-- The bit of an index at a height, and the index that is left, where it is that of a node on the path. -/
lemma index_step {index s q m : Nat} (heq : index / 2 ^ s % 2 ^ (m + 1) = q % 2 ^ (m + 1)) :
    (index / 2 ^ (s + m) % 2 = 1 ↔ q / 2 ^ m % 2 = 1) ∧
      keepNLsb index (s + m) / 2 ^ s % 2 ^ m = q % 2 ^ m := by
  have hdvd : 2 ^ m ∣ 2 ^ (m + 1) := Nat.pow_dvd_pow 2 (Nat.le_succ m)
  constructor
  · rw [Nat.pow_add, ← Nat.div_div_eq_div_mul, bit_eq heq]
  · have hleft : keepNLsb index (s + m) / 2 ^ s % 2 ^ m = index / 2 ^ s % 2 ^ m := by
      unfold keepNLsb
      split
      case isTrue => rfl
      case isFalse => rw [Nat.pow_add, Nat.mod_mul_right_div_self, Nat.mod_mod]
    rw [hleft, ← Nat.mod_mod_of_dvd _ hdvd, heq, Nat.mod_mod_of_dvd _ hdvd]

/-- The path above a leaf is rebuilt. -/
lemma updateElementInternal_eq (hinj : Function.Injective2 compress)
    (hsame : ∀ k, k / 2 ^ 0 ≠ q → f' k = f k) {n : Nat}
    (hstored : ∀ m ≤ n, Stored compress t.initialLeafValue t.db f (0 + m) (q / 2 ^ m))
    (hpath : ∀ m < n, ¬ Blob t.db (onPath compress 0 q f (m + 1))) {index : Nat}
    (hindex : index / 2 ^ 0 % 2 ^ n = q % 2 ^ n) :
    t.updateElementInternal compress (f' q) (0 + n) (node compress f (0 + n) (q / 2 ^ n)) index =
      (node compress f' (0 + n) (q / 2 ^ n), writeSpine compress f f' 0 q n) := by
  induction n generalizing index with
  | zero =>
    show (f' q, []) = (f' (q / 1), [])
    rw [Nat.div_one]
  | succ n ih =>
    have hchildren := children_eq (h := 0 + n) hinj (hstored (n + 1) (Nat.le_refl _))
      (hpath n (Nat.lt_succ_self n))
    obtain ⟨hbit, hrest⟩ := index_step (m := n) hindex
    have hchild := ih (fun m hm => hstored m (by omega)) (fun m hm => hpath m (by omega)) hrest
    rw [← Nat.add_assoc, updateElementInternal, hchildren]
    dsimp only
    rw [child_eq f 0 hbit, hchild]
    exact replaceChild_eq hsame hbit _

/-- The path above a subtree is rebuilt, from a level on. -/
lemma updateElementsInternal_from (hinj : Function.Injective2 compress)
    (hf' : Leaves compress t.initialLeafValue f')
    {s' q' : Nat} (hsame : ∀ k, k / 2 ^ s' ≠ q' → f' k = f k) {n : Nat} (hs : s ≤ s')
    (hstored : ∀ m ≤ n, Stored compress t.initialLeafValue t.db f (s' + m) (q' / 2 ^ m))
    (hpath : ∀ m < n, ¬ Blob t.db (onPath compress s' q' f (m + 1)))
    (hnonzero : s = s' → 0 < n → node compress f' s q ≠ zeroHashes compress t.initialLeafValue s)
    {ws : List (Write α)} {index : Nat} (hindex : index / 2 ^ s' % 2 ^ n = q' % 2 ^ n)
    (hstart : ∀ index, t.updateElementsInternal compress
      (below compress f' s q ++ [node compress f' s q]) s s' (node compress f s' q') index =
        .ok (node compress f' s' q', ws)) :
    t.updateElementsInternal compress (below compress f' s q ++ [node compress f' s q]) s (s' + n)
        (node compress f (s' + n) (q' / 2 ^ n)) index =
      .ok (node compress f' (s' + n) (q' / 2 ^ n), ws ++ writeSpine compress f f' s' q' n) := by
  induction n generalizing index with
  | zero =>
    rw [writeSpine, List.append_nil, Nat.pow_zero, Nat.div_one]
    exact hstart index
  | succ n ih =>
    have hchildren := children_eq (h := s' + n) hinj (hstored (n + 1) (Nat.le_refl _))
      (hpath n (Nat.lt_succ_self n))
    obtain ⟨hbit, hrest⟩ := index_step (m := n) hindex
    have hchild := ih (fun m hm => hstored m (by omega)) (fun m hm => hpath m (by omega))
      (fun heq _ => hnonzero heq (Nat.succ_pos n)) hrest
    have hlast : node compress f' s q ≠ zeroHashes compress t.initialLeafValue (s' + n) := by
      intro heq
      have hh : s = s' + n :=
        height_eq hinj hf' hf'.zero (heq.trans (zeroHashes_eq t.initialLeafValue (s' + n) 0))
      obtain rfl : n = 0 := by omega
      obtain rfl : s = s' := hh
      exact hnonzero rfl (Nat.succ_pos 0) heq
    have hblob : ¬ ((t.db (node compress f (s' + n + 1) (q' / 2 ^ (n + 1)))).getD []).length > 2 := by
      intro hlen
      refine hpath n (Nat.lt_succ_self n) ?_
      show Blob t.db (node compress f (s' + n + 1) (q' / 2 ^ (n + 1)))
      cases hdata : t.db (node compress f (s' + n + 1) (q' / 2 ^ (n + 1))) with
      | none =>
        rw [hdata] at hlen
        exact absurd hlen (Nat.not_lt_zero 2)
      | some data =>
        rw [hdata] at hlen
        exact ⟨data, hdata, hlen⟩
    rw [← Nat.add_assoc, updateElementsInternal, (last_hashToTree f' s q t).1,
      if_neg (by omega : ¬ s' + n + 1 = s), if_neg hlast]
    dsimp only
    rw [if_neg hblob, hchildren]
    dsimp only
    rw [child_eq f s' hbit, hchild, writeSpine, ← List.append_assoc]
    exact congrArg Except.ok (replaceChild_eq hsame hbit _)

/-- At the height of the subtree its layers are written. -/
lemma updateElementsInternal_self (f' : Nat → α) (s q : Nat) (root : α) (index : Nat) :
    t.updateElementsInternal compress (below compress f' s q ++ [node compress f' s q]) s s root index =
      .ok (node compress f' s q, [.put (node compress f' s q) (below compress f' s q)]) := by
  obtain ⟨hlast, hbelow⟩ := @last_hashToTree _ compress f' s q t
  cases s with
  | zero =>
    rw [updateElementsInternal, if_pos rfl, hlast, hbelow]
  | succ s =>
    rw [updateElementsInternal, hlast, if_pos rfl, hbelow]

/-- A subtree of zeros is not written, if it is not the whole tree. -/
lemma updateElementsInternal_zero {f' : Nat → α} {s q : Nat}
    (hzero : node compress f' s q = zeroHashes compress t.initialLeafValue s) (root : α) (index : Nat) :
    t.updateElementsInternal compress (below compress f' s q ++ [node compress f' s q]) s (s + 1) root
      index = .ok (root, []) := by
  rw [updateElementsInternal, (last_hashToTree f' s q t).1, if_neg (Nat.succ_ne_self s), if_pos hzero]

end AztecConnect.Client.MerkleTree
