import Mathlib.Logic.Function.Basic
import Mathlib.Tactic.Ring

/-!
# Trees of hashes over infinitely many leaves

The leaves are a function of the index. `node compress leaf h j` is the root of the subtree of height
`h` over the leaves from `j * 2 ^ h`, and `path` has the pairs of nodes from a leaf up to a height. A
tree whose leaves are the nodes of another one sits on top of it (`node_add`, `path_add`). Where hashes
do not collide and are no leaves, a node determines its height and its leaves (`height_eq`,
`leaf_eq`).
-/

namespace HashTree

variable {α : Type} (compress : α → α → α)

/-- The `j`-th node at height `h`. -/
def node (leaf : Nat → α) : Nat → Nat → α
  | 0, j => leaf j
  | h + 1, j => compress (node leaf h (2 * j)) (node leaf h (2 * j + 1))

/-- The pair at a height on the way up from a leaf. -/
def pair (leaf : Nat → α) (i h : Nat) : α × α :=
  (node compress leaf h (2 * (i / 2 ^ (h + 1))), node compress leaf h (2 * (i / 2 ^ (h + 1)) + 1))

/-- The pairs of siblings from leaf `i` up. -/
def path (leaf : Nat → α) (depth i : Nat) : List (α × α) :=
  (List.range depth).map (pair compress leaf i)

/-- The root that a path gives to a leaf. -/
def climb (value : α) : Nat → List (α × α) → α
  | _, [] => value
  | i, (left, right) :: rest =>
    climb (if i % 2 = 0 then compress value right else compress left value) (i / 2) rest

variable {compress} {leaf leaf' : Nat → α} {h j i depth : Nat}

/-- At height zero the nodes are the leaves. -/
@[simp] lemma node_zero (leaf : Nat → α) (j : Nat) : node compress leaf 0 j = leaf j := rfl

/-- A node is the hash of its children. -/
lemma node_succ (leaf : Nat → α) (h j : Nat) : node compress leaf (h + 1) j =
    compress (node compress leaf h (2 * j)) (node compress leaf h (2 * j + 1)) := rfl

/-- The subtrees of equal leaves are equal. -/
lemma node_const (compress : α → α → α) (zero : α) (h j : Nat) :
    node compress (fun _ => zero) h j = node compress (fun _ => zero) h 0 := by
  induction h generalizing j with
  | zero => rfl
  | succ h ih => rw [node_succ, node_succ, ih, ih (2 * j + 1), ih (2 * 0 + 1)]

/-- A node depends on the leaves below it only. -/
lemma node_congr (hleaf : ∀ i, i / 2 ^ h = j → leaf i = leaf' i) :
    node compress leaf h j = node compress leaf' h j := by
  induction h generalizing j with
  | zero => exact hleaf j (Nat.div_one j)
  | succ h ih =>
    have hhalf (i : Nat) : i / 2 ^ (h + 1) = i / 2 ^ h / 2 := by
      rw [Nat.pow_succ, Nat.div_div_eq_div_mul]
    rw [node_succ, node_succ, ih fun i hi => hleaf i (by rw [hhalf]; omega),
      ih fun i hi => hleaf i (by rw [hhalf]; omega)]

/-- The nodes of a tree are the leaves of the tree on top of it. -/
lemma node_add (leaf : Nat → α) (a b j : Nat) :
    node compress (node compress leaf a) b j = node compress leaf (b + a) j := by
  induction b generalizing j with
  | zero => rw [Nat.zero_add, node_zero]
  | succ b ih => rw [node_succ, ih, ih, Nat.add_right_comm, node_succ]

/-- A path has a pair for every layer. -/
@[simp] lemma path_length (leaf : Nat → α) (depth i : Nat) :
    (path compress leaf depth i).length = depth := by
  rw [path, List.length_map, List.length_range]

/-- A longer path ends at the next layer. -/
lemma path_succ (leaf : Nat → α) (depth i : Nat) :
    path compress leaf (depth + 1) i = path compress leaf depth i ++ [pair compress leaf i depth] := by
  rw [path, List.range_succ, List.map_append, List.map_singleton]
  rfl

/-- Equal leaves at another place. -/
lemma node_shift {j' : Nat} (hleaf : ∀ k < 2 ^ h, leaf (j * 2 ^ h + k) = leaf' (j' * 2 ^ h + k)) :
    node compress leaf h j = node compress leaf' h j' := by
  induction h generalizing j j' with
  | zero =>
    have hzero := hleaf 0 Nat.one_pos
    rwa [Nat.pow_zero, Nat.mul_one, Nat.mul_one] at hzero
  | succ h ih =>
    have hpow : 2 ^ (h + 1) = 2 ^ h + 2 ^ h := by rw [Nat.pow_succ, Nat.mul_two]
    have hleft (n k : Nat) : 2 * n * 2 ^ h + k = n * 2 ^ (h + 1) + k := by
      rw [Nat.pow_succ, Nat.mul_comm 2 n, Nat.mul_assoc, Nat.mul_comm 2]
    have hright (n k : Nat) : (2 * n + 1) * 2 ^ h + k = n * 2 ^ (h + 1) + (2 ^ h + k) := by
      rw [Nat.add_mul, Nat.one_mul, Nat.add_assoc, hleft]
    rw [node_succ, node_succ]
    refine congrArg₂ compress (ih fun k hk => ?_) (ih fun k hk => ?_)
    · rw [hleft, hleft]
      exact hleaf k (by omega)
    · rw [hright, hright]
      exact hleaf (2 ^ h + k) (by omega)

/-- Subtrees with the same leaves have the same paths. -/
lemma path_shift {j' : Nat}
    (hleaf : ∀ k < 2 ^ depth, leaf (j * 2 ^ depth + k) = leaf' (j' * 2 ^ depth + k))
    (hi : i < 2 ^ depth) : path compress leaf depth (j * 2 ^ depth + i) =
      path compress leaf' depth (j' * 2 ^ depth + i) := by
  refine List.map_congr_left fun h hh => ?_
  obtain ⟨e, rfl⟩ := Nat.exists_eq_add_of_lt (List.mem_range.mp hh)
  have hdepth : h + e + 1 = e + (h + 1) := by omega
  rw [hdepth] at hleaf hi ⊢
  have hup (n : Nat) : (n * 2 ^ (e + (h + 1)) + i) / 2 ^ (h + 1) = n * 2 ^ e + i / 2 ^ (h + 1) := by
    rw [Nat.pow_add, ← Nat.mul_assoc, Nat.mul_comm, Nat.mul_add_div (Nat.two_pow_pos _)]
  have hlt : i / 2 ^ (h + 1) < 2 ^ e := by
    rwa [Nat.div_lt_iff_lt_mul (Nat.two_pow_pos _), ← Nat.pow_add]
  -- a child of the pair, from the start of the tree
  have hchild (b : Nat) (hb : b < 2) :
      node compress leaf h (2 * (j * 2 ^ e + i / 2 ^ (h + 1)) + b) =
        node compress leaf' h (2 * (j' * 2 ^ e + i / 2 ^ (h + 1)) + b) := by
    refine node_shift fun k hk => ?_
    have hstart (n : Nat) : (2 * (n * 2 ^ e + i / 2 ^ (h + 1)) + b) * 2 ^ h + k =
        n * 2 ^ (e + (h + 1)) + ((2 * (i / 2 ^ (h + 1)) + b) * 2 ^ h + k) := by
      rw [Nat.pow_add, Nat.pow_succ]
      ring
    rw [hstart, hstart]
    refine hleaf _ ?_
    have hle : (2 * (i / 2 ^ (h + 1)) + b + 1) * 2 ^ h ≤ 2 * 2 ^ e * 2 ^ h :=
      Nat.mul_le_mul_right _ (by omega)
    rw [show 2 ^ (e + (h + 1)) = 2 * 2 ^ e * 2 ^ h by rw [Nat.pow_add, Nat.pow_succ]; ring]
    rw [Nat.add_mul, Nat.one_mul] at hle
    omega
  unfold pair
  rw [hup, hup]
  exact congrArg₂ _ (hchild 0 (by omega)) (hchild 1 (by omega))

/-- A path goes on in the tree on top. -/
lemma path_add (leaf : Nat → α) (a b i : Nat) : path compress leaf (a + b) i =
    path compress leaf a i ++ path compress (node compress leaf a) b (i / 2 ^ a) := by
  induction b with
  | zero => exact (List.append_nil _).symm
  | succ b ih =>
    have hindex : i / 2 ^ a / 2 ^ (b + 1) = i / 2 ^ (a + b + 1) := by
      rw [Nat.div_div_eq_div_mul, ← Nat.pow_add, Nat.add_assoc]
    rw [← Nat.add_assoc, path_succ, ih, path_succ, List.append_assoc]
    unfold pair
    rw [node_add, node_add, hindex, Nat.add_comm b a]

/-- The path above the first pair is that of the parent. -/
lemma path_cons (leaf : Nat → α) (depth i : Nat) : path compress leaf (depth + 1) i =
    pair compress leaf i 0 :: path compress (node compress leaf 1) depth (i / 2) := by
  rw [Nat.add_comm, path_add]
  rfl

/-- The path of a leaf leads to the root. -/
lemma climb_path (leaf : Nat → α) (depth i : Nat) :
    climb compress (leaf i) i (path compress leaf depth i) = node compress leaf depth (i / 2 ^ depth) := by
  induction depth generalizing leaf i with
  | zero => exact congrArg leaf (Nat.div_one i).symm
  | succ depth ih =>
    have hparent : (if i % 2 = 0 then compress (leaf i) (leaf (2 * (i / 2) + 1))
        else compress (leaf (2 * (i / 2))) (leaf i)) = node compress leaf 1 (i / 2) := by
      rw [node_succ, node_zero, node_zero]
      split
      case isTrue heven => rw [show 2 * (i / 2) = i by omega]
      case isFalse hodd => rw [show 2 * (i / 2) + 1 = i by omega]
    rw [path_cons]
    show climb compress (if i % 2 = 0 then compress (leaf i) (leaf (2 * (i / 2) + 1))
      else compress (leaf (2 * (i / 2))) (leaf i)) (i / 2) _ = _
    rw [hparent, ih, node_add, Nat.div_div_eq_div_mul, Nat.pow_succ, Nat.mul_comm]

/-! ## The nodes below a node -/

/-- The layers below a node, from the leaves up. -/
def below (compress : α → α → α) (leaf : Nat → α) : Nat → Nat → List α
  | 0, _ => []
  | h + 1, j => (List.range (2 ^ (h + 1))).map (fun k => leaf (j * 2 ^ (h + 1) + k)) ++
    below compress (node compress leaf 1) h j

/-- Below a node of height one are its leaves. -/
lemma below_one (leaf : Nat → α) (j : Nat) :
    below compress leaf 1 j = [leaf (2 * j), leaf (2 * j + 1)] := by
  show [leaf (j * 2 + 0), leaf (j * 2 + 1)] ++ [] = _
  rw [Nat.mul_comm, List.append_nil, Nat.add_zero]

/-- Below a node there are as many nodes as in a full tree. -/
lemma length_below_le (leaf : Nat → α) (h j : Nat) : 2 ^ h ≤ (below compress leaf h j).length + 1 := by
  cases h with
  | zero => exact Nat.le_refl 1
  | succ h =>
    rw [below, List.length_append, List.length_map, List.length_range]
    omega

/-- Subtrees with the same leaves have the same nodes. -/
lemma below_congr (hleaf : ∀ k < 2 ^ h, leaf (j * 2 ^ h + k) = leaf' (i * 2 ^ h + k)) :
    below compress leaf h j = below compress leaf' h i := by
  induction h generalizing leaf leaf' with
  | zero => rfl
  | succ h ih =>
    have hlayer : (List.range (2 ^ (h + 1))).map (fun k => leaf (j * 2 ^ (h + 1) + k)) =
        (List.range (2 ^ (h + 1))).map fun k => leaf' (i * 2 ^ (h + 1) + k) :=
      List.map_congr_left fun k hk => hleaf k (List.mem_range.mp hk)
    rw [below, below, hlayer, ih]
    intro k hk
    have hpow : 2 ^ (h + 1) = 2 * 2 ^ h := by rw [Nat.pow_succ, Nat.mul_comm]
    have hleft := hleaf (2 * k) (by omega)
    have hright := hleaf (2 * k + 1) (by omega)
    have hdouble (n : Nat) : n * 2 ^ (h + 1) = 2 * (n * 2 ^ h) := by rw [hpow, Nat.mul_left_comm]
    rw [hdouble, hdouble] at hleft hright
    rw [node_succ, node_succ, node_zero, node_zero, node_zero, node_zero, Nat.mul_add, Nat.mul_add,
      hleft, Nat.add_assoc, Nat.add_assoc, hright]

/-! ## Nodes that determine their leaves -/

/-- The value is the hash of a tree of a height, whose leaves are no hashes of two nodes. -/
inductive Height (compress : α → α → α) : Nat → α → Prop where
  | leaf {v : α} (hleaf : ∀ l r, compress l r ≠ v) : Height compress 0 v
  | node {d : Nat} {l r : α} (hl : Height compress d l) (hr : Height compress d r) :
      Height compress (d + 1) (compress l r)

/-- Two values are hashes of trees of one height. They are if they are no hashes of two nodes. -/
def SameHeight (compress : α → α → α) (zero v : α) : Prop :=
  ∃ d, Height compress d zero ∧ Height compress d v

/-- Values that are no hashes have the height of a leaf. -/
lemma SameHeight.of_ne {zero v : α} (hzero : ∀ l r, compress l r ≠ zero)
    (hv : ∀ l r, compress l r ≠ v) : SameHeight compress zero v := ⟨0, .leaf hzero, .leaf hv⟩

/-- The leaves are as high as an empty one. -/
def Leaves (compress : α → α → α) (zero : α) (leaf : Nat → α) : Prop :=
  ∀ i, SameHeight compress zero (leaf i)

/-- An empty tree has leaves of one height. -/
lemma Leaves.zero {zero : α} (hleaf : Leaves compress zero leaf) : Leaves compress zero fun _ => zero :=
  fun i => (hleaf i).imp fun _ h₀ => ⟨h₀.1, h₀.1⟩

/-- So it has after a leaf of that height is written. -/
lemma Leaves.update {zero : α} (hleaf : Leaves compress zero leaf) {value : α}
    (hvalue : SameHeight compress zero value) :
    Leaves compress zero (Function.update leaf i value) := by
  intro k
  by_cases hki : k = i
  · rw [hki, Function.update_self]
    exact hvalue
  · rw [Function.update_of_ne hki]
    exact hleaf k

/-- A node is higher than its leaves. -/
lemma Height.node_of {d : Nat} (hleaf : ∀ i, Height compress d (leaf i)) :
    Height compress (d + h) (HashTree.node compress leaf h j) := by
  induction h generalizing j with
  | zero => exact hleaf j
  | succ h ih => exact .node ih ih

section Injective

variable (hinj : Function.Injective2 compress)
include hinj

/-- Equal nodes have equal children. -/
lemma node_children {j' : Nat} (h₀ : node compress leaf (h + 1) j = node compress leaf' (h + 1) j') :
    node compress leaf h (2 * j) = node compress leaf' h (2 * j') ∧
      node compress leaf h (2 * j + 1) = node compress leaf' h (2 * j' + 1) := hinj h₀

/-- A value has one height. -/
lemma Height.unique {d d' : Nat} {v : α} (hd : Height compress d v) (hd' : Height compress d' v) :
    d = d' := by
  induction hd generalizing d' with
  | leaf hleaf =>
    cases hd' with
    | leaf => rfl
    | node => exact absurd rfl (hleaf _ _)
  | node hl hr ih =>
    generalize hv : compress _ _ = v at hd'
    cases hd' with
    | leaf hleaf => exact absurd hv (hleaf _ _)
    | node hl' hr' => exact congrArg Nat.succ (ih ((hinj hv).1 ▸ hl'))

/-- Equal nodes are at one height. -/
lemma height_eq {zero : α} (hleaf : Leaves compress zero leaf) (hleaf' : Leaves compress zero leaf')
    {h' j' : Nat} (h₀ : node compress leaf h j = node compress leaf' h' j') : h = h' := by
  obtain ⟨d, hzero, -⟩ := hleaf 0
  have hall {leaf : Nat → α} (hleaf : Leaves compress zero leaf) (i : Nat) :
      Height compress d (leaf i) := by
    obtain ⟨d', hzero', hd'⟩ := hleaf i
    rwa [hzero.unique hinj hzero']
  have hnode := Height.node_of (h := h) (j := j) (hall hleaf)
  rw [h₀] at hnode
  have heq := hnode.unique hinj (Height.node_of (hall hleaf'))
  omega

/-- Equal nodes have equal leaves. -/
lemma leaf_eq {j' : Nat} (h₀ : node compress leaf h j = node compress leaf' h j') {k : Nat}
    (hk : k < 2 ^ h) : leaf (j * 2 ^ h + k) = leaf' (j' * 2 ^ h + k) := by
  induction h generalizing j j' k with
  | zero =>
    have hzero : k = 0 := Nat.lt_one_iff.mp hk
    rw [hzero, Nat.pow_zero, Nat.mul_one, Nat.mul_one]
    exact h₀
  | succ h ih =>
    obtain ⟨hleft, hright⟩ := node_children hinj h₀
    have hpow : 2 ^ (h + 1) = 2 ^ h + 2 ^ h := by rw [Nat.pow_succ, Nat.mul_two]
    have hdouble (n : Nat) : n * 2 ^ (h + 1) = 2 * n * 2 ^ h := by
      rw [Nat.pow_succ, Nat.mul_comm 2 n, Nat.mul_assoc, Nat.mul_comm (2 ^ h) 2]
    rw [hdouble, hdouble]
    by_cases hhalf : k < 2 ^ h
    · exact ih hleft hhalf
    · have hsplit (n : Nat) : 2 * n * 2 ^ h + k = (2 * n + 1) * 2 ^ h + (k - 2 ^ h) := by
        rw [Nat.add_mul, Nat.one_mul]
        omega
      rw [hsplit, hsplit]
      exact ih hright (by omega)

/-- And equal nodes below them. -/
lemma below_eq {j' : Nat} (h₀ : node compress leaf h j = node compress leaf' h j') :
    below compress leaf h j = below compress leaf' h j' :=
  below_congr fun _ hk => leaf_eq hinj h₀ hk

end Injective

/-- The hashes of a function without collisions, over the numbers as leaves. -/
inductive Hash where
  | leaf (n : Nat)
  | compress (left right : Hash)
  deriving DecidableEq

/-- The free hash has no collisions. -/
lemma Hash.compress_injective : Function.Injective2 Hash.compress :=
  fun _ _ _ _ heq => Hash.compress.inj heq

/-- It is never a leaf. -/
lemma Hash.compress_ne_leaf (n : Nat) (left right : Hash) : Hash.compress left right ≠ Hash.leaf n :=
  fun heq => nomatch heq

/-- All leaves have the height of a leaf. -/
lemma Hash.sameHeight_leaf (m n : Nat) : SameHeight Hash.compress (.leaf m) (.leaf n) :=
  .of_ne (compress_ne_leaf m) (compress_ne_leaf n)

end HashTree
