import Mathlib.Algebra.BigOperators.Group.List.Basic
import Mathlib.Algebra.Order.BigOperators.Group.List
import Mathlib.Data.List.Perm.Subperm

/-!
# The greedy choice with at most one element of a kind

Of a list with falling weights the greedy choice takes every element in turn, but only one of those
that satisfy `p`. As many elements of any other choice, with at most one that satisfies `p`, weigh no
more.
-/

namespace AztecConnect.Greedy

variable {α M : Type*} {p : α → Bool}

/-- The elements in turn, but none that satisfies `p` after one that does (one of them may have been
seen before). -/
def atMostOne (p : α → Bool) : Bool → List α → List α
  | _, [] => []
  | seen, a :: l =>
    if !p a || !seen then a :: atMostOne p (seen || p a) l else atMostOne p seen l

/-- An element is kept while the budget of one is not needed or not used. -/
lemma atMostOne_cons_of_keep {seen : Bool} {a : α} (h : !p a || !seen) (l : List α) :
    atMostOne p seen (a :: l) = a :: atMostOne p (seen || p a) l := if_pos h

/-- Otherwise it is dropped. -/
lemma atMostOne_cons_of_drop {seen : Bool} {a : α} (h : ¬ (!p a || !seen)) (l : List α) :
    atMostOne p seen (a :: l) = atMostOne p seen l := if_neg h

/-- The selection is from the list, in its order. -/
lemma atMostOne_sublist (seen : Bool) (l : List α) : (atMostOne p seen l).Sublist l := by
  induction l generalizing seen with
  | nil => exact .slnil
  | cons a l ih =>
    unfold atMostOne
    split
    case isTrue => exact (ih _).cons_cons a
    case isFalse => exact (ih _).cons a

/-- How many may be taken. -/
lemma countP_atMostOne (seen : Bool) (l : List α) :
    (atMostOne p seen l).countP p ≤ (!seen).toNat := by
  induction l generalizing seen with
  | nil => exact Nat.zero_le _
  | cons a l ih =>
    by_cases hkeep : (!p a || !seen)
    · rw [atMostOne_cons_of_keep hkeep, List.countP_cons]
      have hle := ih (seen || p a)
      cases hp : p a with
      | false =>
        rw [hp, Bool.or_false] at hle
        rwa [if_neg Bool.false_ne_true, Nat.add_zero, Bool.or_false]
      | true =>
        rw [hp, Bool.not_true, Bool.false_or] at hkeep
        rw [hp, Bool.or_true] at hle
        rw [if_pos rfl, hkeep, Bool.or_true]
        exact Nat.succ_le_succ hle
    · rw [atMostOne_cons_of_drop hkeep]
      exact ih seen

variable [AddCommMonoid M] [PartialOrder M] [IsOrderedAddMonoid M] {f : α → M}

/-- A longer front is worth no less. -/
lemma sum_take_le_sum_take (hf : ∀ a, 0 ≤ f a) (l : List α) {i k : Nat} (h : i ≤ k) :
    ((l.take i).map f).sum ≤ ((l.take k).map f).sum := by
  refine List.Sublist.sum_le_sum ((List.take_sublist_take_left h).map f) fun x hx => ?_
  obtain ⟨a, -, rfl⟩ := List.mem_map.mp hx
  exact hf a

/-- An element of the rest makes way for the first one, another one of the same kind if there is
one. -/
lemma exists_exchange {seen : Bool} {a : α} {l s : List α} (hfirst : ∀ b ∈ l, f b ≤ f a)
    (hs : s.Sublist l) (hne : s ≠ [])
    (hcount : s.countP p ≤ (!seen).toNat) :
    ∃ s' : List α, s'.Sublist l ∧ s'.length + 1 = s.length ∧ s'.countP p ≤ (!(seen || p a)).toNat ∧
      (s.map f).sum ≤ f a + (s'.map f).sum := by
  have hremove (before : List α) (b : α) (after : List α) (hsplit : s = before ++ b :: after) :
      (before ++ after).Sublist l ∧ (before ++ after).length + 1 = s.length ∧
        (s.map f).sum ≤ f a + ((before ++ after).map f).sum := by
    refine ⟨?_, ?_, ?_⟩
    · refine List.Sublist.trans ?_ hs
      rw [hsplit]
      exact (List.sublist_cons_self b after).append_left before
    · rw [hsplit, List.length_append, List.length_append, List.length_cons, Nat.add_assoc]
    · have hb : f b ≤ f a := hfirst b (hs.subset (by rw [hsplit]; simp))
      rw [hsplit, List.map_append, List.map_append, List.map_cons, List.sum_append, List.sum_append,
        List.sum_cons, add_left_comm]
      exact add_le_add_left hb _
  by_cases hany : ∃ b ∈ s, p b
  · obtain ⟨b, hmem, hb⟩ := hany
    obtain ⟨before, after, hsplit⟩ := List.append_of_mem hmem
    obtain ⟨hsub, hlen, hsum⟩ := hremove before b after hsplit
    refine ⟨before ++ after, hsub, hlen, ?_, hsum⟩
    rw [hsplit, List.countP_append, List.countP_cons_of_pos hb] at hcount
    rw [List.countP_append]
    have htoNat := Bool.toNat_le (!seen)
    omega
  · obtain ⟨b, after, hsplit⟩ := List.exists_cons_of_ne_nil hne
    obtain ⟨hsub, hlen, hsum⟩ := hremove [] b after hsplit
    refine ⟨[] ++ after, hsub, hlen, ?_, hsum⟩
    have hnone : ([] ++ after).countP p = 0 := List.countP_eq_zero.mpr fun c hc hp =>
      hany ⟨c, hsplit ▸ List.mem_cons_of_mem b hc, hp⟩
    rw [hnone]
    exact Nat.zero_le _

/-- The greedy selection is worth no less than any other of its size. -/
lemma sum_le_sum_take_of_sublist (hf : ∀ a, 0 ≤ f a) {seen : Bool} {l s : List α} {k : Nat}
    (hl : l.Pairwise fun a b => f b ≤ f a) (hs : s.Sublist l)
    (hcount : s.countP p ≤ (!seen).toNat) (hk : s.length ≤ k) :
    (s.map f).sum ≤ (((atMostOne p seen l).take k).map f).sum := by
  induction l generalizing seen s k with
  | nil =>
    obtain rfl := List.sublist_nil.mp hs
    exact List.sum_nonneg fun x hx => by
      obtain ⟨a, -, rfl⟩ := List.mem_map.mp hx
      exact hf a
  | cons a l ih =>
    obtain ⟨hfirst, hl⟩ := List.pairwise_cons.mp hl
    by_cases hkeep : (!p a || !seen)
    case neg =>
      -- the element is not taken, nor is it one of the others
      rw [atMostOne_cons_of_drop hkeep]
      rw [Bool.or_eq_true, Bool.not_eq_true', Bool.not_eq_true', not_or, Bool.not_eq_false,
        Bool.not_eq_false] at hkeep
      rcases List.sublist_cons_iff.mp hs with hs | ⟨s', rfl, hs⟩
      · exact ih hl hs hcount hk
      · rw [List.countP_cons_of_pos hkeep.1, hkeep.2] at hcount
        exact absurd hcount (Nat.not_succ_le_zero _)
    case pos =>
      rw [atMostOne_cons_of_keep hkeep]
      by_cases hne : s = []
      · rw [hne]
        exact List.sum_nonneg fun x hx => by
          obtain ⟨b, -, rfl⟩ := List.mem_map.mp hx
          exact hf b
      cases k with
      | zero => exact absurd (List.eq_nil_of_length_eq_zero (Nat.le_zero.mp hk)) hne
      | succ k =>
        rw [List.take_succ_cons, List.map_cons, List.sum_cons]
        have hsmaller : ∃ s' : List α, s'.Sublist l ∧ s'.length + 1 = s.length ∧
            s'.countP p ≤ (!(seen || p a)).toNat ∧ (s.map f).sum ≤ f a + (s'.map f).sum := by
          rcases List.sublist_cons_iff.mp hs with hs' | ⟨s', rfl, hs'⟩
          · exact exists_exchange hfirst hs' hne hcount
          · refine ⟨s', hs', rfl, ?_, by rw [List.map_cons, List.sum_cons]⟩
            cases hp : p a with
            | false =>
              rw [List.countP_cons_of_neg (by rw [hp]; nofun)] at hcount
              rwa [Bool.or_false]
            | true =>
              rw [List.countP_cons_of_pos hp] at hcount
              rw [Bool.or_true]
              have htoNat := Bool.toNat_le (!seen)
              exact (by omega : s'.countP p ≤ 0)
        obtain ⟨s', hs', hlen, hcount', hsum⟩ := hsmaller
        exact hsum.trans (add_le_add_right (ih hl hs' hcount' (by omega)) _)

/-- No choice of as many elements, one of them at most of the kind, weighs more. -/
theorem sum_le_sum_take (hf : ∀ a, 0 ≤ f a) {l s : List α} {k : Nat}
    (hl : l.Pairwise fun a b => f b ≤ f a) (hs : s.Subperm l) (hcount : s.countP p ≤ 1)
    (hk : s.length ≤ k) : (s.map f).sum ≤ (((atMostOne p false l).take k).map f).sum := by
  obtain ⟨s', hperm, hs'⟩ := hs
  rw [← (hperm.map f).sum_eq]
  rw [← hperm.countP_eq] at hcount
  rw [← hperm.length_eq] at hk
  exact sum_le_sum_take_of_sublist hf hl hs' hcount hk

end AztecConnect.Greedy
