import Mathlib.Data.List.Range
import Mathlib.Tactic.TypeStar

/-!
# Constraint programs

A program that builds an arithmetic circuit is the relation between its inputs and the values of its
outputs in the assignments that satisfy the circuit: a witness can take any value (`witness`), a
constraint excludes assignments (`assert`). What holds in all satisfying assignments is proved
backwards (`Ensures`), with an invariant for a loop (`ensures_foldlM`).
-/

/-- The values that the output of a circuit can take. -/
def Circuit (α : Type) : Type := α → Prop

namespace Circuit

variable {α β σ : Type}

instance : Monad Circuit where
  pure a := fun b => b = a
  bind m f := fun b => ∃ a, m a ∧ f a b

instance : LawfulMonad Circuit := LawfulMonad.mk' Circuit
  (fun m => funext fun b => propext
    ⟨fun ⟨a, ha, hb⟩ => (show b = a from hb) ▸ ha, fun hb => ⟨b, hb, rfl⟩⟩)
  (fun a f => funext fun b => propext
    ⟨fun ⟨a', ha, hb⟩ => (show a' = a from ha) ▸ hb, fun hb => ⟨a, rfl, hb⟩⟩)
  (fun m f g => funext fun c => propext
    ⟨fun ⟨b, ⟨a, ha, hb⟩, hc⟩ => ⟨a, ha, b, hb, hc⟩,
      fun ⟨a, ha, b, hb, hc⟩ => ⟨b, ⟨a, ha, hb⟩, hc⟩⟩)

/-- A value of the prover's choice. -/
def witness : Circuit α := fun _ => True

/-- A constraint. -/
def assert (p : Prop) : Circuit Unit := fun _ => p

/-- An assertion that holds lets the circuit go on. -/
lemma assert_apply {p : Prop} (h : p) : assert p () := h

/-- A circuit that only returns has its own value. -/
lemma pure_apply {a b : α} (h : b = a) : (pure a : Circuit α) b := h

/-- And no other. -/
lemma pure_iff {a b : α} : (pure a : Circuit α) b ↔ b = a := Iff.rfl

/-- A circuit after an assertion: both are satisfied. -/
lemma assert_bind_iff {p : Prop} {f : Unit → Circuit β} {b : β} :
    (assert p >>= f) b ↔ p ∧ f () b := by
  constructor
  · rintro ⟨_, hp, hb⟩
    exact ⟨hp, hb⟩
  · rintro ⟨hp, hb⟩
    exact ⟨(), hp, hb⟩

/-- `Q` holds of the output in every satisfying assignment. -/
def Ensures (m : Circuit α) (Q : α → Prop) : Prop := ∀ a, m a → Q a

/-- What a circuit ensures holds of each of its values. -/
lemma Ensures.apply {m : Circuit α} {Q : α → Prop} (h : m.Ensures Q) {a : α} (ha : m a) : Q a :=
  h a ha

/-- What is ensured may be weakened. -/
lemma Ensures.mono {m : Circuit α} {Q Q' : α → Prop} (h : m.Ensures Q) (hQ : ∀ a, Q a → Q' a) :
    m.Ensures Q' := fun a ha => hQ a (h a ha)

/-- Every circuit ensures the trivial condition. -/
lemma ensures_trivial (m : Circuit α) : m.Ensures fun _ => True := fun _ _ => trivial

/-- The rule of a return. -/
@[simp] lemma ensures_pure {a : α} {Q : α → Prop} : (pure a : Circuit α).Ensures Q ↔ Q a := by
  constructor
  · exact fun h => h a rfl
  · rintro h b rfl
    exact h

/-- The rule of a sequence. -/
@[simp] lemma ensures_bind {m : Circuit α} {f : α → Circuit β} {Q : β → Prop} :
    (m >>= f).Ensures Q ↔ m.Ensures fun a => (f a).Ensures Q := by
  constructor
  · exact fun h a ha b hb => h b ⟨a, ha, hb⟩
  · rintro h b ⟨a, ha, hb⟩
    exact h a ha b hb

/-- The rule of a free witness: any value must do. -/
@[simp] lemma ensures_witness {Q : α → Prop} : (witness : Circuit α).Ensures Q ↔ ∀ a, Q a :=
  ⟨fun h a => h a trivial, fun h a _ => h a⟩

/-- The rule of an assertion: it may be assumed from there on. -/
@[simp] lemma ensures_assert {p : Prop} {Q : Unit → Prop} : (assert p).Ensures Q ↔ (p → Q ()) :=
  ⟨fun h hp => h () hp, fun h _ hp => h hp⟩

/-- A loop with an accumulator. -/
lemma ensures_foldlM {I : Nat → σ → Prop} {f : σ → Nat → Circuit σ} {s : σ} (n : Nat) (h₀ : I 0 s)
    (hstep : ∀ i < n, ∀ s, I i s → (f s i).Ensures (I (i + 1))) :
    ((List.range n).foldlM f s).Ensures (I n) := by
  induction n with
  | zero => exact ensures_pure.mpr h₀
  | succ n ih =>
    rw [List.range_succ, List.foldlM_append, ensures_bind]
    refine (ih fun i hi => hstep i (Nat.lt_succ_of_lt hi)).mono fun s' hs' => ?_
    rw [List.foldlM_cons, ensures_bind]
    exact (hstep n (Nat.lt_succ_self n) s' hs').mono fun _ h => ensures_pure.mpr h

end Circuit
