import Mathlib.Data.List.Induction

/-!
# Transition systems

A system takes labelled steps. What holds initially and is preserved by every step holds in every
state that a run reaches (`Run.invariant`). A system whose steps are a partial function is run by
evaluation (`exec`); steps that lower a measure come to rest (`exists_run_to_rest`).
-/

namespace Transition

variable {σ α : Type*}

/-- From one state to another by the steps of the labels. -/
inductive Run (step : σ → α → σ → Prop) (s : σ) : List α → σ → Prop where
  | nil : Run step s [] s
  | snoc {as : List α} {a : α} {s₁ s₂ : σ} :
    Run step s as s₁ → step s₁ a s₂ → Run step s (as ++ [a]) s₂

variable {step step' : σ → α → σ → Prop} {s s₁ s₂ : σ} {as bs : List α}

/-- What every step keeps holds at the end of a run. -/
lemma Run.invariant {I : σ → Prop} (h : Run step s as s₁) (h₀ : I s)
    (hstep : ∀ s a s', I s → step s a s' → I s') : I s₁ := by
  induction h with
  | nil => exact h₀
  | snoc _ hs ih => exact hstep _ _ _ ih hs

/-- A run of some steps is one of any that include them. -/
lemma Run.mono (h : Run step s as s₁) (hsub : ∀ s a s', step s a s' → step' s a s') :
    Run step' s as s₁ := by
  induction h with
  | nil => exact .nil
  | snoc _ hs ih => exact .snoc ih (hsub _ _ _ hs)

/-- Runs may be joined. -/
lemma Run.append (h : Run step s as s₁) (h' : Run step s₁ bs s₂) : Run step s (as ++ bs) s₂ := by
  induction h' with
  | nil => exact (List.append_nil as).symm ▸ h
  | snoc _ hs ih => exact List.append_assoc as _ _ ▸ .snoc ih hs

/-- The steps of a partial function. -/
def Steps (f : σ → α → Option σ) (s : σ) (a : α) (s' : σ) : Prop := f s a = some s'

/-- Steps that meet a condition on the state before. -/
def Guarded (step : σ → α → σ → Prop) (C : σ → α → Prop) (s : σ) (a : α) (s' : σ) : Prop :=
  step s a s' ∧ C s a

/-- The conditions on the steps may be dropped. -/
lemma Run.of_guarded {C : σ → α → Prop} (h : Run (Guarded step C) s as s₁) : Run step s as s₁ :=
  h.mono fun _ _ _ hs => hs.1

/-- The steps of a partial function lead to one state. -/
lemma Run.unique {f : σ → α → Option σ} (h : Run (Steps f) s as s₁) (h' : Run (Steps f) s as s₂) :
    s₁ = s₂ := by
  induction h generalizing s₂ with
  | nil =>
    generalize hnil : ([] : List α) = as at h'
    cases h' with
    | nil => rfl
    | snoc _ _ => simp at hnil
  | @snoc as a s₁ s₁' _ hs ih =>
    generalize hall : as ++ [a] = all at h'
    cases h' with
    | nil => simp at hall
    | snoc hr' hs' =>
      obtain ⟨rfl, hlast⟩ := List.append_inj' hall rfl
      cases hlast
      rw [← ih hr'] at hs'
      exact Option.some.inj (hs.symm.trans hs')

/-- Steps that lead to a state meet both conditions, if they meet each. -/
lemma Run.guarded_and {f : σ → α → Option σ} {C D : σ → α → Prop}
    (h : Run (Guarded (Steps f) C) s as s₁) (h' : Run (Guarded (Steps f) D) s as s₁) :
    Run (Guarded (Steps f) fun s a => C s a ∧ D s a) s as s₁ := by
  induction h with
  | nil => exact .nil
  | @snoc as a s₁ s₁' hr hs ih =>
    generalize hall : as ++ [a] = all at h'
    cases h' with
    | nil => simp at hall
    | snoc hr' hs' =>
      obtain ⟨rfl, hlast⟩ := List.append_inj' hall rfl
      cases hlast
      obtain rfl := hr.of_guarded.unique hr'.of_guarded
      exact .snoc (ih hr') ⟨hs.1, hs.2, hs'.2⟩

/-- The state after the steps of the labels, if all are possible. -/
def exec (f : σ → α → Option σ) (s : σ) (as : List α) : Option σ := as.foldlM f s

/-- An execution is a run. -/
lemma exec_run {f : σ → α → Option σ} (h : exec f s as = some s₁) : Run (Steps f) s as s₁ := by
  induction as using List.reverseRecOn generalizing s₁ with
  | nil =>
    cases h
    exact .nil
  | append_singleton as a ih =>
    rw [exec, List.foldlM_append] at h
    obtain ⟨s', hs, hlast⟩ := Option.bind_eq_some_iff.mp h
    refine .snoc (ih hs) ?_
    rw [List.foldlM_cons] at hlast
    obtain ⟨s'', hs', hnil⟩ := Option.bind_eq_some_iff.mp hlast
    cases hnil
    exact hs'

/-- A partial function that is only defined where a condition holds. -/
def guard (f : σ → α → Option σ) (C : σ → α → Prop) [∀ s a, Decidable (C s a)] (s : σ) (a : α) :
    Option σ := if C s a then f s a else none

/-- An execution that checks a condition is a run under it. -/
lemma exec_guard_run {f : σ → α → Option σ} {C : σ → α → Prop} [∀ s a, Decidable (C s a)]
    (h : exec (guard f C) s as = some s₁) : Run (Guarded (Steps f) C) s as s₁ := by
  refine (exec_run h).mono fun s a s' hs => ?_
  unfold Steps guard at hs
  split at hs
  case isTrue hC => exact ⟨hs, hC⟩
  case isFalse => cases hs

/-- Steps that lower a measure lead to a state in which none of them is possible. -/
lemma exists_run_to_rest {f : σ → α → Option σ} {C : α → Prop} (μ : σ → Nat)
    (hμ : ∀ s a s', C a → f s a = some s' → μ s' < μ s) (s : σ) :
    ∃ as s', (∀ a ∈ as, C a) ∧ Run (Steps f) s as s' ∧ ∀ a, C a → f s' a = none := by
  induction hn : μ s using Nat.strongRecOn generalizing s with
  | _ n ih =>
    by_cases hrest : ∀ a, C a → f s a = none
    · exact ⟨[], s, nofun, .nil, hrest⟩
    · simp only [not_forall] at hrest
      obtain ⟨a, hC, hstep⟩ := hrest
      obtain ⟨s₁, hs₁⟩ := Option.ne_none_iff_exists'.mp hstep
      obtain ⟨as, s₂, has, hrun, hdone⟩ := ih _ (hn ▸ hμ s a s₁ hC hs₁) s₁ rfl
      refine ⟨a :: as, s₂, List.forall_mem_cons.mpr ⟨hC, has⟩, ?_, hdone⟩
      exact Run.append (.snoc .nil hs₁) hrun

end Transition
