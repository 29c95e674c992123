import AztecConnect.Lib.Reentrancy

/-!
# Transcripts

The calls that were accepted on the way from one state of a `World` to another, those nested in the
requests of others included, in the order in which they were made. `World.Calls` is the transcript of
the environment, `InTrace` that of the exchanges of a program, and `Made` that of a history. What
depends on the calls made so far is an invariant relative to the set of calls in the transcript:
`World.Calls.invariant` carries it through nested calls, `InTrace.invariant` through the rest of a
program.
-/

namespace Resumption

variable {ι σ ε κ ρ ω α : Type}

/-- Steps one after the other, with the calls of each. -/
inductive Chain (step : σ → List ι → σ → Prop) : σ → List ι → σ → Prop where
  | nil {s : σ} : Chain step s [] s
  | cons {s s₁ s₂ calls calls'} : step s calls s₁ → Chain step s₁ calls' s₂ →
      Chain step s (calls ++ calls') s₂

/-- The calls made during the exchanges of a trace. -/
inductive InTrace (C : σ → List ι → σ → Prop) : List (Exchange σ κ ρ) → List ι → Prop where
  | nil : InTrace C [] []
  | cons {y tr calls calls'} : C y.before calls y.after → InTrace C tr calls' →
      InTrace C (y :: tr) (calls ++ calls')

/-- From `s` to `s'`, the environment that nests at most `n` levels made the calls `calls`. -/
def World.Calls (W : World ι σ ε κ ρ ω) : Nat → σ → List ι → σ → Prop
  | 0 => fun s calls s' => calls = [] ∧ s' = s
  | n + 1 => Chain fun s calls s' => ∃ i tr a inner, calls = i :: inner ∧
      Completes (W.env n) (W.entry i s) tr s' a ∧ InTrace (W.Calls n) tr inner

/-- The calls of a history, and those nested in them. -/
inductive Made (W : World ι σ ε κ ρ ω) : List (Call ι σ κ ρ ω) → List ι → Prop where
  | nil : Made W [] []
  | snoc {history calls c n inner} : Made W history calls →
      InTrace (W.Calls n) c.exchanges inner → Made W (history ++ [c]) (calls ++ c.entry :: inner)

/-- The calls made in a history and then during the exchanges of a trace. -/
def World.Before (W : World ι σ ε κ ρ ω) (history : List (Call ι σ κ ρ ω))
    (tr : List (Exchange σ κ ρ)) (calls : List ι) : Prop :=
  ∃ made n inner, Made W history made ∧ InTrace (W.Calls n) tr inner ∧ calls = made ++ inner

variable {W : World ι σ ε κ ρ ω}

/-- The calls within a trace are those within its parts. -/
lemma InTrace.append_inv {C : σ → List ι → σ → Prop} {tr tr' : List (Exchange σ κ ρ)}
    {calls : List ι} (h : InTrace C (tr ++ tr') calls) :
    ∃ calls₁ calls₂, calls = calls₁ ++ calls₂ ∧ InTrace C tr calls₁ ∧ InTrace C tr' calls₂ := by
  induction tr generalizing calls with
  | nil => exact ⟨[], calls, rfl, .nil, h⟩
  | cons y tr ih =>
    cases h with
    | @cons _ _ c _ hy hrest =>
      obtain ⟨calls₁, calls₂, rfl, h₁, h₂⟩ := ih hrest
      exact ⟨c ++ calls₁, calls₂, (List.append_assoc ..).symm, .cons hy h₁, h₂⟩

/-- And the other way. -/
lemma InTrace.append {C : σ → List ι → σ → Prop} {tr tr' : List (Exchange σ κ ρ)}
    {calls calls' : List ι} (h : InTrace C tr calls) (h' : InTrace C tr' calls') :
    InTrace C (tr ++ tr') (calls ++ calls') := by
  induction h with
  | nil => exact h'
  | cons hy _ ih =>
    rw [List.append_assoc]
    exact .cons hy ih

/-! ## Transcripts exist -/

/-- One more step at the end of a chain. -/
lemma Chain.snoc {step : σ → List ι → σ → Prop} {s s₁ s₂ : σ} {calls calls' : List ι}
    (h : Chain step s calls s₁) (h' : step s₁ calls' s₂) : Chain step s (calls ++ calls') s₂ := by
  induction h with
  | nil =>
    have := Chain.cons h' .nil
    rwa [List.append_nil] at this
  | cons h₁ _ ih =>
    rw [List.append_assoc]
    exact .cons h₁ (ih h')

/-- A trace has a transcript if its exchanges have. -/
lemma InTrace.exists {C : σ → List ι → σ → Prop} {tr : List (Exchange σ κ ρ)}
    (h : ∀ y ∈ tr, ∃ calls, C y.before calls y.after) : ∃ calls, InTrace C tr calls := by
  induction tr with
  | nil => exact ⟨[], .nil⟩
  | cons y tr ih =>
    obtain ⟨calls, hy⟩ := h y List.mem_cons_self
    obtain ⟨calls', htr⟩ := ih fun y' hy' => h y' (List.mem_cons_of_mem _ hy')
    exact ⟨_, .cons hy htr⟩

/-- The exchanges of a completed program are answers of its environment. -/
lemma Completes.answered {E : Env σ κ ρ} {t : Res σ ε κ ρ α} {tr : List (Exchange σ κ ρ)} {s : σ}
    {a : α} (h : Completes E t tr s a) : ∀ y ∈ tr, E y.request y.before y.reply y.after := by
  induction h with
  | done => simp
  | call hE _ ih =>
    intro y hy
    cases hy with
    | head => exact hE
    | tail _ hy => exact ih y hy

/-- What the outside does is a chain of calls. -/
lemma World.calls_exist (n : Nat) {c : κ} {s s' : σ} {r : ρ} (h : W.env n c s r s') :
    ∃ calls, W.Calls n s calls s' := by
  induction n generalizing c s r s' with
  | zero => exact ⟨[], rfl, h.2⟩
  | succ n ih =>
    obtain ⟨-, -, hsteps⟩ := h
    induction hsteps with
    | refl => exact ⟨[], .nil⟩
    | tail _ hstep ihsteps =>
      obtain ⟨calls, hcalls⟩ := ihsteps
      obtain ⟨i, tr, a, hc⟩ := hstep
      obtain ⟨inner, hinner⟩ := InTrace.exists fun y hy => ih (hc.answered y hy)
      exact ⟨_, hcalls.snoc ⟨i, tr, a, inner, rfl, hc, hinner⟩⟩

/-- Every completed program has a transcript. -/
lemma Completes.inTrace {n : Nat} {t : Res σ ε κ ρ α} {tr : List (Exchange σ κ ρ)} {s : σ} {a : α}
    (h : Completes (W.env n) t tr s a) : ∃ calls, InTrace (W.Calls n) tr calls :=
  InTrace.exists fun y hy => World.calls_exist n (h.answered y hy)

/-- Every run has a transcript. -/
lemma Run.made {s s' : σ} {history : List (Call ι σ κ ρ ω)} (h : Run W s history s') :
    ∃ calls, Made W history calls := by
  induction h with
  | nil => exact ⟨[], .nil⟩
  | snoc _ hc ih =>
    obtain ⟨calls, hcalls⟩ := ih
    obtain ⟨inner, hinner⟩ := hc.inTrace
    exact ⟨_, hcalls.snoc hinner⟩

/-! ## Invariants relative to the calls made -/

/-- An invariant that depends on the set of calls made: it survives every call in the set, if it
survives those nested in it. -/
structure CallInvariant (W : World ι σ ε κ ρ ω) (I : (ι → Prop) → σ → Prop) : Prop where
  entry : ∀ {S i s}, S i → I S s →
    (W.entry i s).wp (fun _ => I S) (fun _ _ _ s' => I S s') fun s' _ => I S s'

section Invariant

variable {I : (ι → Prop) → σ → Prop} {S : ι → Prop}

/-- A program keeps to its postcondition if every exchange keeps the invariant. -/
lemma Completes.callInvariant {C : σ → List ι → σ → Prop} {E : Env σ κ ρ} {t : Res σ ε κ ρ α}
    {tr : List (Exchange σ κ ρ)} {calls : List ι} {s : σ} {a : α} {Q : σ → α → Prop}
    (hC : ∀ {s calls s'}, C s calls s' → (∀ i ∈ calls, S i) → I S s → I S s')
    (h : Completes E t tr s a) (htr : InTrace C tr calls) (hcalls : ∀ i ∈ calls, S i)
    (hwp : t.wp (fun _ => I S) (fun _ _ _ s' => I S s') Q) : Q s a := by
  induction h generalizing calls with
  | done => exact hwp
  | call _ _ ih =>
    cases htr with
    | cons hy hrest =>
      refine ih hrest (fun i hi => hcalls i (List.mem_append_right _ hi)) (hwp.2 _ _ ?_)
      exact hC hy (fun i hi => hcalls i (List.mem_append_left _ hi)) hwp.1

/-- The invariant survives the calls of the environment. -/
theorem World.Calls.invariant (hI : CallInvariant W I) {n : Nat} {s s' : σ} {calls : List ι}
    (h : W.Calls n s calls s') (hcalls : ∀ i ∈ calls, S i) (hs : I S s) : I S s' := by
  induction n generalizing s s' calls with
  | zero =>
    obtain ⟨-, rfl⟩ := h
    exact hs
  | succ n ih =>
    -- one call after the other, each relying on those nested in it
    have hchain : Chain (fun s calls s' => ∃ i tr a inner, calls = i :: inner ∧
        Completes (W.env n) (W.entry i s) tr s' a ∧ InTrace (W.Calls n) tr inner) s calls s' := h
    clear h
    induction hchain with
    | nil => exact hs
    | cons hstep _ ihchain =>
      obtain ⟨i, tr, a, inner, rfl, hc, hinner⟩ := hstep
      apply ihchain fun j hj => hcalls j (List.mem_append_right _ hj)
      refine Completes.callInvariant (Q := fun s' _ => I S s') (fun h hS => ih h hS) hc hinner ?_ ?_
      · exact fun j hj => hcalls j (List.mem_append_left _ (List.mem_cons_of_mem _ hj))
      · exact hI.entry (hcalls i (List.mem_append_left _ List.mem_cons_self)) hs

/-- The invariant survives the exchanges of a program. -/
theorem InTrace.invariant (hI : CallInvariant W I) {n : Nat} {E : Env σ κ ρ} {t : Res σ ε κ ρ α}
    {tr : List (Exchange σ κ ρ)} {calls : List ι} {s : σ} {a : α} {Q : σ → α → Prop}
    (htr : InTrace (W.Calls n) tr calls) (h : Completes E t tr s a) (hcalls : ∀ i ∈ calls, S i)
    (hwp : t.wp (fun _ => I S) (fun _ _ _ s' => I S s') Q) : Q s a :=
  h.callInvariant (fun h hS => World.Calls.invariant hI h hS) htr hcalls hwp

/-- The invariant holds after every run, relative to the calls of the run. -/
theorem Made.invariant (hI : CallInvariant W I) {s s' : σ} {history : List (Call ι σ κ ρ ω)}
    {calls : List ι} (hm : Made W history calls) (h : Run W s history s')
    (hcalls : ∀ i ∈ calls, S i) (hs : I S s) : I S s' := by
  induction hm generalizing s' with
  | nil =>
    generalize hnil : ([] : List (Call ι σ κ ρ ω)) = history at h
    cases h with
    | nil => exact hs
    | snoc _ _ => simp at hnil
  | @snoc history calls c n inner _ hinner ih =>
    generalize hsnoc : history ++ [c] = history' at h
    cases h with
    | nil => simp at hsnoc
    | snoc hr hc =>
      obtain ⟨rfl, hlast⟩ := List.append_inj' hsnoc rfl
      cases hlast
      have hs₁ := ih hr fun i hi => hcalls i (List.mem_append_left _ hi)
      refine hinner.invariant hI hc ?_ (hI.entry (hcalls _ ?_) hs₁)
      · exact fun i hi => hcalls i (List.mem_append_right _ (List.mem_cons_of_mem _ hi))
      · exact List.mem_append_right _ List.mem_cons_self

end Invariant

end Resumption
