import Mathlib.Data.List.Basic
import AztecConnect.Lib.Resumption

/-!
# Objects whose environment calls back

A `World` is an object with several entry points, each a program of `Resumption`. While a request of
one entry is being answered, the environment may call entries of the same object, to any nesting
depth; calls that revert have no effect. `World.env n` is that environment, with at most `n` nested
levels below it.

`World.nested_sound` is the rely-guarantee rule: if every entry, started where the invariant `Inv`
holds, restores `Inv` and keeps to the relation `Rely`, assuming the same of the calls nested in it,
then so does every sequence of nested calls, at every depth. `Run` records the calls made from
outside, `Visible` the states the environment sees, those in the middle of a call included.
-/

namespace Resumption

variable {ι σ ε κ ρ ω : Type}

/-- An object with entry points, and what its environment may answer to a request. -/
structure World (ι σ ε κ ρ ω : Type) where
  /-- The program behind an entry point. -/
  entry : ι → Prog σ ε κ ρ ω
  /-- The replies the environment can give. -/
  answers : κ → σ → ρ → Prop
  /-- Requests that cannot have changed the state: static ones, and those answered by a failure. -/
  keeps : κ → ρ → Prop

/-- The environment that nests calls at most `n` levels deep. -/
def World.env (W : World ι σ ε κ ρ ω) : Nat → Env σ κ ρ
  | 0 => fun c s r s' => W.answers c s r ∧ s' = s
  | n + 1 => fun c s r s' => W.answers c s r ∧ (W.keeps c r → s' = s) ∧
      Relation.ReflTransGen (fun s₁ s₂ => ∃ i tr a, Completes (W.env n) (W.entry i s₁) tr s₂ a) s s'

/-- One accepted call, as nested in a request of the environment. -/
def World.Step (W : World ι σ ε κ ρ ω) (n : Nat) (s s' : σ) : Prop :=
  ∃ i tr a, Completes (W.env n) (W.entry i s) tr s' a

variable {W : World ι σ ε κ ρ ω}

/-- The environment answers, leaves the state alone where it must, and otherwise only makes calls. -/
lemma World.env_inv {n : Nat} {c : κ} {s s' : σ} {r : ρ} (h : W.env n c s r s') :
    W.answers c s r ∧ (W.keeps c r → s' = s) ∧
      (s' = s ∨ ∃ m, m < n ∧ Relation.ReflTransGen (W.Step m) s s') := by
  cases n with
  | zero => exact ⟨h.1, fun _ => h.2, .inl h.2⟩
  | succ n => exact ⟨h.1, h.2.1, .inr ⟨n, by omega, h.2.2⟩⟩

/-- What an entry may rely on during its requests. -/
def World.rely (W : World ι σ ε κ ρ ω) (Inv : σ → Prop) (Rely : σ → σ → Prop) : Env σ κ ρ :=
  fun c s r s' => W.answers c s r ∧ (W.keeps c r → s' = s) ∧ Inv s' ∧ Rely s s'

/-- The rely-guarantee rule for nested calls. -/
theorem World.nested_sound {Inv : σ → Prop} {Rely : σ → σ → Prop}
    (hrefl : ∀ s, Rely s s) (htrans : ∀ a b c, Rely a b → Rely b c → Rely a c)
    (hentry : ∀ i s, Inv s →
      (W.entry i s).wp (fun _ => Inv) (W.rely Inv Rely) fun s' _ => Inv s' ∧ Rely s s')
    (n : Nat) {s s' : σ} (hs : Inv s) (h : Relation.ReflTransGen (W.Step n) s s') :
    Inv s' ∧ Rely s s' := by
  induction n using Nat.strongRecOn generalizing s s' with
  | ind n ih =>
    -- one nested call relies on the calls one level further down
    have hstep {s₁ s₂ : σ} (h₁ : Inv s₁) (hst : W.Step n s₁ s₂) : Inv s₂ ∧ Rely s₁ s₂ := by
      obtain ⟨i, tr, a, hc⟩ := hst
      refine Res.wp_completes (Q := fun s' _ => Inv s' ∧ Rely s₁ s') ?_ hc (hentry i s₁ h₁)
      intro c t r t' ht he
      obtain ⟨hans, hkeep, rfl | ⟨m, hm, hcalls⟩⟩ := World.env_inv he
      · exact ⟨hans, hkeep, ht, hrefl _⟩
      · obtain ⟨hinv, hrel⟩ := ih m hm ht hcalls
        exact ⟨hans, hkeep, hinv, hrel⟩
    induction h with
    | refl => exact ⟨hs, hrefl s⟩
    | tail _ hst ihst =>
      obtain ⟨hinv, hrel⟩ := hstep ihst.1 hst
      exact ⟨hinv, htrans _ _ _ ihst.2 hrel⟩

/-- The environment of any depth keeps to the rely wherever the invariant holds. -/
theorem World.env_rely {Inv : σ → Prop} {Rely : σ → σ → Prop}
    (hrefl : ∀ s, Rely s s) (htrans : ∀ a b c, Rely a b → Rely b c → Rely a c)
    (hentry : ∀ i s, Inv s →
      (W.entry i s).wp (fun _ => Inv) (W.rely Inv Rely) fun s' _ => Inv s' ∧ Rely s s')
    (n : Nat) {c : κ} {s s' : σ} {r : ρ} (hs : Inv s) (h : W.env n c s r s') :
    W.rely Inv Rely c s r s' := by
  obtain ⟨hans, hkeep, rfl | ⟨m, _, hcalls⟩⟩ := World.env_inv h
  · exact ⟨hans, hkeep, hs, hrefl _⟩
  · obtain ⟨hinv, hrel⟩ := World.nested_sound hrefl htrans hentry m hs hcalls
    exact ⟨hans, hkeep, hinv, hrel⟩

/-! ## Runs -/

/-- An accepted call from outside, with its exchanges. -/
structure Call (ι σ κ ρ ω : Type) where
  entry : ι
  before : σ
  exchanges : List (Exchange σ κ ρ)
  result : ω
  after : σ

/-- A sequence of accepted calls, each starting where the one before it ended. -/
inductive Run (W : World ι σ ε κ ρ ω) : σ → List (Call ι σ κ ρ ω) → σ → Prop where
  | nil {s : σ} : Run W s [] s
  | snoc {s s₁ s₂ i tr a n history} : Run W s history s₁ →
      Completes (W.env n) (W.entry i s₁) tr s₂ a →
      Run W s (history ++ [⟨i, s₁, tr, a, s₂⟩]) s₂

/-- One more call. -/
lemma Run.exists_snoc {s s₁ s₂ : σ} {i : ι} {a : ω} {tr : List (Exchange σ κ ρ)} {n : Nat}
    (h : ∃ history, Run W s history s₁) (hc : Completes (W.env n) (W.entry i s₁) tr s₂ a) :
    ∃ history, Run W s history s₂ := by
  obtain ⟨history, h⟩ := h
  exact ⟨_, .snoc h hc⟩

/-- Make the calls one after the other, every request being answered by `answer` and nothing called
back. -/
def World.exec (W : World ι σ ε κ ρ ω) (answer : κ → ρ) :
    List ι → List (Call ι σ κ ρ ω) → σ → Option (List (Call ι σ κ ρ ω) × σ)
  | [], history, s => some (history, s)
  | i :: is, history, s =>
    match (W.entry i s).eval answer with
    | some (tr, s', a) => W.exec answer is (history ++ [⟨i, s, tr, a, s'⟩]) s'
    | none => none

/-- An execution makes the calls it was given. -/
lemma World.exec_entries {W : World ι σ ε κ ρ ω} {answer : κ → ρ} {is : List ι}
    {history history' : List (Call ι σ κ ρ ω)} {s s' : σ}
    (h : W.exec answer is history s = some (history', s')) :
    history'.map (·.entry) = history.map (·.entry) ++ is := by
  induction is generalizing history s with
  | nil =>
    simp only [World.exec, Option.some.injEq, Prod.mk.injEq] at h
    rw [← h.1, List.append_nil]
  | cons i is ih =>
    simp only [World.exec] at h
    rcases heval : (W.entry i s).eval answer with _ | ⟨tr, s₁, a⟩
    · rw [heval] at h
      cases h
    · rw [heval] at h
      rw [ih h, List.map_append, List.append_assoc]
      rfl

/-- Executions are runs. -/
lemma World.exec_run {answer : κ → ρ} (hans : ∀ c s, W.answers c s (answer c)) {is : List ι}
    {history history' : List (Call ι σ κ ρ ω)} {s₀ s s' : σ} (h₀ : Run W s₀ history s)
    (h : W.exec answer is history s = some (history', s')) : Run W s₀ history' s' := by
  induction is generalizing history s with
  | nil =>
    simp only [World.exec, Option.some.injEq, Prod.mk.injEq] at h
    obtain ⟨rfl, rfl⟩ := h
    exact h₀
  | cons i is ih =>
    simp only [World.exec] at h
    split at h
    · rename_i tr s₁ a heval
      exact ih (.snoc (n := 0) h₀ (Res.eval_completes (fun c s => ⟨hans c s, rfl⟩) heval)) h
    · simp at h

/-- Executing one call makes a history of one call. -/
lemma World.exec_single {answer : κ → ρ} {i : ι} {history : List (Call ι σ κ ρ ω)} {s s' : σ}
    (h : W.exec answer [i] [] s = some (history, s')) : ∃ tr a, history = [⟨i, s, tr, a, s'⟩] := by
  simp only [World.exec] at h
  split at h
  · cases h
    exact ⟨_, _, rfl⟩
  · cases h

/-- A run stops at every call. -/
lemma Run.append_inv {s s' : σ} {history history' : List (Call ι σ κ ρ ω)}
    (h : Run W s (history ++ history') s') : ∃ s₁, Run W s history s₁ ∧ Run W s₁ history' s' := by
  generalize hall : history ++ history' = all at h
  induction h generalizing history' with
  | nil =>
    obtain ⟨rfl, rfl⟩ := List.append_eq_nil_iff.mp hall
    exact ⟨_, .nil, .nil⟩
  | @snoc s₁ s₂ i tr a n earlier hr hc ih =>
    rcases List.eq_nil_or_concat' history' with rfl | ⟨init, last, rfl⟩
    · rw [List.append_nil] at hall
      exact ⟨s₂, hall ▸ .snoc hr hc, .nil⟩
    · rw [← List.append_assoc] at hall
      obtain ⟨hinit, hlast⟩ := List.append_inj' hall rfl
      obtain ⟨s₀, h₀, h₁⟩ := ih hinit
      cases hlast
      exact ⟨s₀, h₀, .snoc h₁ hc⟩

/-- The last call of a run. -/
lemma Run.snoc_inv {s s' : σ} {history : List (Call ι σ κ ρ ω)} {call : Call ι σ κ ρ ω}
    (h : Run W s (history ++ [call]) s') : Run W s history call.before ∧ s' = call.after ∧
      ∃ n, Completes (W.env n) (W.entry call.entry call.before) call.exchanges call.after
        call.result := by
  generalize hall : history ++ [call] = all at h
  cases h with
  | nil => exact absurd hall (by simp)
  | snoc hr hc =>
    obtain ⟨rfl, hlast⟩ := List.append_inj' hall rfl
    cases hlast
    exact ⟨hr, rfl, _, hc⟩

/-- The run up to one of its calls. -/
lemma Run.upto {s s' : σ} {history : List (Call ι σ κ ρ ω)} {call : Call ι σ κ ρ ω}
    (h : Run W s history s') (hcall : call ∈ history) : ∃ earlier later,
      history = earlier ++ [call] ++ later ∧ Run W s (earlier ++ [call]) call.after := by
  obtain ⟨earlier, later, rfl⟩ := List.append_of_mem hcall
  have hsplit : earlier ++ call :: later = earlier ++ [call] ++ later := by simp
  rw [hsplit] at h
  obtain ⟨s₁, h₁, -⟩ := h.append_inv
  obtain ⟨-, rfl, -⟩ := h₁.snoc_inv
  exact ⟨earlier, later, hsplit, h₁⟩

/-- An invariant of the calls is an invariant of the runs. -/
lemma Run.invariant {I : List (Call ι σ κ ρ ω) → σ → Prop} {s s' : σ}
    {history : List (Call ι σ κ ρ ω)} (h : Run W s history s') (h₀ : I [] s)
    (hstep : ∀ history s₁ s₂ i tr a n, I history s₁ →
      Completes (W.env n) (W.entry i s₁) tr s₂ a → I (history ++ [⟨i, s₁, tr, a, s₂⟩]) s₂) :
    I history s' := by
  induction h with
  | nil => exact h₀
  | snoc _ hc ih => exact hstep _ _ _ _ _ _ _ ih hc

end Resumption
