import Mathlib.Logic.Relation

/-!
# Programs that hand control to their environment

A program runs on a state `σ`, may revert with an error `ε`, and may issue requests `κ` to code it
does not control, which answers with a reply `ρ` and may have changed the state in between. `Res` is
the tree of one execution: the state is exposed exactly at the requests. `Prog` is the state monad
over these trees; `attempt` runs a program as a sub-transaction whose effects are rolled back when it
reverts.

Two readings of a tree are given. `Completes` and `Yields` are operational: they run the tree against
a relation saying how the environment answers, recording the exchanges. `Res.wp` is the weakest
precondition for a guarantee that holds at every request, a rely on what happens during a request,
and a postcondition; `Res.wp_completes` and `Res.wp_yields` connect the two.
-/

namespace Resumption

variable {σ ε κ ρ α β : Type}

/-- An execution: finished, reverted, or waiting for the reply to a request. -/
inductive Res (σ ε κ ρ α : Type) : Type where
  | done : σ → α → Res σ ε κ ρ α
  | revert : ε → Res σ ε κ ρ α
  | call : κ → σ → (σ → ρ → Res σ ε κ ρ α) → Res σ ε κ ρ α

/-- Continue a finished execution. -/
def Res.bind : Res σ ε κ ρ α → (σ → α → Res σ ε κ ρ β) → Res σ ε κ ρ β
  | .done s a, f => f s a
  | .revert e, _ => .revert e
  | .call c s k, f => .call c s fun s' r => (k s' r).bind f

/-- Run an execution as a sub-transaction started in state `s`: a revert restores `s`. -/
def Res.rollback (s : σ) : Res σ ε κ ρ α → Res σ ε κ ρ (Except ε α)
  | .done s' a => .done s' (.ok a)
  | .revert e => .done s (.error e)
  | .call c s' k => .call c s' fun s'' r => (k s'' r).rollback s

/-- Programs. -/
def Prog (σ ε κ ρ α : Type) : Type := σ → Res σ ε κ ρ α

namespace Prog

instance : Monad (Prog σ ε κ ρ) where
  pure a := fun s => .done s a
  bind m f := fun s => (m s).bind fun s' a => f a s'

/-- Read the state. -/
def get : Prog σ ε κ ρ σ := fun s => .done s s

/-- Update the state. -/
def modify (f : σ → σ) : Prog σ ε κ ρ Unit := fun s => .done (f s) ()

/-- Revert. -/
def throw (e : ε) : Prog σ ε κ ρ α := fun _ => .revert e

/-- Issue a request and wait for the reply. -/
def request (c : κ) : Prog σ ε κ ρ ρ := fun s => .call c s fun s' r => .done s' r

/-- Run a program as a sub-transaction. -/
def attempt (m : Prog σ ε κ ρ α) : Prog σ ε κ ρ (Except ε α) := fun s => (m s).rollback s

/-- Revert with `e` unless `p` holds. -/
def require (p : Prop) [Decidable p] (e : ε) : Prog σ ε κ ρ Unit :=
  if p then pure () else throw e

/-- The value of an optional result, or a revert with `e`. -/
def ofOption (e : ε) : Option α → Prog σ ε κ ρ α
  | some a => pure a
  | none => throw e

/-- A pure computation that may fail. -/
def ofExcept : Except ε α → Prog σ ε κ ρ α
  | .ok a => pure a
  | .error e => throw e

variable (s : σ) (e : ε) (c : κ)

/-- A value ends the program. -/
@[simp] lemma run_pure (a : α) : (pure a : Prog σ ε κ ρ α) s = .done s a := rfl

/-- A sequence runs its second part from where the first one ended. -/
@[simp] lemma run_bind (m : Prog σ ε κ ρ α) (f : α → Prog σ ε κ ρ β) :
    (m >>= f) s = (m s).bind fun s' a => f a s' := rfl

/-- Reading returns the state. -/
@[simp] lemma run_get : (get : Prog σ ε κ ρ σ) s = .done s s := rfl

/-- Writing changes the state. -/
@[simp] lemma run_modify (f : σ → σ) : (modify f : Prog σ ε κ ρ Unit) s = .done (f s) () := rfl

/-- An error reverts. -/
@[simp] lemma run_throw : (throw e : Prog σ ε κ ρ α) s = .revert e := rfl

/-- A request waits for a reply and the state it comes with. -/
@[simp] lemma run_request :
    (request c : Prog σ ε κ ρ ρ) s = .call c s fun s' r => .done s' r := rfl

/-- An attempt turns a revert into a value, in the state before. -/
@[simp] lemma run_attempt (m : Prog σ ε κ ρ α) : attempt m s = (m s).rollback s := rfl

/-- A condition that holds is passed. -/
lemma run_require {s : σ} {e : ε} {p : Prop} [Decidable p] (h : p) :
    (require p e : Prog σ ε κ ρ Unit) s = .done s () := by
  rw [require, if_pos h]
  rfl

/-- A value that is no error is returned. -/
lemma run_ofExcept {s : σ} {x : Except ε α} {a : α} (h : x = .ok a) :
    (ofExcept x : Prog σ ε κ ρ α) s = .done s a := by
  rw [h]
  rfl

end Prog

/-- A sequence of two computations succeeded. -/
lemma bind_eq_ok {x : Except ε α} {f : α → Except ε β} {b : β} (h : (x >>= f) = .ok b) :
    ∃ a, x = .ok a ∧ f a = .ok b := by
  cases x with
  | error e => cases h
  | ok a => exact ⟨a, rfl, h⟩

/-- A check that throws passed. -/
lemma check_inv {c : Prop} [Decidable c] {e : ε} {x : Except ε α} {a : α}
    (h : (if c then MonadExcept.throw e else x) = .ok a) : ¬ c ∧ x = .ok a := by
  split at h
  · cases h
  · exact ⟨‹_›, h⟩

/-- A result that is done goes on with its value. -/
@[simp] lemma Res.bind_done (s : σ) (a : α) (f : σ → α → Res σ ε κ ρ β) :
    (Res.done s a).bind f = f s a := rfl

/-- A reverted one stays reverted. -/
@[simp] lemma Res.bind_revert (e : ε) (f : σ → α → Res σ ε κ ρ β) :
    (Res.revert e).bind f = .revert e := rfl

/-- One that waits goes on after the reply. -/
@[simp] lemma Res.bind_call (c : κ) (s : σ) (k : σ → ρ → Res σ ε κ ρ α)
    (f : σ → α → Res σ ε κ ρ β) :
    (Res.call c s k).bind f = .call c s fun s' r => (k s' r).bind f := rfl

/-! ## Running against an environment -/

/-- One exchange with the environment: the request, the state it was issued in, the reply, and the
state the environment handed back. -/
structure Exchange (σ κ ρ : Type) where
  request : κ
  before : σ
  reply : ρ
  after : σ

/-- How the environment may answer: `E c s r s'` when request `c` issued in state `s` may be answered
by `r` with the state changed to `s'`. -/
abbrev Env (σ κ ρ : Type) : Type := κ → σ → ρ → σ → Prop

/-- The tree runs to completion in state `s` with result `a`, after the recorded exchanges. -/
inductive Completes (E : Env σ κ ρ) :
    Res σ ε κ ρ α → List (Exchange σ κ ρ) → σ → α → Prop where
  | done {s : σ} {a : α} : Completes E (.done s a) [] s a
  | call {c s k r s' tr s'' a} : E c s r s' → Completes E (k s' r) tr s'' a →
      Completes E (.call c s k) (⟨c, s, r, s'⟩ :: tr) s'' a

/-- A finished tree completes in one way only. -/
lemma Completes.done_inv {E : Env σ κ ρ} {s s' : σ} {a a' : α} {tr : List (Exchange σ κ ρ)}
    (h : Completes E (.done s a : Res σ ε κ ρ α) tr s' a') : tr = [] ∧ s' = s ∧ a' = a := by
  cases h with
  | done => exact ⟨rfl, rfl, rfl⟩

/-- A reverted tree does not complete. -/
lemma Completes.revert_inv {E : Env σ κ ρ} {e : ε} {s' : σ} {a' : α}
    {tr : List (Exchange σ κ ρ)} (h : Completes E (.revert e : Res σ ε κ ρ α) tr s' a') : False := by
  cases h

/-- A sequence completes when its two parts do. -/
lemma Completes.bind {E : Env σ κ ρ} {t : Res σ ε κ ρ α} {f : σ → α → Res σ ε κ ρ β}
    {s₁ s₂ : σ} {a : α} {b : β} {tr₁ tr₂ : List (Exchange σ κ ρ)}
    (h₁ : Completes E t tr₁ s₁ a) (h₂ : Completes E (f s₁ a) tr₂ s₂ b) :
    Completes E (t.bind f) (tr₁ ++ tr₂) s₂ b := by
  induction h₁ with
  | done => exact h₂
  | call hE _ ih => exact .call hE (ih h₂)

/-- A request that is answered, and a completion of what follows. -/
lemma Completes.exists_call {E : Env σ κ ρ} {c : κ} {s s' s'' : σ} {r : ρ} {a : α}
    {k : σ → ρ → Res σ ε κ ρ α} (h : E c s r s') (hk : ∃ tr, Completes E (k s' r) tr s'' a) :
    ∃ tr, Completes E (.call c s k) tr s'' a := by
  obtain ⟨tr, hk⟩ := hk
  exact ⟨_, .call h hk⟩

/-- A completed sequence splits at the intermediate state. -/
lemma Completes.bind_inv {E : Env σ κ ρ} {t : Res σ ε κ ρ α} {f : σ → α → Res σ ε κ ρ β}
    {s₂ : σ} {b : β} {tr : List (Exchange σ κ ρ)} (h : Completes E (t.bind f) tr s₂ b) :
    ∃ tr₁ tr₂ s₁ a, tr = tr₁ ++ tr₂ ∧ Completes E t tr₁ s₁ a ∧
      Completes E (f s₁ a) tr₂ s₂ b := by
  induction t generalizing tr with
  | done s a => exact ⟨[], tr, s, a, rfl, .done, h⟩
  | revert e => exact h.revert_inv.elim
  | call c s k ih =>
    cases h with
    | call hE hk =>
      obtain ⟨tr₁, tr₂, s₁, a, rfl, h₁, h₂⟩ := ih _ _ hk
      exact ⟨_, tr₂, s₁, a, rfl, .call hE h₁, h₂⟩

/-- A larger environment allows more runs. -/
lemma Completes.mono {E E' : Env σ κ ρ} {t : Res σ ε κ ρ α} {s : σ} {a : α}
    {tr : List (Exchange σ κ ρ)} (hE : ∀ c s r s', E c s r s' → E' c s r s')
    (h : Completes E t tr s a) : Completes E' t tr s a := by
  induction h with
  | done => exact .done
  | call h _ ih => exact .call (hE _ _ _ _ h) ih

/-- A run takes place in the environment that answers as recorded. -/
lemma Completes.restrict {E : Env σ κ ρ} {t : Res σ ε κ ρ α} {s : σ} {a : α}
    {tr : List (Exchange σ κ ρ)} (h : Completes E t tr s a) :
    Completes (fun c s r s' => E c s r s' ∧ ⟨c, s, r, s'⟩ ∈ tr) t tr s a := by
  induction h with
  | done => exact .done
  | call hE _ ih =>
    refine .call ⟨hE, List.mem_cons_self⟩ (ih.mono ?_)
    exact fun _ _ _ _ h => ⟨h.1, List.mem_cons_of_mem _ h.2⟩

/-- The tree reverts after the recorded exchanges. -/
inductive Reverts (E : Env σ κ ρ) : Res σ ε κ ρ α → List (Exchange σ κ ρ) → Prop where
  | revert {e : ε} : Reverts E (.revert e) []
  | call {c s k r s' tr} : E c s r s' → Reverts E (k s' r) tr →
      Reverts E (.call c s k) (⟨c, s, r, s'⟩ :: tr)

/-- A reverted sequence reverts in one of its parts. -/
lemma Reverts.bind_inv {E : Env σ κ ρ} {t : Res σ ε κ ρ α} {f : σ → α → Res σ ε κ ρ β}
    {tr : List (Exchange σ κ ρ)} (h : Reverts E (t.bind f) tr) :
    Reverts E t tr ∨ ∃ tr₁ tr₂ s₁ a, tr = tr₁ ++ tr₂ ∧ Completes E t tr₁ s₁ a ∧
      Reverts E (f s₁ a) tr₂ := by
  induction t generalizing tr with
  | done s a => exact .inr ⟨[], tr, s, a, rfl, .done, h⟩
  | revert e =>
    cases h with
    | revert => exact .inl .revert
  | call c s k ih =>
    cases h with
    | call hE hk =>
      rcases ih _ _ hk with h | ⟨tr₁, tr₂, s₁, a, rfl, h₁, h₂⟩
      · exact .inl (.call hE h)
      · exact .inr ⟨_, tr₂, s₁, a, rfl, .call hE h₁, h₂⟩

/-- A sub-transaction completes with the outcome of its body: a value, or a revert undone. -/
lemma Completes.rollback_inv {E : Env σ κ ρ} {t : Res σ ε κ ρ α} {s₀ s : σ} {r : Except ε α}
    {tr : List (Exchange σ κ ρ)} (h : Completes E (t.rollback s₀) tr s r) :
    (∃ a, r = .ok a ∧ Completes E t tr s a) ∨ (∃ e, r = .error e) ∧ s = s₀ ∧ Reverts E t tr := by
  induction t generalizing tr with
  | done s' a =>
    obtain ⟨rfl, rfl, rfl⟩ := Completes.done_inv h
    exact .inl ⟨a, rfl, .done⟩
  | revert e =>
    obtain ⟨rfl, rfl, rfl⟩ := Completes.done_inv h
    exact .inr ⟨⟨e, rfl⟩, rfl, .revert⟩
  | call c s' k ih =>
    cases h with
    | call hE hk =>
      rcases ih _ _ hk with ⟨a, rfl, h⟩ | ⟨he, rfl, h⟩
      · exact .inl ⟨a, rfl, .call hE h⟩
      · exact .inr ⟨he, rfl, .call hE h⟩

/-- Run a tree, every request being answered by `answer` with the state left alone. -/
def Res.eval (answer : κ → ρ) : Res σ ε κ ρ α → Option (List (Exchange σ κ ρ) × σ × α)
  | .done s a => some ([], s, a)
  | .revert _ => none
  | .call c s k =>
    match (k s (answer c)).eval answer with
    | some (tr, s', a) => some (⟨c, s, answer c, s⟩ :: tr, s', a)
    | none => none

/-- Evaluation is a run of every environment that may answer so. -/
lemma Res.eval_completes {E : Env σ κ ρ} {answer : κ → ρ} (hE : ∀ c s, E c s (answer c) s)
    {t : Res σ ε κ ρ α} {tr : List (Exchange σ κ ρ)} {s : σ} {a : α}
    (h : t.eval answer = some (tr, s, a)) : Completes E t tr s a := by
  induction t generalizing tr with
  | done s' a' =>
    simp only [Res.eval, Option.some.injEq, Prod.mk.injEq] at h
    obtain ⟨rfl, rfl, rfl⟩ := h
    exact .done
  | revert e => simp [Res.eval] at h
  | call c s' k ih =>
    simp only [Res.eval] at h
    split at h
    · rename_i tr' s'' a' hk
      simp only [Option.some.injEq, Prod.mk.injEq] at h
      obtain ⟨rfl, rfl, rfl⟩ := h
      exact .call (hE c s') (ih _ _ hk)
    · simp at h

/-! ## Weakest preconditions -/

/-- The postcondition `Q` holds at completion and the guarantee `G` at every request, provided the
environment keeps to `R`. -/
def Res.wp (G : κ → σ → Prop) (R : Env σ κ ρ) (Q : σ → α → Prop) : Res σ ε κ ρ α → Prop
  | .done s a => Q s a
  | .revert _ => True
  | .call c s k => G c s ∧ ∀ r s', R c s r s' → (k s' r).wp G R Q

variable {G : κ → σ → Prop} {R : Env σ κ ρ} {Q : σ → α → Prop}

/-- A result that is done satisfies what holds of its value. -/
@[simp] lemma Res.wp_done {s : σ} {a : α} :
    (Res.done s a : Res σ ε κ ρ α).wp G R Q ↔ Q s a := Iff.rfl

/-- A reverted one satisfies everything. -/
@[simp] lemma Res.wp_revert {e : ε} : (Res.revert e : Res σ ε κ ρ α).wp G R Q ↔ True := Iff.rfl

/-- The precondition of a sequence. -/
lemma Res.wp_bind {t : Res σ ε κ ρ α} {f : σ → α → Res σ ε κ ρ β} {Q : σ → β → Prop} :
    (t.bind f).wp G R Q ↔ t.wp G R fun s a => (f s a).wp G R Q := by
  induction t with
  | done s a => exact Iff.rfl
  | revert e => exact Iff.rfl
  | call c s k ih =>
    simp only [Res.bind, Res.wp]
    exact and_congr_right fun _ => forall_congr' fun r => forall_congr' fun s' =>
      imp_congr_right fun _ => ih s' r

/-- The precondition of a sub-transaction started in `s₀`: a revert ends in `s₀`. -/
lemma Res.wp_rollback {s₀ : σ} {t : Res σ ε κ ρ α} {Q : σ → Except ε α → Prop}
    (hok : t.wp G R fun s a => Q s (.ok a)) (herr : ∀ e, Q s₀ (.error e)) :
    (t.rollback s₀).wp G R Q := by
  induction t with
  | done s a => exact hok
  | revert e => exact herr e
  | call c s k ih => exact ⟨hok.1, fun r s' hR => ih s' r (hok.2 r s' hR)⟩

/-- Weakening the postcondition. -/
lemma Res.wp_mono {t : Res σ ε κ ρ α} {Q Q' : σ → α → Prop} (hQ : ∀ s a, Q s a → Q' s a)
    (h : t.wp G R Q) : t.wp G R Q' := by
  induction t with
  | done s a => exact hQ s a h
  | revert e => trivial
  | call c s k ih => exact ⟨h.1, fun r s' hR => ih s' r (h.2 r s' hR)⟩

/-- What holds of the result in every environment holds in this one too. -/
lemma Res.wp_and_returns {t : Res σ ε κ ρ α} {Q' : σ → α → Prop} (h : t.wp G R Q)
    (h' : t.wp (fun _ _ => True) (fun _ _ _ _ => True) Q') :
    t.wp G R fun s a => Q s a ∧ Q' s a := by
  induction t with
  | done s a => exact ⟨h, h'⟩
  | revert e => trivial
  | call c s k ih => exact ⟨h.1, fun r s' hR => ih s' r (h.2 r s' hR) (h'.2 r s' trivial)⟩

/-- The specification that says nothing. -/
lemma Res.wp_trivial (t : Res σ ε κ ρ α) :
    t.wp (fun _ _ => True) R fun _ _ => True := by
  induction t with
  | done s a => trivial
  | revert e => trivial
  | call c s k ih => exact ⟨trivial, fun r s' _ => ih s' r⟩

/-- A run against an environment that keeps to the rely establishes the postcondition. -/
lemma Res.wp_completes {E : Env σ κ ρ} {t : Res σ ε κ ρ α} {tr : List (Exchange σ κ ρ)}
    {s : σ} {a : α} (hE : ∀ c s r s', G c s → E c s r s' → R c s r s')
    (h : Completes E t tr s a) (hwp : t.wp G R Q) : Q s a := by
  induction h with
  | done => exact hwp
  | call he _ ih => exact ih (hwp.2 _ _ (hE _ _ _ _ hwp.1 he))

/-- The postcondition of a run, the environment being its own rely. -/
lemma Completes.post {E : Env σ κ ρ} {t : Res σ ε κ ρ α} {tr : List (Exchange σ κ ρ)}
    {s : σ} {a : α} (h : Completes E t tr s a) (hwp : t.wp (fun _ _ => True) E Q) : Q s a :=
  Res.wp_completes (fun _ _ _ _ _ h => h) h hwp

/-- Every exchange of a run satisfies guarantee and rely. -/
lemma Res.wp_exchanges {E : Env σ κ ρ} {t : Res σ ε κ ρ α} {tr : List (Exchange σ κ ρ)}
    {s : σ} {a : α} (hE : ∀ c s r s', G c s → E c s r s' → R c s r s')
    (h : Completes E t tr s a) (hwp : t.wp G R Q) :
    ∀ x ∈ tr, G x.request x.before ∧ R x.request x.before x.reply x.after := by
  induction h with
  | done => simp
  | call he _ ih =>
    have hR := hE _ _ _ _ hwp.1 he
    intro x hx
    cases hx with
    | head => exact ⟨hwp.1, hR⟩
    | tail _ hx => exact ih (hwp.2 _ _ hR) x hx

/-- Every exchange of a reverted run satisfies guarantee and rely. -/
lemma Res.wp_reverts {E : Env σ κ ρ} {t : Res σ ε κ ρ α} {tr : List (Exchange σ κ ρ)}
    (hE : ∀ c s r s', G c s → E c s r s' → R c s r s')
    (h : Reverts E t tr) (hwp : t.wp G R Q) :
    ∀ x ∈ tr, G x.request x.before ∧ R x.request x.before x.reply x.after := by
  induction h with
  | revert => simp
  | call he _ ih =>
    have hR := hE _ _ _ _ hwp.1 he
    intro x hx
    cases hx with
    | head => exact ⟨hwp.1, hR⟩
    | tail _ hx => exact ih (hwp.2 _ _ hR) x hx

/-! ### Rules for programs -/

namespace Prog

variable {m m' : Prog σ ε κ ρ α} {s : σ}

/-- The precondition of a value. -/
@[simp] lemma wp_pure {a : α} : ((pure a : Prog σ ε κ ρ α) s).wp G R Q ↔ Q s a := Iff.rfl

/-- The precondition of a sequence is that of its first part for that of its second. -/
@[simp] lemma wp_bind {f : α → Prog σ ε κ ρ β} {Q : σ → β → Prop} :
    ((m >>= f) s).wp G R Q ↔ (m s).wp G R fun s' a => (f a s').wp G R Q := Res.wp_bind

/-- The precondition of a mapped program. -/
@[simp] lemma wp_map {f : α → β} {Q : σ → β → Prop} :
    ((f <$> m) s).wp G R Q ↔ (m s).wp G R fun s' a => Q s' (f a) := Res.wp_bind

/-- The precondition of reading. -/
@[simp] lemma wp_get {Q : σ → σ → Prop} : ((get : Prog σ ε κ ρ σ) s).wp G R Q ↔ Q s s := Iff.rfl

/-- The precondition of writing. -/
@[simp] lemma wp_modify {f : σ → σ} {Q : σ → Unit → Prop} :
    ((modify f : Prog σ ε κ ρ Unit) s).wp G R Q ↔ Q (f s) () := Iff.rfl

/-- An error needs nothing. -/
@[simp] lemma wp_throw {e : ε} : ((throw e : Prog σ ε κ ρ α) s).wp G R Q ↔ True := Iff.rfl

/-- A request must be allowed, and everything the environment may answer must do. -/
@[simp] lemma wp_request {c : κ} {Q : σ → ρ → Prop} :
    ((request c : Prog σ ε κ ρ ρ) s).wp G R Q ↔ G c s ∧ ∀ r s', R c s r s' → Q s' r := Iff.rfl

/-- What follows a condition may assume it. -/
@[simp] lemma wp_require {p : Prop} [Decidable p] {e : ε} {Q : σ → Unit → Prop} :
    ((require p e : Prog σ ε κ ρ Unit) s).wp G R Q ↔ (p → Q s ()) := by
  by_cases h : p <;> simp [require, h]

/-- What follows a fallible value may assume that there is one. -/
@[simp] lemma wp_ofExcept {x : Except ε α} :
    ((ofExcept x : Prog σ ε κ ρ α) s).wp G R Q ↔ ∀ a, x = .ok a → Q s a := by
  cases x with
  | error e => simp [ofExcept]
  | ok a => simp [ofExcept]

/-- What follows an optional value may assume that there is one. -/
@[simp] lemma wp_ofOption {x : Option α} {e : ε} :
    ((ofOption e x : Prog σ ε κ ρ α) s).wp G R Q ↔ ∀ a, x = some a → Q s a := by
  cases x with
  | none => simp [ofOption]
  | some a => simp [ofOption]

/-- Each branch may assume its condition. -/
@[simp] lemma wp_ite {p : Prop} [Decidable p] :
    ((if p then m else m') s).wp G R Q ↔ (p → (m s).wp G R Q) ∧ (¬ p → (m' s).wp G R Q) := by
  by_cases h : p <;> simp [h]

/-- A sub-transaction establishes what holds after success, and at its start for a failure. -/
lemma wp_attempt {Q : σ → Except ε α → Prop} (hok : (m s).wp G R fun s' a => Q s' (.ok a))
    (herr : ∀ e, Q s (.error e)) : ((attempt m) s).wp G R Q :=
  Res.wp_rollback hok herr

/-- Every value the program returns satisfies `V`, whatever the environment does. -/
def Returns (m : Prog σ ε κ ρ α) (V : α → Prop) : Prop :=
  ∀ s, (m s).wp (fun _ _ => True) (fun _ _ _ _ => True) fun _ a => V a

namespace Returns

variable {V : α → Prop}

/-- A value returns itself. -/
lemma pure {a : α} (h : V a) : Returns (Pure.pure a : Prog σ ε κ ρ α) V := fun _ => h

/-- A fallible value returns what it is. -/
lemma ofExcept {x : Except ε α} (h : ∀ a, x = .ok a → V a) :
    Returns (Prog.ofExcept x : Prog σ ε κ ρ α) V := fun _ => wp_ofExcept.mpr h

/-- A condition that is passed holds. -/
lemma require {p : Prop} [Decidable p] {e : ε} :
    Returns (Prog.require p e : Prog σ ε κ ρ Unit) fun _ => p := fun _ => wp_require.mpr id

/-- Every program returns something. -/
lemma trivial (m : Prog σ ε κ ρ α) : Returns m fun _ => True := fun s => Res.wp_trivial (m s)

/-- A sequence returns what its second part returns, given what the first one does. -/
lemma bind {f : α → Prog σ ε κ ρ β} {W : β → Prop} (hm : Returns m V)
    (hf : ∀ a, V a → Returns (f a) W) : Returns (m >>= f) W := by
  intro s
  rw [wp_bind]
  exact Res.wp_mono (fun s' a ha => hf a ha s') (hm s)

/-- Whatever came before. -/
lemma after {f : α → Prog σ ε κ ρ β} {W : β → Prop} (hf : ∀ a, Returns (f a) W) :
    Returns (m >>= f) W := bind (trivial m) fun a _ => hf a

/-- An attempt that succeeds returns what the program returns. -/
lemma attempt (h : Returns m V) : Returns (Prog.attempt m) fun r => ∀ a, r = .ok a → V a := by
  intro s
  refine wp_attempt (Res.wp_mono ?_ (h s)) ?_
  · rintro s' a ha b hb
    cases hb
    exact ha
  · intro e a ha
    cases ha

end Returns

end Prog

/-! ### Inversion of runs -/

namespace Completes

variable {E : Env σ κ ρ} {tr : List (Exchange σ κ ρ)} {s s' : σ} {b : β}

/-- A completed run that starts with a read goes on with the state. -/
lemma get_bind {f : σ → Prog σ ε κ ρ β} (h : Completes E ((Prog.get >>= f) s) tr s' b) :
    Completes E (f s s) tr s' b := h

/-- One that starts with a write goes on with the new state. -/
lemma modify_bind {g : σ → σ} {f : Unit → Prog σ ε κ ρ β}
    (h : Completes E ((Prog.modify g >>= f) s) tr s' b) : Completes E (f () (g s)) tr s' b := h

/-- One that starts with a condition has it. -/
lemma require_bind {p : Prop} [Decidable p] {e : ε} {f : Unit → Prog σ ε κ ρ β}
    (h : Completes E ((Prog.require p e >>= f) s) tr s' b) :
    p ∧ Completes E (f () s) tr s' b := by
  by_cases hp : p
  · simp only [Prog.require, if_pos hp] at h
    exact ⟨hp, h⟩
  · simp only [Prog.require, if_neg hp] at h
    exact h.revert_inv.elim

/-- One that starts with a fallible value has the value. -/
lemma ofExcept_bind {x : Except ε α} {f : α → Prog σ ε κ ρ β}
    (h : Completes E ((Prog.ofExcept x >>= f) s) tr s' b) :
    ∃ a, x = .ok a ∧ Completes E (f a s) tr s' b := by
  cases x with
  | ok a => exact ⟨a, rfl, h⟩
  | error e => exact h.revert_inv.elim

/-- One that starts with an optional value has the value. -/
lemma ofOption_bind {x : Option α} {e : ε} {f : α → Prog σ ε κ ρ β}
    (h : Completes E ((Prog.ofOption e x >>= f) s) tr s' b) :
    ∃ a, x = some a ∧ Completes E (f a s) tr s' b := by
  cases x with
  | some a => exact ⟨a, rfl, h⟩
  | none => exact h.revert_inv.elim

/-- A completed condition holds and changes nothing. -/
lemma require_inv {p : Prop} [Decidable p] {e : ε} {a : Unit}
    (h : Completes E ((Prog.require p e : Prog σ ε κ ρ Unit) s) tr s' a) :
    p ∧ tr = [] ∧ s' = s := by
  have hdone : Completes E (((Prog.require p e : Prog σ ε κ ρ Unit) >>= fun _ => pure ()) s)
      (tr ++ []) s' () := h.bind .done
  obtain ⟨hp, h⟩ := require_bind hdone
  simp only [List.append_nil] at h
  exact ⟨hp, h.done_inv.1, h.done_inv.2.1⟩

/-- A completed run that starts with a request has its exchange first. -/
lemma request_bind {c : κ} {f : ρ → Prog σ ε κ ρ β}
    (h : Completes E ((Prog.request c >>= f) s) tr s' b) :
    ∃ r s₁ tr', tr = ⟨c, s, r, s₁⟩ :: tr' ∧ E c s r s₁ ∧ Completes E (f r s₁) tr' s' b := by
  cases h with
  | call hE hk => exact ⟨_, _, _, rfl, hE, hk⟩

end Completes

/-- So has a reverted one. -/
lemma Reverts.request_bind {E : Env σ κ ρ} {tr : List (Exchange σ κ ρ)} {s : σ} {c : κ}
    {f : ρ → Prog σ ε κ ρ β} (h : Reverts E ((Prog.request c >>= f) s) tr) :
    ∃ r s₁ tr', tr = ⟨c, s, r, s₁⟩ :: tr' ∧ Reverts E (f r s₁) tr' := by
  cases h with
  | call hE hk => exact ⟨_, _, _, rfl, hk⟩

/-! ## Disciplines -/

/-- A rely-guarantee specification that programs can be composed under: an invariant, a guarantee
given at every request, what the environment may do, and a relation from the start of a program to
its end. -/
structure Discipline (σ κ ρ : Type) where
  Inv : σ → Prop
  Guar : κ → σ → Prop
  env : Env σ κ ρ
  Rel : σ → σ → Prop
  refl : ∀ s, Rel s s
  trans : ∀ {s₁ s₂ s₃}, Rel s₁ s₂ → Rel s₂ s₃ → Rel s₁ s₃
  sound : ∀ {c s r s'}, Inv s → env c s r s' → Inv s' ∧ Rel s s'

/-- A state change the discipline allows. -/
def Discipline.Allows (D : Discipline σ κ ρ) (s s' : σ) : Prop := D.Inv s → D.Inv s' ∧ D.Rel s s'

/-- A program that follows a discipline. -/
def Discipline.Keeps (D : Discipline σ κ ρ) (m : Prog σ ε κ ρ α) : Prop :=
  ∀ s, D.Inv s → (m s).wp D.Guar D.env fun s' _ => D.Inv s' ∧ D.Rel s s'

namespace Discipline.Keeps

variable {D : Discipline σ κ ρ} {m m' : Prog σ ε κ ρ α}

/-- A value keeps the discipline. -/
lemma pure (a : α) : D.Keeps (Pure.pure a : Prog σ ε κ ρ α) := fun s hs => ⟨hs, D.refl s⟩

/-- So does a sequence of programs that do. -/
lemma bind {f : α → Prog σ ε κ ρ β} (hm : D.Keeps m) (hf : ∀ a, D.Keeps (f a)) :
    D.Keeps (m >>= f) := by
  intro s hs
  rw [Prog.wp_bind]
  refine Res.wp_mono ?_ (hm s hs)
  intro s₁ a h₁
  refine Res.wp_mono ?_ (hf a s₁ h₁.1)
  intro s₂ b h₂
  exact ⟨h₂.1, D.trans h₁.2 h₂.2⟩

/-- So does reading. -/
lemma get : D.Keeps (Prog.get : Prog σ ε κ ρ σ) := fun s hs => ⟨hs, D.refl s⟩

/-- So does an error. -/
lemma throw (e : ε) : D.Keeps (Prog.throw e : Prog σ ε κ ρ α) := fun _ _ => trivial

/-- So does a condition. -/
lemma require (p : Prop) [Decidable p] (e : ε) :
    D.Keeps (Prog.require p e : Prog σ ε κ ρ Unit) := by
  intro s hs
  rw [Prog.wp_require]
  exact fun _ => ⟨hs, D.refl s⟩

/-- So does a fallible value. -/
lemma ofExcept (x : Except ε α) : D.Keeps (Prog.ofExcept x : Prog σ ε κ ρ α) := by
  intro s hs
  rw [Prog.wp_ofExcept]
  exact fun _ _ => ⟨hs, D.refl s⟩

/-- So does an optional value. -/
lemma ofOption (e : ε) (x : Option α) : D.Keeps (Prog.ofOption e x : Prog σ ε κ ρ α) := by
  intro s hs
  rw [Prog.wp_ofOption]
  exact fun _ _ => ⟨hs, D.refl s⟩

/-- A request keeps the discipline if its guarantee follows from the invariant. -/
lemma request {c : κ} (h : ∀ s, D.Inv s → D.Guar c s) :
    D.Keeps (Prog.request c : Prog σ ε κ ρ ρ) := by
  intro s hs
  rw [Prog.wp_request]
  exact ⟨h s hs, fun _ _ he => D.sound hs he⟩

/-- A write keeps it if it is allowed. -/
lemma modify {f : σ → σ} (hf : ∀ s, D.Allows s (f s)) :
    D.Keeps (Prog.modify f : Prog σ ε κ ρ Unit) := fun s hs => hf s hs

/-- Both branches must. -/
lemma ite {p : Prop} [Decidable p] (h : D.Keeps m) (h' : D.Keeps m') :
    D.Keeps (if p then m else m') := by
  split
  · exact h
  · exact h'

/-- A run in which the environment answered as the discipline assumes. -/
lemma completes {E : Env σ κ ρ} {tr : List (Exchange σ κ ρ)} {s s' : σ} {a : α} (h : D.Keeps m)
    (hs : D.Inv s) (hc : Completes E (m s) tr s' a)
    (henv : ∀ x ∈ tr, D.Guar x.request x.before →
      D.env x.request x.before x.reply x.after) : D.Inv s' ∧ D.Rel s s' := by
  refine Res.wp_completes (Q := fun s' _ => D.Inv s' ∧ D.Rel s s') ?_ hc.restrict (h s hs)
  rintro c t r t' hg ⟨-, hmem⟩
  exact henv _ hmem hg

/-- Nothing else than in the whole transaction can happen in a sub-transaction. -/
lemma attempt (h : D.Keeps m) : D.Keeps (Prog.attempt m) :=
  fun s hs => Prog.wp_attempt (h s hs) fun _ => ⟨hs, D.refl s⟩

/-- What a program returns may be used by the one that follows. -/
lemma bind_returns {f : α → Prog σ ε κ ρ β} {V : α → Prop} (hm : D.Keeps m) (hv : m.Returns V)
    (hf : ∀ a, V a → D.Keeps (f a)) : D.Keeps (m >>= f) := by
  intro s hs
  rw [Prog.wp_bind]
  refine Res.wp_mono ?_ (Res.wp_and_returns (hm s hs) (hv s))
  rintro s₁ a ⟨h₁, ha⟩
  refine Res.wp_mono ?_ (hf a ha s₁ h₁.1)
  intro s₂ b h₂
  exact ⟨h₂.1, D.trans h₁.2 h₂.2⟩

end Discipline.Keeps

end Resumption
