import AztecConnect.Contract.Phases

/-!
# The interactions of an accepted rollup

The loop of `processBridgeCalls` as a pass over a list: the bridge calls of the header up to the first
empty entry, the `j`-th under the nonce `rollupId * 32 + j` (`V2.mem_interactions_iff`). An accepted
rollup executes them in turn (`RollupPhases.executes`).
-/

namespace AztecConnect.Contract

open Resumption

variable {P : Params} {E : Env State ExternalCall Reply} {x : Context} {c : RollupCall} {s s' : State}
  {tr : Trace}

/-! ## The passes of the loop -/

/-- The passes from index `i` on: the index and the nonce of each. -/
def V2.passes (proofData : ProofData) : (n i : Nat) → (interactionNonce : Word) → List (Nat × Word)
  | 0, _, _ => []
  | n + 1, i, interactionNonce =>
    if proofData.bridgeCallData i = 0 then []
    else (i, interactionNonce) :: V2.passes proofData n (i + 1) (interactionNonce + 1)

/-- What one pass executes. -/
def V2.pass (P : Params) (x : Context) (rollupBeneficiary : Address) (proofData : ProofData)
    (length : Word) (interaction : Nat × Word) : Program Word :=
  V2.processBridgeCall P x rollupBeneficiary (proofData.bridgeCallData interaction.1)
    (proofData.depositSum interaction.1) interaction.2 length

/-- The bridge calls that a rollup executes. -/
def V2.interactions (proofData : ProofData) : List (Nat × Word) :=
  match firstInteractionNonce proofData with
  | .ok interactionNonce => V2.passes proofData NUMBER_OF_BRIDGE_CALLS 0 interactionNonce
  | .error _ => []

/-- The loop over the bridge calls, as a fold over its passes. -/
lemma V2.bridgeCallLoop_eq (b : Address) (p : ProofData) (n i : Nat) (nonce length : Word) :
    V2.bridgeCallLoop P x b p n i nonce length =
      (V2.passes p n i nonce).foldlM (V2.pass P x b p) length := by
  induction n generalizing i nonce length with
  | zero => rfl
  | succ n ih =>
    rw [V2.bridgeCallLoop, V2.passes]
    split
    case isTrue => rfl
    case isFalse =>
      rw [List.foldlM_cons]
      exact congrArg (_ >>= ·) (funext fun length' => ih (i + 1) (nonce + 1) length')

/-- A pass for each slot before the first zero entry, with consecutive nonces. -/
lemma V2.mem_passes_iff {p : ProofData} {n i : Nat} {nonce : Word} {j : Nat} {nonce' : Word} :
    (j, nonce') ∈ V2.passes p n i nonce ↔
      ∃ d < n, j = i + d ∧ nonce' = nonce + BitVec.ofNat 256 d ∧
        ∀ k ≤ d, p.bridgeCallData (i + k) ≠ 0 := by
  induction n generalizing i nonce with
  | zero => exact ⟨fun h => absurd h List.not_mem_nil, fun ⟨_, hd, _⟩ => absurd hd (Nat.not_lt_zero _)⟩
  | succ n ih =>
    rw [V2.passes]
    split
    case isTrue hzero =>
      refine ⟨fun h => absurd h List.not_mem_nil, ?_⟩
      rintro ⟨d, -, -, -, hne⟩
      exact absurd hzero (hne 0 (Nat.zero_le d))
    case isFalse hne =>
      rw [List.mem_cons, Prod.mk.injEq, ih]
      constructor
      · rintro (⟨rfl, rfl⟩ | ⟨d, hd, rfl, rfl, hnonzero⟩)
        · refine ⟨0, Nat.succ_pos n, rfl, (BitVec.add_zero _).symm, fun k hk => ?_⟩
          rw [Nat.le_zero.mp hk]
          exact hne
        · refine ⟨d + 1, Nat.succ_lt_succ hd, by omega, ?_, fun k hk => ?_⟩
          · rw [BitVec.add_assoc, Nat.add_comm d 1, BitVec.ofNat_add]
            rfl
          · cases k with
            | zero => exact hne
            | succ k =>
              rw [Nat.add_comm k 1, ← Nat.add_assoc]
              exact hnonzero k (Nat.le_of_succ_le_succ hk)
      · rintro ⟨d, hd, rfl, rfl, hnonzero⟩
        cases d with
        | zero => exact .inl ⟨rfl, BitVec.add_zero _⟩
        | succ d =>
          refine .inr ⟨d, Nat.lt_of_succ_lt_succ hd, by omega, ?_, fun k hk => ?_⟩
          · rw [BitVec.add_assoc, Nat.add_comm d 1, BitVec.ofNat_add]
            rfl
          · rw [Nat.add_assoc, Nat.add_comm 1 k]
            exact hnonzero (k + 1) (Nat.succ_le_succ hk)

/-- The nonces do not wrap around. -/
lemma V2.mem_interactions_iff {p : ProofData} {nonce₀ : Word}
    (hfirst : firstInteractionNonce p = .ok nonce₀) {j : Nat} {nonce : Word} :
    (j, nonce) ∈ V2.interactions p ↔ j < NUMBER_OF_BRIDGE_CALLS ∧
      nonce.toNat = p.getRollupId.toNat * NUMBER_OF_BRIDGE_CALLS + j ∧
      ∀ k ≤ j, p.bridgeCallData k ≠ 0 := by
  have hvalue : ∀ d < NUMBER_OF_BRIDGE_CALLS, (nonce₀ + BitVec.ofNat 256 d).toNat =
      p.getRollupId.toNat * NUMBER_OF_BRIDGE_CALLS + d := by
    intro d hd
    unfold firstInteractionNonce at hfirst
    split at hfirst
    case isTrue => nomatch hfirst
    case isFalse hlt =>
      cases hfirst
      unfold NUMBER_OF_BRIDGE_CALLS at hlt hd ⊢
      rw [BitVec.toNat_add, BitVec.toNat_mul, BitVec.toNat_ofNat, BitVec.toNat_ofNat]
      omega
  rw [V2.interactions, hfirst, V2.mem_passes_iff]
  constructor
  · rintro ⟨d, hd, rfl, rfl, hnonzero⟩
    rw [Nat.zero_add]
    exact ⟨hd, hvalue d hd, fun k hk => Nat.zero_add k ▸ hnonzero k hk⟩
  · rintro ⟨hj, hnonce, hnonzero⟩
    refine ⟨j, hj, (Nat.zero_add j).symm, BitVec.eq_of_toNat_eq (hnonce.trans (hvalue j hj).symm),
      fun k hk => ?_⟩
    rw [Nat.zero_add]
    exact hnonzero k hk

/-- The passes of an accepted rollup. -/
lemma RollupPhases.executes (ph : RollupPhases P E x c s tr s') :
    (∃ nonce, firstInteractionNonce ph.proofData = .ok nonce) ∧
    ∃ length before passed after length', passed <:+: ph.bridgeTrace ∧
      Completes E ((V2.interactions ph.proofData).foldlM (V2.pass P x ph.beneficiary ph.proofData)
        length before) passed after length' := by
  obtain ⟨popped, rest, before, length, htrace, -, hrest⟩ := Completes.bind_inv ph.bridgeCalls
  obtain ⟨nonce, hfirst, hloop⟩ := hrest.ofExcept_bind
  obtain ⟨passed, last, after, length', hrest, hpassed, -⟩ := Completes.bind_inv hloop
  refine ⟨⟨nonce, hfirst⟩, length, before, passed, after, length', ⟨popped, last, ?_⟩, ?_⟩
  · rw [htrace, hrest, List.append_assoc]
  · rw [V2.bridgeCallLoop_eq] at hpassed
    rwa [V2.interactions, hfirst]

end AztecConnect.Contract
