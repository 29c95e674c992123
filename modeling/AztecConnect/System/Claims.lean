import AztecConnect.Circuit.Claim
import AztecConnect.Client.DefiTxs
import Mathlib.Algebra.Order.BigOperators.Group.List

/-!
# Claims

The claims of an interaction pay out no more than its outputs (`sum_outputs_le`), and the rollup
provider and the client compute the outputs that the circuit accepts (`claims_settle`).
-/

namespace AztecConnect.System

open AztecConnect.Circuit (ClaimTx InnerProof Primitives DefiInteractionNoteTx)

variable {H : Primitives}

/-! ## The claims of an interaction -/

/-- Shares that are rounded down add up to no more than the whole. -/
lemma sum_shares_le {total : Nat} (out : Nat) (hpos : 0 < total) (deposits : List Nat)
    (h : deposits.sum ≤ total) : (deposits.map fun d => d * out / total).sum ≤ out := by
  have hsum : (deposits.map fun d => d * out / total).sum * total ≤ deposits.sum * out := by
    clear h
    induction deposits with
    | nil => simp
    | cons d ds ih =>
      rw [List.map_cons, List.sum_cons, List.sum_cons, Nat.add_mul, Nat.add_mul]
      exact Nat.add_le_add (Nat.div_mul_le_self _ _) ih
  have hle : (deposits.map fun d => d * out / total).sum * total ≤ out * total :=
    calc (deposits.map fun d => d * out / total).sum * total
      _ ≤ deposits.sum * out := hsum
      _ ≤ total * out := Nat.mul_le_mul_right out h
      _ = out * total := Nat.mul_comm total out
  exact Nat.le_of_mul_le_mul_right hle hpos

/-- The deposits of claims. -/
def deposits (claims : List (ClaimTx H)) : List Nat := claims.map (·.claimNote.depositValue.val)

/-- An event is that of the interaction of a note in the defi tree. -/
structure EventOf (note : DefiInteractionNoteTx) (event : Client.DefiInteractionNote) : Prop where
  nonce : event.nonce = note.interactionNonce.val
  totalInputValue : event.totalInputValue = note.totalInputValue.val
  totalOutputValueA : event.totalOutputValueA = note.totalOutputValueA.val
  totalOutputValueB : event.totalOutputValueB = note.totalOutputValueB.val
  result : event.result = note.interactionResult

/-- The outputs of a claim are its shares of those of the interaction, rounded down. -/
structure Shares (tx : ClaimTx H) (note : DefiInteractionNoteTx) : Prop where
  deposit_pos : 0 < tx.claimNote.depositValue.val
  deposit_le : tx.claimNote.depositValue.val ≤ note.totalInputValue.val
  outputValueA : tx.outputValueA.val =
    tx.claimNote.depositValue.val * note.totalOutputValueA.val / note.totalInputValue.val
  outputValueB : tx.outputValueB.val =
    tx.claimNote.depositValue.val * note.totalOutputValueB.val / note.totalInputValue.val

/-- An accepted claim gets its floor shares. -/
lemma shares_of_accepted {tx : ClaimTx H} {proof : InnerProof}
    (h : Circuit.claimCircuit H tx proof) : Shares tx tx.defiInteractionNote := by
  have ha := Circuit.claimCircuit_spec tx proof h
  exact ⟨ha.deposit_pos, ha.deposit_le, ha.outputValueA, ha.outputValueB⟩

/-- Claims of deposits that add up to no more than the input. -/
lemma sum_outputs_le {note : DefiInteractionNoteTx} {claims : List (ClaimTx H)}
    (h : ∀ tx ∈ claims, Shares tx note) (hsum : (deposits claims).sum ≤ note.totalInputValue.val) :
    (claims.map (·.outputValueA.val)).sum ≤ note.totalOutputValueA.val ∧
      (claims.map (·.outputValueB.val)).sum ≤ note.totalOutputValueB.val := by
  cases claims with
  | nil => exact ⟨Nat.zero_le _, Nat.zero_le _⟩
  | cons tx txs =>
    have htx := h tx List.mem_cons_self
    have hpos : 0 < note.totalInputValue.val := htx.deposit_pos.trans_le htx.deposit_le
    have hA := sum_shares_le note.totalOutputValueA.val hpos (deposits (tx :: txs)) hsum
    have hB := sum_shares_le note.totalOutputValueB.val hpos (deposits (tx :: txs)) hsum
    rw [deposits, List.map_map] at hA hB
    rw [List.map_congr_left fun t ht => (h t ht).outputValueA,
      List.map_congr_left fun t ht => (h t ht).outputValueB]
    exact ⟨hA, hB⟩

/-! ## The clients -/

section

variable {tx : ClaimTx H} {note : DefiInteractionNoteTx} {event : Client.DefiInteractionNote}

/-- The client computes the share of the first asset, -/
lemma share_eqA (hs : Shares tx note) (he : EventOf note event) :
    Client.share event event.totalOutputValueA tx.claimNote.depositValue.val =
      tx.outputValueA.val := by
  rw [hs.outputValueA, Client.share, he.totalOutputValueA, he.totalInputValue, Nat.mul_comm]

/-- and that of the second. -/
lemma share_eqB (hs : Shares tx note) (he : EventOf note event) :
    Client.share event event.totalOutputValueB tx.claimNote.depositValue.val =
      tx.outputValueB.val := by
  rw [hs.outputValueB, Client.share, he.totalOutputValueB, he.totalInputValue, Nat.mul_comm]

/-- The outputs that the rollup provider proves. -/
lemma getOutputValues_accepted (hs : Shares tx note) (he : EventOf note event)
    (hr : note.interactionResult = true) {claimNote : Client.TreeClaimNote}
    (hv : claimNote.value = tx.claimNote.depositValue.val) :
    Client.getOutputValues claimNote event = .ok (tx.outputValueA.val, tx.outputValueB.val) := by
  have hpos : 0 < event.totalInputValue := by
    rw [he.totalInputValue]
    exact hs.deposit_pos.trans_le hs.deposit_le
  rw [Client.getOutputValues_eq (he.result.trans hr) hpos, hv, share_eqA hs he, share_eqB hs he]

/-- The values that the SDK credits. -/
lemma credits_accepted (hs : Shares tx note) (he : EventOf note event)
    (hr : note.interactionResult = true) {vpc : Nat → Nat → Bool → Nat}
    {proof : Client.InnerProofData} (st : Client.Settlement vpc event proof.nullifier1)
    (hv : st.defiTx.depositValue = tx.claimNote.depositValue.val) (noteStartIndex : Nat) :
    ∃ notes, (st.db.handleClaimTx vpc proof noteStartIndex).unspentNotes =
        st.db.unspentNotes ++ notes ∧
      Client.entries notes = [(noteStartIndex, tx.outputValueA.val),
        (noteStartIndex + 1, tx.outputValueB.val)].filter (·.2 ≠ 0) := by
  have h := st.credits (he.result.trans hr) noteStartIndex
  rw [hv, share_eqA hs he, share_eqB hs he] at h
  exact h

end

/-- Claims of an interaction: each has its shares of the outputs, together they have no more than the
outputs, and the rollup provider and the SDK compute the same values. -/
theorem claims_settle {note : DefiInteractionNoteTx} {claims : List (ClaimTx H)}
    (hclaims : ∀ tx ∈ claims, tx.defiInteractionNote = note ∧
      ∃ proof, Circuit.claimCircuit H tx proof) :
    (∀ tx ∈ claims, Shares tx note) ∧
    ((deposits claims).sum ≤ note.totalInputValue.val →
      (claims.map (·.outputValueA.val)).sum ≤ note.totalOutputValueA.val ∧
      (claims.map (·.outputValueB.val)).sum ≤ note.totalOutputValueB.val) ∧
    (∀ tx ∈ claims, ∀ event, EventOf note event → note.interactionResult = true →
      (∀ claimNote : Client.TreeClaimNote, claimNote.value = tx.claimNote.depositValue.val →
        Client.getOutputValues claimNote event =
          .ok (tx.outputValueA.val, tx.outputValueB.val)) ∧
      (∀ (vpc : Nat → Nat → Bool → Nat) (proof : Client.InnerProofData)
        (st : Client.Settlement vpc event proof.nullifier1) (noteStartIndex : Nat),
        st.defiTx.depositValue = tx.claimNote.depositValue.val →
        ∃ notes, (st.db.handleClaimTx vpc proof noteStartIndex).unspentNotes =
            st.db.unspentNotes ++ notes ∧
          Client.entries notes = [(noteStartIndex, tx.outputValueA.val),
            (noteStartIndex + 1, tx.outputValueB.val)].filter (·.2 ≠ 0))) := by
  have hshares : ∀ tx ∈ claims, Shares tx note := by
    intro tx htx
    obtain ⟨hnote, proof, hproof⟩ := hclaims tx htx
    exact hnote ▸ shares_of_accepted hproof
  refine ⟨hshares, sum_outputs_le hshares, fun tx htx event he hr => ⟨?_, ?_⟩⟩
  · exact fun claimNote hv => getOutputValues_accepted (hshares tx htx) he hr hv
  · exact fun vpc proof st i hv => credits_accepted (hshares tx htx) he hr st hv i

open Circuit.SampleClaim in
/-- A claim of 3 out of 7. -/
theorem claims_settle_sample : Shares tx noteTx ∧
    tx.outputValueA.val ≤ noteTx.totalOutputValueA.val := by
  have h := @claims_settle primitives noteTx [tx] fun tx htx => by
    cases List.mem_singleton.mp htx
    exact ⟨rfl, proof, accepted⟩
  exact ⟨h.1 _ List.mem_cons_self, (h.2.1 (by decide +kernel)).1⟩

end AztecConnect.System
