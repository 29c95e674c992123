import AztecConnect.Contract.Books
import AztecConnect.Contract.Disciplines
import AztecConnect.Lib.Transcript

/-!
# Deposits are conserved

`userPendingDeposits` over whole runs. The books change by what `depositPendingFunds` accepts and by
what accepted rollups consume (`consumed_balanced`). The deposits of an accepted rollup are those its
public inputs hash covers; the pending deposits are balanced with these if and only if every rollup
visits the deposits it commits to (`pendingDeposits_conserved_iff`). What an owner approved is an
invariant relative to the calls made, nested ones included (`approvals_invariant`); a rollup consumes
a deposit only if its owner approved or signed it before (`RollupPhases.authorised`).
-/

namespace AztecConnect.Contract

open Resumption Bits

variable {P : Params} {answers : ExternalCall → State → Reply → Prop} {α : Type}

/-! ## Approvals -/

/-- Every approval on record was made by one of the calls. -/
def ApprovedBy (calls : Entry → Prop) (s : State) : Prop :=
  ∀ owner digest, s.depositProofApprovals owner digest = true →
    ∃ e, calls e ∧ e.Approves owner digest

/-- Programs that approve nothing but what the calls approve. -/
def approvalDiscipline (calls : Entry → Prop) : ContractDiscipline where
  Inv := ApprovedBy calls
  Guar _ := ApprovedBy calls
  env _ _ _ := ApprovedBy calls
  Rel _ _ := True
  refl _ := trivial
  trans _ _ := trivial
  sound _ h := ⟨h, trivial⟩

section Approval

variable {calls : Entry → Prop}

/-- The one update of the approvals. -/
lemma approvals_approveProof {x : Context} {proofHash : Word}
    (h : ∃ e, calls e ∧ e.Approves x.sender proofHash) :
    (approvalDiscipline calls).Keeps (approveProof x proofHash) := by
  refine .whenNotPaused (.modify fun s hs => ⟨?_, trivial⟩)
  intro owner digest hd
  rcases eq_or_ne owner x.sender with rfl | ho
  · rcases eq_or_ne digest proofHash with rfl | hne
    · exact h
    · apply hs
      simpa [hne] using hd
  · apply hs
    simpa [ho] using hd

/-- A step that leaves the approvals alone is allowed. -/
lemma approvals_allows {s s' : State} (h : s'.depositProofApprovals = s.depositProofApprovals) :
    (approvalDiscipline calls).Allows s s' :=
  fun hs => ⟨fun o d hd => hs o d (congrFun (congrFun h o) d ▸ hd), trivial⟩

/-- Finalising an interaction approves nothing. -/
lemma approvals_finalise (x : Context) (f : Finalisation) :
    (approvalDiscipline calls).Keeps (finalise P V2.pushAsyncHash x f) := by
  have hmodify {g : State → State}
      (h : ∀ s, (g s).depositProofApprovals = s.depositProofApprovals) :
      (approvalDiscipline calls).Keeps (Prog.modify g : Program Unit) :=
    .modify fun s => approvals_allows (h s)
  have : Transfers (approvalDiscipline calls) := ⟨fun _ _ h => h⟩
  have : Pays (approvalDiscipline calls) := ⟨fun _ _ => approvals_allows rfl⟩
  refine .bind (hmodify fun _ => rfl) fun _ => .bind (.request fun _ h => h) fun _ =>
    .bind (.ofExcept _) fun _ => .ite ?_ ?_
  · exact .bind (.require _ _) fun _ => .bind (.transferResult _ _ _ _ _ _ _) fun _ =>
      .bind (.bind .get fun _ => .bind (.require _ _) fun _ => hmodify fun _ => rfl)
        fun _ => .bind (hmodify fun _ => rfl) fun _ => .pure _
  · exact .bind (hmodify fun _ => rfl) fun _ => .pure _

/-- Every entry point approves at most what the call approves. -/
lemma approvals_follow : FollowsEntries P calls (approvalDiscipline calls) where
  request _ _ h := h
  hidden h := approvals_allows h.approvals
  approveProof _ _ h := approvals_approveProof h
  recordSync _ _ := approvals_allows rfl
  finalise x _ _ _ _ := approvals_finalise x _

/-- What is approved was approved by the calls made. -/
lemma approvals_invariant : CallInvariant (V2.world P answers) ApprovedBy where
  entry he hs := Res.wp_mono (fun _ _ h => h.1) (approvals_follow.run he _ hs)

end Approval

/-! ## The deposits a rollup consumes -/

section Consumed

variable {E : Env State ExternalCall Reply} {x : Context} {c : RollupCall} {s s' : State} {tr : Trace}
  {signatures : List Byte} {n : Nat}

/-- The deposit phase stops at every transaction. -/
lemma depositsAndWithdrawals_split {ts ts' : List InnerTx} {t : InnerTx} {i : Nat}
    (h : Completes E (depositsAndWithdrawals P V2.decreasePendingDepositBalance signatures
      (ts ++ t :: ts') i s) tr s' ()) :
    ∃ tr₁ tr₂ tr₃ s₁ s₂ j k, tr = tr₁ ++ (tr₂ ++ tr₃) ∧
      Completes E (depositsAndWithdrawals P V2.decreasePendingDepositBalance signatures ts i s) tr₁
        s₁ () ∧
      Completes E (processTx P V2.decreasePendingDepositBalance signatures j t s₁) tr₂ s₂ k := by
  induction ts generalizing i s tr with
  | nil =>
    obtain ⟨tr₂, tr₃, s₂, k, rfl, h₁, -⟩ := Completes.bind_inv h
    exact ⟨[], tr₂, tr₃, s, s₂, i, k, rfl, .done, h₁⟩
  | cons t₀ ts ih =>
    obtain ⟨tr₀, tr', s₀, k₀, rfl, h₀, hrest⟩ := Completes.bind_inv h
    obtain ⟨tr₁, tr₂, tr₃, s₁, s₂, j, k, rfl, h₁, h₂⟩ := ih hrest
    exact ⟨tr₀ ++ tr₁, tr₂, tr₃, s₁, s₂, j, k, by simp, Completes.bind h₀ h₁, h₂⟩

/-- A deposit is consumed if it is approved at that moment, or signed. -/
lemma processTx_authorised {t : InnerTx} {i j : Nat} (hd : t.IsDeposit)
    (h : Completes E (processTx P V2.decreasePendingDepositBalance signatures i t s) tr s' j) :
    s.depositProofApprovals t.owner (P.keccak256 t.words) = true ∨
      P.validSignature (P.keccak256 t.words) t.owner signatures i = true := by
  simp only [processTx, hd.1, hd.2, if_true] at h
  obtain ⟨tr₁, tr₂, s₁, k, rfl, hcheck, -⟩ := Completes.bind_inv h
  exact (checkDepositApproval_completes hcheck).2.2

/-- The `i`-th transaction is a deposit that its owner signed, or approved by a call made before the
rollup came to it: in an earlier call, or nested in the exchanges of this one up to then. -/
def RollupPhases.Authorised (answers : ExternalCall → State → Reply → Prop) (earlier : History)
    (ph : RollupPhases P E x c s tr s') (i : Nat) : Prop :=
  let t := ph.proofData.slot i
  (∃ sigIndex, P.validSignature (P.keccak256 t.words) t.owner ph.signatures sigIndex = true) ∨
  ∃ tr₁ s₁, tr₁ <+: ph.depositTrace ∧
    Completes E (depositsAndWithdrawals P V2.decreasePendingDepositBalance ph.signatures
      (ph.proofData.firstSlots i) 0 ph.verified) tr₁ s₁ () ∧
    (∃ calls, (V2.world P answers).Before earlier
      (ph.providerTrace ++ ph.verifyTrace ++ tr₁) calls) ∧
    ∀ calls, (V2.world P answers).Before earlier
      (ph.providerTrace ++ ph.verifyTrace ++ tr₁) calls →
      ∃ e ∈ calls, e.Approves t.owner (P.keccak256 t.words)

/-- What is approved when the rollup comes to its `i`-th transaction. -/
lemma RollupPhases.approvedBy {s₀ s₁ : State} {earlier : History} {i : Nat} {tr₁ : Trace}
    {calls : List Entry} (ph : RollupPhases P ((V2.world P answers).env n) x c s tr s')
    (h₀ : ∀ owner digest, s₀.depositProofApprovals owner digest = false)
    (hrun : Run (V2.world P answers) s₀ earlier s)
    (hc : Completes ((V2.world P answers).env n) (depositsAndWithdrawals P
      V2.decreasePendingDepositBalance ph.signatures (ph.proofData.firstSlots i) 0 ph.verified) tr₁
      s₁ ())
    (hcalls : (V2.world P answers).Before earlier (ph.providerTrace ++ ph.verifyTrace ++ tr₁) calls) :
    ApprovedBy (· ∈ calls) s₁ := by
  obtain ⟨made, m, inner, hmade, hinner, rfl⟩ := hcalls
  obtain ⟨calls₁₂, calls₃, rfl, h₁₂, htr₃⟩ := hinner.append_inv
  obtain ⟨calls₁, calls₂, rfl, htr₁, htr₂⟩ := h₁₂.append_inv
  have hI : CallInvariant (V2.world P answers) ApprovedBy := approvals_invariant
  have hs : ApprovedBy (· ∈ made ++ (calls₁ ++ calls₂ ++ calls₃)) s := by
    apply hmade.invariant hI hrun fun e he => List.mem_append_left _ he
    intro owner digest hd
    rw [h₀] at hd
    cases hd
  have hlocked : ApprovedBy (· ∈ made ++ (calls₁ ++ calls₂ ++ calls₃))
      (s.setLock .ALLOW_ASYNC_REENTER) := hs
  -- one phase after the other
  have hprovided := htr₁.invariant hI ph.checkProvider (fun e he => by simp [he])
    (approvals_follow.checkProvider x _ hlocked)
  have hverified := htr₂.invariant hI ph.verify (fun e he => by simp [he])
    (approvals_follow.verify _ _ _ _ _ _ _ hprovided.1)
  have hreached := htr₃.invariant hI hc (fun e he => by simp [he])
    (approvals_follow.depositsAndWithdrawals _ _ _ _ hverified.1)
  exact hreached.1

/-- Every deposit that an accepted rollup consumes was authorised by its owner. -/
theorem RollupPhases.authorised {s₀ : State} {earlier : History}
    (ph : RollupPhases P ((V2.world P answers).env n) x c s tr s')
    (h₀ : ∀ owner digest, s₀.depositProofApprovals owner digest = false)
    (hrun : Run (V2.world P answers) s₀ earlier s) {i : Nat} (hi : i < ph.numTxs.toNat)
    (hd : (ph.proofData.slot i).IsDeposit) : ph.Authorised answers earlier i := by
  have hsplit : ph.proofData.firstSlots ph.numTxs.toNat = ph.proofData.firstSlots i ++
      ph.proofData.slot i :: (List.range' (i + 1) (ph.numTxs.toNat - (i + 1))).map
        ph.proofData.slot := by
    rw [ProofData.firstSlots_append _ (Nat.succ_le_of_lt hi), ProofData.firstSlots,
      List.range_succ, List.map_append, List.append_assoc]
    rfl
  have hdep := ph.deposits
  rw [processDepositsAndWithdrawals, hsplit] at hdep
  obtain ⟨tr₁, tr₂, tr₃, s₁, s₂, j, k, htr, h₁, h₂⟩ := depositsAndWithdrawals_split hdep
  rcases processTx_authorised hd h₂ with happroved | hsigned
  · refine .inr ⟨tr₁, s₁, ⟨_, htr.symm⟩, h₁, ?_, ?_⟩
    · obtain ⟨made, hmade⟩ := hrun.made
      obtain ⟨calls₁, htr₁⟩ := ph.checkProvider.inTrace
      obtain ⟨calls₂, htr₂⟩ := ph.verify.inTrace
      obtain ⟨calls₃, htr₃⟩ := h₁.inTrace
      exact ⟨_, made, n, _, hmade, (htr₁.append htr₂).append htr₃, rfl⟩
    · exact fun calls hcalls => ph.approvedBy h₀ hrun h₁ hcalls _ _ happroved
  · exact .inl ⟨j, hsigned⟩

end Consumed

/-! ## Conservation -/

/-- What a call adds to the pending deposit of an owner. -/
def Entry.funded (assetId : Word) (owner : Address) : Entry → Nat
  | .depositPendingFunds _ a amount o _ => if a = assetId ∧ o = owner then amount.toNat else 0
  | _ => 0

/-- The transactions that a rollup visits: those of its first `numTxs` slots. -/
def Entry.visited (P : Params) : Entry → List InnerTx
  | .processRollup _ c =>
    match c.decoded P with
    | some (p, numTxs, _) => p.firstSlots numTxs
    | none => []
  | _ => []

/-- The transactions of a rollup: those that its public inputs hash covers. -/
def Entry.committed (P : Params) : Entry → List InnerTx
  | .processRollup _ c =>
    match c.decoded P with
    | some (p, _, hashedSlots) => p.firstSlots hashedSlots
    | none => []
  | _ => []

/-- The deposits of an owner among transactions. -/
def depositSum (assetId : Word) (owner : Address) (ts : List InnerTx) : Nat :=
  (ts.map (·.deposited assetId owner)).sum

/-- A rollup visits the deposits that it commits to: no slot from `numTxs` on that its hash covers
is a deposit, and no slot that it visits without covering it. -/
def Entry.StatesDeposits (P : Params) : Entry → Prop
  | .processRollup _ c => ∀ p numTxs hashedSlots, c.decoded P = some (p, numTxs, hashedSlots) →
    ∀ i, min numTxs hashedSlots ≤ i → i < max numTxs hashedSlots → ¬ (p.slot i).IsDeposit
  | _ => True

section StatesDeposits

/-- The same deposits among the first slots of two numbers. -/
lemma depositSum_firstSlots_eq_iff {p : ProofData} {m k : Nat} (hle : m ≤ k) :
    (∀ assetId owner, depositSum assetId owner (p.firstSlots m) =
      depositSum assetId owner (p.firstSlots k)) ↔
    ∀ i, m ≤ i → i < k → ¬ (p.slot i).IsDeposit := by
  simp only [depositSum, p.firstSlots_append hle, List.map_append, List.sum_append]
  constructor
  · intro hsum i hi hlt
    have hmem : i ∈ List.range' m (k - m) := List.mem_range'_1.mpr ⟨hi, by omega⟩
    refine no_deposit_of_sum (fun a o => ?_) _ (List.mem_map_of_mem hmem)
    have h := hsum a o
    omega
  · intro hidle a o
    have hrest : ∀ t ∈ (List.range' m (k - m)).map p.slot, ¬ t.IsDeposit := by
      intro t ht
      obtain ⟨i, hi, rfl⟩ := List.mem_map.mp ht
      rw [List.mem_range'_1] at hi
      exact hidle i hi.1 (by omega)
    rw [sum_deposited_idle hrest, Nat.add_zero]

/-- A rollup states its deposits if those visited and those committed to have the same sums. -/
lemma Entry.statesDeposits_iff (e : Entry) : e.StatesDeposits P ↔
    ∀ assetId owner, depositSum assetId owner (e.visited P) =
      depositSum assetId owner (e.committed P) := by
  cases e with
  | processRollup x c =>
    simp only [Entry.StatesDeposits, Entry.visited, Entry.committed]
    rcases hdec : c.decoded P with _ | ⟨p, numTxs, hashedSlots⟩
    · simp
    · simp only [Option.some.injEq, Prod.mk.injEq]
      have hone : (∀ p' n h, p = p' ∧ numTxs = n ∧ hashedSlots = h → ∀ i, min n h ≤ i →
          i < max n h → ¬ (p'.slot i).IsDeposit) ↔
          ∀ i, min numTxs hashedSlots ≤ i → i < max numTxs hashedSlots →
            ¬ (p.slot i).IsDeposit := by
        constructor
        · exact fun h => h p numTxs hashedSlots ⟨rfl, rfl, rfl⟩
        · rintro h _ _ _ ⟨rfl, rfl, rfl⟩
          exact h
      rw [hone]
      rcases Nat.le_total numTxs hashedSlots with hle | hle
      · rw [Nat.min_eq_left hle, Nat.max_eq_right hle, depositSum_firstSlots_eq_iff hle]
      · rw [Nat.min_eq_right hle, Nat.max_eq_left hle, ← depositSum_firstSlots_eq_iff hle]
        exact ⟨fun h a o => (h a o).symm, fun h a o => (h a o).symm⟩
  | _ => exact ⟨fun _ _ _ => rfl, fun _ => trivial⟩

end StatesDeposits

section Conservation

variable {s s' : State} {history : History} {assetId : Word} {owner : Address}

/-- One call. -/
lemma BookStep.conserved {e : Entry} {b b' : Books} (h : BookStep P e b b') (assetId : Word)
    (owner : Address) :
    (b.deposits assetId owner).toNat + e.funded assetId owner =
      (b'.deposits assetId owner).toNat + depositSum assetId owner (e.visited P) := by
  cases e with
  | processRollup x c =>
    obtain ⟨p, numTxs, hashedSlots, r, hdec, hr⟩ := h
    simp only [Entry.funded, Entry.visited, hdec]
    exact hr.taken assetId owner
  | depositPendingFunds x a amount o proofHash =>
    obtain ⟨caps, newPending, -, hnew, rfl⟩ := Books.deposit_inv h
    obtain ⟨hlt, rfl⟩ := checked_inv hnew
    simp only [Entry.funded, Entry.visited, depositSum, Books.setDeposit, List.map_nil,
      List.sum_nil, Nat.add_zero]
    rcases eq_or_ne assetId a with rfl | ha
    · rcases eq_or_ne owner o with rfl | ho
      · simp only [Function.update_self, and_self, if_true, BitVec.toNat_ofNat,
          Nat.mod_eq_of_lt hlt]
      · simp [ho, Ne.symm ho]
    · simp [ha, Ne.symm ha]
  | setCapped x isCapped =>
    obtain rfl : b' = _ := h
    rfl
  | setAssetCap x a pendingCap dailyCap precision =>
    obtain ⟨-, -, rfl⟩ := Books.setAssetCap_inv h
    rfl
  | _ =>
    obtain rfl : b' = b := h
    rfl

/-- Over the integers, the pending deposits of a run are what was deposited less the deposits among
the transactions counted for each call. -/
structure Balanced (counted : Entry → List InnerTx) (history : History) (s' : State) : Prop where
  /-- What was deposited is still pending or was taken. -/
  balance : ∀ assetId owner, (history.map fun call => call.entry.funded assetId owner).sum =
    (s'.userPendingDeposits assetId owner).toNat +
      (history.map fun call => depositSum assetId owner (counted call.entry)).sum
  /-- No call wraps. -/
  step : ∀ call ∈ history, ∀ assetId owner,
    (call.before.userPendingDeposits assetId owner).toNat + call.entry.funded assetId owner =
      (call.after.userPendingDeposits assetId owner).toNat +
        depositSum assetId owner (counted call.entry)

/-- The pending deposits of a run are conserved: they are balanced with the deposits of the accepted
rollups, and every deposit of a rollup was approved or signed by its owner before. -/
structure Conserved (P : Params) (answers : ExternalCall → State → Reply → Prop)
    (history : History) (s' : State) : Prop extends
    Balanced (Entry.committed P) history s' where
  authorised : ∀ earlier call later, history = earlier ++ call :: later → ∀ x c,
    call.entry = .processRollup x c → ∃ n, ∃ ph : RollupPhases P ((V2.world P answers).env n) x c
      call.before call.exchanges call.after,
      ∀ i < (encoding c.calldata ph.start).layout.hashedSlots,
        (ph.proofData.slot i).IsDeposit → ph.Authorised answers earlier i

/-- A call in the middle of a run. -/
lemma Run.at_call {earlier later : History} {call : Call Entry State ExternalCall Reply (Option Bool)}
    (h : Run (V2.world P answers) s (earlier ++ call :: later) s') :
    Run (V2.world P answers) s earlier call.before ∧ ∃ n,
      Completes ((V2.world P answers).env n) (V2.run P call.entry call.before) call.exchanges
        call.after call.result := by
  rw [List.append_cons] at h
  obtain ⟨s₁, h₁, -⟩ := Run.append_inv h
  generalize hall : earlier ++ [call] = all at h₁
  cases h₁ with
  | nil => simp at hall
  | snoc hr hc =>
    obtain ⟨rfl, hlast⟩ := List.append_inj' hall rfl
    cases hlast
    exact ⟨hr, _, hc⟩

/-- In every run of the initialised contract the pending deposits are balanced with the deposits that
the rollups visit. -/
theorem consumed_balanced (hs : Genesis P s) (h : Run (V2.world P answers) s history s') :
    Balanced (Entry.visited P) history s' := by
  have hbooks := (Run.bookInvariant (I := fun history s' =>
    (∀ call ∈ history, BookStep P call.entry call.before.books call.after.books) ∧
    ∀ assetId owner, (history.map fun call => call.entry.funded assetId owner).sum =
      (s'.userPendingDeposits assetId owner).toNat +
        (history.map fun call => depositSum assetId owner (call.entry.visited P)).sum)
    hs.unlocked h ⟨by simp, fun a o => by simp [hs.deposits a o]⟩ ?_).2
  · exact ⟨hbooks.2, fun call hcall a o => (hbooks.1 call hcall).conserved a o⟩
  · rintro history s₁ s₂ e tr a ⟨hsteps, hbalance⟩ hstep
    refine ⟨?_, fun a o => ?_⟩
    · intro call hcall
      rcases List.mem_append.mp hcall with hcall | hcall
      · exact hsteps call hcall
      · rw [List.mem_singleton] at hcall
        subst hcall
        exact hstep
    · have hone := hstep.conserved a o
      have hall := hbalance a o
      simp only [List.map_append, List.sum_append, List.map_cons, List.map_nil, List.sum_cons,
        List.sum_nil, Nat.add_zero]
      change _ + e.funded a o = (s₂.userPendingDeposits a o).toNat + _
      change (s₁.userPendingDeposits a o).toNat + e.funded a o =
        (s₂.userPendingDeposits a o).toNat + _ at hone
      omega

/-- A run balanced with one count is balanced with another, if and only if every call counts the same
deposits. -/
lemma Balanced.iff_same {counted : Entry → List InnerTx} (h : Balanced counted history s')
    (counted' : Entry → List InnerTx) : Balanced counted' history s' ↔
      ∀ call ∈ history, ∀ assetId owner, depositSum assetId owner (counted call.entry) =
        depositSum assetId owner (counted' call.entry) := by
  constructor
  · intro h' call hcall a o
    have h₁ := h.step call hcall a o
    have h₂ := h'.step call hcall a o
    omega
  · intro hsame
    refine ⟨fun a o => ?_, fun call hcall a o => ?_⟩
    · rw [h.balance a o]
      congr 2
      exact List.map_congr_left fun call hcall => hsame call hcall a o
    · rw [h.step call hcall a o, hsame call hcall a o]

/-- The deposits that an accepted rollup commits to were authorised, if it visits them. -/
lemma StatesDeposits.authorised {s₀ : State} {earlier : History} {x : Context} {c : RollupCall}
    {tr : Trace} {n : Nat} (ph : RollupPhases P ((V2.world P answers).env n) x c s tr s')
    (h₀ : ∀ owner digest, s₀.depositProofApprovals owner digest = false)
    (hrun : Run (V2.world P answers) s₀ earlier s)
    (hstates : (Entry.processRollup x c).StatesDeposits P) {i : Nat}
    (hi : i < (encoding c.calldata ph.start).layout.hashedSlots)
    (hd : (ph.proofData.slot i).IsDeposit) : ph.Authorised answers earlier i := by
  rcases Nat.lt_or_ge i ph.numTxs.toNat with hlt | hge
  · exact ph.authorised h₀ hrun hlt hd
  · exact absurd hd (hstates _ _ _ ph.decoded_eq i (by omega) (by omega))

/-- In a run of the initialised contract the pending deposits are conserved, if and only if every
accepted rollup visits the deposits that it commits to. -/
theorem pendingDeposits_conserved_iff (hs : Genesis P s)
    (h₀ : ∀ owner digest, s.depositProofApprovals owner digest = false)
    (h : Run (V2.world P answers) s history s') :
    Conserved P answers history s' ↔ ∀ call ∈ history, call.entry.StatesDeposits P := by
  have hsame := (consumed_balanced hs h).iff_same (Entry.committed P)
  have hiff : Balanced (Entry.committed P) history s' ↔
      ∀ call ∈ history, call.entry.StatesDeposits P :=
    hsame.trans (forall₂_congr fun call _ => call.entry.statesDeposits_iff.symm)
  constructor
  · exact fun hc => hiff.mp hc.toBalanced
  · intro hstates
    refine ⟨hiff.mpr hstates, ?_⟩
    rintro earlier call later rfl x c he
    obtain ⟨hrun, n, hc⟩ := Run.at_call h
    have hcall := hstates call (List.mem_append_right _ (.head _))
    rw [he] at hc hcall
    obtain ⟨ph⟩ := V2.processRollup_phases (V2.run_processRollup hc)
    exact ⟨n, ph, fun i hi hd => StatesDeposits.authorised ph h₀ hrun hcall hi hd⟩

end Conservation

/-! ## A deposit, made and consumed -/

namespace OneDeposit

/-- The two counts, a transfer and a deposit of 65 wei by account `66`. -/
def encodedTxs (numTxs : Nat) : List Nat :=
  [numTxs * 2 ^ 224 + 0x13a030000000000000000000000000000000000000000000000,
    0x330000000000000000000000000000000000000000000000,
    0x340000000000000000000000000000000000000000000000,
    0x350000000000000000000000000000000000000000000000,
    0x360100000000000000000000000000000000000000000000,
    0x3d00000000000000000000000000000000000000000000,
    0x3e00000000000000000000000000000000000000000000,
    0x3f00000000000000000000000000000000000000000000,
    0x4000000000000000000000000000000000000000000000,
    0x4100000000000000000000000000000000000000420000]

/-- The rollup of both transactions, with the number of transactions that it states. -/
def call (numTxs : Nat) : RollupCall where
  calldata := .ofWords 5028 fun
    | 0 => 0x40
    | 1 => 0x1380
    | 2 => 4866
    | i + 3 =>
      if i < 142 then (TwoTxs.header i).toNat else (encodedTxs numTxs).getD (i - 142) 0
  memoryPast _ := InnerTx.zero

/-- The transaction that consumes the deposit. -/
def consumed : InnerTx := ⟨1, 61, 62, 63, 64, 65, 66, 0⟩

/-- Hash functions with values at these inputs. -/
def params : Params :=
  { Sample.params with
    keccak256 := fun ws =>
      if ws = consumed.words then
        0x9b653348769f81661cb5b63ab8fbca585b1b357b65f5cf2cf63c370e02fff542
      else Sample.params.keccak256 ws
    sha256 := fun ws =>
      if ws = TwoTxs.transfer.words ++ consumed.words then
        0xbcdc94aefa3d4b15596c75281f27b3c3a088fbff84dac21bc4a4db84f8e9bb8a
      else if ws = (List.range 142).map TwoTxs.header ++
          [0xbcdc94aefa3d4b15596c75281f27b3c3a088fbff84dac21bc4a4db84f8e9bb8a %
            BitVec.ofNat 256 CIRCUIT_MODULUS] then
        0x39b06153b0b259fd3846ea4dd891f0d22c8dbaa6b44b7a2d1d78f1c866998449
      else Sample.params.sha256 ws }

/-- The depositor funds the transaction and approves it. -/
def fund : Entry :=
  .depositPendingFunds { Sample.context with sender := 66, value := 100 } 0 100 66
    (params.keccak256 consumed.words)

/-- The deposit is made, then the rollup is posted. -/
def calls (numTxs : Nat) : List Entry := [fund, .processRollup Sample.context (call numTxs)]

/-- The contract is initialised. -/
lemma genesis : Genesis params Sample.genesis :=
  { Sample.genesis_spec with stateHash := ⟨11, 21, 31, by decide⟩ }

/-- The run that makes these calls. -/
lemma calls_run (numTxs : Nat) (pending : Word)
    (h : ((V2.world params fun _ _ _ => True).exec Sample.answer (calls numTxs) []
      Sample.genesis).map (·.2.userPendingDeposits 0 66) = some pending) :
    ∃ history s, Run (V2.world params fun _ _ _ => True) Sample.genesis history s ∧
      history.map (·.entry) = calls numTxs ∧ s.userPendingDeposits 0 66 = pending := by
  obtain ⟨⟨history, s⟩, hs, hpending⟩ := Option.map_eq_some_iff.mp h
  exact ⟨history, s, World.exec_run (fun _ _ => trivial) .nil hs, World.exec_entries hs, hpending⟩

/-- What a history counts for each call depends on the calls only. -/
lemma map_calls {β : Type} {history : History} {es : List Entry}
    (h : history.map (·.entry) = es) (f : Entry → β) :
    (history.map fun call => f call.entry) = es.map f := by
  rw [← h, List.map_map]
  rfl

/-- Stating both transactions, the rollup visits what it commits to. -/
lemma call_states : (Entry.processRollup Sample.context (call 2)).StatesDeposits params := by
  have hdec : ((call 2).decoded params).map (·.2) = some (2, 2) := by decide +kernel
  intro p numTxs hashedSlots h i hi hlt
  rw [h, Option.map_some, Option.some.injEq, Prod.mk.injEq] at hdec
  omega

end OneDeposit

/-- A deposit of 100 wei, of which a rollup consumes 65. -/
theorem pendingDeposits_conserved_iff_sample :
    ∃ history s, Run (V2.world OneDeposit.params fun _ _ _ => True) Sample.genesis history s ∧
      s.userPendingDeposits 0 66 = 35 ∧
      Conserved OneDeposit.params (fun _ _ _ => True) history s := by
  obtain ⟨history, s, hrun, hcalls, hpending⟩ :=
    OneDeposit.calls_run 2 35 (by decide +kernel)
  refine ⟨history, s, hrun, hpending,
    (pendingDeposits_conserved_iff OneDeposit.genesis (fun _ _ => rfl) hrun).mpr ?_⟩
  intro call hcall
  have hmem : call.entry ∈ OneDeposit.calls 2 := hcalls ▸ List.mem_map_of_mem hcall
  simp only [OneDeposit.calls, List.mem_cons, List.not_mem_nil, or_false] at hmem
  rcases hmem with hfund | hrollup
  · rw [hfund]
    trivial
  · rw [hrollup]
    exact OneDeposit.call_states

/-- Stating one transaction, the rollup is accepted as well and commits to the deposit of 65 wei, but
all of the 100 wei are still pending. -/
theorem deposit_kept :
    ∃ history s, Run (V2.world OneDeposit.params fun _ _ _ => True) Sample.genesis history s ∧
      s.userPendingDeposits 0 66 = 100 ∧
      ¬ Conserved OneDeposit.params (fun _ _ _ => True) history s := by
  obtain ⟨history, s, hrun, hcalls, hpending⟩ :=
    OneDeposit.calls_run 1 100 (by decide +kernel)
  refine ⟨history, s, hrun, hpending, fun hc => ?_⟩
  have hbalance := hc.balance 0 66
  have htaken : (OneDeposit.calls 1).map
      (fun e => depositSum 0 66 (e.committed OneDeposit.params)) = [0, 65] := by decide +kernel
  rw [OneDeposit.map_calls hcalls fun e => e.funded 0 66,
    OneDeposit.map_calls hcalls fun e => depositSum 0 66 (e.committed OneDeposit.params), htaken,
    hpending] at hbalance
  exact absurd hbalance (by decide)

end AztecConnect.Contract
