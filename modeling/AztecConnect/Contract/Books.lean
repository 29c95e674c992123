import AztecConnect.Contract.Deposits

/-!
# The books of the processor

The size of the data tree, the state hash, the pending deposits and their caps are written only by
calls from outside: whatever called contracts do while the lock is held leaves `State.books` as they
are (`V2.env_sameBooks`). `BookStep` says how each entry point changes the books, and
`V2.run_bookStep` that every accepted call made of the unlocked processor changes them in this way.
-/

namespace AztecConnect.Contract

open Resumption Bits

variable {P : Params} {answers : ExternalCall → State → Reply → Prop} {α β : Type}

/-- What only calls from outside write. -/
structure Books where
  capped : Bool
  datasize : BitVec 32
  stateHash : Word
  deposits : Word → Address → Word
  caps : Word → AssetCap

/-- The books of a state. -/
def State.books (s : State) : Books where
  capped := s.capped
  datasize := s.datasize
  stateHash := s.rollupStateHash
  deposits := s.userPendingDeposits
  caps := s.caps

/-- The books are as they were. -/
def SameBooks (s s' : State) : Prop := s'.books = s.books

/-- A state has its own books. -/
lemma SameBooks.refl (s : State) : SameBooks s s := rfl

/-- Books that stay twice stay. -/
lemma SameBooks.trans {s s' s'' : State} (h : SameBooks s s') (h' : SameBooks s' s'') :
    SameBooks s s'' := Eq.trans h' h

/-- Programs that keep what `f` shows of the books, started with the lock held. -/
def bookDiscipline (P : Params) (answers : ExternalCall → State → Reply → Prop) (f : Books → β) :
    ContractDiscipline where
  Inv := Locked
  Guar _ := Locked
  env := (V2.world P answers).rely Locked SameBooks
  Rel s s' := f s'.books = f s.books
  refl _ := rfl
  trans h h' := h'.trans h
  sound _ h := ⟨h.2.2.1, congrArg f h.2.2.2⟩

section Confined

variable {s s' : State} {f : Books → β}

/-- What leaves the lock and the books is allowed. -/
lemma books_allows (hl : s'.lock = s.lock) (hb : f s'.books = f s.books) :
    (bookDiscipline P answers f).Allows s s' := fun hs => ⟨fun h => hs (hl.symm.trans h), hb⟩

instance : Transfers (bookDiscipline P answers f) := ⟨fun _ _ h => h⟩

instance : Pays (bookDiscipline P answers f) := ⟨fun _ _ => books_allows rfl rfl⟩

/-- The other members of the packed word. -/
lemma books_setRollupState {off len : Nat} {v : Word} (hv : v.toNat < 2 ^ len)
    (hd : off + len ≤ 160 ∨ 192 ≤ off ∧ off + len ≤ 240) :
    (s.setRollupState off len v).books = s.books := by
  have hcapped : field CAPPED_BIT_OFFSET 8 (setField off len v s.rollupState) =
      field CAPPED_BIT_OFFSET 8 s.rollupState :=
    field_setField_of_disjoint _ hv (by simp only [CAPPED_BIT_OFFSET]; omega)
  have hsize : field DATASIZE_BIT_OFFSET 32 (setField off len v s.rollupState) =
      field DATASIZE_BIT_OFFSET 32 s.rollupState :=
    field_setField_of_disjoint _ hv (by simp only [DATASIZE_BIT_OFFSET]; omega)
  simp only [State.books, State.capped, State.datasize, State.setRollupState, hcapped, hsize]

/-- The lock is not in the books. -/
@[simp] lemma books_setLock (s : State) (l : Lock) : (s.setLock l).books = s.books :=
  books_setRollupState l.toWord_lt (by decide)

/-- Neither is what a program writes that leaves both. -/
lemma books_modify {g : State → State} (hl : ∀ s, (g s).lock = s.lock)
    (hb : ∀ s, f (g s).books = f s.books) :
    (bookDiscipline P answers f).Keeps (Prog.modify g : Program Unit) :=
  .modify fun s => books_allows (hl s) (hb s)

/-- A program under the lock keeps the books. -/
lemma books_withLock (l : Lock) (m : Program α) :
    (bookDiscipline P answers f).Keeps (withLock l m) := by
  intro s hs
  simp only [withLock, Prog.wp_bind, Prog.wp_get, Prog.wp_require]
  exact fun h => absurd h hs

/-- So does pushing a hash. -/
lemma books_pushAsyncHash (h : Word) : (bookDiscipline P answers f).Keeps (V2.pushAsyncHash h) := by
  intro s hs
  rw [wp_pushAsyncHash]
  intro hroom
  have ha : s.asyncArrayLen.toNat < 2 ^ 10 := field_toNat_lt _ _ _
  have hd : s.defiArrayLen.toNat < 2 ^ 10 := field_toNat_lt _ _ _
  have hlt : (s.asyncArrayLen + 1).toNat < 2 ^ ARRAY_LENGTH_BITS := by
    rw [ARRAY_LENGTH_BITS]
    bv_omega
  apply books_allows (State.lock_setRollupState hlt (by decide)) _ hs
  exact congrArg f (books_setRollupState hlt (by decide))

/-- The call of the bridge and what follows it. -/
lemma books_finalise (x : Context) (g : Finalisation) :
    (bookDiscipline P answers f).Keeps (finalise P V2.pushAsyncHash x g) := by
  refine .bind (books_modify (fun _ => rfl) fun _ => rfl) fun _ =>
    .bind (.request fun _ h => h) fun _ => .bind (.ofExcept _) fun _ => .ite ?_ ?_
  · exact .bind (.require _ _) fun _ => .bind (.transferResult _ _ _ _ _ _ _) fun _ =>
      .bind (books_pushAsyncHash _) fun _ =>
      .bind (books_modify (fun _ => rfl) fun _ => rfl) fun _ => .pure _
  · exact .bind (books_modify (fun _ => rfl) fun _ => rfl) fun _ => .pure _

/-- So does finalising an interaction. -/
lemma books_finaliseBody (x : Context) (n : Word) : (bookDiscipline P answers f).Keeps (do
    let s ← Prog.get
    let g ← Prog.ofExcept (prepareFinalisation getAztecAssetTypes V2.bridgeOf s n)
    finalise P V2.pushAsyncHash x g : Program Bool) :=
  .bind .get fun _ => .bind (.ofExcept _) fun _ => books_finalise x _

/-- So do all entries that a locked contract accepts. -/
lemma confinesEntries_books : ConfinesEntries P (bookDiscipline P answers f) where
  locked hs := hs
  processAsync x n :=
    .whenNotPaused (.bind .get fun _ => .ite (books_finaliseBody x n) (books_withLock _ _))
  approveProof _ _ := .whenNotPaused (books_modify (fun _ => rfl) fun _ => rfl)
  ethPayments _ _ := books_allows rfl rfl
  emit _ _ _ := books_allows rfl rfl

/-- Whatever called contracts do while the lock is held leaves the books alone. -/
theorem V2.env_sameBooks (n : Nat) {c : ExternalCall} {s s' : State} {r : Reply} (hs : Locked s)
    (h : (V2.world P answers).env n c s r s') :
    (V2.world P answers).rely Locked SameBooks c s r s' :=
  World.env_rely SameBooks.refl (fun _ _ _ => SameBooks.trans)
    (fun e s hs => (confinesEntries_books (f := id)).run e s hs) n hs h

/-- A part of a call that keeps what `f` shows. -/
lemma sameBooks_completes {m : Program α} {n : Nat} {tr : Trace} {a : α} (hs : Locked s)
    (hm : (bookDiscipline P answers f).Keeps m)
    (h : Completes ((V2.world P answers).env n) (m s) tr s' a) :
    Locked s' ∧ f s'.books = f s.books :=
  Res.wp_completes (G := fun _ => Locked) (Q := fun s' _ => Locked s' ∧ f s'.books = f s.books)
    (fun _ _ _ _ => V2.env_sameBooks n) h (hm s hs)

end Confined

/-! ## What each entry point does to the books -/

/-- Where the next subtree of `numDataLeaves` leaves starts (`validateAndUpdateMerkleRoots`). -/
def nextBoundary (storedDataSize numDataLeaves : BitVec 32) : BitVec 32 :=
  if storedDataSize % numDataLeaves = 0 then storedDataSize
  else storedDataSize + numDataLeaves - storedDataSize % numDataLeaves

/-- The header, the number of transactions and the number of slots the public inputs hash covers. -/
def RollupCall.decoded (P : Params) (c : RollupCall) : Option (ProofData × Nat × Nat) := do
  let (start, _) ← c.arguments
  let (p, numTxs, _) ← (decodeProof P c.calldata start c.memoryPast).toOption
  return (p, numTxs.toNat, (encoding c.calldata start).layout.hashedSlots)

/-- The caps after a deposit; they are checked and updated only while capping is enabled. -/
def Books.nextCaps (x : Context) (assetId amount pending : Word) (b : Books) :
    Except RevertReason (Word → AssetCap) :=
  if b.capped then do
    let cap ← accrueCap (b.caps assetId) pending.toNat amount.toNat x.timestamp.toNat
    return Function.update b.caps assetId cap
  else .ok b.caps

/-- The pending deposits with `pending` for one owner. -/
def Books.setDeposit (assetId : Word) (owner : Address) (pending : Nat) (b : Books) : Books :=
  { b with
    deposits := Function.update b.deposits assetId
      (Function.update (b.deposits assetId) owner (BitVec.ofNat 256 pending)) }

/-- `increasePendingDepositBalance`, on the books. -/
def Books.deposit (x : Context) (assetId : Word) (owner : Address) (amount : Word) (b : Books) :
    Except RevertReason Books := do
  let caps ← b.nextCaps x assetId amount (b.deposits assetId owner)
  let newPending ← checked 256 ((b.deposits assetId owner).toNat + amount.toNat)
  return { b with caps }.setDeposit assetId owner newPending

/-- `setAssetCap`, on the books. -/
def Books.setAssetCap (x : Context) (assetId : Word) (pendingCap dailyCap : BitVec 32)
    (precision : BitVec 8) (b : Books) : Except RevertReason Books := do
  let precisionFactor ← checked 256 (10 ^ precision.toNat)
  let total ← checked 256 (dailyCap.toNat * precisionFactor)
  let available ← toU128 total
  return { b with
    caps := Function.update b.caps assetId
      ⟨BitVec.ofNat 128 available, x.timestamp.setWidth 32, pendingCap, dailyCap, precision⟩ }

/-- An accepted rollup with header `p` moves the books from `b` to `b'`, taking the deposits `ts`. -/
structure Books.Rolled (P : Params) (p : ProofData) (ts : List InnerTx) (h : RootHashes)
    (b b' : Books) : Prop where
  roots : computeRootHashes P p = .ok h
  oldState : h.oldStateHash = b.stateHash
  leaves : h.numDataLeaves ≠ 0
  start : h.dataStartIndex = nextBoundary b.datasize h.numDataLeaves
  rollupId : p.getRollupId.toNat * NUMBER_OF_BRIDGE_CALLS < 2 ^ 256
  taken : ∀ assetId owner, (b.deposits assetId owner).toNat =
    (b'.deposits assetId owner).toNat + (ts.map (·.deposited assetId owner)).sum
  datasize : b'.datasize = h.dataStartIndex + h.numDataLeaves
  stateHash : b'.stateHash = h.newStateHash
  capped : b'.capped = b.capped
  caps : b'.caps = b.caps

/-- How an accepted call from outside changes the books. -/
def BookStep (P : Params) : Entry → Books → Books → Prop
  | .processRollup _ c, b, b' => ∃ p numTxs hashedSlots h,
    c.decoded P = some (p, numTxs, hashedSlots) ∧ b.Rolled P p (p.firstSlots numTxs) h b'
  | .depositPendingFunds x assetId amount owner _, b, b' => b.deposit x assetId owner amount = .ok b'
  | .setCapped _ isCapped, b, b' => b' = { b with capped := isCapped }
  | .setAssetCap x assetId pendingCap dailyCap precision, b, b' =>
    b.setAssetCap x assetId pendingCap dailyCap precision = .ok b'
  | _, b, b' => b' = b

/-! ### Accepted checks -/

/-- A checked sum did not overflow. -/
lemma checked_inv {w n m : Nat} (h : checked w n = .ok m) : n < 2 ^ w ∧ m = n := by
  rw [checked] at h
  split at h
  · cases h
    exact ⟨‹_›, rfl⟩
  · cases h

/-- A cast that succeeds kept the number. -/
lemma toU128_inv {n m : Nat} (h : toU128 n = .ok m) : n < 2 ^ 128 ∧ m = n := by
  rw [toU128] at h
  split at h
  · cases h
    exact ⟨‹_›, rfl⟩
  · cases h

/-- An accepted deposit writes the deposits and the caps. -/
lemma Books.deposit_inv {x : Context} {assetId : Word} {owner : Address} {amount : Word} {b b' : Books}
    (h : b.deposit x assetId owner amount = .ok b') :
    ∃ caps newPending, b.nextCaps x assetId amount (b.deposits assetId owner) = .ok caps ∧
      checked 256 ((b.deposits assetId owner).toNat + amount.toNat) = .ok newPending ∧
      b' = { b with caps }.setDeposit assetId owner newPending := by
  rw [Books.deposit] at h
  obtain ⟨caps, hcaps, h₁⟩ := bind_eq_ok h
  obtain ⟨newPending, hnew, h₂⟩ := bind_eq_ok h₁
  cases h₂
  exact ⟨caps, newPending, hcaps, hnew, rfl⟩

/-- An accepted `setAssetCap` writes the cap of the asset. -/
lemma Books.setAssetCap_inv {x : Context} {assetId : Word} {pendingCap dailyCap : BitVec 32}
    {precision : BitVec 8} {b b' : Books}
    (h : b.setAssetCap x assetId pendingCap dailyCap precision = .ok b') :
    10 ^ precision.toNat < 2 ^ 256 ∧ dailyCap.toNat * 10 ^ precision.toNat < 2 ^ 128 ∧
      b' = { b with
        caps := Function.update b.caps assetId
          ⟨BitVec.ofNat 128 (dailyCap.toNat * 10 ^ precision.toNat), x.timestamp.setWidth 32,
            pendingCap, dailyCap, precision⟩ } := by
  rw [Books.setAssetCap] at h
  obtain ⟨factor, hfactor, h₁⟩ := bind_eq_ok h
  obtain ⟨hprecision, rfl⟩ := checked_inv hfactor
  obtain ⟨total, htotal, h₂⟩ := bind_eq_ok h₁
  obtain ⟨-, rfl⟩ := checked_inv htotal
  obtain ⟨available, havailable, h₃⟩ := bind_eq_ok h₂
  obtain ⟨hlt, rfl⟩ := toU128_inv havailable
  cases h₃
  exact ⟨hprecision, hlt, rfl⟩

section Entries

variable {E : Env State ExternalCall Reply} {s s' : State} {tr : Trace} {n : Nat}

/-- An update under the lock. -/
lemma withLock_modify_inv {l : Lock} {g : State → State} {a : Unit}
    (h : Completes E (withLock l (Prog.modify g) s) tr s' a) :
    s' = (g (s.setLock l)).setLock .UNLOCKED := by
  obtain ⟨-, s₁, hbody, rfl⟩ := withLock_inv h
  obtain ⟨-, rfl, -⟩ := hbody.done_inv
  rfl

/-- A program without a return value completes as its body. -/
lemma noReturnValue_inv {m : Program Unit} {a : Option Bool}
    (h : Completes E (noReturnValue m s) tr s' a) : Completes E (m s) tr s' () := by
  obtain ⟨tr₁, tr₂, s₁, _, rfl, h₁, h₂⟩ := Completes.bind_inv h
  obtain ⟨rfl, rfl, -⟩ := h₂.done_inv
  rw [List.append_nil]
  exact h₁

/-- So does one that requires the contract not to be paused. -/
lemma whenNotPaused_inv {m : Program α} {a : α} (h : Completes E (whenNotPaused m s) tr s' a) :
    Completes E (m s) tr s' a :=
  h.get_bind.require_bind.2

/-- So does one that requires a role. -/
lemma onlyRole_inv {x : Context} {role : Role} {m : Program α} {a : α}
    (h : Completes E (onlyRole x role m s) tr s' a) : Completes E (m s) tr s' a :=
  (Completes.require_bind h).2

/-- The store of `verifyProofAndUpdateState`. -/
lemma verify_completes {x : Context} {cd : Calldata} {start length : Nat} {p : ProofData}
    {publicInputsHash rollupId : Word}
    (h : Completes E (verifyProofAndUpdateState P x cd start length p publicInputsHash s) tr s'
      rollupId) :
    ∃ c r s₁ roots, E c s r s₁ ∧ computeRootHashes P p = .ok roots ∧
      roots.oldStateHash = s₁.rollupStateHash ∧ roots.numDataLeaves ≠ 0 ∧
      roots.dataStartIndex = nextBoundary s₁.datasize roots.numDataLeaves ∧
      s' = s₁.updateRoots roots.newStateHash (roots.dataStartIndex + roots.numDataLeaves) := by
  obtain ⟨-, h₁⟩ := Completes.require_bind h
  obtain ⟨-, h₂⟩ := h₁.get_bind.require_bind
  obtain ⟨r, s₁, tr', -, hE, h₃⟩ := h₂.request_bind
  obtain ⟨-, h₄⟩ := h₃.require_bind
  obtain ⟨roots, hroots, h₅⟩ := Completes.ofExcept_bind h₄
  obtain ⟨hold, h₆⟩ := h₅.get_bind.require_bind
  obtain ⟨hleaves, h₇⟩ := h₆.require_bind
  obtain ⟨hstart, h₈⟩ := h₇.require_bind
  obtain ⟨-, rfl, -⟩ := h₈.modify_bind.done_inv
  exact ⟨_, r, s₁, roots, hE, hroots, hold, hleaves, hstart, rfl⟩

/-- A verified rollup writes the size and the state hash. -/
lemma books_updateRoots (s : State) (h : Word) (d : BitVec 32) :
    (s.updateRoots h d).books = { s.books with datasize := d, stateHash := h } := by
  have hd : (d.setWidth 256).toNat < 2 ^ 32 := by
    rw [BitVec.toNat_setWidth]
    exact lt_of_le_of_lt (Nat.mod_le _ _) d.isLt
  have hcapped : field CAPPED_BIT_OFFSET 8
      (setField DATASIZE_BIT_OFFSET 32 (d.setWidth 256) s.rollupState) =
      field CAPPED_BIT_OFFSET 8 s.rollupState := field_setField_of_disjoint _ hd (by decide)
  have hsize : field DATASIZE_BIT_OFFSET 32
      (setField DATASIZE_BIT_OFFSET 32 (d.setWidth 256) s.rollupState) = d.setWidth 256 :=
    field_setField_self _ hd (by decide)
  have hwidth : (d.setWidth 256).setWidth 32 = d := by
    apply BitVec.eq_of_toNat_eq
    simp only [BitVec.toNat_setWidth]
    omega
  simp only [State.books, State.capped, State.datasize, State.updateRoots, State.setRollupState,
    hcapped, hsize, hwidth]

section Rollup

variable {f : Books → β} {x : Context} {c : RollupCall} {beneficiary : Address} {p : ProofData}

/-- Popping the pending interactions keeps the books. -/
lemma books_popPending : (bookDiscipline P answers f).Keeps (V2.popPendingInteractions p) := by
  intro s hs
  simp only [V2.popPendingInteractions, Prog.wp_bind, Prog.wp_get, Prog.wp_require, Prog.wp_modify,
    Prog.wp_pure]
  intro _
  have hd : s.defiArrayLen.toNat < 2 ^ 10 := field_toNat_lt _ _ _
  have hlt : ((V2.getDefiHashesLengthsAndNumPendingInteractions s).1 -
      (V2.getDefiHashesLengthsAndNumPendingInteractions s).2).toNat < 2 ^ ARRAY_LENGTH_BITS := by
    simp only [V2.getDefiHashesLengthsAndNumPendingInteractions, ARRAY_LENGTH_BITS]
    split
    · rename_i h
      simp only [NUMBER_OF_BRIDGE_CALLS] at h ⊢
      bv_omega
    · bv_omega
  apply books_allows (State.lock_setRollupState hlt (by decide)) _ hs
  exact congrArg f (books_setRollupState hlt (by decide))

/-- So does the loop of the bridge calls. -/
lemma books_bridgeCallLoop (n i : Nat) (nonce length : Word) :
    (bookDiscipline P answers f).Keeps (V2.bridgeCallLoop P x beneficiary p n i nonce length) := by
  induction n generalizing i nonce length with
  | zero => exact .pure _
  | succ n ih =>
    refine .ite (.pure _) (.bind ?_ fun _ => ih _ _ _)
    refine .bind (.runBridgeCall (fun _ _ h => h) _ _ _ _ _ _) fun r => .ite ?_ ?_
    · exact .bind (books_modify (fun _ => rfl) fun _ => rfl) fun _ => .pure _
    · exact .bind (books_modify (fun _ => rfl) fun _ => rfl) fun _ => .pure _

/-- So does copying the async hashes. -/
lemma books_copyAsyncHashes (length : Word) :
    (bookDiscipline P answers f).Keeps (V2.copyAsyncHashes length) := by
  intro s hs
  simp only [V2.copyAsyncHashes, Prog.wp_bind, Prog.wp_get, Prog.wp_require, Prog.wp_modify]
  intro hroom
  have hmask : (mask 256 ARRAY_LENGTH_BITS).toNat = 1023 := by decide
  rw [BitVec.lt_def, hmask] at hroom
  have hlt : (s.asyncArrayLen + length).toNat < 2 ^ ARRAY_LENGTH_BITS := by
    simp only [ARRAY_LENGTH_BITS]
    omega
  refine books_allows ((State.lock_setRollupState (by decide) (by decide)).trans ?_) ?_ hs
  · exact State.lock_setRollupState (s := { s with
      defiInteractionHashes := MappedArray.copyFrom s.asyncDefiInteractionHashes length.toNat 0
        s.asyncArrayLen.toNat s.defiInteractionHashes }) hlt (by decide)
  · refine congrArg f ((books_setRollupState (by decide) (by decide)).trans ?_)
    exact books_setRollupState (s := { s with
      defiInteractionHashes := MappedArray.copyFrom s.asyncDefiInteractionHashes length.toNat 0
        s.asyncArrayLen.toNat s.defiInteractionHashes }) hlt (by decide)

/-- So do all bridge calls. -/
lemma books_processBridgeCalls :
    (bookDiscipline P answers f).Keeps (V2.processBridgeCalls P x p beneficiary) :=
  .bind books_popPending fun _ => .bind (.ofExcept _) fun _ =>
    .bind (books_bridgeCallLoop _ _ _ _) fun _ => .bind (books_copyAsyncHashes _) fun _ =>
    .bind .get fun _ => .bind (books_modify (fun _ => rfl) fun _ => rfl) fun _ => .pure _

/-- The books without the pending deposits. -/
def Books.withoutDeposits (b : Books) : Books := { b with deposits := fun _ _ => 0 }

/-- The first interaction nonce of an accepted rollup is representable. -/
lemma processBridgeCalls_rollupId {hashes : List Word}
    (h : Completes E (V2.processBridgeCalls P x p beneficiary s) tr s' hashes) :
    p.getRollupId.toNat * NUMBER_OF_BRIDGE_CALLS < 2 ^ 256 := by
  obtain ⟨tr₁, tr₂, s₁, length, -, -, h₁⟩ := Completes.bind_inv h
  obtain ⟨nonce, hnonce, -⟩ := h₁.ofExcept_bind
  rw [firstInteractionNonce] at hnonce
  split at hnonce
  · cases hnonce
  · omega

/-- An accepted rollup on the books. -/
theorem RollupPhases.rolled (ph : RollupPhases P ((V2.world P answers).env n) x c s tr s') :
    ∃ h, s.books.Rolled P ph.proofData (ph.proofData.firstSlots ph.numTxs.toNat) h s'.books := by
  have hl₀ : Locked (s.setLock .ALLOW_ASYNC_REENTER) := by
    rw [Locked, State.lock_setLock]
    decide
  obtain ⟨hl₁, h₁⟩ := sameBooks_completes (f := id) hl₀
    (.checkProvider P x fun _ _ => books_allows rfl rfl) ph.checkProvider
  obtain ⟨call, r, s₁, roots, hE, hroots, hold, hleaves, hstart, hverified⟩ :=
    verify_completes ph.verify
  obtain ⟨-, -, hl₂, h₂ : s₁.books = ph.provided.books⟩ := V2.env_sameBooks n hl₁ hE
  have hbooks₁ : s₁.books = s.books := h₂.trans (h₁.trans (books_setLock _ _))
  have hl₃ : Locked ph.verified := by
    rw [hverified, Locked, (QueueStep.updateRoots (P := P) s₁ _ _).2]
    exact hl₂
  obtain ⟨hl₄, h₄⟩ := sameBooks_completes (f := Books.withoutDeposits) hl₃
    (.depositsAndWithdrawals P (fun _ _ _ =>
      .decreasePendingDepositBalance _ _ _ fun _ _ => books_allows rfl rfl) _ _ _) ph.deposits
  obtain ⟨hl₅, h₅⟩ := sameBooks_completes (f := id) hl₄ books_processBridgeCalls ph.bridgeCalls
  obtain ⟨-, h₆⟩ := sameBooks_completes (f := id) (s := ph.bridged.emit _) hl₅ (.transferFee _ _)
    ph.fees
  have hend : s'.books = ph.settled.books :=
    (congrArg State.books ph.after_eq).trans ((books_setLock _ _).trans (h₆.trans h₅))
  rw [hverified, books_updateRoots, hbooks₁] at h₄
  simp only [Books.withoutDeposits, Books.mk.injEq, true_and] at h₄
  obtain ⟨hcapped, hsize, hhash, hcaps⟩ := h₄
  refine ⟨roots, hroots, ?_, hleaves, ?_, processBridgeCalls_rollupId ph.bridgeCalls,
    ph.performed.deposits, ?_, ?_, ?_, ?_⟩
  · exact hold.trans (congrArg Books.stateHash hbooks₁)
  · rw [hstart]
    exact congrArg (fun b : Books => nextBoundary b.datasize _) hbooks₁
  · exact (congrArg Books.datasize hend).trans hsize
  · exact (congrArg Books.stateHash hend).trans hhash
  · exact (congrArg Books.capped hend).trans hcapped
  · exact (congrArg Books.caps hend).trans hcaps

/-- What the phases of a rollup decode is what the calldata hold. -/
lemma RollupPhases.decoded_eq (ph : RollupPhases P E x c s tr s') :
    c.decoded P = some (ph.proofData, ph.numTxs.toNat,
      (encoding c.calldata ph.start).layout.hashedSlots) := by
  rw [RollupCall.decoded, ph.arguments_eq, Option.bind_eq_bind, Option.bind_some]
  dsimp only
  rw [ph.decode_eq, Except.toOption, Option.bind_eq_bind, Option.bind_some]
  dsimp only
  rw [Option.pure_def]

end Rollup

/-! ### The other entry points -/

/-- A body that keeps the books, run under the lock. -/
lemma withLock_keeps {l : Lock} {m : Program α} {a : α} (hl : l ≠ .UNLOCKED)
    (hm : (bookDiscipline P answers id).Keeps m)
    (h : Completes ((V2.world P answers).env n) (withLock l m s) tr s' a) :
    s'.lock = Lock.UNLOCKED.toWord ∧ s'.books = s.books := by
  obtain ⟨-, s₁, hbody, rfl⟩ := withLock_inv h
  have hlocked : Locked (s.setLock l) := by
    rw [Locked, State.lock_setLock]
    revert hl
    cases l <;> decide
  obtain ⟨-, hb⟩ := sameBooks_completes hlocked hm hbody
  refine ⟨State.lock_setLock _, (books_setLock _ _).trans ?_⟩
  exact Eq.trans hb (books_setLock _ _)

/-- A setter that keeps the books. -/
lemma ownerSetter_inv {x : Context} {role : Role} {g : State → State} {a : Unit}
    (h : Completes E (ownerSetter x role g s) tr s' a) :
    s'.lock = Lock.UNLOCKED.toWord ∧ s'.books = (g (s.setLock .LOCKED)).books := by
  rw [withLock_modify_inv (onlyRole_inv h)]
  exact ⟨State.lock_setLock _, books_setLock _ _⟩

/-- Switching the caps changes the switch. -/
lemma books_setCapped (isCapped : Bool) (s : State) :
    (s.setRollupState CAPPED_BIT_OFFSET 8 (if isCapped then 1 else 0)).books =
      { s.books with capped := isCapped } := by
  have hvalue : (if isCapped then (1 : Word) else 0).toNat < 2 ^ 8 := by
    cases isCapped <;> decide
  have hcapped : field CAPPED_BIT_OFFSET 8 (setField CAPPED_BIT_OFFSET 8
      (if isCapped then 1 else 0) s.rollupState) = if isCapped then 1 else 0 :=
    field_setField_self _ hvalue (by decide)
  have hsize : field DATASIZE_BIT_OFFSET 32 (setField CAPPED_BIT_OFFSET 8
      (if isCapped then 1 else 0) s.rollupState) = field DATASIZE_BIT_OFFSET 32 s.rollupState :=
    field_setField_of_disjoint _ hvalue (by decide)
  simp only [State.books, State.capped, State.datasize, State.setRollupState, hcapped, hsize]
  cases isCapped <;> rfl

/-- The update of `setCapped`. -/
lemma setCapped_update (x : Context) (isCapped : Bool) (s : State) :
    (if isCapped = s.capped then s
      else ((if isCapped then { s with lastRollupTimeStamp := x.timestamp.setWidth 32 } else s :
        State).setRollupState CAPPED_BIT_OFFSET 8 (if isCapped then 1 else 0)).emit
          (.CappedUpdated isCapped)).books = { s.books with capped := isCapped } := by
  split
  · rename_i heq
    rw [heq]
    rfl
  · refine (books_setCapped isCapped _).trans ?_
    cases isCapped <;> rfl

/-- So does the whole entry. -/
lemma setCapped_books {x : Context} {isCapped : Bool} {a : Unit}
    (h : Completes E (setCapped x isCapped s) tr s' a) :
    s'.lock = Lock.UNLOCKED.toWord ∧ s'.books = { s.books with capped := isCapped } := by
  obtain ⟨hl, hb⟩ := ownerSetter_inv h
  refine ⟨hl, hb.trans ((setCapped_update x isCapped _).trans ?_)⟩
  rw [books_setLock]

/-- `increasePendingDepositBalance` writes the books and nothing else. -/
lemma increasePending_books {x : Context} {assetId : Word} {owner : Address} {amount : Word}
    (h : increasePending x assetId owner amount s = .ok s') :
    s'.lock = s.lock ∧ s.books.deposit x assetId owner amount = .ok s'.books := by
  have hcaps : s.books.nextCaps x assetId amount (s.books.deposits assetId owner) =
      nextCaps x assetId amount (s.userPendingDeposits assetId owner) s := rfl
  have hpending : s.books.deposits assetId owner = s.userPendingDeposits assetId owner := rfl
  rw [increasePending] at h
  rw [Books.deposit, hcaps, hpending]
  cases hc : nextCaps x assetId amount (s.userPendingDeposits assetId owner) s with
  | error e =>
    rw [hc] at h
    cases h
  | ok caps =>
    rw [hc] at h
    cases hp : checked 256 ((s.userPendingDeposits assetId owner).toNat + amount.toNat) with
    | error e =>
      simp only [bind, Except.bind, hp] at h
      cases h
    | ok newPending =>
      simp only [bind, Except.bind, hp] at h ⊢
      cases h
      exact ⟨rfl, rfl⟩

/-- A deposit writes the books before it pulls the tokens in. -/
lemma depositPendingFunds_books {x : Context} {assetId amount : Word} {owner : Address}
    {proofHash : Word} {a : Unit}
    (h : Completes ((V2.world P answers).env n)
      (depositPendingFunds x assetId amount owner proofHash s) tr s' a) :
    s'.lock = Lock.UNLOCKED.toWord ∧ s.books.deposit x assetId owner amount = .ok s'.books := by
  obtain ⟨-, s₁, hbody, rfl⟩ := withLock_inv (whenNotPaused_inv h)
  obtain ⟨-, h₁⟩ := Completes.require_bind hbody
  obtain ⟨-, h₂⟩ := h₁.require_bind
  obtain ⟨tr₁, tr₂, s₂, _, -, hinc, hrest⟩ := h₂.bind_inv
  obtain ⟨-, h₃⟩ := Completes.require_bind hinc
  obtain ⟨t, ht, h₄⟩ := h₃.get_bind.ofExcept_bind
  obtain ⟨-, rfl, -⟩ := h₄.done_inv
  obtain ⟨hlock, hbooks⟩ := increasePending_books ht
  have hlocked : Locked s₂ := by
    rw [Locked, hlock, State.lock_setLock]
    decide
  have hkeep : (bookDiscipline P answers id).Keeps (do
      (if proofHash ≠ 0 then approveProof x proofHash else pure ())
      Prog.modify (·.emit (.Deposit assetId owner amount))
      if assetId ≠ ETH_ASSET_ID then pullDeposit x assetId amount else pure () :
        Program Unit) := by
    refine .bind (.ite (confinesEntries_books.approveProof _ _) (.pure _)) fun _ =>
      .bind (books_modify (fun _ => rfl) fun _ => rfl) fun _ => .ite ?_ (.pure _)
    exact .bind .get fun _ => .bind (.ofExcept _) fun _ => .bind (.request fun _ h => h) fun _ =>
      .bind (.require _ _) fun _ => .bind (.require _ _) fun _ => .bind (.require _ _) fun _ =>
      .safeTransferFrom _ _ _ _
  obtain ⟨-, hb⟩ := sameBooks_completes hlocked hkeep hrest
  refine ⟨State.lock_setLock _, ?_⟩
  rw [books_setLock] at hbooks
  rw [hbooks, books_setLock]
  exact congrArg Except.ok (Eq.symm hb)

/-- Setting the cap of an asset changes that cap, and keeps what the new one needs. -/
lemma setAssetCap_books {x : Context} {assetId : Word} {pendingCap dailyCap : BitVec 32}
    {precision : BitVec 8} {a : Unit}
    (h : Completes E (setAssetCap x assetId pendingCap dailyCap precision s) tr s' a) :
    s'.lock = Lock.UNLOCKED.toWord ∧
      s.books.setAssetCap x assetId pendingCap dailyCap precision = .ok s'.books := by
  obtain ⟨-, s₁, hbody, rfl⟩ := withLock_inv (onlyRole_inv h)
  obtain ⟨factor, hfactor, h₁⟩ := Completes.ofExcept_bind hbody
  obtain ⟨total, htotal, h₂⟩ := h₁.ofExcept_bind
  obtain ⟨available, havailable, h₃⟩ := h₂.ofExcept_bind
  obtain ⟨-, rfl, -⟩ := h₃.done_inv
  refine ⟨State.lock_setLock _, ?_⟩
  rw [Books.setAssetCap, hfactor]
  simp only [bind, Except.bind, htotal, havailable, pure, Except.pure, books_setLock]
  have hs := books_setLock s .LOCKED
  rw [← hs]
  rfl

/-- Finalising an interaction keeps the books. -/
lemma processAsync_books {x : Context} {nonce : Word} {a : Bool}
    (hs : s.lock = Lock.UNLOCKED.toWord)
    (h : Completes ((V2.world P answers).env n) (V2.processAsyncDefiInteraction P x nonce s) tr s'
      a) : s'.lock = Lock.UNLOCKED.toWord ∧ s'.books = s.books := by
  have h₁ := (whenNotPaused_inv h).get_bind
  have hne : s.lock ≠ Lock.ALLOW_ASYNC_REENTER.toWord := hs.trans_ne (by decide)
  rw [if_neg hne] at h₁
  exact withLock_keeps (by decide) (books_finaliseBody x nonce) h₁

/-- Every accepted call from outside changes the books as `BookStep` says. -/
theorem V2.run_bookStep {e : Entry} {a : Option Bool} (hs : s.lock = Lock.UNLOCKED.toWord)
    (h : Completes ((V2.world P answers).env n) (V2.run P e s) tr s' a) :
    s'.lock = Lock.UNLOCKED.toWord ∧ BookStep P e s.books s'.books := by
  cases e with
  | processRollup x c =>
    obtain ⟨ph⟩ := V2.processRollup_phases (V2.run_processRollup h)
    obtain ⟨roots, hr⟩ := ph.rolled
    refine ⟨?_, ph.proofData, _, _, roots, ph.decoded_eq, hr⟩
    have hlock := congrArg State.lock ph.after_eq
    rwa [State.lock_setLock] at hlock
  | processAsyncDefiInteraction x nonce =>
    obtain ⟨tr₁, tr₂, s₁, b, rfl, h₁, h₂⟩ := Completes.bind_inv h
    obtain ⟨-, rfl, -⟩ := h₂.done_inv
    exact processAsync_books hs h₁
  | receiveEthFromBridge x nonce =>
    obtain ⟨-, rfl, -⟩ := (noReturnValue_inv h).done_inv
    exact ⟨hs, rfl⟩
  | approveProof x proofHash =>
    obtain ⟨-, rfl, -⟩ := (whenNotPaused_inv (noReturnValue_inv h)).done_inv
    exact ⟨hs, rfl⟩
  | depositPendingFunds x assetId amount owner proofHash =>
    exact depositPendingFunds_books (noReturnValue_inv h)
  | offchainData x rollupId chunk totalChunks =>
    obtain ⟨-, rfl, -⟩ := (whenNotPaused_inv (noReturnValue_inv h)).done_inv
    exact ⟨hs, rfl⟩
  | pause x =>
    rw [withLock_modify_inv (onlyRole_inv (whenNotPaused_inv (noReturnValue_inv h)))]
    refine ⟨State.lock_setLock _, (books_setLock _ _).trans ?_⟩
    exact (books_setRollupState (by decide) (by decide)).trans (books_setLock _ _)
  | unpause x =>
    rw [withLock_modify_inv (onlyRole_inv (noReturnValue_inv h).get_bind.require_bind.2)]
    refine ⟨State.lock_setLock _, (books_setLock _ _).trans ?_⟩
    exact (books_setRollupState (by decide) (by decide)).trans (books_setLock _ _)
  | setCapped x isCapped => exact setCapped_books (noReturnValue_inv h)
  | setRollupProvider x provider valid =>
    obtain ⟨hl, hb⟩ := ownerSetter_inv (noReturnValue_inv h)
    exact ⟨hl, hb.trans (books_setLock _ _)⟩
  | setAssetCap x assetId pendingCap dailyCap precision =>
    exact setAssetCap_books (noReturnValue_inv h)
  | setDelayBeforeEscapeHatch x delay =>
    obtain ⟨hl, hb⟩ := ownerSetter_inv (noReturnValue_inv h)
    exact ⟨hl, hb.trans (books_setLock _ _)⟩
  | setVerifier x verifier =>
    refine withLock_keeps (by decide) ?_ (onlyRole_inv (noReturnValue_inv h))
    refine .bind (.require _ _) fun _ => .modify fun t => ?_
    have hlt : (verifier.setWidth 256).toNat < 2 ^ 160 := by
      rw [BitVec.toNat_setWidth]
      exact lt_of_le_of_lt (Nat.mod_le _ _) verifier.isLt
    exact books_allows (State.lock_setRollupState hlt (by decide))
      (books_setRollupState hlt (by decide))
  | setAllowThirdPartyContracts x allowed =>
    obtain ⟨hl, hb⟩ := ownerSetter_inv (noReturnValue_inv h)
    exact ⟨hl, hb.trans (books_setLock _ _)⟩
  | setDefiBridgeProxy x proxy =>
    refine withLock_keeps (by decide) ?_ (onlyRole_inv (noReturnValue_inv h))
    exact .bind (.require _ _) fun _ => .modify fun t => books_allows rfl rfl
  | setSupportedAsset x token gasLimit =>
    have h₁ := (whenNotPaused_inv (noReturnValue_inv h)).get_bind.require_bind.2
    refine withLock_keeps (by decide) ?_ h₁
    exact .bind (.require _ _) fun _ => .bind (.require _ _) fun _ =>
      .modify fun t => books_allows rfl rfl
  | setSupportedBridge x bridge gasLimit =>
    have h₁ := (whenNotPaused_inv (noReturnValue_inv h)).get_bind.require_bind.2
    refine withLock_keeps (by decide) ?_ h₁
    exact .bind (.require _ _) fun _ => .bind (.require _ _) fun _ =>
      .modify fun t => books_allows rfl rfl

end Entries

/-! ## Runs -/

/-- Accepted calls from outside. -/
abbrev History := List (Call Entry State ExternalCall Reply (Option Bool))

/-- An invariant of the book steps is an invariant of the runs. -/
theorem Run.bookInvariant {I : History → State → Prop} {s s' : State} {history : History}
    (hs : s.lock = Lock.UNLOCKED.toWord) (h : Run (V2.world P answers) s history s') (h₀ : I [] s)
    (hstep : ∀ history s₁ s₂ e tr a, I history s₁ → BookStep P e s₁.books s₂.books →
      I (history ++ [⟨e, s₁, tr, a, s₂⟩]) s₂) :
    s'.lock = Lock.UNLOCKED.toWord ∧ I history s' := by
  apply h.invariant (I := fun history s' => s'.lock = Lock.UNLOCKED.toWord ∧ I history s') ⟨hs, h₀⟩
  rintro history s₁ s₂ e tr a n ⟨hl, hI⟩ hc
  obtain ⟨hl', hb⟩ := V2.run_bookStep hl hc
  exact ⟨hl', hstep history s₁ s₂ e tr a hI hb⟩

end AztecConnect.Contract
