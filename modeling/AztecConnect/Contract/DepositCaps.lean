import AztecConnect.Contract.Books
import AztecConnect.Lib.TokenBucket

/-!
# Deposit caps

While capping is enabled, the amount of an asset that can be deposited is a token bucket:
`accrueCap` withdraws from it (`accrueCap_inv`). The deposits of consecutive calls are withdrawals
one after the other (`Run.takes`), whatever other calls are made in between, which bounds them in
every window of time (`deposits_within_caps`).
-/

namespace AztecConnect.Contract

open Resumption Bits TokenBucket

variable {P : Params} {answers : ExternalCall → State → Reply → Prop}

/-! ## One deposit -/

/-- `dailyCap` in units of the asset. -/
def AssetCap.capVal (cap : AssetCap) : Nat := cap.dailyCap.toNat * 10 ^ cap.precision.toNat

/-- `pendingCap` in units of the asset. -/
def AssetCap.pendingVal (cap : AssetCap) : Nat := cap.pendingCap.toNat * 10 ^ cap.precision.toNat

/-- The bucket of an asset: a day refills it. -/
def AssetCap.limits (cap : AssetCap) : Limits := ⟨cap.capVal, cap.capVal / 86400⟩

/-- A cap is a token bucket: what is available, and since when. -/
def AssetCap.bucket (cap : AssetCap) : Bucket := ⟨cap.available.toNat, cap.lastUpdatedTimestamp.toNat⟩

/-- An accepted deposit stays below the pending cap and withdraws from the bucket; nothing is
truncated. -/
lemma accrueCap_inv {cap cap' : AssetCap} {pending amount timestamp : Nat}
    (h : accrueCap cap pending amount timestamp = .ok cap') :
    pending + amount ≤ cap.pendingVal ∧ ∃ available < 2 ^ 128,
      cap.bucket.take cap.limits ⟨timestamp, amount⟩ = some ⟨available, timestamp⟩ ∧
      cap' = { cap with
        available := BitVec.ofNat 128 available
        lastUpdatedTimestamp := BitVec.ofNat 32 timestamp } := by
  rw [accrueCap] at h
  obtain ⟨precision, hprecision, h₁⟩ := bind_eq_ok h
  obtain ⟨-, rfl⟩ := checked_inv hprecision
  obtain ⟨-, h₂⟩ := check_inv h₁
  obtain ⟨newPending, hnew, h₃⟩ := bind_eq_ok h₂
  obtain ⟨-, rfl⟩ := checked_inv hnew
  obtain ⟨pendingCap, hpending, h₄⟩ := bind_eq_ok h₃
  obtain ⟨-, rfl⟩ := checked_inv hpending
  obtain ⟨hle, h₅⟩ := check_inv h₄
  obtain ⟨-, h₆⟩ := check_inv h₅
  obtain ⟨capVal, hcap, h₇⟩ := bind_eq_ok h₆
  obtain ⟨-, rfl⟩ := checked_inv hcap
  obtain ⟨htime, h₈⟩ := check_inv h₇
  obtain ⟨accrued, haccrued, h₉⟩ := bind_eq_ok h₈
  obtain ⟨-, haccrued⟩ := checked_inv haccrued
  obtain ⟨accrued', hcast, h₁₀⟩ := bind_eq_ok h₉
  obtain ⟨-, rfl⟩ := toU128_inv hcast
  obtain ⟨available, havailable, h₁₁⟩ := bind_eq_ok h₁₀
  obtain ⟨hlt, rfl⟩ := checked_inv havailable
  obtain ⟨available', hmin, henough, hcap'⟩ : ∃ available',
      (if cap.capVal < cap.available.toNat + accrued' then toU128 cap.capVal
        else pure (cap.available.toNat + accrued')) = .ok available' ∧ ¬ available' < amount ∧
      (pure { cap with
        available := BitVec.ofNat 128 (available' - amount)
        lastUpdatedTimestamp := BitVec.ofNat 32 timestamp } : Except RevertReason AssetCap) =
        .ok cap' := by
    rcases Nat.lt_or_ge cap.capVal (cap.available.toNat + accrued') with hlt | hge
    · rw [if_pos hlt]
      rw [AssetCap.capVal] at hlt
      obtain ⟨available', hmin, h₁₂⟩ := bind_eq_ok ((if_pos hlt).symm.trans h₁₁)
      exact ⟨available', hmin, check_inv h₁₂⟩
    · rw [if_neg (Nat.not_lt_of_le hge)]
      rw [AssetCap.capVal] at hge
      exact ⟨_, rfl, check_inv ((if_neg (Nat.not_lt_of_le hge)).symm.trans h₁₁)⟩
  cases hcap'
  have hrefilled : cap.bucket.refilled cap.limits timestamp = available' := by
    have haccrued' : accrued' = cap.capVal / 86400 *
        (timestamp - cap.lastUpdatedTimestamp.toNat) := haccrued
    simp only [Bucket.refilled, AssetCap.bucket, AssetCap.limits, ← haccrued']
    split at hmin
    · obtain ⟨-, rfl⟩ := toU128_inv hmin
      omega
    · cases hmin
      omega
  have hsmall : available' < 2 ^ 128 := by
    split at hmin
    · obtain ⟨hcap, rfl⟩ := toU128_inv hmin
      exact hcap
    · cases hmin
      exact hlt
  refine ⟨Nat.le_of_not_lt hle, available' - amount, by omega, ?_, rfl⟩
  rw [Bucket.take, hrefilled, if_neg]
  rintro (hback | hshort)
  · exact htime hback
  · exact henough hshort

/-! ## One call -/

/-- The environment of a call. -/
def Entry.context : Entry → Context
  | .processRollup x _ => x
  | .processAsyncDefiInteraction x _ => x
  | .receiveEthFromBridge x _ => x
  | .approveProof x _ => x
  | .depositPendingFunds x _ _ _ _ => x
  | .offchainData x _ _ _ => x
  | .pause x => x
  | .unpause x => x
  | .setCapped x _ => x
  | .setRollupProvider x _ _ => x
  | .setAssetCap x _ _ _ _ => x
  | .setDelayBeforeEscapeHatch x _ => x
  | .setVerifier x _ => x
  | .setAllowThirdPartyContracts x _ => x
  | .setDefiBridgeProxy x _ => x
  | .setSupportedAsset x _ _ => x
  | .setSupportedBridge x _ _ => x

/-- The time of a call. -/
def Entry.time (e : Entry) : Nat := e.context.timestamp.toNat

/-- A deposit of the asset. -/
def Entry.deposit? (assetId : Word) : Entry → Option Take
  | .depositPendingFunds x a amount _ _ =>
    if a = assetId then some ⟨x.timestamp.toNat, amount.toNat⟩ else none
  | _ => none

/-- The call sets the cap of the asset. -/
def Entry.SetsCap (assetId : Word) : Entry → Prop
  | .setAssetCap _ a _ _ _ => a = assetId
  | _ => False

section Step

variable {e : Entry} {b b' : Books} {assetId : Word}

/-- The caps after a deposit while capping is enabled. -/
lemma Books.nextCaps_inv {x : Context} {amount pending : Word} {caps : Word → AssetCap}
    (hc : b.capped = true) (h : b.nextCaps x assetId amount pending = .ok caps) :
    ∃ cap, accrueCap (b.caps assetId) pending.toNat amount.toNat x.timestamp.toNat = .ok cap ∧
      caps = Function.update b.caps assetId cap := by
  rw [Books.nextCaps, if_pos hc] at h
  obtain ⟨cap, hcap, h₁⟩ := bind_eq_ok h
  cases h₁
  exact ⟨cap, hcap, rfl⟩

/-- A deposit withdraws from the bucket of its asset. -/
lemma Books.deposit_take {x : Context} {owner : Address} {amount : Word} (hc : b.capped = true)
    (ht : x.timestamp.toNat < 2 ^ 32) (h : b.deposit x assetId owner amount = .ok b') :
    (b.caps assetId).bucket.take (b.caps assetId).limits ⟨x.timestamp.toNat, amount.toNat⟩ =
      some (b'.caps assetId).bucket ∧ (b'.caps assetId).limits = (b.caps assetId).limits := by
  obtain ⟨caps, newPending, hcaps, -, rfl⟩ := Books.deposit_inv h
  obtain ⟨cap, hcap, rfl⟩ := Books.nextCaps_inv hc hcaps
  obtain ⟨-, available, hlt, htake, rfl⟩ := accrueCap_inv hcap
  simp only [Books.setDeposit, Function.update_self]
  rw [htake]
  refine ⟨?_, rfl⟩
  simp only [AssetCap.bucket, BitVec.toNat_ofNat, Nat.mod_eq_of_lt hlt, Nat.mod_eq_of_lt ht]

/-- The other caps. -/
lemma Books.deposit_caps_of_ne {x : Context} {a : Word} {owner : Address} {amount : Word}
    (hne : a ≠ assetId) (h : b.deposit x a owner amount = .ok b') :
    b'.caps assetId = b.caps assetId := by
  obtain ⟨caps, newPending, hcaps, -, rfl⟩ := Books.deposit_inv h
  simp only [Books.setDeposit]
  rw [Books.nextCaps] at hcaps
  split at hcaps
  · obtain ⟨cap, -, h₁⟩ := bind_eq_ok hcaps
    cases h₁
    exact Function.update_of_ne (Ne.symm hne) _ _
  · cases hcaps
    rfl

/-- A call that neither deposits the asset nor sets its cap. -/
lemma BookStep.caps_eq (h : BookStep P e b b') (hd : e.deposit? assetId = none)
    (hset : ¬ e.SetsCap assetId) : b'.caps assetId = b.caps assetId := by
  cases e with
  | processRollup x c =>
    obtain ⟨p, numTxs, hashedSlots, r, -, hr⟩ := h
    exact congrFun hr.caps assetId
  | depositPendingFunds x a amount owner proofHash =>
    refine Books.deposit_caps_of_ne ?_ h
    rintro rfl
    simp [Entry.deposit?] at hd
  | setCapped x isCapped =>
    obtain rfl : b' = _ := h
    rfl
  | setAssetCap x a pendingCap dailyCap precision =>
    obtain ⟨-, -, rfl⟩ := Books.setAssetCap_inv h
    exact Function.update_of_ne (Ne.symm hset) _ _
  | _ =>
    obtain rfl : b' = b := h
    rfl

/-- What is available never exceeds the daily cap. -/
lemma BookStep.available_le (h : BookStep P e b b')
    (hb : (b.caps assetId).available.toNat ≤ (b.caps assetId).capVal) :
    (b'.caps assetId).available.toNat ≤ (b'.caps assetId).capVal := by
  cases e with
  | depositPendingFunds x a amount owner proofHash =>
    rcases eq_or_ne a assetId with rfl | hne
    · obtain ⟨caps, newPending, hcaps, -, rfl⟩ := Books.deposit_inv h
      cases hc : b.capped with
      | true =>
        obtain ⟨cap, hcap, rfl⟩ := Books.nextCaps_inv hc hcaps
        obtain ⟨-, available, hlt, htake, rfl⟩ := accrueCap_inv hcap
        have hle := Bucket.take_le_capacity htake
        simp only [Books.setDeposit, Function.update_self, BitVec.toNat_ofNat, Nat.mod_eq_of_lt hlt]
        exact hle
      | false =>
        rw [Books.nextCaps, if_neg (by simp [hc])] at hcaps
        cases hcaps
        exact hb
    · rw [Books.deposit_caps_of_ne hne h]
      exact hb
  | setAssetCap x a pendingCap dailyCap precision =>
    rcases eq_or_ne a assetId with rfl | hne
    · obtain ⟨-, hlt, rfl⟩ := Books.setAssetCap_inv h
      simp only [Function.update_self, AssetCap.capVal, BitVec.toNat_ofNat]
      exact Nat.mod_le _ _
    · rw [h.caps_eq rfl hne]
      exact hb
  | _ =>
    rw [h.caps_eq rfl id]
    exact hb

end Step

/-! ## Runs -/

/-- The deposits of the asset. -/
def deposits (assetId : Word) (history : History) : List Take :=
  history.filterMap fun call => call.entry.deposit? assetId

/-- Consecutive calls that are made between two times, with capping enabled and the cap of the asset
left alone. -/
structure Window (assetId : Word) (t₁ t₂ : Nat) (calls : History) : Prop where
  time : ∀ call ∈ calls, t₁ ≤ call.entry.time ∧ call.entry.time ≤ t₂
  capped : ∀ call ∈ calls, call.before.capped = true
  cap : ∀ call ∈ calls, ¬ call.entry.SetsCap assetId

/-- A front of a window is within the window. -/
lemma Window.of_append {assetId : Word} {t₁ t₂ : Nat} {calls calls' : History}
    (h : Window assetId t₁ t₂ (calls ++ calls')) : Window assetId t₁ t₂ calls :=
  ⟨fun c hc => h.time c (List.mem_append_left _ hc),
    fun c hc => h.capped c (List.mem_append_left _ hc),
    fun c hc => h.cap c (List.mem_append_left _ hc)⟩

/-- The deposits of a window lie within its times. -/
lemma Window.deposits_time {assetId : Word} {t₁ t₂ : Nat} {calls : History}
    (h : Window assetId t₁ t₂ calls) :
    ∀ op ∈ deposits assetId calls, t₁ ≤ op.time ∧ op.time ≤ t₂ := by
  intro op hop
  obtain ⟨c, hc, hd⟩ := List.mem_filterMap.mp hop
  have htime := h.time c hc
  generalize c.entry = e at hd htime
  cases e with
  | depositPendingFunds x a amount owner proofHash =>
    obtain ⟨-, rfl⟩ : a = assetId ∧ (⟨x.timestamp.toNat, amount.toNat⟩ : Take) = op := by
      simpa [Entry.deposit?] using hd
    exact htime
  | _ => simp [Entry.deposit?] at hd

/-- The deposits of a window withdraw from the bucket one after the other. -/
lemma Run.takes {s s' : State} {calls : History} {assetId : Word} {t₁ t₂ : Nat}
    (ht : t₂ < 2 ^ 32) (hs : s.lock = Lock.UNLOCKED.toWord)
    (h : Run (V2.world P answers) s calls s') (hw : Window assetId t₁ t₂ calls) :
    ((s.caps assetId).bucket.takes (s.caps assetId).limits (deposits assetId calls) =
      some (s'.caps assetId).bucket ∧ (s'.caps assetId).limits = (s.caps assetId).limits) ∧
      ∀ call ∈ calls, (call.before.caps assetId).limits = (s.caps assetId).limits := by
  refine (Run.bookInvariant (I := fun calls s' => Window assetId t₁ t₂ calls →
    ((s.caps assetId).bucket.takes (s.caps assetId).limits (deposits assetId calls) =
      some (s'.caps assetId).bucket ∧ (s'.caps assetId).limits = (s.caps assetId).limits) ∧
      ∀ call ∈ calls, (call.before.caps assetId).limits = (s.caps assetId).limits) hs h
    (fun _ => ⟨⟨rfl, rfl⟩, by simp⟩) ?_).2 hw
  intro calls s₁ s₂ e tr a ih hstep hw
  obtain ⟨⟨htakes, hlimits⟩, hbefore⟩ := ih hw.of_append
  have hlast : (⟨e, s₁, tr, a, s₂⟩ : Call Entry State ExternalCall Reply (Option Bool)) ∈
      calls ++ [⟨e, s₁, tr, a, s₂⟩] := List.mem_append_right _ List.mem_cons_self
  have hcap := hw.cap _ hlast
  have hsplit : deposits assetId (calls ++ [⟨e, s₁, tr, a, s₂⟩]) =
      deposits assetId calls ++ (e.deposit? assetId).toList := by
    rw [deposits, List.filterMap_append]
    cases hd : e.deposit? assetId <;> simp [deposits, hd]
  have hbefore' : ∀ call ∈ calls ++ [⟨e, s₁, tr, a, s₂⟩],
      (call.before.caps assetId).limits = (s.caps assetId).limits := by
    intro call hcall
    rcases List.mem_append.mp hcall with hcall | hcall
    · exact hbefore call hcall
    · rw [List.mem_singleton] at hcall
      rw [hcall]
      exact hlimits
  refine ⟨?_, hbefore'⟩
  rw [hsplit, Bucket.takes_append, htakes]
  cases hd : e.deposit? assetId with
  | none =>
    have heq : s₂.caps assetId = s₁.caps assetId := hstep.caps_eq hd hcap
    rw [heq]
    exact ⟨rfl, hlimits⟩
  | some op =>
    cases e with
    | depositPendingFunds x b amount owner proofHash =>
      obtain ⟨rfl, rfl⟩ : b = assetId ∧ (⟨x.timestamp.toNat, amount.toNat⟩ : Take) = op := by
        simpa [Entry.deposit?] using hd
      have htime : x.timestamp.toNat < 2 ^ 32 := lt_of_le_of_lt (hw.time _ hlast).2 ht
      obtain ⟨htake, hsame⟩ := Books.deposit_take (hw.capped _ hlast) htime hstep
      have htake' : (s₁.caps b).bucket.take (s.caps b).limits
          ⟨x.timestamp.toNat, amount.toNat⟩ = some (s₂.caps b).bucket := hlimits ▸ htake
      refine ⟨?_, hsame.trans hlimits⟩
      simp only [Option.bind_some, Option.toList_some, Bucket.takes, htake']
    | _ => simp [Entry.deposit?] at hd

/-- The caps that `initialize` sets. -/
def V2.initialCaps (timestamp : BitVec 32) (assetId : Word) : AssetCap :=
  if assetId = 0 then ⟨1000000000000000000000, timestamp, 6, 1000, 18⟩
  else if assetId = 1 then ⟨1000000000000000000000000, timestamp, 10100, 1000000, 18⟩
  else ⟨0, 0, 0, 0, 0⟩

/-- A cap starts no higher than its limit. -/
lemma V2.initialCaps_available_le (timestamp : BitVec 32) (assetId : Word) :
    (V2.initialCaps timestamp assetId).available.toNat ≤ (V2.initialCaps timestamp assetId).capVal := by
  rw [V2.initialCaps]
  split
  · simp [AssetCap.capVal]
  · split
    · simp [AssetCap.capVal]
    · simp [AssetCap.capVal]

/-- What a call stores is what the source computes over the integers: no cast and no exponentiation
loses anything. -/
def StoresExactly (call : Call Entry State ExternalCall Reply (Option Bool)) : Prop :=
  match call.entry with
  | .depositPendingFunds x assetId amount owner _ =>
    (call.after.userPendingDeposits assetId owner).toNat =
        (call.before.userPendingDeposits assetId owner).toNat + amount.toNat ∧
      (call.before.capped = true → x.timestamp.toNat < 2 ^ 32 →
        (call.before.caps assetId).bucket.take (call.before.caps assetId).limits
          ⟨x.timestamp.toNat, amount.toNat⟩ = some (call.after.caps assetId).bucket)
  | .setAssetCap x assetId pendingCap dailyCap precision =>
    (call.after.caps assetId).pendingCap = pendingCap ∧
      (call.after.caps assetId).dailyCap = dailyCap ∧
      (call.after.caps assetId).precision = precision ∧
      (call.after.caps assetId).available.toNat = dailyCap.toNat * 10 ^ precision.toNat ∧
      (x.timestamp.toNat < 2 ^ 32 →
        (call.after.caps assetId).lastUpdatedTimestamp.toNat = x.timestamp.toNat)
  | _ => True

/-- A step of the books stores exactly what the call writes. -/
lemma BookStep.storesExactly {call : Call Entry State ExternalCall Reply (Option Bool)}
    (h : BookStep P call.entry call.before.books call.after.books) : StoresExactly call := by
  obtain ⟨e, s, tr, a, s'⟩ := call
  cases e with
  | depositPendingFunds x assetId amount owner proofHash =>
    refine ⟨?_, fun hc ht => (Books.deposit_take hc ht h).1⟩
    obtain ⟨caps, newPending, -, hnew, hb⟩ := Books.deposit_inv h
    obtain ⟨hlt, rfl⟩ := checked_inv hnew
    have hd := congrFun (congrFun (congrArg Books.deposits hb) assetId) owner
    simp only [Books.setDeposit, Function.update_self] at hd
    refine (congrArg BitVec.toNat hd).trans ?_
    rw [BitVec.toNat_ofNat, Nat.mod_eq_of_lt hlt]
    rfl
  | setAssetCap x assetId pendingCap dailyCap precision =>
    obtain ⟨-, hlt, hb⟩ := Books.setAssetCap_inv h
    have hcap := congrFun (congrArg Books.caps hb) assetId
    simp only [Function.update_self] at hcap
    have hcap' : s'.caps assetId = _ := hcap
    simp only [StoresExactly, hcap', BitVec.toNat_ofNat, BitVec.toNat_setWidth,
      Nat.mod_eq_of_lt hlt, true_and]
    exact fun ht => Nat.mod_eq_of_lt ht
  | _ => trivial

/-- A deposit leaves its owner below the pending cap. -/
lemma Books.deposit_pending_le {x : Context} {assetId : Word} {owner : Address} {amount : Word}
    {b b' : Books} (hc : b.capped = true) (h : b.deposit x assetId owner amount = .ok b') :
    (b'.deposits assetId owner).toNat ≤ (b'.caps assetId).pendingVal := by
  obtain ⟨caps, newPending, hcaps, hnew, rfl⟩ := Books.deposit_inv h
  obtain ⟨cap, hcap, rfl⟩ := Books.nextCaps_inv hc hcaps
  obtain ⟨hle, available, -, -, rfl⟩ := accrueCap_inv hcap
  obtain ⟨hlt, rfl⟩ := checked_inv hnew
  simp only [Books.setDeposit, Function.update_self, BitVec.toNat_ofNat, Nat.mod_eq_of_lt hlt]
  exact hle

/-- The deposits of a history are within the caps. -/
structure WithinCaps (history : History) (s' : State) : Prop where
  available : ∀ assetId, (s'.caps assetId).available.toNat ≤ (s'.caps assetId).capVal
  pending : ∀ call ∈ history, ∀ x assetId amount owner proofHash,
    call.entry = .depositPendingFunds x assetId amount owner proofHash →
    call.before.capped = true →
    (call.after.userPendingDeposits assetId owner).toNat ≤ (call.after.caps assetId).pendingVal
  /-- In every window of time, the deposits of an asset come to at most its daily cap and what
  accrues in the window. -/
  window : ∀ earlier calls later, history = earlier ++ calls ++ later → ∀ assetId t₁ t₂,
    t₂ < 2 ^ 32 → Window assetId t₁ t₂ calls → ∀ call ∈ calls,
    ((deposits assetId calls).map Take.amount).sum ≤ (call.before.caps assetId).capVal +
      (call.before.caps assetId).capVal / 86400 * (t₂ - t₁)
  exactly : ∀ call ∈ history, StoresExactly call

/-- In every run of the initialised contract, deposits are within the caps. -/
theorem deposits_within_caps {s s' : State} {history : History} {timestamp : BitVec 32}
    (hs : s.lock = Lock.UNLOCKED.toWord) (hcaps : s.caps = V2.initialCaps timestamp)
    (h : Run (V2.world P answers) s history s') : WithinCaps history s' := by
  have hbooks := (Run.bookInvariant (I := fun history s' =>
    (∀ assetId, (s'.caps assetId).available.toNat ≤ (s'.caps assetId).capVal) ∧
      ∀ call ∈ history, BookStep P call.entry call.before.books call.after.books) hs h
    ⟨fun assetId => hcaps ▸ V2.initialCaps_available_le timestamp assetId, by simp⟩ ?_).2
  · obtain ⟨havailable, hsteps⟩ := hbooks
    refine ⟨havailable, ?_, ?_, fun call hcall => (hsteps call hcall).storesExactly⟩
    · intro call hcall x assetId amount owner proofHash he hc
      have hstep := hsteps call hcall
      rw [he] at hstep
      exact Books.deposit_pending_le hc hstep
    · rintro earlier calls later rfl assetId t₁ t₂ ht hw call hcall
      obtain ⟨s₂, h₁₂, -⟩ := Run.append_inv h
      obtain ⟨s₁, h₁, h₂⟩ := Run.append_inv h₁₂
      have hs₁ := (Run.bookInvariant (I := fun _ _ => True) hs h₁ trivial
        fun _ _ _ _ _ _ _ _ => trivial).1
      obtain ⟨⟨htakes, -⟩, hbefore⟩ := Run.takes ht hs₁ h₂ hw
      have hlimits := hbefore call hcall
      have hsum := Bucket.sum_takes_le htakes hw.deposits_time
      rw [← hlimits] at hsum
      exact hsum
  · rintro history s₁ s₂ e tr a ⟨havailable, hsteps⟩ hstep
    refine ⟨fun assetId => hstep.available_le (havailable assetId), ?_⟩
    intro call hcall
    rcases List.mem_append.mp hcall with hcall | hcall
    · exact hsteps call hcall
    · rw [List.mem_singleton] at hcall
      subst hcall
      exact hstep

namespace TwoDeposits

/-- The sample deployment after `initialize`, capping enabled. -/
def genesis : State :=
  { Sample.genesis with
    rollupState := BitVec.ofNat 256 (3 + 2 ^ 240)
    caps := V2.initialCaps 1700000000 }

/-- A deposit of `amount` wei, `delay` seconds later. -/
def deposit (delay amount : Word) : Entry :=
  .depositPendingFunds { Sample.context with value := amount, timestamp := 1700000000 + delay } 0
    amount 5 0

end TwoDeposits

/-- Two deposits of ETH, a minute apart. -/
theorem deposits_within_caps_sample :
    ∃ history s, Run (V2.world Sample.params fun _ _ _ => True) TwoDeposits.genesis history s ∧
      s.userPendingDeposits 0 5 = 5000000000000000000 ∧ WithinCaps history s := by
  have hrun : ((V2.world Sample.params fun _ _ _ => True).exec Sample.answer
      [TwoDeposits.deposit 0 2000000000000000000, TwoDeposits.deposit 60 3000000000000000000] []
      TwoDeposits.genesis).map (·.2.userPendingDeposits 0 5) = some 5000000000000000000 := by
    decide +kernel
  obtain ⟨⟨history, s⟩, hs, hpending⟩ := Option.map_eq_some_iff.mp hrun
  have hR := World.exec_run (fun _ _ => trivial) .nil hs
  exact ⟨history, s, hR, hpending, deposits_within_caps (by decide +kernel) rfl hR⟩

end AztecConnect.Contract
