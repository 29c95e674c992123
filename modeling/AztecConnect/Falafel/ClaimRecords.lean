import AztecConnect.Falafel.DataStartIndex

/-!
# The world state as a replay of the chain

After every block, the trees of falafel are those of the rollups of the chain on empty trees, whether a
rollup is its own or not, and its claims are those of the defi deposits of the chain, with the nonce of
their interaction, the fee that the deposit leaves, and the block with the result (`worldState_replayed`).
-/

namespace AztecConnect.Falafel

/-! ## The last block that satisfies a condition -/

/-- The block with number `r` is the last one, from number `k` on, that satisfies a condition. -/
structure LastBlock (chain : List Block) (k : Nat) (Q : Block → Prop) (r : Nat) (b : Block) : Prop where
  le : k ≤ r
  block : chain[r]? = some b
  holds : Q b
  last : ∀ r' b', r < r' → chain[r']? = some b' → ¬ Q b'

variable {chain : List Block} {b : Block} {k r : Nat} {Q : Block → Prop}

/-- A block of a longer chain is an old one or the last. -/
lemma getElem?_concat {b' : Block} (h : (chain ++ [b])[r]? = some b') :
    chain[r]? = some b' ∧ r < chain.length ∨ r = chain.length ∧ b' = b := by
  rcases Nat.lt_trichotomy r chain.length with hlt | heq | hgt
  · rw [List.getElem?_append_left hlt] at h
    exact .inl ⟨h, hlt⟩
  · rw [heq, List.getElem?_concat_length] at h
    exact .inr ⟨heq, (Option.some.inj h).symm⟩
  · rw [List.getElem?_eq_none] at h
    · nomatch h
    · rw [List.length_append, List.length_singleton]
      exact hgt

/-- If the new block qualifies, it is the last one that does. -/
lemma LastBlock.of_concat (hk : k ≤ chain.length) (h : Q b) :
    LastBlock (chain ++ [b]) k Q chain.length b where
  le := hk
  block := List.getElem?_concat_length
  holds := h
  last r' b' hlt hb' := by
    rcases getElem?_concat hb' with ⟨-, hr'⟩ | ⟨hr', -⟩
    · omega
    · omega

/-- With one more block, it is the last one. -/
lemma lastBlock_concat_pos {b' : Block} (hk : k ≤ chain.length) (h : Q b) :
    LastBlock (chain ++ [b]) k Q r b' ↔ r = chain.length ∧ b' = b := by
  constructor
  case mp =>
    intro hlast
    rcases getElem?_concat hlast.block with ⟨-, hr⟩ | hr
    · exact absurd h (hlast.last chain.length b hr List.getElem?_concat_length)
    · exact hr
  case mpr =>
    rintro ⟨rfl, rfl⟩
    exact .of_concat hk h

/-- With one more block that does not satisfy the condition, nothing changes. -/
lemma lastBlock_concat_neg {b' : Block} (h : ¬ Q b) :
    LastBlock (chain ++ [b]) k Q r b' ↔ LastBlock chain k Q r b' := by
  constructor
  case mp =>
    intro hlast
    rcases getElem?_concat hlast.block with ⟨hb', hr⟩ | ⟨-, rfl⟩
    · refine ⟨hlast.le, hb', hlast.holds, fun r'' b'' hlt hb'' => hlast.last r'' b'' hlt ?_⟩
      rw [List.getElem?_append_left (List.getElem?_eq_some_iff.mp hb'').1]
      exact hb''
    · exact absurd hlast.holds h
  case mpr =>
    intro hlast
    have hr : r < chain.length := (List.getElem?_eq_some_iff.mp hlast.block).1
    refine ⟨hlast.le, ?_, hlast.holds, fun r'' b'' hlt hb'' => ?_⟩
    · rw [List.getElem?_append_left hr]
      exact hlast.block
    · rcases getElem?_concat hb'' with ⟨hold, -⟩ | ⟨-, rfl⟩
      · exact hlast.last r'' b'' hlt hold
      · exact h

/-- No block is behind the chain. -/
lemma lastBlock_start {b' : Block} : ¬ LastBlock chain chain.length Q r b' := fun h =>
  absurd (List.getElem?_eq_some_iff.mp h.block).1 (Nat.not_lt.mpr h.le)

/-! ## The deposits of a block -/

/-- The offchain data of a transaction are those after the ones of the transactions before it that are not
padding. -/
def depositDataIn (E : WorldStateEnv) (txs : List InnerProofData) (offchainTxData : List Nat) (i : Nat) :
    Option OffchainDefiDepositData :=
  offchainTxData[(txs.take i).countP (·.proofId ≠ .PADDING)]?.bind E.offchainDefiDepositData

/-- The transaction with an index is a defi deposit, with its offchain data. -/
structure IsDeposit (E : WorldStateEnv) (b : Block) (i : Nat) (tx : InnerProofData)
    (data : OffchainDefiDepositData) : Prop where
  mem : b.rollup.innerProofData[i]? = some tx
  proofId : tx.proofId = .DEFI_DEPOSIT
  data : depositDataIn E b.rollup.innerProofData b.offchainTxData i = some data

/-- A claim of a deposit in the block with number `k`, as the blocks since then leave it. -/
structure Recorded (E : WorldStateEnv) (chain : List Block) (k : Nat) (b : Block) (i : Nat)
    (tx : InnerProofData) (data : OffchainDefiDepositData) (c : ClaimDao) : Prop where
  id : c.id = b.rollup.dataStartIndex + i * 2
  nullifier : c.nullifier = E.claimNoteNullifier
    ⟨data.depositValue, data.bridgeCallData, c.interactionNonce, c.fee, data.partialState, tx.nullifier1⟩
  bridgeId : c.bridgeId = data.bridgeCallData
  inputNullifier : c.inputNullifier = tx.nullifier1
  fee : c.fee = data.txFee - (data.txFee >>> 1)
  /-- The nonce of the interaction with the bridge call data of the deposit, which is that of the first
  position in the header. -/
  interactionNonce : data.bridgeCallData ∈ b.rollup.bridgeCallDatas →
    ∃ j, b.rollup.bridgeCallDatas[j]? = some data.bridgeCallData ∧
      (∀ j' < j, b.rollup.bridgeCallDatas[j']? ≠ some data.bridgeCallData) ∧
      c.interactionNonce = (k * RollupProofData.NUM_BRIDGE_CALLS_PER_BLOCK + j : Nat)
  result : ∀ r, c.interactionResultRollupId = some r ↔
    ∃ b, LastBlock chain k (fun b => c.interactionNonce ∈ b.interactionResult.map fun ir => (ir.nonce : Int))
      r b
  claimed : ∀ t, c.claimed = some t ↔ ∃ r b, LastBlock chain k (fun b =>
    c.nullifier ∈ WorldState.confirmClaimedNullifiers b.rollup) r b ∧ b.mined = t

section

variable {E : WorldStateEnv} {rollup : RollupProofData} {i j : Nat} {tx : InnerProofData}
  {txs : List InnerProofData} {offchainTxData : List Nat} {toAdd : List ClaimDao}

/-- The first transaction takes the first offchain data. -/
lemma depositDataIn_zero : depositDataIn E (tx :: txs) offchainTxData 0 =
    offchainTxData.head?.bind E.offchainDefiDepositData := by
  rw [depositDataIn, List.take_zero, List.countP_nil, List.head?_eq_getElem?]

/-- Padding takes none. -/
lemma depositDataIn_padding (h : tx.proofId = .PADDING) :
    depositDataIn E (tx :: txs) offchainTxData (j + 1) = depositDataIn E txs offchainTxData j := by
  rw [depositDataIn, List.take_succ_cons, List.countP_cons_of_neg (by rw [h]; decide), depositDataIn]

/-- Another transaction takes one. -/
lemma depositDataIn_succ (h : tx.proofId ≠ .PADDING) :
    depositDataIn E (tx :: txs) offchainTxData (j + 1) = depositDataIn E txs offchainTxData.tail j := by
  rw [depositDataIn, List.take_succ_cons, List.countP_cons_of_pos (by rw [decide_eq_true h]),
    depositDataIn, List.getElem?_tail]

/-- A claim is that of a deposit, of transactions whose first one has index `i`. -/
def Adds (E : WorldStateEnv) (rollup : RollupProofData) (i : Nat) (txs : List InnerProofData)
    (offchainTxData : List Nat) (c : ClaimDao) : Prop :=
  ∃ j tx data, txs[j]? = some tx ∧ tx.proofId = .DEFI_DEPOSIT ∧
    depositDataIn E txs offchainTxData j = some data ∧ c = WorldState.claimOf E rollup (i + j) tx data

/-- The claims that are added are those of the deposits, in their order. -/
structure AddsAll (E : WorldStateEnv) (rollup : RollupProofData) (i : Nat) (txs : List InnerProofData)
    (offchainTxData : List Nat) (toAdd : List ClaimDao) : Prop where
  mem : ∀ c, c ∈ toAdd ↔ Adds E rollup i txs offchainTxData c
  data : ∀ j tx, txs[j]? = some tx → tx.proofId = .DEFI_DEPOSIT →
    ∃ data, depositDataIn E txs offchainTxData j = some data
  ids : toAdd.Pairwise fun c c' => c.id < c'.id

/-- What the first transaction adds, and the others. -/
lemma adds_cons {offchainTxData' : List Nat} {c : ClaimDao}
    (h : ∀ j, depositDataIn E (tx :: txs) offchainTxData (j + 1) =
      depositDataIn E txs offchainTxData' j) :
    Adds E rollup i (tx :: txs) offchainTxData c ↔
      (tx.proofId = .DEFI_DEPOSIT ∧ ∃ data, offchainTxData.head?.bind E.offchainDefiDepositData =
        some data ∧ c = WorldState.claimOf E rollup i tx data) ∨
      Adds E rollup (i + 1) txs offchainTxData' c := by
  constructor
  case mp =>
    rintro ⟨j, tx', data, htx, hid, hdata, rfl⟩
    cases j with
    | zero =>
      cases htx
      exact .inl ⟨hid, data, depositDataIn_zero.symm.trans hdata, rfl⟩
    | succ j =>
      refine .inr ⟨j, tx', data, htx, hid, (h j).symm.trans hdata, ?_⟩
      rw [Nat.add_right_comm, Nat.add_assoc]
  case mpr =>
    rintro (⟨hid, data, hdata, rfl⟩ | ⟨j, tx', data, htx, hid, hdata, rfl⟩)
    · exact ⟨0, tx, data, rfl, hid, depositDataIn_zero.trans hdata, rfl⟩
    · refine ⟨j + 1, tx', data, htx, hid, (h j).trans hdata, ?_⟩
      rw [Nat.add_right_comm, Nat.add_assoc]

/-- Every deposit has its data if the first one has and the others have. -/
lemma data_cons {offchainTxData' : List Nat}
    (h : ∀ j, depositDataIn E (tx :: txs) offchainTxData (j + 1) =
      depositDataIn E txs offchainTxData' j)
    (hhead : tx.proofId = .DEFI_DEPOSIT →
      ∃ data, offchainTxData.head?.bind E.offchainDefiDepositData = some data)
    (hdata : ∀ j tx, txs[j]? = some tx → tx.proofId = .DEFI_DEPOSIT →
      ∃ data, depositDataIn E txs offchainTxData' j = some data) (j : Nat) (tx' : InnerProofData)
    (htx : (tx :: txs)[j]? = some tx') (hid : tx'.proofId = .DEFI_DEPOSIT) :
    ∃ data, depositDataIn E (tx :: txs) offchainTxData j = some data := by
  cases j with
  | zero =>
    cases htx
    rw [depositDataIn_zero]
    exact hhead hid
  | succ j =>
    rw [h j]
    exact hdata j tx' htx hid

/-- A transaction that is no deposit adds no claim. -/
lemma AddsAll.skip {offchainTxData' : List Nat}
    (h : AddsAll E rollup (i + 1) txs offchainTxData' toAdd) (hid : tx.proofId ≠ .DEFI_DEPOSIT)
    (hdata : ∀ j, depositDataIn E (tx :: txs) offchainTxData (j + 1) =
      depositDataIn E txs offchainTxData' j) : AddsAll E rollup i (tx :: txs) offchainTxData toAdd where
  mem c := by
    rw [h.mem, adds_cons hdata]
    exact ⟨.inr, fun h => h.resolve_left fun hdeposit => hid hdeposit.1⟩
  data := data_cons hdata (fun hdeposit => absurd hdeposit hid) h.data
  ids := h.ids

/-- The claims to add are those of the deposits. -/
lemma claimsToAdd_spec (h : WorldState.claimsToAdd E rollup i txs offchainTxData = .ok toAdd) :
    AddsAll E rollup i txs offchainTxData toAdd := by
  induction txs generalizing i offchainTxData toAdd with
  | nil =>
    cases h
    exact ⟨fun c => ⟨nofun, nofun⟩, nofun, .nil⟩
  | cons tx txs ih =>
    rw [WorldState.claimsToAdd] at h
    split at h
    case h_1 hid => exact (ih h).skip (by rw [hid]; decide) fun j => depositDataIn_padding hid
    case h_2 hid =>
      have hsucc (j : Nat) : depositDataIn E (tx :: txs) offchainTxData (j + 1) =
          depositDataIn E txs offchainTxData.tail j := depositDataIn_succ (by rw [hid]; decide)
      split at h
      case h_1 => nomatch h
      case h_2 data hdata =>
        cases hrest : WorldState.claimsToAdd E rollup (i + 1) txs offchainTxData.tail with
        | error e =>
          rw [hrest] at h
          nomatch h
        | ok rest =>
          rw [hrest] at h
          cases h
          have hrest := ih hrest
          refine ⟨fun c => ?_, data_cons hsucc (fun _ => ⟨data, hdata⟩) hrest.data, ?_⟩
          · rw [List.mem_cons, adds_cons hsucc, hrest.mem]
            refine or_congr_left ⟨fun hc => ⟨hid, data, hdata, hc⟩, ?_⟩
            rintro ⟨-, data', hdata', rfl⟩
            rw [Option.some.inj (hdata.symm.trans hdata')]
          · refine List.pairwise_cons.mpr ⟨fun c hc => ?_, hrest.ids⟩
            obtain ⟨j, tx', data', -, -, -, rfl⟩ := (hrest.mem c).mp hc
            show rollup.dataStartIndex + i * 2 < rollup.dataStartIndex + (i + 1 + j) * 2
            omega
    case h_3 hpadding hdeposit =>
      exact (ih h).skip hdeposit fun j => depositDataIn_succ hpadding

end

/-! ## The table of claims -/

section

variable {E : WorldStateEnv} {feePaying : Nat → Bool} {F : Nat → Config → Nat → Prop}
  {t : Table ClaimDao ClaimDao.id} {c : ClaimDao} {toAdd : List ClaimDao}

/-- A claim with a new id is appended. -/
lemma saveClaim_rows (h : ∀ old ∈ t.rows, old.id ≠ c.id) :
    (RollupDb.saveClaim t c).rows = t.rows ++ [c] := by
  unfold RollupDb.saveClaim
  cases hfind : t.find? c.id with
  | some old =>
    obtain ⟨hold, hid⟩ := Table.find?_some hfind
    exact absurd hid (h old hold)
  | none =>
    show t.rows.filter _ ++ [c] = _
    refine congrArg (· ++ [c]) (List.filter_eq_self.mpr fun old hold => ?_)
    show (!decide (old.id = c.id)) = true
    rw [decide_eq_false (h old hold)]
    rfl

/-- Claims with new ids, one after another. -/
lemma saveClaims_rows (hids : toAdd.Pairwise fun c c' => c.id < c'.id)
    (h : ∀ c ∈ toAdd, ∀ old ∈ t.rows, old.id ≠ c.id) :
    (toAdd.foldl RollupDb.saveClaim t).rows = t.rows ++ toAdd := by
  induction toAdd generalizing t with
  | nil => exact (List.append_nil _).symm
  | cons c toAdd ih =>
    obtain ⟨hlt, hids⟩ := List.pairwise_cons.mp hids
    have hrows := saveClaim_rows (h c List.mem_cons_self)
    rw [List.foldl_cons, ih hids, hrows, List.append_assoc, List.singleton_append]
    intro c' hc' old hold
    rw [hrows] at hold
    rcases List.mem_append.mp hold with hmem | hself
    · exact h c' (List.mem_cons_of_mem _ hc') old hmem
    · rw [List.mem_singleton.mp hself]
      exact Nat.ne_of_lt (hlt c' hc')

/-- What a block does to a claim. -/
def settle (b : Block) (c : ClaimDao) : ClaimDao :=
  let c := if (WorldState.confirmClaimedNullifiers b.rollup).contains c.nullifier
    then { c with claimed := some b.mined } else c
  if ((b.interactionResult.map (·.nonce)).map Int.ofNat).contains c.interactionNonce
  then { c with interactionResultRollupId := some b.rollup.rollupId } else c

/-- `processDefiProofs` adds the claims, and settles those of the block. -/
lemma processDefiProofs_ok {claims : Table ClaimDao ClaimDao.id}
    (h : WorldState.processDefiProofs E t b = .ok claims) :
    ∃ toAdd, WorldState.claimsToAdd E b.rollup 0 b.rollup.innerProofData b.offchainTxData = .ok toAdd ∧
      claims.rows = (toAdd.foldl RollupDb.saveClaim t).rows.map (settle b) := by
  unfold WorldState.processDefiProofs at h
  cases htoAdd : WorldState.claimsToAdd E b.rollup 0 b.rollup.innerProofData b.offchainTxData with
  | error e =>
    rw [htoAdd] at h
    nomatch h
  | ok toAdd =>
    rw [htoAdd] at h
    cases h
    exact ⟨toAdd, rfl, List.map_map⟩

/-- What a block does to a claim is all in the fields that it may set. -/
structure Settled (b : Block) (c c' : ClaimDao) : Prop where
  same : c' = { c with claimed := c'.claimed, interactionResultRollupId := c'.interactionResultRollupId }
  claimed : c'.claimed = if c.nullifier ∈ WorldState.confirmClaimedNullifiers b.rollup
    then some b.mined else c.claimed
  result : c'.interactionResultRollupId =
    if c.interactionNonce ∈ b.interactionResult.map fun ir => (ir.nonce : Int)
    then some b.rollup.rollupId else c.interactionResultRollupId

/-- The claims settled by a block. -/
lemma settled_settle : Settled b c (settle b c) := by
  unfold settle
  have hmap : (b.interactionResult.map (·.nonce)).map Int.ofNat =
      b.interactionResult.map fun ir => (ir.nonce : Int) := List.map_map
  rw [hmap]
  simp only [List.contains_iff_mem]
  by_cases hclaimed : c.nullifier ∈ WorldState.confirmClaimedNullifiers b.rollup
  · by_cases hresult : c.interactionNonce ∈ b.interactionResult.map fun ir => (ir.nonce : Int)
    · refine ⟨?_, ?_, ?_⟩ <;> simp only [if_pos hclaimed, if_pos hresult]
    · refine ⟨?_, ?_, ?_⟩ <;> simp only [if_pos hclaimed, if_neg hresult]
  · by_cases hresult : c.interactionNonce ∈ b.interactionResult.map fun ir => (ir.nonce : Int)
    · refine ⟨?_, ?_, ?_⟩ <;> simp only [if_neg hclaimed, if_pos hresult]
    · refine ⟨?_, ?_, ?_⟩ <;> simp only [if_neg hclaimed, if_neg hresult]

/-- Settling keeps the id. -/
lemma settle_id : (settle b c).id = c.id := by rw [settled_settle.same]

/-- A claim that is recorded is recorded after one more block. -/
lemma Recorded.settle {b₀ : Block} {i : Nat} {tx : InnerProofData} {data : OffchainDefiDepositData}
    (h : Recorded E chain k b₀ i tx data c) (hk : k ≤ chain.length)
    (hid : b.rollup.rollupId = chain.length) :
    Recorded E (chain ++ [b]) k b₀ i tx data (settle b c) := by
  obtain ⟨hsame, hclaimed, hresult⟩ := settled_settle (b := b) (c := c)
  have hnonce : (Falafel.settle b c).interactionNonce = c.interactionNonce := by rw [hsame]
  have hnullifier : (Falafel.settle b c).nullifier = c.nullifier := by rw [hsame]
  have hfee : (Falafel.settle b c).fee = c.fee := by rw [hsame]
  refine ⟨?_, ?_, ?_, ?_, hfee.trans h.fee, ?_, fun r => ?_, fun t => ?_⟩
  · rw [hsame]
    exact h.id
  · rw [hnonce, hnullifier, hfee]
    exact h.nullifier
  · rw [hsame]
    exact h.bridgeId
  · rw [hsame]
    exact h.inputNullifier
  · rw [hnonce]
    exact h.interactionNonce
  · rw [hresult, hnonce]
    by_cases hin : c.interactionNonce ∈ b.interactionResult.map fun ir => (ir.nonce : Int)
    · rw [if_pos hin, hid]
      simp only [lastBlock_concat_pos (Q := fun b => c.interactionNonce ∈ b.interactionResult.map
        fun ir => (ir.nonce : Int)) hk hin, exists_and_left, exists_eq, and_true]
      exact ⟨fun h => (Option.some.inj h).symm, fun h => congrArg some h.symm⟩
    · rw [if_neg hin, h.result]
      simp only [lastBlock_concat_neg (Q := fun b => c.interactionNonce ∈ b.interactionResult.map
        fun ir => (ir.nonce : Int)) hin]
  · rw [hclaimed, hnullifier]
    by_cases hin : c.nullifier ∈ WorldState.confirmClaimedNullifiers b.rollup
    · rw [if_pos hin]
      simp only [lastBlock_concat_pos (Q := fun b => c.nullifier ∈
        WorldState.confirmClaimedNullifiers b.rollup) hk hin]
      constructor
      case mp => exact fun h => ⟨_, _, ⟨rfl, rfl⟩, Option.some.inj h⟩
      case mpr =>
        rintro ⟨_, _, ⟨rfl, rfl⟩, rfl⟩
        rfl
    · rw [if_neg hin, h.claimed]
      simp only [lastBlock_concat_neg (Q := fun b => c.nullifier ∈
        WorldState.confirmClaimedNullifiers b.rollup) hin]

/-- The claim of a deposit, before the block settles claims. -/
lemma recorded_claimOf {i : Nat} {tx : InnerProofData} {data : OffchainDefiDepositData}
    (hid : b.rollup.rollupId = chain.length) :
    Recorded E chain chain.length b i tx data (WorldState.claimOf E b.rollup i tx data) where
  id := rfl
  nullifier := rfl
  bridgeId := rfl
  inputNullifier := rfl
  fee := rfl
  interactionNonce hmem := by
    have hlt : b.rollup.bridgeCallDatas.findIdx (· == data.bridgeCallData) <
        b.rollup.bridgeCallDatas.length :=
      List.findIdx_lt_length_of_exists ⟨_, hmem, beq_self_eq_true _⟩
    refine ⟨b.rollup.bridgeCallDatas.findIdx (· == data.bridgeCallData), ?_, ?_, ?_⟩
    · rw [List.getElem?_eq_getElem hlt]
      exact congrArg some (beq_iff_eq.mp (List.findIdx_getElem (w := hlt)))
    · intro j hj hbefore
      obtain ⟨hlength, heq⟩ := List.getElem?_eq_some_iff.mp hbefore
      exact ne_of_beq_false (List.not_of_lt_findIdx hj) heq
    · show (if _ then _ else _) + _ = _
      rw [if_neg (Nat.ne_of_lt hlt), hid, Int.natCast_add, Int.add_comm]
  result r := ⟨nofun, fun ⟨_, h⟩ => absurd h lastBlock_start⟩
  claimed t := ⟨nofun, fun ⟨_, _, h, _⟩ => absurd h lastBlock_start⟩

/-- The claims are those of the deposits of the chain. -/
structure ClaimsInv (E : WorldStateEnv) (s : System) : Prop where
  below : ∀ c ∈ s.worldState.claims.rows, c.id < (datasize s.chain).toNat
  of_row : ∀ c ∈ s.worldState.claims.rows, ∃ k b i tx data, s.chain[k]? = some b ∧
    IsDeposit E b i tx data ∧ Recorded E s.chain k b i tx data c
  of_deposit : ∀ k b i tx, s.chain[k]? = some b → b.rollup.innerProofData[i]? = some tx →
    tx.proofId = .DEFI_DEPOSIT → ∃ data, IsDeposit E b i tx data ∧
      ∃ c ∈ s.worldState.claims.rows, Recorded E s.chain k b i tx data c

variable {s s' : System}

/-- The rows after a block. -/
lemma ClaimsInv.rows {claims : Table ClaimDao ClaimDao.id} (h : ClaimsInv E s)
    (haccepts : Accepts E s.chain b) (hfits : FitsTree s.chain b.rollup.rollupSize)
    (hclaims : WorldState.processDefiProofs E s.worldState.claims b = .ok claims) :
    ∃ toAdd, AddsAll E b.rollup 0 b.rollup.innerProofData b.offchainTxData toAdd ∧
      claims.rows = (s.worldState.claims.rows ++ toAdd).map (settle b) := by
  obtain ⟨toAdd, htoAdd, hrows⟩ := processDefiProofs_ok hclaims
  have hadds := claimsToAdd_spec htoAdd
  refine ⟨toAdd, hadds, ?_⟩
  rw [hrows, saveClaims_rows hadds.ids]
  intro c hc old hold
  obtain ⟨-, -, -, hle⟩ := haccepts.datasize hfits
  obtain ⟨j, tx, data, -, -, -, rfl⟩ := (hadds.mem c).mp hc
  have hlt := h.below old hold
  show old.id ≠ b.rollup.dataStartIndex + (0 + j) * 2
  omega

/-- A block that is handled keeps the records of the claims. -/
lemma ClaimsInv.handleBlock {w : WorldState} (h : ClaimsInv E s) (hinv : Inv E F s)
    (haccepts : Accepts E s.chain b) (hfits : FitsTree s.chain b.rollup.rollupSize)
    (hupdate : WorldState.updateDbs E s.worldState b = .ok w) :
    ClaimsInv E ⟨s.chain ++ [b], { w with pipeline := none }⟩ := by
  obtain ⟨claims, hclaims, rfl⟩ := updateDbs_ok hupdate (haccepts.rollupId.trans hinv.settled.symm)
  obtain ⟨toAdd, hadds, hrows⟩ := h.rows haccepts hfits hclaims
  obtain ⟨-, hend, -, hle⟩ := haccepts.datasize hfits
  have hid := haccepts.rollupId
  have hdeposit (i : Nat) (tx : InnerProofData) (data : OffchainDefiDepositData)
      (h : IsDeposit E b i tx data) : WorldState.claimOf E b.rollup i tx data ∈ toAdd := by
    refine (hadds.mem _).mpr ⟨i, tx, data, h.mem, h.proofId, h.data, ?_⟩
    rw [Nat.zero_add]
  refine ⟨fun c hc => ?_, fun c hc => ?_, fun k b' i tx hb' htx hproof => ?_⟩
  · have hmem : c ∈ (s.worldState.claims.rows ++ toAdd).map (settle b) := hrows ▸ hc
    obtain ⟨old, hold, rfl⟩ := List.mem_map.mp hmem
    show (settle b old).id < (datasize (s.chain ++ [b])).toNat
    rw [settle_id, hend]
    rcases List.mem_append.mp hold with hrow | hnew
    · have := h.below old hrow
      omega
    · obtain ⟨j, tx, data, htx, -, -, rfl⟩ := (hadds.mem old).mp hnew
      have hj := (List.getElem?_eq_some_iff.mp htx).1
      rw [haccepts.rollupSize] at hj
      show b.rollup.dataStartIndex + (0 + j) * 2 < _
      omega
  · have hmem : c ∈ (s.worldState.claims.rows ++ toAdd).map (settle b) := hrows ▸ hc
    obtain ⟨old, hold, rfl⟩ := List.mem_map.mp hmem
    rcases List.mem_append.mp hold with hrow | hnew
    · obtain ⟨k, b', i, tx, data, hb', hdata, hrecorded⟩ := h.of_row old hrow
      have hk := (List.getElem?_eq_some_iff.mp hb').1
      refine ⟨k, b', i, tx, data, ?_, hdata, hrecorded.settle hk.le hid⟩
      show (s.chain ++ [b])[k]? = some b'
      rw [List.getElem?_append_left hk, hb']
    · obtain ⟨j, tx, data, htx, hproof, hdata, rfl⟩ := (hadds.mem old).mp hnew
      rw [Nat.zero_add]
      exact ⟨s.chain.length, b, j, tx, data, List.getElem?_concat_length, ⟨htx, hproof, hdata⟩,
        (recorded_claimOf hid).settle (Nat.le_refl _) hid⟩
  · have hrow {c : ClaimDao} (hc : c ∈ s.worldState.claims.rows ++ toAdd) : settle b c ∈ claims.rows :=
      hrows ▸ List.mem_map_of_mem hc
    rcases getElem?_concat hb' with ⟨hold, hk⟩ | ⟨rfl, rfl⟩
    · obtain ⟨data, hdata, c, hc, hrecorded⟩ := h.of_deposit k b' i tx hold htx hproof
      exact ⟨data, hdata, _, hrow (List.mem_append_left _ hc), hrecorded.settle hk.le hid⟩
    · obtain ⟨data, hdata⟩ := hadds.data i tx htx hproof
      have hisDeposit : IsDeposit E b' i tx data := ⟨htx, hproof, hdata⟩
      exact ⟨data, hisDeposit, _, hrow (List.mem_append_right _ (hdeposit i tx data hisDeposit)),
        (recorded_claimOf hid).settle (Nat.le_refl _) hid⟩

/-- The pipeline leaves them alone. -/
lemma pipelineStep_claims {w w' : WorldState} {p : Pipeline} {a : System.Action}
    (h : System.pipelineStep E feePaying w p a = some w') : w'.claims = w.claims := by
  unfold System.pipelineStep at h
  split at h
  case h_5 => nomatch h
  case h_1 =>
    split at h
    case h_2 => nomatch h
    case h_1 =>
      dsimp only at h
      split at h
      case isFalse => nomatch h
      case isTrue =>
        cases h
        rfl
  case h_2 =>
    split at h
    case h_2 => nomatch h
    case h_1 =>
      split at h
      cases h
      rfl
  case h_3 =>
    split at h
    case h_2 => nomatch h
    case h_1 =>
      obtain ⟨_, -, rfl⟩ := Option.map_eq_some_iff.mp h
      rfl
  case h_4 =>
    split at h
    case h_2 => nomatch h
    case h_1 =>
      cases h
      rfl

/-- A step handles a block, or leaves the chain and the claims as they are. -/
lemma step_cases {a : System.Action} (h : System.step E feePaying s a = some s') :
    (∃ b w, a = .handleBlock b ∧ Accepts E s.chain b ∧
      WorldState.updateDbs E s.worldState b = .ok w ∧
      s' = ⟨s.chain ++ [b], { w with pipeline := none }⟩) ∨
    s'.chain = s.chain ∧ s'.worldState.claims = s.worldState.claims := by
  cases a with
  | handleBlock b =>
    rw [System.step] at h
    split at h
    case isFalse => cases h
    case isTrue haccepts =>
      split at h
      case h_1 => cases h
      case h_2 w hupdate =>
        cases h
        exact .inl ⟨b, w, rfl, haccepts, hupdate, rfl⟩
  | startNewPipeline config =>
    rw [System.step] at h
    split at h
    case h_1 => cases h
    case h_2 =>
      cases h
      exact .inr ⟨rfl, rfl⟩
  | restart =>
    cases h
    exact .inr ⟨rfl, rfl⟩
  | _ =>
    -- a step of the pipeline
    unfold System.step at h
    dsimp only at h
    split at h
    case h_1 => cases h
    case h_2 =>
      obtain ⟨w, hw, rfl⟩ := Option.map_eq_some_iff.mp h
      exact .inr ⟨rfl, pipelineStep_claims hw⟩

open Transition (Run Steps Guarded)

/-- In every run of regular steps the claims are those of the chain. -/
lemma run_claims {as : List System.Action} (hE : E.Sound)
    (h : Run (Guarded (Steps (System.step E feePaying)) (Regular E F)) (System.init E) as s) :
    ClaimsInv E s := by
  have hboth : Inv E F s ∧ ClaimsInv E s := by
    refine h.invariant (I := fun s => Inv E F s ∧ ClaimsInv E s) ⟨inv_init, nofun, nofun, nofun⟩
      fun s a s' hinv hstep => ?_
    obtain ⟨hnew, -⟩ := hinv.1.step hE hstep.2 hstep.1
    refine ⟨hnew, ?_⟩
    rcases step_cases hstep.1 with ⟨b, w, rfl, haccepts, hupdate, rfl⟩ | ⟨hchain, hclaims⟩
    · exact hinv.2.handleBlock hinv.1 haccepts hstep.2.1 hupdate
    · obtain ⟨hbelow, hof_row, hof_deposit⟩ := hinv.2
      rw [← hchain, ← hclaims] at hbelow hof_row hof_deposit
      exact ⟨hbelow, hof_row, hof_deposit⟩
  exact hboth.2

/-- After every block the trees are those of the replay, however the block was handled, and the claims are
those of the defi deposits. -/
theorem worldState_replayed {as : List System.Action} (hE : E.Sound)
    (h : Run (Guarded (Steps (System.step E feePaying)) (Regular E fun _ _ _ => True))
      (System.init E) as s) :
    (∀ treeId, (s.worldState.worldStateDb.committed treeId).leaves = (replay E s.chain treeId).leaves) ∧
      (∀ c ∈ s.worldState.claims.rows, ∃ k b i tx data, s.chain[k]? = some b ∧
        IsDeposit E b i tx data ∧ Recorded E s.chain k b i tx data c) ∧
      ∀ k b i tx, s.chain[k]? = some b → b.rollup.innerProofData[i]? = some tx →
        tx.proofId = .DEFI_DEPOSIT → ∃ data, IsDeposit E b i tx data ∧
          ∃ c ∈ s.worldState.claims.rows, Recorded E s.chain k b i tx data c := by
  have hclaims := run_claims hE h
  exact ⟨(run_inv hE h).leaves, hclaims.of_row, hclaims.of_deposit⟩

end

namespace Sample

/-- A rollup with a defi deposit into the bridge 7, and the result of its interaction. -/
def deposited : Block :=
  let b := block [] 1 [⟨.DEFI_DEPOSIT, 1, 2, 3, 4, 0, 0, 0⟩]
  { b with
    rollup := { b.rollup with bridgeCallDatas := [7] }
    offchainTxData := [7]
    interactionResult := [⟨7, 0, 10, 20, 0, true⟩]
    mined := 100 }

/-- The claim of the deposit, in a rollup of two transactions. -/
def claimedBlock : Block :=
  { block [deposited] 2 [⟨.DEFI_CLAIM, 5, 6, 3, 8, 0, 0, 0⟩, PADDING] with
    offchainTxData := [0]
    mined := 200 }

/-- A deposit is claimed in the next rollup. -/
def claimed : List System.Action :=
  [.startNewPipeline ⟨2, 1⟩, .handleBlock deposited, .startNewPipeline ⟨2, 1⟩, .startRollup [payment 1] [] [],
    .createRollup, .handleBlock claimedBlock]

end Sample

/-- Two blocks, a deposit and its claim. -/
theorem worldState_replayed_sample : ∃ s : System, s.chain.length = 2 ∧
    (∀ treeId, (s.worldState.worldStateDb.committed treeId).leaves =
      (replay Sample.worldStateEnv s.chain treeId).leaves) ∧
      (∀ c ∈ s.worldState.claims.rows, ∃ k b i tx data, s.chain[k]? = some b ∧
        IsDeposit Sample.worldStateEnv b i tx data ∧
          Recorded Sample.worldStateEnv s.chain k b i tx data c) ∧
      ∀ k b i tx, s.chain[k]? = some b → b.rollup.innerProofData[i]? = some tx →
        tx.proofId = .DEFI_DEPOSIT → ∃ data, IsDeposit Sample.worldStateEnv b i tx data ∧
          ∃ c ∈ s.worldState.claims.rows, Recorded Sample.worldStateEnv s.chain k b i tx data c := by
  obtain ⟨s, hs, hlength⟩ := Option.map_eq_some_iff.mp
    (show (Transition.exec (Transition.guard (System.step Sample.worldStateEnv fun _ => false)
      (Regular Sample.worldStateEnv fun _ _ _ => True)) (System.init Sample.worldStateEnv)
        Sample.claimed).map (fun s => s.chain.length) = some 2 by decide +kernel)
  exact ⟨s, hlength, worldState_replayed Sample.worldStateEnv_sound (Transition.exec_guard_run hs)⟩

/-- A claim is claimed after the block with the result of its interaction. -/
theorem worldState_unclaimed : ¬ ∀ (E : WorldStateEnv) (feePaying : Nat → Bool)
    (as : List System.Action) (s : System), E.Sound →
    Transition.Run (Transition.Steps (System.step E feePaying)) (System.init E) as s →
    ∀ c ∈ s.worldState.claims.rows, ∀ b ∈ s.chain,
      c.interactionNonce ∈ b.interactionResult.map (fun ir => (ir.nonce : Int)) →
        c.claimed = some b.mined := by
  intro hall
  obtain ⟨s, hs, hunclaimed⟩ := Option.map_eq_some_iff.mp
    (show (Transition.exec (System.step Sample.worldStateEnv fun _ => false)
      (System.init Sample.worldStateEnv) [.handleBlock Sample.deposited]).map (fun s =>
        decide (∀ c ∈ s.worldState.claims.rows, ∀ b ∈ s.chain,
          c.interactionNonce ∈ b.interactionResult.map (fun ir => (ir.nonce : Int)) →
            c.claimed = some b.mined)) = some false by decide +kernel)
  exact of_decide_eq_false hunclaimed
    (hall _ _ _ s Sample.worldStateEnv_sound (Transition.exec_run hs))

end AztecConnect.Falafel
