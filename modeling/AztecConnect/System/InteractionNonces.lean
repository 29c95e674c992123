import AztecConnect.Circuit.JoinSplitSpec
import AztecConnect.Circuit.RollupSums
import AztecConnect.Contract.Interactions

/-!
# The nonce in a claim note and the nonce of the interaction

The contract executes the bridge calls of the header in turn, the `j`-th under the nonce
`rollupId * 32 + j` (`V2.interactions`). The claim note of a deposit carries the nonce with the index in
the array of its inner rollup (`RootAccepted.claimNote`). The root rollup circuit checks that each entry
of that array is one of the header, but not where, so that the two nonces are the same if and only if the
indices are (`depositNonces_iff`).
-/

namespace AztecConnect.Circuit

variable {H : Primitives} {m n : Nat}

/-! ## The note in the data of an inner rollup -/

/-- The first note commitment that an inner rollup publishes for its `t`-th transaction. -/
def RollupProof.publishedNote (proof : RollupProof) (t : Nat) : Option Fr :=
  proof.innerProofsData[8 * t + 1]?

/-- In a list of eights, the `k`-th of the `t`-th is at `8 * t + k`. -/
lemma getElem?_flatMap_eight {α : Type} {f : α → List Fr} (hlen : ∀ a, (f a).length = 8) (l : List α)
    (t k : Nat) (hk : k < 8) : (l.flatMap f)[8 * t + k]? = l[t]?.bind fun a => (f a)[k]? := by
  induction l generalizing t with
  | nil => rfl
  | cons a l ih =>
    rw [List.flatMap_cons]
    cases t with
    | zero =>
      rw [Nat.mul_zero, Nat.zero_add, List.getElem?_append_left (by rw [hlen]; exact hk)]
      rfl
    | succ t =>
      rw [List.getElem?_append_right (by rw [hlen]; omega), hlen, List.getElem?_cons_succ, ← ih t]
      congr 1
      omega

/-- The first note of a slot is the second of its eight fields. -/
lemma innerProofsData_note (published : Fin n → InnerProof) (t : Fin n) :
    (innerProofsData published)[8 * t.val + 1]? = some (published t).noteCommitment1 := by
  have hget : ((List.finRange n).flatMap fun i => (published i).propagated)[8 * t.val + 1]? =
      some (published t).noteCommitment1 := by
    rw [getElem?_flatMap_eight (fun _ => rfl) _ _ _ (by decide), List.getElem?_eq_getElem
      (by rw [List.length_finRange]; exact t.isLt), List.getElem_finRange]
    rfl
  obtain ⟨hlt, -⟩ := List.getElem?_eq_some_iff.mp hget
  rw [innerProofsData, resize, List.getElem?_append_left hlt, hget]

/-- A real defi deposit, the bridge call data of which is the `j`-th of the header. -/
structure DepositAt (tx : RootRollupTx H m) (rollups : Fin m → RollupTx H n)
    (header : RootRollupHeader) (i : Fin m) (t : Fin n) (j : Fin NUM_BRIDGE_CALLS_PER_BLOCK) : Prop where
  real : IsReal tx rollups i t
  proofId : ((rollups i).txs t).proofId = ProofIds.DEFI_DEPOSIT
  bridgeCallData : header.bridgeCallDatas j = ((rollups i).txs t).bridgeCallData

section

variable {tx : RootRollupTx H m} {rollups : Fin m → RollupTx H n} {proof : RootRollupProof}
  {i : Fin m} {t : Fin n} {j : Fin NUM_BRIDGE_CALLS_PER_BLOCK}

/-- The one match of a transaction. -/
lemma sum_match {N : Nat} {isMatch : Fin N → Bool} {k : Fin N} (hk : isMatch k = true)
    (huniq : ∀ k', isMatch k' = true → k' = k) :
    (∑ k', (k'.val : Fr) * fieldOfBool (isMatch k')) = (k.val : Fr) := by
  rw [Finset.sum_eq_single k]
  · rw [hk, fieldOfBool_true, mul_one]
  · intro k' _ hne
    cases hm : isMatch k' with
    | false => rw [fieldOfBool_false, mul_zero]
    | true => exact absurd (huniq k' hm) hne
  · exact fun h => absurd (Finset.mem_univ k) h

/-- The note of a deposit is completed with the index in the array of its inner rollup. -/
lemma RootAccepted.claimNote (h : RootAccepted tx rollups proof)
    (hd : DepositAt tx rollups proof.header i t j) :
    ∃ k : Fin NUM_BRIDGE_CALLS_PER_BLOCK,
      (∀ k', (tx.rollups i).defiBridgeCallDatas k' = proof.header.bridgeCallDatas j ↔ k' = k) ∧
      (tx.rollups i).publishedNote t = some (completeClaimNote H ((rollups i).txs t).noteCommitment1
        (proof.header.rollupId * NUM_BRIDGE_CALLS_PER_BLOCK + k.val) ((rollups i).txs t).claimFee) := by
  obtain ⟨scope, hspec⟩ := h.inner i
  have hdefi : ((rollups i).txs t).isDefiDeposit = true := beq_iff_eq.mpr hd.proofId
  have hmasked := hspec.inScope.masked_real hd.real.2
  obtain ⟨k, hk, huniq⟩ := (hspec.checked t).deposit (hmasked ▸ hdefi)
  rw [hmasked] at hk huniq
  obtain ⟨hdata, hne⟩ := bridge_entry hspec.inScope hk
  refine ⟨k, fun k' => ⟨fun heq => huniq k' ?_, ?_⟩, ?_⟩
  · -- an entry that is not zero is in scope
    rw [hspec.bridgeCallData_eq, hd.bridgeCallData] at heq
    have hin : k'.val < scope.numDefiInteractions := by
      by_contra hout
      rw [hspec.inScope.bridge_out k' hout, Nat.cast_zero] at heq
      exact hne (hdata.trans heq.symm)
    have hr := two_pow_lt_fieldModulus
    have hlt := hspec.inScope.bridgeCallDatas k'
    rw [RollupScope.isBridgeMatch, Bool.and_eq_true, beq_iff_eq, decide_eq_true_iff, ← heq,
      val_natCast_of_lt (by omega)]
    exact ⟨rfl, hin⟩
  · rintro rfl
    rw [hspec.bridgeCallData_eq, hd.bridgeCallData, hdata]
  · have hrollupId : (rollups i).rollupId = proof.header.rollupId := by
      have hinner : (tx.rollups i).rollupId = (rollups i).rollupId :=
        congrArg RollupProof.rollupId hspec.proof_eq
      have hheader : proof.header.rollupId = tx.rollupId :=
        congrArg RootRollupHeader.rollupId h.root.header
      rw [hheader, ← (h.root.checked i hd.real.1).rollupId, hinner]
    have hpublished := congrArg RollupProof.innerProofsData hspec.proof_eq
    rw [RollupProof.publishedNote, hpublished, innerProofsData_note, hmasked, completed, if_pos hdefi,
      claimNonce, hdefi, fieldOfBool_true, mul_one, sum_match hk huniq, hrollupId]

end

end AztecConnect.Circuit

namespace AztecConnect.System

open AztecConnect.Circuit Contract Resumption

variable {H : Primitives} {m n : Nat} {P : Params} {E : Env State ExternalCall Reply} {x : Context}
  {c : RollupCall} {s s' : State} {tr : Trace}

/-! ## What is posted -/

/-- The words of the calldata are the fields of the header. -/
def Posted (header : RootRollupHeader) (proofData : ProofData) : Prop :=
  ∀ k field, header.toList[k]? = some field → (proofData.header k).toNat = field.val

/-- The rollup id that is posted is that of the header. -/
lemma Posted.rollupId {header : RootRollupHeader} {p : ProofData} (h : Posted header p) :
    p.getRollupId.toNat = header.rollupId.val := h 0 _ rfl

/-- So are the bridge call datas. -/
lemma Posted.bridgeCallData {header : RootRollupHeader} {p : ProofData} (h : Posted header p)
    (j : Fin NUM_BRIDGE_CALLS_PER_BLOCK) :
    (p.bridgeCallData j).toNat = (header.bridgeCallDatas j).val := by
  refine h (11 + j) _ ?_
  simp only [RootRollupHeader.toList, List.append_assoc, List.cons_append, List.nil_append]
  rw [Nat.add_comm]
  simp only [List.getElem?_cons_succ]
  rw [List.getElem?_append_left (by rw [List.length_ofFn]; exact j.isLt), List.getElem?_ofFn,
    dif_pos j.isLt]

/-- A slot for bridge calls is used on the contract when it is in the header. -/
lemma Posted.bridgeCallData_ne {header : RootRollupHeader} {p : ProofData} (h : Posted header p)
    (j : Fin NUM_BRIDGE_CALLS_PER_BLOCK) :
    p.bridgeCallData j ≠ 0 ↔ header.bridgeCallDatas j ≠ 0 := by
  rw [ne_eq, ← BitVec.toNat_inj, h.bridgeCallData]
  exact not_congr (ZMod.val_eq_zero _)

/-! ## The nonces -/

/-- The contract executes the `j`-th interaction of the header, and the note of the deposit carries the
nonce under which it does. -/
def CarriesNonce (tx : RootRollupTx H m) (rollups : Fin m → RollupTx H n) (header : RootRollupHeader)
    (proofData : ProofData) (i : Fin m) (t : Fin n) (j : Fin NUM_BRIDGE_CALLS_PER_BLOCK) : Prop :=
  ∃ nonce, (j.val, nonce) ∈ V2.interactions proofData ∧
    nonce.toNat = header.rollupId.val * NUM_BRIDGE_CALLS_PER_BLOCK + j ∧
    (tx.rollups i).publishedNote t = some (completeClaimNote H ((rollups i).txs t).noteCommitment1
      nonce.toNat ((rollups i).txs t).claimFee)

/-- The inner rollup lists the bridge call at the index at which the header does, and no entry before it
in the header is empty. -/
def Aligned (tx : RootRollupTx H m) (header : RootRollupHeader) (i : Fin m)
    (j : Fin NUM_BRIDGE_CALLS_PER_BLOCK) : Prop :=
  (tx.rollups i).defiBridgeCallDatas j = header.bridgeCallDatas j ∧
    ∀ k ≤ j, header.bridgeCallDatas k ≠ 0

/-- A deposit carries a nonce exactly when it is that of its slot in the inner rollup. -/
lemma carriesNonce_iff
    (hnote : ∀ note nonce nonce' fee, completeClaimNote H note nonce fee =
      completeClaimNote H note nonce' fee → nonce = nonce')
    {tx : RootRollupTx H m} {rollups : Fin m → RollupTx H n} {proof : RootRollupProof}
    (h : RootAccepted tx rollups proof) {p : ProofData} {nonce₀ : Word}
    (hfirst : firstInteractionNonce p = .ok nonce₀) (hposted : Posted proof.header p)
    {i : Fin m} {t : Fin n} {j : Fin NUM_BRIDGE_CALLS_PER_BLOCK}
    (hd : DepositAt tx rollups proof.header i t j) :
    CarriesNonce tx rollups proof.header p i t j ↔ Aligned tx proof.header i j := by
  obtain ⟨k, hk, hpublished⟩ := h.claimNote hd
  have hzero : (∀ k' ≤ j.val, p.bridgeCallData k' ≠ 0) ↔
      ∀ k' ≤ j, proof.header.bridgeCallDatas k' ≠ 0 := by
    constructor
    · intro hall k' hle
      exact (hposted.bridgeCallData_ne k').mp (hall k' hle)
    · intro hall k' hle
      exact (hposted.bridgeCallData_ne ⟨k', hle.trans_lt j.isLt⟩).mpr (hall ⟨k', _⟩ hle)
  have hcast (nonce : Word)
      (hnonce : nonce.toNat = proof.header.rollupId.val * NUM_BRIDGE_CALLS_PER_BLOCK + j) :
      (nonce.toNat : Fr) = proof.header.rollupId * NUM_BRIDGE_CALLS_PER_BLOCK + j.val := by
    rw [hnonce, Nat.cast_add, Nat.cast_mul, natCast_val]
  constructor
  · rintro ⟨nonce, hmem, hnonce, hcarried⟩
    obtain ⟨-, -, hnonzero⟩ := (V2.mem_interactions_iff hfirst).mp hmem
    have hsame := hnote _ _ _ _ (Option.some.inj (hpublished.symm.trans hcarried))
    rw [hcast nonce hnonce] at hsame
    have hr := two_pow_lt_fieldModulus
    have hlt : NUM_BRIDGE_CALLS_PER_BLOCK < 2 ^ 252 := by decide
    have hindex : k.val = j.val :=
      natCast_inj (by omega) (by omega) (add_left_cancel hsame)
    exact ⟨(hk j).mpr (Fin.ext hindex.symm), hzero.mp hnonzero⟩
  · rintro ⟨hindex, hnonzero⟩
    cases (hk j).mp hindex
    have hlt : p.getRollupId.toNat * NUMBER_OF_BRIDGE_CALLS < 2 ^ 256 := by
      unfold firstInteractionNonce at hfirst
      split at hfirst
      case isTrue => nomatch hfirst
      case isFalse hlt => exact Nat.lt_of_not_le hlt
    rw [hposted.rollupId] at hlt
    have hfits : proof.header.rollupId.val * NUM_BRIDGE_CALLS_PER_BLOCK + j < 2 ^ 256 := by
      have hj := j.isLt
      unfold NUMBER_OF_BRIDGE_CALLS at hlt
      unfold NUM_BRIDGE_CALLS_PER_BLOCK at hj ⊢
      omega
    have hnonce := Nat.mod_eq_of_lt hfits
    rw [← BitVec.toNat_ofNat] at hnonce
    refine ⟨_, (V2.mem_interactions_iff hfirst).mpr ⟨j.isLt, ?_, hzero.mpr hnonzero⟩, hnonce, ?_⟩
    · rw [hnonce, hposted.rollupId]
      rfl
    · rw [hcast _ hnonce]
      exact hpublished

/-! ## Two deposits of an inner rollup

Each is for an interaction of its own. The header lists them in the order of the inner rollup, or the
other way round. -/

namespace SampleDeposits

open SampleJoinSplit (note)

/-- The tree of nullifiers with these spent. -/
def nullifiers (indices : List Nat) : TreeTable.Leaves := fun i => if i.val ∈ indices then 1 else 0

/-- The empty tree, the data tree before and after the rollup, the nullifier tree after each nullifier,
and the tree of data roots before and after the rollup. -/
def table : List TreeTable.Leaves :=
  [TreeTable.leaves [], TreeTable.leaves [12, 22],
    TreeTable.leaves [12, 22, 0, 0, 2 ^ 121 + 26, 9, 2 ^ 184 + 2 ^ 121 + 35, 22],
    nullifiers [15], nullifiers [15, 5], nullifiers [15, 5, 25], nullifiers [15, 5, 25, 6],
    TreeTable.leaves [2], TreeTable.leaves [2, 3]]

/-- Hashes of the sample: the sum of what is hashed, and trees from a table. -/
abbrev primitives : Primitives :=
  { TreeTable.primitives table with compress := fun values _ => values.sum }

/-- From ether to a virtual asset. -/
def bridgeCall (auxData : Nat) : BridgeCallData := ⟨1, 0, 0, 2 ^ 29, 0, ⟨false, false⟩, auxData⟩

/-- A deposit of part of a note of the data tree. -/
def deposit (index inputValue unused depositValue change nullifier1 nullifier2 : Fr) (auxData : Nat) :
    JoinSplitTx primitives where
  proofId := ProofIds.DEFI_DEPOSIT
  publicValue := 0
  publicOwner := 0
  assetId := 0
  numInputNotes := 1
  inputNote1Index := index
  inputNote2Index := 0
  inputNote1 := note inputValue 0 0
  inputNote2 := note 0 unused 0
  outputNote1 := note 0 0 nullifier1
  outputNote2 := note change 0 nullifier2
  partialClaimNote := ⟨depositValue, bridgeCall auxData, 0, nullifier1⟩
  signingPubKey := ⟨1, 1⟩
  signature := ()
  merkleRoot := 2
  inputPath1 := ()
  inputPath2 := ()
  accountNoteIndex := 0
  accountNotePath := ()
  accountPrivateKey := 1
  aliasHash := 0
  accountRequired := false
  backwardLink := 0
  allowChain := 0

/-- The two deposits to bridges. -/
def txs : Fin 2 → JoinSplitTx primitives
  | 0 => deposit 0 10 1 7 2 15 5 0
  | 1 => deposit 1 20 2 5 14 25 6 1

/-- The circuit accepts them. -/
lemma txs_accepted (i : Fin 2) : joinSplitCircuit primitives (txs i) (txs i).publicInputs := by
  simp only [joinSplitCircuit, suint, valueNote, partialClaimNote, createPointWitness,
    Circuit.bridgeCallData, processInputNote, subtractFee, subtract, createRangeConstraint, bind_assoc,
    pure_bind, Circuit.assert_bind_iff, Circuit.pure_iff]
  and_intros
  all_goals revert i; decide +kernel

/-- The bridge calls of the deposits, in one order or the other. -/
def bridgeCallDatas (inOrder : Bool) (k : Fin NUM_BRIDGE_CALLS_PER_BLOCK) : Fr :=
  if k.val = 0 then (bridgeCall (!inOrder).toNat).toSafeUint
  else if k.val = 1 then (bridgeCall inOrder.toNat).toSafeUint
  else 0

/-- The fee assets: the first slot is for asset zero. -/
def assetIds (k : Fin NUM_ASSETS) : Fr := if k.val = 0 then 0 else MAX_NUM_ASSETS

/-- The inner rollup of the two deposits. -/
def rollup : RollupTx primitives 2 where
  rollupId := 0
  numTxs := 2
  dataStartIndex := 4
  txs i := (txs i).publicInputs
  oldDataRoot := 2
  newDataRoot := 3
  oldDataPath := ()
  linkedCommitmentPaths _ := ()
  linkedCommitmentIndices _ := 0
  oldNullRoot := 1
  newNullRoots i k := (2 * i.val + k.val + 4 : Nat)
  oldNullPaths _ _ := ()
  dataRootsRoot := 8
  dataRootsPaths _ := ()
  dataRootsIndicies _ := 0
  newDataRootsRoot := 0
  newDefiRoot := 1
  numDefiInteractions := 2
  bridgeCallDatas := bridgeCallDatas true
  numAssetIds := 1
  assetIds := assetIds

/-- Its circuit accepts. -/
lemma rollup_ok : (rollupCircuit rollup).toBool = true := by decide +kernel

/-- What it publishes. -/
def innerProof : RollupProof := Checks.value _ rollup_ok

/-- All circuits of the inner rollup accept. -/
lemma rollup_accepted : RollupAccepted rollup innerProof where
  txs i := .joinSplit (txs i) (txs_accepted i)
  accepted := Checks.eq_ok_value _ rollup_ok

/-- The root rollup, with the bridge calls in the order of the inner rollup or in the other one. -/
def tx (inOrder : Bool) : RootRollupTx primitives 1 where
  rollupId := 0
  numInnerProofs := 1
  rollups _ := innerProof
  oldDataRootsRoot := 8
  newDataRootsRoot := 9
  oldDataRootsPath := ()
  oldDefiRoot := 1
  newDefiRoot := 1
  oldDefiPath := ()
  bridgeCallDatas := bridgeCallDatas inOrder
  assetIds := assetIds
  defiInteractionNotes _ := SampleClaim.noteTx
  numPreviousDefiInteractions := 0
  rollupBeneficiary := 7

/-- The circuit accepts both orders. -/
lemma tx_ok : ∀ inOrder, (rootRollupCircuit (tx inOrder) (rollupSizePow2 2)
    (rollupSizePow2 (1 * rollupSizePow2 2))).toBool = true
  | false => by decide +kernel
  | true => by decide +kernel

/-- What it publishes. -/
def proof (inOrder : Bool) : RootRollupProof := Checks.value _ (tx_ok inOrder)

example : ∀ k, (proof false).header.bridgeCallDatas k = (proof true).header.bridgeCallDatas k ∨
    k.val < 2 := by decide +kernel

/-- All circuits accept. -/
lemma accepted (inOrder : Bool) : RootAccepted (tx inOrder) (fun _ => rollup) (proof inOrder) where
  rollups _ := by
    unfold tx
    dsimp only
    exact rollup_accepted
  accepted := Checks.eq_ok_value _ (tx_ok inOrder)

/-! ### The call that posts it -/

/-- The words of the header. -/
def header (inOrder : Bool) : Nat → Word
  | 1 => 2
  | 2 => 4
  | 3 => 2
  | 4 => 3
  | 5 => 1
  | 6 => 7
  | 7 => 8
  | 8 => 9
  | 9 => 1
  | 10 => 1
  | 11 => if inOrder then 2 ^ 121 + 1 else 2 ^ 184 + 2 ^ 121 + 1
  | 12 => if inOrder then 2 ^ 184 + 2 ^ 121 + 1 else 2 ^ 121 + 1
  | 43 => if inOrder then 7 else 5
  | 44 => if inOrder then 5 else 7
  | 140 => 7
  | 141 => 1
  | k => if 76 ≤ k ∧ k < 91 then 2 ^ 30 else 0

/-- The two counts, and the data of the two deposits. -/
def encodedTxs : List Nat :=
  [0x200000102050000000000000000000000000000000002000000000000,
    0x1a0000000000000000000000000000000000000000000000,
    0x90000000000000000000000000000000000000000000000,
    0xf0000000000000000000000000000000000000000000000,
    0x50500000000000000000100000000000000020000000000,
    0x2300000000000000000000000000000000000000000000,
    0x1600000000000000000000000000000000000000000000,
    0x1900000000000000000000000000000000000000000000,
    0x600000000000000000000000000000000000000000000]

/-- The call of the contract. -/
def call (inOrder : Bool) : RollupCall where
  calldata := .ofWords 4964 fun
    | 0 => 0x40
    | 1 => 0x1340
    | 2 => 4810
    | i + 3 => if i < 142 then (header inOrder i).toNat else encodedTxs.getD (i - 142) 0
  memoryPast _ := InnerTx.zero

/-- The hashes are sums, as in the circuits. -/
def params : Params :=
  { Sample.params with
    sha256 := List.sum
    keccak256 := List.sum }

/-- The storage before the rollup. -/
def state : State :=
  { Sample.genesis with
    rollupState := 3 + 4 * 2 ^ 160
    rollupStateHash := 12
    prevDefiInteractionsHash := 0 }

/-- The calls of other contracts may be answered in any way. -/
abbrev env : Env State ExternalCall Reply := (V2.world params fun _ _ _ => True).env 0

/-- The proof data start behind the three words of the arguments. -/
lemma start_eq : ∀ inOrder, (call inOrder).arguments.map (·.1) = some (4 + 32 * 3)
  | false => by decide +kernel
  | true => by decide +kernel

/-- The header of the call is that of the proof. -/
lemma header_eq : ∀ inOrder, (List.range 142).map (fun k => (header inOrder k).toNat) =
    (proof inOrder).header.toList.map ZMod.val
  | false => by decide +kernel
  | true => by decide +kernel

example : (encoding (call true).calldata (4 + 32 * 3)).header 12 = header true 12 := by decide +kernel

/-- So is what the contract decodes. -/
lemma posted {inOrder : Bool} {tr : Trace} {s' : State}
    (ph : RollupPhases params env Sample.context (call inOrder) state tr s') :
    Posted (proof inOrder).header ph.proofData := by
  obtain ⟨start, hstart, hheader, -⟩ := ph.decodes.header_eq
  obtain rfl := Option.some.inj (hstart.symm.trans (start_eq inOrder))
  intro k field hfield
  have hget : ((proof inOrder).header.toList.map ZMod.val)[k]? = some field.val := by
    rw [List.getElem?_map, hfield]
    rfl
  rw [← header_eq, List.getElem?_map, Option.map_eq_some_iff] at hget
  obtain ⟨k', hk', hvalue⟩ := hget
  obtain ⟨hlt, rfl⟩ := List.getElem?_eq_some_iff.mp hk'
  rw [List.length_range] at hlt
  rw [List.getElem_range] at hvalue
  have hword : (encoding (call inOrder).calldata (4 + 32 * 3)).header k = header inOrder k := by
    rw [encoding, call]
    dsimp only
    rw [show 4 + 32 * 3 + 0x20 * k = 4 + 32 * (k + 3) by omega, Calldata.load_ofWords _ (by omega)]
    dsimp only
    rw [if_pos hlt, BitVec.ofNat_toNat, BitVec.setWidth_eq]
  rw [hheader, hword, hvalue]

/-- The contract accepts both orders. -/
lemma completes (inOrder : Bool) : ∃ tr s', Completes env
    (V2.processRollup params Sample.context (call inOrder) state) tr s' () := by
  have heval : ((V2.processRollup params Sample.context (call inOrder) state).eval
      Sample.answer).isSome = true := by
    revert inOrder
    intro inOrder
    cases inOrder with
    | false => decide +kernel
    | true => decide +kernel
  obtain ⟨⟨tr, s', a⟩, heval⟩ := Option.isSome_iff_exists.mp heval
  exact ⟨tr, s', Res.eval_completes (fun _ _ => ⟨trivial, rfl⟩) heval⟩

/-- The bridge calls of the header, in their order. -/
lemma header_bridgeCallDatas (inOrder : Bool) :
    (proof inOrder).header.bridgeCallDatas = bridgeCallDatas inOrder :=
  congrArg RootRollupHeader.bridgeCallDatas (accepted inOrder).root.header

/-- Those of the inner rollup, in their order. -/
lemma inner_bridgeCallDatas : ∀ j, innerProof.defiBridgeCallDatas j = bridgeCallDatas true j := by
  decide +kernel

/-- Indices are aligned exactly where the orders agree. -/
lemma aligned_iff {inOrder : Bool} {i : Fin 1} {j : Fin NUM_BRIDGE_CALLS_PER_BLOCK} :
    Aligned (tx inOrder) (proof inOrder).header i j ↔
      bridgeCallDatas true j = bridgeCallDatas inOrder j ∧ ∀ k ≤ j, bridgeCallDatas inOrder k ≠ 0 := by
  rw [Aligned, header_bridgeCallDatas, ← inner_bridgeCallDatas]
  unfold tx
  dsimp only
  exact Iff.rfl

/-- The deposit of a bridge call is found where the header has it. -/
lemma depositAt_iff {inOrder : Bool} {i : Fin 1} {t : Fin 2} {j : Fin NUM_BRIDGE_CALLS_PER_BLOCK} :
    DepositAt (tx inOrder) (fun _ => rollup) (proof inOrder).header i t j ↔
      bridgeCallDatas inOrder j = (bridgeCall t.val).toSafeUint := by
  have hreal : ∀ i t, IsReal (tx inOrder) (fun _ => rollup) i t := by
    cases inOrder <;> decide +kernel
  have hid : ∀ t, (rollup.txs t).proofId = ProofIds.DEFI_DEPOSIT := by decide +kernel
  have hdata : ∀ t, (rollup.txs t).bridgeCallData = (bridgeCall t.val).toSafeUint := by decide +kernel
  constructor
  · rintro ⟨-, -, hj⟩
    rwa [header_bridgeCallDatas, hdata] at hj
  · intro hj
    refine ⟨hreal i t, hid t, ?_⟩
    rw [header_bridgeCallDatas, hdata]
    exact hj

/-- The sample hash tells nonces apart. -/
lemma note_inj (note nonce nonce' : Fr) (fee : Nat) (h : completeClaimNote primitives note nonce fee =
    completeClaimNote primitives note nonce' fee) : nonce = nonce' := by
  have hsum : note + (nonce + ((fee : Fr) + 0)) = note + (nonce' + ((fee : Fr) + 0)) := h
  exact add_right_cancel (add_left_cancel hsum)

end SampleDeposits

/-- Every accepted rollup executes the interactions of its header in turn, each under the nonce
`rollupId * 32 + j`. All its deposits carry the nonces of their interactions if and only if each inner
rollup lists them at the index of the header and none of them comes after an empty entry. -/
theorem depositNonces_iff
    (hnote : ∀ note nonce nonce' fee, completeClaimNote H note nonce fee =
      completeClaimNote H note nonce' fee → nonce = nonce')
    {tx : RootRollupTx H m} {rollups : Fin m → RollupTx H n} {proof : RootRollupProof}
    (h : RootAccepted tx rollups proof)
    (hc : Completes E (V2.processRollup P x c s) tr s' ()) :
    Nonempty (RollupPhases P E x c s tr s') ∧
    ∀ ph : RollupPhases P E x c s tr s', Posted proof.header ph.proofData →
      (∃ length before passed after length', passed <:+: ph.bridgeTrace ∧
        Completes E ((V2.interactions ph.proofData).foldlM (V2.pass P x ph.beneficiary ph.proofData)
          length before) passed after length') ∧
      ((∀ i t j, DepositAt tx rollups proof.header i t j →
          CarriesNonce tx rollups proof.header ph.proofData i t j) ↔
        ∀ i t j, DepositAt tx rollups proof.header i t j → Aligned tx proof.header i j) := by
  refine ⟨V2.processRollup_phases hc, fun ph hposted => ?_⟩
  obtain ⟨⟨nonce, hfirst⟩, hexecutes⟩ := ph.executes
  refine ⟨hexecutes, forall_congr' fun i => forall_congr' fun t => forall_congr' fun j => ?_⟩
  exact imp_congr_right fun hd => carriesNonce_iff hnote h hfirst hposted hd

/-- Two deposits to two bridges, in the order of the inner rollup. -/
theorem depositNonces_iff_sample : ∃ tr s',
    ∃ ph : RollupPhases SampleDeposits.params SampleDeposits.env Sample.context
      (SampleDeposits.call true) SampleDeposits.state tr s',
    ∀ i t j, DepositAt (SampleDeposits.tx true) (fun _ => SampleDeposits.rollup)
        (SampleDeposits.proof true).header i t j →
      CarriesNonce (SampleDeposits.tx true) (fun _ => SampleDeposits.rollup)
        (SampleDeposits.proof true).header ph.proofData i t j := by
  obtain ⟨tr, s', hc⟩ := SampleDeposits.completes true
  obtain ⟨⟨ph⟩, hiff⟩ := depositNonces_iff SampleDeposits.note_inj (SampleDeposits.accepted true) hc
  refine ⟨tr, s', ph, (hiff ph (SampleDeposits.posted ph)).2.mpr fun i t j hd => ?_⟩
  have hj := SampleDeposits.depositAt_iff.mp hd
  rw [SampleDeposits.aligned_iff]
  clear hd
  revert t j
  decide +kernel

/-- With the interactions of the header the other way round, a deposit carries the nonce of the other
interaction. -/
theorem depositNonces_differ : ∃ tr s',
    RootAccepted (SampleDeposits.tx false) (fun _ => SampleDeposits.rollup)
      (SampleDeposits.proof false) ∧
    ∃ ph : RollupPhases SampleDeposits.params SampleDeposits.env Sample.context
      (SampleDeposits.call false) SampleDeposits.state tr s',
    Posted (SampleDeposits.proof false).header ph.proofData ∧
    ∃ i t j, DepositAt (SampleDeposits.tx false) (fun _ => SampleDeposits.rollup)
        (SampleDeposits.proof false).header i t j ∧
      ¬ CarriesNonce (SampleDeposits.tx false) (fun _ => SampleDeposits.rollup)
        (SampleDeposits.proof false).header ph.proofData i t j := by
  obtain ⟨tr, s', hc⟩ := SampleDeposits.completes false
  obtain ⟨ph⟩ := V2.processRollup_phases hc
  have hposted := SampleDeposits.posted ph
  obtain ⟨⟨nonce, hfirst⟩, -⟩ := ph.executes
  have hd : DepositAt (SampleDeposits.tx false) (fun _ => SampleDeposits.rollup)
      (SampleDeposits.proof false).header 0 0 ⟨1, by decide⟩ := by
    rw [SampleDeposits.depositAt_iff]
    decide +kernel
  refine ⟨tr, s', SampleDeposits.accepted false, ph, hposted, 0, 0, _, hd, fun hcarries => ?_⟩
  have haligned := (carriesNonce_iff SampleDeposits.note_inj (SampleDeposits.accepted false) hfirst
    hposted hd).mp hcarries
  rw [SampleDeposits.aligned_iff] at haligned
  exact absurd haligned.1 (by decide +kernel)

end AztecConnect.System
