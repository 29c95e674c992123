import AztecConnect.Client.RollupProofData
import AztecConnect.Contract.Decoder
import AztecConnect.Lib.Reassembly

/-!
# What the contract decodes of an encoded rollup

`encode` writes the inner proofs up to the last that is no padding, each in the fields of its type, and
`decodeProof` reads them back from calldata: the header words, the transactions and the hash of the public
inputs are those of the rollup (`decodeProof_encode`). The two sides differ in what they pad: the contract
pads the last inner rollup that has a transaction with cleared slots, and takes the hash of an empty one
from a table.
-/

namespace AztecConnect.System

open ByteFormat Client.RollupProof Client.Serialize Contract
open Client (EthAddress.create EthAddress.create_toBuffer32 ProofId.PADDING ProofId.DEPOSIT ProofId.WITHDRAW
  ProofId.SEND ProofId.ACCOUNT ProofId.DEFI_DEPOSIT ProofId.DEFI_CLAIM)

/-! ## Bytes in calldata -/

section Calldata

variable {cd : Calldata} {start : Nat} {xs ys bs : Bytes}

/-- The bytes stand in the calldata. -/
def InCalldata (cd : Calldata) (start : Nat) (bs : Bytes) : Prop :=
  ∀ i (h : i < bs.length), cd.byte (start + i) = BitVec.ofNat 8 bs[i].toNat

/-- Two buffers stand one behind the other in the calldata. -/
lemma inCalldata_append :
    InCalldata cd start (xs ++ ys) ↔ InCalldata cd start xs ∧ InCalldata cd (start + xs.length) ys := by
  constructor
  · intro h
    refine ⟨fun i hi => ?_, fun i hi => ?_⟩
    · have hbyte := h i (by rw [List.length_append]; omega)
      rwa [List.getElem_append_left hi] at hbyte
    · have hbyte := h (xs.length + i) (by rw [List.length_append]; omega)
      rw [List.getElem_append_right (Nat.le_add_right _ _)] at hbyte
      simp only [Nat.add_sub_cancel_left] at hbyte
      rwa [Nat.add_assoc]
  · rintro ⟨hxs, hys⟩ i hi
    rcases Nat.lt_or_ge i xs.length with hlt | hge
    · rw [List.getElem_append_left hlt]
      exact hxs i hlt
    · rw [List.length_append] at hi
      have hbyte := hys (i - xs.length) (by omega)
      rw [List.getElem_append_right hge, ← hbyte]
      exact congrArg cd.byte (by omega)

/-- So do the buffers of a list. -/
lemma inCalldata_flatten_cons {bss : List Bytes} : InCalldata cd start (bs :: bss).flatten ↔
    InCalldata cd start bs ∧ InCalldata cd (start + bs.length) bss.flatten := by
  rw [List.flatten_cons, inCalldata_append]

/-- The last byte is the least significant one. -/
lemma beNat_concat (xs : Bytes) (b : UInt8) : beNat (xs ++ [b]) = beNat xs * 256 + b.toNat := by
  rw [beNat, List.foldl_append]
  rfl

/-- Leading zeros do not count. -/
lemma beNat_zeros_append (k : Nat) (low : Bytes) : beNat (List.replicate k 0 ++ low) = beNat low := by
  induction k with
  | zero => rfl
  | succ k ih => rw [List.replicate_succ, List.cons_append, beNat_cons, ih, UInt8.toNat_zero,
      Nat.zero_mul, Nat.zero_add]

/-- The number that the bytes are. -/
lemma InCalldata.number (h : InCalldata cd start bs) : cd.number start bs.length = beNat bs := by
  induction bs using List.reverseRecOn with
  | nil => rfl
  | append_singleton bs b ih =>
    obtain ⟨hbs, hb⟩ := inCalldata_append.mp h
    have hbyte := hb 0 Nat.one_pos
    rw [Nat.add_zero] at hbyte
    rw [List.length_append, List.length_singleton, Calldata.number, ih hbs, hbyte, beNat_concat,
      BitVec.toNat_ofNat]
    exact congrArg (_ * 256 + ·) (Nat.mod_eq_of_lt b.toNat_lt)

/-- A word of 32 bytes. -/
def word (bs : Bytes) : Word := BitVec.ofNat 256 (beNat bs)

/-- 32 bytes are loaded from where they stand. -/
lemma InCalldata.load (h : InCalldata cd start bs) (hlength : bs.length = 32) :
    cd.load start = word bs := by
  have hnumber := h.number
  rw [hlength] at hnumber
  rw [Calldata.load, hnumber, word]

/-- A number is read in two parts. -/
lemma number_add (cd : Calldata) (off a b : Nat) :
    cd.number off (a + b) = cd.number off a * 256 ^ b + cd.number (off + a) b := by
  induction b with
  | zero => rw [Nat.add_zero, Nat.pow_zero, Nat.mul_one, Calldata.number, Nat.add_zero]
  | succ b ih =>
    rw [← Nat.add_assoc, Calldata.number, ih, Calldata.number, Nat.pow_succ, Nat.add_mul, Nat.mul_assoc,
      Nat.add_assoc, Nat.add_assoc]

/-- The low bits of a word that ends with the bytes. -/
lemma InCalldata.load_and (h : InCalldata cd start bs) (off k : Nat) (hoff : off + (32 - bs.length) = start)
    (hlength : bs.length ≤ 32) (hk : k ≤ 8 * bs.length) (hlt : beNat bs < 2 ^ k) :
    cd.load off &&& BitVec.ofNat 256 (2 ^ k - 1) = BitVec.ofNat 256 (beNat bs) := by
  have hpow : 256 ^ bs.length = 2 ^ k * 2 ^ (8 * bs.length - k) := by
    rw [← Nat.pow_add, Nat.add_sub_of_le hk, Nat.pow_mul]
  have hmask : 2 ^ k - 1 < 2 ^ 256 := by
    have hle : 2 ^ k ≤ 2 ^ 256 := Nat.pow_le_pow_right (by decide) (by omega)
    omega
  have hsplit := number_add cd off (32 - bs.length) bs.length
  rw [Nat.sub_add_cancel hlength, hoff, h.number, hpow] at hsplit
  apply BitVec.eq_of_toNat_eq
  rw [BitVec.toNat_and, Calldata.load, BitVec.toNat_ofNat, BitVec.toNat_ofNat, BitVec.toNat_ofNat,
    Nat.mod_eq_of_lt hmask, Nat.and_two_pow_sub_one_eq_mod]
  have hdvd : 2 ^ k ∣ 2 ^ 256 := Nat.pow_dvd_pow 2 (by omega)
  have hle : 2 ^ k ≤ 2 ^ 256 := Nat.le_of_dvd (Nat.two_pow_pos 256) hdvd
  rw [Nat.mod_mod_of_dvd _ hdvd, hsplit, Nat.mul_comm (cd.number _ _), Nat.mul_assoc,
    Nat.mul_add_mod, Nat.mod_eq_of_lt hlt, Nat.mod_eq_of_lt (Nat.lt_of_lt_of_le hlt hle)]

end Calldata

/-! ## One transaction -/

section Transaction

variable {cd : Calldata} {inPtr proofId : Nat} {p : InnerProofData}

/-- The slot of an inner proof. -/
def slotOf (p : InnerProofData) : InnerTx :=
  ⟨BitVec.ofNat 256 p.proofId, word p.noteCommitment1, word p.noteCommitment2, word p.nullifier1,
    word p.nullifier2, word p.publicValue, word p.publicOwner, word p.publicAssetId⟩

/-- Zeros are read as zero. -/
lemma word_zeros (k : Nat) : word (alloc k) = 0 := by
  have hzero := beNat_zeros_append k []
  rw [List.append_nil] at hzero
  rw [word, alloc, hzero]
  rfl

/-- The contract reads the encoding of the proof as its slot. -/
def DecodesToSlot (p : InnerProofData) : Prop :=
  ∃ bs, encodeInnerProof p = .ok bs ∧ 0 < bs.length ∧ bs.length ≤ InnerProofData.LENGTH ∧
    ∀ cd inPtr, InCalldata cd (inPtr + 0x1f) bs → decodeTx cd inPtr = .ok (slotOf p, inPtr + bs.length)

/-- The contract decodes a transaction by its first byte. -/
lemma decodeTx_eq {bs : Bytes} (hid : proofId < 8) (hat : InCalldata cd (inPtr + 0x1f) (UInt8.ofNat proofId :: bs))
    {callfunc : Nat → InnerTx → InnerTx × Nat} (hfunc : functionTable cd proofId = some callfunc) :
    decodeTx cd inPtr =
      .ok (callfunc inPtr { InnerTx.zero with proofId := BitVec.ofNat 256 proofId }) := by
  have hbyte : beNat [UInt8.ofNat proofId] = proofId := by
    rw [beNat_cons, UInt8.toNat_ofNat', List.length_nil, Nat.pow_zero, Nat.mul_one,
      Nat.mod_eq_of_lt (by omega)]
    rfl
  have hfirst : InCalldata cd (inPtr + 0x1f) [UInt8.ofNat proofId] := (inCalldata_append.mp hat).1
  have hload := hfirst.load_and inPtr 3 rfl (by simp) (by simp) (by rw [hbyte]; exact hid)
  rw [hbyte] at hload
  have hencoding : cd.load inPtr &&& 7 = BitVec.ofNat 256 proofId := hload
  rw [decodeTx]
  dsimp only
  rw [hencoding, BitVec.toNat_ofNat, Nat.mod_eq_of_lt (by omega), hfunc]

/-- Padding is decoded to an empty slot. -/
lemma decodesToSlot_padding : DecodesToSlot .PADDING := by
  refine ⟨[0], rfl, by decide, by decide, fun cd inPtr hat => ?_⟩
  rw [@decodeTx_eq cd inPtr 0 [] (by decide) hat _ rfl]
  rfl

/-- The kinds that publish notes and nullifiers only are decoded. -/
lemma decodesToSlot_notes (h : p.Enforced) (hp : p.proofId = proofId) (hid : proofId < 8)
    (hunpublished : p.publicValue = alloc 32 ∧ p.publicOwner = alloc 32 ∧ p.publicAssetId = alloc 32)
    (hencode : encodeInnerProof p = .ok (encodeNotes proofId p))
    (hfunc : ∀ cd, functionTable cd proofId = some (fourWordTx cd)) : DecodesToSlot p := by
  have hlength : (encodeNotes proofId p).length = 129 := length_encodeNotes h
  refine ⟨_, hencode, by omega, by rw [hlength]; decide, fun cd inPtr hat => ?_⟩
  rw [decodeTx_eq hid hat (hfunc cd), hlength]
  obtain ⟨h₁, hat⟩ := inCalldata_flatten_cons.mp hat
  obtain ⟨h₂, hat⟩ := inCalldata_flatten_cons.mp hat
  obtain ⟨h₃, hat⟩ := inCalldata_flatten_cons.mp hat
  obtain ⟨h₄, hat⟩ := inCalldata_flatten_cons.mp hat
  obtain ⟨h₅, -⟩ := inCalldata_flatten_cons.mp hat
  simp only [h.noteCommitment1, h.noteCommitment2, h.nullifier1, List.length_singleton, Nat.add_assoc,
    Nat.reduceAdd] at h₂ h₃ h₄ h₅
  obtain ⟨hvalue, howner, hasset⟩ := hunpublished
  rw [fourWordTx, h₂.load h.noteCommitment1, h₃.load h.noteCommitment2, h₄.load h.nullifier1,
    h₅.load h.nullifier2, slotOf, hp, hvalue, howner, hasset, word_zeros]
  rfl

/-- The owner has 20 bytes, and the asset 4. -/
lemma decodesToSlot_public (h : p.Enforced) (hp : p.proofId = proofId) (hid : proofId < 8)
    (hassetId : toBigIntBE p.publicAssetId < 2 ^ 30) (howner : toBigIntBE p.publicOwner < 2 ^ 160)
    (hencode : encodeInnerProof p = encodePublic proofId p)
    (hfunc : ∀ cd, functionTable cd proofId = some (depositOrWithdrawTx cd)) : DecodesToSlot p := by
  obtain ⟨owner, hlength, howner⟩ := eq_zeros_append (show _ = 12 + 20 from h.publicOwner)
    (show _ < 256 ^ 20 from howner)
  obtain ⟨assetId, hlength', hasset⟩ := eq_zeros_append (show _ = 28 + 4 from h.publicAssetId)
    (show _ < 256 ^ 4 from Nat.lt_trans hassetId (by decide))
  have hcreate : EthAddress.create p.publicOwner = .ok owner := by
    rw [howner]
    exact EthAddress.create_toBuffer32 hlength
  have hslice : slice p.publicAssetId 28 32 = assetId := by
    rw [hasset, slice, List.take_of_length_le (by rw [List.length_append, List.length_replicate, hlength'])]
    rfl
  have hbytes : encodeInnerProof p = .ok [[UInt8.ofNat proofId], p.noteCommitment1, p.noteCommitment2,
      p.nullifier1, p.nullifier2, p.publicValue, owner, assetId].flatten := by
    rw [hencode, encodePublic, hcreate, hslice]
    rfl
  have htotal : [[UInt8.ofNat proofId], p.noteCommitment1, p.noteCommitment2, p.nullifier1, p.nullifier2,
      p.publicValue, owner, assetId].flatten.length = 185 := by
    simp only [List.flatten_cons, List.flatten_nil, List.length_append, List.length_cons, List.length_nil,
      h.noteCommitment1, h.noteCommitment2, h.nullifier1, h.nullifier2, h.publicValue, hlength, hlength']
  refine ⟨_, hbytes, by omega, by rw [htotal]; decide, fun cd inPtr hat => ?_⟩
  rw [decodeTx_eq hid hat (hfunc cd), htotal]
  obtain ⟨h₁, hat⟩ := inCalldata_flatten_cons.mp hat
  obtain ⟨h₂, hat⟩ := inCalldata_flatten_cons.mp hat
  obtain ⟨h₃, hat⟩ := inCalldata_flatten_cons.mp hat
  obtain ⟨h₄, hat⟩ := inCalldata_flatten_cons.mp hat
  obtain ⟨h₅, hat⟩ := inCalldata_flatten_cons.mp hat
  obtain ⟨h₆, hat⟩ := inCalldata_flatten_cons.mp hat
  obtain ⟨h₇, hat⟩ := inCalldata_flatten_cons.mp hat
  obtain ⟨h₈, -⟩ := inCalldata_flatten_cons.mp hat
  simp only [h.noteCommitment1, h.noteCommitment2, h.nullifier1, h.nullifier2, h.publicValue, hlength,
    List.length_singleton, Nat.add_assoc, Nat.reduceAdd] at h₂ h₃ h₄ h₅ h₆ h₇ h₈
  have howner' := h₇.number
  have hasset' := h₈.number
  rw [hlength] at howner'
  rw [hlength'] at hasset'
  rw [depositOrWithdrawTx, h₂.load h.noteCommitment1, h₃.load h.noteCommitment2, h₄.load h.nullifier1,
    h₅.load h.nullifier2, h₆.load h.publicValue, howner', hasset', slotOf, hp, word.eq_1 p.publicOwner,
    howner, beNat_zeros_append, word.eq_1 p.publicAssetId, hasset, beNat_zeros_append]

/-- Every transaction is read as its slot. -/
lemma decodesToSlot (h : p.Enforced) (howner : p.OwnerIsAddress) : DecodesToSlot p := by
  have hle : p.proofId ≤ 6 := h.proofId
  have hencode : ∀ id, p.proofId = id → encodeInnerProof p = encodeInnerProof { p with proofId := id } := by
    rintro id rfl
    rfl
  have hunpublished (id : Nat) (hp : p.proofId = id) (hmem : id ∈ [ProofId.SEND, ProofId.ACCOUNT,
      ProofId.DEFI_DEPOSIT, ProofId.DEFI_CLAIM]) := h.unpublished (hp ▸ hmem)
  have hpublic (id : Nat) (hp : p.proofId = id) (hmem : id ∈ [ProofId.DEPOSIT, ProofId.WITHDRAW]) :
      p.proofId ∈ [ProofId.DEPOSIT, ProofId.WITHDRAW] := hp ▸ hmem
  obtain hp | hp | hp | hp | hp | hp | hp : p.proofId = 0 ∨ p.proofId = 1 ∨ p.proofId = 2 ∨ p.proofId = 3 ∨
    p.proofId = 4 ∨ p.proofId = 5 ∨ p.proofId = 6 := by omega
  · rw [h.padding hp]
    exact decodesToSlot_padding
  · have hmem := hpublic 1 hp (by decide)
    exact decodesToSlot_public h hp (by decide) (h.assetId hmem) (howner hmem) (hencode 1 hp) fun _ => rfl
  · have hmem := hpublic 2 hp (by decide)
    exact decodesToSlot_public h hp (by decide) (h.assetId hmem) (howner hmem) (hencode 2 hp) fun _ => rfl
  · exact decodesToSlot_notes h hp (by decide) (hunpublished 3 hp (by decide)) (hencode 3 hp) fun _ => rfl
  · exact decodesToSlot_notes h hp (by decide) (hunpublished 4 hp (by decide)) (hencode 4 hp) fun _ => rfl
  · exact decodesToSlot_notes h hp (by decide) (hunpublished 5 hp (by decide)) (hencode 5 hp) fun _ => rfl
  · exact decodesToSlot_notes h hp (by decide) (hunpublished 6 hp (by decide)) (hencode 6 hp) fun _ => rfl

/-- The loop reads all of them. -/
lemma decodeTxs_eq {ps : List InnerProofData} (h : ∀ p ∈ ps, DecodesToSlot p) :
    ∃ bss, ps.mapM encodeInnerProof = .ok bss ∧
      bss.flatten.length ≤ ps.length * InnerProofData.LENGTH ∧
      ∀ cd inPtr fuel, bss.flatten.length ≤ fuel → InCalldata cd (inPtr + 0x1f) bss.flatten →
        decodeTxs cd (inPtr + bss.flatten.length) fuel inPtr = .ok (ps.map slotOf) := by
  induction ps with
  | nil =>
    refine ⟨[], rfl, Nat.zero_le _, fun cd inPtr fuel _ _ => ?_⟩
    cases fuel with
    | zero => rfl
    | succ fuel => exact if_neg (Nat.lt_irrefl _)
  | cons p ps ih =>
    obtain ⟨bs, hbs, hpos, hle, hdecode⟩ := h p List.mem_cons_self
    obtain ⟨bss, hbss, hle', hrest⟩ := ih fun p hmem => h p (List.mem_cons_of_mem _ hmem)
    refine ⟨bs :: bss, ?_, ?_, fun cd inPtr fuel hfuel hat => ?_⟩
    · rw [List.mapM_cons, hbs, hbss]
      rfl
    · rw [List.flatten_cons, List.length_append, List.length_cons, Nat.succ_mul]
      omega
    · obtain ⟨hfirst, hat⟩ := inCalldata_flatten_cons.mp hat
      rw [List.flatten_cons, List.length_append] at hfuel ⊢
      rw [Nat.add_right_comm] at hat
      cases fuel with
      | zero => omega
      | succ fuel =>
        have htail := hrest cd (inPtr + bs.length) fuel (by omega) hat
        rw [Nat.add_assoc] at htail
        rw [decodeTxs, if_pos (by omega), hdecode cd inPtr hfirst]
        show (do
          let txs ← decodeTxs cd (inPtr + (bs.length + bss.flatten.length)) fuel (inPtr + bs.length)
          return slotOf p :: txs) = _
        rw [htail]
        rfl

end Transaction

/-! ## The counts -/

section Counts

variable {k n t : Nat}

/-- The inner rollups that the transactions reach into. -/
def numFilled (n t : Nat) : Nat := t / n + if t / n * n = t then 0 else 1

/-- The inner rollups that are not empty hold the transactions. -/
lemma numFilled_bounds (hn : 0 < n) (ht : 0 < t) (hle : t ≤ k * n) :
    0 < numFilled n t ∧ numFilled n t ≤ k ∧ t ≤ numFilled n t * n := by
  have hmod := Nat.div_add_mod t n
  have hlt := Nat.mod_lt t hn
  rw [Nat.mul_comm] at hmod
  unfold numFilled
  split
  case isTrue heq =>
    rw [Nat.add_zero]
    refine ⟨Nat.pos_of_ne_zero fun hzero => ?_, ?_, heq.ge⟩
    · rw [hzero, Nat.zero_mul] at heq
      omega
    · exact Nat.le_of_mul_le_mul_right (heq.le.trans hle) hn
  case isFalse hne =>
    have hrest : 0 < t % n := by omega
    refine ⟨Nat.succ_pos _, ?_, ?_⟩
    · refine Nat.lt_of_mul_lt_mul_right (a := n) ?_
      omega
    · rw [Nat.succ_mul]
      omega

/-- Words divide as numbers. -/
lemma ofNat_div {a b : Nat} (ha : a < 2 ^ 256) (hb : b < 2 ^ 256) :
    BitVec.ofNat 256 a / BitVec.ofNat 256 b = BitVec.ofNat 256 (a / b) := by
  apply BitVec.eq_of_toNat_eq
  have hdiv : a / b < 2 ^ 256 := Nat.lt_of_le_of_lt (Nat.div_le_self a b) ha
  rw [BitVec.toNat_udiv, BitVec.toNat_ofNat, BitVec.toNat_ofNat, BitVec.toNat_ofNat, Nat.mod_eq_of_lt ha,
    Nat.mod_eq_of_lt hb, Nat.mod_eq_of_lt hdiv]

/-- Words tell numbers apart. -/
lemma ofNat_inj {a b : Nat} (ha : a < 2 ^ 256) (hb : b < 2 ^ 256) :
    BitVec.ofNat 256 a = BitVec.ofNat 256 b ↔ a = b := by
  rw [← BitVec.toNat_inj, BitVec.toNat_ofNat, BitVec.toNat_ofNat, Nat.mod_eq_of_lt ha, Nat.mod_eq_of_lt hb]

/-- The layout of a rollup, when nothing wraps. -/
lemma layout_eq (hk : 0 < k) (hn : 0 < n) (ht : 0 < t) (hle : t ≤ k * n) (hfits : k * n < 2 ^ 24) :
    layout (BitVec.ofNat 256 (k * n)) (BitVec.ofNat 256 k) (BitVec.ofNat 256 t) =
      { numTxsPerRollup := BitVec.ofNat 256 n
        numFilledBlocks := BitVec.ofNat 256 (numFilled n t)
        numEmptyInnerRollups := BitVec.ofNat 256 (k - numFilled n t)
        decodedTransactionDataSize := BitVec.ofNat 256 (numFilled n t * n * 256)
        rollupDataSize := BitVec.ofNat 256 (n * 256) } := by
  have hkle : k ≤ k * n := Nat.le_mul_of_pos_right _ hn
  have hnle : n ≤ k * n := Nat.le_mul_of_pos_left _ hk
  obtain ⟨-, hfilled, -⟩ := numFilled_bounds hn ht hle
  have hquot : t / n * n ≤ t := Nat.div_mul_le_self t n
  have hquot' : t / n ≤ t := Nat.div_le_self t n
  have hper : BitVec.ofNat 256 (k * n) / BitVec.ofNat 256 k = BitVec.ofNat 256 n := by
    rw [ofNat_div (by omega) (by omega), Nat.mul_div_cancel_left _ hk]
  have hnum : BitVec.ofNat 256 (t / n) +
      (if BitVec.ofNat 256 (t / n) * BitVec.ofNat 256 n = BitVec.ofNat 256 t then 0 else 1) =
      BitVec.ofNat 256 (numFilled n t) := by
    rw [← BitVec.ofNat_mul, numFilled, BitVec.ofNat_add]
    by_cases heq : t / n * n = t
    · rw [if_pos heq, if_pos ((ofNat_inj (by omega) (by omega)).mpr heq)]
      rfl
    · rw [if_neg heq, if_neg fun h => heq ((ofNat_inj (by omega) (by omega)).mp h)]
      rfl
  have hempty : BitVec.ofNat 256 k - BitVec.ofNat 256 (numFilled n t) =
      BitVec.ofNat 256 (k - numFilled n t) := by
    apply BitVec.eq_of_toNat_eq
    rw [BitVec.toNat_sub, BitVec.toNat_ofNat, BitVec.toNat_ofNat, BitVec.toNat_ofNat]
    omega
  rw [layout, hper, ofNat_div (by omega) (by omega), hnum, hempty]
  simp only [BitVec.ofNat_mul, Layout.mk.injEq, true_and]
  refine ⟨rfl, ?_⟩
  rw [BitVec.mul_assoc]
  rfl

/-- A loop over words has as many rounds as words. -/
lemma rounds_eq {a c : Nat} (h : a + 32 * c < 2 ^ 256) :
    rounds (BitVec.ofNat 256 a) (BitVec.ofNat 256 a + BitVec.ofNat 256 c * 0x20) = c := by
  have hend : BitVec.ofNat 256 a + BitVec.ofNat 256 c * 0x20 = BitVec.ofNat 256 (a + c * 32) := by
    rw [BitVec.ofNat_add, BitVec.ofNat_mul]
    rfl
  have hdiff : BitVec.ofNat 256 (a + c * 32) - BitVec.ofNat 256 a = BitVec.ofNat 256 (c * 32) := by
    rw [BitVec.ofNat_add, BitVec.add_comm, BitVec.add_sub_cancel]
  have hlt : BitVec.ofNat 256 a < BitVec.ofNat 256 (a + c * 32) ↔ 0 < c := by
    rw [BitVec.lt_def, BitVec.toNat_ofNat, BitVec.toNat_ofNat]
    omega
  rw [hend, rounds, hdiff, BitVec.toNat_ofNat, Nat.mod_eq_of_lt (by omega), Nat.mul_div_cancel _ (by decide)]
  by_cases hc : 0 < c
  · rw [if_pos (hlt.mpr hc)]
  · rw [if_neg (mt hlt.mp hc)]
    omega

end Counts

/-! ## The hash of the public inputs -/

section Hash

variable {P : Params} {n t : Nat} {blocks : List (List InnerProofData)}

/-- The hash of an inner rollup. -/
def blockHash (P : Params) (block : List InnerProofData) : Word :=
  P.sha256Mod ((block.map slotOf).flatMap InnerTx.words)

/-- The hashes of padding are those of the table. -/
def PaddingHashed (P : Params) (n : Nat) : Prop :=
  paddingRollupHash (BitVec.ofNat 256 n) = some (P.sha256Mod (List.replicate (8 * n) 0))

/-- Padding is an empty slot. -/
lemma slotOf_padding : slotOf .PADDING = InnerTx.zero := by
  simp only [slotOf, InnerProofData.PADDING, word_zeros]
  rfl

/-- Empty slots are zeros. -/
lemma flatMap_words_zeros (n : Nat) :
    (List.replicate n InnerTx.zero).flatMap InnerTx.words = List.replicate (8 * n) 0 := by
  induction n with
  | zero => rfl
  | succ n ih =>
    rw [List.replicate_succ, List.flatMap_cons, ih, Nat.mul_succ, Nat.add_comm,
      ← List.replicate_append_replicate]
    rfl

/-- An inner rollup of padding hashes zeros. -/
lemma blockHash_padding {block : List InnerProofData} (hlength : block.length = n)
    (h : ∀ p ∈ block, p = .PADDING) : blockHash P block = P.sha256Mod (List.replicate (8 * n) 0) := by
  rw [blockHash, List.eq_replicate_of_mem h, List.map_replicate, slotOf_padding, flatMap_words_zeros,
    hlength]

/-- Behind the last transaction there are only inner rollups of padding. -/
lemma padding_blocks (hlengths : ∀ block ∈ blocks, block.length = n)
    (hpadding : ∀ i, t ≤ i → ∀ p, blocks.flatten[i]? = some p → p = .PADDING) {f : Nat} (hreach : t ≤ f * n)
    {j : Nat} (hj : j < blocks.length) (hf : f ≤ j) : ∀ p ∈ blocks[j], p = .PADDING := by
  intro p hp
  rw [← Reassembly.getD_block hlengths hj InnerProofData.PADDING] at hp
  obtain ⟨i, hi, rfl⟩ := List.mem_map.mp hp
  have hi' := List.mem_range.mp hi
  have hindex : j * n + i < blocks.flatten.length := by
    rw [Reassembly.length_flatten_blocks hlengths]
    calc j * n + i < j * n + n := by omega
      _ = (j + 1) * n := (Nat.succ_mul j n).symm
      _ ≤ blocks.length * n := Nat.mul_le_mul_right _ hj
  rw [List.getD_eq_getElem _ _ hindex]
  refine hpadding _ ?_ _ (List.getElem?_eq_getElem hindex)
  calc t ≤ f * n := hreach
    _ ≤ j * n + i := Nat.le_trans (Nat.mul_le_mul_right _ hf) (Nat.le_add_right _ _)

/-- The contract hashes the inner rollups that have a transaction, and looks up the others. -/
lemma innerRollupHashes_eq (hlengths : ∀ block ∈ blocks, block.length = n) (hn : 0 < n) (ht : 0 < t)
    (hle : t ≤ blocks.length * n) (hfits : blocks.length * n < 2 ^ 24)
    (hpadding : ∀ i, t ≤ i → ∀ p, blocks.flatten[i]? = some p → p = .PADDING)
    (htable : numFilled n t < blocks.length → PaddingHashed P n) {slot : Nat → InnerTx}
    (hslot : ∀ i < numFilled n t * n, slot i = (blocks.flatten.map slotOf).getD i InnerTx.zero) :
    innerRollupHashes P (layout (BitVec.ofNat 256 (blocks.length * n)) (BitVec.ofNat 256 blocks.length)
      (BitVec.ofNat 256 t)) slot = .ok (blocks.map (blockHash P)) := by
  have hk : 0 < blocks.length := Nat.pos_of_ne_zero fun hzero => by
    rw [hzero, Nat.zero_mul] at hle
    omega
  obtain ⟨hpos, hfilled, hreach⟩ := numFilled_bounds hn ht hle
  have hnle : n ≤ blocks.length * n := Nat.le_mul_of_pos_left _ hk
  have hkle : blocks.length ≤ blocks.length * n := Nat.le_mul_of_pos_right _ hn
  have hdata : numFilled n t * n ≤ blocks.length * n := Nat.mul_le_mul_right _ hfilled
  obtain ⟨a, ha⟩ : ∃ a, a = 0x180 + (4544 + numFilled n t * n * 256) + 0x20 + 4544 := ⟨_, rfl⟩
  have hptr : (layout (BitVec.ofNat 256 (blocks.length * n)) (BitVec.ofNat 256 blocks.length)
      (BitVec.ofNat 256 t)).hashPtr = BitVec.ofNat 256 a := by
    rw [layout_eq hk hn ht hle hfits, ha, Layout.hashPtr]
    simp only [BitVec.ofNat_add]
    rfl
  have hrounds : (layout (BitVec.ofNat 256 (blocks.length * n)) (BitVec.ofNat 256 blocks.length)
      (BitVec.ofNat 256 t)).hashedRollups = numFilled n t := by
    rw [Layout.hashedRollups, hptr, layout_eq hk hn ht hle hfits]
    exact rounds_eq (by omega)
  have hsize : (BitVec.ofNat 256 (n * 256)).toNat / TX_PUBLIC_INPUT_LENGTH = n := by
    rw [BitVec.toNat_ofNat, Nat.mod_eq_of_lt (by omega), TX_PUBLIC_INPUT_LENGTH, Nat.mul_div_cancel _ (by decide)]
  have hslots : ∀ block ∈ blocks.map (List.map slotOf), block.length = n := by
    intro block hblock
    obtain ⟨ps, hps, rfl⟩ := List.mem_map.mp hblock
    rw [List.length_map, hlengths ps hps]
  -- the inner rollups that have a transaction
  have hfilledHashes : (List.range (numFilled n t)).map (innerRollupHash P
      (layout (BitVec.ofNat 256 (blocks.length * n)) (BitVec.ofNat 256 blocks.length) (BitVec.ofNat 256 t))
      slot) = (blocks.take (numFilled n t)).map (blockHash P) := by
    refine List.ext_getElem (by simp [Nat.min_eq_left hfilled]) fun j hj hj' => ?_
    rw [List.length_map, List.length_range] at hj
    have hblock := Reassembly.getD_block hslots (i := j) (by rw [List.length_map]; omega) InnerTx.zero
    rw [← List.map_flatten, List.getElem_map] at hblock
    rw [List.getElem_map, List.getElem_range, List.getElem_map, List.getElem_take, innerRollupHash,
      layout_eq hk hn ht hle hfits]
    dsimp only
    rw [hsize, blockHash, ← hblock]
    refine congrArg (fun slots : List InnerTx => P.sha256Mod (slots.flatMap InnerTx.words)) ?_
    refine List.map_congr_left fun i hi => hslot _ ?_
    have hi := List.mem_range.mp hi
    calc j * n + i < j * n + n := by omega
      _ = (j + 1) * n := (Nat.succ_mul j n).symm
      _ ≤ numFilled n t * n := Nat.mul_le_mul_right _ hj
  -- those that have none
  have hemptyHashes : numFilled n t < blocks.length → (blocks.drop (numFilled n t)).map (blockHash P) =
      List.replicate (blocks.length - numFilled n t) (P.sha256Mod (List.replicate (8 * n) 0)) := by
    intro hlt
    rw [List.eq_replicate_iff]
    refine ⟨by rw [List.length_map, List.length_drop], fun hash hhash => ?_⟩
    obtain ⟨block, hblock, rfl⟩ := List.mem_map.mp hhash
    obtain ⟨j, hj, rfl⟩ := List.getElem_of_mem hblock
    rw [List.length_drop] at hj
    rw [List.getElem_drop]
    exact blockHash_padding (hlengths _ (List.getElem_mem _)) (padding_blocks hlengths hpadding hreach (by omega)
      (by omega))
  rw [innerRollupHashes]
  dsimp only
  rw [hrounds, hfilledHashes, hptr, layout_eq hk hn ht hle hfits]
  dsimp only
  by_cases hall : numFilled n t = blocks.length
  · rw [hall, Nat.sub_self, if_pos (show BitVec.ofNat 256 0 = 0 from rfl), List.take_length]
  · have hlt : numFilled n t < blocks.length := by omega
    have hend : BitVec.ofNat 256 a + BitVec.ofNat 256 (numFilled n t) * 0x20 =
        BitVec.ofNat 256 (a + numFilled n t * 32) := by
      rw [BitVec.ofNat_add, BitVec.ofNat_mul]
      rfl
    have hdiff : (BitVec.ofNat 256 (a + numFilled n t * 32) +
        BitVec.ofNat 256 (blocks.length - numFilled n t) * 0x20 -
        BitVec.ofNat 256 (a + numFilled n t * 32)).toNat < 2 ^ 64 := by
      rw [BitVec.add_comm, BitVec.add_sub_cancel, BitVec.toNat_mul, BitVec.toNat_ofNat]
      have hval : ((0x20 : BitVec 256)).toNat = 32 := rfl
      rw [hval]
      omega
    rw [if_neg (fun hzero => by
      have hzero' := (ofNat_inj (b := 0) (by omega) (by decide)).mp hzero
      omega), htable hlt, hend]
    dsimp only
    rw [if_pos (.inl hdiff), rounds_eq (by omega), ← hemptyHashes hlt, ← List.map_append,
      List.take_append_drop]

end Hash

/-! ## The rollup -/

section Rollup

variable {P : Params} {x : RollupProofData} {n : Nat} {blocks : List (List InnerProofData)}

/-- The words of the header. -/
def headerWord (x : HeaderInputs) (i : Nat) : Word := word (field x.parts.flatten i)

/-- The number of transactions that are encoded. -/
def numRealTxns (x : RollupProofData) : Nat := RollupProofData.lastNonEmptyIndex x.innerProofData + 1

/-- A small number in the header is read from its word. -/
lemma headerWord_of_at {x : HeaderInputs} {i v : Nat} (h : At x.parts.flatten (i * 32) (beBytes 32 v))
    (hv : v < 2 ^ 32) : headerWord x i = BitVec.ofNat 256 v := by
  have hwidth : v < 256 ^ 32 := Nat.lt_trans hv (by decide)
  rw [headerWord, field_at (length_beBytes 32 v) h, word, beNat_beBytes hwidth]

/-- The counts in the header. -/
lemma headerWord_counts {x : HeaderInputs} (h : x.WellFormed) :
    headerWord x 1 = BitVec.ofNat 256 x.rollupSize ∧ headerWord x 141 = BitVec.ofNat 256 x.numRollupTxs := by
  have hsize : At x.parts.flatten (1 * 32) (beBytes 32 x.rollupSize) := by
    have hat := (at_flatten_cons.mp (at_flatten_cons.mp (at_zero x.parts.flatten)).2).1
    rwa [length_beBytes] at hat
  have hnum : At x.parts.flatten (141 * 32) (beBytes 32 x.numRollupTxs) := by
    have hlength := HeaderInputs.length_parts h
    have hsplit : x.parts.flatten = x.parts.dropLast.flatten ++ beBytes 32 x.numRollupTxs := by
      simp only [HeaderInputs.parts, List.dropLast, List.flatten_cons, List.flatten_nil, List.append_assoc,
        List.append_nil]
    rw [hsplit, List.length_append, length_beBytes] at hlength
    have hat := at_mid x.parts.dropLast.flatten (beBytes 32 x.numRollupTxs) []
    have hoffset : x.parts.dropLast.flatten.length = 141 * 32 := by
      rw [RollupProofData.LENGTH_ROLLUP_HEADER_INPUTS] at hlength
      change _ = 4544 at hlength
      omega
    rwa [List.append_nil, ← hsplit, hoffset] at hat
  exact ⟨headerWord_of_at hsize h.rollupSize, headerWord_of_at hnum h.numRollupTxs⟩

/-- A word of a buffer is loaded from the calldata. -/
lemma inCalldata_slice {cd : Calldata} {start : Nat} {bs : Bytes} (h : InCalldata cd start bs) {i : Nat}
    (hi : i * 32 + 32 ≤ bs.length) : cd.load (start + i * 32) = word (field bs i) := by
  have hsplit : bs = bs.take (i * 32) ++ (field bs i ++ bs.drop (i * 32 + 32)) := by
    have hdrop : bs.drop (i * 32) = field bs i ++ bs.drop (i * 32 + 32) := by
      rw [field, slice, List.drop_take, Nat.add_sub_cancel_left, ← List.drop_drop, List.take_append_drop]
    rw [← hdrop, List.take_append_drop]
  have hlength : (field bs i).length = 32 := by
    rw [field, length_slice hi]
    omega
  rw [hsplit] at h
  have hfield := (inCalldata_append.mp (inCalldata_append.mp h).2).1
  rw [List.length_take_of_le (by omega)] at hfield
  exact hfield.load hlength

/-- The search finds an index of the list, or none. -/
lemma foldl_lastNonEmpty_lt (ps : List InnerProofData) (last k : Nat) :
    (ps.zipIdx k).foldl lastNonEmptyStep last = last ∨
      (ps.zipIdx k).foldl lastNonEmptyStep last < k + ps.length := by
  induction ps generalizing last k with
  | nil => exact .inl rfl
  | cons p ps ih =>
    rw [List.zipIdx_cons, List.foldl_cons, List.length_cons]
    rcases ih (lastNonEmptyStep last (p, k)) (k + 1) with hlast | hlt
    · rw [hlast]
      unfold lastNonEmptyStep
      split
      case isTrue => exact .inr (by omega)
      case isFalse => exact .inl rfl
    · exact .inr (by omega)

/-- So the last transaction is in the list. -/
lemma lastNonEmptyIndex_lt (ps : List InnerProofData) (h : 0 < ps.length) :
    RollupProofData.lastNonEmptyIndex ps < ps.length := by
  rw [lastNonEmptyIndex_eq]
  rcases foldl_lastNonEmpty_lt ps 0 0 with hlast | hlt
  · rwa [hlast]
  · rwa [Nat.zero_add] at hlt

/-- What is encoded: the header, the counts and the transactions. -/
lemma encode_eq (h : x.Enforced) (howners : x.OwnersAreAddresses) :
    ∃ bss : List Bytes, x.encode = .ok [x.parts.flatten, beBytes 4 (numRealTxns x),
        beBytes 4 bss.flatten.length, bss.flatten].flatten ∧
      numRealTxns x ≤ x.rollupSize ∧ bss.flatten.length < 2 ^ 32 ∧
      ∀ cd inPtr fuel, bss.flatten.length ≤ fuel → InCalldata cd (inPtr + 0x1f) bss.flatten →
        decodeTxs cd (inPtr + bss.flatten.length) fuel inPtr =
          .ok ((x.innerProofData.take (numRealTxns x)).map slotOf) := by
  have hfits : x.rollupSize * 256 < 2 ^ 32 := h.fits
  have hlast : numRealTxns x ≤ x.rollupSize := by
    have hlt := lastNonEmptyIndex_lt x.innerProofData (h.size ▸ h.nonempty)
    rwa [h.size] at hlt
  obtain ⟨bss, hencode, hle, hdecode⟩ := @decodeTxs_eq (x.innerProofData.take (numRealTxns x))
    fun p hp => decodesToSlot (h.innerProofData p (List.mem_of_mem_take hp))
      (howners p (List.mem_of_mem_take hp))
  have hlength : bss.flatten.length < 2 ^ 32 := by
    refine Nat.lt_of_le_of_lt (Nat.le_trans hle (Nat.mul_le_mul_right _ ?_)) hfits
    rw [← h.size]
    exact List.length_take_le' _ _
  refine ⟨bss, ?_, hlast, hlength, hdecode⟩
  have hnum : numRealTxns x < 2 ^ 32 := by omega
  rw [RollupProofData.encode]
  refine (bind_of_ok hencode _).trans ?_
  refine (bind_of_ok (HeaderInputs.toBuffer_eq h.header) _).trans ?_
  refine (bind_of_ok (numToUInt32BE_eq hnum) _).trans ?_
  refine (bind_of_ok (numToUInt32BE_eq hlength) _).trans ?_
  simp only [List.flatten_cons, List.flatten_nil, List.append_nil, List.append_assoc]

/-- What the contract has decoded of the rollup. -/
structure DecodedRollup (x : RollupProofData) (p : ProofData) : Prop where
  header : ∀ i < 142, p.header i = headerWord x.toHeaderInputs i
  slots : ∀ i < numRealTxns x, ∀ inner, x.innerProofData[i]? = some inner → p.slot i = slotOf inner

/-- Behind it everything is padding. -/
lemma padding_behind_last (h : x.Enforced) {i : Nat} (hi : numRealTxns x ≤ i) {p : InnerProofData}
    (hp : x.innerProofData[i]? = some p) : p = .PADDING := by
  by_contra hne
  have hreal : p.proofId ≠ ProofId.PADDING := fun hid =>
    hne ((h.innerProofData p (List.mem_of_getElem? hp)).padding hid)
  have hreach := (foldl_lastNonEmpty x.innerProofData (Nat.le_refl 0)).2.2 i p hp hreal
  rw [← lastNonEmptyIndex_eq, Nat.zero_add] at hreach
  unfold numRealTxns at hi
  omega

/-- The counts and the header words that the contract reads, and where the transactions are. -/
lemma encoding_eq (h : x.Enforced) {encodedInnerProof : Bytes} (hnum : numRealTxns x < 2 ^ 32)
    (hlength : encodedInnerProof.length < 2 ^ 32) {cd : Calldata} {start : Nat}
    (hat : InCalldata cd start [x.parts.flatten, beBytes 4 (numRealTxns x),
      beBytes 4 encodedInnerProof.length, encodedInnerProof].flatten) :
    (encoding cd start).numTxs = BitVec.ofNat 256 (numRealTxns x) ∧
      (encoding cd start).encodedInnerDataSize = encodedInnerProof.length ∧
      (∀ i < 142, (encoding cd start).header i = headerWord x.toHeaderInputs i) ∧
      InCalldata cd (start + 4552) encodedInnerProof := by
  obtain ⟨hheader, hat⟩ := inCalldata_flatten_cons.mp hat
  obtain ⟨hcount, hat⟩ := inCalldata_flatten_cons.mp hat
  obtain ⟨hlen, hat⟩ := inCalldata_flatten_cons.mp hat
  obtain ⟨hproofs, -⟩ := inCalldata_flatten_cons.mp hat
  have hparts := HeaderInputs.length_parts h.header
  change _ = 4544 at hparts
  simp only [hparts, length_beBytes, Nat.add_assoc, Nat.reduceAdd] at hcount hlen hproofs
  have hread {k v : Nat} (hv : v < 2 ^ 32) (hk : InCalldata cd (start + k + 28) (beBytes 4 v)) :
      cd.load (start + k) &&& 0xffffffff = BitVec.ofNat 256 v := by
    have hnat : beNat (beBytes 4 v) = v := beNat_beBytes hv
    have hload := hk.load_and (start + k) 32 (by rw [length_beBytes])
      (by rw [length_beBytes]; decide) (by rw [length_beBytes]) (by rw [hnat]; exact hv)
    rw [hnat] at hload
    exact hload
  refine ⟨hread hnum hcount, ?_, fun i hi => ?_, hproofs⟩
  · have hsize := congrArg BitVec.toNat (hread (k := ENCODED_PROOF_DATA_LENGTH_OFFSET) hlength hlen)
    rw [BitVec.toNat_ofNat, Nat.mod_eq_of_lt (by omega)] at hsize
    exact hsize
  · show cd.load (start + 0x20 * i) = _
    rw [Nat.mul_comm]
    exact inCalldata_slice hheader (by omega)

/-- The slots of the inner rollups that have a transaction. -/
lemma slots_eq (h : x.Enforced) (memoryPast : Nat → InnerTx) {decoded i : Nat} (hi : i < decoded) :
    slots decoded ((x.innerProofData.take (numRealTxns x)).map slotOf) memoryPast i =
      (x.innerProofData.map slotOf).getD i InnerTx.zero := by
  rw [slots, if_pos hi, List.map_take, List.getD_eq_getElem?_getD, List.getD_eq_getElem?_getD]
  rcases Nat.lt_or_ge i (numRealTxns x) with hlt | hge
  · rw [List.getElem?_take_of_lt hlt]
  · rw [List.getElem?_take_eq_none hge, List.getElem?_map]
    cases hget : x.innerProofData[i]? with
    | none => rfl
    | some p =>
      rw [padding_behind_last h hge hget, Option.map_some, slotOf_padding]
      rfl

/-- The contract reads the encoded rollup, and computes the hash of its public inputs. -/
lemma decodeProof_encode (h : x.Enforced) (howners : x.OwnersAreAddresses)
    (hblocks : x.innerProofData = blocks.flatten) (hlengths : ∀ block ∈ blocks, block.length = n)
    (hnum : x.numRollupTxs = blocks.length)
    (htable : numFilled n (numRealTxns x) < blocks.length → PaddingHashed P n) :
    ∃ bytes, x.encode = .ok bytes ∧ ∀ cd start memoryPast, InCalldata cd start bytes →
      ROLLUP_HEADER_LENGTH + 8 + (encoding cd start).encodedInnerDataSize = bytes.length ∧
      ∃ p, decodeProof P cd start memoryPast = .ok (p, BitVec.ofNat 256 (numRealTxns x),
          P.sha256Mod ((List.range 142).map (headerWord x.toHeaderInputs) ++ blocks.map (blockHash P))) ∧
        DecodedRollup x p := by
  obtain ⟨bss, hencode, hlast, hlength, hdecode⟩ := encode_eq h howners
  have hsize : x.rollupSize = blocks.length * n := by
    rw [← h.size, hblocks, Reassembly.length_flatten_blocks hlengths]
  have hfits : x.rollupSize * 256 < 2 ^ 32 := h.fits
  have hprod := h.nonempty
  rw [hsize] at hprod hfits
  have hn : 0 < n := Nat.pos_of_mul_pos_left hprod
  have hk : 0 < blocks.length := Nat.pos_of_mul_pos_right hprod
  have hreal : 0 < numRealTxns x := Nat.succ_pos _
  have hle : numRealTxns x ≤ blocks.length * n := hsize ▸ hlast
  have hfits' : blocks.length * n < 2 ^ 24 := by omega
  obtain ⟨-, hfilled, hreach⟩ := numFilled_bounds hn hreal hle
  have hmul : numFilled n (numRealTxns x) * n ≤ blocks.length * n := Nat.mul_le_mul_right _ hfilled
  have hregion : numFilled n (numRealTxns x) * n * 256 < 2 ^ 64 :=
    Nat.lt_of_le_of_lt (Nat.mul_le_mul_right 256 hmul) (Nat.lt_trans hfits (by decide))
  refine ⟨_, hencode, fun cd start memoryPast hat => ?_⟩
  obtain ⟨hnumTxs, hdataSize, hwords, hproofs⟩ := encoding_eq h (by omega) hlength hat
  obtain ⟨hword₁, hword₁₄₁⟩ := headerWord_counts h.header
  have hlayout : (encoding cd start).layout = layout (BitVec.ofNat 256 (blocks.length * n))
      (BitVec.ofNat 256 blocks.length) (BitVec.ofNat 256 (numRealTxns x)) := by
    rw [Encoding.layout, Encoding.rollupSize, Encoding.numInnerRollups, hwords 1 (by decide),
      hwords 141 (by decide), hword₁, hword₁₄₁, hnumTxs, hsize, hnum]
  have hdecoded : (encoding cd start).layout.decodedTransactionDataSize.toNat =
      numFilled n (numRealTxns x) * n * 256 := by
    rw [hlayout, layout_eq hk hn hreal hle hfits', BitVec.toNat_ofNat,
      Nat.mod_eq_of_lt (Nat.lt_trans hregion (by decide))]
  have htxs := hdecode cd (start + 4521) _ (Nat.le_refl _) hproofs
  have hslot : ∀ i < numFilled n (numRealTxns x) * n,
      slots (encoding cd start).decodedSlots ((x.innerProofData.take (numRealTxns x)).map slotOf)
        memoryPast i = (blocks.flatten.map slotOf).getD i InnerTx.zero := by
    intro i hi
    rw [slots_eq h memoryPast, hblocks]
    rwa [Encoding.decodedSlots, hdecoded, TX_PUBLIC_INPUT_LENGTH, Nat.mul_div_cancel _ (by decide)]
  have hhashes := innerRollupHashes_eq (P := P) hlengths hn hreal hle hfits'
    (fun i hi p hp => padding_behind_last h hi (hblocks ▸ hp)) htable hslot
  rw [← hlayout] at hhashes
  have hheader : (List.range 142).map (encoding cd start).header =
      (List.range 142).map (headerWord x.toHeaderInputs) :=
    List.map_congr_left fun i hi => hwords i (List.mem_range.mp hi)
  refine ⟨?_, ⟨(encoding cd start).header, slots (encoding cd start).decodedSlots
    ((x.innerProofData.take (numRealTxns x)).map slotOf) memoryPast⟩, ?_, hwords, fun i hi inner hget => ?_⟩
  · have hparts := HeaderInputs.length_parts h.header
    change _ = 4544 at hparts
    simp only [hdataSize, List.flatten_cons, List.flatten_nil, List.length_append, List.length_nil, hparts,
      length_beBytes, ROLLUP_HEADER_LENGTH]
    omega
  · have hptr : start + (ROLLUP_HEADER_LENGTH + 0x08) - 0x1f = start + 4521 := by
      rw [ROLLUP_HEADER_LENGTH]
      omega
    have htail : start + (ROLLUP_HEADER_LENGTH + 0x08) + bss.flatten.length - 0x1f =
        start + 4521 + bss.flatten.length := by
      rw [ROLLUP_HEADER_LENGTH]
      omega
    rw [decodeProof]
    dsimp only
    rw [if_neg (by rw [hdecoded]; exact Nat.not_le.mpr hregion), hdataSize, hptr, htail, htxs]
    show (do
      let hashes ← innerRollupHashes P (encoding cd start).layout _
      let publicInputsHash := P.sha256Mod ((List.range 142).map (encoding cd start).header ++ hashes)
      return (_, (encoding cd start).numTxs, publicInputsHash)) = _
    rw [hhashes, hheader, hnumTxs]
    rfl
  · refine (hslot i (Nat.lt_of_lt_of_le hi hreach)).trans ?_
    rw [← hblocks, List.getD_eq_getElem?_getD, List.getElem?_map, hget]
    rfl

end Rollup

end AztecConnect.System
