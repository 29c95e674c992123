import AztecConnect.Contract.State

/-!
# Decoding a rollup

Translation of `contracts/src/core/Decoder.sol`. Calldata is a byte function that is zero past its
size, as `calldataload` and `calldatacopy` see it. `decodeProof` copies the 142 header words, decodes
the encoded transactions into 256-byte slots and computes `publicInputsHash` over the slots of the
inner rollups that `numTxs` reaches into; EVM words are `Word`, so its divisions by zero give zero
and its products wrap.

A slot is the eight words of one transaction. Slots past the region `decodeProof` fills are memory
that the source neither writes nor clears on purpose; they are a parameter (`memoryPast`).
-/

namespace AztecConnect.Contract

open Resumption

/-- A byte. -/
abbrev Byte := BitVec 8

/-- Calldata of a call: `size` bytes, followed by zeros. -/
structure Calldata where
  size : Nat
  byte : Nat → Byte
  byte_of_size_le : ∀ i, size ≤ i → byte i = 0

/-- Calldata of a selector (of zeros) and the 32-byte words `w`. -/
def Calldata.ofWords (size : Nat) (w : Nat → Nat) : Calldata where
  size := size
  byte i := if 4 ≤ i ∧ i < size then
    BitVec.ofNat 8 (w ((i - 4) / 32) / 256 ^ (31 - (i - 4) % 32)) else 0
  byte_of_size_le i hi := if_neg (by omega)

/-- The big-endian number in the `len` bytes from `off` on. -/
def Calldata.number (cd : Calldata) (off : Nat) : Nat → Nat
  | 0 => 0
  | len + 1 => cd.number off len * 256 + (cd.byte (off + len)).toNat

/-- `calldataload`. -/
def Calldata.load (cd : Calldata) (off : Nat) : Word := BitVec.ofNat 256 (cd.number off 32)

/-- The bytes of a word are those of its number. -/
lemma Calldata.number_ofWords {size k : Nat} (w : Nat → Nat) (hsize : 4 + 32 * k + 32 ≤ size) {len : Nat}
    (hlen : len ≤ 32) : (ofWords size w).number (4 + 32 * k) len =
      w k / 256 ^ (32 - len) % 256 ^ len := by
  induction len with
  | zero => rw [number, Nat.pow_zero, Nat.mod_one]
  | succ len ih =>
    have hbyte : ((ofWords size w).byte (4 + 32 * k + len)).toNat = w k / 256 ^ (31 - len) % 256 := by
      rw [ofWords]
      dsimp only
      rw [if_pos (by omega), BitVec.toNat_ofNat,
        show (4 + 32 * k + len - 4) / 32 = k by omega,
        show (4 + 32 * k + len - 4) % 32 = len by omega]
    rw [number, ih (by omega), hbyte, show 32 - len = 31 - len + 1 by omega,
      show 32 - (len + 1) = 31 - len by omega, Nat.pow_succ, ← Nat.div_div_eq_div_mul,
      Nat.pow_succ', Nat.mod_mul, Nat.add_comm, Nat.mul_comm]

/-- The words are read back. -/
lemma Calldata.load_ofWords {size k : Nat} (w : Nat → Nat) (hsize : 4 + 32 * k + 32 ≤ size) :
    (ofWords size w).load (4 + 32 * k) = BitVec.ofNat 256 (w k) := by
  apply BitVec.eq_of_toNat_eq
  rw [load, number_ofWords w hsize (le_refl 32), BitVec.toNat_ofNat, BitVec.toNat_ofNat,
    Nat.sub_self, Nat.pow_zero, Nat.div_one]
  exact Nat.mod_mod _ _

/-- The bytes `off, …, off + len - 1`. -/
def Calldata.slice (cd : Calldata) (off len : Nat) : List Byte :=
  (List.range len).map fun i => cd.byte (off + i)

/-- Where a `bytes calldata` argument starts, and its length. The checks are those of the compiler's
ABI decoder. -/
def abiDecodeBytes (cd : Calldata) (headOffset : Nat) : Option (Nat × Nat) :=
  let offset := (cd.load headOffset).toNat
  let length := (cd.load (4 + offset)).toNat
  if offset < 2 ^ 64 ∧ 4 + offset + 0x1f < cd.size ∧ length < 2 ^ 64 ∧
      4 + offset + 0x20 + length ≤ cd.size then
    some (4 + offset + 0x20, length)
  else none

/-! ## Decoding transactions -/

/-- The decoded public inputs of one transaction. -/
structure InnerTx where
  proofId : Word
  noteCommitment1 : Word
  noteCommitment2 : Word
  nullifier1 : Word
  nullifier2 : Word
  publicValue : Word
  publicOwner : Word
  assetId : Word
  deriving DecidableEq

/-- A cleared slot. -/
def InnerTx.zero : InnerTx := ⟨0, 0, 0, 0, 0, 0, 0, 0⟩

/-- The eight words of a slot, in memory order. -/
def InnerTx.words (t : InnerTx) : List Word :=
  [t.proofId, t.noteCommitment1, t.noteCommitment2, t.nullifier1, t.nullifier2, t.publicValue,
    t.publicOwner, t.assetId]

section Decoding

variable (cd : Calldata)

/-- The slot keeps the zeros it had; `_inPtr` advances by one. -/
def paddingTx (inPtr : Nat) (slot : InnerTx) : InnerTx × Nat := (slot, inPtr + 0x1)

/-- `depositOrWithdrawTx`. -/
def depositOrWithdrawTx (inPtr : Nat) (slot : InnerTx) : InnerTx × Nat :=
  ({ slot with
      noteCommitment1 := cd.load (inPtr + 0x20)
      noteCommitment2 := cd.load (inPtr + 0x40)
      nullifier1 := cd.load (inPtr + 0x60)
      nullifier2 := cd.load (inPtr + 0x80)
      publicValue := cd.load (inPtr + 0xa0)
      publicOwner := BitVec.ofNat 256 (cd.number (inPtr + 0xc0) 0x14)
      assetId := BitVec.ofNat 256 (cd.number (inPtr + 0xd4) 0x4) }, inPtr + 0xb9)

/-- Copies four words; the body shared by `sendTx`, `accountTx` and `defiDepositOrClaimTx`. -/
def fourWordTx (inPtr : Nat) (slot : InnerTx) : InnerTx × Nat :=
  ({ slot with
      noteCommitment1 := cd.load (inPtr + 0x20)
      noteCommitment2 := cd.load (inPtr + 0x40)
      nullifier1 := cd.load (inPtr + 0x60)
      nullifier2 := cd.load (inPtr + 0x80) }, inPtr + 0x81)

/-- `sendTx`. -/
def sendTx : Nat → InnerTx → InnerTx × Nat := fourWordTx cd

/-- `accountTx`. -/
def accountTx : Nat → InnerTx → InnerTx × Nat := fourWordTx cd

/-- `defiDepositOrClaimTx`. -/
def defiDepositOrClaimTx : Nat → InnerTx → InnerTx × Nat := fourWordTx cd

/-- `functionTable`, indexed by the low three bits of the encoding byte; entry 7 is `invalidTx`. -/
def functionTable : Nat → Option (Nat → InnerTx → InnerTx × Nat)
  | 0 => some paddingTx
  | 1 => some (depositOrWithdrawTx cd)
  | 2 => some (depositOrWithdrawTx cd)
  | 3 => some (sendTx cd)
  | 4 => some (accountTx cd)
  | 5 => some (defiDepositOrClaimTx cd)
  | 6 => some (defiDepositOrClaimTx cd)
  | _ => none

/-- One pass of the decoding loop. `inPtr` points 31 bytes before the encoded transaction. -/
def decodeTx (inPtr : Nat) : Except RevertReason (InnerTx × Nat) :=
  let encoding := cd.load inPtr &&& 7
  match functionTable cd encoding.toNat with
  | some callfunc => .ok (callfunc inPtr { InnerTx.zero with proofId := encoding })
  | none => .error .ENCODING_BYTE_INVALID

/-- The decoding loop: while `tailInPtr > inPtr`. Every pass advances `inPtr`, so `tailInPtr - inPtr`
passes are enough (`fuel`). -/
def decodeTxs (tailInPtr : Nat) : (fuel inPtr : Nat) → Except RevertReason (List InnerTx)
  | 0, _ => .ok []
  | fuel + 1, inPtr =>
    if tailInPtr > inPtr then do
      let (tx, inPtr') ← decodeTx cd inPtr
      let txs ← decodeTxs tailInPtr fuel inPtr'
      return tx :: txs
    else .ok []

end Decoding

/-! ## `decodeProof` -/

/-- The decoded proof data in memory. `header i` is the header word at byte `0x20 * i`, `slot i` the
`i`-th 256-byte block after the header. -/
structure ProofData where
  header : Nat → Word
  slot : Nat → InnerTx

/-- `div` and `mul` of the EVM on the counts `decodeProof` derives from the header. -/
structure Layout where
  /-- `numTxsPerRollup`, also `numJoinSplitsPerRollup`. -/
  numTxsPerRollup : Word
  /-- `numFilledBlocks`, also `numNotEmptyInnerRollups`. -/
  numFilledBlocks : Word
  /-- `numEmptyInnerRollups`. -/
  numEmptyInnerRollups : Word
  /-- `decodedTransactionDataSize`. -/
  decodedTransactionDataSize : Word
  /-- `rollupDataSize`: the bytes of one inner rollup. -/
  rollupDataSize : Word

/-- The counts, as `decodeProof` computes them. -/
def layout (rollupSize numInnerRollups numTxs : Word) : Layout :=
  let numTxsPerRollup := rollupSize / numInnerRollups
  let quotient := numTxs / numTxsPerRollup
  let numFilledBlocks := quotient + (if quotient * numTxsPerRollup = numTxs then 0 else 1)
  { numTxsPerRollup
    numFilledBlocks
    numEmptyInnerRollups := numInnerRollups - numFilledBlocks
    decodedTransactionDataSize := numFilledBlocks * numTxsPerRollup * 256
    rollupDataSize := numTxsPerRollup * 8 * 32 }

/-- The precomputed hash of an inner rollup of padding transactions. -/
def paddingRollupHash (numJoinSplitsPerRollup : Word) : Option Word :=
  match numJoinSplitsPerRollup.toNat with
  | 32 => some 0x0df0e06ab8a02ce2ff08babd7144ab23ca2e99ddf318080cf88602eeb8913d44
  | 16 => some 0x1c52c159b4dae66c3dcf33b44d4d61ead6bc4d260f882ac6ba34dccf78892ca4
  | 64 => some 0x1f83672815ac9b3ca31732d641784035834e96b269eaf6a2e759bf4fcc8e5bfd
  | 1 => some 0x22dd983f8337d97d56071f7986209ab2ee6039a422242e89126701c6ee005af0
  | 2 => some 0x076a27c79e5ace2a3d47f9dd2e83e4ff6ea8872b3c2218f66c92b89b55f36560
  | 4 => some 0x2f0c70a5bf5460465e9902f9c96be324e8064e762a5de52589fdb97cbce3c6ee
  | 8 => some 0x240ed0de145447ff0ceff2aa477f43e0e2ed7f3543ee3d8832f158ec76b183a9
  | _ => none

/-- Rounds of `for {} lt(ptr, endPtr) { ptr := add(ptr, 0x20) }` for a word-aligned distance. -/
def rounds (ptr endPtr : Word) : Nat := if ptr < endPtr then (endPtr - ptr).toNat / 32 else 0

/-- First free memory address when `decodeProof` allocates `proofData`. -/
def PROOF_DATA_POINTER : Word := 0x180

/-- The hash of the `j`-th inner rollup: its `rollupDataSize` bytes of decoded slots. -/
def innerRollupHash (P : Params) (l : Layout) (slot : Nat → InnerTx) (j : Nat) : Word :=
  let n := l.rollupDataSize.toNat / TX_PUBLIC_INPUT_LENGTH
  P.sha256Mod (((List.range n).map fun i => slot (j * n + i)).flatMap InnerTx.words)

/-- `proofdataHashPtr` behind the copied header. -/
def Layout.hashPtr (l : Layout) : Word :=
  PROOF_DATA_POINTER + (4544 + l.decodedTransactionDataSize) + 0x20 + 4544

/-- Number of inner rollups whose decoded slots are hashed. -/
def Layout.hashedRollups (l : Layout) : Nat :=
  rounds l.hashPtr (l.hashPtr + l.numFilledBlocks * 0x20)

/-- Number of slots that the public inputs hash covers. -/
def Layout.hashedSlots (l : Layout) : Nat :=
  l.hashedRollups * (l.rollupDataSize.toNat / TX_PUBLIC_INPUT_LENGTH)

/-- The words appended to the header before the final hash. -/
def innerRollupHashes (P : Params) (l : Layout) (slot : Nat → InnerTx) :
    Except RevertReason (List Word) :=
  let endPtr := l.hashPtr + l.numFilledBlocks * 0x20
  let filled := (List.range l.hashedRollups).map (innerRollupHash P l slot)
  if l.numEmptyInnerRollups = 0 then .ok filled
  else
    let endPtr' := endPtr + l.numEmptyInnerRollups * 0x20
    match paddingRollupHash l.numTxsPerRollup with
    | none => .error .INVALID_ROLLUP_TOPOLOGY
    | some zeroHash =>
      if (endPtr' - endPtr).toNat < 2 ^ 64 ∨ endPtr' < endPtr then
        .ok (filled ++ List.replicate (rounds endPtr endPtr') zeroHash)
      else .error .outOfGas

/-- What `decodeProof` reads off the calldata, the start of `bytes proofData` being `start`. -/
structure Encoding where
  header : Nat → Word
  numTxs : Word
  encodedInnerDataSize : Nat

/-- Reads the header and the two lengths. -/
def encoding (cd : Calldata) (start : Nat) : Encoding where
  header i := cd.load (start + 0x20 * i)
  numTxs := cd.load (start + NUM_REAL_TRANSACTIONS_OFFSET) &&& 0xffffffff
  encodedInnerDataSize := (cd.load (start + ENCODED_PROOF_DATA_LENGTH_OFFSET) &&& 0xffffffff).toNat

namespace Encoding

variable (e : Encoding)

/-- The id of the rollup. -/
def rollupId : Word := e.header 0

/-- The number of slots. -/
def rollupSize : Word := e.header 1

/-- The number of inner rollups. -/
def numInnerRollups : Word := e.header 141

/-- The layout of the rollup. -/
def layout : Layout := Contract.layout e.rollupSize e.numInnerRollups e.numTxs

/-- Number of slots that are decoded: those of the non-empty inner rollups. -/
def decodedSlots : Nat :=
  e.layout.decodedTransactionDataSize.toNat / TX_PUBLIC_INPUT_LENGTH

end Encoding

/-- The slots in memory after decoding `txs`: the decoded region, padded with zeros, then whatever
memory holds. -/
def slots (n : Nat) (txs : List InnerTx) (memoryPast : Nat → InnerTx) (i : Nat) : InnerTx :=
  if i < n then txs.getD i InnerTx.zero else memoryPast i

/-- Decode the rollup whose `bytes` argument starts at `start`. A region of 2⁶⁴ bytes or more cannot
be paid for. -/
def decodeProof (P : Params) (cd : Calldata) (start : Nat) (memoryPast : Nat → InnerTx) :
    Except RevertReason (ProofData × Word × Word) := do
  let e := encoding cd start
  if 2 ^ 64 ≤ e.layout.decodedTransactionDataSize.toNat then throw .outOfGas
  let inPtr := start + (ROLLUP_HEADER_LENGTH + 0x08)
  let tailInPtr := inPtr + e.encodedInnerDataSize
  let txs ← decodeTxs cd (tailInPtr - 0x1f) e.encodedInnerDataSize (inPtr - 0x1f)
  let slot := slots e.decodedSlots txs memoryPast
  let hashes ← innerRollupHashes P e.layout slot
  let publicInputsHash := P.sha256Mod ((List.range 142).map e.header ++ hashes)
  return (⟨e.header, slot⟩, e.numTxs, publicInputsHash)

/-! ## Reading the header -/

namespace ProofData

variable (proofData : ProofData)

/-- `getRollupId`. -/
def getRollupId : Word := proofData.header 0

/-- `encodedBridgeCallDatas[i]` (`BRIDGE_CALL_DATAS_OFFSET`). -/
def bridgeCallData (i : Nat) : Word := proofData.header (11 + i)

/-- `depositSums[i]`. -/
def depositSum (i : Nat) : Word := proofData.header (11 + NUMBER_OF_BRIDGE_CALLS + i)

/-- `extractFeeAssetId`. -/
def extractFeeAssetId (i : Nat) : Except RevertReason Word :=
  let assetId := proofData.header (11 + 2 * NUMBER_OF_BRIDGE_CALLS + i)
  if 0xffffffff < assetId then .error .empty else .ok assetId

/-- `extractTotalTxFee`. -/
def extractTotalTxFee (i : Nat) : Word :=
  proofData.header (11 + 2 * NUMBER_OF_BRIDGE_CALLS + NUMBER_OF_ASSETS + i)

/-- `extractPrevDefiInteractionHash`. -/
def extractPrevDefiInteractionHash : Word := proofData.header 139

/-- `extractRollupBeneficiary`. -/
def extractRollupBeneficiary : Except RevertReason Address :=
  let rollupBeneficiary := proofData.header 140
  if 2 ^ 160 ≤ rollupBeneficiary.toNat then .error .empty else .ok (rollupBeneficiary.setWidth 160)

end ProofData

/-- The tuple whose hash is the old state hash. -/
def ProofData.oldStateTuple (p : ProofData) : List Word :=
  [p.header 0, p.header 3, p.header 5, p.header 7, p.header 9]

/-- The tuple whose hash is the new state hash. -/
def ProofData.newStateTuple (p : ProofData) : List Word :=
  [p.header 0 + 1, p.header 4, p.header 6, p.header 8, p.header 10]

/-- What `computeRootHashes` returns. -/
structure RootHashes where
  rollupId : Word
  oldStateHash : Word
  newStateHash : Word
  numDataLeaves : BitVec 32
  dataStartIndex : BitVec 32

/-- `shl(1, …)` drops the top bit of `rollupSize`, so only the shifted value is checked. -/
def computeRootHashes (P : Params) (p : ProofData) : Except RevertReason RootHashes :=
  let numDataLeaves := p.header 1 <<< 1
  let dataStartIndex := p.header 2
  if 0xffffffff < numDataLeaves ∨ 0xffffffff < dataStartIndex then .error .empty
  else .ok
    { rollupId := p.header 0
      oldStateHash := P.keccak256 p.oldStateTuple
      newStateHash := P.keccak256 p.newStateTuple
      numDataLeaves := numDataLeaves.setWidth 32
      dataStartIndex := dataStartIndex.setWidth 32 }

end AztecConnect.Contract
