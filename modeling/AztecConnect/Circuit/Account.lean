import AztecConnect.Circuit.Trees

/-!
# The account circuit

Translation of `account_circuit` of `rollup/proofs/account/account.cpp`. An account transaction pays
no fee (`accountCircuit_spec`).
-/

namespace AztecConnect.Circuit

/-- The length of an alias hash. -/
def ALIAS_HASH_BIT_LENGTH : Nat := 224

variable (H : Primitives)

/-- `account::commit`. -/
def accountNoteCommitment (accountAliasHash : Fr) (accountPublicKey signingPubKey : Point) : Fr :=
  H.compress [accountAliasHash, accountPublicKey.x, signingPubKey.x] .ACCOUNT_NOTE_COMMITMENT

/-- `compute_account_alias_hash_nullifier`. -/
def computeAccountAliasHashNullifier (accountAliasHash : Nat) : Fr :=
  H.compress [(accountAliasHash : Fr)] .ACCOUNT_ALIAS_HASH_NULLIFIER

/-- `compute_account_public_key_nullifier`. -/
def computeAccountPublicKeyNullifier (accountPublicKey : Point) : Fr :=
  H.compress [accountPublicKey.x] .ACCOUNT_PUBLIC_KEY_NULLIFIER

/-- `create_point_witness`. -/
def createPointWitness (p : Point) : Circuit Point := do
  Circuit.assert (H.onCurve p = true)
  return p

/-- What a prover assigns to the witnesses of the circuit. -/
structure AccountTx where
  merkleRoot : Fr
  accountPublicKey : Point
  newAccountPublicKey : Point
  newSigningPubKey1 : Point
  newSigningPubKey2 : Point
  aliasHash : Fr
  create : Bool
  migrate : Bool
  accountNoteIndex : Fr
  accountNotePath : H.HashPath
  signingPubKey : Point
  signature : H.Signature

/-- `account_circuit`: registers, migrates or adds signing keys. -/
def accountCircuit (tx : AccountTx H) : Circuit InnerProof := do
  let accountPublicKey ← createPointWitness H tx.accountPublicKey
  let newAccountPublicKey ← createPointWitness H tx.newAccountPublicKey
  let spendingPublicKey1 := tx.newSigningPubKey1
  let spendingPublicKey2 := tx.newSigningPubKey2
  let aliasHash ← suint tx.aliasHash ALIAS_HASH_BIT_LENGTH
  let migrate := tx.migrate
  let create := tx.create
  let accountNoteIndex ← suint tx.accountNoteIndex DATA_TREE_DEPTH
  let signingPubKey ← createPointWitness H tx.signingPubKey
  let outputNote1 := accountNoteCommitment H aliasHash newAccountPublicKey spendingPublicKey1
  let outputNote2 := accountNoteCommitment H aliasHash newAccountPublicKey spendingPublicKey2
  let nullifier1 := computeAccountAliasHashNullifier H aliasHash * fieldOfBool create
  let nullifier2 := if create || migrate
    then computeAccountPublicKeyNullifier H newAccountPublicKey else 0
  let signer := if create then accountPublicKey else signingPubKey
  Circuit.assert (newAccountPublicKey ≠ spendingPublicKey1)
  Circuit.assert (newAccountPublicKey ≠ spendingPublicKey2)
  Circuit.assert (fieldOfBool create * fieldOfBool migrate = 0)
  let message := H.compressMessage [(aliasHash : Fr), accountPublicKey.x, newAccountPublicKey.x,
    spendingPublicKey1.x, spendingPublicKey2.x, nullifier1, nullifier2]
  Circuit.assert (H.verifySignature message signer tx.signature = true)
  -- the note that signs exists, unless the account is created
  let accountNoteExists := H.checkMembership tx.merkleRoot tx.accountNotePath
    (accountNoteCommitment H aliasHash accountPublicKey signer) accountNoteIndex
  Circuit.assert (create = false → accountNoteExists = true)
  Circuit.assert (accountPublicKey.x ≠ newAccountPublicKey.x ∨
    accountPublicKey.y ≠ newAccountPublicKey.y → migrate = true)
  return ⟨ProofIds.ACCOUNT, outputNote1, outputNote2, nullifier1, nullifier2, 0, 0, 0,
    tx.merkleRoot, 0, 0, 0, 0, 0, 0, 0⟩

variable {H}

/-- A point witness is on the curve. -/
lemma ensures_createPointWitness {p : Point} {Q : Point → Prop} :
    (createPointWitness H p).Ensures Q ↔ (H.onCurve p = true → Q p) := by
  simp only [createPointWitness, Circuit.ensures_bind, Circuit.ensures_assert, Circuit.ensures_pure]

/-- What is signed. -/
def AccountTx.message (tx : AccountTx H) : Fr :=
  H.compressMessage [tx.aliasHash, tx.accountPublicKey.x, tx.newAccountPublicKey.x,
    tx.newSigningPubKey1.x, tx.newSigningPubKey2.x,
    if tx.create then computeAccountAliasHashNullifier H tx.aliasHash.val else 0,
    if tx.create || tx.migrate then computeAccountPublicKeyNullifier H tx.newAccountPublicKey else 0]

/-- The key that signs. -/
def AccountTx.signer (tx : AccountTx H) : Point :=
  if tx.create then tx.accountPublicKey else tx.signingPubKey

/-- What the circuit has checked, and the public inputs. -/
structure AccountTx.Accepted (tx : AccountTx H) (p : InnerProof) : Prop where
  aliasHash : tx.aliasHash.val < 2 ^ ALIAS_HASH_BIT_LENGTH
  spendingKey1 : tx.newAccountPublicKey ≠ tx.newSigningPubKey1
  spendingKey2 : tx.newAccountPublicKey ≠ tx.newSigningPubKey2
  create : tx.create = true → tx.migrate = false
  signed : H.verifySignature tx.message tx.signer tx.signature = true
  accountNote : tx.create = false → H.checkMembership tx.merkleRoot tx.accountNotePath
    (accountNoteCommitment H tx.aliasHash tx.accountPublicKey tx.signingPubKey)
    tx.accountNoteIndex.val = true
  migrate : tx.accountPublicKey ≠ tx.newAccountPublicKey → tx.migrate = true
  proof_eq : p = { (0 : InnerProof) with
    proofId := ProofIds.ACCOUNT
    noteCommitment1 :=
      accountNoteCommitment H tx.aliasHash tx.newAccountPublicKey tx.newSigningPubKey1
    noteCommitment2 :=
      accountNoteCommitment H tx.aliasHash tx.newAccountPublicKey tx.newSigningPubKey2
    nullifier1 := if tx.create then computeAccountAliasHashNullifier H tx.aliasHash.val else 0
    nullifier2 := if tx.create || tx.migrate
      then computeAccountPublicKeyNullifier H tx.newAccountPublicKey else 0
    merkleRoot := tx.merkleRoot }

/-- Every satisfying assignment of the circuit is accepted in this sense. -/
lemma accountCircuit_accepted (tx : AccountTx H) : (accountCircuit H tx).Ensures tx.Accepted := by
  simp only [accountCircuit, Circuit.ensures_bind, ensures_createPointWitness, ensures_suint,
    Circuit.ensures_assert, Circuit.ensures_pure, natCast_val, mul_fieldOfBool]
  intro _ _ halias _ _ hkey₁ hkey₂ hflags hsigned hnote hchange
  refine ⟨halias, hkey₁, hkey₂, fun hcreate => ?_, hsigned, fun hcreate => ?_, fun hne => ?_, rfl⟩
  · cases hmigrate : tx.migrate with
    | false => rfl
    | true =>
      rw [hcreate, hmigrate] at hflags
      exact absurd hflags (by decide)
  · have hexists := hnote hcreate
    rw [hcreate] at hexists
    exact hexists
  · refine hchange ?_
    by_contra hsame
    rw [not_or, not_not, not_not] at hsame
    obtain ⟨hx, hy⟩ := hsame
    have heq : tx.accountPublicKey = tx.newAccountPublicKey := by
      cases htx : tx.accountPublicKey
      cases htx' : tx.newAccountPublicKey
      rw [htx, htx'] at hx hy
      exact congrArg₂ Point.mk hx hy
    exact hne heq

/-- An account proof carries no fee and no deposit. -/
lemma accountCircuit_spec (tx : AccountTx H) : (accountCircuit H tx).Ensures fun p =>
    p.proofId = ProofIds.ACCOUNT ∧ p.txFee = 0 ∧ p.defiDepositValue = 0 := by
  refine (accountCircuit_accepted tx).mono fun p h => ?_
  rw [h.proof_eq]
  exact ⟨rfl, rfl, rfl⟩

/-! ## An account that is created -/

namespace SampleAccount

/-- The empty tree, the data tree and the null tree of a rollup of the account, and the tree of data
roots before and after it; then the data tree, the null tree and the tree of data roots of the next
rollup, in which the account is migrated. -/
def table : List TreeTable.Leaves :=
  [[], [16, 17], [0, 0, 0, 0, 0, 1], [0, 1, 0, 0, 0, 1], [1], [1, 2],
    [16, 17, 19, 20], [0, 1, 1, 0, 0, 1], [1, 2, 7]].map TreeTable.leaves

/-- The hashes of the table. -/
abbrev primitives : Primitives := TreeTable.primitives table

/-- The registration of alias 5 under the key `⟨1, 0⟩`. -/
def tx : AccountTx primitives where
  merkleRoot := 1
  accountPublicKey := ⟨1, 0⟩
  newAccountPublicKey := ⟨1, 0⟩
  newSigningPubKey1 := ⟨10, 0⟩
  newSigningPubKey2 := ⟨11, 0⟩
  aliasHash := 5
  create := true
  migrate := false
  accountNoteIndex := 0
  accountNotePath := ()
  signingPubKey := ⟨1, 0⟩
  signature := ()

/-- The public inputs. -/
def proof : InnerProof :=
  { (0 : InnerProof) with
    proofId := ProofIds.ACCOUNT
    noteCommitment1 := 16
    noteCommitment2 := 17
    nullifier1 := 5
    nullifier2 := 1
    merkleRoot := 1 }

/-- The circuit accepts it. -/
lemma accepted : accountCircuit primitives tx proof := by
  refine ⟨_, ⟨(), Circuit.assert_apply ?_, rfl⟩, _, ⟨(), Circuit.assert_apply ?_, rfl⟩,
    _, suint_apply ?_, _, suint_apply ?_, _, ⟨(), Circuit.assert_apply ?_, rfl⟩,
    (), Circuit.assert_apply ?_, (), Circuit.assert_apply ?_, (), Circuit.assert_apply ?_,
    (), Circuit.assert_apply ?_, (), Circuit.assert_apply ?_, (), Circuit.assert_apply ?_,
    Circuit.pure_apply ?_⟩
  all_goals decide +kernel

end SampleAccount

end AztecConnect.Circuit
