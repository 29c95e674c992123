import AztecConnect.Circuit.BridgeCallData
import AztecConnect.Client.BridgeCallData
import AztecConnect.Contract.Entries

/-!
# Three readings of a bridge call data word

The circuit packs a bridge call data (`toSafeUint`), the contract and the client unpack it. All three
read the same members off a word (`Fields`): the word of a satisfied circuit decodes in the contract
and the client to the members of the circuit (`circuit_fields`), and a word that the contract accepts
and that has no bits beside the members decodes alike in the client. The circuit alone requires
virtual outputs to be placeholders.
-/

namespace AztecConnect.System

open Contract

/-- The bits beside the members are clear: those of the bit config but the lowest two, and those
above the auxiliary data. -/
structure Clear (e : Word) : Prop where
  config : (bits 154 30 e).toNat = 0
  high : e.toNat < 2 ^ 248

/-- The members of a word, as numbers. -/
structure Members where
  bridgeAddressId : Nat
  inputAssetIdA : Nat
  inputAssetIdB : Nat
  outputAssetIdA : Nat
  outputAssetIdB : Nat
  auxData : Nat
  secondInputInUse : Bool
  secondOutputInUse : Bool
  firstInputVirtual : Bool
  secondInputVirtual : Bool
  firstOutputVirtual : Bool
  secondOutputVirtual : Bool
  deriving DecidableEq

/-- The fields the contract reads. -/
def ofContract (d : FullBridgeCallData) : Members where
  bridgeAddressId := d.bridgeAddressId.toNat
  inputAssetIdA := d.inputAssetIdA.toNat
  inputAssetIdB := d.inputAssetIdB.toNat
  outputAssetIdA := d.outputAssetIdA.toNat
  outputAssetIdB := d.outputAssetIdB.toNat
  auxData := d.auxData.toNat
  secondInputInUse := d.secondInputInUse
  secondOutputInUse := d.secondOutputInUse
  firstInputVirtual := d.firstInputVirtual
  secondInputVirtual := d.secondInputVirtual
  firstOutputVirtual := d.firstOutputVirtual
  secondOutputVirtual := d.secondOutputVirtual

/-- An id that is `undefined` counts as zero. -/
def ofClient (d : Client.BridgeCallData) : Members where
  bridgeAddressId := d.bridgeAddressId
  inputAssetIdA := d.inputAssetIdA
  inputAssetIdB := d.inputAssetIdB.getD 0
  outputAssetIdA := d.outputAssetIdA
  outputAssetIdB := d.outputAssetIdB.getD 0
  auxData := d.auxData
  secondInputInUse := d.secondInputInUse
  secondOutputInUse := d.secondOutputInUse
  firstInputVirtual := d.firstInputVirtual
  secondInputVirtual := d.secondInputVirtual
  firstOutputVirtual := d.firstOutputVirtual
  secondOutputVirtual := d.secondOutputVirtual

/-- The fields the circuit packs. -/
def ofCircuit (d : Circuit.BridgeCallData) : Members where
  bridgeAddressId := d.bridgeAddressId
  inputAssetIdA := d.inputAssetIdA
  inputAssetIdB := d.inputAssetIdB
  outputAssetIdA := d.outputAssetIdA
  outputAssetIdB := d.outputAssetIdB
  auxData := d.auxData
  secondInputInUse := d.config.secondInputInUse
  secondOutputInUse := d.config.secondOutputInUse
  firstInputVirtual := Circuit.getAssetIdFlag d.inputAssetIdA
  secondInputVirtual := Circuit.getAssetIdFlag d.inputAssetIdB
  firstOutputVirtual := Circuit.getAssetIdFlag d.outputAssetIdA
  secondOutputVirtual := Circuit.getAssetIdFlag d.outputAssetIdB

/-- The members of a number. -/
def membersOf (n : Nat) : Members where
  bridgeAddressId := n % 2 ^ 32
  inputAssetIdA := n / 2 ^ 32 % 2 ^ 30
  inputAssetIdB := n / 2 ^ 62 % 2 ^ 30
  outputAssetIdA := n / 2 ^ 92 % 2 ^ 30
  outputAssetIdB := n / 2 ^ 122 % 2 ^ 30
  auxData := n / 2 ^ 184 % 2 ^ 64
  secondInputInUse := n / 2 ^ 152 % 2 == 1
  secondOutputInUse := n / 2 ^ 153 % 2 == 1
  firstInputVirtual := n / 2 ^ 61 % 2 == 1
  secondInputVirtual := n / 2 ^ 91 % 2 == 1
  firstOutputVirtual := n / 2 ^ 121 % 2 == 1
  secondOutputVirtual := n / 2 ^ 151 % 2 == 1

/-- The number with the given members. -/
def Members.pack (m : Members) : Nat :=
  m.bridgeAddressId + m.inputAssetIdA * 2 ^ 32 + m.inputAssetIdB * 2 ^ 62 +
    m.outputAssetIdA * 2 ^ 92 + m.outputAssetIdB * 2 ^ 122 +
    (m.secondInputInUse.toNat + m.secondOutputInUse.toNat * 2) * 2 ^ 152 + m.auxData * 2 ^ 184

/-- A bit is a remainder. -/
lemma beq_one_toNat (n : Nat) : (n % 2 == 1).toNat = n % 2 := by
  rcases Nat.mod_two_eq_zero_or_one n with h | h <;> rw [h] <;> rfl

/-- And a boolean. -/
lemma toNat_beq_one (b : Bool) : (b.toNat == 1) = b := by cases b <;> rfl

/-- Packing the members of a number without other bits. -/
lemma pack_membersOf {n : Nat} (hn : n < 2 ^ 248) (hc : n / 2 ^ 154 % 2 ^ 30 = 0) :
    (membersOf n).pack = n := by
  simp only [Members.pack, membersOf, beq_one_toNat]
  omega

/-- What the contract and the client require of the members. -/
structure Members.Consistent (m : Members) : Prop where
  secondInput : m.secondInputInUse = false → m.inputAssetIdB = 0
  secondOutput : m.secondOutputInUse = false → m.outputAssetIdB = 0
  inputs : m.secondInputInUse = true → m.inputAssetIdA ≠ m.inputAssetIdB
  outputs : m.secondOutputInUse = true → m.secondOutputVirtual = false →
    m.outputAssetIdA ≠ m.outputAssetIdB

/-- Virtual outputs have the id `2 ^ 29`. -/
structure Members.Placeholders (m : Members) : Prop where
  first : m.firstOutputVirtual = true → m.outputAssetIdA = 2 ^ 29
  second : m.secondOutputVirtual = true → m.outputAssetIdB = 2 ^ 29

/-! ## The contract -/

/-- Bits are extracted by division. -/
lemma bits_toNat (off len : Nat) (e : Word) :
    (bits off len e).toNat = e.toNat / 2 ^ off % 2 ^ len := Bits.field_toNat off len e

/-- A single bit too. -/
lemma bits_beq_one (off : Nat) (e : Word) : (bits off 1 e == 1) = (e.toNat / 2 ^ off % 2 == 1) := by
  have hbit : (bits off 1 e).toNat = e.toNat / 2 ^ off % 2 := bits_toNat off 1 e
  rw [Bool.eq_iff_iff, beq_iff_eq, beq_iff_eq, ← hbit]
  constructor
  · intro h
    rw [h]
    rfl
  · intro h
    exact BitVec.eq_of_toNat_eq h

/-- The contract reads the use of the second input from bit 152. -/
lemma secondInputInUse_eq (e : Word) : secondInputInUse e = (e.toNat / 2 ^ 152 % 2 == 1) := by
  have hdiv : e.toNat / 2 ^ 152 % 2 ^ 32 / 2 ^ 0 % 2 = e.toNat / 2 ^ 152 % 2 := by omega
  rw [secondInputInUse, bits_beq_one, bits_toNat, hdiv]

/-- And that of the second output from bit 153. -/
lemma secondOutputInUse_eq (e : Word) : secondOutputInUse e = (e.toNat / 2 ^ 153 % 2 == 1) := by
  have hdiv : e.toNat / 2 ^ 152 % 2 ^ 32 / 2 ^ 1 % 2 = e.toNat / 2 ^ 153 % 2 := by omega
  rw [secondOutputInUse, bits_beq_one, bits_toNat, hdiv]

/-- The contract reads the members of the word. -/
lemma ofContract_fullBridgeCallData (s : State) (bridge : Address) (e : Word) :
    ofContract (fullBridgeCallData s bridge e) = membersOf e.toNat := by
  simp only [ofContract, fullBridgeCallData, membersOf, secondInputInUse_eq, secondOutputInUse_eq,
    bits_toNat, bits_beq_one, Nat.pow_zero, Nat.div_one]

/-- The contract's check is on the fields. -/
lemma consistent_iff (e : Word) : Consistent e ↔ (membersOf e.toNat).Consistent := by
  have hzero (off len : Nat) : bits off len e = 0 ↔ e.toNat / 2 ^ off % 2 ^ len = 0 := by
    rw [← bits_toNat]
    exact ⟨fun h => by rw [h]; rfl, fun h => BitVec.eq_of_toNat_eq h⟩
  have heq (off off' : Nat) : bits off 30 e = bits off' 30 e ↔
      e.toNat / 2 ^ off % 2 ^ 30 = e.toNat / 2 ^ off' % 2 ^ 30 := by
    rw [← bits_toNat, ← bits_toNat]
    exact ⟨congrArg _, BitVec.eq_of_toNat_eq⟩
  have hflag : bits (122 + 29) 1 e ≠ 1 ↔ (membersOf e.toNat).secondOutputVirtual = false := by
    rw [← beq_eq_false_iff_ne, bits_beq_one]
    rfl
  constructor
  · intro h
    refine ⟨fun hu => ?_, fun hu => ?_, fun hu => ?_, fun hu hv => ?_⟩
    · exact (hzero 62 30).mp (h.secondInput ((secondInputInUse_eq e).trans hu))
    · exact (hzero 122 30).mp (h.secondOutput ((secondOutputInUse_eq e).trans hu))
    · exact mt (heq 32 62).mpr (h.inputs ((secondInputInUse_eq e).trans hu))
    · exact mt (heq 92 122).mpr (h.outputs ((secondOutputInUse_eq e).trans hu) (hflag.mpr hv))
  · intro h
    refine ⟨fun hu => ?_, fun hu => ?_, fun hu => ?_, fun hu hv => ?_⟩
    · exact (hzero 62 30).mpr (h.secondInput ((secondInputInUse_eq e).symm.trans hu))
    · exact (hzero 122 30).mpr (h.secondOutput ((secondOutputInUse_eq e).symm.trans hu))
    · exact mt (heq 32 62).mp (h.inputs ((secondInputInUse_eq e).symm.trans hu))
    · exact mt (heq 92 122).mp (h.outputs ((secondOutputInUse_eq e).symm.trans hu) (hflag.mp hv))

/-- The contract decodes the word to these members; of an unknown bridge it only says that. -/
def ContractReads (s : State) (e : Word) (m : Members) : Prop :=
  match getSupportedBridge s (bits 0 32 e) with
  | .ok _ => ∃ f, getFullBridgeCallData s e = .ok f ∧ ofContract f = m
  | .error _ => getFullBridgeCallData s e = .error .panic

/-- A consistent word is read by the contract. -/
lemma contractReads (s : State) {e : Word} (h : (membersOf e.toNat).Consistent) :
    ContractReads s e (membersOf e.toNat) := by
  unfold ContractReads
  split
  · rename_i bridge hbridge
    refine ⟨fullBridgeCallData s bridge e, ?_, ofContract_fullBridgeCallData s bridge e⟩
    exact getFullBridgeCallData_ok_iff.mpr ⟨(consistent_iff e).mpr h, bridge, hbridge, rfl⟩
  · rename_i r hr
    have hpanic : r = .panic := by
      rw [getSupportedBridge] at hr
      split at hr
      · cases hr
        rfl
      · split at hr
        · cases hr
        · cases hr
          rfl
    rw [getFullBridgeCallData_eq, hr, hpanic]
    rfl

/-! ## The client -/

/-- The client decodes the word to these members, packs them to the same word again, and finds them
valid. -/
def ClientReads (e : Word) (m : Members) : Prop :=
  ∃ d, Client.BridgeCallData.fromBigInt e.toNat = .ok d ∧ ofClient d = m ∧
    d.toBigInt = e.toNat ∧ Client.validateBridgeCallData d = .ok ()

/-- What the client makes of members in which unused ids are zero. -/
def clientOf (m : Members) : Client.BridgeCallData where
  bridgeAddressId := m.bridgeAddressId
  inputAssetIdA := m.inputAssetIdA
  outputAssetIdA := m.outputAssetIdA
  inputAssetIdB := if m.secondInputInUse then some m.inputAssetIdB else none
  outputAssetIdB := if m.secondOutputInUse then some m.outputAssetIdB else none
  auxData := m.auxData

/-- And by the client. -/
lemma fromBigInt_eq {n : Nat} (hin : (membersOf n).secondInputInUse = false →
      (membersOf n).inputAssetIdB = 0)
    (hout : (membersOf n).secondOutputInUse = false → (membersOf n).outputAssetIdB = 0) :
    Client.BridgeCallData.fromBigInt n = .ok (clientOf (membersOf n)) := by
  have hconfig : Client.BitConfig.fromBigInt
      (Client.extractBigInt n Client.BITCONFIG_OFFSET Client.BITCONFIG_LEN) =
      ⟨(membersOf n).secondInputInUse, (membersOf n).secondOutputInUse⟩ := by
    have h₁ : n / 2 ^ 152 % 2 ^ 32 % 2 = n / 2 ^ 152 % 2 := by omega
    have h₂ : n / 2 ^ 152 % 2 ^ 32 / 2 % 2 = n / 2 ^ 153 % 2 := by omega
    rw [Client.BitConfig.fromBigInt_eq, Client.extractBigInt_eq]
    show Client.BitConfig.mk (n / 2 ^ 152 % 2 ^ 32 % 2 == 1) (n / 2 ^ 152 % 2 ^ 32 / 2 % 2 == 1) = _
    rw [h₁, h₂]
    rfl
  have hfirst : n / 2 ^ Client.ADDRESS_OFFSET % 2 ^ Client.ADDRESS_BIT_LEN = n % 2 ^ 32 := by
    simp only [Client.ADDRESS_OFFSET, Client.ADDRESS_BIT_LEN, Nat.pow_zero, Nat.div_one]
  simp only [Client.BridgeCallData.fromBigInt, hconfig]
  simp only [Client.extractBigInt_eq, hfirst]
  rw [if_neg, if_neg]
  · rfl
  · rintro ⟨hu, hne⟩
    exact hne (hout (by simpa using hu))
  · rintro ⟨hu, hne⟩
    exact hne (hin (by simpa using hu))

section Client

variable {m : Members}

/-- An asset that is not in use is zero. -/
lemma getD_ite_some {u : Bool} {a : Nat} (h : u = false → a = 0) :
    (if u then some a else none : Option Nat).getD 0 = a := by
  cases u with
  | true => rfl
  | false => exact (h rfl).symm

/-- It is given when it is in use. -/
lemma isSome_ite_some (u : Bool) (a : Nat) :
    (if u then some a else none : Option Nat).isSome = u := by
  cases u with
  | true => rfl
  | false => rfl

/-- The client packs consistent fields. -/
lemma toBigInt_clientOf (h : m.Consistent) : (clientOf m).toBigInt = m.pack := by
  simp only [Client.BridgeCallData.toBigInt_eq, clientOf, Members.pack, isSome_ite_some,
    getD_ite_some h.secondInput, getD_ite_some h.secondOutput]

/-- The client's flag of the id at a position is the top bit of the id. -/
lemma isVirtualAsset_field (n off : Nat) :
    Client.isVirtualAsset (n / 2 ^ off % 2 ^ 30) = (n / 2 ^ (off + 29) % 2 == 1) := by
  have hdiv : n / 2 ^ off % 2 ^ 30 / 2 ^ 29 % 2 = n / 2 ^ off / 2 ^ 29 % 2 := by omega
  rw [Client.isVirtualAsset_eq (Nat.mod_lt _ (Nat.two_pow_pos 30)), hdiv,
    Nat.div_div_eq_div_mul, ← Nat.pow_add]

/-- A virtual second asset has an id other than zero. -/
lemma secondVirtual_field (n off : Nat) :
    (n / 2 ^ off % 2 ^ 30 != 0 && n / 2 ^ (off + 29) % 2 == 1) =
      (n / 2 ^ (off + 29) % 2 == 1) := by
  rcases Nat.eq_zero_or_pos (n / 2 ^ off % 2 ^ 30) with hz | hpos
  · rw [← isVirtualAsset_field, hz]
    rfl
  · rw [bne_iff_ne.mpr hpos.ne', Bool.true_and]

/-- The client finds consistent members valid. -/
lemma validate_clientOf (h : m.Consistent) (hv : m.secondOutputVirtual =
    (m.outputAssetIdB != 0 && Client.isVirtualAsset m.outputAssetIdB)) :
    Client.validateBridgeCallData (clientOf m) = .ok () := by
  rw [Client.validateBridgeCallData, if_neg, if_neg]
  · rintro ⟨hreal, heq⟩
    cases hu : m.secondOutputInUse with
    | false => simp [clientOf, hu] at heq
    | true =>
      have hids : m.outputAssetIdA = m.outputAssetIdB := by simpa [clientOf, hu] using heq
      refine h.outputs hu ?_ hids
      rw [hv]
      simpa only [Client.BridgeCallData.secondOutputVirtual, clientOf, hu, if_true,
        Option.getD_some, Bool.not_eq_true'] using hreal
  · intro heq
    cases hu : m.secondInputInUse with
    | false => simp [clientOf, hu] at heq
    | true => exact h.inputs hu (by simpa [clientOf, hu] using heq)

/-- The client reads a consistent word as the contract does. -/
lemma clientReads {e : Word} (h : (membersOf e.toNat).Consistent) (hc : Clear e) :
    ClientReads e (membersOf e.toNat) := by
  refine ⟨_, fromBigInt_eq h.secondInput h.secondOutput, ?_, ?_, ?_⟩
  · -- the flags are bits of the ids
    simp only [ofClient, Client.BridgeCallData.secondInputInUse,
      Client.BridgeCallData.secondOutputInUse, Client.BridgeCallData.bitConfig,
      Client.BridgeCallData.firstInputVirtual, Client.BridgeCallData.secondInputVirtual,
      Client.BridgeCallData.firstOutputVirtual, Client.BridgeCallData.secondOutputVirtual,
      clientOf, isSome_ite_some, getD_ite_some h.secondInput, getD_ite_some h.secondOutput]
    simp only [membersOf, isVirtualAsset_field, secondVirtual_field]
  · have hconfig : e.toNat / 2 ^ 154 % 2 ^ 30 = 0 := (bits_toNat 154 30 e).symm.trans hc.config
    rw [toBigInt_clientOf h, pack_membersOf hc.high hconfig]
  · refine validate_clientOf h ?_
    show (e.toNat / 2 ^ 151 % 2 == 1) = (e.toNat / 2 ^ 122 % 2 ^ 30 != 0 &&
      Client.isVirtualAsset (e.toNat / 2 ^ 122 % 2 ^ 30))
    rw [isVirtualAsset_field, secondVirtual_field]

end Client

/-! ## The circuit -/

/-- Reading the members back. -/
lemma membersOf_toSafeUint {d : Circuit.BridgeCallData} (h : d.Satisfied) :
    membersOf d.toSafeUint = ofCircuit d := by
  have h₁ : d.bridgeAddressId < 2 ^ 32 := h.bridgeAddressId
  have h₂ : d.inputAssetIdA < 2 ^ 30 := h.inputAssetIdA
  have h₃ : d.inputAssetIdB < 2 ^ 30 := h.inputAssetIdB
  have h₄ : d.outputAssetIdA < 2 ^ 30 := h.outputAssetIdA
  have h₅ : d.outputAssetIdB < 2 ^ 30 := h.outputAssetIdB
  have h₆ : d.auxData < 2 ^ 64 := h.auxData
  have h₇ := d.config.secondInputInUse.toNat_le
  have h₈ := d.config.secondOutputInUse.toNat_le
  have heq : d.toSafeUint = d.bridgeAddressId + d.inputAssetIdA * 2 ^ 32 +
      d.inputAssetIdB * 2 ^ 62 + d.outputAssetIdA * 2 ^ 92 + d.outputAssetIdB * 2 ^ 122 +
      (d.config.secondInputInUse.toNat + d.config.secondOutputInUse.toNat * 2) * 2 ^ 152 +
      d.auxData * 2 ^ 184 := rfl
  have hflag (a : Nat) : Circuit.getAssetIdFlag a = (a / 2 ^ 29 % 2 == 1) := rfl
  have hbool (b : Bool) (n : Nat) (hn : n % 2 = b.toNat) : (n % 2 == 1) = b := by
    rw [hn]
    exact toNat_beq_one b
  have hsame (a n : Nat) (hn : n % 2 = a / 2 ^ 29 % 2) :
      (n % 2 == 1) = Circuit.getAssetIdFlag a := by
    rw [hn]
    rfl
  simp only [membersOf, ofCircuit, Members.mk.injEq]
  refine ⟨?_, ?_, ?_, ?_, ?_, ?_, hbool _ _ ?_, hbool _ _ ?_, hsame _ _ ?_, hsame _ _ ?_,
    hsame _ _ ?_, hsame _ _ ?_⟩ <;> omega

/-- The circuit leaves the bits between the fields clear. -/
lemma clear_toSafeUint {d : Circuit.BridgeCallData} (h : d.Satisfied) :
    d.toSafeUint / 2 ^ 154 % 2 ^ 30 = 0 := by
  have h₁ : d.bridgeAddressId < 2 ^ 32 := h.bridgeAddressId
  have h₂ : d.inputAssetIdA < 2 ^ 30 := h.inputAssetIdA
  have h₃ : d.inputAssetIdB < 2 ^ 30 := h.inputAssetIdB
  have h₄ : d.outputAssetIdA < 2 ^ 30 := h.outputAssetIdA
  have h₅ : d.outputAssetIdB < 2 ^ 30 := h.outputAssetIdB
  have h₇ := d.config.secondInputInUse.toNat_le
  have h₈ := d.config.secondOutputInUse.toNat_le
  have heq : d.toSafeUint = d.bridgeAddressId + d.inputAssetIdA * 2 ^ 32 +
      d.inputAssetIdB * 2 ^ 62 + d.outputAssetIdA * 2 ^ 92 + d.outputAssetIdB * 2 ^ 122 +
      (d.config.secondInputInUse.toNat + d.config.secondOutputInUse.toNat * 2) * 2 ^ 152 +
      d.auxData * 2 ^ 184 := rfl
  omega

/-- The constraints of the circuit on the members. -/
lemma circuit_members {d : Circuit.BridgeCallData} (h : d.Satisfied) :
    (ofCircuit d).Consistent ∧ (ofCircuit d).Placeholders := by
  have hv := h.valid
  refine ⟨⟨fun hu => ?_, fun hu => ?_, hv.inputs, fun hu hreal heq => ?_⟩,
    ⟨hv.firstPlaceholder, hv.secondPlaceholder⟩⟩
  · by_contra hne
    exact Bool.false_ne_true (hu.symm.trans (hv.secondInput hne))
  · by_contra hne
    exact Bool.false_ne_true (hu.symm.trans (hv.secondOutput hne))
  · -- equal ids are both real
    have hids : d.outputAssetIdA = d.outputAssetIdB := heq
    have hfirst : Circuit.getAssetIdFlag d.outputAssetIdA = false := by
      rw [hids]
      exact hreal
    exact hv.outputs hu ⟨hfirst, hreal⟩ hids

/-- The circuit with the given members. -/
def circuitOf (m : Members) : Circuit.BridgeCallData where
  bridgeAddressId := m.bridgeAddressId
  inputAssetIdA := m.inputAssetIdA
  inputAssetIdB := m.inputAssetIdB
  outputAssetIdA := m.outputAssetIdA
  outputAssetIdB := m.outputAssetIdB
  config := ⟨m.secondInputInUse, m.secondOutputInUse⟩
  auxData := m.auxData

/-- The flags of the outputs are those of their ids. -/
lemma getAssetIdFlag_membersOf (n : Nat) :
    Circuit.getAssetIdFlag (membersOf n).outputAssetIdA = (membersOf n).firstOutputVirtual ∧
      Circuit.getAssetIdFlag (membersOf n).outputAssetIdB = (membersOf n).secondOutputVirtual := by
  have h₁ : n / 2 ^ 92 % 2 ^ 30 / 2 ^ 29 % 2 = n / 2 ^ 121 % 2 := by omega
  have h₂ : n / 2 ^ 122 % 2 ^ 30 / 2 ^ 29 % 2 = n / 2 ^ 151 % 2 := by omega
  exact ⟨congrArg (· == 1) h₁, congrArg (· == 1) h₂⟩

/-- Consistent members of which the virtual outputs are placeholders satisfy the circuit. -/
lemma circuitOf_satisfied {n : Nat} (h : (membersOf n).Consistent)
    (hp : (membersOf n).Placeholders) : (circuitOf (membersOf n)).Satisfied := by
  obtain ⟨hA, hB⟩ := getAssetIdFlag_membersOf n
  have h30 (a : Nat) : a % 2 ^ 30 < 2 ^ 30 := Nat.mod_lt _ (Nat.two_pow_pos 30)
  refine ⟨Nat.mod_lt _ (Nat.two_pow_pos 32), h30 _, h30 _, h30 _, h30 _,
    Nat.mod_lt _ (Nat.two_pow_pos 64), ?_⟩
  refine ⟨fun hne => ?_, fun hne => ?_, h.inputs, fun hu hreal => ?_, fun hv => ?_, fun hv => ?_⟩
  · by_contra hu
    exact hne (h.secondInput (Bool.eq_false_iff.mpr hu))
  · by_contra hu
    exact hne (h.secondOutput (Bool.eq_false_iff.mpr hu))
  · exact h.outputs hu (hB.symm.trans hreal.2)
  · exact hp.first (hA.symm.trans hv)
  · exact hp.second (hB.symm.trans hv)

/-- The circuit is satisfiable with the word. -/
def CircuitAccepts (e : Word) : Prop :=
  ∃ d : Circuit.BridgeCallData, d.Satisfied ∧ d.toSafeUint = e.toNat

/-- The circuit accepts a consistent word exactly when its placeholders are in order. -/
lemma circuitAccepts_iff {e : Word} (h : (membersOf e.toNat).Consistent) (hc : Clear e) :
    CircuitAccepts e ↔ (membersOf e.toNat).Placeholders := by
  constructor
  · rintro ⟨d, hd, he⟩
    rw [← he, membersOf_toSafeUint hd]
    exact (circuit_members hd).2
  · intro hp
    refine ⟨_, circuitOf_satisfied h hp, ?_⟩
    have hconfig : e.toNat / 2 ^ 154 % 2 ^ 30 = 0 := (bits_toNat 154 30 e).symm.trans hc.config
    exact pack_membersOf hc.high hconfig

/-! ## All three -/

/-- The client and the contract read a word that satisfies the circuit as the circuit does. And the
client reads a word without other bits that the contract accepts as the contract does, while it
satisfies the circuit if and only if its virtual outputs are placeholders. -/
theorem bridgeCallData_agree (s : State) (e : Word) :
    (∀ d : Circuit.BridgeCallData, d.Satisfied → d.toSafeUint = e.toNat →
      ClientReads e (ofCircuit d) ∧ ContractReads s e (ofCircuit d)) ∧
    ∀ f, getFullBridgeCallData s e = .ok f → Clear e → ClientReads e (ofContract f) ∧
      (CircuitAccepts e ↔ (ofContract f).Placeholders) := by
  constructor
  · intro d hd he
    have hmembers : membersOf e.toNat = ofCircuit d := he ▸ membersOf_toSafeUint hd
    have hcons : (membersOf e.toNat).Consistent := hmembers ▸ (circuit_members hd).1
    have hclear : Clear e := by
      refine ⟨?_, he ▸ Circuit.BridgeCallData.toSafeUint_lt hd⟩
      rw [bits_toNat, ← he]
      exact clear_toSafeUint hd
    rw [← hmembers]
    exact ⟨clientReads hcons hclear, contractReads s hcons⟩
  · intro f hf hclear
    obtain ⟨hc, bridge, -, rfl⟩ := getFullBridgeCallData_ok_iff.mp hf
    have hcons := (consistent_iff e).mp hc
    rw [ofContract_fullBridgeCallData]
    exact ⟨clientReads hcons hclear, circuitAccepts_iff hcons hclear⟩

/-- The call data of the sample deployment. -/
theorem bridgeCallData_agree_sample :
    CircuitAccepts Sample.bridgeCall ∧ (∃ m, ClientReads Sample.bridgeCall m ∧
      ContractReads Sample.genesis Sample.bridgeCall m) ∧
    ∃ f, getFullBridgeCallData Sample.genesis Sample.bridgeCall = .ok f ∧
      ClientReads Sample.bridgeCall (ofContract f) := by
  have hcons : (membersOf Sample.bridgeCall.toNat).Consistent := by
    constructor <;> decide
  have hp : (membersOf Sample.bridgeCall.toNat).Placeholders := by
    constructor <;> decide
  have hclear : Clear Sample.bridgeCall := by
    constructor <;> decide
  obtain ⟨d, hd, he⟩ := (circuitAccepts_iff hcons hclear).mpr hp
  obtain ⟨hclient, hcontract⟩ := (bridgeCallData_agree Sample.genesis Sample.bridgeCall).1 d hd he
  have hf : ∃ f, getFullBridgeCallData Sample.genesis Sample.bridgeCall = .ok f :=
    ⟨_, getFullBridgeCallData_ok_iff.mpr ⟨(consistent_iff _).mpr hcons, 7, rfl, rfl⟩⟩
  obtain ⟨f, hf⟩ := hf
  refine ⟨⟨d, hd, he⟩, ⟨_, hclient, hcontract⟩, f, hf, ?_⟩
  exact ((bridgeCallData_agree Sample.genesis Sample.bridgeCall).2 f hf hclear).1

/-- The first output is virtual, with the id `2 ^ 29 + 1`. -/
def unplaced : Word := Sample.bridgeCall + 2 ^ 92

/-- The contract accepts a word that the circuit is not satisfiable with. -/
theorem unplaced_accepted : Clear unplaced ∧
    (∃ f, getFullBridgeCallData Sample.genesis unplaced = .ok f) ∧ ¬ CircuitAccepts unplaced := by
  have hcons : (membersOf unplaced.toNat).Consistent := by
    constructor <;> decide +kernel
  have hclear : Clear unplaced := by
    constructor <;> decide +kernel
  have hid : bits 0 32 unplaced = bits 0 32 Sample.bridgeCall := by decide +kernel
  refine ⟨hclear, ?_, fun h => ?_⟩
  · refine ⟨_, getFullBridgeCallData_ok_iff.mpr ⟨(consistent_iff _).mpr hcons, 7, ?_, rfl⟩⟩
    rw [hid]
    rfl
  · have hfirst := ((circuitAccepts_iff hcons hclear).mp h).first (by decide +kernel)
    exact absurd hfirst (by decide +kernel)

end AztecConnect.System
