import AztecConnect.Contract.State

/-!
# Bridge calls

The parts of `RollupProcessorV2.sol` that decode a bridge call (`getFullBridgeCallData`,
`getAztecAssetTypes`), and the code it runs to execute one: `libraries/TokenTransfers.sol` and
`DefiBridgeProxy.sol`. The proxy is executed by `delegatecall`, so `DefiBridgeProxy.convert` is a
program on the processor's own storage.
-/

namespace AztecConnect.Contract

open Resumption

/-! ## Decoding -/

/-- `FullBridgeCallData`: the fields of the word, with the bridge's address and gas limit. -/
structure FullBridgeCallData where
  bridgeAddressId : Word
  bridgeAddress : Address
  inputAssetIdA : Word
  inputAssetIdB : Word
  outputAssetIdA : Word
  outputAssetIdB : Word
  auxData : Word
  firstInputVirtual : Bool
  secondInputVirtual : Bool
  firstOutputVirtual : Bool
  secondOutputVirtual : Bool
  secondInputInUse : Bool
  secondOutputInUse : Bool
  bridgeGasLimit : Word

/-- `supportedBridges[_bridgeAddressId - 1]`, with the compiler's underflow and bounds checks. -/
def getSupportedBridge (s : State) (bridgeAddressId : Word) : Except RevertReason Address :=
  if bridgeAddressId = 0 then .error .panic
  else
    match s.supportedBridges[bridgeAddressId.toNat - 1]? with
    | some bridge => .ok bridge
    | none => .error .panic

/-- `getSupportedAsset`. -/
def getSupportedAsset (s : State) (assetId : Word) : Except RevertReason Address :=
  if 0x1fffffff < assetId then .error .INVALID_ASSET_ID
  else if assetId = ETH_ASSET_ID then .ok 0
  else
    match s.supportedAssets[assetId.toNat - 1]? with
    | none => .error .panic
    | some result => if result = 0 then .error .INVALID_ASSET_ADDRESS else .ok result

/-- Bits `off, …, off + len - 1` of an encoded bridge call data. -/
def bits (off len : Nat) (encodedBridgeCallData : Word) : Word :=
  Bits.field off len encodedBridgeCallData

/-- The checks of `getFullBridgeCallData` on the decoded fields. -/
def FullBridgeCallData.check (d : FullBridgeCallData) : Except RevertReason FullBridgeCallData :=
  if !d.secondInputInUse ∧ 0 < d.inputAssetIdB then .error .INCONSISTENT_BRIDGE_CALL_DATA
  else if !d.secondOutputInUse ∧ 0 < d.outputAssetIdB then .error .INCONSISTENT_BRIDGE_CALL_DATA
  else if d.secondInputInUse ∧ d.inputAssetIdA = d.inputAssetIdB then
    .error (.BRIDGE_WITH_IDENTICAL_INPUT_ASSETS d.inputAssetIdA)
  else
    let secondOutputReal := d.secondOutputInUse && !d.secondOutputVirtual
    if secondOutputReal ∧ d.outputAssetIdA = d.outputAssetIdB then
      .error (.BRIDGE_WITH_IDENTICAL_OUTPUT_ASSETS d.outputAssetIdA)
    else .ok d

/-- `getFullBridgeCallData`: decodes the word and checks that its fields fit together. -/
def getFullBridgeCallData (s : State) (e : Word) : Except RevertReason FullBridgeCallData := do
  let bridgeAddressId := bits 0 32 e
  let bridgeAddress ← getSupportedBridge s bridgeAddressId
  let bitConfig := bits 152 32 e
  FullBridgeCallData.check
    { bridgeAddressId
      bridgeAddress
      inputAssetIdA := bits 32 30 e
      inputAssetIdB := bits 62 30 e
      outputAssetIdA := bits 92 30 e
      outputAssetIdB := bits 122 30 e
      auxData := bits 184 64 e
      firstInputVirtual := bits (32 + 29) 1 e == 1
      secondInputVirtual := bits (62 + 29) 1 e == 1
      firstOutputVirtual := bits (92 + 29) 1 e == 1
      secondOutputVirtual := bits (122 + 29) 1 e == 1
      secondInputInUse := bits 0 1 bitConfig == 1
      secondOutputInUse := bits 1 1 bitConfig == 1
      bridgeGasLimit := s.bridgeGasLimits bridgeAddressId }

/-- The bit `secondInputInUse` of an encoded bridge call data. -/
def secondInputInUse (e : Word) : Bool := bits 0 1 (bits 152 32 e) == 1

/-- The bit `secondOutputInUse` of an encoded bridge call data. -/
def secondOutputInUse (e : Word) : Bool := bits 1 1 (bits 152 32 e) == 1

/-- What is checked of an encoded bridge call data. -/
structure Consistent (e : Word) : Prop where
  secondInput : secondInputInUse e = false → bits 62 30 e = 0
  secondOutput : secondOutputInUse e = false → bits 122 30 e = 0
  inputs : secondInputInUse e = true → bits 32 30 e ≠ bits 62 30 e
  outputs : secondOutputInUse e = true → bits (122 + 29) 1 e ≠ 1 → bits 92 30 e ≠ bits 122 30 e

/-- The members of a bridge call data to the bridge `bridgeAddress`. -/
def fullBridgeCallData (s : State) (bridgeAddress : Address) (e : Word) : FullBridgeCallData where
  bridgeAddressId := bits 0 32 e
  bridgeAddress := bridgeAddress
  inputAssetIdA := bits 32 30 e
  inputAssetIdB := bits 62 30 e
  outputAssetIdA := bits 92 30 e
  outputAssetIdB := bits 122 30 e
  auxData := bits 184 64 e
  firstInputVirtual := bits (32 + 29) 1 e == 1
  secondInputVirtual := bits (62 + 29) 1 e == 1
  firstOutputVirtual := bits (92 + 29) 1 e == 1
  secondOutputVirtual := bits (122 + 29) 1 e == 1
  secondInputInUse := secondInputInUse e
  secondOutputInUse := secondOutputInUse e
  bridgeGasLimit := s.bridgeGasLimits (bits 0 32 e)

/-- The same in two steps: the bridge, then the check of the fields. -/
lemma getFullBridgeCallData_eq (s : State) (e : Word) :
    getFullBridgeCallData s e = (getSupportedBridge s (bits 0 32 e)).bind fun bridge =>
      (fullBridgeCallData s bridge e).check := rfl

/-- The checks pass if and only if the word is consistent. -/
lemma check_fullBridgeCallData_iff {s : State} {bridge : Address} {e : Word}
    {d : FullBridgeCallData} : (fullBridgeCallData s bridge e).check = .ok d ↔
      Consistent e ∧ d = fullBridgeCallData s bridge e := by
  constructor
  · intro h
    unfold FullBridgeCallData.check at h
    split at h
    · cases h
    · rename_i hin
      split at h
      · cases h
      · rename_i hout
        split at h
        · cases h
        · rename_i heqin
          dsimp only at h
          split at h
          · cases h
          · rename_i heqout
            cases h
            refine ⟨⟨fun hu => ?_, fun hu => ?_, fun hu => ?_, fun hu hv => ?_⟩, rfl⟩
            · by_contra hne
              exact hin ⟨by simp [fullBridgeCallData, hu], (BitVec.pos_iff_ne_zero _).mpr hne⟩
            · by_contra hne
              exact hout ⟨by simp [fullBridgeCallData, hu], (BitVec.pos_iff_ne_zero _).mpr hne⟩
            · exact fun heq => heqin ⟨hu, heq⟩
            · have hreal : (fullBridgeCallData s bridge e).secondOutputVirtual = false :=
                beq_eq_false_iff_ne.mpr hv
              have huse : (fullBridgeCallData s bridge e).secondOutputInUse = true := hu
              exact fun heq => heqout ⟨by rw [hreal, huse]; rfl, heq⟩
  · rintro ⟨hc, rfl⟩
    unfold FullBridgeCallData.check
    rw [if_neg, if_neg, if_neg]
    · apply if_neg
      rintro ⟨hreal, heq⟩
      simp only [fullBridgeCallData, Bool.and_eq_true, Bool.not_eq_true',
        beq_eq_false_iff_ne] at hreal
      exact hc.outputs hreal.1 hreal.2 heq
    · rintro ⟨hu, heq⟩
      exact hc.inputs hu heq
    · rintro ⟨hu, hne⟩
      refine (BitVec.pos_iff_ne_zero _).mp hne (hc.secondOutput ?_)
      simpa [fullBridgeCallData] using hu
    · rintro ⟨hu, hne⟩
      refine (BitVec.pos_iff_ne_zero _).mp hne (hc.secondInput ?_)
      simpa [fullBridgeCallData] using hu

/-- What an accepted bridge call data decodes to. -/
lemma getFullBridgeCallData_ok_iff {s : State} {e : Word} {d : FullBridgeCallData} :
    getFullBridgeCallData s e = .ok d ↔ Consistent e ∧
      ∃ bridge, getSupportedBridge s (bits 0 32 e) = .ok bridge ∧
        d = fullBridgeCallData s bridge e := by
  rw [getFullBridgeCallData_eq]
  cases getSupportedBridge s (bits 0 32 e) with
  | error r => simp [Except.bind]
  | ok bridge => simp [Except.bind, check_fullBridgeCallData_iff]

/-- The four assets of a bridge call. -/
structure BridgeAssets where
  inputAssetA : AztecAsset
  inputAssetB : AztecAsset
  outputAssetA : AztecAsset
  outputAssetB : AztecAsset

/-- An asset that is not used. -/
def notUsedAsset : AztecAsset := ⟨0, 0, .NOT_USED⟩

/-- A token or ETH. -/
def realAsset (s : State) (assetId : Word) : Except RevertReason AztecAsset := do
  let erc20Address ← getSupportedAsset s assetId
  return ⟨assetId, erc20Address, if erc20Address = 0 then .ETH else .ERC20⟩

/-- `_fullBridgeCallData.inputAssetId - VIRTUAL_ASSET_ID_FLAG`, with the underflow check. -/
def virtualInput (assetId : Word) : Except RevertReason AztecAsset :=
  if assetId < VIRTUAL_ASSET_ID_FLAG then .error .panic
  else .ok ⟨assetId - VIRTUAL_ASSET_ID_FLAG, 0, .VIRTUAL⟩

/-- A virtual output is identified by the nonce of the interaction. -/
def virtualOutput (interactionNonce : Word) : AztecAsset := ⟨interactionNonce, 0, .VIRTUAL⟩

/-- `getAztecAssetTypes`: where each asset of the call lives. -/
def getAztecAssetTypes (s : State) (d : FullBridgeCallData) (interactionNonce : Word) :
    Except RevertReason BridgeAssets := do
  let inputAssetA ←
    if d.firstInputVirtual then virtualInput d.inputAssetIdA else realAsset s d.inputAssetIdA
  let outputAssetA ←
    if d.firstOutputVirtual then .ok (virtualOutput interactionNonce)
    else realAsset s d.outputAssetIdA
  let inputAssetB ←
    if d.secondInputVirtual then virtualInput d.inputAssetIdB
    else if d.secondInputInUse then realAsset s d.inputAssetIdB
    else .ok notUsedAsset
  let outputAssetB ←
    if d.secondOutputVirtual then .ok (virtualOutput interactionNonce)
    else if d.secondOutputInUse then realAsset s d.outputAssetIdB
    else .ok notUsedAsset
  return { inputAssetA, inputAssetB, outputAssetA, outputAssetB }

/-! ## Token transfers -/

namespace TokenTransfers

/-- `and(call_success, or(iszero(returndatasize()), and(mload(0), 1)))`. -/
def succeeded (r : Reply) : Bool :=
  r.success && (r.returndatasize == 0 || r.word 0 &&& 1 == 1)

/-- `safeTransferTo` of `TokenTransfers`. -/
def safeTransferTo (x : Context) (tokenAddress receiver : Address) (amount : Word) : Program Unit := do
  Prog.require (x.hasCode tokenAddress) .INVALID_ADDRESS_NO_CODE
  let r ← Prog.request (.transfer tokenAddress receiver amount 0)
  Prog.require (succeeded r) (.bubbled r)

/-- The target is always the rollup processor itself. -/
def safeTransferFrom (x : Context) (tokenAddress source : Address) (amount : Word) :
    Program Unit := do
  Prog.require (x.hasCode tokenAddress) .INVALID_ADDRESS_NO_CODE
  let r ← Prog.request (.transferFrom tokenAddress source amount)
  Prog.require (succeeded r) (.bubbled r)

/-- `transferToDoNotBubbleErrors`: a failure is ignored. -/
def transferToDoNotBubbleErrors (tokenAddress receiver : Address) (amount gasToSend : Word) :
    Program Unit := do
  let _ ← Prog.request (.transfer tokenAddress receiver amount gasToSend)

end TokenTransfers

/-- The three return values of a bridge, ABI-decoded. -/
def decodeBridgeReturn (r : Reply) : Except RevertReason (Word × Word × Bool) :=
  if !r.success then .error (.bubbled r)
  else if r.returndatasize < 96 ∨ 1 < r.word 2 then .error .empty
  else .ok (r.word 0, r.word 1, r.word 2 == 1)

/-! ## The bridge proxy -/

namespace DefiBridgeProxy

/-- Pull an output asset in: ETH must have been paid under the nonce, tokens are transferred. -/
def recoverTokens (x : Context) (asset : AztecAsset) (outputValue interactionNonce : Word)
    (bridgeContract : Address) : Program Unit :=
  if outputValue = 0 then pure ()
  else
    match asset.assetType with
    | .ETH => do
      let s ← Prog.get
      Prog.require (outputValue ≤ s.ethPayments interactionNonce) .INSUFFICIENT_ETH_PAYMENT
      Prog.modify fun s =>
        { s with ethPayments := Function.update s.ethPayments interactionNonce 0 }
    | .ERC20 => TokenTransfers.safeTransferFrom x asset.erc20Address bridgeContract outputValue
    | _ => pure ()

/-- Send an input token out; ETH goes along with the call. -/
def sendInput (x : Context) (asset : AztecAsset) (bridgeAddress : Address)
    (totalInputValue : Word) : Program Unit :=
  if asset.assetType = .ERC20 then
    TokenTransfers.safeTransferTo x asset.erc20Address bridgeAddress totalInputValue
  else pure ()

/-- The checks on the values a bridge returned, and the recovery of its outputs. -/
def settle (x : Context) (bridgeAddress : Address) (a : BridgeAssets)
    (interactionNonce outputValueA outputValueB : Word) (isAsync : Bool) : Program Unit :=
  if isAsync then
    Prog.require (¬ (0 < outputValueA ∨ 0 < outputValueB))
      (.ASYNC_NONZERO_OUTPUT_VALUES outputValueA outputValueB)
  else do
    Prog.require (outputValueA.toNat < 2 ^ 252) (.OUTPUT_A_EXCEEDS_252_BITS outputValueA)
    Prog.require (outputValueB.toNat < 2 ^ 252) (.OUTPUT_B_EXCEEDS_252_BITS outputValueB)
    recoverTokens x a.outputAssetA outputValueA interactionNonce bridgeAddress
    recoverTokens x a.outputAssetB outputValueB interactionNonce bridgeAddress

/-- `DefiBridgeProxy.convert`: sends the input, calls the bridge and collects the output of a
synchronous one. -/
def convert (x : Context) (bridgeAddress : Address) (a : BridgeAssets)
    (totalInputValue interactionNonce auxInputData : Word) (rollupBeneficiary : Address) :
    Program (Word × Word × Bool) := do
  sendInput x a.inputAssetA bridgeAddress totalInputValue
  sendInput x a.inputAssetB bridgeAddress totalInputValue
  let ethValue :=
    if a.inputAssetA.assetType = .ETH ∨ a.inputAssetB.assetType = .ETH then totalInputValue else 0
  let r ← Prog.request (.convert bridgeAddress ethValue a.inputAssetA a.inputAssetB a.outputAssetA
    a.outputAssetB totalInputValue interactionNonce (auxInputData.setWidth 64) rollupBeneficiary)
  let (outputValueA, outputValueB, isAsync) ← Prog.ofExcept (decodeBridgeReturn r)
  settle x bridgeAddress a interactionNonce outputValueA outputValueB isAsync
  return (outputValueA, outputValueB, isAsync)

end DefiBridgeProxy

end AztecConnect.Contract
