import AztecConnect.Client.RollupProcessor
import AztecConnect.Contract.DepositCaps
import AztecConnect.Contract.Outputs
import AztecConnect.System.BridgeCallData

/-!
# The client finds the notes of every rollup

The contract hashes the bridge call data word of an interaction, the client hashes what it encodes
after decoding it. Both hashes are the same if no bits are set beside the members and the nonce is a
`uint32` (`hashes_toLog`); of a run whose headers have only such bridge calls (`Readable`) the client
reads every `DefiBridgeProcessed` event, and finds the notes of all hashes that a rollup lists
(`defiNotes_found`). A header with other bits is accepted all the same (`stray_unread`).
-/

namespace AztecConnect.System

open Contract Resumption

variable {P : Params} {answers : ExternalCall → State → Reply → Prop} {s s' : State}
  {history : History}

/-! ## Events -/

/-- `sha256` on buffers of 32 bytes. -/
def sha (P : Params) (ws : List Nat) : Nat := (P.sha256 (ws.map (BitVec.ofNat 256))).toNat

/-- The event the client reads of an interaction. -/
def toLog (blockNumber : Nat) (i : Interaction) : Client.DefiBridgeProcessed where
  blockNumber := blockNumber
  encodedBridgeCallData := i.encodedBridgeCallData.toNat
  nonce := i.nonce.toNat
  totalInputValue := i.totalInputValue.toNat
  totalOutputValueA := i.outputValueA.toNat
  totalOutputValueB := i.outputValueB.toNat
  result := i.result

/-- The block of a call. -/
def block (call : Call Entry State ExternalCall Reply (Option Bool)) : Nat :=
  call.entry.context.blockNumber.toNat

/-- The `DefiBridgeProcessed` events of a call: the interactions it has published. -/
def callLogs (call : Call Entry State ExternalCall Reply (Option Bool)) :
    List Client.DefiBridgeProcessed :=
  (call.after.produced.drop call.before.produced.length).map (toLog (block call))

/-- The `DefiBridgeProcessed` events of a run. -/
def defiBridgeProcessed (history : History) : List Client.DefiBridgeProcessed :=
  history.flatMap callLogs

/-- The `RollupProcessed` events of a run. -/
def RollupProcessed (P : Params) (answers : ExternalCall → State → Reply → Prop)
    (history : History) (ev : Client.RollupProcessed) : Prop :=
  ∃ call ∈ history, ∃ x c n, call.entry = .processRollup x c ∧
    ∃ ph : RollupPhases P ((V2.world P answers).env n) x c call.before call.exchanges call.after,
      ev = ⟨block call, ph.rollupId.toNat, ph.hashes.map BitVec.toNat⟩

/-- The hash the contract computes for an event. -/
def logHash (P : Params) (log : Client.DefiBridgeProcessed) : Nat :=
  (Interaction.hash P ⟨BitVec.ofNat 256 log.encodedBridgeCallData, BitVec.ofNat 256 log.nonce,
    BitVec.ofNat 256 log.totalInputValue, BitVec.ofNat 256 log.totalOutputValueA,
    BitVec.ofNat 256 log.totalOutputValueB, log.result⟩).toNat

/-- A word is its number. -/
lemma ofNat_toNat (w : Word) : BitVec.ofNat 256 w.toNat = w := by
  rw [BitVec.ofNat_toNat, BitVec.setWidth_eq]

/-- Its hash is the one the contract queued. -/
lemma logHash_toLog (blockNumber : Nat) (i : Interaction) :
    logHash P (toLog blockNumber i) = (i.hash P).toNat := by
  simp only [logHash, toLog, ofNat_toNat]

/-! ## One interaction -/

/-- A bridge call that the client reads: no bits beside the members, and a `uint32` nonce. -/
def Plain (e nonce : Word) : Prop := Clear e ∧ nonce.toNat < 2 ^ 32

/-- A word fits 32 bytes. -/
lemma toBufferBE_toNat (w : Word) : Client.toBufferBE w.toNat 32 = w.toNat :=
  Client.toBufferBE_eq w.isLt

/-- The client hashes what the contract hashed. -/
lemma hashes_toLog {i : Interaction} (hc : Consistent i.encodedBridgeCallData)
    (hp : Plain i.encodedBridgeCallData i.nonce) (blockNumber : Nat) :
    (toLog blockNumber i).Hashes (sha P) (i.hash P).toNat := by
  obtain ⟨d, hd, -, hpack, -⟩ := clientReads ((consistent_iff _).mp hc) hp.1
  refine ⟨⟨d, i.nonce.toNat, i.totalInputValue.toNat, i.outputValueA.toNat, i.outputValueB.toNat,
    i.result⟩, ?_, ?_⟩
  · rw [Client.decodeEvent, toLog, hd]
    rfl
  · have hnonce : Client.numToUInt32BE i.nonce.toNat = .ok i.nonce.toNat := if_pos hp.2
    have hresult : BitVec.ofNat 256 i.result.toNat = if i.result then 1 else 0 := by
      cases i.result <;> rfl
    have hsha : sha P [i.encodedBridgeCallData.toNat, i.nonce.toNat, i.totalInputValue.toNat,
        i.outputValueA.toNat, i.outputValueB.toNat, i.result.toNat] % Client.groupModulus =
          (i.hash P).toNat := by
      simp only [sha, List.map_cons, List.map_nil, ofNat_toNat, hresult]
      rfl
    rw [Client.computeInteractionHashes_singleton, Client.interactionHash, hnonce]
    simp only [hpack, toBufferBE_toNat, hsha, bind, Except.bind, pure, Except.pure, Except.map]

/-! ## The events of a run -/

/-- The events of a call are those of the interactions it produced. -/
lemma callLogs_eq {call : Call Entry State ExternalCall Reply (Option Bool)} {new : List Interaction}
    (h : call.after.produced = call.before.produced ++ new) :
    callLogs call = new.map (toLog (block call)) := by
  rw [callLogs, h, List.drop_left]

/-- The events of a run are those of the interactions published. -/
lemma Run.logs (hs : Genesis P s) (h : Run (V2.world P answers) s history s') :
    (∀ i ∈ s'.produced, ∃ call ∈ history, toLog (block call) i ∈ defiBridgeProcessed history) ∧
      ∀ log ∈ defiBridgeProcessed history, ∃ i ∈ s'.produced, log = toLog log.blockNumber i := by
  have htrue : ResultsOk answers fun _ => True := ⟨fun _ => trivial, fun _ _ _ _ => trivial⟩
  refine h.invariant (I := fun history s' =>
    (∀ i ∈ s'.produced, ∃ call ∈ history, toLog (block call) i ∈ defiBridgeProcessed history) ∧
      ∀ log ∈ defiBridgeProcessed history, ∃ i ∈ s'.produced, log = toLog log.blockNumber i) ?_ ?_
  · rw [hs.produced]
    exact ⟨fun _ hi => absurd hi List.not_mem_nil, fun _ hl => absurd hl List.not_mem_nil⟩
  · intro history s₁ s₂ e tr a n ⟨hpub, hlog⟩ hc
    obtain ⟨new, hnew⟩ := (allPublished_call htrue (fun _ _ => trivial) hc).2
    let call : Call Entry State ExternalCall Reply (Option Bool) := ⟨e, s₁, tr, a, s₂⟩
    have hcall : call.after.produced = call.before.produced ++ new := hnew.symm
    have hsplit : defiBridgeProcessed (history ++ [call]) =
        defiBridgeProcessed history ++ new.map (toLog (block call)) := by
      rw [defiBridgeProcessed, List.flatMap_append, List.flatMap_singleton, callLogs_eq hcall]
      rfl
    rw [hsplit, ← hnew]
    constructor
    · intro i hi
      rcases List.mem_append.mp hi with hi | hi
      · obtain ⟨call', hcall, hmem⟩ := hpub i hi
        exact ⟨call', List.mem_append_left _ hcall, List.mem_append_left _ hmem⟩
      · exact ⟨call, List.mem_append_right _ List.mem_cons_self,
          List.mem_append_right _ (List.mem_map_of_mem hi)⟩
    · intro log hl
      rcases List.mem_append.mp hl with hl | hl
      · obtain ⟨i, hi, heq⟩ := hlog log hl
        exact ⟨i, List.mem_append_left _ hi, heq⟩
      · obtain ⟨i, hi, rfl⟩ := List.mem_map.mp hl
        exact ⟨i, List.mem_append_right _ hi, rfl⟩

/-! ## The notes of rollups -/

/-- The headers have only bridge calls without other bits, and ids whose nonces are `uint32`. -/
structure Readable (P : Params) (history : History) : Prop where
  clear : ∀ call ∈ history, ∀ x c p numTxs h, call.entry = .processRollup x c →
    c.Decodes P p numTxs h → ∀ i < NUMBER_OF_BRIDGE_CALLS, Clear (p.bridgeCallData i)
  rollupId : ∀ call ∈ history, ∀ x c p numTxs h, call.entry = .processRollup x c →
    c.Decodes P p numTxs h → p.getRollupId.toNat < 2 ^ 27

/-- The calls are in blocks after the earliest one, in order. -/
structure Mined (chainId : Nat) (history : History) : Prop where
  sorted : (history.map block).Pairwise (· ≤ ·)
  late : ∀ call ∈ history, (Client.getEarliestBlock chainId).earliestBlock < block call

/-- In a readable history all bridge calls are plain. -/
lemma Readable.calls (h : Readable P history) : ∀ call ∈ history, ∀ x c p numTxs hash,
    call.entry = .processRollup x c → c.Decodes P p numTxs hash → p.Calls Plain := by
  intro call hcall x c p numTxs hash he hdec i hi
  refine ⟨h.clear call hcall x c p numTxs hash he hdec i hi, ?_⟩
  have hid := h.rollupId call hcall x c p numTxs hash he hdec
  have hwrap : p.getRollupId.toNat * NUMBER_OF_BRIDGE_CALLS < 2 ^ 256 := by
    rw [NUMBER_OF_BRIDGE_CALLS]
    omega
  rw [ProofData.toNat_interactionNonce hwrap hi]
  rw [NUMBER_OF_BRIDGE_CALLS] at hi ⊢
  omega

/-- A call is not in a later block than one after it. -/
lemma Mined.le_last {chainId : Nat} {earlier later : History}
    {call call' : Call Entry State ExternalCall Reply (Option Bool)}
    (h : Mined chainId (earlier ++ [call] ++ later)) (hcall : call' ∈ earlier ++ [call]) :
    block call' ≤ block call := by
  have hsorted := h.sorted
  rw [List.map_append, List.map_append, List.append_assoc, List.pairwise_append] at hsorted
  rcases List.mem_append.mp hcall with hcall | hcall
  · exact hsorted.2.2 _ (List.mem_map_of_mem hcall) _ (List.mem_append_left _ List.mem_cons_self)
  · rw [List.mem_singleton] at hcall
    rw [hcall]

/-- The hashes that a rollup lists are those of events after the earliest block and not after it. -/
lemma RollupProcessed.published {chainId : Nat} {ev : Client.RollupProcessed} (hs : Genesis P s)
    (h : Run (V2.world P answers) s history s') (hmined : Mined chainId history)
    (hev : RollupProcessed P answers history ev) : ∀ w ∈ ev.nextExpectedDefiHashes,
      ∃ log ∈ defiBridgeProcessed history, logHash P log = w ∧
        (Client.getEarliestBlock chainId).earliestBlock < log.blockNumber ∧
          log.blockNumber ≤ ev.blockNumber := by
  obtain ⟨call, hcall, x, c, n, -, ph, rfl⟩ := hev
  intro w hw
  obtain ⟨v, hv, rfl⟩ := List.mem_map.mp hw
  obtain ⟨earlier, later, rfl, hupto⟩ := h.upto hcall
  obtain ⟨hbefore, -⟩ := hupto.snoc_inv
  obtain ⟨hq, hb⟩ := Run.booked hs hbefore
  obtain ⟨i, hi, rfl⟩ := ph.hashes_published hq hb v hv
  obtain ⟨call', hcall', hlog⟩ := (Run.logs hs hupto).1 i hi
  have hmem : toLog (block call') i ∈ defiBridgeProcessed (earlier ++ [call] ++ later) := by
    rw [defiBridgeProcessed, List.flatMap_append]
    exact List.mem_append_left _ hlog
  exact ⟨_, hmem, logHash_toLog _ i, hmined.late call' (List.mem_append_left _ hcall'),
    hmined.le_last hcall'⟩

/-- What the client makes of the events of a run. -/
structure ClientFinds (P : Params) (answers : ExternalCall → State → Reply → Prop) (chainId : Nat)
    (history : History) (s : State) : Prop where
  events : ∀ log ∈ defiBridgeProcessed history, ∃ i ∈ s.produced,
    log = toLog log.blockNumber i ∧ log.Hashes (sha P) (i.hash P).toNat ∧
      i.hash P ∈ consumed history ++ s.defiHashes ++ s.asyncHashes
  rollups : ∀ evs : List Client.RollupProcessed, (∀ ev ∈ evs, RollupProcessed P answers history ev) →
    ∃ m, Client.getDefiBridgeEventsForRollupEvents (sha P) chainId (defiBridgeProcessed history)
        evs = .ok m ∧
      ∀ ev ∈ evs, ∃ notes, Client.defiNotesForBlock ev m = .ok notes

/-- In every run whose headers the client can read, it obtains the queued hash of every interaction,
and the notes of every rollup. -/
theorem defiNotes_found {chainId : Nat} (hs : Genesis P s)
    (h : Run (V2.world P answers) s history s') (hread : Readable P history)
    (hmined : Mined chainId history) : ClientFinds P answers chainId history s' := by
  have hcons : AllPublished (fun i => Consistent i.encodedBridgeCallData) s' := by
    refine Run.allPublished ⟨fun hr => hr.consistent, fun _ _ hc _ => hc⟩ ?_ h
    rw [AllPublished, hs.produced]
    exact fun _ hi => absurd hi List.not_mem_nil
  have hplain := (Run.sourced hs h hread.calls).published
  obtain ⟨hpub, hlog⟩ := Run.logs hs h
  have hhash (i : Interaction) (hi : i ∈ s'.produced) (b : Nat) :
      (toLog b i).Hashes (sha P) (i.hash P).toNat := hashes_toLog (hcons i hi) (hplain i hi) b
  refine ⟨fun log hl => ?_, fun evs hevs => ?_⟩
  · obtain ⟨i, hi, heq⟩ := hlog log hl
    refine ⟨i, hi, heq, heq ▸ hhash i hi _, ?_⟩
    exact List.Perm.mem_iff (Run.booked hs h).2 |>.mp (List.mem_map_of_mem hi)
  · have hall : ∀ log ∈ defiBridgeProcessed history, log.Hashes (sha P) (logHash P log) := by
      intro log hl
      obtain ⟨i, hi, heq⟩ := hlog log hl
      rw [heq, logHash_toLog]
      exact hhash i hi _
    exact Client.getDefiBridgeEventsForRollupEvents_finds hall
      fun ev hev => (hevs ev hev).published hs h hmined

/-- A single call is mined in its block. -/
lemma mined_single {x : Context} {c : RollupCall} {tr : Trace} {a : Option Bool}
    (h : 0 < x.blockNumber.toNat) : Mined 0 [⟨.processRollup x c, s, tr, a, s'⟩] := by
  refine ⟨List.pairwise_singleton _ _, fun call hcall => ?_⟩
  rw [List.mem_singleton] at hcall
  rw [hcall]
  exact h

/-- The events of the sample rollup. -/
theorem defiNotes_found_sample : ∃ history s ev,
    Run (V2.world Sample.params fun _ _ _ => True) Sample.genesis history s ∧
    RollupProcessed Sample.params (fun _ _ _ => True) history ev ∧ s.produced.length = 1 ∧
    ClientFinds Sample.params (fun _ _ _ => True) 0 history s := by
  have hrun : (Sample.run [.processRollup Sample.context Sample.call]).map (·.2.produced.length) =
      some 1 := by decide +kernel
  obtain ⟨⟨history, s⟩, hs, hlen⟩ := Option.map_eq_some_iff.mp hrun
  have hR := World.exec_run (fun _ _ => trivial) .nil hs
  obtain ⟨tr, a, rfl⟩ := World.exec_single hs
  have hlast : Run (V2.world Sample.params fun _ _ _ => True) Sample.genesis
      ([] ++ [⟨.processRollup Sample.context Sample.call, Sample.genesis, tr, a, s⟩]) s := hR
  obtain ⟨-, -, n, hc⟩ := hlast.snoc_inv
  obtain ⟨ph⟩ := V2.processRollup_phases (V2.run_processRollup hc)
  have hclear : ∀ i < NUMBER_OF_BRIDGE_CALLS,
      (bits 154 30 ((encoding Sample.call.calldata 100).header (11 + i))).toNat = 0 ∧
      ((encoding Sample.call.calldata 100).header (11 + i)).toNat < 2 ^ 248 := by decide +kernel
  have hid : ((encoding Sample.call.calldata 100).header 0).toNat < 2 ^ 27 := by decide +kernel
  refine ⟨_, s, ⟨_, _, _⟩, hR, ⟨_, List.mem_singleton_self _, _, _, n, rfl, ph, rfl⟩, hlen,
    defiNotes_found Sample.genesis_spec hR ⟨?_, ?_⟩ (mined_single (by decide))⟩
  · intro call hcall x c p numTxs h he hdec i hi
    rw [List.mem_singleton] at hcall
    subst hcall
    cases he
    rw [ProofData.bridgeCallData, Sample.call_header hdec]
    exact ⟨(hclear i hi).1, (hclear i hi).2⟩
  · intro call hcall x c p numTxs h he hdec
    rw [List.mem_singleton] at hcall
    subst hcall
    cases he
    rw [ProofData.getRollupId, Sample.call_header hdec]
    exact hid

/-! ## A bridge call with other bits -/

namespace Stray

/-- The bridge call of the sample with a bit above the auxiliary data. -/
def bridgeCall : Word := Sample.bridgeCall + 2 ^ 248

/-- The header with a call data that the client does not read. -/
def header (i : Nat) : Word := if i = 11 then bridgeCall else Sample.header i

/-- The rollup. -/
def call : RollupCall := ⟨Sample.calldata header, fun _ => InnerTx.zero⟩

/-- The parameters of the sample, with the digests of this rollup. -/
def params : Params :=
  { Sample.params with
    sha256 := fun ws =>
      if ws = (List.range 142).map header ++
          [0x22dd983f8337d97d56071f7986209ab2ee6039a422242e89126701c6ee005af0] then
        0x1958bd531e833af3a9190e3366453ccf593b660f0f77d3f68391f10b3c776832
      else if ws = [bridgeCall, 0, 5, 1, 0, 1] then
        0x2af79752667a20b5db8582126e3409c84bf2aed9afb398b30a4458d1fc0cdcc
      else if ws = 0x2af79752667a20b5db8582126e3409c84bf2aed9afb398b30a4458d1fc0cdcc ::
          List.replicate 31 DEFI_RESULT_ZERO_HASH then
        0x76cf6f9699fefca039bc4db20c5722d3c51c64ccf04f73d4d33c12addb2f2d11
      else Sample.params.sha256 ws }

/-- The parameters initialise the sample. -/
lemma genesis_spec : Genesis params Sample.genesis :=
  { Sample.genesis_spec with stateHash := ⟨11, 21, 31, by decide⟩ }

/-- The interaction of the rollup, and the one the client makes of its event. -/
def interaction : Interaction := ⟨bridgeCall, 0, 5, 1, 0, true⟩

/-- The interaction as the client reads it. -/
def read : Interaction := { interaction with encodedBridgeCallData := Sample.bridgeCall }

/-- The fields are those of the sample. -/
lemma members_eq : membersOf bridgeCall.toNat = membersOf Sample.bridgeCall.toNat := by
  decide +kernel

/-- They are consistent. -/
lemma consistent : (membersOf Sample.bridgeCall.toNat).Consistent := by
  constructor <;> decide +kernel

/-- The client hashes what it has read. -/
lemma hashes_read : (toLog 100 read).Hashes (sha params) (read.hash params).toNat := by
  refine hashes_toLog ((consistent_iff _).mpr consistent) ⟨?_, by decide⟩ 100
  constructor <;> decide +kernel

/-- It reads both call datas alike. -/
lemma decode_eq :
    Client.decodeEvent (toLog 100 interaction) = Client.decodeEvent (toLog 100 read) := by
  have hstray : (membersOf bridgeCall.toNat).Consistent := members_eq.symm ▸ consistent
  have hfirst := fromBigInt_eq hstray.secondInput hstray.secondOutput
  rw [members_eq, ← fromBigInt_eq consistent.secondInput consistent.secondOutput] at hfirst
  simp only [Client.decodeEvent, toLog, interaction, read, hfirst]

end Stray

/-- The contract accepts a bridge call with other bits, of which the client does not obtain the hash;
nor does it obtain any hash of an interaction whose nonce is no `uint32`. -/
theorem stray_unread :
    (∃ history s, Genesis Stray.params Sample.genesis ∧
      Run (V2.world Stray.params fun _ _ _ => True) Sample.genesis history s ∧ Mined 0 history ∧
      ¬ ClientFinds Stray.params (fun _ _ _ => True) 0 history s) ∧
    ∀ b (i : Interaction) h, 2 ^ 32 ≤ i.nonce.toNat → ¬ (toLog b i).Hashes (sha Stray.params) h := by
  constructor
  · have hrun : ((V2.world Stray.params fun _ _ _ => True).exec Sample.answer
        [.processRollup Sample.context Stray.call] [] Sample.genesis).map (·.2.produced) =
          some [Stray.interaction] := by decide +kernel
    obtain ⟨⟨history, s⟩, hs, hprod⟩ := Option.map_eq_some_iff.mp hrun
    have hR := World.exec_run (fun _ _ => trivial) .nil hs
    obtain ⟨tr, a, rfl⟩ := World.exec_single hs
    refine ⟨_, s, Stray.genesis_spec, hR, mined_single (by decide), fun hfinds => ?_⟩
    have hprod' : s.produced = [Stray.interaction] := hprod
    have hlog : toLog 100 Stray.interaction ∈ defiBridgeProcessed
        [⟨.processRollup Sample.context Stray.call, Sample.genesis, tr, a, s⟩] := by
      show _ ∈ (s.produced.drop 0).map (toLog 100) ++ []
      rw [hprod']
      exact List.mem_cons_self
    obtain ⟨i, hi, -, ⟨note, hdec, hhash⟩, -⟩ := hfinds.events _ hlog
    rw [hprod', List.mem_singleton] at hi
    subst hi
    -- the event of the sample rollup decodes to the same note
    obtain ⟨note', hdec', hhash'⟩ := Stray.hashes_read
    obtain rfl : note = note' := Except.ok.inj (hdec.symm.trans (Stray.decode_eq.trans hdec'))
    have hsame : (Stray.interaction.hash Stray.params).toNat =
        (Stray.read.hash Stray.params).toNat :=
      (List.cons.inj (Except.ok.inj (hhash.symm.trans hhash'))).1
    exact absurd hsame (by decide +kernel)
  · rintro b i h hn ⟨note, hdec, hhash⟩
    have hnonce : note.nonce = i.nonce.toNat := by
      obtain ⟨d, -, hd⟩ := bind_eq_ok hdec
      cases hd
      rfl
    have herror : Client.numToUInt32BE note.nonce = .error "ERR_OUT_OF_RANGE" := by
      rw [hnonce]
      exact if_neg (Nat.not_lt_of_le hn)
    rw [Client.computeInteractionHashes_singleton, Client.interactionHash, herror] at hhash
    cases hhash

end AztecConnect.System
