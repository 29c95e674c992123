import AztecConnect.Client.OffchainData
import AztecConnect.System.RollupProofData

/-!
# Publishing and recovering offchain data

The transactions that `createRollupTxs` makes are sent by the sender of the rollup, in any order and any
of them again, behind whatever else is in the log. The client recovers the data of every transaction, if
the last publication is in the blocks it searches (`recovers`).
-/

namespace AztecConnect.System

open ByteFormat Client Client.RollupProof Serialize

/-- `last` publishes the data of the transactions of the rollup, behind all else that its sender has
published for it. -/
structure PublishedLast (r : RollupEvent) (log last : List OffchainEvent)
    (offchainTxData : List Bytes) : Prop where
  log : ∃ earlier, log.filter (OffchainEvent.PublishedFor r) = earlier ++ last
  txs : ∃ txDataLimit txs, createRollupTxs r.tx.proofData offchainTxData txDataLimit = .ok txs ∧
    Publishes last txs.offchainDataTxs
  aligned : ∃ x, RollupProofData.decode r.tx.proofData = .ok x ∧ x.Aligned offchainTxData

/-- The client finds events for the rollup at an index, and decodes its block with these data. -/
def Recovers (chainId latestBlock : Nat) (log : List OffchainEvent) (rollupEvents : List RollupEvent)
    (i : Nat) (r : RollupEvent) (offchainTxData : List Bytes) : Prop :=
  ∃ ess es, getOffchainDataEvents chainId latestBlock log rollupEvents = .ok ess ∧ ess[i]? = some es ∧
    es ≠ [] ∧ ∀ interactionResult, ∃ b, decodeBlock r.tx interactionResult es = .ok b ∧
      b.offchainTxData = offchainTxData

/-- The data published last are recovered, whatever else has been published. -/
theorem recovers {chainId latestBlock i : Nat} {log last : List OffchainEvent}
    {rollupEvents : List RollupEvent} {r : RollupEvent} {offchainTxData : List Bytes}
    (hrollups : Chronological rollupEvents) (hr : rollupEvents[i]? = some r)
    (hevents : ∀ e ∈ searched chainId latestBlock rollupEvents log, e.Representable)
    (hlast : PublishedLast r log last offchainTxData)
    (hstart : ∀ e ∈ last, searchStart chainId latestBlock rollupEvents ≤ e.blockNumber) :
    Recovers chainId latestBlock log rollupEvents i r offchainTxData := by
  obtain ⟨earlier, hlog⟩ := hlast.log
  obtain ⟨txDataLimit, txs, htxs, hpublishes⟩ := hlast.txs
  obtain ⟨x, hx, haligned⟩ := hlast.aligned
  obtain ⟨ess, es, hget, hi, hne, hdata⟩ :=
    getOffchainDataEvents_complete hrollups hr hevents htxs hlog hpublishes hstart
  refine ⟨ess, es.map .item, hget, hi, ?_, fun interactionResult => ?_⟩
  · rw [ne_eq, List.map_eq_nil_iff]
    exact hne
  · exact decodeBlock_offchainTxData hx haligned interactionResult hdata

namespace SampleOffchainData

open SampleProofData

/-- The data of the deposit and of the send. -/
def offchainTxData : List Bytes := [List.replicate 292 1, List.replicate 292 2]

/-- The rollup, with the data that it is encoded to. -/
def rollupEvent (proofData : Bytes) : RollupEvent :=
  ⟨10000, 5, 100, ⟨alloc 32, proofData, 1000, 10, 500000⟩⟩

/-- One of the two chunks. -/
def chunk (i : Nat) : OffchainDataTx := ⟨5, i, 2, (offchainTxData.flatten.drop (i * 300)).take 300⟩

/-- The two chunks, the second of them again, published from a block on. -/
def publication (blockNumber : Nat) : List OffchainEvent :=
  [⟨blockNumber, 100, chunk 1, 30000⟩, ⟨blockNumber, 100, chunk 0, 30000⟩,
    ⟨blockNumber + 1, 100, chunk 1, 30000⟩]

/-- An event of another sender, and a chunk of another size. -/
def before : List OffchainEvent :=
  [⟨9900, 101, ⟨5, 0, 7, []⟩, 30000⟩, ⟨9901, 100, ⟨5, 0, 1, offchainTxData.flatten⟩, 30000⟩]

/-- A chunk that is published after the rollup. -/
def behind : List OffchainEvent := [⟨10001, 100, ⟨5, 0, 3, []⟩, 30000⟩]

/-- The rollup is decoded from its encoding. -/
lemma decode_proofData {proofData : Bytes} (h : rollup.encode = .ok proofData) :
    RollupProofData.decode proofData = .ok rollup := by
  obtain ⟨bytes, hencode, hdecode⟩ := RollupProofData.decode_encode rollup_enforced rollup_owners
  rw [h, Except.ok.injEq] at hencode
  rw [hencode]
  exact hdecode

/-- Both transactions have data of one length. -/
lemma lengths : offchainTxData.map List.length = [292, 292] := by
  rw [offchainTxData, List.map_cons, List.map_cons, List.map_nil, List.length_replicate,
    List.length_replicate]

/-- The data are sent in two chunks. -/
lemma createRollupTxs_eq {proofData : Bytes} (h : rollup.encode = .ok proofData) :
    createRollupTxs proofData offchainTxData 300 = .ok ⟨proofData, [chunk 0, chunk 1]⟩ := by
  have hchunks : ocdChunks offchainTxData.flatten 300 =
      .ok (Reassembly.cut 300 offchainTxData.flatten 2) := by
    have hlength : offchainTxData.flatten.length = 292 + 292 := by
      rw [List.length_flatten, lengths]
      rfl
    rw [ocdChunks, if_neg (by decide), hlength]
    rfl
  exact (bind_of_ok (decode_proofData h) _).trans (bind_of_ok hchunks _)

/-- The events publish both. -/
lemma publishes (blockNumber : Nat) : Publishes (publication blockNumber) [chunk 0, chunk 1] where
  each e he := by
    simp only [publication, List.mem_cons, List.not_mem_nil, or_false] at he
    obtain rfl | rfl | rfl := he <;> simp
  all tx htx := by
    obtain rfl | rfl : tx = chunk 0 ∨ tx = chunk 1 := by simpa using htx
    · exact ⟨_, List.mem_cons_of_mem _ List.mem_cons_self, rfl⟩
    · exact ⟨_, List.mem_cons_self, rfl⟩

/-- The ids of the two transactions. -/
lemma nonPaddingProofIds : rollup.getNonPaddingProofIds = [1, 3] := rfl

/-- Their data are of the lengths expected. -/
lemma aligned : rollup.Aligned offchainTxData := by
  rw [RollupProofData.Aligned, lengths, nonPaddingProofIds]
  rfl

/-- Both chunks name the rollup. -/
lemma chunk_rollupId (i : Nat) : (chunk i).rollupId = 5 := rfl

/-- What is published for the rollup, by its sender and in time. -/
lemma publishedFor_iff (proofData : Bytes) (e : OffchainEvent) :
    e.PublishedFor (rollupEvent proofData) ↔
      (e.tx.rollupId = 5 ∧ e.sender = 100) ∧ e.blockNumber ≤ 10000 :=
  and_congr_left' Prod.mk_inj

/-- The events for the rollup are its own, and one of before. -/
lemma filter_publishedFor (proofData : Bytes) : (before ++ publication 9902 ++ behind).filter
      (OffchainEvent.PublishedFor (rollupEvent proofData)) =
    before.drop 1 ++ publication 9902 := by
  simp [before, publication, behind, publishedFor_iff, chunk_rollupId]

/-- Without others they are its own. -/
lemma filter_publication (proofData : Bytes) :
    (publication 1000).filter (OffchainEvent.PublishedFor (rollupEvent proofData)) =
      [] ++ publication 1000 := by
  simp [publication, publishedFor_iff, chunk_rollupId]

/-- Where the search starts. -/
lemma searchStart_eq (proofData : Bytes) : searchStart 1 10010 [rollupEvent proofData] = 1360 := by
  simp [searchStart, queryStart, offchainSearchLead, rollupEvent]

/-- What it reads. -/
lemma searched_eq (proofData : Bytes) :
    searched 1 10010 [rollupEvent proofData] (before ++ publication 9902 ++ behind) =
      before ++ publication 9902 := by
  have hend : searchEnd [rollupEvent proofData] = 10000 := rfl
  have hid : rollupIdFilter [rollupEvent proofData] 5 = true := rfl
  simp [searched, searchStart_eq, hend, hid, before, publication, behind, chunk_rollupId]

/-- It misses events of long before. -/
lemma searched_publication (proofData : Bytes) :
    searched 1 10010 [rollupEvent proofData] (publication 1000) = [] := by
  simp [searched, searchStart_eq, publication]

/-- The last events for the rollup are its own. -/
lemma publishedLast {proofData : Bytes} (hencode : rollup.encode = .ok proofData)
    {log : List OffchainEvent} {blockNumber : Nat}
    (h : ∃ earlier, log.filter (OffchainEvent.PublishedFor (rollupEvent proofData)) =
      earlier ++ publication blockNumber) :
    PublishedLast (rollupEvent proofData) log (publication blockNumber) offchainTxData where
  log := h
  txs := ⟨300, _, createRollupTxs_eq hencode, publishes blockNumber⟩
  aligned := ⟨rollup, decode_proofData hencode, aligned⟩

/-- The rollup is encoded. -/
lemma encode_ok : ∃ proofData, rollup.encode = .ok proofData := by
  obtain ⟨bytes, hencode, -⟩ := RollupProofData.decode_encode rollup_enforced rollup_owners
  exact ⟨bytes, hencode⟩

end SampleOffchainData

open SampleOffchainData in
/-- Chunks are recovered with others around them. -/
theorem recovers_sample : ∃ proofData, SampleProofData.rollup.encode = .ok proofData ∧
    Recovers 1 10010 (before ++ publication 9902 ++ behind) [rollupEvent proofData] 0
      (rollupEvent proofData) offchainTxData := by
  obtain ⟨proofData, hencode⟩ := encode_ok
  refine ⟨proofData, hencode, recovers (List.pairwise_singleton _ _) rfl ?_
    (publishedLast hencode ⟨_, filter_publishedFor proofData⟩) ?_⟩
  · intro e he
    rw [searched_eq] at he
    simp only [before, publication, List.cons_append, List.nil_append, List.mem_cons,
      List.not_mem_nil, or_false] at he
    obtain rfl | rfl | rfl | rfl | rfl := he <;> exact ⟨by decide, by decide⟩
  · intro e he
    simp only [publication, List.mem_cons, List.not_mem_nil, or_false] at he
    rw [searchStart_eq]
    obtain rfl | rfl | rfl := he <;> decide

open SampleOffchainData in
/-- A publication of more than a day before the rollup is not found. -/
theorem not_recovers : ¬ ∀ (chainId latestBlock i : Nat) (log last : List OffchainEvent)
    (rollupEvents : List RollupEvent) (r : RollupEvent) (offchainTxData : List Bytes),
    Chronological rollupEvents → rollupEvents[i]? = some r →
    (∀ e ∈ searched chainId latestBlock rollupEvents log, e.Representable) →
    PublishedLast r log last offchainTxData →
    Recovers chainId latestBlock log rollupEvents i r offchainTxData := by
  intro h
  obtain ⟨proofData, hencode⟩ := encode_ok
  have hevents : ∀ e ∈ searched 1 10010 [rollupEvent proofData] (publication 1000), e.Representable := by
    rw [searched_publication]
    exact List.forall_mem_nil _
  obtain ⟨ess, es, hget, hes, hne, -⟩ := h 1 10010 0 _ _ _ _ _ (List.pairwise_singleton _ _) rfl hevents
    (publishedLast hencode ⟨_, filter_publication proofData⟩)
  have hnone : getOffchainDataEvents 1 10010 (publication 1000) [rollupEvent proofData] = .ok [[]] := by
    rw [getOffchainDataEvents, searched_publication]
    rfl
  rw [hnone, Except.ok.injEq] at hget
  subst hget
  exact hne (Option.some.inj hes).symm

end AztecConnect.System
