import AztecConnect.Kebab.Progress

/-!
# The answers of kebab

Translation of `queryLogs` of `kebab/src/server.ts`. A server that is ready answers from its database, and
with the logs of the contract up to one block (`answers`): for topics that are hexadecimal text, and blocks
that are hexadecimal quantities or `latest`. A block hash in the request is not looked at; other tags of
blocks are read as NaN, and nothing is found.
-/

namespace AztecConnect.Kebab

open CatchUp Transition

/-- The filter of `eth_getLogs`. -/
structure RollupLogsParams where
  topics : List Text
  address : Option Text
  fromBlock : Option Text
  toBlock : Option Text
  blockHash : Option Text

/-- `topicIsIndexed`. -/
def topicIsIndexed (topic : Text) : Bool :=
  topic = EventTopic.rollupProcessed.mainTopic || topic = EventTopic.defiBridge.mainTopic ||
    topic = EventTopic.offchain.mainTopic

/-- White space and line ends of the language. -/
def isWhiteSpace (c : Char) : Bool :=
  c.toNat ∈ [9, 10, 11, 12, 13, 32, 0xa0, 0x1680, 0x2028, 0x2029, 0x202f, 0x205f, 0x3000, 0xfeff] ||
    0x2000 ≤ c.toNat && c.toNat ≤ 0x200a

/-- The number of the first digits of a text, if there are any. -/
def parseDigits (radix : Nat) (s : Text) : Option Int :=
  match (s.takeWhile fun c => (hexDigit c).any (· < radix)).filterMap hexDigit with
  | [] => none
  | d :: ds => some ((d :: ds).foldl (fun n d => n * radix + d) 0 : Nat)

/-- A number without its sign. -/
def parseUnsigned : Text → Option Int
  | '0' :: 'x' :: s => parseDigits 16 s
  | '0' :: 'X' :: s => parseDigits 16 s
  | s => parseDigits 10 s

/-- `parseInt` without a radix; NaN is `none`. -/
def parseInt (s : Text) : Option Int :=
  match s.dropWhile isWhiteSpace with
  | '-' :: s => (parseUnsigned s).map (-·)
  | '+' :: s => parseUnsigned s
  | s => parseUnsigned s

/-- The tag of the newest block. -/
def LATEST : Text := "latest".toList

/-- `requestedStartBlock` or `requestedEndBlock`. -/
def Server.requestedBlock (s : Server) (block : Option Text) : Option Int :=
  match given block with
  | none => some s.eventSyncedToBlockNumber
  | some b => if b = LATEST then some s.eventSyncedToBlockNumber else parseInt b

/-- The query to the database. The block hash is dropped. -/
def Server.query (s : Server) (params : RollupLogsParams) : RollupLogsParamsQuery :=
  ⟨params.topics, params.address, s.requestedBlock params.fromBlock, s.requestedBlock params.toBlock, none⟩

/-- `<` of numbers, of which NaN is none. -/
def isLess : Option Int → Option Int → Bool
  | some x, some y => x < y
  | _, _ => false

/-- What `queryLogs` may return. -/
def Server.QueryLogs (s : Server) (params : RollupLogsParams) (result : List EthEvent) : Prop :=
  if isLess (s.requestedBlock params.toBlock) (s.requestedBlock params.fromBlock) then result = []
  else QueryEthLogs s.rows (s.query params) result

/-! ## What is asked for -/

/-- A topic: 32 bytes in hexadecimal. -/
def IsTopic (t : Text) : Prop :=
  ∃ digits, t = '0' :: 'x' :: digits ∧ digits.length = 64 ∧ ∀ c ∈ digits, (hexDigit c).isSome

/-- The block that a parameter names: the latest one of the database, or that of a quantity. -/
def Server.blockNamed (s : Server) : Option Text → Option Int
  | none => some s.eventSyncedToBlockNumber
  | some b => if b = LATEST then some s.eventSyncedToBlockNumber else number (some b)

/-- What is asked for, of the logs of the contract. -/
def asks (cp : ChainProperties) (params : RollupLogsParams) (fromBlock toBlock : Int) (e : EthEvent) : Bool :=
  e.address = toLowerCase cp.rollupContractAddress &&
  params.blockHash.all (e.blockHash = toLowerCase ·) &&
  (given params.address).all (e.address = toLowerCase ·) &&
  (params.topics.map toLowerCase).isPrefixOf e.topics &&
  fromBlock ≤ e.blockNumber && e.blockNumber ≤ toBlock

section Requests

variable {t : Text} {c : Char}

/-- A topic has 66 characters. -/
lemma IsTopic.length (h : IsTopic t) : t.length = 66 := by
  obtain ⟨digits, rfl, hlength, -⟩ := h
  rw [List.length_cons, List.length_cons, hlength]

/-- A topic has no wildcard. -/
lemma IsTopic.not_wildcard (h : IsTopic t) (hc : c ∈ toLowerCase t) : c ≠ '%' ∧ c ≠ '_' := by
  obtain ⟨digits, rfl, -, hdigits⟩ := h
  obtain ⟨c', hc', rfl⟩ := List.mem_map.mp hc
  have hne {w : Char} (hw : w = '%' ∨ w = '_') : c'.toLower ≠ w := by
    intro heq
    cases isWildcard_of_toLower hw heq
    rcases List.mem_cons.mp hc' with hzero | hrest
    · rcases hw with rfl | rfl <;> exact absurd hzero (by decide)
    · rcases List.mem_cons.mp hrest with hx | hdigit
      · rcases hw with rfl | rfl <;> exact absurd hx (by decide)
      · have hsome := hdigits c' hdigit
        rcases hw with rfl | rfl <;> exact absurd hsome (by decide)
  exact ⟨hne (.inl rfl), hne (.inr rfl)⟩

/-- Nor have the topics of a request in a column. -/
lemma column_not_wildcard {ts : List Text} (hts : ∀ t ∈ ts, IsTopic t)
    (hc : c ∈ column (ts.map toLowerCase)) : c ≠ '%' ∧ c ≠ '_' := by
  rcases mem_column hc with rfl | ⟨u, hu, hcu⟩
  · decide
  · obtain ⟨t, ht, rfl⟩ := List.mem_map.mp hu
    exact (hts t ht).not_wildcard hcu

/-- A digit is below the radix. -/
lemma hexDigit_lt {d : Nat} (h : hexDigit c = some d) : d < 16 := by
  unfold hexDigit at h
  split at h
  case isTrue hdigit =>
    cases h
    have hle : c.toNat ≤ '9'.toNat := UInt32.le_iff_toNat_le.mp hdigit.2
    exact lt_of_le_of_lt (Nat.sub_le_sub_right hle _) (by decide)
  case isFalse =>
    split at h
    case isTrue hlower =>
      cases h
      have hle : c.toNat ≤ 'f'.toNat := UInt32.le_iff_toNat_le.mp hlower.2
      exact lt_of_le_of_lt (Nat.add_le_add_right (Nat.sub_le_sub_right hle _) _) (by decide)
    case isFalse =>
      split at h
      case isTrue hupper =>
        cases h
        have hle : c.toNat ≤ 'F'.toNat := UInt32.le_iff_toNat_le.mp hupper.2
        exact lt_of_le_of_lt (Nat.add_le_add_right (Nat.sub_le_sub_right hle _) _) (by decide)
      case isFalse => cases h

/-- The digits of a number that is read to its end. -/
lemma foldlM_hexDigit {ds : Text} {n m : Nat}
    (h : ds.foldlM (fun n c => (hexDigit c).map (n * 16 + ·)) n = some m) :
    (ds.takeWhile fun c => (hexDigit c).any (· < 16)) = ds ∧
      (ds.filterMap hexDigit).foldl (fun n d => n * 16 + d) n = m := by
  induction ds generalizing n with
  | nil => exact ⟨rfl, Option.some.inj h⟩
  | cons d ds ih =>
    rw [List.foldlM_cons] at h
    obtain ⟨n', hn', hrest⟩ := Option.bind_eq_some_iff.mp h
    obtain ⟨x, hx, rfl⟩ := Option.map_eq_some_iff.mp hn'
    obtain ⟨hall, hfold⟩ := ih hrest
    have hsmall : (hexDigit d).any (· < 16) = true := by
      rw [hx]
      exact decide_eq_true (hexDigit_lt hx)
    constructor
    · rw [List.takeWhile_cons, if_pos hsmall, hall]
    · rw [List.filterMap_cons_some hx, List.foldl_cons, hfold]

/-- `parseInt` of a quantity. -/
lemma parseInt_of_number {b : Text} {n : Int} (h : number (some b) = some n) : parseInt b = some n := by
  unfold number at h
  split at h
  case h_1 d ds heq =>
    cases heq
    obtain ⟨m, hm, rfl⟩ := Option.map_eq_some_iff.mp h
    obtain ⟨hall, hfold⟩ := foldlM_hexDigit hm
    have hdigits : parseInt ('0' :: 'x' :: d :: ds) = parseDigits 16 (d :: ds) := rfl
    obtain ⟨x, hx⟩ : ∃ x, hexDigit d = some x := by
      rw [List.foldlM_cons] at hm
      obtain ⟨n', hn', -⟩ := Option.bind_eq_some_iff.mp hm
      obtain ⟨x, hx, -⟩ := Option.map_eq_some_iff.mp hn'
      exact ⟨x, hx⟩
    rw [List.filterMap_cons_some hx] at hfold
    rw [hdigits, parseDigits, hall, List.filterMap_cons_some hx]
    exact congrArg (fun k : Nat => some (k : Int)) hfold
  case h_2 => cases h

/-- A block that is named is the one of the query. -/
lemma Server.requestedBlock_of_named {s : Server} {block : Option Text} {n : Int}
    (h : s.blockNamed block = some n) : s.requestedBlock block = some n := by
  cases block with
  | none => exact h
  | some b =>
    have hne : b ≠ [] := by
      rintro rfl
      cases h
    have hgiven : given (some b) = some b := Option.filter_some_pos (decide_eq_true hne)
    rw [Server.requestedBlock, hgiven]
    rw [Server.blockNamed] at h
    show (if b = LATEST then _ else _) = _
    split at h
    case isTrue hlatest => rwa [if_pos hlatest]
    case isFalse hlatest =>
      rw [if_neg hlatest]
      exact parseInt_of_number h

end Requests

section Answers

variable {c : Chain} {cp : ChainProperties} {s : Server} {t : EventTopic} {params : RollupLogsParams}
  {topic : Text} {fromBlock toBlock : Int} {e : EthEvent}

/-- A request for a topic and a range of blocks. -/
structure Server.Asked (s : Server) (params : RollupLogsParams) (t : EventTopic) (fromBlock toBlock : Int) :
    Prop where
  mainTopic : params.topics.head? = some t.mainTopic
  topics : ∀ t ∈ params.topics, IsTopic t
  blockHash : params.blockHash = none
  fromBlock : s.blockNamed params.fromBlock = some fromBlock
  toBlock : s.blockNamed params.toBlock = some toBlock

/-- An indexed topic is the main topic of one of the three events. -/
lemma indexed_mainTopic (h : topicIsIndexed topic = true) : ∃ t : EventTopic, topic = t.mainTopic := by
  simp only [topicIsIndexed, Bool.or_eq_true, decide_eq_true_iff] at h
  rcases h with (h | h) | h
  · exact ⟨_, h⟩
  · exact ⟨_, h⟩
  · exact ⟨_, h⟩

/-- The first topic of an event is the one that was asked for. -/
lemma head_of_prefix {ts : List Text} (hhead : ts.head? = some t.mainTopic)
    (h : ts.map toLowerCase <+: e.topics) : e.topics.head? = some t.mainTopic := by
  obtain ⟨rest, hrest⟩ := h
  cases ts with
  | nil => cases hhead
  | cons τ ts =>
    cases hhead
    rw [← hrest, List.map_cons, t.toLowerCase_mainTopic]
    rfl

/-- The condition on the topics. -/
lemma selectsTopics_iff {ts : List Text} (hhead : ts.head? = some t.mainTopic)
    (hts : ∀ t ∈ ts, IsTopic t) (he : e ∈ c.logs e.blockNumber) :
    selectsTopics ts (formatData e) = true ↔ ts.map toLowerCase <+: e.topics := by
  match ts with
  | [] => cases hhead
  | [τ] =>
    -- the main topic is compared
    rw [selectsTopics, decide_eq_true_iff, List.map_singleton]
    change e.topics.head? = some (toLowerCase τ) ↔ _
    cases e.topics with
    | nil => exact iff_of_false (fun h => by cases h) fun h => List.cons_ne_nil _ _ (List.prefix_nil.mp h)
    | cons x xs =>
      rw [List.cons_prefix_cons, List.head?_cons, Option.some_inj]
      exact ⟨fun h => ⟨h.symm, List.nil_prefix⟩, fun h => h.1.symm⟩
  | τ :: τ' :: ts =>
    have hcase : e.topics.map toLowerCase = e.topics :=
      (List.map_congr_left fun x hx => (c.topics _ e he x hx).2).trans (List.map_id _)
    have hidem : ((τ :: τ' :: ts).map toLowerCase).map toLowerCase = (τ :: τ' :: ts).map toLowerCase := by
      rw [List.map_map]
      exact List.map_congr_left fun x _ => toLowerCase_toLowerCase x
    change like (column ((τ :: τ' :: ts).map toLowerCase) ++ ['%']) (column e.topics) = true ↔ _
    rw [like_stem fun c hc => column_not_wildcard hts hc, toLowerCase_column, toLowerCase_column, hidem, hcase]
    refine column_prefix_iff (w := 66) (by decide) (fun x hx => ?_) (fun x hx => (c.topics _ e he x hx).1)
      fun hnil => List.cons_ne_nil _ _ (List.map_eq_nil_iff.mp hnil)
    obtain ⟨y, hy, rfl⟩ := List.mem_map.mp hx
    rw [toLowerCase, List.length_map]
    exact (hts y hy).length

/-- A row is selected if its event is asked for. -/
lemma selects_iff (h : s.Asked params t fromBlock toBlock) (he : e ∈ c.logs e.blockNumber) :
    (s.query params).selects (formatData e) = true ∧
      e.address = toLowerCase cp.rollupContractAddress ↔ asks cp params fromBlock toBlock e = true := by
  have hselects := selectsTopics_iff h.mainTopic h.topics he
  have hquery : (s.query params).selects (formatData e) = (true &&
      (given params.address).all (e.address = toLowerCase ·) &&
      (false || isBetween (s.requestedBlock params.fromBlock) (s.requestedBlock params.toBlock) e.blockNumber) &&
      selectsTopics params.topics (formatData e)) := rfl
  rw [hquery, Server.requestedBlock_of_named h.fromBlock, Server.requestedBlock_of_named h.toBlock]
  simp only [asks, h.blockHash, isBetween, Option.any_some, Option.all_none, Bool.and_eq_true,
    decide_eq_true_eq, List.isPrefixOf_iff_prefix, hselects, Bool.false_or, true_and, and_true]
  tauto

/-- The rows that are selected are the logs that are asked for. -/
lemma filter_selects {n : Nat} (hrows : RowsInv c cp s.rows) (hreaches : Reaches c cp s.rows [] t n)
    (h : s.Asked params t fromBlock toBlock) :
    (s.rows.filter (s.query params).selects).map serializeData =
      (between c.logs cp.earliestBlock n).filter (asks cp params fromBlock toBlock) := by
  have htopic {row : EthEventDao} (hrow : row ∈ s.rows)
      (hselects : (s.query params).selects row = true) : row.mainTopic = some t.mainTopic := by
    obtain ⟨hformat, hindexed⟩ := hrows row hrow
    have hts : selectsTopics params.topics row = true := (Bool.and_eq_true_iff.mp hselects).2
    rw [hformat] at hts ⊢
    exact head_of_prefix h.mainTopic ((selectsTopics_iff h.mainTopic h.topics hindexed.mem_logs).mp hts)
  have hrow : s.rows.filter (s.query params).selects = (s.rows.filter (·.mainTopic = some t.mainTopic)).filter
      ((fun e => (s.query params).selects (formatData e)) ∘ serializeData) := by
    rw [List.filter_filter]
    refine List.filter_congr fun row hrow => ?_
    have hformat : formatData (serializeData row) = row := (hrows row hrow).1.symm
    rw [Function.comp_apply, hformat, Bool.eq_iff_iff, Bool.and_eq_true, decide_eq_true_iff]
    exact ⟨fun h => ⟨h, htopic hrow h⟩, And.left⟩
  rw [hrow, ← List.filter_map, reaches_nil_iff.mp hreaches, c.between_topicLogs, List.filter_filter]
  refine List.filter_congr fun e he => ?_
  have hlogs := ((mem_between c.numbered).mp he).2.2
  have hselects : _ ↔ asks cp params fromBlock toBlock e = true := selects_iff h hlogs
  rw [Bool.eq_iff_iff, Bool.and_eq_true, decide_eq_true_iff, ← hselects]
  refine ⟨fun h => ⟨h.1, h.2.1⟩, fun hall => ⟨hall.1, hall.2, ?_⟩⟩
  have hts : selectsTopics params.topics (formatData e) = true := (Bool.and_eq_true_iff.mp hall.1).2
  exact head_of_prefix h.mainTopic ((selectsTopics_iff h.mainTopic h.topics hlogs).mp hts)

/-- A request for a topic and a range is answered with the logs that it asks for, of those that are held. -/
lemma Inv.answered (hinv : Inv c cp s) {n : Nat} (hn : Holds c cp s n)
    (h : s.Asked params t fromBlock toBlock) {result : List EthEvent} (hresult : s.QueryLogs params result) :
    result.Perm ((between c.logs cp.earliestBlock n).filter (asks cp params fromBlock toBlock)) ∧
      result.Pairwise fun x y => x.blockNumber ≤ y.blockNumber := by
  unfold Server.QueryLogs at hresult
  rw [Server.requestedBlock_of_named h.fromBlock, Server.requestedBlock_of_named h.toBlock] at hresult
  split at hresult
  case isTrue hempty =>
    -- the range is empty
    cases hresult
    have hless : toBlock < fromBlock := of_decide_eq_true hempty
    have hnone : (between c.logs cp.earliestBlock n).filter (asks cp params fromBlock toBlock) = [] := by
      refine List.filter_eq_nil_iff.mpr fun e _ hasks => ?_
      simp only [asks, Bool.and_eq_true, decide_eq_true_iff] at hasks
      omega
    exact ⟨hnone ▸ .nil, .nil⟩
  case isFalse =>
    obtain ⟨hperm, hsorted⟩ := hresult
    rw [filter_selects hinv.rows (hn t).1 h] at hperm
    exact ⟨hperm, hsorted⟩

end Answers

/-- While the server is ready, it answers with the logs of the contract up to one block, the same for all
topics and parameters. This block lies behind the one at which the process was started, and is not before
any block up to which the database has held all topics earlier. -/
theorem answers (c : Chain) (chainId : Nat) (address : Text) {height : Nat} {as : List Actor} {s : Server}
    (h : Run (Step c (chainProperties chainId address)) (Server.init height) as s)
    (hready : s.ready = true) :
    ∃ n ≤ max (getEarliestBlock chainId).1 (s.height + 1),
      (∀ as₁ s₁ as₂, Run (Step c (chainProperties chainId address)) (Server.init height) as₁ s₁ →
        Run (Step c (chainProperties chainId address)) s₁ as₂ s →
        (s₁.phase = .starting → s₁.blockNumber < n) ∧
        ∀ m, Holds c (chainProperties chainId address) s₁ m → m ≤ n) ∧
      ∀ params topic fromBlock toBlock result, params.topics.head? = some topic → topicIsIndexed topic = true →
        (∀ t ∈ params.topics, IsTopic t) → params.blockHash = none →
        s.blockNamed params.fromBlock = some fromBlock → s.blockNamed params.toBlock = some toBlock →
        s.QueryLogs params result →
        result.Perm ((between c.logs (getEarliestBlock chainId).1 n).filter
            (asks (chainProperties chainId address) params fromBlock toBlock)) ∧
          result.Pairwise fun x y => x.blockNumber ≤ y.blockNumber := by
  have hbatch := logBatchSize_pos chainId address
  have hinit : Inv c (chainProperties chainId address) (Server.init height) := inv_init height
  obtain ⟨hinv, -, -⟩ := hinit.run hbatch h
  obtain ⟨n, hn, hgreatest⟩ := hinv.exists_greatest hready
  refine ⟨n, (hn .offchain).2.2, fun as₁ s₁ as₂ h₁ h₂ => ⟨fun hphase => ?_, fun m hm => ?_⟩, ?_⟩
  · obtain ⟨m, hlt, hm⟩ := (hinit.run hbatch h₁).1.holds_started hbatch h₂ hphase hready
    exact hlt.trans_le (hgreatest m hm)
  · obtain ⟨k, hle, hk⟩ := (hinit.run hbatch h₁).1.holds_max hbatch h₂ hready hm
    exact hle.trans (hgreatest k hk)
  · intro params topic fromBlock toBlock result hhead hindexed htopics hblockHash hfrom hto hresult
    obtain ⟨t, rfl⟩ := indexed_mainTopic hindexed
    exact hinv.answered hn ⟨hhead, htopics, hblockHash, hfrom, hto⟩ hresult

/-- The topics of the sample event are 32-byte hex strings. -/
lemma SampleChain.isTopic : ∀ t ∈ SampleChain.event.topics, IsTopic t := by
  refine List.forall_mem_cons.mpr ⟨⟨ROLLUP_PROCESSED_EVENT_TOPIC.drop 2, by decide, by decide,
    List.all_eq_true.mp (by decide)⟩, ?_⟩
  exact List.forall_mem_singleton.mpr ⟨List.replicate 64 '0', rfl, List.length_replicate,
    List.all_eq_true.mp (by decide)⟩

/-- A server that is ready finds the sample event when it is asked for its topics. -/
theorem answers_sample : ∃ s : Server, s.ready = true ∧ ∀ result : List EthEvent,
    s.QueryLogs ⟨SampleChain.event.topics, none, some "0x0".toList, some "0x5".toList, none⟩ result →
      result = [SampleChain.event] := by
  obtain ⟨s, ⟨as, -, hrun⟩, -, hready, -⟩ := catches_up SampleChain.sequential (.nil (s := Server.init 20))
  refine ⟨s, hready, fun result hresult => ?_⟩
  obtain ⟨n, -, hlower, hanswers⟩ := answers SampleChain.chain 1337 SampleChain.event.address hrun hready
  have hn : 20 < n := (hlower [] _ as .nil hrun).1 rfl
  obtain ⟨hperm, -⟩ := hanswers _ ROLLUP_PROCESSED_EVENT_TOPIC 0 5 result rfl (by decide)
    SampleChain.isTopic rfl rfl rfl hresult
  have hlogs : between SampleChain.chain.logs (getEarliestBlock 1337).1 n = [SampleChain.event] :=
    (SampleChain.between_logs n).trans (if_neg (by omega))
  rw [hlogs] at hperm
  exact List.perm_singleton.mp hperm

end AztecConnect.Kebab
