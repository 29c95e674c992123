import AztecConnect.Lib.CatchUp
import AztecConnect.Lib.Reassembly
import Mathlib.Data.List.Nodup

/-!
# The event database of kebab

Translation of `kebab/src/log_db.ts`, of the events of `eth_event.ts` and of their table
(`entity/eth_event.ts`). The rows are in the order of their insertion. Quantities are numbers, as in the
table; all other fields are text, as in the answers of the node.
-/

namespace AztecConnect.Kebab

open CatchUp

/-- Hexadecimal text. -/
abbrev Text := List Char

/-- `toLowerCase`. -/
def toLowerCase (s : Text) : Text := s.map Char.toLower

/-- A letter in lower case stays. -/
lemma toLower_toLower (c : Char) : c.toLower.toLower = c.toLower := by
  by_cases h : c.val ≥ 'A'.val ∧ c.val ≤ 'Z'.val
  · have hlow : c.toLower.val = c.val + 32 := congrArg Char.val (dif_pos h)
    refine dif_neg ?_
    rw [hlow]
    rintro ⟨-, hle⟩
    have hmin := UInt32.le_iff_toNat_le.mp h.1
    have hmax := UInt32.le_iff_toNat_le.mp h.2
    have hadd := UInt32.le_iff_toNat_le.mp hle
    rw [UInt32.toNat_add] at hadd
    have hA : 'A'.val.toNat = 65 := rfl
    have hZ : 'Z'.val.toNat = 90 := rfl
    have h32 : (32 : UInt32).toNat = 32 := rfl
    omega
  · have hlow : c.toLower = c := dif_neg h
    rw [hlow, hlow]

/-- So does a text. -/
lemma toLowerCase_toLowerCase (x : Text) : toLowerCase (toLowerCase x) = toLowerCase x := by
  rw [toLowerCase, toLowerCase, List.map_map]
  exact List.map_congr_left fun c _ => toLower_toLower c

/-- `EthEvent`. -/
structure EthEvent where
  address : Text
  blockHash : Text
  blockNumber : Nat
  data : Text
  logIndex : Nat
  removed : Bool
  topics : List Text
  transactionHash : Text
  transactionIndex : Nat
deriving DecidableEq

/-- A row. -/
structure EthEventDao extends EthEvent where
  mainTopic : Option Text
deriving DecidableEq

/-- `formatData`: the first topic is the main one. -/
def formatData (ethEvent : EthEvent) : EthEventDao := { ethEvent with mainTopic := ethEvent.topics.head? }

/-- `serializeData`. -/
def serializeData (eventDao : EthEventDao) : EthEvent := eventDao.toEthEvent

/-- The primary key. -/
def EthEvent.key (e : EthEvent) : Text × Nat := (e.transactionHash, e.logIndex)

/-! ## Insertion -/

/-- `save` of the repository: a row of the same key is replaced. -/
def save (rows : List EthEventDao) (row : EthEventDao) : List EthEventDao :=
  if rows.any (·.key == row.key) then rows.map fun r => if r.key = row.key then row else r
  else rows ++ [row]

/-- One attempt of `_addEthLogs`: the slices of `batchSize` events are saved in turn. -/
def saveSlices (batchSize : Nat) (rows : List EthEventDao) (logs : List EthEvent) : List EthEventDao :=
  (Reassembly.cut batchSize logs ((logs.length + batchSize - 1) / batchSize)).foldl
    (fun rows logsSlice => (logsSlice.map formatData).foldl save rows) rows

/-- `_addEthLogs` from a batch size on: an attempt that fails is rolled back, and the next has half the
batch size, rounded. `fails` is the error of the database in the attempt with a batch size, if any. -/
def addEthLogs (fails : Nat → Option String) (rows : List EthEventDao) (logs : List EthEvent)
    (batchSize : Nat) : Except String (List EthEventDao) :=
  match fails batchSize with
  | none => .ok (saveSlices batchSize rows logs)
  | some err =>
    if batchSize < 2 then .error s!"Unable to insert logs, error: {err}"
    else addEthLogs fails rows logs ((batchSize + 1) / 2)
termination_by batchSize
decreasing_by omega

variable {rows rows' : List EthEventDao} {logs : List EthEvent}

/-- Saving in slices saves one log after the other. -/
lemma saveSlices_eq {batchSize : Nat} (h : 0 < batchSize) :
    saveSlices batchSize rows logs = (logs.map formatData).foldl save rows := by
  have hall : logs.length ≤ (logs.length + batchSize - 1) / batchSize * batchSize := by
    have hdiv := Nat.lt_div_mul_add (a := logs.length + batchSize - 1) h
    omega
  have hcut := Reassembly.flatten_cut batchSize logs ((logs.length + batchSize - 1) / batchSize)
  rw [List.take_of_length_le hall] at hcut
  conv_rhs => rw [← hcut, List.map_flatten, List.foldl_flatten, List.foldl_map]
  rfl

/-- The batch size does not matter, nor how often the database has failed before. -/
lemma addEthLogs_ok {fails : Nat → Option String} {batchSize : Nat} (hpos : 0 < batchSize)
    (h : addEthLogs fails rows logs batchSize = .ok rows') :
    rows' = (logs.map formatData).foldl save rows := by
  induction batchSize using Nat.strongRecOn with
  | ind batchSize ih =>
    rw [addEthLogs] at h
    split at h
    case h_1 =>
      cases h
      exact saveSlices_eq hpos
    case h_2 =>
      split at h
      case isTrue => cases h
      case isFalse hsize => exact ih _ (by omega) (by omega) h

/-- A row with a new key is appended. -/
lemma save_fresh {row : EthEventDao} (h : ∀ r ∈ rows, r.key ≠ row.key) : save rows row = rows ++ [row] := by
  rw [save, if_neg]
  rw [List.any_eq_true]
  rintro ⟨r, hr, hkey⟩
  exact h r hr (beq_iff_eq.mp hkey)

/-- New events are appended. -/
lemma foldl_save_fresh (hnodup : (logs.map EthEvent.key).Nodup)
    (hnew : ∀ r ∈ rows, ∀ e ∈ logs, r.key ≠ e.key) :
    (logs.map formatData).foldl save rows = rows ++ logs.map formatData := by
  induction logs generalizing rows with
  | nil => exact (List.append_nil rows).symm
  | cons e logs ih =>
    rw [List.map_cons, List.nodup_cons] at hnodup
    obtain ⟨hhead, htail⟩ := hnodup
    rw [List.map_cons, List.foldl_cons, save_fresh fun r hr => hnew r hr e List.mem_cons_self]
    rw [ih htail, List.append_assoc, List.singleton_append]
    intro r hr e' he'
    rcases List.mem_append.mp hr with hold | hlast
    · exact hnew r hold e' (List.mem_cons_of_mem _ he')
    · cases List.mem_singleton.mp hlast
      exact fun hkey => hhead (List.mem_map.mpr ⟨e', he', hkey.symm⟩)

/-! ## Queries -/

/-- What `_getLastEvent` may return: among rows of the greatest block number any. -/
def LastEvent (rows : List EthEventDao) (mainTopic : Text) : Option EthEvent → Prop
  | none => ∀ row ∈ rows, row.mainTopic ≠ some mainTopic
  | some e => ∃ row ∈ rows, row.mainTopic = some mainTopic ∧ e = serializeData row ∧
      ∀ row' ∈ rows, row'.mainTopic = some mainTopic → row'.blockNumber ≤ row.blockNumber

/-- `RollupLogsParamsQuery`. -/
structure RollupLogsParamsQuery where
  topics : List Text
  address : Option Text
  /-- `none` is NaN. -/
  fromBlock : Option Int
  toBlock : Option Int
  blockHash : Option Text

/-- The column of a simple array. -/
def column : List Text → Text
  | [] => []
  | [t] => t
  | t :: ts => t ++ ',' :: column ts

/-- A parameter that is set; empty text is as good as none. -/
def given (param : Option Text) : Option Text := param.filter (· ≠ [])

/-- `LIKE` of the database: `%` stands for any text and `_` for any character, and case is not regarded. -/
def like : Text → Text → Bool
  | [], text => text.isEmpty
  | c :: pattern, text =>
    if c = '%' then text.tails.any (like pattern)
    else match text with
      | [] => false
      | d :: text => (c = '_' || c.toLower = d.toLower) && like pattern text

/-- The condition of `_queryEthLogs` on the topics. Nothing in them is escaped in the pattern. -/
def selectsTopics (topics : List Text) (row : EthEventDao) : Bool :=
  match topics with
  | [] => true
  | [t] => row.mainTopic = some (toLowerCase t)
  | ts => like (column (ts.map toLowerCase) ++ ['%']) (column row.topics)

/-- `Between`: NaN is bound as NULL, and no block number compares with it. -/
def isBetween (fromBlock toBlock : Option Int) (blockNumber : Nat) : Bool :=
  fromBlock.any (fun n : Int => n ≤ blockNumber) && toBlock.any (fun n : Int => blockNumber ≤ n)

/-- The conditions of `_queryEthLogs`. -/
def RollupLogsParamsQuery.selects (params : RollupLogsParamsQuery) (row : EthEventDao) : Bool :=
  (given params.blockHash).all (row.blockHash = toLowerCase ·) &&
  (given params.address).all (row.address = toLowerCase ·) &&
  ((given params.blockHash).isSome || isBetween params.fromBlock params.toBlock row.blockNumber) &&
  selectsTopics params.topics row

/-- What `_queryEthLogs` may return: the order of rows with the same block number is left open. -/
def QueryEthLogs (rows : List EthEventDao) (params : RollupLogsParamsQuery) (result : List EthEvent) : Prop :=
  result.Perm ((rows.filter params.selects).map serializeData) ∧
    result.Pairwise fun x y => x.blockNumber ≤ y.blockNumber

/-- A wildcard is the lower case of nothing else. -/
lemma isWildcard_of_toLower {c w : Char} (hw : w = '%' ∨ w = '_') (h : c.toLower = w) : c = w := by
  by_cases hupper : c.val ≥ 'A'.val ∧ c.val ≤ 'Z'.val
  · have hlow : c.toLower.val = c.val + 32 := congrArg Char.val (dif_pos hupper)
    have hmin := UInt32.le_iff_toNat_le.mp hupper.1
    have hmax := UInt32.le_iff_toNat_le.mp hupper.2
    have hA : 'A'.val.toNat = 65 := rfl
    have hZ : 'Z'.val.toNat = 90 := rfl
    have h32 : (32 : UInt32).toNat = 32 := rfl
    have hval : w.val.toNat = c.val.toNat + 32 := by
      rw [← h, hlow, UInt32.toNat_add]
      omega
    rcases hw with rfl | rfl
    · have hpercent : '%'.val.toNat = 37 := rfl
      omega
    · have hunderscore : '_'.val.toNat = 95 := rfl
      omega
  · have hlow : c.toLower = c := dif_neg hupper
    rw [← h, hlow]

/-- A percent sign stands for any text. -/
lemma like_percent (pattern text : Text) :
    like ('%' :: pattern) text = text.tails.any (like pattern) := by
  cases text <;> rfl

/-- Another character for itself, or an underscore for any. -/
lemma like_cons {c : Char} (hc : c ≠ '%') (pattern : Text) (d : Char) (text : Text) :
    like (c :: pattern) (d :: text) = ((c = '_' || c.toLower = d.toLower) && like pattern text) :=
  if_neg hc

/-- And for no text that is empty. -/
lemma like_nil {c : Char} (hc : c ≠ '%') (pattern : Text) : like (c :: pattern) [] = false := if_neg hc

/-- A pattern without wildcards but the last `%` selects what it is a prefix of. -/
lemma like_stem {stem : Text} (h : ∀ c ∈ stem, c ≠ '%' ∧ c ≠ '_') (text : Text) :
    like (stem ++ ['%']) text = true ↔ toLowerCase stem <+: toLowerCase text := by
  induction stem generalizing text with
  | nil =>
    refine iff_of_true ?_ List.nil_prefix
    rw [List.nil_append, like_percent, List.any_eq_true]
    exact ⟨[], (List.mem_tails [] text).mpr List.nil_suffix, rfl⟩
  | cons c stem ih =>
    obtain ⟨hpercent, hunderscore⟩ := h c List.mem_cons_self
    have hstem (c' : Char) (hc : c' ∈ stem) : c' ≠ '%' ∧ c' ≠ '_' := h c' (List.mem_cons_of_mem _ hc)
    cases text with
    | nil =>
      rw [List.cons_append, like_nil hpercent]
      exact iff_of_false Bool.false_ne_true fun hp => List.cons_ne_nil _ _ (List.prefix_nil.mp hp)
    | cons d text =>
      rw [List.cons_append, like_cons hpercent, decide_eq_false hunderscore, Bool.false_or,
        Bool.and_eq_true, decide_eq_true_iff, ih hstem]
      exact List.cons_prefix_cons.symm

/-- The column in lower case is that of the topics in lower case. -/
lemma toLowerCase_column (ts : List Text) : toLowerCase (column ts) = column (ts.map toLowerCase) := by
  induction ts with
  | nil => rfl
  | cons t ts ih =>
    cases ts with
    | nil => rfl
    | cons t' ts =>
      have hcolumn : column (t :: t' :: ts) = t ++ ',' :: column (t' :: ts) := rfl
      rw [hcolumn, toLowerCase, List.map_append, List.map_cons]
      change toLowerCase t ++ ',' :: toLowerCase (column (t' :: ts)) = _
      rw [ih]
      rfl

/-- What stands in a column. -/
lemma mem_column {c : Char} {ts : List Text} (h : c ∈ column ts) : c = ',' ∨ ∃ t ∈ ts, c ∈ t := by
  induction ts with
  | nil => cases h
  | cons t ts ih =>
    cases ts with
    | nil => exact .inr ⟨t, List.mem_cons_self, h⟩
    | cons t' ts =>
      have hcolumn : column (t :: t' :: ts) = t ++ ',' :: column (t' :: ts) := rfl
      rw [hcolumn, List.mem_append, List.mem_cons] at h
      rcases h with hhead | rfl | htail
      · exact .inr ⟨t, List.mem_cons_self, hhead⟩
      · exact .inl rfl
      · rcases ih htail with hcomma | ⟨u, hu, hc⟩
        · exact .inl hcomma
        · exact .inr ⟨u, List.mem_cons_of_mem _ hu, hc⟩

/-- Texts of one length start alike if they are equal. -/
lemma append_prefix_append_iff {x x' y y' : Text} (h : x.length = x'.length) :
    x ++ y <+: x' ++ y' ↔ x = x' ∧ y <+: y' := by
  constructor
  · rintro ⟨z, hz⟩
    rw [List.append_assoc] at hz
    obtain ⟨hx, hy⟩ := List.append_inj hz h
    exact ⟨hx, z, hy⟩
  · rintro ⟨rfl, z, rfl⟩
    exact ⟨z, List.append_assoc x y z⟩

/-- Of topics of one length, those that come first in the column are the first topics. -/
lemma column_prefix_iff {w : Nat} (hw : 0 < w) {ts us : List Text} (hts : ∀ t ∈ ts, t.length = w)
    (hus : ∀ u ∈ us, u.length = w) (hne : ts ≠ []) : column ts <+: column us ↔ ts <+: us := by
  induction ts generalizing us with
  | nil => exact absurd rfl hne
  | cons t ts ih =>
    have ht := hts t List.mem_cons_self
    have htail (u : Text) (hu : u ∈ ts) : u.length = w := hts u (List.mem_cons_of_mem _ hu)
    cases us with
    | nil =>
      refine iff_of_false (fun h => ?_) fun h => List.cons_ne_nil t ts (List.prefix_nil.mp h)
      have hempty : column (t :: ts) = [] := List.prefix_nil.mp h
      cases ts with
      | nil => rw [column] at hempty; rw [hempty, List.length_nil] at ht; omega
      | cons t' ts => exact List.append_ne_nil_of_right_ne_nil _ (List.cons_ne_nil _ _) hempty
    | cons u us =>
      have htu : t.length = u.length := ht.trans (hus u List.mem_cons_self).symm
      rw [List.cons_prefix_cons]
      cases ts with
      | nil =>
        -- the first topic is compared
        obtain ⟨rest, hrest⟩ : ∃ rest, column (u :: us) = u ++ rest := by
          cases us with
          | nil => exact ⟨[], (List.append_nil u).symm⟩
          | cons u' us => exact ⟨_, rfl⟩
        have hfirst : t ++ [] <+: u ++ rest ↔ t = u ∧ [] <+: rest := append_prefix_append_iff htu
        rw [List.append_nil] at hfirst
        rw [hrest, column, hfirst]
        exact and_congr_right fun _ => iff_of_true List.nil_prefix List.nil_prefix
      | cons t' ts =>
        have hcolumn : column (t :: t' :: ts) = t ++ ',' :: column (t' :: ts) := rfl
        cases us with
        | nil =>
          -- a second topic is asked for, and there is none
          refine iff_of_false (fun h => ?_) fun h => List.cons_ne_nil _ _ (List.prefix_nil.mp h.2)
          have hle := h.length_le
          rw [hcolumn, List.length_append, List.length_cons, column, htu] at hle
          omega
        | cons u' us =>
          have hcolumn' : column (u :: u' :: us) = u ++ ',' :: column (u' :: us) := rfl
          have hrest (v : Text) (hv : v ∈ u' :: us) : v.length = w := hus v (List.mem_cons_of_mem _ hv)
          rw [hcolumn, hcolumn', append_prefix_append_iff htu, List.cons_prefix_cons,
            ih htail hrest (List.cons_ne_nil _ _)]
          exact and_congr_right fun _ => and_iff_right rfl

end AztecConnect.Kebab
