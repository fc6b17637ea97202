import PlacementCenter.Openraft.StateMachineStore
import PlacementCenter.Rust.RawIterator

/-!
# The log store as a purged log

A purged log is what the log store is for: the id up to which entries were purged, and the entries
that remain, in the order of their indices. Each operation of the stores on the database takes the
log it holds to the log that the same operation on purged logs gives, and the readers answer from
that log.

## Main definitions

* `PurgedLog M`: a purged log, its operations and its answers
* `LogOp`: the operations on the database, and what openraft promises when it calls them
* `logIn w`, `Holds w log`: the log that a database holds
* `Sound m`: every item of the family is an entry under its index

## Main results

* `LogOp.run_eq`: an operation performs its effects, and nothing else
* `Sound.insert`, `Sound.withoutRange`: what the writes do to the entries
* `tryGetLogEntries_run`, `getLogState_run`: the readers answer from the log
* `Holds.putEntries`, `Holds.putPurged`, `Holds.deleteRange`: what the effects do to the log
-/

namespace PlacementCenter.Openraft

open Rust Program

variable {M : Type}

/-! ### Purged logs -/

/-- The last purged id, and the remaining entries in the order of their indices. -/
structure PurgedLog (M : Type) where
  purged : Option LogId
  entries : List (Entry M)

namespace PurgedLog

/-- The empty log. -/
def empty : PurgedLog M := ⟨none, []⟩

def append (log : PurgedLog M) (entries : List (Entry M)) : PurgedLog M :=
  { log with entries := log.entries ++ entries }

/-- The entries from the id on are removed. -/
def truncate (log : PurgedLog M) (logId : LogId) : PurgedLog M :=
  { log with entries := log.entries.filter fun e => e.index < logId.index }

/-- The entries up to the id are removed. -/
def purge (log : PurgedLog M) (logId : LogId) : PurgedLog M :=
  ⟨some logId, log.entries.filter fun e => logId.index < e.index⟩

/-- The id of the last remaining entry, or the purged one when none remains. -/
def lastLogId (log : PurgedLog M) : Option LogId :=
  (log.entries.getLast?.map Entry.logId).or log.purged

def state (log : PurgedLog M) : LogState := ⟨log.purged, log.lastLogId⟩

/-- The entries with an index in a range. -/
def within (log : PurgedLog M) (range : RangeBounds) : List (Entry M) :=
  log.entries.filter fun e => range.contains e.index

end PurgedLog

/-! ### The operations on the database -/

/-- The operations of the two stores that write to the database. -/
inductive LogOp (M : Type) where
  | append (entries : List (Entry M))
  | truncate (logId : LogId)
  | purge (logId : LogId)
  | saveVote (vote : Vote)
  | saveCommitted (committed : Option LogId)
  | setCurrentSnapshot (snap : StoredSnapshot M)

/-- Entries with consecutive indices, the first one `start`. -/
def Consecutive (start : ℕ) (entries : List (Entry M)) : Prop :=
  entries.map (fun e => e.index.toNat) = List.range' start entries.length

namespace LogOp

/-- An operation on purged logs. -/
def apply (log : PurgedLog M) : LogOp M → PurgedLog M
  | append entries => log.append entries
  | truncate logId => log.truncate logId
  | purge logId => log.purge logId
  | saveVote _ => log
  | saveCommitted _ => log
  | setCurrentSnapshot _ => log

/-- What openraft promises when it calls an operation on a log in a state: a batch goes on after
the last id, nothing purged is truncated, and the purged index does not go back. Every index is
below `u64::MAX`. -/
def Contract (state : LogState) : LogOp M → Prop
  | append entries => (∀ e ∈ entries, e.index.toNat < 2 ^ 64 - 1) ∧
      ∃ start, Consecutive start entries ∧
        ∀ last ∈ state.lastLogId, start = last.index.toNat + 1
  | truncate logId => logId.index.toNat < 2 ^ 64 - 1 ∧
      ∀ purged ∈ state.lastPurgedLogId, purged.index.toNat < logId.index.toNat
  | purge logId => logId.index.toNat < 2 ^ 64 - 1 ∧
      ∀ purged ∈ state.lastPurgedLogId, purged.index.toNat ≤ logId.index.toNat
  | saveVote _ => True
  | saveCommitted _ => True
  | setCurrentSnapshot _ => True

variable [SerdeJson M]

/-- The function of the stores that performs an operation. -/
def run {σ : Type} [RocksDb σ] [Observed σ (LogEvent M)] :
    LogOp M → Program σ (StorageResult Unit)
  | append entries => LogStore.append entries
  | truncate logId => LogStore.truncate logId
  | purge logId => LogStore.purge logId
  | saveVote vote => LogStore.saveVote vote
  | saveCommitted committed => LogStore.saveCommitted committed
  | setCurrentSnapshot snap => StateMachineStore.setCurrentSnapshot snap

/-- The effects of an operation, in order. -/
def effects : LogOp M → List (Effect (LogEvent M))
  | append entries => entries.map LogStore.putEntry ++ [.event (.ioCompleted entries)]
  | truncate logId => [.deleteRange logsFamily (idToBin logId.index) (idToBin 0xffffffffffffffff)]
  | purge logId => [.put storeFamily (utf8 "last_purged_log_id") (SerdeJson.toVec logId), .sync,
      .deleteRange logsFamily (idToBin 0) (idToBin (logId.index + 1))]
  | saveVote vote => [.put storeFamily (utf8 "vote") (SerdeJson.toVec vote), .sync]
  | saveCommitted committed =>
    [.put storeFamily (utf8 "committed") (SerdeJson.toVec committed), .sync]
  | setCurrentSnapshot snap => [.put storeFamily (utf8 "snapshot") (SerdeJson.toVec snap), .sync]

/-- **An operation performs its effects**, and nothing else. -/
theorem run_eq (op : LogOp M) (w : Journal (LogEvent M)) :
    op.run w = (.ok (.ok ()), w.extend op.effects) := by
  cases op with
  | append entries => exact LogStore.append_run w entries
  | truncate logId => exact LogStore.truncate_run w logId
  | purge logId => exact LogStore.purge_run w logId
  | saveVote vote => exact setRecord_run w _ _ _ _
  | saveCommitted committed => exact setRecord_run w _ _ _ _
  | setCurrentSnapshot snap => exact setRecord_run w _ _ _ _

end LogOp

/-! ### The log that a database holds -/

section stored

variable [SerdeJson M]

/-- An entry as an item of the family. -/
def record (e : Entry M) : Bytes × Bytes := (idToBin e.index, SerdeJson.toVec e)

/-- The entries among the items of the family. -/
def entriesIn (M : Type) [SerdeJson M] (m : ColumnFamily) : List (Entry M) :=
  m.toList.filterMap fun item => SerdeJson.fromSlice item.2

/-- The last purged id among the records. -/
def purgedIn (m : ColumnFamily) : Option LogId :=
  (m[utf8 "last_purged_log_id"]?).bind SerdeJson.fromSlice

/-- The log that a database holds. -/
def logIn (w : Journal (LogEvent M)) : PurgedLog M :=
  ⟨purgedIn (w.column storeFamily), entriesIn M (w.column logsFamily)⟩

/-- Every item of the family is an entry under its index. -/
def Sound (M : Type) [SerdeJson M] (m : ColumnFamily) : Prop :=
  ∀ item ∈ m.toList, ∃ e : Entry M, item = record e

theorem sound_empty : Sound M (∅ : ColumnFamily) := by
  rintro ⟨k, v⟩ h
  rw [Std.ExtTreeMap.mem_toList_iff_getElem?_eq_some] at h
  simp at h

/-- The items of a sound family are its entries. -/
theorem Sound.toList_eq {m : ColumnFamily} (h : Sound M m) :
    m.toList = (entriesIn M m).map record := by
  rw [entriesIn]
  rw [Sound] at h
  generalize m.toList = items at h ⊢
  induction items with
  | nil => rfl
  | cons item items ih =>
    obtain ⟨e, rfl⟩ := h item List.mem_cons_self
    have hread : SerdeJson.fromSlice (record e).2 = some e := SerdeJson.fromSlice_toVec e
    rw [List.filterMap_cons]
    simp only [hread]
    rw [List.map_cons, ← ih fun item hi => h item (List.mem_cons_of_mem _ hi)]

/-- **The keys are ordered as the indices.** -/
theorem compare_idToBin (x y : UInt64) :
    compare (idToBin x) (idToBin y) = compare x.toNat y.toNat := compare_u64BE x y

theorem idToBin_injective : Function.Injective idToBin := fun x y h => by
  have hnat := congrArg beNat h
  rwa [idToBin, idToBin, beNat_u64BE, beNat_u64BE, UInt64.toNat_inj] at hnat

/-- The entries are in the order of their indices. -/
theorem Sound.sorted {m : ColumnFamily} (h : Sound M m) :
    (entriesIn M m).Pairwise fun e e' => e.index.toNat < e'.index.toNat := by
  have ho := m.ordered_keys_toList
  rw [h.toList_eq, List.pairwise_map] at ho
  refine ho.imp fun {e e'} hlt => ?_
  rwa [record, record, compare_idToBin, Nat.compare_eq_lt] at hlt

/-- An entry is listed when it is stored under its index. -/
theorem mem_entriesIn {m : ColumnFamily} (h : Sound M m) {e : Entry M} :
    e ∈ entriesIn M m ↔ m[idToBin e.index]? = some (SerdeJson.toVec e) := by
  rw [← Std.ExtTreeMap.mem_toList_iff_getElem?_eq_some, h.toList_eq, List.mem_map]
  constructor
  · exact fun he => ⟨e, he, rfl⟩
  · rintro ⟨e', he', hr⟩
    have hv : SerdeJson.toVec e' = SerdeJson.toVec e := (Prod.mk.inj hr).2
    have hee := congrArg (SerdeJson.fromSlice (α := Entry M)) hv
    rw [SerdeJson.fromSlice_toVec, SerdeJson.fromSlice_toVec, Option.some_inj] at hee
    rwa [← hee]

/-- **An entry above all others** is stored last. -/
theorem Sound.insert {m : ColumnFamily} (h : Sound M m) {e : Entry M}
    (habove : ∀ e' ∈ entriesIn M m, e'.index.toNat < e.index.toNat) :
    Sound M (m.insert (idToBin e.index) (SerdeJson.toVec e)) ∧
      entriesIn M (m.insert (idToBin e.index) (SerdeJson.toVec e)) = entriesIn M m ++ [e] := by
  have hlast : (m.insert (idToBin e.index) (SerdeJson.toVec e)).toList =
      (entriesIn M m ++ [e]).map record := by
    rw [OrdMap.toList_insert_of_forall_lt, h.toList_eq, List.map_append]
    · rfl
    · intro item hi
      rw [h.toList_eq] at hi
      obtain ⟨e', he', rfl⟩ := List.mem_map.mp hi
      rw [record, compare_idToBin, Nat.compare_eq_lt]
      exact habove e' he'
  refine ⟨fun item hi => ?_, ?_⟩
  · rw [hlast] at hi
    obtain ⟨e', -, rfl⟩ := List.mem_map.mp hi
    exact ⟨e', rfl⟩
  · rw [entriesIn, hlast, List.filterMap_map]
    simp [Function.comp_def, record]

/-- The contents of a family without a range of indices. -/
def withoutRange (m : ColumnFamily) (lo hi : UInt64) : ColumnFamily :=
  m.filter fun k _ => (compare k (idToBin lo)).isLT || (compare (idToBin hi) k).isLE

/-- **A range of indices is deleted**: the entries outside of it remain. -/
theorem Sound.withoutRange {m : ColumnFamily} (h : Sound M m) (lo hi : UInt64) :
    Sound M (withoutRange m lo hi) ∧ entriesIn M (withoutRange m lo hi) =
      (entriesIn M m).filter fun e => e.index < lo ∨ hi ≤ e.index := by
  have hrest : (Openraft.withoutRange m lo hi).toList =
      ((entriesIn M m).filter fun e => e.index < lo ∨ hi ≤ e.index).map record := by
    rw [Openraft.withoutRange, Std.ExtTreeMap.toList_filter, h.toList_eq, List.filter_map]
    congr 1
    refine List.filter_congr fun e _ => ?_
    simp only [Function.comp_apply, record, compare_idToBin, UInt64.lt_iff_toNat_lt,
      UInt64.le_iff_toNat_le]
    rw [Bool.eq_iff_iff]
    simp [Nat.isLE_compare, Nat.compare_eq_lt]
  refine ⟨fun item hi => ?_, ?_⟩
  · rw [hrest] at hi
    obtain ⟨e', -, rfl⟩ := List.mem_map.mp hi
    exact ⟨e', rfl⟩
  · rw [entriesIn, hrest, List.filterMap_map]
    simp [Function.comp_def, record]

/-! ### The readers -/

/-- What holds between two bounds of a sorted list is filtered by skipping what is below the first
and taking while it holds. -/
theorem filter_eq_takeWhile_dropWhile {α : Type} {P Q : α → Bool} {l : List α}
    (hQ : l.Pairwise fun x y => Q y → Q x) (hP : l.Pairwise fun x y => ¬ Q x → P y → P x)
    (hQP : ∀ x ∈ l, Q x → ¬ P x) : l.filter P = (l.dropWhile Q).takeWhile P := by
  have hP' : (l.filter fun x => !Q x).Pairwise fun x y => P y → P x := by
    refine (hP.filter _).imp_of_mem fun hx _ hxy => hxy ?_
    simpa using (List.mem_filter.mp hx).2
  rw [dropWhile_eq_filter hQ, takeWhile_eq_filter hP', List.filter_filter]
  refine List.filter_congr fun x hx => ?_
  by_cases hQx : Q x
  · simp [hQx, hQP x hx hQx]
  · simp [hQx]

/-- The index at which a range with a start bound begins. -/
def Bound.startIndex : Bound → UInt64
  | .included x => x
  | .excluded x => x + 1
  | .unbounded => 0

theorem startKey_eq (range : RangeBounds) :
    LogStore.startKey range = idToBin range.startBound.startIndex := by
  rcases range with ⟨_ | _ | _, _⟩ <;> rfl

/-- No index of a range is below its start. -/
theorem Bound.not_startsAt {b : Bound} {x : UInt64} (h : x < b.startIndex) :
    ¬ b.startsAt x := by
  cases b with
  | included s => simpa [startsAt, startIndex] using h
  | excluded s =>
    have hs := s.toNat_lt
    simp only [startIndex, UInt64.lt_iff_toNat_lt, UInt64.toNat_add] at h
    simp only [startsAt, UInt64.lt_iff_toNat_lt, decide_eq_true_eq]
    simp at h
    omega
  | unbounded => exact absurd h (by simp [startIndex])

/-- In a range that is not empty, every index from the start on is above the start bound. -/
theorem Bound.startsAt_of_not_lt {b : Bound} {x y : UInt64} (hx : ¬ x < b.startIndex)
    (hy : b.startsAt y) : b.startsAt x := by
  cases b with
  | included s => simpa [startsAt, startIndex] using hx
  | excluded s =>
    have hlt := y.toNat_lt
    simp only [startsAt, UInt64.lt_iff_toNat_lt, decide_eq_true_eq] at hy ⊢
    simp only [startIndex, UInt64.lt_iff_toNat_lt, UInt64.toNat_add] at hx
    simp at hx
    omega
  | unbounded => rfl

theorem Bound.endsAt_of_lt {b : Bound} {x y : UInt64} (hxy : x.toNat < y.toNat)
    (hy : b.endsAt y) : b.endsAt x := by
  cases b with
  | included e =>
    simp only [endsAt, UInt64.le_iff_toNat_le, decide_eq_true_eq] at hy ⊢
    omega
  | excluded e =>
    simp only [endsAt, UInt64.lt_iff_toNat_lt, decide_eq_true_eq] at hy ⊢
    omega
  | unbounded => rfl

theorem takeEntries_record (range : RangeBounds) (es : List (Entry M)) (w : Journal (LogEvent M)) :
    LogStore.takeEntries M range (es.map record) w =
      (.ok (.ok (es.takeWhile fun e => range.contains e.index)), w) := by
  induction es with
  | nil => rfl
  | cons e es ih =>
    rw [List.map_cons, record, LogStore.takeEntries, Program.bind_run_ok (binToId_idToBin _ _),
      List.takeWhile_cons]
    simp only [SerdeJson.fromSlice_toVec]
    rw [if_neg (by simp)]
    by_cases h : range.contains e.index
    · rw [if_pos h, Program.bind_run_ok ih]
      simp only [h]
      rfl
    · rw [if_neg h]
      simp only [h]
      rfl

/-- The items from the key of an index on are the entries from the index on. -/
theorem Sound.dropWhile_toList {m : ColumnFamily} (h : Sound M m) (start : UInt64) :
    m.toList.dropWhile (fun item => (compare item.1 (idToBin start)).isLT) =
      ((entriesIn M m).dropWhile fun e => e.index < start).map record := by
  rw [h.toList_eq, List.dropWhile_map]
  congr 1
  refine congrArg (fun p => List.dropWhile p _) (funext fun e => ?_)
  rw [Function.comp_apply, record, compare_idToBin, Bool.eq_iff_iff]
  simp [Nat.compare_eq_lt, UInt64.lt_iff_toNat_lt]

/-- **The reader of a range** returns the entries of the log with an index in it. -/
theorem tryGetLogEntries_run {w : Journal (LogEvent M)} (h : Sound M (w.column logsFamily))
    (range : RangeBounds) :
    LogStore.tryGetLogEntries M range w = (.ok (.ok ((logIn w).within range)), w) := by
  have hsort := h.sorted
  -- the iterator starts at the first key of the range
  have hskip := h.dropWhile_toList range.startBound.startIndex
  rw [← startKey_eq] at hskip
  -- and stops at the first entry behind it; the entries are sorted
  have htake : (logIn w).within range =
      ((entriesIn M (w.column logsFamily)).dropWhile
        fun e => e.index < range.startBound.startIndex).takeWhile
          fun e => range.contains e.index := by
    refine filter_eq_takeWhile_dropWhile ?_ ?_ fun e _ he => ?_
    · refine hsort.imp fun {e e'} hlt he => ?_
      simp only [UInt64.lt_iff_toNat_lt, decide_eq_true_eq] at he ⊢
      omega
    · refine hsort.imp fun {e e'} hlt he he' => ?_
      rw [RangeBounds.contains, Bool.and_eq_true] at he' ⊢
      exact ⟨Bound.startsAt_of_not_lt (by simpa using he) he'.1, Bound.endsAt_of_lt hlt he'.2⟩
    · rw [RangeBounds.contains, Bool.and_eq_true]
      exact fun hc => Bound.not_startsAt (by simpa using he) hc.1
  unfold LogStore.tryGetLogEntries
  rw [Program.bind_run_ok (Journal.iterate_run w logsFamily), hskip, takeEntries_record, htake]

/-- **The state of the log** as the reader gives it. -/
theorem getLogState_run {w : Journal (LogEvent M)} (h : Sound M (w.column logsFamily)) :
    LogStore.getLogState M w = (.ok (.ok (logIn w).state), w) := by
  have hlast : ((w.column logsFamily).toList.getLast?.bind fun item =>
      (SerdeJson.fromSlice item.2 : Option (Entry M)).map Entry.logId) =
        (entriesIn M (w.column logsFamily)).getLast?.map Entry.logId := by
    rw [h.toList_eq, List.getLast?_map]
    cases (entriesIn M (w.column logsFamily)).getLast? <;> simp [record]
  unfold LogStore.getLogState LogStore.getLastPurged
  rw [Program.bind_run_ok (Journal.iterate_run w logsFamily),
    Program.bind_run_ok (getRecord_run w LogId _ _)]
  simp only [hlast]
  rw [PurgedLog.state, PurgedLog.lastLogId]
  cases hl : (entriesIn M (w.column logsFamily)).getLast? <;> simp [logIn, hl, purgedIn]

/-! ### What the effects do to the log -/

/-- The database holds a log, and nothing else among the entries. -/
structure Holds (w : Journal (LogEvent M)) (log : PurgedLog M) : Prop where
  sound : Sound M (w.column logsFamily)
  log_eq : logIn w = log

namespace Holds

variable {w w' : Journal (LogEvent M)} {log : PurgedLog M}

theorem empty : Holds (Journal.empty : Journal (LogEvent M)) .empty where
  sound := sound_empty
  log_eq := by
    have hnil : (∅ : ColumnFamily).toList = [] := Std.ExtTreeMap.toList_eq_nil_iff.mpr rfl
    rw [logIn, Journal.column_empty, Journal.column_empty, entriesIn, hnil]
    simp [purgedIn, PurgedLog.empty]

theorem entries_eq (h : Holds w log) : entriesIn M (w.column logsFamily) = log.entries :=
  congrArg PurgedLog.entries h.log_eq

theorem purged_eq (h : Holds w log) : purgedIn (w.column storeFamily) = log.purged :=
  congrArg PurgedLog.purged h.log_eq

theorem sorted (h : Holds w log) :
    log.entries.Pairwise fun e e' => e.index.toNat < e'.index.toNat :=
  h.entries_eq ▸ h.sound.sorted

/-- What does not change the two families keeps the log. -/
theorem of_columns (h : Holds w log) (hl : w'.column logsFamily = w.column logsFamily)
    (hs : purgedIn (w'.column storeFamily) = purgedIn (w.column storeFamily)) : Holds w' log where
  sound := hl.symm ▸ h.sound
  log_eq := by
    rw [logIn, hl, hs]
    exact h.log_eq

theorem sync (h : Holds w log) : Holds (w.extend [.sync]) log := h.of_columns (by simp) (by simp)

theorem event (h : Holds w log) (e : LogEvent M) : Holds (w.extend [.event e]) log :=
  h.of_columns (by simp) (by simp)

/-- A record of another name keeps the log. -/
theorem putRecord (h : Holds w log) {key : String} (hk : key ≠ "last_purged_log_id") (v : Bytes) :
    Holds (w.extend [.put storeFamily (utf8 key) v]) log := by
  refine h.of_columns (Journal.column_extend_put_ne _ _ _ _ _ (by decide)) ?_
  rw [Journal.column_extend_put_self, purgedIn, purgedIn, OrdMap.lookup_insert_ne _ _ (by simpa)]

theorem setRecord (h : Holds w log) {key : String} (hk : key ≠ "last_purged_log_id") (v : Bytes) :
    Holds (w.extend [.put storeFamily (utf8 key) v, .sync]) log := by
  have hput := (h.putRecord hk v).sync
  rwa [Journal.extend_extend] at hput

/-- The record of the purged id. -/
theorem putPurged (h : Holds w log) (logId : LogId) :
    Holds (w.extend [.put storeFamily (utf8 "last_purged_log_id") (SerdeJson.toVec logId)])
      ⟨some logId, log.entries⟩ := by
  have hl : (w.extend [.put storeFamily (utf8 "last_purged_log_id")
      (SerdeJson.toVec logId)]).column logsFamily = w.column logsFamily :=
    Journal.column_extend_put_ne _ _ _ _ _ (by decide)
  refine ⟨hl.symm ▸ h.sound, ?_⟩
  rw [logIn, hl, h.entries_eq, Journal.column_extend_put_self, purgedIn, OrdMap.lookup_insert_self,
    Option.bind_some, SerdeJson.fromSlice_toVec]

/-- An entry above all others is appended. -/
theorem putEntry (h : Holds w log) {e : Entry M}
    (habove : ∀ e' ∈ log.entries, e'.index.toNat < e.index.toNat) :
    Holds (w.extend [LogStore.putEntry e]) (log.append [e]) := by
  obtain ⟨hsound, hentries⟩ := h.sound.insert (h.entries_eq ▸ habove)
  have hl : (w.extend [LogStore.putEntry e]).column logsFamily =
      (w.column logsFamily).insert (idToBin e.index) (SerdeJson.toVec e) :=
    Journal.column_extend_put_self _ _ _ _
  have hs : (w.extend [LogStore.putEntry e]).column storeFamily = w.column storeFamily :=
    Journal.column_extend_put_ne _ _ _ _ _ (by decide)
  refine ⟨hl.symm ▸ hsound, ?_⟩
  rw [logIn, hl, hs, hentries, h.entries_eq, h.purged_eq, PurgedLog.append]

/-- A range of indices is deleted. -/
theorem deleteRange (h : Holds w log) (lo hi : UInt64) :
    Holds (w.extend [.deleteRange logsFamily (idToBin lo) (idToBin hi)])
      { log with entries := log.entries.filter fun e => e.index < lo ∨ hi ≤ e.index } := by
  obtain ⟨hsound, hentries⟩ := h.sound.withoutRange lo hi
  have hl : (w.extend [.deleteRange logsFamily (idToBin lo) (idToBin hi)]).column logsFamily =
      withoutRange (w.column logsFamily) lo hi := by
    simp [Journal.column_extend, Effect.on, withoutRange]
  have hs : (w.extend [.deleteRange logsFamily (idToBin lo) (idToBin hi)]).column storeFamily =
      w.column storeFamily := Journal.column_extend_deleteRange_ne _ _ _ _ _ (by decide)
  refine ⟨hl.symm ▸ hsound, ?_⟩
  rw [logIn, hl, hs, hentries, h.entries_eq, h.purged_eq]

/-- A batch above all other entries is appended entry by entry. -/
theorem putEntries (h : Holds w log) {es : List (Entry M)} {start : ℕ}
    (hes : Consecutive start es) (habove : ∀ e ∈ log.entries, e.index.toNat < start) :
    Holds (w.extend (es.map LogStore.putEntry)) (log.append es) := by
  induction es generalizing w log start with
  | nil =>
    rw [List.map_nil, Journal.extend_nil, PurgedLog.append, List.append_nil]
    exact h
  | cons e es ih =>
    rw [Consecutive, List.map_cons, List.length_cons, List.range'_succ] at hes
    obtain ⟨he, hes⟩ := List.cons.inj hes
    have hput := h.putEntry (e := e) fun e' he' => he.symm ▸ habove e' he'
    have hrest := ih hput hes fun e' he' => by
      rcases List.mem_append.mp he' with he' | he'
      · exact Nat.lt_succ_of_lt (habove e' he')
      · rw [List.mem_singleton.mp he', he]
        exact Nat.lt_succ_self start
    rwa [Journal.extend_extend, PurgedLog.append, PurgedLog.append, List.append_assoc] at hrest

end Holds

end stored

end PlacementCenter.Openraft
