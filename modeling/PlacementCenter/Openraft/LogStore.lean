import PlacementCenter.Openraft.Types
import PlacementCenter.Rust.Journal

/-!
# The log store of the openraft group

The functions of `openraft/store/log_store.rs`: the entries of the log, under their big-endian
indices, in the family `_raft_logs`; the vote, the committed id and the last purged id in the family
`_raft_store`.

## Main definitions

* `idToBin`, `binToId`: the keys of the entries
* `RangeBounds`: a range of indices
* `LogStore.tryGetLogEntries`, `getLogState`: the readers
* `LogStore.append`, `truncate`, `purge`, `saveVote`, `saveCommitted`: the writers

## Main results

* `LogStore.append_run`, `truncate_run`, `purge_run`: the effects of the writers
-/

namespace PlacementCenter.Openraft

open Rust

/-- The family of the records. -/
def storeFamily : String := "_raft_store"

/-- The family of the entries. -/
def logsFamily : String := "_raft_logs"

/-- `id_to_bin`. -/
def idToBin (id : UInt64) : Bytes := u64BE id

/-- `bin_to_id`: a key of fewer than eight bytes panics. -/
def binToId {σ : Type} (buf : Bytes) : Program σ UInt64 :=
  if buf.length < 8 then
    Program.panic ("range end index 8 out of range for slice of length " ++ toString buf.length)
  else pure (UInt64.ofNat (beNat (buf.take 8)))

theorem binToId_idToBin {σ : Type} (id : UInt64) (s : σ) :
    binToId (idToBin id) s = (.ok id, s) := by
  have htake : (u64BE id).take 8 = u64BE id := List.take_of_length_le (by simp)
  rw [binToId, idToBin, if_neg (by simp), htake, beNat_u64BE, UInt64.ofNat_toNat]
  rfl

/-! ### Ranges -/

/-- `std::ops::Bound`. -/
inductive Bound where
  | included (x : UInt64)
  | excluded (x : UInt64)
  | unbounded
  deriving DecidableEq, Repr

/-- A range of indices, by its bounds. -/
structure RangeBounds where
  startBound : Bound
  endBound : Bound
  deriving DecidableEq, Repr

/-- An index is not below a start bound. -/
def Bound.startsAt (b : Bound) (x : UInt64) : Bool :=
  match b with
  | .included s => decide (s ≤ x)
  | .excluded s => decide (s < x)
  | .unbounded => true

/-- An index is not above an end bound. -/
def Bound.endsAt (b : Bound) (x : UInt64) : Bool :=
  match b with
  | .included e => decide (x ≤ e)
  | .excluded e => decide (x < e)
  | .unbounded => true

/-- `RangeBounds::contains`. -/
def RangeBounds.contains (r : RangeBounds) (x : UInt64) : Bool :=
  r.startBound.startsAt x && r.endBound.endsAt x

/-- What the store announces: `IOFlushed::io_completed(Ok(()))` for a batch of entries. -/
inductive LogEvent (M : Type) where
  | ioCompleted (entries : List (Entry M))

/-! ### The records -/

section records

variable {σ : Type} [RocksDb σ]

/-- `flush` of both stores: the write-ahead log is synced. -/
def flush (subject : ErrorSubject) (verb : ErrorVerb) : Program σ (StorageResult Unit) := do
  return (← RocksDb.flushWal).mapError fun e => ⟨subject, verb, e⟩

/-- A record is read; bytes that cannot be read count as no record. -/
def getRecord (α : Type) [SerdeJson α] (key : String) (err : String → StorageError) :
    Program σ (StorageResult (Option α)) := do
  return ((← RocksDb.getCf storeFamily (utf8 key)).mapError err).map
    fun v => v.bind SerdeJson.fromSlice

/-- A record is written, and the write-ahead log flushed. -/
def setRecord {α : Type} [SerdeJson α] (key : String) (value : α) (err : String → StorageError)
    (subject : ErrorSubject) : Program σ (StorageResult Unit) := do
  match ← RocksDb.putCf storeFamily (utf8 key) (SerdeJson.toVec value) with
  | .error e => return .error (err e)
  | .ok () => flush subject .write

variable {ε : Type} (w : Journal ε)

theorem setRecord_run {α : Type} [SerdeJson α] (key : String) (value : α)
    (err : String → StorageError) (subject : ErrorSubject) :
    setRecord key value err subject w = (.ok (.ok ()),
      w.extend [.put storeFamily (utf8 key) (SerdeJson.toVec value), .sync]) := by
  unfold setRecord
  rw [Program.bind_run_ok (Journal.putCf_run w _ _ _)]
  simp only
  unfold flush
  rw [Program.bind_run_ok (Journal.flushWal_run _), Journal.extend_extend]
  rfl

theorem getRecord_run (α : Type) [SerdeJson α] (key : String) (err : String → StorageError) :
    getRecord α key err w =
      (.ok (.ok (((w.column storeFamily)[utf8 key]?).bind SerdeJson.fromSlice)), w) := rfl

end records

namespace LogStore

variable {σ : Type} [RocksDb σ] {M : Type} [SerdeJson M]

/-- `get_last_purged_`. -/
def getLastPurged : Program σ (StorageResult (Option LogId)) :=
  getRecord LogId "last_purged_log_id" .read

/-- `set_last_purged_`. -/
def setLastPurged (logId : LogId) : Program σ (StorageResult Unit) :=
  setRecord "last_purged_log_id" logId .write .store

/-- `set_committed_`. -/
def setCommitted (committed : Option LogId) : Program σ (StorageResult Unit) :=
  setRecord "committed" committed .write .store

/-- `get_committed_`: the stored text is that of an optional id. -/
def getCommitted : Program σ (StorageResult (Option LogId)) :=
  getRecord LogId "committed" .read

/-- `set_vote_`. -/
def setVote (vote : Vote) : Program σ (StorageResult Unit) :=
  setRecord "vote" vote .writeVote .vote

/-- `get_vote_`: a failed read is reported as a failed write. -/
def getVote : Program σ (StorageResult (Option Vote)) := getRecord Vote "vote" .writeVote

/-! ### The readers -/

/-- The key at which a range starts. The increment wraps, as in a release build. -/
def startKey (range : RangeBounds) : Bytes :=
  match range.startBound with
  | .included x => idToBin x
  | .excluded x => idToBin (x + 1)
  | .unbounded => idToBin 0

/-- The entries that the iterator yields, as long as they are in the range. Every item, the first
one outside of the range included, is decoded and its index compared with its key; an item that
cannot be decoded fails the comparison. -/
def takeEntries (M : Type) [SerdeJson M] (range : RangeBounds) :
    List (Bytes × Bytes) → Program σ (StorageResult (List (Entry M)))
  | [] => return .ok []
  | (key, val) :: items => do
    let id ← binToId key
    match (SerdeJson.fromSlice val : Option (Entry M)) with
    | none => Program.panic "assertion left == right failed"
    | some entry =>
      if id ≠ entry.index then Program.panic "assertion left == right failed"
      else if range.contains id then
        return (← takeEntries M range items).map fun entries => entry :: entries
      else return .ok []

/-- `try_get_log_entries`. -/
def tryGetLogEntries (M : Type) [SerdeJson M] (range : RangeBounds) :
    Program σ (StorageResult (List (Entry M))) := do
  let items ← RocksDb.iterate logsFamily
  takeEntries M range (items.dropWhile fun item => (compare item.1 (startKey range)).isLT)

/-- `read_vote`. -/
def readVote : Program σ (StorageResult (Option Vote)) := getVote

/-- `get_log_state`. The last item of the family gives the last log id; one that cannot be decoded
counts as none. -/
def getLogState (M : Type) [SerdeJson M] : Program σ (StorageResult LogState) := do
  let items ← RocksDb.iterate logsFamily
  let last := items.getLast?.bind fun item =>
    (SerdeJson.fromSlice item.2 : Option (Entry M)).map Entry.logId
  match ← getLastPurged with
  | .error e => return .error e
  | .ok lastPurgedLogId =>
    let lastLogId := match last with
      | none => lastPurgedLogId
      | some x => some x
    return .ok ⟨lastPurgedLogId, lastLogId⟩

/-- `read_committed`. -/
def readCommitted : Program σ (StorageResult (Option LogId)) := getCommitted

/-! ### The writers -/

/-- `save_committed`. -/
def saveCommitted (committed : Option LogId) : Program σ (StorageResult Unit) :=
  setCommitted committed

/-- `save_vote`. -/
def saveVote (vote : Vote) : Program σ (StorageResult Unit) := setVote vote

/-- The loop of `append`: one write for each entry. -/
def putEntries : List (Entry M) → Program σ (StorageResult Unit)
  | [] => return .ok ()
  | entry :: entries => do
    let id := idToBin entry.index
    if (← binToId id) ≠ entry.index then Program.panic "assertion left == right failed"
    else
      match ← RocksDb.putCf logsFamily id (SerdeJson.toVec entry) with
      | .error e => return .error (.writeLogs e)
      | .ok () => putEntries entries

/-- `append`. -/
def append [Observed σ (LogEvent M)] (entries : List (Entry M)) :
    Program σ (StorageResult Unit) := do
  match ← putEntries entries with
  | .error e => return .error e
  | .ok () =>
    Observed.emit (.ioCompleted entries)
    return .ok ()

/-- `truncate`: the entries from the id on are deleted. -/
def truncate (logId : LogId) : Program σ (StorageResult Unit) := do
  let fromKey := idToBin logId.index
  let toKey := idToBin 0xffffffffffffffff
  return (← RocksDb.deleteRangeCf logsFamily fromKey toKey).mapError .writeLogs

/-- `purge`: the id is recorded, then the entries up to it are deleted. -/
def purge (logId : LogId) : Program σ (StorageResult Unit) := do
  match ← setLastPurged logId with
  | .error e => return .error e
  | .ok () =>
    let fromKey := idToBin 0
    let toKey := idToBin (logId.index + 1)
    return (← RocksDb.deleteRangeCf logsFamily fromKey toKey).mapError .writeLogs

/-! ### The effects of the writers -/

/-- The effect that stores an entry. -/
def putEntry (e : Entry M) : Effect (LogEvent M) :=
  .put logsFamily (idToBin e.index) (SerdeJson.toVec e)

variable (w : Journal (LogEvent M))

@[simp] theorem putEntries_run (entries : List (Entry M)) :
    putEntries entries w = (.ok (.ok ()), w.extend (entries.map putEntry)) := by
  induction entries generalizing w with
  | nil => simp [putEntries]
  | cons e es ih =>
    unfold putEntries
    rw [Program.bind_run_ok (binToId_idToBin e.index w), if_neg (by simp),
      Program.bind_run_ok (Journal.putCf_run w _ _ _)]
    simp only
    rw [ih, Journal.extend_extend]
    rfl

@[simp] theorem append_run (entries : List (Entry M)) :
    append entries w =
      (.ok (.ok ()), w.extend (entries.map putEntry ++ [.event (.ioCompleted entries)])) := by
  unfold append
  rw [Program.bind_run_ok (putEntries_run w entries)]
  simp only
  rw [Program.bind_run_ok (Journal.emit_run _ _), Journal.extend_extend]
  rfl

omit [SerdeJson M] in
@[simp] theorem truncate_run (logId : LogId) :
    truncate logId w = (.ok (.ok ()),
      w.extend [.deleteRange logsFamily (idToBin logId.index) (idToBin 0xffffffffffffffff)]) := rfl

omit [SerdeJson M] in
@[simp] theorem purge_run (logId : LogId) :
    purge logId w = (.ok (.ok ()), w.extend
      [.put storeFamily (utf8 "last_purged_log_id") (SerdeJson.toVec logId), .sync,
        .deleteRange logsFamily (idToBin 0) (idToBin (logId.index + 1))]) := by
  unfold purge setLastPurged
  rw [Program.bind_run_ok (setRecord_run w _ _ _ _)]
  simp only
  rw [Program.bind_run_ok (Journal.deleteRangeCf_run _ _ _ _), Journal.extend_extend]
  rfl

end LogStore

end PlacementCenter.Openraft
