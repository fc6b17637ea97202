import PlacementCenter.Storage.StoreEffects

/-!
# The store the raft crate sees

The wrapper of the log store that implements the raft crate's `Storage`. The mutators report
success whatever the log store returned.

## Main definitions

* `RaftRocksDBStorage.applySnapshot`, `append`, `commmitIndex`, `setHardState`,
  `setHardStateComit`, `setConfState`, `createSnapshot`: the mutators of `raft/storage.rs`
* `RaftRocksDBStorage.initialState`, `entries`, `term`, `firstIndex`, `lastIndex`, `snapshot`: the
  methods of `Storage`

## Main results

* `RaftRocksDBStorage.term_run`: the four sources of the term of an index
-/

namespace PlacementCenter.Raft.RaftRocksDBStorage

open Rust Storage

variable {σ : Type} [RocksDb σ] (core : RaftMachineStorage)

/-! ### Mutators -/

def applySnapshot (snapshot : Snapshot) : Program σ (RaftResult Unit × RaftMachineStorage) := do
  let (_, core) ← core.applySnapshot snapshot
  return (.ok (), core)

def append (entrys : List Entry) : Program σ (RaftResult Unit × RaftMachineStorage) := do
  let (_, core) ← core.append entrys
  return (.ok (), core)

def commmitIndex (idx : UInt64) : Program σ (RaftResult Unit × RaftMachineStorage) := do
  let (_, core) ← core.commmitIndex idx
  return (.ok (), core)

def setHardState (hs : HardState) : Program σ (RaftResult Unit) := do
  let _ ← RaftMachineStorage.saveHardState hs
  return .ok ()

def setHardStateComit (hs : UInt64) : Program σ (RaftResult Unit) := do
  let _ ← RaftMachineStorage.setHardStateCommit hs
  return .ok ()

def setConfState (cs : ConfState) : Program σ (RaftResult Unit) := do
  let _ ← RaftMachineStorage.saveConfState cs
  return .ok ()

def createSnapshot : Program σ (RaftResult Unit × RaftMachineStorage) := do
  let core ← core.createSnapshot
  return (.ok (), core)

/-! ### The methods of `Storage` -/

def initialState : Program σ (RaftResult RaftState) := do
  return .ok (← RaftMachineStorage.raftState)

/-- The indices from `low` to `high`, both included. -/
def indexRange (low high : UInt64) : List UInt64 :=
  (List.range' low.toNat (high.toNat + 1 - low.toNat)).map UInt64.ofNat

/-- One iteration of the loop of `entries`: an index without an entry is skipped. -/
def pushEntry (entryList : List Entry) (idx : UInt64) : Program σ (List Entry) := do
  match ← RaftMachineStorage.entryByIdx idx with
  | none => return entryList
  | some e => return entryList ++ [e]

/-- The bounds on the size of the result are not used. -/
def entries (low high : UInt64) : Program σ (RaftResult (List Entry)) := do
  if low < (← core.firstIndex) then
    return .error (.store .compacted)
  else
    let last ← core.lastIndex
    if high > last + 1 then
      Program.panic s!"index out of bound (last: {last + 1}, high: {high})"
    else
      let entryList ← (indexRange low high).foldlM pushEntry []
      return .ok entryList

/-- The term of the entry `idx`. -/
def term (idx : UInt64) : Program σ (RaftResult UInt64) := do
  if idx = core.snapshotMetadata.index then
    -- the index, where the term is asked for
    return .ok core.snapshotMetadata.index
  else if idx < (← core.firstIndex) then
    return .error (.store .compacted)
  else if idx > (← core.lastIndex) then
    return .error (.store .unavailable)
  else
    match ← RaftMachineStorage.entryByIdx idx with
    | some value => return .ok value.term
    | none => return .ok core.snapshotMetadata.term

def firstIndex : Program σ (RaftResult UInt64) := do
  return .ok (← core.firstIndex)

def lastIndex : Program σ (RaftResult UInt64) := do
  return .ok (← core.lastIndex)

/-- The most recent snapshot; its index is raised to the requested one. -/
def snapshot (requestIndex : UInt64) : Program σ (RaftResult Snapshot × RaftMachineStorage) := do
  if core.triggerSnapUnavailable then
    return (.error (.store .snapshotTemporarilyUnavailable), core)
  else
    let (snap, core) ← core.snapshot
    if snap.getMetadata.index < requestIndex then
      -- the contents stay those of the lower index
      return (.ok { snap with metadata := some { snap.getMetadata with index := requestIndex } },
        core)
    else
      return (.ok snap, core)

/-! ### The store on a world -/

variable {ε : Type}

/-- **The four sources of a term**: the index of the snapshot, the two bounds and the entry. -/
theorem term_run (idx : UInt64) (w : World ε) :
    term core idx w =
      if idx = core.snapshotMetadata.index then (.ok (.ok core.snapshotMetadata.index), w)
      else if idx < firstIndexIn core (cluster w) then (.ok (.error (.store .compacted)), w)
      else if lastIndexIn core (cluster w) < idx then (.ok (.error (.store .unavailable)), w)
      else match entryIn (cluster w) idx with
        | some (some e) => (.ok (.ok e.term), w)
        | some none => (.ok (.ok core.snapshotMetadata.term), w)
        | none => (.panicked "called Result::unwrap() on an Err value", w) := by
  unfold term
  split_ifs with hs hf hl
  · rfl
  · rw [Program.bind_run_ok (RaftMachineStorage.firstIndex_run core w), if_pos hf]
    rfl
  · rw [Program.bind_run_ok (RaftMachineStorage.firstIndex_run core w), if_neg hf,
      Program.bind_run_ok (RaftMachineStorage.lastIndex_run core w), if_pos hl]
    rfl
  · rw [Program.bind_run_ok (RaftMachineStorage.firstIndex_run core w), if_neg hf,
      Program.bind_run_ok (RaftMachineStorage.lastIndex_run core w), if_neg hl, Program.bind_run,
      RaftMachineStorage.entryByIdx_run]
    rcases entryIn (cluster w) idx with _ | _ | e <;> rfl

end PlacementCenter.Raft.RaftRocksDBStorage
