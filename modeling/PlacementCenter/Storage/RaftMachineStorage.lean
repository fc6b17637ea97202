import PlacementCenter.Rust.Bincode
import PlacementCenter.Raft.Eraftpb
import PlacementCenter.Storage.Keys
import PlacementCenter.Storage.RocksDBEngine

/-!
# The log store of the raft crate

The log, the hard state, the configuration and the snapshot of a node, kept as records of the
`cluster` column family. Arithmetic on indices wraps, as it does in a release build.

## Main definitions

* `RaftMachineStorage`: the part of the store that is kept in memory
* `RaftMachineStorage.append`, `commmitIndex`, `saveHardState`, `createSnapshot`,
  `applySnapshot`, …: the operations of `storage/raft.rs`
-/

namespace PlacementCenter.Storage

open Rust Rust.Prost Raft

/-- The part of the log store that is kept in memory. -/
structure RaftMachineStorage where
  uncommitIndex : HashMap UInt64 Int8
  triggerSnapUnavailable : Bool
  snapshotMetadata : SnapshotMetadata

/-- The dump of the database. -/
abbrev Dump := HashMap String (List (HashMap String String))

variable {σ : Type} [RocksDb σ]

/-- A `Vec<u8>` with the given content. -/
def allocate (b : Bytes) : Program σ ByteVec :=
  match ByteVec.ofBytes b with
  | some v => pure v
  | none => Program.panic "capacity overflow"

namespace RaftMachineStorage

/-! ### Records -/

def saveConfState (cs : ConfState) : Program σ (Except String Unit) :=
  RocksDBEngine.write dbColumnFamilyCluster keyNameByConfState (encodeToVec cs)

def hardState : Program σ HardState := do
  let value ← Program.expectOk
    (← RocksDBEngine.read Bytes dbColumnFamilyCluster keyNameByHardState)
  match value with
  | none => return HardState.default
  | some value => Program.unwrapOk (decode value)

def confState : Program σ ConfState := do
  let value ← Program.expectOk
    (← RocksDBEngine.read Bytes dbColumnFamilyCluster keyNameByConfState)
  match value with
  | none => return ConfState.default
  | some value => Program.unwrapOk (decode value)

def raftState : Program σ RaftState := do
  let shs ← hardState
  let scs ← confState
  return ⟨shs, scs⟩

/-- The index of the first entry; without a record, the one after the snapshot. -/
def firstIndex (self : RaftMachineStorage) : Program σ UInt64 := do
  match ← RocksDBEngine.read UInt64 dbColumnFamilyCluster keyNameByFirstIndex with
  | .ok (some fi) => return fi
  | .ok none => return self.snapshotMetadata.index + 1
  | .error _ => return self.snapshotMetadata.index + 1

/-- The index of the last entry; without a record, that of the snapshot. -/
def lastIndex (self : RaftMachineStorage) : Program σ UInt64 := do
  match ← RocksDBEngine.read UInt64 dbColumnFamilyCluster keyNameByLastIndex with
  | .ok (some li) => return li
  | .ok none => return self.snapshotMetadata.index
  | .error _ => return self.snapshotMetadata.index

def entryByIdx (idx : UInt64) : Program σ (Option Entry) := do
  match ← RocksDBEngine.read Bytes dbColumnFamilyCluster (keyNameByEntry idx) with
  | .ok (some vl) => return some (← Program.unwrapOk (decode vl))
  | .ok none => return none
  | .error _ => return none

def saveLastIndex (index : UInt64) : Program σ (Except String Unit) :=
  RocksDBEngine.write dbColumnFamilyCluster keyNameByLastIndex index

def saveFirstIndex (index : UInt64) : Program σ (Except String Unit) :=
  RocksDBEngine.write dbColumnFamilyCluster keyNameByFirstIndex index

def saveHardState (hs : HardState) : Program σ (Except String Unit) :=
  RocksDBEngine.write dbColumnFamilyCluster keyNameByHardState (encodeToVec hs)

def setHardStateCommit (commit : UInt64) : Program σ (Except String Unit) := do
  let hs ← hardState
  saveHardState { hs with commit := commit }

/-- Write the uncommitted indices; a failure is ignored. -/
def saveUncommitIndex (self : RaftMachineStorage) : Program σ Unit := do
  let val := Bincode.serialize self.uncommitIndex
  let _ ← RocksDBEngine.write dbColumnFamilyCluster keyNameUncommit val

/-- Write the snapshot; a failure is ignored. -/
def saveSnapshotData (snapshot : Snapshot) : Program σ Unit := do
  let _ ← RocksDBEngine.write dbColumnFamilyCluster keyNameSnapshot (encodeToVec snapshot)

/-- The uncommitted indices, as they were last written. -/
def readUncommitIndex : Program σ (HashMap UInt64 Int8) := do
  match ← RocksDBEngine.read Bytes dbColumnFamilyCluster keyNameUncommit with
  | .ok (some value) => return (Bincode.deserialize value).getD ∅
  | .ok none => return ∅
  | .error _ => return ∅

/-! ### The log -/

/-- One iteration of the loop of `append`. -/
def appendEntry (self : RaftMachineStorage) (entry : Entry) : Program σ RaftMachineStorage := do
  let data := encodeToVec entry
  Program.expectOk
    (← RocksDBEngine.write dbColumnFamilyCluster (keyNameByEntry entry.index) data)
  let self := { self with uncommitIndex := self.uncommitIndex.insert entry.index 1 }
  -- the last index is written with every entry
  Program.expectOk (← saveLastIndex entry.index)
  return self

def append (self : RaftMachineStorage) (entrys : List Entry) :
    Program σ (RaftResult Unit × RaftMachineStorage) := do
  match entrys with
  | [] => return (.ok (), self)
  | e :: es =>
    let entryFirstIndex := e.index
    let firstIndex ← self.firstIndex
    -- entries from the first index on may be replaced
    if firstIndex > entryFirstIndex then
      Program.panic s!"overwrite compacted raft logs, compacted: {firstIndex - 1}, append: {entryFirstIndex}"
    else
      let lastIndex ← self.lastIndex
      if lastIndex + 1 < entryFirstIndex then
        Program.panic s!"raft logs should be continuous, last index: {lastIndex}, new appended: {entryFirstIndex}"
      else
        let self ← (e :: es).foldlM appendEntry self
        self.saveUncommitIndex
        return (.ok (), self)

/-- Mark an entry as committed. The entry is unwrapped after the uncommitted indices were
written. -/
def commmitIndex (self : RaftMachineStorage) (idx : UInt64) :
    Program σ (RaftResult Unit × RaftMachineStorage) := do
  let entry ← entryByIdx idx
  let self := { self with uncommitIndex := self.uncommitIndex.erase idx }
  self.saveUncommitIndex
  let hs ← hardState
  let hs := { hs with commit := idx }
  let entry ← Program.unwrap entry
  let hs := { hs with term := entry.term }
  let _ ← saveHardState hs
  return (.ok (), self)

/-! ### Snapshots -/

def createSnapshotMetadata : Program σ SnapshotMetadata := do
  let hardState ← hardState
  let confState ← confState
  return { confState := some confState, index := hardState.commit, term := hardState.term }

/-- The snapshot `create_snapshot` builds. -/
def newSnapshot : Program σ Snapshot := do
  let metadata ← createSnapshotMetadata
  let allData ← RocksDBEngine.readAll
  let data ← allocate (Bincode.serialize allData)
  return { data := data, metadata := some metadata }

def createSnapshot (self : RaftMachineStorage) : Program σ RaftMachineStorage := do
  let sns ← newSnapshot
  -- the entries below the first index are kept: `todo clear`
  let _ ← saveFirstIndex sns.getMetadata.index
  saveSnapshotData sns
  return { self with snapshotMetadata := sns.getMetadata }

/-- The snapshot that was last written. -/
def storedSnapshot : Program σ Snapshot := do
  let value ← Program.expectOk
    (← RocksDBEngine.read Bytes dbColumnFamilyCluster keyNameSnapshot)
  match value with
  | none => return Snapshot.default
  | some value => Program.unwrapOk (decode value)

def snapshot (self : RaftMachineStorage) : Program σ (Snapshot × RaftMachineStorage) := do
  let self ← self.createSnapshot
  return (← storedSnapshot, self)

/-- The texts of a dump, in the order in which they are written back. -/
def dumpPairs (dump : Dump) : List (String × String) :=
  dump.toList.flatMap fun family => family.2.flatMap fun raw => raw.toList

/-- One iteration of the loop of `write_all`: a failing write is only logged. -/
def writeText (_ : Unit) (p : String × String) : Program σ Unit := do
  let _ ← RocksDBEngine.writeStr dbColumnFamilyCluster p.1 p.2

/-- Write the texts of a dump. -/
def writeAll (data : Bytes) : Program σ Unit := do
  if data.length = 0 then return ()
  else
    match Bincode.deserialize (α := Dump) data with
    | some dump => (dumpPairs dump).foldlM writeText ()
    | none => return ()

/-- Overwrites the contents of the store with those of the given snapshot. -/
def applySnapshot (self : RaftMachineStorage) (snapshot : Snapshot) :
    Program σ (RaftResult Unit × RaftMachineStorage) := do
  let metadata := snapshot.getMetadata
  let index := metadata.index
  if (← self.firstIndex) > index then
    return (.error (.store .snapshotOutOfDate), self)
  else
    -- the metadata are taken over before the payload is restored
    let self := { self with snapshotMetadata := metadata }
    writeAll snapshot.data
    -- read back after the restore, which may have replaced it
    let hs ← hardState
    let hs := { hs with term := max hs.term metadata.term, commit := index }
    let _ ← saveHardState hs
    let _ ← saveConfState (metadata.confState.getD ConfState.default)
    return (.ok (), self)

/-- `RaftMachineStorage::new`: the store over the contents of the database. -/
def new : Program σ RaftMachineStorage := do
  let rc : RaftMachineStorage :=
    { uncommitIndex := ∅, triggerSnapUnavailable := false, snapshotMetadata := .default }
  let rc := { rc with uncommitIndex := ← readUncommitIndex }
  -- the metadata of the stored hard state, not of the stored snapshot
  let rc := { rc with snapshotMetadata := ← createSnapshotMetadata }
  return rc

end RaftMachineStorage

end PlacementCenter.Storage
