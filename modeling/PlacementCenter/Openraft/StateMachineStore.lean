import PlacementCenter.Openraft.LogStore
import PlacementCenter.Rust.Shared

/-!
# The state machine of the openraft group

The functions of `openraft/store/state_machine_store.rs`. The map of the state machine is shared: a
builder is a copy of the store that holds the same map, with the position it was copied at.

## Main definitions

* `StateMachineStore`, `StateMachineData`: the position of the state machine and the pointer to its
  map
* `StateMachineStore.apply`, `getSnapshotBuilder`, `buildSnapshot`, `installSnapshot`, `new`
-/

namespace PlacementCenter.Openraft

open Rust

/-- The map of the state machine. -/
abbrev Kvs := BTreeMap String String

structure StateMachineData (M : Type) where
  lastAppliedLogId : Option LogId
  lastMembership : StoredMembership M
  kvs : Arc
  deriving DecidableEq, Repr

structure StateMachineStore (M : Type) where
  data : StateMachineData M
  snapshotIdx : UInt64
  deriving DecidableEq, Repr

/-- `openraft::Snapshot`. -/
structure Snapshot (M : Type) where
  metadata : SnapshotMeta M
  snapshot : Bytes
  deriving DecidableEq, Repr

namespace StateMachineStore

variable {σ : Type} [RocksDb σ] [Shared σ Kvs] {M : Type} [SerdeJson M]

/-- `get_current_snapshot_`. -/
def currentSnapshot (M : Type) [SerdeJson M] : Program σ (StorageResult (Option (StoredSnapshot M))) :=
  getRecord (StoredSnapshot M) "snapshot" .read

/-- `set_current_snapshot_`. -/
def setCurrentSnapshot (snap : StoredSnapshot M) : Program σ (StorageResult Unit) :=
  setRecord "snapshot" snap (.writeSnapshot (some snap.metadata.signature))
    (.snapshot (some snap.metadata.signature))

/-- `update_state_machine_`. -/
def updateStateMachine (core : StateMachineStore M) (snapshot : StoredSnapshot M) :
    Program σ (StorageResult Unit × StateMachineStore M) := do
  match (SerdeJson.fromSlice snapshot.data : Option Kvs) with
  | none =>
    return (.error (.readSnapshot (some snapshot.metadata.signature)
      ("Failed to deserialize: " ++ toString snapshot.data)), core)
  | some kvs =>
    -- in the cell that the builders share
    Shared.write core.data.kvs kvs
    return (.ok (), { core with data := { core.data with
      lastAppliedLogId := snapshot.metadata.lastLogId
      lastMembership := snapshot.metadata.lastMembership } })

/-- `StateMachineStore::new`. -/
def new (M : Type) [SerdeJson M] [Inhabited M] :
    Program σ (StorageResult (StateMachineStore M)) := do
  let kvs ← Shared.alloc (∅ : Kvs)
  let core : StateMachineStore M := ⟨⟨none, default, kvs⟩, 0⟩
  match ← currentSnapshot M with
  | .error e => return .error e
  | .ok none => return .ok core
  | .ok (some snap) =>
    match ← updateStateMachine core snap with
    | (.error e, _) => return .error e
    | (.ok (), core) => return .ok core

/-- The id of a snapshot of the store. -/
def snapshotId (core : StateMachineStore M) : String :=
  match core.data.lastAppliedLogId with
  | some last => last.leaderId.display ++ "-" ++ toString last.index.toNat ++ "-" ++
      toString core.snapshotIdx.toNat
  | none => "--" ++ toString core.snapshotIdx.toNat

/-- The metadata of a snapshot of the store. -/
def snapshotMeta (core : StateMachineStore M) : SnapshotMeta M :=
  ⟨core.data.lastAppliedLogId, core.data.lastMembership, core.snapshotId⟩

/-- The end of `build_snapshot`, once the map was read. -/
def storeSnapshot (core : StateMachineStore M) (kvs : Kvs) :
    Program σ (StorageResult (Snapshot M)) := do
  let kvJson := SerdeJson.toVec kvs
  match ← setCurrentSnapshot ⟨core.snapshotMeta, kvJson⟩ with
  | .error e => return .error e
  | .ok () => return .ok ⟨core.snapshotMeta, kvJson⟩

/-- `build_snapshot`: the map is read under its lock, and the snapshot stored. -/
def buildSnapshot (core : StateMachineStore M) : Program σ (StorageResult (Snapshot M)) := do
  core.storeSnapshot (← Shared.read core.data.kvs)

/-- `applied_state`. -/
def appliedState (core : StateMachineStore M) : Option LogId × StoredMembership M :=
  (core.data.lastAppliedLogId, core.data.lastMembership)

/-- One iteration of `apply`. -/
def applyEntry (core : StateMachineStore M) (ent : Entry M) :
    Program σ (AppResponseData × StateMachineStore M) := do
  -- the position is taken over first
  let core := { core with data := { core.data with lastAppliedLogId := some ent.logId } }
  match ent.payload with
  | .blank => return (⟨none⟩, core)
  | .normal (.set key value) =>
    let st ← Shared.read core.data.kvs
    Shared.write core.data.kvs (st.insert key value)
    return (⟨some value⟩, core)
  | .normal (.delete key) =>
    let st ← Shared.read core.data.kvs
    Shared.write core.data.kvs (st.erase key)
    return (⟨none⟩, core)
  | .membership mem =>
    return (⟨none⟩, { core with data := { core.data with
      lastMembership := ⟨some ent.logId, mem⟩ } })

/-- `apply`. -/
def apply (core : StateMachineStore M) :
    List (Entry M) → Program σ (List AppResponseData × StateMachineStore M)
  | [] => return ([], core)
  | ent :: entries => do
    let (reply, core) ← core.applyEntry ent
    let (replies, core) ← core.apply entries
    return (reply :: replies, core)

/-- `get_snapshot_builder`: a copy of the store, and the store with its next index. -/
def getSnapshotBuilder (core : StateMachineStore M) : StateMachineStore M × StateMachineStore M :=
  let core := { core with snapshotIdx := core.snapshotIdx + 1 }
  -- the copy shares the map
  (core, core)

/-- `install_snapshot`. -/
def installSnapshot (core : StateMachineStore M) (metadata : SnapshotMeta M) (snapshot : Bytes) :
    Program σ (StorageResult Unit × StateMachineStore M) := do
  let newSnapshot : StoredSnapshot M := ⟨metadata, snapshot⟩
  -- the map is replaced before the snapshot is stored
  match ← core.updateStateMachine newSnapshot with
  | (.error e, core) => return (.error e, core)
  | (.ok (), core) => return (← setCurrentSnapshot newSnapshot, core)

/-- `get_current_snapshot`. -/
def getCurrentSnapshot (M : Type) [SerdeJson M] :
    Program σ (StorageResult (Option (Snapshot M))) := do
  return (← currentSnapshot M).map fun x => x.map fun s => ⟨s.metadata, s.data⟩

end StateMachineStore

end PlacementCenter.Openraft
