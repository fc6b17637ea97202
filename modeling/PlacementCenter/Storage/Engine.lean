import PlacementCenter.Storage.RocksDBEngine

/-!
# Records of services

A service keeps a value under a key as the JSON text of a `StorageDataWrap`: the JSON bytes of
the value, and the time of the write.

## Main definitions

* `StorageDataWrap`: the stored form of a value
* `engineSaveByCluster`, `engineGetByCluster`, `engineDeleteByCluster`, `engineExistsByCluster`: the
  engine on the `cluster` column family

## Main results

* `engineSaveByCluster_run`, `engineGetByCluster_run`, `engineDeleteByCluster_run`
-/

namespace PlacementCenter.Storage

open Rust

/-- The stored form of a value: its JSON bytes and the second of the write. -/
structure StorageDataWrap where
  data : Bytes
  createTime : UInt64
  deriving DecidableEq, Repr

/-- `StorageDataWrap::new`, at the time `now`. -/
def StorageDataWrap.new (now : UInt64) (data : Bytes) : StorageDataWrap := ⟨data, now⟩

instance : SerdeJson StorageDataWrap where
  toJson d := .obj
    [("data", SerdeJson.toJson d.data), ("create_time", SerdeJson.toJson d.createTime)]
  fromJson j := do
    match ← Json.structFields ["data", "create_time"] j with
    | [data, createTime] =>
      return ⟨← SerdeJson.fromJson data, ← SerdeJson.fromJson createTime⟩
    | _ => none
  fromJson_toJson d := by
    rw [Json.structFields_two (by decide)]
    simp [SerdeJson.fromJson_toJson]

variable {σ : Type} [RocksDb σ] {α : Type} [Serialize α]

/-- The handle of a column family by its name: only the `cluster` family has one. -/
def clusterHandle (rocksdbCluster : String) : Except RobustMQError String :=
  if rocksdbCluster = dbColumnFamilyCluster then .ok dbColumnFamilyCluster
  else .error .clusterNoAvailableNode

def engineSave (now : UInt64) (rocksdbCluster keyName : String) (value : α) :
    Program σ (Except RobustMQError Unit) := do
  match clusterHandle rocksdbCluster with
  | .error e => return .error e
  | .ok cf =>
    match Serialize.toVec value with
    | .error e => return .error (.commmonError e)
    | .ok content =>
      let data := StorageDataWrap.new now content
      match ← RocksDBEngine.write cf keyName data with
      | .ok () => return .ok ()
      | .error e => return .error (.commmonError e)

def engineGet (rocksdbCluster keyName : String) :
    Program σ (Except RobustMQError (Option StorageDataWrap)) := do
  match clusterHandle rocksdbCluster with
  | .error e => return .error e
  | .ok cf =>
    match ← RocksDBEngine.read StorageDataWrap cf keyName with
    | .ok (some data) => return .ok (some data)
    | .ok none => return .ok none
    | .error e => return .error (.commmonError e)

def engineDelete (rocksdbCluster keyName : String) : Program σ (Except RobustMQError Unit) := do
  match clusterHandle rocksdbCluster with
  | .error e => return .error e
  | .ok cf => RocksDBEngine.delete cf keyName

def engineExists (keyMayExistCf : String → Bytes → Program σ Bool)
    (rocksdbCluster keyName : String) : Program σ (Except RobustMQError Bool) := do
  match clusterHandle rocksdbCluster with
  | .error e => return .error e
  | .ok cf => return .ok (← RocksDBEngine.exist keyMayExistCf cf keyName)

def engineSaveByCluster (now : UInt64) (keyName : String) (value : α) :
    Program σ (Except RobustMQError Unit) :=
  engineSave now dbColumnFamilyCluster keyName value

def engineGetByCluster (keyName : String) :
    Program σ (Except RobustMQError (Option StorageDataWrap)) :=
  engineGet dbColumnFamilyCluster keyName

def engineDeleteByCluster (keyName : String) : Program σ (Except RobustMQError Unit) :=
  engineDelete dbColumnFamilyCluster keyName

def engineExistsByCluster (keyMayExistCf : String → Bytes → Program σ Bool) (keyName : String) :
    Program σ (Except RobustMQError Bool) :=
  engineExists keyMayExistCf dbColumnFamilyCluster keyName

/-! ### The engine on a world -/

variable {ε : Type} (w : World ε) (keyName : String)

theorem engineSaveByCluster_run_of_toVec (now : UInt64) {value : α} {content : Bytes}
    (h : Serialize.toVec value = .ok content) :
    engineSaveByCluster now keyName value w =
      (.ok (.ok ()), w.put dbColumnFamilyCluster (utf8 keyName)
        (recordBytes (StorageDataWrap.new now content))) := by
  unfold engineSaveByCluster engineSave
  rw [h]
  rfl

@[simp] theorem engineSaveByCluster_run {β : Type} [SerdeJson β] (now : UInt64) (value : β) :
    engineSaveByCluster now keyName value w =
      (.ok (.ok ()), w.put dbColumnFamilyCluster (utf8 keyName)
        (recordBytes (StorageDataWrap.new now (SerdeJson.toVec value)))) :=
  engineSaveByCluster_run_of_toVec w keyName now rfl

@[simp] theorem engineGetByCluster_run :
    engineGetByCluster keyName w =
      (.ok ((readIn StorageDataWrap (w.columns dbColumnFamilyCluster) keyName).mapError
        .commmonError), w) := by
  have h := RocksDBEngine.read_run (α := StorageDataWrap) w dbColumnFamilyCluster keyName
  refine (Program.bind_run_ok h _).trans ?_
  rcases readIn StorageDataWrap (w.columns dbColumnFamilyCluster) keyName with e | _ | d <;> rfl

@[simp] theorem engineDeleteByCluster_run :
    engineDeleteByCluster keyName w =
      (.ok (.ok ()), w.delete dbColumnFamilyCluster (utf8 keyName)) := rfl

end PlacementCenter.Storage
