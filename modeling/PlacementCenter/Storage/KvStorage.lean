import PlacementCenter.Storage.Engine

/-!
# The key-value service on one node

## Main definitions

* `KvStorage.set`, `KvStorage.delete`, `KvStorage.get`, `KvStorage.existsKey`
* `kvIn`: what `get` returns, as a function of the contents of the column family
* `kvRecord`: the bytes `set` writes

## Main results

* `KvStorage.set_run`, `KvStorage.delete_run`, `KvStorage.get_run`: the service on a `World`
* `kvIn_insert_self`, `kvIn_erase_self`, `kvIn_insert_ne`: `get` after a write
-/

namespace PlacementCenter.Storage

open Rust

/-- The bytes under a key after `set` at the time `now`. -/
def kvRecord (now : UInt64) (value : String) : Bytes :=
  recordBytes (StorageDataWrap.new now (SerdeJson.toVec value))

/-- The value of a stored record. An error text stands for the library's own. -/
def valueOf (d : StorageDataWrap) : Except RobustMQError (Option String) :=
  match SerdeJson.fromSlice (α := String) d.data with
  | some data => .ok (some data)
  | none => .error (.serdeJsonError (toString d.data))

/-- What `get` returns, by the contents of the column family. -/
def kvIn (m : ColumnFamily) (key : String) : Except RobustMQError (Option String) :=
  match readIn StorageDataWrap m key with
  | .ok (some d) => valueOf d
  | .ok none => .ok none
  | .error e => .error (.commmonError e)

theorem kvIn_congr {m m' : ColumnFamily} {key : String} (h : m[utf8 key]? = m'[utf8 key]?) :
    kvIn m key = kvIn m' key := by
  rw [kvIn, kvIn, readIn_congr h]

/-- **A value that was set is read back.** -/
@[simp] theorem kvIn_insert_self (m : ColumnFamily) (key : String) (now : UInt64)
    (value : String) :
    kvIn (m.insert (utf8 key) (kvRecord now value)) key = .ok (some value) := by
  simp [kvIn, kvRecord, valueOf, StorageDataWrap.new]

@[simp] theorem kvIn_erase_self (m : ColumnFamily) (key : String) :
    kvIn (m.erase (utf8 key)) key = .ok none := by
  simp [kvIn]

theorem kvIn_insert_ne (m : ColumnFamily) {key : String} {k : Bytes} (v : Bytes)
    (h : k ≠ utf8 key) : kvIn (m.insert k v) key = kvIn m key :=
  kvIn_congr (OrdMap.lookup_insert_ne m v h)

theorem kvIn_erase_ne (m : ColumnFamily) {key : String} {k : Bytes} (h : k ≠ utf8 key) :
    kvIn (m.erase k) key = kvIn m key :=
  kvIn_congr (OrdMap.lookup_erase_ne m h)

namespace KvStorage

variable {σ : Type} [RocksDb σ]

/-- `KvStorage::set`, at the time `now`. -/
def set (now : UInt64) (key value : String) : Program σ (Except RobustMQError Unit) :=
  engineSaveByCluster now key value

def delete (key : String) : Program σ (Except RobustMQError Unit) := engineDeleteByCluster key

def get (key : String) : Program σ (Except RobustMQError (Option String)) := do
  match ← engineGetByCluster key with
  | .ok (some data) => return valueOf data
  | .ok none => return .ok none
  | .error e => return .error e

/-- `KvStorage::exists`, with `key_may_exist_cf` of the library. -/
def existsKey (keyMayExistCf : String → Bytes → Program σ Bool) (key : String) :
    Program σ (Except RobustMQError Bool) :=
  engineExistsByCluster keyMayExistCf key

/-! ### The service on a world -/

variable {ε : Type} (w : World ε) (key : String)

@[simp] theorem set_run (now : UInt64) (value : String) :
    set now key value w =
      (.ok (.ok ()), w.put dbColumnFamilyCluster (utf8 key) (kvRecord now value)) := rfl

@[simp] theorem delete_run :
    delete key w = (.ok (.ok ()), w.delete dbColumnFamilyCluster (utf8 key)) := rfl

@[simp] theorem get_run : get key w = (.ok (kvIn (w.columns dbColumnFamilyCluster) key), w) := by
  unfold get kvIn
  rw [Program.bind_run_ok (engineGetByCluster_run w key)]
  rcases readIn StorageDataWrap (w.columns dbColumnFamilyCluster) key with e | _ | d <;> rfl

end KvStorage

end PlacementCenter.Storage
