import PlacementCenter.Rust.RocksDb
import PlacementCenter.Rust.SerdeJson
import PlacementCenter.Common.Errors

/-!
# The storage engine

Typed reads and writes of JSON texts in a column family, and the dump of the database.

## Main definitions

* `RocksDBEngine.write`, `writeStr`, `read`, `delete`, `exist`, `readAllByCf`, `readAll`
* `readIn`: what `read` returns, as a function of the contents of the column family

## Main results

* `RocksDBEngine.read_run`, `RocksDBEngine.write_run`: the engine on a `World`
* `readIn_insert_self`, `readIn_insert_ne`: a record is read back, and no other changes
-/

namespace PlacementCenter.Storage

open Rust

def dbColumnFamilyCluster : String := "cluster"

def columnFamilyList : List String := [dbColumnFamilyCluster]

variable {α : Type} [SerdeJson α]

/-- The bytes of a record. -/
def recordBytes (value : α) : Bytes := utf8 (SerdeJson.toString value)

/-- The record of some bytes. The account a library gives of bytes it cannot read is represented
by these bytes. -/
def parseRecord (α : Type) [SerdeJson α] (found : Bytes) : Except String α :=
  match fromUtf8 found with
  | some s =>
    match SerdeJson.fromStr s with
    | some t => .ok t
    | none => .error ("Failed to deserialize: " ++ s)
  | none => .error ("Failed to deserialize: " ++ toString found)

@[simp] theorem parseRecord_recordBytes (value : α) :
    parseRecord α (recordBytes value) = .ok value := by
  simp [parseRecord, recordBytes]

/-- What a read returns, by the contents of the column family. -/
def readIn (α : Type) [SerdeJson α] (m : ColumnFamily) (key : String) :
    Except String (Option α) :=
  match m[utf8 key]? with
  | some found => (parseRecord α found).map some
  | none => .ok none

/-- A record is read back. -/
@[simp] theorem readIn_insert_self (m : ColumnFamily) (key : String) (value : α) :
    readIn α (m.insert (utf8 key) (recordBytes value)) key = .ok (some value) := by
  simp only [readIn, OrdMap.lookup_insert_self, parseRecord_recordBytes]
  rfl

theorem readIn_congr {m m' : ColumnFamily} {key : String} (h : m[utf8 key]? = m'[utf8 key]?) :
    readIn α m key = readIn α m' key := by
  rw [readIn, readIn, h]

/-- A write under another key is not seen. -/
theorem readIn_insert_ne (m : ColumnFamily) {key : String} {k : Bytes} (v : Bytes)
    (h : k ≠ utf8 key) : readIn α (m.insert k v) key = readIn α m key :=
  readIn_congr (OrdMap.lookup_insert_ne m v h)

@[simp] theorem readIn_erase_self (m : ColumnFamily) (key : String) :
    readIn α (m.erase (utf8 key)) key = .ok none := by
  simp [readIn]

@[simp] theorem readIn_empty (key : String) : readIn α (∅ : ColumnFamily) key = .ok none := by
  simp [readIn]

/-- The texts among the entries of a column family, one map for each. -/
def textsOf (pairs : List (Bytes × Bytes)) : List (HashMap String String) :=
  pairs.filterMap fun p =>
    (fromUtf8 p.1).bind fun k => (fromUtf8 p.2).map fun v => (∅ : HashMap String String).insert k v

namespace RocksDBEngine

variable {σ : Type} [RocksDb σ]

def write (cf key : String) (value : α) : Program σ (Except String Unit) := do
  match ← RocksDb.putCf cf (utf8 key) (recordBytes value) with
  | .ok () => return .ok ()
  | .error err => return .error ("Failed to put to ColumnFamily:" ++ err)

def writeStr (cf key value : String) : Program σ (Except String Unit) := do
  match ← RocksDb.putCf cf (utf8 key) (utf8 value) with
  | .ok () => return .ok ()
  | .error err => return .error ("Failed to put to ColumnFamily:" ++ err)

def read (α : Type) [SerdeJson α] (cf key : String) : Program σ (Except String (Option α)) := do
  match ← RocksDb.getCf cf (utf8 key) with
  | .ok (some found) => return (parseRecord α found).map some
  | .ok none => return .ok none
  | .error err => return .error ("Failed to get from ColumnFamily: " ++ err)

def delete (cf key : String) : Program σ (Except RobustMQError Unit) := do
  match ← RocksDb.deleteCf cf (utf8 key) with
  | .ok () => return .ok ()
  | .error err => return .error (.rocksdbError err)

/-- `exist`, with `key_may_exist_cf` of the library. -/
def exist (keyMayExistCf : String → Bytes → Program σ Bool) (cf key : String) : Program σ Bool :=
  keyMayExistCf cf (utf8 key)

/-- The entries of a column family in key order; an entry that is not text is left out. -/
def readAllByCf (cf : String) : Program σ (List (HashMap String String)) := do
  return textsOf (← RocksDb.iterate cf)

/-- The dump. Whatever the family, the entries are those of the `cluster` family. -/
def readAll : Program σ (HashMap String (List (HashMap String String))) :=
  columnFamilyList.foldlM
    (fun result family => do return result.insert family (← readAllByCf dbColumnFamilyCluster)) ∅

/-! ### The engine on a world -/

variable {ε : Type} (w : World ε) (cf key : String)

@[simp] theorem write_run (value : α) :
    write cf key value w = (.ok (.ok ()), w.put cf (utf8 key) (recordBytes value)) := rfl

@[simp] theorem writeStr_run (value : String) :
    writeStr cf key value w = (.ok (.ok ()), w.put cf (utf8 key) (utf8 value)) := rfl

@[simp] theorem read_run : read α cf key w = (.ok (readIn α (w.columns cf) key), w) := by
  unfold read readIn
  rw [Program.bind_run_ok (World.getCf_run w cf (utf8 key))]
  rcases (w.columns cf)[utf8 key]? with _ | found <;> rfl

@[simp] theorem delete_run : delete cf key w = (.ok (.ok ()), w.delete cf (utf8 key)) := rfl

@[simp] theorem readAllByCf_run :
    readAllByCf cf w = (.ok (textsOf (w.columns cf).toList), w) := rfl

@[simp] theorem readAll_run :
    readAll w = (.ok ((∅ : HashMap String (List (HashMap String String))).insert
      dbColumnFamilyCluster (textsOf (w.columns dbColumnFamilyCluster).toList)), w) := rfl

end RocksDBEngine

end PlacementCenter.Storage
