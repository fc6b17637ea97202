import PlacementCenter.Storage.RaftMachineStorage

/-!
# The records of the log store

What the readers of the log store return, as functions of the contents of the column family, and
what each operation does to these contents.

## Main definitions

* `cluster w`: the `cluster` column family of a world
* `hardStateIn`, `confStateIn`, `firstIndexIn`, `lastIndexIn`, `entryIn`, `uncommitIn`: what the
  readers return
* `putRecord`: the world after a record was written
* `appended`: the world after the entries of an `append` were written

## Main results

* `completes_commmitIndex`, `completes_append`, `completes_newSnapshot`, …: when an operation
  completes, and what it leaves
-/

namespace PlacementCenter.Storage

open Rust Rust.Prost Raft

variable {ε : Type}

/-- The `cluster` column family of a world. -/
def cluster (w : World ε) : ColumnFamily := w.columns dbColumnFamilyCluster

/-- The world after a key of the `cluster` column family was set. -/
def putKey (w : World ε) (k v : Bytes) : World ε := w.put dbColumnFamilyCluster k v

/-- The world after a record was written. -/
def putRecord {α : Type} [SerdeJson α] (w : World ε) (r : Record) (value : α) : World ε :=
  putKey w r.key (recordBytes value)

@[simp] theorem cluster_putKey (w : World ε) (k v : Bytes) :
    cluster (putKey w k v) = (cluster w).insert k v := World.columns_put_self w _ k v

@[simp] theorem cluster_putRecord {α : Type} [SerdeJson α] (w : World ε) (r : Record) (value : α) :
    cluster (putRecord w r value) = (cluster w).insert r.key (recordBytes value) :=
  cluster_putKey w r.key _

@[simp] theorem cluster_empty : cluster (World.empty : World ε) = ∅ := rfl

/-! ### Readers -/

/-- The record `r`, as the engine reads it. -/
def readRecord (α : Type) [SerdeJson α] (m : ColumnFamily) (r : Record) :
    Except String (Option α) := readIn α m r.name

section readRecord

variable {α β : Type} [SerdeJson α] [SerdeJson β] (m : ColumnFamily)

@[simp] theorem readRecord_insert_self (r : Record) (value : α) :
    readRecord α (m.insert r.key (recordBytes value)) r = .ok (some value) :=
  readIn_insert_self m r.name value

@[simp] theorem readRecord_empty (r : Record) : readRecord α ∅ r = .ok none := readIn_empty r.name

theorem readRecord_congr {m m' : ColumnFamily} {r : Record} (h : m[r.key]? = m'[r.key]?) :
    readRecord α m r = readRecord α m' r := readIn_congr h

theorem readRecord_insert_ne {r : Record} {k : Bytes} (h : k ≠ r.key) (v : Bytes) :
    readRecord α (m.insert k v) r = readRecord α m r := readIn_insert_ne m v h

/-- A write of one record is not seen in another. -/
@[simp] theorem readRecord_insert_record {r r' : Record} (h : r ≠ r') (v : Bytes) :
    readRecord α (m.insert r.key v) r' = readRecord α m r' :=
  readRecord_insert_ne m (by simpa using h) v

end readRecord

/-- The message of a record; `none` when it cannot be read. -/
def messageIn {α : Type} [Message α] (default : α) (m : ColumnFamily) (r : Record) : Option α :=
  match readRecord Bytes m r with
  | .ok (some value) => decode value
  | .ok none => some default
  | .error _ => none

def hardStateIn (m : ColumnFamily) : Option HardState := messageIn HardState.default m .hardState

def confStateIn (m : ColumnFamily) : Option ConfState := messageIn ConfState.default m .confState

/-- The entry with an index: `none` when its record does not decode. -/
def entryIn (m : ColumnFamily) (idx : UInt64) : Option (Option Entry) :=
  match readRecord Bytes m (.entry idx) with
  | .ok (some value) => (decode value).map some
  | .ok none => some none
  | .error _ => some none

/-- An index record, with a default for a record that is missing or unreadable. -/
def indexIn (m : ColumnFamily) (r : Record) (default : UInt64) : UInt64 :=
  match readRecord UInt64 m r with
  | .ok (some i) => i
  | .ok none => default
  | .error _ => default

def firstIndexIn (self : RaftMachineStorage) (m : ColumnFamily) : UInt64 :=
  indexIn m .firstIndex (self.snapshotMetadata.index + 1)

def lastIndexIn (self : RaftMachineStorage) (m : ColumnFamily) : UInt64 :=
  indexIn m .lastIndex self.snapshotMetadata.index

def uncommitIn (m : ColumnFamily) : HashMap UInt64 Int8 :=
  match readRecord Bytes m .uncommit with
  | .ok (some value) => (Bincode.deserialize value).getD ∅
  | .ok none => ∅
  | .error _ => ∅

/-- The stored snapshot. -/
def snapshotIn (m : ColumnFamily) : Option Snapshot := messageIn Snapshot.default m .snapshot

/-- The metadata of a snapshot of the contents. -/
def metadataIn (m : ColumnFamily) : Option SnapshotMetadata := do
  let hs ← hardStateIn m
  let cs ← confStateIn m
  return { confState := some cs, index := hs.commit, term := hs.term }

/-- The dump of a column family. -/
def dumpOf (m : ColumnFamily) : Dump :=
  (∅ : Dump).insert dbColumnFamilyCluster (textsOf m.toList)

section readers

variable (m : ColumnFamily)

/-- The metadata are those of the two states. -/
theorem metadataIn_eq_some {m : ColumnFamily} {metadata : SnapshotMetadata} :
    metadataIn m = some metadata ↔
      ∃ hs cs, hardStateIn m = some hs ∧ confStateIn m = some cs ∧
        metadata = { confState := some cs, index := hs.commit, term := hs.term } := by
  constructor
  · intro h
    obtain ⟨hs, hhs, h⟩ := Option.bind_eq_some_iff.mp h
    obtain ⟨cs, hcs, h⟩ := Option.bind_eq_some_iff.mp h
    exact ⟨hs, cs, hhs, hcs, (Option.some.inj h).symm⟩
  · rintro ⟨hs, cs, hhs, hcs, rfl⟩
    rw [metadataIn, hhs, hcs]
    rfl

/-- A message that fits is read back. -/
theorem messageIn_insert_self {α : Type} [Message α] [LawfulMessage α] (d : α) (r : Record)
    {a : α} (ha : ∀ f ∈ Message.fields a, f.Fits) :
    messageIn d (m.insert r.key (recordBytes (encodeToVec a))) r = some a := by
  simp [messageIn, decode_encodeToVec ha]

@[simp] theorem hardStateIn_insert_self (hs : HardState) :
    hardStateIn (m.insert Record.hardState.key (recordBytes (encodeToVec hs))) = some hs :=
  messageIn_insert_self m _ _ hs.fits

@[simp] theorem entryIn_insert_self (e : Entry) (idx : UInt64) :
    entryIn (m.insert (Record.entry idx).key (recordBytes (encodeToVec e))) idx = some (some e) := by
  simp [entryIn]

@[simp] theorem indexIn_insert_self (r : Record) (i d : UInt64) :
    indexIn (m.insert r.key (recordBytes i)) r d = i := by
  simp [indexIn]

theorem messageIn_congr {α : Type} [Message α] {d : α} {m m' : ColumnFamily} {r : Record}
    (h : m[r.key]? = m'[r.key]?) : messageIn d m r = messageIn d m' r := by
  rw [messageIn, messageIn, readRecord_congr h]

theorem hardStateIn_congr {m m' : ColumnFamily}
    (h : m[Record.hardState.key]? = m'[Record.hardState.key]?) : hardStateIn m = hardStateIn m' :=
  messageIn_congr h

theorem confStateIn_congr {m m' : ColumnFamily}
    (h : m[Record.confState.key]? = m'[Record.confState.key]?) : confStateIn m = confStateIn m' :=
  messageIn_congr h

theorem snapshotIn_congr {m m' : ColumnFamily}
    (h : m[Record.snapshot.key]? = m'[Record.snapshot.key]?) : snapshotIn m = snapshotIn m' :=
  messageIn_congr h

theorem entryIn_congr {m m' : ColumnFamily} {idx : UInt64}
    (h : m[(Record.entry idx).key]? = m'[(Record.entry idx).key]?) :
    entryIn m idx = entryIn m' idx := by
  rw [entryIn, entryIn, readRecord_congr h]

theorem indexIn_congr {m m' : ColumnFamily} {r : Record} (h : m[r.key]? = m'[r.key]?)
    (d : UInt64) : indexIn m r d = indexIn m' r d := by
  rw [indexIn, indexIn, readRecord_congr h]

theorem uncommitIn_congr {m m' : ColumnFamily}
    (h : m[Record.uncommit.key]? = m'[Record.uncommit.key]?) : uncommitIn m = uncommitIn m' := by
  rw [uncommitIn, uncommitIn, readRecord_congr h]

/-- A write of another record leaves the hard state. -/
@[simp] theorem hardStateIn_insert_record {r : Record} (h : r ≠ .hardState) (v : Bytes) :
    hardStateIn (m.insert r.key v) = hardStateIn m :=
  hardStateIn_congr (OrdMap.lookup_insert_ne m v (by simpa using h))

@[simp] theorem confStateIn_insert_record {r : Record} (h : r ≠ .confState) (v : Bytes) :
    confStateIn (m.insert r.key v) = confStateIn m :=
  confStateIn_congr (OrdMap.lookup_insert_ne m v (by simpa using h))

@[simp] theorem entryIn_insert_record {r : Record} {idx : UInt64} (h : r ≠ .entry idx)
    (v : Bytes) : entryIn (m.insert r.key v) idx = entryIn m idx :=
  entryIn_congr (OrdMap.lookup_insert_ne m v (by simpa using h))

@[simp] theorem indexIn_insert_record {r r' : Record} (h : r ≠ r') (v : Bytes) (d : UInt64) :
    indexIn (m.insert r.key v) r' d = indexIn m r' d :=
  indexIn_congr (OrdMap.lookup_insert_ne m v (by simpa using h)) d

@[simp] theorem hardStateIn_empty : hardStateIn ∅ = some HardState.default := by
  simp [hardStateIn, messageIn]

@[simp] theorem confStateIn_empty : confStateIn ∅ = some ConfState.default := by
  simp [confStateIn, messageIn]

@[simp] theorem entryIn_empty (idx : UInt64) : entryIn ∅ idx = some none := by
  simp [entryIn]

@[simp] theorem indexIn_empty (r : Record) (d : UInt64) : indexIn ∅ r d = d := by
  simp [indexIn]

end readers

/-! ### The readers on a world -/

namespace RaftMachineStorage

variable (self : RaftMachineStorage) (w : World ε)

theorem read_record_run {α : Type} [SerdeJson α] (r : Record) :
    RocksDBEngine.read α dbColumnFamilyCluster r.name w = (.ok (readRecord α (cluster w) r), w) :=
  RocksDBEngine.read_run w dbColumnFamilyCluster r.name

/-- A reader of a message panics when the record cannot be read. -/
theorem read_message_run {α : Type} [Message α] (d : α) (r : Record) :
    (do
      let value ← Program.expectOk
        (← RocksDBEngine.read Bytes dbColumnFamilyCluster r.name)
      match value with
      | none => return d
      | some value => Program.unwrapOk (decode value) : Program (World ε) α) w =
      (Program.unwrapOk (messageIn d (cluster w) r) : Program (World ε) α) w := by
  rw [Program.bind_run_ok (read_record_run w r), messageIn]
  rcases readRecord Bytes (cluster w) r with e | _ | v <;> rfl

theorem hardState_run :
    hardState w = (Program.unwrapOk (hardStateIn (cluster w)) : Program (World ε) HardState) w :=
  read_message_run w HardState.default .hardState

theorem completes_hardState {hs : HardState} {t : World ε} :
    Program.Completes hardState w hs t ↔ hardStateIn (cluster w) = some hs ∧ w = t := by
  rw [Program.Completes, hardState_run]
  exact Program.completes_unwrapOk

theorem confState_run :
    confState w = (Program.unwrapOk (confStateIn (cluster w)) : Program (World ε) ConfState) w :=
  read_message_run w ConfState.default .confState

theorem storedSnapshot_run :
    storedSnapshot w = (Program.unwrapOk (snapshotIn (cluster w)) : Program (World ε) Snapshot) w :=
  read_message_run w Snapshot.default .snapshot

@[simp] theorem firstIndex_run : self.firstIndex w = (.ok (firstIndexIn self (cluster w)), w) := by
  refine (Program.bind_run_ok (read_record_run w .firstIndex) _).trans ?_
  rw [firstIndexIn, indexIn]
  rcases readRecord UInt64 (cluster w) .firstIndex with e | _ | v <;> rfl

@[simp] theorem lastIndex_run : self.lastIndex w = (.ok (lastIndexIn self (cluster w)), w) := by
  refine (Program.bind_run_ok (read_record_run w .lastIndex) _).trans ?_
  rw [lastIndexIn, indexIn]
  rcases readRecord UInt64 (cluster w) .lastIndex with e | _ | v <;> rfl

theorem entryByIdx_run (idx : UInt64) :
    entryByIdx idx w =
      (Program.unwrapOk (entryIn (cluster w) idx) : Program (World ε) (Option Entry)) w := by
  refine (Program.bind_run_ok (read_record_run w (.entry idx)) _).trans ?_
  rw [entryIn]
  rcases readRecord Bytes (cluster w) (.entry idx) with e | _ | v
  · rfl
  · rfl
  · dsimp only
    rcases (decode v : Option Entry) with _ | e <;> rfl

@[simp] theorem readUncommitIndex_run :
    readUncommitIndex w = (.ok (uncommitIn (cluster w)), w) := by
  refine (Program.bind_run_ok (read_record_run w .uncommit) _).trans ?_
  rw [uncommitIn]
  rcases readRecord Bytes (cluster w) .uncommit with e | _ | v <;> rfl

theorem createSnapshotMetadata_run :
    createSnapshotMetadata w =
      (Program.unwrapOk (metadataIn (cluster w)) : Program (World ε) SnapshotMetadata) w := by
  unfold createSnapshotMetadata metadataIn
  rw [Program.bind_run, hardState_run]
  rcases hardStateIn (cluster w) with _ | hs
  · rfl
  · dsimp only [Program.unwrapOk_some, Program.pure_run]
    rw [Program.bind_run, confState_run]
    rcases confStateIn (cluster w) with _ | cs <;> rfl

/-! ### The writers on a world -/

@[simp] theorem saveHardState_run (hs : HardState) :
    saveHardState hs w = (.ok (.ok ()), putRecord w .hardState (encodeToVec hs)) := rfl

@[simp] theorem saveConfState_run (cs : ConfState) :
    saveConfState cs w = (.ok (.ok ()), putRecord w .confState (encodeToVec cs)) := rfl

@[simp] theorem saveFirstIndex_run (i : UInt64) :
    saveFirstIndex i w = (.ok (.ok ()), putRecord w .firstIndex i) := rfl

@[simp] theorem saveUncommitIndex_run :
    self.saveUncommitIndex w =
      (.ok (), putRecord w .uncommit (Bincode.serialize self.uncommitIndex)) := rfl

@[simp] theorem saveSnapshotData_run (s : Snapshot) :
    saveSnapshotData s w = (.ok (), putRecord w .snapshot (encodeToVec s)) := rfl

end RaftMachineStorage

end PlacementCenter.Storage
