import PlacementCenter.Rust.Disk
import PlacementCenter.Storage.StoreEffects

/-!
# The log store on a disk whose puts may fail

The readers of the log store see the contents of the disk. The writers differ in what they make of
a put that fails: an append panics, every other one goes on.

## Main definitions

* `putOn d r value`: the disk after the put of a record was tried
* `restoredOn d data`: the disk after the texts of a payload were tried

## Main results

* `completes_appendEntries`: an append that completes has written all of its entries
* `RaftMachineStorage.applySnapshot_disk`: an installation that is not refused
-/

namespace PlacementCenter.Storage

open Rust Rust.Prost Raft Program

variable {ε : Type}

/-- The disk after the put of a record was tried. -/
def putOn {α : Type} [SerdeJson α] (d : Disk ε) (r : Record) (value : α) : Disk ε :=
  d.put dbColumnFamilyCluster r.key (recordBytes value)

theorem write_disk {α : Type} [SerdeJson α] (r : Record) (value : α) (d : Disk ε) :
    ∃ res, RocksDBEngine.write dbColumnFamilyCluster r.name value d =
      (.ok res, putOn d r value) ∧ (res = .ok () ↔ d.next = none) := by
  unfold RocksDBEngine.write
  rw [bind_run_ok (Disk.putCf_run d dbColumnFamilyCluster (utf8 r.name) (recordBytes value))]
  rcases hn : d.next with _ | err
  · have hres : d.result = .ok () := Disk.result_eq_ok.mpr hn
    rw [hres]
    exact ⟨_, rfl, by simp⟩
  · have hres : d.result = .error err := by
      rw [Disk.result, hn]
    rw [hres]
    exact ⟨_, rfl, by simp⟩

/-- What the put of a record leaves there. -/
theorem lookup_putOn_self {α : Type} [SerdeJson α] (d : Disk ε) (r : Record) (value : α) :
    (cluster (putOn d r value).world)[r.key]? =
      if d.next = none then some (recordBytes value) else (cluster d.world)[r.key]? :=
  Disk.lookup_put_self d dbColumnFamilyCluster r.key (recordBytes value)

/-- The put of a record leaves every other key. -/
theorem lookup_putOn_ne {α : Type} [SerdeJson α] (d : Disk ε) {r : Record} (value : α) {k : Bytes}
    (h : r.key ≠ k) : (cluster (putOn d r value).world)[k]? = (cluster d.world)[k]? :=
  Disk.lookup_put_ne d dbColumnFamilyCluster r.key k (recordBytes value) h

namespace RaftMachineStorage

/-! ### Readers -/

theorem read_disk {α : Type} [SerdeJson α] (r : Record) (d : Disk ε) :
    RocksDBEngine.read α dbColumnFamilyCluster r.name d =
      (.ok (readRecord α (cluster d.world) r), d) := by
  unfold RocksDBEngine.read readRecord readIn
  rw [bind_run_ok (Disk.getCf_run d dbColumnFamilyCluster (utf8 r.name)), cluster]
  rcases (d.world.columns dbColumnFamilyCluster)[utf8 r.name]? with _ | found <;> rfl

theorem hardState_disk (d : Disk ε) : hardState d =
    (unwrapOk (hardStateIn (cluster d.world)) : Program (Disk ε) HardState) d := by
  refine (bind_run_ok (read_disk .hardState d) _).trans ?_
  rw [hardStateIn, messageIn]
  rcases readRecord Bytes (cluster d.world) .hardState with e | _ | v <;> rfl

theorem firstIndex_disk (self : RaftMachineStorage) (d : Disk ε) :
    self.firstIndex d = (.ok (firstIndexIn self (cluster d.world)), d) := by
  refine (bind_run_ok (read_disk .firstIndex d) _).trans ?_
  rw [firstIndexIn, indexIn]
  rcases readRecord UInt64 (cluster d.world) .firstIndex with e | _ | v <;> rfl

theorem lastIndex_disk (self : RaftMachineStorage) (d : Disk ε) :
    self.lastIndex d = (.ok (lastIndexIn self (cluster d.world)), d) := by
  refine (bind_run_ok (read_disk .lastIndex d) _).trans ?_
  rw [lastIndexIn, indexIn]
  rcases readRecord UInt64 (cluster d.world) .lastIndex with e | _ | v <;> rfl

/-! ### Writers -/

/-- The failure of the put of a hard state is returned. -/
theorem saveHardState_disk (hs : HardState) (d : Disk ε) :
    ∃ res, saveHardState hs d = (.ok res, putOn d .hardState (encodeToVec hs)) ∧
      (res = .ok () ↔ d.next = none) :=
  write_disk .hardState (encodeToVec hs) d

theorem saveConfState_disk (cs : ConfState) (d : Disk ε) :
    ∃ res, saveConfState cs d = (.ok res, putOn d .confState (encodeToVec cs)) ∧
      (res = .ok () ↔ d.next = none) :=
  write_disk .confState (encodeToVec cs) d

/-- The failure of the put of the uncommitted indices is dropped. -/
theorem saveUncommitIndex_disk (self : RaftMachineStorage) (d : Disk ε) :
    self.saveUncommitIndex d =
      (.ok (), putOn d .uncommit (Bincode.serialize self.uncommitIndex)) := by
  obtain ⟨res, hres, -⟩ := write_disk .uncommit (Bincode.serialize self.uncommitIndex) d
  exact bind_run_ok hres _

/-- An unwrapped write that completes has succeeded. -/
theorem completes_expect_write {α : Type} [SerdeJson α] {r : Record} {value : α} {u : Unit}
    {d d' : Disk ε}
    (h : Completes (RocksDBEngine.write dbColumnFamilyCluster r.name value >>= expectOk) d u d') :
    d.next = none ∧ d' = putOn d r value ∧ d'.world = putRecord d.world r value := by
  obtain ⟨res, hres, hok⟩ := write_disk r value d
  obtain ⟨res', d₁, h₁, h₂⟩ := completes_bind.mp h
  obtain ⟨rfl, rfl⟩ := (completes_of_run hres).mp h₁
  cases res with
  | error e => exact absurd h₂ not_completes_panic
  | ok _ =>
    have hn := hok.mp rfl
    obtain ⟨-, rfl⟩ := completes_pure.mp h₂
    refine ⟨hn, rfl, ?_⟩
    rw [putOn, Disk.put, if_pos hn]
    rfl

theorem completes_appendEntry {self self' : RaftMachineStorage} {e : Entry} {d d' : Disk ε}
    (h : Completes (self.appendEntry e) d self' d') : d'.world = appendedEntry d.world e := by
  have split : self.appendEntry e = (do
      RocksDBEngine.write dbColumnFamilyCluster (Record.entry e.index).name (encodeToVec e) >>=
        expectOk
      RocksDBEngine.write dbColumnFamilyCluster Record.lastIndex.name e.index >>= expectOk
      return { self with uncommitIndex := self.uncommitIndex.insert e.index 1 } :
        Program (Disk ε) RaftMachineStorage) := by
    simp only [bind_assoc]
    rfl
  rw [split] at h
  obtain ⟨_, d₁, h₁, h⟩ := completes_bind.mp h
  obtain ⟨_, d₂, h₂, h⟩ := completes_bind.mp h
  obtain ⟨-, rfl⟩ := completes_pure.mp h
  obtain ⟨-, -, hw₁⟩ := completes_expect_write h₁
  obtain ⟨-, -, hw₂⟩ := completes_expect_write h₂
  rw [hw₂, hw₁, appendedEntry]

/-- **An append that completes has written all of its entries**: each put that fails panics. -/
theorem completes_appendEntries {self self' : RaftMachineStorage} {es : List Entry}
    {d d' : Disk ε} (h : Completes (es.foldlM appendEntry self) d self' d') :
    d'.world = appended d.world es := by
  induction es generalizing self d with
  | nil =>
    obtain ⟨-, rfl⟩ := completes_pure.mp h
    rfl
  | cons e es ih =>
    rw [List.foldlM_cons] at h
    obtain ⟨core, d₁, h₁, h⟩ := completes_bind.mp h
    rw [ih h, completes_appendEntry h₁, appended_cons]

/-! ### Installations -/

/-- The texts of a payload, as the bytes that are put. -/
def payloadBytes (data : Bytes) : List (Bytes × Bytes) :=
  (payloadPairs data).map fun p => (utf8 p.1, utf8 p.2)

/-- The disk after the texts of a payload were tried. -/
def restoredOn (d : Disk ε) (data : Bytes) : Disk ε :=
  d.puts dbColumnFamilyCluster (payloadBytes data)

/-- The failure of a text of a payload is dropped. -/
theorem writeText_disk (p : String × String) (d : Disk ε) :
    writeText () p d = (.ok (), d.put dbColumnFamilyCluster (utf8 p.1) (utf8 p.2)) := by
  unfold writeText RocksDBEngine.writeStr
  rw [bind_assoc, bind_run_ok (Disk.putCf_run d dbColumnFamilyCluster (utf8 p.1) (utf8 p.2))]
  rcases d.result with err | _ <;> rfl

theorem writeAll_disk (data : Bytes) (d : Disk ε) :
    writeAll data d = (.ok (), restoredOn d data) := by
  unfold writeAll restoredOn payloadBytes payloadPairs
  split_ifs
  · rfl
  · rcases Bincode.deserialize (α := Dump) data with _ | dump
    · rfl
    · refine (foldlM_unit_run writeText_disk (dumpPairs dump) d).trans ?_
      rw [Disk.puts, List.foldl_map]

/-- The disk that an installation leaves over the hard state `hs` that it read back. -/
def installedOn (d : Disk ε) (s : Snapshot) (hs : HardState) : Disk ε :=
  putOn (putOn (restoredOn d s.data) .hardState (encodeToVec (installedState hs s.getMetadata)))
    .confState (encodeToVec (s.getMetadata.confState.getD ConfState.default))

/-- An installation that is refused tries no put. -/
theorem applySnapshot_disk_refused {self : RaftMachineStorage} {s : Snapshot} {d : Disk ε}
    (h : s.getMetadata.index < firstIndexIn self (cluster d.world)) :
    applySnapshot self s d = (.ok (.error (.store .snapshotOutOfDate), self), d) := by
  unfold applySnapshot
  dsimp only
  rw [bind_run_ok (firstIndex_disk self d), if_pos h]
  rfl

/-- **An installation that is not refused**: the texts of the payload are tried, the hard state is
read back, and the two records are tried. -/
theorem applySnapshot_disk {self : RaftMachineStorage} {s : Snapshot} {d : Disk ε}
    (h : firstIndexIn self (cluster d.world) ≤ s.getMetadata.index) :
    applySnapshot self s d =
      match hardStateIn (cluster (restoredOn d s.data).world) with
      | some hs => (.ok (.ok (), self.afterSnapshot s), installedOn d s hs)
      | none => (.panicked "called Result::unwrap() on an Err value", restoredOn d s.data) := by
  unfold applySnapshot
  dsimp only
  rw [bind_run_ok (firstIndex_disk self d), if_neg (UInt64.not_lt.mpr h),
    bind_run_ok (writeAll_disk s.data d), bind_run, hardState_disk]
  rcases hardStateIn (cluster (restoredOn d s.data).world) with _ | hs
  · rfl
  · obtain ⟨res, hres, -⟩ := saveHardState_disk (installedState hs s.getMetadata)
      (restoredOn d s.data)
    obtain ⟨res', hres', -⟩ := saveConfState_disk
      (s.getMetadata.confState.getD ConfState.default)
      (putOn (restoredOn d s.data) .hardState (encodeToVec (installedState hs s.getMetadata)))
    exact (bind_run_ok hres _).trans (bind_run_ok hres' _)

end RaftMachineStorage

end PlacementCenter.Storage
