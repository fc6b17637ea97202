import PlacementCenter.Raft.TermLookup

/-!
# Restarts of the log store

The store that is opened again over the contents of the database, compared with the one that was
dropped. It takes the metadata of its snapshot from the hard state and the configuration, and not
from the snapshot that was stored last: a commit between the two is taken for a snapshot.

## Main definitions

* `RecordRun self w`: a run of the operations of the log store, from the empty database
* `RestartInvisible`: the store that is opened again shows what the dropped one did
* `SnapshotRecorded`: the records hold the metadata of the snapshot

## Main results

* `uncommitIn_of_run`: the uncommitted indices are always read back
* `restartInvisible_iff`: a restart is invisible exactly when the records hold the metadata
-/

namespace PlacementCenter.Raft

open Rust Storage Program

variable {ε : Type}

/-- A run of the operations of the log store and of restarts, from the empty database. -/
inductive RecordRun : RaftMachineStorage → World ε → Prop where
  | start {self w} (h : Completes RaftMachineStorage.new World.empty self w) : RecordRun self w
  | step {self self' w w'} (op : RaftOp) (hr : RecordRun self w)
    (h : Completes (op.run self) w self' w') : RecordRun self' w'
  | restart {self self' w w'} (hr : RecordRun self w)
    (h : Completes RaftMachineStorage.new w self' w') : RecordRun self' w'

/-- The store that is opened again: it has the indices, the metadata and the uncommitted indices of
the dropped one, and answers every argument the same way. -/
def RestartInvisible (core : RaftMachineStorage) (w : World ε) : Prop :=
  ∃ later, Completes RaftMachineStorage.new w later w ∧
    later.firstIndex w = core.firstIndex w ∧ later.lastIndex w = core.lastIndex w ∧
    later.snapshotMetadata = core.snapshotMetadata ∧ later.uncommitIndex = core.uncommitIndex ∧
    (∀ idx, RaftRocksDBStorage.term later idx w = RaftRocksDBStorage.term core idx w) ∧
    ∀ low high, RaftRocksDBStorage.entries later low high w =
      RaftRocksDBStorage.entries core low high w

/-- The stored hard state has the index and the term of the snapshot, the stored configuration is
that of the snapshot, and not every index is uncommitted. -/
structure SnapshotRecorded (core : RaftMachineStorage) (m : ColumnFamily) : Prop where
  metadata : ∃ hs cs, hardStateIn m = some hs ∧ confStateIn m = some cs ∧
    core.snapshotMetadata = { confState := some cs, index := hs.commit, term := hs.term }
  uncommitted : core.uncommitIndex.size < 2 ^ 64

/-! ### The uncommitted indices -/

variable {self : RaftMachineStorage} {w : World ε}

/-- Fewer than `2 ^ 64` uncommitted indices are read back. -/
theorem uncommitIn_insert_self (m : ColumnFamily) {ui : HashMap UInt64 Int8}
    (h : ui.size < 2 ^ 64) :
    uncommitIn (m.insert Record.uncommit.key (recordBytes (Bincode.serialize ui))) = ui := by
  have hget : ∀ (p : UInt64 × Int8) (rest : Bytes),
      Bincode.get (Bincode.put p ++ rest) = some (p, rest) := by
    intro p rest
    refine Bincode.get_put p rest ?_
    change (u64LE p.1 ++ [p.2.toUInt8]).length < 2 ^ 64
    simp
  rw [uncommitIn, readRecord_insert_self]
  dsimp only
  rw [Bincode.deserialize_serialize_map hget h, Option.getD_some]

/-- Fewer than `2 ^ 64` uncommitted indices are read, whatever is stored. -/
theorem size_uncommitIn_lt (m : ColumnFamily) : (uncommitIn m).size < 2 ^ 64 := by
  rw [uncommitIn]
  rcases readRecord Bytes m .uncommit with e | _ | v
  · simp
  · simp
  · dsimp only
    cases hd : (Bincode.deserialize v : Option (HashMap UInt64 Int8)) with
    | none => simp
    | some ui => exact Bincode.size_lt_of_deserialize hd

/-- The stored uncommitted indices are those in memory, unless there are too many of them. -/
def UncommitStored (core : RaftMachineStorage) (m : ColumnFamily) : Prop :=
  core.uncommitIndex.size < 2 ^ 64 → uncommitIn m = core.uncommitIndex

/-- A write of another record leaves the uncommitted indices. -/
theorem uncommitIn_insert_record {r : Record} (m : ColumnFamily) (h : r ≠ .uncommit) (v : Bytes) :
    uncommitIn (m.insert r.key v) = uncommitIn m :=
  uncommitIn_congr (OrdMap.lookup_insert_ne m v (by simpa using h))

/-- An operation that does not write the record of the uncommitted indices leaves them. -/
theorem uncommitIn_of_writes {self' : RaftMachineStorage} {w' : World ε} {op : RaftOp}
    (ho : ∀ r, op.Writes r → r ≠ .uncommit) (h : Completes (op.run self) w self' w') :
    uncommitIn (cluster w') = uncommitIn (cluster w) := by
  have hk : Keeps (fun t : World ε => uncommitIn (cluster t) = uncommitIn (cluster w))
      (op.run self) := by
    refine op.keeps (fun t r text hr ht => ?_) self
    rw [cluster_putKey, uncommitIn_insert_record _ (ho r hr)]
    exact ht
  exact hk.of_completes rfl h

/-- An operation that neither writes nor changes the uncommitted indices keeps them stored. -/
theorem UncommitStored.kept (h : UncommitStored self (cluster w)) {self' : RaftMachineStorage}
    {w' : World ε} {op : RaftOp} (ho : ∀ r, op.Writes r → r ≠ .uncommit)
    (hself : self'.uncommitIndex = self.uncommitIndex) (hc : Completes (op.run self) w self' w') :
    UncommitStored self' (cluster w') := by
  intro hsize
  rw [uncommitIn_of_writes ho hc, hself]
  rw [hself] at hsize
  exact h hsize

/-- **The uncommitted indices are read back** in every run. -/
theorem uncommitIn_of_run (h : RecordRun self w) : UncommitStored self (cluster w) := by
  induction h with
  | start h =>
    obtain ⟨_, -, rfl, rfl⟩ := RaftMachineStorage.completes_new.mp h
    exact fun _ => rfl
  | restart _ h =>
    obtain ⟨_, -, rfl, rfl⟩ := RaftMachineStorage.completes_new.mp h
    exact fun _ => rfl
  | step op _ h ih =>
    cases op with
    | append es =>
      -- an append ends with the write of the uncommitted indices, unless it is empty
      obtain ⟨⟨r, core⟩, t, hr, hc⟩ := completes_bind.mp h
      obtain ⟨rfl, rfl⟩ := completes_pure.mp hc
      obtain ⟨-, ⟨-, rfl, rfl⟩ | ⟨-, -, rfl, rfl⟩⟩ := RaftMachineStorage.completes_append hr
      · exact ih
      · intro hsize
        rw [cluster_putRecord]
        exact uncommitIn_insert_self _ hsize
    | commmitIndex idx =>
      -- a commit writes them before the hard state
      obtain ⟨⟨r, core⟩, t, hr, hc⟩ := completes_bind.mp h
      obtain ⟨rfl, rfl⟩ := completes_pure.mp hc
      obtain ⟨e, hs, -, -, -, rfl, rfl⟩ := RaftMachineStorage.completes_commmitIndex hr
      intro hsize
      rw [cluster_putRecord, uncommitIn_insert_record _ (by simp), RaftMachineStorage.uncommitted,
        cluster_putRecord]
      exact uncommitIn_insert_self _ hsize
    | saveHardState hs =>
      have hstate : (RaftOp.saveHardState hs).SavesState := trivial
      exact ih.kept (fun r hr => by rw [hr]; simp) (by rw [hstate.self_eq h]) h
    | setHardStateCommit commit =>
      have hstate : (RaftOp.setHardStateCommit commit).SavesState := trivial
      exact ih.kept (fun r hr => by rw [hr]; simp) (by rw [hstate.self_eq h]) h
    | saveConfState cs =>
      have hstate : (RaftOp.saveConfState cs).SavesState := trivial
      exact ih.kept (fun r hr => by rw [hr]; simp) (by rw [hstate.self_eq h]) h
    | createSnapshot =>
      refine ih.kept (fun r hr => by rcases hr with rfl | rfl <;> simp) ?_ h
      obtain ⟨s, -, rfl, -⟩ := RaftMachineStorage.completes_createSnapshot.mp h
      rfl

/-! ### The store that is opened again -/

/-- Stores with the same metadata answer the same way. -/
theorem answers_congr {core later : RaftMachineStorage}
    (h : later.snapshotMetadata = core.snapshotMetadata) :
    (later.firstIndex : Program (World ε) UInt64) = core.firstIndex ∧
      (later.lastIndex : Program (World ε) UInt64) = core.lastIndex ∧
      (∀ idx, (RaftRocksDBStorage.term later idx : Program (World ε) _) =
        RaftRocksDBStorage.term core idx) ∧
      ∀ low high, (RaftRocksDBStorage.entries later low high : Program (World ε) _) =
        RaftRocksDBStorage.entries core low high := by
  obtain ⟨ui, tr, metadata⟩ := core
  obtain ⟨ui', tr', metadata'⟩ := later
  obtain rfl : metadata' = metadata := h
  exact ⟨rfl, rfl, fun _ => rfl, fun _ _ => rfl⟩

/-- **A restart is invisible** exactly when the records hold the metadata of the snapshot. -/
theorem restartInvisible_iff (h : RecordRun self w) :
    RestartInvisible self w ↔ SnapshotRecorded self (cluster w) := by
  constructor
  · rintro ⟨later, hnew, -, -, hmeta, hui, -, -⟩
    obtain ⟨metadata, hm, rfl, -⟩ := RaftMachineStorage.completes_new.mp hnew
    obtain ⟨hs, cs, hhs, hcs, rfl⟩ := metadataIn_eq_some.mp hm
    refine ⟨⟨hs, cs, hhs, hcs, hmeta.symm⟩, ?_⟩
    rw [← hui]
    exact size_uncommitIn_lt (cluster w)
  · rintro ⟨⟨hs, cs, hhs, hcs, hmeta⟩, hsize⟩
    -- the metadata that the new store reads is that of the dropped one
    have hm : metadataIn (cluster w) = some self.snapshotMetadata :=
      metadataIn_eq_some.mpr ⟨hs, cs, hhs, hcs, hmeta⟩
    have hsame : (RaftMachineStorage.mk (uncommitIn (cluster w)) false
      self.snapshotMetadata).snapshotMetadata = self.snapshotMetadata := rfl
    obtain ⟨hf, hl, ht, he⟩ := @answers_congr ε _ _ hsame
    exact ⟨_, RaftMachineStorage.completes_new.mpr ⟨_, hm, rfl, rfl⟩, congrFun hf w, congrFun hl w,
      rfl, uncommitIn_of_run h hsize, fun idx => congrFun (ht idx) w,
      fun low high => congrFun (he low high) w⟩

/-! ### A commit before a restart -/

theorem opened_recordRun : RecordRun opened.1 opened.2 := .start (completes_finish _ _ _)

theorem withCommit_recordRun : RecordRun withCommit.1 withCommit.2 :=
  (opened_recordRun.step (.append [firstEntry]) (completes_finish _ _ _)).step (.commmitIndex 1)
    (completes_finish _ _ _)

/-- A snapshot is taken after the commit, and another entry is appended. -/
def snapshotTaken : RaftMachineStorage × World Unit :=
  finish ((LogOp.raft .createSnapshot).run withCommit.1) withCommit.2 (by decide +kernel)

def appendedAfter : RaftMachineStorage × World Unit :=
  finish ((LogOp.raft (.append [secondEntry])).run snapshotTaken.1) snapshotTaken.2
    (by decide +kernel)

theorem appendedAfter_recordRun : RecordRun appendedAfter.1 appendedAfter.2 :=
  (withCommit_recordRun.step .createSnapshot (completes_finish _ _ _)).step (.append [secondEntry])
    (completes_finish _ _ _)

/-- The snapshot has the committed index, and the store is opened again without a difference. -/
theorem restartInvisible_appendedAfter :
    appendedAfter.1.snapshotMetadata.index = 1 ∧ appendedAfter.1.uncommitIndex.size = 1 ∧
      RestartInvisible appendedAfter.1 appendedAfter.2 := by
  refine ⟨by decide +kernel, by decide +kernel,
    (restartInvisible_iff appendedAfter_recordRun).mpr ⟨⟨⟨1, 0, 1⟩, .default, ?_, ?_, ?_⟩, ?_⟩⟩
  · decide +kernel
  · decide +kernel
  · decide +kernel
  · decide +kernel

/-- After one commit, the first index is `1`; once the store was opened again, it is `2`. -/
theorem restart_moves_first_index :
    RecordRun withCommit.1 withCommit.2 ∧
      Completes withCommit.1.firstIndex withCommit.2 1 withCommit.2 ∧
      Completes RaftMachineStorage.new withCommit.2 reopened.1 reopened.2 ∧
      Completes reopened.1.firstIndex reopened.2 2 reopened.2 ∧
      ¬ RestartInvisible withCommit.1 withCommit.2 := by
  have hbefore : firstIndexIn withCommit.1 (cluster withCommit.2) = 1 := by decide +kernel
  have hafter : firstIndexIn reopened.1 (cluster reopened.2) = 2 := by decide +kernel
  have hnew : Completes RaftMachineStorage.new withCommit.2 reopened.1 reopened.2 :=
    completes_finish _ _ _
  refine ⟨withCommit_recordRun, ?_, hnew, ?_, ?_⟩
  · rw [Completes, RaftMachineStorage.firstIndex_run, hbefore]
  · rw [Completes, RaftMachineStorage.firstIndex_run, hafter]
  · rintro ⟨later, hlater, hfirst, -⟩
    obtain ⟨rfl, hw⟩ := (completes_of_run hnew).mp hlater
    rw [RaftMachineStorage.firstIndex_run, RaftMachineStorage.firstIndex_run, hbefore, ← hw,
      hafter] at hfirst
    cases hfirst

end PlacementCenter.Raft
