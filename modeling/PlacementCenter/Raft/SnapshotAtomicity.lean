import PlacementCenter.Raft.RaftRocksDBStorage
import PlacementCenter.Storage.FailingPuts
import PlacementCenter.Storage.StoreRuns

/-!
# Installing all or nothing

The wrapper of the log store returns `Ok` for every installation: one that was refused, one whose
payload could not be read, and one whose puts failed. Puts may fail here in any pattern.

## Main definitions

* `Installed s m`: the contents `m` hold what a snapshot carries
* `AllOrNothing`: `Ok` after everything was installed, an error after nothing was changed
* `InstallsFully`: an installation that goes through

## Main results

* `allOrNothing_iff`: an installation is all or nothing when it goes through, or has nothing to do
-/

namespace PlacementCenter.Raft

open Rust Rust.Prost Storage Program RaftMachineStorage

variable {ε : Type}

/-! ### What is to be installed -/

/-- A pair of a payload that is not one of the two records set from the metadata. -/
def IsContent (p : Bytes × Bytes) : Prop :=
  p.1 ≠ Record.hardState.key ∧ p.1 ≠ Record.confState.key

/-- A payload is empty or can be read. -/
def Readable (data : Bytes) : Prop :=
  data = [] ∨ ∃ dump : Dump, Bincode.deserialize data = some dump

/-- The text of the configuration that a snapshot carries. -/
def confText (s : Snapshot) : Bytes :=
  recordBytes (encodeToVec (s.getMetadata.confState.getD ConfState.default))

/-- The contents hold what a snapshot carries. -/
structure Installed (s : Snapshot) (m : ColumnFamily) : Prop where
  readable : Readable s.data
  content : ∀ p ∈ payloadBytes s.data, IsContent p → m[p.1]? = some p.2
  commit : ∃ hs, hardStateIn m = some hs ∧ hs.commit = s.getMetadata.index
  conf : m[Record.confState.key]? = some (confText s)

/-- A result `Ok` after everything was installed, or an error that left the store and the database
as they were. -/
def AllOrNothing (core : RaftMachineStorage) (s : Snapshot) (d : Disk ε) :
    RaftResult Unit × RaftMachineStorage → Disk ε → Prop
  | (.ok (), _), d' => Installed s (cluster d'.world)
  | (.error _, core'), d' => core' = core ∧ d'.world.columns = d.world.columns

/-! ### When it is -/

/-- The put of a record after the payload succeeds: the hard state is the first, the configuration
the second. -/
def PutSucceeds (d : Disk ε) (s : Snapshot) (i : ℕ) : Prop :=
  d.outcome (d.tried + (payloadBytes s.data).length + i) = none

/-- An installation goes through: it is not refused, its payload can be read and gives every key
one value, and every record is put or holds its value already. -/
structure InstallsFully (core : RaftMachineStorage) (s : Snapshot) (d : Disk ε) : Prop where
  accepted : firstIndexIn core (cluster d.world) ≤ s.getMetadata.index
  readable : Readable s.data
  one_value : ∀ p ∈ payloadBytes s.data, IsContent p → ∀ q ∈ payloadBytes s.data,
    q.1 = p.1 → q.2 = p.2
  lands : ∀ p ∈ payloadBytes s.data, IsContent p →
    Disk.Lands d dbColumnFamilyCluster (payloadBytes s.data) p
  /-- The hard state found once the payload was written. -/
  commit : ∃ hs, hardStateIn (cluster (restoredOn d s.data).world) = some hs ∧
    (PutSucceeds d s 0 ∨ hs.commit = s.getMetadata.index)
  conf : PutSucceeds d s 1 ∨
    (cluster (restoredOn d s.data).world)[Record.confState.key]? = some (confText s)

section installed

variable {d : Disk ε} {s : Snapshot} {hs : HardState}

/-- The next put after the payload is the one with its number. -/
theorem next_restoredOn : (restoredOn d s.data).next = none ↔ PutSucceeds d s 0 := by
  rw [Disk.next, restoredOn, Disk.tried_puts, Disk.outcome_puts, PutSucceeds, Nat.add_zero]

theorem next_putOn_restoredOn {α : Type} [SerdeJson α] (r : Record) (value : α) :
    (putOn (restoredOn d s.data) r value).next = none ↔ PutSucceeds d s 1 := by
  rw [Disk.next, putOn, Disk.tried_put, Disk.outcome_put, restoredOn, Disk.tried_puts,
    Disk.outcome_puts, PutSucceeds]

/-- The content of a payload is not touched by the two records that follow. -/
theorem lookup_installedOn {k : Bytes} (hh : k ≠ Record.hardState.key)
    (hc : k ≠ Record.confState.key) :
    (cluster (installedOn d s hs).world)[k]? = (cluster (restoredOn d s.data).world)[k]? := by
  rw [installedOn, lookup_putOn_ne _ _ hc.symm, lookup_putOn_ne _ _ hh.symm]

/-- The commit index is installed when the put of the hard state succeeds, or when the hard state
that was read back has it. -/
theorem commit_installedOn (hread : hardStateIn (cluster (restoredOn d s.data).world) = some hs) :
    (∃ hs', hardStateIn (cluster (installedOn d s hs).world) = some hs' ∧
      hs'.commit = s.getMetadata.index) ↔ PutSucceeds d s 0 ∨ hs.commit = s.getMetadata.index := by
  have hself := lookup_putOn_self (restoredOn d s.data) .hardState
    (encodeToVec (installedState hs s.getMetadata))
  have hrec : hardStateIn (cluster (installedOn d s hs).world) =
      hardStateIn (cluster (putOn (restoredOn d s.data) .hardState
        (encodeToVec (installedState hs s.getMetadata))).world) :=
    hardStateIn_congr (lookup_putOn_ne _ _ (by simp))
  rw [hrec, ← next_restoredOn]
  by_cases hn : (restoredOn d s.data).next = none
  · rw [if_pos hn] at hself
    refine iff_of_true ⟨installedState hs s.getMetadata, ?_, rfl⟩ (.inl hn)
    have hput := hardStateIn_insert_self ∅ (installedState hs s.getMetadata)
    rw [← hput]
    exact hardStateIn_congr (hself.trans (OrdMap.lookup_insert_self ..).symm)
  · rw [if_neg hn] at hself
    rw [hardStateIn_congr hself, hread]
    simp [hn]

/-- The configuration is installed when its put succeeds, or when it is there already. -/
theorem conf_installedOn :
    (cluster (installedOn d s hs).world)[Record.confState.key]? = some (confText s) ↔
      PutSucceeds d s 1 ∨
        (cluster (restoredOn d s.data).world)[Record.confState.key]? = some (confText s) := by
  rw [installedOn, lookup_putOn_self]
  have hnext := next_putOn_restoredOn (d := d) (s := s) .hardState
    (encodeToVec (installedState hs s.getMetadata))
  split_ifs with hn
  · exact iff_of_true rfl (.inl (hnext.mp hn))
  · rw [lookup_putOn_ne _ _ (by simp)]
    have hp : ¬ PutSucceeds d s 1 := fun hp => hn (hnext.mpr hp)
    simp [hp]

/-- The content of a payload is installed when every key has one value and every pair lands. -/
theorem content_installedOn :
    (∀ p ∈ payloadBytes s.data, IsContent p →
        (cluster (installedOn d s hs).world)[p.1]? = some p.2) ↔
      (∀ p ∈ payloadBytes s.data, IsContent p → ∀ q ∈ payloadBytes s.data,
        q.1 = p.1 → q.2 = p.2) ∧
      ∀ p ∈ payloadBytes s.data, IsContent p →
        Disk.Lands d dbColumnFamilyCluster (payloadBytes s.data) p := by
  constructor
  · intro h
    -- the last value of a key is the one that is read
    have one : ∀ p ∈ payloadBytes s.data, IsContent p → ∀ q ∈ payloadBytes s.data,
        q.1 = p.1 → q.2 = p.2 := by
      intro p hp hc q hq hk
      have hqc : IsContent q := ⟨by rw [hk]; exact hc.1, by rw [hk]; exact hc.2⟩
      have hpv := h p hp hc
      have hqv := h q hq hqc
      rw [hk, hpv] at hqv
      exact (Option.some_inj.mp hqv).symm
    refine ⟨one, fun p hp hc => ?_⟩
    have hpv := h p hp hc
    rw [lookup_installedOn hc.1 hc.2] at hpv
    exact (Disk.lookup_puts (one p hp hc)).mp hpv
  · rintro ⟨one, lands⟩ p hp hc
    rw [lookup_installedOn hc.1 hc.2]
    exact (Disk.lookup_puts (one p hp hc)).mpr (lands p hp hc)

end installed

/-- **An installation is all or nothing exactly when it goes through, or when it is refused and
the store holds everything already.** -/
theorem allOrNothing_iff (core : RaftMachineStorage) (s : Snapshot) (d : Disk ε) :
    Meets (RaftRocksDBStorage.applySnapshot core s) d (AllOrNothing core s d) (fun _ => False) ↔
      InstallsFully core s d ∨
        s.getMetadata.index < firstIndexIn core (cluster d.world) ∧
          Installed s (cluster d.world) := by
  unfold RaftRocksDBStorage.applySnapshot
  by_cases hf : s.getMetadata.index < firstIndexIn core (cluster d.world)
  · -- refused: the error is dropped
    have hno : ¬ InstallsFully core s d := fun h => UInt64.not_lt.mpr h.accepted hf
    rw [meets_iff_of_run_ok (bind_run_ok (applySnapshot_disk_refused hf) _)]
    simp only [AllOrNothing, hno, hf, false_or, true_and]
  · have hle := UInt64.not_lt.mp hf
    simp only [hf, false_and, or_false]
    rcases hread : hardStateIn (cluster (restoredOn d s.data).world) with _ | hs
    · -- the hard state cannot be read back: the installation panics half way
      have hrun := @applySnapshot_disk _ core s d hle
      rw [hread] at hrun
      rw [meets_iff_of_run_panicked (bind_run_panicked hrun _)]
      refine iff_of_false id ?_
      rintro ⟨-, -, -, -, ⟨hs, hhs, -⟩, -⟩
      rw [hread] at hhs
      cases hhs
    -- the installation goes through: each record decides by itself
    · have hrun := @applySnapshot_disk _ core s d hle
      rw [hread] at hrun
      rw [meets_iff_of_run_ok (bind_run_ok hrun _)]
      change Installed s (cluster (installedOn d s hs).world) ↔ _
      constructor
      · rintro ⟨readable, content, commit, conf⟩
        obtain ⟨one, lands⟩ := content_installedOn.mp content
        exact ⟨hle, readable, one, lands, ⟨hs, hread, (commit_installedOn hread).mp commit⟩,
          conf_installedOn.mp conf⟩
      · rintro ⟨-, readable, one, lands, ⟨hs', hhs', commit⟩, conf⟩
        obtain rfl : hs = hs' := Option.some.inj (hread.symm.trans hhs')
        exact ⟨readable, content_installedOn.mpr ⟨one, lands⟩,
          (commit_installedOn hread).mpr commit, conf_installedOn.mpr conf⟩

/-! A snapshot with the index `5` whose payload is one byte, on an empty store. -/

def unreadableSnapshot : Snapshot where
  data := ⟨[1], by decide⟩
  metadata := some { SnapshotMetadata.default with index := 5 }

def emptyDisk : RaftMachineStorage × World Unit :=
  finish RaftMachineStorage.new World.empty new_isOk

/-- Every put succeeds, the result is `Ok`, the store claims the index `5`, and nothing was
restored. -/
theorem unreadable_payload_installed :
    Reachable emptyDisk.1 emptyDisk.2 ∧
      (∃ core' d', Completes (RaftRocksDBStorage.applySnapshot emptyDisk.1 unreadableSnapshot)
          (Disk.sound emptyDisk.2) (.ok (), core') d' ∧
        hardStateIn (cluster d'.world) = some ⟨0, 0, 5⟩) ∧
      ¬ Meets (RaftRocksDBStorage.applySnapshot emptyDisk.1 unreadableSnapshot)
        (Disk.sound emptyDisk.2) (AllOrNothing emptyDisk.1 unreadableSnapshot
          (Disk.sound emptyDisk.2)) (fun _ => False) := by
  have hrun := @applySnapshot_disk _ emptyDisk.1 unreadableSnapshot (Disk.sound emptyDisk.2)
    (by decide +kernel)
  have hread : hardStateIn (cluster (restoredOn (Disk.sound emptyDisk.2)
      unreadableSnapshot.data).world) = some HardState.default := by decide +kernel
  rw [hread] at hrun
  have hc : Completes (RaftRocksDBStorage.applySnapshot emptyDisk.1 unreadableSnapshot)
      (Disk.sound emptyDisk.2) (.ok (), _) _ := bind_run_ok hrun _
  refine ⟨.start (completes_finish _ _ _), ⟨_, _, hc, by decide +kernel⟩, ?_⟩
  intro h
  have hi : Installed unreadableSnapshot _ := h.of_completes hc
  rcases hi.readable with h | ⟨dump, h⟩
  · exact absurd h (by decide)
  · exact absurd h (by
      have : (Bincode.deserialize unreadableSnapshot.data.val : Option Dump) = none := by
        decide +kernel
      rw [this]
      simp)

end PlacementCenter.Raft
