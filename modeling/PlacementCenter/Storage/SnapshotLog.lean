import PlacementCenter.Storage.IndexBounds
import PlacementCenter.Storage.SnapshotInstall

/-!
# The log after an installation

An installation writes no record of an index itself. The last index of the receiver is afterwards
the one that its sender had recorded, or its own, and the snapshot only decides where neither can
be read.

## Main definitions

* `InLog`: an entry can be read, and its index lies within the two bounds
* `ReplacesLog`: the log ends at the snapshot
* `source sender receiver r`: the contents that a record is from after an installation

## Main results

* `replacesLog_iff`: the log ends at the snapshot when the recorded last index does
-/

namespace PlacementCenter.Storage

open Rust Rust.Prost Raft Program

variable {ε : Type}

/-- An entry is part of the log: it can be read, within the two bounds. -/
def InLog (core : RaftMachineStorage) (w : World ε) (idx : UInt64) : Prop :=
  ∃ first last e, Completes core.firstIndex w first w ∧ Completes core.lastIndex w last w ∧
    Completes (RaftMachineStorage.entryByIdx idx) w (some e) w ∧ first ≤ idx ∧ idx ≤ last

/-- The log ends at a snapshot with the index `index`. -/
structure ReplacesLog (core : RaftMachineStorage) (w : World ε) (index : UInt64) : Prop where
  last : Completes core.lastIndex w index w
  /-- No entry above the snapshot is left, whose ever it was. -/
  no_entry_above : ∀ idx, InLog core w idx → idx ≤ index

/-- The second part follows from the first. -/
theorem replacesLog_of_last {core : RaftMachineStorage} {w : World ε} {index : UInt64}
    (h : Completes core.lastIndex w index w) : ReplacesLog core w index := by
  refine ⟨h, ?_⟩
  rintro idx ⟨first, last, e, -, hlast, -, -, hle⟩
  obtain ⟨rfl, -⟩ := (completes_of_run hlast).mp h
  exact hle

/-- The contents that a record is from after an installation: those of the sender, where it has
the record. -/
def source (sender receiver : ColumnFamily) (r : Record) : ColumnFamily :=
  if sender[r.key]? = none then receiver else sender

variable {leader follower follower' : RaftMachineStorage} {wL w w' : World ε} {s : Snapshot}

/-- **A recorded index after an installation** is that of the sender, or else that of the
receiver. -/
theorem recordedIndex_installed (hL : Reachable leader wL)
    (hs : Completes RaftMachineStorage.newSnapshot wL s wL)
    (h : Completes (follower.applySnapshot s) w (.ok (), follower') w') {r : Record}
    (hh : r ≠ .hardState) (hc : r ≠ .confState) :
    recordedIndex (cluster w') r = recordedIndex (source (cluster wL) (cluster w) r) r := by
  refine recordedIndex_congr ?_
  rw [lookup_installed hL hs h (by simpa using hh) (by simpa using hc), source]
  rcases hk : (cluster wL)[r.key]? with _ | v
  · rw [if_pos rfl, Option.none_or]
  · rw [if_neg (by simp), Option.some_or, hk]

/-- The last index after an installation. -/
theorem lastIndexIn_installed (hL : Reachable leader wL)
    (hs : Completes RaftMachineStorage.newSnapshot wL s wL)
    (h : Completes (follower.applySnapshot s) w (.ok (), follower') w') :
    lastIndexIn follower' (cluster w') =
      (recordedIndex (source (cluster wL) (cluster w) .lastIndex) .lastIndex).getD
        s.getMetadata.index := by
  obtain ⟨-, rfl, -⟩ := RaftMachineStorage.completes_applySnapshot h
  rw [lastIndexIn, indexIn_eq, recordedIndex_installed hL hs h (by simp) (by simp)]
  rfl

/-- **An installation replaces the log exactly when the last index that the sender has recorded
is the index of the snapshot**; where the sender has recorded none, that of the receiver. -/
theorem replacesLog_iff (hL : Reachable leader wL)
    (hs : Completes RaftMachineStorage.newSnapshot wL s wL)
    (h : Completes (follower.applySnapshot s) w (.ok (), follower') w') :
    ReplacesLog follower' w' s.getMetadata.index ↔
      ∀ li ∈ recordedIndex (source (cluster wL) (cluster w) .lastIndex) .lastIndex,
        li = s.getMetadata.index := by
  have hrun := RaftMachineStorage.lastIndex_run follower' w'
  rw [lastIndexIn_installed hL hs h] at hrun
  constructor
  · intro hr li hli
    obtain ⟨hi, -⟩ := (completes_of_run hrun).mp hr.last
    rw [Option.mem_def.mp hli] at hi
    exact hi
  · intro hc
    apply replacesLog_of_last
    rw [completes_of_run hrun]
    rcases hli : recordedIndex (source (cluster wL) (cluster w) .lastIndex) .lastIndex with _ | li
    · exact ⟨rfl, rfl⟩
    · exact ⟨hc li hli, rfl⟩

theorem replacesLog_installed :
    ReplacesLog installed.1.2 installed.2 sent.1.getMetadata.index ↔
      ∀ li ∈ recordedIndex (source (cluster sender.2) (cluster receiver.2) .lastIndex) .lastIndex,
        li = sent.1.getMetadata.index :=
  replacesLog_iff sender_reachable sent_completes installed_completes

/-! A sender that has appended two entries and committed the first, and a receiver without a
log. -/

def aheadOps : List StoreOp :=
  [.raft (.append [{ Entry.default with term := 1, index := 1 },
    { Entry.default with term := 1, index := 2 }]), .raft (.commmitIndex 1)]

def aheadSender : RaftMachineStorage × World Unit :=
  finish (runOps aheadOps) World.empty (by decide +kernel)

def freshReceiver : RaftMachineStorage × World Unit :=
  finish RaftMachineStorage.new World.empty new_isOk

def aheadSent : Snapshot × World Unit :=
  finish RaftMachineStorage.newSnapshot aheadSender.2 (by decide +kernel)

theorem aheadSender_reachable : Reachable aheadSender.1 aheadSender.2 :=
  reachable_runOps (completes_finish _ _ _)

theorem freshReceiver_reachable : Reachable freshReceiver.1 freshReceiver.2 :=
  .start (completes_finish _ _ _)

theorem aheadSent_completes :
    Completes RaftMachineStorage.newSnapshot aheadSender.2 aheadSent.1 aheadSender.2 := by
  have h := completes_finish RaftMachineStorage.newSnapshot aheadSender.2 (by decide +kernel)
  exact RaftMachineStorage.completes_newSnapshot.mpr
    ⟨(RaftMachineStorage.completes_newSnapshot.mp h).1, rfl⟩

theorem aheadSent_index : aheadSent.1.getMetadata.index = 1 := by decide +kernel

/-- The fresh receiver takes the snapshot. -/
theorem aheadSent_installs : ∃ follower' w',
    Completes (freshReceiver.1.applySnapshot aheadSent.1) freshReceiver.2 (.ok (), follower') w' := by
  have hsnap := (RaftMachineStorage.completes_newSnapshot.mp aheadSent_completes).1
  have hfirst : firstIndexIn freshReceiver.1 (cluster freshReceiver.2) ≤
      aheadSent.1.getMetadata.index := by
    rw [aheadSent_index]
    decide +kernel
  have hread : hardStateIn (cluster (RaftMachineStorage.restored freshReceiver.2
      (RaftMachineStorage.payloadPairs aheadSent.1.data))) = some ⟨1, 0, 1⟩ := by
    rw [RaftMachineStorage.payloadPairs_snapshotOf hsnap, hardStateIn_restored aheadSender_reachable,
      if_neg (by decide +kernel)]
    decide +kernel
  exact ⟨_, _, RaftMachineStorage.applySnapshot_run hfirst hread⟩

/-- The snapshot has the index `1`, and the log of the receiver reaches to `2`: the entry that was
not committed is part of it. -/
theorem install_brings_uncommitted :
    ∃ follower' w', Reachable aheadSender.1 aheadSender.2 ∧
      Reachable freshReceiver.1 freshReceiver.2 ∧
      Completes RaftMachineStorage.newSnapshot aheadSender.2 aheadSent.1 aheadSender.2 ∧
      Completes (freshReceiver.1.applySnapshot aheadSent.1) freshReceiver.2 (.ok (), follower') w' ∧
      aheadSent.1.getMetadata.index = 1 ∧ Completes follower'.lastIndex w' 2 w' ∧
      ¬ ReplacesLog follower' w' aheadSent.1.getMetadata.index := by
  obtain ⟨follower', w', happly⟩ := aheadSent_installs
  have hlast : Completes follower'.lastIndex w' 2 w' := by
    have hrun := RaftMachineStorage.lastIndex_run follower' w'
    rw [lastIndexIn_installed aheadSender_reachable aheadSent_completes happly] at hrun
    rw [completes_of_run hrun]
    -- the sender has the record, and the text of it is `2`
    have hli : recordedIndex (source (cluster aheadSender.2) (cluster freshReceiver.2) .lastIndex)
        .lastIndex = some 2 := by decide +kernel
    rw [hli]
    exact ⟨rfl, rfl⟩
  refine ⟨follower', w', aheadSender_reachable, freshReceiver_reachable, aheadSent_completes,
    happly, aheadSent_index, hlast, ?_⟩
  intro hr
  obtain ⟨h21, -⟩ := (completes_of_run hlast).mp hr.last
  rw [aheadSent_index] at h21
  exact absurd h21 (by decide)

end PlacementCenter.Storage
