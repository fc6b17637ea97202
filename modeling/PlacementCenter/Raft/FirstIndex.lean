import PlacementCenter.Raft.TermLookup

/-!
# The first index and the snapshot

The first available index should follow the index of the snapshot. The first index is a record once
a snapshot was taken, and follows from the snapshot in memory before that. A snapshot records its
own index as the first one, an installed snapshot brings the record of another node, and a restart
takes the commit index for that of the snapshot.

## Main definitions

* `SnapOp`: the operations of the log store, the installation of a snapshot and a restart
* `SnapRun Cond self w`: a run of operations that meet `Cond`
* `FollowsSnapshot`: the first index follows the index of the snapshot
* `SnapOp.KeepsFirst`: the operations after which it still does

## Main results

* `followsSnapshot_step_iff`: an operation keeps the first index in place exactly when it meets
  the condition
* `followsSnapshot_of_run`: in a run of such operations, the first index follows the snapshot
-/

namespace PlacementCenter.Raft

open Rust Storage Program

/-- The operations on the log store of a node, with installations and restarts. -/
inductive SnapOp where
  | raft (op : RaftOp)
  | applySnapshot (snapshot : Snapshot)
  | restart

/-- What an operation returns, with the store after it. -/
def SnapOp.run {σ : Type} [RocksDb σ] (self : RaftMachineStorage) :
    SnapOp → Program σ (RaftResult Unit × RaftMachineStorage)
  | raft op => do return (.ok (), ← op.run self)
  | applySnapshot snapshot => self.applySnapshot snapshot
  | restart => do return (.ok (), ← RaftMachineStorage.new)

variable {ε : Type}

/-- A run of operations that return `Ok` and meet `Cond`, from the empty database. -/
inductive SnapRun (Cond : RaftMachineStorage → ColumnFamily → SnapOp → Prop) :
    RaftMachineStorage → World ε → Prop where
  | start {self w} (h : Completes RaftMachineStorage.new World.empty self w) : SnapRun Cond self w
  | step {self self' w w'} (op : SnapOp) (hr : SnapRun Cond self w) (hc : Cond self (cluster w) op)
    (h : Completes (op.run self) w (.ok (), self') w') : SnapRun Cond self' w'

/-- The first available index is the one after the snapshot. -/
def FollowsSnapshot (core : RaftMachineStorage) (w : World ε) : Prop :=
  Completes (RaftRocksDBStorage.firstIndex core) w (.ok (core.snapshotMetadata.index + 1)) w

/-- The contents once the payload of a snapshot was written. -/
def withPayload (m : ColumnFamily) (s : Snapshot) : ColumnFamily :=
  OrdMap.writePairs m
    ((RaftMachineStorage.payloadPairs s.data).map fun p => (utf8 p.1, utf8 p.2))

/-- The operations that keep the first index in place. No snapshot is taken; with the payload of an
installed snapshot, a recorded first index is the one after the snapshot; at a restart it is the
one after the commit index. -/
def SnapOp.KeepsFirst (_ : RaftMachineStorage) (m : ColumnFamily) : SnapOp → Prop
  | raft .createSnapshot => False
  | raft _ => True
  | applySnapshot s => ∀ fi, readRecord UInt64 (withPayload m s) .firstIndex = .ok (some fi) →
    fi = s.getMetadata.index + 1
  | restart => ∀ fi hs, readRecord UInt64 m .firstIndex = .ok (some fi) →
    hardStateIn m = some hs → fi = hs.commit + 1

/-! ### Operations and the first index -/

variable {core self self' : RaftMachineStorage} {w w' : World ε}

theorem followsSnapshot_iff :
    FollowsSnapshot core w ↔ firstIndexIn core (cluster w) = core.snapshotMetadata.index + 1 := by
  unfold FollowsSnapshot RaftRocksDBStorage.firstIndex
  rw [Completes, bind_run_ok (RaftMachineStorage.firstIndex_run core w)]
  simp

/-- Without a recorded first index, or with the right one. -/
theorem firstIndexIn_eq_iff {m : ColumnFamily} :
    firstIndexIn core m = core.snapshotMetadata.index + 1 ↔
      ∀ fi, readRecord UInt64 m .firstIndex = .ok (some fi) →
        fi = core.snapshotMetadata.index + 1 := by
  rw [firstIndexIn, indexIn]
  rcases readRecord UInt64 m .firstIndex with e | _ | fi <;> simp

/-- An operation that takes no snapshot changes neither the first index nor the snapshot. -/
theorem first_of_raftOp {op : RaftOp} (hne : op ≠ .createSnapshot)
    (h : Completes (op.run self) w self' w') :
    self'.snapshotMetadata = self.snapshotMetadata ∧
      readRecord UInt64 (cluster w') .firstIndex = readRecord UInt64 (cluster w) .firstIndex := by
  have hwrites : ∀ r, op.Writes r → r ≠ .firstIndex := by
    intro r hr
    by_cases ho : IsStateOp op
    · exact (ho.writes r hr).2.2
    · cases op with
      | append es => rcases hr with ⟨e, -, rfl⟩ | rfl | rfl <;> simp
      | createSnapshot => exact absurd rfl hne
      | _ => exact absurd trivial ho
  have hk : Keeps (fun t : World ε => readRecord UInt64 (cluster t) .firstIndex =
      readRecord UInt64 (cluster w) .firstIndex) (op.run self) := by
    refine op.keeps (fun t r text hr ht => ?_) self
    rw [cluster_putKey, readRecord_insert_record _ (hwrites r hr)]
    exact ht
  refine ⟨?_, hk.of_completes rfl h⟩
  -- an operation on the states leaves the store; an append only its uncommitted indices
  by_cases ho : IsStateOp op
  · exact ho.snapshotMetadata h
  · cases op with
    | append es =>
      obtain ⟨⟨r, core⟩, t, hr, hc⟩ := completes_bind.mp h
      obtain ⟨rfl, rfl⟩ := completes_pure.mp hc
      obtain ⟨-, ⟨-, rfl, -⟩ | ⟨-, -, rfl, -⟩⟩ := RaftMachineStorage.completes_append hr <;> rfl
    | createSnapshot => exact absurd rfl hne
    | _ => exact absurd trivial ho

/-- After a snapshot was taken, the recorded first index is that of the snapshot itself. -/
theorem not_followsSnapshot_createSnapshot
    (h : Completes (RaftOp.createSnapshot.run self) w self' w') : ¬ FollowsSnapshot self' w' := by
  rw [followsSnapshot_iff]
  intro heq
  obtain ⟨s, -, rfl, rfl⟩ := RaftMachineStorage.completes_createSnapshot.mp h
  have hfirst : firstIndexIn (self.afterSnapshot s) (cluster (putRecord
      (putRecord w .firstIndex s.getMetadata.index) .snapshot (Prost.encodeToVec s))) =
        s.getMetadata.index := by
    simp [firstIndexIn]
  rw [hfirst] at heq
  have hnat := congrArg UInt64.toNat (show s.getMetadata.index = s.getMetadata.index + 1 from heq)
  have hlt := s.getMetadata.index.toNat_lt
  rw [UInt64.toNat_add, show (1 : UInt64).toNat = 1 from rfl] at hnat
  omega

/-- **An operation keeps the first index in place** exactly when it meets the condition. -/
theorem followsSnapshot_step_iff {op : SnapOp} (hf : FollowsSnapshot self w)
    (h : Completes (op.run self) w (.ok (), self') w') :
    FollowsSnapshot self' w' ↔ op.KeepsFirst self (cluster w) := by
  rw [followsSnapshot_iff] at hf ⊢
  cases op with
  | raft op =>
    obtain ⟨core, t, hop, hc⟩ := completes_bind.mp h
    obtain ⟨heq, rfl⟩ := completes_pure.mp hc
    obtain ⟨-, rfl⟩ := Prod.mk.inj heq
    by_cases hne : op = .createSnapshot
    · -- a snapshot moves the first index to its own index
      subst hne
      exact iff_of_false
        (fun heq => not_followsSnapshot_createSnapshot hop (followsSnapshot_iff.mpr heq)) id
    -- the other operations leave the metadata and the first index
    · obtain ⟨hmeta, hread⟩ := first_of_raftOp hne hop
      refine iff_of_true ?_ ?_
      · rw [firstIndexIn_congr (congrArg SnapshotMetadata.index hmeta) hread, hmeta]
        exact hf
      · cases op with
        | createSnapshot => exact absurd rfl hne
        | _ => trivial
  | applySnapshot s =>
    -- the metadata are those of the snapshot, the first index that of the restored contents
    obtain ⟨-, rfl, hs, -, rfl⟩ := RaftMachineStorage.completes_applySnapshot h
    rw [firstIndexIn_eq_iff]
    simp only [cluster_putRecord]
    rw [readRecord_insert_record _ (by simp), readRecord_insert_record _ (by simp),
      RaftMachineStorage.cluster_restored]
    rfl
  | restart =>
    obtain ⟨core, t, hnew, hc⟩ := completes_bind.mp h
    obtain ⟨heq, rfl⟩ := completes_pure.mp hc
    obtain ⟨-, rfl⟩ := Prod.mk.inj heq
    obtain ⟨metadata, hm, rfl, rfl⟩ := RaftMachineStorage.completes_new.mp hnew
    obtain ⟨hs, cs, hhs, -, rfl⟩ := metadataIn_eq_some.mp hm
    rw [firstIndexIn_eq_iff]
    -- the metadata are those of the stored hard state
    constructor
    · intro hall fi hs' hfi hhs'
      obtain rfl : hs = hs' := Option.some_inj.mp (hhs.symm.trans hhs')
      exact hall fi hfi
    · intro hk fi hfi
      exact hk fi hs hfi hhs

/-! ### Runs -/

/-- **In a run of such operations, the first index follows the snapshot.** -/
theorem followsSnapshot_of_run (h : SnapRun SnapOp.KeepsFirst self w) : FollowsSnapshot self w := by
  induction h with
  | start h =>
    obtain ⟨metadata, -, rfl, rfl⟩ := RaftMachineStorage.completes_new.mp h
    rw [followsSnapshot_iff, firstIndexIn_eq_iff]
    intro fi hfi
    rw [cluster_empty, readRecord_empty] at hfi
    cases hfi
  | step op _ hc h ih => exact (followsSnapshot_step_iff ih h).mpr hc

/-! ### A snapshot of one entry -/

/-- An operation of the log store, as a step of a run. -/
theorem SnapRun.raft {Cond : RaftMachineStorage → ColumnFamily → SnapOp → Prop} (op : RaftOp)
    (hr : SnapRun Cond self w) (hc : Cond self (cluster w) (.raft op))
    (h : Completes (op.run self) w self' w') : SnapRun Cond self' w' :=
  hr.step (.raft op) hc (completes_bind.mpr ⟨_, _, h, completes_pure.mpr ⟨rfl, rfl⟩⟩)

/-- A step of a run that returns `Ok`. -/
theorem SnapRun.ok {Cond : RaftMachineStorage → ColumnFamily → SnapOp → Prop} {w : World Unit}
    (op : SnapOp) (hr : SnapRun Cond self w) (hc : Cond self (cluster w) op)
    {x : (RaftResult Unit × RaftMachineStorage) × World Unit}
    (h : Completes (op.run self) w x.1 x.2) (hok : x.1.1.toBool = true) :
    SnapRun Cond x.1.2 x.2 := by
  obtain ⟨⟨r, core⟩, t⟩ := x
  cases r with
  | ok _ => exact hr.step op hc h
  | error _ => cases hok

/-- The snapshot of the committed entry. -/
def entrySnapshot : Snapshot × World Unit :=
  finish RaftMachineStorage.newSnapshot withCommit.2 (by decide +kernel)

/-- An empty store once it installed the snapshot. -/
def takenOver : (RaftResult Unit × RaftMachineStorage) × World Unit :=
  finish ((SnapOp.applySnapshot entrySnapshot.1).run opened.1) opened.2 (by decide +kernel)

/-- The store after a restart. -/
def cameUp : (RaftResult Unit × RaftMachineStorage) × World Unit :=
  finish (SnapOp.restart.run takenOver.1.2) takenOver.2 (by decide +kernel)

theorem takenOver_snapRun : SnapRun SnapOp.KeepsFirst takenOver.1.2 takenOver.2 := by
  have h₀ : SnapRun SnapOp.KeepsFirst opened.1 opened.2 := .start (completes_finish _ _ _)
  have hnone : readRecord UInt64 (withPayload (cluster opened.2) entrySnapshot.1) .firstIndex =
      .ok none := by decide +kernel
  refine h₀.ok (.applySnapshot entrySnapshot.1) ?_ (completes_finish _ _ _) (by decide +kernel)
  intro fi hfi
  rw [hnone] at hfi
  cases hfi

/-- A snapshot that is installed, and a restart after it, leave the first index behind the
snapshot. -/
theorem followsSnapshot_cameUp :
    cameUp.1.2.snapshotMetadata.index = 1 ∧ FollowsSnapshot cameUp.1.2 cameUp.2 := by
  have hnone : readRecord UInt64 (cluster takenOver.2) .firstIndex = .ok none := by decide +kernel
  refine ⟨by decide +kernel, followsSnapshot_of_run (takenOver_snapRun.ok .restart ?_
    (completes_finish _ _ _) (by decide +kernel))⟩
  intro fi hs hfi
  rw [hnone] at hfi
  cases hfi

def compacted : RaftMachineStorage × World Unit :=
  finish (RaftOp.createSnapshot.run withCommit.1) withCommit.2 (by decide +kernel)

/-- After a snapshot at index `1`, the first index is `1` as well. -/
theorem first_index_at_snapshot :
    SnapRun (fun _ _ _ => True) compacted.1 compacted.2 ∧
      compacted.1.snapshotMetadata.index = 1 ∧
      Completes (RaftRocksDBStorage.firstIndex compacted.1) compacted.2 (.ok 1) compacted.2 ∧
      ¬ FollowsSnapshot compacted.1 compacted.2 := by
  have hindex : compacted.1.snapshotMetadata.index = 1 := by decide +kernel
  have hfirst : firstIndexIn compacted.1 (cluster compacted.2) = 1 := by decide +kernel
  have h₀ : SnapRun (fun _ _ _ => True) opened.1 opened.2 := .start (completes_finish _ _ _)
  have h₁ := h₀.raft (.append [firstEntry]) trivial
    (completes_finish _ _ (by decide +kernel) : Completes _ _ withEntry.1 withEntry.2)
  have h₂ := h₁.raft (.commmitIndex 1) trivial
    (completes_finish _ _ (by decide +kernel) : Completes _ _ withCommit.1 withCommit.2)
  refine ⟨h₂.raft .createSnapshot trivial (completes_finish _ _ _), hindex, ?_, ?_⟩
  · unfold RaftRocksDBStorage.firstIndex
    rw [Completes, bind_run_ok (RaftMachineStorage.firstIndex_run _ _), hfirst]
    rfl
  · rw [followsSnapshot_iff, hfirst, hindex]
    decide

end PlacementCenter.Raft
