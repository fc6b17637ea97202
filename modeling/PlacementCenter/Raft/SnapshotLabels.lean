import PlacementCenter.Raft.RaftRocksDBStorage
import PlacementCenter.Storage.SnapshotInstall

/-!
# The label of a snapshot

The raft crate asks for a snapshot whose index is not below a requested one. The store dumps its
contents, labels the dump with its commit index, and raises the label to the requested index where
it is below.

## Main definitions

* `LabelsContent`: a snapshot is labelled with the commit index of the contents it carries
* `ServesRequest`: the contents can be dumped, and their commit index is not below the request

## Main results

* `snapshot_run`: what a request for a snapshot returns
* `labelsContent_iff`: the label is right when the store is not behind the request
-/

namespace PlacementCenter.Raft

open Rust Rust.Prost Storage Program

variable {ε : Type}

/-- A request for a snapshot of the contents `m` is put off, or returns the dump of `m` under their
commit index, which is not below the requested one. -/
def LabelsContent (requestIndex : UInt64) (m : ColumnFamily) : RaftResult Snapshot → Prop
  | .error e => e = .store .snapshotTemporarilyUnavailable
  | .ok s => requestIndex ≤ s.getMetadata.index ∧
      (∃ hs, hardStateIn m = some hs ∧ hs.commit = s.getMetadata.index) ∧
      s.data.val = Bincode.serialize (dumpOf m)

/-- The metadata of a snapshot of contents with this hard state and this configuration. -/
def metadataOf (hs : HardState) (cs : ConfState) : SnapshotMetadata :=
  { confState := some cs, index := hs.commit, term := hs.term }

/-- The snapshot with a payload, of contents with this hard state and this configuration. -/
def snapshotWith (data : ByteVec) (hs : HardState) (cs : ConfState) : Snapshot :=
  { data := data, metadata := some (metadataOf hs cs) }

/-- The contents can be dumped and labelled, and their commit index is not below the request. -/
def ServesRequest (requestIndex : UInt64) (m : ColumnFamily) : Prop :=
  ∃ hs cs, hardStateIn m = some hs ∧ confStateIn m = some cs ∧
    (Bincode.serialize (dumpOf m)).length < 2 ^ 63 ∧
    (encodeToVec (metadataOf hs cs)).length < 2 ^ 64 ∧ requestIndex ≤ hs.commit

/-! ### What a request returns -/

/-- The snapshot with its index raised to a requested one. -/
def raised (requestIndex : UInt64) (s : Snapshot) : Snapshot :=
  if s.getMetadata.index < requestIndex then
    { s with metadata := some { s.getMetadata with index := requestIndex } }
  else s

/-- A snapshot is read back exactly when its metadata is. -/
theorem snapshot_fits_iff {data : ByteVec} {hs : HardState} {cs : ConfState} :
    (∀ f ∈ Message.fields (snapshotWith data hs cs), f.Fits) ↔
      (encodeToVec (metadataOf hs cs)).length < 2 ^ 64 := by
  constructor
  · intro h
    have hmem : (2, .delimited (encodeToVec (metadataOf hs cs))) ∈
        Message.fields (snapshotWith data hs cs) := by
      simp [Message.fields, snapshotWith]
    exact (h _ hmem).2
  · intro h f hf
    have hd := data.property
    simp only [Message.fields, snapshotWith, List.mem_append, mem_messageField, mem_bytesField] at hf
    rcases hf with ⟨-, rfl⟩ | ⟨c, hc, rfl⟩
    · simp only [Field.Fits]
      omega
    · obtain rfl := Option.some_inj.mp hc
      exact ⟨by decide, h⟩

theorem decode_snapshotWith (data : ByteVec) (hs : HardState) (cs : ConfState) :
    (decode (encodeToVec (snapshotWith data hs cs)) : Option Snapshot) =
      if (encodeToVec (metadataOf hs cs)).length < 2 ^ 64 then some (snapshotWith data hs cs)
      else none := by
  split_ifs with h
  · exact decode_encodeToVec (snapshot_fits_iff.mpr h)
  · exact decode_encodeToVec_of_not_fits fun hf => h (snapshot_fits_iff.mp hf)

/-- The snapshot of some contents. -/
theorem snapshotOf_eq_some_iff {m : ColumnFamily} {s : Snapshot} :
    RaftMachineStorage.snapshotOf m = some s ↔
      ∃ hs cs, ∃ h : (Bincode.serialize (dumpOf m)).length < 2 ^ 63,
        hardStateIn m = some hs ∧ confStateIn m = some cs ∧
          s = snapshotWith ⟨Bincode.serialize (dumpOf m), h⟩ hs cs := by
  constructor
  · intro h
    obtain ⟨hs, cs, hhs, hcs, hdata, hmeta⟩ := RaftMachineStorage.snapshotOf_eq_some h
    obtain ⟨data, metadata⟩ := s
    have hlen := data.property
    rw [hdata] at hlen
    refine ⟨hs, cs, hlen, hhs, hcs, ?_⟩
    rw [snapshotWith, Snapshot.mk.injEq]
    exact ⟨Subtype.ext hdata, hmeta⟩
  · rintro ⟨hs, cs, h, hhs, hcs, rfl⟩
    have hm : metadataIn m = some (metadataOf hs cs) :=
      metadataIn_eq_some.mpr ⟨hs, cs, hhs, hcs, rfl⟩
    rw [RaftMachineStorage.snapshotOf, hm, ByteVec.ofBytes, dif_pos h]
    rfl

section run

variable {core : RaftMachineStorage} {requestIndex : UInt64} {w : World ε} {s : Snapshot}

/-- A store without a readable hard state or configuration, or with too large a dump, panics. -/
theorem snapshot_run_none (requestIndex : UInt64) (ht : core.triggerSnapUnavailable = false)
    (hs : RaftMachineStorage.snapshotOf (cluster w) = none) :
    ∃ msg t, RaftRocksDBStorage.snapshot core requestIndex w = (.panicked msg, t) := by
  have hcreate : ∃ msg t, core.createSnapshot w = (.panicked msg, t) := by
    unfold RaftMachineStorage.createSnapshot
    rcases RaftMachineStorage.newSnapshot_run w with ⟨s, hs', -⟩ | ⟨-, msg, hr⟩
    · rw [hs] at hs'
      cases hs'
    · exact ⟨msg, w, bind_run_panicked hr _⟩
  obtain ⟨msg, t, hr⟩ := hcreate
  refine ⟨msg, t, ?_⟩
  unfold RaftRocksDBStorage.snapshot
  rw [if_neg (by simp [ht])]
  exact bind_run_panicked (bind_run_panicked hr _) _

/-- The world after a snapshot was written. -/
def snapshotted (w : World ε) (s : Snapshot) : World ε :=
  putRecord (putRecord w .firstIndex s.getMetadata.index) .snapshot (encodeToVec s)

/-- What is read back of a snapshot that was written. -/
theorem storedSnapshot_snapshotted :
    RaftMachineStorage.storedSnapshot (snapshotted w s) =
      (unwrapOk (decode (encodeToVec s)) : Program (World ε) Snapshot) (snapshotted w s) := by
  rw [RaftMachineStorage.storedSnapshot_run, snapshotIn, messageIn, snapshotted, cluster_putRecord,
    readRecord_insert_self]

/-- A snapshot that cannot be read back panics. -/
theorem snapshot_run_unreadable (requestIndex : UInt64) (ht : core.triggerSnapUnavailable = false)
    (hs : RaftMachineStorage.snapshotOf (cluster w) = some s)
    (hd : (decode (encodeToVec s) : Option Snapshot) = none) :
    ∃ msg t, RaftRocksDBStorage.snapshot core requestIndex w = (.panicked msg, t) := by
  have hcreate : core.createSnapshot w = (.ok (core.afterSnapshot s), snapshotted w s) :=
    RaftMachineStorage.completes_createSnapshot.mpr ⟨s, hs, rfl, rfl⟩
  have hstored : RaftMachineStorage.storedSnapshot (snapshotted w s) =
      (.panicked "called Result::unwrap() on an Err value", snapshotted w s) := by
    rw [storedSnapshot_snapshotted, hd]
    rfl
  have hsnap : core.snapshot w =
      (.panicked "called Result::unwrap() on an Err value", snapshotted w s) :=
    (bind_run_ok hcreate _).trans (bind_run_panicked hstored _)
  unfold RaftRocksDBStorage.snapshot
  rw [if_neg (by simp [ht])]
  exact ⟨_, _, bind_run_panicked hsnap _⟩

/-- **What a request returns**: the snapshot of the contents, with its index raised. -/
theorem snapshot_run (ht : core.triggerSnapUnavailable = false)
    (hs : RaftMachineStorage.snapshotOf (cluster w) = some s)
    (hd : (decode (encodeToVec s) : Option Snapshot) = some s) :
    RaftRocksDBStorage.snapshot core requestIndex w =
      (.ok (.ok (raised requestIndex s), core.afterSnapshot s), snapshotted w s) := by
  have hcreate : core.createSnapshot w = (.ok (core.afterSnapshot s), snapshotted w s) :=
    RaftMachineStorage.completes_createSnapshot.mpr ⟨s, hs, rfl, rfl⟩
  have hstored : RaftMachineStorage.storedSnapshot (snapshotted w s) = (.ok s, snapshotted w s) := by
    rw [storedSnapshot_snapshotted, hd]
    rfl
  have hsnap : core.snapshot w = (.ok (s, core.afterSnapshot s), snapshotted w s) :=
    (bind_run_ok hcreate _).trans (bind_run_ok hstored _)
  unfold RaftRocksDBStorage.snapshot raised
  rw [if_neg (by simp [ht]), bind_run_ok hsnap]
  dsimp only
  split_ifs <;> rfl

end run

/-- A label is right when it was not raised. -/
theorem labelsContent_raised {requestIndex : UInt64} {m : ColumnFamily} {hs : HardState}
    {cs : ConfState} (hhs : hardStateIn m = some hs)
    (h : (Bincode.serialize (dumpOf m)).length < 2 ^ 63) :
    LabelsContent requestIndex m (.ok (raised requestIndex
      (snapshotWith ⟨Bincode.serialize (dumpOf m), h⟩ hs cs))) ↔ requestIndex ≤ hs.commit := by
  have hidx : (snapshotWith ⟨Bincode.serialize (dumpOf m), h⟩ hs cs).getMetadata.index =
      hs.commit := rfl
  by_cases hlt : hs.commit < requestIndex
  · -- the index that was requested is not the commit index of the contents
    rw [raised, hidx, if_pos hlt]
    refine iff_of_false ?_ (UInt64.not_le.mpr hlt)
    rintro ⟨-, ⟨hs', hhs', heq⟩, -⟩
    obtain rfl : hs = hs' := Option.some.inj (hhs.symm.trans hhs')
    have heq : hs.commit = requestIndex := heq
    rw [heq] at hlt
    exact UInt64.lt_irrefl _ hlt
  · rw [raised, hidx, if_neg hlt]
    exact iff_of_true ⟨UInt64.not_lt.mp hlt, ⟨hs, hhs, rfl⟩, rfl⟩ (UInt64.not_lt.mp hlt)

/-- **A snapshot is labelled with the commit index of its contents exactly when the store puts the
request off, or can be dumped and is not behind the request.** -/
theorem labelsContent_iff (core : RaftMachineStorage) (requestIndex : UInt64) (w : World ε) :
    Meets (RaftRocksDBStorage.snapshot core requestIndex) w
        (fun r _ => LabelsContent requestIndex (cluster w) r.1) (fun _ => False) ↔
      core.triggerSnapUnavailable = true ∨ ServesRequest requestIndex (cluster w) := by
  -- the store may put the request off, once
  cases ht : core.triggerSnapUnavailable with
  | true =>
    have hrun : RaftRocksDBStorage.snapshot core requestIndex w =
        (.ok (.error (.store .snapshotTemporarilyUnavailable), core), w) := by
      unfold RaftRocksDBStorage.snapshot
      rw [if_pos ht]
      rfl
    rw [meets_iff_of_run_ok hrun]
    exact iff_of_true rfl (.inl rfl)
  | false =>
    simp only [Bool.false_eq_true, false_or]
    rcases hs : RaftMachineStorage.snapshotOf (cluster w) with _ | s
    · obtain ⟨msg, t, hr⟩ := snapshot_run_none requestIndex ht hs
      rw [meets_iff_of_run_panicked hr]
      refine iff_of_false id ?_
      rintro ⟨hst, cs, hhs, hcs, hlen, -, -⟩
      rw [snapshotOf_eq_some_iff.mpr ⟨hst, cs, hlen, hhs, hcs, rfl⟩] at hs
      cases hs
    · obtain ⟨hst, cs, hlen, hhs, hcs, rfl⟩ := snapshotOf_eq_some_iff.mp hs
      -- the records of a dump are those that it was made of
      have hserves : ServesRequest requestIndex (cluster w) ↔
          (encodeToVec (metadataOf hst cs)).length < 2 ^ 64 ∧ requestIndex ≤ hst.commit := by
        constructor
        · rintro ⟨hst', cs', hhs', hcs', -, hfit, hle⟩
          obtain rfl : hst = hst' := Option.some.inj (hhs.symm.trans hhs')
          obtain rfl : cs = cs' := Option.some.inj (hcs.symm.trans hcs')
          exact ⟨hfit, hle⟩
        · rintro ⟨hfit, hle⟩
          exact ⟨hst, cs, hhs, hcs, hlen, hfit, hle⟩
      rw [hserves]
      have hd := decode_snapshotWith ⟨Bincode.serialize (dumpOf (cluster w)), hlen⟩ hst cs
      -- the snapshot is read back when its metadata fits into a message
      by_cases hfit : (encodeToVec (metadataOf hst cs)).length < 2 ^ 64
      · rw [if_pos hfit] at hd
        rw [meets_iff_of_run_ok (snapshot_run ht hs hd), labelsContent_raised hhs hlen]
        simp only [hfit, true_and]
      · rw [if_neg hfit] at hd
        obtain ⟨msg, t, hr⟩ := snapshot_run_unreadable requestIndex ht hs hd
        rw [meets_iff_of_run_panicked hr]
        exact iff_of_false id fun h => hfit h.1

/-! The sender has committed one entry, and is asked for a snapshot at the index `5`. -/

/-- The snapshot claims the index `5`, and carries the contents at the index `1`. -/
theorem snapshot_relabelled :
    Reachable Storage.sender.1 Storage.sender.2 ∧
      hardStateIn (cluster Storage.sender.2) = some ⟨1, 3, 1⟩ ∧
      Completes (RaftRocksDBStorage.snapshot Storage.sender.1 5) Storage.sender.2
        (.ok (raised 5 Storage.sent.1), Storage.sender.1.afterSnapshot Storage.sent.1)
        (snapshotted Storage.sender.2 Storage.sent.1) ∧
      (raised 5 Storage.sent.1).getMetadata.index = 5 ∧
      ¬ Meets (RaftRocksDBStorage.snapshot Storage.sender.1 5) Storage.sender.2
        (fun r _ => LabelsContent 5 (cluster Storage.sender.2) r.1) (fun _ => False) := by
  have hs := (RaftMachineStorage.completes_newSnapshot.mp Storage.sent_completes).1
  have hhs : hardStateIn (cluster Storage.sender.2) = some ⟨1, 3, 1⟩ := by decide +kernel
  have hidx : Storage.sent.1.getMetadata.index = 1 := by decide +kernel
  -- the request is ahead of the commit index
  have hlabel : (raised 5 Storage.sent.1).getMetadata.index = 5 := by
    rw [raised, if_pos (by rw [hidx]; decide)]
    rfl
  obtain ⟨hst, cs, hlen, hhs', hcs, heq⟩ := snapshotOf_eq_some_iff.mp hs
  have hfit : (encodeToVec (metadataOf hst cs)).length < 2 ^ 64 := by
    have hm : metadataOf hst cs = Storage.sent.1.getMetadata := by
      rw [heq]
      rfl
    rw [hm]
    decide +kernel
  have hd : (decode (encodeToVec Storage.sent.1) : Option Snapshot) = some Storage.sent.1 := by
    rw [heq, decode_snapshotWith, if_pos hfit]
  -- the snapshot is returned
  have hrun : Completes (RaftRocksDBStorage.snapshot Storage.sender.1 5) Storage.sender.2 _ _ :=
    snapshot_run (by decide +kernel) hs hd
  refine ⟨Storage.sender_reachable, hhs, hrun, hlabel, fun hmeets => ?_⟩
  obtain ⟨-, ⟨hs', hhs', hcommit⟩, -⟩ := hmeets.of_completes hrun
  obtain rfl := Option.some.inj (hhs.symm.trans hhs')
  rw [hlabel] at hcommit
  exact absurd hcommit (by decide)

end PlacementCenter.Raft
