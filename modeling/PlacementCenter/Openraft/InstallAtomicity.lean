import PlacementCenter.Openraft.Builders
import PlacementCenter.Openraft.LogRuns
import PlacementCenter.Rust.Disk

/-!
# Installing a snapshot or leaving the state

`install_snapshot` replaces the map and the position of the state machine first, and stores the
snapshot then. A put or a flush that fails in between is reported, and the state stays replaced.
Puts and flushes may fail here in any pattern.

## Main definitions

* `Shown`, `StateMachineStore.shown`: the state in memory and the stored snapshot
* `AllOrNothing`: `Ok` with the snapshot installed, an error with everything as it was
* `GoesThrough`, `NothingToDo`: the put and the flush succeed, or the snapshot is there already

## Main results

* `StateMachineStore.setCurrentSnapshot_run_volume`: what storing a snapshot returns and leaves
* `StateMachineStore.installSnapshot_allOrNothing_iff`: when the installation is all or nothing
-/

namespace PlacementCenter.Openraft

open Rust Program

variable {ε M : Type} [SerdeJson M]

/-- The state in memory, and the snapshot in the database. -/
structure Shown (M : Type) where
  kvs : Kvs
  lastAppliedLogId : Option LogId
  lastMembership : StoredMembership M
  stored : Option (StoredSnapshot M)

/-- The snapshot that can be read. -/
def storedSnapshot (M : Type) [SerdeJson M] (v : Volume ε) : Option (StoredSnapshot M) :=
  ((v.disk.world.columns storeFamily)[utf8 "snapshot"]?).bind SerdeJson.fromSlice

namespace StateMachineStore

variable (core : StateMachineStore M) (m : Memory (Volume ε) Kvs)

def shown : Shown M where
  kvs := m.cells core.data.kvs
  lastAppliedLogId := core.data.lastAppliedLogId
  lastMembership := core.data.lastMembership
  stored := storedSnapshot M m.base

end StateMachineStore

/-- The state of a snapshot with the map `kvs`. -/
def StoredSnapshot.shown (snap : StoredSnapshot M) (kvs : Kvs) (stored : Option (StoredSnapshot M)) :
    Shown M :=
  ⟨kvs, snap.metadata.lastLogId, snap.metadata.lastMembership, stored⟩

/-- A result `Ok` with the snapshot in memory and in the database, or an error with everything as it
was. -/
def AllOrNothing (core : StateMachineStore M) (m : Memory (Volume ε) Kvs)
    (snap : StoredSnapshot M) :
    StorageResult Unit × StateMachineStore M → Memory (Volume ε) Kvs → Prop
  | (.ok (), core'), m' => ∃ kvs, SerdeJson.fromSlice snap.data = some kvs ∧
      core'.shown m' = snap.shown kvs (some snap)
  | (.error _, core'), m' => core'.shown m' = core.shown m

/-- The next put and the next flush succeed. -/
def GoesThrough (v : Volume ε) : Prop := v.disk.next = none ∧ v.next = none

/-- The state machine is at the snapshot already, and the snapshot is stored already or its put
fails. -/
def NothingToDo (core : StateMachineStore M) (m : Memory (Volume ε) Kvs)
    (snap : StoredSnapshot M) : Prop :=
  (∃ kvs, SerdeJson.fromSlice snap.data = some kvs ∧
      core.shown m = snap.shown kvs (storedSnapshot M m.base)) ∧
    (m.base.disk.next ≠ none ∨ storedSnapshot M m.base = some snap)

/-! ### Storing a snapshot -/

/-- The volume after the put of a snapshot was tried. -/
def putSnapshot (snap : StoredSnapshot M) (v : Volume ε) : Volume ε :=
  v.put storeFamily (utf8 "snapshot") (SerdeJson.toVec snap)

theorem storedSnapshot_put_ok {snap : StoredSnapshot M} {v : Volume ε} (h : v.disk.next = none) :
    storedSnapshot M (putSnapshot snap v) = some snap := by
  change ((v.disk.put storeFamily _ _).world.columns storeFamily)[utf8 "snapshot"]?.bind _ = _
  rw [Disk.lookup_put_self, if_pos h, Option.bind_some, SerdeJson.fromSlice_toVec]

theorem storedSnapshot_put_failed {snap : StoredSnapshot M} {v : Volume ε}
    (h : v.disk.next ≠ none) : storedSnapshot M (putSnapshot snap v) = storedSnapshot M v := by
  change ((v.disk.put storeFamily _ _).world.columns storeFamily)[utf8 "snapshot"]?.bind _ = _
  rw [Disk.lookup_put_self, if_neg h]
  rfl

namespace StateMachineStore

variable (core : StateMachineStore M) (m : Memory (Volume ε) Kvs) (snap : StoredSnapshot M)

/-- **Storing a snapshot** tries the put, and the flush after a put that succeeded. -/
theorem setCurrentSnapshot_run_volume :
    ∃ r v, Completes (setCurrentSnapshot snap) m r { m with base := v } ∧
      storedSnapshot M v = storedSnapshot M (putSnapshot snap m.base) ∧
      (r = .ok () ↔ GoesThrough m.base) := by
  unfold setCurrentSnapshot setRecord
  have hput := Memory.putCf_run m (Volume.putCf_run m.base storeFamily (utf8 "snapshot")
    (SerdeJson.toVec snap))
  rcases hnext : m.base.disk.next with _ | err
  · rw [Disk.result, hnext] at hput
    have hflush := Memory.flushWal_run { m with base := putSnapshot snap m.base }
      (Volume.flushWal_run _)
    refine ⟨_, _, completes_bind.mpr ⟨_, _, hput, completes_bind.mpr ⟨_, _, hflush,
      completes_pure.mpr ⟨rfl, rfl⟩⟩⟩, rfl, ?_⟩
    have hv : (putSnapshot snap m.base).next = m.base.next := rfl
    rw [GoesThrough, Volume.result, hv]
    rcases m.base.next with _ | err
    · exact ⟨fun _ => ⟨hnext, rfl⟩, fun _ => rfl⟩
    · exact iff_of_false (fun h => by cases h) fun h => by cases h.2
  · rw [Disk.result, hnext] at hput
    refine ⟨_, _, completes_bind.mpr ⟨_, _, hput, completes_pure.mpr ⟨rfl, rfl⟩⟩, rfl, ?_⟩
    rw [GoesThrough, hnext]
    exact iff_of_false (fun h => by cases h) fun h => by cases h.1

/-- A snapshot that is read is restored before it is stored. -/
theorem installSnapshot_run_volume {kvs : Kvs} (h : SerdeJson.fromSlice snap.data = some kvs) :
    ∃ r core' m', Completes (core.installSnapshot snap.metadata snap.data) m (r, core') m' ∧
      core'.shown m' = snap.shown kvs (storedSnapshot M (putSnapshot snap m.base)) ∧
      (r = .ok () ↔ GoesThrough m.base) := by
  obtain ⟨r, v, hset, hstored, hr⟩ := setCurrentSnapshot_run_volume (m.store core.data.kvs kvs) snap
  refine ⟨r, core.restored snap, _, completes_bind.mpr
    ⟨_, _, core.updateStateMachine_run m h, completes_bind.mpr
      ⟨r, _, hset, completes_pure.mpr ⟨rfl, rfl⟩⟩⟩, ?_, hr⟩
  rw [shown, hstored]
  exact congrArg (fun k => snap.shown k _) (Memory.cells_store_self m core.data.kvs kvs)

/-- A snapshot that cannot be read is refused. -/
theorem installSnapshot_run_none (h : (SerdeJson.fromSlice snap.data : Option Kvs) = none) :
    ∃ e, Completes (core.installSnapshot snap.metadata snap.data) m (.error e, core) m :=
  ⟨_, completes_bind.mpr ⟨_, _, Node.updateStateMachine_run_none h,
    completes_pure.mpr ⟨rfl, rfl⟩⟩⟩

/-- What an installation leaves is what was there before, when there is nothing to do. -/
theorem shown_eq_iff_nothingToDo {kvs : Kvs} (hread : SerdeJson.fromSlice snap.data = some kvs) :
    snap.shown kvs (storedSnapshot M (putSnapshot snap m.base)) = core.shown m ↔
      NothingToDo core m snap := by
  by_cases hput : m.base.disk.next = none
  · rw [storedSnapshot_put_ok hput]
    constructor
    · intro he
      have hstored : storedSnapshot M m.base = some snap := (congrArg Shown.stored he).symm
      exact ⟨⟨kvs, hread, by rw [hstored, he]⟩, .inr hstored⟩
    · rintro ⟨⟨kvs', hread', he⟩, hne | hstored⟩
      · exact absurd hput hne
      · obtain rfl := Option.some_inj.mp (hread.symm.trans hread')
        rw [he, hstored]
  · rw [storedSnapshot_put_failed hput]
    constructor
    · intro he
      exact ⟨⟨kvs, hread, he.symm⟩, .inl hput⟩
    · rintro ⟨⟨kvs', hread', he⟩, -⟩
      obtain rfl := Option.some_inj.mp (hread.symm.trans hread')
      exact he.symm

/-- **The installation is all or nothing** when the data cannot be read, when the put and the flush
succeed, or when there is nothing to do. -/
theorem installSnapshot_allOrNothing_iff (metadata : SnapshotMeta M) (data : Bytes) :
    ∃ r core' m', Completes (core.installSnapshot metadata data) m (r, core') m' ∧
      (AllOrNothing core m ⟨metadata, data⟩ (r, core') m' ↔
        (SerdeJson.fromSlice data : Option Kvs) = none ∨ GoesThrough m.base ∨
          NothingToDo core m ⟨metadata, data⟩) := by
  obtain ⟨snap, hsnap⟩ : ∃ snap : StoredSnapshot M, snap = ⟨metadata, data⟩ := ⟨_, rfl⟩
  rcases hd : (SerdeJson.fromSlice data : Option Kvs) with _ | kvs
  · obtain ⟨e, hrun⟩ := installSnapshot_run_none core m ⟨metadata, data⟩ hd
    exact ⟨_, _, _, hrun, fun _ => .inl rfl, fun _ => rfl⟩
  · obtain ⟨r, core', m', hrun, hshown, hr⟩ :=
      installSnapshot_run_volume core m ⟨metadata, data⟩ hd
    refine ⟨r, core', m', hrun, ?_⟩
    rw [← hsnap] at hshown ⊢
    have hread : SerdeJson.fromSlice snap.data = some kvs := by rw [hsnap, hd]
    by_cases hthrough : GoesThrough m.base
    · obtain rfl : r = .ok () := hr.mpr hthrough
      rw [storedSnapshot_put_ok hthrough.1] at hshown
      exact iff_of_true ⟨kvs, hread, hshown⟩ (.inr (.inl hthrough))
    -- an error: the state shows the snapshot, so it showed it before
    rcases r with e | u
    · change core'.shown m' = core.shown m ↔ _
      rw [hshown, shown_eq_iff_nothingToDo core m snap hread]
      refine ⟨fun h => .inr (.inr h), ?_⟩
      rintro (h | h | h)
      · cases h
      · exact absurd h hthrough
      · exact h
    · exact absurd (hr.mp rfl) hthrough

/-! ### A put that fails -/

/-- A new node on a volume whose puts fail. -/
def unwritable : Memory (Volume Empty) Kvs where
  base := ⟨⟨World.empty, 0, fun _ => some "No space left on device"⟩, 0, fun _ => none⟩
  cells := fun _ => ∅
  next := 1

/-- A snapshot of one key at the first entry. -/
def oneKey : StoredSnapshot Configs :=
  ⟨⟨some ⟨⟨1, 1⟩, 0⟩, ⟨none, []⟩, "T1-N1-0-1"⟩, SerdeJson.toVec ((∅ : Kvs).insert "a" "b")⟩

/-- An installation that returns an error after it replaced the state: memory is at the snapshot,
the database holds none. -/
theorem installSnapshot_half :
    let core : StateMachineStore Configs := ⟨⟨none, default, ⟨0⟩⟩, 0⟩
    ∃ e core' m', Completes (core.installSnapshot oneKey.metadata oneKey.data) unwritable
        (.error e, core') m' ∧ core'.shown m' = oneKey.shown ((∅ : Kvs).insert "a" "b") none ∧
      core.shown unwritable = ⟨∅, none, default, none⟩ ∧
      ¬ AllOrNothing core unwritable oneKey (.error e, core') m' := by
  intro core
  have hput : unwritable.base.disk.next ≠ none := by simp [unwritable, Disk.next]
  obtain ⟨r, core', m', hrun, hshown, hr⟩ := installSnapshot_run_volume core unwritable oneKey
    (SerdeJson.fromSlice_toVec _)
  rw [storedSnapshot_put_failed hput] at hshown
  rcases r with e | u
  · refine ⟨e, core', m', hrun, hshown, rfl, fun h => ?_⟩
    have hlog := congrArg Shown.lastAppliedLogId (hshown.symm.trans h)
    exact absurd hlog (by decide)
  · exact absurd (hr.mp rfl).1 hput

end StateMachineStore

end PlacementCenter.Openraft
