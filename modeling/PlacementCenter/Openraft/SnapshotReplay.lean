import PlacementCenter.Openraft.StateMachineStore

/-!
# Snapshots and replay

A builder stores the position at which it was handed out with the map as it is when it reads it. The
map may be newer than the position: the entries in between are applied again after a restart. What
an entry leaves in the map does not depend on what was there, so the state machine converges.

## Main definitions

* `replay kvs es`, `StateMachineStore.advance`: what the entries do to the map, and to the position
* `SameState`: two stores with the same map and position
* `ConvergesAfter`: every way to restore a snapshot and go on

## Main results

* `StateMachineStore.apply_run`: the state machine replays the entries
* `replay_replay`: entries that were replayed may be replayed again, before others
* `snapshot_converges`: **a restored snapshot converges** to the uninterrupted run
-/

namespace PlacementCenter.Openraft

open Rust Program

variable {M : Type}

/-- The update of the map by an entry. -/
def Entry.update (e : Entry M) : List (String × Option String) :=
  match e.payload with
  | .normal (.set key value) => [(key, some value)]
  | .normal (.delete key) => [(key, none)]
  | .blank => []
  | .membership _ => []

/-- The reply to an entry. -/
def Entry.reply (e : Entry M) : AppResponseData :=
  match e.payload with
  | .normal (.set _ value) => ⟨some value⟩
  | .normal (.delete _) => ⟨none⟩
  | .blank => ⟨none⟩
  | .membership _ => ⟨none⟩

/-- The map after some entries. -/
def replay (kvs : Kvs) (es : List (Entry M)) : Kvs := OrdMap.updates kvs (es.flatMap Entry.update)

@[simp] theorem replay_nil (kvs : Kvs) : replay kvs ([] : List (Entry M)) = kvs := rfl

theorem replay_append (kvs : Kvs) (es es' : List (Entry M)) :
    replay kvs (es ++ es') = replay (replay kvs es) es' := by
  rw [replay, List.flatMap_append, OrdMap.updates_append]
  rfl

/-- **Entries that were replayed may be replayed again**, before any others. -/
theorem replay_replay (kvs : Kvs) (es es' : List (Entry M)) :
    replay (replay kvs es) (es ++ es') = replay kvs (es ++ es') := by
  rw [replay, replay, replay, List.flatMap_append, OrdMap.updates_updates_append]

namespace StateMachineStore

/-- The store with the position after an entry. -/
def advanceOne (core : StateMachineStore M) (e : Entry M) : StateMachineStore M :=
  { core with data := { core.data with
    lastAppliedLogId := some e.logId
    lastMembership := match e.payload with
      | .membership mem => ⟨some e.logId, mem⟩
      | _ => core.data.lastMembership } }

/-- The store with the position after some entries. -/
def advance (core : StateMachineStore M) (es : List (Entry M)) : StateMachineStore M :=
  es.foldl advanceOne core

/-- A sequence of batches. -/
def applyBatches {σ : Type} [Shared σ Kvs] (core : StateMachineStore M) :
    List (List (Entry M)) → Program σ (StateMachineStore M)
  | [] => return core
  | batch :: batches => do
    let (_, core) ← core.apply batch
    core.applyBatches batches

section runs

variable {ω : Type} (core : StateMachineStore M) (m : Memory ω Kvs)

theorem kvs_advance (es : List (Entry M)) : (core.advance es).data.kvs = core.data.kvs := by
  induction es generalizing core with
  | nil => rfl
  | cons e es ih => exact (ih (core.advanceOne e)).trans rfl

theorem applyEntry_run (e : Entry M) :
    core.applyEntry e m = (.ok (e.reply, core.advanceOne e),
      m.store core.data.kvs (replay (m.cells core.data.kvs) [e])) := by
  rcases e with ⟨id, _ | (⟨key, value⟩ | ⟨key⟩) | mem⟩
  · simp [applyEntry, Entry.reply, advanceOne, replay, Entry.update, OrdMap.updates]
  · rfl
  · rfl
  · simp [applyEntry, Entry.reply, advanceOne, replay, Entry.update, OrdMap.updates]

/-- **The state machine replays the entries** of a batch. -/
theorem apply_run (es : List (Entry M)) :
    core.apply es m = (.ok (es.map Entry.reply, core.advance es),
      m.store core.data.kvs (replay (m.cells core.data.kvs) es)) := by
  induction es generalizing core m with
  | nil => simp [apply, advance]
  | cons e es ih =>
    rw [apply, Program.bind_run_ok (applyEntry_run core m e)]
    simp only
    rw [Program.bind_run_ok (ih _ _)]
    have hkvs : (core.advanceOne e).data.kvs = core.data.kvs := rfl
    rw [hkvs, Memory.store_store, Memory.cells_store_self, ← replay_append]
    rfl

theorem applyBatches_run (batches : List (List (Entry M))) :
    core.applyBatches batches m = (.ok (core.advance batches.flatten),
      m.store core.data.kvs (replay (m.cells core.data.kvs) batches.flatten)) := by
  induction batches generalizing core m with
  | nil => simp [applyBatches, advance]
  | cons batch batches ih =>
    rw [applyBatches, Program.bind_run_ok (apply_run core m batch)]
    simp only
    rw [ih, kvs_advance, Memory.store_store, Memory.cells_store_self, ← replay_append,
      List.flatten_cons, advance, advance, advance, List.foldl_append]

end runs

/-! ### Building, restoring and installing -/

section snapshots

variable [SerdeJson M] {ε : Type} (core : StateMachineStore M) (m : Memory (Journal ε) Kvs)

/-- The effects that store a snapshot. -/
def snapshotEffects (snap : StoredSnapshot M) : List (Effect ε) :=
  [.put storeFamily (utf8 "snapshot") (SerdeJson.toVec snap), .sync]

/-- The stored snapshot. -/
def snapshotIn (M : Type) [SerdeJson M] (w : Journal ε) : Option (StoredSnapshot M) :=
  ((w.column storeFamily)[utf8 "snapshot"]?).bind SerdeJson.fromSlice

@[simp] theorem snapshotIn_empty : snapshotIn M (Journal.empty : Journal ε) = none := rfl

@[simp] theorem snapshotIn_extend_snapshotEffects (w : Journal ε) (snap : StoredSnapshot M) :
    snapshotIn M (w.extend (snapshotEffects snap)) = some snap := by
  rw [snapshotIn, snapshotEffects, ← List.singleton_append, ← Journal.extend_extend,
    Journal.column_extend_sync, Journal.column_extend_put_self, OrdMap.lookup_insert_self,
    Option.bind_some, SerdeJson.fromSlice_toVec]

/-- While a snapshot is stored, the stored one is the old one or the new one. -/
theorem snapshotIn_part (w : Journal ε) (snap : StoredSnapshot M) {part : List (Effect ε)}
    (h : part <+: snapshotEffects snap) : part = [] ∨ snapshotIn M (w.extend part) = some snap := by
  rw [snapshotEffects, List.prefix_cons_iff] at h
  rcases h with rfl | ⟨rest, rfl, hrest⟩
  · exact .inl rfl
  · rw [List.prefix_cons_iff] at hrest
    rcases hrest with rfl | ⟨rest, rfl, hrest⟩
    · right
      rw [snapshotIn, Journal.column_extend_put_self, OrdMap.lookup_insert_self, Option.bind_some,
        SerdeJson.fromSlice_toVec]
    · rw [List.prefix_nil.mp hrest]
      exact .inr (snapshotIn_extend_snapshotEffects w snap)

theorem setCurrentSnapshot_run (snap : StoredSnapshot M) :
    setCurrentSnapshot snap m =
      (.ok (.ok ()), { m with base := m.base.extend (snapshotEffects snap) }) := by
  unfold setCurrentSnapshot setRecord
  rw [Program.bind_run_ok (Memory.putCf_run m (Journal.putCf_run m.base _ _ _))]
  simp only
  unfold flush
  rw [Program.bind_run_ok (Memory.flushWal_run _ (Journal.flushWal_run _))]
  simp only [Journal.extend_extend]
  rfl

theorem currentSnapshot_run : currentSnapshot M m = (.ok (.ok (snapshotIn M m.base)), m) := rfl

/-- The snapshot of a store with a map. -/
def snapshotOf (kvs : Kvs) : StoredSnapshot M := ⟨core.snapshotMeta, SerdeJson.toVec kvs⟩

theorem storeSnapshot_run (kvs : Kvs) :
    core.storeSnapshot kvs m = (.ok (.ok ⟨core.snapshotMeta, SerdeJson.toVec kvs⟩),
      { m with base := m.base.extend (snapshotEffects (core.snapshotOf kvs)) }) := by
  unfold storeSnapshot
  rw [Program.bind_run_ok (setCurrentSnapshot_run m _)]
  rfl

/-- The store at the position of a snapshot. -/
def restored (snap : StoredSnapshot M) : StateMachineStore M :=
  { core with data := { core.data with
    lastAppliedLogId := snap.metadata.lastLogId
    lastMembership := snap.metadata.lastMembership } }

omit [SerdeJson M] in
theorem updateStateMachine_run {ω : Type} (m : Memory ω Kvs) {snap : StoredSnapshot M} {kvs : Kvs}
    (h : SerdeJson.fromSlice snap.data = some kvs) :
    core.updateStateMachine snap m =
      (.ok (.ok (), core.restored snap), m.store core.data.kvs kvs) := by
  unfold updateStateMachine
  rw [h]
  simp only
  rw [Program.bind_run_ok (Memory.write_run m core.data.kvs kvs)]
  rfl

theorem installSnapshot_run {snap : StoredSnapshot M} {kvs : Kvs}
    (h : SerdeJson.fromSlice snap.data = some kvs) :
    core.installSnapshot snap.metadata snap.data m = (.ok (.ok (), core.restored snap),
      { m.store core.data.kvs kvs with base := m.base.extend (snapshotEffects snap) }) := by
  unfold installSnapshot
  rw [Program.bind_run_ok (updateStateMachine_run core m h)]
  simp only
  rw [Program.bind_run_ok (setCurrentSnapshot_run _ _)]
  rfl

/-- A store that is opened restores the stored snapshot. -/
theorem new_run [Inhabited M] : new M m = (match snapshotIn M m.base with
    | none => return .ok ⟨⟨none, default, ⟨m.next⟩⟩, 0⟩
    | some snap => do
      match ← updateStateMachine ⟨⟨none, default, ⟨m.next⟩⟩, 0⟩ snap with
      | (.error e, _) => return .error e
      | (.ok (), core) => return .ok core :
    Program (Memory (Journal ε) Kvs) (StorageResult (StateMachineStore M)))
      { m.store ⟨m.next⟩ ∅ with next := m.next + 1 } := by
  unfold new
  rw [Program.bind_run_ok (Memory.alloc_run m ∅)]
  simp only
  rw [Program.bind_run_ok (currentSnapshot_run _), Memory.base_store]
  cases snapshotIn M m.base with
  | none => rfl
  | some snap => rfl

theorem new_run_some [Inhabited M] {snap : StoredSnapshot M} {kvs : Kvs}
    (hs : snapshotIn M m.base = some snap) (h : SerdeJson.fromSlice snap.data = some kvs) :
    new M m = (.ok (.ok ((⟨⟨none, default, ⟨m.next⟩⟩, 0⟩ : StateMachineStore M).restored snap)),
      { m.store ⟨m.next⟩ kvs with next := m.next + 1 }) := by
  rw [new_run, hs]
  simp only
  rw [Program.bind_run_ok (updateStateMachine_run _ _ h)]
  simp only [Memory.store, Function.update_idem]
  rfl

end snapshots

end StateMachineStore

/-! ### Convergence -/

section convergence

variable {ε : Type}

/-- Two stores have the same map and the same position. -/
structure SameState (core : StateMachineStore M) (m : Memory (Journal ε) Kvs)
    (core' : StateMachineStore M) (m' : Memory (Journal ε) Kvs) : Prop where
  kvs : m.cells core.data.kvs = m'.cells core'.data.kvs
  lastAppliedLogId : core.data.lastAppliedLogId = core'.data.lastAppliedLogId
  lastMembership : core.data.lastMembership = core'.data.lastMembership

/-- The position after some entries depends on the position before them. -/
theorem StateMachineStore.advance_congr (core core' : StateMachineStore M) (es : List (Entry M))
    (ha : core.data.lastAppliedLogId = core'.data.lastAppliedLogId)
    (hm : core.data.lastMembership = core'.data.lastMembership) :
    (core.advance es).data.lastAppliedLogId = (core'.advance es).data.lastAppliedLogId ∧
      (core.advance es).data.lastMembership = (core'.advance es).data.lastMembership := by
  induction es generalizing core core' with
  | nil => exact ⟨ha, hm⟩
  | cons e es ih =>
    refine ih (core.advanceOne e) (core'.advanceOne e) rfl ?_
    rcases e with ⟨id, _ | req | mem⟩
    · exact hm
    · exact hm
    · rfl

/-- Every way to split the entries `es` into batches leads from one store to the other. -/
def AppliesTo (es : List (Entry M)) (core : StateMachineStore M) (m : Memory (Journal ε) Kvs)
    (core' : StateMachineStore M) (m' : Memory (Journal ε) Kvs) : Prop :=
  ∀ batches : List (List (Entry M)), batches.flatten = es →
    Completes (core.applyBatches batches) m core' m'

theorem appliesTo (es : List (Entry M)) (core : StateMachineStore M)
    (m : Memory (Journal ε) Kvs) : AppliesTo es core m (core.advance es)
      (m.store core.data.kvs (replay (m.cells core.data.kvs) es)) := by
  rintro batches rfl
  exact StateMachineStore.applyBatches_run core m batches

/-- **A store at the position after `pre`**, with the map after `pre ++ mid`, catches up. -/
theorem sameState_of_restored (core : StateMachineStore M) (m : Memory (Journal ε) Kvs)
    (core₁ : StateMachineStore M) (m₁ : Memory (Journal ε) Kvs) (pre mid suf : List (Entry M))
    (hkvs : m₁.cells core₁.data.kvs = replay (m.cells core.data.kvs) (pre ++ mid))
    (ha : core₁.data.lastAppliedLogId = (core.advance pre).data.lastAppliedLogId)
    (hm : core₁.data.lastMembership = (core.advance pre).data.lastMembership) :
    SameState (core₁.advance (mid ++ suf))
      (m₁.store core₁.data.kvs (replay (m₁.cells core₁.data.kvs) (mid ++ suf)))
      (core.advance (pre ++ (mid ++ suf)))
      (m.store core.data.kvs (replay (m.cells core.data.kvs) (pre ++ (mid ++ suf)))) := by
  have hsplit : core.advance (pre ++ (mid ++ suf)) = (core.advance pre).advance (mid ++ suf) := by
    rw [StateMachineStore.advance, List.foldl_append]
    rfl
  obtain ⟨hpos, hmem⟩ := StateMachineStore.advance_congr core₁ (core.advance pre) (mid ++ suf) ha hm
  refine ⟨?_, ?_, ?_⟩
  · rw [StateMachineStore.kvs_advance, StateMachineStore.kvs_advance, Memory.cells_store_self,
      Memory.cells_store_self, hkvs]
    -- the entries that the builder read too early are applied twice
    calc replay (replay (m.cells core.data.kvs) (pre ++ mid)) (mid ++ suf)
        = replay (replay (replay (m.cells core.data.kvs) pre) mid) (mid ++ suf) := by
          rw [replay_append _ pre mid]
      _ = replay (replay (m.cells core.data.kvs) pre) (mid ++ suf) := replay_replay _ _ _
      _ = replay (m.cells core.data.kvs) (pre ++ (mid ++ suf)) := (replay_append _ _ _).symm
  · rw [hsplit, hpos]
  · rw [hsplit, hmem]

variable [SerdeJson M] [Inhabited M]

/-- The store applies some batches, hands out a builder and applies more; then the builder builds
its snapshot. -/
def buildAfter {σ : Type} [RocksDb σ] [Shared σ Kvs] (core : StateMachineStore M)
    (pre mid : List (List (Entry M))) : Program σ (StorageResult (Snapshot M)) := do
  let core ← core.applyBatches pre
  let (builder, core) := core.getSnapshotBuilder
  let _ ← core.applyBatches mid
  builder.buildSnapshot

omit [Inhabited M] in
/-- The builder has the position after `pre`, and reads the map after `pre ++ mid`. -/
theorem buildAfter_run (core : StateMachineStore M) (m : Memory (Journal ε) Kvs)
    (pre mid : List (List (Entry M))) {builder : StateMachineStore M} {kvs : Kvs}
    (hb : builder = (core.advance pre.flatten).getSnapshotBuilder.1)
    (hk : kvs = replay (m.cells core.data.kvs) (pre.flatten ++ mid.flatten)) :
    buildAfter core pre mid m = (.ok (.ok ⟨builder.snapshotMeta, SerdeJson.toVec kvs⟩),
      { m.store core.data.kvs kvs with
        base := m.base.extend (StateMachineStore.snapshotEffects (builder.snapshotOf kvs)) }) := by
  unfold buildAfter
  rw [Program.bind_run_ok (StateMachineStore.applyBatches_run core m pre)]
  simp only
  rw [Program.bind_run_ok (StateMachineStore.applyBatches_run _ _ mid)]
  -- the builder and the store share the cell of the map
  have hcell : ∀ es : List (Entry M), (core.advance es).getSnapshotBuilder.2.data.kvs =
      core.data.kvs := StateMachineStore.kvs_advance core
  have hcell' : ∀ es : List (Entry M), (core.advance es).getSnapshotBuilder.1.data.kvs =
      core.data.kvs := StateMachineStore.kvs_advance core
  rw [hcell, Memory.store_store, Memory.cells_store_self, ← replay_append, ← hk, ← hb]
  unfold StateMachineStore.buildSnapshot
  rw [Program.bind_run_ok (Memory.read_run _ _), hb, hcell', Memory.cells_store_self,
    StateMachineStore.storeSnapshot_run]
  rfl

/-- Every way to restore a snapshot and to apply the entries `es` leads to the state of a store: a
restart on a database that holds the snapshot, and its installation on any other store. -/
structure ConvergesTo (snap : Snapshot M) (es : List (Entry M)) (core : StateMachineStore M)
    (m : Memory (Journal ε) Kvs) : Prop where
  restart : ∀ m' : Memory (Journal ε) Kvs,
    StateMachineStore.snapshotIn M m'.base = some ⟨snap.metadata, snap.snapshot⟩ →
      ∃ core₁ m₁ core₂ m₂, Completes (StateMachineStore.new M) m' (.ok core₁) m₁ ∧
        AppliesTo es core₁ m₁ core₂ m₂ ∧ SameState core₂ m₂ core m
  install : ∀ (other : StateMachineStore M) (m' : Memory (Journal ε) Kvs), ∃ core₁ m₁ core₂ m₂,
    Completes (other.installSnapshot snap.metadata snap.snapshot) m' (.ok (), core₁) m₁ ∧
      AppliesTo es core₁ m₁ core₂ m₂ ∧ SameState core₂ m₂ core m

/-- **A restored snapshot converges** to the uninterrupted run, when the entries after its position
are applied. -/
theorem snapshot_converges (core : StateMachineStore M) (m : Memory (Journal ε) Kvs)
    (pre mid : List (List (Entry M))) (suf : List (Entry M)) :
    ∃ snap m₁ core₂ m₂, Completes (buildAfter core pre mid) m (.ok snap) m₁ ∧
      StateMachineStore.snapshotIn M m₁.base = some ⟨snap.metadata, snap.snapshot⟩ ∧
      snap.metadata.lastLogId = (core.advance pre.flatten).data.lastAppliedLogId ∧
      AppliesTo (pre.flatten ++ (mid.flatten ++ suf)) core m core₂ m₂ ∧
      ConvergesTo snap (mid.flatten ++ suf) core₂ m₂ := by
  obtain ⟨builder, hb⟩ : ∃ b, b = (core.advance pre.flatten).getSnapshotBuilder.1 := ⟨_, rfl⟩
  obtain ⟨kvs, hk⟩ : ∃ k, k = replay (m.cells core.data.kvs) (pre.flatten ++ mid.flatten) :=
    ⟨_, rfl⟩
  have hread : SerdeJson.fromSlice (builder.snapshotOf kvs).data = some kvs :=
    SerdeJson.fromSlice_toVec kvs
  -- both ways lead to the store that `sameState_of_restored` is about
  have catchUp := fun (other : StateMachineStore M) (m₁ : Memory (Journal ε) Kvs)
      (hcell : m₁.cells other.data.kvs = kvs) =>
    sameState_of_restored core m (other.restored (builder.snapshotOf kvs)) m₁ pre.flatten
      mid.flatten suf (hcell.trans hk) (by rw [hb]; rfl) (by rw [hb]; rfl)
  refine ⟨_, _, _, _, buildAfter_run core m pre mid hb hk,
    StateMachineStore.snapshotIn_extend_snapshotEffects _ _, by rw [hb]; rfl, appliesTo _ core m,
    ?_, ?_⟩
  · intro m' hstored
    exact ⟨_, _, _, _, StateMachineStore.new_run_some m' hstored hread, appliesTo _ _ _,
      catchUp _ _ (Memory.cells_store_self m' ⟨m'.next⟩ kvs)⟩
  · intro other m'
    exact ⟨_, _, _, _, StateMachineStore.installSnapshot_run other m' hread, appliesTo _ _ _,
      catchUp other _ (Memory.cells_store_self m' _ kvs)⟩

end convergence

end PlacementCenter.Openraft
