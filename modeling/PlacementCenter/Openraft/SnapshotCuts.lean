import PlacementCenter.Openraft.Builders
import PlacementCenter.Openraft.LogRuns

/-!
# Snapshots as cuts of the log

A snapshot is a cut when its data is the map after exactly the entries up to its position. The
worker keeps its map at its position. A builder has the position it was handed out at, and shares
the map: its snapshot is a cut exactly when the map it reads is the one it was handed out with.

## Main definitions

* `upTo log id`: the entries of the log up to a position
* `StoredSnapshot.IsCut log snap`: the data is the map after the entries up to the position
* `Node.Follows log`: what openraft calls the worker with

## Main results

* `Node.OnLog.step`: the map of the worker, and of each builder when it was handed out, is the one
  after the entries up to its position
* `Node.isCut_iff`: **a snapshot that was built is a cut** exactly when its builder read the map it
  was handed out with
-/

namespace PlacementCenter.Openraft

open Rust Program

variable {ε M : Type}

/-- The entries of the log up to a position. -/
def upTo (log : List (Entry M)) : Option LogId → List (Entry M)
  | some last => log.filter fun e => e.logId ≤ last
  | none => []

/-- The map after the entries of the log up to a position. -/
def mapAt (log : List (Entry M)) (position : Option LogId) : Kvs := replay ∅ (upTo log position)

/-- The data of the snapshot is the map after the entries up to its position. -/
def StoredSnapshot.IsCut (log : List (Entry M)) (snap : StoredSnapshot M) : Prop :=
  SerdeJson.fromSlice snap.data = some (mapAt log snap.metadata.lastLogId)

/-- The snapshot that `build_snapshot` returned, as it was stored. -/
def Snapshot.toStored (snap : Snapshot M) : StoredSnapshot M := ⟨snap.metadata, snap.snapshot⟩

namespace Node

/-- What openraft calls the worker with: the next entry of the log, and cuts of the log. -/
def Follows (log : List (Entry M)) (n : Node ε M) : Action M → Prop
  | .apply e => upTo log (some e.logId) = upTo log n.core.data.lastAppliedLogId ++ [e]
  | .install snap => snap.IsCut log
  | _ => True

/-- The map of the worker, and of each builder when it was handed out, is the one after the entries
up to its position. -/
structure OnLog (log : List (Entry M)) (n : Node ε M) : Prop where
  map : n.memory.cells n.core.data.kvs = mapAt log n.core.data.lastAppliedLogId
  builders : ∀ b ∈ n.builders, b.handedOut = mapAt log b.core.data.lastAppliedLogId
  built : ∀ p ∈ n.built, p.1.handedOut = mapAt log p.1.core.data.lastAppliedLogId

variable [SerdeJson M] {log : List (Entry M)}

/-- **A step keeps the maps** at their positions. -/
theorem OnLog.step {n n' : Node ε M} {a : Action M} (h : n.OnLog log) (ha : n.Follows log a)
    (hs : Step a n n') : n'.OnLog log := by
  cases hs with
  -- the next entry of the log
  | @apply n e reply core memory hw hrun =>
    obtain ⟨hr, rfl⟩ := (completes_of_run (n.core.applyEntry_run n.memory e)).mp hrun
    cases hr
    refine ⟨?_, h.builders, h.built⟩
    have hnext : upTo log (some e.logId) = upTo log n.core.data.lastAppliedLogId ++ [e] := ha
    calc (n.memory.store n.core.data.kvs _).cells n.core.data.kvs
        = replay (n.memory.cells n.core.data.kvs) [e] := Memory.cells_store_self _ _ _
      _ = mapAt log (some e.logId) := by rw [h.map, mapAt, mapAt, hnext, replay_append]
  -- the builder has the position and the map of the worker
  | handOut hw =>
    refine ⟨h.map, fun b hb => ?_, h.built⟩
    rcases List.mem_cons.mp hb with rfl | hb
    · exact h.map
    · exact h.builders b hb
  | @install n snap core memory hw hrun =>
    obtain ⟨kvs, hd, rfl, rfl⟩ := updateStateMachine_ok hrun
    refine ⟨?_, h.builders, h.built⟩
    calc (n.memory.store n.core.data.kvs kvs).cells n.core.data.kvs
        = kvs := Memory.cells_store_self _ _ _
      _ = mapAt log snap.metadata.lastLogId := Option.some.inj (hd.symm.trans ha)
  | refuse hw hrun =>
    obtain ⟨rfl, rfl⟩ := updateStateMachine_error hrun
    exact h
  | @store n snap memory hw hrun =>
    obtain ⟨-, rfl⟩ := (completes_of_run
      (StateMachineStore.setCurrentSnapshot_run n.memory snap)).mp hrun
    exact ⟨h.map, h.builders, h.built⟩
  | @read n b l r kvs memory hb hrun =>
    obtain ⟨-, rfl⟩ := (completes_of_run (Memory.read_run _ _)).mp hrun
    exact ⟨h.map, forall_builders hb h.builders fun hmap => hmap, h.built⟩
  -- what is built has the label of the builder and the map that it read
  | @build n b l r kvs snap memory hb hr hrun =>
    obtain ⟨-, rfl⟩ := (completes_of_run (b.core.storeSnapshot_run n.memory kvs)).mp hrun
    refine ⟨h.map, forall_builders hb h.builders fun hmap => hmap, fun p hp => ?_⟩
    rcases List.mem_cons.mp hp with rfl | hp
    · exact h.builders b (hb ▸ List.mem_append_right _ List.mem_cons_self)
    · exact h.built p hp

/-- What was built has the position of its builder, and the map its builder read. -/
def Labelled (n : Node ε M) : Prop :=
  ∀ p ∈ n.built, ∃ kvs, p.1.read = some kvs ∧ p.2.toStored = p.1.core.snapshotOf kvs

theorem Labelled.step {n n' : Node ε M} {a : Action M} (h : n.Labelled) (hs : Step a n n') :
    n'.Labelled := by
  cases hs with
  | @build n b l r kvs snap memory hb hr hrun =>
    obtain ⟨hsnap, -⟩ := (completes_of_run (b.core.storeSnapshot_run n.memory kvs)).mp hrun
    cases hsnap
    intro p hp
    rcases List.mem_cons.mp hp with rfl | hp
    · exact ⟨kvs, hr, rfl⟩
    · exact h p hp
  | apply _ _ => exact h
  | handOut _ => exact h
  | install _ _ => exact h
  | refuse _ _ => exact h
  | store _ _ => exact h
  | read _ _ => exact h

variable [Inhabited M] {m : Memory (Journal ε) Kvs} {start n : Node ε M}

/-- A store that was just opened on a cut, or on no snapshot, is on the log. -/
theorem Starts.onLog (h : Starts m start)
    (hcut : ∀ snap ∈ StateMachineStore.snapshotIn M m.base, snap.IsCut log) : start.OnLog log := by
  obtain ⟨-, hat⟩ := h.position
  refine ⟨?_, fun b hb => ?_, fun p hp => ?_⟩
  · rcases hs : StateMachineStore.snapshotIn M m.base with _ | snap
    · rw [hs] at hat
      rw [hat.1, hat.2]
      rfl
    · rw [hs] at hat
      rw [hat.1]
      exact Option.some.inj (hat.2.symm.trans (hcut snap hs))
  · rw [h.builders] at hb
    cases hb
  · rw [h.built] at hp
    cases hp

/-- **Every run keeps the maps** at their positions. -/
theorem onLog_of_run (hs : Starts m start)
    (hcut : ∀ snap ∈ StateMachineStore.snapshotIn M m.base, snap.IsCut log)
    (h : Run (Follows log) start n) : n.OnLog log ∧ n.Labelled := by
  induction h with
  | start =>
    refine ⟨hs.onLog hcut, fun p hp => ?_⟩
    rw [hs.built] at hp
    cases hp
  | step _ ha hstep ih => exact ⟨ih.1.step ha hstep, ih.2.step hstep⟩

/-- **A snapshot that was built is a cut** of the log exactly when its builder read the map it was
handed out with: when no entry and no installation changed the map in between. -/
theorem isCut_iff (hs : Starts m start)
    (hcut : ∀ snap ∈ StateMachineStore.snapshotIn M m.base, snap.IsCut log)
    (h : Run (Follows log) start n) {b : Builder M} {snap : Snapshot M} (hb : (b, snap) ∈ n.built) :
    snap.toStored.IsCut log ↔ b.read = some b.handedOut := by
  have hrun := onLog_of_run hs hcut h
  obtain ⟨kvs, hread, hsnap⟩ := hrun.2 _ hb
  have hmap : b.handedOut = mapAt log b.core.data.lastAppliedLogId := hrun.1.built _ hb
  have hdata : SerdeJson.fromSlice (b.core.snapshotOf kvs).data = some kvs :=
    SerdeJson.fromSlice_toVec kvs
  rw [hread, hmap, StoredSnapshot.IsCut, hsnap, hdata]
  rfl

/-! ### A builder that reads a later map -/

/-- An entry that sets a key. -/
def setEntry : Entry Configs := ⟨⟨⟨1, 1⟩, 1⟩, .normal (.set "key" "value")⟩

/-- The log of the two entries. -/
def twoEntries : List (Entry Configs) := [blankEntry, setEntry]

theorem upTo_blankEntry :
    upTo twoEntries (some blankEntry.logId) = upTo twoEntries none ++ [blankEntry] := by decide

theorem upTo_setEntry :
    upTo twoEntries (some setEntry.logId) =
      upTo twoEntries (some blankEntry.logId) ++ [setEntry] := by decide

theorem isCut_of_empty : ∀ snap ∈ StateMachineStore.snapshotIn Configs (Journal.empty : Journal Unit),
    snap.IsCut twoEntries := by
  simp

theorem mapAt_setEntry_ne :
    mapAt twoEntries (some setEntry.logId) ≠ mapAt twoEntries (some blankEntry.logId) := by
  intro h
  rw [mapAt, mapAt, upTo_setEntry, replay_append, upTo_blankEntry] at h
  have hkey := congrArg (fun kvs : Kvs => kvs["key"]?) h
  simp [replay, upTo, Entry.update, blankEntry, setEntry, OrdMap.updates, OrdMap.update] at hkey

/-- The builder is handed out after the first entry, and reads the map after the second. -/
theorem later_entry_in_snapshot : ∃ (n : Node Unit Configs) (b : Builder Configs)
    (snap : Snapshot Configs), Run (Follows twoEntries) (opened Unit Configs) n ∧
      (b, snap) ∈ n.built ∧ snap.metadata.lastLogId = some blankEntry.logId ∧
      SerdeJson.fromSlice snap.snapshot = some (mapAt twoEntries (some setEntry.logId)) ∧
      ¬ snap.toStored.IsCut twoEntries := by
  have h : Run (Follows twoEntries) (opened Unit Configs) (opened Unit Configs) := .start
  have h := h.step (a := .apply blankEntry) upTo_blankEntry
    (.apply rfl (StateMachineStore.applyEntry_run _ _ _))
  have h := h.step (a := .handOut) trivial (.handOut rfl)
  have h := h.step (a := .apply setEntry) upTo_setEntry
    (.apply rfl (StateMachineStore.applyEntry_run _ _ _))
  have hmap := (onLog_of_run starts_opened isCut_of_empty h).1.map
  have h := h.step (a := .read _) trivial (.read (l := []) rfl (Memory.read_run _ _))
  have h := h.step (a := .build _) trivial
    (.build (l := []) rfl rfl (StateMachineStore.storeSnapshot_run _ _ _))
  have hdata := (SerdeJson.fromSlice_toVec _).trans (congrArg some hmap)
  exact ⟨_, _, _, h, List.mem_cons_self, rfl, hdata, fun hcut =>
    mapAt_setEntry_ne (Option.some.inj (hdata.symm.trans hcut))⟩

/-- The snapshot of the first entry, and a database that stores it. -/
def firstCut : StoredSnapshot Configs :=
  ⟨⟨some blankEntry.logId, default, ""⟩,
    SerdeJson.toVec (mapAt twoEntries (some blankEntry.logId))⟩

def cutStored : Memory (Journal Unit) Kvs :=
  ⟨Journal.empty.extend (StateMachineStore.snapshotEffects firstCut), fun _ => ∅, 0⟩

theorem snapshotIn_cutStored :
    StateMachineStore.snapshotIn Configs cutStored.base = some firstCut :=
  StateMachineStore.snapshotIn_extend_snapshotEffects _ _

theorem isCut_of_cutStored : ∀ snap ∈ StateMachineStore.snapshotIn Configs cutStored.base,
    snap.IsCut twoEntries := by
  rintro snap hs
  obtain rfl : firstCut = snap := Option.some.inj (snapshotIn_cutStored.symm.trans hs)
  exact SerdeJson.fromSlice_toVec _

/-- After a restart the builder reads the map it was handed out with, and stores its snapshot when
the worker has gone on. -/
theorem isCut_restored : ∃ (start n : Node Unit Configs) (b : Builder Configs)
    (snap : Snapshot Configs), Starts cutStored start ∧ Run (Follows twoEntries) start n ∧
      (b, snap) ∈ n.built ∧ n.core.data.lastAppliedLogId = some setEntry.logId ∧
      snap.toStored.IsCut twoEntries := by
  have hstarts := starts_restoredOn snapshotIn_cutStored (SerdeJson.fromSlice_toVec _)
  have h : Run (Follows twoEntries) (restoredOn cutStored firstCut
    (mapAt twoEntries (some blankEntry.logId))) _ := .start
  have h := h.step (a := .handOut) trivial (.handOut rfl)
  have h := h.step (a := .read _) trivial (.read (l := []) rfl (Memory.read_run _ _))
  have h := h.step (a := .apply setEntry) upTo_setEntry
    (.apply rfl (StateMachineStore.applyEntry_run _ _ _))
  have h := h.step (a := .build _) trivial
    (.build (l := []) rfl rfl (StateMachineStore.storeSnapshot_run _ _ _))
  exact ⟨_, _, _, _, hstarts, h, List.mem_cons_self, rfl,
    (isCut_iff hstarts isCut_of_cutStored h List.mem_cons_self).mpr rfl⟩

end Node

end PlacementCenter.Openraft
