import PlacementCenter.Openraft.SnapshotReplay

/-!
# Builders beside the worker

The worker of the state machine applies entries, installs snapshots and hands out builders. A
builder is a task of its own: it reads the map and stores its snapshot between any two steps of the
worker and of the other builders, and it may build again.

## Main definitions

* `Builder`, `Node`: a builder that was handed out, and the worker with its builders
* `Node.Step`: one step of the worker or of a builder
* `Node.Run C start n`: every interleaving of steps that meet the condition `C`

## Main results

* `Node.Step.base_eq`: what a step writes to the database
* `Node.Starts.position`: a store that was just opened is at the position of its snapshot
-/

namespace PlacementCenter.Openraft

open Rust Program

/-- A builder that was handed out. -/
structure Builder (M : Type) where
  core : StateMachineStore M
  /-- The map when the builder was handed out, which the builder does not keep. -/
  handedOut : Kvs
  /-- The map as `build_snapshot` read it, until the snapshot is stored. -/
  read : Option Kvs

/-- The worker of the state machine and the builders that were handed out. -/
structure Node (ε M : Type) where
  memory : Memory (Journal ε) Kvs
  core : StateMachineStore M
  /-- The snapshot that `install_snapshot` restored and has not stored yet. -/
  installing : Option (StoredSnapshot M)
  builders : List (Builder M)
  /-- The snapshots that were built, each with its builder. -/
  built : List (Builder M × Snapshot M)

/-- The steps of the worker and of the builders. -/
inductive Action (M : Type) where
  /-- One iteration of `apply`. -/
  | apply (e : Entry M)
  /-- `get_snapshot_builder`. -/
  | handOut
  /-- The first half of `install_snapshot`. -/
  | install (snap : StoredSnapshot M)
  /-- The second half of `install_snapshot`. -/
  | store (snap : StoredSnapshot M)
  /-- The first half of `build_snapshot`. -/
  | read (b : Builder M)
  /-- The second half of `build_snapshot`. -/
  | build (b : Builder M)

/-- The snapshot that a step stores. -/
def Action.stored {M : Type} : Action M → Option (StoredSnapshot M)
  | store snap => some snap
  | build b => b.read.map b.core.snapshotOf
  | _ => none

namespace Node

variable {ε M : Type} [SerdeJson M]

/-- One step. The worker takes no other step while it installs a snapshot; the builders do. -/
inductive Step : Action M → Node ε M → Node ε M → Prop where
  | apply {n : Node ε M} {e reply core memory} (hw : n.installing = none)
      (h : Completes (n.core.applyEntry e) n.memory (reply, core) memory) :
      Step (.apply e) n { n with memory, core }
  | handOut {n : Node ε M} (hw : n.installing = none) :
      Step .handOut n { n with
        core := n.core.getSnapshotBuilder.2
        builders :=
          ⟨n.core.getSnapshotBuilder.1, n.memory.cells n.core.data.kvs, none⟩ :: n.builders }
  | install {n : Node ε M} {snap core memory} (hw : n.installing = none)
      (h : Completes (n.core.updateStateMachine snap) n.memory (.ok (), core) memory) :
      Step (.install snap) n { n with memory, core, installing := some snap }
  | refuse {n : Node ε M} {snap e core memory} (hw : n.installing = none)
      (h : Completes (n.core.updateStateMachine snap) n.memory (.error e, core) memory) :
      Step (.install snap) n { n with memory, core }
  | store {n : Node ε M} {snap memory} (hw : n.installing = some snap)
      (h : Completes (StateMachineStore.setCurrentSnapshot snap) n.memory (.ok ()) memory) :
      Step (.store snap) n { n with memory, installing := none }
  | read {n : Node ε M} {b l r kvs memory} (hb : n.builders = l ++ b :: r)
      (h : Completes (Shared.read b.core.data.kvs) n.memory kvs memory) :
      Step (.read b) n { n with memory, builders := l ++ { b with read := some kvs } :: r }
  | build {n : Node ε M} {b l r kvs snap memory} (hb : n.builders = l ++ b :: r)
      (hr : b.read = some kvs) (h : Completes (b.core.storeSnapshot kvs) n.memory (.ok snap) memory) :
      Step (.build b) n { n with
        memory
        builders := l ++ { b with read := none } :: r
        built := (b, snap) :: n.built }

/-- Every interleaving of steps, each meeting the condition `C` on the node it is taken on. -/
inductive Run (C : Node ε M → Action M → Prop) (start : Node ε M) : Node ε M → Prop where
  | start : Run C start start
  | step {n n' a} (hr : Run C start n) (hC : C n a) (h : Step a n n') : Run C start n'

/-- A run that meets a stronger condition. -/
theorem Run.mono {C D : Node ε M → Action M → Prop} {start n : Node ε M}
    (hCD : ∀ n a, C n a → D n a) (h : Run C start n) : Run D start n := by
  induction h with
  | start => exact .start
  | @step n n' a _ hC hs ih => exact ih.step (hCD n a hC) hs

/-- A node whose store was just opened on the database of `m`. -/
structure Starts [Inhabited M] (m : Memory (Journal ε) Kvs) (n : Node ε M) : Prop where
  opened : Completes (StateMachineStore.new M) m (.ok n.core) n.memory
  installing : n.installing = none
  builders : n.builders = []
  built : n.built = []

/-! ### What a step does -/

omit [SerdeJson M] in
/-- What holds of all builders holds after one of them took a step that keeps it. -/
theorem forall_builders {P : Builder M → Prop} {builders l r : List (Builder M)} {b b' : Builder M}
    (hb : builders = l ++ b :: r) (h : ∀ c ∈ builders, P c) (hP : P b → P b') :
    ∀ c ∈ l ++ b' :: r, P c := by
  rw [hb, List.forall_mem_append, List.forall_mem_cons] at h
  rw [List.forall_mem_append, List.forall_mem_cons]
  exact ⟨h.1, hP h.2.1, h.2.2⟩

omit [SerdeJson M] in
/-- A snapshot whose data cannot be read is refused before anything changes. -/
theorem updateStateMachine_run_none {ω : Type} {core : StateMachineStore M} {m : Memory ω Kvs}
    {snap : StoredSnapshot M} (h : (SerdeJson.fromSlice snap.data : Option Kvs) = none) :
    core.updateStateMachine snap m =
      (.ok (.error (.readSnapshot (some snap.metadata.signature)
        ("Failed to deserialize: " ++ toString snap.data)), core), m) := by
  unfold StateMachineStore.updateStateMachine
  rw [h]
  rfl

omit [SerdeJson M] in
/-- A snapshot that is restored is read. -/
theorem updateStateMachine_ok {core core' : StateMachineStore M} {m m' : Memory (Journal ε) Kvs}
    {snap : StoredSnapshot M} (h : Completes (core.updateStateMachine snap) m (.ok (), core') m') :
    ∃ kvs, SerdeJson.fromSlice snap.data = some kvs ∧ core' = core.restored snap ∧
      m' = m.store core.data.kvs kvs := by
  rcases hd : (SerdeJson.fromSlice snap.data : Option Kvs) with _ | kvs
  · obtain ⟨hr, -⟩ := (completes_of_run (updateStateMachine_run_none hd)).mp h
    cases hr
  · obtain ⟨hr, rfl⟩ := (completes_of_run (core.updateStateMachine_run m hd)).mp h
    cases hr
    exact ⟨kvs, rfl, rfl, rfl⟩

omit [SerdeJson M] in
/-- A snapshot that is refused changes nothing. -/
theorem updateStateMachine_error {core core' : StateMachineStore M}
    {m m' : Memory (Journal ε) Kvs} {snap : StoredSnapshot M} {e : StorageError}
    (h : Completes (core.updateStateMachine snap) m (.error e, core') m') :
    core' = core ∧ m' = m := by
  rcases hd : (SerdeJson.fromSlice snap.data : Option Kvs) with _ | kvs
  · obtain ⟨hr, rfl⟩ := (completes_of_run (updateStateMachine_run_none hd)).mp h
    cases hr
    exact ⟨rfl, rfl⟩
  · obtain ⟨hr, -⟩ := (completes_of_run (core.updateStateMachine_run m hd)).mp h
    cases hr

/-- The effects of a step. -/
def effects (stored : Option (StoredSnapshot M)) : List (Effect ε) :=
  stored.elim [] StateMachineStore.snapshotEffects

/-- **What a step writes** is the snapshot it stores. -/
theorem Step.base_eq {a : Action M} {n n' : Node ε M} (h : Step a n n') :
    n'.memory.base = n.memory.base.extend (effects a.stored) := by
  -- only the worker that stores and the builder write
  cases h with
  | @apply n e reply core memory hw h =>
    obtain ⟨-, rfl⟩ := (completes_of_run (n.core.applyEntry_run n.memory e)).mp h
    exact (Journal.extend_nil _).symm
  | handOut hw => exact (Journal.extend_nil _).symm
  | @install n snap core memory hw h =>
    obtain ⟨kvs, -, -, rfl⟩ := updateStateMachine_ok h
    exact (Journal.extend_nil _).symm
  | refuse hw h =>
    obtain ⟨-, rfl⟩ := updateStateMachine_error h
    exact (Journal.extend_nil _).symm
  | @store n snap memory hw h =>
    obtain ⟨-, rfl⟩ := (completes_of_run
      (StateMachineStore.setCurrentSnapshot_run n.memory snap)).mp h
    rfl
  | read hb h =>
    obtain ⟨-, rfl⟩ := (completes_of_run (Memory.read_run _ _)).mp h
    exact (Journal.extend_nil _).symm
  | @build n b l r kvs snap memory hb hr h =>
    obtain ⟨-, rfl⟩ := (completes_of_run (b.core.storeSnapshot_run n.memory kvs)).mp h
    rw [Action.stored, hr]
    rfl

/-! ### A store that was just opened -/

variable [Inhabited M]

theorem new_run_none {m : Memory (Journal ε) Kvs}
    (hs : StateMachineStore.snapshotIn M m.base = none) :
    StateMachineStore.new M m = (.ok (.ok ⟨⟨none, default, ⟨m.next⟩⟩, 0⟩),
      { m.store ⟨m.next⟩ ∅ with next := m.next + 1 }) := by
  rw [StateMachineStore.new_run, hs]
  rfl

theorem new_run_error {m : Memory (Journal ε) Kvs} {snap : StoredSnapshot M}
    (hs : StateMachineStore.snapshotIn M m.base = some snap)
    (hd : (SerdeJson.fromSlice snap.data : Option Kvs) = none) :
    StateMachineStore.new M m = (.ok (.error (.readSnapshot (some snap.metadata.signature)
      ("Failed to deserialize: " ++ toString snap.data))),
      { m.store ⟨m.next⟩ ∅ with next := m.next + 1 }) := by
  rw [StateMachineStore.new_run, hs]
  simp only
  rw [Program.bind_run_ok (updateStateMachine_run_none hd)]
  rfl

/-- The store is at the position of a snapshot, with its map. -/
def At (n : Node ε M) : Option (StoredSnapshot M) → Prop
  | some snap => n.core.data.lastAppliedLogId = snap.metadata.lastLogId ∧
      SerdeJson.fromSlice snap.data = some (n.memory.cells n.core.data.kvs)
  | none => n.core.data.lastAppliedLogId = none ∧ n.memory.cells n.core.data.kvs = ∅

/-- **A store that was just opened** is at the position of its snapshot. -/
theorem Starts.position {m : Memory (Journal ε) Kvs} {n : Node ε M} (h : Starts m n) :
    n.memory.base = m.base ∧ n.At (StateMachineStore.snapshotIn M m.base) := by
  rcases n with ⟨memory, core, installing, builders, built⟩
  obtain ⟨ho, -, -, -⟩ := h
  rcases hs : StateMachineStore.snapshotIn M m.base with _ | snap
  · obtain ⟨hcore, rfl⟩ := (completes_of_run (new_run_none hs)).mp ho
    cases hcore
    exact ⟨rfl, rfl, Memory.cells_store_self _ _ _⟩
  · rcases hd : (SerdeJson.fromSlice snap.data : Option Kvs) with _ | kvs
    · obtain ⟨hcore, -⟩ := (completes_of_run (new_run_error hs hd)).mp ho
      cases hcore
    · obtain ⟨hcore, rfl⟩ := (completes_of_run (StateMachineStore.new_run_some m hs hd)).mp ho
      cases hcore
      exact ⟨rfl, rfl, hd.trans (congrArg some (Memory.cells_store_self _ _ _).symm)⟩

/-- A store on a database with a stored snapshot, whose data is a map. -/
def restoredOn (m : Memory (Journal ε) Kvs) (snap : StoredSnapshot M) (kvs : Kvs) : Node ε M :=
  ⟨{ m.store ⟨m.next⟩ kvs with next := m.next + 1 },
    (⟨⟨none, default, ⟨m.next⟩⟩, 0⟩ : StateMachineStore M).restored snap, none, [], []⟩

theorem starts_restoredOn {m : Memory (Journal ε) Kvs} {snap : StoredSnapshot M} {kvs : Kvs}
    (hs : StateMachineStore.snapshotIn M m.base = some snap)
    (hd : SerdeJson.fromSlice snap.data = some kvs) : Starts m (restoredOn m snap kvs) :=
  ⟨StateMachineStore.new_run_some m hs hd, rfl, rfl, rfl⟩

/-- A store on the empty database. -/
def opened (ε M : Type) [Inhabited M] : Node ε M :=
  ⟨⟨.empty, fun _ => ∅, 1⟩, ⟨⟨none, default, ⟨0⟩⟩, 0⟩, none, [], []⟩

theorem starts_opened : Starts ⟨.empty, fun _ => ∅, 0⟩ (opened ε M) where
  opened := by
    refine (new_run_none rfl).trans ?_
    rw [show (∅ : Kvs) = (fun _ => ∅ : Arc → Kvs) ⟨0⟩ from rfl, Memory.store_cells]
    rfl
  installing := rfl
  builders := rfl
  built := rfl

end Node

end PlacementCenter.Openraft
