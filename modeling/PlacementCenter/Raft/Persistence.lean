import PlacementCenter.Raft.Cycles
import PlacementCenter.Storage.FailingPuts

/-!
# Persisting before sending

What is stored when a cycle of the raft machine hands over the messages that are to follow the
hard state and the entries, on a disk whose puts may fail. The entries are stored or the cycle
panics; a failing put of the hard state is dropped.

## Main definitions

* `RouterOn σ`: a route over any database that writes and deletes client keys only
* `KeptByApply P`: what every effect of applying entries keeps
* `RaftMachine.persistReady`: the part of `on_ready` up to the persisted messages
* `Persisted ready m`: the contents `m` hold the entries and the hard state of a `Ready`

## Main results

* `keeps_handleCommittedEntries`: what the effects keep, applying entries keeps
* `RaftMachine.onReady_eq`: the cycle is this part, and then the messages
* `mutators_return_ok`: the mutators hide a put that fails
* `persisted_iff`: when both are stored as the messages are sent
-/

namespace PlacementCenter.Raft

open Rust Rust.Prost Storage Program

/-! ### What applying entries keeps -/

/-- A route of committed data over a database. It writes and deletes client keys only. -/
structure RouterOn (σ : Type) [RocksDb σ] where
  route : Route σ
  keeps : ∀ {P : σ → Prop},
    (∀ k v, IsClientKey k → Keeps P (RocksDb.putCf dbColumnFamilyCluster k v)) →
    (∀ k, IsClientKey k → Keeps P (RocksDb.deleteCf dbColumnFamilyCluster k)) →
    ∀ now data, Keeps P (route now data)

/-- The route of the program. -/
def dataRouteOn (σ : Type) [RocksDb σ] : RouterOn σ where
  route := DataRoute.route
  keeps _ _ now data := keeps_of_run _ fun s => by rw [DataRoute.route_panics]

section keeps

variable {σ : Type} [RocksDb σ] [Observed σ MachineEvent]

/-- What the reads, the events, the writes of the clients and those of the records other than the
entries keep. -/
structure KeptByApply (P : σ → Prop) : Prop where
  emit : ∀ e : MachineEvent, Keeps P (Observed.emit e : Program σ Unit)
  get : ∀ k, Keeps P (RocksDb.getCf dbColumnFamilyCluster k : Program σ _)
  iterate : Keeps P (RocksDb.iterate dbColumnFamilyCluster : Program σ _)
  client : ∀ k v, IsClientKey k → Keeps P (RocksDb.putCf dbColumnFamilyCluster k v : Program σ _)
  delete : ∀ k, IsClientKey k → Keeps P (RocksDb.deleteCf dbColumnFamilyCluster k : Program σ _)
  record : ∀ r : Record, (∀ idx, r ≠ .entry idx) → ∀ v,
    Keeps P (RocksDb.putCf dbColumnFamilyCluster r.key v : Program σ _)

variable {P : σ → Prop} (hP : KeptByApply P)
include hP

theorem keeps_read {α : Type} [SerdeJson α] (key : String) :
    Keeps P (RocksDBEngine.read α dbColumnFamilyCluster key : Program σ _) := by
  refine keeps_bind (hP.get _) fun found => ?_
  rcases found with err | _ | found <;> exact keeps_pure _

theorem keeps_write {α : Type} [SerdeJson α] {r : Record} (hr : ∀ idx, r ≠ .entry idx)
    (value : α) :
    Keeps P (RocksDBEngine.write dbColumnFamilyCluster r.name value : Program σ _) := by
  refine keeps_bind (hP.record r hr _) fun res => ?_
  rcases res with err | _ <;> exact keeps_pure _

/-- The readers of a message. -/
theorem keeps_readMessage {α : Type} [Message α] (d : α) (key : String) :
    Keeps P (do
      let value ← expectOk (← RocksDBEngine.read Bytes dbColumnFamilyCluster key)
      match value with
      | none => return d
      | some value => unwrapOk (decode value) : Program σ α) := by
  refine keeps_bind (keeps_read hP key) fun value => keeps_bind (keeps_expectOk _) fun value => ?_
  cases value with
  | none => exact keeps_pure _
  | some value => exact keeps_unwrapOk _

theorem keeps_commit (core : RaftMachineStorage) (idx : UInt64) :
    Keeps P (RaftRocksDBStorage.commmitIndex core idx : Program σ _) := by
  refine keeps_bind (keeps_bind (keeps_bind (keeps_read hP _) fun value => ?_) fun entry => ?_)
    fun _ => keeps_pure _
  · rcases value with err | _ | value
    · exact keeps_pure _
    · exact keeps_pure _
    · exact keeps_bind (keeps_unwrapOk _) fun _ => keeps_pure _
  · refine keeps_bind (keeps_bind (keeps_write hP (r := .uncommit) (by simp) _) fun _ =>
      keeps_pure _) fun _ => ?_
    refine keeps_bind (keeps_readMessage hP HardState.default _) fun hs => ?_
    exact keeps_bind (keeps_unwrap entry) fun _ =>
      keeps_bind (keeps_write hP (r := .hardState) (by simp) _) fun _ => keeps_pure _

theorem keeps_snapshot (core : RaftMachineStorage) :
    Keeps P (RaftRocksDBStorage.createSnapshot core : Program σ _) := by
  refine keeps_bind (keeps_bind ?_ fun s => ?_) fun _ => keeps_pure _
  · -- the snapshot is only built
    refine keeps_bind ?_ fun metadata => ?_
    · exact keeps_bind (keeps_readMessage hP HardState.default _) fun hs =>
        keeps_bind (keeps_readMessage hP ConfState.default _) fun cs => keeps_pure _
    · refine keeps_bind ?_ fun dump => keeps_bind ?_ fun data => keeps_pure _
      · exact keeps_foldlM _ (fun result family _ =>
          keeps_bind (keeps_bind hP.iterate fun _ => keeps_pure _) fun _ => keeps_pure _) _
      · unfold allocate
        split
        · exact keeps_pure _
        · exact keeps_panic _
  · exact keeps_bind (keeps_write hP (r := .firstIndex) (by simp) _) fun _ =>
      keeps_bind (keeps_bind (keeps_write hP (r := .snapshot) (by simp) _) fun _ => keeps_pure _)
        fun _ => keeps_pure _

theorem keeps_apply (router : RouterOn σ) (answers : Answers) (self : RaftMachine) (e : Entry) :
    Keeps P (self.applyEntry router.route answers e) := by
  refine RaftMachine.keeps_applyEntry_of self (fun _ cs _ => ?_) ?_
  · exact keeps_bind (keeps_write hP (r := .confState) (by simp) _) fun _ => keeps_pure _
  · refine keeps_bind (hP.emit _) fun _ =>
      keeps_bind (router.keeps hP.client hP.delete _ _) fun r => ?_
    cases r with
    | ok _ => exact hP.emit _
    | error _ => exact keeps_pure _

/-- **What the effects keep, applying entries keeps.** -/
theorem keeps_handleCommittedEntries (router : RouterOn σ) (answers : Answers)
    (self : RaftMachine) (es : List Entry) :
    Keeps P (self.handleCommittedEntries router.route answers es) := by
  refine keeps_foldlM es (fun self e _ => ?_) self
  refine keeps_bind (keeps_apply hP router answers self e) fun core => ?_
  refine keeps_bind (keeps_commit hP _ _) fun r => keeps_bind ?_ fun core' => ?_
  · exact RaftMachine.keeps_respond_of _ fun _ => hP.emit _
  · exact RaftMachine.keeps_createSnapshot_of _ (keeps_snapshot hP)

end keeps

/-! ### The cycle up to the persisted messages -/

namespace RaftMachine

section persistReady

variable {σ : Type} [RocksDb σ] [Observed σ MachineEvent]

/-- The part of `on_ready` up to the hard state. -/
def workOff (route : Route σ) (self : RaftMachine) (cycle : Cycle) : Program σ RaftMachine := do
  self.sendMessage cycle.ready.messages
  let self ← self.saveSnapshot cycle.ready.snapshot
  let self ← self.saveEntries cycle.ready.entries
  self.handleCommittedEntries route cycle.toAnswers cycle.ready.committedEntries

/-- The part of `on_ready` up to the persisted messages. -/
def persistReady (route : Route σ) (self : RaftMachine) (cycle : Cycle) :
    Program σ RaftMachine := do
  let self ← self.workOff route cycle
  saveHardState cycle.ready.hs
  return self

/-- A cycle is this part, and then the persisted messages and what follows them. -/
theorem onReady_eq (route : Route σ) (self : RaftMachine) (cycle : Cycle) :
    self.onReady route cycle = (do
      let self ← self.persistReady route cycle
      self.sendMessage cycle.ready.persistedMessages
      saveCommit cycle.lightRd.commitIndex
      self.sendMessage cycle.lightRd.messages
      self.handleCommittedEntries route cycle.toAnswers cycle.lightRd.committedEntries) := by
  simp only [onReady, persistReady, workOff, bind_assoc, pure_bind]

end persistReady

end RaftMachine

/-! ### What is stored -/

/-- The contents hold the entries and the hard state of a `Ready`. -/
structure Persisted (ready : Ready) (m : ColumnFamily) : Prop where
  entries : ∀ e ∈ ready.entries,
    m[(Record.entry e.index).key]? = some (recordBytes (encodeToVec e))
  hs : ∀ hs ∈ ready.hs, m[Record.hardState.key]? = some (recordBytes (encodeToVec hs))

/-- No two different entries have one index. -/
def OneEntryEach (es : List Entry) : Prop :=
  ∀ e ∈ es, ∀ e' ∈ es, e'.index = e.index → e' = e

/-- The put of a hard state succeeds, or the record holds it already. -/
def HardStateLands (d : Disk MachineEvent) (hs : HardState) : Prop :=
  d.next = none ∨
    (cluster d.world)[Record.hardState.key]? = some (recordBytes (encodeToVec hs))

/-- Different entries have different texts. -/
theorem entryText_inj {e e' : Entry}
    (h : recordBytes (encodeToVec e) = recordBytes (encodeToVec e')) : e = e' := by
  have hp := congrArg (parseRecord Bytes) h
  rw [parseRecord_recordBytes, parseRecord_recordBytes] at hp
  have hd := congrArg (decode (α := Entry)) (Except.ok.inj hp)
  simpa using hd

section stored

variable {d d' : Disk MachineEvent} {self self' : RaftMachine}

/-- Appended entries are there, where each index has one of them. -/
theorem lookup_appended_self {es : List Entry} (h : OneEntryEach es) {e : Entry} (he : e ∈ es)
    (w : World MachineEvent) :
    (cluster (appended w es))[(Record.entry e.index).key]? =
      some (recordBytes (encodeToVec e)) := by
  -- an entry stays until one with its index is appended
  induction es generalizing w with
  | nil => cases he
  | cons e' es ih =>
    have htail : OneEntryEach es := fun a ha b hb =>
      h a (List.mem_cons_of_mem e' ha) b (List.mem_cons_of_mem e' hb)
    rw [appended_cons]
    by_cases hmem : e ∈ es
    · exact ih htail hmem _
    · -- the first entry is the last one with its index
      obtain rfl : e = e' := by
        rcases List.mem_cons.mp he with h | h
        · exact h
        · exact absurd h hmem
      have hne : ∀ e'' ∈ es, (Record.entry e.index).key ≠ (Record.entry e''.index).key := by
        intro e'' he'' hk
        have hi : e''.index = e.index := by simpa using hk.symm
        have := h e List.mem_cons_self e'' (List.mem_cons_of_mem e he'') hi
        exact hmem (this ▸ he'')
      rw [lookup_appended (by simp) es hne, appendedEntry, cluster_putRecord, cluster_putRecord,
        OrdMap.lookup_insert_ne _ _ (by simp), OrdMap.lookup_insert_self]

/-- Saving the entries leaves them there exactly when each index has one of them. -/
theorem completes_saveEntries_disk {es : List Entry}
    (h : Completes (self.saveEntries es) d self' d') :
    (∀ e ∈ es, (cluster d'.world)[(Record.entry e.index).key]? =
      some (recordBytes (encodeToVec e))) ↔ OneEntryEach es := by
  constructor
  -- two entries with one index leave one text
  · intro hst e he e' he' hi
    have hl := hst e' he'
    rw [hi, hst e he] at hl
    exact entryText_inj (Option.some_inj.mp hl).symm
  · intro hone e he
    -- the puts of the entries cannot fail: a failing one panics
    unfold RaftMachine.saveEntries at h
    rw [if_neg (List.ne_nil_of_mem he)] at h
    obtain ⟨r, d₁, h₁, h⟩ := completes_bind.mp h
    obtain ⟨-, rfl⟩ := completes_pure.mp h
    obtain ⟨r', d₂, h₂, h₁⟩ := completes_bind.mp h₁
    obtain ⟨-, rfl⟩ := completes_pure.mp h₁
    cases es with
    | nil => cases he
    | cons e₀ es =>
      obtain ⟨fi, d₃, hf, h₂⟩ := completes_bind.mp h₂
      obtain ⟨-, rfl⟩ := (completes_of_run (RaftMachineStorage.firstIndex_disk _ _)).mp hf
      split_ifs at h₂
      · exact absurd h₂ not_completes_panic
      · obtain ⟨li, d₄, hl, h₂⟩ := completes_bind.mp h₂
        obtain ⟨-, rfl⟩ := (completes_of_run (RaftMachineStorage.lastIndex_disk _ _)).mp hl
        split_ifs at h₂
        · exact absurd h₂ not_completes_panic
        · obtain ⟨core, d₅, ha, h₂⟩ := completes_bind.mp h₂
          obtain ⟨u, d₆, hu, h₂⟩ := completes_bind.mp h₂
          obtain ⟨-, rfl⟩ := completes_pure.mp h₂
          obtain ⟨-, rfl⟩ := (completes_of_run
            (RaftMachineStorage.saveUncommitIndex_disk _ _)).mp hu
          rw [lookup_putOn_ne _ _ (by simp), RaftMachineStorage.completes_appendEntries ha]
          exact lookup_appended_self hone he _

/-- Applying entries leaves the records of the log. -/
theorem keptByApply_entries (m : ColumnFamily) :
    KeptByApply fun d : Disk MachineEvent =>
      ∀ idx, (cluster d.world)[(Record.entry idx).key]? = m[(Record.entry idx).key]? where
  emit _ _ hd := hd
  get _ _ hd := hd
  iterate _ hd := hd
  client k v hk d hd idx := by
    rw [Disk.putCf_run]
    exact (Disk.lookup_put_ne _ _ _ _ _ ((Record.entry idx).key_ne_of_client hk).symm).trans
      (hd idx)
  delete k hk d hd idx := by
    have hne : ((cluster d.world).erase k)[(Record.entry idx).key]? =
        (cluster d.world)[(Record.entry idx).key]? :=
      OrdMap.lookup_erase_ne _ ((Record.entry idx).key_ne_of_client hk).symm
    change (cluster (d.world.delete dbColumnFamilyCluster k))[(Record.entry idx).key]? = _
    rw [cluster, World.columns_delete_self]
    exact hne.trans (hd idx)
  record r hr v d hd idx := by
    rw [Disk.putCf_run]
    exact (Disk.lookup_put_ne _ _ _ _ _ (by simpa using hr idx)).trans (hd idx)

/-- The mutator of the hard state returns `Ok` whatever its put does. -/
theorem setHardState_disk (hs : HardState) (d : Disk MachineEvent) :
    RaftRocksDBStorage.setHardState hs d = (.ok (.ok ()), putOn d .hardState (encodeToVec hs)) := by
  obtain ⟨res, hres, -⟩ := RaftMachineStorage.saveHardState_disk hs d
  exact bind_run_ok hres _

/-- **The mutators return `Ok` whatever their put does.** -/
theorem mutators_return_ok (d : Disk MachineEvent) (hs stored : HardState) (cs : ConfState)
    (commit : UInt64) (h : hardStateIn (cluster d.world) = some stored) :
    RaftRocksDBStorage.setHardState hs d =
        (.ok (.ok ()), putOn d .hardState (encodeToVec hs)) ∧
      RaftRocksDBStorage.setConfState cs d =
        (.ok (.ok ()), putOn d .confState (encodeToVec cs)) ∧
      RaftRocksDBStorage.setHardStateComit commit d =
        (.ok (.ok ()), putOn d .hardState (encodeToVec { stored with commit := commit })) := by
  refine ⟨setHardState_disk hs d, ?_, ?_⟩
  · obtain ⟨res, hres, -⟩ := RaftMachineStorage.saveConfState_disk cs d
    exact bind_run_ok hres _
  · have hread : RaftMachineStorage.hardState d = (.ok stored, d) := by
      rw [RaftMachineStorage.hardState_disk, h]
      rfl
    obtain ⟨res, hres, -⟩ := RaftMachineStorage.saveHardState_disk
      { stored with commit := commit } d
    exact bind_run_ok ((bind_run_ok hread _).trans hres) _

end stored

/-- **What is stored when the persisted messages are sent**: all of the entries and the hard state,
exactly when no two different entries have one index and the put of the hard state succeeds, or
finds it there. -/
theorem persisted_iff {router : RouterOn (Disk MachineEvent)} {self self' : RaftMachine}
    {cycle : Cycle} {d d' : Disk MachineEvent}
    (h : Completes (self.persistReady router.route cycle) d self' d') :
    ∃ d₁, Completes (self.workOff router.route cycle) d self' d₁ ∧
      (Persisted cycle.ready (cluster d'.world) ↔
        OneEntryEach cycle.ready.entries ∧ ∀ hs ∈ cycle.ready.hs, HardStateLands d₁ hs) := by
  obtain ⟨core, d₁, hw, h⟩ := completes_bind.mp h
  obtain ⟨u, d₂, hsave, h⟩ := completes_bind.mp h
  obtain ⟨rfl, rfl⟩ := completes_pure.mp h
  refine ⟨d₁, hw, ?_⟩
  -- the entries, as they were when they were appended
  obtain ⟨_, d₃, -, hw⟩ := completes_bind.mp hw
  obtain ⟨core₁, d₄, -, hw⟩ := completes_bind.mp hw
  obtain ⟨core₂, d₅, hentries, hw⟩ := completes_bind.mp hw
  have hkept := (keeps_handleCommittedEntries (keptByApply_entries (cluster d₅.world)) router
    cycle.toAnswers core₂ cycle.ready.committedEntries).of_completes (fun _ => rfl) hw
  have hentry : ∀ idx, (cluster d₂.world)[(Record.entry idx).key]? =
      (cluster d₁.world)[(Record.entry idx).key]? := by
    intro idx
    rcases hhs : cycle.ready.hs with _ | hs <;> rw [hhs] at hsave
    · obtain ⟨-, rfl⟩ := completes_pure.mp hsave
      rfl
    · obtain ⟨-, rfl⟩ := (completes_of_run (bind_run_ok (setHardState_disk hs d₁) _)).mp hsave
      exact lookup_putOn_ne _ _ (by simp)
  -- the hard state is put last, and its failure is dropped
  have hlanded : (∀ hs ∈ cycle.ready.hs, (cluster d₂.world)[Record.hardState.key]? =
      some (recordBytes (encodeToVec hs))) ↔ ∀ hs ∈ cycle.ready.hs, HardStateLands d₁ hs := by
    rcases hhs : cycle.ready.hs with _ | hs <;> rw [hhs] at hsave
    · simp
    · obtain ⟨-, rfl⟩ := (completes_of_run (bind_run_ok (setHardState_disk hs d₁) _)).mp hsave
      have hself := lookup_putOn_self d₁ .hardState (encodeToVec hs)
      simp only [Option.mem_def, Option.some_inj, forall_eq', HardStateLands, hself]
      by_cases hn : d₁.next = none <;> simp [hn]
  rw [← completes_saveEntries_disk hentries, ← hlanded]
  constructor
  · rintro ⟨he, hh⟩
    refine ⟨fun e hmem => ?_, hh⟩
    rw [← hkept, ← hentry]
    exact he e hmem
  · rintro ⟨he, hh⟩
    refine ⟨fun e hmem => ?_, hh⟩
    rw [hentry, hkept]
    exact he e hmem

/-! A follower that learns an entry in term `1`, after it voted for node `1`. The first three puts
are those of the entry, the last index and the uncommitted indices. -/

def learnVote : Cycle := learnCycle { Entry.default with term := 1, index := 1 } ⟨1, 1, 0⟩

/-- A follower that has come up, with a pattern of failures. -/
def bootedDisk (outcome : ℕ → Option String) : Disk MachineEvent := ⟨booted.2, 0, outcome⟩

def persistLearnVote : Program (Disk MachineEvent) RaftMachine :=
  booted.1.1.persistReady (dataRouteOn (Disk MachineEvent)).route learnVote

def voteKept : RaftMachine × Disk MachineEvent :=
  finish persistLearnVote (bootedDisk fun _ => none) (by decide +kernel)

theorem persisted_voteKept :
    ∃ d₁, Completes (booted.1.1.workOff (dataRouteOn (Disk MachineEvent)).route learnVote)
        (bootedDisk fun _ => none) voteKept.1 d₁ ∧
      (Persisted learnVote.ready (cluster voteKept.2.world) ↔
        OneEntryEach learnVote.ready.entries ∧
          ∀ hs ∈ learnVote.ready.hs, HardStateLands d₁ hs) :=
  persisted_iff (completes_finish persistLearnVote _ _)

/-- The fourth put fails, which is that of the hard state. -/
def fourthFails : Disk MachineEvent := bootedDisk fun n => if n = 3 then some "IO error" else none

def voteLost : RaftMachine × Disk MachineEvent :=
  finish persistLearnVote fourthFails (by decide +kernel)

/-- The part up to the persisted messages completes, and the hard state that they rest on is not
there. -/
theorem vote_not_persisted :
    Completes persistLearnVote fourthFails voteLost.1 voteLost.2 ∧
      (cluster voteLost.2.world)[Record.hardState.key]? = none ∧
      ¬ Persisted learnVote.ready (cluster voteLost.2.world) := by
  have hnone : (cluster voteLost.2.world)[Record.hardState.key]? = none := by decide +kernel
  refine ⟨completes_finish _ _ _, hnone, fun hp => ?_⟩
  have hhs := hp.hs ⟨1, 1, 0⟩ rfl
  rw [hnone] at hhs
  cases hhs

end PlacementCenter.Raft
