import PlacementCenter.Raft.Cycles

/-!
# Configuration changes

A committed configuration change updates the members that a node knows and the configuration that
it stores, in two steps of their own, before the entry is committed. A change of a kind that the
loop does not implement panics, on every node and whenever the entry is delivered again.

## Main definitions

* `changedCluster`: the members after a change
* `persistedBy`: the configuration that an entry persists
* `Poisoned`: a run ended in an `unwrap` or an `unimplemented`
* `Processable`: the entry of a change can be processed

## Main results

* `completes_handleEntry_members`: the members and the stored configuration after an entry
* `not_poisoned_iff`: a change is processed when its kind is one of the two that are implemented
-/

namespace PlacementCenter.Raft

open Rust Rust.Prost Storage Program

/-- A change is read back: its context fits an allocation. -/
theorem ConfChange.fits (m : ConfChange) : ∀ f ∈ Message.fields m, f.Fits := by
  have hc := m.context.property
  intro f hf
  simp only [Message.fields, List.mem_append, mem_enumField, mem_uint64Field, mem_bytesField] at hf
  rcases hf with ((⟨-, rfl⟩ | ⟨-, rfl⟩) | ⟨-, rfl⟩) | ⟨-, rfl⟩ <;> simp only [Field.Fits] <;> omega

@[simp] theorem ConfChange.decode_encodeToVec (m : ConfChange) : decode (encodeToVec m) = some m :=
  Prost.decode_encodeToVec m.fits

/-! ### What an entry changes -/

/-- The change of a configuration entry that carries one. -/
def changeOf (e : Entry) : Option ConfChange :=
  if e.data.val = [] then none
  else
    match EntryType.fromI32 e.entryType with
    | some .entryConfChange => decode e.data.val
    | _ => none

/-- The members after a change. A new member whose description cannot be read is left out. -/
def changedCluster (core : RaftGroupMetadata) (change : ConfChange) : RaftGroupMetadata :=
  match ConfChangeType.fromI32 change.changeType with
  | some .addNode =>
    match (Bincode.deserialize change.context.val : Option BrokerNode) with
    | some node => core.addPeer change.nodeId node
    | none => core
  | some .removeNode => core.removePeer change.nodeId
  | _ => core

/-- The configuration that an entry persists: the answer of the node to its change. -/
def persistedBy (answers : Answers) (e : Entry) : Option ConfState :=
  (changeOf e).bind (answers.applyConfChange e.index)

/-- The two kinds of change that the loop implements. -/
def Implemented (change : ConfChange) : Prop :=
  ConfChangeType.fromI32 change.changeType = some .addNode ∨
    ConfChangeType.fromI32 change.changeType = some .removeNode

/-- The text of the configuration that is stored after an entry. -/
def confAfter (answers : Answers) (e : Entry) (m : ColumnFamily) : Option Bytes :=
  match persistedBy answers e with
  | some cs => some (recordBytes (encodeToVec cs))
  | none => m[Record.confState.key]?

namespace RaftMachine

section changePeers

variable {σ : Type} (self : RaftMachine) (change : ConfChange) (s : σ)

theorem changePeers_run (h : Implemented change) :
    self.changePeers change s =
      (.ok { self with placementCluster := changedCluster self.placementCluster change }, s) := by
  unfold changePeers changedCluster
  rcases h with h | h <;> rw [h] <;> dsimp only
  · cases (Bincode.deserialize change.context.val : Option BrokerNode) <;> rfl
  · rfl

theorem changePeers_panics (h : ¬ Implemented change) :
    ∃ msg, msg ≠ "capacity overflow" ∧ self.changePeers change s = (.panicked msg, s) := by
  unfold changePeers
  rw [Implemented, not_or] at h
  rcases ht : ConfChangeType.fromI32 change.changeType with _ | _ | _ | _
  · refine ⟨s!"Unknown enum variant: {change.changeType}", fun he => ?_, rfl⟩
    exact absurd (congrArg (fun t : String => t.toList.head?) he)
      (by simp [String.toList_append, toString])
  · exact absurd ht h.1
  · exact absurd ht h.2
  · exact ⟨"not implemented", by decide, rfl⟩

end changePeers

section apply

variable {answers : Answers} {self self' : RaftMachine} {e : Entry} {change : ConfChange}
  {w w' : World MachineEvent}

/-- The world after the answer to a change was stored. -/
def answered (w : World MachineEvent) : Option ConfState → World MachineEvent
  | some cs => putRecord w .confState (encodeToVec cs)
  | none => w

theorem changeConf_run (apply : ConfChange → Option ConfState)
    (hd : decode e.data.val = some change) (h : Implemented change) (w : World MachineEvent) :
    self.changeConf apply e w =
      (.ok { self with placementCluster := changedCluster self.placementCluster change },
        answered w (apply change)) := by
  unfold changeConf
  rw [hd, unwrapOk_some, pure_bind, bind_run_ok (changePeers_run self change w h)]
  rcases apply change with _ | cs <;> rfl

/-- A change that is not implemented panics before anything is stored. -/
theorem changeConf_panics (self : RaftMachine) (apply : ConfChange → Option ConfState)
    (hd : decode e.data.val = some change) (h : ¬ Implemented change) (w : World MachineEvent) :
    ∃ msg, msg ≠ "capacity overflow" ∧ self.changeConf apply e w = (.panicked msg, w) := by
  obtain ⟨msg, hne, hrun⟩ := changePeers_panics self change w h
  refine ⟨msg, hne, ?_⟩
  unfold changeConf
  rw [hd, unwrapOk_some, pure_bind, bind_run_panicked hrun]

/-- An entry that completes carries a change of an implemented kind, or none at all. -/
theorem implemented_of_completes (apply : ConfChange → Option ConfState)
    (h : Completes (self.changeConf apply e) w self' w') :
    ∃ change, decode e.data.val = some change ∧ Implemented change := by
  obtain ⟨change, w₁, h₁, -⟩ := completes_bind.mp h
  obtain ⟨hd, -⟩ := completes_unwrapOk.mp h₁
  refine ⟨change, hd, ?_⟩
  by_contra hno
  obtain ⟨msg, -, hrun⟩ := changeConf_panics self apply hd hno w
  rw [Completes, hrun] at h
  cases h

/-- **The members and the stored configuration once an entry was applied.** -/
theorem completes_applyEntry_members {router : Router MachineEvent}
    (h : Completes (self.applyEntry router.route answers e) w self' w') :
    (∀ change ∈ changeOf e, Implemented change) ∧
      self'.placementCluster =
        (changeOf e).elim self.placementCluster (changedCluster self.placementCluster) ∧
      (cluster w')[Record.confState.key]? = confAfter answers e (cluster w) := by
  unfold applyEntry at h
  unfold confAfter persistedBy changeOf
  split_ifs at h ⊢ with hdata
  · obtain ⟨rfl, rfl⟩ := completes_pure.mp h
    simp
  · rcases ht : EntryType.fromI32 e.entryType with _ | _ | _ | _ <;> rw [ht] at h
    · exact absurd h not_completes_panic
    · -- the route writes client keys only
      obtain ⟨_, w₁, h₁, h⟩ := completes_bind.mp h
      obtain ⟨rfl, rfl⟩ := completes_pure.mp h
      have hkeep : Keeps (fun w' => (cluster w')[Record.confState.key]? =
          (cluster w)[Record.confState.key]?)
          (routeEntry router.route (answers.now e.index) e : Program (World MachineEvent) Unit) := by
        refine keeps_bind (fun w' hw => hw) fun _ => keeps_bind
          (router.keeps ⟨fun w' k v hk hw => ?_, fun w' k hk hw => ?_⟩ _ _) fun r => ?_
        · rw [cluster_putKey, OrdMap.lookup_insert_ne _ _
            (Record.confState.key_ne_of_client hk).symm, hw]
        · rw [cluster, World.columns_delete_self, OrdMap.lookup_erase_ne _
            (Record.confState.key_ne_of_client hk).symm]
          exact hw
        · cases r with
          | ok _ => exact fun w' hw => hw
          | error _ => exact keeps_pure _
      refine ⟨by simp, rfl, ?_⟩
      exact hkeep.of_completes rfl h₁
    -- the change is applied to the members, and its answer stored
    · obtain ⟨change, hd, himp⟩ := implemented_of_completes _ h
      obtain ⟨rfl, rfl⟩ := (completes_of_run (changeConf_run _ hd himp w)).mp h
      rw [hd]
      refine ⟨?_, rfl, ?_⟩
      · rintro change' ⟨⟩
        exact himp
      · dsimp only [Option.bind_some]
        rcases answers.applyConfChange e.index change with _ | cs
        · rfl
        · rw [answered, cluster_putRecord, OrdMap.lookup_insert_self]
    · obtain ⟨rfl, rfl⟩ := completes_pure.mp h
      simp

/-- Answering a channel neither panics nor touches the store. -/
theorem respond_run (self : RaftMachine) (e : Entry) (w : World MachineEvent) :
    ∃ self' w', self.respond e w = (.ok self', w') ∧ cluster w' = cluster w ∧
      self'.entryNum = self.entryNum ∧ self'.placementCluster = self.placementCluster := by
  unfold respond
  rcases (Bincode.deserialize e.context.val : Option UInt64) with _ | seq
  · exact ⟨self, w, rfl, rfl, rfl, rfl⟩
  · dsimp only
    rcases self.respChannel[seq]? with _ | chan
    · exact ⟨self, w, rfl, rfl, rfl, rfl⟩
    · exact ⟨_, _, bind_run_ok (World.emit_run _ _) _, rfl, rfl, rfl⟩

/-- The snapshot with every thousandth entry leaves the members and the stored configuration. -/
theorem completes_createSnapshot_members (h : Completes self.createSnapshot w self' w') :
    self'.placementCluster = self.placementCluster ∧
      (cluster w')[Record.confState.key]? = (cluster w)[Record.confState.key]? := by
  unfold createSnapshot at h
  dsimp only at h
  split_ifs at h
  · obtain ⟨⟨r, st⟩, w₁, h₁, hp⟩ := completes_bind.mp h
    obtain ⟨rfl, rfl⟩ := completes_pure.mp hp
    obtain ⟨st', w₂, h₂, hp⟩ := completes_bind.mp h₁
    obtain ⟨-, rfl⟩ := completes_pure.mp hp
    obtain ⟨s, -, -, rfl⟩ := RaftMachineStorage.completes_createSnapshot.mp h₂
    refine ⟨rfl, ?_⟩
    rw [cluster_putRecord, OrdMap.lookup_insert_ne _ _ (by simp), cluster_putRecord,
      OrdMap.lookup_insert_ne _ _ (by simp)]
  · obtain ⟨rfl, rfl⟩ := completes_pure.mp h
    exact ⟨rfl, rfl⟩

/-- A commit leaves the members and the stored configuration. -/
theorem completes_commitEntry_members (h : Completes (self.commitEntry e) w self' w') :
    self'.placementCluster = self.placementCluster ∧
      (cluster w')[Record.confState.key]? = (cluster w)[Record.confState.key]? := by
  -- the commit, the answer and the snapshot, one after the other
  obtain ⟨⟨r, st⟩, w₁, h₁, h⟩ := completes_bind.mp h
  obtain ⟨core, w₂, h₂, h₃⟩ := completes_bind.mp h
  obtain ⟨⟨r', st'⟩, w₁', hc, hp⟩ := completes_bind.mp h₁
  obtain ⟨-, rfl⟩ := completes_pure.mp hp
  obtain ⟨e', hs, -, -, -, -, rfl⟩ := RaftMachineStorage.completes_commmitIndex hc
  have hcommit : (cluster (putRecord (st'.uncommitted w) .hardState (encodeToVec
      (RaftMachineStorage.committedState hs e' e.index))))[Record.confState.key]? =
        (cluster w)[Record.confState.key]? := by
    rw [cluster_putRecord, OrdMap.lookup_insert_ne _ _ (by simp),
      RaftMachineStorage.uncommitted, cluster_putRecord, OrdMap.lookup_insert_ne _ _ (by simp)]
  obtain ⟨core', w₂', hrun, hstored, -, hcls⟩ := respond_run { self with raftStorage := st } e
    (putRecord (st'.uncommitted w) .hardState (encodeToVec
      (RaftMachineStorage.committedState hs e' e.index)))
  obtain ⟨rfl, rfl⟩ := (completes_of_run hrun).mp h₂
  obtain ⟨hcls', hconf⟩ := completes_createSnapshot_members h₃
  refine ⟨hcls'.trans hcls, ?_⟩
  rw [hconf, hstored, hcommit]

/-- **The members and the stored configuration after an entry.** -/
theorem completes_handleEntry_members {router : Router MachineEvent}
    (h : Completes (self.handleEntry router.route answers e) w self' w') :
    (∀ change ∈ changeOf e, Implemented change) ∧
      self'.placementCluster =
        (changeOf e).elim self.placementCluster (changedCluster self.placementCluster) ∧
      (cluster w')[Record.confState.key]? = confAfter answers e (cluster w) := by
  obtain ⟨core, w₁, h₁, h₂⟩ := completes_bind.mp h
  obtain ⟨himp, hcls, hconf⟩ := completes_applyEntry_members h₁
  obtain ⟨hcls', hconf'⟩ := completes_commitEntry_members h₂
  exact ⟨himp, hcls'.trans hcls, hconf'.trans hconf⟩

end apply

end RaftMachine

/-! ### Poison -/

/-- A run ended in an `unwrap` or an `unimplemented`, not in an allocation. -/
def Poisoned {α : Type} (o : Outcome α) : Prop :=
  ∃ msg, o = .panicked msg ∧ msg ≠ "capacity overflow"

@[simp] theorem not_poisoned_ok {α : Type} (a : α) : ¬ Poisoned (.ok a) := by
  simp [Poisoned]

theorem poisoned_panicked {α : Type} {msg : String} :
    Poisoned (.panicked msg : Outcome α) ↔ msg ≠ "capacity overflow" := by
  simp [Poisoned]

/-- The configuration that is stored after an entry can be read. -/
def ConfReadable (answers : Answers) (e : Entry) (m : ColumnFamily) : Prop :=
  match persistedBy answers e with
  | some cs => ∃ cs', (decode (encodeToVec cs) : Option ConfState) = some cs'
  | none => ∃ cs, confStateIn m = some cs

/-- The entry of a change can be processed: its kind is implemented, the log holds the entry, and
the records that are read on the way can be read. -/
structure Processable (answers : Answers) (core : RaftMachine) (e : Entry) (change : ConfChange)
    (m : ColumnFamily) : Prop where
  kind : e.data.val = [] ∨ Implemented change
  entry : ∃ e', entryIn m e.index = some (some e')
  hardState : ∃ hs, hardStateIn m = some hs
  /-- The configuration goes into the snapshot with every thousandth entry. -/
  conf : core.entryNum % 1000 = 0 → ConfReadable answers e m

namespace RaftMachine

section poison

variable {self : RaftMachine} {e : Entry} {w : World MachineEvent}

/-- A snapshot is poisoned by a record that cannot be read. -/
theorem newSnapshot_poisoned (w : World MachineEvent) :
    Poisoned (RaftMachineStorage.newSnapshot w).1 ↔ metadataIn (cluster w) = none := by
  unfold RaftMachineStorage.newSnapshot
  rw [bind_run, RaftMachineStorage.createSnapshotMetadata_run]
  rcases metadataIn (cluster w) with _ | metadata
  · exact iff_of_true (poisoned_panicked.mpr (by decide)) rfl
  · rw [unwrapOk_some, pure_run]
    dsimp only
    rw [bind_run_ok (RocksDBEngine.readAll_run w), allocate]
    refine iff_of_false ?_ (by simp)
    split
    · exact not_poisoned_ok _
    · exact fun h => poisoned_panicked.mp h rfl

/-- The metadata of a snapshot can be read when the two records can. -/
theorem metadataIn_eq_none {m : ColumnFamily} {hs : HardState} (h : hardStateIn m = some hs) :
    metadataIn m = none ↔ ¬ ∃ cs, confStateIn m = some cs := by
  rw [metadataIn, h]
  cases hcs : confStateIn m with
  | none => simp
  | some cs => simp

/-- The snapshot with every thousandth entry. -/
theorem createSnapshot_poisoned {hs : HardState} (h : hardStateIn (cluster w) = some hs) :
    ¬ Poisoned (self.createSnapshot w).1 ↔
      (self.entryNum % 1000 = 0 → ∃ cs, confStateIn (cluster w) = some cs) := by
  have hnew := newSnapshot_poisoned w
  rw [metadataIn_eq_none h] at hnew
  unfold createSnapshot
  dsimp only
  split_ifs with hnum
  · rcases RaftMachineStorage.newSnapshot_run w with ⟨s, -, hr⟩ | ⟨-, msg, hr⟩
    · -- both records could be read
      have hc : self.raftStorage.createSnapshot w = (.ok _, _) := bind_run_ok hr _
      have hc' : RaftRocksDBStorage.createSnapshot self.raftStorage w = (.ok _, _) :=
        bind_run_ok hc _
      rw [bind_run_ok hc']
      rw [hr] at hnew
      have hconf := not_not.mp (mt hnew.mpr (not_poisoned_ok s))
      exact iff_of_true (not_poisoned_ok _) fun _ => hconf
    · have hc : self.raftStorage.createSnapshot w = (.panicked msg, w) := bind_run_panicked hr _
      have hc' : RaftRocksDBStorage.createSnapshot self.raftStorage w = (.panicked msg, w) :=
        bind_run_panicked hc _
      rw [bind_run_panicked hc', poisoned_panicked]
      rw [hr, poisoned_panicked] at hnew
      rw [hnew, not_not]
      exact ⟨fun h _ => h, fun h => h hnum⟩
  · exact iff_of_true (not_poisoned_ok _) fun h => absurd h hnum

/-- **What the commit of an entry needs**: the entry, the hard state, and the configuration with
every thousandth entry. -/
theorem commitEntry_poisoned :
    ¬ Poisoned (self.commitEntry e w).1 ↔ (∃ e', entryIn (cluster w) e.index = some (some e')) ∧
      (∃ hs, hardStateIn (cluster w) = some hs) ∧
      (self.entryNum % 1000 = 0 → ∃ cs, confStateIn (cluster w) = some cs) := by
  have hrun := RaftMachineStorage.commmitIndex_run self.raftStorage w e.index
  unfold commitEntry RaftRocksDBStorage.commmitIndex
  rcases hen : entryIn (cluster w) e.index with _ | _ | e' <;>
    rcases hhs : hardStateIn (cluster w) with _ | hs <;> rw [hen, hhs] at hrun <;>
    dsimp only at hrun
  -- the entry or the hard state is missing
  all_goals try
    rw [bind_run_panicked (bind_run_panicked hrun _)]
    exact iff_of_false (not_not_intro (poisoned_panicked.mpr (by decide))) (by simp)
  -- both are there: the configuration decides
  have hc := bind_run_ok hrun fun r =>
    (pure (.ok (), r.2) : Program (World MachineEvent) (RaftResult Unit × RaftMachineStorage))
  obtain ⟨core, w₂, hr, hcl, hnum, -⟩ := respond_run
    { self with raftStorage := self.raftStorage.afterCommit e.index } e
    (putRecord ((self.raftStorage.afterCommit e.index).uncommitted w) .hardState
      (encodeToVec (RaftMachineStorage.committedState hs e' e.index)))
  have hhs₂ : hardStateIn (cluster w₂) =
      some (RaftMachineStorage.committedState hs e' e.index) := by
    rw [hcl, cluster_putRecord, hardStateIn_insert_self]
  have hcs₂ : confStateIn (cluster w₂) = confStateIn (cluster w) := by
    rw [hcl, cluster_putRecord, confStateIn_insert_record _ (by simp),
      RaftMachineStorage.uncommitted, cluster_putRecord, confStateIn_insert_record _ (by simp)]
  rw [bind_run_ok hc]
  dsimp only
  rw [bind_run_ok hr, createSnapshot_poisoned hhs₂, hcs₂, hnum]
  simp

/-- The stored configuration once an answer was stored. -/
theorem confStateIn_answered (answer : Option ConfState) :
    (∃ cs, confStateIn (cluster (answered w answer)) = some cs) ↔
      match answer with
      | some cs => ∃ cs', (decode (encodeToVec cs) : Option ConfState) = some cs'
      | none => ∃ cs, confStateIn (cluster w) = some cs := by
  cases answer with
  | none => rfl
  | some cs =>
    rw [answered, cluster_putRecord, confStateIn, messageIn, readRecord_insert_self]

/-- The entry of a change, applied and committed. -/
theorem handleEntry_poisoned (router : Router MachineEvent) (answers : Answers)
    {change : ConfChange} (hd : e.data.val = encodeToVec change)
    (ht : EntryType.fromI32 e.entryType = some .entryConfChange) :
    ¬ Poisoned (self.handleEntry router.route answers e w).1 ↔
      Processable answers self e change (cluster w) := by
  have hdecode : (decode e.data.val : Option ConfChange) = some change := by
    rw [hd, ConfChange.decode_encodeToVec]
  have assemble : ∀ kind : e.data.val = [] ∨ Implemented change,
      (Processable answers self e change (cluster w) ↔
        (∃ e', entryIn (cluster w) e.index = some (some e')) ∧
        (∃ hs, hardStateIn (cluster w) = some hs) ∧
        (self.entryNum % 1000 = 0 → ConfReadable answers e (cluster w))) :=
    fun kind => ⟨fun h => ⟨h.entry, h.hardState, h.conf⟩, fun h => ⟨kind, h.1, h.2.1, h.2.2⟩⟩
  unfold handleEntry applyEntry
  -- an entry without data is only committed
  by_cases hdata : e.data.val = []
  · have hpersist : persistedBy answers e = none := by
      rw [persistedBy, changeOf, if_pos hdata, Option.bind_none]
    rw [if_pos hdata, pure_bind, commitEntry_poisoned, assemble (.inl hdata), ConfReadable,
      hpersist]
  · have hpersist : persistedBy answers e = answers.applyConfChange e.index change := by
      rw [persistedBy, changeOf, if_neg hdata, ht]
      dsimp only
      rw [hdecode, Option.bind_some]
    rw [if_neg hdata, ht]
    dsimp only
    by_cases himp : Implemented change
    · rw [bind_run_ok (changeConf_run (answers.applyConfChange e.index) hdecode himp w),
        commitEntry_poisoned, assemble (.inr himp), ConfReadable, hpersist,
        ← confStateIn_answered (w := w)]
      -- what was stored is neither the entry nor the hard state
      have hen : entryIn (cluster (answered w (answers.applyConfChange e.index change))) e.index =
          entryIn (cluster w) e.index := by
        rcases answers.applyConfChange e.index change with _ | cs <;> simp [answered]
      have hhs : hardStateIn (cluster (answered w (answers.applyConfChange e.index change))) =
          hardStateIn (cluster w) := by
        rcases answers.applyConfChange e.index change with _ | cs <;> simp [answered]
      rw [hen, hhs]
    -- a kind that is not implemented panics before the commit
    · obtain ⟨msg, hne, hrun⟩ := changeConf_panics self
        (answers.applyConfChange e.index) hdecode himp w
      rw [bind_run_panicked hrun]
      refine iff_of_false (not_not_intro (poisoned_panicked.mpr hne)) ?_
      intro h
      rcases h.kind with h | h
      · exact hdata h
      · exact himp h

theorem handleCommittedEntries_singleton (route : Route (World MachineEvent)) (answers : Answers)
    (self : RaftMachine) (e : Entry) :
    self.handleCommittedEntries route answers [e] = self.handleEntry route answers e := by
  rw [handleCommittedEntries, List.foldlM_cons]
  exact bind_pure _

end poison

end RaftMachine

/-- **The committed entry of a change is processed without an `unwrap` or an `unimplemented`
exactly when the kind of the change is implemented**, on a store that holds the entry and readable
records. -/
theorem not_poisoned_iff (router : Router MachineEvent) (answers : Answers) (self : RaftMachine)
    (w : World MachineEvent) {change : ConfChange} {e : Entry}
    (hd : e.data.val = encodeToVec change) (ht : EntryType.fromI32 e.entryType = some .entryConfChange) :
    ¬ Poisoned (self.handleCommittedEntries router.route answers [e] w).1 ↔
      Processable answers self e change (cluster w) := by
  rw [RaftMachine.handleCommittedEntries_singleton]
  exact RaftMachine.handleEntry_poisoned router answers hd ht

/-! A follower that has appended the entry of a change. -/

/-- The change with the kind `kind` of the node `4`. -/
def plainChange (kind : Int32) : ConfChange := ⟨0, kind, 4, .empty⟩

/-- The entry that the raft crate makes of a change. -/
def changeEntry (change : ConfChange) (h : (encodeToVec change).length < 2 ^ 63) : Entry :=
  { Entry.default with entryType := 1, term := 1, index := 1, data := ⟨encodeToVec change, h⟩ }

def removeEntry : Entry := changeEntry (plainChange 1) (by decide)

def learnerEntry : Entry := changeEntry (plainChange 2) (by decide)

/-- A follower that has appended the entry of a learner. -/
def withLearner : RaftMachine × World MachineEvent :=
  finish (booted.1.1.saveEntries [learnerEntry]) booted.2 (by decide +kernel)

/-- A follower that has appended the entry of a removal. -/
def withRemoval : RaftMachine × World MachineEvent :=
  finish (booted.1.1.saveEntries [removeEntry]) booted.2 (by decide +kernel)

/-- A node that rejects every change. -/
def rejecting : Answers := ⟨fun _ => 0, fun _ _ => none⟩

/-- The removal is processed where its entry is in the log. -/
theorem not_poisoned_removal :
    ¬ Poisoned (withRemoval.1.handleCommittedEntries dataRoute.route rejecting [removeEntry]
      withRemoval.2).1 := by
  refine (not_poisoned_iff dataRoute rejecting withRemoval.1 withRemoval.2 rfl rfl).mpr ?_
  have hentry : entryIn (cluster withRemoval.2) 1 = some (some removeEntry) := by decide +kernel
  have hstate : hardStateIn (cluster withRemoval.2) = some HardState.default := by decide +kernel
  have hconf : confStateIn (cluster withRemoval.2) = some ConfState.default := by decide +kernel
  exact ⟨.inr (.inr rfl), ⟨_, hentry⟩, ⟨_, hstate⟩, fun _ => ⟨_, hconf⟩⟩

/-- The service reads the change, and the node whose log holds the entry panics when it is
committed. -/
theorem learner_poisons :
    (decode (encodeToVec (plainChange 2)) : Option ConfChange) = some (plainChange 2) ∧
      entryIn (cluster withLearner.2) 1 = some (some learnerEntry) ∧
      hardStateIn (cluster withLearner.2) = some HardState.default ∧
      Poisoned (withLearner.1.handleCommittedEntries dataRoute.route rejecting [learnerEntry]
        withLearner.2).1 := by
  refine ⟨ConfChange.decode_encodeToVec _, by decide +kernel, by decide +kernel, ?_⟩
  rw [RaftMachine.handleCommittedEntries_singleton]
  by_contra hno
  have h := (RaftMachine.handleEntry_poisoned dataRoute rejecting rfl rfl).mp hno
  rcases h.kind with hdata | himp
  · exact absurd hdata (by decide)
  · exact absurd himp (by simp [Implemented, plainChange, ConfChangeType.fromI32])

end PlacementCenter.Raft
