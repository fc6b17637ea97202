import PlacementCenter.Raft.Machine
import PlacementCenter.Raft.Route
import PlacementCenter.Storage.StoreRuns

/-!
# Cycles of the raft machine

What the node of the raft crate promises about a cycle, and what the parts of a cycle do to the
records of the log store.

## Main definitions

* `Progress`: the hard state the node last handed over, and the index of the last entry it
  delivered
* `Cycle.Contract`: what the node promises about the next cycle
* `KeptAside P`, `KeptBeside P`: what every effect keeps that writes neither the log nor the hard
  state, and what every effect keeps that does not write the first index either
* `committedStates`, `Cycle.storedState`: the hard state entries and cycles leave

## Main results

* `keeps_applyEntry`, `keeps_respond`, `keeps_createSnapshot`: the parts around a commit
* `keeps_commitEntry`: an entry, by what its commit keeps
* `completes_onReady`: the hard state that a completed cycle stores
-/

namespace PlacementCenter.Raft

open Rust Rust.Prost Storage Program

/-! ### What the node promises -/

/-- The entries a cycle delivers, in order. -/
def Cycle.delivered (c : Cycle) : List Entry :=
  c.ready.committedEntries ++ c.lightRd.committedEntries

/-- What the node has handed over so far: its hard state, and the index of the last entry. -/
structure Progress where
  last : HardState
  delivered : ℕ

/-- The hard state of the node during a cycle. -/
def Cycle.current (c : Cycle) (p : Progress) : HardState := c.ready.hs.getD p.last

/-- What was handed over after a cycle. -/
def Progress.after (p : Progress) (c : Cycle) : Progress :=
  ⟨c.current p, p.delivered + c.delivered.length⟩

theorem Progress.delivered_after (p : Progress) (c : Cycle) :
    (p.after c).delivered =
      p.delivered + c.ready.committedEntries.length + c.lightRd.committedEntries.length := by
  rw [after, Cycle.delivered, List.length_append, Nat.add_assoc]

/-- The two lists of delivered entries follow each other. -/
theorem Cycle.split_of_in_order {c : Cycle} {n : ℕ} (h : c.delivered.map (fun e => e.index.toNat) =
      List.range' (n + 1) c.delivered.length) :
    c.ready.committedEntries.map (fun e => e.index.toNat) =
        List.range' (n + 1) c.ready.committedEntries.length ∧
      c.lightRd.committedEntries.map (fun e => e.index.toNat) =
        List.range' (n + c.ready.committedEntries.length + 1)
          c.lightRd.committedEntries.length := by
  rw [Cycle.delivered, List.map_append, List.length_append, ← List.range'_append_1] at h
  obtain ⟨h₁, h₂⟩ := List.append_inj h (by simp)
  refine ⟨h₁, ?_⟩
  rwa [Nat.add_right_comm]

/-- What the node of the raft crate promises about a cycle on the store `w`. -/
structure Cycle.Contract (c : Cycle) (p : Progress) (w : World MachineEvent) : Prop where
  /-- Terms never decrease. -/
  term_le : ∀ hs ∈ c.ready.hs, p.last.term ≤ hs.term
  /-- A delivered entry is never appended again. -/
  appended_gt : ∀ e ∈ c.ready.entries, p.delivered < e.index.toNat
  /-- Entries are delivered in order. -/
  in_order : c.delivered.map (fun e => e.index.toNat) =
    List.range' (p.delivered + 1) c.delivered.length
  /-- Delivered entries are in the log, unless a snapshot replaces it. -/
  stored : c.ready.snapshot = Snapshot.default → ∀ e ∈ c.delivered,
    entryIn (cluster (appended w c.ready.entries)) e.index = some (some e)
  /-- No entry is of a later term than the node. -/
  entry_term_le : ∀ e ∈ c.delivered, e.term ≤ (c.current p).term
  /-- What a hard state commits is delivered with it. -/
  hs_commit_le : ∀ hs ∈ c.ready.hs, hs.commit.toNat ≤ (p.after c).delivered
  /-- What is committed on the way is delivered with it. -/
  commitIndex_le : ∀ k ∈ c.lightRd.commitIndex, k.toNat ≤ (p.after c).delivered

/-! ### The hard state a cycle stores -/

/-- The hard state after some stored entries were committed. -/
def committedStates (hs : HardState) (es : List Entry) : HardState :=
  es.foldl (fun hs e => RaftMachineStorage.committedState hs e e.index) hs

/-- The hard state a cycle stores, from the one stored before: that of the first commits, the one
handed over, the commit index on the way, and that of the last commits. -/
def Cycle.storedState (c : Cycle) (hs : HardState) : HardState :=
  let hs := c.ready.hs.getD (committedStates hs c.ready.committedEntries)
  let hs := { hs with commit := c.lightRd.commitIndex.getD hs.commit }
  committedStates hs c.lightRd.committedEntries

/-! ### What the parts of a cycle keep -/

/-- What the events in `A` keep, and every effect that writes neither the log nor the hard
state. -/
structure KeptAside (A : MachineEvent → Prop) (P : World MachineEvent → Prop) : Prop where
  emit : ∀ w e, A e → P w → P (w.emit e)
  clients : KeptByClients P
  records : KeptByRecords
    (fun r => r = .confState ∨ r = .uncommit ∨ r = .firstIndex ∨ r = .snapshot) P

/-- What the events in `A` keep, and every effect that writes neither the log, nor the hard state,
nor the first index. -/
structure KeptBeside (A : MachineEvent → Prop) (P : World MachineEvent → Prop) : Prop where
  emit : ∀ w e, A e → P w → P (w.emit e)
  clients : KeptByClients P
  records : KeptByRecords (fun r => r = .confState ∨ r = .uncommit ∨ r = .snapshot) P

theorem KeptAside.beside {A : MachineEvent → Prop} {P : World MachineEvent → Prop}
    (hP : KeptAside A P) : KeptBeside A P where
  emit := hP.emit
  clients := hP.clients
  records := hP.records.mono fun _ hr => by
    rcases hr with rfl | rfl | rfl <;> simp

namespace RaftMachine

section parts

variable {σ : Type} {P : σ → Prop} (self : RaftMachine)

theorem keeps_changePeers (change : ConfChange) :
    Keeps P (self.changePeers change : Program σ RaftMachine) := by
  unfold changePeers
  split
  · split
    · exact keeps_pure _
    · exact keeps_pure _
  · exact keeps_pure _
  · exact keeps_panic _
  · exact keeps_panic _

/-- The answer to an entry, by its event. -/
theorem keeps_respond_of [Observed σ MachineEvent] {e : Entry}
    (hemit : ∀ chan, Keeps P (Observed.emit (.responded chan (some e)) : Program σ Unit)) :
    Keeps P (self.respond e : Program σ RaftMachine) := by
  unfold respond
  split
  · split
    · exact keeps_bind (hemit _) fun _ => keeps_pure _
    · exact keeps_pure _
  · exact keeps_pure _

variable [RocksDb σ]

/-- The snapshot with every thousandth entry, by every snapshot. -/
theorem keeps_createSnapshot_of
    (hsnap : ∀ core, Keeps P (RaftRocksDBStorage.createSnapshot core :
      Program σ (RaftResult Unit × RaftMachineStorage))) :
    Keeps P (self.createSnapshot : Program σ RaftMachine) := by
  unfold createSnapshot
  dsimp only
  split_ifs
  · exact keeps_bind (hsnap _) fun _ => keeps_pure _
  · exact keeps_pure _

/-- A configuration entry, by the write of the configuration. -/
theorem keeps_changeConf_of {applyConfChange : ConfChange → Option ConfState}
    (hconf : ∀ change, ∀ cs ∈ applyConfChange change,
      Keeps P (RaftRocksDBStorage.setConfState cs : Program σ (RaftResult Unit))) (e : Entry) :
    Keeps P (self.changeConf applyConfChange e : Program σ RaftMachine) := by
  refine keeps_bind (keeps_unwrapOk _) fun change =>
    keeps_bind (keeps_changePeers self change) fun core => ?_
  split
  · rename_i cs hcs
    exact keeps_bind (hconf change cs hcs) fun _ => keeps_pure _
  · exact keeps_pure _

/-- An entry that is applied, by its route and by the write of the configuration. -/
theorem keeps_applyEntry_of [Observed σ MachineEvent] {route : Route σ} {answers : Answers}
    {e : Entry} (hconf : ∀ change, ∀ cs ∈ answers.applyConfChange e.index change,
      Keeps P (RaftRocksDBStorage.setConfState cs : Program σ (RaftResult Unit)))
    (hroute : Keeps P (routeEntry route (answers.now e.index) e)) :
    Keeps P (self.applyEntry route answers e) := by
  unfold applyEntry
  split_ifs
  · exact keeps_pure _
  · split
    · exact keeps_bind hroute fun _ => keeps_pure _
    · exact keeps_changeConf_of self hconf e
    · exact keeps_pure _
    · exact keeps_panic _

end parts

section keeps

variable {P : World MachineEvent → Prop}

/-- What these events keep, the messages to other nodes keep. -/
theorem keeps_sendMessage (hP : ∀ w addr data, P w → P (w.emit (.sentPeer addr data)))
    (self : RaftMachine) (messages : List RaftPreludeMessage) :
    Keeps P (self.sendMessage messages : Program (World MachineEvent) Unit) := by
  refine keeps_foldlM messages (fun _ msg _ => ?_) ()
  unfold sendOne sendPeerMessage
  split
  · split
    · exact fun w hw => hP w _ _ hw
    · exact keeps_pure _
  · exact keeps_panic _

variable {A : MachineEvent → Prop}

section beside

variable (hP : KeptBeside A P) (router : Router MachineEvent) (answers : Answers)
  (self : RaftMachine)
include hP

theorem keeps_emit {e : MachineEvent} (he : A e) :
    Keeps P (Observed.emit e : Program (World MachineEvent) Unit) := fun w hw => hP.emit w e he hw

/-- The route of an entry, once it was passed on. -/
theorem keeps_routed (e : Entry) (ha : A (.applied e)) (now : UInt64) :
    Keeps P (do
      match ← router.route now e.data.val with
      | .ok () => Observed.emit (.applied e)
      | .error _ => return () : Program (World MachineEvent) Unit) := by
  refine keeps_bind (router.keeps hP.clients now e.data.val) fun r => ?_
  cases r with
  | ok _ => exact keeps_emit hP ha
  | error _ => exact keeps_pure _

theorem keeps_applyEntry {e : Entry} (hr : A (.routed e)) (ha : A (.applied e)) :
    Keeps P (self.applyEntry router.route answers e) := by
  refine keeps_applyEntry_of self (fun _ cs _ => ?_) ?_
  · exact keeps_bind (hP.records.write (r := .confState) (.inl rfl) _) fun _ => keeps_pure _
  · exact keeps_bind (keeps_emit hP hr) fun _ => keeps_routed hP router e ha _

theorem keeps_respond {e : Entry} (ha : ∀ chan, A (.responded chan (some e))) :
    Keeps P (self.respond e : Program (World MachineEvent) RaftMachine) :=
  keeps_respond_of self fun chan => keeps_emit hP (ha chan)

/-- A commit keeps what the write of its hard state keeps. -/
theorem keeps_commmitIndex (core : RaftMachineStorage) (idx : UInt64)
    (hcommit : ∀ w e hs, P w → entryIn (cluster w) idx = some (some e) →
      hardStateIn (cluster w) = some hs →
        P (putRecord w .hardState (encodeToVec (RaftMachineStorage.committedState hs e idx)))) :
    Keeps P (RaftRocksDBStorage.commmitIndex core idx :
      Program (World MachineEvent) (RaftResult Unit × RaftMachineStorage)) := by
  refine keeps_bind (fun w hw => ?_) fun _ => keeps_pure _
  have hu : P ((core.afterCommit idx).uncommitted w) :=
    hP.records w .uncommit _ (.inr (.inl rfl)) hw
  have he : entryIn (cluster ((core.afterCommit idx).uncommitted w)) idx =
      entryIn (cluster w) idx := by
    simp [RaftMachineStorage.uncommitted]
  have hs : hardStateIn (cluster ((core.afterCommit idx).uncommitted w)) =
      hardStateIn (cluster w) := by
    simp [RaftMachineStorage.uncommitted]
  rw [RaftMachineStorage.commmitIndex_run]
  -- a commit panics before its write, between its two writes, or writes both
  rcases hen : entryIn (cluster w) idx with _ | entry
  · exact hw
  · rcases hhs : hardStateIn (cluster w) with _ | hs'
    · exact hu
    · rcases entry with _ | e
      · exact hu
      · exact hcommit _ e hs' hu (he.trans hen) (hs.trans hhs)

/-- A snapshot keeps what the write of the commit index as the first index keeps. -/
theorem keeps_newFirstIndex (hfirst : ∀ w hs, P w → hardStateIn (cluster w) = some hs →
      P (putRecord w .firstIndex hs.commit)) (core : RaftMachineStorage) :
    Keeps P (core.createSnapshot : Program (World MachineEvent) RaftMachineStorage) := by
  intro w hw
  unfold RaftMachineStorage.createSnapshot
  rcases RaftMachineStorage.newSnapshot_run w with ⟨s, hs, hr⟩ | ⟨-, msg, hr⟩
  · rw [bind_run_ok hr]
    obtain ⟨hst, cs, hhs, -, -, hm⟩ := RaftMachineStorage.snapshotOf_eq_some hs
    have hidx : s.getMetadata.index = hst.commit := by
      rw [Snapshot.getMetadata, hm, Option.getD_some]
    rw [hidx]
    exact hP.records _ .snapshot _ (.inr (.inr rfl)) (hfirst w hst hw hhs)
  · rw [bind_run_panicked hr]
    exact hw

/-- The snapshot with every thousandth entry keeps what every snapshot keeps. -/
theorem keeps_thousandth (hfirst : ∀ w hs, P w → hardStateIn (cluster w) = some hs →
      P (putRecord w .firstIndex hs.commit)) :
    Keeps P (self.createSnapshot : Program (World MachineEvent) RaftMachine) :=
  keeps_createSnapshot_of self fun core =>
    keeps_bind (keeps_newFirstIndex hP hfirst core) fun _ => keeps_pure _

end beside

variable (hP : KeptAside A P) (self : RaftMachine)
include hP

theorem keeps_createSnapshot :
    Keeps P (self.createSnapshot : Program (World MachineEvent) RaftMachine) :=
  keeps_thousandth hP.beside self fun w _ hw _ =>
    hP.records w .firstIndex _ (.inr (.inr (.inl rfl))) hw

/-- **What a commit keeps, an entry keeps** once it was applied. -/
theorem keeps_commitEntry {e : Entry} (ha : ∀ chan, A (.responded chan (some e)))
    (hcommit : ∀ w e' hs, P w → entryIn (cluster w) e.index = some (some e') →
      hardStateIn (cluster w) = some hs →
        P (putRecord w .hardState (encodeToVec (RaftMachineStorage.committedState hs e' e.index)))) :
    Keeps P (self.commitEntry e : Program (World MachineEvent) RaftMachine) := by
  refine keeps_bind (keeps_commmitIndex hP.beside self.raftStorage e.index hcommit) fun r => ?_
  exact keeps_bind (keeps_respond hP.beside _ ha) fun core => keeps_createSnapshot hP core

end keeps

/-! ### What a completed cycle stores -/

/-- The hard state and the entries of the log are those of `m`. -/
def SameLog (m : ColumnFamily) (w : World MachineEvent) : Prop :=
  hardStateIn (cluster w) = hardStateIn m ∧ ∀ i, entryIn (cluster w) i = entryIn m i

theorem keptAside_sameLog (m : ColumnFamily) : KeptAside (fun _ => True) (SameLog m) where
  emit w e _ hw := hw
  clients := by
    constructor
    · rintro w k v hk ⟨hh, he⟩
      rw [SameLog, cluster_putKey]
      have hne : ∀ r : Record, ((cluster w).insert k v)[r.key]? = (cluster w)[r.key]? := fun r =>
        OrdMap.lookup_insert_ne _ _ (r.key_ne_of_client hk).symm
      exact ⟨(hardStateIn_congr (hne _)).trans hh, fun i => (entryIn_congr (hne _)).trans (he i)⟩
    · rintro w k hk ⟨hh, he⟩
      rw [SameLog, cluster, World.columns_delete_self]
      have hne : ∀ r : Record, ((cluster w).erase k)[r.key]? = (cluster w)[r.key]? := fun r =>
        OrdMap.lookup_erase_ne _ (r.key_ne_of_client hk).symm
      exact ⟨(hardStateIn_congr (hne _)).trans hh, fun i => (entryIn_congr (hne _)).trans (he i)⟩
  records := by
    rintro w r text hr ⟨hh, he⟩
    rw [SameLog, cluster_putKey]
    rcases hr with rfl | rfl | rfl | rfl <;> simp [hh, he]

section completes

variable {router : Router MachineEvent} {answers : Answers} {self self' : RaftMachine}
  {w w' : World MachineEvent}

/-- **What a committed entry stores**: its index, and the term of the stored entry. -/
theorem completes_handleEntry {e : Entry}
    (h : Completes (self.handleEntry router.route answers e) w self' w') :
    ∃ e' hs, entryIn (cluster w) e.index = some (some e') ∧ hardStateIn (cluster w) = some hs ∧
      hardStateIn (cluster w') = some (RaftMachineStorage.committedState hs e' e.index) ∧
        ∀ i, entryIn (cluster w') i = entryIn (cluster w) i := by
  -- apply, commit, answer and snapshot: only the commit touches the hard state
  obtain ⟨core, w₁, h₁, h⟩ := completes_bind.mp h
  obtain ⟨r, w₂, h₂, h⟩ := completes_bind.mp h
  obtain ⟨core', w₃, h₃, h₄⟩ := completes_bind.mp h
  obtain ⟨hh₁, he₁⟩ := (keeps_applyEntry (keptAside_sameLog (cluster w)).beside router answers self
    trivial trivial).of_completes ⟨rfl, fun _ => rfl⟩ h₁
  obtain ⟨⟨r', st⟩, w₂', hc, hp⟩ := completes_bind.mp h₂
  obtain ⟨-, rfl⟩ := completes_pure.mp hp
  obtain ⟨e', hs, he', hhs, -, -, rfl⟩ := RaftMachineStorage.completes_commmitIndex hc
  have aside := keptAside_sameLog (cluster (putRecord (st.uncommitted w₁) .hardState
    (encodeToVec (RaftMachineStorage.committedState hs e' e.index))))
  have hw₃ := (keeps_respond aside.beside _ fun _ => trivial).of_completes ⟨rfl, fun _ => rfl⟩ h₃
  obtain ⟨hh', he''⟩ := (keeps_createSnapshot aside core').of_completes hw₃ h₄
  refine ⟨e', hs, (he₁ e.index).symm.trans he', hh₁.symm.trans hhs, ?_, fun i => ?_⟩
  · rw [hh', cluster_putRecord, hardStateIn_insert_self]
  · rw [he'', cluster_putRecord, entryIn_insert_record _ (by simp),
      RaftMachineStorage.uncommitted, cluster_putRecord, entryIn_insert_record _ (by simp), he₁]

theorem completes_handleCommittedEntries {es : List Entry} {hs : HardState}
    (hhs : hardStateIn (cluster w) = some hs)
    (hes : ∀ e ∈ es, entryIn (cluster w) e.index = some (some e))
    (h : Completes (self.handleCommittedEntries router.route answers es) w self' w') :
    hardStateIn (cluster w') = some (committedStates hs es) ∧
      ∀ i, entryIn (cluster w') i = entryIn (cluster w) i := by
  induction es generalizing self w hs with
  | nil =>
    obtain ⟨-, rfl⟩ := completes_pure.mp h
    exact ⟨hhs, fun _ => rfl⟩
  | cons e es ih =>
    rw [handleCommittedEntries, List.foldlM_cons] at h
    obtain ⟨core, w₁, h₁, h⟩ := completes_bind.mp h
    obtain ⟨e', hs', he', hs'', hw₁, hen⟩ := completes_handleEntry h₁
    -- the entry in the store is the one that is delivered
    obtain rfl : e = e' := by
      rw [hes e List.mem_cons_self] at he'
      simpa using he'
    obtain rfl : hs = hs' := Option.some_inj.mp (hhs.symm.trans hs'')
    obtain ⟨hw', hen'⟩ := ih hw₁ (fun e he => by
      rw [hen]
      exact hes e (List.mem_cons_of_mem _ he)) h
    exact ⟨hw', fun i => (hen' i).trans (hen i)⟩

theorem completes_saveEntries {es : List Entry} (h : Completes (self.saveEntries es) w self' w') :
    hardStateIn (cluster w') = hardStateIn (cluster w) ∧
      ∀ i, entryIn (cluster w') i = entryIn (cluster (appended w es)) i := by
  unfold saveEntries at h
  split_ifs at h with hes
  · obtain ⟨-, rfl⟩ := completes_pure.mp h
    subst hes
    exact ⟨rfl, fun _ => rfl⟩
  · obtain ⟨r, w₁, h₁, hp⟩ := completes_bind.mp h
    obtain ⟨-, rfl⟩ := completes_pure.mp hp
    obtain ⟨⟨r', st⟩, w₂, h₂, hp⟩ := completes_bind.mp h₁
    obtain ⟨-, rfl⟩ := completes_pure.mp hp
    obtain ⟨-, ⟨hnil, -⟩ | ⟨-, -, -, rfl⟩⟩ := RaftMachineStorage.completes_append h₂
    · exact absurd hnil hes
    · rw [cluster_putRecord]
      refine ⟨?_, fun i => entryIn_insert_record _ (by simp) _⟩
      rw [hardStateIn_insert_record _ (by simp)]
      exact hardStateIn_congr (lookup_appended (by simp) es (fun e _ => by simp) w)

/-- What is saved of the hard state is its record. -/
theorem completes_saveHardState_iff {o : Option HardState} {u : Unit} :
    Completes (saveHardState o) w u w' ↔
      w' = o.elim w fun hs => putRecord w .hardState (encodeToVec hs) := by
  cases o with
  | none => exact completes_pure.trans ⟨fun h => h.2.symm, fun h => ⟨rfl, h.symm⟩⟩
  | some hs =>
    have run : saveHardState (some hs) w = (.ok (), putRecord w .hardState (encodeToVec hs)) :=
      rfl
    exact (completes_of_run run).trans ⟨fun h => h.2.symm, fun h => ⟨rfl, h.symm⟩⟩

/-- What is saved of a commit index is the record of the hard state, with the index. -/
theorem completes_saveCommit_some {k : UInt64} {u : Unit}
    (h : Completes (saveCommit (some k)) w u w') : ∃ hs, hardStateIn (cluster w) = some hs ∧
      w' = putRecord w .hardState (encodeToVec { hs with commit := k }) := by
  obtain ⟨r, w₁, h₁, hp⟩ := completes_bind.mp h
  obtain ⟨-, rfl⟩ := completes_pure.mp hp
  obtain ⟨r', w₂, h₂, hp⟩ := completes_bind.mp h₁
  obtain ⟨-, rfl⟩ := completes_pure.mp hp
  obtain ⟨hs, w₃, h₃, hs₃⟩ := completes_bind.mp h₂
  obtain ⟨hhs, rfl⟩ := (RaftMachineStorage.completes_hardState _).mp h₃
  obtain ⟨-, rfl⟩ := (completes_of_run (RaftMachineStorage.saveHardState_run _ _)).mp hs₃
  exact ⟨hs, hhs, rfl⟩

theorem completes_saveHardState {o : Option HardState} {u : Unit} {hs : HardState}
    (hhs : hardStateIn (cluster w) = some hs) (h : Completes (saveHardState o) w u w') :
    hardStateIn (cluster w') = some (o.getD hs) ∧
      ∀ i, entryIn (cluster w') i = entryIn (cluster w) i := by
  obtain rfl := completes_saveHardState_iff.mp h
  cases o with
  | none => exact ⟨hhs, fun _ => rfl⟩
  | some hs' => simp

theorem completes_saveCommit {o : Option UInt64} {u : Unit} {hs : HardState}
    (hhs : hardStateIn (cluster w) = some hs) (h : Completes (saveCommit o) w u w') :
    hardStateIn (cluster w') = some { hs with commit := o.getD hs.commit } ∧
      ∀ i, entryIn (cluster w') i = entryIn (cluster w) i := by
  cases o with
  | none =>
    obtain ⟨-, rfl⟩ := completes_pure.mp h
    exact ⟨hhs, fun _ => rfl⟩
  | some k =>
    obtain ⟨hs', hhs', rfl⟩ := completes_saveCommit_some h
    obtain rfl : hs = hs' := Option.some_inj.mp (hhs.symm.trans hhs')
    simp

/-- **The hard state a completed cycle stores**, by the parts of the cycle. -/
theorem completes_onReady {c : Cycle} {hs : HardState} (hsnap : c.ready.snapshot = .default)
    (hhs : hardStateIn (cluster w) = some hs)
    (hes : ∀ e ∈ c.delivered,
      entryIn (cluster (appended w c.ready.entries)) e.index = some (some e))
    (h : Completes (self.onReady router.route c) w self' w') :
    hardStateIn (cluster w') = some (c.storedState hs) := by
  have messages : ∀ {core : RaftMachine} {ms : List RaftPreludeMessage}
      {w w' : World MachineEvent} {u : Unit}, Completes (core.sendMessage ms) w u w' →
        cluster w' = cluster w := fun {core ms w w' u} h =>
    (keeps_sendMessage (P := fun w' => cluster w' = cluster w) (fun _ _ _ hw => hw) core
      ms).of_completes rfl h
  obtain ⟨_, w₁, h₁, h⟩ := completes_bind.mp h
  obtain ⟨core₂, w₂, h₂, h⟩ := completes_bind.mp h
  obtain ⟨core₃, w₃, h₃, h⟩ := completes_bind.mp h
  obtain ⟨core₄, w₄, h₄, h⟩ := completes_bind.mp h
  obtain ⟨_, w₅, h₅, h⟩ := completes_bind.mp h
  obtain ⟨_, w₆, h₆, h⟩ := completes_bind.mp h
  obtain ⟨_, w₇, h₇, h⟩ := completes_bind.mp h
  obtain ⟨_, w₈, h₈, h₉⟩ := completes_bind.mp h
  -- there is no snapshot to install
  rw [saveSnapshot, if_pos hsnap] at h₂
  obtain ⟨rfl, rfl⟩ := completes_pure.mp h₂
  obtain ⟨hh₃, he₃⟩ := completes_saveEntries h₃
  rw [messages h₁] at hh₃
  have hst : ∀ e ∈ c.delivered, entryIn (cluster w₃) e.index = some (some e) := fun e he => by
    rw [he₃, cluster_appended_congr _ (messages h₁)]
    exact hes e he
  obtain ⟨hh₄, he₄⟩ := completes_handleCommittedEntries (hh₃.trans hhs)
    (fun e he => hst e (List.mem_append_left _ he)) h₄
  obtain ⟨hh₅, he₅⟩ := completes_saveHardState hh₄ h₅
  rw [← messages h₆] at hh₅
  obtain ⟨hh₇, he₇⟩ := completes_saveCommit hh₅ h₇
  rw [← messages h₈] at hh₇
  -- the entries of the light ready come last
  refine (completes_handleCommittedEntries hh₇ (fun e he => ?_) h₉).1
  rw [messages h₈, he₇, messages h₆, he₅, he₄]
  exact hst e (List.mem_append_right _ he)

end completes

end RaftMachine

/-! ### A follower that learns an entry

The leader replicates an entry together with the news that it is committed. -/

/-- The cycle of a follower that learns an entry and its commit at once. -/
def learnCycle (entry : Entry) (hs : HardState) : Cycle where
  now _ := 0
  applyConfChange _ _ := none
  ready := ⟨[], .default, [entry], [], some hs, []⟩
  lightRd := ⟨none, [], [entry]⟩

/-- What a process finds when it comes up, and what it writes: the voters become the members. -/
theorem completes_boot {g : RaftGroupMetadata} {self : RaftMachine} {conf : Config}
    {w w' : World MachineEvent} (h : Completes (RaftMachine.boot g) w (self, conf) w') :
    ∃ st hs cs, self = .new g st ∧ hardStateIn (cluster w) = some hs ∧ conf.applied = hs.commit ∧
      confStateIn (cluster w) = some cs ∧
        w' = putRecord w .confState (encodeToVec { cs with voters := g.nodeIds }) := by
  obtain ⟨st, w₁, h₁, h⟩ := completes_bind.mp h
  obtain ⟨conf', w₂, h₂, h⟩ := completes_bind.mp h
  obtain ⟨hp, rfl⟩ := completes_pure.mp h
  obtain ⟨rfl, rfl⟩ := Prod.mk.inj hp
  obtain ⟨-, -, -, rfl⟩ := RaftMachineStorage.completes_new.mp h₁
  obtain ⟨hs, w₃, h₃, h₂⟩ := completes_bind.mp h₂
  obtain ⟨hhs, rfl⟩ := (RaftMachineStorage.completes_hardState _).mp h₃
  obtain ⟨cs, w₄, h₄, h₂⟩ := completes_bind.mp h₂
  rw [Completes, RaftMachineStorage.confState_run] at h₄
  obtain ⟨hcs, rfl⟩ := completes_unwrapOk.mp h₄
  obtain ⟨r, w₅, h₅, h₂⟩ := completes_bind.mp h₂
  obtain ⟨-, rfl⟩ := (completes_of_run (RaftMachineStorage.saveConfState_run _ _)).mp h₅
  obtain ⟨rfl, rfl⟩ := completes_pure.mp h₂
  exact ⟨st, hs, cs, rfl, hhs, rfl, hcs, rfl⟩

/-- What is handed over before the first cycle. -/
def noProgress : Progress := ⟨.default, 0⟩

/-- The contract of the first cycle of a follower. -/
theorem learnCycle_contract {w : World MachineEvent} {entry : Entry} {hs : HardState} (hi : entry.index = 1)
    (ht : entry.term ≤ hs.term) (hc : hs.commit.toNat ≤ 1) :
    (learnCycle entry hs).Contract noProgress w where
  term_le hs' _ := UInt64.zero_le
  appended_gt e he := by
    obtain rfl : e = entry := by simpa [learnCycle] using he
    rw [hi]
    decide
  in_order := by
    simp [learnCycle, Cycle.delivered, hi, noProgress]
  stored _ e he := by
    obtain rfl : e = entry := by simpa [learnCycle, Cycle.delivered] using he
    exact entryIn_appended_of_mem (List.pairwise_singleton _ _) (by simp) _
  entry_term_le e he := by
    obtain rfl : e = entry := by simpa [learnCycle, Cycle.delivered] using he
    exact ht
  hs_commit_le hs' hs'' := by
    obtain rfl : hs = hs' := by simpa [learnCycle] using hs''
    exact hc
  commitIndex_le k hk := by cases hk

/-- A process that comes up on the empty database and knows no other member. -/
def booted : (RaftMachine × Config) × World MachineEvent :=
  finish (RaftMachine.boot ⟨none, .follower, ∅⟩) World.empty (by decide +kernel)

theorem completes_booted :
    Completes (RaftMachine.boot ⟨none, .follower, ∅⟩) World.empty (booted.1.1, booted.1.2)
      booted.2 := completes_finish _ _ _

theorem hardStateIn_booted : hardStateIn (cluster booted.2) = some HardState.default := by
  decide +kernel

end PlacementCenter.Raft
