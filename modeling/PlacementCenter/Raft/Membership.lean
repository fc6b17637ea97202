import PlacementCenter.Raft.ConfChanges
import PlacementCenter.Storage.IndexBounds

/-!
# The members and the voters

A node keeps its members, with their addresses, apart from the configuration that it stores, with
its voters. An entry updates the two in two steps that fail separately, the installation of a
snapshot updates only the configuration, and a node that comes up replaces the voters by the
members of its static table.

## Main definitions

* `MembersAreVoters`: the ids of the members are the stored voters
* `Applies`: what the raft crate makes of the voters
* `EntryKeepsMembers`, `SnapshotKeepsMembers`: the two updates agree
* `MemberRun`: the entries and snapshots of a run
* `Life`: the lives of a node, with the configuration that was last persisted

## Main results

* `membersAreVoters_handleEntry`, `membersAreVoters_saveSnapshot`: one step, exactly
* `membersAreVoters_of_run`: a whole run
* `voters_of_restart_iff`: the voters that a restarted node begins with
-/

namespace PlacementCenter.Raft

open Rust Rust.Prost Storage Program

/-- Two lists have the same ids. -/
def SameIds (ids ids' : List UInt64) : Prop := ∀ id, id ∈ ids ↔ id ∈ ids'

/-! ### The stored configuration -/

/-- What is read back of a configuration that was stored, if it is read back at all. -/
theorem confStateIn_eq {m : ColumnFamily} {cs cs' : ConfState}
    (hm : m[Record.confState.key]? = some (recordBytes (encodeToVec cs)))
    (h : confStateIn m = some cs') : cs' = cs := by
  have hput : confStateIn m = decode (encodeToVec cs) := by
    rw [@confStateIn_congr m ((∅ : ColumnFamily).insert Record.confState.key
      (recordBytes (encodeToVec cs))) (by rw [hm, OrdMap.lookup_insert_self]), confStateIn, messageIn,
      readRecord_insert_self]
  exact eq_of_decode_encodeToVec (hput.symm.trans h)

/-! ### Members and voters -/

/-- The ids of the members are the voters of the stored configuration. -/
def MembersAreVoters (core : RaftGroupMetadata) (m : ColumnFamily) : Prop :=
  ∃ cs, confStateIn m = some cs ∧ ∀ id, id ∈ core.peers ↔ id ∈ cs.voters

/-- What the raft crate answers to a change: the configuration with the voter added or removed. -/
structure Applies (before after : ConfState) (change : ConfChange) : Prop where
  add : ConfChangeType.fromI32 change.changeType = some .addNode →
    ∀ id, id ∈ after.voters ↔ id ∈ before.voters ∨ id = change.nodeId
  remove : ConfChangeType.fromI32 change.changeType = some .removeNode →
    ∀ id, id ∈ after.voters ↔ id ∈ before.voters ∧ id ≠ change.nodeId
  /-- Its encoding fits an allocation. -/
  fits : (encodeToVec after).length < 2 ^ 63

/-- The answers of the node to the change of an entry, over the stored configuration. -/
def AnswersApply (answers : Answers) (e : Entry) (m : ColumnFamily) : Prop :=
  ∀ change ∈ changeOf e, ∀ before after, confStateIn m = some before →
    answers.applyConfChange e.index change = some after → Applies before after change

/-- The description of a member can be read. -/
def Described (change : ConfChange) : Prop :=
  ∃ node : BrokerNode, Bincode.deserialize change.context.val = some node

/-- The two updates of an entry agree. A new member is known already, or it is described exactly
when the change is accepted; a removal that is rejected is of a node that is no member. -/
def EntryKeepsMembers (answers : Answers) (e : Entry) (core : RaftGroupMetadata) : Prop :=
  ∀ change ∈ changeOf e,
    (ConfChangeType.fromI32 change.changeType = some .addNode →
      change.nodeId ∈ core.peers ∨
        (Described change ↔ answers.applyConfChange e.index change ≠ none)) ∧
    (ConfChangeType.fromI32 change.changeType = some .removeNode →
      answers.applyConfChange e.index change = none → change.nodeId ∉ core.peers)

/-- The configuration of a snapshot has the members for its voters. -/
def SnapshotKeepsMembers (s : Snapshot) (core : RaftGroupMetadata) : Prop :=
  ∀ id, id ∈ core.peers ↔ id ∈ (s.getMetadata.confState.getD ConfState.default).voters

section members

variable (core : RaftGroupMetadata) (id id' : UInt64) (node : BrokerNode)

theorem mem_peers_addPeer : id ∈ (core.addPeer id' node).peers ↔ id = id' ∨ id ∈ core.peers := by
  rw [RaftGroupMetadata.addPeer, Std.ExtTreeMap.mem_insert, Std.compare_eq_iff_eq]
  exact or_congr_left eq_comm

theorem mem_peers_removePeer :
    id ∈ (core.removePeer id').peers ↔ id ≠ id' ∧ id ∈ core.peers := by
  rw [RaftGroupMetadata.removePeer, Std.ExtTreeMap.mem_erase, ne_eq, Std.compare_eq_iff_eq]
  exact and_congr_left fun _ => not_congr eq_comm

theorem mem_nodeIds : id ∈ core.nodeIds ↔ id ∈ core.peers := by
  rw [RaftGroupMetadata.nodeIds, List.mem_map]
  constructor
  · rintro ⟨p, hp, rfl⟩
    rw [Std.ExtTreeMap.mem_iff_isSome_getElem?,
      Std.ExtTreeMap.mem_toList_iff_getElem?_eq_some.mp hp]
    rfl
  · intro h
    rw [Std.ExtTreeMap.mem_iff_isSome_getElem?] at h
    obtain ⟨node, hnode⟩ := Option.isSome_iff_exists.mp h
    exact ⟨(id, node), Std.ExtTreeMap.mem_toList_iff_getElem?_eq_some.mpr hnode, rfl⟩

/-- The voters of the configuration after a change, accepted or not. -/
def votersAfter (before : ConfState) (answer : Option ConfState) : List UInt64 :=
  (answer.getD before).voters

variable {core} {change : ConfChange} {before : ConfState} {answer : Option ConfState}

/-- A new member: the two updates agree when it is known already, or described exactly when it is
accepted. -/
theorem members_add (hm : ∀ id, id ∈ core.peers ↔ id ∈ before.voters)
    (ht : ConfChangeType.fromI32 change.changeType = some .addNode)
    (ha : ∀ after ∈ answer, Applies before after change) :
    (∀ id, id ∈ (changedCluster core change).peers ↔ id ∈ votersAfter before answer) ↔
      change.nodeId ∈ core.peers ∨ (Described change ↔ answer ≠ none) := by
  -- the members gain the node when it is described
  have hpeers : ∀ id, id ∈ (changedCluster core change).peers ↔
      id = change.nodeId ∧ Described change ∨ id ∈ core.peers := by
    intro id
    rw [changedCluster, ht, Described]
    dsimp only
    rcases (Bincode.deserialize change.context.val : Option BrokerNode) with _ | node
    · simp
    · simp [mem_peers_addPeer]
  -- the voters gain it when the change is accepted
  have hvoters : ∀ id, id ∈ votersAfter before answer ↔
      id = change.nodeId ∧ answer ≠ none ∨ id ∈ core.peers := by
    intro id
    rw [hm, votersAfter]
    rcases answer with _ | after
    · simp
    · rw [Option.getD_some, (ha after rfl).add ht id]
      simp [or_comm]
  constructor
  -- the two sets can only differ at the node
  · intro h
    by_cases hmem : change.nodeId ∈ core.peers
    · exact .inl hmem
    · right
      have hid := h change.nodeId
      rw [hpeers, hvoters] at hid
      simpa [hmem] using hid
  · rintro (hmem | hiff) id
    · rw [hpeers, hvoters]
      by_cases hid : id = change.nodeId
      · subst hid
        simp [hmem]
      · simp [hid]
    · rw [hpeers, hvoters, hiff]

/-- A removal: the two updates agree unless it is of a member and rejected. -/
theorem members_remove (hm : ∀ id, id ∈ core.peers ↔ id ∈ before.voters)
    (ht : ConfChangeType.fromI32 change.changeType = some .removeNode)
    (ha : ∀ after ∈ answer, Applies before after change) :
    (∀ id, id ∈ (changedCluster core change).peers ↔ id ∈ votersAfter before answer) ↔
      (answer = none → change.nodeId ∉ core.peers) := by
  have hpeers : ∀ id, id ∈ (changedCluster core change).peers ↔
      id ≠ change.nodeId ∧ id ∈ core.peers := by
    intro id
    rw [changedCluster, ht]
    exact mem_peers_removePeer core id change.nodeId
  rcases answer with _ | after
  · -- the voters stay, the member goes
    simp only [hpeers, votersAfter, Option.getD_none, ← hm, forall_const]
    constructor
    · intro h hmem
      exact ((h change.nodeId).mpr hmem).1 rfl
    · intro hno id
      constructor
      · exact And.right
      · intro hid
        refine ⟨?_, hid⟩
        rintro rfl
        exact hno hid
  -- both lose it
  · refine iff_of_true (fun id => ?_) (by simp)
    rw [hpeers, votersAfter, Option.getD_some, (ha after rfl).remove ht id, hm, and_comm]

end members

/-! ### One step -/

section steps

variable {router : Router MachineEvent} {answers : Answers} {self self' : RaftMachine} {e : Entry}
  {s : Snapshot} {w w' : World MachineEvent}

/-- The configuration that is stored after an entry. -/
theorem confStateIn_after {before : ConfState} (hb : confStateIn (cluster w) = some before)
    (ha : ∀ after ∈ persistedBy answers e, (encodeToVec after).length < 2 ^ 63)
    (h : (cluster w')[Record.confState.key]? = confAfter answers e (cluster w)) :
    confStateIn (cluster w') = some ((persistedBy answers e).getD before) := by
  rw [confAfter] at h
  rcases hp : persistedBy answers e with _ | after <;> rw [hp] at h
  · rw [confStateIn_congr h, hb]
    rfl
  · exact confStateIn_of_text h (ha after hp)

/-- **An entry keeps the members the voters exactly when its two updates agree.** -/
theorem membersAreVoters_handleEntry (hm : MembersAreVoters self.placementCluster (cluster w))
    (ha : AnswersApply answers e (cluster w))
    (h : Completes (self.handleEntry router.route answers e) w self' w') :
    MembersAreVoters self'.placementCluster (cluster w') ↔
      EntryKeepsMembers answers e self.placementCluster := by
  obtain ⟨himp, hcls, hconf⟩ := RaftMachine.completes_handleEntry_members h
  obtain ⟨before, hb, hm⟩ := hm
  -- what is stored is read back
  have hfits : ∀ after ∈ persistedBy answers e, (encodeToVec after).length < 2 ^ 63 := by
    intro after hafter
    obtain ⟨change, hc, hans⟩ := Option.bind_eq_some_iff.mp hafter
    exact (ha change hc before after hb hans).fits
  have hafter := confStateIn_after hb hfits hconf
  have hiff : MembersAreVoters self'.placementCluster (cluster w') ↔
      ∀ id, id ∈ self'.placementCluster.peers ↔
        id ∈ ((persistedBy answers e).getD before).voters := by
    rw [MembersAreVoters, hafter]
    simp
  rw [hiff, hcls, EntryKeepsMembers, persistedBy]
  -- the change decides, if the entry has one
  rcases hc : changeOf e with _ | change
  · -- nothing is changed
    exact iff_of_true hm fun change hchange => by cases hchange
  · have happly : ∀ after ∈ answers.applyConfChange e.index change, Applies before after change :=
      fun after hafter => ha change hc before after hb hafter
    simp only [Option.elim_some, Option.bind_some, Option.mem_def, Option.some_inj, forall_eq']
    rcases himp change hc with ht | ht
    · have hadd := members_add hm ht happly
      rw [votersAfter] at hadd
      rw [hadd]
      simp [ht]
    · have hremove := members_remove hm ht happly
      rw [votersAfter] at hremove
      rw [hremove]
      simp [ht]

/-- An append leaves the members and the stored configuration. -/
theorem completes_saveEntries_members {es : List Entry}
    (h : Completes (self.saveEntries es) w self' w') :
    self'.placementCluster = self.placementCluster ∧
      (cluster w')[Record.confState.key]? = (cluster w)[Record.confState.key]? := by
  unfold RaftMachine.saveEntries at h
  split_ifs at h
  · obtain ⟨rfl, rfl⟩ := completes_pure.mp h
    exact ⟨rfl, rfl⟩
  · obtain ⟨⟨r, st⟩, w₁, h₁, hp⟩ := completes_bind.mp h
    obtain ⟨rfl, rfl⟩ := completes_pure.mp hp
    obtain ⟨⟨r', st'⟩, w₂, h₂, hp⟩ := completes_bind.mp h₁
    obtain ⟨-, rfl⟩ := completes_pure.mp hp
    refine ⟨rfl, ?_⟩
    obtain ⟨-, ⟨-, -, rfl⟩ | ⟨-, -, -, rfl⟩⟩ := RaftMachineStorage.completes_append h₂
    · rfl
    · rw [cluster_putRecord, OrdMap.lookup_insert_ne _ _ (by simp),
        lookup_appended (by simp) es fun e _ => by simp]

/-- A snapshot that is installed stores its configuration, and leaves the members. -/
theorem completes_saveSnapshot_members (hs : s ≠ Snapshot.default)
    (hf : firstIndexIn self.raftStorage (cluster w) ≤ s.getMetadata.index)
    (h : Completes (self.saveSnapshot s) w self' w') :
    self'.placementCluster = self.placementCluster ∧ (cluster w')[Record.confState.key]? =
      some (recordBytes (encodeToVec (s.getMetadata.confState.getD ConfState.default))) := by
  unfold RaftMachine.saveSnapshot at h
  rw [if_neg hs] at h
  obtain ⟨⟨r, st⟩, w₁, h₁, hp⟩ := completes_bind.mp h
  obtain ⟨rfl, rfl⟩ := completes_pure.mp hp
  obtain ⟨⟨r', st'⟩, w₂, h₂, hp⟩ := completes_bind.mp h₁
  obtain ⟨-, rfl⟩ := completes_pure.mp hp
  refine ⟨rfl, ?_⟩
  -- the configuration is stored after the hard state was read back
  rcases hread : hardStateIn (cluster (RaftMachineStorage.restored w
      (RaftMachineStorage.payloadPairs s.data))) with _ | hs'
  · -- a hard state that cannot be read back panics
    unfold RaftMachineStorage.applySnapshot at h₂
    dsimp only at h₂
    rw [Completes, bind_run_ok (RaftMachineStorage.firstIndex_run _ w),
      if_neg (UInt64.not_lt.mpr hf), bind_run_ok (RaftMachineStorage.writeAll_run s.data w),
      bind_run, RaftMachineStorage.hardState_run, hread] at h₂
    cases h₂
  · obtain ⟨-, rfl⟩ := (completes_of_run (RaftMachineStorage.applySnapshot_run hf hread)).mp h₂
    rw [cluster_putRecord, OrdMap.lookup_insert_self]

/-- **An installed snapshot keeps the members the voters exactly when its voters are the
members.** -/
theorem membersAreVoters_saveSnapshot (hs : s ≠ Snapshot.default)
    (hf : firstIndexIn self.raftStorage (cluster w) ≤ s.getMetadata.index)
    (hl : (encodeToVec (s.getMetadata.confState.getD ConfState.default)).length < 2 ^ 63)
    (h : Completes (self.saveSnapshot s) w self' w') :
    MembersAreVoters self'.placementCluster (cluster w') ↔
      SnapshotKeepsMembers s self.placementCluster := by
  obtain ⟨hcls, hconf⟩ := completes_saveSnapshot_members hs hf h
  rw [MembersAreVoters, confStateIn_of_text hconf hl, hcls]
  simp [SnapshotKeepsMembers]

end steps

/-! ### Runs -/

/-- A run of committed entries and installed snapshots, from members that are the voters. The two
conditions are on the steps of the run. -/
inductive MemberRun (router : Router MachineEvent)
    (OnEntry : Answers → Entry → RaftGroupMetadata → Prop)
    (OnSnapshot : Snapshot → RaftGroupMetadata → Prop) : RaftMachine → World MachineEvent → Prop where
  | start {self w} (hm : MembersAreVoters self.placementCluster (cluster w)) :
    MemberRun router OnEntry OnSnapshot self w
  | entry {self self' w w'} (answers : Answers) (e : Entry)
    (hr : MemberRun router OnEntry OnSnapshot self w) (ha : AnswersApply answers e (cluster w))
    (h : Completes (self.handleEntry router.route answers e) w self' w')
    (hc : OnEntry answers e self.placementCluster) : MemberRun router OnEntry OnSnapshot self' w'
  | snapshot {self self' w w'} (s : Snapshot) (hr : MemberRun router OnEntry OnSnapshot self w)
    (hs : s ≠ Snapshot.default)
    (hf : firstIndexIn self.raftStorage (cluster w) ≤ s.getMetadata.index)
    (hl : (encodeToVec (s.getMetadata.confState.getD ConfState.default)).length < 2 ^ 63)
    (h : Completes (self.saveSnapshot s) w self' w')
    (hc : OnSnapshot s self.placementCluster) : MemberRun router OnEntry OnSnapshot self' w'

/-- **In every run whose entries and snapshots update the members and the voters alike, the ids of
the members are the stored voters.** -/
theorem membersAreVoters_of_run {router : Router MachineEvent} {self : RaftMachine}
    {w : World MachineEvent}
    (h : MemberRun router EntryKeepsMembers SnapshotKeepsMembers self w) :
    MembersAreVoters self.placementCluster (cluster w) := by
  induction h with
  | start hm => exact hm
  | entry answers e hr ha h hc ih => exact (membersAreVoters_handleEntry ih ha h).mpr hc
  | snapshot s hr hs hf hl h hc ih => exact (membersAreVoters_saveSnapshot hs hf hl h).mpr hc

/-! A node that knows itself, and a change that adds the node `4` with or without its description.
The raft crate accepts the change. -/

def nodeNamed (id : UInt64) (addr : String) : BrokerNode := ⟨"c", "p", id, "ip", addr, "", 0⟩

def aloneGroup : RaftGroupMetadata :=
  ⟨none, .follower, (∅ : HashMap _ _).insert 1 (nodeNamed 1 "a")⟩

def bootedAlone : (RaftMachine × Config) × World MachineEvent :=
  finish (RaftMachine.boot aloneGroup) World.empty (by decide +kernel)

theorem completes_bootedAlone : Completes (RaftMachine.boot aloneGroup) World.empty
    (bootedAlone.1.1, bootedAlone.1.2) bootedAlone.2 := completes_finish _ _ _

/-- The change that adds the node `4`, with a context. -/
def addition (context : ByteVec) : ConfChange := ⟨0, 0, 4, context⟩

def describedEntry : Entry :=
  changeEntry (addition ⟨Bincode.serialize (nodeNamed 4 "b"), by decide +kernel⟩)
    (by decide +kernel)

def undescribedEntry : Entry := changeEntry (addition .empty) (by decide)

/-- A node that accepts the addition. -/
def accepting : Answers := ⟨fun _ => 0, fun _ _ => some { ConfState.default with voters := [1, 4] }⟩

theorem changeOf_changeEntry {change : ConfChange} {h : (encodeToVec change).length < 2 ^ 63}
    (hne : encodeToVec change ≠ []) : changeOf (changeEntry change h) = some change := by
  have hdata : (changeEntry change h).data.val = encodeToVec change := rfl
  have ht : EntryType.fromI32 (changeEntry change h).entryType = some .entryConfChange := rfl
  rw [changeOf, hdata, if_neg hne, ht]
  exact ConfChange.decode_encodeToVec change

/-- A node that came up alone has itself for the only member and voter, whatever it appends. -/
theorem membersAreVoters_appended {es : List Entry} {self : RaftMachine} {w : World MachineEvent}
    (h : Completes (bootedAlone.1.1.saveEntries es) bootedAlone.2 self w) :
    self.placementCluster = aloneGroup ∧
      confStateIn (cluster w) = some { ConfState.default with voters := [1] } ∧
      MembersAreVoters self.placementCluster (cluster w) := by
  obtain ⟨hcls, hconf⟩ := completes_saveEntries_members h
  obtain ⟨st, hs, cs, hself, -⟩ := completes_boot completes_bootedAlone
  have hcls' : self.placementCluster = aloneGroup := by
    rw [hcls, hself]
    rfl
  have hread : confStateIn (cluster w) = some { ConfState.default with voters := [1] } := by
    rw [confStateIn_congr hconf]
    decide +kernel
  refine ⟨hcls', hread, _, hread, fun id => ?_⟩
  rw [hcls', ← mem_nodeIds]
  have hids : aloneGroup.nodeIds = [1] := by decide +kernel
  rw [hids]

/-- The answer of the accepting node applies the addition. -/
theorem answersApply_accepting {context : ByteVec} {h : (encodeToVec (addition context)).length < 2 ^ 63}
    (hne : encodeToVec (addition context) ≠ []) {m : ColumnFamily}
    (hm : confStateIn m = some { ConfState.default with voters := [1] }) :
    AnswersApply accepting (changeEntry (addition context) h) m := by
  intro change hchange before after hb hafter
  rw [changeOf_changeEntry hne] at hchange
  obtain rfl := Option.some_inj.mp hchange
  obtain rfl := Option.some_inj.mp (hm.symm.trans hb)
  obtain rfl := Option.some_inj.mp hafter
  refine ⟨fun _ id => ?_, fun ht => ?_, by decide⟩
  · simp [addition]
  · exact absurd ht (by simp [addition, ConfChangeType.fromI32])

def withDescribed : RaftMachine × World MachineEvent :=
  finish (bootedAlone.1.1.saveEntries [describedEntry]) bootedAlone.2 (by decide +kernel)

def describedAdded : RaftMachine × World MachineEvent :=
  finish (withDescribed.1.handleEntry dataRoute.route accepting describedEntry) withDescribed.2
    (by decide +kernel)

/-- The node that is described becomes a member and a voter. -/
theorem membersAreVoters_describedAdded :
    MembersAreVoters describedAdded.1.placementCluster (cluster describedAdded.2) := by
  obtain ⟨hcls, hread, hm⟩ := membersAreVoters_appended
    (completes_finish (bootedAlone.1.1.saveEntries [describedEntry]) bootedAlone.2
      (by decide +kernel) : Completes _ _ withDescribed.1 withDescribed.2)
  have hne : encodeToVec (addition ⟨Bincode.serialize (nodeNamed 4 "b"), by decide +kernel⟩) ≠ [] := by
    decide +kernel
  refine @membersAreVoters_of_run dataRoute _ _ (.entry accepting describedEntry (.start hm)
    (answersApply_accepting hne hread) (completes_finish _ _ _) ?_)
  intro change hchange
  rw [describedEntry, changeOf_changeEntry hne] at hchange
  obtain rfl := Option.some_inj.mp hchange
  refine ⟨fun _ => .inr ?_, fun ht => ?_⟩
  · exact iff_of_true ⟨nodeNamed 4 "b", by decide +kernel⟩ (by simp [accepting])
  · exact absurd ht (by simp [addition, ConfChangeType.fromI32])

def withUndescribed : RaftMachine × World MachineEvent :=
  finish (bootedAlone.1.1.saveEntries [undescribedEntry]) bootedAlone.2 (by decide +kernel)

def undescribedAdded : RaftMachine × World MachineEvent :=
  finish (withUndescribed.1.handleEntry dataRoute.route accepting undescribedEntry)
    withUndescribed.2 (by decide +kernel)

/-- The node that is not described becomes a voter without being a member. -/
theorem voter_without_address :
    MembersAreVoters withUndescribed.1.placementCluster (cluster withUndescribed.2) ∧
      AnswersApply accepting undescribedEntry (cluster withUndescribed.2) ∧
      Completes (withUndescribed.1.handleEntry dataRoute.route accepting undescribedEntry)
        withUndescribed.2 undescribedAdded.1 undescribedAdded.2 ∧
      ¬ MembersAreVoters undescribedAdded.1.placementCluster (cluster undescribedAdded.2) := by
  obtain ⟨hcls, hread, hm⟩ := membersAreVoters_appended
    (completes_finish (bootedAlone.1.1.saveEntries [undescribedEntry]) bootedAlone.2
      (by decide +kernel) : Completes _ _ withUndescribed.1 withUndescribed.2)
  have hne : encodeToVec (addition .empty) ≠ [] := by decide
  have ha := answersApply_accepting (h := by decide) hne hread
  have hc : Completes (withUndescribed.1.handleEntry dataRoute.route accepting undescribedEntry)
      withUndescribed.2 undescribedAdded.1 undescribedAdded.2 := completes_finish _ _ _
  refine ⟨hm, ha, hc, fun hafter => ?_⟩
  -- the step lemma would have the node described
  have hkeeps := (membersAreVoters_handleEntry hm ha hc).mp hafter
  obtain ⟨hadd, -⟩ := hkeeps _ (changeOf_changeEntry hne)
  rcases hadd rfl with hmem | hiff
  · rw [hcls, ← mem_nodeIds] at hmem
    exact absurd hmem (by decide +kernel)
  · obtain ⟨node, hnode⟩ := hiff.mpr (by simp [accepting])
    have hnone : (Bincode.deserialize (addition .empty).context.val : Option BrokerNode) = none := by
      decide
    rw [hnone] at hnode
    cases hnode

/-! ### Restarts -/

theorem lookup_conf_saveHardState {o : Option HardState} {u : Unit} {w w' : World MachineEvent}
    (h : Completes (RaftMachine.saveHardState o) w u w') :
    (cluster w')[Record.confState.key]? = (cluster w)[Record.confState.key]? := by
  obtain rfl := RaftMachine.completes_saveHardState_iff.mp h
  cases o with
  | none => rfl
  | some hs =>
    rw [Option.elim_some, cluster_putRecord, OrdMap.lookup_insert_ne _ _ (by simp)]

theorem lookup_conf_saveCommit {o : Option UInt64} {u : Unit} {w w' : World MachineEvent}
    (h : Completes (RaftMachine.saveCommit o) w u w') :
    (cluster w')[Record.confState.key]? = (cluster w)[Record.confState.key]? := by
  cases o with
  | none =>
    obtain ⟨-, rfl⟩ := completes_pure.mp h
    rfl
  | some k =>
    obtain ⟨hs, -, rfl⟩ := RaftMachine.completes_saveCommit_some h
    rw [cluster_putRecord, OrdMap.lookup_insert_ne _ _ (by simp)]

/-- The lives of a node with a static table of members: the configuration that was persisted since
it came up, and the one that was last persisted in any of its lives. -/
inductive Life (router : Router MachineEvent) (members : RaftGroupMetadata) :
    RaftMachine → World MachineEvent → Option ConfState → Option ConfState → Prop where
  | start {self conf w}
    (h : Completes (RaftMachine.boot members) World.empty (self, conf) w) :
    Life router members self w none none
  | entries {self self' w w' current last} (es : List Entry)
    (hl : Life router members self w current last)
    (h : Completes (self.saveEntries es) w self' w') : Life router members self' w' current last
  | committed {self self' w w' current last} (answers : Answers) (e : Entry)
    (hl : Life router members self w current last)
    (h : Completes (self.handleEntry router.route answers e) w self' w') :
    Life router members self' w' ((persistedBy answers e).or current)
      ((persistedBy answers e).or last)
  | hardState {self w w' current last} {u : Unit} (o : Option HardState)
    (hl : Life router members self w current last)
    (h : Completes (RaftMachine.saveHardState o) w u w') : Life router members self w' current last
  | commit {self w w' current last} {u : Unit} (o : Option UInt64)
    (hl : Life router members self w current last)
    (h : Completes (RaftMachine.saveCommit o) w u w') : Life router members self w' current last
  | restart {self self' conf w w' current last} (hl : Life router members self w current last)
    (h : Completes (RaftMachine.boot members) w (self', conf) w') :
    Life router members self' w' none last

/-- The configuration that was persisted last is the one that is stored. -/
theorem Life.stored {router : Router MachineEvent} {members : RaftGroupMetadata}
    {self : RaftMachine} {w : World MachineEvent} {current last : Option ConfState}
    (h : Life router members self w current last) :
    ∀ cs ∈ current, (cluster w)[Record.confState.key]? = some (recordBytes (encodeToVec cs)) ∧
      last = some cs := by
  -- only a committed entry persists a configuration, and a restart forgets it
  induction h with
  | start h =>
    rintro cs ⟨⟩
  | entries es hl h ih =>
    intro cs hcs
    obtain ⟨hst, hlast⟩ := ih cs hcs
    exact ⟨(completes_saveEntries_members h).2.trans hst, hlast⟩
  | committed answers e hl h ih =>
    intro cs hcs
    have hconf := (RaftMachine.completes_handleEntry_members h).2.2
    rw [confAfter] at hconf
    rcases hp : persistedBy answers e with _ | after
    · rw [hp, Option.none_or] at hcs
      rw [hp] at hconf
      obtain ⟨hst, hlast⟩ := ih cs hcs
      exact ⟨hconf.trans hst, by rw [Option.none_or, hlast]⟩
    · rw [hp, Option.some_or] at hcs
      obtain rfl := Option.some_inj.mp hcs
      rw [hp] at hconf
      exact ⟨hconf, Option.some_or⟩
  | hardState o hl h ih =>
    intro cs hcs
    exact ⟨(lookup_conf_saveHardState h).trans (ih cs hcs).1, (ih cs hcs).2⟩
  | commit o hl h ih =>
    intro cs hcs
    exact ⟨(lookup_conf_saveCommit h).trans (ih cs hcs).1, (ih cs hcs).2⟩
  | restart hl h ih =>
    rintro cs ⟨⟩

/-- What the raft crate reads when a node starts. -/
theorem completes_initialState {state : RaftState} {w w' : World MachineEvent} :
    Completes RaftRocksDBStorage.initialState w (.ok state) w' ↔
      hardStateIn (cluster w) = some state.hardState ∧
        confStateIn (cluster w) = some state.confState ∧ w = w' := by
  constructor
  · intro h
    -- two reads, neither of which writes
    obtain ⟨rs, w₁, h₁, hp⟩ := completes_bind.mp h
    obtain ⟨hrs, rfl⟩ := completes_pure.mp hp
    obtain ⟨shs, w₂, h₂, h₁⟩ := completes_bind.mp h₁
    obtain ⟨scs, w₃, h₃, hp⟩ := completes_bind.mp h₁
    obtain ⟨hscs, rfl⟩ := completes_pure.mp hp
    obtain ⟨hhs, rfl⟩ := (RaftMachineStorage.completes_hardState _).mp h₂
    rw [Completes, RaftMachineStorage.confState_run] at h₃
    obtain ⟨hcs, rfl⟩ := completes_unwrapOk.mp h₃
    obtain rfl := Except.ok.inj hrs
    obtain rfl := hscs
    exact ⟨hhs, hcs, rfl⟩
  · rintro ⟨hhs, hcs, rfl⟩
    have hread : RaftMachineStorage.confState w = (.ok state.confState, w) := by
      rw [RaftMachineStorage.confState_run, hcs]
      rfl
    have hstate : RaftMachineStorage.raftState w = (.ok state, w) :=
      (bind_run_ok ((RaftMachineStorage.completes_hardState _).mpr ⟨hhs, rfl⟩) _).trans
        (bind_run_ok hread _)
    exact bind_run_ok hstate _

/-- The voters of the configuration that was last persisted, or the configured members. -/
def persistedVoters (members : RaftGroupMetadata) (last : Option ConfState) : List UInt64 :=
  last.elim members.nodeIds ConfState.voters

/-- **A node that comes up again begins with the voters that were last persisted exactly when these
are the members of its static table.** -/
theorem voters_of_restart_iff {router : Router MachineEvent} {members : RaftGroupMetadata}
    {self self' : RaftMachine} {w w' : World MachineEvent} {current last : Option ConfState}
    {conf : Config} {state : RaftState} (h : Life router members self w current last)
    (hboot : Completes (RaftMachine.boot members) w (self', conf) w')
    (hstart : Completes RaftRocksDBStorage.initialState w' (.ok state) w') :
    (∀ cs ∈ current,
        (cluster w)[Record.confState.key]? = some (recordBytes (encodeToVec cs)) ∧ last = some cs) ∧
      (SameIds state.confState.voters (persistedVoters members last) ↔
        ∀ cs ∈ last, SameIds cs.voters members.nodeIds) := by
  refine ⟨h.stored, ?_⟩
  obtain ⟨st, hs, cs, -, -, -, -, rfl⟩ := completes_boot hboot
  -- the voters that were stored are overwritten before they are read
  obtain ⟨-, hread, -⟩ := completes_initialState.mp hstart
  have hstate : state.confState = { cs with voters := members.nodeIds } :=
    confStateIn_eq (by rw [cluster_putRecord, OrdMap.lookup_insert_self]) hread
  rw [hstate]
  cases last with
  | none => exact iff_of_true (fun _ => Iff.rfl) fun cs hcs => by cases hcs
  | some persisted =>
    simp only [persistedVoters, Option.elim_some, Option.mem_def, Option.some_inj, forall_eq']
    exact ⟨fun h id => (h id).symm, fun h id => (h id).symm⟩

/-! The node that came up alone and accepted the node `4` comes up again. -/

/-- The configuration that it persisted. -/
def withFour : ConfState := { ConfState.default with voters := [1, 4] }

def restarted : (RaftMachine × Config) × World MachineEvent :=
  finish (RaftMachine.boot aloneGroup) describedAdded.2 (by decide +kernel)

theorem life_describedAdded :
    Life dataRoute aloneGroup describedAdded.1 describedAdded.2 (some withFour) (some withFour) := by
  have hne : encodeToVec (addition ⟨Bincode.serialize (nodeNamed 4 "b"), by decide +kernel⟩) ≠ [] := by
    decide +kernel
  have hpersist : persistedBy accepting describedEntry = some withFour := by
    rw [persistedBy, describedEntry, changeOf_changeEntry hne]
    rfl
  have hentries : Life dataRoute aloneGroup withDescribed.1 withDescribed.2 none none :=
    .entries [describedEntry] (.start completes_bootedAlone) (completes_finish _ _ _)
  have hc : Completes (withDescribed.1.handleEntry dataRoute.route accepting describedEntry)
      withDescribed.2 describedAdded.1 describedAdded.2 := completes_finish _ _ _
  have hcommitted := hentries.committed accepting describedEntry hc
  rwa [hpersist] at hcommitted

theorem completes_restarted : Completes (RaftMachine.boot aloneGroup) describedAdded.2
    (restarted.1.1, restarted.1.2) restarted.2 := by
  rw [Prod.eta]
  exact completes_finish _ _ _

theorem restarted_starts : Completes RaftRocksDBStorage.initialState restarted.2
    (.ok ⟨⟨1, 0, 1⟩, { ConfState.default with voters := [1] }⟩) restarted.2 := by
  have hreads : hardStateIn (cluster restarted.2) = some ⟨1, 0, 1⟩ ∧
      confStateIn (cluster restarted.2) = some { ConfState.default with voters := [1] } := by
    decide +kernel
  exact completes_initialState.mpr ⟨hreads.1, hreads.2, rfl⟩

theorem voters_of_restarted_iff :
    (∀ cs ∈ some withFour, (cluster describedAdded.2)[Record.confState.key]? =
        some (recordBytes (encodeToVec cs)) ∧ some withFour = some cs) ∧
      (SameIds [1] (persistedVoters aloneGroup (some withFour)) ↔
        ∀ cs ∈ some withFour, SameIds cs.voters aloneGroup.nodeIds) :=
  voters_of_restart_iff life_describedAdded completes_restarted restarted_starts

/-- The voters `1` and `4` were persisted, and the node begins with the voter `1`. -/
theorem restart_forgets_voter :
    Life dataRoute aloneGroup describedAdded.1 describedAdded.2 (some withFour) (some withFour) ∧
      Completes (RaftMachine.boot aloneGroup) describedAdded.2 (restarted.1.1, restarted.1.2)
        restarted.2 ∧
      Completes RaftRocksDBStorage.initialState restarted.2
        (.ok ⟨⟨1, 0, 1⟩, { ConfState.default with voters := [1] }⟩) restarted.2 ∧
      ¬ SameIds [1] (persistedVoters aloneGroup (some withFour)) := by
  refine ⟨life_describedAdded, completes_restarted, restarted_starts, fun h => ?_⟩
  have hfour := (h 4).mpr (by simp [persistedVoters, withFour])
  exact absurd hfour (by decide)

end PlacementCenter.Raft
