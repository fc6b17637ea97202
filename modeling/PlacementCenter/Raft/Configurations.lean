import PlacementCenter.Raft.Cycles
import PlacementCenter.Storage.IndexBounds

/-!
# The stored configuration

A node that comes up reads its configuration, and cannot come up without it. The record is written
by the entries that change the configuration, by an installation, which restores the record of the
sender and then writes that of the snapshot, and by the start of a node. It can be read at every
point between two writes, as long as what is written fits an allocation.

## Main definitions

* `ConfFits cs`: the encoding of a configuration fits an allocation
* `HasConf w`: the configuration can be read at every crash point

## Main results

* `keepsReadable_onReady`: what a cycle keeps, installations included
* `hasConf_of_boot`: a node that comes up leaves it readable
-/

namespace PlacementCenter.Raft

open Rust Rust.Prost Storage Program

/-- The encoding of a configuration fits an allocation. -/
def ConfFits (cs : ConfState) : Prop := (encodeToVec cs).length < 2 ^ 63

instance (cs : ConfState) : Decidable (ConfFits cs) :=
  inferInstanceAs (Decidable ((encodeToVec cs).length < 2 ^ 63))

/-- The answers of the node to configuration changes fit. -/
def AnswersFit (answers : Answers) : Prop :=
  ∀ idx change, ∀ cs ∈ answers.applyConfChange idx change, ConfFits cs

/-- The configuration can be read at every crash point. -/
def HasConf (w : World MachineEvent) : Prop :=
  ∀ pt ∈ w.points, ∃ cs, confStateIn (pt.1 dbColumnFamilyCluster) = some cs

section writes

variable {w w' : World MachineEvent}

theorem HasConf.current (h : HasConf w) : ∃ cs, confStateIn (cluster w) = some cs :=
  h _ (World.mem_points_self w)

/-- An effect after which the configuration can be read. -/
theorem HasConf.effect (h : HasConf w) (hpast : w'.past = w.points)
    (hcs : ∃ cs, confStateIn (cluster w') = some cs) : HasConf w' := by
  intro pt hpt
  rcases List.mem_cons.mp hpt with rfl | hpt
  · exact hcs
  · exact h pt (hpast ▸ hpt)

theorem HasConf.putOther (h : HasConf w) {k : Bytes} (hk : k ≠ Record.confState.key)
    (v : Bytes) : HasConf (putKey w k v) := by
  refine h.effect rfl ?_
  rw [cluster_putKey, confStateIn_congr (OrdMap.lookup_insert_ne (cluster w) v hk)]
  exact h.current

theorem HasConf.putConfState (h : HasConf w) {cs : ConfState} (hcs : ConfFits cs) :
    HasConf (putRecord w .confState (encodeToVec cs)) := by
  refine h.effect rfl ⟨cs, confStateIn_of_text ?_ hcs⟩
  rw [cluster_putRecord, OrdMap.lookup_insert_self]

theorem keptByRecords_hasConf : KeptByRecords (fun r => r ≠ .confState) HasConf :=
  fun _ _ _ hr hw => hw.putOther (by simpa using hr) _

theorem keptByClients_hasConf : KeptByClients HasConf where
  put _ _ _ hk hw := hw.putOther (Record.confState.key_ne_of_client hk).symm _
  delete w k hk hw := by
    refine hw.effect rfl ?_
    rw [cluster, World.columns_delete_self,
      confStateIn_congr (OrdMap.lookup_erase_ne _ (Record.confState.key_ne_of_client hk).symm)]
    exact hw.current

theorem keepsReadable_emit (e : MachineEvent) :
    Keeps HasConf (Observed.emit e : Program (World MachineEvent) Unit) :=
  fun _ hw => hw.effect rfl hw.current

theorem keepsReadable_setConfState {cs : ConfState} (hcs : ConfFits cs) :
    Keeps HasConf (RaftRocksDBStorage.setConfState cs : Program (World MachineEvent) _) :=
  keeps_bind (fun _ hw => hw.putConfState hcs) fun _ => keeps_pure _

/-- An operation of the log store that does not write the configuration. -/
theorem keepsReadable_op (op : RaftOp) (hop : ¬ op.Writes .confState) (core : RaftMachineStorage) :
    Keeps HasConf (op.run core : Program (World MachineEvent) _) :=
  op.keeps (keptByRecords_hasConf.mono fun _ hr he => hop (he ▸ hr)) core

end writes

/-! ### Committed entries -/

section cycles

variable (router : Router MachineEvent) {answers : Answers} (self : RaftMachine)

theorem keepsReadable_applyEntry (hans : AnswersFit answers) (e : Entry) :
    Keeps HasConf (self.applyEntry router.route answers e) := by
  refine RaftMachine.keeps_applyEntry_of self
    (fun change cs hcs => keepsReadable_setConfState (hans e.index change cs hcs)) ?_
  refine keeps_bind (keepsReadable_emit _) fun _ =>
    keeps_bind (router.keeps keptByClients_hasConf _ _) fun r => ?_
  cases r with
  | ok _ => exact keepsReadable_emit _
  | error _ => exact keeps_pure _

theorem keepsReadable_createSnapshot (core : RaftMachineStorage) :
    Keeps HasConf (core.createSnapshot : Program (World MachineEvent) _) :=
  keepsReadable_op .createSnapshot (by simp [RaftOp.Writes]) core

theorem keepsReadable_handleCommittedEntries (hans : AnswersFit answers) (es : List Entry) :
    Keeps HasConf (self.handleCommittedEntries router.route answers es) := by
  refine keeps_foldlM es (fun core e _ => ?_) self
  refine keeps_bind (keepsReadable_applyEntry router core hans e) fun core => ?_
  -- the commit, the answer, and the snapshot with every thousandth entry
  refine keeps_bind ?_ fun r => keeps_bind ?_ fun core' => ?_
  · exact keeps_bind (keeps_of_bind_pure (keepsReadable_op (.commmitIndex e.index)
      (by simp [RaftOp.Writes]) core.raftStorage)) fun _ => keeps_pure _
  · exact RaftMachine.keeps_respond_of _ fun _ => keepsReadable_emit _
  · exact RaftMachine.keeps_createSnapshot_of _ fun core =>
      keeps_bind (keepsReadable_createSnapshot core) fun _ => keeps_pure _

/-! ### Installations -/

/-- The restore writes the record of the sender, which can be read. -/
theorem HasConf.restored {sender : ColumnFamily}
    (hsender : ∃ cs, confStateIn sender = some cs) {ps : List (String × String)}
    (hps : ∀ p ∈ ps, sender[utf8 p.1]? = some (utf8 p.2)) {w : World MachineEvent}
    (h : HasConf w) : HasConf (RaftMachineStorage.restored w ps) := by
  induction ps generalizing w with
  | nil => exact h
  | cons p ps ih =>
    refine ih (fun q hq => hps q (List.mem_cons_of_mem p hq)) ?_
    by_cases hk : utf8 p.1 = Record.confState.key
    · refine h.effect rfl ?_
      have hrecord := hps p List.mem_cons_self
      have hread : confStateIn (cluster (putKey w (utf8 p.1) (utf8 p.2))) = confStateIn sender := by
        rw [cluster_putKey, hk]
        exact confStateIn_congr (by rw [OrdMap.lookup_insert_self, ← hrecord, hk])
      rw [hread]
      exact hsender
    · exact h.putOther hk _

/-- **An installation leaves the configuration readable** at every point. -/
theorem keepsReadable_applySnapshot {s : Snapshot} {sender : ColumnFamily}
    (hs : RaftMachineStorage.snapshotOf sender = some s)
    (hfit : ConfFits (s.getMetadata.confState.getD ConfState.default))
    (core : RaftMachineStorage) :
    Keeps HasConf (RaftRocksDBStorage.applySnapshot core s :
      Program (World MachineEvent) _) := by
  obtain ⟨-, cs, -, hcs, -⟩ := RaftMachineStorage.snapshotOf_eq_some hs
  refine keeps_bind (keeps_bind (keeps_firstIndex core) fun fi => ?_) fun _ => keeps_pure _
  dsimp only
  split_ifs
  · exact keeps_pure _
  · refine keeps_bind (fun w hw => ?_) fun _ => keeps_bind keeps_hardState fun hs => ?_
    · rw [RaftMachineStorage.writeAll_run]
      refine hw.restored ⟨cs, hcs⟩ fun p hp => ?_
      rw [RaftMachineStorage.payloadPairs_snapshotOf hs] at hp
      exact mem_dumpPairs hp
    · refine keeps_bind (keptByRecords_hasConf.write (r := .hardState) (by simp) _) fun _ => ?_
      exact keeps_bind (fun _ hw => hw.putConfState hfit) fun _ => keeps_pure _

/-! ### Cycles -/

/-- **A cycle leaves the configuration readable** at every point. -/
theorem keepsReadable_onReady {c : Cycle} (hans : AnswersFit c.toAnswers)
    (hinstall : c.ready.snapshot ≠ .default → ∀ core, Keeps HasConf
      (RaftRocksDBStorage.applySnapshot core c.ready.snapshot : Program (World MachineEvent) _)) :
    Keeps HasConf (self.onReady router.route c) := by
  -- what is sent is no write
  have messages : ∀ (core : RaftMachine) (ms : List RaftPreludeMessage),
      Keeps HasConf (core.sendMessage ms) := fun core ms =>
    RaftMachine.keeps_sendMessage (fun _ _ _ hw => hw.effect rfl hw.current) core ms
  have hardState : ∀ {hs : HardState},
      Keeps HasConf (RaftMachineStorage.saveHardState hs : Program (World MachineEvent) _) :=
    keptByRecords_hasConf.write (r := .hardState) (by simp) _
  refine keeps_bind (messages _ _) fun _ => keeps_bind ?_ fun core => keeps_bind ?_ fun core => ?_
  · unfold RaftMachine.saveSnapshot
    split_ifs with hsnap
    · exact keeps_pure _
    · exact keeps_bind (hinstall hsnap _) fun _ => keeps_pure _
  · unfold RaftMachine.saveEntries
    split_ifs
    · exact keeps_pure _
    · exact keeps_bind (keeps_bind (keeps_of_bind_pure (keepsReadable_op (.append _)
        (by simp [RaftOp.Writes]) _)) fun _ => keeps_pure _) fun _ => keeps_pure _
  -- the first entries are applied, then the hard states are stored
  refine keeps_bind (keepsReadable_handleCommittedEntries router core hans _) fun core => ?_
  refine keeps_bind ?_ fun _ => keeps_bind (messages _ _) fun _ => keeps_bind ?_ fun _ => ?_
  · cases c.ready.hs with
    | none => exact keeps_pure _
    | some hs => exact keeps_bind (keeps_bind hardState fun _ => keeps_pure _) fun _ => keeps_pure _
  · cases c.lightRd.commitIndex with
    | none => exact keeps_pure _
    | some k =>
      exact keeps_bind (keeps_bind (keeps_bind keeps_hardState fun _ => hardState) fun _ =>
        keeps_pure _) fun _ => keeps_pure _
  exact keeps_bind (messages _ _) fun _ =>
    keepsReadable_handleCommittedEntries router core hans _

end cycles

/-! ### A node that comes up -/

/-- What a node writes when it comes up over some contents fits. -/
def BootFits (g : RaftGroupMetadata) (m : ColumnFamily) : Prop :=
  ∀ cs, confStateIn m = some cs → ConfFits { cs with voters := g.nodeIds }

theorem hasConf_of_boot {pt : Columns × List MachineEvent} {g : RaftGroupMetadata}
    {self : RaftMachine} {conf : Config} {w : World MachineEvent}
    (hfit : BootFits g (pt.1 dbColumnFamilyCluster))
    (h : Completes (RaftMachine.boot g) (World.reopen pt.1 pt.2) (self, conf) w) :
    HasConf w := by
  obtain ⟨st, hs, cs, -, -, -, hcs, rfl⟩ := completes_boot h
  have hreopened : HasConf (World.reopen pt.1 pt.2) := by
    intro pt' hpt
    obtain rfl := List.mem_singleton.mp hpt
    exact ⟨cs, hcs⟩
  exact hreopened.putConfState (hfit cs hcs)

end PlacementCenter.Raft
