import PlacementCenter.Storage.StoreRuns

/-!
# Client keys among the Raft records

The keys of the clients lie verbatim in the column family of the log store. A client key that is
not the name of a record and the records do not interfere; a client key that is one does.

## Main definitions

* `SameRaftReads w w'`: the log store reads the same from both worlds
* `Action`: the writes of the clients and the operations of the log store
* `KeyIsSeparate key`: the key and the log store do not interfere

## Main results

* `get_runActions`: after any actions, a client reads what the clients wrote
* `keyIsSeparate_iff`: a key is separate exactly when it is not the name of a record
-/

namespace PlacementCenter.Storage

open Rust Rust.Prost Raft Program

variable {ε : Type}

theorem cluster_set (now : UInt64) (key value : String) (w : World ε) :
    cluster (KvStorage.set now key value w).2 =
      (cluster w).insert (utf8 key) (kvRecord now value) :=
  cluster_putKey w _ _

theorem cluster_delete (key : String) (w : World ε) :
    cluster (KvStorage.delete key w).2 = (cluster w).erase (utf8 key) :=
  World.columns_delete_self w _ _

/-! ### What the log store reads -/

/-- Every reader of the log store returns the same from both worlds. -/
structure SameRaftReads (w w' : World ε) : Prop where
  hardState : (RaftMachineStorage.hardState w').1 = (RaftMachineStorage.hardState w).1
  confState : (RaftMachineStorage.confState w').1 = (RaftMachineStorage.confState w).1
  firstIndex : ∀ self : RaftMachineStorage, (self.firstIndex w').1 = (self.firstIndex w).1
  lastIndex : ∀ self : RaftMachineStorage, (self.lastIndex w').1 = (self.lastIndex w).1
  entryByIdx : ∀ idx,
    (RaftMachineStorage.entryByIdx idx w').1 = (RaftMachineStorage.entryByIdx idx w).1
  storedSnapshot :
    (RaftMachineStorage.storedSnapshot w').1 = (RaftMachineStorage.storedSnapshot w).1
  uncommitIndex :
    (RaftMachineStorage.readUncommitIndex w').1 = (RaftMachineStorage.readUncommitIndex w).1

theorem unwrapOk_run_eq_iff {α : Type} {o o' : Option α} {w w' : World ε} :
    ((unwrapOk o : Program (World ε) α) w).1 = ((unwrapOk o' : Program (World ε) α) w').1 ↔
      o = o' := by
  cases o <;> cases o' <;> simp

/-- The log store reads the same from worlds with the same records. -/
theorem sameRaftReads_of_records {w w' : World ε}
    (h : ∀ r : Record, (cluster w')[r.key]? = (cluster w)[r.key]?) : SameRaftReads w w' where
  hardState := by
    rw [RaftMachineStorage.hardState_run, RaftMachineStorage.hardState_run, unwrapOk_run_eq_iff]
    exact hardStateIn_congr (h .hardState)
  confState := by
    rw [RaftMachineStorage.confState_run, RaftMachineStorage.confState_run, unwrapOk_run_eq_iff]
    exact confStateIn_congr (h .confState)
  firstIndex self := by
    simp only [RaftMachineStorage.firstIndex_run, firstIndexIn, indexIn_congr (h .firstIndex)]
  lastIndex self := by
    simp only [RaftMachineStorage.lastIndex_run, lastIndexIn, indexIn_congr (h .lastIndex)]
  entryByIdx idx := by
    rw [RaftMachineStorage.entryByIdx_run, RaftMachineStorage.entryByIdx_run, unwrapOk_run_eq_iff]
    exact entryIn_congr (h (.entry idx))
  storedSnapshot := by
    rw [RaftMachineStorage.storedSnapshot_run, RaftMachineStorage.storedSnapshot_run,
      unwrapOk_run_eq_iff]
    exact snapshotIn_congr (h .snapshot)
  uncommitIndex := by
    simp only [RaftMachineStorage.readUncommitIndex_run, uncommitIn_congr (h .uncommit)]

/-! ### What a client reads -/

/-- A write of a client, or an operation of the log store in any in-memory state. -/
inductive Action where
  | set (now : UInt64) (key value : String)
  | delete (key : String)
  | raft (self : RaftMachineStorage) (op : RaftOp)

/-- The world an action leaves, also when it panics. -/
def Action.world (w : World ε) : Action → World ε
  | set now key value => (KvStorage.set now key value w).2
  | delete key => (KvStorage.delete key w).2
  | raft self op => (op.run self w).2

/-- The world some actions leave. -/
def runActions (actions : List Action) (w : World ε) : World ε := actions.foldl Action.world w

/-- What `get key` returns after an action, by what it returned before. Only the writes of the
clients to `key` count. -/
def Action.valueAfter (key : String) (value : Except RobustMQError (Option String)) :
    Action → Except RobustMQError (Option String)
  | set _ k v => if k = key then .ok (some v) else value
  | delete k => if k = key then .ok none else value
  | raft _ _ => value

/-- A key outside the records, and the log store, do not interfere: a write of the client leaves
what the log store reads, and the client reads what the clients wrote. -/
structure KeyIsSeparate (ε : Type) (key : String) : Prop where
  set_keeps : ∀ (now : UInt64) (value : String) (w : World ε), value ≠ "" →
    SameRaftReads w (KvStorage.set now key value w).2
  delete_keeps : ∀ w : World ε, SameRaftReads w (KvStorage.delete key w).2
  get_eq : ∀ (actions : List Action) (w : World ε),
    (KvStorage.get key (runActions actions w)).1 =
      .ok (actions.foldl (Action.valueAfter key) (kvIn (cluster w) key))

theorem kvIn_action {key : String} (hk : ¬ IsRaftKey key) (a : Action) (w : World ε) :
    kvIn (cluster (a.world w)) key = a.valueAfter key (kvIn (cluster w) key) := by
  cases a with
  | set now k v =>
    rw [Action.world, cluster_set, Action.valueAfter]
    split_ifs with h
    · rw [h, kvIn_insert_self]
    · exact kvIn_insert_ne _ _ (by simpa using h)
  | delete k =>
    rw [Action.world, cluster_delete, Action.valueAfter]
    split_ifs with h
    · rw [h, kvIn_erase_self]
    · exact kvIn_erase_ne _ (by simpa using h)
  | raft self op =>
    -- No record is under the key, so its bytes stay.
    have hrec : KeptByRecords op.Writes fun w' : World ε =>
        (cluster w')[utf8 key]? = (cluster w)[utf8 key]? := by
      intro w' r text _ hw'
      have hne : r.key ≠ utf8 key := fun h => hk ⟨r, utf8_injective h⟩
      rw [cluster_putKey, OrdMap.lookup_insert_ne _ _ hne]
      exact hw'
    exact kvIn_congr (op.keeps hrec self w rfl)

/-- **After any actions, a client reads what the clients wrote**, under a key that is not the name
of a record. -/
theorem get_runActions {key : String} (hk : ¬ IsRaftKey key) (actions : List Action)
    (w : World ε) :
    (KvStorage.get key (runActions actions w)).1 =
      .ok (actions.foldl (Action.valueAfter key) (kvIn (cluster w) key)) := by
  rw [KvStorage.get_run]
  refine congrArg Outcome.ok ?_
  induction actions generalizing w with
  | nil => rfl
  | cons a actions ih =>
    rw [runActions, List.foldl_cons, List.foldl_cons, ← kvIn_action hk]
    exact ih (a.world w)

/-! ### Keys that are names of records -/

/-- A deletion of the only record leaves nothing. -/
theorem cluster_delete_record (r : Record) (v : Bytes) :
    cluster (KvStorage.delete r.name (putKey (World.empty : World ε) r.key v)).2 = ∅ := by
  refine Std.ExtTreeMap.ext_getElem? fun k => ?_
  rw [cluster_delete, cluster_putKey, ← Record.key]
  by_cases hk : r.key = k
  · subst hk
    simp
  · rw [OrdMap.lookup_erase_ne _ hk, OrdMap.lookup_insert_ne _ _ hk]
    rfl

/-- A deletion under the name of a record changes what the log store reads. -/
theorem not_sameRaftReads_delete (r : Record) :
    ∃ w : World ε, ¬ SameRaftReads w (KvStorage.delete r.name w).2 := by
  -- a record that is stored and deleted reads as if it had never been stored
  cases r with
  | firstIndex =>
    refine ⟨putRecord World.empty .firstIndex (5 : UInt64), fun h => ?_⟩
    have := h.firstIndex ⟨∅, false, .default⟩
    simp only [RaftMachineStorage.firstIndex_run, firstIndexIn, putRecord, cluster_delete_record]
      at this
    simp [SnapshotMetadata.default] at this
  | lastIndex =>
    refine ⟨putRecord World.empty .lastIndex (5 : UInt64), fun h => ?_⟩
    have := h.lastIndex ⟨∅, false, .default⟩
    simp only [RaftMachineStorage.lastIndex_run, lastIndexIn, putRecord, cluster_delete_record]
      at this
    simp [SnapshotMetadata.default] at this
  | hardState =>
    refine ⟨putRecord World.empty .hardState (encodeToVec (⟨1, 0, 0⟩ : HardState)), fun h => ?_⟩
    have := h.hardState
    rw [RaftMachineStorage.hardState_run, RaftMachineStorage.hardState_run, unwrapOk_run_eq_iff,
      putRecord, cluster_delete_record] at this
    simp [HardState.default, Message.default] at this
  | confState =>
    let cs : ConfState := { ConfState.default with autoLeave := true }
    refine ⟨putRecord World.empty .confState (encodeToVec cs), fun h => ?_⟩
    have := h.confState
    have hfit : ∀ f ∈ Message.fields cs, f.Fits := fits_of_length (by decide +kernel)
    rw [RaftMachineStorage.confState_run, RaftMachineStorage.confState_run, unwrapOk_run_eq_iff,
      putRecord, cluster_delete_record, cluster_putKey, confStateIn, confStateIn,
      messageIn_insert_self _ _ _ hfit] at this
    exact absurd this (by decide +kernel)
  | entry idx =>
    refine ⟨putRecord World.empty (.entry idx) (encodeToVec Entry.default), fun h => ?_⟩
    have := h.entryByIdx idx
    rw [RaftMachineStorage.entryByIdx_run, RaftMachineStorage.entryByIdx_run, unwrapOk_run_eq_iff,
      putRecord, cluster_delete_record] at this
    simp at this
  | uncommit =>
    let ui : HashMap UInt64 Int8 := (∅ : HashMap UInt64 Int8).insert 1 1
    refine ⟨putRecord World.empty .uncommit (Bincode.serialize ui), fun h => ?_⟩
    have := h.uncommitIndex
    have hread : Bincode.deserialize (α := HashMap UInt64 Int8) (Bincode.serialize ui) = some ui :=
      Bincode.deserialize_serialize (by decide +kernel)
    simp only [RaftMachineStorage.readUncommitIndex_run, putRecord, cluster_delete_record,
      cluster_putKey, uncommitIn, readRecord_empty, readRecord_insert_self, hread,
      Option.getD_some, Outcome.ok.injEq] at this
    exact absurd (congrArg (fun m => m[(1 : UInt64)]?) this) (by decide +kernel)
  | snapshot =>
    let s : Snapshot := { Snapshot.default with metadata := some .default }
    refine ⟨putRecord World.empty .snapshot (encodeToVec s), fun h => ?_⟩
    have := h.storedSnapshot
    have hfit : ∀ f ∈ Message.fields s, f.Fits := fits_of_length (by decide +kernel)
    rw [RaftMachineStorage.storedSnapshot_run, RaftMachineStorage.storedSnapshot_run,
      unwrapOk_run_eq_iff, putRecord, cluster_delete_record, cluster_putKey, snapshotIn, snapshotIn,
      messageIn_insert_self _ _ _ hfit] at this
    exact absurd this (by decide +kernel)

/-- **A key and the log store do not interfere exactly when the key is not the name of a
record.** -/
theorem keyIsSeparate_iff (key : String) : KeyIsSeparate ε key ↔ ¬ IsRaftKey key := by
  constructor
  · rintro h ⟨r, rfl⟩
    obtain ⟨w, hw⟩ := not_sameRaftReads_delete (ε := ε) r
    exact hw (h.delete_keeps w)
  · intro hk
    have ne : ∀ r : Record, utf8 key ≠ r.key := fun r h => hk ⟨r, utf8_injective h.symm⟩
    refine ⟨fun now value w _ => ?_, fun w => ?_, get_runActions hk⟩
    · refine sameRaftReads_of_records fun r => ?_
      rw [cluster_set, OrdMap.lookup_insert_ne _ _ (ne r)]
    · refine sameRaftReads_of_records fun r => ?_
      rw [cluster_delete, OrdMap.lookup_erase_ne _ (ne r)]

/-- The client key `/raft/hard_state` is not separate: setting it makes the hard state
unreadable, deleting it forgets the vote. -/
theorem hardState_key_not_separate :
    ¬ KeyIsSeparate Unit "/raft/hard_state" ∧
      (let w : World Unit := putRecord World.empty .hardState (encodeToVec (⟨1, 2, 0⟩ : HardState))
       (RaftMachineStorage.hardState w).1 = .ok ⟨1, 2, 0⟩ ∧
        (RaftMachineStorage.hardState (KvStorage.set 0 "/raft/hard_state" "1" w).2).1.isOk = false ∧
        (RaftMachineStorage.hardState (KvStorage.delete "/raft/hard_state" w).2).1 =
          .ok ⟨0, 0, 0⟩) := by
  refine ⟨fun h => ?_, by decide +kernel, by decide +kernel, by decide +kernel⟩
  have hw := (h.delete_keeps
    (putRecord World.empty .hardState (encodeToVec (⟨1, 2, 0⟩ : HardState)))).hardState
  exact absurd hw (by decide +kernel)

end PlacementCenter.Storage
