import Mathlib.Data.List.Nodup
import Mathlib.Data.List.Perm.Subperm
import PlacementCenter.Raft.Restarts

/-!
# The uncommitted indices

The log store keeps the indices that were appended and not committed. An append adds the indices of
its entries, and removes none: where it replaces a longer tail of the log by a shorter one, the
indices above the new last one stay.

## Main definitions

* `ValidOp`: the appends and commits that the raft crate makes
* `UncommitRun ops self w`: a run of valid operations, from the empty database
* `UncommitExact`: the keys are the indices above the commit index, up to the last one
* `EndsHighest ops`: the last entry that was appended has the highest index

## Main results

* `UncommitRun.inv`: the keys are the indices above the commit index, up to the highest appended
* `uncommitExact_iff`: the keys are exact when the last entry that was appended is the highest, and
  the stored map is always that in memory
-/

namespace PlacementCenter.Raft

open Rust Rust.Prost Storage Program

variable {ε : Type}

/-- The entries of an operation. -/
def entriesOf : RaftOp → List Entry
  | .append entrys => entrys
  | _ => []

/-- The entries that were appended in some operations. -/
def appendedEntries (ops : List RaftOp) : List Entry := ops.flatMap entriesOf

/-- What the raft crate promises of an operation on the store `self` over the contents `m`: an
append is contiguous and starts above the commit index, and the next index is committed, up to the
last. -/
def ValidOp (self : RaftMachineStorage) (m : ColumnFamily) : RaftOp → Prop
  | .append entrys => Contiguous entrys ∧
      ∀ hs, hardStateIn m = some hs → ∀ e ∈ entrys.head?, hs.commit < e.index
  | .commmitIndex idx => idx ≤ lastIndexIn self m ∧
      ∀ hs, hardStateIn m = some hs → idx.toNat = hs.commit.toNat + 1
  | _ => False

/-- A run of valid operations, from the empty database. -/
inductive UncommitRun : List RaftOp → RaftMachineStorage → World ε → Prop where
  | start {self w} (h : Completes RaftMachineStorage.new World.empty self w) :
    UncommitRun [] self w
  | step {ops self self' w w'} (op : RaftOp) (hr : UncommitRun ops self w)
    (hv : ValidOp self (cluster w) op) (h : Completes (op.run self) w self' w') :
    UncommitRun (ops ++ [op]) self' w'

/-- The keys of the uncommitted indices are the indices above the commit index, up to the last. -/
def UncommitExact (self : RaftMachineStorage) (w : World ε) : Prop :=
  ∃ hs last, Completes RaftMachineStorage.hardState w hs w ∧ Completes self.lastIndex w last w ∧
    ∀ i, i ∈ self.uncommitIndex ↔ hs.commit < i ∧ i ≤ last

/-- The map that is decoded from the record is the one in memory. -/
def UncommitPersisted (self : RaftMachineStorage) (w : World ε) : Prop :=
  Completes RaftMachineStorage.readUncommitIndex w self.uncommitIndex w

/-- The last entry that was appended has the highest index. -/
def EndsHighest (ops : List RaftOp) : Prop :=
  ∀ e ∈ appendedEntries ops, ∀ l ∈ (appendedEntries ops).getLast?, e.index ≤ l.index

/-! ### Keys -/

/-- A map of numbers that does not hold `0` has fewer than `2 ^ 64` entries. -/
theorem size_lt_of_zero_notMem {ν : Type} {m : HashMap UInt64 ν} (h : (0 : UInt64) ∉ m) :
    m.size < 2 ^ 64 := by
  -- the keys are different numbers from `1` to `2 ^ 64 - 1`
  have hsub : m.keys.map UInt64.toNat ⊆ List.range' 1 (2 ^ 64 - 1) := by
    intro n hn
    obtain ⟨k, hk, rfl⟩ := List.mem_map.mp hn
    have hmem : k ∈ m := Std.ExtTreeMap.mem_keys.mp hk
    have hne : k.toNat ≠ 0 := fun h0 => h (by
      rwa [UInt64.toNat_inj.mp (h0.trans UInt64.toNat_zero.symm)] at hmem)
    have hlt := k.toNat_lt
    rw [List.mem_range'_1]
    omega
  have hnodup : (m.keys.map UInt64.toNat).Nodup := m.nodup_keys.map fun a b => UInt64.toNat_inj.mp
  have hle := (List.subperm_of_subset hnodup hsub).length_le
  rw [List.length_map, Std.ExtTreeMap.length_keys, List.length_range'] at hle
  omega

theorem mem_insertUncommitted {ui : HashMap UInt64 Int8} {es : List Entry} {i : UInt64} :
    i ∈ insertUncommitted ui es ↔ i ∈ ui ∨ ∃ e ∈ es, e.index = i := by
  induction es generalizing ui with
  | nil => simp [insertUncommitted]
  | cons e es ih =>
    have hins : i ∈ ui.insert e.index 1 ↔ e.index = i ∨ i ∈ ui := by
      rw [Std.ExtTreeMap.mem_insert, Std.LawfulEqCmp.compare_eq_iff_eq]
    change i ∈ insertUncommitted (ui.insert e.index 1) es ↔ _
    rw [ih, hins]
    simp only [List.mem_cons, exists_eq_or_imp]
    tauto

theorem mem_erase_uncommitted {ui : HashMap UInt64 Int8} {idx i : UInt64} :
    i ∈ ui.erase idx ↔ i ≠ idx ∧ i ∈ ui := by
  rw [Std.ExtTreeMap.mem_erase, ne_eq, Std.LawfulEqCmp.compare_eq_iff_eq, ne_comm]

/-- The indices of contiguous entries are those from the first one on. -/
theorem exists_index_iff {e : Entry} {es : List Entry} (hes : Contiguous (e :: es)) {i : UInt64} :
    (∃ d ∈ e :: es, d.index = i) ↔ e.index.toNat ≤ i.toNat ∧ ∃ d ∈ e :: es, i ≤ d.index := by
  have hindices := (StoredLog.indices_of_contiguous hes).2
  have hin : (∃ d ∈ e :: es, d.index = i) ↔ i.toNat ∈ indices (e :: es) := by
    rw [indices, List.mem_map]
    exact exists_congr fun d => and_congr_right fun _ => UInt64.toNat_inj.symm
  constructor
  · intro hi
    obtain ⟨d, hd, rfl⟩ := hi
    have hrange := hin.mp ⟨d, hd, rfl⟩
    rw [hindices, List.mem_range'_1] at hrange
    exact ⟨hrange.1, d, hd, UInt64.le_refl _⟩
  · rintro ⟨hle, d, hd, hdi⟩
    have hd : d.index.toNat ∈ indices (e :: es) := List.mem_map_of_mem hd
    rw [hindices, List.mem_range'_1] at hd
    rw [hin, hindices, List.mem_range'_1]
    rw [UInt64.le_iff_toNat_le] at hdi
    omega

/-! ### The invariant of a run -/

/-- The store after the operations `ops`: the keys go up to the highest index that was appended. -/
structure UncommitInv (ops : List RaftOp) (core : RaftMachineStorage) (m : ColumnFamily)
    (log : List Entry) (hs : HardState) : Prop where
  stored : StoredLog m log
  hardState : hardStateIn m = some hs
  commit_le : hs.commit.toNat ≤ log.length
  last : log.getLast? = (appendedEntries ops).getLast?
  keys : ∀ i, i ∈ core.uncommitIndex ↔
    hs.commit < i ∧ ∃ e ∈ appendedEntries ops, i ≤ e.index
  metadata : core.snapshotMetadata.index = 0

namespace UncommitInv

variable {ops : List RaftOp} {self self' : RaftMachineStorage} {w w' : World ε} {log : List Entry}
  {hs : HardState}

/-- The last index is the length of the log. -/
theorem lastIndexIn_eq {m : ColumnFamily} (h : UncommitInv ops self m log hs) :
    (lastIndexIn self m).toNat = log.length := by
  rw [lastIndexIn, indexIn, h.stored.last]
  rcases hl : log.getLast? with _ | e
  · rw [List.getLast?_eq_none_iff.mp hl]
    exact congrArg UInt64.toNat h.metadata
  · exact h.stored.getLast_index hl

/-- An index of the log is not above the highest that was appended. -/
theorem le_appended {m : ColumnFamily} (h : UncommitInv ops self m log hs) {i : UInt64}
    (hpos : 0 < i.toNat) (hi : i.toNat ≤ log.length) : ∃ e ∈ appendedEntries ops, i ≤ e.index := by
  rcases hl : log.getLast? with _ | e
  · rw [List.getLast?_eq_none_iff.mp hl] at hi
    exact absurd hi (Nat.not_le_of_gt hpos)
  · refine ⟨e, List.mem_of_getLast? (h.last ▸ hl), ?_⟩
    rw [UInt64.le_iff_toNat_le, h.stored.getLast_index hl]
    exact hi

/-- An empty append does nothing. -/
theorem append_nil (h : UncommitInv ops self (cluster w) log hs) :
    UncommitInv (ops ++ [.append []]) self (cluster w) log hs := by
  have happ : appendedEntries (ops ++ [.append []]) = appendedEntries ops := by
    simp [appendedEntries, entriesOf]
  refine ⟨h.stored, h.hardState, h.commit_le, ?_, ?_, h.metadata⟩
  · rw [happ, h.last]
  · rw [happ]
    exact h.keys

/-- **An append** adds the indices of its entries, and keeps those above them. -/
theorem append (h : UncommitInv ops self (cluster w) log hs) {e : Entry} {es : List Entry}
    (hes : Contiguous (e :: es)) (hstart : hs.commit < e.index)
    (hg : RaftMachineStorage.AppendGuard self (cluster w) (e :: es)) (v : Bytes) :
    UncommitInv (ops ++ [.append (e :: es)]) (self.afterAppend (e :: es))
      ((cluster (appended w (e :: es))).insert Record.uncommit.key v) (appendLog log (e :: es))
      hs := by
  have happ : appendedEntries (ops ++ [.append (e :: es)]) = appendedEntries ops ++ e :: es := by
    simp [appendedEntries, entriesOf]
  have hnext : e.index.toNat ≤ log.length + 1 := by
    have hle := (hg e rfl).2
    rw [UInt64.le_iff_toNat_le, UInt64.toNat_add, h.lastIndexIn_eq] at hle
    exact Nat.le_trans hle (Nat.mod_le _ _)
  -- the entries, the last index and the uncommitted indices, in this order
  have hstored := (h.stored.append hes hnext).insert_record (r := .uncommit) (by simp) (by simp) v
  obtain ⟨e', hlast, hlog⟩ := StoredLog.getLast?_appendLog log e es
  refine ⟨hstored, ?_, ?_, ?_, fun i => ?_, h.metadata⟩
  · rw [hardStateIn_insert_record _ (by simp), ← h.hardState]
    exact hardStateIn_congr (lookup_appended (by simp) _ (fun d _ => by simp) w)
  · have hle := ((exists_index_iff hes).mp ⟨e', List.mem_of_getLast? hlast, rfl⟩).1
    rw [← hstored.getLast_index hlog]
    rw [UInt64.lt_iff_toNat_lt] at hstart
    omega
  · rw [hlog, happ, List.getLast?_append, hlast, Option.some_or]
  · change i ∈ insertUncommitted self.uncommitIndex (e :: es) ↔ _
    rw [mem_insertUncommitted, h.keys, exists_index_iff hes, happ]
    rw [UInt64.lt_iff_toNat_lt] at hstart
    -- a key is one of before, or the index of a new entry
    constructor
    · rintro (⟨hi, d, hd, hle⟩ | ⟨hi, d, hd, hle⟩)
      · exact ⟨hi, d, List.mem_append_left _ hd, hle⟩
      · exact ⟨UInt64.lt_iff_toNat_lt.mpr (Nat.lt_of_lt_of_le hstart hi), d,
          List.mem_append_right _ hd, hle⟩
    · rintro ⟨hi, d, hd, hle⟩
      rcases List.mem_append.mp hd with hd | hd
      · exact .inl ⟨hi, d, hd, hle⟩
      · by_cases hfi : e.index.toNat ≤ i.toNat
        · exact .inr ⟨hfi, d, hd, hle⟩
        · -- below the new entries the log is the old one
          have hpos := UInt64.lt_iff_toNat_lt.mp hi
          exact .inl ⟨hi, h.le_appended (by omega) (by omega)⟩

/-- **A commit** takes its index out. -/
theorem commit (h : UncommitInv ops self (cluster w) log hs) {idx : UInt64} {e : Entry}
    (hidx : idx.toNat = hs.commit.toNat + 1) (hle : idx ≤ lastIndexIn self (cluster w))
    (v : Bytes) :
    UncommitInv (ops ++ [.commmitIndex idx]) (self.afterCommit idx)
      (((cluster w).insert Record.uncommit.key v).insert Record.hardState.key
        (recordBytes (encodeToVec (RaftMachineStorage.committedState hs e idx))))
      log (RaftMachineStorage.committedState hs e idx) := by
  have happ : appendedEntries (ops ++ [.commmitIndex idx]) = appendedEntries ops := by
    simp [appendedEntries, entriesOf]
  rw [UInt64.le_iff_toNat_le, h.lastIndexIn_eq] at hle
  refine ⟨?_, hardStateIn_insert_self _ _, hle, by rw [happ, h.last], fun i => ?_, h.metadata⟩
  · exact (h.stored.insert_record (r := .uncommit) (by simp) (by simp) v).insert_record
      (r := .hardState) (by simp) (by simp) _
  · change i ∈ self.uncommitIndex.erase idx ↔ idx < i ∧ _
    rw [mem_erase_uncommitted, h.keys, happ, ← and_assoc]
    refine and_congr_left fun _ => ?_
    rw [UInt64.lt_iff_toNat_lt, UInt64.lt_iff_toNat_lt, Ne, ← UInt64.toNat_inj]
    omega

end UncommitInv

/-! ### Runs -/

variable {ops : List RaftOp} {self : RaftMachineStorage} {w : World ε}

/-- A new store over the empty database. -/
theorem uncommitInv_start (h : Completes RaftMachineStorage.new (World.empty : World ε) self w) :
    UncommitInv [] self (cluster w) [] HardState.default := by
  obtain ⟨metadata, hmeta, rfl, rfl⟩ := RaftMachineStorage.completes_new.mp h
  have hindex : metadata.index = 0 := by
    rw [cluster_empty, metadataIn, hardStateIn_empty, confStateIn_empty] at hmeta
    cases hmeta
    rfl
  refine ⟨StoredLog.empty, hardStateIn_empty, Nat.le_refl 0, rfl, fun i => ?_, hindex⟩
  simp [uncommitIn, appendedEntries]

/-- **The keys after a run** go up to the highest index that was appended. -/
theorem UncommitRun.inv (h : UncommitRun ops self w) :
    ∃ log hs, UncommitInv ops self (cluster w) log hs := by
  induction h with
  | start h => exact ⟨[], _, uncommitInv_start h⟩
  | @step ops self self' w w' op hr hv h ih =>
    obtain ⟨log, hs, hinv⟩ := ih
    cases op with
    | append es =>
      obtain ⟨⟨r, core⟩, t, hrun, hend⟩ := completes_bind.mp h
      obtain ⟨rfl, rfl⟩ := completes_pure.mp hend
      obtain ⟨-, ⟨rfl, rfl, rfl⟩ | ⟨hne, hg, rfl, rfl⟩⟩ := RaftMachineStorage.completes_append hrun
      · exact ⟨log, hs, hinv.append_nil⟩
      · obtain ⟨e, es, rfl⟩ := List.exists_cons_of_ne_nil hne
        rw [cluster_putRecord]
        exact ⟨_, hs, hinv.append hv.1 (hv.2 hs hinv.hardState e rfl) hg _⟩
    | commmitIndex idx =>
      obtain ⟨⟨r, core⟩, t, hrun, hend⟩ := completes_bind.mp h
      obtain ⟨rfl, rfl⟩ := completes_pure.mp hend
      obtain ⟨e, hs', -, hhs, -, rfl, rfl⟩ := RaftMachineStorage.completes_commmitIndex hrun
      obtain rfl := Option.some_inj.mp (hinv.hardState.symm.trans hhs)
      rw [cluster_putRecord, RaftMachineStorage.uncommitted, cluster_putRecord]
      exact ⟨log, _, hinv.commit (hv.2 hs hhs) hv.1 _⟩
    -- the other operations are not in such a run
    | saveHardState hs => exact hv.elim
    | setHardStateCommit commit => exact hv.elim
    | saveConfState cs => exact hv.elim
    | createSnapshot => exact hv.elim

theorem UncommitRun.recordRun (h : UncommitRun ops self w) : RecordRun self w := by
  induction h with
  | start h => exact .start h
  | step op hr hv h ih => exact ih.step op h

/-- The index `0` is never appended above the commit index. -/
theorem UncommitInv.persisted {log : List Entry} {hs : HardState}
    (hinv : UncommitInv ops self (cluster w) log hs) (h : RecordRun self w) :
    UncommitPersisted self w := by
  have hzero : (0 : UInt64) ∉ self.uncommitIndex := fun h0 =>
    absurd ((hinv.keys 0).mp h0).1 (by simp)
  have hstored := uncommitIn_of_run h (size_lt_of_zero_notMem hzero)
  rw [UncommitPersisted, Completes, RaftMachineStorage.readUncommitIndex_run, hstored]

/-- What the code reads, without its programs. -/
theorem UncommitInv.uncommitExact_iff_keys {log : List Entry} {hs : HardState}
    (hinv : UncommitInv ops self (cluster w) log hs) :
    UncommitExact self w ↔
      ∀ i, i ∈ self.uncommitIndex ↔ hs.commit < i ∧ i ≤ lastIndexIn self (cluster w) := by
  constructor
  · rintro ⟨hs', last, hhs, hlast, hkeys⟩
    obtain ⟨hhs, -⟩ := (RaftMachineStorage.completes_hardState w).mp hhs
    obtain ⟨rfl, -⟩ := (completes_of_run (RaftMachineStorage.lastIndex_run self w)).mp hlast
    obtain rfl := Option.some_inj.mp (hinv.hardState.symm.trans hhs)
    exact hkeys
  · intro hkeys
    exact ⟨hs, _, (RaftMachineStorage.completes_hardState w).mpr ⟨hinv.hardState, rfl⟩,
      RaftMachineStorage.lastIndex_run self w, hkeys⟩

/-- The last entry that was appended has the last index. -/
theorem UncommitInv.endsHighest_iff {m : ColumnFamily} {log : List Entry} {hs : HardState}
    (hinv : UncommitInv ops self m log hs) :
    EndsHighest ops ↔ ∀ e ∈ appendedEntries ops, e.index ≤ lastIndexIn self m := by
  refine forall₂_congr fun e he => ?_
  rw [UInt64.le_iff_toNat_le, hinv.lastIndexIn_eq]
  constructor
  · intro h
    rcases hl : (appendedEntries ops).getLast? with _ | l
    · rw [List.getLast?_eq_none_iff.mp hl] at he
      cases he
    · rw [← hinv.stored.getLast_index (hinv.last.trans hl)]
      exact UInt64.le_iff_toNat_le.mp (h l hl)
  · intro h l hl
    rw [UInt64.le_iff_toNat_le, hinv.stored.getLast_index (hinv.last.trans hl)]
    exact h

/-- **The keys are exact** when the last entry that was appended has the highest index: where a
shorter tail replaced a longer one, the indices above it are left. The stored map is always the one
in memory. -/
theorem uncommitExact_iff (h : UncommitRun ops self w) :
    (UncommitExact self w ↔ EndsHighest ops) ∧ UncommitPersisted self w := by
  obtain ⟨log, hs, hinv⟩ := h.inv
  refine ⟨?_, hinv.persisted h.recordRun⟩
  rw [hinv.uncommitExact_iff_keys, hinv.endsHighest_iff]
  constructor
  · intro hkeys e he
    by_cases hc : hs.commit < e.index
    · exact ((hkeys e.index).mp ((hinv.keys e.index).mpr ⟨hc, e, he, UInt64.le_refl _⟩)).2
    · -- a committed index is one of the log
      have hle := UInt64.le_iff_toNat_le.mp (UInt64.not_lt.mp hc)
      rw [UInt64.le_iff_toNat_le, hinv.lastIndexIn_eq]
      exact Nat.le_trans hle hinv.commit_le
  · intro hends i
    rw [hinv.keys]
    refine and_congr_right fun hi => ⟨?_, fun hle => ?_⟩
    · rintro ⟨e, he, hle⟩
      exact UInt64.le_trans hle (hends e he)
    · rw [UInt64.le_iff_toNat_le, hinv.lastIndexIn_eq] at hle
      exact hinv.le_appended (Nat.lt_of_le_of_lt (Nat.zero_le _) (UInt64.lt_iff_toNat_lt.mp hi)) hle

/-! ### A tail that is replaced by a shorter one -/

def longTail : RaftOp :=
  .append [{ Entry.default with term := 1, index := 1 }, { Entry.default with term := 1, index := 2 }]

def shortTail : RaftOp := .append [{ Entry.default with term := 2, index := 1 }]

def afterLong : RaftMachineStorage × World Unit :=
  finish (longTail.run emptyStore.1) emptyStore.2 (by decide +kernel)

def afterShort : RaftMachineStorage × World Unit :=
  finish (shortTail.run afterLong.1) afterLong.2 (by decide +kernel)

def afterCommitOne : RaftMachineStorage × World Unit :=
  finish ((RaftOp.commmitIndex 1).run afterLong.1) afterLong.2 (by decide +kernel)

theorem uncommitRun_longTail : UncommitRun [longTail] afterLong.1 afterLong.2 := by
  have hstart : UncommitRun [] emptyStore.1 emptyStore.2 := .start (completes_finish _ _ new_isOk)
  refine hstart.step longTail ⟨⟨1, Nat.le_refl 1, rfl⟩, fun hs hhs e he => ?_⟩
    (completes_finish _ _ (by decide +kernel))
  have hcommit : hardStateIn (cluster emptyStore.2) = some HardState.default := by decide +kernel
  obtain rfl := Option.some_inj.mp (hcommit.symm.trans hhs)
  obtain rfl := Option.some_inj.mp he
  decide

/-- Two entries are replaced by one: the second index stays uncommitted, above the last one. -/
theorem uncommitted_above_last :
    UncommitRun [longTail, shortTail] afterShort.1 afterShort.2 ∧
      afterShort.1.uncommitIndex.keys = [1, 2] ∧
      Completes afterShort.1.lastIndex afterShort.2 1 afterShort.2 ∧
      ¬ UncommitExact afterShort.1 afterShort.2 := by
  have hrun : UncommitRun [longTail, shortTail] afterShort.1 afterShort.2 := by
    refine uncommitRun_longTail.step shortTail ⟨⟨1, Nat.le_refl 1, rfl⟩, fun hs hhs e he => ?_⟩
      (completes_finish _ _ (by decide +kernel))
    have hcommit : hardStateIn (cluster afterLong.2) = some HardState.default := by decide +kernel
    obtain rfl := Option.some_inj.mp (hcommit.symm.trans hhs)
    obtain rfl := Option.some_inj.mp he
    decide
  have hkeys : afterShort.1.uncommitIndex.keys = [1, 2] := by decide +kernel
  have hlast : lastIndexIn afterShort.1 (cluster afterShort.2) = 1 := by decide +kernel
  have hone : Completes afterShort.1.lastIndex afterShort.2 1 afterShort.2 := by
    rw [Completes, RaftMachineStorage.lastIndex_run, hlast]
  refine ⟨hrun, hkeys, hone, ?_⟩
  rintro ⟨hs, last, -, hl, hexact⟩
  obtain ⟨rfl, -⟩ := (completes_of_run hone).mp hl
  have htwo : (2 : UInt64) ∈ afterShort.1.uncommitIndex := by
    rw [← Std.ExtTreeMap.mem_keys, hkeys]
    exact List.mem_cons_of_mem _ List.mem_cons_self
  exact absurd ((hexact 2).mp htwo).2 (by decide)

/-- The rule on an append and a commit. -/
theorem uncommitExact_commitOne :
    (UncommitExact afterCommitOne.1 afterCommitOne.2 ↔ EndsHighest [longTail, .commmitIndex 1]) ∧
      UncommitPersisted afterCommitOne.1 afterCommitOne.2 := by
  have hcommit : hardStateIn (cluster afterLong.2) = some HardState.default := by decide +kernel
  refine uncommitExact_iff (uncommitRun_longTail.step (.commmitIndex 1) ⟨?_, fun hs hhs => ?_⟩
    (completes_finish _ _ (by decide +kernel)))
  · decide +kernel
  · obtain rfl := Option.some_inj.mp (hcommit.symm.trans hhs)
    rfl

end PlacementCenter.Raft
