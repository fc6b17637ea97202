import PlacementCenter.Storage.LogRuns

/-!
# The log store refines a log

The log store against a list of entries. An append drops the entries of the list from its first
index on and adds its own; commits, snapshots and restarts leave the list. The store keeps the
list under the keys of its entries, with the entries that were cut off left behind above the last
index.

## Main definitions

* `refAppend log es`: the list after an append
* `LogOp.Admitted`: the operations of a run, with the bounds the store checks
* `RefRun self w log committed`: a run from the empty database; `committed` once an index was
* `RefinesLog`: what the store answers, in terms of the list

## Main results

* `LogInv.admitted`: an admitted operation completes
* `refinesLog_of_run`: every store a run reaches refines the list of the run
-/

namespace PlacementCenter.Storage

open Rust Raft Program

/-! ### The list -/

/-- The list after an append: its entries from the first appended index on are dropped. -/
def refAppend (log : List Entry) : List Entry → List Entry
  | [] => log
  | e :: es => log.filter (fun e' => e'.index < e.index) ++ e :: es

/-- The list an operation leaves. -/
def LogOp.refStep (log : List Entry) : LogOp → List Entry
  | raft (.append es) => refAppend log es
  | _ => log

/-- The indices of some entries follow each other. -/
def Consecutive (es : List Entry) : Prop :=
  ∃ first, indices es = List.range' first es.length

/-- The operations of a run. Appended entries follow each other, from an index between the two
bounds of the log on, and stay below the largest index; a committed index lies in the log; a
snapshot is taken after a commit. -/
def LogOp.Admitted (self : RaftMachineStorage) (m : ColumnFamily) (committed : Bool) :
    LogOp → Prop
  | raft (.append es) =>
    Consecutive es ∧ RaftMachineStorage.AppendGuard self m es ∧ ∀ e ∈ es, e.index.toNat < 2 ^ 64 - 1
  | raft (.commmitIndex idx) => 1 ≤ idx ∧ idx ≤ lastIndexIn self m
  | raft .createSnapshot => committed = true
  | restart => True
  | _ => False

/-- The operation commits an index. -/
def LogOp.isCommit : LogOp → Bool
  | raft (.commmitIndex _) => true
  | _ => false

variable {ε : Type}

/-- A run of admitted operations, from the empty database. -/
inductive RefRun : RaftMachineStorage → World ε → List Entry → Bool → Prop where
  | start {self w} (h : Completes RaftMachineStorage.new World.empty self w) :
    RefRun self w [] false
  | step {self self' w w' log committed} (op : LogOp) (hr : RefRun self w log committed)
    (ha : op.Admitted self (cluster w) committed) (h : Completes (op.run self) w self' w') :
    RefRun self' w' (op.refStep log) (committed || op.isCommit)

/-- The payload of a snapshot of the contents is longer than any allocation. -/
def ExceedsAllocation (m : ColumnFamily) : Prop :=
  2 ^ 63 ≤ (Bincode.serialize (dumpOf m)).length

/-- What the store answers: the admitted operations complete, unless a snapshot is longer than any
allocation; the last index is that of the list; and between the two bounds every index has the
entry of the list. -/
structure RefinesLog (core : RaftMachineStorage) (w : World ε) (log : List Entry)
    (committed : Bool) : Prop where
  completes : ∀ op : LogOp, op.Admitted core (cluster w) committed →
    (∃ later t, Completes (op.run core) w later t) ∨
      op = .raft .createSnapshot ∧ ExceedsAllocation (cluster w)
  no_gap : indices log = List.range' 1 log.length
  last : Completes core.lastIndex w ((log.getLast?.map fun e => e.index).getD 0) w
  entry : ∀ first last i : UInt64, Completes core.firstIndex w first w →
    Completes core.lastIndex w last w → first ≤ i → i ≤ last →
      ∃ e ∈ log, e.index = i ∧ Completes (RaftMachineStorage.entryByIdx i) w (some e) w

/-! ### The invariant -/

/-- The records hold the list, and no index is `0` or the largest one where this would matter. -/
structure LogInv (core : RaftMachineStorage) (m : ColumnFamily) (log : List Entry)
    (committed : Bool) : Prop where
  stored : StoredLog m log
  bound : log.length < 2 ^ 64 - 1
  first : readRecord UInt64 m .firstIndex = .ok none ∨
    ∃ fi, readRecord UInt64 m .firstIndex = .ok (some fi) ∧ fi ≠ 0
  hardState : ∃ hs, hardStateIn m = some hs ∧ hs.commit.toNat < 2 ^ 64 - 1 ∧
    (committed = true → hs.commit ≠ 0) ∧ (committed = false → hs.commit = 0)
  confState : ∃ cs, confStateIn m = some cs
  snapshot : core.snapshotMetadata.index.toNat < 2 ^ 64 - 1
  uncommitted : committed = false → core.snapshotMetadata.index = 0
  empty : log = [] → committed = false

section invariant

variable {self self' : RaftMachineStorage} {w w' : World ε} {log : List Entry} {committed : Bool}

/-- The entries below an index are as many as there are indices below it. -/
theorem StoredLog.filter_lt {m : ColumnFamily} (h : StoredLog m log) (k : UInt64) :
    log.filter (fun e => e.index < k) = log.take (k.toNat - 1) := by
  have htake : ∀ e ∈ log.take (k.toNat - 1), decide (e.index < k) = true := by
    intro e he
    have hle := h.index_lt_of_mem_take he
    have hpos := (h.length_le (List.mem_of_mem_take he)).1
    rw [decide_eq_true_eq, UInt64.lt_iff_toNat_lt]
    omega
  have hdrop : ∀ e ∈ log.drop (k.toNat - 1), ¬ decide (e.index < k) = true := by
    intro e he
    have hle := h.le_index_of_mem_drop he
    rw [decide_eq_true_eq, UInt64.lt_iff_toNat_lt]
    omega
  calc log.filter (fun e => e.index < k)
      = (log.take (k.toNat - 1) ++ log.drop (k.toNat - 1)).filter (fun e => e.index < k) := by
        rw [List.take_append_drop]
    _ = log.take (k.toNat - 1) := by
        rw [List.filter_append, List.filter_eq_self.mpr htake, List.filter_eq_nil_iff.mpr hdrop,
          List.append_nil]

/-- Under the numbering, an append keeps as many entries as there are indices below its first. -/
theorem refAppend_eq_appendLog {m : ColumnFamily} (h : StoredLog m log) (es : List Entry) :
    refAppend log es = appendLog log es := by
  cases es with
  | nil => rfl
  | cons e es => rw [refAppend, appendLog, h.filter_lt]

/-- The last index of the store is that of the list. -/
theorem LogInv.lastIndexIn_eq (h : LogInv self (cluster w) log committed) :
    lastIndexIn self (cluster w) = (log.getLast?.map fun e => e.index).getD 0 := by
  rw [lastIndexIn, indexIn, h.stored.last]
  cases hl : log.getLast? with
  | none =>
    have hlog : log = [] := by simpa using hl
    exact h.uncommitted (h.empty hlog)
  | some e => rfl

theorem LogInv.toNat_lastIndexIn (h : LogInv self (cluster w) log committed) :
    (lastIndexIn self (cluster w)).toNat = log.length := by
  rw [h.lastIndexIn_eq]
  cases hl : log.getLast? with
  | none =>
    obtain rfl : log = [] := by simpa using hl
    rfl
  | some e => exact h.stored.getLast_index hl

/-- The first index is not `0`. -/
theorem LogInv.firstIndexIn_ne_zero (h : LogInv self (cluster w) log committed) :
    firstIndexIn self (cluster w) ≠ 0 := by
  rw [firstIndexIn, indexIn]
  rcases h.first with hf | ⟨fi, hf, hz⟩
  · rw [hf]
    intro h0
    have := congrArg UInt64.toNat h0
    have hs := h.snapshot
    have hone : (1 : UInt64).toNat = 1 := rfl
    rw [UInt64.toNat_add, hone, Nat.mod_eq_of_lt (by omega)] at this
    simp at this
  · rw [hf]
    exact hz

/-- Every index of the log has its entry. -/
theorem LogInv.entry (h : LogInv self (cluster w) log committed) {i : UInt64} (hi : i ≠ 0)
    (hle : i ≤ lastIndexIn self (cluster w)) :
    ∃ e ∈ log, e.index = i ∧ entryIn (cluster w) i = some (some e) := by
  rw [UInt64.le_iff_toNat_le, h.toNat_lastIndexIn] at hle
  obtain ⟨e, hget, hidx, hent⟩ := h.stored.entry_at hi hle
  exact ⟨e, List.mem_of_getElem? hget, hidx, hent⟩

/-- **An admitted operation completes**, unless a snapshot is longer than any allocation. -/
theorem LogInv.admitted (h : LogInv self (cluster w) log committed) {op : LogOp}
    (ha : op.Admitted self (cluster w) committed) :
    (∃ self' w', Completes (op.run self) w self' w') ∨
      op = .raft .createSnapshot ∧ ExceedsAllocation (cluster w) := by
  obtain ⟨hs, hhs, -⟩ := h.hardState
  obtain ⟨cs, hcs⟩ := h.confState
  have hmeta : metadataIn (cluster w) =
      some { confState := some cs, index := hs.commit, term := hs.term } :=
    metadataIn_eq_some.mpr ⟨hs, cs, hhs, hcs, rfl⟩
  -- an operation panics only on an index it does not find, or on a dump without room
  cases op with
  | restart =>
    exact .inl ⟨_, _, RaftMachineStorage.completes_new.mpr ⟨_, hmeta, rfl, rfl⟩⟩
  | raft op =>
    cases op with
    | append es =>
      refine .inl ?_
      cases es with
      | nil => exact ⟨self, w, rfl⟩
      | cons e es =>
        exact ⟨_, _, completes_bind.mpr ⟨_, _, RaftMachineStorage.append_run_cons e es ha.2.1,
          completes_pure.mpr ⟨rfl, rfl⟩⟩⟩
    | commmitIndex idx =>
      have hz : idx ≠ 0 := by
        rintro rfl
        exact absurd ha.1 (by decide)
      obtain ⟨e, -, -, he⟩ := h.entry hz ha.2
      have hrun : Completes (self.commmitIndex idx) w (.ok (), self.afterCommit idx)
          (putRecord ((self.afterCommit idx).uncommitted w) .hardState
            (Prost.encodeToVec (RaftMachineStorage.committedState hs e idx))) := by
        rw [Completes, RaftMachineStorage.commmitIndex_run, he, hhs]
      exact .inl ⟨_, _, completes_bind.mpr ⟨_, _, hrun, completes_pure.mpr ⟨rfl, rfl⟩⟩⟩
    | createSnapshot =>
      by_cases hfit : (Bincode.serialize (dumpOf (cluster w))).length < 2 ^ 63
      · obtain ⟨s, hs⟩ : ∃ s, RaftMachineStorage.snapshotOf (cluster w) = some s := by
          rw [RaftMachineStorage.snapshotOf, hmeta, ByteVec.ofBytes, dif_pos hfit]
          exact ⟨_, rfl⟩
        exact .inl ⟨_, _, RaftMachineStorage.completes_createSnapshot.mpr ⟨s, hs, rfl, rfl⟩⟩
      · exact .inr ⟨rfl, Nat.not_lt.mp hfit⟩
    | saveHardState hs => exact absurd ha id
    | setHardStateCommit commit => exact absurd ha id
    | saveConfState cs => exact absurd ha id

/-- **The invariant gives the answers.** -/
theorem LogInv.refinesLog (h : LogInv self (cluster w) log committed) :
    RefinesLog self w log committed where
  completes op ha := h.admitted ha
  no_gap := h.stored.numbered
  last := by
    rw [Completes, RaftMachineStorage.lastIndex_run, h.lastIndexIn_eq]
  entry first last i hf hl hlo hhi := by
    obtain ⟨rfl, -⟩ := (completes_of_run (RaftMachineStorage.firstIndex_run self w)).mp hf
    obtain ⟨rfl, -⟩ := (completes_of_run (RaftMachineStorage.lastIndex_run self w)).mp hl
    have hz : i ≠ 0 := by
      rintro rfl
      exact h.firstIndexIn_ne_zero (UInt64.toNat_inj.mp
        (Nat.le_zero.mp (UInt64.le_iff_toNat_le.mp hlo)))
    obtain ⟨e, he, hidx, hent⟩ := h.entry hz hhi
    refine ⟨e, he, hidx, ?_⟩
    rw [Completes, RaftMachineStorage.entryByIdx_run, hent]
    rfl

/-! ### The steps keep the invariant -/

theorem LogInv.start (h : Completes RaftMachineStorage.new (World.empty : World ε) self w) :
    LogInv self (cluster w) [] false := by
  obtain ⟨metadata, hm, rfl, rfl⟩ := RaftMachineStorage.completes_new.mp h
  obtain rfl : metadata = _ := (Option.some_inj.mp (hm.symm.trans rfl))
  exact {
    stored := .empty
    bound := by simp
    first := .inl (readRecord_empty _)
    hardState := ⟨_, hardStateIn_empty, by decide, by simp, fun _ => rfl⟩
    confState := ⟨_, confStateIn_empty⟩
    snapshot := (by decide : (0 : UInt64).toNat < 2 ^ 64 - 1)
    uncommitted := fun _ => rfl
    empty := fun _ => rfl }

theorem LogInv.append (h : LogInv self (cluster w) log committed) {es : List Entry}
    (ha : (LogOp.raft (.append es)).Admitted self (cluster w) committed)
    (hc : Completes ((RaftOp.append es).run self) w self' w') :
    LogInv self' (cluster w') (refAppend log es) committed := by
  obtain ⟨⟨r, core⟩, t, hr, hc⟩ := completes_bind.mp hc
  obtain ⟨rfl, rfl⟩ := completes_pure.mp hc
  obtain ⟨-, ⟨rfl, rfl, rfl⟩ | ⟨hne, hg, rfl, rfl⟩⟩ := RaftMachineStorage.completes_append hr
  · exact h
  · obtain ⟨e, es, rfl⟩ := List.exists_cons_of_ne_nil hne
    obtain ⟨⟨first, hfirst⟩, -, hmax⟩ := ha
    obtain ⟨hlo, hhi⟩ := hg e rfl
    have hpos : e.index ≠ 0 := by
      intro h0
      rw [h0, UInt64.le_iff_toNat_le] at hlo
      exact h.firstIndexIn_ne_zero (UInt64.toNat_inj.mp (Nat.le_zero.mp hlo))
    have hpos' : e.index.toNat ≠ 0 := fun h0 => hpos (UInt64.toNat_inj.mp h0)
    have hcont : Contiguous (e :: es) := by
      refine ⟨first, ?_, hfirst⟩
      rw [indices, List.map_cons, List.length_cons, List.range'_succ] at hfirst
      have := (List.cons.inj hfirst).1
      omega
    -- the assertions of the append leave no gap
    have hle : e.index.toNat ≤ log.length + 1 := by
      have hhi := UInt64.le_iff_toNat_le.mp hhi
      rw [UInt64.toNat_add, h.toNat_lastIndexIn] at hhi
      exact Nat.le_trans hhi (Nat.mod_le _ _)
    have hstored := h.stored.append hcont hle
    -- the other records stay as they are
    have hkeep : ∀ r : Record, (∀ idx, r ≠ .entry idx) → r ≠ .lastIndex →
        (cluster (appended w (e :: es)))[r.key]? = (cluster w)[r.key]? := by
      intro r he hl
      exact lookup_appended (by simpa using hl) (e :: es) (fun e' _ => by simpa using he _) w
    rw [refAppend_eq_appendLog h.stored]
    refine { stored := ?_, bound := ?_, first := ?_, hardState := ?_, confState := ?_,
             snapshot := h.snapshot, uncommitted := h.uncommitted, empty := ?_ }
    · rw [cluster_putRecord]
      exact hstored.insert_record (by simp) (by simp) _
    · obtain ⟨e', he', hl⟩ := StoredLog.getLast?_appendLog log e es
      rw [← hstored.getLast_index hl]
      exact hmax e' (List.mem_of_getLast? he')
    · rw [cluster_putRecord, readRecord_insert_record _ (by simp),
        readRecord_congr (hkeep .firstIndex (by simp) (by simp))]
      exact h.first
    · rw [cluster_putRecord, hardStateIn_insert_record _ (by simp),
        hardStateIn_congr (hkeep .hardState (by simp) (by simp))]
      exact h.hardState
    · rw [cluster_putRecord, confStateIn_insert_record _ (by simp),
        confStateIn_congr (hkeep .confState (by simp) (by simp))]
      exact h.confState
    · intro hnil
      simp [appendLog] at hnil

theorem LogInv.commmitIndex (h : LogInv self (cluster w) log committed) {idx : UInt64}
    (ha : (LogOp.raft (.commmitIndex idx)).Admitted self (cluster w) committed)
    (hc : Completes ((RaftOp.commmitIndex idx).run self) w self' w') :
    LogInv self' (cluster w') log true := by
  obtain ⟨⟨r, core⟩, t, hr, hc⟩ := completes_bind.mp hc
  obtain ⟨rfl, rfl⟩ := completes_pure.mp hc
  obtain ⟨e, hs, -, hhs, -, rfl, rfl⟩ := RaftMachineStorage.completes_commmitIndex hr
  have hidx := UInt64.le_iff_toNat_le.mp ha.2
  rw [h.toNat_lastIndexIn] at hidx
  have hpos := UInt64.le_iff_toNat_le.mp ha.1
  have hone : (1 : UInt64).toNat = 1 := rfl
  have hbound := h.bound
  -- only the uncommitted indices and the hard state are written
  refine { stored := ?_, bound := hbound, first := ?_, hardState := ?_, confState := ?_,
           snapshot := h.snapshot, uncommitted := by simp, empty := ?_ }
  · rw [cluster_putRecord, RaftMachineStorage.uncommitted, cluster_putRecord]
    exact (h.stored.insert_record (by simp) (by simp) _).insert_record (by simp) (by simp) _
  · simp only [RaftMachineStorage.uncommitted, cluster_putRecord]
    rw [readRecord_insert_record _ (by simp), readRecord_insert_record _ (by simp)]
    exact h.first
  · refine ⟨RaftMachineStorage.committedState hs e idx, ?_, ?_, fun _ h0 => ?_, by simp⟩
    · rw [cluster_putRecord, hardStateIn_insert_self]
    · simp only [RaftMachineStorage.committedState]
      omega
    · rw [show idx = 0 from h0] at hpos
      simp at hpos
  · simpa [RaftMachineStorage.uncommitted] using h.confState
  · rintro rfl
    simp only [List.length_nil] at hidx
    omega

theorem LogInv.createSnapshot (h : LogInv self (cluster w) log committed)
    (ha : (LogOp.raft .createSnapshot).Admitted self (cluster w) committed)
    (hc : Completes (RaftOp.createSnapshot.run self) w self' w') :
    LogInv self' (cluster w') log committed := by
  obtain ⟨s, hsnap, rfl, rfl⟩ := RaftMachineStorage.completes_createSnapshot.mp hc
  obtain ⟨hs, cs, hhs, -, -, hm⟩ := RaftMachineStorage.snapshotOf_eq_some hsnap
  obtain ⟨hs', hhs', hmax, hpos, -⟩ := h.hardState
  obtain rfl : hs = hs' := Option.some_inj.mp (hhs.symm.trans hhs')
  -- the snapshot ends at the commit index, which becomes the first one
  have hidx : s.getMetadata.index = hs.commit := by
    rw [Snapshot.getMetadata, hm, Option.getD_some]
  have hcommitted : committed = true := ha
  refine { stored := ?_, bound := h.bound, first := .inr ⟨hs.commit, ?_, hpos hcommitted⟩,
           hardState := ?_, confState := ?_, snapshot := ?_, uncommitted := ?_, empty := h.empty }
  · simp only [cluster_putRecord]
    exact (h.stored.insert_record (by simp) (by simp) _).insert_record (by simp) (by simp) _
  · simp [hidx]
  · simpa using h.hardState
  · simpa using h.confState
  · rw [RaftMachineStorage.afterSnapshot, hidx]
    exact hmax
  · rw [hcommitted]
    simp

theorem LogInv.restart (h : LogInv self (cluster w) log committed)
    (hc : Completes RaftMachineStorage.new w self' w') :
    LogInv self' (cluster w') log committed := by
  obtain ⟨metadata, hm, rfl, rfl⟩ := RaftMachineStorage.completes_new.mp hc
  obtain ⟨hs, cs, hhs, -, rfl⟩ := metadataIn_eq_some.mp hm
  obtain ⟨hs', hhs', hmax, -, hzero⟩ := h.hardState
  obtain rfl : hs = hs' := Option.some_inj.mp (hhs.symm.trans hhs')
  exact { h with snapshot := hmax, uncommitted := hzero }

/-- The invariant of a run. -/
theorem logInv_of_run (h : RefRun self w log committed) : LogInv self (cluster w) log committed := by
  induction h with
  | start h => exact LogInv.start h
  | step op _ ha h ih =>
    cases op with
    | restart => simpa [LogOp.isCommit, LogOp.refStep] using ih.restart h
    | raft op =>
      cases op with
      | append es => simpa [LogOp.isCommit, LogOp.refStep] using ih.append ha h
      | commmitIndex idx => simpa [LogOp.isCommit, LogOp.refStep] using ih.commmitIndex ha h
      | createSnapshot => simpa [LogOp.isCommit, LogOp.refStep] using ih.createSnapshot ha h
      | saveHardState hs => exact absurd ha id
      | setHardStateCommit commit => exact absurd ha id
      | saveConfState cs => exact absurd ha id

/-- **Every store a run reaches refines the list of the run.** -/
theorem refinesLog_of_run (h : RefRun self w log committed) : RefinesLog self w log committed :=
  (logInv_of_run h).refinesLog

end invariant

/-! ### A tail that is replaced -/

/-- An entry of a term, without data. -/
def termEntry (term index : UInt64) : Entry := { Entry.default with term := term, index := index }

/-- Three entries are appended. -/
def withThree : RaftMachineStorage × World Unit :=
  finish ((LogOp.raft (.append [termEntry 1 1, termEntry 1 2, termEntry 1 3])).run emptyStore.1)
    emptyStore.2 (by decide +kernel)

/-- The first one is committed. -/
def withFirst : RaftMachineStorage × World Unit :=
  finish ((LogOp.raft (.commmitIndex 1)).run withThree.1) withThree.2 (by decide +kernel)

/-- The other two are replaced by one of the next term. -/
def withReplaced : RaftMachineStorage × World Unit :=
  finish ((LogOp.raft (.append [termEntry 2 2])).run withFirst.1) withFirst.2 (by decide +kernel)

/-- A snapshot is taken. -/
def withImage : RaftMachineStorage × World Unit :=
  finish ((LogOp.raft .createSnapshot).run withReplaced.1) withReplaced.2 (by decide +kernel)

/-- The store is opened again. -/
def withRestart : RaftMachineStorage × World Unit :=
  finish (LogOp.restart.run withImage.1) withImage.2 (by decide +kernel)

/-- After a tail was replaced, a snapshot and a restart, the store refines the list. -/
theorem refinesLog_replaced :
    RefinesLog withRestart.1 withRestart.2 [termEntry 1 1, termEntry 2 2] true := by
  have h₀ : RefRun emptyStore.1 emptyStore.2 [] false := .start (completes_finish _ _ _)
  have h₁ : RefRun withThree.1 withThree.2 [termEntry 1 1, termEntry 1 2, termEntry 1 3] false := by
    refine h₀.step (.raft (.append _)) ⟨⟨1, rfl⟩, ?_, by decide⟩ (completes_finish _ _ _)
    rintro e ⟨⟩
    decide +kernel
  have h₂ : RefRun withFirst.1 withFirst.2 _ true :=
    h₁.step (.raft (.commmitIndex 1)) ⟨by decide, by decide +kernel⟩ (completes_finish _ _ _)
  have h₃ : RefRun withReplaced.1 withReplaced.2 [termEntry 1 1, termEntry 2 2] true := by
    refine h₂.step (.raft (.append [termEntry 2 2])) ⟨⟨2, rfl⟩, ?_, by decide⟩
      (completes_finish _ _ _)
    rintro e ⟨⟩
    decide +kernel
  have h₄ : RefRun withImage.1 withImage.2 _ true :=
    h₃.step (.raft .createSnapshot) rfl (completes_finish _ _ _)
  exact refinesLog_of_run (h₄.step .restart trivial (completes_finish _ _ _))

end PlacementCenter.Storage
