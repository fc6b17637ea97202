import PlacementCenter.Storage.LogRuns
import PlacementCenter.Raft.RaftRocksDBStorage

/-!
# The term of an index

The term the store reports for an index, compared with the term of that entry in the log. The
store keeps the term of the last compacted entry nowhere: it reports the index of the snapshot in
its place, and a snapshot moves the first index to the commit index itself.

## Main definitions

* `logTerm log idx`: the term of an index of the log
* `TermSpec core w log`: what `term` promises, for every index
* `KeepsBoundary`: the steps after which the store still reports the right terms

## Main results

* `termSpec_of_run`: in a run whose steps keep the boundary, every reached store is right
* `termSpec_step_iff`: any other step breaks a term
-/

namespace PlacementCenter.Raft

open Rust Storage Program

variable {ε : Type} {self self' : RaftMachineStorage} {w w' : World ε} {log : List Entry}

/-- The term of an index of the log; `0` before its first entry. -/
def logTerm (log : List Entry) (idx : UInt64) : Option UInt64 :=
  if idx = 0 then some 0 else (log[idx.toNat - 1]?).map fun e => e.term

/-- What `term` promises: between the entry before the first one and the last one, the term of the
log; below, that the index is compacted; above, that it is unavailable. -/
structure TermSpec (core : RaftMachineStorage) (w : World ε) (log : List Entry) : Prop where
  inside : ∀ first last idx : UInt64, Completes core.firstIndex w first w →
    Completes core.lastIndex w last w → first.toNat - 1 ≤ idx.toNat → idx ≤ last →
      ∃ t, logTerm log idx = some t ∧ Completes (RaftRocksDBStorage.term core idx) w (.ok t) w
  below : ∀ first idx : UInt64, Completes core.firstIndex w first w →
    idx.toNat < first.toNat - 1 →
      Completes (RaftRocksDBStorage.term core idx) w (.error (.store .compacted)) w
  above : ∀ last idx : UInt64, Completes core.lastIndex w last w → last < idx →
    Completes (RaftRocksDBStorage.term core idx) w (.error (.store .unavailable)) w

/-- The entries an append may bring: numbered one after the other, and beyond the index of the
snapshot, or with an entry there whose term is its index. -/
def BeyondSnapshot (index : UInt64) (es : List Entry) : Prop :=
  Contiguous es ∧ ((∀ e ∈ es.head?, index < e.index) ∨ ∃ e ∈ es, e.index = index ∧ e.term = index)

/-- The steps that keep the boundary of the log. An append leaves the entry of the snapshot with
its index as the term. A snapshot is taken only before the first commit. A restart finds nothing
committed, or a last committed entry whose term is its index; without a first index above `0`, the
stored term is `0`. -/
def KeepsBoundary (core : RaftMachineStorage) (m : ColumnFamily) (log : List Entry) : LogOp → Prop
  | .raft (.append es) => BeyondSnapshot core.snapshotMetadata.index es
  | .raft .createSnapshot => ∀ hs, hardStateIn m = some hs → hs.commit = 0
  | .restart => ∀ hs, hardStateIn m = some hs →
    hs.commit = 0 ∨ logTerm log hs.commit = some hs.commit ∧
      (indexIn m .firstIndex (hs.commit + 1) ≠ 0 ∨ hs.term = 0)
  | _ => True

/-- The records and the snapshot of a store whose terms are right. -/
structure TermInv (core : RaftMachineStorage) (m : ColumnFamily) (log : List Entry) : Prop where
  stored : StoredLog m log
  first : readRecord UInt64 m .firstIndex = .ok none ∨
    readRecord UInt64 m .firstIndex = .ok (some 0)
  boundary : core.snapshotMetadata.index = 0 ∨
    logTerm log core.snapshotMetadata.index = some core.snapshotMetadata.index ∧
      (firstIndexIn core m ≠ 0 ∨ core.snapshotMetadata.term = 0)

/-! ### The invariant gives the terms -/

theorem logTerm_eq_some (h : StoredLog (cluster w) log) {idx t : UInt64} (hidx : idx ≠ 0)
    (ht : logTerm log idx = some t) : idx.toNat ≤ log.length ∧
      ∃ e, entryIn (cluster w) idx = some (some e) ∧ e.term = t := by
  rw [logTerm, if_neg hidx, Option.map_eq_some_iff] at ht
  obtain ⟨e, he, rfl⟩ := ht
  have hi := (List.getElem?_eq_some_iff.mp he).1
  have hpos : idx.toNat ≠ 0 := fun h0 => hidx (UInt64.toNat_inj.mp h0)
  have hn := h.index_of_getElem? he
  have heq : e.index = idx := UInt64.toNat_inj.mp (by omega)
  refine ⟨by omega, e, ?_, rfl⟩
  rw [← heq]
  exact h.stored e (List.mem_of_getElem? he)

theorem exists_logTerm (h : StoredLog (cluster w) log) {idx : UInt64} (hidx : idx ≠ 0)
    (hle : idx.toNat ≤ log.length) : ∃ e, entryIn (cluster w) idx = some (some e) ∧
      logTerm log idx = some e.term := by
  have hpos : idx.toNat ≠ 0 := fun h0 => hidx (UInt64.toNat_inj.mp h0)
  have hlt : idx.toNat - 1 < log.length := by omega
  have ht : logTerm log idx = some log[idx.toNat - 1].term := by
    rw [logTerm, if_neg hidx, List.getElem?_eq_getElem hlt]
    rfl
  have he : log[idx.toNat - 1]? = some log[idx.toNat - 1] := List.getElem?_eq_getElem hlt
  have hn := h.index_of_getElem? he
  have heq : log[idx.toNat - 1].index = idx := UInt64.toNat_inj.mp (by omega)
  refine ⟨_, ?_, ht⟩
  have hs := h.stored _ (List.mem_of_getElem? he)
  rwa [heq] at hs

/-- The snapshot lies within the log, and the last index is its length. -/
theorem TermInv.bounds (h : TermInv self (cluster w) log) :
    self.snapshotMetadata.index.toNat ≤ log.length ∧
      (lastIndexIn self (cluster w)).toNat = log.length := by
  have hs : self.snapshotMetadata.index.toNat ≤ log.length := by
    by_cases hz : self.snapshotMetadata.index = 0
    · rw [hz]
      exact Nat.zero_le _
    · obtain hb | ⟨hb, -⟩ := h.boundary
      · exact absurd hb hz
      · exact (logTerm_eq_some h.stored hz hb).1
  refine ⟨hs, ?_⟩
  rw [lastIndexIn, indexIn, h.stored.last]
  cases hl : log.getLast? with
  | none =>
    obtain rfl : log = [] := by simpa using hl
    exact Nat.le_zero.mp hs
  | some e => exact h.stored.getLast_index hl

/-- An append that passes the assertion leaves no gap. -/
theorem TermInv.index_le_succ (h : TermInv self (cluster w) log) {e : Entry}
    (he : e.index ≤ lastIndexIn self (cluster w) + 1) : e.index.toNat ≤ log.length + 1 := by
  have he := UInt64.le_iff_toNat_le.mp he
  rw [UInt64.toNat_add, h.bounds.2] at he
  exact Nat.le_trans he (Nat.mod_le _ _)

/-- The first index follows the snapshot, or is `0`. -/
theorem TermInv.firstIndexIn_eq (h : TermInv self (cluster w) log) :
    firstIndexIn self (cluster w) = 0 ∨
      firstIndexIn self (cluster w) = self.snapshotMetadata.index + 1 := by
  rw [firstIndexIn, indexIn]
  rcases h.first with hf | hf <;> rw [hf] <;> simp

/-- An index from the one before the first index on, other than that of the snapshot, is not
compacted. -/
theorem TermInv.not_lt_firstIndexIn (h : TermInv self (cluster w) log) {idx : UInt64}
    (hidx : idx ≠ self.snapshotMetadata.index)
    (hlo : (firstIndexIn self (cluster w)).toNat - 1 ≤ idx.toNat) :
    ¬ idx < firstIndexIn self (cluster w) := by
  rw [UInt64.lt_iff_toNat_lt]
  intro hlt
  rcases h.firstIndexIn_eq with hF | hF
  · rw [hF] at hlt
    simp at hlt
  · rw [hF, UInt64.toNat_add, UInt64.toNat_one] at hlt hlo
    refine hidx (UInt64.toNat_inj.mp ?_)
    have := self.snapshotMetadata.index.toNat_lt
    omega

/-- An index below these is compacted, and is not that of the snapshot. -/
theorem TermInv.lt_firstIndexIn (h : TermInv self (cluster w) log) {idx : UInt64}
    (hlt : idx.toNat < (firstIndexIn self (cluster w)).toNat - 1) :
    idx ≠ self.snapshotMetadata.index ∧ idx < firstIndexIn self (cluster w) := by
  rcases h.firstIndexIn_eq with hF | hF
  · rw [hF] at hlt
    simp at hlt
  · rw [hF, UInt64.toNat_add, UInt64.toNat_one] at hlt
    have := self.snapshotMetadata.index.toNat_lt
    refine ⟨?_, ?_⟩
    · rintro rfl
      omega
    · rw [hF, UInt64.lt_iff_toNat_lt, UInt64.toNat_add, UInt64.toNat_one]
      omega

/-- An index beyond the last one is not compacted, and is not that of the snapshot. -/
theorem TermInv.beyond_lastIndexIn (h : TermInv self (cluster w) log) {idx : UInt64}
    (hlt : lastIndexIn self (cluster w) < idx) :
    idx ≠ self.snapshotMetadata.index ∧ ¬ idx < firstIndexIn self (cluster w) := by
  obtain ⟨hs, hL⟩ := h.bounds
  rw [UInt64.lt_iff_toNat_lt] at hlt
  have hidx : idx ≠ self.snapshotMetadata.index := by
    rintro rfl
    omega
  refine ⟨hidx, h.not_lt_firstIndexIn hidx ?_⟩
  rcases h.firstIndexIn_eq with hF | hF
  · rw [hF]
    simp
  · rw [hF, UInt64.toNat_add, UInt64.toNat_one]
    have := self.snapshotMetadata.index.toNat_lt
    omega

/-- Only a first index of `0` lets the lookup reach the missing entry `0`. -/
theorem TermInv.term_eq_zero (h : TermInv self (cluster w) log)
    (hs : self.snapshotMetadata.index ≠ 0)
    (hlo : (firstIndexIn self (cluster w)).toNat - 1 ≤ 0) : self.snapshotMetadata.term = 0 := by
  obtain hb | ⟨-, hb | hb⟩ := h.boundary
  · exact absurd hb hs
  · rcases h.firstIndexIn_eq with hF | hF
    · exact absurd hF hb
    · have hs0 : self.snapshotMetadata.index.toNat ≠ 0 := fun h0 => hs (UInt64.toNat_inj.mp h0)
      have hb' : (self.snapshotMetadata.index + 1).toNat ≠ 0 := fun h0 =>
        hb (hF.trans (UInt64.toNat_inj.mp h0))
      rw [hF, UInt64.toNat_add, UInt64.toNat_one] at hlo
      rw [UInt64.toNat_add, UInt64.toNat_one] at hb'
      have := self.snapshotMetadata.index.toNat_lt
      omega
  · exact hb

/-- The terms of the indices inside. -/
theorem TermInv.term_inside (h : TermInv self (cluster w) log) {idx : UInt64}
    (hlo : (firstIndexIn self (cluster w)).toNat - 1 ≤ idx.toNat)
    (hhi : idx ≤ lastIndexIn self (cluster w)) :
    ∃ t, logTerm log idx = some t ∧ RaftRocksDBStorage.term self idx w = (.ok (.ok t), w) := by
  rw [UInt64.le_iff_toNat_le, h.bounds.2] at hhi
  rw [RaftRocksDBStorage.term_run]
  by_cases hidx : idx = self.snapshotMetadata.index
  · -- the index of the snapshot stands for its term
    subst hidx
    refine ⟨_, ?_, by rw [if_pos rfl]⟩
    obtain hb | ⟨hb, -⟩ := h.boundary
    · rw [logTerm, if_pos hb, hb]
    · exact hb
  · have hnl : ¬ lastIndexIn self (cluster w) < idx := by
      rw [UInt64.lt_iff_toNat_lt, h.bounds.2]
      omega
    rw [if_neg hidx, if_neg (h.not_lt_firstIndexIn hidx hlo), if_neg hnl]
    by_cases hz : idx = 0
    · subst hz
      exact ⟨0, rfl, by rw [h.stored.zero, h.term_eq_zero (Ne.symm hidx) hlo]⟩
    · obtain ⟨e, he, ht⟩ := exists_logTerm h.stored hz hhi
      exact ⟨e.term, ht, by rw [he]⟩

/-- **The invariant gives the terms.** -/
theorem TermInv.termSpec (h : TermInv self (cluster w) log) : TermSpec self w log where
  inside first last idx hf hl hlo hhi := by
    obtain ⟨rfl, -⟩ := (completes_of_run (RaftMachineStorage.firstIndex_run self w)).mp hf
    obtain ⟨rfl, -⟩ := (completes_of_run (RaftMachineStorage.lastIndex_run self w)).mp hl
    exact h.term_inside hlo hhi
  below first idx hf hlt := by
    obtain ⟨rfl, -⟩ := (completes_of_run (RaftMachineStorage.firstIndex_run self w)).mp hf
    obtain ⟨hidx, hfi⟩ := h.lt_firstIndexIn hlt
    rw [Completes, RaftRocksDBStorage.term_run, if_neg hidx, if_pos hfi]
  above last idx hl hlt := by
    obtain ⟨rfl, -⟩ := (completes_of_run (RaftMachineStorage.lastIndex_run self w)).mp hl
    obtain ⟨hidx, hfi⟩ := h.beyond_lastIndexIn hlt
    rw [Completes, RaftRocksDBStorage.term_run, if_neg hidx, if_neg hfi, if_pos hlt]

/-! ### The steps keep the invariant -/

/-- The log and the first index as the records hold them. -/
def LogRecords (log : List Entry) (fi : Except String (Option UInt64)) (w : World ε) : Prop :=
  StoredLog (cluster w) log ∧ readRecord UInt64 (cluster w) .firstIndex = fi

/-- An operation that writes neither entries nor indices keeps them. -/
theorem keeps_logRecords {fi : Except String (Option UInt64)} (self : RaftMachineStorage)
    (op : RaftOp)
    (ho : ∀ r, op.Writes r → (∀ idx, r ≠ .entry idx) ∧ r ≠ .lastIndex ∧ r ≠ .firstIndex) :
    Keeps (LogRecords log fi) (op.run self : Program (World ε) _) := by
  refine op.keeps (fun w r text hr hw => ?_) self
  obtain ⟨he, hl, hf⟩ := ho r hr
  refine ⟨?_, ?_⟩
  · rw [cluster_putKey]
    exact hw.1.insert_record he hl _
  · rw [cluster_putKey, readRecord_insert_record _ hf]
    exact hw.2

/-- The operations that do not touch the log. -/
def IsStateOp : RaftOp → Prop
  | .append _ | .createSnapshot => False
  | _ => True

theorem IsStateOp.writes {op : RaftOp} (h : IsStateOp op) (r : Record) (hr : op.Writes r) :
    (∀ idx, r ≠ .entry idx) ∧ r ≠ .lastIndex ∧ r ≠ .firstIndex := by
  cases op with
  | append es => exact absurd h id
  | createSnapshot => exact absurd h id
  | commmitIndex idx => rcases hr with rfl | rfl <;> simp
  | saveHardState hs => subst hr; simp
  | setHardStateCommit c => subst hr; simp
  | saveConfState cs => subst hr; simp

/-- An operation that does not touch the log does not touch the snapshot either. -/
theorem IsStateOp.snapshotMetadata {op : RaftOp} (h : IsStateOp op)
    (hc : Completes (op.run self) w self' w') :
    self'.snapshotMetadata = self.snapshotMetadata := by
  cases op with
  | append es => exact absurd h id
  | createSnapshot => exact absurd h id
  | commmitIndex idx =>
    obtain ⟨⟨r, core⟩, t, hr, hc⟩ := completes_bind.mp hc
    obtain ⟨-, -, -, -, -, rfl, -⟩ := RaftMachineStorage.completes_commmitIndex hr
    rw [← (completes_pure.mp hc).1]
    rfl
  | saveHardState hs =>
    have hstate : (RaftOp.saveHardState hs).SavesState := trivial
    rw [hstate.self_eq hc]
  | setHardStateCommit c =>
    have hstate : (RaftOp.setHardStateCommit c).SavesState := trivial
    rw [hstate.self_eq hc]
  | saveConfState cs =>
    have hstate : (RaftOp.saveConfState cs).SavesState := trivial
    rw [hstate.self_eq hc]

theorem firstIndexIn_congr {s s' : RaftMachineStorage} {m m' : ColumnFamily}
    (hs : s'.snapshotMetadata.index = s.snapshotMetadata.index)
    (hf : readRecord UInt64 m' .firstIndex = readRecord UInt64 m .firstIndex) :
    firstIndexIn s' m' = firstIndexIn s m := by
  rw [firstIndexIn, firstIndexIn, indexIn, indexIn, hs, hf]

theorem TermInv.stateOp (h : TermInv self (cluster w) log) {op : RaftOp} (ho : IsStateOp op)
    (hc : Completes (op.run self) w self' w') : TermInv self' (cluster w') log := by
  have hk := keeps_logRecords self op ho.writes w ⟨h.stored, rfl⟩
  rw [hc] at hk
  have hs := ho.snapshotMetadata hc
  refine ⟨hk.1, ?_, ?_⟩
  · rw [hk.2]
    exact h.first
  · rw [firstIndexIn_congr (congrArg SnapshotMetadata.index hs) hk.2, hs]
    exact h.boundary

/-- The entries up to the snapshot stay. -/
theorem logTerm_appendLog {idx : UInt64} {e : Entry} (es : List Entry) (hlt : idx < e.index)
    (hl : idx.toNat ≤ log.length) : logTerm (appendLog log (e :: es)) idx = logTerm log idx := by
  by_cases hz : idx = 0
  · rw [logTerm, logTerm, if_pos hz, if_pos hz]
  · have hpos : idx.toNat ≠ 0 := fun h0 => hz (UInt64.toNat_inj.mp h0)
    have hlt' := UInt64.lt_iff_toNat_lt.mp hlt
    rw [logTerm, logTerm, if_neg hz, if_neg hz, appendLog, List.getElem?_append_left,
      List.getElem?_take_of_lt (by omega)]
    rw [List.length_take]
    omega

/-- An append does not write the first index. -/
theorem readFirstIndex_appended (w : World ε) (es : List Entry) (v : Bytes) :
    readRecord UInt64 (cluster (putRecord (appended w es) .uncommit v)) .firstIndex =
      readRecord UInt64 (cluster w) .firstIndex := by
  rw [cluster_putRecord, readRecord_insert_record _ (by simp)]
  exact readRecord_congr (lookup_appended (by simp) es (by simp) w)

theorem firstIndexIn_appended (self : RaftMachineStorage) (w : World ε) (es : List Entry)
    (v : Bytes) : firstIndexIn (self.afterAppend es) (cluster (putRecord (appended w es) .uncommit v))
      = firstIndexIn self (cluster w) :=
  firstIndexIn_congr (s := self) rfl (readFirstIndex_appended w es v)

/-- Entries from `1` on lie beyond an empty snapshot. -/
theorem beyondSnapshot_zero {es : List Entry} (h : Contiguous es) : BeyondSnapshot 0 es := by
  refine ⟨h, .inl fun e he => ?_⟩
  cases es with
  | nil => cases he
  | cons e' es =>
    cases he
    exact UInt64.lt_iff_toNat_lt.mpr (StoredLog.indices_of_contiguous h).1

/-- The term of an appended entry. -/
theorem logTerm_of_mem_append {m : ColumnFamily} {e : Entry} {es : List Entry}
    (h : StoredLog m (appendLog log (e :: es))) {e' : Entry} (he : e' ∈ e :: es) :
    logTerm (appendLog log (e :: es)) e'.index = some e'.term := by
  have hmem : e' ∈ appendLog log (e :: es) := List.mem_append_right _ he
  obtain ⟨i, hi, rfl⟩ := List.getElem_of_mem hmem
  have hget := List.getElem?_eq_getElem hi
  have hidx := h.index_of_getElem? hget
  have hz : (appendLog log (e :: es))[i].index ≠ 0 := fun h0 => by
    rw [h0] at hidx
    simp at hidx
  rw [logTerm, if_neg hz, hidx, Nat.add_sub_cancel, hget, Option.map_some]

theorem TermInv.append (h : TermInv self (cluster w) log) {es : List Entry}
    (hv : BeyondSnapshot self.snapshotMetadata.index es)
    (hc : Completes ((RaftOp.append es).run self) w self' w') :
    TermInv self' (cluster w') (appendLog log es) := by
  obtain ⟨⟨r, core⟩, t, hr, hc⟩ := completes_bind.mp hc
  obtain ⟨rfl, rfl⟩ := completes_pure.mp hc
  obtain ⟨-, ⟨rfl, rfl, rfl⟩ | ⟨hne, hg, rfl, rfl⟩⟩ := RaftMachineStorage.completes_append hr
  · exact h
  · cases es with
    | nil => exact absurd rfl hne
    | cons e es =>
      obtain ⟨hcont, hbeyond⟩ := hv
      have hstored := h.stored.append hcont (h.index_le_succ (hg e rfl).2)
      refine ⟨?_, ?_, ?_⟩
      · rw [cluster_putRecord]
        exact hstored.insert_record (by simp) (by simp) _
      · rw [readFirstIndex_appended]
        exact h.first
      · -- the entry of the snapshot stays, or is replaced by one whose term is its index
        have hkeep : logTerm log self.snapshotMetadata.index =
            some self.snapshotMetadata.index →
              logTerm (appendLog log (e :: es)) self.snapshotMetadata.index =
                some self.snapshotMetadata.index := by
          intro hb
          rcases hbeyond with hgt | ⟨e', he', hidx, hterm⟩
          · rw [logTerm_appendLog es (hgt e rfl) h.bounds.1, hb]
          · have ht := logTerm_of_mem_append hstored he'
            rwa [hidx, hterm] at ht
        refine h.boundary.imp id (And.imp hkeep (Or.imp_left fun hb => ?_))
        rwa [← firstIndexIn_appended self w (e :: es)] at hb

theorem TermInv.createSnapshot (h : TermInv self (cluster w) log)
    (hk : ∀ hs, hardStateIn (cluster w) = some hs → hs.commit = 0)
    (hc : Completes (RaftOp.createSnapshot.run self) w self' w') :
    TermInv self' (cluster w') log := by
  obtain ⟨s, hs, rfl, rfl⟩ := RaftMachineStorage.completes_createSnapshot.mp hc
  obtain ⟨hs, cs, hhs, -, -, hm⟩ := RaftMachineStorage.snapshotOf_eq_some hs
  -- nothing is committed yet: the snapshot is that of index 0
  have hidx : s.getMetadata.index = 0 := by
    rw [Snapshot.getMetadata, hm, Option.getD_some]
    exact hk hs hhs
  refine ⟨?_, .inr ?_, .inl hidx⟩
  · simp only [cluster_putRecord]
    exact (h.stored.insert_record (by simp) (by simp) _).insert_record (by simp) (by simp) _
  · simp [hidx]

theorem TermInv.restart (self : RaftMachineStorage) (hl : StoredLog (cluster w) log)
    (hf : readRecord UInt64 (cluster w) .firstIndex = .ok none ∨
      readRecord UInt64 (cluster w) .firstIndex = .ok (some 0))
    (hk : KeepsBoundary self (cluster w) log .restart)
    (hc : Completes RaftMachineStorage.new w self' w') : TermInv self' (cluster w') log := by
  obtain ⟨metadata, hm, rfl, rfl⟩ := RaftMachineStorage.completes_new.mp hc
  obtain ⟨hs, cs, hhs, -, rfl⟩ := metadataIn_eq_some.mp hm
  exact ⟨hl, hf, hk hs hhs⟩

/-- A panic leaves the log and the first index. -/
theorem logRecords_of_panicked {op : LogOp} {t : World ε} {msg : String}
    {fi : Except String (Option UInt64)} (hw : LogRecords log fi w)
    (hp : op.run self w = (.panicked msg, t)) : LogRecords log fi t := by
  cases op with
  | restart =>
    have := keeps_new w hw
    rwa [show RaftMachineStorage.new w = _ from hp] at this
  | raft op =>
    by_cases ho : IsStateOp op
    · have := keeps_logRecords self op ho.writes w hw
      rwa [show op.run self w = _ from hp] at this
    · cases op with
      | append es =>
        -- the guards of `append` stand before its writes
        obtain hp | ⟨a, r, -, ha⟩ := bind_run_eq_panicked.mp hp
        · rw [RaftMachineStorage.append_panicked hp]
          exact hw
        · cases ha
      | createSnapshot =>
        rw [RaftMachineStorage.createSnapshot_panicked hp]
        exact hw
      | _ => exact absurd trivial ho

/-- An empty database holds the empty log. -/
theorem termInv_of_start (h : Completes RaftMachineStorage.new World.empty self w) :
    TermInv self (cluster w) [] := by
  obtain ⟨-, -, -, rfl⟩ := RaftMachineStorage.completes_new.mp h
  refine TermInv.restart self ?_ (.inl ?_) ?_ h
  · exact StoredLog.empty
  · simp
  · rintro hs hhs
    obtain rfl : HardState.default = hs := by simpa using hhs
    exact .inl rfl

/-- The invariant of a run whose steps keep the boundary. -/
theorem termInv_of_run (h : LogReachable KeepsBoundary self w log) :
    TermInv self (cluster w) log := by
  induction h with
  | start h => exact termInv_of_start h
  | @step self self' w w' log op hr hc h ih =>
    cases op with
    | restart => exact TermInv.restart self ih.stored ih.first hc h
    | raft op =>
      by_cases ho : IsStateOp op
      · have hlog : (LogOp.raft op).refLog log = log := by
          cases op with
          | append es => exact absurd ho id
          | _ => rfl
        rw [hlog]
        exact ih.stateOp ho h
      · cases op with
        | append es => exact ih.append hc h
        | createSnapshot => exact ih.createSnapshot hc h
        | _ => exact absurd trivial ho
  -- a panic leaves the records as they were, and the store is opened again
  | @panicked self self' w t w' log msg op hr hp hc h ih =>
    have hw : LogRecords log _ w := ⟨ih.stored, rfl⟩
    obtain ⟨hl, hf⟩ := logRecords_of_panicked hw hp
    exact TermInv.restart self hl (hf ▸ ih.first) hc h

/-- **In a run whose steps keep the boundary, every reached store reports the terms of the
log.** -/
theorem termSpec_of_run (h : LogReachable KeepsBoundary self w log) : TermSpec self w log :=
  (termInv_of_run h).termSpec

/-! A node that appends an entry of term `1` at index `1`, commits it, restarts and takes a
snapshot. -/

def firstEntry : Entry := { Entry.default with term := 1, index := 1 }

def opened : RaftMachineStorage × World Unit :=
  finish RaftMachineStorage.new World.empty new_isOk

def withEntry : RaftMachineStorage × World Unit :=
  finish ((LogOp.raft (.append [firstEntry])).run opened.1) opened.2 (by decide +kernel)

def withCommit : RaftMachineStorage × World Unit :=
  finish ((LogOp.raft (.commmitIndex 1)).run withEntry.1) withEntry.2 (by decide +kernel)

def reopened : RaftMachineStorage × World Unit :=
  finish (LogOp.restart.run withCommit.1) withCommit.2 (by decide +kernel)

def secondEntry : Entry := { Entry.default with term := 1, index := 2 }

def withSecond : RaftMachineStorage × World Unit :=
  finish ((LogOp.raft (.append [secondEntry])).run reopened.1) reopened.2 (by decide +kernel)

def withSnapshot : RaftMachineStorage × World Unit :=
  finish ((LogOp.raft .createSnapshot).run reopened.1) reopened.2 (by decide +kernel)

theorem reopened_reachable : LogReachable KeepsBoundary reopened.1 reopened.2 [firstEntry] := by
  have hhs : hardStateIn (cluster withCommit.2) = some ⟨1, 0, 1⟩ := by decide +kernel
  have hfirst : indexIn (cluster withCommit.2) .firstIndex 2 ≠ 0 := by decide +kernel
  have hbeyond : BeyondSnapshot opened.1.snapshotMetadata.index [firstEntry] := by
    have hsnap : opened.1.snapshotMetadata.index = 0 := by decide +kernel
    rw [hsnap]
    exact beyondSnapshot_zero ⟨1, by decide, rfl⟩
  have h₀ : LogReachable KeepsBoundary opened.1 opened.2 [] := .start (completes_finish _ _ _)
  have h₁ : LogReachable KeepsBoundary withEntry.1 withEntry.2 [firstEntry] :=
    h₀.step (.raft (.append [firstEntry])) hbeyond (completes_finish _ _ _)
  have h₂ : LogReachable KeepsBoundary withCommit.1 withCommit.2 [firstEntry] :=
    h₁.step (.raft (.commmitIndex 1)) trivial (completes_finish _ _ _)
  refine h₂.step .restart ?_ (completes_finish _ _ _)
  intro hs hs'
  obtain rfl : (⟨1, 0, 1⟩ : HardState) = hs := Option.some.inj (hhs.symm.trans hs')
  exact .inr ⟨rfl, .inl hfirst⟩

/-- After the restart, an entry is appended beyond the snapshot. -/
theorem termSpec_withSecond : TermSpec withSecond.1 withSecond.2 [firstEntry, secondEntry] := by
  have hsnap : reopened.1.snapshotMetadata.index = 1 := by decide +kernel
  -- the snapshot is at index 1, the second entry above it
  refine termSpec_of_run (reopened_reachable.step (.raft (.append [secondEntry]))
    ⟨⟨2, by decide, rfl⟩, .inl fun e he => ?_⟩ (completes_finish _ _ _))
  cases he
  rw [hsnap]
  decide

/-! ### Any other step breaks a term -/

/-- What `term` returns, when it is right, is what it computes. -/
theorem term_unique {idx : UInt64} {r r' : RaftResult UInt64} {t : World ε}
    (h : Completes (RaftRocksDBStorage.term self idx) w r w)
    (h' : RaftRocksDBStorage.term self idx w = (.ok r', t)) : r = r' := by
  rw [Completes, h'] at h
  cases h
  rfl

/-- A right store reports the terms of the log between its two indices. -/
theorem TermSpec.term_eq (h : TermSpec self w log) (idx : UInt64) {t : UInt64}
    (hlo : (firstIndexIn self (cluster w)).toNat - 1 ≤ idx.toNat)
    (hhi : idx ≤ lastIndexIn self (cluster w))
    (hr : RaftRocksDBStorage.term self idx w = (.ok (.ok t), w)) : logTerm log idx = some t := by
  obtain ⟨t', ht', hc⟩ := h.inside _ _ idx (RaftMachineStorage.firstIndex_run self w)
    (RaftMachineStorage.lastIndex_run self w) hlo hhi
  rw [ht', Except.ok.inj (term_unique hc hr)]

/-- A right store takes no index between its two indices for compacted. -/
theorem TermSpec.not_compacted (h : TermSpec self w log) (idx : UInt64)
    (hlo : (firstIndexIn self (cluster w)).toNat - 1 ≤ idx.toNat)
    (hhi : idx ≤ lastIndexIn self (cluster w))
    (hr : RaftRocksDBStorage.term self idx w = (.ok (.error (.store .compacted)), w)) : False := by
  obtain ⟨t, -, hc⟩ := h.inside _ _ idx (RaftMachineStorage.firstIndex_run self w)
    (RaftMachineStorage.lastIndex_run self w) hlo hhi
  cases term_unique hc hr

/-- The last index of a right store covers its snapshot. -/
theorem TermSpec.snapshot_le (h : TermSpec self w log) :
    self.snapshotMetadata.index ≤ lastIndexIn self (cluster w) := by
  by_contra hlt
  have hr := h.above _ _ (RaftMachineStorage.lastIndex_run self w) (UInt64.not_le.mp hlt)
  cases term_unique hr (by rw [RaftRocksDBStorage.term_run, if_pos rfl])

/-- After a snapshot of committed entries, the entry before the first one is taken for
compacted. -/
theorem commit_eq_zero_of_termSpec (hs : TermSpec self' w' log)
    (hc : Completes (RaftOp.createSnapshot.run self) w self' w') {hst : HardState}
    (hhs : hardStateIn (cluster w) = some hst) : hst.commit = 0 := by
  by_contra hz
  obtain ⟨s, hsnap, rfl, rfl⟩ := RaftMachineStorage.completes_createSnapshot.mp hc
  obtain ⟨hst', cs, hhs', -, -, hm⟩ := RaftMachineStorage.snapshotOf_eq_some hsnap
  obtain rfl : hst = hst' := Option.some.inj (hhs.symm.trans hhs')
  have hidx : (self.afterSnapshot s).snapshotMetadata.index = hst.commit := by
    rw [RaftMachineStorage.afterSnapshot, Snapshot.getMetadata, hm, Option.getD_some]
  have hle := hs.snapshot_le
  -- the snapshot makes its own index the first one
  have hfirst : firstIndexIn (self.afterSnapshot s) (cluster (putRecord
      (putRecord w .firstIndex s.getMetadata.index) .snapshot (Prost.encodeToVec s))) =
        hst.commit := by
    have hr : Record.snapshot ≠ Record.firstIndex := by simp
    rw [firstIndexIn, cluster_putRecord, indexIn_insert_record _ hr, cluster_putRecord,
      indexIn_insert_self]
    exact hidx
  have hpos : hst.commit.toNat ≠ 0 := fun h0 => hz (UInt64.toNat_inj.mp h0)
  have hone : (1 : UInt64).toNat = 1 := rfl
  have hpred : (hst.commit - 1).toNat = hst.commit.toNat - 1 := by
    rw [UInt64.toNat_sub_of_le _ _ (by rw [UInt64.le_iff_toNat_le, hone]; omega), hone]
  have hne : hst.commit - 1 ≠ hst.commit := fun h0 => by
    have := congrArg UInt64.toNat h0
    omega
  have hlt : hst.commit - 1 < hst.commit := by
    rw [UInt64.lt_iff_toNat_lt]
    omega
  -- the index before it is refused, though its term is known
  refine hs.not_compacted (hst.commit - 1) ?_ ?_ ?_
  · exact Nat.le_of_eq (by rw [hfirst, hpred])
  · rw [hidx] at hle
    exact UInt64.le_trans (UInt64.le_of_lt hlt) hle
  · rw [RaftRocksDBStorage.term_run, hidx, if_neg hne, hfirst, if_pos hlt]

/-- After a restart over committed entries, the term of the last one must be its index. -/
theorem keepsBoundary_of_termSpec_restart (h : TermInv self (cluster w) log)
    (hs : TermSpec self' w' log) (hc : Completes RaftMachineStorage.new w self' w') :
    KeepsBoundary self (cluster w) log .restart := by
  intro hst hhs
  by_cases hz : hst.commit = 0
  · exact .inl hz
  · obtain ⟨metadata, hm, rfl, rfl⟩ := RaftMachineStorage.completes_new.mp hc
    obtain ⟨hst', cs, hhs', -, rfl⟩ := metadataIn_eq_some.mp hm
    obtain rfl : hst = hst' := Option.some.inj (hhs.symm.trans hhs')
    have hle := hs.snapshot_le
    have hone : (1 : UInt64).toNat = 1 := rfl
    have hF : ∀ core : RaftMachineStorage, core.snapshotMetadata.index = hst.commit →
        firstIndexIn core (cluster w) = indexIn (cluster w) .firstIndex (hst.commit + 1) := by
      rintro core hcore
      rw [firstIndexIn, hcore]
    -- the term of the last entry, and the one below the first index
    refine .inr ⟨?_, ?_⟩
    · refine hs.term_eq hst.commit ?_ hle (by rw [RaftRocksDBStorage.term_run, if_pos rfl])
      rw [hF _ rfl, indexIn]
      have := hst.commit.toNat_lt
      rcases h.first with hf | hf <;> rw [hf]
      · dsimp only
        rw [UInt64.toNat_add, hone]
        omega
      · simp
    · by_contra hcon
      obtain ⟨hfz, htz⟩ := not_or.mp hcon
      have hfz := not_not.mp hfz
      refine htz (Option.some.inj (hs.term_eq 0 (t := hst.term) ?_ ?_ ?_)).symm
      · rw [hF _ rfl, hfz]
        exact Nat.zero_le _
      · rw [UInt64.le_iff_toNat_le]
        exact Nat.zero_le _
      · have hnl : ∀ x : UInt64, ¬ x < 0 := fun x hx => by
          rw [UInt64.lt_iff_toNat_lt] at hx
          exact Nat.not_lt_zero _ hx
        rw [RaftRocksDBStorage.term_run, if_neg (fun h0 => hz h0.symm), hF _ rfl, hfz,
          if_neg (hnl 0), if_neg (hnl _), h.stored.zero]

/-- After an append at the snapshot or before it, the entry there must have its index as the
term. -/
theorem beyondSnapshot_of_termSpec (h : TermInv self (cluster w) log) {es : List Entry}
    (hcont : Contiguous es) (hs : TermSpec self' w' (appendLog log es))
    (hc : Completes ((RaftOp.append es).run self) w self' w') :
    BeyondSnapshot self.snapshotMetadata.index es := by
  obtain ⟨⟨r, core⟩, t, hr, hc⟩ := completes_bind.mp hc
  obtain ⟨rfl, rfl⟩ := completes_pure.mp hc
  obtain ⟨-, ⟨rfl, rfl, rfl⟩ | ⟨hne, hg, rfl, rfl⟩⟩ := RaftMachineStorage.completes_append hr
  · exact ⟨hcont, .inl fun e he => by cases he⟩
  · cases es with
    | nil => exact absurd rfl hne
    | cons e es =>
      refine ⟨hcont, or_iff_not_imp_left.mpr fun hgt => ?_⟩
      have hle : e.index ≤ self.snapshotMetadata.index := by
        by_contra hlt
        refine hgt fun e' he' => ?_
        cases he'
        exact UInt64.not_le.mp hlt
      have hstored := h.stored.append hcont (h.index_le_succ (hg e rfl).2)
      have hle' := UInt64.le_iff_toNat_le.mp hle
      have hpos := (StoredLog.indices_of_contiguous hcont).1
      -- the store reports the index of the snapshot as its term
      have hterm : logTerm (appendLog log (e :: es)) self.snapshotMetadata.index =
          some self.snapshotMetadata.index := by
        refine hs.term_eq _ ?_ hs.snapshot_le (by rw [RaftRocksDBStorage.term_run]; exact if_pos rfl)
        have hfirst := UInt64.le_iff_toNat_le.mp (hg e rfl).1
        rw [firstIndexIn_appended]
        omega
      obtain ⟨e', hget, hterm⟩ := Option.map_eq_some_iff.mp
        ((if_neg (by rintro h0; rw [h0] at hle'; simp at hle'; omega)).symm.trans hterm)
      have hidx := hstored.index_of_getElem? hget
      refine ⟨e', ?_, UInt64.toNat_inj.mp (by omega), hterm⟩
      rw [appendLog, List.getElem?_append_right (by rw [List.length_take]; omega)] at hget
      exact List.mem_of_getElem? hget

/-- What the raft crate promises of an append: its entries are consecutive. -/
def Consecutive : LogOp → Prop
  | .raft (.append es) => Contiguous es
  | _ => True

/-- **A step of such a run leaves a store that is right exactly when it keeps the boundary.** -/
theorem termSpec_step_iff (h : LogReachable KeepsBoundary self w log) {op : LogOp}
    (hv : Consecutive op) (hc : Completes (op.run self) w self' w') :
    TermSpec self' w' (op.refLog log) ↔ KeepsBoundary self (cluster w) log op := by
  refine ⟨fun hs => ?_, fun hk => termSpec_of_run (h.step op hk hc)⟩
  cases op with
  | restart => exact keepsBoundary_of_termSpec_restart (termInv_of_run h) hs hc
  | raft op =>
    cases op with
    | append es => exact beyondSnapshot_of_termSpec (termInv_of_run h) hv hs hc
    | createSnapshot => exact fun hst hhs => commit_eq_zero_of_termSpec hs hc hhs
    | _ => trivial

/-- After a snapshot of one committed entry, the term of index `0`, the one before the first
index `1`, is reported as compacted. -/
theorem term_zero_compacted :
    LogReachable (fun _ _ _ _ => True) withSnapshot.1 withSnapshot.2 [firstEntry] ∧
      Completes withSnapshot.1.firstIndex withSnapshot.2 1 withSnapshot.2 ∧
      Completes withSnapshot.1.lastIndex withSnapshot.2 1 withSnapshot.2 ∧
      Completes (RaftRocksDBStorage.term withSnapshot.1 0) withSnapshot.2
        (.error (.store .compacted)) withSnapshot.2 ∧
      ¬ TermSpec withSnapshot.1 withSnapshot.2 [firstEntry] := by
  have hfirst : firstIndexIn withSnapshot.1 (cluster withSnapshot.2) = 1 := by decide +kernel
  have hlast : lastIndexIn withSnapshot.1 (cluster withSnapshot.2) = 1 := by decide +kernel
  have hsnap : (0 : UInt64) ≠ withSnapshot.1.snapshotMetadata.index := by decide +kernel
  have hterm : RaftRocksDBStorage.term withSnapshot.1 0 withSnapshot.2 =
      (.ok (.error (.store .compacted)), withSnapshot.2) := by
    rw [RaftRocksDBStorage.term_run, if_neg hsnap, hfirst, if_pos (by decide)]
  refine ⟨?_, ?_, ?_, hterm, fun h => ?_⟩
  · exact (LogReachable.mono (fun _ _ _ _ _ => trivial) reopened_reachable).step
      (.raft .createSnapshot) trivial (completes_finish _ _ _)
  · rw [Completes, RaftMachineStorage.firstIndex_run, hfirst]
  · rw [Completes, RaftMachineStorage.lastIndex_run, hlast]
  · refine h.not_compacted 0 ?_ ?_ hterm
    · rw [hfirst]
      decide
    · rw [hlast]
      decide

end PlacementCenter.Raft
