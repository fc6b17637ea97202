import PlacementCenter.Openraft.PurgedLog

/-!
# Runs of the log store

Every run of the operations on the database, as openraft calls them, takes the log it holds through
the same operations on purged logs.

## Main definitions

* `Run C log w`: a run from the empty database to `w`, beside the purged log `log`
* `RefinesPurgedLog w log`: the readers give what the purged log does

## Main results

* `Holds.step`: an operation on the database is the operation on purged logs
* `Run.induction_on`, `Run.at_points`: what the operations keep, at the end of a run and on the way
* `refinesPurgedLog_of_run`: **the log store refines the purged log** in every run
-/

namespace PlacementCenter.Openraft

open Rust Program

variable {M : Type} [SerdeJson M]

/-! ### One operation -/

/-- No entry of the log is at `u64::MAX` or beyond. -/
def PurgedLog.BelowMax (log : PurgedLog M) : Prop :=
  ∀ e ∈ log.entries, e.index.toNat < 2 ^ 64 - 1

variable {w w' : Journal (LogEvent M)} {log : PurgedLog M}

/-- The last id is not below any entry. -/
theorem Holds.index_le_last (h : Holds w log) {e : Entry M} (he : e ∈ log.entries) :
    ∃ last ∈ log.lastLogId, e.index.toNat ≤ last.index.toNat := by
  rcases List.eq_nil_or_concat log.entries with hl | ⟨es, l, hl⟩
  · rw [hl] at he
    cases he
  · rw [List.concat_eq_append] at hl
    have hsort := h.sorted
    rw [hl, List.pairwise_append] at hsort
    rw [hl] at he
    refine ⟨l.logId, by simp [PurgedLog.lastLogId, hl], ?_⟩
    rcases List.mem_append.mp he with he | he
    · exact Nat.le_of_lt (hsort.2.2 e he l (List.mem_singleton_self l))
    · rw [List.mem_singleton.mp he]
      exact Nat.le_refl _

/-- A batch that openraft appends is above all entries. -/
theorem Holds.consecutive_above (h : Holds w log) {entries : List (Entry M)}
    (hc : (LogOp.append entries).Contract log.state) :
    ∃ start, Consecutive start entries ∧ ∀ e ∈ log.entries, e.index.toNat < start := by
  obtain ⟨-, start, hes, hstart⟩ := hc
  refine ⟨start, hes, fun e he => ?_⟩
  obtain ⟨last, hlast, hle⟩ := h.index_le_last he
  rw [hstart last hlast]
  exact Nat.lt_succ_of_le hle

/-- **An operation on the database** is the operation on purged logs. -/
theorem Holds.step (h : Holds w log) (hb : log.BelowMax) {op : LogOp M}
    (hc : op.Contract log.state) :
    Holds (w.extend op.effects) (op.apply log) ∧ (op.apply log).BelowMax := by
  cases op with
  -- the puts come first, then the event of their completion
  | append entries =>
    obtain ⟨start, hes, habove⟩ := h.consecutive_above hc
    refine ⟨?_, fun e he => (List.mem_append.mp he).elim (hb e) (hc.1 e)⟩
    rw [LogOp.effects, ← Journal.extend_extend]
    exact (h.putEntries hes habove).event _
  -- the deleted range ends at the largest index, which no entry has
  | truncate logId =>
    have hdel := h.deleteRange logId.index 0xffffffffffffffff
    have hrest : (log.entries.filter fun e => e.index < logId.index ∨ 0xffffffffffffffff ≤ e.index) =
        log.entries.filter fun e => e.index < logId.index := by
      refine List.filter_congr fun e he => ?_
      have := hb e he
      have hnot : ¬ (0xffffffffffffffff : UInt64) ≤ e.index := by
        rw [UInt64.le_iff_toNat_le]
        exact Nat.not_le.mpr this
      simp [hnot]
    rw [hrest] at hdel
    exact ⟨hdel, fun e he => hb e (List.mem_filter.mp he).1⟩
  -- the id of the purge is put before the range is deleted
  | purge logId =>
    have hdel := ((h.putPurged logId).sync).deleteRange 0 (logId.index + 1)
    have hrest : (log.entries.filter fun e => e.index < 0 ∨ logId.index + 1 ≤ e.index) =
        log.entries.filter fun e => logId.index < e.index := by
      refine List.filter_congr fun e he => ?_
      have hlt := hc.1
      have hnext : (logId.index + 1).toNat = logId.index.toNat + 1 := by
        rw [UInt64.toNat_add, UInt64.toNat_one]
        omega
      have hle : logId.index + 1 ≤ e.index ↔ logId.index < e.index := by
        rw [UInt64.le_iff_toNat_le, UInt64.lt_iff_toNat_lt, hnext, Nat.succ_le_iff]
      simp [hle]
    rw [Journal.extend_extend, Journal.extend_extend, hrest] at hdel
    exact ⟨hdel, fun e he => hb e (List.mem_filter.mp he).1⟩
  | saveVote vote => exact ⟨h.setRecord (by decide) _, hb⟩
  | saveCommitted committed => exact ⟨h.setRecord (by decide) _, hb⟩
  | setCurrentSnapshot snap => exact ⟨h.setRecord (by decide) _, hb⟩

/-! ### Runs -/

/-- A run of operations from the empty database, as openraft calls them. Every operation meets the
condition `C` on the log it is called on. -/
inductive Run (C : PurgedLog M → LogOp M → Prop) : PurgedLog M → Journal (LogEvent M) → Prop where
  | start : Run C .empty .empty
  | step {log w w' state r} (op : LogOp M) (hr : Run C log w)
    (hs : Completes (LogStore.getLogState M) w (.ok state) w) (hc : op.Contract state)
    (hC : C log op) (h : Completes op.run w r w') : Run C (op.apply log) w'

variable {C : PurgedLog M → LogOp M → Prop}

/-- A run that meets a stronger condition. -/
theorem Run.mono {D : PurgedLog M → LogOp M → Prop} (hCD : ∀ log op, C log op → D log op)
    (h : Run C log w) : Run D log w := by
  induction h with
  | start => exact .start
  | @step log w w' state r op hr hs hc hC h ih => exact ih.step op hs hc (hCD log op hC) h

theorem Holds.getLogState (h : Holds w log) :
    Completes (LogStore.getLogState M) w (.ok log.state) w := by
  rw [Completes, getLogState_run h.sound, h.log_eq]

/-- **Every run holds the log** of the same operations. -/
theorem holds_of_run (h : Run C log w) : Holds w log ∧ log.BelowMax := by
  induction h with
  | start => exact ⟨.empty, fun e he => by cases he⟩
  | @step log w w' state r op hr hs hc hC h ih =>
    obtain ⟨hstate, -⟩ := (completes_of_run ih.1.getLogState).mp hs
    obtain ⟨-, rfl⟩ := (completes_of_run (op.run_eq w)).mp h
    cases hstate
    exact ih.1.step ih.2 hc

/-- The next operation of a run. -/
theorem Run.next (h : Run C log w) {op : LogOp M} (hc : op.Contract log.state) (hC : C log op) :
    Run C (op.apply log) (w.extend op.effects) :=
  h.step op (holds_of_run h).1.getLogState hc hC (op.run_eq w)

/-- Induction over a run, whose operations append their effects to a database that holds the
log. -/
@[elab_as_elim]
theorem Run.induction_on
    {motive : (log : PurgedLog M) → (w : Journal (LogEvent M)) → Run C log w → Prop}
    {log : PurgedLog M} {w : Journal (LogEvent M)} (h : Run C log w)
    (start : motive .empty .empty .start)
    (step : ∀ {log w} (op : LogOp M) (hr : Run C log w) (hw : Holds w log) (_ : log.BelowMax)
      (hc : op.Contract log.state) (hC : C log op), motive log w hr →
        motive (op.apply log) (w.extend op.effects)
          (.step op hr hw.getLogState hc hC (op.run_eq w))) :
    motive log w h := by
  induction h with
  | start => exact start
  | @step log w w' state r op hr hs hc hC h ih =>
    obtain ⟨hw, hb⟩ := holds_of_run hr
    obtain ⟨hstate, -⟩ := (completes_of_run hw.getLogState).mp hs
    obtain ⟨hr', rfl⟩ := (completes_of_run (op.run_eq w)).mp h
    cases hstate
    cases hr'
    exact step op hr hw hb hc hC ih

/-- What a run keeps at each of its points, it has at every point. -/
theorem Run.at_points (h : Run C log w) {motive : Journal (LogEvent M) → Prop}
    (start : motive .empty)
    (step : ∀ {log w} {part : List (Effect (LogEvent M))} (op : LogOp M), Run C log w →
      Holds w log → log.BelowMax → op.Contract log.state → C log op → part <+: op.effects →
        (∀ p : Journal (LogEvent M), p.IsPrefix w → motive p) → motive (w.extend part))
    {p : Journal (LogEvent M)} (hp : p.IsPrefix w) : motive p := by
  induction h using Run.induction_on generalizing p with
  | start =>
    obtain ⟨effects⟩ := p
    obtain rfl : effects = [] := List.prefix_nil.mp hp
    exact start
  | step op hr hw hb hc hC ih =>
    rcases Journal.isPrefix_extend.mp hp with hp | ⟨part, hpart, rfl⟩
    · exact ih hp
    · exact step op hr hw hb hc hC hpart fun p hp => ih hp

/-- The readers give what the purged log does, and no operation panics. -/
structure RefinesPurgedLog (w : Journal (LogEvent M)) (log : PurgedLog M) : Prop where
  entries : ∀ range, Completes (LogStore.tryGetLogEntries M range) w (.ok (log.within range)) w
  in_order : ∀ range, (log.within range).Pairwise fun e e' => e.index.toNat < e'.index.toNat
  state : Completes (LogStore.getLogState M) w (.ok log.state) w
  operates : ∀ op : LogOp M, ∃ w', Completes op.run w (.ok ()) w'

/-- **The log store refines the purged log** in every run. -/
theorem refinesPurgedLog_of_run (h : Run C log w) : RefinesPurgedLog w log := by
  obtain ⟨hw, -⟩ := holds_of_run h
  have hentries := tryGetLogEntries_run hw.sound
  rw [hw.log_eq] at hentries
  exact {
    entries := hentries
    in_order := fun range => hw.sorted.filter _
    state := hw.getLogState
    operates := fun op => ⟨_, op.run_eq w⟩ }

/-! ### A log of one entry -/

/-- The configurations of a membership. -/
abbrev Configs := List (List UInt64)

/-- The first entry of a leader. -/
def blankEntry : Entry Configs := ⟨⟨⟨1, 1⟩, 0⟩, .blank⟩

/-- The database after the entry was appended. -/
abbrev oneEntry : Journal (LogEvent Configs) :=
  Journal.empty.extend (LogOp.append [blankEntry]).effects

theorem contract_blankEntry :
    (LogOp.append [blankEntry]).Contract (PurgedLog.empty : PurgedLog Configs).state := by
  refine ⟨?_, 0, rfl, ?_⟩
  · simp [blankEntry, Entry.index]
  · intro last hlast
    cases hlast

theorem run_blankEntry {C : PurgedLog Configs → LogOp Configs → Prop}
    (hC : C .empty (.append [blankEntry])) :
    Run C (PurgedLog.empty.append [blankEntry]) oneEntry :=
  Run.start.step (.append [blankEntry]) Holds.empty.getLogState contract_blankEntry hC
    (LogOp.run_eq _ _)

/-! ### A log that was cut at both ends

Two more entries are appended, the last one is truncated, and the first one purged. -/

/-- The second and the third entry of the leader. -/
def secondEntry : Entry Configs := ⟨⟨⟨1, 1⟩, 1⟩, .blank⟩

def thirdEntry : Entry Configs := ⟨⟨⟨1, 1⟩, 2⟩, .blank⟩

/-- The three entries. -/
abbrev threeEntries : PurgedLog Configs := ⟨none, [blankEntry, secondEntry, thirdEntry]⟩

/-- What is left of them. -/
abbrev secondOnly : PurgedLog Configs := ⟨some blankEntry.logId, [secondEntry]⟩

theorem contract_twoMore : (LogOp.append [secondEntry, thirdEntry]).Contract
    (PurgedLog.empty.append [blankEntry]).state := by
  refine ⟨by decide, 1, rfl, ?_⟩
  rintro last ⟨⟩
  rfl

theorem contract_saveVote {state : LogState} (vote : Vote) :
    (LogOp.saveVote (M := Configs) vote).Contract state := trivial

theorem contract_truncate :
    (LogOp.truncate (M := Configs) thirdEntry.logId).Contract threeEntries.state := by
  refine ⟨by decide, ?_⟩
  rintro purged ⟨⟩

theorem contract_purge {entries : List (Entry Configs)} :
    (LogOp.purge (M := Configs) blankEntry.logId).Contract (PurgedLog.state ⟨none, entries⟩) := by
  refine ⟨by decide, ?_⟩
  rintro purged ⟨⟩

/-- The database after the five operations. -/
abbrev secondLeft : Journal (LogEvent Configs) :=
  ((((oneEntry.extend (LogOp.append [secondEntry, thirdEntry]).effects).extend
    (LogOp.truncate thirdEntry.logId).effects).extend
      (LogOp.saveVote (M := Configs) ⟨⟨1, 1⟩, true⟩).effects).extend
        (LogOp.purge blankEntry.logId).effects)

theorem run_secondLeft : Run (fun _ _ => True) secondOnly secondLeft := by
  have h := (@run_blankEntry (fun _ _ => True) trivial).next contract_twoMore trivial
  have h := h.next contract_truncate trivial
  have h := h.next (contract_saveVote ⟨⟨1, 1⟩, true⟩) trivial
  exact h.next contract_purge trivial

theorem refinesPurgedLog_secondLeft : RefinesPurgedLog secondLeft secondOnly :=
  refinesPurgedLog_of_run run_secondLeft

end PlacementCenter.Openraft
