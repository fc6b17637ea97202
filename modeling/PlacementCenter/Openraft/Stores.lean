import PlacementCenter.Openraft.LogCrashes
import PlacementCenter.Rust.FlushedJournal

/-!
# The life of the two stores

The log store and the state machine keep the log and four records in one database: the vote, the
committed id, the last purged id and the snapshot. A life of the stores is a run of their operations
with crashes of the machine in between, each followed by a reopening on what the crash left. A crash
may come in the middle of an operation.

## Main definitions

* `Stores M`: what the two stores keep, and `LogOp.write`: what an operation does to it
* `Refines w s`: all readers of the two stores give what `s` keeps
* `Life C s w s' w'`: operations and crashes lead from the stores `s` on `w` to `s'` on `w'`

## Main results

* `sane_of_life`: the journal is sound and flushed at every step of a life
* `refines_of_life`: **the database refines the stores** along every life
* `reopens`: whatever a crash leaves can be read
* `Sane.records_of_crash`: **a crash leaves the old records or the new ones**
* `records_of_life`: **no life takes the records back**
-/

namespace PlacementCenter.Openraft

open Rust Program

variable {M : Type}

/-! ### What the stores keep -/

/-- The records of the two stores. -/
structure Records (M : Type) where
  vote : Option Vote
  committed : Option LogId
  purged : Option LogId
  snapshot : Option (StoredSnapshot M)

/-- What the two stores keep. -/
structure Stores (M : Type) where
  log : PurgedLog M
  vote : Option Vote
  committed : Option LogId
  snapshot : Option (StoredSnapshot M)

namespace Stores

/-- The stores on the empty database. -/
def empty : Stores M := ⟨.empty, none, none, none⟩

def records (s : Stores M) : Records M := ⟨s.vote, s.committed, s.log.purged, s.snapshot⟩

end Stores

/-- What an operation does to the stores. -/
def LogOp.write (s : Stores M) : LogOp M → Stores M
  | append entries => { s with log := s.log.append entries }
  | truncate logId => { s with log := s.log.truncate logId }
  | purge logId => { s with log := s.log.purge logId }
  | saveVote vote => { s with vote := some vote }
  | saveCommitted committed => { s with committed }
  | setCurrentSnapshot snap => { s with snapshot := some snap }

variable [SerdeJson M]

/-- All readers of the two stores give what `s` keeps. -/
structure Refines (w : Journal (LogEvent M)) (s : Stores M) : Prop where
  entries : ∀ range, Completes (LogStore.tryGetLogEntries M range) w (.ok (s.log.within range)) w
  state : Completes (LogStore.getLogState M) w (.ok s.log.state) w
  vote : Completes LogStore.readVote w (.ok s.vote) w
  committed : Completes LogStore.readCommitted w (.ok s.committed) w
  snapshot : Completes (StateMachineStore.currentSnapshot M) w (.ok s.snapshot) w

/-! ### The records of a database -/

/-- The record of a name. -/
def recordIn (α : Type) [SerdeJson α] (key : String) (m : ColumnFamily) : Option α :=
  (m[utf8 key]?).bind SerdeJson.fromSlice

/-- The stores that a database keeps. -/
def storesIn (w : Journal (LogEvent M)) : Stores M :=
  ⟨logIn w, recordIn Vote "vote" (w.column storeFamily),
    recordIn LogId "committed" (w.column storeFamily),
    recordIn (StoredSnapshot M) "snapshot" (w.column storeFamily)⟩

variable {w w' : Journal (LogEvent M)} {s s' : Stores M}

/-- **A database whose entries are sound** refines the stores that it keeps. -/
theorem refines_storesIn (h : Sound M (w.column logsFamily)) : Refines w (storesIn w) where
  entries := tryGetLogEntries_run h
  state := getLogState_run h
  vote := rfl
  committed := rfl
  snapshot := rfl

/-- The readers leave no choice. -/
theorem Refines.eq_storesIn (h : Refines w s) (hw : Sound M (w.column logsFamily)) :
    s = storesIn w := by
  have hin := refines_storesIn hw
  obtain ⟨⟨purged, entries⟩, vote, committed, snapshot⟩ := s
  have hentries := (completes_of_run (hin.entries ⟨.unbounded, .unbounded⟩)).mp
    (h.entries ⟨.unbounded, .unbounded⟩)
  have hstate := (completes_of_run hin.state).mp h.state
  -- the log is what the whole range reads, with the purged id of the log state
  have hlog : (⟨purged, entries⟩ : PurgedLog M) = logIn w := by
    have hes := Except.ok.inj hentries.1
    rw [PurgedLog.within_unbounded, PurgedLog.within_unbounded] at hes
    have hp := congrArg LogState.lastPurgedLogId (Except.ok.inj hstate.1)
    exact congrArg₂ PurgedLog.mk hp.symm hes.symm
  have hvote : (storesIn w).vote = vote :=
    Except.ok.inj ((completes_of_run hin.vote).mp h.vote).1
  have hcommitted : (storesIn w).committed = committed :=
    Except.ok.inj ((completes_of_run hin.committed).mp h.committed).1
  have hsnapshot : (storesIn w).snapshot = snapshot :=
    Except.ok.inj ((completes_of_run hin.snapshot).mp h.snapshot).1
  rw [hlog, ← hvote, ← hcommitted, ← hsnapshot]
  rfl

/-! ### What an operation writes -/

/-- The record that an operation writes: its name and its text. -/
def LogOp.record : LogOp M → Option (String × Bytes)
  | append _ => none
  | truncate _ => none
  | purge logId => some ("last_purged_log_id", SerdeJson.toVec logId)
  | saveVote vote => some ("vote", SerdeJson.toVec vote)
  | saveCommitted committed => some ("committed", SerdeJson.toVec committed)
  | setCurrentSnapshot snap => some ("snapshot", SerdeJson.toVec snap)

/-- A record is put and flushed. -/
def recordEffects {ε : Type} : Option (String × Bytes) → List (Effect ε)
  | some (key, v) => [.put storeFamily (utf8 key) v, .sync]
  | none => []

/-- **An operation writes its record first**, and nothing else to the family of the records. -/
theorem LogOp.effects_eq (op : LogOp M) : ∃ rest : List (Effect (LogEvent M)),
    (∀ x ∈ rest, ¬ x.Touches storeFamily) ∧ op.effects = recordEffects op.record ++ rest := by
  cases op with
  | append entries =>
    refine ⟨_, fun x hx => ?_, rfl⟩
    rcases List.mem_append.mp hx with hx | hx
    · obtain ⟨e, -, rfl⟩ := List.mem_map.mp hx
      simp [LogStore.putEntry, Effect.Touches, storeFamily, logsFamily]
    · rw [List.mem_singleton.mp hx]
      exact id
  | truncate logId => exact ⟨_, by simp [Effect.Touches, storeFamily, logsFamily], rfl⟩
  | purge logId => exact ⟨[_], by simp [Effect.Touches, storeFamily, logsFamily], rfl⟩
  | saveVote vote => exact ⟨[], by simp, rfl⟩
  | saveCommitted committed => exact ⟨[], by simp, rfl⟩
  | setCurrentSnapshot snap => exact ⟨[], by simp, rfl⟩

theorem LogOp.flushed_effects (op : LogOp M) : Journal.Flushed storeFamily ⟨op.effects⟩ := by
  obtain ⟨rest, hrest, heq⟩ := op.effects_eq
  rw [heq]
  rcases op.record with _ | ⟨key, v⟩
  · exact Journal.flushed_of_forall hrest
  · exact Journal.flushed_cons_sync hrest

theorem LogOp.touchesOnce_effects (op : LogOp M) : TouchesOnce storeFamily op.effects := by
  obtain ⟨rest, hrest, heq⟩ := op.effects_eq
  rw [heq]
  rcases op.record with _ | ⟨key, v⟩
  · exact touchesOnce_of_forall hrest
  · refine touchesOnce_cons fun y hy => ?_
    rcases List.mem_cons.mp hy with rfl | hy
    · exact id
    · exact hrest y hy

theorem LogOp.column_effects (op : LogOp M) (w : Journal (LogEvent M)) :
    (w.extend op.effects).column storeFamily =
      op.record.elim (w.column storeFamily) fun p =>
        (w.column storeFamily).insert (utf8 p.1) p.2 := by
  obtain ⟨rest, hrest, heq⟩ := op.effects_eq
  rw [heq, ← Journal.extend_extend, Journal.column_extend_of_forall _ hrest]
  rcases op.record with _ | ⟨key, v⟩
  · rw [recordEffects, Journal.extend_nil]
    rfl
  · rw [recordEffects, ← List.singleton_append, ← Journal.extend_extend,
      Journal.column_extend_sync, Journal.column_extend_put_self]
    rfl

section recordIn

variable {α : Type} [SerdeJson α] (key : String) (m : ColumnFamily)

omit [SerdeJson M] in
theorem recordIn_insert_self (v : Bytes) :
    recordIn α key (m.insert (utf8 key) v) = SerdeJson.fromSlice v := by
  rw [recordIn, OrdMap.lookup_insert_self, Option.bind_some]

omit [SerdeJson M] in
theorem recordIn_insert_ne {key' : String} (h : key' ≠ key) (v : Bytes) :
    recordIn α key (m.insert (utf8 key') v) = recordIn α key m := by
  rw [recordIn, OrdMap.lookup_insert_ne _ _ (by simpa), recordIn]

end recordIn

/-- The committed id is stored as an optional id, and read as an id. -/
theorem fromSlice_committed (committed : Option LogId) :
    (SerdeJson.fromSlice (SerdeJson.toVec committed) : Option LogId) = committed := by
  have hjson : (SerdeJson.fromSlice (SerdeJson.toVec committed) : Option LogId) =
      SerdeJson.fromJson (SerdeJson.toJson committed) := by
    simp [SerdeJson.fromSlice, SerdeJson.toVec, SerdeJson.fromStr, SerdeJson.toString,
      Json.parse_render]
  rw [hjson]
  rcases committed with _ | id
  · rfl
  · exact SerdeJson.fromJson_toJson id

/-- **An operation on the database** is the operation on the stores. -/
theorem storesIn_effects (h : Holds w (logIn w)) (hb : (logIn w).BelowMax) {op : LogOp M}
    (hc : op.Contract (logIn w).state) :
    storesIn (w.extend op.effects) = op.write (storesIn w) := by
  have hlog := (h.step hb hc).1.log_eq
  have hcolumn := op.column_effects w
  rw [storesIn, hlog, hcolumn]
  -- each operation writes one record at most, and leaves the others
  cases op with
  | append entries => rfl
  | truncate logId => rfl
  | purge logId =>
    simp only [LogOp.record, Option.elim_some]
    rw [recordIn_insert_ne _ _ (by decide), recordIn_insert_ne _ _ (by decide),
      recordIn_insert_ne _ _ (by decide)]
    rfl
  | saveVote vote =>
    simp only [LogOp.record, Option.elim_some]
    rw [recordIn_insert_self, SerdeJson.fromSlice_toVec,
      recordIn_insert_ne _ _ (by decide), recordIn_insert_ne _ _ (by decide)]
    rfl
  | saveCommitted committed =>
    simp only [LogOp.record, Option.elim_some]
    rw [recordIn_insert_self, fromSlice_committed,
      recordIn_insert_ne _ _ (by decide), recordIn_insert_ne _ _ (by decide)]
    rfl
  | setCurrentSnapshot snap =>
    simp only [LogOp.record, Option.elim_some]
    rw [recordIn_insert_self, SerdeJson.fromSlice_toVec,
      recordIn_insert_ne _ _ (by decide), recordIn_insert_ne _ _ (by decide)]
    rfl

/-! ### Lives -/

/-- The database that is opened on what a crash left. RocksDB writes what it recovers from its
write-ahead log to files of its own, so the next crash does not lose it. -/
def reopened (q : Journal (LogEvent M)) : Journal (LogEvent M) := q.extend [.sync]

/-- What operations and crashes make of the stores `s₀` on the database `w₀`. Openraft calls every
operation as it promises, with `C` besides; a crash comes at a point `p` of an operation. -/
inductive Life (C : Stores M → LogOp M → Prop) (s₀ : Stores M) (w₀ : Journal (LogEvent M)) :
    Stores M → Journal (LogEvent M) → Prop where
  | start : Life C s₀ w₀ s₀ w₀
  /-- An operation completes. -/
  | step {s w r w'} (op : LogOp M) (h : Life C s₀ w₀ s w) (hc : op.Contract s.log.state)
      (hC : C s op) (hrun : Completes op.run w r w') : Life C s₀ w₀ (op.write s) w'
  /-- An operation is cut off, and the stores are opened again. -/
  | crash {s w r w' p q s'} (op : LogOp M) (h : Life C s₀ w₀ s w) (hc : op.Contract s.log.state)
      (hC : C s op) (hrun : Completes op.run w r w') (hfrom : w.IsPrefix p) (hto : p.IsPrefix w')
      (hq : p.Crash q) (hs : Refines (reopened q) s') : Life C s₀ w₀ s' (reopened q)

variable {C : Stores M → LogOp M → Prop}

/-- Every point holds a log, and the last one keeps the stores `s`. -/
structure Sane (s : Stores M) (w : Journal (LogEvent M)) : Prop where
  points : ∀ p : Journal (LogEvent M), p.IsPrefix w → ∃ log, Holds p log ∧ log.BelowMax
  flushed : w.Flushed storeFamily
  stores : s = storesIn w

namespace Sane

theorem holds (h : Sane s w) : Holds w s.log ∧ s.log.BelowMax := by
  obtain ⟨log, hlog, hb⟩ := h.points w (.refl w)
  obtain rfl : s.log = log := (congrArg Stores.log h.stores).trans hlog.log_eq
  exact ⟨hlog, hb⟩

omit [SerdeJson M] in
theorem belowMax_of_between {log after : PurgedLog M} (hb : log.BelowMax) {op : LogOp M}
    (hc : op.Contract log.state) (h : op.Between log after) : after.BelowMax := by
  cases op with
  | append entries =>
    obtain ⟨part, hpart, rfl⟩ := h
    exact fun e he => (List.mem_append.mp he).elim (hb e) fun he => hc.1 e (hpart.subset he)
  | truncate logId =>
    rcases h with rfl | rfl
    · exact hb
    · exact fun e he => hb e (List.mem_filter.mp he).1
  | purge logId =>
    rcases h with rfl | rfl | rfl
    · exact hb
    · exact hb
    · exact fun e he => hb e (List.mem_filter.mp he).1
  | saveVote vote => exact h ▸ hb
  | saveCommitted committed => exact h ▸ hb
  | setCurrentSnapshot snap => exact h ▸ hb

/-- The points of the next operation. -/
theorem points_extend (h : Sane s w) {op : LogOp M} (hc : op.Contract s.log.state)
    {p : Journal (LogEvent M)} (hp : p.IsPrefix (w.extend op.effects)) :
    ∃ log, Holds p log ∧ log.BelowMax := by
  obtain ⟨hlog, hb⟩ := h.holds
  rcases Journal.isPrefix_extend.mp hp with hp | ⟨part, hpart, rfl⟩
  · exact h.points p hp
  · obtain ⟨after, hafter, hbetween⟩ := hlog.between hb hc hpart
    exact ⟨after, hafter, belowMax_of_between hb hc hbetween⟩

/-- **The next operation.** -/
theorem step (h : Sane s w) {op : LogOp M} (hc : op.Contract s.log.state) :
    Sane (op.write s) (w.extend op.effects) where
  points p hp := h.points_extend hc hp
  flushed := h.flushed.extend op.flushed_effects
  stores := by
    obtain ⟨hlog, hb⟩ := h.holds
    obtain rfl := h.stores
    exact (storesIn_effects hlog hb hc).symm

/-- **The database that is reopened** after a crash in the middle of the next operation. -/
theorem reopen (h : Sane s w) {op : LogOp M} (hc : op.Contract s.log.state)
    {p q : Journal (LogEvent M)} (hp : p.IsPrefix (w.extend op.effects)) (hq : p.Crash q) :
    Sane (storesIn (reopened q)) (reopened q) where
  points p' hp' := by
    rcases Journal.isPrefix_extend.mp hp' with hp' | ⟨part, hpart, rfl⟩
    · exact h.points_extend hc (hp'.trans (hq.lost.trans hp))
    · obtain ⟨log, hlog, hb⟩ := h.points_extend hc (hq.lost.trans hp)
      rcases List.prefix_cons_iff.mp hpart with rfl | ⟨rest, rfl, hrest⟩
      · rw [Journal.extend_nil]
        exact ⟨log, hlog, hb⟩
      · obtain rfl := List.prefix_nil.mp hrest
        exact ⟨log, hlog.sync, hb⟩
  flushed := Journal.flushed_extend_sync q
  stores := rfl

theorem refines (h : Sane s w) : Refines w s := by
  rw [h.stores]
  exact refines_storesIn h.holds.1.sound

end Sane

/-- **Every point of a life holds a log.** -/
theorem sane_of_life {s₀ s : Stores M} {w₀ w : Journal (LogEvent M)} (h₀ : Sane s₀ w₀)
    (h : Life C s₀ w₀ s w) : Sane s w := by
  induction h with
  | start => exact h₀
  | @step s w r w' op h hc hC hrun ih =>
    obtain ⟨-, rfl⟩ := (completes_of_run (op.run_eq w)).mp hrun
    exact ih.step hc
  | @crash s w r w' p q s' op h hc hC hrun hfrom hto hq hs ih =>
    obtain ⟨-, rfl⟩ := (completes_of_run (op.run_eq w)).mp hrun
    have hsane := ih.reopen hc hto hq
    rwa [hs.eq_storesIn hsane.holds.1.sound]

theorem sane_empty : Sane (Stores.empty : Stores M) Journal.empty where
  points p hp := by
    obtain ⟨effects⟩ := p
    obtain rfl : effects = [] := List.prefix_nil.mp hp
    exact ⟨_, .empty, fun e he => by cases he⟩
  flushed := Journal.flushed_empty
  stores := by
    rw [storesIn, Holds.empty.log_eq]
    simp [recordIn, Stores.empty]

/-- **The database refines the stores** along every life: after any number of operations and of
crashes, all readers give what the stores keep. -/
theorem refines_of_life (h : Life C .empty .empty s w) : Refines w s :=
  (sane_of_life sane_empty h).refines

/-- **Whatever a crash leaves can be read.** No operation fails, and the stores can be reopened after
a crash at any point of it. -/
theorem reopens (h : Life C .empty .empty s w) {op : LogOp M} (hc : op.Contract s.log.state) :
    ∃ w', Completes op.run w (.ok ()) w' ∧ ∀ p q : Journal (LogEvent M), p.IsPrefix w' →
      p.Crash q → ∃ s', Refines (reopened q) s' := by
  refine ⟨_, op.run_eq w, fun p q hp hq => ⟨storesIn (reopened q), ?_⟩⟩
  exact ((sane_of_life sane_empty h).reopen hc hp hq).refines

/-! ### The records -/

/-- The records of the stores are those of the family. -/
theorem records_storesIn_congr {w w' : Journal (LogEvent M)}
    (h : w'.column storeFamily = w.column storeFamily) :
    (storesIn w').records = (storesIn w).records := by
  rw [Stores.records, Stores.records, storesIn, storesIn, logIn, logIn, h]

/-- A part of an operation leaves the old records or the new ones. -/
theorem Sane.records_part (h : Sane s w) {op : LogOp M} (hc : op.Contract s.log.state)
    {part : List (Effect (LogEvent M))} (hpart : part <+: op.effects) :
    (storesIn (w.extend part)).records = s.records ∨
      (storesIn (w.extend part)).records = (op.write s).records := by
  rcases Journal.column_part w op.touchesOnce_effects hpart with hold | hnew
  · left
    rw [records_storesIn_congr hold, ← h.stores]
  · right
    rw [records_storesIn_congr hnew, ← (h.step hc).stores]

/-- **A crash leaves the old records or the new ones**, all four together. -/
theorem Sane.records_of_crash (h : Sane s w) {op : LogOp M} (hc : op.Contract s.log.state)
    {p q : Journal (LogEvent M)} (hfrom : w.IsPrefix p) (hto : p.IsPrefix (w.extend op.effects))
    (hq : p.Crash q) : (storesIn (reopened q)).records = s.records ∨
      (storesIn (reopened q)).records = (op.write s).records := by
  have hnew := h.step hc
  have hreopened : (reopened q).column storeFamily = q.column storeFamily :=
    Journal.column_extend_sync q storeFamily
  obtain ⟨part, rfl⟩ : ∃ part, p = w.extend part := by
    obtain ⟨part, hpart⟩ := hfrom
    exact ⟨part, congrArg Journal.mk hpart.symm⟩
  have hpart := (List.prefix_append_right_inj _).mp hto
  rcases hq.column_extend h.flushed op.touchesOnce_effects hpart with hold | hnewColumn
  · left
    rw [records_storesIn_congr (hreopened.trans hold), ← h.stores]
  · right
    rw [records_storesIn_congr (hreopened.trans hnewColumn), ← hnew.stores]

/-- **No life takes the records back.** When every operation goes up in an order of the records, a
life of any number of operations and crashes does. -/
theorem records_of_life (le : Records M → Records M → Prop) (hrefl : ∀ r, le r r)
    (htrans : ∀ {r r' r''}, le r r' → le r' r'' → le r r'')
    (hC : ∀ s op, C s op → le s.records (op.write s).records)
    (h : Life C .empty .empty s w) (h' : Life C s w s' w') : le s.records s'.records := by
  have h₀ := sane_of_life sane_empty h
  induction h' with
  | start => exact hrefl _
  | @step s' w' r w'' op hl hc hCop hrun ih => exact htrans ih (hC _ op hCop)
  | @crash s' w' r w'' p q s'' op hl hc hCop hrun hfrom hto hq hs ih =>
    obtain ⟨-, rfl⟩ := (completes_of_run (op.run_eq w')).mp hrun
    have hsane := sane_of_life h₀ hl
    have heq := hs.eq_storesIn (hsane.reopen hc hto hq).holds.1.sound
    refine htrans ih ?_
    rcases hsane.records_of_crash hc hfrom hto hq with hold | hnew
    · rw [heq, hold]
      exact hrefl _
    · rw [heq, hnew]
      exact hC _ op hCop

/-! ### A life with a crash -/

/-- A database that is opened again keeps the same stores. -/
theorem storesIn_reopened (w : Journal (LogEvent M)) : storesIn (reopened w) = storesIn w := by
  have hcolumn : ∀ family, (reopened w).column family = w.column family :=
    Journal.column_extend_sync w
  rw [storesIn, storesIn, logIn, logIn, hcolumn, hcolumn]

/-- The stores after an operation. -/
theorem Life.op {s₀ : Stores M} {w₀ : Journal (LogEvent M)} (h : Life C s₀ w₀ s w) (op : LogOp M)
    (hc : op.Contract s.log.state) (hC : C s op) : Life C s₀ w₀ (op.write s) (w.extend op.effects) :=
  h.step op hc hC (op.run_eq w)

/-- A crash loses the first effects of an operation, none of which was flushed. -/
theorem Life.cut {s₀ : Stores M} {w₀ : Journal (LogEvent M)} (h : Life C s₀ w₀ s w)
    (hsane : Sane s w) (op : LogOp M) (hc : op.Contract s.log.state) (hC : C s op)
    (part : List (Effect (LogEvent M))) {rest : List (Effect (LogEvent M))}
    (heq : op.effects = part ++ rest) (hsync : .sync ∉ part) : Life C s₀ w₀ (storesIn (reopened w)) (reopened w) := by
  have hto : (w.extend part).IsPrefix (w.extend op.effects) :=
    (List.prefix_append_right_inj _).mpr ⟨rest, heq.symm⟩
  have hcrash : (w.extend part).Crash w := Journal.Crash.iff_not_sync_mem.mpr hsync
  exact h.crash op hc hC (op.run_eq w) (List.prefix_append _ _) hto hcrash
    (hsane.reopen hc hto hcrash).refines

/-- The vote of a candidate. -/
def candidate (term : UInt64) : Vote := ⟨⟨term, 1⟩, false⟩

/-- A vote is saved, and the next one is cut off before its flush. -/
theorem life_candidate {C : Stores Configs → LogOp Configs → Prop}
    (hC : ∀ s term, s.vote = none ∨ s.vote = some (candidate 1) → 1 ≤ term.toNat →
      C s (.saveVote (candidate term))) : ∃ w s',
      Life C .empty .empty (LogOp.write .empty (.saveVote (candidate 1))) w ∧
      Life C (LogOp.write .empty (.saveVote (candidate 1))) w s' (reopened w) := by
  have h : Life C .empty .empty _ _ := Life.start.op (.saveVote (candidate 1)) trivial
    (hC _ _ (.inl rfl) (by decide))
  refine ⟨_, _, h, Life.start.cut (sane_of_life sane_empty h) (.saveVote (candidate 2)) trivial
    (hC _ _ (.inr rfl) (by decide)) [_] rfl ?_⟩
  simp

/-- The terms of the votes do not go back. -/
def TermsGrow (r r' : Records Configs) : Prop :=
  ∀ v ∈ r.vote, ∃ v' ∈ r'.vote, v.leaderId.term.toNat ≤ v'.leaderId.term.toNat

/-- The stores after a vote, an entry and its commit. -/
abbrev afterCrash : Stores Configs :=
  ⟨PurgedLog.empty.append [blankEntry], some (candidate 1), some blankEntry.logId, none⟩

/-- After a vote and an entry, the next two entries are cut off, and the entry is committed. -/
theorem refines_afterCrash : ∃ w : Journal (LogEvent Configs), Refines w afterCrash := by
  have h : Life (fun _ _ => True) .empty .empty _ _ :=
    Life.start.op (M := Configs) (.saveVote (candidate 1)) trivial trivial
  have h := h.op (.append [blankEntry]) contract_blankEntry trivial
  have hsane := sane_of_life sane_empty h
  have h := h.cut hsane (.append [secondEntry, thirdEntry]) contract_twoMore trivial
    [LogStore.putEntry secondEntry] rfl (by simp [LogStore.putEntry])
  rw [storesIn_reopened, ← hsane.stores] at h
  exact ⟨_, refines_of_life (h.op (.saveCommitted (some blankEntry.logId)) trivial trivial)⟩

/-- The next vote is saved, and a crash at any point of it leaves readable stores. -/
theorem reopens_candidate : ∃ w w' : Journal (LogEvent Configs),
    Completes (LogOp.saveVote (M := Configs) (candidate 2)).run w (.ok ()) w' ∧
      ∀ p q : Journal (LogEvent Configs), p.IsPrefix w' → p.Crash q → ∃ s', Refines (reopened q) s' := by
  obtain ⟨w, s', h, -⟩ := life_candidate (C := fun _ _ => True) fun _ _ _ _ => trivial
  exact ⟨w, reopens h trivial⟩

/-- The term of the vote does not go back when the next vote is cut off. -/
theorem records_candidate : ∃ s' : Stores Configs,
    TermsGrow (LogOp.write .empty (.saveVote (candidate 1))).records s'.records := by
  have grows : ∀ (s : Stores Configs) (term : UInt64),
      s.vote = none ∨ s.vote = some (candidate 1) → 1 ≤ term.toNat →
        TermsGrow s.records (LogOp.write s (.saveVote (candidate term))).records := by
    rintro s term hs hterm v hv
    refine ⟨candidate term, rfl, ?_⟩
    rcases hs with hs | hs
    · rw [Stores.records, hs] at hv
      cases hv
    · rw [Stores.records, hs] at hv
      exact Option.mem_some_iff.mp hv ▸ hterm
  obtain ⟨w, s', h, h'⟩ := life_candidate
    (C := fun s op => TermsGrow s.records (op.write s).records) grows
  refine ⟨s', records_of_life TermsGrow (fun r v hv => ⟨v, hv, le_rfl⟩) ?_
    (fun _ _ hC => hC) h h'⟩
  intro r r' r'' h h' v hv
  obtain ⟨v', hv', hle⟩ := h v hv
  obtain ⟨v'', hv'', hle'⟩ := h' v' hv'
  exact ⟨v'', hv'', hle.trans hle'⟩

end PlacementCenter.Openraft
