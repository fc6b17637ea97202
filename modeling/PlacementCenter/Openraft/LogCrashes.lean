import PlacementCenter.Openraft.LogRuns

/-!
# Crashes of the log store

A crash of the process leaves the writes made so far. The log store is well formed at every such
point, with one exception: between the two writes of a purge beyond the last entry, the purged id is
recorded and the older entries are still there, so that the last log id is behind the purged one.

## Main definitions

* `WellFormedAt p`: what the readers give on a reopened database is a well-formed log
* `LogOp.IdsGrow`: what openraft promises about the ids
* `LogOp.Within`: the purged id is not beyond the last entry

## Main results

* `Holds.between`: the logs that an operation passes through
* `wellFormed_iff`: **every crash point of a run is well formed** exactly when every purge is within
  the log
-/

namespace PlacementCenter.Openraft

open Rust Program

variable {M : Type}

/-! ### Well-formed logs -/

/-- The entries are consecutive, the first one follows the purged id or is before it, and the purged
id is not beyond the last one. -/
structure PurgedLog.WellFormed (log : PurgedLog M) : Prop where
  consecutive : ∃ start, Consecutive start log.entries
  first_le : ∀ e ∈ log.entries.head?, e.index.toNat ≤ LogId.nextIndex log.purged
  purged_le : LogId.AtMost log.purged log.lastLogId

/-- A log whose entries go on from the purged id, and are not before it. -/
structure PurgedLog.InOrder (log : PurgedLog M) : Prop where
  consecutive : ∃ start, Consecutive start log.entries ∧
    (log.entries ≠ [] → start ≤ LogId.nextIndex log.purged)
  purged_le : ∀ e ∈ log.entries, LogId.AtMost log.purged (some e.logId)

theorem Consecutive.cons_iff {start : ℕ} {e : Entry M} {es : List (Entry M)} :
    Consecutive start (e :: es) ↔ e.index.toNat = start ∧ Consecutive (start + 1) es := by
  simp [Consecutive, List.range'_succ]

theorem Consecutive.of_isPrefix {start : ℕ} {es part : List (Entry M)} (h : Consecutive start es)
    (hp : part <+: es) : Consecutive start part := by
  obtain ⟨rest, rfl⟩ := hp
  rw [Consecutive, List.map_append, List.length_append, ← List.range'_append_1] at h
  exact (List.append_inj h (by simp)).1

theorem Consecutive.append {start : ℕ} {es es' : List (Entry M)} (h : Consecutive start es)
    (h' : Consecutive (start + es.length) es') : Consecutive start (es ++ es') := by
  rw [Consecutive] at h h' ⊢
  rw [List.map_append, h, h', List.length_append, List.range'_append_1]

theorem Consecutive.sorted {start : ℕ} {es : List (Entry M)} (h : Consecutive start es) :
    es.Pairwise fun e e' => e.index.toNat < e'.index.toNat := by
  have hr : (List.range' start es.length).Pairwise (· < ·) := List.pairwise_lt_range'
  rwa [← h, List.pairwise_map] at hr

theorem Consecutive.start_le {start : ℕ} {es : List (Entry M)} (h : Consecutive start es)
    {e : Entry M} (he : e ∈ es) : start ≤ e.index.toNat := by
  have hm : e.index.toNat ∈ List.range' start es.length := h ▸ List.mem_map_of_mem he
  exact (List.mem_range'_1.mp hm).1

theorem Consecutive.last_index {start : ℕ} {es : List (Entry M)} {last : Entry M}
    (h : Consecutive start (es ++ [last])) : last.index.toNat = start + es.length := by
  rw [Consecutive, List.map_append, List.length_append, List.length_singleton,
    List.range'_concat] at h
  have hlast := (List.append_inj h (by simp)).2
  simpa using hlast

/-- The entries before an index are the first ones. -/
theorem Consecutive.filter_lt {start : ℕ} {es : List (Entry M)} (h : Consecutive start es)
    (i : UInt64) : Consecutive start (es.filter fun e => e.index < i) := by
  rw [← takeWhile_eq_filter (h.sorted.imp fun {e e'} hlt he => ?_)]
  · exact h.of_isPrefix (List.takeWhile_prefix _)
  · simp only [UInt64.lt_iff_toNat_lt, decide_eq_true_eq] at he ⊢
    omega

/-- The entries after an index are the last ones. -/
theorem Consecutive.filter_gt {start : ℕ} {es : List (Entry M)} (h : Consecutive start es)
    (i : UInt64) : Consecutive (max start (i.toNat + 1)) (es.filter fun e => i < e.index) := by
  induction es generalizing start with
  | nil => rfl
  | cons e es ih =>
    obtain ⟨he, hes⟩ := cons_iff.mp h
    have ih := ih hes
    by_cases hi : i < e.index
    · rw [List.filter_cons_of_pos (by simpa using hi)]
      rw [UInt64.lt_iff_toNat_lt, he] at hi
      rw [Nat.max_eq_left (by omega)] at ih ⊢
      exact cons_iff.mpr ⟨he, ih⟩
    · rw [List.filter_cons_of_neg (by simpa using hi)]
      rw [UInt64.lt_iff_toNat_lt, he] at hi
      rwa [Nat.max_eq_right (by omega)] at ih ⊢

theorem PurgedLog.lastLogId_of_nil {log : PurgedLog M} (h : log.entries = []) :
    log.lastLogId = log.purged := by
  simp [lastLogId, h]

theorem PurgedLog.lastLogId_of_getLast {log : PurgedLog M} {e : Entry M}
    (h : log.entries.getLast? = some e) : log.lastLogId = some e.logId := by
  simp [lastLogId, h]

/-- **A log in order** is well formed. -/
theorem PurgedLog.InOrder.wellFormed {log : PurgedLog M} (h : log.InOrder) : log.WellFormed where
  consecutive := h.consecutive.imp fun _ hs => hs.1
  first_le e he := by
    obtain ⟨start, hes, hle⟩ := h.consecutive
    obtain ⟨es, hlog⟩ := List.head?_eq_some_iff.mp he
    rw [hlog] at hes hle
    exact (Consecutive.cons_iff.mp hes).1 ▸ hle (by simp)
  purged_le := by
    rcases hl : log.entries.getLast? with _ | e
    · rw [lastLogId_of_nil (List.getLast?_eq_none_iff.mp hl)]
      exact .refl _
    · rw [lastLogId_of_getLast hl]
      exact h.purged_le e (List.mem_of_getLast? hl)

/-! ### What openraft promises about the ids -/

/-- A batch starts right after the last log id, at the first index when there is none; its ids are
not before the last one, and the entries that a purge leaves are not before the purged id. -/
def LogOp.IdsGrow (log : PurgedLog M) : LogOp M → Prop
  | append entries => Consecutive (LogId.nextIndex log.lastLogId) entries ∧
      ∀ e ∈ entries, LogId.AtMost log.lastLogId (some e.logId)
  | purge logId => ∀ e ∈ log.entries, logId.index < e.index → logId ≤ e.logId
  | truncate _ => True
  | saveVote _ => True
  | saveCommitted _ => True
  | setCurrentSnapshot _ => True

/-- The purged id is not beyond the last entry. -/
def LogOp.Within (log : PurgedLog M) : LogOp M → Prop
  | purge logId => ∀ last ∈ log.entries.getLast?, logId ≤ last.logId
  | append _ => True
  | truncate _ => True
  | saveVote _ => True
  | saveCommitted _ => True
  | setCurrentSnapshot _ => True

section steps

variable {log : PurgedLog M}

theorem PurgedLog.InOrder.append (h : log.InOrder) {entries : List (Entry M)}
    (hes : Consecutive (LogId.nextIndex log.lastLogId) entries)
    (hids : ∀ e ∈ entries, LogId.AtMost log.lastLogId (some e.logId)) :
    (log.append entries).InOrder := by
  obtain ⟨start, hlog, hle⟩ := h.consecutive
  -- the batch starts after the last entry, or after the purged id
  rcases hl : log.entries.getLast? with _ | last
  · have hnil := List.getLast?_eq_none_iff.mp hl
    rw [lastLogId_of_nil hnil] at hes hids
    refine ⟨⟨_, ?_, fun _ => Nat.le_refl _⟩, ?_⟩
    · rw [PurgedLog.append, hnil]
      exact hes
    · rw [PurgedLog.append, hnil]
      exact hids
  · rw [lastLogId_of_getLast hl] at hes hids
    obtain ⟨init, hinit⟩ := List.getLast?_eq_some_iff.mp hl
    have hnext : start + log.entries.length = last.index.toNat + 1 := by
      rw [hinit] at hlog ⊢
      rw [hlog.last_index, List.length_append, List.length_singleton, Nat.add_assoc]
    refine ⟨⟨start, hlog.append (hnext ▸ hes), fun _ => hle (by simp [hinit])⟩, fun e he => ?_⟩
    rcases List.mem_append.mp he with he | he
    · exact h.purged_le e he
    · exact (h.purged_le last (List.mem_of_getLast? hl)).trans (hids e he)

theorem PurgedLog.InOrder.truncate (h : log.InOrder) (logId : LogId) :
    (log.truncate logId).InOrder := by
  obtain ⟨start, hlog, hle⟩ := h.consecutive
  refine ⟨⟨start, hlog.filter_lt _, fun hne => hle ?_⟩, fun e he => ?_⟩
  · rintro hnil
    exact hne (by rw [PurgedLog.truncate, hnil]; rfl)
  · exact h.purged_le e (List.mem_filter.mp he).1

theorem PurgedLog.InOrder.purge (h : log.InOrder) {logId : LogId}
    (hpurged : ∀ purged ∈ log.purged, purged.index.toNat ≤ logId.index.toNat)
    (hids : ∀ e ∈ log.entries, logId.index < e.index → logId ≤ e.logId) :
    (log.purge logId).InOrder := by
  obtain ⟨start, hlog, hle⟩ := h.consecutive
  refine ⟨⟨_, hlog.filter_gt logId.index, fun hne => ?_⟩, fun e he => ?_⟩
  · have hstart : start ≤ LogId.nextIndex log.purged := hle (by
      rintro hnil
      exact hne (by rw [PurgedLog.purge, hnil]; rfl))
    have hnext : LogId.nextIndex log.purged ≤ logId.index.toNat + 1 := by
      rcases hp : log.purged with _ | purged
      · exact Nat.zero_le _
      · exact Nat.succ_le_succ (hpurged purged hp)
    exact Nat.max_le.mpr ⟨hstart.trans hnext, Nat.le_refl _⟩
  · obtain ⟨he, hlt⟩ := List.mem_filter.mp he
    rintro x hx
    obtain rfl := Option.some_inj.mp hx
    exact ⟨_, rfl, hids e he (by simpa using hlt)⟩

/-- A recorded id is not beyond the last one exactly when it is not beyond the last entry. -/
theorem PurgedLog.atMost_lastLogId {entries : List (Entry M)} {logId : LogId} :
    LogId.AtMost (some logId) (PurgedLog.lastLogId ⟨some logId, entries⟩) ↔
      ∀ last ∈ entries.getLast?, logId ≤ last.logId := by
  rcases hl : entries.getLast? with _ | last
  · rw [lastLogId_of_nil (List.getLast?_eq_none_iff.mp hl)]
    simp [LogId.AtMost]
  · rw [lastLogId_of_getLast hl]
    simp [LogId.AtMost]

/-- The logs that an operation passes through. -/
def LogOp.Between (log after : PurgedLog M) : LogOp M → Prop
  | append entries => ∃ part, part <+: entries ∧ after = log.append part
  | truncate logId => after = log ∨ after = log.truncate logId
  | purge logId => after = log ∨ after = ⟨some logId, log.entries⟩ ∨ after = log.purge logId
  | saveVote _ => after = log
  | saveCommitted _ => after = log
  | setCurrentSnapshot _ => after = log

/-- **Every log on the way is well formed**, when a purge is within the log. -/
theorem PurgedLog.InOrder.between (h : log.InOrder) {op : LogOp M} {after : PurgedLog M}
    (hc : op.Contract log.state) (hids : op.IdsGrow log) (hwithin : op.Within log)
    (hafter : op.Between log after) : after.WellFormed := by
  cases op with
  -- a part of the batch is a batch
  | append entries =>
    obtain ⟨part, hpart, rfl⟩ := hafter
    exact (h.append (hids.1.of_isPrefix hpart) fun e he => hids.2 e (hpart.subset he)).wellFormed
  | truncate logId =>
    rcases hafter with rfl | rfl
    · exact h.wellFormed
    · exact (h.truncate logId).wellFormed
  | purge logId =>
    rcases hafter with rfl | rfl | rfl
    · exact h.wellFormed
    -- the purged id is recorded, and its entries are still there
    · refine ⟨h.wellFormed.consecutive, fun e he => (h.wellFormed.first_le e he).trans ?_, ?_⟩
      · rcases hp : log.purged with _ | purged
        · exact Nat.zero_le _
        · exact Nat.succ_le_succ (hc.2 purged hp)
      · exact PurgedLog.atMost_lastLogId.mpr hwithin
    · exact (h.purge hc.2 hids).wellFormed
  | saveVote vote => exact hafter ▸ h.wellFormed
  | saveCommitted committed => exact hafter ▸ h.wellFormed
  | setCurrentSnapshot snap => exact hafter ▸ h.wellFormed

/-- An operation keeps a log in order. -/
theorem PurgedLog.InOrder.step (h : log.InOrder) {op : LogOp M} (hc : op.Contract log.state)
    (hids : op.IdsGrow log) : (op.apply log).InOrder := by
  cases op with
  | append entries => exact h.append hids.1 hids.2
  | truncate logId => exact h.truncate logId
  | purge logId => exact h.purge hc.2 hids
  | saveVote vote => exact h
  | saveCommitted committed => exact h
  | setCurrentSnapshot snap => exact h

end steps

/-! ### The points of a run -/

variable [SerdeJson M] {w : Journal (LogEvent M)} {log : PurgedLog M}

/-- The log stays while another record is written. -/
theorem Holds.of_prefix_setRecord (h : Holds w log) {key : String} {v : Bytes}
    {part : List (Effect (LogEvent M))} (hk : key ≠ "last_purged_log_id")
    (hp : part <+: [.put storeFamily (utf8 key) v, .sync]) : Holds (w.extend part) log := by
  rcases List.prefix_cons_iff.mp hp with rfl | ⟨part, rfl, hq⟩
  · rw [Journal.extend_nil]
    exact h
  rcases List.prefix_cons_iff.mp hq with rfl | ⟨part, rfl, hr⟩
  · exact h.putRecord hk v
  · obtain rfl := List.prefix_nil.mp hr
    exact h.setRecord hk v

/-- **The logs that an operation passes through** are those at its crash points. -/
theorem Holds.between (h : Holds w log) (hb : log.BelowMax) {op : LogOp M}
    (hc : op.Contract log.state) {part : List (Effect (LogEvent M))} (hp : part <+: op.effects) :
    ∃ after, Holds (w.extend part) after ∧ op.Between log after := by
  have start : Holds (w.extend []) log := by
    rw [Journal.extend_nil]
    exact h
  obtain ⟨hstep, -⟩ := h.step hb hc
  cases op with
  | append entries =>
    rcases List.prefix_concat_iff.mp hp with rfl | hp
    · exact ⟨_, hstep, entries, List.prefix_refl _, rfl⟩
    · obtain ⟨es, hes, rfl⟩ := List.prefix_map_iff.mp hp
      obtain ⟨start, hentries, habove⟩ := h.consecutive_above hc
      exact ⟨_, h.putEntries (hentries.of_isPrefix hes) habove, es, hes, rfl⟩
  | truncate logId =>
    rcases List.prefix_cons_iff.mp hp with rfl | ⟨part, rfl, hq⟩
    · exact ⟨_, start, .inl rfl⟩
    · obtain rfl := List.prefix_nil.mp hq
      exact ⟨_, hstep, .inr rfl⟩
  -- before the id is put, after it, after the flush and at the end
  | purge logId =>
    rcases List.prefix_cons_iff.mp hp with rfl | ⟨part, rfl, hq⟩
    · exact ⟨_, start, .inl rfl⟩
    rcases List.prefix_cons_iff.mp hq with rfl | ⟨part, rfl, hr⟩
    · exact ⟨_, h.putPurged logId, .inr (.inl rfl)⟩
    rcases List.prefix_cons_iff.mp hr with rfl | ⟨part, rfl, hs⟩
    · have hsync := (h.putPurged logId).sync
      rw [Journal.extend_extend] at hsync
      exact ⟨_, hsync, .inr (.inl rfl)⟩
    · obtain rfl := List.prefix_nil.mp hs
      exact ⟨_, hstep, .inr (.inr rfl)⟩
  | saveVote vote => exact ⟨_, h.of_prefix_setRecord (by decide) hp, rfl⟩
  | saveCommitted committed => exact ⟨_, h.of_prefix_setRecord (by decide) hp, rfl⟩
  | setCurrentSnapshot snap => exact ⟨_, h.of_prefix_setRecord (by decide) hp, rfl⟩

/-- **Every point of a run holds a log.** -/
theorem holds_of_isPrefix {C : PurgedLog M → LogOp M → Prop} (h : Run C log w)
    {p : Journal (LogEvent M)} (hp : p.IsPrefix w) : ∃ after, Holds p after := by
  refine h.at_points (motive := fun p => ∃ after, Holds p after) ⟨_, .empty⟩
    (fun op hr hw hb hc _ hpart _ => ?_) hp
  exact (hw.between hb hc hpart).imp fun _ hafter => hafter.1

/-- What the readers give on a reopened database is a well-formed log. -/
def WellFormedAt (p : Journal (LogEvent M)) : Prop :=
  ∃ es state, Completes (LogStore.tryGetLogEntries M ⟨.unbounded, .unbounded⟩) p (.ok es) p ∧
    Completes (LogStore.getLogState M) p (.ok state) p ∧ (∃ start, Consecutive start es) ∧
    (∀ e ∈ es.head?, e.index.toNat ≤ LogId.nextIndex state.lastPurgedLogId) ∧
    LogId.AtMost state.lastPurgedLogId state.lastLogId

omit [SerdeJson M] in
theorem PurgedLog.within_unbounded (log : PurgedLog M) :
    log.within ⟨.unbounded, .unbounded⟩ = log.entries := by
  simp [PurgedLog.within, RangeBounds.contains, Bound.startsAt, Bound.endsAt]

theorem Holds.wellFormedAt_iff (h : Holds w log) : WellFormedAt w ↔ log.WellFormed := by
  have hentries := tryGetLogEntries_run h.sound ⟨.unbounded, .unbounded⟩
  rw [h.log_eq, PurgedLog.within_unbounded] at hentries
  constructor
  · rintro ⟨es, state, hes, hstate, hcons, hfirst, hlast⟩
    obtain ⟨hes, -⟩ := (completes_of_run hentries).mp hes
    obtain ⟨hstate, -⟩ := (completes_of_run h.getLogState).mp hstate
    cases hes
    cases hstate
    exact ⟨hcons, hfirst, hlast⟩
  · rintro ⟨hcons, hfirst, hlast⟩
    exact ⟨log.entries, log.state, hentries, h.getLogState, hcons, hfirst, hlast⟩

/-- Every log of a run is in order. -/
theorem inOrder_of_run (h : Run LogOp.IdsGrow log w) : log.InOrder := by
  induction h using Run.induction_on with
  | start => exact ⟨⟨0, rfl, fun hne => absurd rfl hne⟩, fun e he => by cases he⟩
  | step op hr hw hb hc hC ih => exact ih.step hc hC

/-- A well-formed point between the two writes of a purge: the purge is within the log. -/
theorem Holds.within_of_wellFormed (h : Holds w log) {op : LogOp M}
    (hpoints : ∀ part, part <+: op.effects → WellFormedAt (w.extend part)) : op.Within log := by
  cases op with
  | purge logId =>
    have hpoint := hpoints [_] (List.prefix_iff_eq_take.mpr rfl)
    have hlog := (h.putPurged logId).wellFormedAt_iff.mp hpoint
    exact PurgedLog.atMost_lastLogId.mp hlog.purged_le
  | append entries => trivial
  | truncate logId => trivial
  | saveVote vote => trivial
  | saveCommitted committed => trivial
  | setCurrentSnapshot snap => trivial

/-- **Every crash point of a run is well formed** exactly when every purge is within the log. -/
theorem wellFormed_iff (h : Run LogOp.IdsGrow log w) :
    (∀ p : Journal (LogEvent M), p.IsPrefix w → WellFormedAt p) ↔
      Run (fun log op => op.IdsGrow log ∧ op.Within log) log w := by
  constructor
  · intro hpoints
    induction h using Run.induction_on with
    | start => exact .start
    | step op hr hw hb hc hC ih =>
      have hpast := ih fun p hp => hpoints p (Journal.isPrefix_extend.mpr (.inl hp))
      refine hpast.step op hw.getLogState hc ⟨hC, ?_⟩ (op.run_eq _)
      refine hw.within_of_wellFormed fun part hp => ?_
      exact hpoints _ (Journal.isPrefix_extend.mpr (.inr ⟨part, hp, rfl⟩))
  · intro hrun p hp
    refine hrun.at_points ?_ (fun op hr hw hb hc hC hpart _ => ?_) hp
    · exact Holds.empty.wellFormedAt_iff.mpr (inOrder_of_run .start).wellFormed
    · obtain ⟨after, hafter, hbetween⟩ := hw.between hb hc hpart
      have hlog := inOrder_of_run (hr.mono fun _ _ hC => hC.1)
      exact hafter.wellFormedAt_iff.mpr (hlog.between hc hC.1 hC.2 hbetween)

/-! ### A purge beyond the last entry

A snapshot that reaches further than the log is installed, and the log is purged up to it. -/

theorem idsGrow_blankEntry : (LogOp.append [blankEntry]).IdsGrow .empty := by
  refine ⟨rfl, fun e _ x hx => ?_⟩
  cases hx

theorem idsGrow_twoMore :
    (LogOp.append [secondEntry, thirdEntry]).IdsGrow (PurgedLog.empty.append [blankEntry]) := by
  have hle : ∀ e ∈ [secondEntry, thirdEntry], blankEntry.logId ≤ e.logId := by decide
  refine ⟨rfl, fun e he => ?_⟩
  rintro x ⟨⟩
  exact ⟨_, rfl, hle e he⟩

/-- The first of three entries is purged. -/
theorem run_purgeFirst : Run (fun log op => op.IdsGrow log ∧ op.Within log)
    (threeEntries.purge blankEntry.logId)
    ((oneEntry.extend (LogOp.append [secondEntry, thirdEntry]).effects).extend
      (LogOp.purge blankEntry.logId).effects) := by
  have h : Run (fun log op => op.IdsGrow log ∧ op.Within log) _ oneEntry :=
    run_blankEntry ⟨idsGrow_blankEntry, trivial⟩
  refine (h.next contract_twoMore ⟨idsGrow_twoMore, trivial⟩).next contract_purge ⟨?_, ?_⟩
  · have hle : ∀ e ∈ threeEntries.entries, blankEntry.logId ≤ e.logId := by decide
    exact fun e he _ => hle e he
  · rintro last ⟨⟩
    decide

/-- The point between the two writes of that purge. -/
def purgingFirst : Journal (LogEvent Configs) :=
  (oneEntry.extend (LogOp.append [secondEntry, thirdEntry]).effects).extend
    ((LogOp.purge (M := Configs) blankEntry.logId).effects.take 1)

/-- A purge within the log is well formed between its two writes. -/
theorem wellFormed_purgingFirst : WellFormedAt purgingFirst :=
  (wellFormed_iff (run_purgeFirst.mono fun _ _ h => h.1)).mpr run_purgeFirst purgingFirst
    (Journal.isPrefix_extend.mpr (.inr ⟨_, List.take_prefix _ _, rfl⟩))

/-- The last id of a snapshot. -/
def snapshotLogId : LogId := ⟨⟨1, 1⟩, 5⟩

/-- The database after the first of the two writes of the purge. -/
def purging : Journal (LogEvent Configs) :=
  oneEntry.extend ((LogOp.purge (M := Configs) snapshotLogId).effects.take 1)

/-- The log state between the two writes of a purge beyond the last entry: the last log id is
behind the purged one. -/
theorem last_behind_purged :
    Run LogOp.IdsGrow ((PurgedLog.empty.append [blankEntry]).purge snapshotLogId)
      (oneEntry.extend (LogOp.purge snapshotLogId).effects) ∧
    purging.IsPrefix (oneEntry.extend (LogOp.purge snapshotLogId).effects) ∧
    Completes (LogStore.getLogState Configs) purging
      (.ok ⟨some snapshotLogId, some blankEntry.logId⟩) purging ∧
    ¬ WellFormedAt purging := by
  have hrun := run_blankEntry idsGrow_blankEntry
  have hlog := (holds_of_run hrun).1
  have hpurging : Holds purging ⟨some snapshotLogId, [blankEntry]⟩ := hlog.putPurged snapshotLogId
  refine ⟨?_, ?_, hpurging.getLogState, fun hwell => ?_⟩
  · refine hrun.step (.purge snapshotLogId) hlog.getLogState ⟨by decide, ?_⟩ ?_ (LogOp.run_eq _ _)
    · intro purged hp
      cases hp
    · intro e he
      obtain rfl := List.mem_singleton.mp he
      decide
  · exact Journal.isPrefix_extend.mpr (.inr ⟨_, List.take_prefix _ _, rfl⟩)
  -- the log ends before the id that was purged
  · have hlast := PurgedLog.atMost_lastLogId.mp (hpurging.wellFormedAt_iff.mp hwell).purged_le
    exact absurd (hlast blankEntry rfl) (by decide)

end PlacementCenter.Openraft
