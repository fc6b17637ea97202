import PlacementCenter.Openraft.LogCrashes
import PlacementCenter.Rust.FlushedJournal

/-!
# Durability of the log

An append announces its entries without a flush of the write-ahead log. A crash of the machine may
lose them, unless another operation flushed the log in between: an entry survives every crash
exactly when a flush followed its announcement.

## Main definitions

* `Acknowledged p e`: the entry was announced, and not deleted since
* `Durable p q`: every acknowledged entry is read after the crash
* `Synced p`: a flush followed the announcement of every acknowledged entry

## Main results

* `acknowledged_mem`: an acknowledged entry is in the log
* `exists_before_append`: a run passes through a log without the entries that it announces later
* `durable_iff`: **every crash leaves the acknowledged entries** exactly when they were flushed
-/

namespace PlacementCenter.Openraft

open Rust Program

variable {M : Type}

/-! ### Acknowledged entries -/

/-- No effect deletes the entry. -/
def Undeleted (es : List (Effect (LogEvent M))) (e : Entry M) : Prop :=
  ∀ x ∈ es, ¬ x.Deletes logsFamily (idToBin e.index)

/-- The entry was announced, and neither truncated nor purged since. -/
def Acknowledged (p : Journal (LogEvent M)) (e : Entry M) : Prop :=
  ∃ before entries after, p.effects = before ++ .event (.ioCompleted entries) :: after ∧
    e ∈ entries ∧ Undeleted after e

/-- An entry that is acknowledged after some more effects was acknowledged before, or by them. -/
theorem Acknowledged.of_extend {w : Journal (LogEvent M)} {es : List (Effect (LogEvent M))}
    {e : Entry M} (h : Acknowledged (w.extend es) e) :
    (Acknowledged w e ∧ Undeleted es e) ∨ Acknowledged ⟨es⟩ e := by
  obtain ⟨before, entries, after, heq, he, hafter⟩ := h
  rw [Journal.effects_extend] at heq
  rcases List.append_eq_append_iff.mp heq with ⟨as, rfl, hes⟩ | ⟨bs, hw, hes⟩
  · exact .inr ⟨as, entries, after, hes, he, hafter⟩
  · cases bs with
    | nil => exact .inr ⟨[], entries, after, hes.symm, he, hafter⟩
    | cons b bs =>
      obtain ⟨rfl, rfl⟩ := List.cons.inj hes
      refine .inl ⟨⟨before, entries, bs, hw, he, fun x hx => ?_⟩, fun x hx => ?_⟩
      · exact hafter x (List.mem_append_left _ hx)
      · exact hafter x (List.mem_append_right _ hx)

variable [SerdeJson M] {w p q : Journal (LogEvent M)} {log : PurgedLog M}
  {C : PurgedLog M → LogOp M → Prop}

/-- Only a batch that goes on after the log writes entries. -/
theorem Holds.not_puts (h : Holds w log) {op : LogOp M} (hc : op.Contract log.state) {e : Entry M}
    (he : e ∈ log.entries) : ∀ x ∈ op.effects, ¬ x.Puts logsFamily (idToBin e.index) := by
  cases op with
  -- a batch lies above the entries of the log
  | append entries =>
    obtain ⟨start, hes, habove⟩ := h.consecutive_above hc
    intro x hx hput
    rcases List.mem_append.mp hx with hx | hx
    · obtain ⟨e', he', rfl⟩ := List.mem_map.mp hx
      have heq : e'.index = e.index := idToBin_injective hput.2
      have hlt := habove e he
      have hle := hes.start_le he'
      rw [heq] at hle
      omega
    · obtain rfl := List.mem_singleton.mp hx
      exact hput
  | truncate logId => simp [LogOp.effects, Effect.Puts]
  | purge logId => simp [LogOp.effects, Effect.Puts, storeFamily, logsFamily]
  | saveVote vote => simp [LogOp.effects, Effect.Puts, storeFamily, logsFamily]
  | saveCommitted committed => simp [LogOp.effects, Effect.Puts, storeFamily, logsFamily]
  | setCurrentSnapshot snap => simp [LogOp.effects, Effect.Puts, storeFamily, logsFamily]

/-- Only the end of an append announces entries: its own. -/
theorem append_of_announced {op : LogOp M} {part : List (Effect (LogEvent M))}
    {entries : List (Entry M)} (hp : part <+: op.effects)
    (h : .event (.ioCompleted entries) ∈ part) : op = .append entries ∧ part = op.effects := by
  have puts : ∀ {es : List (Entry M)},
      Effect.event (.ioCompleted entries) ∉ es.map LogStore.putEntry := by
    simp [LogStore.putEntry]
  cases op with
  | append es =>
    rcases List.prefix_concat_iff.mp hp with rfl | hp
    · rcases List.mem_append.mp h with h | h
      · exact absurd h puts
      · cases List.mem_singleton.mp h
        exact ⟨rfl, rfl⟩
    · exact absurd (hp.subset h) puts
  | truncate logId => exact absurd (hp.subset h) (by simp [LogOp.effects])
  | purge logId => exact absurd (hp.subset h) (by simp [LogOp.effects])
  | saveVote vote => exact absurd (hp.subset h) (by simp [LogOp.effects])
  | saveCommitted committed => exact absurd (hp.subset h) (by simp [LogOp.effects])
  | setCurrentSnapshot snap => exact absurd (hp.subset h) (by simp [LogOp.effects])

/-- The announcement is the last effect of an append. -/
theorem nil_of_announced {op : LogOp M} {part before after : List (Effect (LogEvent M))}
    {entries : List (Entry M)} (hp : part <+: op.effects)
    (heq : part = before ++ .event (.ioCompleted entries) :: after) : after = [] := by
  have hannounced : .event (.ioCompleted entries) ∈ part := by simp [heq]
  obtain ⟨rfl, rfl⟩ := append_of_announced hp hannounced
  rcases List.eq_nil_or_concat after with hnil | ⟨init, x, hinit⟩
  · exact hnil
  · rw [hinit, List.concat_eq_append, ← List.cons_append, ← List.append_assoc, LogOp.effects] at heq
    have hputs := (List.append_inj' heq rfl).1
    have hmem : Effect.event (.ioCompleted entries) ∈ entries.map LogStore.putEntry := by
      simp [hputs]
    simp [LogStore.putEntry] at hmem

/-- **An acknowledged entry is in the log**, at every point of a run. -/
theorem acknowledged_mem (h : Run C log w) (hp : p.IsPrefix w) {e : Entry M}
    (ha : Acknowledged p e) : ∃ log', Holds p log' ∧ e ∈ log'.entries := by
  revert ha
  refine h.at_points (motive := fun p => Acknowledged p e → ∃ log', Holds p log' ∧ e ∈ log'.entries)
    ?_ ?_ hp
  · rintro ⟨before, entries, after, heq, -⟩
    simp [Journal.empty] at heq
  · intro log w part op hr hw hb hc hC hpart ih ha
    obtain ⟨after, hafter, -⟩ := hw.between hb hc hpart
    refine ⟨after, hafter, ?_⟩
    -- the entry was acknowledged before the operation, or by it
    rcases ha.of_extend with ⟨ha, hu⟩ | ⟨before, entries, rest, heq, he, -⟩
    · obtain ⟨log', hw', he⟩ := ih w (.refl w) ha
      obtain rfl : log = log' := hw.log_eq.symm.trans hw'.log_eq
      rw [← hafter.entries_eq, mem_entriesIn hafter.sound, Journal.lookup_extend _ _ _
        (fun x hx => hw.not_puts hc he x (hpart.subset hx)) hu, ← mem_entriesIn hw.sound,
        hw.entries_eq]
      exact he
    · change part = _ at heq
      have hannounced : .event (.ioCompleted entries) ∈ part := by simp [heq]
      obtain ⟨rfl, rfl⟩ := append_of_announced hpart hannounced
      have hlog := (hw.step hb hc).1.log_eq.symm.trans hafter.log_eq
      rw [← hlog]
      exact List.mem_append_right _ he

/-! ### Crashes of the machine -/

/-- Every acknowledged entry is read after the crash, in each range with its index. -/
def Durable (p q : Journal (LogEvent M)) : Prop :=
  ∀ e : Entry M, Acknowledged p e → ∀ range : RangeBounds, range.contains e.index →
    ∃ es, Completes (LogStore.tryGetLogEntries M range) q (.ok es) q ∧ e ∈ es

/-- A flush of the write-ahead log followed the announcement of every entry that was not deleted
since. -/
def Synced (p : Journal (LogEvent M)) : Prop :=
  ∀ before entries after, p.effects = before ++ .event (.ioCompleted entries) :: after →
    ∀ e ∈ entries, Undeleted after e → .sync ∈ after

/-- Nothing writes an acknowledged entry again. -/
theorem not_puts_of_acknowledged (h : Run C log w) (hp : p.IsPrefix w) {e : Entry M}
    {before after : List (Effect (LogEvent M))} {entries : List (Entry M)}
    (heq : p.effects = before ++ .event (.ioCompleted entries) :: after) (he : e ∈ entries)
    (hu : Undeleted after e) : ∀ x ∈ after, ¬ x.Puts logsFamily (idToBin e.index) := by
  revert after
  refine h.at_points (motive := fun p => ∀ {after : List (Effect (LogEvent M))},
    p.effects = before ++ .event (.ioCompleted entries) :: after → Undeleted after e →
      ∀ x ∈ after, ¬ x.Puts logsFamily (idToBin e.index)) ?_ ?_ hp
  · intro after heq
    simp [Journal.empty] at heq
  · intro log w part op hr hw hb hc hC hpart ih after heq hu
    rw [Journal.effects_extend] at heq
    -- the announcement lies in this operation, or before it
    rcases List.append_eq_append_iff.mp heq with ⟨as, rfl, hes⟩ | ⟨bs, hbs, hes⟩
    · rw [nil_of_announced hpart hes]
      simp
    · cases bs with
      | nil =>
        have hnil : part = [] ++ .event (.ioCompleted entries) :: after := hes.symm
        rw [nil_of_announced hpart hnil]
        simp
      | cons b bs =>
        obtain ⟨rfl, rfl⟩ := List.cons.inj hes
        have hu' : Undeleted bs e := fun x hx => hu x (List.mem_append_left _ hx)
        obtain ⟨log', hw', hmem⟩ :=
          acknowledged_mem hr (.refl w) ⟨before, entries, bs, hbs, he, hu'⟩
        obtain rfl : log = log' := hw.log_eq.symm.trans hw'.log_eq
        intro x hx
        rcases List.mem_append.mp hx with hx | hx
        · exact ih w (.refl w) hbs hu' x hx
        · exact hw.not_puts hc hmem x (hpart.subset hx)

/-- **Flushed entries survive** every crash. -/
theorem durable_of_synced (h : Run C log w) (hp : p.IsPrefix w) (hs : Synced p) (hq : p.Crash q) :
    Durable p q := by
  intro e ha range hrange
  obtain ⟨log', hlog, he⟩ := acknowledged_mem h hp ha
  obtain ⟨after', hafter'⟩ := holds_of_isPrefix h (hq.lost.trans hp)
  obtain ⟨before, entries, after, heq, hmem, hu⟩ := ha
  obtain ⟨lost, rfl⟩ := hq.exists_lost
  -- what is lost lies after the flush, and nothing there writes the entry
  have hlost : lost <:+ .event (.ioCompleted entries) :: after :=
    hq.lost_suffix heq (List.mem_cons_of_mem _ (hs before entries after heq e hmem hu))
  have hkept : ∀ x ∈ lost, ¬ x.Puts logsFamily (idToBin e.index) := by
    intro x hx
    rcases List.mem_cons.mp (hlost.subset hx) with rfl | hx
    · exact id
    · exact not_puts_of_acknowledged h hp heq hmem hu x hx
  have hread : (q.column logsFamily)[idToBin e.index]? = some (SerdeJson.toVec e) := by
    rw [← hlog.entries_eq, mem_entriesIn hlog.sound] at he
    exact Journal.lookup_of_extend _ _ _ _ hkept he
  refine ⟨_, tryGetLogEntries_run hafter'.sound range, List.mem_filter.mpr ⟨?_, hrange⟩⟩
  exact (mem_entriesIn hafter'.sound).mpr hread

/-- **Before an announcement**, the run was at a log that the announced batch goes on after. -/
theorem exists_before_append (h : Run C log w) (hp : p.IsPrefix w)
    {before after : List (Effect (LogEvent M))} {entries : List (Entry M)}
    (heq : p.effects = before ++ .event (.ioCompleted entries) :: after) :
    ∃ u log', before = u.effects ++ entries.map LogStore.putEntry ∧ Holds u log' ∧
      (LogOp.append entries).Contract log'.state := by
  revert before after
  refine h.at_points (motive := fun p => ∀ {before after : List (Effect (LogEvent M))},
    p.effects = before ++ .event (.ioCompleted entries) :: after →
      ∃ u log', before = u.effects ++ entries.map LogStore.putEntry ∧ Holds u log' ∧
        (LogOp.append entries).Contract log'.state) ?_ ?_ hp
  · intro before after heq
    simp [Journal.empty] at heq
  · intro log w part op hr hw hb hc hC hpart ih before after heq
    -- an announcement among the effects of the operation ends them
    have last : ∀ {as after}, part = as ++ .event (.ioCompleted entries) :: after →
        as = entries.map LogStore.putEntry ∧ (LogOp.append entries).Contract log.state := by
      intro as after hes
      obtain rfl := nil_of_announced hpart hes
      have hannounced : .event (.ioCompleted entries) ∈ part := by simp [hes]
      obtain ⟨rfl, rfl⟩ := append_of_announced hpart hannounced
      exact ⟨(List.append_inj' hes rfl).1.symm, hc⟩
    rw [Journal.effects_extend] at heq
    rcases List.append_eq_append_iff.mp heq with ⟨as, rfl, hes⟩ | ⟨bs, hbs, hes⟩
    · obtain ⟨rfl, hc⟩ := last hes
      exact ⟨w, log, rfl, hw, hc⟩
    · cases bs with
      | nil =>
        obtain ⟨has, hc⟩ := @last [] _ hes.symm
        refine ⟨w, log, ?_, hw, hc⟩
        rw [← has, hbs]
        simp
      | cons b bs =>
        obtain ⟨rfl, rfl⟩ := List.cons.inj hes
        exact ih w (.refl w) hbs

/-- **Without a flush, a crash loses the batch**: back to the log it was appended to. -/
theorem synced_of_durable (h : Run C log w) (hp : p.IsPrefix w)
    (hd : ∀ q : Journal (LogEvent M), p.Crash q → Durable p q) : Synced p := by
  intro before entries after heq e he hu
  by_contra hsync
  obtain ⟨u, log', hbefore, hlog, hc⟩ := exists_before_append h hp heq
  have hpu : p = u.extend (entries.map LogStore.putEntry ++
      .event (.ioCompleted entries) :: after) := by
    obtain ⟨effects⟩ := p
    obtain rfl : effects = _ := heq
    rw [hbefore, Journal.extend, List.append_assoc]
  have hcrash : p.Crash u := by
    rw [hpu]
    refine Journal.Crash.iff_not_sync_mem.mpr fun hmem => ?_
    simp [LogStore.putEntry, hsync] at hmem
  obtain ⟨es, hes, hmem⟩ :=
    hd u hcrash e ⟨before, entries, after, heq, he, hu⟩ ⟨.unbounded, .unbounded⟩ rfl
  obtain ⟨hes, -⟩ := (completes_of_run (tryGetLogEntries_run hlog.sound _)).mp hes
  cases hes
  rw [hlog.log_eq, PurgedLog.within_unbounded] at hmem
  -- the batch lies above all entries of that log
  obtain ⟨start, hcons, habove⟩ := hlog.consecutive_above hc
  exact absurd (hcons.start_le he) (Nat.not_le.mpr (habove e hmem))

/-- **Every crash leaves the acknowledged entries** exactly when a flush followed each of their
announcements. -/
theorem durable_iff (h : Run C log w) (hp : p.IsPrefix w) :
    (∀ q : Journal (LogEvent M), p.Crash q → Durable p q) ↔ Synced p :=
  ⟨synced_of_durable h hp, fun hs _ hq => durable_of_synced h hp hs hq⟩

omit [SerdeJson M] in
/-- A flush after the last announcement. -/
theorem synced_extend (w : Journal (LogEvent M)) {es : List (Effect (LogEvent M))}
    (hsync : .sync ∈ es) (hes : ∀ entries, .event (.ioCompleted entries) ∉ es) :
    Synced (w.extend es) := by
  intro before entries after heq e _ _
  rw [Journal.effects_extend] at heq
  rcases List.append_eq_append_iff.mp heq with ⟨as, -, has⟩ | ⟨bs, -, hbs⟩
  · exact absurd (has ▸ List.mem_append_right as List.mem_cons_self) (hes entries)
  · cases bs with
    | nil =>
      obtain rfl : .event (.ioCompleted entries) :: after = es := hbs
      exact absurd List.mem_cons_self (hes entries)
    | cons b bs =>
      obtain ⟨-, rfl⟩ := List.cons.inj hbs
      exact List.mem_append_right bs hsync

/-! ### A vote between two batches

The flush of the vote keeps the first entry; the crash takes the second one, whose batch was not
announced yet. -/

/-- The database after the first entry and a vote. -/
abbrev voted : Journal (LogEvent Configs) :=
  oneEntry.extend (LogOp.saveVote (M := Configs) ⟨⟨1, 1⟩, true⟩).effects

/-- The second batch is being appended. -/
abbrev appending : Journal (LogEvent Configs) := voted.extend [LogStore.putEntry secondEntry]

theorem run_secondBatch : Run (fun _ _ => True)
    ((PurgedLog.empty.append [blankEntry]).append [secondEntry, thirdEntry])
    (voted.extend (LogOp.append [secondEntry, thirdEntry]).effects) := by
  have h := (@run_blankEntry (fun _ _ => True) trivial).next
    (contract_saveVote ⟨⟨1, 1⟩, true⟩) trivial
  exact h.next contract_twoMore trivial

theorem acknowledged_appending : Acknowledged appending blankEntry := by
  refine ⟨[LogStore.putEntry blankEntry], [blankEntry],
    (LogOp.saveVote ⟨⟨1, 1⟩, true⟩).effects ++ [LogStore.putEntry secondEntry], rfl,
    List.mem_singleton_self _, fun x hx => ?_⟩
  -- neither the vote nor the second entry deletes it
  simp only [LogOp.effects, List.cons_append, List.nil_append, List.mem_cons, List.not_mem_nil,
    or_false] at hx
  rcases hx with rfl | rfl | rfl <;> exact id

/-- The crash takes the write of the second entry, and leaves the first one. -/
theorem durable_voted : appending.Crash voted ∧ Acknowledged appending blankEntry ∧
    Durable appending voted := by
  have hcrash : appending.Crash voted :=
    Journal.Crash.iff_not_sync_mem.mpr (by simp [LogStore.putEntry])
  -- the vote was flushed after the only announcement
  have hsynced : Synced appending := by
    rw [appending, voted, Journal.extend_extend]
    exact synced_extend oneEntry (by simp [LogOp.effects])
      (by simp [LogOp.effects, LogStore.putEntry])
  refine ⟨hcrash, acknowledged_appending, (durable_iff run_secondBatch ?_).mpr hsynced voted hcrash⟩
  exact Journal.isPrefix_extend.mpr (.inr ⟨_, List.take_prefix 1 _, rfl⟩)

/-! ### An acknowledged entry that is lost -/

theorem acknowledged_blankEntry : Acknowledged oneEntry blankEntry :=
  ⟨[LogStore.putEntry blankEntry], [blankEntry], [], rfl, List.mem_singleton_self _,
    fun x hx => by cases hx⟩

/-- The database when the crash took the unflushed write. -/
abbrev nothingLeft : Journal (LogEvent Configs) := .empty

/-- An append announces its entry, and a crash of the machine loses it. -/
theorem acknowledged_entry_lost :
    Run (fun _ _ => True) (PurgedLog.empty.append [blankEntry]) oneEntry ∧
    oneEntry.Crash nothingLeft ∧ Acknowledged oneEntry blankEntry ∧
    Completes (LogStore.tryGetLogEntries Configs ⟨.unbounded, .unbounded⟩) nothingLeft (.ok [])
      nothingLeft ∧
    ¬ Durable oneEntry nothingLeft := by
  have hread : Completes (LogStore.tryGetLogEntries Configs ⟨.unbounded, .unbounded⟩) nothingLeft
      (.ok []) nothingLeft := by
    rw [Completes, tryGetLogEntries_run sound_empty, Holds.empty.log_eq]
    rfl
  refine ⟨run_blankEntry trivial, ⟨List.nil_prefix, fun before after h => ?_⟩,
    acknowledged_blankEntry, hread, fun hdurable => ?_⟩
  · have hsync : Effect.sync ∈ oneEntry.effects := by
      rw [h]
      exact List.mem_append_right _ List.mem_cons_self
    simp [LogOp.effects, LogStore.putEntry, Journal.empty] at hsync
  · obtain ⟨es, hes, hmem⟩ :=
      hdurable blankEntry acknowledged_blankEntry ⟨.unbounded, .unbounded⟩ rfl
    obtain ⟨hnil, -⟩ := (completes_of_run hread).mp hes
    cases hnil
    cases hmem

end PlacementCenter.Openraft
