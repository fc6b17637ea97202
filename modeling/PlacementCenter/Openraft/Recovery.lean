import PlacementCenter.Openraft.Builders
import PlacementCenter.Openraft.Stores

/-!
# Recovery of a node

A node that is opened again is at the position of its stored snapshot, and applies the entries of its
log from there. The entries up to the purged id are gone, so the snapshot has to cover them: at each
purge, and whenever a builder or an installation replaces the snapshot.

## Main definitions

* `Stores.position`: the position of the stored snapshot
* `LogOp.Covered s`: the snapshot covers what was purged, before and after an operation
* `Recovers w`: a node that is opened on `w` finds the entries after its position

## Main results

* `Stores.Gapless.between`: what an operation keeps at each of its points
* `recovers_of_life`: **a node finds the entries after its position**, however often it crashed
-/

namespace PlacementCenter.Openraft

open Rust Program LogId

variable {M : Type}

/-- The position of the stored snapshot. -/
def Stores.position (s : Stores M) : Option LogId := s.snapshot.bind fun snap => snap.metadata.lastLogId

/-- The snapshot covers what was purged, before and after an operation; a batch goes on right after
the last id. -/
def LogOp.Covered (s : Stores M) : LogOp M → Prop
  | append entries => Consecutive (nextIndex s.log.lastLogId) entries
  | purge logId => logId.index.toNat < nextIndex s.position
  | setCurrentSnapshot snap => nextIndex s.log.purged ≤ nextIndex snap.metadata.lastLogId
  | truncate _ => True
  | saveVote _ => True
  | saveCommitted _ => True

/-- The entries go on from the purged id or from below it. -/
def PurgedLog.Contiguous (log : PurgedLog M) : Prop :=
  ∃ start, Consecutive start log.entries ∧ (log.entries ≠ [] → start ≤ nextIndex log.purged)

/-- The entries go on from the purged id, which the snapshot covers. -/
structure Stores.Gapless (s : Stores M) : Prop where
  contiguous : s.log.Contiguous
  covered : nextIndex s.log.purged ≤ nextIndex s.position

section contiguous

variable {log : PurgedLog M}

theorem PurgedLog.Contiguous.append (h : log.Contiguous) {entries : List (Entry M)}
    (hes : Consecutive (nextIndex log.lastLogId) entries) : (log.append entries).Contiguous := by
  obtain ⟨start, hlog, hle⟩ := h
  rcases hl : log.entries.getLast? with _ | last
  · have hnil := List.getLast?_eq_none_iff.mp hl
    rw [lastLogId_of_nil hnil] at hes
    refine ⟨_, ?_, fun _ => Nat.le_refl _⟩
    rw [PurgedLog.append, hnil]
    exact hes
  · rw [lastLogId_of_getLast hl] at hes
    obtain ⟨init, hinit⟩ := List.getLast?_eq_some_iff.mp hl
    have hnext : nextIndex (some last.logId) = start + log.entries.length := by
      rw [hinit] at hlog ⊢
      rw [List.length_append, List.length_singleton, ← Nat.add_assoc, ← hlog.last_index]
      rfl
    refine ⟨start, hlog.append (hnext ▸ hes), fun _ => hle ?_⟩
    rw [hinit]
    simp

theorem PurgedLog.Contiguous.truncate (h : log.Contiguous) (logId : LogId) :
    (log.truncate logId).Contiguous := by
  obtain ⟨start, hlog, hle⟩ := h
  refine ⟨start, hlog.filter_lt logId.index, fun hne => hle fun hnil => hne ?_⟩
  rw [PurgedLog.truncate, hnil]
  rfl

/-- A later purged id, while the entries are still there. -/
theorem PurgedLog.Contiguous.record (h : log.Contiguous) {logId : LogId}
    (hpurged : ∀ purged ∈ log.purged, purged.index.toNat ≤ logId.index.toNat) :
    PurgedLog.Contiguous ⟨some logId, log.entries⟩ := by
  obtain ⟨start, hlog, hle⟩ := h
  refine ⟨start, hlog, fun hne => (hle hne).trans ?_⟩
  rcases hp : log.purged with _ | purged
  · exact Nat.zero_le _
  · exact Nat.succ_le_succ (hpurged purged hp)

theorem PurgedLog.Contiguous.purge (h : log.Contiguous) {logId : LogId}
    (hpurged : ∀ purged ∈ log.purged, purged.index.toNat ≤ logId.index.toNat) :
    (log.purge logId).Contiguous := by
  obtain ⟨start, hlog, hle⟩ := h.record hpurged
  refine ⟨_, hlog.filter_gt logId.index, fun hne => Nat.max_le.mpr ⟨hle fun hnil => hne ?_, ?_⟩⟩
  · rw [PurgedLog.purge, show log.entries = [] from hnil]
    rfl
  · exact Nat.le_refl _

end contiguous

/-! ### The points of an operation -/

/-- **What an operation keeps at each of its points.** The log is one that the operation passes
through, and the snapshot is the old one or the new one. -/
theorem Stores.Gapless.between {s s' : Stores M} (h : s.Gapless) {op : LogOp M}
    (hc : op.Contract s.log.state) (hcov : op.Covered s) (hlog : op.Between s.log s'.log)
    (hsnap : s'.snapshot = s.snapshot ∨ s'.snapshot = (op.write s).snapshot) : s'.Gapless := by
  obtain ⟨log, vote, committed, snapshot⟩ := s'
  obtain ⟨hcont, hcovered⟩ := h
  cases op with
  | append entries =>
    obtain ⟨part, hpart, rfl⟩ := hlog
    obtain rfl : snapshot = s.snapshot := hsnap.elim id id
    exact ⟨hcont.append (Consecutive.of_isPrefix hcov hpart), hcovered⟩
  | truncate logId =>
    obtain rfl : snapshot = s.snapshot := hsnap.elim id id
    rcases hlog with rfl | rfl
    · exact ⟨hcont, hcovered⟩
    · exact ⟨hcont.truncate logId, hcovered⟩
  -- the snapshot covers the new purged id already
  | purge logId =>
    obtain rfl : snapshot = s.snapshot := hsnap.elim id id
    rcases hlog with rfl | rfl | rfl
    · exact ⟨hcont, hcovered⟩
    · exact ⟨hcont.record hc.2, Nat.succ_le_of_lt hcov⟩
    · exact ⟨hcont.purge hc.2, Nat.succ_le_of_lt hcov⟩
  | saveVote vote =>
    obtain rfl : snapshot = s.snapshot := hsnap.elim id id
    obtain rfl : log = s.log := hlog
    exact ⟨hcont, hcovered⟩
  | saveCommitted committed =>
    obtain rfl : snapshot = s.snapshot := hsnap.elim id id
    obtain rfl : log = s.log := hlog
    exact ⟨hcont, hcovered⟩
  | setCurrentSnapshot snap =>
    obtain rfl : log = s.log := hlog
    rcases hsnap with rfl | rfl
    · exact ⟨hcont, hcovered⟩
    · exact ⟨hcont, hcov⟩

section lives

variable [SerdeJson M] {s : Stores M} {w : Journal (LogEvent M)}

theorem Sane.gapless_part (h : Sane s w) (hgap : s.Gapless) {op : LogOp M}
    (hc : op.Contract s.log.state) (hcov : op.Covered s) {part : List (Effect (LogEvent M))}
    (hpart : part <+: op.effects) : (storesIn (w.extend part)).Gapless := by
  obtain ⟨hlog, hb⟩ := h.holds
  obtain ⟨after, hafter, hbetween⟩ := hlog.between hb hc hpart
  have hlogs : op.Between s.log (storesIn (w.extend part)).log := by
    rw [show (storesIn (w.extend part)).log = after from hafter.log_eq]
    exact hbetween
  apply hgap.between hc hcov hlogs
  exact (h.records_part hc hpart).imp (congrArg Records.snapshot) (congrArg Records.snapshot)

/-- **Every point of a life is gapless**, when every operation is covered. -/
theorem gapless_of_life (h : Life (fun s op => op.Covered s) .empty .empty s w) :
    ∀ p : Journal (LogEvent M), p.IsPrefix w → (storesIn p).Gapless := by
  have points : ∀ {s w} {op : LogOp M}, Sane s w →
      (∀ p : Journal (LogEvent M), p.IsPrefix w → (storesIn p).Gapless) →
      op.Contract s.log.state → op.Covered s →
      ∀ p : Journal (LogEvent M), p.IsPrefix (w.extend op.effects) → (storesIn p).Gapless := by
    intro s w op hsane ih hc hcov p hp
    rcases Journal.isPrefix_extend.mp hp with hp | ⟨part, hpart, rfl⟩
    · exact ih p hp
    · exact hsane.gapless_part (hsane.stores ▸ ih w (.refl w)) hc hcov hpart
  induction h with
  | start =>
    -- nothing is written yet
    rintro ⟨effects⟩ hp
    obtain rfl : effects = [] := List.prefix_nil.mp hp
    rw [show storesIn ⟨[]⟩ = Stores.empty from sane_empty.stores.symm]
    exact ⟨⟨0, rfl, fun hne => absurd rfl hne⟩, Nat.zero_le _⟩
  | @step s w r w' op h hc hC hrun ih =>
    obtain ⟨-, rfl⟩ := (completes_of_run (op.run_eq w)).mp hrun
    exact points (sane_of_life sane_empty h) ih hc hC
  | @crash s w r w' p q s' op h hc hC hrun hfrom hto hq hs ih =>
    obtain ⟨-, rfl⟩ := (completes_of_run (op.run_eq w)).mp hrun
    -- what is read after the crash is a prefix of what was written before it
    have hpoint := points (sane_of_life sane_empty h) ih hc hC
    intro p' hp'
    rcases Journal.isPrefix_extend.mp hp' with hp' | ⟨part, hpart, rfl⟩
    · exact hpoint p' (hp'.trans (hq.lost.trans hto))
    · have hgap := hpoint q (hq.lost.trans hto)
      rcases List.prefix_cons_iff.mp hpart with rfl | ⟨rest, rfl, hrest⟩
      · rwa [Journal.extend_nil]
      · obtain rfl := List.prefix_nil.mp hrest
        rw [← storesIn_reopened] at hgap
        exact hgap

/-! ### Recovery -/

/-- A node that is opened on the database finds the entries after its position in the log, without a
gap. -/
def Recovers [Inhabited M] (w : Journal (LogEvent M)) : Prop :=
  ∀ (m : Memory (Journal (LogEvent M)) Kvs) (n : Node (LogEvent M) M) (next : UInt64),
    m.base = w → Node.Starts m n → next.toNat = nextIndex n.core.data.lastAppliedLogId →
      ∃ es, Completes (LogStore.tryGetLogEntries M ⟨.included next, .unbounded⟩) w (.ok es) w ∧
        Consecutive next.toNat es

omit [SerdeJson M] in
/-- The entries from an index on are consecutive from there, when the log begins below it. -/
theorem Consecutive.filter_ge {start : ℕ} {es : List (Entry M)} (h : Consecutive start es)
    {next : UInt64} (hle : es ≠ [] → start ≤ next.toNat) :
    Consecutive next.toNat (es.filter fun e => next ≤ e.index) := by
  induction es generalizing start with
  | nil => rfl
  | cons e es ih =>
    obtain ⟨he, hes⟩ := cons_iff.mp h
    have hstart := hle (List.cons_ne_nil e es)
    by_cases hi : next ≤ e.index
    · rw [List.filter_cons_of_pos (by simpa using hi)]
      rw [UInt64.le_iff_toNat_le, he] at hi
      obtain rfl : start = next.toNat := by omega
      refine cons_iff.mpr ⟨he, ?_⟩
      -- all later entries are above
      rw [List.filter_eq_self.mpr fun e' he' => ?_]
      · exact hes
      · have habove := hes.start_le he'
        simp only [UInt64.le_iff_toNat_le, decide_eq_true_eq]
        omega
    · rw [List.filter_cons_of_neg (by simpa using hi)]
      rw [UInt64.le_iff_toNat_le, he] at hi
      exact ih hes fun _ => by omega

/-- **A node finds the entries after its position**, after any number of operations and crashes, when
the stored snapshot always covers what was purged. -/
theorem recovers_of_life [Inhabited M] (h : Life (fun s op => op.Covered s) .empty .empty s w) :
    Recovers w := by
  intro m n next hm hn hnext
  have hsane := sane_of_life sane_empty h
  obtain ⟨hcont, hcovered⟩ := gapless_of_life h w (.refl w)
  -- the node is at the position of the snapshot
  have hpos : n.core.data.lastAppliedLogId = (storesIn w).position := by
    obtain ⟨-, hat⟩ := hn.position
    rw [hm] at hat
    rw [Stores.position, show (storesIn w).snapshot = StateMachineStore.snapshotIn M w from rfl]
    rcases hs : StateMachineStore.snapshotIn M w with _ | snap
    · rw [hs] at hat
      exact hat.1
    · rw [hs] at hat
      exact hat.1
  obtain ⟨start, hlog, hle⟩ := hcont
  refine ⟨_, tryGetLogEntries_run hsane.holds.1.sound _, ?_⟩
  have hrange : (logIn w).within ⟨.included next, .unbounded⟩ =
      (logIn w).entries.filter fun e => next ≤ e.index := by
    simp [PurgedLog.within, RangeBounds.contains, Bound.startsAt, Bound.endsAt]
  rw [hrange]
  refine Consecutive.filter_ge hlog fun hne => (hle hne).trans (hcovered.trans ?_)
  rw [hnext, hpos]

end lives

/-! ### A snapshot that is older than what was purged -/

/-- The blank entry at an index. -/
def blankAt (index : UInt64) : Entry Configs := ⟨⟨⟨1, 1⟩, index⟩, .blank⟩

/-- A snapshot of the empty map at an index. -/
def emptyAt (index : UInt64) : StoredSnapshot Configs :=
  ⟨⟨some ⟨⟨1, 1⟩, index⟩, default, ""⟩, SerdeJson.toVec (∅ : Kvs)⟩

/-- Two entries are covered by a snapshot and purged. -/
theorem life_blankAt {C : Stores Configs → LogOp Configs → Prop}
    (hC : ∀ s op, LogOp.Covered s op → C s op) : ∃ w, Life C .empty .empty
      ⟨⟨some ⟨⟨1, 1⟩, 1⟩, []⟩, none, none, some (emptyAt 1)⟩ w := by
  have h : Life C .empty .empty _ _ := Life.start.op (.append [blankAt 0, blankAt 1])
    ⟨by decide, 0, rfl, fun last hlast => by cases hlast⟩ (hC _ _ (by exact rfl))
  have h := h.op (.setCurrentSnapshot (emptyAt 1)) trivial (hC _ _ (Nat.zero_le _))
  have h := h.op (.purge ⟨⟨1, 1⟩, 1⟩) ⟨by decide, fun purged hp => by cases hp⟩
    (hC _ _ (Nat.lt_succ_self _))
  exact ⟨_, h⟩

/-- The next entry is cut off, and the node recovers. -/
theorem recovers_blankAt : ∃ w : Journal (LogEvent Configs), Recovers (reopened w) := by
  obtain ⟨w, h⟩ := life_blankAt fun _ _ hC => hC
  refine ⟨w, recovers_of_life (h.cut (sane_of_life sane_empty h) (.append [blankAt 2])
    ⟨by decide, 2, rfl, ?_⟩ (by exact rfl) [_] rfl (by simp [LogStore.putEntry]))⟩
  rintro last ⟨⟩
  rfl

/-- **A builder that was overtaken leaves a gap**: it stores a snapshot at the first entry, when the
second one was purged already. -/
theorem gap_of_older_snapshot : ∃ (s : Stores Configs) (w : Journal (LogEvent Configs)),
    Life (fun _ _ => True) .empty .empty s w ∧ ¬ Recovers w := by
  obtain ⟨w, h⟩ := life_blankAt (C := fun _ _ => True) fun _ _ _ => trivial
  have h := h.op (.setCurrentSnapshot (emptyAt 0)) trivial trivial
  have h := h.op (.append [blankAt 2]) ⟨by decide, 2, rfl, by rintro last ⟨⟩; rfl⟩ trivial
  have hin := (sane_of_life sane_empty h).refines
  refine ⟨_, _, h, fun hrec => ?_⟩
  -- the node is opened at the first entry
  have hsnap := (completes_of_run (getRecord_run _ (StoredSnapshot Configs) _ _)).mp hin.snapshot
  have hdata : SerdeJson.fromSlice (emptyAt 0).data = some (∅ : Kvs) := SerdeJson.fromSlice_toVec ∅
  have hopened := StateMachineStore.new_run_some (M := Configs) ⟨_, fun _ => ∅, 0⟩
    (Except.ok.inj hsnap.1) hdata
  obtain ⟨es, hes, hcons⟩ := hrec ⟨_, fun _ => ∅, 0⟩ ⟨_, _, none, [], []⟩ 1 rfl
    ⟨hopened, rfl, rfl, rfl⟩ rfl
  obtain ⟨hes, -⟩ := (completes_of_run (hin.entries ⟨.included 1, .unbounded⟩)).mp hes
  cases hes
  -- the log goes on at the third one
  have hindex : [2] = [1] := hcons
  exact absurd hindex (by decide)

end PlacementCenter.Openraft
