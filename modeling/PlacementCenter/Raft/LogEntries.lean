import Mathlib.Data.List.Basic
import PlacementCenter.Raft.TermLookup
import PlacementCenter.Storage.LogRefinement

/-!
# The entries of a range

What the store hands to the raft crate for a range of indices, compared with the log. The loop
runs up to the upper bound itself: it returns one entry too many, unless no entry is stored under
the upper bound. Above the last index that entry is one a later append has cut off.

## Main definitions

* `AppendRun self w log`: a run of appends, each of consecutive entries, from the empty database
* `EntriesSpec core w log low high`: what `entries` promises

## Main results

* `entries_run`: the entries a range returns
* `entriesSpec_iff`: a range returns the entries of the log exactly when no entry is stored under
  its upper bound
-/

namespace PlacementCenter.Raft

open Rust Storage Program

variable {ε : Type} {core self : RaftMachineStorage} {w : World ε} {log : List Entry}

/-- A run of appends, each of consecutive entries, from the empty database. -/
abbrev AppendRun (self : RaftMachineStorage) (w : World ε) (log : List Entry) : Prop :=
  LogReachable (fun _ _ _ op => ∃ es, Contiguous es ∧ op = .raft (.append es)) self w log

/-- The entries of the log with an index from `low` up to `high`, without the upper bound. -/
def logRange (log : List Entry) (low high : UInt64) : List Entry :=
  log.filter fun e => low ≤ e.index ∧ e.index < high

/-- What `entries` promises: the entries of the log in the range, as many as it has indices. -/
structure EntriesSpec (core : RaftMachineStorage) (w : World ε) (log : List Entry)
    (low high : UInt64) : Prop where
  returned : Completes (RaftRocksDBStorage.entries core low high) w (.ok (logRange log low high)) w
  length : (logRange log low high).length = high.toNat - low.toNat

/-! ### Runs of appends -/

/-- A run of appends holds its log, takes no snapshot and records no first index. -/
theorem AppendRun.inv (h : AppendRun self w log) :
    StoredLog (cluster w) log ∧ firstIndexIn self (cluster w) = 1 ∧
      (lastIndexIn self (cluster w)).toNat = log.length := by
  -- no append takes a snapshot or records a first index
  have key : TermInv self (cluster w) log ∧ self.snapshotMetadata.index = 0 ∧
      readRecord UInt64 (cluster w) .firstIndex = .ok none := by
    induction h with
    | start h =>
      refine ⟨termInv_of_start h, ?_⟩
      obtain ⟨metadata, hm, rfl, rfl⟩ := RaftMachineStorage.completes_new.mp h
      obtain rfl : metadata = _ := (Option.some_inj.mp (hm.symm.trans rfl))
      exact ⟨rfl, readRecord_empty _⟩
    | @step self self' w w' log op hr ho h ih =>
      obtain ⟨es, hes, rfl⟩ := ho
      obtain ⟨hinv, hsnap, hfirst⟩ := ih
      refine ⟨hinv.append (hsnap ▸ beyondSnapshot_zero hes) h, ?_⟩
      obtain ⟨⟨r, core⟩, t, hr, hc⟩ := completes_bind.mp h
      obtain ⟨rfl, rfl⟩ := completes_pure.mp hc
      obtain ⟨-, ⟨-, rfl, rfl⟩ | ⟨-, -, rfl, rfl⟩⟩ := RaftMachineStorage.completes_append hr
      · exact ⟨hsnap, hfirst⟩
      · refine ⟨hsnap, ?_⟩
        rw [cluster_putRecord, readRecord_insert_record _ (by simp),
          readRecord_congr (lookup_appended (by simp) es (by simp) _)]
        exact hfirst
    | panicked op hr hp ho h ih =>
      obtain ⟨es, -, ho⟩ := ho
      cases ho
  obtain ⟨hinv, hsnap, hfirst⟩ := key
  refine ⟨hinv.stored, ?_, hinv.bounds.2⟩
  rw [firstIndexIn, indexIn, hfirst, hsnap]
  rfl

/-! ### The loop -/

/-- The loop of `entries` pushes the stored entries of its indices. -/
theorem foldlM_pushEntry_run (entryOf : UInt64 → Option Entry) (idxs : List UInt64)
    (h : ∀ i ∈ idxs, entryIn (cluster w) i = some (entryOf i)) (acc : List Entry) :
    idxs.foldlM RaftRocksDBStorage.pushEntry acc w =
      (.ok (acc ++ idxs.filterMap entryOf), w) := by
  induction idxs generalizing acc with
  | nil => simp
  | cons i idxs ih =>
    have hi := h i List.mem_cons_self
    have hrest := fun j hj => h j (List.mem_cons_of_mem i hj)
    have hstep : RaftRocksDBStorage.pushEntry acc i w =
        (.ok (acc ++ (entryOf i).toList), w) := by
      unfold RaftRocksDBStorage.pushEntry
      rw [bind_run, RaftMachineStorage.entryByIdx_run, hi]
      cases entryOf i with
      | none => simp
      | some e => rfl
    rw [List.foldlM_cons, bind_run_ok hstep, ih hrest, List.filterMap_cons]
    cases entryOf i with
    | none => simp
    | some e => simp

/-- An index that does not decode ends the loop in a panic. -/
theorem not_completes_pushEntry {idxs : List UInt64} {i : UInt64} (hi : i ∈ idxs)
    (h : entryIn (cluster w) i = none) {acc es : List Entry} {t : World ε} :
    ¬ Completes (idxs.foldlM RaftRocksDBStorage.pushEntry acc) w es t := by
  induction idxs generalizing acc with
  | nil => cases hi
  | cons j idxs ih =>
    intro hc
    rw [List.foldlM_cons] at hc
    obtain ⟨acc', r, hj, hc⟩ := completes_bind.mp hc
    obtain ⟨o, r', hj, hj'⟩ := completes_bind.mp hj
    rw [Completes, RaftMachineStorage.entryByIdx_run] at hj
    obtain ⟨ho, rfl⟩ := completes_unwrapOk.mp hj
    have hr : w = r := by
      cases o with
      | none => exact (completes_pure.mp hj').2
      | some e => exact (completes_pure.mp hj').2
    subst hr
    -- the loop panics at the index, or goes on to it
    rcases List.mem_cons.mp hi with rfl | hi
    · rw [h] at ho
      cases ho
    · exact ih hi hc

/-! ### The range -/

/-- The entries of a range are those of a slice of the log. -/
theorem logRange_eq {m : ColumnFamily} (h : StoredLog m log) (low high : UInt64) :
    logRange log low high = (log.take (high.toNat - 1)).drop (low.toNat - 1) := by
  have hsplit : logRange log low high = (log.filter fun e => e.index < high).filter
      fun e => low ≤ e.index := by
    rw [logRange, List.filter_filter]
    exact List.filter_congr fun e _ => by simp
  rw [hsplit, h.filter_lt]
  -- the entries below `low` stand in front
  have hbelow : ∀ e ∈ (log.take (high.toNat - 1)).take (low.toNat - 1),
      ¬ decide (low ≤ e.index) = true := by
    intro e he
    rw [List.take_take] at he
    have hle := h.index_lt_of_mem_take he
    have hpos := (h.length_le (List.mem_of_mem_take he)).1
    rw [decide_eq_true_eq, UInt64.le_iff_toNat_le]
    omega
  have hfrom : ∀ e ∈ (log.take (high.toNat - 1)).drop (low.toNat - 1),
      decide (low ≤ e.index) = true := by
    intro e he
    rw [List.drop_take] at he
    have hle := h.le_index_of_mem_drop (List.mem_of_mem_take he)
    rw [decide_eq_true_eq, UInt64.le_iff_toNat_le]
    omega
  calc (log.take (high.toNat - 1)).filter (fun e => low ≤ e.index)
      = ((log.take (high.toNat - 1)).take (low.toNat - 1) ++
          (log.take (high.toNat - 1)).drop (low.toNat - 1)).filter (fun e => low ≤ e.index) := by
        rw [List.take_append_drop]
    _ = (log.take (high.toNat - 1)).drop (low.toNat - 1) := by
        rw [List.filter_append, List.filter_eq_nil_iff.mpr hbelow, List.filter_eq_self.mpr hfrom,
          List.nil_append]

/-- A slice of a list, read place by place. -/
theorem filterMap_range'_getElem? {α : Type} (l : List α) (k n : ℕ) (h : k + n ≤ l.length) :
    (List.range' (k + 1) n).filterMap (fun i => l[i - 1]?) = (l.drop k).take n := by
  induction n generalizing k with
  | zero => simp
  | succ n ih =>
    have hk : k < l.length := by omega
    rw [List.range'_succ, List.filterMap_cons, Nat.add_sub_cancel, List.getElem?_eq_getElem hk,
      ih (k + 1) (by omega), List.drop_eq_getElem_cons hk, List.take_succ_cons]

variable {low high : UInt64}

/-- The indices of the loop are those of the range, and its upper bound. -/
theorem indexRange_eq (h : low ≤ high) :
    RaftRocksDBStorage.indexRange low high =
      (List.range' low.toNat (high.toNat - low.toNat)).map UInt64.ofNat ++ [high] := by
  have hle := UInt64.le_iff_toNat_le.mp h
  have hn : high.toNat + 1 - low.toNat = (high.toNat - low.toNat) + 1 := by omega
  rw [RaftRocksDBStorage.indexRange, hn, List.range'_concat, List.map_append]
  have hlast : low.toNat + 1 * (high.toNat - low.toNat) = high.toNat := by omega
  rw [hlast]
  simp

/-- Below the upper bound, the entries of the log are stored under the indices of the range. -/
theorem entryIn_of_mem_range (hs : StoredLog (cluster w) log) (hlo : low ≠ 0) (hlh : low ≤ high)
    (hhi : high.toNat ≤ log.length + 1) {n : ℕ}
    (hn : n ∈ List.range' low.toNat (high.toNat - low.toNat)) :
    entryIn (cluster w) (UInt64.ofNat n) = some log[n - 1]? := by
  have hpos : low.toNat ≠ 0 := fun h0 => hlo (UInt64.toNat_inj.mp h0)
  have hle := UInt64.le_iff_toNat_le.mp hlh
  have hmax := high.toNat_lt
  rw [List.mem_range'_1] at hn
  have hto : (UInt64.ofNat n).toNat = n := UInt64.toNat_ofNat_of_lt' (show _ < 2 ^ 64 by omega)
  have hne : UInt64.ofNat n ≠ 0 := by
    intro h0
    rw [h0, UInt64.toNat_zero] at hto
    omega
  obtain ⟨e, hget, -, hent⟩ := hs.entry_at hne (by omega)
  rw [hent, ← hget, hto]

/-- The stored entries of the indices of a range are the entries of the log in it. -/
theorem filterMap_entryIn_range (hs : StoredLog (cluster w) log) (hlo : low ≠ 0)
    (hlh : low ≤ high) (hhi : high.toNat ≤ log.length + 1) :
    ((List.range' low.toNat (high.toNat - low.toNat)).map UInt64.ofNat).filterMap
        (fun i => (entryIn (cluster w) i).getD none) = logRange log low high := by
  have hpos : low.toNat ≠ 0 := fun h0 => hlo (UInt64.toNat_inj.mp h0)
  have hle := UInt64.le_iff_toNat_le.mp hlh
  have hentry : ∀ i ∈ List.range' low.toNat (high.toNat - low.toNat),
      (entryIn (cluster w) (UInt64.ofNat i)).getD none = log[i - 1]? := by
    intro i hi
    rw [entryIn_of_mem_range hs hlo hlh hhi hi, Option.getD_some]
  have hslice := filterMap_range'_getElem? log (low.toNat - 1) (high.toNat - low.toNat) (by omega)
  rw [Nat.sub_add_cancel (by omega)] at hslice
  rw [List.filterMap_map]
  calc (List.range' low.toNat (high.toNat - low.toNat)).filterMap
        ((fun i => (entryIn (cluster w) i).getD none) ∘ UInt64.ofNat)
      = (List.range' low.toNat (high.toNat - low.toNat)).filterMap (fun i => log[i - 1]?) :=
        List.filterMap_congr hentry
    _ = logRange log low high := by
        rw [hslice, logRange_eq hs, List.drop_take]
        congr 1
        omega

/-- The range has as many entries as indices. -/
theorem length_logRange (hs : StoredLog (cluster w) log) (hlo : low ≠ 0) (hlh : low ≤ high)
    (hhi : high.toNat ≤ log.length + 1) :
    (logRange log low high).length = high.toNat - low.toNat := by
  have hpos : low.toNat ≠ 0 := fun h0 => hlo (UInt64.toNat_inj.mp h0)
  have hle := UInt64.le_iff_toNat_le.mp hlh
  rw [logRange_eq hs, List.length_drop, List.length_take]
  omega

/-- Within the bounds, the call is its loop. -/
theorem entries_eq_loop (hf : firstIndexIn core (cluster w) ≤ low)
    (hl : high ≤ lastIndexIn core (cluster w) + 1) :
    RaftRocksDBStorage.entries core low high w =
      ((RaftRocksDBStorage.indexRange low high).foldlM RaftRocksDBStorage.pushEntry [] >>=
        fun entryList => pure (.ok entryList)) w := by
  unfold RaftRocksDBStorage.entries
  rw [bind_run_ok (RaftMachineStorage.firstIndex_run core w), if_neg (UInt64.not_lt.mpr hf),
    bind_run_ok (RaftMachineStorage.lastIndex_run core w), if_neg (UInt64.not_lt.mpr hl)]

/-- **The entries a range returns**: those of the log in the range, and the one that is stored
under the upper bound. -/
theorem entries_run (hs : StoredLog (cluster w) log) (hf : firstIndexIn core (cluster w) ≤ low)
    (hlo : low ≠ 0) (hlh : low ≤ high) (hhi : high.toNat ≤ log.length + 1)
    (hl : high ≤ lastIndexIn core (cluster w) + 1) {o : Option Entry}
    (ho : entryIn (cluster w) high = some o) :
    RaftRocksDBStorage.entries core low high w =
      (.ok (.ok (logRange log low high ++ o.toList)), w) := by
  -- every index of the loop decodes: those of the log, and the upper bound
  have hdec : ∀ i ∈ RaftRocksDBStorage.indexRange low high,
      entryIn (cluster w) i = some ((entryIn (cluster w) i).getD none) := by
    intro i hi
    rw [indexRange_eq hlh, List.mem_append, List.mem_map, List.mem_singleton] at hi
    rcases hi with ⟨n, hn, rfl⟩ | rfl
    · rw [entryIn_of_mem_range hs hlo hlh hhi hn, Option.getD_some]
    · rw [ho, Option.getD_some]
  rw [entries_eq_loop hf hl, bind_run_ok (foldlM_pushEntry_run _ _ hdec []), List.nil_append,
    indexRange_eq hlh, List.filterMap_append, filterMap_entryIn_range hs hlo hlh hhi]
  cases o <;> simp [ho]

/-! ### The promise -/

/-- The loop reads the upper bound as well, and panics where nothing can be read. -/
theorem not_completes_entries_of_unreadable (hf : firstIndexIn self (cluster w) ≤ low)
    (hlh : low ≤ high) (hl : high ≤ lastIndexIn self (cluster w) + 1)
    (hnone : entryIn (cluster w) high = none) {es : List Entry} :
    ¬ Completes (RaftRocksDBStorage.entries self low high) w (.ok es) w := by
  intro hc
  rw [Completes, entries_eq_loop hf hl] at hc
  obtain ⟨es', t, hloop, -⟩ := completes_bind.mp hc
  refine not_completes_pushEntry (i := high) ?_ hnone hloop
  rw [indexRange_eq hlh]
  exact List.mem_append_right _ (List.mem_singleton_self high)

/-- The bound wraps to `0`, and the call panics. -/
theorem not_completes_entries_of_wrap (hf : firstIndexIn self (cluster w) ≤ low)
    (hpos : 0 < high.toNat) (hwrap : (lastIndexIn self (cluster w)).toNat + 1 = 2 ^ 64)
    {es : List Entry} : ¬ Completes (RaftRocksDBStorage.entries self low high) w (.ok es) w := by
  intro hc
  have hz : lastIndexIn self (cluster w) + 1 = 0 := by
    refine UInt64.toNat_inj.mp ?_
    rw [UInt64.toNat_add, UInt64.toNat_one, hwrap]
    rfl
  have hgt : high > lastIndexIn self (cluster w) + 1 := by
    rw [hz, gt_iff_lt, UInt64.lt_iff_toNat_lt]
    exact hpos
  unfold RaftRocksDBStorage.entries at hc
  rw [Completes, bind_run_ok (RaftMachineStorage.firstIndex_run self w),
    if_neg (UInt64.not_lt.mpr hf), bind_run_ok (RaftMachineStorage.lastIndex_run self w),
    if_pos hgt] at hc
  cases hc

/-- **A range returns the entries of the log** exactly when no entry is stored under its upper
bound, and the index after the last one does not wrap. -/
theorem entriesSpec_iff (h : AppendRun self w log) (hf : firstIndexIn self (cluster w) ≤ low)
    (hlh : low ≤ high) (hhi : high.toNat ≤ (lastIndexIn self (cluster w)).toNat + 1) :
    EntriesSpec self w log low high ↔
      (lastIndexIn self (cluster w)).toNat + 1 < 2 ^ 64 ∧
        entryIn (cluster w) high = some none := by
  obtain ⟨hs, hfirst, hlast⟩ := h.inv
  have hlo : low ≠ 0 := by
    rintro rfl
    rw [hfirst] at hf
    exact absurd hf (by decide)
  have hpos : low.toNat ≠ 0 := fun h0 => hlo (UInt64.toNat_inj.mp h0)
  have hle := UInt64.le_iff_toNat_le.mp hlh
  -- the bound check adds one to the last index, which may wrap
  by_cases hwrap : (lastIndexIn self (cluster w)).toNat + 1 < 2 ^ 64
  · have hl : high ≤ lastIndexIn self (cluster w) + 1 := by
      rw [UInt64.le_iff_toNat_le, UInt64.toNat_add, UInt64.toNat_one, Nat.mod_eq_of_lt (by omega)]
      exact hhi
    rw [hlast] at hhi
    have hlen := length_logRange hs hlo hlh hhi
    constructor
    · intro hspec
      refine ⟨hwrap, ?_⟩
      cases ho : entryIn (cluster w) high with
      | none =>
        exact absurd hspec.returned (not_completes_entries_of_unreadable hf hlh hl ho)
      | some o =>
        have hrun := entries_run hs hf hlo hlh hhi hl ho
        obtain ⟨heq, -⟩ := (completes_of_run hrun).mp hspec.returned
        -- with the entry under the bound, the answer is one too long
        have hlen' := congrArg List.length (Except.ok.inj heq)
        cases o with
        | none => rfl
        | some e => simp at hlen'
    · rintro ⟨-, ho⟩
      refine ⟨?_, hlen⟩
      have hrun := entries_run hs hf hlo hlh hhi hl ho
      rwa [Option.toList_none, List.append_nil] at hrun
  · refine iff_of_false (fun hspec => ?_) fun hc => hwrap hc.1
    have hmax := (lastIndexIn self (cluster w)).toNat_lt
    exact not_completes_entries_of_wrap hf (by omega) (by omega) hspec.returned

/-! ### A log that was cut

Two entries of term `1`, of which an append of term `2` replaces the first and cuts the second
off. -/

/-- An entry without data. -/
def plainEntry (term index : UInt64) : Entry := { Entry.default with term := term, index := index }

def withTwo : RaftMachineStorage × World Unit :=
  finish ((LogOp.raft (.append [plainEntry 1 1, plainEntry 1 2])).run opened.1) opened.2
    (by decide +kernel)

def withCut : RaftMachineStorage × World Unit :=
  finish ((LogOp.raft (.append [plainEntry 2 1])).run withTwo.1) withTwo.2 (by decide +kernel)

theorem withTwo_run : AppendRun withTwo.1 withTwo.2 [plainEntry 1 1, plainEntry 1 2] := by
  have h₀ : AppendRun opened.1 opened.2 [] := .start (completes_finish _ _ _)
  exact h₀.step (.raft (.append [plainEntry 1 1, plainEntry 1 2]))
    ⟨_, ⟨1, by decide, rfl⟩, rfl⟩ (completes_finish _ _ _)

theorem withCut_run : AppendRun withCut.1 withCut.2 [plainEntry 2 1] :=
  withTwo_run.step (.raft (.append [plainEntry 2 1])) ⟨_, ⟨1, by decide, rfl⟩, rfl⟩
    (completes_finish _ _ _)

/-- Before the cut, the range of both entries is right. -/
theorem entriesSpec_withTwo :
    EntriesSpec withTwo.1 withTwo.2 [plainEntry 1 1, plainEntry 1 2] 1 3 :=
  (entriesSpec_iff withTwo_run (by decide +kernel) (by decide) (by decide +kernel)).mpr
    ⟨by decide +kernel, by decide +kernel⟩

/-- After the cut, the range of the one entry ends with the entry that was cut off. -/
theorem cut_entry_returned :
    AppendRun withCut.1 withCut.2 [plainEntry 2 1] ∧
      Completes withCut.1.firstIndex withCut.2 1 withCut.2 ∧
      Completes withCut.1.lastIndex withCut.2 1 withCut.2 ∧
      Completes (RaftRocksDBStorage.entries withCut.1 1 2) withCut.2
        (.ok [plainEntry 2 1, plainEntry 1 2]) withCut.2 ∧
      ¬ EntriesSpec withCut.1 withCut.2 [plainEntry 2 1] 1 2 := by
  have hfirst : firstIndexIn withCut.1 (cluster withCut.2) = 1 := by decide +kernel
  have hlast : lastIndexIn withCut.1 (cluster withCut.2) = 1 := by decide +kernel
  have hstale : entryIn (cluster withCut.2) 2 = some (some (plainEntry 1 2)) := by decide +kernel
  have hrun : RaftRocksDBStorage.entries withCut.1 1 2 withCut.2 =
      (.ok (.ok [plainEntry 2 1, plainEntry 1 2]), withCut.2) :=
    entries_run withCut_run.inv.1 (by rw [hfirst]; decide) (by decide) (by decide) (by decide)
      (by rw [hlast]; decide) hstale
  refine ⟨withCut_run, ?_, ?_, hrun, fun h => ?_⟩
  · rw [Completes, RaftMachineStorage.firstIndex_run, hfirst]
  · rw [Completes, RaftMachineStorage.lastIndex_run, hlast]
  · obtain ⟨heq, -⟩ := (completes_of_run hrun).mp h.returned
    have hlen := congrArg List.length (Except.ok.inj heq)
    simp [logRange, plainEntry] at hlen

end PlacementCenter.Raft
