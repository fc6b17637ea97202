import Mathlib.Data.List.Induction
import PlacementCenter.Rust.Cuts
import PlacementCenter.Storage.LogRefinement

/-!
# The image of a log store

What a store shows of its log, and what its operations make of it. An entry and the last index are
two writes: an append that is cut off leaves some of its entries appended, or its first entry in the
place of an old one, with the old tail behind it. Every other operation is found done or not done,
but for a snapshot, whose first index may be there alone.

## Main definitions

* `LogImage`: what a store shows of its log
* `LogImage.ReadBack core w s`: all readers of the store give what the image `s` says
* `OnDisk m s`: the contents `m` hold what `s` says
* `StoreOp.Expected`: what the callers of an operation promise
* `StoreOp.write`, `StoreOp.Leaves`: what an operation makes of the image, and what it leaves on the
  disk when it is cut off

## Main results

* `OnDisk.cut_append`: **what a cut append leaves**
* `Holds.step`, `Holds.cut`: what an operation writes, and what a cut one leaves
* `OnDisk.holds_reopened`: the store that is opened on what a cut left
-/

namespace PlacementCenter.Storage

open Rust Rust.Prost Raft Program

/-! ### Images -/

/-- What a store shows: the entries of its log, numbered from `1`, the two states, the first index
once it is recorded, and the snapshot metadata that it holds in memory. -/
structure LogImage where
  entries : List Entry
  hardState : HardState
  confState : ConfState
  first : Option UInt64
  metadata : SnapshotMetadata

namespace LogImage

/-- The image of a store that is opened again. -/
def reopened (s : LogImage) : LogImage :=
  { s with metadata := { confState := some s.confState, index := s.hardState.commit,
                         term := s.hardState.term } }

/-- The image of the store on the empty database. -/
def start : LogImage := reopened ⟨[], .default, .default, none, .default⟩

/-- The entry with an index. -/
def entry (s : LogImage) (idx : UInt64) : Option Entry :=
  if idx = 0 then none else s.entries[idx.toNat - 1]?

def firstIndex (s : LogImage) : UInt64 := s.first.getD (s.metadata.index + 1)

def lastIndex (s : LogImage) : UInt64 := (s.entries.getLast?.map fun e => e.index).getD 0

variable {ε : Type}

/-- All readers of the store give what the image says, and no index up to the last one is without
its entry. -/
structure ReadBack (core : RaftMachineStorage) (w : World ε) (s : LogImage) : Prop where
  metadata : core.snapshotMetadata = s.metadata
  hardState : Completes RaftMachineStorage.hardState w s.hardState w
  confState : Completes RaftMachineStorage.confState w s.confState w
  first : Completes core.firstIndex w s.firstIndex w
  last : Completes core.lastIndex w s.lastIndex w
  no_gap : indices s.entries = List.range' 1 s.entries.length
  entry : ∀ idx ≤ s.lastIndex, Completes (RaftMachineStorage.entryByIdx idx) w (s.entry idx) w

end LogImage

/-! ### What the disk holds -/

/-- The contents hold what the image says. -/
structure OnDisk (m : ColumnFamily) (s : LogImage) : Prop where
  log : StoredLog m s.entries
  bound : s.entries.length < 2 ^ 64 - 1
  hardState : hardStateIn m = some s.hardState
  confState : confStateIn m = some s.confState
  first : readRecord UInt64 m .firstIndex = .ok s.first
  commit_le : s.hardState.commit.toNat ≤ s.entries.length

namespace OnDisk

variable {m m' : ColumnFamily} {s : LogImage}

/-- The contents may differ outside the records of the image. -/
theorem congr (h : OnDisk m s)
    (hm : ∀ r : Record, r ≠ .uncommit → r ≠ .snapshot → m'[r.key]? = m[r.key]?) : OnDisk m' s where
  log := h.log.congr (fun idx => entryIn_congr (hm _ (by simp) (by simp)))
    (readRecord_congr (hm _ (by simp) (by simp)))
  bound := h.bound
  hardState := (hardStateIn_congr (hm _ (by simp) (by simp))).trans h.hardState
  confState := (confStateIn_congr (hm _ (by simp) (by simp))).trans h.confState
  first := (readRecord_congr (hm _ (by simp) (by simp))).trans h.first
  commit_le := h.commit_le

/-- The metadata in memory are not on the disk. -/
theorem forget (h : OnDisk m s) : OnDisk m s.reopened := { h with }

theorem putOther (h : OnDisk m s) {r : Record} (hr : r = .uncommit ∨ r = .snapshot) (v : Bytes) :
    OnDisk (m.insert r.key v) s := by
  refine h.congr fun r' hu hs => OrdMap.lookup_insert_ne m v ?_
  rcases hr with rfl | rfl
  · simpa using hu.symm
  · simpa using hs.symm

theorem putClient (h : OnDisk m s) {k : Bytes} (hk : IsClientKey k) (v : Bytes) :
    OnDisk (m.insert k v) s :=
  h.congr fun r _ _ => OrdMap.lookup_insert_ne m v (r.key_ne_of_client hk).symm

theorem eraseClient (h : OnDisk m s) {k : Bytes} (hk : IsClientKey k) : OnDisk (m.erase k) s :=
  h.congr fun r _ _ => OrdMap.lookup_erase_ne m (r.key_ne_of_client hk).symm

theorem putHardState (h : OnDisk m s) {hs : HardState}
    (hle : hs.commit.toNat ≤ s.entries.length) :
    OnDisk (m.insert Record.hardState.key (recordBytes (encodeToVec hs)))
      { s with hardState := hs } where
  log := h.log.insert_record (by simp) (by simp) _
  bound := h.bound
  hardState := hardStateIn_insert_self m hs
  confState := by simpa using h.confState
  first := by simpa using h.first
  commit_le := hle

theorem putConfState (h : OnDisk m s) {cs : ConfState} (hcs : ∀ f ∈ Message.fields cs, f.Fits) :
    OnDisk (m.insert Record.confState.key (recordBytes (encodeToVec cs)))
      { s with confState := cs } where
  log := h.log.insert_record (by simp) (by simp) _
  bound := h.bound
  hardState := by simpa using h.hardState
  confState := messageIn_insert_self m _ _ hcs
  first := by simpa using h.first
  commit_le := h.commit_le

theorem putFirstIndex (h : OnDisk m s) (i : UInt64) :
    OnDisk (m.insert Record.firstIndex.key (recordBytes i)) { s with first := some i } where
  log := h.log.insert_record (by simp) (by simp) _
  bound := h.bound
  hardState := by simpa using h.hardState
  confState := by simpa using h.confState
  first := readRecord_insert_self m _ i
  commit_le := h.commit_le

end OnDisk

/-! ### Written entries -/

/-- An entry that is written beyond the last index is not part of the log. -/
theorem StoredLog.putBeyond {m : ColumnFamily} {log : List Entry} (h : StoredLog m log) {e : Entry}
    (hlt : log.length < e.index.toNat) :
    StoredLog (m.insert (Record.entry e.index).key (recordBytes (encodeToVec e))) log := by
  have hne : ∀ idx : UInt64, idx.toNat ≤ log.length → Record.entry e.index ≠ .entry idx := by
    rintro idx hidx ⟨⟩
    omega
  refine { numbered := h.numbered, stored := fun e' he' => ?_, zero := ?_, last := ?_ }
  · rw [entryIn_insert_record m (hne _ (h.length_le he').2)]
    exact h.stored e' he'
  · rw [entryIn_insert_record m (hne 0 (Nat.zero_le _))]
    exact h.zero
  · rw [readRecord_insert_record m (by simp)]
    exact h.last

/-- An entry that is written over an old one takes its place. -/
theorem StoredLog.putWithin {m : ColumnFamily} {log : List Entry} (h : StoredLog m log) {e : Entry}
    (hpos : e.index ≠ 0) (hle : e.index.toNat ≤ log.length) :
    StoredLog (m.insert (Record.entry e.index).key (recordBytes (encodeToVec e)))
      (log.set (e.index.toNat - 1) e) := by
  obtain ⟨old, hold, hidx, -⟩ := h.entry_at hpos hle
  obtain ⟨hlt, hget⟩ := List.getElem?_eq_some_iff.mp hold
  -- the numbers of the places stay
  have hsame : (log.set (e.index.toNat - 1) e).map Entry.index = log.map Entry.index := by
    have hmap : e.index.toNat - 1 < (log.map Entry.index).length := by simpa using hlt
    have hat : (log.map Entry.index)[e.index.toNat - 1] = e.index := by
      rw [List.getElem_map, hget, hidx]
    have hset := List.set_getElem_self hmap
    rw [hat] at hset
    rw [List.map_set, hset]
  refine { numbered := ?_, stored := fun e' he' => ?_, zero := ?_, last := ?_ }
  · have := congrArg (List.map UInt64.toNat) hsame
    rw [List.map_map, List.map_map] at this
    rw [List.length_set, ← h.numbered]
    exact this
  · obtain ⟨j, hj, rfl⟩ := List.getElem_of_mem he'
    rw [List.length_set] at hj
    by_cases hat : e.index.toNat - 1 = j
    · subst hat
      rw [List.getElem_set_self]
      exact entryIn_insert_self m e e.index
    · rw [List.getElem_set_ne hat, entryIn_insert_record]
      · exact h.stored _ (List.getElem_mem hj)
      · intro heq
        have := h.index_of_getElem? (List.getElem?_eq_getElem hj)
        rw [← (Record.entry.inj heq)] at this
        omega
  · rw [entryIn_insert_record m (by simpa using hpos)]
    exact h.zero
  · rw [readRecord_insert_record m (by simp), h.last, ← List.getLast?_map, ← List.getLast?_map]
    exact congrArg (fun is => Except.ok (List.getLast? is)) hsame.symm

/-- The first entries of contiguous entries are contiguous. -/
theorem Contiguous.left {es es' : List Entry} (h : Contiguous (es ++ es')) : Contiguous es := by
  obtain ⟨first, hpos, hi⟩ := h
  refine ⟨first, hpos, ?_⟩
  have htake := congrArg (List.take es.length) hi
  rwa [indices, List.map_append, List.take_left' (List.length_map _), List.length_append,
    List.take_range'_of_length_ge (Nat.le_add_right _ _)] at htake

/-- What an append must meet on the disk. -/
structure Appendable (s : LogImage) (es : List Entry) : Prop where
  contiguous : Contiguous es
  bound : ∀ e ∈ es, e.index.toNat < 2 ^ 64 - 1
  follows : ∀ e ∈ es.head?, e.index.toNat ≤ s.entries.length + 1
  uncommitted : ∀ e ∈ es.head?, s.hardState.commit < e.index

theorem Appendable.left {s : LogImage} {es es' : List Entry} (h : Appendable s (es ++ es')) :
    Appendable s es where
  contiguous := h.contiguous.left
  bound e he := h.bound e (List.mem_append_left es' he)
  follows e he := h.follows e (by rw [List.head?_append, he]; rfl)
  uncommitted e he := h.uncommitted e (by rw [List.head?_append, he]; rfl)

namespace OnDisk

variable {ε : Type} {w : World ε} {s : LogImage}

/-- The disk after the entries of an append were written. -/
theorem append {es : List Entry} (h : OnDisk (cluster w) s) (ha : Appendable s es) :
    OnDisk (cluster (appended w es)) { s with entries := refAppend s.entries es } := by
  cases es with
  | nil => exact h
  | cons e es =>
    have hle := ha.follows e rfl
    have hcommit := UInt64.lt_iff_toNat_lt.mp (ha.uncommitted e rfl)
    have hlog := h.log.append ha.contiguous hle
    obtain ⟨last, hlast, hl⟩ := StoredLog.getLast?_appendLog s.entries e es
    have hkeep : ∀ r : Record, (∀ idx, r ≠ .entry idx) → r ≠ .lastIndex →
        (cluster (appended w (e :: es)))[r.key]? = (cluster w)[r.key]? := by
      intro r he hl
      exact lookup_appended (by simpa using hl) (e :: es) (fun e' _ => by simpa using he _) w
    rw [refAppend_eq_appendLog h.log]
    refine { log := hlog, bound := ?_, hardState := ?_, confState := ?_, first := ?_,
             commit_le := ?_ }
    · rw [← hlog.getLast_index hl]
      exact ha.bound last (List.mem_of_getLast? hlast)
    · exact (hardStateIn_congr (hkeep .hardState (by simp) (by simp))).trans h.hardState
    · exact (confStateIn_congr (hkeep .confState (by simp) (by simp))).trans h.confState
    · exact (readRecord_congr (hkeep .firstIndex (by simp) (by simp))).trans h.first
    · show s.hardState.commit.toNat ≤ (appendLog s.entries (e :: es)).length
      rw [appendLog, List.length_append, List.length_take, List.length_cons]
      omega

/-- The disk after the record of an entry was written, and the last index was not. -/
theorem putEntry {m : ColumnFamily} (h : OnDisk m s) {e : Entry} {log : List Entry}
    (hlog : StoredLog (m.insert (Record.entry e.index).key (recordBytes (encodeToVec e))) log)
    (hlen : log.length = s.entries.length) :
    OnDisk (m.insert (Record.entry e.index).key (recordBytes (encodeToVec e)))
      { s with entries := log } where
  log := hlog
  bound := hlen ▸ h.bound
  hardState := by simpa using h.hardState
  confState := by simpa using h.confState
  first := by simpa using h.first
  commit_le := hlen ▸ h.commit_le

end OnDisk

/-! ### The operations on the image -/

/-- What an operation makes of the image. -/
def StoreOp.write (s : LogImage) : StoreOp → LogImage
  | raft (.append es) => { s with entries := refAppend s.entries es }
  | raft (.commmitIndex idx) =>
    match s.entry idx with
    | some e => { s with hardState := RaftMachineStorage.committedState s.hardState e idx }
    | none => s
  | raft (.saveHardState hs) => { s with hardState := hs }
  | raft (.setHardStateCommit commit) =>
    { s with hardState := { s.hardState with commit := commit } }
  | raft (.saveConfState cs) => { s with confState := cs }
  | raft .createSnapshot => { s.reopened with first := some s.hardState.commit }
  | applySnapshot _ | set .. | delete _ => s

/-- What an operation that is cut off may leave on the disk: all of it or nothing, some entries of
an append, the first one of them in the place of an old entry, or the first index of a snapshot. -/
inductive StoreOp.Leaves (s : LogImage) : StoreOp → LogImage → Prop where
  | undone (op : StoreOp) : Leaves s op s
  | written (op : StoreOp) : Leaves s op (op.write s)
  | part (es es' : List Entry) :
    Leaves s (.raft (.append (es ++ es'))) { s with entries := refAppend s.entries es }
  | torn (e : Entry) (es : List Entry) (hle : e.index.toNat ≤ s.entries.length) :
    Leaves s (.raft (.append (e :: es)))
      { s with entries := s.entries.set (e.index.toNat - 1) e }
  | first : Leaves s (.raft .createSnapshot) { s with first := some s.hardState.commit }

/-- What the callers of an operation promise: appends are contiguous, above the stored commit index
and below the largest index; no commit index is beyond the last index; a configuration fits in a
message; clients keep out of the records, and no snapshot is installed. -/
def StoreOp.Expected (self : RaftMachineStorage) (m : ColumnFamily) : StoreOp → Prop
  | raft (.append es) =>
    Contiguous es ∧ (∀ e ∈ es, e.index.toNat < 2 ^ 64 - 1) ∧
      ∀ hs ∈ hardStateIn m, ∀ e ∈ es.head?, hs.commit < e.index
  | raft (.commmitIndex idx) => idx ≤ lastIndexIn self m
  | raft (.saveHardState hs) => hs.commit ≤ lastIndexIn self m
  | raft (.setHardStateCommit commit) => commit ≤ lastIndexIn self m
  | raft (.saveConfState cs) => ∀ f ∈ Message.fields cs, f.Fits
  | raft .createSnapshot => True
  | applySnapshot _ => False
  | set _ key _ => IsClientKey (utf8 key)
  | delete key => IsClientKey (utf8 key)

section steps

variable {ε : Type} {self self' : RaftMachineStorage} {w w' : World ε} {s : LogImage}
  {pt : Columns × List ε}

/-- An entry that follows the ones appended before it lies right behind the log they leave. -/
theorem OnDisk.index_of_appended {es : List Entry} {e : Entry} (h : OnDisk (cluster w) s)
    (ha : Appendable s (es ++ [e])) (hne : es ≠ []) :
    e.index.toNat = (refAppend s.entries es).length + 1 := by
  obtain ⟨e₀, es, rfl⟩ := List.exists_cons_of_ne_nil hne
  have hlog := (h.append ha).log
  have hsplit : refAppend s.entries (e₀ :: es ++ [e]) = refAppend s.entries (e₀ :: es) ++ [e] := by
    simp [refAppend]
  rw [hsplit] at hlog
  rw [hlog.getLast_index (List.getLast?_concat), List.length_append, List.length_singleton]

/-- The entry was written, and the last index was not. -/
theorem OnDisk.cut_entry {es es' : List Entry} {e : Entry} (h : OnDisk (cluster w) s)
    (ha : Appendable s (es ++ [e] ++ es')) :
    ∃ s', (StoreOp.raft (.append (es ++ [e] ++ es'))).Leaves s s' ∧
      OnDisk ((cluster (appended w es)).insert (Record.entry e.index).key
        (recordBytes (encodeToVec e))) s' := by
  have hes := h.append ha.left.left
  by_cases hin : es = [] ∧ e.index.toNat ≤ s.entries.length
  · -- an old entry is replaced
    obtain ⟨rfl, hle⟩ := hin
    have hpos : e.index ≠ 0 := fun h0 => UInt64.not_lt_zero (h0 ▸ ha.uncommitted e rfl)
    exact ⟨_, .torn e es' hle, h.putEntry (h.log.putWithin hpos hle) (List.length_set ..)⟩
  · -- the entry lies behind the log
    rw [List.append_assoc]
    have hlt : (refAppend s.entries es).length < e.index.toNat := by
      by_cases hne : es = []
      · subst hne
        exact Nat.lt_of_not_le fun hle => hin ⟨rfl, hle⟩
      · rw [h.index_of_appended ha.left hne]
        exact Nat.lt_succ_self _
    exact ⟨_, .part es ([e] ++ es'), hes.putEntry (hes.log.putBeyond hlt) rfl⟩

/-- **What a cut append leaves**: some of its entries, or the first one in the place of an old
one. -/
theorem OnDisk.cut_append {es : List Entry} (h : OnDisk (cluster w) s) (ha : Appendable s es)
    (hpt : World.CutAt w (appended w es) pt) :
    ∃ s', (StoreOp.raft (.append es)).Leaves s s' ∧ OnDisk (pt.1 dbColumnFamilyCluster) s' := by
  -- the entries are written one after the other, so by induction on those that were
  suffices hpre : ∀ pre post, es = pre ++ post → World.CutAt w (appended w pre) pt →
      ∃ s', (StoreOp.raft (.append es)).Leaves s s' ∧ OnDisk (pt.1 dbColumnFamilyCluster) s' from
    hpre es [] (List.append_nil es).symm hpt
  intro pre
  induction pre using List.reverseRecOn with
  | nil =>
    intro post _ hcut
    rw [World.cutAt_self.mp hcut]
    exact ⟨s, .undone _, h⟩
  | append_singleton pre e ih =>
    intro post hes hcut
    subst hes
    have happ : appended w (pre ++ [e]) = appendedEntry (appended w pre) e := by
      rw [appended, List.foldl_append]
      rfl
    rw [happ] at hcut
    rcases hcut.effect rfl with rfl | hcut
    · -- the entry and the last index
      refine ⟨_, .part (pre ++ [e]) post, ?_⟩
      have := h.append ha.left
      rwa [happ] at this
    rcases hcut.effect rfl with rfl | hcut
    · -- the entry without the last index
      have := h.cut_entry ha
      rwa [← cluster_putRecord] at this
    · exact ih (e :: post) (List.append_assoc _ _ _) hcut

/-! ### The operations on a store -/

/-- A store with what it shows. -/
structure Holds (core : RaftMachineStorage) (m : ColumnFamily) (s : LogImage) : Prop where
  disk : OnDisk m s
  metadata : core.snapshotMetadata = s.metadata
  fresh : s.entries = [] → s.metadata.index = 0

theorem Holds.firstIndexIn_eq (h : Holds self (cluster w) s) :
    firstIndexIn self (cluster w) = s.firstIndex := by
  rw [firstIndexIn, indexIn, h.disk.first, h.metadata, LogImage.firstIndex]
  cases s.first <;> rfl

theorem Holds.lastIndexIn_eq (h : Holds self (cluster w) s) :
    lastIndexIn self (cluster w) = s.lastIndex := by
  rw [lastIndexIn, indexIn, h.disk.log.last, LogImage.lastIndex]
  cases hl : s.entries.getLast? with
  | none => rw [h.metadata]; exact h.fresh (List.getLast?_eq_none_iff.mp hl)
  | some e => rfl

theorem Holds.toNat_lastIndex (h : Holds self (cluster w) s) :
    s.lastIndex.toNat = s.entries.length := by
  rw [LogImage.lastIndex]
  cases hl : s.entries.getLast? with
  | none => rw [List.getLast?_eq_none_iff.mp hl]; rfl
  | some e => exact h.disk.log.getLast_index hl

/-- An index up to the last one is that of the entry at its place. -/
theorem Holds.entry (h : Holds self (cluster w) s) {idx : UInt64} (hle : idx ≤ s.lastIndex) :
    entryIn (cluster w) idx = some (s.entry idx) := by
  rw [LogImage.entry]
  split_ifs with h0
  · rw [h0]
    exact h.disk.log.zero
  · rw [UInt64.le_iff_toNat_le, h.toNat_lastIndex] at hle
    obtain ⟨e, hget, -, hent⟩ := h.disk.log.entry_at h0 hle
    rw [hget, hent]

/-- **A store shows what it holds.** -/
theorem Holds.readBack (h : Holds self (cluster w) s) : s.ReadBack self w where
  metadata := h.metadata
  hardState := (RaftMachineStorage.completes_hardState w).mpr ⟨h.disk.hardState, rfl⟩
  confState := by
    rw [Completes, RaftMachineStorage.confState_run, h.disk.confState]
    rfl
  first := by rw [Completes, RaftMachineStorage.firstIndex_run, h.firstIndexIn_eq]
  last := by rw [Completes, RaftMachineStorage.lastIndex_run, h.lastIndexIn_eq]
  no_gap := h.disk.log.numbered
  entry idx hle := by
    rw [Completes, RaftMachineStorage.entryByIdx_run, h.entry hle]
    rfl

/-- A store reads back the entries of its image, and nothing else. -/
theorem Holds.completes_entry (h : Holds self (cluster w) s) {idx : UInt64} {o : Option Entry}
    (hle : idx ≤ s.lastIndex) :
    Completes (RaftMachineStorage.entryByIdx idx) w o w ↔ s.entry idx = o :=
  (completes_of_run (h.readBack.entry idx hle)).trans (and_iff_left rfl)

/-- **The store is opened again** on whatever the disk holds. -/
theorem OnDisk.holds_reopened (h : OnDisk (cluster w) s)
    (hnew : Completes RaftMachineStorage.new w self w') : Holds self (cluster w') s.reopened := by
  obtain ⟨metadata, hm, rfl, rfl⟩ := RaftMachineStorage.completes_new.mp hnew
  obtain ⟨hs, cs, hhs, hcs, rfl⟩ := metadataIn_eq_some.mp hm
  obtain rfl := Option.some.inj (hhs.symm.trans h.hardState)
  obtain rfl := Option.some.inj (hcs.symm.trans h.confState)
  refine ⟨h.forget, rfl, fun hnil => ?_⟩
  have hle := h.commit_le
  rw [show s.entries = [] from hnil] at hle
  exact UInt64.toNat_inj.mp (Nat.le_zero.mp hle)

theorem OnDisk.opens (h : OnDisk (cluster w) s) :
    ∃ self, Completes RaftMachineStorage.new w self w :=
  ⟨_, RaftMachineStorage.completes_new.mpr
    ⟨_, metadataIn_eq_some.mpr ⟨_, _, h.hardState, h.confState, rfl⟩, rfl, rfl⟩⟩

/-- An append that passes the checks of the store may go ahead. -/
theorem Holds.appendable (h : Holds self (cluster w) s) {es : List Entry}
    (hx : (StoreOp.raft (.append es)).Expected self (cluster w))
    (hg : RaftMachineStorage.AppendGuard self (cluster w) es) : Appendable s es where
  contiguous := hx.1
  bound := hx.2.1
  follows e he := by
    have hle := UInt64.le_iff_toNat_le.mp (hg e he).2
    rw [h.lastIndexIn_eq, UInt64.toNat_add, h.toNat_lastIndex] at hle
    exact Nat.le_trans hle (Nat.mod_le _ _)
  uncommitted := hx.2.2 _ h.disk.hardState

/-- The world that an append leaves, in the end. -/
theorem append_world (self : RaftMachineStorage) (es : List Entry) (w : World ε) :
    ((RaftOp.append es).run self w).2 = w ∨
      RaftMachineStorage.AppendGuard self (cluster w) es ∧ ∃ uncommit : Bytes,
        ((RaftOp.append es).run self w).2 = putRecord (appended w es) .uncommit uncommit := by
  cases es with
  | nil => exact .inl rfl
  | cons e es =>
    by_cases hg : RaftMachineStorage.AppendGuard self (cluster w) (e :: es)
    · refine .inr ⟨hg, Bincode.serialize (self.afterAppend (e :: es)).uncommitIndex, ?_⟩
      rw [RaftOp.run, bind_run_ok (RaftMachineStorage.append_run_cons e es hg)]
      rfl
    · obtain ⟨msg, hr⟩ := RaftMachineStorage.append_run_panicked hg
      rw [RaftOp.run, bind_run_panicked hr]
      exact .inl rfl

/-- A commit index that the store admits lies in the log. -/
theorem Holds.le_length (h : Holds self (cluster w) s) {idx : UInt64}
    (hle : idx ≤ lastIndexIn self (cluster w)) : idx.toNat ≤ s.entries.length := by
  rw [h.lastIndexIn_eq, UInt64.le_iff_toNat_le, h.toNat_lastIndex] at hle
  exact hle

theorem Holds.setHardStateCommit_run (h : Holds self (cluster w) s) (commit : UInt64) :
    (RaftOp.setHardStateCommit commit).run self w = (.ok self, putRecord w .hardState
      (encodeToVec { s.hardState with commit := commit })) := by
  have hread : RaftMachineStorage.setHardStateCommit commit w = (.ok (.ok ()),
      putRecord w .hardState (encodeToVec { s.hardState with commit := commit })) := by
    rw [RaftMachineStorage.setHardStateCommit, bind_run_ok h.readBack.hardState]
    rfl
  rw [RaftOp.run, bind_run_ok hread]
  rfl

/-- The two writes of a commit; without the entry there is one. -/
theorem Holds.commmitIndex_run (h : Holds self (cluster w) s) {idx : UInt64}
    (hle : idx ≤ lastIndexIn self (cluster w)) :
    match s.entry idx with
    | none => ∃ msg, (RaftOp.commmitIndex idx).run self w =
        (.panicked msg, (self.afterCommit idx).uncommitted w)
    | some e => (RaftOp.commmitIndex idx).run self w = (.ok (self.afterCommit idx),
        putRecord ((self.afterCommit idx).uncommitted w) .hardState
          (encodeToVec (RaftMachineStorage.committedState s.hardState e idx))) := by
  have hrun := RaftMachineStorage.commmitIndex_run self w idx
  rw [h.entry (h.lastIndexIn_eq ▸ hle), h.disk.hardState] at hrun
  rw [RaftOp.run]
  cases he : s.entry idx with
  | none =>
    rw [he] at hrun
    exact ⟨_, bind_run_panicked hrun _⟩
  | some e =>
    rw [he] at hrun
    rw [bind_run_ok hrun]
    rfl

/-- The two writes of a snapshot, unless its payload has no room. -/
theorem Holds.createSnapshot_run (h : Holds self (cluster w) s) :
    (∃ msg, RaftOp.createSnapshot.run self w = (.panicked msg, w)) ∨
      ∃ sns : Snapshot, sns.getMetadata = s.reopened.metadata ∧
        RaftOp.createSnapshot.run self w = (.ok (self.afterSnapshot sns),
          putRecord (putRecord w .firstIndex s.hardState.commit) .snapshot (encodeToVec sns)) := by
  rw [RaftOp.run, RaftMachineStorage.createSnapshot]
  rcases RaftMachineStorage.newSnapshot_run w with ⟨sns, hsns, hr⟩ | ⟨-, msg, hr⟩
  · obtain ⟨hs, cs, hhs, hcs, -, hm⟩ := RaftMachineStorage.snapshotOf_eq_some hsns
    obtain rfl := Option.some.inj (hhs.symm.trans h.disk.hardState)
    obtain rfl := Option.some.inj (hcs.symm.trans h.disk.confState)
    have hmeta : sns.getMetadata = s.reopened.metadata := by
      rw [Snapshot.getMetadata, hm]
      rfl
    have hidx : sns.getMetadata.index = s.hardState.commit := congrArg SnapshotMetadata.index hmeta
    refine .inr ⟨sns, hmeta, ?_⟩
    rw [bind_run_ok hr, ← hidx]
    rfl
  · exact .inl ⟨msg, bind_run_panicked hr _⟩

/-- **What an operation writes**, when it completes, on the disk and in memory. -/
theorem Holds.wrote (h : Holds self (cluster w) s) {op : StoreOp}
    (hx : op.Expected self (cluster w)) (hc : Completes (op.run self) w self' w') :
    OnDisk (cluster w') (op.write s) ∧ self'.snapshotMetadata = (op.write s).metadata := by
  have hd := h.disk
  cases op with
  | raft op =>
    cases op with
    | append es =>
      obtain ⟨⟨r, core⟩, t, hr, hc⟩ := completes_bind.mp hc
      obtain ⟨rfl, rfl⟩ := completes_pure.mp hc
      -- nothing to append, or the guard of `append` holds
      obtain ⟨-, ⟨rfl, rfl, rfl⟩ | ⟨-, hg, rfl, rfl⟩⟩ := RaftMachineStorage.completes_append hr
      · exact ⟨hd, h.metadata⟩
      · rw [cluster_putRecord]
        exact ⟨(hd.append (h.appendable hx hg)).putOther (.inl rfl) _, h.metadata⟩
    | commmitIndex idx =>
      have hrun := h.commmitIndex_run hx
      rw [StoreOp.run, Completes] at hc
      rw [StoreOp.write]
      cases he : s.entry idx with
      | none =>
        rw [he] at hrun
        -- an index without an entry panics
        obtain ⟨msg, hrun⟩ := hrun
        rw [hrun] at hc
        cases hc
      | some e =>
        rw [he] at hrun
        cases hrun.symm.trans hc
        rw [cluster_putRecord, RaftMachineStorage.uncommitted, cluster_putRecord]
        exact ⟨(hd.putOther (.inl rfl) _).putHardState (h.le_length hx), h.metadata⟩
    | saveHardState hs =>
      cases hc
      show OnDisk (cluster (putRecord w .hardState (encodeToVec hs))) _ ∧ _
      rw [cluster_putRecord]
      exact ⟨hd.putHardState (h.le_length hx), h.metadata⟩
    | setHardStateCommit commit =>
      cases (h.setHardStateCommit_run commit).symm.trans hc
      rw [cluster_putRecord]
      exact ⟨hd.putHardState (h.le_length hx), h.metadata⟩
    | saveConfState cs =>
      cases hc
      show OnDisk (cluster (putRecord w .confState (encodeToVec cs))) _ ∧ _
      rw [cluster_putRecord]
      exact ⟨hd.putConfState hx, h.metadata⟩
    | createSnapshot =>
      rw [StoreOp.run, Completes] at hc
      -- the first index moves, and the metadata are those of the new snapshot
      rcases h.createSnapshot_run with ⟨msg, hrun⟩ | ⟨sns, hmeta, hrun⟩
      · rw [hrun] at hc
        cases hc
      · cases hrun.symm.trans hc
        rw [cluster_putRecord, cluster_putRecord]
        exact ⟨(hd.forget.putFirstIndex _).putOther (.inr rfl) _, hmeta⟩
  | applySnapshot snapshot => exact hx.elim
  | set now key value =>
    cases hc
    rw [cluster, World.columns_put_self]
    exact ⟨hd.putClient hx _, h.metadata⟩
  | delete key =>
    cases hc
    rw [cluster, World.columns_delete_self]
    exact ⟨hd.eraseClient hx, h.metadata⟩

/-- A last write is made, or not. -/
theorem cut_of_write {op : StoreOp} {s' : LogImage} {t t' : World ε} (hl : op.Leaves s s')
    (ht : OnDisk (cluster t') s') (hpast : t'.past = t.points) (hpt : World.CutAt w t' pt) :
    (∃ s', op.Leaves s s' ∧ OnDisk (pt.1 dbColumnFamilyCluster) s') ∨ World.CutAt w t pt := by
  rcases hpt.effect hpast with rfl | hpt
  · exact .inl ⟨s', hl, ht⟩
  · exact .inr hpt

/-- **What an operation leaves** when it is cut off. -/
theorem Holds.cut (h : Holds self (cluster w) s) {op : StoreOp}
    (hx : op.Expected self (cluster w)) (hpt : World.CutAt w (op.run self w).2 pt) :
    ∃ s', op.Leaves s s' ∧ OnDisk (pt.1 dbColumnFamilyCluster) s' := by
  have hd := h.disk
  have hnone : World.CutAt w w pt →
      ∃ s', op.Leaves s s' ∧ OnDisk (pt.1 dbColumnFamilyCluster) s' := by
    intro hpt
    rw [World.cutAt_self.mp hpt]
    exact ⟨s, .undone op, hd⟩
  cases op with
  | raft op =>
    rw [StoreOp.run] at hpt
    cases op with
    | append es =>
      rcases append_world self es w with hw | ⟨hg, uncommit, hw⟩
      · rw [hw] at hpt
        exact hnone hpt
      · rw [hw] at hpt
        have ha := h.appendable hx hg
        -- before its last write an append is cut among its entries
        have hall := (hd.append ha).putOther (.inl rfl) (recordBytes uncommit)
        rw [← cluster_putRecord] at hall
        rcases cut_of_write (.written (.raft (.append es))) hall rfl hpt with hend | hpt
        · exact hend
        · exact hd.cut_append ha hpt
    | commmitIndex idx =>
      have hrun := h.commmitIndex_run hx
      -- the uncommitted indices come first, the hard state after them
      have hu := hd.putOther (.inl rfl)
        (recordBytes (Bincode.serialize (self.afterCommit idx).uncommitIndex))
      rw [← cluster_putRecord] at hu
      cases he : s.entry idx with
      | none =>
        rw [he] at hrun
        obtain ⟨msg, hrun⟩ := hrun
        rw [hrun] at hpt
        exact (cut_of_write (.undone _) hu rfl hpt).elim id hnone
      | some e =>
        rw [he] at hrun
        rw [hrun] at hpt
        rcases cut_of_write (.written _) (h.wrote hx hrun).1 rfl hpt with hend | hpt
        · exact hend
        · exact (cut_of_write (.undone _) hu rfl hpt).elim id hnone
    | saveHardState hs =>
      exact (cut_of_write (.written _) (h.wrote hx rfl).1 rfl hpt).elim id hnone
    | setHardStateCommit commit =>
      have hrun := h.setHardStateCommit_run commit
      rw [hrun] at hpt
      exact (cut_of_write (.written _) (h.wrote hx hrun).1 rfl hpt).elim id hnone
    | saveConfState cs =>
      exact (cut_of_write (.written _) (h.wrote hx rfl).1 rfl hpt).elim id hnone
    | createSnapshot =>
      rcases h.createSnapshot_run with ⟨msg, hrun⟩ | ⟨sns, -, hrun⟩
      · rw [hrun] at hpt
        exact hnone hpt
      · rw [hrun] at hpt
        -- between its two writes the first index stands alone
        have hfirst := hd.putFirstIndex s.hardState.commit
        rw [← cluster_putRecord] at hfirst
        rcases cut_of_write (.written _) (h.wrote hx hrun).1 rfl hpt with hend | hpt
        · exact hend
        · exact (cut_of_write .first hfirst rfl hpt).elim id hnone
  | applySnapshot snapshot => exact hx.elim
  | set now key value =>
    exact (cut_of_write (.written _) (h.wrote hx rfl).1 rfl hpt).elim id hnone
  | delete key =>
    exact (cut_of_write (.written _) (h.wrote hx rfl).1 rfl hpt).elim id hnone

/-- Only an empty log takes its last index from the metadata, which then start at `0`. -/
theorem Holds.fresh_write (h : Holds self (cluster w) s) (op : StoreOp)
    (hnil : (op.write s).entries = []) : (op.write s).metadata.index = 0 := by
  have hcommit : s.entries = [] → s.hardState.commit = 0 := by
    intro hnil
    have hle := h.disk.commit_le
    rw [hnil] at hle
    exact UInt64.toNat_inj.mp (Nat.le_zero.mp hle)
  -- only an append of entries fills the log
  cases op with
  | raft op =>
    cases op with
    | append es =>
      cases es with
      | nil => exact h.fresh hnil
      | cons e es => simp [StoreOp.write, refAppend] at hnil
    | commmitIndex idx =>
      rw [StoreOp.write] at hnil ⊢
      cases he : s.entry idx <;> rw [he] at hnil <;> exact h.fresh hnil
    | createSnapshot => exact hcommit hnil
    | _ => exact h.fresh hnil
  | _ => exact h.fresh hnil

/-- **An operation that completes** writes the image. -/
theorem Holds.step (h : Holds self (cluster w) s) {op : StoreOp}
    (hx : op.Expected self (cluster w)) (hc : Completes (op.run self) w self' w') :
    Holds self' (cluster w') (op.write s) :=
  have ⟨hdisk, hmeta⟩ := h.wrote hx hc
  ⟨hdisk, hmeta, h.fresh_write op⟩

end steps

end PlacementCenter.Storage
