import PlacementCenter.Storage.RaftRecords

/-!
# What the operations of the log store do

Each operation of the log store, when it completes, and what it leaves in the database and in
memory.

## Main definitions

* `appended w es`: the world after the entries `es` were written
* `committedState hs e idx`: the hard state after the entry `e` was committed
* `snapshotOf m`: the snapshot of the contents `m`
* `restored w pairs`: the world after the texts of a dump were written

## Main results

* `completes_append`, `completes_commmitIndex`, `completes_newSnapshot`, `completes_createSnapshot`,
  `completes_new`, `completes_applySnapshot`: one spec for each operation
* `append_panicked`, `commmitIndex_panicked`, `createSnapshot_panicked`: what a panic leaves
* `lookup_restored_dump`: the contents after a dump was written back
-/

namespace PlacementCenter.Storage

open Rust Rust.Prost Raft

variable {ε : Type}

/-! ### Appended entries -/

/-- The world after one entry was written. -/
def appendedEntry (w : World ε) (e : Entry) : World ε :=
  putRecord (putRecord w (.entry e.index) (encodeToVec e)) .lastIndex e.index

/-- The world after the entries of an `append` were written. -/
def appended (w : World ε) (es : List Entry) : World ε := es.foldl appendedEntry w

/-- The uncommitted indices after the entries of an `append` were written. -/
def insertUncommitted (ui : HashMap UInt64 Int8) (es : List Entry) : HashMap UInt64 Int8 :=
  es.foldl (fun ui e => ui.insert e.index 1) ui

@[simp] theorem appended_nil (w : World ε) : appended w [] = w := rfl

@[simp] theorem appended_cons (w : World ε) (e : Entry) (es : List Entry) :
    appended w (e :: es) = appended (appendedEntry w e) es := rfl

/-- What an append leaves depends on the contents only. -/
theorem cluster_appended_congr {ε' : Type} (es : List Entry) :
    ∀ {w : World ε} {w' : World ε'}, cluster w = cluster w' →
      cluster (appended w es) = cluster (appended w' es) := by
  induction es with
  | nil => intro w w' h; exact h
  | cons e es ih =>
    intro w w' h
    refine ih ?_
    simp only [appendedEntry, cluster_putRecord, h]

/-- An append writes the last index and the records of its entries. -/
theorem lookup_appended {k : Bytes} (hl : k ≠ Record.lastIndex.key) (es : List Entry)
    (he : ∀ e ∈ es, k ≠ (Record.entry e.index).key) :
    ∀ w : World ε, (cluster (appended w es))[k]? = (cluster w)[k]? := by
  induction es with
  | nil => intro w; rfl
  | cons e es ih =>
    intro w
    have hek : (Record.entry e.index).key ≠ k := (he e List.mem_cons_self).symm
    rw [appended_cons, ih (fun e' h' => he e' (List.mem_cons_of_mem e h'))]
    simp only [appendedEntry, cluster_putRecord]
    rw [OrdMap.lookup_insert_ne _ _ hl.symm, OrdMap.lookup_insert_ne _ _ hek]

/-- The record of an index that is not appended stays. -/
theorem entryIn_appended_of_ne {idx : UInt64} {es : List Entry} (h : ∀ e ∈ es, e.index ≠ idx)
    (w : World ε) : entryIn (cluster (appended w es)) idx = entryIn (cluster w) idx := by
  refine entryIn_congr (lookup_appended (by simp) es (fun e he => ?_) w)
  simpa using (h e he).symm

/-- The entries that were appended are read back. -/
theorem entryIn_appended_of_mem {es : List Entry}
    (hd : es.Pairwise fun e e' => e.index ≠ e'.index) {e : Entry} (he : e ∈ es) :
    ∀ w : World ε, entryIn (cluster (appended w es)) e.index = some (some e) := by
  induction es with
  | nil => cases he
  | cons e' es ih =>
    intro w
    obtain ⟨hd', hd⟩ := List.pairwise_cons.mp hd
    rw [appended_cons]
    rcases List.mem_cons.mp he with rfl | he
    · rw [entryIn_appended_of_ne (fun e'' h'' => (hd' e'' h'').symm)]
      simp [appendedEntry]
    · exact ih hd he _

/-- The last index is that of the last entry. -/
theorem readRecord_appended {es : List Entry} {e : Entry} (h : es.getLast? = some e) :
    ∀ w : World ε, readRecord UInt64 (cluster (appended w es)) .lastIndex = .ok (some e.index) := by
  induction es with
  | nil => cases h
  | cons e' es ih =>
    intro w
    rw [appended_cons]
    cases es with
    | nil =>
      obtain rfl : e' = e := by simpa using h
      simp [appendedEntry]
    | cons e'' es => exact ih (by simpa using h) _

namespace RaftMachineStorage

variable {self self' : RaftMachineStorage} {w w' : World ε} {r : RaftResult Unit}

theorem foldlM_appendEntry_run (es : List Entry) (self : RaftMachineStorage) (w : World ε) :
    es.foldlM appendEntry self w =
      (.ok { self with uncommitIndex := insertUncommitted self.uncommitIndex es },
        appended w es) := by
  induction es generalizing self w with
  | nil => rfl
  | cons e es ih =>
    rw [List.foldlM_cons]
    exact ih { self with uncommitIndex := self.uncommitIndex.insert e.index 1 }
      (appendedEntry w e)

/-- The store and the world after the entries `es` were appended. -/
def afterAppend (self : RaftMachineStorage) (es : List Entry) : RaftMachineStorage :=
  { self with uncommitIndex := insertUncommitted self.uncommitIndex es }

/-- The two guards of `append`: its first entry is not compacted, and follows the last one. -/
def AppendGuard (self : RaftMachineStorage) (m : ColumnFamily) (es : List Entry) : Prop :=
  ∀ e ∈ es.head?, firstIndexIn self m ≤ e.index ∧ e.index ≤ lastIndexIn self m + 1

theorem append_run_cons (e : Entry) (es : List Entry)
    (hg : AppendGuard self (cluster w) (e :: es)) :
    append self (e :: es) w =
      (.ok (.ok (), self.afterAppend (e :: es)),
        putRecord (appended w (e :: es)) .uncommit
          (Bincode.serialize (self.afterAppend (e :: es)).uncommitIndex)) := by
  obtain ⟨hf, hl⟩ := hg e rfl
  unfold append
  dsimp only
  rw [Program.bind_run_ok (firstIndex_run self w), if_neg (UInt64.not_lt.mpr hf),
    Program.bind_run_ok (lastIndex_run self w), if_neg (UInt64.not_lt.mpr hl),
    Program.bind_run_ok (foldlM_appendEntry_run (e :: es) self w)]
  rfl

/-- An append outside its guards panics before it writes. -/
theorem append_run_panicked {es : List Entry} (hg : ¬ AppendGuard self (cluster w) es) :
    ∃ msg, append self es w = (.panicked msg, w) := by
  cases es with
  | nil => exact absurd (fun e he => by cases he) hg
  | cons e es =>
    unfold append
    dsimp only
    rw [Program.bind_run_ok (firstIndex_run self w)]
    by_cases hf : firstIndexIn self (cluster w) > e.index
    · rw [if_pos hf]
      exact ⟨_, rfl⟩
    · rw [if_neg hf, Program.bind_run_ok (lastIndex_run self w)]
      by_cases hl : lastIndexIn self (cluster w) + 1 < e.index
      · rw [if_pos hl]
        exact ⟨_, rfl⟩
      · refine absurd (fun e' he' => ?_) hg
        obtain rfl : e = e' := by simpa using he'
        exact ⟨UInt64.not_lt.mp hf, UInt64.not_lt.mp hl⟩

/-- **What an append does.** -/
theorem completes_append {es : List Entry}
    (h : Program.Completes (append self es) w (r, self') w') :
    r = .ok () ∧ (es = [] ∧ self' = self ∧ w' = w ∨
      es ≠ [] ∧ AppendGuard self (cluster w) es ∧ self' = self.afterAppend es ∧
        w' = putRecord (appended w es) .uncommit (Bincode.serialize self'.uncommitIndex)) := by
  cases es with
  | nil =>
    obtain ⟨h₁, rfl⟩ := Program.completes_pure.mp h
    obtain ⟨rfl, rfl⟩ := Prod.mk.inj h₁
    exact ⟨rfl, .inl ⟨rfl, rfl, rfl⟩⟩
  | cons e es =>
    by_cases hg : AppendGuard self (cluster w) (e :: es)
    · obtain ⟨h₁, rfl⟩ := (Program.completes_of_run (append_run_cons e es hg)).mp h
      obtain ⟨rfl, rfl⟩ := Prod.mk.inj h₁
      exact ⟨rfl, .inr ⟨by simp, hg, rfl, rfl⟩⟩
    · obtain ⟨msg, hm⟩ := append_run_panicked hg
      rw [Program.Completes, hm] at h
      cases h

/-- A panic of `append` leaves the database as it was. -/
theorem append_panicked {es : List Entry} {msg : String}
    (h : append self es w = (.panicked msg, w')) : w' = w := by
  cases es with
  | nil => cases h
  | cons e es =>
    by_cases hg : AppendGuard self (cluster w) (e :: es)
    · rw [append_run_cons e es hg] at h
      cases h
    · obtain ⟨msg, hm⟩ := append_run_panicked hg
      rw [hm] at h
      exact (congrArg Prod.snd h).symm

/-! ### Committed entries -/

/-- The store after an index was committed. -/
def afterCommit (self : RaftMachineStorage) (idx : UInt64) : RaftMachineStorage :=
  { self with uncommitIndex := self.uncommitIndex.erase idx }

/-- The hard state after an entry was committed. -/
def committedState (hs : HardState) (e : Entry) (idx : UInt64) : HardState :=
  { term := e.term, vote := hs.vote, commit := idx }

/-- The world after the uncommitted indices were written. -/
def uncommitted (self : RaftMachineStorage) (w : World ε) : World ε :=
  putRecord w .uncommit (Bincode.serialize self.uncommitIndex)

theorem commmitIndex_run (self : RaftMachineStorage) (w : World ε) (idx : UInt64) :
    commmitIndex self idx w =
      match entryIn (cluster w) idx with
      | none => (.panicked "called Result::unwrap() on an Err value", w)
      | some entry =>
        match hardStateIn (cluster w), entry with
        | none, _ => (.panicked "called Result::unwrap() on an Err value",
            (self.afterCommit idx).uncommitted w)
        | some _, none => (.panicked "called Option::unwrap() on a None value",
            (self.afterCommit idx).uncommitted w)
        | some hs, some e => (.ok (.ok (), self.afterCommit idx),
            putRecord ((self.afterCommit idx).uncommitted w) .hardState
              (encodeToVec (committedState hs e idx))) := by
  unfold commmitIndex
  rw [Program.bind_run, entryByIdx_run]
  rcases entryIn (cluster w) idx with _ | entry
  · rfl
  · dsimp only [Program.unwrapOk_some, Program.pure_run]
    rw [Program.bind_run_ok (saveUncommitIndex_run _ w), Program.bind_run, hardState_run]
    -- the uncommitted indices are no part of the hard state
    have hu : ∀ v : Bytes, hardStateIn (cluster (putRecord w .uncommit v)) =
        hardStateIn (cluster w) := by simp
    rw [hu]
    rcases hardStateIn (cluster w) with _ | hs
    · rfl
    · rcases entry with _ | e <;> rfl

/-- **What a commit does**: it needs the entry, and takes the term of the entry. -/
theorem completes_commmitIndex {idx : UInt64}
    (h : Program.Completes (commmitIndex self idx) w (r, self') w') :
    ∃ e hs, entryIn (cluster w) idx = some (some e) ∧ hardStateIn (cluster w) = some hs ∧
      r = .ok () ∧ self' = self.afterCommit idx ∧
      w' = putRecord (self'.uncommitted w) .hardState (encodeToVec (committedState hs e idx)) := by
  rw [Program.Completes, commmitIndex_run] at h
  rcases he : entryIn (cluster w) idx with _ | _ | e <;>
    rcases hh : hardStateIn (cluster w) with _ | hs <;> simp only [he, hh] at h <;> cases h
  exact ⟨e, hs, rfl, rfl, rfl, rfl, rfl⟩

/-- A panic of `commmit_index` leaves every record but the uncommitted indices. -/
theorem commmitIndex_panicked {idx : UInt64} {msg : String}
    (h : commmitIndex self idx w = (.panicked msg, w')) :
    w' = w ∨ w' = (self.afterCommit idx).uncommitted w := by
  rw [commmitIndex_run] at h
  rcases he : entryIn (cluster w) idx with _ | _ | e <;>
    rcases hh : hardStateIn (cluster w) with _ | hs <;> simp only [he, hh] at h <;> cases h <;>
    simp

/-! ### Snapshots -/

/-- The snapshot of the contents `m`, with its payload in one allocation. -/
def snapshotOf (m : ColumnFamily) : Option Snapshot := do
  let metadata ← metadataIn m
  let data ← ByteVec.ofBytes (Bincode.serialize (dumpOf m))
  return { data := data, metadata := some metadata }

/-- A snapshot carries the commit index and the term of the hard state. -/
theorem snapshotOf_eq_some {m : ColumnFamily} {s : Snapshot} (h : snapshotOf m = some s) :
    ∃ hs cs, hardStateIn m = some hs ∧ confStateIn m = some cs ∧
      s.data.val = Bincode.serialize (dumpOf m) ∧
      s.metadata = some { confState := some cs, index := hs.commit, term := hs.term } := by
  obtain ⟨metadata, hm, h⟩ := Option.bind_eq_some_iff.mp h
  obtain ⟨data, hd, h⟩ := Option.bind_eq_some_iff.mp h
  obtain ⟨hs, cs, hhs, hcs, rfl⟩ := metadataIn_eq_some.mp hm
  cases h
  refine ⟨hs, cs, hhs, hcs, ?_, rfl⟩
  rw [ByteVec.ofBytes] at hd
  split_ifs at hd
  cases hd
  rfl

theorem newSnapshot_run (w : World ε) :
    (∃ s, snapshotOf (cluster w) = some s ∧ newSnapshot w = (.ok s, w)) ∨
      snapshotOf (cluster w) = none ∧ ∃ msg, newSnapshot w = (.panicked msg, w) := by
  unfold newSnapshot snapshotOf
  rw [Program.bind_run, createSnapshotMetadata_run]
  rcases metadataIn (cluster w) with _ | metadata
  · exact .inr ⟨rfl, _, rfl⟩
  · dsimp only [Program.unwrapOk_some, Program.pure_run]
    rw [Program.bind_run_ok (RocksDBEngine.readAll_run w)]
    change (∃ s, ((ByteVec.ofBytes (Bincode.serialize (dumpOf (cluster w)))).bind _) = some s ∧
        (allocate (Bincode.serialize (dumpOf (cluster w))) >>= _) w = _) ∨
      ((ByteVec.ofBytes (Bincode.serialize (dumpOf (cluster w)))).bind _) = none ∧
        ∃ msg, (allocate (Bincode.serialize (dumpOf (cluster w))) >>= _) w = _
    rw [allocate]
    rcases ByteVec.ofBytes (Bincode.serialize (dumpOf (cluster w))) with _ | data
    · exact .inr ⟨rfl, _, rfl⟩
    · exact .inl ⟨_, rfl, rfl⟩

theorem completes_newSnapshot {s : Snapshot} :
    Program.Completes newSnapshot w s w' ↔ snapshotOf (cluster w) = some s ∧ w = w' := by
  rcases newSnapshot_run w with ⟨s', hs, hr⟩ | ⟨hs, msg, hr⟩
  · rw [Program.completes_of_run hr, hs, Option.some_inj]
  · simp [Program.Completes, hr, hs]

/-- The store after a snapshot became its last one. -/
def afterSnapshot (self : RaftMachineStorage) (s : Snapshot) : RaftMachineStorage :=
  { self with snapshotMetadata := s.getMetadata }

/-- **What a snapshot does**: the first index becomes the commit index. -/
theorem completes_createSnapshot :
    Program.Completes (createSnapshot self) w self' w' ↔
      ∃ s, snapshotOf (cluster w) = some s ∧ self.afterSnapshot s = self' ∧
        putRecord (putRecord w .firstIndex s.getMetadata.index) .snapshot (encodeToVec s) = w' := by
  unfold createSnapshot
  rw [Program.completes_bind]
  constructor
  · rintro ⟨s, t, ht, h⟩
    obtain ⟨hs, rfl⟩ := completes_newSnapshot.mp ht
    obtain ⟨rfl, rfl⟩ := Program.completes_pure.mp h
    exact ⟨s, hs, rfl, rfl⟩
  · rintro ⟨s, hs, rfl, rfl⟩
    exact ⟨s, w, completes_newSnapshot.mpr ⟨hs, rfl⟩, rfl⟩

/-- A panic of `create_snapshot` leaves the database as it was. -/
theorem createSnapshot_panicked {msg : String}
    (h : createSnapshot self w = (.panicked msg, w')) : w' = w := by
  unfold createSnapshot at h
  rcases newSnapshot_run w with ⟨s', -, hr⟩ | ⟨-, msg', hr⟩
  · rw [Program.bind_run_ok hr] at h
    cases h
  · rw [Program.bind_run_panicked hr] at h
    exact (congrArg Prod.snd h).symm

/-- **What a restart does**: the snapshot is taken to be the committed prefix. -/
theorem completes_new :
    Program.Completes new w self' w' ↔
      ∃ metadata, metadataIn (cluster w) = some metadata ∧
        RaftMachineStorage.mk (uncommitIn (cluster w)) false metadata = self' ∧ w = w' := by
  unfold new
  rw [Program.Completes, Program.bind_run_ok (readUncommitIndex_run w), Program.bind_run,
    createSnapshotMetadata_run]
  rcases metadataIn (cluster w) with _ | metadata
  · simp
  · simp

/-! ### Dumps -/

/-- The texts among some entries. -/
def textPairs (pairs : List (Bytes × Bytes)) : List (String × String) :=
  pairs.filterMap fun p => (fromUtf8 p.1).bind fun k => (fromUtf8 p.2).map fun v => (k, v)

/-- The texts of a dump are those of the column family, in key order. -/
theorem dumpPairs_dumpOf (m : ColumnFamily) : dumpPairs (dumpOf m) = textPairs m.toList := by
  rw [dumpPairs, dumpOf, OrdMap.toList_singleton, List.flatMap_singleton]
  induction m.toList with
  | nil => rfl
  | cons p ps ih =>
    simp only [textsOf, textPairs, List.filterMap_cons] at ih ⊢
    rcases fromUtf8 p.1 with _ | k
    · exact ih
    · rcases fromUtf8 p.2 with _ | v
      · exact ih
      · simp only [Option.bind_some, Option.map_some, List.flatMap_cons, OrdMap.toList_singleton,
          List.singleton_append, ih]

/-- The world after the texts of a dump were written. -/
def restored (w : World ε) (ps : List (String × String)) : World ε :=
  ps.foldl (fun w p => putKey w (utf8 p.1) (utf8 p.2)) w

theorem cluster_restored (ps : List (String × String)) (w : World ε) :
    cluster (restored w ps) =
      OrdMap.writePairs (cluster w) (ps.map fun p => (utf8 p.1, utf8 p.2)) := by
  induction ps generalizing w with
  | nil => rfl
  | cons p ps ih =>
    rw [List.map_cons, OrdMap.writePairs_cons, ← cluster_putKey]
    exact ih (putKey w (utf8 p.1) (utf8 p.2))

/-- An entry of a column family that is text. -/
def isText (p : Bytes × Bytes) : Bool := (fromUtf8 p.1).isSome && (fromUtf8 p.2).isSome

/-- The texts, as bytes again. -/
theorem map_textPairs (pairs : List (Bytes × Bytes)) :
    ((textPairs pairs).map fun p => (utf8 p.1, utf8 p.2)) = pairs.filter isText := by
  induction pairs with
  | nil => rfl
  | cons p ps ih =>
    rw [textPairs] at ih ⊢
    cases hk : fromUtf8 p.1 with
    | none =>
      rw [List.filterMap_cons_none (by simp [hk]), List.filter_cons_of_neg (by simp [isText, hk])]
      exact ih
    | some k =>
      cases hv : fromUtf8 p.2 with
      | none =>
        rw [List.filterMap_cons_none (by simp [hv]), List.filter_cons_of_neg (by simp [isText, hv])]
        exact ih
      | some v =>
        rw [List.filterMap_cons_some (b := (k, v)) (by simp [hk, hv]), List.map_cons,
          List.filter_cons_of_pos (by simp [isText, hk, hv]), ih, fromUtf8_eq_some.mp hk,
          fromUtf8_eq_some.mp hv]

/-- **Writing a dump back**: a key has the value of the dump if this is text, else its own. -/
theorem lookup_restored_dump (w : World ε) (m : ColumnFamily) (k : Bytes) :
    (cluster (restored w (dumpPairs (dumpOf m))))[k]? =
      (m[k]?.filter fun v => isText (k, v)).or (cluster w)[k]? := by
  have hd : (m.toList.filter isText).Pairwise fun p q => p.1 ≠ q.1 :=
    (OrdMap.toList_keys_ne m).filter isText
  rw [cluster_restored, dumpPairs_dumpOf, map_textPairs]
  rcases hm : m[k]?.filter fun v => isText (k, v) with _ | v
  · refine OrdMap.lookup_writePairs_of_forall_ne (fun p hp hk => ?_) _
    obtain ⟨hp, ht⟩ := List.mem_filter.mp hp
    subst hk
    rw [Std.ExtTreeMap.mem_toList_iff_getElem?_eq_some.mp hp] at hm
    simp [ht] at hm
  · obtain ⟨hv, ht⟩ := Option.filter_eq_some_iff.mp hm
    refine OrdMap.lookup_writePairs_of_mem hd (List.mem_filter.mpr ⟨?_, ht⟩) _
    exact Std.ExtTreeMap.mem_toList_iff_getElem?_eq_some.mpr hv

/-- The texts a payload restores. -/
def payloadPairs (data : Bytes) : List (String × String) :=
  if data.length = 0 then [] else
    match Bincode.deserialize (α := Dump) data with
    | some dump => dumpPairs dump
    | none => []

theorem writeAll_run (data : Bytes) (w : World ε) :
    writeAll data w = (.ok (), restored w (payloadPairs data)) := by
  unfold writeAll payloadPairs
  split_ifs
  · rfl
  · rcases Bincode.deserialize (α := Dump) data with _ | dump
    · rfl
    · exact Program.foldlM_unit_run (fun p w => rfl) (dumpPairs dump) w

/-- The payload of a snapshot is the dump of the contents it was taken from. -/
theorem payloadPairs_snapshotOf {m : ColumnFamily} {s : Snapshot} (h : snapshotOf m = some s) :
    payloadPairs s.data = dumpPairs (dumpOf m) := by
  obtain ⟨-, -, -, -, hd, -⟩ := snapshotOf_eq_some h
  have hl : (Bincode.serialize (dumpOf m)).length < 2 ^ 64 := by
    have := s.data.property
    rw [hd] at this
    omega
  have hne : Bincode.serialize (dumpOf m) ≠ [] := Bincode.put_ne_nil (dumpOf m)
  rw [hd, payloadPairs, if_neg (by simpa using hne), Bincode.deserialize_serialize hl]

/-- The hard state after a snapshot was installed over the hard state `hs`. -/
def installedState (hs : HardState) (meta' : SnapshotMetadata) : HardState :=
  { term := max hs.term meta'.term, vote := hs.vote, commit := meta'.index }

/-- **What an installation does**, when it is not refused: the payload is written, then the hard
state that is read back is advanced. -/
theorem completes_applySnapshot {s : Snapshot}
    (h : Program.Completes (applySnapshot self s) w (.ok (), self') w') :
    firstIndexIn self (cluster w) ≤ s.getMetadata.index ∧ self' = self.afterSnapshot s ∧
      ∃ hs, hardStateIn (cluster (restored w (payloadPairs s.data))) = some hs ∧
        w' = putRecord (putRecord (restored w (payloadPairs s.data)) .hardState
          (encodeToVec (installedState hs s.getMetadata))) .confState
            (encodeToVec (s.getMetadata.confState.getD ConfState.default)) := by
  unfold applySnapshot at h
  dsimp only at h
  rw [Program.Completes, Program.bind_run_ok (firstIndex_run self w)] at h
  -- a snapshot below the first index is refused
  by_cases hf : firstIndexIn self (cluster w) > s.getMetadata.index
  · rw [if_pos hf] at h
    cases h
  · rw [if_neg hf, Program.bind_run_ok (writeAll_run s.data w), Program.bind_run,
      hardState_run] at h
    rcases hh : hardStateIn (cluster (restored w (payloadPairs s.data))) with _ | hs
    · rw [hh] at h
      cases h
    · rw [hh] at h
      cases h
      exact ⟨UInt64.not_lt.mp hf, rfl, hs, rfl, rfl⟩

end RaftMachineStorage

end PlacementCenter.Storage
