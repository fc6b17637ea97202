import PlacementCenter.Storage.StoreRuns

/-!
# Runs of the log store

The runs of the log store that the raft crate drives, with the log they stand for: the entries
appended so far, where an append replaces the entries from its first index on.

## Main definitions

* `LogOp`: the operations of a run, restarts included
* `Contiguous`: the entries of an append are numbered one after the other
* `LogReachable Cond self w log`: a run whose steps meet `Cond` reaches the store `self` over `w`,
  standing for `log`
* `StoredLog m log`: the records of the contents `m` are those of `log`

## Main results

* `StoredLog.append`: an append stores the log it stands for
-/

namespace PlacementCenter.Storage

open Rust Raft

/-- The operations of a run of the log store. -/
inductive LogOp where
  | raft (op : RaftOp)
  | restart

/-- The store after an operation. -/
def LogOp.run {σ : Type} [RocksDb σ] (self : RaftMachineStorage) :
    LogOp → Program σ RaftMachineStorage
  | raft op => op.run self
  | restart => RaftMachineStorage.new

/-- The indices of some entries. -/
def indices (es : List Entry) : List ℕ := es.map fun e => e.index.toNat

/-- The entries are numbered one after the other, from `1` at the least. -/
def Contiguous (es : List Entry) : Prop :=
  ∃ first, 1 ≤ first ∧ indices es = List.range' first es.length

/-- The log after some entries were appended to it. -/
def appendLog (log : List Entry) : List Entry → List Entry
  | [] => log
  | e :: es => log.take (e.index.toNat - 1) ++ e :: es

/-- The log an operation leaves. -/
def LogOp.refLog (log : List Entry) : LogOp → List Entry
  | raft (.append entrys) => appendLog log entrys
  | _ => log

variable {ε : Type}

/-- A run of operations that meet `Cond`, from the empty database. After a panic the store is
opened again. -/
inductive LogReachable (Cond : RaftMachineStorage → ColumnFamily → List Entry → LogOp → Prop) :
    RaftMachineStorage → World ε → List Entry → Prop where
  | start {self w} (h : Program.Completes RaftMachineStorage.new World.empty self w) :
    LogReachable Cond self w []
  | step {self self' w w' log} (op : LogOp) (hr : LogReachable Cond self w log)
    (hc : Cond self (cluster w) log op) (h : Program.Completes (op.run self) w self' w') :
    LogReachable Cond self' w' (op.refLog log)
  | panicked {self self' w t w' log} {msg : String} (op : LogOp) (hr : LogReachable Cond self w log)
    (hp : op.run self w = (.panicked msg, t)) (hc : Cond self (cluster t) log .restart)
    (h : Program.Completes RaftMachineStorage.new t self' w') : LogReachable Cond self' w' log

/-- A run that meets a condition meets a weaker one. -/
theorem LogReachable.mono
    {Cond Cond' : RaftMachineStorage → ColumnFamily → List Entry → LogOp → Prop}
    (hi : ∀ self m log op, Cond self m log op → Cond' self m log op) {self : RaftMachineStorage}
    {w : World ε} {log : List Entry} (h : LogReachable Cond self w log) :
    LogReachable Cond' self w log := by
  induction h with
  | start h => exact .start h
  | step op hr hc h ih => exact ih.step op (hi _ _ _ _ hc) h
  | panicked op hr hp hc h ih => exact ih.panicked op hp (hi _ _ _ _ hc) h

/-- The contents hold the log: its entries are numbered from `1`, each is stored under its index,
the last index is recorded, and no entry is stored under `0`. -/
structure StoredLog (m : ColumnFamily) (log : List Entry) : Prop where
  numbered : indices log = List.range' 1 log.length
  stored : ∀ e ∈ log, entryIn m e.index = some (some e)
  zero : entryIn m 0 = some none
  last : readRecord UInt64 m .lastIndex = .ok (log.getLast?.map fun e => e.index)

namespace StoredLog

variable {m m' : ColumnFamily} {log es : List Entry}

theorem empty : StoredLog ∅ [] where
  numbered := rfl
  stored _ he := by cases he
  zero := entryIn_empty 0
  last := readRecord_empty _

/-- The log is held where the records of entries and the last index are the same. -/
theorem congr (h : StoredLog m log) (he : ∀ idx, entryIn m' idx = entryIn m idx)
    (hl : readRecord UInt64 m' .lastIndex = readRecord UInt64 m .lastIndex) :
    StoredLog m' log where
  numbered := h.numbered
  stored e hm := by rw [he, h.stored e hm]
  zero := by rw [he, h.zero]
  last := by rw [hl, h.last]

/-- The write of any other record keeps the log. -/
theorem insert_record (h : StoredLog m log) {r : Record} (he : ∀ idx, r ≠ .entry idx)
    (hl : r ≠ .lastIndex) (v : Bytes) : StoredLog (m.insert r.key v) log :=
  h.congr (fun idx => entryIn_insert_record m (he idx) v) (readRecord_insert_record m hl v)

theorem length_le (h : StoredLog m log) {e : Entry} (he : e ∈ log) :
    1 ≤ e.index.toNat ∧ e.index.toNat ≤ log.length := by
  have : e.index.toNat ∈ indices log := List.mem_map_of_mem he
  rw [h.numbered, List.mem_range'_1] at this
  omega

/-- The index of the entry at a place of the log. -/
theorem index_of_getElem? (h : StoredLog m log) {i : ℕ} {e : Entry} (he : log[i]? = some e) :
    e.index.toNat = i + 1 := by
  have hi := (List.getElem?_eq_some_iff.mp he).1
  have hn : (indices log)[i]? = some (i + 1) := by
    rw [h.numbered, List.getElem?_range' hi]
    simp [Nat.add_comm]
  simpa [indices, he] using hn

/-- Every index of the log has its entry, at its place. -/
theorem entry_at (h : StoredLog m log) {i : UInt64} (hi : i ≠ 0) (hle : i.toNat ≤ log.length) :
    ∃ e, log[i.toNat - 1]? = some e ∧ e.index = i ∧ entryIn m i = some (some e) := by
  have hpos : i.toNat ≠ 0 := fun h0 => hi (UInt64.toNat_inj.mp h0)
  have hget : log[i.toNat - 1]? = some log[i.toNat - 1] := List.getElem?_eq_getElem (by omega)
  have hn := h.index_of_getElem? hget
  have hidx : log[i.toNat - 1].index = i := UInt64.toNat_inj.mp (by omega)
  refine ⟨_, hget, hidx, ?_⟩
  have hs := h.stored _ (List.mem_of_getElem? hget)
  rwa [hidx] at hs

theorem getLast_index (h : StoredLog m log) {e : Entry} (he : log.getLast? = some e) :
    e.index.toNat = log.length := by
  rw [List.getLast?_eq_getElem?] at he
  have hi := (List.getElem?_eq_some_iff.mp he).1
  have := h.index_of_getElem? he
  omega

/-- The indices of contiguous entries start at that of the first one. -/
theorem indices_of_contiguous {e : Entry} {es : List Entry} (h : Contiguous (e :: es)) :
    1 ≤ e.index.toNat ∧ indices (e :: es) = List.range' e.index.toNat (es.length + 1) := by
  obtain ⟨first, h₁, hi⟩ := h
  rw [List.length_cons, List.range'_succ] at hi
  have he : e.index.toNat = first := (List.cons.inj hi).1
  rw [he, List.range'_succ]
  exact ⟨h₁, hi⟩

/-- An append keeps the entries below its first index. -/
theorem index_lt_of_mem_take (h : StoredLog m log) {k : ℕ} {e : Entry} (he : e ∈ log.take k) :
    e.index.toNat ≤ k := by
  obtain ⟨i, hi, rfl⟩ := List.getElem_of_mem he
  rw [List.length_take] at hi
  have : log[i]? = some (log.take k)[i] := by
    rw [List.getElem_take, List.getElem?_eq_getElem (by omega)]
  have := h.index_of_getElem? this
  omega

/-- The entries from a place on. -/
theorem le_index_of_mem_drop (h : StoredLog m log) {k : ℕ} {e : Entry} (he : e ∈ log.drop k) :
    k + 1 ≤ e.index.toNat := by
  obtain ⟨i, hi, rfl⟩ := List.getElem_of_mem he
  rw [List.length_drop] at hi
  have hget : log[k + i]? = some (log.drop k)[i] := by
    rw [List.getElem_drop, List.getElem?_eq_getElem (by omega)]
  have := h.index_of_getElem? hget
  omega

/-- The last entry after an append is the last one appended. -/
theorem getLast?_appendLog (log : List Entry) (e : Entry) (es : List Entry) :
    ∃ e', (e :: es).getLast? = some e' ∧ (appendLog log (e :: es)).getLast? = some e' := by
  refine ⟨_, List.getLast?_cons, ?_⟩
  rw [appendLog, List.getLast?_append, List.getLast?_cons, Option.some_or]

/-- **An append stores the log it stands for.** -/
theorem append {w : World ε} {e : Entry} (h : StoredLog (cluster w) log)
    (hes : Contiguous (e :: es)) (hle : e.index.toNat ≤ log.length + 1) :
    StoredLog (cluster (appended w (e :: es))) (appendLog log (e :: es)) := by
  obtain ⟨h₁, hi⟩ := indices_of_contiguous hes
  have hmem : ∀ e' ∈ e :: es, e.index.toNat ≤ e'.index.toNat := by
    intro e' he'
    have : e'.index.toNat ∈ indices (e :: es) := List.mem_map_of_mem he'
    rw [hi, List.mem_range'_1] at this
    exact this.1
  have hd : (e :: es).Pairwise fun e e' => e.index ≠ e'.index := by
    have : (indices (e :: es)).Nodup := by
      rw [hi]
      exact List.nodup_range'
    exact (List.pairwise_map.mp this).imp fun hne he => hne (congrArg UInt64.toNat he)
  -- the numbers, the entries, the index 0 and the last index
  refine ⟨?_, ?_, ?_, ?_⟩
  · have htake : indices (log.take (e.index.toNat - 1)) = List.range' 1 (e.index.toNat - 1) := by
      rw [indices, List.map_take]
      change (indices log).take (e.index.toNat - 1) = _
      rw [h.numbered, List.take_range'_of_length_ge (by omega)]
    rw [appendLog, indices, List.map_append]
    change indices (log.take (e.index.toNat - 1)) ++ indices (e :: es) = _
    have hk : e.index.toNat = 1 + (e.index.toNat - 1) := by omega
    have hlen : (log.take (e.index.toNat - 1) ++ e :: es).length =
        (e.index.toNat - 1) + (es.length + 1) := by
      rw [List.length_append, List.length_take, Nat.min_eq_left (by omega), List.length_cons]
    have happ := List.range'_append_1 (s := 1) (m := e.index.toNat - 1) (n := es.length + 1)
    rw [← hk] at happ
    rw [htake, hi, hlen, happ]
  · intro e' he'
    rcases List.mem_append.mp he' with he' | he'
    -- an old entry lies below the new ones
    · have hlt := h.index_lt_of_mem_take he'
      rw [entryIn_appended_of_ne (fun e'' h'' => ?_), h.stored e' (List.mem_of_mem_take he')]
      rintro hidx
      have := hmem e'' h''
      rw [hidx] at this
      omega
    · exact entryIn_appended_of_mem hd he' w
  · rw [entryIn_appended_of_ne (fun e' he' hidx => ?_), h.zero]
    have := hmem e' he'
    rw [hidx] at this
    simp at this
    omega
  · obtain ⟨e', he', hl⟩ := getLast?_appendLog log e es
    rw [hl]
    exact readRecord_appended he' w

end StoredLog

end PlacementCenter.Storage
