import PlacementCenter.Openraft.PurgedLog
import PlacementCenter.Rust.RawIterator

/-!
# The keys of the log

The entries are stored under the big-endian bytes of their indices, so that the order of the keys is
that of the indices: an iteration from the key of an index comes to the entries from that index on,
one after the other.

## Main definitions

* `itemsFrom m start`: the items from the key of an index on
* `VisitsFrom w start`: these items are the entries from the index on
* `LogOp.runAll`: a database after some operations, with any arguments

## Main results

* `sound_runAll`: the operations store nothing but entries under their indices
* `idToBin_orders`: the keys are read back, and ordered as the indices
-/

namespace PlacementCenter.Openraft

open Rust Program

variable {M : Type} [SerdeJson M]

/-- The items from the key of an index on, in the order of the keys. -/
def itemsFrom (m : ColumnFamily) (start : UInt64) : List (Bytes × Bytes) :=
  m.toList.dropWhile fun item => (compare item.1 (idToBin start)).isLT

/-- The iteration from the key of an index comes to the entries from the index on, in the order of
their indices, and these are what the reader returns. -/
def VisitsFrom (w : Journal (LogEvent M)) (start : UInt64) : Prop :=
  ∃ entries : List (Entry M), itemsFrom (w.column logsFamily) start = entries.map record ∧
    Completes (LogStore.tryGetLogEntries M ⟨.included start, .unbounded⟩) w (.ok entries) w ∧
    (entries.Pairwise fun e e' => e.index < e'.index) ∧
    ∀ e, e ∈ entries ↔
      (w.column logsFamily)[idToBin e.index]? = some (SerdeJson.toVec e) ∧ start ≤ e.index

/-- A database after some operations of the stores, from the empty one. -/
def LogOp.runAll (ops : List (LogOp M)) : Journal (LogEvent M) :=
  ops.foldl (fun w op => (op.run w).2) .empty

/-! ### What the operations store -/

/-- An entry under its index is added. -/
theorem Sound.put {m : ColumnFamily} (h : Sound M m) (e : Entry M) :
    Sound M (m.insert (idToBin e.index) (SerdeJson.toVec e)) := by
  rintro ⟨k, v⟩ hitem
  rw [Std.ExtTreeMap.mem_toList_iff_getElem?_eq_some] at hitem
  by_cases hk : idToBin e.index = k
  · subst hk
    rw [OrdMap.lookup_insert_self] at hitem
    exact ⟨e, Prod.ext rfl (Option.some.inj hitem).symm⟩
  · rw [OrdMap.lookup_insert_ne m _ hk] at hitem
    exact h (k, v) (Std.ExtTreeMap.mem_toList_iff_getElem?_eq_some.mpr hitem)

/-- What an operation does to the family of the entries. -/
theorem Sound.on_effect {m : ColumnFamily} (h : Sound M m) {op : LogOp M} {x : Effect (LogEvent M)}
    (hx : x ∈ op.effects) : Sound M (x.on logsFamily m) := by
  -- the records are in the other family
  have hrecord : ∀ k v, ∀ x ∈ ([.put storeFamily k v, .sync] : List (Effect (LogEvent M))),
      Sound M (x.on logsFamily m) := by
    intro k v x hx
    rcases List.mem_cons.mp hx with rfl | hx
    · exact h
    · obtain rfl := List.mem_singleton.mp hx
      exact h
  cases op with
  | append entries =>
    rcases List.mem_append.mp hx with hx | hx
    · obtain ⟨e, -, rfl⟩ := List.mem_map.mp hx
      exact h.put e
    · obtain rfl := List.mem_singleton.mp hx
      exact h
  | truncate logId =>
    obtain rfl := List.mem_singleton.mp hx
    exact (h.withoutRange _ _).1
  | purge logId =>
    rcases List.mem_append (s := [_, _]).mp hx with hx | hx
    · exact hrecord _ _ x hx
    · obtain rfl := List.mem_singleton.mp hx
      exact (h.withoutRange _ _).1
  | saveVote vote => exact hrecord _ _ x hx
  | saveCommitted committed => exact hrecord _ _ x hx
  | setCurrentSnapshot snap => exact hrecord _ _ x hx

theorem Sound.extend {w : Journal (LogEvent M)} (h : Sound M (w.column logsFamily))
    {effects : List (Effect (LogEvent M))} (op : LogOp M) (hop : ∀ x ∈ effects, x ∈ op.effects) :
    Sound M ((w.extend effects).column logsFamily) := by
  rw [Journal.column_extend]
  generalize w.column logsFamily = m at h
  induction effects generalizing m with
  | nil => exact h
  | cons x effects ih =>
    rw [List.foldl_cons]
    obtain ⟨hx, heffects⟩ := List.forall_mem_cons.mp hop
    exact ih heffects _ (h.on_effect hx)

/-- **The operations store entries under their indices**, and nothing else among them. -/
theorem sound_runAll (ops : List (LogOp M)) :
    Sound M ((LogOp.runAll ops).column logsFamily) := by
  have hrun : ∀ w : Journal (LogEvent M), Sound M (w.column logsFamily) →
      Sound M ((ops.foldl (fun w op => (op.run w).2) w).column logsFamily) := by
    induction ops with
    | nil => exact fun w h => h
    | cons op ops ih =>
      intro w h
      rw [List.foldl_cons, op.run_eq]
      exact ih _ (h.extend op fun x hx => hx)
  exact hrun .empty sound_empty

/-! ### The order of the keys -/

theorem idToBin_lt (a b : UInt64) : a < b ↔ idToBin a < idToBin b := by
  rw [← compare_eq_lt_iff, compare_idToBin, Nat.compare_eq_lt, UInt64.lt_iff_toNat_lt]

/-- **The entries from an index on** are those from its key on. -/
theorem Sound.itemsFrom_eq {m : ColumnFamily} (h : Sound M m) (start : UInt64) :
    itemsFrom m start = ((entriesIn M m).filter fun e => start ≤ e.index).map record := by
  rw [itemsFrom, h.dropWhile_toList, dropWhile_eq_filter]
  · congr 1
    refine List.filter_congr fun e _ => ?_
    rw [Bool.eq_iff_iff]
    simp
  · refine h.sorted.imp fun {e e'} hlt he => ?_
    simp only [decide_eq_true_eq, UInt64.lt_iff_toNat_lt] at he ⊢
    omega

theorem Sound.visitsFrom {w : Journal (LogEvent M)} (h : Sound M (w.column logsFamily))
    (start : UInt64) : VisitsFrom w start := by
  refine ⟨_, h.itemsFrom_eq start, ?_, ?_, fun e => ?_⟩
  · rw [Completes, tryGetLogEntries_run h]
    simp [PurgedLog.within, logIn, RangeBounds.contains, Bound.startsAt, Bound.endsAt]
  · exact (h.sorted.filter _).imp fun {e e'} hlt => UInt64.lt_iff_toNat_lt.mpr hlt
  · rw [List.mem_filter, mem_entriesIn h, decide_eq_true_eq]

/-- **The keys of the log**: an index is read back from its key, every key has eight bytes, and the
keys are in the order of the indices. So an iteration from the key of an index comes to the entries
from the index on, in every log, and the operations on the log keep it one. -/
theorem idToBin_orders :
    (∀ {σ : Type} (a : UInt64) (s : σ), Completes (binToId (idToBin a)) s a s) ∧
      (∀ a, (idToBin a).length = 8) ∧
      (∀ a b, a < b ↔ idToBin a < idToBin b) ∧
      (∀ (w : Journal (LogEvent M)) (start : UInt64), Sound M (w.column logsFamily) →
        VisitsFrom w start) ∧
      ∀ ops : List (LogOp M), Sound M ((LogOp.runAll ops).column logsFamily) :=
  ⟨fun a s => binToId_idToBin a s, fun a => length_u64BE a, idToBin_lt,
    fun _ start h => h.visitsFrom start, sound_runAll⟩

end PlacementCenter.Openraft
