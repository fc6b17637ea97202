import PlacementCenter.Rust.Program
import PlacementCenter.Rust.Bytes
import PlacementCenter.Rust.Collections

/-!
# The database under a program

A database of named column families, each an ordered map from byte strings to byte strings. A
program names only the operations of `RocksDb`; `World` is the database whose writes succeed at
once, with its earlier contents kept, so that a crash at any point between two effects is a
content it has held.

## Main definitions

* `ColumnFamily`: an ordered map on byte strings
* `RocksDb σ`: the operations of a database on the world `σ`
* `Observed σ ε`: a world that records the events `ε`
* `World ε`: a database with the log of the events `ε` observed so far and with its past
* `World.points`: the contents and logs at which a crash may find the world

## Main results

* `World.getCf_run`, `World.putCf_run`, `World.deleteCf_run`: the effects of the operations
* `World.points_put`, `World.points_emit`: an effect adds one crash point
-/

namespace Rust

/-- An ordered map from byte strings to byte strings. -/
abbrev ColumnFamily := OrdMap Bytes Bytes

/-- The operations of a database on the world `σ`. Every operation may fail with the text of an
error. -/
class RocksDb (σ : Type) where
  getCf : String → Bytes → Program σ (Except String (Option Bytes))
  putCf : String → Bytes → Bytes → Program σ (Except String Unit)
  deleteCf : String → Bytes → Program σ (Except String Unit)
  deleteRangeCf : String → Bytes → Bytes → Program σ (Except String Unit)
  flushWal : Program σ (Except String Unit)
  iterate : String → Program σ (List (Bytes × Bytes))

/-- Worlds that record events. -/
class Observed (σ : Type) (ε : outParam Type) where
  emit : ε → Program σ Unit

/-- The column families of a database, by name. -/
abbrev Columns := String → ColumnFamily

/-- A database whose writes succeed, with the events observed so far, newest first, and every
earlier pair of contents and events. -/
structure World (ε : Type) where
  columns : Columns
  events : List ε
  past : List (Columns × List ε)

namespace World

variable {ε : Type}

/-- The empty database. -/
def empty : World ε := ⟨fun _ => ∅, [], []⟩

/-- The contents and events at which a crash may find the world, newest first. -/
def points (w : World ε) : List (Columns × List ε) := (w.columns, w.events) :: w.past

/-- One effect on the contents of a column family. -/
def onColumn (w : World ε) (cf : String) (f : ColumnFamily → ColumnFamily) : World ε :=
  ⟨Function.update w.columns cf (f (w.columns cf)), w.events, w.points⟩

/-- The world after `k` was set to `v`. -/
def put (w : World ε) (cf : String) (k v : Bytes) : World ε := w.onColumn cf fun m => m.insert k v

/-- The world after `k` was deleted. -/
def delete (w : World ε) (cf : String) (k : Bytes) : World ε := w.onColumn cf fun m => m.erase k

/-- The world after the keys from `lo` up to `hi` were deleted. -/
def deleteRange (w : World ε) (cf : String) (lo hi : Bytes) : World ε :=
  w.onColumn cf fun m => m.filter fun k _ => (compare k lo).isLT || (compare hi k).isLE

/-- The world after an event was observed. -/
def emit (w : World ε) (e : ε) : World ε := ⟨w.columns, e :: w.events, w.points⟩

instance : RocksDb (World ε) where
  getCf cf k := Program.gets fun w => .ok (w.columns cf)[k]?
  putCf cf k v := fun w => (.ok (.ok ()), w.put cf k v)
  deleteCf cf k := fun w => (.ok (.ok ()), w.delete cf k)
  deleteRangeCf cf lo hi := fun w => (.ok (.ok ()), w.deleteRange cf lo hi)
  flushWal := pure (.ok ())
  iterate cf := Program.gets fun w => (w.columns cf).toList

instance : Observed (World ε) ε where
  emit e := fun w => (.ok (), w.emit e)

variable (w : World ε) (cf cf' : String) (k k' v : Bytes) (e : ε)

@[simp] theorem emit_run : Observed.emit e w = (.ok (), w.emit e) := rfl

@[simp] theorem getCf_run :
    RocksDb.getCf cf k w = (.ok (.ok (w.columns cf)[k]?), w) := rfl

@[simp] theorem putCf_run :
    RocksDb.putCf cf k v w = (.ok (.ok ()), w.put cf k v) := rfl

@[simp] theorem deleteCf_run :
    RocksDb.deleteCf cf k w = (.ok (.ok ()), w.delete cf k) := rfl

@[simp] theorem flushWal_run : (RocksDb.flushWal : Program (World ε) _) w = (.ok (.ok ()), w) := rfl

@[simp] theorem iterate_run :
    RocksDb.iterate cf w = (.ok (w.columns cf).toList, w) := rfl

@[simp] theorem columns_put_self :
    (w.put cf k v).columns cf = (w.columns cf).insert k v := by
  simp [put, onColumn]

@[simp] theorem columns_put_ne (h : cf' ≠ cf) : (w.put cf k v).columns cf' = w.columns cf' := by
  simp [put, onColumn, h]

@[simp] theorem columns_delete_self :
    (w.delete cf k).columns cf = (w.columns cf).erase k := by
  simp [delete, onColumn]

@[simp] theorem columns_emit : (w.emit e).columns = w.columns := rfl

@[simp] theorem events_put : (w.put cf k v).events = w.events := rfl

@[simp] theorem events_delete : (w.delete cf k).events = w.events := rfl

@[simp] theorem events_emit : (w.emit e).events = e :: w.events := rfl

/-- **A write adds one crash point**: the contents after it. -/
@[simp] theorem points_put :
    (w.put cf k v).points = ((w.put cf k v).columns, w.events) :: w.points := rfl

@[simp] theorem points_delete :
    (w.delete cf k).points = ((w.delete cf k).columns, w.events) :: w.points := rfl

/-- An event adds one crash point: the same contents, with the event. -/
@[simp] theorem points_emit : (w.emit e).points = (w.columns, e :: w.events) :: w.points := rfl

theorem mem_points_self : (w.columns, w.events) ∈ w.points := List.mem_cons_self

/-- The restart of a database with the contents of a crash point: the contents stay, the
events stay observed. -/
def reopen (c : Columns) (es : List ε) : World ε := ⟨c, es, []⟩

end World

end Rust
