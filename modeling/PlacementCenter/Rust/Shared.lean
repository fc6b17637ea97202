import PlacementCenter.Rust.RocksDb

/-!
# Shared values

Values behind an `Arc<RwLock<_>>`: several owners hold the same pointer, and each read or write is
one step under the lock.

## Main definitions

* `Shared σ α`: the operations on the shared values of the world `σ`
* `Memory ω α`: the world `ω` with shared values
-/

namespace Rust

/-- A pointer to a shared value. -/
structure Arc where
  address : ℕ
  deriving DecidableEq, Repr

/-- The operations on shared values. -/
class Shared (σ : Type) (α : outParam Type) where
  alloc : α → Program σ Arc
  read : Arc → Program σ α
  write : Arc → α → Program σ Unit

/-- A world with shared values. -/
structure Memory (ω α : Type) where
  base : ω
  cells : Arc → α
  /-- The pointers from here on are not in use. -/
  next : ℕ

namespace Memory

variable {ω α : Type}

/-- The values after a write. -/
def store (m : Memory ω α) (a : Arc) (v : α) : Memory ω α :=
  { m with cells := Function.update m.cells a v }

instance : Shared (Memory ω α) α where
  alloc v := fun m => (.ok ⟨m.next⟩, { m.store ⟨m.next⟩ v with next := m.next + 1 })
  read a := Program.gets fun m => m.cells a
  write a v := fun m => (.ok (), m.store a v)

/-- A program of the world beside the shared values. -/
def lift {β : Type} (p : Program ω β) : Program (Memory ω α) β := fun m =>
  ((p m.base).1, { m with base := (p m.base).2 })

instance [RocksDb ω] : RocksDb (Memory ω α) where
  getCf cf k := lift (RocksDb.getCf cf k)
  putCf cf k v := lift (RocksDb.putCf cf k v)
  deleteCf cf k := lift (RocksDb.deleteCf cf k)
  deleteRangeCf cf lo hi := lift (RocksDb.deleteRangeCf cf lo hi)
  flushWal := lift RocksDb.flushWal
  iterate cf := lift (RocksDb.iterate cf)

variable (m : Memory ω α) (a : Arc) (v : α)

@[simp] theorem read_run : Shared.read a m = (.ok (m.cells a), m) := rfl

@[simp] theorem write_run : Shared.write a v m = (.ok (), m.store a v) := rfl

@[simp] theorem alloc_run :
    Shared.alloc v m = (.ok ⟨m.next⟩, { m.store ⟨m.next⟩ v with next := m.next + 1 }) := rfl

@[simp] theorem base_store : (m.store a v).base = m.base := rfl

@[simp] theorem next_store : (m.store a v).next = m.next := rfl

@[simp] theorem cells_store_self : (m.store a v).cells a = v := by
  simp [store]

@[simp] theorem store_store (v' : α) : (m.store a v).store a v' = m.store a v' := by
  simp [store]

/-- The value that is there already. -/
@[simp] theorem store_cells : m.store a (m.cells a) = m := by
  simp [store]

section lifted

variable [RocksDb ω] {cf : String} {k v' : Bytes} {r : Except String Unit} {t : ω}

/-- A write of the database leaves the shared values. -/
theorem putCf_run (h : RocksDb.putCf cf k v' m.base = (.ok r, t)) :
    RocksDb.putCf cf k v' m = (.ok r, { m with base := t }) := by
  change lift _ m = _
  rw [lift, h]

theorem flushWal_run (h : RocksDb.flushWal m.base = (.ok r, t)) :
    RocksDb.flushWal m = (.ok r, { m with base := t }) := by
  change lift _ m = _
  rw [lift, h]

end lifted

end Memory

end Rust
