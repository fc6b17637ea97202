import PlacementCenter.Rust.RocksDb

/-!
# A database whose puts may fail

`Disk` is the database of a `World` on which a put may fail with the text of an error, and then
leaves the contents as they were. Which puts fail is a pattern over the puts in the order in which
they are tried; a program cannot look at it.

## Main definitions

* `Disk ε`: a world with the pattern of failures and the number of the puts tried so far
* `Disk.next`: the error of the next put, if it fails
* `Disk.put`, `Disk.puts`: the disk after a put and after several were tried
* `Lands`: some put of a pair succeeds, or the pair is there already
* `Volume ε`: a disk whose flushes may fail, too

## Main results

* `Disk.putCf_run`, `Disk.getCf_run`, `Disk.emit_run`: the effects of the operations
* `Disk.lookup_puts`: when every pair that was put is there afterwards
-/

namespace Rust

/-- A database whose puts may fail. -/
structure Disk (ε : Type) where
  world : World ε
  /-- The number of the puts that were tried. -/
  tried : ℕ
  /-- The error of a put, by its number; `none` when it succeeds. -/
  outcome : ℕ → Option String

namespace Disk

variable {ε : Type}

/-- A disk on which every put succeeds. -/
def sound (w : World ε) : Disk ε := ⟨w, 0, fun _ => none⟩

/-- The error of the next put. -/
def next (d : Disk ε) : Option String := d.outcome d.tried

/-- The disk after a put was tried. -/
def put (d : Disk ε) (cf : String) (k v : Bytes) : Disk ε where
  world := if d.next = none then d.world.put cf k v else d.world
  tried := d.tried + 1
  outcome := d.outcome

/-- The disk after an event was observed. -/
def emit (d : Disk ε) (e : ε) : Disk ε := { d with world := d.world.emit e }

/-- What a put returns. -/
def result (d : Disk ε) : Except String Unit :=
  match d.next with
  | none => .ok ()
  | some err => .error err

instance : RocksDb (Disk ε) where
  getCf cf k := Program.gets fun d => .ok (d.world.columns cf)[k]?
  putCf cf k v := fun d => (.ok d.result, d.put cf k v)
  deleteCf cf k := fun d => (.ok (.ok ()), { d with world := d.world.delete cf k })
  deleteRangeCf cf lo hi := fun d => (.ok (.ok ()), { d with world := d.world.deleteRange cf lo hi })
  flushWal := pure (.ok ())
  iterate cf := Program.gets fun d => (d.world.columns cf).toList

instance : Observed (Disk ε) ε where
  emit e := fun d => (.ok (), d.emit e)

variable (d : Disk ε) (cf cf' : String) (k k' v : Bytes) (e : ε)

@[simp] theorem emit_run : Observed.emit e d = (.ok (), d.emit e) := rfl

@[simp] theorem getCf_run : RocksDb.getCf cf k d = (.ok (.ok (d.world.columns cf)[k]?), d) := rfl

@[simp] theorem putCf_run : RocksDb.putCf cf k v d = (.ok d.result, d.put cf k v) := rfl

@[simp] theorem iterate_run : RocksDb.iterate cf d = (.ok (d.world.columns cf).toList, d) := rfl

@[simp] theorem tried_put : (d.put cf k v).tried = d.tried + 1 := rfl

@[simp] theorem outcome_put : (d.put cf k v).outcome = d.outcome := rfl

variable {d} in
/-- A put that returns `Ok` has succeeded. -/
theorem result_eq_ok {u : Unit} : d.result = .ok u ↔ d.next = none := by
  unfold result
  rcases d.next with _ | err <;> simp

/-- A put changes no other key, whether it succeeds or not. -/
theorem lookup_put_ne (h : k ≠ k') : ((d.put cf k v).world.columns cf)[k']? =
    (d.world.columns cf)[k']? := by
  unfold put
  split_ifs
  · rw [World.columns_put_self, OrdMap.lookup_insert_ne _ _ h]
  · rfl

/-- What a put leaves under its key. -/
theorem lookup_put_self : ((d.put cf k v).world.columns cf)[k]? =
    if d.next = none then some v else (d.world.columns cf)[k]? := by
  unfold put
  split_ifs
  · rw [World.columns_put_self, OrdMap.lookup_insert_self]
  · rfl

/-! ### Several puts -/

/-- The disk after the pairs `ps` were put in order. -/
def puts (d : Disk ε) (cf : String) (ps : List (Bytes × Bytes)) : Disk ε :=
  ps.foldl (fun d p => d.put cf p.1 p.2) d

/-- A pair is there already, or one of the puts of it succeeds. -/
def Lands (d : Disk ε) (cf : String) (ps : List (Bytes × Bytes)) (p : Bytes × Bytes) : Prop :=
  (d.world.columns cf)[p.1]? = some p.2 ∨
    ∃ i, ps[i]? = some p ∧ d.outcome (d.tried + i) = none

variable {d cf}

@[simp] theorem puts_nil : d.puts cf [] = d := rfl

@[simp] theorem puts_cons (p : Bytes × Bytes) (ps : List (Bytes × Bytes)) :
    d.puts cf (p :: ps) = (d.put cf p.1 p.2).puts cf ps := rfl

theorem tried_puts (ps : List (Bytes × Bytes)) : (d.puts cf ps).tried = d.tried + ps.length := by
  induction ps generalizing d with
  | nil => rfl
  | cons p ps ih =>
    rw [puts_cons, ih, tried_put, List.length_cons]
    omega

theorem outcome_puts (ps : List (Bytes × Bytes)) : (d.puts cf ps).outcome = d.outcome := by
  induction ps generalizing d with
  | nil => rfl
  | cons p ps ih => rw [puts_cons, ih, outcome_put]

/-- One more put of a key: it takes part first. -/
theorem lands_cons {p q : Bytes × Bytes} {ps : List (Bytes × Bytes)}
    (h : q.1 = p.1 → q.2 = p.2) :
    Lands d cf (q :: ps) p ↔ Lands (d.put cf q.1 q.2) cf ps p := by
  -- the first put, or one of the others at the next position
  have shift : (∃ i, (q :: ps)[i]? = some p ∧ d.outcome (d.tried + i) = none) ↔
      q = p ∧ d.next = none ∨ ∃ i, ps[i]? = some p ∧ d.outcome (d.tried + 1 + i) = none := by
    constructor
    · rintro ⟨_ | i, hi, ho⟩
      · exact .inl ⟨by simpa using hi, ho⟩
      · refine .inr ⟨i, by simpa using hi, ?_⟩
        rwa [Nat.add_assoc, Nat.add_comm 1 i]
    · rintro (⟨rfl, ho⟩ | ⟨i, hi, ho⟩)
      · exact ⟨0, rfl, ho⟩
      · refine ⟨i + 1, by simpa using hi, ?_⟩
        rwa [Nat.add_assoc, Nat.add_comm 1 i] at ho
  unfold Lands
  rw [shift, tried_put, outcome_put]
  -- the first put can only matter when it is of the key
  by_cases hk : q.1 = p.1
  · obtain rfl : q = p := Prod.ext hk (h hk)
    rw [lookup_put_self]
    by_cases ho : d.next = none
    · simp [ho]
    · simp [ho]
  · rw [lookup_put_ne _ _ _ _ _ hk]
    have hq : q ≠ p := fun hq => hk (congrArg Prod.fst hq)
    simp [hq]

/-- **When a pair that was put is there afterwards**, where its key is put with no other value:
when it was there already, or one of the puts of it succeeds. -/
theorem lookup_puts {p : Bytes × Bytes} {ps : List (Bytes × Bytes)}
    (h : ∀ q ∈ ps, q.1 = p.1 → q.2 = p.2) :
    ((d.puts cf ps).world.columns cf)[p.1]? = some p.2 ↔ Lands d cf ps p := by
  induction ps generalizing d with
  | nil => simp [Lands]
  | cons q ps ih =>
    rw [puts_cons, ih fun r hr => h r (List.mem_cons_of_mem q hr),
      lands_cons (h q List.mem_cons_self)]

end Disk

/-! ### Flushes -/

/-- A disk whose flushes may fail, too. A flush that fails leaves what can be read. -/
structure Volume (ε : Type) where
  disk : Disk ε
  /-- The number of the flushes that were tried. -/
  flushed : ℕ
  /-- The error of a flush, by its number; `none` when it succeeds. -/
  outcome : ℕ → Option String

namespace Volume

variable {ε : Type}

/-- The error of the next flush. -/
def next (v : Volume ε) : Option String := v.outcome v.flushed

/-- The volume after a flush was tried. -/
def flush (v : Volume ε) : Volume ε := { v with flushed := v.flushed + 1 }

/-- The volume after a put was tried. -/
def put (v : Volume ε) (cf : String) (k b : Bytes) : Volume ε :=
  { v with disk := v.disk.put cf k b }

/-- What a flush returns. -/
def result (v : Volume ε) : Except String Unit :=
  match v.next with
  | none => .ok ()
  | some err => .error err

/-- A program of the disk. -/
def lift {β : Type} (p : Program (Disk ε) β) : Program (Volume ε) β := fun v =>
  ((p v.disk).1, { v with disk := (p v.disk).2 })

instance : RocksDb (Volume ε) where
  getCf cf k := lift (RocksDb.getCf cf k)
  putCf cf k b := lift (RocksDb.putCf cf k b)
  deleteCf cf k := lift (RocksDb.deleteCf cf k)
  deleteRangeCf cf lo hi := lift (RocksDb.deleteRangeCf cf lo hi)
  flushWal := fun v => (.ok v.result, v.flush)
  iterate cf := lift (RocksDb.iterate cf)

variable (v : Volume ε) (cf : String) (k b : Bytes)

@[simp] theorem getCf_run :
    RocksDb.getCf cf k v = (.ok (.ok (v.disk.world.columns cf)[k]?), v) := rfl

@[simp] theorem putCf_run : RocksDb.putCf cf k b v = (.ok v.disk.result, v.put cf k b) := rfl

@[simp] theorem flushWal_run : RocksDb.flushWal v = (.ok v.result, v.flush) := rfl

@[simp] theorem next_put : (v.put cf k b).next = v.next := rfl

end Volume

end Rust
