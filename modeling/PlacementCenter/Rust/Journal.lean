import PlacementCenter.Rust.RocksDb

/-!
# Journals

A database as the list of the effects on it: the writes, the events observed between them, and the
moments at which the write-ahead log was flushed. What is written is seen at once; a crash of the
machine keeps the effects up to the last flush, and any number of the later ones.

## Main definitions

* `Effect ε`, `Journal ε`: the effects on a database, and a database as their list, oldest first
* `Journal.column w cf`: the contents of a column family
* `Journal.Crash w w'`: a crash of the machine in `w` may leave `w'`

## Main results

* `Journal.putCf_run`, `Journal.deleteRangeCf_run`, `Journal.flushWal_run`: an operation adds one
  effect
* `Journal.lookup_extend`, `Journal.lookup_of_extend`: the value of a key along the effects
* `Journal.column_extend_put_self`, `Journal.column_extend_put_ne`: what a write changes
-/

namespace Rust

/-- One effect on a database. -/
inductive Effect (ε : Type) where
  | put (cf : String) (k v : Bytes)
  | delete (cf : String) (k : Bytes)
  | deleteRange (cf : String) (lo hi : Bytes)
  /-- `flush_wal(true)`. -/
  | sync
  | event (e : ε)

namespace Effect

variable {ε : Type}

/-- What an effect does to the contents of the family `cf`. -/
def on (cf : String) (m : ColumnFamily) : Effect ε → ColumnFamily
  | put cf' k v => if cf' = cf then m.insert k v else m
  | delete cf' k => if cf' = cf then m.erase k else m
  | deleteRange cf' lo hi =>
    if cf' = cf then m.filter fun k _ => (compare k lo).isLT || (compare hi k).isLE else m
  | sync => m
  | event _ => m

/-- An effect sets the key `k` of the family `cf`. -/
def Puts (cf : String) (k : Bytes) : Effect ε → Prop
  | put cf' k' _ => cf' = cf ∧ k' = k
  | _ => False

/-- An effect deletes the key `k` of the family `cf`. -/
def Deletes (cf : String) (k : Bytes) : Effect ε → Prop
  | delete cf' k' => cf' = cf ∧ k' = k
  | deleteRange cf' lo hi => cf' = cf ∧ ((compare k lo).isLT || (compare hi k).isLE) = false
  | _ => False

/-- A deleted key is not found. -/
theorem lookup_on_of_deletes {cf : String} {k : Bytes} {x : Effect ε} (h : x.Deletes cf k)
    (m : ColumnFamily) : (x.on cf m)[k]? = none := by
  cases x with
  | delete cf' k' =>
    obtain ⟨rfl, rfl⟩ := h
    simp [on]
  | deleteRange cf' lo hi =>
    obtain ⟨rfl, hk⟩ := h
    simp only [on, if_true]
    rw [Std.ExtTreeMap.getElem?_filter', hk]
    simp
  | put _ _ _ => cases h
  | sync => cases h
  | event _ => cases h

/-- A key that is neither set nor deleted keeps its value. -/
theorem lookup_on {cf : String} {k : Bytes} {x : Effect ε} (hp : ¬ x.Puts cf k)
    (hd : ¬ x.Deletes cf k) (m : ColumnFamily) : (x.on cf m)[k]? = m[k]? := by
  -- an effect on another column family changes nothing
  cases x with
  | put cf' k' v =>
    by_cases hcf : cf' = cf
    · rw [on, if_pos hcf, OrdMap.lookup_insert_ne m v fun hk => hp ⟨hcf, hk⟩]
    · rw [on, if_neg hcf]
  | delete cf' k' =>
    by_cases hcf : cf' = cf
    · rw [on, if_pos hcf, OrdMap.lookup_erase_ne m fun hk => hd ⟨hcf, hk⟩]
    · rw [on, if_neg hcf]
  | deleteRange cf' lo hi =>
    by_cases hcf : cf' = cf
    · have hk : ((compare k lo).isLT || (compare hi k).isLE) = true := by
        by_contra hk
        exact hd ⟨hcf, Bool.eq_false_iff.mpr hk⟩
      rw [on, if_pos hcf, Std.ExtTreeMap.getElem?_filter', hk]
      cases m[k]? <;> rfl
    · rw [on, if_neg hcf]
  | sync => rfl
  | event _ => rfl

end Effect

/-- A database as the list of the effects on it, oldest first. -/
structure Journal (ε : Type) where
  effects : List (Effect ε)

namespace Journal

variable {ε : Type}

/-- The empty database. -/
def empty : Journal ε := ⟨[]⟩

/-- The database after some more effects. -/
def extend (w : Journal ε) (es : List (Effect ε)) : Journal ε := ⟨w.effects ++ es⟩

/-- The contents of a column family. -/
def column (w : Journal ε) (cf : String) : ColumnFamily := w.effects.foldl (Effect.on cf) ∅

instance : RocksDb (Journal ε) where
  getCf cf k := Program.gets fun w => .ok (w.column cf)[k]?
  putCf cf k v := fun w => (.ok (.ok ()), w.extend [.put cf k v])
  deleteCf cf k := fun w => (.ok (.ok ()), w.extend [.delete cf k])
  deleteRangeCf cf lo hi := fun w => (.ok (.ok ()), w.extend [.deleteRange cf lo hi])
  flushWal := fun w => (.ok (.ok ()), w.extend [.sync])
  iterate cf := Program.gets fun w => (w.column cf).toList

instance : Observed (Journal ε) ε where
  emit e := fun w => (.ok (), w.extend [.event e])

/-- The database at an earlier point: its effects are the first ones. -/
def IsPrefix (p w : Journal ε) : Prop := p.effects <+: w.effects

/-- A crash of the machine: what was flushed is kept, and any number of the effects after it. -/
structure Crash (w w' : Journal ε) : Prop where
  lost : w'.IsPrefix w
  kept : ∀ before after, w.effects = before ++ .sync :: after →
    before ++ [.sync] <+: w'.effects

variable (w : Journal ε) (cf cf' : String) (k lo hi v : Bytes) (e : ε)

@[simp] theorem getCf_run : RocksDb.getCf cf k w = (.ok (.ok (w.column cf)[k]?), w) := rfl

@[simp] theorem putCf_run : RocksDb.putCf cf k v w = (.ok (.ok ()), w.extend [.put cf k v]) := rfl

@[simp] theorem deleteRangeCf_run :
    RocksDb.deleteRangeCf cf lo hi w = (.ok (.ok ()), w.extend [.deleteRange cf lo hi]) := rfl

@[simp] theorem flushWal_run :
    (RocksDb.flushWal : Program (Journal ε) _) w = (.ok (.ok ()), w.extend [.sync]) := rfl

@[simp] theorem iterate_run : RocksDb.iterate cf w = (.ok (w.column cf).toList, w) := rfl

@[simp] theorem emit_run : Observed.emit e w = (.ok (), w.extend [.event e]) := rfl

@[simp] theorem effects_extend (es : List (Effect ε)) : (w.extend es).effects = w.effects ++ es := rfl

@[simp] theorem extend_nil : w.extend [] = w := by
  simp [extend]

@[simp] theorem extend_extend (es es' : List (Effect ε)) : (w.extend es).extend es' = w.extend (es ++ es') := by
  simp [extend]

theorem IsPrefix.refl (w : Journal ε) : w.IsPrefix w := List.prefix_refl _

/-- **A point of a longer run** is a point of the run, or lies among the effects added to it. -/
theorem isPrefix_extend {p w : Journal ε} {es : List (Effect ε)} :
    p.IsPrefix (w.extend es) ↔ p.IsPrefix w ∨ ∃ part, part <+: es ∧ p = w.extend part := by
  constructor
  · intro h
    rcases List.prefix_or_prefix_of_prefix h (List.prefix_append w.effects es) with hp | ⟨part, hp⟩
    · exact .inl hp
    · obtain ⟨effects⟩ := p
      subst hp
      exact .inr ⟨part, (List.prefix_append_right_inj _).mp h, rfl⟩
  · rintro (h | ⟨part, h, rfl⟩)
    · exact h.trans (List.prefix_append _ _)
    · exact (List.prefix_append_right_inj _).mpr h

@[simp] theorem column_empty : (empty : Journal ε).column cf = ∅ := rfl

theorem column_extend (es : List (Effect ε)) :
    (w.extend es).column cf = es.foldl (Effect.on cf) (w.column cf) := by
  rw [column, effects_extend, List.foldl_append, column]

@[simp] theorem column_extend_put_self :
    (w.extend [.put cf k v]).column cf = (w.column cf).insert k v := by
  simp [column_extend, Effect.on]

theorem column_extend_put_ne (h : cf ≠ cf') :
    (w.extend [.put cf k v]).column cf' = w.column cf' := by
  simp [column_extend, Effect.on, h]

theorem column_extend_deleteRange_ne (h : cf ≠ cf') :
    (w.extend [.deleteRange cf lo hi]).column cf' = w.column cf' := by
  simp [column_extend, Effect.on, h]

@[simp] theorem column_extend_sync : (w.extend [.sync]).column cf = w.column cf := by
  simp [column_extend, Effect.on]

@[simp] theorem column_extend_event : (w.extend [.event e]).column cf = w.column cf := by
  simp [column_extend, Effect.on]

/-- Effects that neither set nor delete a key keep its value. -/
theorem lookup_extend {es : List (Effect ε)} (hp : ∀ x ∈ es, ¬ x.Puts cf k)
    (hd : ∀ x ∈ es, ¬ x.Deletes cf k) : ((w.extend es).column cf)[k]? = (w.column cf)[k]? := by
  rw [column_extend]
  generalize w.column cf = m
  induction es generalizing m with
  | nil => rfl
  | cons x es ih =>
    rw [List.foldl_cons, ih (fun y hy => hp y (List.mem_cons_of_mem x hy))
      (fun y hy => hd y (List.mem_cons_of_mem x hy)),
      Effect.lookup_on (hp x List.mem_cons_self) (hd x List.mem_cons_self)]

/-- A key that is not set later has its value already. -/
theorem lookup_of_extend {es : List (Effect ε)} (hp : ∀ x ∈ es, ¬ x.Puts cf k)
    (hv : ((w.extend es).column cf)[k]? = some v) : (w.column cf)[k]? = some v := by
  rw [column_extend] at hv
  generalize w.column cf = m at hv ⊢
  induction es generalizing m with
  | nil => exact hv
  | cons x es ih =>
    have hx := ih (fun y hy => hp y (List.mem_cons_of_mem x hy)) _ hv
    by_cases hd : x.Deletes cf k
    · rw [Effect.lookup_on_of_deletes hd] at hx
      cases hx
    · rwa [Effect.lookup_on (hp x List.mem_cons_self) hd] at hx

end Journal

end Rust
