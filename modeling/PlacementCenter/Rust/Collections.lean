import Mathlib.Algebra.Group.Nat.Defs
import Mathlib.Tactic.Common

/-!
# Maps

Finite maps with extensional equality, read as lists in key order. `HashMap` stands for a map
whose iteration order is unspecified; key order is one of the orders it may show.

## Main definitions

* `OrdMap`: a finite map over an ordered key type
* `HashMap`, `BTreeMap`: the two map types of the standard library, as `OrdMap`
* `OrdMap.writePairs m ps`: the map `m` with the pairs `ps` written over it, in order
* `OrdMap.updates m us`: the map `m` with keys set or removed, in order
* `OrdMap.lastUpdate us a`: what the last update of the key `a` leaves there
* `OrdMap.LastOn key xs x`: no element of the list after `x` has its key

## Main results

* `OrdMap.lookup_writePairs_toList`: writing the entries of one map over another
* `OrdMap.writePairs_empty_toList`: a map is rebuilt from the list of its entries
* `OrdMap.lookup_updates`: the last update of a key decides what is there
* `OrdMap.updates_updates_append`: updates that were made may be made again
* `OrdMap.updates_eq_iff`: two lists of updates of the same keys do the same
* `OrdMap.toList_eq_of_sorted`: a map lists the pairs of any list in key order with its entries
-/

namespace Rust

open Std

variable {κ ν : Type} [Ord κ]

/-- A finite map over an ordered key type. -/
abbrev OrdMap (κ ν : Type) [Ord κ] := ExtTreeMap κ ν compare

/-- `std::collections::HashMap`. -/
abbrev HashMap (κ ν : Type) [Ord κ] := OrdMap κ ν

/-- `std::collections::BTreeMap`. -/
abbrev BTreeMap (κ ν : Type) [Ord κ] := OrdMap κ ν

namespace OrdMap

variable [TransOrd κ]

/-- Write the pairs of a list, in order. -/
def writePairs (m : OrdMap κ ν) (ps : List (κ × ν)) : OrdMap κ ν :=
  ps.foldl (fun m p => m.insert p.1 p.2) m

@[simp] theorem writePairs_nil (m : OrdMap κ ν) : writePairs m [] = m := rfl

@[simp] theorem writePairs_cons (m : OrdMap κ ν) (p : κ × ν) (ps : List (κ × ν)) :
    writePairs m (p :: ps) = writePairs (m.insert p.1 p.2) ps := rfl

theorem lookup_insert_self (m : OrdMap κ ν) (k : κ) (v : ν) : (m.insert k v)[k]? = some v := by
  simp

/-- The keys of a map are listed once each. -/
theorem toList_keys_ne (m : OrdMap κ ν) : m.toList.Pairwise fun p q => p.1 ≠ q.1 :=
  m.ordered_keys_toList.imp fun {p q} h he => by
    rw [he] at h
    simp at h

/-- As many entries as pairs were written, at most. -/
theorem size_writePairs_le (ps : List (κ × ν)) :
    ∀ m : OrdMap κ ν, (writePairs m ps).size ≤ m.size + ps.length := by
  induction ps with
  | nil => intro m; exact Nat.le_refl _
  | cons p ps ih =>
    intro m
    have hi := ExtTreeMap.size_insert_le (t := m) (k := p.1) (v := p.2)
    have hw := ih (m.insert p.1 p.2)
    rw [writePairs_cons, List.length_cons]
    omega

/-- A loop whose every turn writes one pair. -/
theorem foldlM_eq_writePairs {ι : Type} {step : OrdMap κ ν → ι → Option (OrdMap κ ν)}
    {pair : ι → Option (κ × ν)} {xs : List ι}
    (h : ∀ x ∈ xs, ∃ p, pair x = some p ∧ ∀ m, step m x = some (m.insert p.1 p.2))
    (m : OrdMap κ ν) : xs.foldlM step m = some (writePairs m (xs.filterMap pair)) := by
  induction xs generalizing m with
  | nil => rfl
  | cons x xs ih =>
    obtain ⟨p, hp, hstep⟩ := h x List.mem_cons_self
    rw [List.foldlM_cons, hstep, List.filterMap_cons_some hp]
    exact ih (fun y hy => h y (List.mem_cons_of_mem x hy)) _

variable [LawfulEqOrd κ]

/-- A map with one entry lists it. -/
theorem toList_singleton (k : κ) (v : ν) : ((∅ : OrdMap κ ν).insert k v).toList = [(k, v)] := by
  have hm : ∀ p, p ∈ ((∅ : OrdMap κ ν).insert k v).toList ↔ p = (k, v) := by
    intro p
    rw [ExtTreeMap.mem_toList_iff_getElem?_eq_some, ExtTreeMap.getElem?_insert]
    constructor
    · intro h
      split_ifs at h with hc
      · exact Prod.ext (LawfulEqOrd.eq_of_compare hc).symm (Option.some_inj.mp h).symm
      · simp at h
    · rintro rfl
      simp
  -- a list of different keys whose only member is the pair
  have hd := toList_keys_ne ((∅ : OrdMap κ ν).insert k v)
  generalize ((∅ : OrdMap κ ν).insert k v).toList = l at hm hd
  cases l with
  | nil => exact absurd ((hm (k, v)).mpr rfl) (by simp)
  | cons p ps =>
    obtain rfl := (hm p).mp List.mem_cons_self
    cases ps with
    | nil => rfl
    | cons q qs =>
      obtain rfl := (hm q).mp (by simp)
      exact absurd rfl ((List.pairwise_cons.mp hd).1 _ List.mem_cons_self)

theorem lookup_insert_ne (m : OrdMap κ ν) {k a : κ} (v : ν) (h : k ≠ a) :
    (m.insert k v)[a]? = m[a]? := by
  rw [ExtTreeMap.getElem?_insert, if_neg (fun hc => h (LawfulEqOrd.eq_of_compare hc))]

theorem lookup_erase_ne (m : OrdMap κ ν) {k a : κ} (h : k ≠ a) : (m.erase k)[a]? = m[a]? := by
  rw [ExtTreeMap.getElem?_erase, if_neg (fun hc => h (LawfulEqOrd.eq_of_compare hc))]

theorem lookup_insert [DecidableEq κ] (m : OrdMap κ ν) (k a : κ) (v : ν) :
    (m.insert k v)[a]? = if k = a then some v else m[a]? := by
  by_cases h : k = a
  · subst h
    rw [if_pos rfl, lookup_insert_self]
  · rw [if_neg h, lookup_insert_ne m v h]

theorem lookup_erase [DecidableEq κ] (m : OrdMap κ ν) (k a : κ) :
    (m.erase k)[a]? = if k = a then none else m[a]? := by
  by_cases h : k = a
  · subst h
    simp
  · rw [if_neg h, lookup_erase_ne m h]

theorem lookup_writePairs_of_forall_ne {ps : List (κ × ν)} {a : κ} (h : ∀ p ∈ ps, p.1 ≠ a) :
    ∀ m : OrdMap κ ν, (writePairs m ps)[a]? = m[a]? := by
  induction ps with
  | nil => intro m; rfl
  | cons p ps ih =>
    intro m
    rw [writePairs_cons, ih (fun q hq => h q (List.mem_cons_of_mem p hq)),
      lookup_insert_ne _ _ (h p List.mem_cons_self)]

theorem lookup_writePairs_of_mem {ps : List (κ × ν)} (hd : ps.Pairwise fun p q => p.1 ≠ q.1)
    {a : κ} {v : ν} (hm : (a, v) ∈ ps) : ∀ m : OrdMap κ ν, (writePairs m ps)[a]? = some v := by
  induction ps with
  | nil => cases hm
  | cons p ps ih =>
    intro m
    obtain ⟨hp, hps⟩ := List.pairwise_cons.mp hd
    rcases List.mem_cons.mp hm with rfl | hm
    · rw [writePairs_cons, lookup_writePairs_of_forall_ne (fun q hq => (hp q hq).symm)]
      exact lookup_insert_self m a v
    · rw [writePairs_cons, ih hps hm]

/-- Nothing is under a key that was not written. -/
theorem lookup_writePairs_eq_none {ps : List (κ × ν)} {a : κ} (m : OrdMap κ ν) :
    (writePairs m ps)[a]? = none ↔ m[a]? = none ∧ ∀ p ∈ ps, p.1 ≠ a := by
  induction ps generalizing m with
  | nil => simp
  | cons p ps ih =>
    rw [writePairs_cons, ih, List.forall_mem_cons, ← and_assoc]
    refine and_congr_left fun _ => ?_
    by_cases hp : p.1 = a
    · rw [← hp, lookup_insert_self]
      simp
    · rw [lookup_insert_ne _ _ hp, and_iff_left hp]

/-- A map of the written values, under the same keys. -/
theorem lookup_writePairs_map {ν' : Type} (f : κ → ν → ν') (ps : List (κ × ν)) (a : κ) :
    (writePairs (∅ : OrdMap κ ν') (ps.map fun p => (p.1, f p.1 p.2)))[a]? =
      ((writePairs (∅ : OrdMap κ ν) ps)[a]?).map (f a) := by
  have h : ∀ (m : OrdMap κ ν) (m' : OrdMap κ ν'), m'[a]? = (m[a]?).map (f a) →
      (writePairs m' (ps.map fun p => (p.1, f p.1 p.2)))[a]? =
        ((writePairs m ps)[a]?).map (f a) := by
    induction ps with
    | nil => exact fun m m' h => h
    | cons p ps ih =>
      intro m m' h
      rw [List.map_cons, writePairs_cons, writePairs_cons]
      refine ih _ _ ?_
      by_cases hp : p.1 = a
      · rw [← hp, lookup_insert_self, lookup_insert_self]
        rfl
      · rw [lookup_insert_ne _ _ hp, lookup_insert_ne _ _ hp, h]
  exact h ∅ ∅ (by simp)

/-- **Writing the entries of one map into another**: the written entries, over the old ones. -/
theorem lookup_writePairs_toList (m n : OrdMap κ ν) (a : κ) :
    (writePairs m n.toList)[a]? = (n[a]?).or m[a]? := by
  cases hn : n[a]? with
  | some v =>
    exact lookup_writePairs_of_mem (toList_keys_ne n)
      (ExtTreeMap.mem_toList_iff_getElem?_eq_some.mpr hn) m
  | none =>
    refine lookup_writePairs_of_forall_ne (fun p hp he => ?_) m
    rw [← he, ExtTreeMap.mem_toList_iff_getElem?_eq_some.mp hp] at hn
    cases hn

/-- A map is rebuilt from the list of its entries. -/
theorem writePairs_empty_toList (m : OrdMap κ ν) : writePairs (∅ : OrdMap κ ν) m.toList = m := by
  refine ExtTreeMap.ext_getElem? fun a => ?_
  rw [lookup_writePairs_toList]
  simp

/-! ### Maps as lists in key order -/

omit [TransOrd κ] in
/-- The pairs of a list in key order are distinct. -/
theorem nodup_of_sorted {ps : List (κ × ν)}
    (hs : ps.Pairwise fun p q => compare p.1 q.1 = .lt) : ps.Nodup := by
  refine hs.imp fun {p q} hlt he => ?_
  rw [he] at hlt
  simp at hlt

/-- **A map lists the pairs of a list in key order** that has its entries. -/
theorem toList_eq_of_sorted {m : OrdMap κ ν} {ps : List (κ × ν)}
    (hs : ps.Pairwise fun p q => compare p.1 q.1 = .lt) (hm : ∀ k v, (k, v) ∈ ps ↔ m[k]? = some v) :
    m.toList = ps := by
  have ho := m.ordered_keys_toList
  have perm : m.toList.Perm ps := by
    refine (List.perm_ext_iff_of_nodup (nodup_of_sorted ho) (nodup_of_sorted hs)).mpr fun p => ?_
    rw [hm, ← ExtTreeMap.mem_toList_iff_getElem?_eq_some]
  refine perm.eq_of_pairwise (fun p q _ _ hpq hqp => ?_) ho hs
  have hpp := TransCmp.lt_trans hpq hqp
  simp at hpp

/-- A key above all others is listed last. -/
theorem toList_insert_of_forall_lt (m : OrdMap κ ν) {k : κ} (v : ν)
    (h : ∀ p ∈ m.toList, compare p.1 k = .lt) : (m.insert k v).toList = m.toList ++ [(k, v)] := by
  have fresh : ∀ a w, (a, w) ∈ m.toList → k ≠ a := by
    rintro a w ha rfl
    have := h _ ha
    simp at this
  refine toList_eq_of_sorted ?_ fun a b => ?_
  · refine List.pairwise_append.mpr ⟨m.ordered_keys_toList, List.pairwise_singleton _ _, ?_⟩
    intro p hp q hq
    obtain rfl := List.mem_singleton.mp hq
    exact h p hp
  · rw [List.mem_append, List.mem_singleton, Prod.mk.injEq]
    by_cases hk : k = a
    · subst hk
      have hb : (k, b) ∉ m.toList := fun hb => fresh k b hb rfl
      simp [hb, eq_comm]
    · rw [lookup_insert_ne m v hk, ExtTreeMap.mem_toList_iff_getElem?_eq_some]
      simp [Ne.symm hk]

/-! ### Updates

An update sets a key to a value, or removes it. What it leaves under its key does not depend on what
was there. -/

/-- The map after an update. -/
def update (m : OrdMap κ ν) (u : κ × Option ν) : OrdMap κ ν :=
  match u.2 with
  | some v => m.insert u.1 v
  | none => m.erase u.1

/-- The map after some updates, in order. -/
def updates (m : OrdMap κ ν) (us : List (κ × Option ν)) : OrdMap κ ν := us.foldl update m

omit [LawfulEqOrd κ] in
theorem updates_append (m : OrdMap κ ν) (us vs : List (κ × Option ν)) :
    updates m (us ++ vs) = updates (updates m us) vs := List.foldl_append

theorem lookup_update_self (m : OrdMap κ ν) (u : κ × Option ν) : (update m u)[u.1]? = u.2 := by
  obtain ⟨k, _ | v⟩ := u <;> simp [update]

theorem lookup_update_ne (m : OrdMap κ ν) {u : κ × Option ν} {a : κ} (h : u.1 ≠ a) :
    (update m u)[a]? = m[a]? := by
  obtain ⟨k, _ | v⟩ := u
  · exact lookup_erase_ne m h
  · exact lookup_insert_ne m v h

theorem lookup_updates_of_forall_ne {us : List (κ × Option ν)} {a : κ} (h : ∀ u ∈ us, u.1 ≠ a)
    (m : OrdMap κ ν) : (updates m us)[a]? = m[a]? := by
  induction us generalizing m with
  | nil => rfl
  | cons u us ih =>
    have htail := ih (fun u' hu' => h u' (List.mem_cons_of_mem u hu')) (update m u)
    exact htail.trans (lookup_update_ne m (h u List.mem_cons_self))

/-! ### The last update of a key -/

section lastUpdate

variable [DecidableEq κ] {us : List (κ × Option ν)} {a : κ}

omit [Ord κ] [TransOrd κ] [LawfulEqOrd κ]

/-- What the last update of a key leaves there, if the key is updated at all. -/
def lastUpdate (us : List (κ × Option ν)) (a : κ) : Option (Option ν) :=
  (us.reverse.find? fun u => decide (u.1 = a)).map Prod.snd

theorem lastUpdate_append (us vs : List (κ × Option ν)) (a : κ) :
    lastUpdate (us ++ vs) a = (lastUpdate vs a).or (lastUpdate us a) := by
  rw [lastUpdate, List.reverse_append, List.find?_append, Option.map_or]
  rfl

theorem lastUpdate_eq_none : lastUpdate us a = none ↔ ∀ u ∈ us, u.1 ≠ a := by
  rw [lastUpdate, Option.map_eq_none_iff, List.find?_eq_none]
  simp

/-- **The last update of a key** is followed by no other. -/
theorem lastUpdate_eq_some {o : Option ν} :
    lastUpdate us a = some o ↔
      ∃ pre post, us = pre ++ (a, o) :: post ∧ ∀ u ∈ post, u.1 ≠ a := by
  rw [lastUpdate, Option.map_eq_some_iff]
  constructor
  · rintro ⟨⟨b, o'⟩, hf, rfl⟩
    obtain ⟨hb, later, earlier, hus, hne⟩ := List.find?_eq_some_iff_append.mp hf
    obtain rfl : b = a := of_decide_eq_true hb
    refine ⟨earlier.reverse, later.reverse, ?_, fun u hu => ?_⟩
    · rw [← us.reverse_reverse, hus]
      simp
    · simpa using hne u (List.mem_reverse.mp hu)
  · rintro ⟨pre, post, rfl, hpost⟩
    refine ⟨(a, o), List.find?_eq_some_iff_append.mpr ⟨?_, post.reverse, pre.reverse, ?_, ?_⟩, rfl⟩
    · exact decide_eq_true rfl
    · simp
    · intro u hu
      simpa using hpost u (List.mem_reverse.mp hu)

end lastUpdate

/-- **What some updates leave under a key** is what the last of them sets, or what was there. -/
theorem lookup_updates [DecidableEq κ] (m : OrdMap κ ν) (us : List (κ × Option ν)) (a : κ) :
    (updates m us)[a]? = (lastUpdate us a).getD m[a]? := by
  rcases h : lastUpdate us a with _ | o
  · exact lookup_updates_of_forall_ne (lastUpdate_eq_none.mp h) m
  · obtain ⟨pre, post, rfl, hpost⟩ := lastUpdate_eq_some.mp h
    rw [updates_append]
    exact (lookup_updates_of_forall_ne hpost _).trans (lookup_update_self _ (a, o))

/-- **Updates that were made may be made again**, before any others. -/
theorem updates_updates_append [DecidableEq κ] (m : OrdMap κ ν) (us vs : List (κ × Option ν)) :
    updates (updates m us) (us ++ vs) = updates m (us ++ vs) := by
  refine ExtTreeMap.ext_getElem? fun a => ?_
  rw [lookup_updates, lookup_updates, lookup_updates, lastUpdate_append]
  -- the last update decides; where there is none, none was made before either
  rcases lastUpdate vs a with _ | o
  · rcases lastUpdate us a with _ | o <;> rfl
  · rfl

/-! ### Updates of the same keys -/

section lastOn

variable {ι : Type} {key : ι → κ} {xs : List ι} {x : ι}

omit [Ord κ] [TransOrd κ] [LawfulEqOrd κ]

/-- No element of the list after `x` has its key. -/
def LastOn (key : ι → κ) (xs : List ι) (x : ι) : Prop :=
  ∃ pre post, xs = pre ++ x :: post ∧ ∀ y ∈ post, key y ≠ key x

/-- A key is not there, or there is a last element with it. -/
theorem forall_ne_or_lastOn (key : ι → κ) (xs : List ι) (a : κ) :
    (∀ x ∈ xs, key x ≠ a) ∨ ∃ x, LastOn key xs x ∧ key x = a := by
  induction xs with
  | nil => exact .inl fun _ hx => by cases hx
  | cons y ys ih =>
    rcases ih with ih | ⟨x, ⟨pre, post, rfl, hpost⟩, hx⟩
    · by_cases hy : key y = a
      · refine .inr ⟨y, ⟨[], ys, rfl, fun z hz => ?_⟩, hy⟩
        rw [hy]
        exact ih z hz
      · refine .inl fun z hz => ?_
        rcases List.mem_cons.mp hz with rfl | hz
        · exact hy
        · exact ih z hz
    · exact .inr ⟨x, ⟨y :: pre, post, rfl, hpost⟩, hx⟩

end lastOn

section sameKeys

variable {ι : Type} {key : ι → κ} {xs : List ι} {x : ι} (f g : ι → Option ν) (m : OrdMap κ ν)

/-- **The last update of a key decides** what is there. -/
theorem lookup_updates_lastOn (h : LastOn key xs x) :
    (updates m (xs.map fun y => (key y, f y)))[key x]? = f x := by
  obtain ⟨pre, post, rfl, hpost⟩ := h
  have hne : ∀ u ∈ post.map fun y => (key y, f y), u.1 ≠ key x := by
    intro u hu
    obtain ⟨y, hy, rfl⟩ := List.mem_map.mp hu
    exact hpost y hy
  rw [List.map_append, List.map_cons, updates_append]
  exact (lookup_updates_of_forall_ne hne _).trans (lookup_update_self _ (key x, f x))

theorem lookup_updates_map_of_forall_ne {a : κ} (h : ∀ x ∈ xs, key x ≠ a) :
    (updates m (xs.map fun y => (key y, f y)))[a]? = m[a]? := by
  refine lookup_updates_of_forall_ne (fun u hu => ?_) m
  obtain ⟨y, hy, rfl⟩ := List.mem_map.mp hu
  exact h y hy

/-- **Two lists of updates of the same keys do the same** exactly when the last ones of each key
do. -/
theorem updates_eq_iff :
    updates m (xs.map fun y => (key y, f y)) = updates m (xs.map fun y => (key y, g y)) ↔
      ∀ x, LastOn key xs x → f x = g x := by
  constructor
  · intro h x hx
    rw [← lookup_updates_lastOn f m hx, h, lookup_updates_lastOn g m hx]
  · intro h
    refine ExtTreeMap.ext_getElem? fun a => ?_
    rcases forall_ne_or_lastOn key xs a with hne | ⟨x, hx, rfl⟩
    · rw [lookup_updates_map_of_forall_ne f m hne, lookup_updates_map_of_forall_ne g m hne]
    · rw [lookup_updates_lastOn f m hx, lookup_updates_lastOn g m hx, h x hx]

end sameKeys

end OrdMap

end Rust
