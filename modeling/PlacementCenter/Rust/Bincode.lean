import PlacementCenter.Rust.Bytes
import PlacementCenter.Rust.Collections

/-!
# The bincode format

The default format of bincode 1.3: integers of fixed width, least significant byte first, a
`u64` count before every sequence, text or map, a `u32` index before every enum variant. Trailing
bytes are ignored by `deserialize`.

## Main definitions

* `Bincode α`: values with an encoding, a decoder that returns the rest of its input, and the
  law that the decoder reads an encoding back
* `serialize`, `deserialize`: the two functions of the crate

## Main results

* `deserialize_serialize`: an encoding that fits the address space is read back
-/

namespace Rust

/-- Values with a bincode encoding. Counts are `u64`, so the law is for encodings of fewer than
`2 ^ 64` bytes. -/
class Bincode (α : Type) where
  put : α → Bytes
  get : Bytes → Option (α × Bytes)
  put_ne_nil : ∀ a, put a ≠ []
  get_put : ∀ a rest, (put a).length < 2 ^ 64 → get (put a ++ rest) = some (a, rest)

namespace Bincode

variable {α β : Type}

/-- `bincode::serialize`. -/
def serialize [Bincode α] (a : α) : Bytes := put a

/-- `bincode::deserialize`. -/
def deserialize [Bincode α] (b : Bytes) : Option α := (get b).map Prod.fst

/-- **The format reads back its own encodings.** -/
theorem deserialize_serialize [Bincode α] {a : α} (h : (serialize a).length < 2 ^ 64) :
    deserialize (serialize a) = some a := by
  have := get_put a [] h
  rw [List.append_nil] at this
  simp [deserialize, serialize, this]

/-! ### Numbers -/

/-- The next `k` bytes, as a little-endian number. -/
def getNat (k : ℕ) (b : Bytes) : Option (ℕ × Bytes) :=
  if b.length < k then none else some (leNat (b.take k), b.drop k)

theorem getNat_leBytes {k n : ℕ} (h : n < 256 ^ k) (rest : Bytes) :
    getNat k (leBytes k n ++ rest) = some (n, rest) := by
  have hl : (leBytes k n).length = k := length_leBytes k n
  rw [getNat, if_neg (by simp [hl]), List.take_left' hl, List.drop_left' hl, leNat_leBytes h]

instance : Bincode UInt64 where
  put x := u64LE x
  get b := (getNat 8 b).map fun r => (UInt64.ofNat r.1, r.2)
  put_ne_nil x h := by
    have := length_u64LE x
    rw [h] at this
    cases this
  get_put x rest _ := by
    rw [u64LE, getNat_leBytes x.toNat_lt]
    simp

instance : Bincode UInt8 where
  put x := [x]
  get
    | [] => none
    | x :: b => some (x, b)
  put_ne_nil _ h := by cases h
  get_put _ _ _ := rfl

instance : Bincode Int8 where
  put x := [x.toUInt8]
  get
    | [] => none
    | x :: b => some (x.toInt8, b)
  put_ne_nil _ h := by cases h
  get_put _ _ _ := by simp

/-! ### Sequences -/

/-- A counted value: the count, then the parts. -/
def putCounted (n : ℕ) (body : Bytes) : Bytes := leBytes 8 (n % 2 ^ 64) ++ body

theorem putCounted_ne_nil (n : ℕ) (body : Bytes) : putCounted n body ≠ [] := fun h => by
  have := congrArg List.length h
  simp [putCounted] at this

theorem getNat_putCounted {n : ℕ} (h : n < 2 ^ 64) (body rest : Bytes) :
    getNat 8 (putCounted n body ++ rest) = some (n, body ++ rest) := by
  rw [putCounted, Nat.mod_eq_of_lt h, List.append_assoc, getNat_leBytes h]

/-- `n` values, one after the other. -/
def getMany [Bincode α] : ℕ → Bytes → Option (List α × Bytes)
  | 0, b => some ([], b)
  | n + 1, b => do
    let (a, b) ← get b
    let (as, b) ← getMany n b
    return (a :: as, b)

/-- The encodings of the elements, one after the other. -/
def putMany [Bincode α] (as : List α) : Bytes := as.flatMap put

theorem length_le_putMany [Bincode α] (as : List α) : as.length ≤ (putMany as).length := by
  induction as with
  | nil => simp
  | cons a as ih =>
    have hp : 0 < (put a).length := List.length_pos_iff.mpr (put_ne_nil a)
    simp only [putMany, List.flatMap_cons, List.length_append, List.length_cons] at ih ⊢
    omega

/-- An element takes its part of a sequence. -/
theorem length_put_le_putMany [Bincode α] {a : α} {as : List α} (h : a ∈ as) :
    (put a).length ≤ (putMany as).length := by
  obtain ⟨pre, post, rfl⟩ := List.append_of_mem h
  simp only [putMany, List.flatMap_append, List.flatMap_cons, List.length_append]
  omega

theorem getMany_putMany [Bincode α] (as : List α) (rest : Bytes)
    (h : (putMany as).length < 2 ^ 64) :
    getMany as.length (putMany as ++ rest) = some (as, rest) := by
  induction as with
  | nil => rfl
  | cons a as ih =>
    simp only [putMany, List.flatMap_cons, List.length_append] at h ih ⊢
    rw [List.length_cons, getMany, List.append_assoc, get_put a _ (by omega)]
    simp [ih (by omega)]

/-- Values that are always read back, in any number. -/
theorem getMany_putMany_of_get_put [Bincode α]
    (h : ∀ (a : α) (rest : Bytes), get (put a ++ rest) = some (a, rest)) (as : List α)
    (rest : Bytes) : getMany as.length (putMany as ++ rest) = some (as, rest) := by
  induction as with
  | nil => rfl
  | cons a as ih =>
    simp only [putMany, List.flatMap_cons] at ih ⊢
    rw [List.length_cons, getMany, List.append_assoc, h]
    simp [ih]

theorem length_of_getMany [Bincode α] {n : ℕ} {b rest : Bytes} {as : List α}
    (h : getMany n b = some (as, rest)) : as.length = n := by
  induction n generalizing b as rest with
  | zero =>
    obtain ⟨rfl, -⟩ := Prod.mk.inj (Option.some_inj.mp h)
    rfl
  | succ n ih =>
    obtain ⟨⟨a, b'⟩, -, h⟩ := Option.bind_eq_some_iff.mp h
    obtain ⟨⟨as', b''⟩, hm, h⟩ := Option.bind_eq_some_iff.mp h
    obtain ⟨rfl, -⟩ := Prod.mk.inj (Option.some_inj.mp h)
    rw [List.length_cons, ih hm]

/-- A count that was read is a `u64`. -/
theorem lt_of_getNat {b rest : Bytes} {n : ℕ} (h : getNat 8 b = some (n, rest)) : n < 2 ^ 64 := by
  rw [getNat] at h
  split_ifs at h with hl
  obtain ⟨rfl, -⟩ := Prod.mk.inj (Option.some_inj.mp h)
  have hlt := leNat_lt (b.take 8)
  rw [List.length_take, Nat.min_eq_left (Nat.not_lt.mp hl)] at hlt
  omega

instance [Bincode α] : Bincode (List α) where
  put as := putCounted as.length (putMany as)
  get b := (getNat 8 b).bind fun r => getMany r.1 r.2
  put_ne_nil _ := putCounted_ne_nil _ _
  get_put as rest h := by
    have hb : (putMany as).length < 2 ^ 64 := by
      rw [putCounted, List.length_append, length_leBytes] at h
      omega
    have hn : as.length < 2 ^ 64 := Nat.lt_of_le_of_lt (length_le_putMany as) hb
    rw [getNat_putCounted hn]
    exact getMany_putMany as rest hb

instance : Bincode String where
  put s := putCounted (utf8 s).length (utf8 s)
  get b := (getNat 8 b).bind fun r =>
    if r.2.length < r.1 then none
    else (fromUtf8 (r.2.take r.1)).map fun s => (s, r.2.drop r.1)
  put_ne_nil _ := putCounted_ne_nil _ _
  get_put s rest h := by
    have hn : (utf8 s).length < 2 ^ 64 := by
      rw [putCounted, List.length_append, length_leBytes] at h
      omega
    rw [getNat_putCounted hn, Option.bind_some, if_neg (by simp), List.take_left' rfl,
      List.drop_left' rfl, fromUtf8_utf8]
    rfl

instance [Bincode α] [Bincode β] : Bincode (α × β) where
  put p := put p.1 ++ put p.2
  get b := do
    let (x, b) ← get b
    let (y, b) ← get b
    return ((x, y), b)
  put_ne_nil p h := put_ne_nil p.1 (List.append_eq_nil_iff.mp h).1
  get_put p rest h := by
    rw [List.length_append] at h
    rw [List.append_assoc, get_put p.1 _ (by omega)]
    simp [get_put p.2 rest (by omega)]

/-- A map is the sequence of its entries; a decoded map holds the last value of each key. -/
instance {κ ν : Type} [Ord κ] [Std.TransOrd κ] [Std.LawfulEqOrd κ] [Bincode κ] [Bincode ν] :
    Bincode (OrdMap κ ν) where
  put m := put m.toList
  get b := (get b).map fun r => (OrdMap.writePairs ∅ r.1, r.2)
  put_ne_nil m := put_ne_nil m.toList
  get_put m rest h := by
    rw [get_put m.toList rest h]
    simp [OrdMap.writePairs_empty_toList]

/-! ### Lengths -/

theorem length_putCounted (n : ℕ) (body : Bytes) :
    (putCounted n body).length = 8 + body.length := by
  rw [putCounted, List.length_append, length_leBytes]

theorem length_put_string (s : String) : (put s).length = 8 + (utf8 s).length :=
  length_putCounted _ _

/-- A counted sequence is longer than each of its elements. -/
theorem length_put_lt_list [Bincode α] {a : α} {as : List α} (h : a ∈ as) :
    (put a).length < (put as).length := by
  have hlen : (put as).length = 8 + (putMany as).length := length_putCounted _ _
  have := length_put_le_putMany h
  omega

section maps

variable {κ ν : Type} [Ord κ] [Std.TransOrd κ] [Std.LawfulEqOrd κ] [Bincode κ] [Bincode ν]

/-- A map is longer than each of its values. -/
theorem length_put_lt_map {m : OrdMap κ ν} {k : κ} {v : ν} (h : m[k]? = some v) :
    (put v).length < (put m).length := by
  have hmem : (k, v) ∈ m.toList := Std.ExtTreeMap.mem_toList_iff_getElem?_eq_some.mpr h
  have hpair : (put (k, v)).length = (put k).length + (put v).length := List.length_append
  have hlist : (put (k, v)).length < (put m.toList).length := length_put_lt_list hmem
  change (put v).length < (put m.toList).length
  omega

/-- A map that was read has fewer than `2 ^ 64` entries. -/
theorem size_lt_of_deserialize {b : Bytes} {m : OrdMap κ ν} (h : deserialize b = some m) :
    m.size < 2 ^ 64 := by
  obtain ⟨⟨m', rest⟩, hmap, rfl⟩ := Option.map_eq_some_iff.mp h
  obtain ⟨⟨ps, rest'⟩, hlist, hm⟩ := Option.map_eq_some_iff.mp hmap
  obtain ⟨rfl, -⟩ := Prod.mk.inj hm
  obtain ⟨⟨n, b'⟩, hn, hmany⟩ := Option.bind_eq_some_iff.mp hlist
  have hlt := lt_of_getNat hn
  have hlen := length_of_getMany hmany
  have hsize := OrdMap.size_writePairs_le ps (∅ : OrdMap κ ν)
  rw [Std.ExtTreeMap.size_empty] at hsize
  dsimp only at hlen ⊢
  omega

/-- A map of entries of fixed width is read back when it has fewer than `2 ^ 64` of them. -/
theorem deserialize_serialize_map
    (hget : ∀ (p : κ × ν) (rest : Bytes), get (put p ++ rest) = some (p, rest)) {m : OrdMap κ ν}
    (h : m.size < 2 ^ 64) : deserialize (serialize m) = some m := by
  have hn : m.toList.length < 2 ^ 64 := by rwa [Std.ExtTreeMap.length_toList]
  have hlist : get (put m.toList) = some (m.toList, []) := by
    have hcount := getNat_putCounted hn (putMany m.toList) []
    rw [List.append_nil, List.append_nil] at hcount
    change (getNat 8 (putCounted m.toList.length (putMany m.toList))).bind _ = _
    rw [hcount, Option.bind_some]
    have := getMany_putMany_of_get_put hget m.toList []
    rwa [List.append_nil] at this
  change ((get (put m.toList)).map _).map Prod.fst = _
  rw [hlist]
  simp [OrdMap.writePairs_empty_toList]

end maps

end Bincode

end Rust
