import Mathlib.Algebra.Group.Nat.Defs
import Mathlib.Tactic.Common

/-!
# Byte strings

Byte strings, the UTF-8 encoding of text, and fixed-width numbers in both byte orders.

## Main definitions

* `Bytes`, `ByteVec`: a byte string, and one that fits an allocation
* `utf8`, `fromUtf8`: `String::as_bytes` and `String::from_utf8`
* `leBytes k n`, `leNat`: the `k` low bytes of `n`, least significant first, and back
* `beBytes k n`, `beNat`: the `k` low bytes of `n`, most significant first, and back

## Main results

* `fromUtf8_utf8`, `fromUtf8_eq_some`: the two directions of UTF-8 agree
* `utf8_prefix_iff`: a prefix in bytes is a prefix in characters
* `leNat_leBytes`, `beNat_beBytes`: a number below `256 ^ k` is read back from its `k` bytes
* `compare_beBytes`: big-endian byte strings are ordered as their numbers
-/

namespace Rust

/-- A byte string. -/
abbrev Bytes := List UInt8

/-- The content of a `Vec<u8>`: no allocation is larger than `isize::MAX` bytes. -/
abbrev ByteVec := { b : Bytes // b.length < 2 ^ 63 }

/-- The empty `Vec<u8>`. -/
def ByteVec.empty : ByteVec := ⟨[], by decide⟩

theorem ByteVec.eq_empty {v : ByteVec} (h : v.val = []) : v = .empty := Subtype.ext h

/-- A byte string that fits an allocation. -/
def ByteVec.ofBytes (b : Bytes) : Option ByteVec :=
  if h : b.length < 2 ^ 63 then some ⟨b, h⟩ else none

@[simp] theorem ByteVec.ofBytes_val (v : ByteVec) : ByteVec.ofBytes v.val = some v := by
  rw [ByteVec.ofBytes, dif_pos v.property]

/-- The UTF-8 encoding of a text. -/
def utf8 (s : String) : Bytes := s.toByteArray.data.toList

/-- `String::from_utf8`. -/
def fromUtf8 (b : Bytes) : Option String := String.fromUTF8? ⟨b.toArray⟩

theorem fromUtf8_eq_some {b : Bytes} {s : String} : fromUtf8 b = some s ↔ utf8 s = b := by
  unfold fromUtf8 utf8 String.fromUTF8?
  constructor
  · intro h
    split_ifs at h
    cases h
    rfl
  · rintro rfl
    have hb : (⟨s.toByteArray.data.toList.toArray⟩ : ByteArray) = s.toByteArray := by simp
    rw [hb, dif_pos s.isValidUTF8]
    rfl

@[simp] theorem fromUtf8_utf8 (s : String) : fromUtf8 (utf8 s) = some s :=
  fromUtf8_eq_some.mpr rfl

theorem utf8_injective : Function.Injective utf8 := fun s t h => by
  have := fromUtf8_utf8 s
  rw [h, fromUtf8_utf8] at this
  exact (Option.some.inj this).symm

@[simp] theorem utf8_inj {s t : String} : utf8 s = utf8 t ↔ s = t := utf8_injective.eq_iff

@[simp] theorem utf8_append (s t : String) : utf8 (s ++ t) = utf8 s ++ utf8 t := by
  simp [utf8, String.toByteArray_append]

@[simp] theorem utf8_empty : utf8 "" = [] := rfl

theorem utf8_eq_nil {s : String} : utf8 s = [] ↔ s = "" := by
  rw [← utf8_empty, utf8_inj]

theorem isValidUTF8_append_iff (cs : List Char) (b : ByteArray) :
    (cs.utf8Encode ++ b).IsValidUTF8 ↔ b.IsValidUTF8 := by
  induction cs with
  | nil => simp
  | cons c cs ih =>
    rw [List.utf8Encode_cons, ByteArray.append_assoc,
      ByteArray.isValidUTF8_utf8Encode_singleton_append_iff, ih]

/-- **A text whose bytes start with those of another** starts with it. -/
theorem utf8_prefix_iff {p s : String} : utf8 p <+: utf8 s ↔ ∃ t, s = p ++ t := by
  constructor
  · rintro ⟨b, hb⟩
    have hs : p.toByteArray ++ ⟨b.toArray⟩ = s.toByteArray := by
      apply ByteArray.ext
      apply Array.toList_inj.mp
      simpa [utf8] using hb
    have hvalid : (⟨b.toArray⟩ : ByteArray).IsValidUTF8 := by
      rw [← isValidUTF8_append_iff p.toList, String.utf8Encode_toList, hs]
      exact s.isValidUTF8
    refine ⟨⟨⟨b.toArray⟩, hvalid⟩, ?_⟩
    apply String.toByteArray_inj.mp
    rw [String.toByteArray_append]
    exact hs.symm
  · rintro ⟨t, rfl⟩
    exact ⟨utf8 t, (utf8_append p t).symm⟩

/-- A text has no more characters than bytes. -/
theorem length_le_utf8 (cs : List Char) : cs.length ≤ (utf8 (String.ofList cs)).length := by
  induction cs with
  | nil => exact Nat.zero_le _
  | cons c cs ih =>
    have hsplit : utf8 (String.ofList (c :: cs)) =
        utf8 (String.ofList [c]) ++ utf8 (String.ofList cs) := by
      rw [← utf8_append, ← String.ofList_append]
      rfl
    have hpos : 0 < (utf8 (String.ofList [c])).length := by
      refine List.length_pos_iff.mpr fun h => ?_
      simpa using congrArg String.toList (utf8_eq_nil.mp h)
    rw [hsplit, List.length_append, List.length_cons]
    omega

/-- The order of byte strings is the lexicographic one. -/
theorem compare_eq_lt_iff {b b' : Bytes} : compare b b' = .lt ↔ b < b' := by
  induction b generalizing b' with
  | nil => cases b' <;> simp [List.compare_nil_cons]
  | cons x b ih =>
    cases b' with
    | nil => simp [List.compare_cons_nil]
    | cons y b' =>
      rw [List.compare_cons_cons, List.cons_lt_cons_iff, Ordering.then_eq_lt, ih,
        Std.LawfulEqOrd.compare_eq_iff_eq, Std.compare_eq_lt]

/-! ### Little-endian numbers -/

/-- The `k` low bytes of `n`, least significant first. -/
def leBytes : ℕ → ℕ → Bytes
  | 0, _ => []
  | k + 1, n => UInt8.ofNat (n % 256) :: leBytes k (n / 256)

/-- The number of a little-endian byte string. -/
def leNat : Bytes → ℕ
  | [] => 0
  | b :: bs => b.toNat + 256 * leNat bs

@[simp] theorem length_leBytes (k n : ℕ) : (leBytes k n).length = k := by
  induction k generalizing n with
  | zero => rfl
  | succ k ih => simp [leBytes, ih]

theorem leNat_leBytes {k n : ℕ} (h : n < 256 ^ k) : leNat (leBytes k n) = n := by
  induction k generalizing n with
  | zero => simp at h; simp [leBytes, leNat, h]
  | succ k ih =>
    have hq : n / 256 < 256 ^ k := Nat.div_lt_of_lt_mul (by rwa [Nat.pow_succ, Nat.mul_comm] at h)
    have hb : (UInt8.ofNat (n % 256)).toNat = n % 256 := by
      simp
    rw [leBytes, leNat, ih hq, hb]
    omega

theorem leNat_lt (b : Bytes) : leNat b < 256 ^ b.length := by
  induction b with
  | nil => simp [leNat]
  | cons x b ih =>
    have hx := x.toNat_lt
    rw [leNat, List.length_cons, Nat.pow_succ]
    omega

/-- The eight bytes of a `u64`, least significant first. -/
def u64LE (x : UInt64) : Bytes := leBytes 8 x.toNat

@[simp] theorem length_u64LE (x : UInt64) : (u64LE x).length = 8 := length_leBytes 8 _

/-! ### Big-endian numbers -/

/-- The `k` low bytes of `n`, most significant first. -/
def beBytes : ℕ → ℕ → Bytes
  | 0, _ => []
  | k + 1, n => UInt8.ofNat (n / 256 ^ k % 256) :: beBytes k n

/-- The number of a big-endian byte string. -/
def beNat (b : Bytes) : ℕ := b.foldl (fun n x => 256 * n + x.toNat) 0

@[simp] theorem length_beBytes (k n : ℕ) : (beBytes k n).length = k := by
  induction k with
  | zero => rfl
  | succ k ih => simp [beBytes, ih]

theorem foldl_beBytes (k n m : ℕ) :
    (beBytes k n).foldl (fun n x => 256 * n + x.toNat) m = m * 256 ^ k + n % 256 ^ k := by
  induction k generalizing m with
  | zero => simp [beBytes, Nat.mod_one]
  | succ k ih =>
    have hb : (UInt8.ofNat (n / 256 ^ k % 256)).toNat = n / 256 ^ k % 256 := by simp
    rw [beBytes, List.foldl_cons, ih, hb, Nat.pow_succ, Nat.mod_mul]
    calc (256 * m + n / 256 ^ k % 256) * 256 ^ k + n % 256 ^ k
        = m * (256 ^ k * 256) + (n % 256 ^ k + 256 ^ k * (n / 256 ^ k % 256)) := by
          rw [Nat.add_mul, Nat.mul_comm 256 m, Nat.mul_assoc, Nat.mul_comm 256 (256 ^ k),
            Nat.mul_comm (n / 256 ^ k % 256), Nat.add_assoc, Nat.add_comm (256 ^ k * _)]

theorem beNat_beBytes {k n : ℕ} (h : n < 256 ^ k) : beNat (beBytes k n) = n := by
  rw [beNat, foldl_beBytes, Nat.zero_mul, Nat.zero_add, Nat.mod_eq_of_lt h]

theorem compare_byte {x y : ℕ} (hx : x < 256) (hy : y < 256) :
    compare (UInt8.ofNat x) (UInt8.ofNat y) = compare x y := by
  have lt : UInt8.ofNat x < UInt8.ofNat y ↔ x < y := by
    rw [UInt8.lt_iff_toNat_lt, UInt8.toNat_ofNat_of_lt' hx, UInt8.toNat_ofNat_of_lt' hy]
  have eq : UInt8.ofNat x = UInt8.ofNat y ↔ x = y := by
    rw [← UInt8.toNat_inj, UInt8.toNat_ofNat_of_lt' hx, UInt8.toNat_ofNat_of_lt' hy]
  change compareOfLessAndEq _ _ = compareOfLessAndEq _ _
  simp only [compareOfLessAndEq, lt, eq]

/-- Numbers compare by their high digits first. -/
theorem compare_digits {b x y r s : ℕ} (hr : r < b) (hs : s < b) :
    compare (b * x + r) (b * y + s) = (compare x y).then (compare r s) := by
  rcases Nat.lt_trichotomy x y with h | rfl | h
  · have hm : b * (x + 1) ≤ b * y := Nat.mul_le_mul_left b h
    rw [Nat.mul_add] at hm
    rw [Nat.compare_eq_lt.mpr h, Nat.compare_eq_lt.mpr (by omega)]
    rfl
  · have lt : b * x + r < b * x + s ↔ r < s := by omega
    have eq : b * x + r = b * x + s ↔ r = s := by omega
    rw [Nat.compare_eq_eq.mpr rfl]
    change compareOfLessAndEq _ _ = compareOfLessAndEq _ _
    simp only [compareOfLessAndEq, lt, eq]
  · have hm : b * (y + 1) ≤ b * x := Nat.mul_le_mul_left b h
    rw [Nat.mul_add] at hm
    rw [Nat.compare_eq_gt.mpr h, Nat.compare_eq_gt.mpr (by omega)]
    rfl

/-- **Big-endian byte strings are ordered as their numbers.** -/
theorem compare_beBytes (k m n : ℕ) :
    compare (beBytes k m) (beBytes k n) = compare (m % 256 ^ k) (n % 256 ^ k) := by
  induction k with
  | zero =>
    rw [Nat.pow_zero, Nat.mod_one, Nat.mod_one]
    rfl
  | succ k ih =>
    have split : ∀ x, x % 256 ^ (k + 1) = 256 ^ k * (x / 256 ^ k % 256) + x % 256 ^ k := fun x => by
      rw [Nat.pow_succ, Nat.mod_mul, Nat.add_comm]
    have low : ∀ x, x % 256 ^ k < 256 ^ k := fun x => Nat.mod_lt _ (Nat.pow_pos (by decide))
    have high : ∀ x, x / 256 ^ k % 256 < 256 := fun x => Nat.mod_lt _ (by decide)
    rw [beBytes, beBytes, List.compare_cons_cons, ih, compare_byte (high m) (high n), split m,
      split n, compare_digits (low m) (low n)]

/-- The eight bytes of a `u64`, most significant first. -/
def u64BE (x : UInt64) : Bytes := beBytes 8 x.toNat

@[simp] theorem length_u64BE (x : UInt64) : (u64BE x).length = 8 := length_beBytes 8 _

theorem beNat_u64BE (x : UInt64) : beNat (u64BE x) = x.toNat := beNat_beBytes x.toNat_lt

theorem compare_u64BE (x y : UInt64) :
    compare (u64BE x) (u64BE y) = compare x.toNat y.toNat := by
  have hx : x.toNat < 256 ^ 8 := x.toNat_lt
  have hy : y.toNat < 256 ^ 8 := y.toNat_lt
  rw [u64BE, u64BE, compare_beBytes, Nat.mod_eq_of_lt hx, Nat.mod_eq_of_lt hy]

end Rust
