import PlacementCenter.Rust.RocksDb

/-!
# Raw iterators and prefixes

A raw iterator visits the entries of a column family in the order of their keys, from where a seek
has put it; filters by prefix are left out. The keys with a common prefix are next to each other in
this order.

## Main definitions

* `RawIterator`: the entries from the position of an iterator on
* `startsWith`: `str::starts_with`

## Main results

* `startsWith_iff`: a text that starts with another goes on from it
* `prefix_of_between`: a key between a prefix and a key that starts with it starts with it too
* `takeWhile_eq_filter`, `dropWhile_eq_filter`: a condition that ends once splits a list at one
  point
* `head?_eq_some_iff_least`: the first entry of a sorted list is the one with the least key
-/

namespace Rust

/-- The entries from the position of a raw iterator on. -/
structure RawIterator where
  rest : List (Bytes × Bytes)

namespace RawIterator

/-- The first entry whose key is not below `key`, and those after it. -/
def seek (pairs : List (Bytes × Bytes)) (key : Bytes) : RawIterator :=
  ⟨pairs.dropWhile fun q => (compare q.1 key).isLT⟩

def valid (iter : RawIterator) : Bool := !iter.rest.isEmpty

def key (iter : RawIterator) : Option Bytes := iter.rest.head?.map Prod.fst

def value (iter : RawIterator) : Option Bytes := iter.rest.head?.map Prod.snd

def next (iter : RawIterator) : RawIterator := ⟨iter.rest.tail⟩

end RawIterator

/-- `str::starts_with`. -/
def startsWith (s pat : String) : Bool := (utf8 pat).isPrefixOf (utf8 s)

theorem startsWith_iff {s pat : String} : startsWith s pat = true ↔ ∃ t, s = pat ++ t := by
  rw [startsWith, List.isPrefixOf_iff_prefix, utf8_prefix_iff]

section Prefix

variable {α : Type} [Ord α] [Std.LawfulEqOrd α]

/-- A prefix is not above what starts with it. -/
theorem isLE_of_isPrefix {p b : List α} (h : p <+: b) : (compare p b).isLE := by
  induction p generalizing b with
  | nil => cases b <;> rfl
  | cons x p ih =>
    obtain ⟨b', rfl, hb'⟩ := List.cons_prefix_iff.mp h
    rw [List.compare_cons_cons, Std.ReflOrd.compare_self]
    exact ih hb'

/-- **What lies between a prefix and a list that starts with it** starts with it too. -/
theorem prefix_of_between [Std.OrientedOrd α] {p a b : List α} (hpa : (compare p a).isLE)
    (hab : (compare a b).isLE) (hb : p <+: b) : p <+: a := by
  induction p generalizing a b with
  | nil => exact List.nil_prefix
  | cons x p ih =>
    obtain ⟨b', rfl, hb'⟩ := List.cons_prefix_iff.mp hb
    cases a with
    | nil => cases hpa
    | cons y a =>
      rw [List.compare_cons_cons] at hpa hab
      -- the first element is neither above nor below that of the prefix
      have heq : compare x y = .eq := Std.OrientedCmp.isLE_antisymm
        (Ordering.isLE_left_of_isLE_then hpa) (Ordering.isLE_left_of_isLE_then hab)
      obtain rfl := Std.LawfulEqOrd.compare_eq_iff_eq.mp heq
      rw [heq, Ordering.eq_then] at hpa hab
      exact List.cons_prefix_cons.mpr ⟨rfl, ih hpa hab hb'⟩

end Prefix

/-! ### Sorted lists -/

section Sorted

variable {α : Type} {P : α → Bool} {l : List α}

/-- A condition that an element hands down to those before it holds of a first part of the list. -/
theorem takeWhile_eq_filter (h : l.Pairwise fun a b => P b → P a) : l.takeWhile P = l.filter P := by
  induction l with
  | nil => rfl
  | cons a l ih =>
    obtain ⟨hhead, htail⟩ := List.pairwise_cons.mp h
    by_cases ha : P a
    · rw [List.takeWhile_cons_of_pos ha, List.filter_cons_of_pos ha, ih htail]
    · have hnone : l.filter P = [] := List.filter_eq_nil_iff.mpr fun b hb hPb => ha (hhead b hb hPb)
      rw [List.takeWhile_cons_of_neg ha, List.filter_cons_of_neg ha, hnone]

/-- The other part of the list is what the condition does not hold of. -/
theorem dropWhile_eq_filter (h : l.Pairwise fun a b => P b → P a) :
    l.dropWhile P = l.filter fun a => !P a := by
  induction l with
  | nil => rfl
  | cons a l ih =>
    obtain ⟨hhead, htail⟩ := List.pairwise_cons.mp h
    by_cases ha : P a
    · rw [List.dropWhile_cons_of_pos ha, List.filter_cons_of_neg (by simp [ha]), ih htail]
    · have hall : ∀ b ∈ a :: l, (!P b) = true := by
        intro b hb
        rw [Bool.not_eq_true']
        rcases List.mem_cons.mp hb with rfl | hb
        · exact Bool.eq_false_iff.mpr ha
        · exact Bool.eq_false_iff.mpr fun hPb => ha (hhead b hb hPb)
      rw [List.dropWhile_cons_of_neg ha, List.filter_eq_self.mpr hall]

/-- **The first entry of a sorted list** is the one whose key is not above any other. -/
theorem head?_eq_some_iff_least {κ ν : Type} [Ord κ] [Std.OrientedOrd κ] {l : List (κ × ν)}
    (hl : l.Pairwise fun q r => compare q.1 r.1 = .lt) {q : κ × ν} :
    l.head? = some q ↔ q ∈ l ∧ ∀ r ∈ l, (compare q.1 r.1).isLE := by
  cases l with
  | nil => simp
  | cons a l =>
    have hhead := (List.pairwise_cons.mp hl).1
    rw [List.head?_cons, Option.some_inj]
    constructor
    · rintro rfl
      refine ⟨List.mem_cons_self, fun r hr => ?_⟩
      rcases List.mem_cons.mp hr with rfl | hr
      · rw [Std.ReflOrd.compare_self]
        rfl
      · rw [hhead r hr]
        rfl
    · rintro ⟨hq, hleast⟩
      rcases List.mem_cons.mp hq with rfl | hq
      · rfl
      · have hgt := Std.OrientedCmp.gt_of_lt (hhead q hq)
        have hle := hleast a List.mem_cons_self
        rw [hgt] at hle
        cases hle

end Sorted

end Rust
