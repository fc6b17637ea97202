import PlacementCenter.Rust.Loops
import PlacementCenter.Rust.RawIterator
import PlacementCenter.Storage.RocksDBEngine

/-!
# Searching by prefix

The search moves a raw iterator to the prefix and collects the entries from there, up to the first
key that does not start with the prefix. A key that is not text is passed over without moving the
iterator, so a search that comes to one never returns.

The iterator visits the whole family in the order of the bytes. The prefix extractor and the bloom
filter of the memtables that `open_db_opts` sets, under which a seek may pass over keys of another
prefix, are left out.

## Main definitions

* `RocksDBEngine.readPrefix`: the search, for some turns of its loop
* `ReadPrefixReturns w cf searchKey`: the search returns
* `ScanIsText m searchKey`: the keys the search comes to are texts

## Main results

* `RocksDBEngine.halts_iff`: the loop ends when the entries it comes to have texts as keys
* `RocksDBEngine.ends_of_isText`: what it ends with
* `readPrefixReturns_iff`: when the search returns
-/

namespace PlacementCenter.Storage

open Rust

namespace RocksDBEngine

/-- What the loop of `readPrefix` changes. -/
structure PrefixSearch where
  iter : RawIterator
  result : List (HashMap String Bytes)

/-- A turn of the loop of `readPrefix`. -/
def readPrefixTurn (searchKey : String) (s : PrefixSearch) :
    Turn PrefixSearch (List (HashMap String Bytes)) :=
  if s.iter.valid then
    match s.iter.key, s.iter.value with
    | some key, some value =>
      match fromUtf8 key with
      | some resultKey =>
        if startsWith resultKey searchKey then
          .again ⟨s.iter.next, s.result ++ [(∅ : HashMap String Bytes).insert resultKey value]⟩
        else .leave s.result
      -- `continue`, before the call of `next`
      | none => .again s
    | _, _ => .again s
  else .leave s.result

/-- Search data by prefix, for at most `fuel` turns of the loop. -/
def readPrefix {σ : Type} [RocksDb σ] (fuel : ℕ) (cf searchKey : String) :
    Program σ (Option (List (HashMap String Bytes))) := do
  let iter := RawIterator.seek (← RocksDb.iterate cf) (utf8 searchKey)
  return turns (readPrefixTurn searchKey) fuel ⟨iter, []⟩

end RocksDBEngine

variable {ε : Type}

/-- The search by the prefix `searchKey` returns. -/
def ReadPrefixReturns (w : World ε) (cf searchKey : String) : Prop :=
  ∃ fuel result, Program.Completes (RocksDBEngine.readPrefix fuel cf searchKey) w (some result) w

def IsText (b : Bytes) : Prop := (fromUtf8 b).isSome

/-- The key `k` is above the prefix `p` and does not start with it. -/
def Past (p k : Bytes) : Prop := (compare p k).isLE ∧ ¬ p <+: k

/-- The keys that start with the search key are texts, and so is the least of those past it. -/
def ScanIsText (m : ColumnFamily) (searchKey : String) : Prop :=
  (∀ k ∈ m, utf8 searchKey <+: k → IsText k) ∧
    ∀ k ∈ m, Past (utf8 searchKey) k →
      (∀ k' ∈ m, Past (utf8 searchKey) k' → (compare k k').isLE) → IsText k

/-! ### The loop -/

namespace RocksDBEngine

variable {searchKey : String} {q : Bytes × Bytes} {rest : List (Bytes × Bytes)}
  {result : List (HashMap String Bytes)} {k : String}

/-- The key of an entry starts with the search key. -/
def starts (searchKey : String) (q : Bytes × Bytes) : Bool := (utf8 searchKey).isPrefixOf q.1

/-- The entries that the loop comes to. -/
def reached (searchKey : String) (rest : List (Bytes × Bytes)) : List (Bytes × Bytes) :=
  rest.takeWhile (starts searchKey) ++ (rest.dropWhile (starts searchKey)).head?.toList

/-- The entries in the form in which the search returns them. -/
def found (pairs : List (Bytes × Bytes)) : List (HashMap String Bytes) :=
  pairs.filterMap fun q =>
    (fromUtf8 q.1).map fun k => (∅ : HashMap String Bytes).insert k q.2

theorem found_cons (hk : fromUtf8 q.1 = some k) :
    found (q :: rest) = (∅ : HashMap String Bytes).insert k q.2 :: found rest := by
  rw [found, List.filterMap_cons, hk]
  rfl

theorem startsWith_eq (hk : fromUtf8 q.1 = some k) :
    startsWith k searchKey = starts searchKey q := by
  rw [startsWith, starts, fromUtf8_eq_some.mp hk]

theorem readPrefixTurn_nil :
    readPrefixTurn searchKey ⟨⟨[]⟩, result⟩ = .leave result := rfl

/-- A key that is not text leaves the iterator where it is. -/
theorem readPrefixTurn_of_not_text (hk : fromUtf8 q.1 = none) :
    readPrefixTurn searchKey ⟨⟨q :: rest⟩, result⟩ = .again ⟨⟨q :: rest⟩, result⟩ := by
  simp [readPrefixTurn, RawIterator.valid, RawIterator.key, RawIterator.value, hk]

theorem readPrefixTurn_of_starts (hk : fromUtf8 q.1 = some k) (hs : starts searchKey q = true) :
    readPrefixTurn searchKey ⟨⟨q :: rest⟩, result⟩ =
      .again ⟨⟨rest⟩, result ++ [(∅ : HashMap String Bytes).insert k q.2]⟩ := by
  rw [← startsWith_eq hk] at hs
  simp [readPrefixTurn, RawIterator.valid, RawIterator.key, RawIterator.value, RawIterator.next,
    hk, hs]

theorem readPrefixTurn_of_past (hk : fromUtf8 q.1 = some k) (hs : starts searchKey q = false) :
    readPrefixTurn searchKey ⟨⟨q :: rest⟩, result⟩ = .leave result := by
  rw [← startsWith_eq hk] at hs
  simp [readPrefixTurn, RawIterator.valid, RawIterator.key, RawIterator.value, hk, hs]

/-- The loop comes to the entry under the iterator. -/
theorem mem_reached_self : q ∈ reached searchKey (q :: rest) := by
  cases hs : starts searchKey q with
  | true => simp [reached, hs]
  | false => simp [reached, hs]

/-- The entries the loop comes to, when the first of them starts with the search key. -/
theorem reached_cons (hs : starts searchKey q = true) :
    reached searchKey (q :: rest) = q :: reached searchKey rest := by
  simp [reached, hs]

/-- **The loop ends** when the entries it comes to have texts as keys. -/
theorem halts_iff : Halts (readPrefixTurn searchKey) ⟨⟨rest⟩, result⟩ ↔
    ∀ q ∈ reached searchKey rest, IsText q.1 := by
  induction rest generalizing result with
  | nil => exact iff_of_true (ends_of_leave readPrefixTurn_nil).halts (by simp [reached])
  | cons q rest ih =>
    cases hk : fromUtf8 q.1 with
    | none =>
      refine iff_of_false (not_halts_of_stuck (readPrefixTurn_of_not_text hk)) fun h => ?_
      have htext := h q mem_reached_self
      rw [IsText, hk] at htext
      cases htext
    | some k =>
      have htext : IsText q.1 := by
        rw [IsText, hk]
        rfl
      cases hs : starts searchKey q with
      | true =>
        rw [halts_iff_of_again (readPrefixTurn_of_starts hk hs), ih, reached_cons hs,
          List.forall_mem_cons, and_iff_right htext]
      | false =>
        refine iff_of_true (ends_of_leave (readPrefixTurn_of_past hk hs)).halts fun r hr => ?_
        obtain rfl : r = q := by simpa [reached, hs] using hr
        exact htext

/-- **The loop ends with** the entries up to the first key that does not start with the search
key. -/
theorem ends_of_isText (h : ∀ q ∈ reached searchKey rest, IsText q.1) :
    Ends (readPrefixTurn searchKey) ⟨⟨rest⟩, result⟩
      (result ++ found (rest.takeWhile (starts searchKey))) := by
  induction rest generalizing result with
  | nil =>
    rw [List.takeWhile_nil, found, List.filterMap_nil, List.append_nil]
    exact ends_of_leave readPrefixTurn_nil
  | cons q rest ih =>
    obtain ⟨k, hk⟩ := Option.isSome_iff_exists.mp (h q mem_reached_self)
    cases hs : starts searchKey q with
    | true =>
      rw [reached_cons hs, List.forall_mem_cons] at h
      rw [ends_iff_of_again (readPrefixTurn_of_starts hk hs), List.takeWhile_cons_of_pos hs,
        found_cons hk, List.append_cons result _ (found _)]
      exact ih h.2
    | false =>
      rw [List.takeWhile_cons_of_neg (by simp [hs]), found, List.filterMap_nil, List.append_nil]
      exact ends_of_leave (readPrefixTurn_of_past hk hs)

/-- A turn that goes on adds at most a key that starts with the search key. -/
theorem readPrefixTurn_eq_again {s t : PrefixSearch} (h : readPrefixTurn searchKey s = .again t) :
    t = s ∨ ∃ k v, startsWith k searchKey ∧
      t = ⟨s.iter.next, s.result ++ [(∅ : HashMap String Bytes).insert k v]⟩ := by
  unfold readPrefixTurn at h
  split at h
  · split at h
    · split at h
      · split_ifs at h with hs
        cases h
        exact .inr ⟨_, _, hs, rfl⟩
      · cases h
        exact .inl rfl
    · cases h
      exact .inl rfl
  · cases h

theorem readPrefixTurn_eq_leave {s : PrefixSearch}
    (h : readPrefixTurn searchKey s = .leave result) :
    result = s.result := by
  unfold readPrefixTurn at h
  split at h
  · split at h
    · split at h
      · split_ifs at h
        cases h
        rfl
      · cases h
    · cases h
  · cases h
    rfl

/-- The keys of the entries start with the search key. -/
def OnlyStarts (searchKey : String) (result : List (HashMap String Bytes)) : Prop :=
  ∀ raw ∈ result, ∀ k ∈ raw, startsWith k searchKey

/-- **The search returns no key outside the prefix.** -/
theorem onlyStarts_of_ends {iter : RawIterator}
    (h : Ends (readPrefixTurn searchKey) ⟨iter, []⟩ result) : OnlyStarts searchKey result := by
  refine h.of_invariant (I := fun s => OnlyStarts searchKey s.result)
    (R := OnlyStarts searchKey) (fun s t hs hturn => ?_) (fun s r hs hturn => ?_)
    (fun _ hraw => by cases hraw)
  · rcases readPrefixTurn_eq_again hturn with rfl | ⟨k, v, hk, rfl⟩
    · exact hs
    · intro raw hraw k' hk'
      rcases List.mem_append.mp hraw with hraw | hraw
      · exact hs raw hraw k' hk'
      · obtain rfl := List.mem_singleton.mp hraw
        obtain rfl : k = k' := by simpa using hk'
        exact hk
  · rw [readPrefixTurn_eq_leave hturn]
    exact hs

end RocksDBEngine

/-! ### The entries the loop comes to -/

section Seek

variable {m : ColumnFamily} {p : Bytes} {q : Bytes × Bytes}

theorem forall_mem_toList {P : Bytes → Prop} : (∀ q ∈ m.toList, P q.1) ↔ ∀ k ∈ m, P k := by
  constructor
  · intro h k hk
    obtain ⟨v, hv⟩ := Option.isSome_iff_exists.mp (Std.ExtTreeMap.mem_iff_isSome_getElem?.mp hk)
    exact h (k, v) (Std.ExtTreeMap.mem_toList_iff_getElem?_eq_some.mpr hv)
  · intro h q hq
    refine h q.1 (Std.ExtTreeMap.mem_iff_isSome_getElem?.mpr ?_)
    rw [Std.ExtTreeMap.mem_toList_iff_getElem?_eq_some.mp hq]
    rfl

/-- The seek leaves the entries whose keys are not below the prefix. -/
theorem seek_rest : (RawIterator.seek m.toList p).rest =
    m.toList.filter fun q => (compare p q.1).isLE := by
  rw [RawIterator.seek, dropWhile_eq_filter]
  · refine List.filter_congr fun q _ => ?_
    rw [Std.OrientedOrd.eq_swap (a := p)]
    cases compare q.1 p <;> rfl
  · refine m.ordered_keys_toList.imp fun {a b} hab hb => ?_
    rw [Ordering.isLT_iff_eq_lt] at hb ⊢
    exact Std.TransCmp.lt_trans hab hb

variable {searchKey : String}

open RocksDBEngine

/-- The entries that start with the prefix come first. -/
theorem seek_pairwise : (RawIterator.seek m.toList (utf8 searchKey)).rest.Pairwise
    fun a b => starts searchKey b → starts searchKey a := by
  rw [seek_rest]
  refine (m.ordered_keys_toList.filter _).imp_of_mem fun {a b} ha _ hab hb => ?_
  have hle : (compare a.1 b.1).isLE := by
    rw [hab]
    rfl
  rw [starts, List.isPrefixOf_iff_prefix] at hb ⊢
  exact prefix_of_between (List.mem_filter.mp ha).2 hle hb

/-- **The entries that start with the prefix** are those from the seek to the first that does
not. -/
theorem takeWhile_seek :
    (RawIterator.seek m.toList (utf8 searchKey)).rest.takeWhile (starts searchKey) =
      m.toList.filter (starts searchKey) := by
  rw [takeWhile_eq_filter seek_pairwise, seek_rest, List.filter_filter]
  refine List.filter_congr fun q _ => ?_
  cases hs : starts searchKey q with
  | true =>
    rw [starts, List.isPrefixOf_iff_prefix] at hs
    rw [isLE_of_isPrefix hs, Bool.and_self]
  | false => rw [Bool.false_and]

theorem mem_takeWhile_seek :
    q ∈ (RawIterator.seek m.toList (utf8 searchKey)).rest.takeWhile (starts searchKey) ↔
      q ∈ m.toList ∧ utf8 searchKey <+: q.1 := by
  rw [takeWhile_seek, List.mem_filter, starts, List.isPrefixOf_iff_prefix]

theorem mem_dropWhile_seek :
    q ∈ (RawIterator.seek m.toList (utf8 searchKey)).rest.dropWhile (starts searchKey) ↔
      q ∈ m.toList ∧ Past (utf8 searchKey) q.1 := by
  rw [dropWhile_eq_filter seek_pairwise, seek_rest, List.mem_filter, List.mem_filter,
    starts, Bool.not_eq_true', ← Bool.not_eq_true, List.isPrefixOf_iff_prefix, and_assoc, Past]

/-- **The loop comes to** the entries that start with the prefix, and to the least past it. -/
theorem mem_reached_seek :
    q ∈ reached searchKey (RawIterator.seek m.toList (utf8 searchKey)).rest ↔
      q ∈ m.toList ∧ (utf8 searchKey <+: q.1 ∨ Past (utf8 searchKey) q.1 ∧
        ∀ r ∈ m.toList, Past (utf8 searchKey) r.1 → (compare q.1 r.1).isLE) := by
  have hsorted : ((RawIterator.seek m.toList (utf8 searchKey)).rest.dropWhile
      (starts searchKey)).Pairwise fun a b => compare a.1 b.1 = .lt := by
    rw [dropWhile_eq_filter seek_pairwise, seek_rest]
    exact (m.ordered_keys_toList.filter _).filter _
  rw [reached, List.mem_append, Option.mem_toList, head?_eq_some_iff_least hsorted,
    mem_takeWhile_seek, mem_dropWhile_seek, and_or_left]
  simp only [mem_dropWhile_seek, and_imp, and_assoc]

variable (searchKey) in
/-- **Where all keys are texts**, the search ends with the entries that start with the prefix. -/
theorem ends_of_texts (h : ∀ k ∈ m, IsText k) :
    Ends (readPrefixTurn searchKey) ⟨RawIterator.seek m.toList (utf8 searchKey), []⟩
      (found (m.toList.filter (starts searchKey))) := by
  rw [← takeWhile_seek]
  refine ends_of_isText fun q hq => ?_
  exact forall_mem_toList.mpr h q (mem_reached_seek.mp hq).1

end Seek

variable (w : World ε) (cf searchKey : String)

/-- A search reads the column family and runs its loop. -/
theorem readPrefix_run (fuel : ℕ) :
    RocksDBEngine.readPrefix fuel cf searchKey w =
      (.ok (turns (RocksDBEngine.readPrefixTurn searchKey) fuel
        ⟨RawIterator.seek (w.columns cf).toList (utf8 searchKey), []⟩), w) := rfl

theorem readPrefixReturns_iff_halts : ReadPrefixReturns w cf searchKey ↔
    Halts (RocksDBEngine.readPrefixTurn searchKey)
      ⟨RawIterator.seek (w.columns cf).toList (utf8 searchKey), []⟩ := by
  rw [ReadPrefixReturns, exists_comm]
  refine exists_congr fun result => exists_congr fun fuel => ?_
  rw [Program.Completes, readPrefix_run, Prod.mk.injEq, Outcome.ok.injEq, and_iff_left rfl]

/-- **The search returns** when every key that starts with the prefix is text, and so is the least
key past it. -/
theorem readPrefixReturns_iff :
    ReadPrefixReturns w cf searchKey ↔ ScanIsText (w.columns cf) searchKey := by
  rw [readPrefixReturns_iff_halts, RocksDBEngine.halts_iff]
  simp only [mem_reached_seek]
  constructor
  · intro h
    refine ⟨forall_mem_toList.mp fun q hq hs => h q ⟨hq, .inl hs⟩,
      forall_mem_toList.mp fun q hq hpast hleast => h q ⟨hq, .inr ⟨hpast, ?_⟩⟩⟩
    exact forall_mem_toList.mpr hleast
  · rintro ⟨htexts, hfirst⟩ q ⟨hq, hs | ⟨hpast, hleast⟩⟩
    · exact forall_mem_toList.mpr htexts q hq hs
    · exact forall_mem_toList.mpr hfirst q hq hpast (forall_mem_toList.mp hleast)

/-- One key that is not text, past the prefix: the search never returns. -/
theorem readPrefix_stuck :
    ¬ ReadPrefixReturns ((World.empty : World Unit).put "cluster" [255] [1]) "cluster" "/v1" := by
  have hrest : RawIterator.seek
      (((World.empty : World Unit).put "cluster" [255] [1]).columns "cluster").toList (utf8 "/v1") =
      ⟨[([255], [1])]⟩ := by
    rw [World.columns_put_self]
    exact congrArg (fun l => RawIterator.seek l (utf8 "/v1")) (OrdMap.toList_singleton [255] [1])
  rw [readPrefixReturns_iff_halts, hrest]
  exact not_halts_of_stuck (RocksDBEngine.readPrefixTurn_of_not_text (by decide +kernel))

end PlacementCenter.Storage
