import PlacementCenter.Storage.KeySpace
import PlacementCenter.Storage.PrefixList

/-!
# The shared column family

The log store and the services write to one column family. What they keep there is a registry: some
bytes for every record of the log store, and a value with its time for every record of a service.
The column family is this registry written down under the keys of the records, as long as no name
holds the separator of the keys.

## Main definitions

* `Registry`: what is kept for each record
* `SharedWrite`: the writes of the services and of the log store, and what they do to the registry
* `Represents m R`: the column family `m` is the registry `R`
* `Answers w R`: reads and searches on the world `w` give what the registry keeps

## Main results

* `Represents.write`: every write succeeds, and is one of the registry
* `Represents.answers`: what reads and searches give
* `answers_of_writes`: **the column family is a registry**, after any writes
-/

namespace PlacementCenter.Storage

open Rust Program

/-! ### The registry -/

/-- The records that share the column family. -/
inductive SharedKey where
  | record (r : Record)
  | service (k : PlainKey)
  deriving DecidableEq

def SharedKey.name : SharedKey → String
  | record r => r.name
  | service k => k.name

/-- **All keys of the column family are different.** -/
theorem SharedKey.name_injective : Function.Injective SharedKey.name := by
  intro k k' h
  cases k with
  | record r =>
    cases k' with
    | record r' => rw [Record.name_injective h]
    | service k' => exact absurd h.symm (k'.key.name_ne_record r)
  | service k =>
    cases k' with
    | record r' => exact absurd h (k.key.name_ne_record r')
    | service k' => rw [PlainKey.name_injective h]

/-- What is kept for each record. -/
structure Registry where
  records : Record → Option Bytes
  services : PlainKey → Option StorageDataWrap

namespace Registry

def empty : Registry := ⟨fun _ => none, fun _ => none⟩

def setRecord (R : Registry) (r : Record) (value : Option Bytes) : Registry :=
  { R with records := Function.update R.records r value }

def setService (R : Registry) (k : PlainKey) (data : Option StorageDataWrap) : Registry :=
  { R with services := Function.update R.services k data }

/-- What is stored for a record. -/
def bytesAt (R : Registry) : SharedKey → Option Bytes
  | .record r => R.records r
  | .service k => (R.services k).map recordBytes

end Registry

/-- A write to the column family: a call of a service on a record of its own, or some bytes that the
log store sets or removes. -/
inductive SharedWrite : Type 1 where
  | service (k : PlainKey) (call : EngineCall) (names : call.update.1 = k.name)
  | record (r : Record) (value : Option Bytes)

namespace SharedWrite

def run {σ : Type} [RocksDb σ] : SharedWrite → Program σ (Except RobustMQError Unit)
  | service _ call _ => call.run
  | record r (some v) => do
    return (← RocksDb.putCf dbColumnFamilyCluster r.key v).mapError .rocksdbError
  | record r none => do
    return (← RocksDb.deleteCf dbColumnFamilyCluster r.key).mapError .rocksdbError

def runAll {σ : Type} [RocksDb σ] (writes : List SharedWrite) :
    Program σ (List (Except RobustMQError Unit)) :=
  writes.mapM run

/-- What a write does to the registry. -/
def apply (R : Registry) : SharedWrite → Registry
  | service k call _ => R.setService k call.update.2
  | record r value => R.setRecord r value

/-- The record of a write, and what it stores there. -/
def stored : SharedWrite → SharedKey × Option Bytes
  | service k call _ => (.service k, call.update.2.map recordBytes)
  | record r value => (.record r, value)

theorem bytesAt_apply (R : Registry) (write : SharedWrite) :
    (write.apply R).bytesAt = Function.update R.bytesAt write.stored.1 write.stored.2 := by
  funext k
  cases write with
  | service k' call names =>
    cases k with
    | record r => rfl
    | service k =>
      by_cases hk : k = k'
      · subst hk
        simp [apply, stored, Registry.setService, Registry.bytesAt]
      · simp [apply, stored, Registry.setService, Registry.bytesAt, hk]
  | record r' value =>
    cases k with
    | record r =>
      by_cases hr : r = r'
      · subst hr
        simp [apply, stored, Registry.setRecord, Registry.bytesAt]
      · simp [apply, stored, Registry.setRecord, Registry.bytesAt, hr]
    | service k => rfl

end SharedWrite

/-- The column family holds what the registry keeps, and nothing else. -/
structure Represents (m : ColumnFamily) (R : Registry) : Prop where
  lookup : ∀ k : SharedKey, m[utf8 k.name]? = R.bytesAt k
  named : ∀ b ∈ m, ∃ k : SharedKey, b = utf8 k.name

/-- The values are those that the registry keeps for the records which the search leads to, in the
order of their keys. -/
def Registry.Lists (R : Registry) (s : Search) (records : List StorageDataWrap) : Prop :=
  ∃ entries : List (PlainKey × StorageDataWrap), records = entries.map Prod.snd ∧
    (entries.Pairwise fun a b => compare (utf8 a.1.name) (utf8 b.1.name) = .lt) ∧
    ∀ k d, (k, d) ∈ entries ↔ s.Finds k.key ∧ R.services k = some d

/-- Reads and searches give what the registry keeps. -/
structure Answers {ε : Type} (w : World ε) (R : Registry) : Prop where
  get : ∀ k : PlainKey, Completes (engineGetByCluster k.name) w (.ok (R.services k)) w
  list : ∀ s : Search, s.Plain → ∃ fuel records,
    Completes (enginePrefixListByCluster fuel s.name) w (some (.ok records)) w ∧ R.Lists s records
  record : ∀ r : Record,
    Completes (RocksDb.getCf dbColumnFamilyCluster r.key) w (.ok (R.records r)) w

/-! ### Writes -/

namespace Represents

variable {ε : Type} {m : ColumnFamily} {R : Registry} {w : World ε}

theorem empty : Represents ∅ .empty where
  lookup k := by cases k <;> simp [Registry.bytesAt, Registry.empty]
  named b hb := by simp at hb

/-- **An update of the column family** is one of the registry. -/
theorem update (h : Represents m R) (write : SharedWrite) :
    Represents (OrdMap.update m (utf8 write.stored.1.name, write.stored.2)) (write.apply R) := by
  constructor
  · intro k
    rw [write.bytesAt_apply]
    by_cases hk : k = write.stored.1
    · subst hk
      rw [Function.update_self]
      exact OrdMap.lookup_update_self m (utf8 write.stored.1.name, write.stored.2)
    · have hne : utf8 write.stored.1.name ≠ utf8 k.name := fun he =>
        hk (SharedKey.name_injective (utf8_injective he)).symm
      rw [Function.update_of_ne hk, ← h.lookup]
      exact OrdMap.lookup_update_ne m hne
  · intro b hb
    by_cases hk : utf8 write.stored.1.name = b
    · exact ⟨_, hk.symm⟩
    · refine h.named b (Std.ExtTreeMap.mem_iff_isSome_getElem?.mpr ?_)
      rw [← OrdMap.lookup_update_ne m (u := (utf8 write.stored.1.name, write.stored.2)) hk]
      exact Std.ExtTreeMap.mem_iff_isSome_getElem?.mp hb

/-- **Every write succeeds**, and is one of the registry. -/
theorem write (h : Represents (w.columns dbColumnFamilyCluster) R) (write : SharedWrite) :
    ∃ w', Completes write.run w (.ok ()) w' ∧
      Represents (w'.columns dbColumnFamilyCluster) (write.apply R) := by
  have step : ∃ w', Completes write.run w (.ok ()) w' ∧
      w'.columns dbColumnFamilyCluster = OrdMap.update (w.columns dbColumnFamilyCluster)
        (utf8 write.stored.1.name, write.stored.2) := by
    cases write with
    | service k call names =>
      obtain ⟨w', hrun, hcolumns⟩ := call.run_run w
      refine ⟨w', hrun, hcolumns.trans ?_⟩
      rw [EngineCall.stored, names]
      rfl
    | record r value =>
      cases value with
      | some v => exact ⟨_, rfl, World.columns_put_self _ _ _ _⟩
      | none => exact ⟨_, rfl, World.columns_delete_self _ _ _⟩
  obtain ⟨w', hrun, hcolumns⟩ := step
  exact ⟨w', hrun, hcolumns ▸ h.update write⟩

theorem writes (h : Represents (w.columns dbColumnFamilyCluster) R) (writes : List SharedWrite) :
    ∃ w', Completes (SharedWrite.runAll writes) w (writes.map fun _ => .ok ()) w' ∧
      Represents (w'.columns dbColumnFamilyCluster) (writes.foldl SharedWrite.apply R) := by
  induction writes generalizing w R with
  | nil => exact ⟨w, completes_pure.mpr ⟨rfl, rfl⟩, h⟩
  | cons write writes ih =>
    obtain ⟨w₁, hwrite, h₁⟩ := h.write write
    obtain ⟨w', hwrites, h'⟩ := ih h₁
    refine ⟨w', ?_, h'⟩
    rw [SharedWrite.runAll, List.mapM_cons]
    exact completes_bind.mpr ⟨.ok (), w₁, hwrite,
      completes_bind.mpr ⟨_, w', hwrites, completes_pure.mpr ⟨rfl, rfl⟩⟩⟩

/-! ### Reads and searches -/

theorem get (h : Represents (w.columns dbColumnFamilyCluster) R) (k : PlainKey) :
    Completes (engineGetByCluster k.name) w (.ok (R.services k)) w := by
  have hread : readIn StorageDataWrap (w.columns dbColumnFamilyCluster) k.name =
      .ok (R.services k) := by
    have hlookup : (w.columns dbColumnFamilyCluster)[utf8 k.name]? =
        (R.services k).map recordBytes := h.lookup (.service k)
    rw [readIn, hlookup]
    cases R.services k with
    | none => rfl
    | some d =>
      rw [Option.map_some]
      simp only [parseRecord_recordBytes]
      rfl
  rw [Completes, engineGetByCluster_run, hread]
  rfl

theorem isText (h : Represents m R) : ∀ b ∈ m, IsText b := by
  intro b hb
  obtain ⟨k, rfl⟩ := h.named b hb
  rw [IsText, fromUtf8_utf8]
  rfl

/-- What is stored under the prefix of a search are values of records that it leads to. -/
theorem mem_filter_starts (h : Represents m R) {s : Search} (hs : s.Plain) {q : Bytes × Bytes} :
    q ∈ m.toList.filter (RocksDBEngine.starts s.name) ↔
      ∃ k d, q = encodeEntry (PlainKey.name k, d) ∧ s.Finds k.key ∧ R.services k = some d := by
  rw [List.mem_filter, Std.ExtTreeMap.mem_toList_iff_getElem?_eq_some, RocksDBEngine.starts,
    List.isPrefixOf_iff_prefix]
  constructor
  · rintro ⟨hq, hstarts⟩
    have hmem : q.1 ∈ m := Std.ExtTreeMap.mem_iff_isSome_getElem?.mpr (by rw [hq]; rfl)
    obtain ⟨k, hk⟩ := h.named q.1 hmem
    rw [hk, h.lookup] at hq
    rw [hk, utf8_prefix_iff] at hstarts
    cases k with
    | record r => exact absurd hstarts (s.not_starts_record r)
    | service k =>
      obtain ⟨d, hd, hv⟩ := Option.map_eq_some_iff.mp hq
      exact ⟨k, d, Prod.ext hk hv.symm, (Search.starts_iff hs k).mp hstarts, hd⟩
  · rintro ⟨k, d, rfl, hfinds, hd⟩
    refine ⟨(h.lookup (.service k)).trans ?_, utf8_prefix_iff.mpr ?_⟩
    · rw [Registry.bytesAt, hd]
      rfl
    · exact (Search.starts_iff hs k).mpr hfinds

theorem list (h : Represents (w.columns dbColumnFamilyCluster) R) {s : Search} (hs : s.Plain) :
    ∃ fuel records, Completes (enginePrefixListByCluster fuel s.name) w (some (.ok records)) w ∧
      R.Lists s records := by
  -- the entries under the prefix, as records and values
  let encode : PlainKey × StorageDataWrap → Bytes × Bytes := fun e => encodeEntry (e.1.name, e.2)
  have hinjective : Function.Injective encode := fun e e' he => by
    obtain ⟨hname, hdata⟩ := Prod.mk.inj (encodeEntry_injective he)
    exact Prod.ext (PlainKey.name_injective hname) hdata
  obtain ⟨entries, hentries⟩ : (w.columns dbColumnFamilyCluster).toList.filter
      (RocksDBEngine.starts s.name) ∈ Set.range (List.map encode) := by
    rw [Set.range_list_map]
    intro q hq
    obtain ⟨k, d, rfl, -⟩ := (h.mem_filter_starts hs).mp hq
    exact ⟨(k, d), rfl⟩
  obtain ⟨fuel, hfuel⟩ := ends_of_texts s.name h.isText
  have hfound : recordsOf (RocksDBEngine.found (entries.map encode)) = entries.map Prod.snd := by
    have hmap := recordsOf_found (entries.map fun e => (e.1.name, e.2))
    rwa [List.map_map, List.map_map] at hmap
  rw [← hentries] at hfuel
  refine ⟨fuel, entries.map Prod.snd, ?_, entries, rfl, ?_, fun k d => ?_⟩
  · rw [Completes, enginePrefixListByCluster_run, hfuel, Option.map_some, hfound]
  · have hsorted := (w.columns dbColumnFamilyCluster).ordered_keys_toList.filter
      (RocksDBEngine.starts s.name)
    rw [← hentries, List.pairwise_map] at hsorted
    exact hsorted
  · rw [← List.mem_map_of_injective hinjective, hentries, h.mem_filter_starts hs]
    constructor
    · rintro ⟨k', d', he, hfinds, hd⟩
      obtain ⟨rfl, rfl⟩ := Prod.mk.inj (hinjective he)
      exact ⟨hfinds, hd⟩
    · rintro ⟨hfinds, hd⟩
      exact ⟨k, d, rfl, hfinds, hd⟩

/-- **What reads and searches give** is what the registry keeps. -/
theorem answers (h : Represents (w.columns dbColumnFamilyCluster) R) : Answers w R where
  get := h.get
  list _ hs := h.list hs
  record r := by
    rw [Completes, World.getCf_run]
    exact congrArg (fun o => (Outcome.ok (Except.ok o), w)) (h.lookup (.record r))

end Represents

/-- **The column family is a registry.** After any writes of the services and of the log store,
every one of which succeeds, a read gives what was last written for its record, and a search the
values of the records whose path goes on from its own. -/
theorem answers_of_writes {ε : Type} (writes : List SharedWrite) :
    ∃ w', Completes (SharedWrite.runAll writes) (World.empty : World ε)
        (writes.map fun _ => .ok ()) w' ∧
      Answers w' (writes.foldl SharedWrite.apply .empty) := by
  obtain ⟨w', hrun, h⟩ := Represents.empty.writes (w := (World.empty : World ε)) writes
  exact ⟨w', hrun, h.answers⟩

/-- A search for the records of all clusters leads to the nodes as well. -/
example : Search.clusters.Finds (.cluster "mqtt" "c1") ∧ Search.clusters.Finds (.node "c1" 7) := by
  decide

end PlacementCenter.Storage
