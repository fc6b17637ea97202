import Mathlib.Data.List.Basic
import Mathlib.Data.Set.List
import PlacementCenter.Storage.Engine
import PlacementCenter.Storage.PrefixScan

/-!
# Listing records by prefix

The records of services under the keys that start with a prefix, in the order of the keys. A value
that is not a record is passed over, and so is what comes after the first key outside the prefix;
over a column family that only services write, nothing is lost by either.

## Main definitions

* `enginePrefixListByCluster`: the listing, for some turns of the search
* `EngineCall`: the calls by which services write their records
* `LastSave calls keyName d`: the last call on the key saves the record `d`
* `ListsSaved calls p records`: the records are the last saved ones under the prefix `p`

## Main results

* `EngineCall.runAll_run`: what is stored after some calls
* `enginePrefixListByCluster_lists`: the listing after any calls
-/

namespace PlacementCenter.Storage

open Rust Program

section Listing

variable {σ : Type} [RocksDb σ]

/-- The records among the values of some entries. -/
def recordsOf (dataList : List (HashMap String Bytes)) : List StorageDataWrap :=
  dataList.flatMap fun raw => raw.toList.filterMap fun q => SerdeJson.fromSlice q.2

def enginePrefixList (fuel : ℕ) (rocksdbCluster prefixKeyName : String) :
    Program σ (Option (Except RobustMQError (List StorageDataWrap))) := do
  match clusterHandle rocksdbCluster with
  | .error e => return some (.error e)
  | .ok cf =>
    let dataList ← RocksDBEngine.readPrefix fuel cf prefixKeyName
    return dataList.map fun dataList => .ok (recordsOf dataList)

def enginePrefixListByCluster (fuel : ℕ) (prefixKeyName : String) :
    Program σ (Option (Except RobustMQError (List StorageDataWrap))) :=
  enginePrefixList fuel dbColumnFamilyCluster prefixKeyName

/-- The listing of a world is the search, read as records. -/
theorem enginePrefixListByCluster_run {ε : Type} (w : World ε) (fuel : ℕ) (p : String) :
    enginePrefixListByCluster fuel p w =
      (.ok ((turns (RocksDBEngine.readPrefixTurn p) fuel
        ⟨RawIterator.seek (w.columns dbColumnFamilyCluster).toList (utf8 p), []⟩).map fun l =>
          .ok (recordsOf l)), w) := rfl

end Listing

/-! ### Histories -/

/-- The calls by which services write their records: a save is of a value that is written as the
bytes `content`, at the time `now`. -/
inductive EngineCall : Type 1 where
  | save {α : Type} [Serialize α] (now : UInt64) (keyName : String) (value : α) (content : Bytes)
      (written : Serialize.toVec value = .ok content)
  | delete (keyName : String)

namespace EngineCall

def run {σ : Type} [RocksDb σ] : EngineCall → Program σ (Except RobustMQError Unit)
  | save now keyName value _ _ => engineSaveByCluster now keyName value
  | delete keyName => engineDeleteByCluster keyName

/-- Some calls, one after the other. -/
def runAll {σ : Type} [RocksDb σ] (calls : List EngineCall) :
    Program σ (List (Except RobustMQError Unit)) :=
  calls.mapM run

/-- The key of a call, and the record it leaves there. -/
def update : EngineCall → String × Option StorageDataWrap
  | save now keyName _ content _ => (keyName, some (StorageDataWrap.new now content))
  | delete keyName => (keyName, none)

/-- What a call does to the column family. -/
def stored (c : EngineCall) : Bytes × Option Bytes :=
  (utf8 c.update.1, c.update.2.map recordBytes)

end EngineCall

/-- The last call on the key saves the record. -/
def LastSave (calls : List EngineCall) (keyName : String) (d : StorageDataWrap) : Prop :=
  ∃ pre c post, calls = pre ++ c :: post ∧ c.update = (keyName, some d) ∧
    ∀ c' ∈ post, c'.update.1 ≠ keyName

/-- The records are the last saved ones of the keys that start with `p`, one for each key, in the
order of the bytes of the keys. -/
def ListsSaved (calls : List EngineCall) (p : String) (records : List StorageDataWrap) : Prop :=
  ∃ entries : List (String × StorageDataWrap), records = entries.map Prod.snd ∧
    (entries.Pairwise fun a b => compare (utf8 a.1) (utf8 b.1) = .lt) ∧
    ∀ keyName d, (keyName, d) ∈ entries ↔ (∃ t, keyName = p ++ t) ∧ LastSave calls keyName d

/-! ### What the calls store -/

section Stored

variable {ε : Type} {calls : List EngineCall}

theorem EngineCall.run_run (c : EngineCall) (w : World ε) :
    ∃ w', Completes c.run w (.ok ()) w' ∧
      w'.columns dbColumnFamilyCluster =
        OrdMap.update (w.columns dbColumnFamilyCluster) c.stored := by
  cases c with
  | save now keyName value content written =>
    exact ⟨_, engineSaveByCluster_run_of_toVec w keyName now written,
      World.columns_put_self _ _ _ _⟩
  | delete keyName =>
    exact ⟨_, engineDeleteByCluster_run w keyName, World.columns_delete_self _ _ _⟩

/-- **Every call succeeds**, and updates its key. -/
theorem EngineCall.runAll_run (calls : List EngineCall) (w : World ε) :
    ∃ w', Completes (EngineCall.runAll calls) w (calls.map fun _ => .ok ()) w' ∧
      w'.columns dbColumnFamilyCluster =
        OrdMap.updates (w.columns dbColumnFamilyCluster) (calls.map EngineCall.stored) := by
  induction calls generalizing w with
  | nil => exact ⟨w, completes_pure.mpr ⟨rfl, rfl⟩, rfl⟩
  | cons c calls ih =>
    obtain ⟨w₁, hc, hw₁⟩ := c.run_run w
    obtain ⟨w', hcs, hw'⟩ := ih w₁
    refine ⟨w', ?_, ?_⟩
    · rw [EngineCall.runAll, List.mapM_cons]
      exact completes_bind.mpr ⟨.ok (), w₁, hc,
        completes_bind.mpr ⟨_, w', hcs, completes_pure.mpr ⟨rfl, rfl⟩⟩⟩
    · rw [hw', hw₁]
      rfl

/-- What is stored after some calls is the last saved record of each key. -/
theorem lookup_stored {k v : Bytes} :
    (OrdMap.updates (∅ : ColumnFamily) (calls.map EngineCall.stored))[k]? = some v ↔
      ∃ keyName d, k = utf8 keyName ∧ v = recordBytes d ∧ LastSave calls keyName d := by
  have last : (OrdMap.updates (∅ : ColumnFamily) (calls.map EngineCall.stored))[k]? = some v ↔
      OrdMap.lastUpdate (calls.map EngineCall.stored) k = some (some v) := by
    rw [OrdMap.lookup_updates]
    rcases OrdMap.lastUpdate (calls.map EngineCall.stored) k with _ | _ | _ <;> simp
  rw [last, OrdMap.lastUpdate_eq_some]
  constructor
  · rintro ⟨us, vs, hus, hne⟩
    obtain ⟨pre, rest, rfl, rfl, hrest⟩ := List.map_eq_append_iff.mp hus
    obtain ⟨c, post, rfl, hc, rfl⟩ := List.map_eq_cons_iff.mp hrest
    obtain ⟨hk, hv⟩ := Prod.mk.inj hc
    obtain ⟨d, hd, rfl⟩ := Option.map_eq_some_iff.mp hv
    refine ⟨c.update.1, d, hk.symm, rfl, pre, c, post, rfl, Prod.ext rfl hd, fun c' hc' he => ?_⟩
    refine hne _ (List.mem_map_of_mem hc') ?_
    rw [← hk, ← he]
    rfl
  · rintro ⟨keyName, d, rfl, rfl, pre, c, post, rfl, hc, hpost⟩
    refine ⟨pre.map EngineCall.stored, post.map EngineCall.stored, ?_, fun u hu he => ?_⟩
    · rw [List.map_append, List.map_cons, EngineCall.stored, hc]
      rfl
    · obtain ⟨c', hc', rfl⟩ := List.mem_map.mp hu
      exact hpost c' hc' (utf8_injective he)

end Stored

/-! ### What the listing finds -/

section Entries

/-- A record as it is stored under its key. -/
def encodeEntry (e : String × StorageDataWrap) : Bytes × Bytes := (utf8 e.1, recordBytes e.2)

theorem encodeEntry_injective : Function.Injective encodeEntry := fun _ _ h =>
  Prod.ext (utf8_injective (congrArg Prod.fst h)) (SerdeJson.toVec_injective (congrArg Prod.snd h))

theorem recordsOf_cons (k : String) {v : Bytes} {d : StorageDataWrap}
    (hv : SerdeJson.fromSlice v = some d) (dataList : List (HashMap String Bytes)) :
    recordsOf ((∅ : HashMap String Bytes).insert k v :: dataList) = d :: recordsOf dataList := by
  rw [recordsOf, List.flatMap_cons, OrdMap.toList_singleton, List.filterMap_cons, hv]
  rfl

/-- **Every stored record is found and read back.** -/
theorem recordsOf_found (entries : List (String × StorageDataWrap)) :
    recordsOf (RocksDBEngine.found (entries.map encodeEntry)) = entries.map Prod.snd := by
  induction entries with
  | nil => rfl
  | cons e entries ih =>
    have hread : SerdeJson.fromSlice (encodeEntry e).2 = some e.2 := SerdeJson.fromSlice_toVec e.2
    rw [List.map_cons, RocksDBEngine.found_cons (fromUtf8_utf8 e.1), recordsOf_cons e.1 hread, ih,
      List.map_cons]

variable {ε : Type} {calls : List EngineCall} {q : Bytes × Bytes}

/-- What is stored are records under texts. -/
theorem mem_toList_stored :
    q ∈ (OrdMap.updates (∅ : ColumnFamily) (calls.map EngineCall.stored)).toList ↔
      ∃ e, q = encodeEntry e ∧ LastSave calls e.1 e.2 := by
  rw [Std.ExtTreeMap.mem_toList_iff_getElem?_eq_some, lookup_stored]
  constructor
  · rintro ⟨keyName, d, hk, hv, hlast⟩
    exact ⟨(keyName, d), Prod.ext hk hv, hlast⟩
  · rintro ⟨e, rfl, hlast⟩
    exact ⟨e.1, e.2, rfl, rfl, hlast⟩

/-- **The listing, after any calls** of services: every call succeeds, and the listing by a prefix
returns the last saved records of the keys that start with it, each once, in the order of the
keys. -/
theorem enginePrefixListByCluster_lists {w : World ε}
    (hw : w.columns dbColumnFamilyCluster = ∅) (calls : List EngineCall) (p : String) :
    ∃ w', Completes (EngineCall.runAll calls) w (calls.map fun _ => .ok ()) w' ∧
      ∃ fuel records, Completes (enginePrefixListByCluster fuel p) w' (some (.ok records)) w' ∧
        ListsSaved calls p records := by
  obtain ⟨w', hrun, hcolumns⟩ := EngineCall.runAll_run calls w
  rw [hw] at hcolumns
  have htexts : ∀ k ∈ w'.columns dbColumnFamilyCluster, IsText k := by
    refine forall_mem_toList.mp fun q hq => ?_
    rw [hcolumns] at hq
    obtain ⟨e, rfl, -⟩ := mem_toList_stored.mp hq
    rw [IsText, encodeEntry, fromUtf8_utf8]
    rfl
  -- the entries under the prefix, as keys and records
  obtain ⟨entries, hentries⟩ : (w'.columns dbColumnFamilyCluster).toList.filter
      (RocksDBEngine.starts p) ∈ Set.range (List.map encodeEntry) := by
    rw [Set.range_list_map, hcolumns]
    intro q hq
    obtain ⟨e, rfl, -⟩ := mem_toList_stored.mp (List.mem_filter.mp hq).1
    exact ⟨e, rfl⟩
  obtain ⟨fuel, hfuel⟩ := ends_of_texts p htexts
  rw [← hentries] at hfuel
  refine ⟨w', hrun, fuel, entries.map Prod.snd, ?_, entries, rfl, ?_, fun keyName d => ?_⟩
  · rw [Completes, enginePrefixListByCluster_run, hfuel, Option.map_some, recordsOf_found]
  · have hsorted := ((w'.columns dbColumnFamilyCluster).ordered_keys_toList.filter
      (RocksDBEngine.starts p))
    rw [← hentries, List.pairwise_map] at hsorted
    exact hsorted
  · rw [← List.mem_map_of_injective encodeEntry_injective, hentries, hcolumns, List.mem_filter,
      mem_toList_stored, RocksDBEngine.starts, List.isPrefixOf_iff_prefix, encodeEntry,
      utf8_prefix_iff, and_comm]
    refine and_congr_right fun _ => ⟨?_, fun h => ⟨(keyName, d), rfl, h⟩⟩
    rintro ⟨e, he, hlast⟩
    obtain rfl := encodeEntry_injective he
    exact hlast

/-- A history with a deleted key, a key saved twice, a key past the prefix, and characters of two
bytes. -/
def userCalls : List EngineCall :=
  [.save 1 "/mqtt/user/ä/b" "x" _ rfl, .save 2 "/mqtt/user/ä/a" true _ rfl,
    .save 3 "/mqtt/user/é" "y" _ rfl, .save 4 "/mqtt/user/ä/b" "z" _ rfl,
    .save 5 "/mqtt/user/ä/c" "x" _ rfl, .delete "/mqtt/user/ä/c"]

theorem enginePrefixListByCluster_lists_users :
    ∃ w', Completes (EngineCall.runAll userCalls) (World.empty : World Empty)
        (userCalls.map fun _ => .ok ()) w' ∧
      ∃ fuel records, Completes (enginePrefixListByCluster fuel "/mqtt/user/ä") w'
        (some (.ok records)) w' ∧ ListsSaved userCalls "/mqtt/user/ä" records :=
  enginePrefixListByCluster_lists (w := (World.empty : World Empty)) rfl _ _

end Entries

end PlacementCenter.Storage
