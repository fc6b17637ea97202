import PlacementCenter.Storage.ClientKeys

/-!
# Histories of the key-value storage

`KvStorage` over a column family that no one else writes is a map from texts to texts. Its `exists`
asks the library whether a key may exist, which is another question than whether `get` finds it.

## Main definitions

* `KvCall`, `KvReply`: the calls of `KvStorage` and what they return
* `KvCall.runAll`: some calls, one after the other
* `Shows m w`: `get` finds in the world `w` what the map `m` holds
* `KvCall.LastSet calls key value`: the last write of the key sets it to the value
* `ExistsAgrees`: `exists` is true exactly when `get` finds a value

## Main results

* `Shows.run`: one call does what it does on the map
* `KvCall.runAll_answers`: every `get` returns the value of the last write of its key
* `existsAgrees_iff`: `exists` agrees with `get` exactly on the keys that are set
-/

namespace PlacementCenter.Storage

open Rust Program

/-- The calls of `KvStorage`; the time is the one the call is made at. -/
inductive KvCall where
  | set (now : UInt64) (key value : String)
  | delete (key : String)
  | get (key : String)
  deriving DecidableEq

/-- What a call returns: a write has no value. -/
inductive KvReply where
  | written (result : Except RobustMQError Unit)
  | found (result : Except RobustMQError (Option String))

namespace KvCall

def run {σ : Type} [RocksDb σ] : KvCall → Program σ KvReply
  | set now key value => return .written (← KvStorage.set now key value)
  | delete key => return .written (← KvStorage.delete key)
  | get key => return .found (← KvStorage.get key)

/-- Some calls, one after the other. -/
def runAll {σ : Type} [RocksDb σ] (calls : List KvCall) : Program σ (List KvReply) :=
  calls.mapM run

/-- What a call does to a map. -/
def update : KvCall → Option (String × Option String)
  | set _ key value => some (key, some value)
  | delete key => some (key, none)
  | get _ => none

/-- The call sets or deletes the key. -/
def Writes (key : String) (call : KvCall) : Prop := ∃ o, call.update = some (key, o)

/-- The last write of the key sets it to the value. -/
def LastSet (calls : List KvCall) (key value : String) : Prop :=
  ∃ pre now post, calls = pre ++ set now key value :: post ∧ ∀ c ∈ post, ¬ c.Writes key

/-- What a call returns after the calls `before`: a write succeeds, and a read finds the value of
the last write of its key, or nothing. -/
def Answers (before : List KvCall) : KvCall → KvReply → Prop
  | get key, reply => ∃ o, reply = .found (.ok o) ∧ ∀ v, o = some v ↔ LastSet before key v
  | _, reply => reply = .written (.ok ())

/-- The map after some calls. -/
def mapOf (calls : List KvCall) : OrdMap String String :=
  OrdMap.updates ∅ (calls.filterMap update)

theorem mapOf_append (calls : List KvCall) (c : KvCall) :
    mapOf (calls ++ [c]) = OrdMap.updates (mapOf calls) c.update.toList := by
  rw [mapOf, List.filterMap_append, OrdMap.updates_append, mapOf]
  rcases h : c.update with _ | u <;> simp [h]

/-- **The map holds the value of the last write** of a key. -/
theorem lookup_mapOf {calls : List KvCall} {key v : String} :
    (mapOf calls)[key]? = some v ↔ LastSet calls key v := by
  have empty : (∅ : OrdMap String String)[key]? = none := by simp
  have last : (mapOf calls)[key]? = some v ↔
      OrdMap.lastUpdate (calls.filterMap update) key = some (some v) := by
    rw [mapOf, OrdMap.lookup_updates, empty]
    rcases OrdMap.lastUpdate (calls.filterMap update) key with _ | _ | _ <;> simp
  rw [last, OrdMap.lastUpdate_eq_some]
  constructor
  · rintro ⟨us, vs, hus, hne⟩
    obtain ⟨pre, rest, rfl, -, hrest⟩ := List.filterMap_eq_append_iff.mp hus
    obtain ⟨reads, c, post, rfl, -, hc, rfl⟩ := List.filterMap_eq_cons_iff.mp hrest
    -- only a set leaves a value
    cases c with
    | set now k x =>
      cases hc
      refine ⟨pre ++ reads, now, post, by simp, fun d hd hw => ?_⟩
      obtain ⟨o, ho⟩ := hw
      exact hne _ (List.mem_filterMap.mpr ⟨d, hd, ho⟩) rfl
    | delete k => cases hc
    | get k => cases hc
  · rintro ⟨pre, now, post, rfl, hpost⟩
    refine ⟨pre.filterMap update, post.filterMap update, by simp [update], ?_⟩
    rintro ⟨k, o⟩ hu rfl
    obtain ⟨d, hd, ho⟩ := List.mem_filterMap.mp hu
    exact hpost d hd ⟨o, ho⟩

end KvCall

/-! ### The storage is a map -/

variable {ε : Type}

/-- `get` finds what the map holds. -/
def Shows (m : OrdMap String String) (w : World ε) : Prop :=
  ∀ key, kvIn (cluster w) key = .ok m[key]?

theorem shows_empty {w : World ε} (hw : cluster w = ∅) : Shows ∅ w := fun key => by
  simp [kvIn, hw]

theorem Shows.set {m : OrdMap String String} {w : World ε} (h : Shows m w) (now : UInt64)
    (key value : String) : Shows (m.insert key value) (KvStorage.set now key value w).2 := by
  intro k
  rw [cluster_set]
  by_cases hk : key = k
  · subst hk
    rw [kvIn_insert_self, OrdMap.lookup_insert_self]
  · rw [kvIn_insert_ne _ _ (mt utf8_inj.mp hk), OrdMap.lookup_insert_ne m value hk]
    exact h k

theorem Shows.delete {m : OrdMap String String} {w : World ε} (h : Shows m w) (key : String) :
    Shows (m.erase key) (KvStorage.delete key w).2 := by
  intro k
  rw [cluster_delete]
  by_cases hk : key = k
  · subst hk
    rw [kvIn_erase_self]
    simp
  · rw [kvIn_erase_ne _ (mt utf8_inj.mp hk), OrdMap.lookup_erase_ne m hk]
    exact h k

/-- **One call** does what it does on the map, and a read finds what the map holds. -/
theorem Shows.run {calls : List KvCall} {w : World ε} (h : Shows (KvCall.mapOf calls) w)
    (c : KvCall) :
    ∃ reply w', Completes c.run w reply w' ∧ KvCall.Answers calls c reply ∧
      Shows (KvCall.mapOf (calls ++ [c])) w' := by
  rw [KvCall.mapOf_append]
  cases c with
  | set now key value => exact ⟨_, _, rfl, rfl, h.set now key value⟩
  | delete key => exact ⟨_, _, rfl, rfl, h.delete key⟩
  | get key =>
    have hrun : Completes (KvCall.get key).run w
        (.found (.ok (KvCall.mapOf calls)[key]?)) w := by
      unfold KvCall.run
      refine completes_bind.mpr ⟨_, w, KvStorage.get_run w key, ?_⟩
      rw [show kvIn (w.columns dbColumnFamilyCluster) key = _ from h key]
      exact completes_pure.mpr ⟨rfl, rfl⟩
    exact ⟨_, w, hrun, ⟨_, rfl, fun v => KvCall.lookup_mapOf⟩, h⟩

/-- The calls of a history are answered one by one. -/
theorem Shows.runAll (calls : List KvCall) {before : List KvCall} {w : World ε}
    (h : Shows (KvCall.mapOf before) w) :
    ∃ replies w', Completes (KvCall.runAll calls) w replies w' ∧ replies.length = calls.length ∧
      (∀ pre c post, calls = pre ++ c :: post →
        ∃ reply, replies[pre.length]? = some reply ∧ KvCall.Answers (before ++ pre) c reply) ∧
      Shows (KvCall.mapOf (before ++ calls)) w' := by
  induction calls generalizing before w with
  | nil =>
    refine ⟨[], w, completes_pure.mpr ⟨rfl, rfl⟩, rfl, fun pre c post hc => ?_, ?_⟩
    · exact absurd hc (by simp)
    · rwa [List.append_nil]
  | cons c calls ih =>
    obtain ⟨reply, w₁, hc, hans, hw₁⟩ := h.run c
    obtain ⟨replies, w', hcs, hlen, hrest, hw'⟩ := ih hw₁
    refine ⟨reply :: replies, w', ?_, by simp [hlen], ?_, ?_⟩
    · rw [KvCall.runAll, List.mapM_cons]
      exact completes_bind.mpr ⟨reply, w₁, hc,
        completes_bind.mpr ⟨replies, w', hcs, completes_pure.mpr ⟨rfl, rfl⟩⟩⟩
    · intro pre d post hd
      cases pre with
      | nil =>
        obtain ⟨rfl, rfl⟩ := List.cons.inj hd
        exact ⟨reply, rfl, by rwa [List.append_nil]⟩
      | cons d' pre =>
        obtain ⟨rfl, htail⟩ := List.cons.inj hd
        obtain ⟨r, hr, ha⟩ := hrest pre d post htail
        exact ⟨r, hr, by rwa [List.append_cons]⟩
    · rwa [List.append_cons]

/-- **Every `get` returns the value of the last write of its key**, and every call returns. -/
theorem KvCall.runAll_answers {w : World ε} (hw : cluster w = ∅) (calls : List KvCall) :
    ∃ replies w', Completes (KvCall.runAll calls) w replies w' ∧ replies.length = calls.length ∧
      ∀ pre c post, calls = pre ++ c :: post →
        ∃ reply, replies[pre.length]? = some reply ∧ KvCall.Answers pre c reply := by
  have hshows : Shows (KvCall.mapOf []) w := shows_empty hw
  obtain ⟨replies, w', hc, hlen, hans, -⟩ := hshows.runAll calls
  exact ⟨replies, w', hc, hlen, hans⟩

/-- A value that holds every character JSON treats apart is read back, a deleted key is not. -/
theorem KvCall.runAll_answers_escapes :
    ∃ replies w', Completes
        (KvCall.runAll [.set 0 "" "\"\\\n\u0000é", .set 0 "k" "v", .delete "k", .get "", .get "k"])
        (World.empty : World Empty) replies w' ∧ replies.length = 5 ∧
      ∀ pre c post, [KvCall.set 0 "" "\"\\\n\u0000é", .set 0 "k" "v", .delete "k", .get "",
        .get "k"] = pre ++ c :: post →
        ∃ reply, replies[pre.length]? = some reply ∧ KvCall.Answers pre c reply :=
  KvCall.runAll_answers (w := (World.empty : World Empty)) rfl _

/-! ### Keys that may exist -/

/-- What the library says of `key_may_exist_cf`: it reads, and it never misses a key that is there.
It may find a key that is not. -/
def NeverMisses (keyMayExistCf : String → Bytes → Program (World ε) Bool) : Prop :=
  ∀ cf k (w : World ε), ∃ found, Completes (keyMayExistCf cf k) w found w ∧
    (k ∈ w.columns cf → found = true)

/-- `exists` is true exactly when `get` finds a value. -/
def ExistsAgrees (keyMayExistCf : String → Bytes → Program (World ε) Bool) (key : String)
    (w : World ε) : Prop :=
  (KvStorage.existsKey keyMayExistCf key w).1 = .ok (.ok true) ↔
    ∃ v, (KvStorage.get key w).1 = .ok (.ok (some v))

theorem existsKey_run {keyMayExistCf : String → Bytes → Program (World ε) Bool} {key : String}
    {w : World ε} {found : Bool}
    (h : Completes (keyMayExistCf dbColumnFamilyCluster (utf8 key)) w found w) :
    KvStorage.existsKey keyMayExistCf key w = (.ok (.ok found), w) :=
  Program.bind_run_ok h _

/-- A key under which a value is found is there. -/
theorem mem_of_kvIn {m : ColumnFamily} {key v : String} (h : kvIn m key = .ok (some v)) :
    utf8 key ∈ m := by
  rw [← Std.ExtTreeMap.isSome_getElem?_iff_mem]
  rcases hm : m[utf8 key]? with _ | found
  · rw [kvIn, readIn, hm] at h
    cases h
  · rfl

theorem get_reply (key : String) (w : World ε) :
    (KvStorage.get key w).1 = .ok (kvIn (cluster w) key) :=
  congrArg Prod.fst (KvStorage.get_run w key)

/-- `get` finds a value exactly when the last write of the key sets it. -/
theorem Shows.get_iff {calls : List KvCall} {w : World ε} (h : Shows (KvCall.mapOf calls) w)
    {key v : String} :
    (KvStorage.get key w).1 = .ok (.ok (some v)) ↔ KvCall.LastSet calls key v := by
  rw [get_reply, ← KvCall.lookup_mapOf, h key]
  simp

/-- **`exists` agrees with `get`**, whatever the library does, exactly on the keys that are set: of
a key that was deleted, or was never set, it may say that it exists. -/
theorem existsAgrees_iff {w w' : World ε} (hw : cluster w = ∅) {calls : List KvCall}
    {replies : List KvReply} (h : Completes (KvCall.runAll calls) w replies w') (key : String) :
    (∀ keyMayExistCf, NeverMisses keyMayExistCf → ExistsAgrees keyMayExistCf key w') ↔
      ∃ v, KvCall.LastSet calls key v := by
  have hshows : Shows (KvCall.mapOf calls) w' := by
    have hempty : Shows (KvCall.mapOf []) w := shows_empty hw
    obtain ⟨_, _, hc, -, -, hs⟩ := hempty.runAll calls
    obtain ⟨-, rfl⟩ := (completes_of_run h).mp hc
    exact hs
  constructor
  · intro hall
    -- a library that finds every key
    have always : NeverMisses (fun _ _ => (pure true : Program (World ε) Bool)) := fun _ _ w =>
      ⟨true, completes_pure.mpr ⟨rfl, rfl⟩, fun _ => rfl⟩
    obtain ⟨v, hv⟩ := (hall _ always).mp rfl
    exact ⟨v, hshows.get_iff.mp hv⟩
  · rintro ⟨v, hv⟩ keyMayExistCf hnever
    have hget := hshows.get_iff.mpr hv
    obtain ⟨found, hfound, hmem⟩ := hnever dbColumnFamilyCluster (utf8 key) w'
    have hin : utf8 key ∈ cluster w' := mem_of_kvIn (Outcome.ok.inj (get_reply key w' ▸ hget))
    rw [ExistsAgrees, existsKey_run hfound, hmem hin]
    exact ⟨fun _ => ⟨v, hget⟩, fun _ => rfl⟩

/-- A history after which a library that never misses a key says that a deleted key exists. -/
theorem exists_after_delete :
    (∃ replies, Completes (KvCall.runAll [.set 0 "mq" "v", .delete "mq"])
      (World.empty : World Empty) replies
        (KvStorage.delete "mq" (KvStorage.set 0 "mq" "v" World.empty).2).2) ∧
    NeverMisses (fun _ _ => (pure true : Program (World Empty) Bool)) ∧
    ¬ ExistsAgrees (fun _ _ => (pure true : Program (World Empty) Bool)) "mq"
      (KvStorage.delete "mq" (KvStorage.set 0 "mq" "v" (World.empty : World Empty)).2).2 := by
  refine ⟨⟨[.written (.ok ()), .written (.ok ())], rfl⟩, fun _ _ w => ?_, fun h => ?_⟩
  · exact ⟨true, completes_pure.mpr ⟨rfl, rfl⟩, fun _ => rfl⟩
  · obtain ⟨v, hv⟩ := h.mp rfl
    rw [get_reply, cluster_delete, kvIn_erase_self] at hv
    cases hv

/-- The agreement on a key that is set, among others that are not. -/
theorem existsAgrees_iff_of_set :
    (∀ keyMayExistCf, NeverMisses keyMayExistCf → ExistsAgrees keyMayExistCf "a"
      (KvStorage.set 0 "a" "v" (World.empty : World Empty)).2) ↔
      ∃ v, KvCall.LastSet [.set 0 "a" "v"] "a" v := by
  have hrun : Completes (KvCall.runAll [.set 0 "a" "v"]) (World.empty : World Empty)
      [.written (.ok ())] (KvStorage.set 0 "a" "v" (World.empty : World Empty)).2 := rfl
  exact existsAgrees_iff rfl hrun "a"

end PlacementCenter.Storage
