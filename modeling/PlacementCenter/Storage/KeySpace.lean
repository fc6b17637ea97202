import PlacementCenter.Rust.Paths
import PlacementCenter.Storage.ClusterKeys
import PlacementCenter.Storage.Keys

/-!
# The key space

The log store and the services share one column family. The key of every record is a path: some
fixed segments, and the names and numbers of the record. As long as no name holds the separator, a
key says which record it is of, and a search by a prefix leads to the records whose path goes on
from it.

## Main definitions

* `ServiceKey`: the records of services, with the key of each
* `PlainKey`: a record whose names hold no separator
* `Search`: the searches of `storage/keys.rs`, with the prefix of each

## Main results

* `PlainKey.name_injective`: **no two records share a key**
* `PlainKey.name_ne_record`: no service writes a record of the log store
* `Search.starts_iff`: **what a search leads to**
-/

namespace PlacementCenter.Storage

open Rust

/-! ### Keys and prefixes -/

def keyCluster (clusterType clusterName : String) : String :=
  "/clusters/" ++ clusterType ++ "/" ++ clusterName

def keyClusterPrefix : String := "/clusters/"

def keyClusterPrefixByType (clusterType : String) : String := "/clusters/" ++ clusterType

def keyNodePrefixAll : String := "/clusters/node/"

def keyResourceConfig (clusterName resourceKey : String) : String :=
  "/config/" ++ clusterName ++ "/" ++ resourceKey

def keyResourceIdempotent (clusterName produceId : String) (seqNum : UInt64) : String :=
  "/idempotent/" ++ clusterName ++ "/" ++ produceId ++ "/" ++ Nat.repr seqNum.toNat

def keySegmentShardPrefix (clusterName shardName : String) : String :=
  "/journal/segment/" ++ clusterName ++ "/" ++ shardName

def storageKeyMqttNodeSubGroupLeader (clusterName : String) : String :=
  "/mqtt/sub_group_leader/" ++ clusterName

/-- What keys and prefixes start with. -/
inductive KeyRoot where
  | clusters
  | nodes
  | config
  | idempotent
  | shards
  | segments
  | mqttUsers
  | mqttTopics
  | mqttSessions
  | mqttLastWills
  | mqttSubGroupLeaders
  | mqttAcls
  | mqttBlacklists
  deriving DecidableEq, Repr

namespace KeyRoot

def text : KeyRoot → String
  | clusters => "/clusters/"
  | nodes => "/clusters/node/"
  | config => "/config/"
  | idempotent => "/idempotent/"
  | shards => "/journal/shard/"
  | segments => "/journal/segment/"
  | mqttUsers => "/mqtt/user/"
  | mqttTopics => "/mqtt/topic/"
  | mqttSessions => "/mqtt/session/"
  | mqttLastWills => "/mqtt/lastwill/"
  | mqttSubGroupLeaders => "/mqtt/sub_group_leader/"
  | mqttAcls => "/mqtt/acl/"
  | mqttBlacklists => "/mqtt/blacklist/"

/-- The fixed segments of a path. -/
def path : KeyRoot → List String
  | clusters => ["clusters"]
  | nodes => ["clusters", "node"]
  | config => ["config"]
  | idempotent => ["idempotent"]
  | shards => ["journal", "shard"]
  | segments => ["journal", "segment"]
  | mqttUsers => ["mqtt", "user"]
  | mqttTopics => ["mqtt", "topic"]
  | mqttSessions => ["mqtt", "session"]
  | mqttLastWills => ["mqtt", "lastwill"]
  | mqttSubGroupLeaders => ["mqtt", "sub_group_leader"]
  | mqttAcls => ["mqtt", "acl"]
  | mqttBlacklists => ["mqtt", "blacklist"]

end KeyRoot

/-- The records that services keep under a key of their own. -/
inductive ServiceKey where
  | cluster (clusterType clusterName : String)
  | node (clusterName : String) (nodeId : UInt64)
  | resourceConfig (clusterName resourceKey : String)
  | resourceIdempotent (clusterName produceId : String) (seqNum : UInt64)
  | shard (clusterName shardName : String)
  | segment (clusterName shardName : String) (segementSeq : UInt64)
  | mqttUser (clusterName userName : String)
  | mqttTopic (clusterName userName : String)
  | mqttSession (clusterName clientId : String)
  | mqttLastWill (clusterName clientId : String)
  | mqttNodeSubGroupLeader (clusterName : String)
  | mqttAcl (clusterName resourceType resourceName : String)
  | mqttBlacklist (clusterName blackListType resourceName : String)
  deriving DecidableEq, Repr

namespace ServiceKey

def name : ServiceKey → String
  | cluster clusterType clusterName => keyCluster clusterType clusterName
  | node clusterName nodeId => keyNode clusterName nodeId
  | resourceConfig clusterName resourceKey => keyResourceConfig clusterName resourceKey
  | resourceIdempotent clusterName produceId seqNum =>
    keyResourceIdempotent clusterName produceId seqNum
  | shard clusterName shardName => keyShard clusterName shardName
  | segment clusterName shardName segementSeq => keySegment clusterName shardName segementSeq
  | mqttUser clusterName userName => storageKeyMqttUser clusterName userName
  | mqttTopic clusterName userName => storageKeyMqttTopic clusterName userName
  | mqttSession clusterName clientId => storageKeyMqttSession clusterName clientId
  | mqttLastWill clusterName clientId => storageKeyMqttLastWill clusterName clientId
  | mqttNodeSubGroupLeader clusterName => storageKeyMqttNodeSubGroupLeader clusterName
  | mqttAcl clusterName resourceType resourceName =>
    storageKeyMqttAcl clusterName resourceType resourceName
  | mqttBlacklist clusterName blackListType resourceName =>
    storageKeyMqttBlacklist clusterName blackListType resourceName

def root : ServiceKey → KeyRoot
  | cluster .. => .clusters
  | node .. => .nodes
  | resourceConfig .. => .config
  | resourceIdempotent .. => .idempotent
  | shard .. => .shards
  | segment .. => .segments
  | mqttUser .. => .mqttUsers
  | mqttTopic .. => .mqttTopics
  | mqttSession .. => .mqttSessions
  | mqttLastWill .. => .mqttLastWills
  | mqttNodeSubGroupLeader .. => .mqttSubGroupLeaders
  | mqttAcl .. => .mqttAcls
  | mqttBlacklist .. => .mqttBlacklists

/-- The names and numbers of a record. -/
def names : ServiceKey → List String
  | cluster clusterType clusterName => [clusterType, clusterName]
  | node clusterName nodeId => [clusterName, Nat.repr nodeId.toNat]
  | resourceConfig clusterName resourceKey => [clusterName, resourceKey]
  | resourceIdempotent clusterName produceId seqNum =>
    [clusterName, produceId, Nat.repr seqNum.toNat]
  | shard clusterName shardName => [clusterName, shardName]
  | segment clusterName shardName segementSeq =>
    [clusterName, shardName, Nat.repr segementSeq.toNat]
  | mqttUser clusterName userName => [clusterName, userName]
  | mqttTopic clusterName userName => [clusterName, userName]
  | mqttSession clusterName clientId => [clusterName, clientId]
  | mqttLastWill clusterName clientId => [clusterName, clientId]
  | mqttNodeSubGroupLeader clusterName => [clusterName]
  | mqttAcl clusterName resourceType resourceName => [clusterName, resourceType, resourceName]
  | mqttBlacklist clusterName blackListType resourceName =>
    [clusterName, blackListType, resourceName]

def path (k : ServiceKey) : List String := k.root.path ++ k.names

end ServiceKey

/-- The names of the record hold no separator. -/
def ServiceKey.Plain (k : ServiceKey) : Prop := ∀ s ∈ k.names, '/' ∉ s.toList

instance (k : ServiceKey) : Decidable k.Plain :=
  inferInstanceAs (Decidable (∀ s ∈ k.names, '/' ∉ s.toList))

/-- A record of a service whose names hold no separator. -/
structure PlainKey where
  key : ServiceKey
  plain : key.Plain
  deriving DecidableEq

def PlainKey.name (k : PlainKey) : String := k.key.name

/-- The searches for records. -/
inductive Search where
  | clusters
  | clustersByType (clusterType : String)
  | nodes
  | segmentsOfShard (clusterName shardName : String)
  | ofCluster (kind : RecordKind) (clusterName : String)

namespace Search

def name : Search → String
  | clusters => keyClusterPrefix
  | clustersByType clusterType => keyClusterPrefixByType clusterType
  | nodes => keyNodePrefixAll
  | segmentsOfShard clusterName shardName => keySegmentShardPrefix clusterName shardName
  | ofCluster kind clusterName => kind.clusterPrefix clusterName

def root : Search → KeyRoot
  | clusters => .clusters
  | clustersByType _ => .clusters
  | nodes => .nodes
  | segmentsOfShard .. => .segments
  | ofCluster .node _ => .nodes
  | ofCluster .shard _ => .shards
  | ofCluster .segment _ => .segments
  | ofCluster .mqttUser _ => .mqttUsers
  | ofCluster .mqttTopic _ => .mqttTopics
  | ofCluster .mqttSession _ => .mqttSessions
  | ofCluster .mqttLastWill _ => .mqttLastWills
  | ofCluster .mqttAcl _ => .mqttAcls
  | ofCluster .mqttBlacklist _ => .mqttBlacklists

/-- The names of a search. A prefix that ends with a separator goes on with any name. -/
def names : Search → List String
  | clusters => [""]
  | clustersByType clusterType => [clusterType]
  | nodes => [""]
  | segmentsOfShard clusterName shardName => [clusterName, shardName]
  | ofCluster _ clusterName => [clusterName]

def path (s : Search) : List String := s.root.path ++ s.names

/-- The names of the search hold no separator. -/
def Plain (s : Search) : Prop := ∀ a ∈ s.names, '/' ∉ a.toList

/-- The records that a search leads to: their path goes on from that of the search. -/
def Finds (s : Search) (k : ServiceKey) : Prop :=
  Path.Finds (s.path.map String.toList) (k.path.map String.toList)

instance (s : Search) (k : ServiceKey) : Decidable (s.Finds k) :=
  inferInstanceAs (Decidable (Path.Finds _ _))

end Search

/-! ### Keys are paths -/

/-- The text of a path. -/
def joined : List String → String
  | [] => ""
  | s :: p => "/" ++ s ++ joined p

theorem toList_joined (p : List String) :
    (joined p).toList = Path.render '/' (p.map String.toList) := by
  induction p with
  | nil => rfl
  | cons s p ih => simp [joined, Path.render, ih]

theorem joined_concat (p : List String) (s : String) :
    joined (p ++ [s]) = joined p ++ "/" ++ s := by
  induction p with
  | nil => simp [joined]
  | cons a p ih => simp only [List.cons_append, joined, ih, String.append_assoc]

namespace KeyRoot

theorem text_eq (r : KeyRoot) : r.text = joined r.path ++ "/" := by cases r <;> decide

variable (r : KeyRoot) (a b c : String)

theorem text_one : r.text ++ a = joined (r.path ++ [a]) := by
  rw [text_eq, joined_concat]

theorem text_two : keyOfCluster r.text a b = joined (r.path ++ [a, b]) := by
  rw [keyOfCluster, text_one, ← joined_concat, List.append_assoc]
  rfl

theorem text_three : r.text ++ a ++ "/" ++ b ++ "/" ++ c = joined (r.path ++ [a, b, c]) := by
  rw [show r.path ++ [a, b, c] = r.path ++ [a, b] ++ [c] by simp, joined_concat, ← text_two]
  rfl

theorem text_pair : keyOfCluster r.text a (b ++ "/" ++ c) = joined (r.path ++ [a, b, c]) := by
  rw [← text_three, keyOfCluster]
  simp only [String.append_assoc]

end KeyRoot

theorem ServiceKey.name_eq (k : ServiceKey) : k.name = joined k.path := by
  cases k with
  | cluster t c => exact KeyRoot.text_two .clusters t c
  | node c i => exact KeyRoot.text_two .nodes c _
  | resourceConfig c r => exact KeyRoot.text_two .config c r
  | resourceIdempotent c p n => exact KeyRoot.text_three .idempotent c p _
  | shard c s => exact KeyRoot.text_two .shards c s
  | segment c s n => exact KeyRoot.text_pair .segments c s _
  | mqttUser c u => exact KeyRoot.text_two .mqttUsers c u
  | mqttTopic c u => exact KeyRoot.text_two .mqttTopics c u
  | mqttSession c i => exact KeyRoot.text_two .mqttSessions c i
  | mqttLastWill c i => exact KeyRoot.text_two .mqttLastWills c i
  | mqttNodeSubGroupLeader c => exact KeyRoot.text_one .mqttSubGroupLeaders c
  | mqttAcl c t n => exact KeyRoot.text_pair .mqttAcls c t n
  | mqttBlacklist c t n => exact KeyRoot.text_pair .mqttBlacklists c t n

theorem Search.name_eq (s : Search) : s.name = joined s.path := by
  cases s with
  | clusters => exact String.append_empty.symm.trans (KeyRoot.text_one .clusters "")
  | clustersByType t => exact KeyRoot.text_one .clusters t
  | nodes => exact String.append_empty.symm.trans (KeyRoot.text_one .nodes "")
  | segmentsOfShard c s => exact KeyRoot.text_two .segments c s
  | ofCluster kind c =>
    have h := KeyRoot.text_one (root (ofCluster kind c)) c
    cases kind <;> exact h

/-! ### What a key says -/

theorem repr_injective : Function.Injective Nat.repr := by
  intro a b h
  have hd : Nat.toDigits 10 a = Nat.toDigits 10 b := by
    simpa [Nat.toList_repr] using congrArg String.toList h
  exact toDigits_inj.mp hd

theorem ServiceKey.path_injective : Function.Injective ServiceKey.path := by
  intro k k' h
  cases k <;> cases k' <;>
    simp_all [path, root, KeyRoot.path, names, repr_injective.eq_iff, ← UInt64.toNat_inj]

theorem KeyRoot.plain_path (r : KeyRoot) : ∀ s ∈ r.path, '/' ∉ s.toList := by
  cases r <;> decide

theorem KeyRoot.plain_append {names : List String} (r : KeyRoot)
    (h : ∀ s ∈ names, '/' ∉ s.toList) : Path.Plain '/' ((r.path ++ names).map String.toList) := by
  intro s hs
  obtain ⟨a, ha, rfl⟩ := List.mem_map.mp hs
  exact (List.mem_append.mp ha).elim (r.plain_path a) (h a)

theorem ServiceKey.Plain.path {k : ServiceKey} (h : k.Plain) :
    Path.Plain '/' (k.path.map String.toList) := k.root.plain_append h

theorem Search.Plain.path {s : Search} (h : s.Plain) :
    Path.Plain '/' (s.path.map String.toList) := s.root.plain_append h

/-- **No two records share a key.** -/
theorem PlainKey.name_injective : Function.Injective PlainKey.name := by
  rintro ⟨k, hk⟩ ⟨k', hk'⟩ h
  have hrender := congrArg String.toList h
  rw [name, name, k.name_eq, k'.name_eq, toList_joined, toList_joined,
    Path.render_inj hk.path hk'.path] at hrender
  obtain rfl := ServiceKey.path_injective
    (List.map_injective_iff.mpr (fun _ _ => String.toList_injective) hrender)
  rfl

theorem exists_append_iff {a b : String} : (∃ t, b = a ++ t) ↔ a.toList <+: b.toList := by
  constructor
  · rintro ⟨t, rfl⟩
    exact ⟨t.toList, by rw [String.toList_append]⟩
  · rintro ⟨t, ht⟩
    exact ⟨String.ofList t, String.toList_injective (by simp [← ht])⟩

/-- **What a search leads to**: the records whose path goes on from that of the search. -/
theorem Search.starts_iff {s : Search} (hs : s.Plain) (k : PlainKey) :
    (∃ t, k.name = s.name ++ t) ↔ s.Finds k.key := by
  rw [exists_append_iff, PlainKey.name, k.key.name_eq, s.name_eq, toList_joined, toList_joined]
  exact Path.render_prefix_iff hs.path k.plain.path

/-! ### The records of the log store -/

/-- No path of a service starts like the names of the log store. -/
theorem KeyRoot.second (r : KeyRoot) (names : List String) :
    ∃ c, (joined (r.path ++ names)).toList[1]? = some c ∧ c ≠ 'r' := by
  cases r <;> simp [path, joined]

theorem Record.second (r : Record) : r.name.toList[1]? = some 'r' := by
  cases r <;> simp [name, keyNameByFirstIndex, keyNameByLastIndex, keyNameByHardState,
    keyNameByConfState, keyNameByEntry, keyNameUncommit, keyNameSnapshot]

/-- **No service writes a record of the log store.** -/
theorem ServiceKey.name_ne_record (k : ServiceKey) (r : Record) : k.name ≠ r.name := by
  intro h
  obtain ⟨c, hc, hne⟩ := k.root.second k.names
  have hsecond := r.second
  rw [← h, k.name_eq, path, hc] at hsecond
  exact hne (Option.some.inj hsecond)

/-- **No search leads to a record of the log store.** -/
theorem Search.not_starts_record (s : Search) (r : Record) : ¬ ∃ t, r.name = s.name ++ t := by
  rintro ⟨t, h⟩
  obtain ⟨c, hc, hne⟩ := s.root.second s.names
  rw [← path, ← s.name_eq] at hc
  have hsecond := r.second
  rw [h, String.toList_append, List.getElem?_append_left (List.getElem?_eq_some_iff.mp hc).1,
    hc] at hsecond
  exact hne (Option.some.inj hsecond)

end PlacementCenter.Storage
