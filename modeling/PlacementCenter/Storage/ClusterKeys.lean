import Mathlib.Data.List.Infix
import PlacementCenter.Storage.PrefixScan

/-!
# The keys of clusters

The keys of the records that a cluster has of its own, and the prefixes under which these are
searched. A prefix ends with the name of the cluster, without the separator that follows the name in
the keys, so it also finds the records of every cluster whose name goes on from there.

## Main definitions

* `keyNode`, …, `storageKeyMqttBlacklistPrefix`: keys and prefixes of `storage/keys.rs`
* `RecordKind`: the kinds of records, with the key and the prefix of each
* `Isolates kind a b`: the prefix of the cluster `a` leads to no record of the cluster `b`

## Main results

* `RecordKind.startsWith_key_iff`: when a key of one cluster starts with the prefix of another
* `isolates_iff`: the prefix isolates from a cluster whose name does not go on from that of its own
-/

namespace PlacementCenter.Storage

open Rust

/-! ### Keys and prefixes -/

/-- The key of a record of a cluster: what is under its name, after a separator. -/
def keyOfCluster (root clusterName rest : String) : String := root ++ clusterName ++ "/" ++ rest

/-- The prefix of the records of a cluster. -/
def prefixOfCluster (root clusterName : String) : String := root ++ clusterName

def keyNode (clusterName : String) (nodeId : UInt64) : String :=
  keyOfCluster "/clusters/node/" clusterName (Nat.repr nodeId.toNat)

def keyNodePrefix (clusterName : String) : String := prefixOfCluster "/clusters/node/" clusterName

def keyShard (clusterName shardName : String) : String :=
  keyOfCluster "/journal/shard/" clusterName shardName

def keyShardPrefix (clusterName : String) : String := prefixOfCluster "/journal/shard/" clusterName

def keySegment (clusterName shardName : String) (segementSeq : UInt64) : String :=
  keyOfCluster "/journal/segment/" clusterName (shardName ++ "/" ++ Nat.repr segementSeq.toNat)

def keySegmentClusterPrefix (clusterName : String) : String :=
  prefixOfCluster "/journal/segment/" clusterName

def storageKeyMqttUser (clusterName userName : String) : String :=
  keyOfCluster "/mqtt/user/" clusterName userName

def storageKeyMqttUserClusterPrefix (clusterName : String) : String :=
  prefixOfCluster "/mqtt/user/" clusterName

def storageKeyMqttTopic (clusterName userName : String) : String :=
  keyOfCluster "/mqtt/topic/" clusterName userName

def storageKeyMqttTopicClusterPrefix (clusterName : String) : String :=
  prefixOfCluster "/mqtt/topic/" clusterName

def storageKeyMqttSession (clusterName clientId : String) : String :=
  keyOfCluster "/mqtt/session/" clusterName clientId

def storageKeyMqttSessionClusterPrefix (clusterName : String) : String :=
  prefixOfCluster "/mqtt/session/" clusterName

def storageKeyMqttLastWill (clusterName clientId : String) : String :=
  keyOfCluster "/mqtt/lastwill/" clusterName clientId

def storageKeyMqttLastWillPrefix (clusterName : String) : String :=
  prefixOfCluster "/mqtt/lastwill/" clusterName

def storageKeyMqttAcl (clusterName resourceType resourceName : String) : String :=
  keyOfCluster "/mqtt/acl/" clusterName (resourceType ++ "/" ++ resourceName)

def storageKeyMqttAclPrefix (clusterName : String) : String :=
  prefixOfCluster "/mqtt/acl/" clusterName

def storageKeyMqttBlacklist (clusterName blackListType resourceName : String) : String :=
  keyOfCluster "/mqtt/blacklist/" clusterName (blackListType ++ "/" ++ resourceName)

def storageKeyMqttBlacklistPrefix (clusterName : String) : String :=
  prefixOfCluster "/mqtt/blacklist/" clusterName

/-- The kinds of records that are searched by cluster. -/
inductive RecordKind where
  | node
  | shard
  | segment
  | mqttUser
  | mqttTopic
  | mqttSession
  | mqttLastWill
  | mqttAcl
  | mqttBlacklist
  deriving DecidableEq, Repr

namespace RecordKind

/-- What a key of the kind holds besides the name of the cluster. -/
def Args : RecordKind → Type
  | node => UInt64
  | segment => String × UInt64
  | mqttAcl => String × String
  | mqttBlacklist => String × String
  | _ => String

def key (clusterName : String) : (kind : RecordKind) → kind.Args → String
  | node, nodeId => keyNode clusterName nodeId
  | shard, shardName => keyShard clusterName shardName
  | segment, (shardName, segementSeq) => keySegment clusterName shardName segementSeq
  | mqttUser, userName => storageKeyMqttUser clusterName userName
  | mqttTopic, userName => storageKeyMqttTopic clusterName userName
  | mqttSession, clientId => storageKeyMqttSession clusterName clientId
  | mqttLastWill, clientId => storageKeyMqttLastWill clusterName clientId
  | mqttAcl, (resourceType, resourceName) =>
    storageKeyMqttAcl clusterName resourceType resourceName
  | mqttBlacklist, (blackListType, resourceName) =>
    storageKeyMqttBlacklist clusterName blackListType resourceName

def clusterPrefix (clusterName : String) : RecordKind → String
  | node => keyNodePrefix clusterName
  | shard => keyShardPrefix clusterName
  | segment => keySegmentClusterPrefix clusterName
  | mqttUser => storageKeyMqttUserClusterPrefix clusterName
  | mqttTopic => storageKeyMqttTopicClusterPrefix clusterName
  | mqttSession => storageKeyMqttSessionClusterPrefix clusterName
  | mqttLastWill => storageKeyMqttLastWillPrefix clusterName
  | mqttAcl => storageKeyMqttAclPrefix clusterName
  | mqttBlacklist => storageKeyMqttBlacklistPrefix clusterName

end RecordKind

/-- The prefix of the cluster `a` leads to no record of the cluster `b`: no key of the kind starts
with it, and no search by it returns one. -/
structure Isolates (ε : Type) (kind : RecordKind) (a b : String) : Prop where
  not_startsWith : ∀ args, ¬ ∃ t, kind.key b args = kind.clusterPrefix a ++ t
  not_found : ∀ (w : World ε) (cf : String) (fuel : ℕ) (found : List (HashMap String Bytes)),
    Program.Completes (RocksDBEngine.readPrefix fuel cf (kind.clusterPrefix a)) w (some found) w →
      ∀ raw ∈ found, ∀ args, kind.key b args ∉ raw

/-! ### Keys that start with a prefix -/

namespace RecordKind

/-- What the keys and the prefixes of the kind start with. -/
def root : RecordKind → String
  | node => "/clusters/node/"
  | shard => "/journal/shard/"
  | segment => "/journal/segment/"
  | mqttUser => "/mqtt/user/"
  | mqttTopic => "/mqtt/topic/"
  | mqttSession => "/mqtt/session/"
  | mqttLastWill => "/mqtt/lastwill/"
  | mqttAcl => "/mqtt/acl/"
  | mqttBlacklist => "/mqtt/blacklist/"

theorem clusterPrefix_eq (kind : RecordKind) (a : String) :
    kind.clusterPrefix a = prefixOfCluster kind.root a := by
  cases kind <;> rfl

/-- The keys of all kinds put a separator after the name of the cluster. -/
theorem exists_key_eq (kind : RecordKind) (b : String) (args : kind.Args) :
    ∃ rest, kind.key b args = keyOfCluster kind.root b rest := by
  cases kind <;> exact ⟨_, rfl⟩

instance (kind : RecordKind) : Nonempty kind.Args := by
  cases kind with
  | node => exact ⟨(0 : UInt64)⟩
  | segment => exact ⟨("", (0 : UInt64))⟩
  | mqttAcl => exact ⟨("", "")⟩
  | mqttBlacklist => exact ⟨("", "")⟩
  | _ => exact ⟨""⟩

variable {kind : RecordKind} {a b : String}

/-- Of two names without the separator, one that starts a text that goes on with the separator after
the other starts the other. -/
theorem append_separator_iff (ha : '/' ∉ a.toList) (rest : String) :
    (∃ t, b ++ "/" ++ rest = a ++ t) ↔ ∃ t, b = a ++ t := by
  constructor
  · rintro ⟨t, ht⟩
    have hlist : b.toList ++ '/' :: rest.toList = a.toList ++ t.toList := by
      simpa using congrArg String.toList ht
    rcases List.append_eq_append_iff.mp hlist with ⟨c, hc, hrest⟩ | ⟨c, hc, -⟩
    · cases c with
      | nil =>
        exact ⟨"", String.toList_injective (by simpa using hc.symm)⟩
      | cons x c =>
        -- the name of the searched cluster would go on with the separator
        obtain ⟨rfl, -⟩ := List.cons.inj hrest
        exact absurd (hc ▸ by simp) ha
    · exact ⟨String.ofList c, String.toList_injective (by simpa using hc)⟩
  · rintro ⟨t, rfl⟩
    exact ⟨t ++ "/" ++ rest, by simp only [String.append_assoc]⟩

/-- **A key of one cluster starts with the prefix of another** exactly when the name of the one
starts with the name of the other. -/
theorem startsWith_key_iff (ha : '/' ∉ a.toList) (args : kind.Args) :
    (∃ t, kind.key b args = kind.clusterPrefix a ++ t) ↔ ∃ t, b = a ++ t := by
  obtain ⟨rest, hkey⟩ := kind.exists_key_eq b args
  rw [← append_separator_iff ha rest, hkey, clusterPrefix_eq, keyOfCluster, prefixOfCluster]
  simp only [String.append_assoc, String.append_right_inj]

end RecordKind

/-! ### Searches for the records of a cluster -/

variable {ε : Type} {kind : RecordKind} {a b : String}

/-- A key that starts with a prefix is found by the search, where it is the only one. -/
theorem exists_found (cf : String) {key p : String} (h : ∃ t, key = p ++ t) :
    ∃ fuel found, Program.Completes (RocksDBEngine.readPrefix fuel cf p)
      ((World.empty : World ε).put cf (utf8 key) []) (some found)
      ((World.empty : World ε).put cf (utf8 key) []) ∧ ∃ raw ∈ found, key ∈ raw := by
  have hcolumns : ((World.empty : World ε).put cf (utf8 key) []).columns cf =
      (∅ : ColumnFamily).insert (utf8 key) [] := World.columns_put_self _ _ _ _
  have hstarts : RocksDBEngine.starts p (utf8 key, []) = true := startsWith_iff.mpr h
  have htexts : ∀ k ∈ (∅ : ColumnFamily).insert (utf8 key) [], IsText k := by
    refine forall_mem_toList.mp fun q hq => ?_
    rw [OrdMap.toList_singleton, List.mem_singleton] at hq
    rw [hq, IsText, fromUtf8_utf8]
    rfl
  obtain ⟨fuel, hfuel⟩ := ends_of_texts p htexts
  rw [OrdMap.toList_singleton, List.filter_cons_of_pos hstarts,
    RocksDBEngine.found_cons (fromUtf8_utf8 key)] at hfuel
  refine ⟨fuel, [(∅ : HashMap String Bytes).insert key []], ?_, _, List.mem_singleton_self _,
    Std.ExtTreeMap.mem_insert_self⟩
  rw [Program.Completes, readPrefix_run, hcolumns, OrdMap.toList_singleton, hfuel]
  rfl

/-- **The prefix of a cluster isolates it** from the clusters whose names do not start with its
own, and from no other. -/
theorem isolates_iff (kind : RecordKind) (ha : '/' ∉ a.toList) :
    Isolates ε kind a b ↔ ¬ ∃ t, b = a ++ t := by
  constructor
  · intro h hab
    obtain ⟨args⟩ := (inferInstance : Nonempty kind.Args)
    exact h.not_startsWith args ((RecordKind.startsWith_key_iff ha args).mpr hab)
  · intro hab
    have hkey : ∀ args : kind.Args, ¬ ∃ t, kind.key b args = kind.clusterPrefix a ++ t :=
      fun args h => hab ((RecordKind.startsWith_key_iff ha args).mp h)
    refine ⟨hkey, fun w cf fuel found hrun raw hraw args hmem => hkey args ?_⟩
    rw [Program.Completes, readPrefix_run, Prod.mk.injEq, Outcome.ok.injEq] at hrun
    exact startsWith_iff.mp (RocksDBEngine.onlyStarts_of_ends ⟨fuel, hrun.1⟩ raw hraw _ hmem)

/-- Names of which neither starts the other. -/
theorem isolates_iff_tenants :
    Isolates Empty .mqttUser "tenant-a" "tenant-b" ↔ ¬ ∃ t, "tenant-b" = "tenant-a" ++ t :=
  isolates_iff .mqttUser (by decide)

/-- The cluster `c1` is shown a node of the cluster `c10`. -/
theorem node_of_other_cluster_found :
    "c1" ≠ "c10" ∧ '/' ∉ "c1".toList ∧ '/' ∉ "c10".toList ∧
      ¬ Isolates Empty .node "c1" "c10" ∧
      ∃ fuel found, Program.Completes
        (RocksDBEngine.readPrefix fuel "cluster" (keyNodePrefix "c1"))
        ((World.empty : World Empty).put "cluster" (utf8 (keyNode "c10" 7)) []) (some found)
        ((World.empty : World Empty).put "cluster" (utf8 (keyNode "c10" 7)) []) ∧
        ∃ raw ∈ found, keyNode "c10" 7 ∈ raw := by
  have hstarts : ∃ t, keyNode "c10" 7 = keyNodePrefix "c1" ++ t := ⟨"0/7", by decide⟩
  refine ⟨by decide, by decide, by decide, fun h => ?_, exists_found "cluster" hstarts⟩
  exact h.not_startsWith (7 : UInt64) hstarts

end PlacementCenter.Storage
