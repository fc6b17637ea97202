import PlacementCenter.Raft.Metadata
import PlacementCenter.Openraft.RaftNode

/-!
# The addresses of the configured nodes

Both stacks read the table of the nodes. The one of openraft takes the quotes off a shown string;
that of the raft crate keeps them, and so has an address that is not the configured one for every
node.

## Main definitions

* `configuredAddrs nodes`: the addresses by id, as they are configured
* `ValidNodes nodes`: the ids are numbers and the values are addresses
* `SameAddresses conf`: both stacks have the configured addresses

## Main results

* `rpcAddrs_of_valid`: the members of openraft have the configured addresses
* `innerAddrs_of_valid`: the peers of the raft crate have these addresses between quotes
* `sameAddresses_iff`: when both have the configured addresses
-/

namespace PlacementCenter.Server

open Rust Raft Openraft.RaftNode

variable {V : Type} [TomlValue V]

/-- The id and the address of an entry. -/
def configuredAddr (entry : String × V) : Option (UInt64 × String) := do
  return (← parseU64 entry.1, ← TomlValue.asStr entry.2)

/-- The addresses by id, as they are configured. -/
def configuredAddrs (nodes : BTreeMap String V) : BTreeMap UInt64 String :=
  OrdMap.writePairs ∅ (nodes.toList.filterMap configuredAddr)

/-- An `ip:port` text. -/
def IsAddr (s : String) : Prop := ':' ∈ s.toList ∧ ∀ c ∈ s.toList, Plain c

/-- The keys are ids and the values are addresses. -/
def ValidNodes (nodes : BTreeMap String V) : Prop :=
  ∀ entry ∈ nodes.toList, ∃ id addr, configuredAddr entry = some (id, addr) ∧ IsAddr addr

/-- The address of a peer. -/
def innerAddr (core : RaftGroupMetadata) (id : UInt64) : Option String :=
  (core.getNodeById id).map BrokerNode.nodeInnerAddr

/-- The address of a member. -/
def rpcAddr (nodes : BTreeMap UInt64 Node) (id : UInt64) : Option String :=
  (nodes[id]?).map Node.rpcAddr

/-- Both stacks have the configured addresses. -/
def SameAddresses (conf : PlacementCenterConfig V) : Prop :=
  ∃ core nodes, RaftGroupMetadata.new conf = some core ∧ raftNodes conf = some nodes ∧
    ∀ id, innerAddr core id = rpcAddr nodes id ∧
      rpcAddr nodes id = (configuredAddrs conf.nodes)[id]?

/-! ### What each stack reads -/

theorem configuredAddr_eq_some {entry : String × V} {id : UInt64} {addr : String} :
    configuredAddr entry = some (id, addr) ↔
      parseU64 entry.1 = some id ∧ TomlValue.asStr entry.2 = some addr := by
  simp [configuredAddr, Option.bind_eq_some_iff]

/-- A string without quotes, shown and with its quotes taken off. -/
theorem removeChar_quoted {s : String} (h : ∀ c ∈ s.toList, Plain c) :
    removeChar ("\"" ++ s ++ "\"") '"' = s := by
  have hkeep : s.toList.filter (· ≠ '"') = s.toList :=
    List.filter_eq_self.mpr fun c hc => decide_eq_true (h c hc).1
  have hquote : "\"".toList.filter (· ≠ '"') = [] := rfl
  rw [removeChar, String.toList_append, String.toList_append, List.filter_append,
    List.filter_append, hkeep, hquote, List.nil_append, List.append_nil, String.ofList_toList]

variable {conf : PlacementCenterConfig V}

/-- **The members of openraft** have the configured addresses. -/
theorem rpcAddrs_of_valid (h : ValidNodes conf.nodes) :
    ∃ nodes, raftNodes conf = some nodes ∧
      ∀ id, rpcAddr nodes id = (configuredAddrs conf.nodes)[id]? := by
  have hnodes : raftNodes conf = some (OrdMap.writePairs ∅
      (conf.nodes.toList.filterMap fun entry =>
        (configuredAddr entry).map fun p => (p.1, Node.mk p.1 p.2))) := by
    refine OrdMap.foldlM_eq_writePairs (fun ⟨nodeId, v⟩ hentry => ?_) ∅
    obtain ⟨id, addr, hpair, -, hplain⟩ := h _ hentry
    refine ⟨(id, ⟨id, addr⟩), by rw [hpair]; rfl, fun m => ?_⟩
    obtain ⟨hid, haddr⟩ := configuredAddr_eq_some.mp hpair
    have hshown := TomlValue.display_of_asStr v addr haddr hplain
    simp [raftNode, hid, hshown, removeChar_quoted hplain]
  refine ⟨_, hnodes, fun id => ?_⟩
  rw [rpcAddr, ← List.map_filterMap, OrdMap.lookup_writePairs_map Node.mk, Option.map_map]
  exact Option.map_id'

/-- The member of the raft crate at a configured address. -/
def peerAt (clusterName : String) (id : UInt64) (addr : String) : BrokerNode where
  clusterName := clusterName
  clusterType := "PlacementCenter"
  nodeId := id
  nodeIp := String.ofList (addr.toList.takeWhile (· ≠ ':'))
  nodeInnerAddr := "\"" ++ addr ++ "\""
  extend := ""
  createTime := 0

/-- **The peers of the raft crate** have the configured addresses between quotes. -/
theorem innerAddrs_of_valid (h : ValidNodes conf.nodes) :
    ∃ core, RaftGroupMetadata.new conf = some core ∧
      ∀ id, innerAddr core id =
        ((configuredAddrs conf.nodes)[id]?).map fun addr => "\"" ++ addr ++ "\"" := by
  have hpeers : conf.nodes.toList.foldlM (RaftGroupMetadata.insertPeer conf.clusterName) ∅ =
      some (OrdMap.writePairs ∅ (conf.nodes.toList.filterMap fun entry =>
        (configuredAddr entry).map fun p => (p.1, peerAt conf.clusterName p.1 p.2))) := by
    refine OrdMap.foldlM_eq_writePairs (fun entry hentry => ?_) ∅
    obtain ⟨id, addr, hpair, hcolon, hplain⟩ := h entry hentry
    refine ⟨(id, peerAt conf.clusterName id addr), by rw [hpair]; rfl, fun m => ?_⟩
    obtain ⟨hid, haddr⟩ := configuredAddr_eq_some.mp hpair
    have hshown := TomlValue.display_of_asStr entry.2 addr haddr hplain
    simp [RaftGroupMetadata.insertPeer, RaftGroupMetadata.configured, trim_of_parseU64 hid, hid,
      haddr, hshown, splitOnce, hcolon, peerAt]
  have hcore : RaftGroupMetadata.new conf = some ⟨none, .follower, OrdMap.writePairs ∅
      (conf.nodes.toList.filterMap fun entry =>
        (configuredAddr entry).map fun p => (p.1, peerAt conf.clusterName p.1 p.2))⟩ := by
    rw [RaftGroupMetadata.new, hpeers]
    rfl
  refine ⟨_, hcore, fun id => ?_⟩
  rw [innerAddr, RaftGroupMetadata.getNodeById, ← List.map_filterMap,
    OrdMap.lookup_writePairs_map (peerAt conf.clusterName), Option.map_map]
  rfl

theorem configuredAddrs_eq_empty (h : ValidNodes conf.nodes) :
    (∀ id : UInt64, (configuredAddrs conf.nodes)[id]? = none) ↔ conf.nodes = ∅ := by
  constructor
  · intro hnone
    refine Std.ExtTreeMap.toList_eq_nil_iff.mp (List.eq_nil_iff_forall_not_mem.mpr ?_)
    intro entry hentry
    obtain ⟨id, addr, hpair, -⟩ := h entry hentry
    refine ((OrdMap.lookup_writePairs_eq_none _).mp (hnone id)).2 (id, addr) ?_ rfl
    exact List.mem_filterMap.mpr ⟨entry, hentry, hpair⟩
  · intro hempty id
    rw [configuredAddrs, Std.ExtTreeMap.toList_eq_nil_iff.mpr hempty]
    simp

/-- **Both stacks have the configured addresses** only where no node is configured. -/
theorem sameAddresses_iff (h : ValidNodes conf.nodes) : SameAddresses conf ↔ conf.nodes = ∅ := by
  obtain ⟨core, hcore, hinner⟩ := innerAddrs_of_valid h
  obtain ⟨nodes, hnodes, hrpc⟩ := rpcAddrs_of_valid h
  rw [← configuredAddrs_eq_empty h]
  constructor
  · rintro ⟨core', nodes', hcore', hnodes', heq⟩ id
    obtain rfl := Option.some_inj.mp (hcore.symm.trans hcore')
    have haddr := (hinner id).symm.trans ((heq id).1.trans (heq id).2)
    rcases hc : (configuredAddrs conf.nodes)[id]? with _ | addr
    · rfl
    · -- the address between quotes is longer
      rw [hc] at haddr
      have hlen := congrArg String.length (Option.some_inj.mp haddr)
      have hquote : "\"".length = 1 := rfl
      rw [String.length_append, String.length_append, hquote] at hlen
      omega
  · intro hnone
    refine ⟨core, nodes, hcore, hnodes, fun id => ?_⟩
    rw [hinner, hrpc, hnone]
    exact ⟨rfl, rfl⟩

/-- A table with one node. -/
def oneNode : PlacementCenterConfig String where
  clusterName := "placement-test"
  nodeId := 1
  nodes := (∅ : BTreeMap String String).insert "1" "127.0.0.1:1228"

theorem validNodes_oneNode : ValidNodes oneNode.nodes := by
  intro entry hentry
  rw [oneNode, OrdMap.toList_singleton, List.mem_singleton] at hentry
  subst hentry
  have hplain : "127.0.0.1:1228".toList.all (fun c => decide (Plain c)) = true := by decide +kernel
  refine ⟨1, "127.0.0.1:1228", by decide +kernel, by decide, fun c hc => ?_⟩
  exact of_decide_eq_true (List.all_eq_true.mp hplain c hc)

/-- The rule on one node. -/
theorem sameAddresses_oneNode : SameAddresses oneNode ↔ oneNode.nodes = ∅ :=
  sameAddresses_iff validNodes_oneNode

/-- The one stack has the address with quotes, the other without. -/
theorem addresses_oneNode :
    ValidNodes oneNode.nodes ∧
      (RaftGroupMetadata.new oneNode).bind (innerAddr · 1) = some "\"127.0.0.1:1228\"" ∧
      (raftNodes oneNode).bind (rpcAddr · 1) = some "127.0.0.1:1228" ∧ ¬ SameAddresses oneNode := by
  have hinner : (RaftGroupMetadata.new oneNode).bind (innerAddr · 1) =
      some "\"127.0.0.1:1228\"" := by
    decide +kernel
  have hrpc : (raftNodes oneNode).bind (rpcAddr · 1) = some "127.0.0.1:1228" := by
    decide +kernel
  refine ⟨validNodes_oneNode, hinner, hrpc, ?_⟩
  rintro ⟨core, nodes, hcore, hnodes, hsame⟩
  rw [hcore, Option.bind_some] at hinner
  rw [hnodes, Option.bind_some] at hrpc
  have haddr := hinner.symm.trans ((hsame 1).1.trans hrpc)
  exact absurd haddr (by decide)

end PlacementCenter.Server
