import PlacementCenter.Rust.Bincode
import PlacementCenter.Common.Config

/-!
# The members of the group

What a node knows of its Raft group: its members by id, its leader and its own role.

## Main definitions

* `BrokerNode`: a member, with its bincode encoding
* `RaftGroupMetadata`: the group, and the methods of `raft/metadata.rs`
-/

namespace PlacementCenter.Raft

open Rust

/-- A `u128` is sixteen bytes. -/
instance : Bincode (BitVec 128) where
  put x := leBytes 16 x.toNat
  get b := (Bincode.getNat 16 b).map fun r => (BitVec.ofNat 128 r.1, r.2)
  put_ne_nil x h := by
    have := congrArg List.length h
    simp at this
  get_put x rest _ := by
    rw [Bincode.getNat_leBytes (Nat.lt_of_lt_of_le x.isLt (by decide))]
    simp

structure BrokerNode where
  clusterName : String
  clusterType : String
  nodeId : UInt64
  nodeIp : String
  nodeInnerAddr : String
  extend : String
  createTime : BitVec 128
  deriving DecidableEq, Repr

namespace BrokerNode

/-- The fields of a member, in the order of their declaration. -/
def fields (n : BrokerNode) :
    String × String × UInt64 × String × String × String × BitVec 128 :=
  (n.clusterName, n.clusterType, n.nodeId, n.nodeIp, n.nodeInnerAddr, n.extend, n.createTime)

/-- The member with some fields. -/
def ofFields (f : String × String × UInt64 × String × String × String × BitVec 128) : BrokerNode :=
  ⟨f.1, f.2.1, f.2.2.1, f.2.2.2.1, f.2.2.2.2.1, f.2.2.2.2.2.1, f.2.2.2.2.2.2⟩

instance : Bincode BrokerNode where
  put n := Bincode.put n.fields
  get b := (Bincode.get b).map fun r => (ofFields r.1, r.2)
  put_ne_nil n := Bincode.put_ne_nil n.fields
  get_put n rest h := by
    rw [Bincode.get_put n.fields rest h]
    rfl

end BrokerNode

/-- `raft::StateRole`. -/
inductive StateRole where
  | follower
  | candidate
  | leader
  | preCandidate
  deriving DecidableEq, Repr

structure RaftGroupMetadata where
  leader : Option BrokerNode
  raftRole : StateRole
  peers : HashMap UInt64 BrokerNode

namespace RaftGroupMetadata

/-! ### The members of the configuration -/

variable {V : Type} [TomlValue V]

/-- The id and the member of an entry of the nodes; `none` for a panic, on a value that is not a
string, on an address without a colon and on an id that is not a number. -/
def configured (clusterName nodeId : String) (addr : V) : Option (UInt64 × BrokerNode) := do
  let (ip, _) ← splitOnce (← TomlValue.asStr addr) ':'
  let id ← parseU64 (trim nodeId)
  return (id,
    { clusterName := clusterName
      clusterType := "PlacementCenter"
      nodeId := id
      nodeIp := ip
      nodeInnerAddr := TomlValue.display addr
      extend := ""
      createTime := 0 })

/-- A turn of the loop over the nodes. -/
def insertPeer (clusterName : String) (peers : HashMap UInt64 BrokerNode) (entry : String × V) :
    Option (HashMap UInt64 BrokerNode) := do
  let (id, node) ← configured clusterName entry.1 entry.2
  return peers.insert id node

/-- `RaftGroupMetadata::new`; `none` for a panic. -/
def new (config : PlacementCenterConfig V) : Option RaftGroupMetadata := do
  let peers ← config.nodes.toList.foldlM (insertPeer config.clusterName) ∅
  return ⟨none, .follower, peers⟩

/-! ### The methods -/

variable (core : RaftGroupMetadata)

def getNodeById (id : UInt64) : Option BrokerNode := core.peers[id]?

def addPeer (id : UInt64) (node : BrokerNode) : RaftGroupMetadata :=
  { core with peers := core.peers.insert id node }

def removePeer (id : UInt64) : RaftGroupMetadata := { core with peers := core.peers.erase id }

def isLeader : Bool := core.raftRole = .leader

def setRole (role : StateRole) : RaftGroupMetadata := { core with raftRole := role }

def nodeIds : List UInt64 := core.peers.toList.map Prod.fst

/-- The address of the leader; the empty text when none is known. -/
def leaderAddr : String :=
  match core.leader with
  | some leader => leader.nodeInnerAddr
  | none => ""

end RaftGroupMetadata

end PlacementCenter.Raft
