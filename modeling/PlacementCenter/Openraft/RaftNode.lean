import PlacementCenter.Rust.Program
import PlacementCenter.Common.Config

/-!
# The members of the openraft cluster

The node with the lowest configured id sets up the cluster, with the configured nodes as its
members.

## Main definitions

* `Node`: a member
* `raftNodes`: the members, from the configuration
* `startOpenraftNode`: the start of the cluster, over the handle of `openraft::Raft`

## Main results

* `completes_startOpenraftNode`: the members that a new cluster is set up with
-/

namespace PlacementCenter.Openraft.RaftNode

open Rust

structure Node where
  nodeId : UInt64
  rpcAddr : String
  deriving DecidableEq, Repr

variable {V : Type} [TomlValue V]

/-- The member of an entry of the nodes; `none` for the panic on an id that is not a number. -/
def raftNode (nodeId : String) (addr : V) : Option Node := do
  let addr := removeChar (TomlValue.display addr) '"'
  return { rpcAddr := addr, nodeId := ← parseU64 nodeId }

/-- The map that the loop of `start_openraft_node` builds. -/
def raftNodes (conf : PlacementCenterConfig V) : Option (BTreeMap UInt64 Node) :=
  conf.nodes.toList.foldlM (fun nodes (nodeId, addr) => do
    let node ← raftNode nodeId addr
    return nodes.insert node.nodeId node) ∅

/-- The lowest id; `none` for the panic on a map without nodes. -/
def calcInitNode (nodes : BTreeMap UInt64 Node) : Option UInt64 :=
  (nodes.keys.mergeSort fun a b => decide (a ≤ b)).head?

/-- The handle of `openraft::Raft`. -/
structure RaftHandle (σ : Type) where
  isInitialized : Program σ (Except String Bool)
  initializeWith : BTreeMap UInt64 Node → Program σ (Except String Unit)

def startOpenraftNode {σ : Type} (raft : RaftHandle σ) (conf : PlacementCenterConfig V) :
    Program σ Unit := do
  let nodes ← Program.unwrapOk (raftNodes conf)
  let initNodeId ← Program.unwrap (calcInitNode nodes)
  if initNodeId = conf.nodeId then
    match ← raft.isInitialized with
    | .ok flag =>
      if !flag then
        match ← raft.initializeWith nodes with
        | .ok () => return ()
        | .error e => Program.panic ("openraft init fail," ++ e)
    | .error e => Program.panic ("openraft initialized fail," ++ e)

/-- **A new cluster is set up with the configured members**, by the node with the lowest id. -/
theorem completes_startOpenraftNode {σ : Type} {raft : RaftHandle σ}
    {conf : PlacementCenterConfig V} {s t : σ} :
    Program.Completes (startOpenraftNode raft conf) s () t ↔
      ∃ nodes first, raftNodes conf = some nodes ∧ calcInitNode nodes = some first ∧
        ((first ≠ conf.nodeId ∧ s = t) ∨
          first = conf.nodeId ∧ (Program.Completes raft.isInitialized s (.ok true) t ∨
            ∃ r, Program.Completes raft.isInitialized s (.ok false) r ∧
              Program.Completes (raft.initializeWith nodes) r (.ok ()) t)) := by
  unfold startOpenraftNode
  constructor
  · intro h
    obtain ⟨nodes, s₁, hread, h⟩ := Program.completes_bind.mp h
    obtain ⟨hnodes, rfl⟩ := Program.completes_unwrapOk.mp hread
    obtain ⟨first, s₂, hleast, h⟩ := Program.completes_bind.mp h
    obtain ⟨hfirst, rfl⟩ := Program.completes_unwrap.mp hleast
    refine ⟨nodes, first, hnodes, hfirst, ?_⟩
    split_ifs at h with hid
    · refine .inr ⟨hid, ?_⟩
      obtain ⟨flag | flag, r, hflag, h⟩ := Program.completes_bind.mp h
      · exact absurd h Program.not_completes_panic
      · cases flag with
        | true =>
          obtain ⟨-, rfl⟩ := Program.completes_pure.mp h
          exact .inl hflag
        | false =>
          obtain ⟨o | u, r', hinit, h⟩ := Program.completes_bind.mp h
          · exact absurd h Program.not_completes_panic
          · obtain ⟨-, rfl⟩ := Program.completes_pure.mp h
            exact .inr ⟨r, hflag, hinit⟩
    · exact .inl ⟨hid, (Program.completes_pure.mp h).2⟩
  · rintro ⟨nodes, first, hnodes, hfirst, hcase⟩
    refine Program.completes_bind.mpr ⟨nodes, s, Program.completes_unwrapOk.mpr ⟨hnodes, rfl⟩, ?_⟩
    refine Program.completes_bind.mpr ⟨first, s, Program.completes_unwrap.mpr ⟨hfirst, rfl⟩, ?_⟩
    rcases hcase with ⟨hid, rfl⟩ | ⟨rfl, hflag | ⟨r, hflag, hinit⟩⟩
    · rw [if_neg hid]
      exact Program.completes_pure.mpr ⟨rfl, rfl⟩
    · rw [if_pos rfl]
      exact Program.completes_bind.mpr ⟨_, t, hflag, Program.completes_pure.mpr ⟨rfl, rfl⟩⟩
    · rw [if_pos rfl]
      refine Program.completes_bind.mpr ⟨_, r, hflag, Program.completes_bind.mpr ⟨_, t, hinit, ?_⟩⟩
      exact Program.completes_pure.mpr ⟨rfl, rfl⟩

end PlacementCenter.Openraft.RaftNode
