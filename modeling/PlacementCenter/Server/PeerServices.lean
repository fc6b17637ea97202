import PlacementCenter.Raft.Peers
import PlacementCenter.Server.ServicesKv

/-!
# The services for other nodes

The handlers of `GrpcOpenRaftServices` and `GrpcRaftServices`: a request of another node carries the
bytes of a message, which is decoded and passed to the node of the group. Bytes that are no message
are refused by the handlers of the second service; those of the first one panic.

## Main definitions

* `OpenRaftNode V A S`: the openraft node, its messages and their formats
* `GrpcOpenRaftServices.vote`, `append`, `snapshot`, `GrpcRaftServices.sendRaftMessage`,
  `sendRaftConfChange`: the handlers
* `Guards expected handler`: malformed bytes are rejected, and a decoded message is passed on
* `PeerRequest.Guarded`: the handler of a request guards the node

## Main results

* `guards_passOn_iff`, `guards_applyDecoded`: what the handlers of the two services do
* `guarded_iff`: which requests the handlers guard the node against
-/

namespace PlacementCenter.Server

open Rust Rust.Program Rust.Prost Raft

/-! ### Requests and replies -/

structure VoteRequest where
  value : Bytes

structure AppendRequest where
  value : Bytes

structure SnapshotRequest where
  value : Bytes

structure VoteReply where
  value : Bytes

structure AppendReply where
  value : Bytes

structure SnapshotReply where
  value : Bytes

structure SendRaftConfChangeRequest where
  message : Bytes

structure SendRaftMessageReply where

structure SendRaftConfChangeReply where

/-! ### The node of the group -/

/-- A message that was passed to the node: to the openraft node, with its three kinds of messages,
or to the raft machine. -/
inductive Passed (V A S : Type) where
  | vote (message : V)
  | append (message : A)
  | snapshot (message : S)
  | machine (request : Raft.Request)

/-- What an openraft node answers to one kind of messages, with the bincode formats of the messages
and of the answers. -/
structure Endpoint (α : Type) where
  Answer : Type
  deserialize : Bytes → Except String α
  call : α → Except String Answer
  serialize : Answer → Except String Bytes

/-- The openraft node. -/
structure OpenRaftNode (V A S : Type) where
  vote : Endpoint V
  appendEntries : Endpoint A
  installSnapshot : Endpoint S

/-- The queue of the raft machine: what becomes of the channel of a request. -/
structure MachineQueue where
  fate : RaftMessage → Fate
  chan : ChanId

variable {V A S : Type}

/-- A message is passed to the node. -/
def pass (message : Passed V A S) : Program (List (Passed V A S)) Unit :=
  Program.modify fun passed => passed ++ [message]

/-! ### The handlers -/

namespace GrpcOpenRaftServices

/-- The value of the reply, for a message that was passed to the node. -/
def replyValue {α : Type} (endpoint : Endpoint α) (voteData : α) : Except Status Bytes :=
  match endpoint.call voteData with
  | .error e => .error (.cancelled e)
  | .ok res =>
    match endpoint.serialize res with
    | .ok data => .ok data
    | .error e => .error (.cancelled e)

/-- The handlers of the service: what the bytes encode is passed to the node, and its answer is
returned. The decoding is unwrapped. -/
def passOn {α : Type} (endpoint : Endpoint α) (toPassed : α → Passed V A S) (value : Bytes) :
    Program (List (Passed V A S)) (Except Status Bytes) := do
  let voteData ← Program.expectOk (endpoint.deserialize value)
  pass (toPassed voteData)
  return replyValue endpoint voteData

def vote (node : OpenRaftNode V A S) (request : VoteRequest) :
    Program (List (Passed V A S)) (Except Status VoteReply) := do
  return (← passOn node.vote .vote request.value).map VoteReply.mk

def append (node : OpenRaftNode V A S) (request : AppendRequest) :
    Program (List (Passed V A S)) (Except Status AppendReply) := do
  return (← passOn node.appendEntries .append request.value).map AppendReply.mk

def snapshot (node : OpenRaftNode V A S) (request : SnapshotRequest) :
    Program (List (Passed V A S)) (Except Status SnapshotReply) := do
  return (← passOn node.installSnapshot .snapshot request.value).map SnapshotReply.mk

end GrpcOpenRaftServices

namespace GrpcRaftServices

/-- The reply for a request that was sent to the raft machine. -/
def machineReply (queue : MachineQueue) (request : Raft.Request) : Except Status Unit :=
  match request.apply queue.fate queue.chan with
  | .ok _ => .ok ()
  | .error e => .error (.cancelled (RobustMQError.raftLogCommitTimeout e.toText).toText)

/-- The handlers of the service: the request that the bytes encode is sent to the raft machine. An
error of the library is represented by the bytes it cannot read. -/
def applyDecoded {α : Type} [Message α] (queue : MachineQueue) (toRequest : α → Raft.Request)
    (message : Bytes) : Program (List (Passed V A S)) (Except Status Unit) := do
  match (decode message : Option α) with
  | none => return .error (.invalidArgument (toString message))
  | some m =>
    pass (.machine (toRequest m))
    return machineReply queue (toRequest m)

def sendRaftMessage (queue : MachineQueue) (request : SendRaftMessageRequest) :
    Program (List (Passed V A S)) (Except Status SendRaftMessageReply) := do
  let sent ← applyDecoded queue (fun message => .raft message "send_raft_message") request.message
  return sent.map fun _ => ⟨⟩

def sendRaftConfChange (queue : MachineQueue) (request : SendRaftConfChangeRequest) :
    Program (List (Passed V A S)) (Except Status SendRaftConfChangeReply) := do
  let sent ← applyDecoded queue (fun change => .confChange change "send_conf_raft_message")
    request.message
  return sent.map fun _ => ⟨⟩

end GrpcRaftServices

/-! ### What the handlers guard against -/

/-- The handler returns. When the bytes do not decode to what is expected, it returns an error and
passes nothing on; when they do, it passes exactly that on. -/
def Guards {ρ : Type} (expected : Option (Passed V A S))
    (handler : Program (List (Passed V A S)) (Except Status ρ)) : Prop :=
  ∀ passed, ∃ reply, Completes handler passed reply (passed ++ expected.toList) ∧
    (expected = none → ∃ status, reply = .error status)

/-- The requests of other nodes. -/
inductive PeerRequest where
  | vote (request : VoteRequest)
  | append (request : AppendRequest)
  | snapshot (request : SnapshotRequest)
  | sendRaftMessage (request : SendRaftMessageRequest)
  | sendRaftConfChange (request : SendRaftConfChangeRequest)

/-- The message that the bytes of a request decode to, if they do. -/
def PeerRequest.expected (node : OpenRaftNode V A S) : PeerRequest → Option (Passed V A S)
  | vote request => (node.vote.deserialize request.value).toOption.map .vote
  | append request => (node.appendEntries.deserialize request.value).toOption.map .append
  | snapshot request => (node.installSnapshot.deserialize request.value).toOption.map .snapshot
  | sendRaftMessage request =>
    (decode request.message).map fun message => .machine (.raft message "send_raft_message")
  | sendRaftConfChange request => (decode request.message).map fun change =>
    .machine (.confChange change "send_conf_raft_message")

/-- The handler of a request guards the node. -/
def PeerRequest.Guarded (node : OpenRaftNode V A S) (queue : MachineQueue) (r : PeerRequest) :
    Prop :=
  match r with
  | vote request => Guards (r.expected node) (GrpcOpenRaftServices.vote node request)
  | append request => Guards (r.expected node) (GrpcOpenRaftServices.append node request)
  | snapshot request => Guards (r.expected node) (GrpcOpenRaftServices.snapshot node request)
  | sendRaftMessage request =>
    Guards (r.expected node) (GrpcRaftServices.sendRaftMessage queue request)
  | sendRaftConfChange request =>
    Guards (r.expected node) (GrpcRaftServices.sendRaftConfChange queue request)

/-- The request is one of the raft machine, and not of the openraft node. -/
def PeerRequest.isForMachine : PeerRequest → Bool
  | sendRaftMessage _ => true
  | sendRaftConfChange _ => true
  | _ => false

section Guards

variable {ρ ρ' : Type} {expected : Option (Passed V A S)}
  {handler : Program (List (Passed V A S)) (Except Status ρ)}

/-- What the reply carries makes no difference. -/
theorem guards_map_iff (f : ρ → ρ') :
    Guards expected (do return (← handler).map f) ↔ Guards expected handler := by
  constructor
  · intro h passed
    obtain ⟨reply, hrun, herror⟩ := h passed
    obtain ⟨reply', t, hhandler, hpure⟩ := completes_bind.mp hrun
    obtain ⟨rfl, rfl⟩ := completes_pure.mp hpure
    refine ⟨reply', hhandler, fun hnone => ?_⟩
    obtain ⟨status, hstatus⟩ := herror hnone
    cases reply' with
    | ok a => cases hstatus
    | error e => exact ⟨e, rfl⟩
  · intro h passed
    obtain ⟨reply, hrun, herror⟩ := h passed
    refine ⟨reply.map f, completes_bind.mpr ⟨reply, _, hrun, completes_pure.mpr ⟨rfl, rfl⟩⟩, ?_⟩
    intro hnone
    obtain ⟨status, rfl⟩ := herror hnone
    exact ⟨status, rfl⟩

/-- **The handlers of the openraft node** guard it against the bytes that decode, and panic on the
others. -/
theorem guards_passOn_iff {α : Type} (endpoint : Endpoint α) (toPassed : α → Passed V A S)
    (value : Bytes) :
    Guards ((endpoint.deserialize value).toOption.map toPassed)
        (GrpcOpenRaftServices.passOn endpoint toPassed value) ↔
      ((endpoint.deserialize value).toOption.map toPassed).isSome := by
  unfold GrpcOpenRaftServices.passOn
  cases hvalue : endpoint.deserialize value with
  | error e =>
    refine iff_of_false (fun h => ?_) (by simp [Except.toOption])
    obtain ⟨reply, hrun, -⟩ := h []
    rw [expectOk_error] at hrun
    cases hrun
  | ok voteData =>
    refine iff_of_true (fun passed => ?_) rfl
    exact ⟨GrpcOpenRaftServices.replyValue endpoint voteData, rfl, fun h => by cases h⟩

/-- **The handlers of the raft machine** guard it against all bytes. -/
theorem guards_applyDecoded {α : Type} [Message α] (queue : MachineQueue)
    (toRequest : α → Raft.Request) (message : Bytes) :
    Guards ((decode message : Option α).map fun m => (.machine (toRequest m) : Passed V A S))
      (GrpcRaftServices.applyDecoded queue toRequest message) := by
  intro passed
  unfold GrpcRaftServices.applyDecoded
  cases (decode message : Option α) with
  | none =>
    refine ⟨.error (.invalidArgument (toString message)), ?_, fun _ => ⟨_, rfl⟩⟩
    rw [Option.map_none, Option.toList_none, List.append_nil]
    rfl
  | some m => exact ⟨GrpcRaftServices.machineReply queue (toRequest m), rfl, fun h => by cases h⟩

end Guards

/-- **The handlers guard the node** against every request of the raft machine, and against those of
the openraft node that decode. -/
theorem guarded_iff (node : OpenRaftNode V A S) (queue : MachineQueue) (r : PeerRequest) :
    r.Guarded node queue ↔ r.isForMachine = true ∨ (r.expected node).isSome := by
  have openraft : ∀ {expected : Option (Passed V A S)} {ρ ρ' : Type} (f : ρ → ρ')
      {handler : Program (List (Passed V A S)) (Except Status ρ)},
      (Guards expected handler ↔ expected.isSome) →
        (Guards expected (do return (← handler).map f) ↔ false = true ∨ expected.isSome) := by
    intro expected ρ ρ' f handler h
    rw [guards_map_iff, h, or_iff_right Bool.false_ne_true]
  cases r with
  | vote request => exact openraft _ (guards_passOn_iff _ _ _)
  | append request => exact openraft _ (guards_passOn_iff _ _ _)
  | snapshot request => exact openraft _ (guards_passOn_iff _ _ _)
  | sendRaftMessage request =>
    exact iff_of_true ((guards_map_iff _).mpr (guards_applyDecoded _ _ _)) (.inl rfl)
  | sendRaftConfChange request =>
    exact iff_of_true ((guards_map_iff _).mpr (guards_applyDecoded _ _ _)) (.inl rfl)

/-- An openraft node whose messages start with a number, like the term of a vote. -/
def numberNode : OpenRaftNode UInt64 UInt64 UInt64 :=
  let endpoint : Endpoint UInt64 :=
    { Answer := UInt64
      deserialize := fun b => match Bincode.deserialize b with
        | some n => .ok n
        | none => .error "io error: unexpected end of file"
      call := fun n => .ok n
      serialize := fun n => .ok (Bincode.serialize n) }
  ⟨endpoint, endpoint, endpoint⟩

/-- A vote request without bytes makes the handler panic. -/
theorem not_guarded_vote_empty :
    ¬ (PeerRequest.vote ⟨[]⟩).Guarded numberNode ⟨fun _ => none, 0⟩ := by
  intro h
  obtain ⟨reply, hrun, -⟩ := h []
  cases hrun

end PlacementCenter.Server
