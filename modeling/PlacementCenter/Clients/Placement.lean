import PlacementCenter.Clients.Messages
import PlacementCenter.Server.ServicesKv

/-!
# The client of another node

How a node, or a program outside the cluster, has a request answered by another node: the request is
sent to one address after the other, until an attempt succeeds or too many failed.

## Main definitions

* `retryTimes`, `attemptAddr`, `afterAttempt`: the loop of `retry_call`
* `PlacementCenterInterface`: the interfaces of the services, with their requests and replies
* `inner`, `innerReply`: the functions `inner_*`
* `innerRequest`: the write that they ask the service for
* `placementReply`: what the functions `placement_*` return

## Main results

* `afterAttempt_eq_again`: an attempt is followed by another one when it failed
* `inner_eq`: the service is asked for the request of the call
* `eq_of_innerRequest`: so a write is asked for as it is
-/

namespace PlacementCenter.Placement

open Rust Rust.Prost Protocol Server Clients

/-! ### Attempts -/

def retryTimes : ℕ := 3

/-- The address of an attempt; `none` for the panic on an empty list. -/
def attemptAddr (addrs : List String) (times : ℕ) : Option String := addrs[times % addrs.length]?

/-- How an iteration of the loop of `retry_call` ends. -/
inductive Iteration where
  | returns (result : Except RobustMQError Bytes)
  | again (times : ℕ)

/-- The end of the iteration `times`, whose attempt gave the result. The pause before the next one
is left out. -/
def afterAttempt (times : ℕ) (result : Except RobustMQError Bytes) : Iteration :=
  match result with
  | .ok data => .returns (.ok data)
  | .error e => if times > retryTimes then .returns (.error e) else .again (times + 1)

/-- **Another attempt is made** when the last one failed and there were not too many. -/
theorem afterAttempt_eq_again {times n : ℕ} {result : Except RobustMQError Bytes} :
    afterAttempt times result = .again n ↔
      n = times + 1 ∧ times ≤ retryTimes ∧ ∃ e, result = .error e := by
  cases result with
  | ok data => simp [afterAttempt]
  | error e =>
    rw [afterAttempt]
    split_ifs with h
    · simp [h]
    · simp [Nat.not_lt.mp h, eq_comm]

/-! ### Interfaces -/

inductive PlacementCenterInterface where
  | set
  | get
  | delete
  | existsKey
  | vote
  | append
  | snapshot
  deriving DecidableEq, Repr

namespace PlacementCenterInterface

/-- The `Debug` of an interface. -/
def debug : PlacementCenterInterface → String
  | set => "Set"
  | get => "Get"
  | delete => "Delete"
  | existsKey => "Exists"
  | vote => "Vote"
  | append => "Append"
  | snapshot => "Snapshot"

def Request : PlacementCenterInterface → Type
  | set => SetRequest
  | get => GetRequest
  | delete => DeleteRequest
  | existsKey => ExistsRequest
  | vote => VoteRequest
  | append => AppendRequest
  | snapshot => SnapshotRequest

def Reply : PlacementCenterInterface → Type
  | set => CommonReply
  | get => GetReply
  | delete => CommonReply
  | existsKey => ExistsReply
  | vote => VoteReply
  | append => AppendReply
  | snapshot => SnapshotReply

instance : (i : PlacementCenterInterface) → Message i.Request
  | set => inferInstanceAs (Message SetRequest)
  | get => inferInstanceAs (Message GetRequest)
  | delete => inferInstanceAs (Message DeleteRequest)
  | existsKey => inferInstanceAs (Message ExistsRequest)
  | vote => inferInstanceAs (Message VoteRequest)
  | append => inferInstanceAs (Message AppendRequest)
  | snapshot => inferInstanceAs (Message SnapshotRequest)

instance : (i : PlacementCenterInterface) → Message i.Reply
  | set => inferInstanceAs (Message CommonReply)
  | get => inferInstanceAs (Message GetReply)
  | delete => inferInstanceAs (Message CommonReply)
  | existsKey => inferInstanceAs (Message ExistsReply)
  | vote => inferInstanceAs (Message VoteReply)
  | append => inferInstanceAs (Message AppendReply)
  | snapshot => inferInstanceAs (Message SnapshotReply)

instance (i : PlacementCenterInterface) : LawfulMessage i.Request := by
  cases i
  · exact inferInstanceAs (LawfulMessage SetRequest)
  · exact inferInstanceAs (LawfulMessage GetRequest)
  · exact inferInstanceAs (LawfulMessage DeleteRequest)
  · exact inferInstanceAs (LawfulMessage ExistsRequest)
  · exact inferInstanceAs (LawfulMessage VoteRequest)
  · exact inferInstanceAs (LawfulMessage AppendRequest)
  · exact inferInstanceAs (LawfulMessage SnapshotRequest)

instance (i : PlacementCenterInterface) : LawfulMessage i.Reply := by
  cases i
  · exact inferInstanceAs (LawfulMessage CommonReply)
  · exact inferInstanceAs (LawfulMessage GetReply)
  · exact inferInstanceAs (LawfulMessage CommonReply)
  · exact inferInstanceAs (LawfulMessage ExistsReply)
  · exact inferInstanceAs (LawfulMessage VoteReply)
  · exact inferInstanceAs (LawfulMessage AppendReply)
  · exact inferInstanceAs (LawfulMessage SnapshotReply)

end PlacementCenterInterface

/-! ### Requests and replies -/

section Replies

variable {ρ : Type} [Message ρ]

/-- What the functions `inner_*` return for the answer of the service. -/
def innerReply (answer : Except Status ρ) : Except RobustMQError Bytes :=
  match answer with
  | .ok result => .ok (encodeToVec result)
  | .error e => .error (.grpcServerStatus e)

/-- What a function of the library returns for the result of `retry_call`. An error text stands for
the library's own. -/
def placementReply (result : Except RobustMQError Bytes) : Except RobustMQError ρ :=
  match result with
  | .ok data =>
    match decode data with
    | some reply => .ok reply
    | none => .error (.commmonError (toString data))
  | .error e => .error e

end Replies

/-- The functions `inner_*`: the request is read back for the service, and its reply written down.
An error text of the library is represented by the bytes it cannot read. -/
def inner (i : PlacementCenterInterface) (call : i.Request → Except Status i.Reply)
    (request : Bytes) : Except RobustMQError Bytes :=
  match (decode request : Option i.Request) with
  | some req => innerReply (call req)
  | none => .error (.commmonError (toString request))

def innerGet := inner .get

def innerSet := inner .set

def innerDelete := inner .delete

def innerExists := inner .existsKey

def innerVote := inner .vote

def innerAppend := inner .append

def innerSnapshot := inner .snapshot

theorem inner_eq {i : PlacementCenterInterface} {request : i.Request}
    (h : (encodeToVec request).length < 2 ^ 64) (call : i.Request → Except Status i.Reply) :
    inner i call (encodeToVec request) =
      ((call request).mapError RobustMQError.grpcServerStatus).map encodeToVec := by
  rw [inner, decode_encodeToVec (fits_of_length h)]
  dsimp only
  cases call request with
  | error e => rfl
  | ok result => rfl

/-- The write that `inner_set` or `inner_delete` asks the service for, from the request that
`placement_set` or `placement_delete` writes down. -/
def innerRequest : Write → Option Write
  | .set req => (decode (encodeToVec req)).map Write.set
  | .delete req => (decode (encodeToVec req)).map Write.delete

/-- **The service is asked for the write of the call**, if it is asked at all. -/
theorem eq_of_innerRequest {write write' : Write} (h : innerRequest write = some write') :
    write' = write := by
  cases write with
  | set req =>
    obtain ⟨req', hreq, rfl⟩ := Option.map_eq_some_iff.mp h
    rw [eq_of_decode_encodeToVec hreq]
  | delete req =>
    obtain ⟨req', hreq, rfl⟩ := Option.map_eq_some_iff.mp h
    rw [eq_of_decode_encodeToVec hreq]

end PlacementCenter.Placement
