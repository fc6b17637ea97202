import PlacementCenter.Raft.Metadata
import PlacementCenter.Raft.Route

/-!
# The key-value service

The handlers of `GrpcKvServices`. A write is checked, and then forwarded to the leader or proposed
to the raft machine; a read is served from the local store.

## Main definitions

* `GrpcKvServices.set`, `delete`, `get`: the handlers
* `Write`: the writes the service accepts, what it proposes for them and what they stand for
* `AppliesWrite`: the route has the effect of a proposed write

## Main results

* `Write.reply_eq_ok`: when a leader acknowledges a write
* `not_appliesWrite`: the route has the effect of no write
-/

namespace PlacementCenter.Server

open Rust Rust.Prost Storage Protocol Raft

namespace GrpcKvServices

/-- What a handler returns for an error. -/
def cancelled (e : RobustMQError) : Status := .cancelled e.toText

/-- The reply to a write. A node that is not the leader forwards it to the address of the leader;
the leader proposes it. -/
def write {α : Type} (placementCluster : RaftGroupMetadata)
    (forward : List String → α → Except RobustMQError CommonReply)
    (propose : StorageData → String → Except RobustMQError Unit) (req : α) (data : StorageData)
    (action : String) : Except Status CommonReply :=
  if !placementCluster.isLeader then
    match forward [placementCluster.leaderAddr] req with
    | .ok reply => .ok reply
    | .error e => .error (cancelled e)
  else
    match propose data action with
    | .ok _ => .ok {}
    | .error e => .error (cancelled e)

/-- `set`, with `placement_set` and `apply_propose_message`. -/
def set (placementCluster : RaftGroupMetadata)
    (placementSet : List String → SetRequest → Except RobustMQError CommonReply)
    (propose : StorageData → String → Except RobustMQError Unit) (req : SetRequest) :
    Except Status CommonReply :=
  if req.key = "" ∨ req.value = "" then
    .error (cancelled (.parameterCannotBeNull "key or value"))
  else
    write placementCluster placementSet propose req (.new .kvSet (encodeToVec req)) "set"

/-- `delete`, with `placement_delete` and `apply_propose_message`. -/
def delete (placementCluster : RaftGroupMetadata)
    (placementDelete : List String → DeleteRequest → Except RobustMQError CommonReply)
    (propose : StorageData → String → Except RobustMQError Unit) (req : DeleteRequest) :
    Except Status CommonReply :=
  if req.key = "" then .error (cancelled (.parameterCannotBeNull "key"))
  else
    write placementCluster placementDelete propose req (.new .kvDelete (encodeToVec req)) "delete"

/-- `get`: a key without a value reads as the empty text. -/
def get {σ : Type} [RocksDb σ] (req : GetRequest) : Program σ (Except Status GetReply) := do
  if req.key = "" then return .error (cancelled (.parameterCannotBeNull "key"))
  else
    match ← KvStorage.get req.key with
    | .ok (some data) => return .ok { value := data }
    | .ok none => return .ok .default
    | .error e => return .error (cancelled e)

end GrpcKvServices

/-! ### Writes -/

/-- The writes of the service. -/
inductive Write where
  | set (req : SetRequest)
  | delete (req : DeleteRequest)

/-- The check of the handlers. -/
def Write.Accepted : Write → Prop
  | set req => req.key ≠ "" ∧ req.value ≠ ""
  | delete req => req.key ≠ ""

/-- The envelope the handlers propose. -/
def Write.data : Write → StorageData
  | set req => .new .kvSet (encodeToVec req)
  | delete req => .new .kvDelete (encodeToVec req)

/-- The text a handler reports with a timeout. -/
def Write.action : Write → String
  | set _ => "set"
  | delete _ => "delete"

/-- What a write stands for, at the time `now`. -/
def Write.effect {σ : Type} [RocksDb σ] (now : UInt64) :
    Write → Program σ (Except RobustMQError Unit)
  | set req => KvStorage.set now req.key req.value
  | delete req => KvStorage.delete req.key

/-- The clients of the other nodes. -/
structure Clients where
  placementSet : List String → SetRequest → Except RobustMQError CommonReply
  placementDelete : List String → DeleteRequest → Except RobustMQError CommonReply

/-- The reply of the service to a write. -/
def Write.reply (clients : Clients) (propose : StorageData → String → Except RobustMQError Unit)
    (placementCluster : RaftGroupMetadata) : Write → Except Status CommonReply
  | set req => GrpcKvServices.set placementCluster clients.placementSet propose req
  | delete req => GrpcKvServices.delete placementCluster clients.placementDelete propose req

/-- **A leader acknowledges a write** when the write passes the check and the proposal of its
envelope succeeds. -/
theorem Write.reply_eq_ok {clients : Clients}
    {propose : StorageData → String → Except RobustMQError Unit}
    {placementCluster : RaftGroupMetadata} (h : placementCluster.isLeader = true) (write : Write) :
    (∃ reply, write.reply clients propose placementCluster = .ok reply) ↔
      write.Accepted ∧ propose write.data write.action = .ok () := by
  -- a leader proposes, and nothing is forwarded
  have leader : ∀ {α : Type} (forward : List String → α → Except RobustMQError CommonReply)
      (req : α) (data : StorageData) (action : String),
      (∃ reply, GrpcKvServices.write placementCluster forward propose req data action =
        .ok reply) ↔ propose data action = .ok () := by
    intro α forward req data action
    rw [GrpcKvServices.write, if_neg (by simp [h])]
    cases propose data action with
    | ok _ => exact ⟨fun _ => rfl, fun _ => ⟨{}, rfl⟩⟩
    | error _ => simp
  cases write with
  | set req =>
    rw [reply, GrpcKvServices.set, Accepted]
    by_cases hr : req.key = "" ∨ req.value = ""
    · rw [if_pos hr]
      simp only [reduceCtorEq, exists_false, false_iff]
      tauto
    · rw [if_neg hr, leader]
      exact ⟨fun hp => ⟨not_or.mp hr, hp⟩, And.right⟩
  | delete req =>
    rw [reply, GrpcKvServices.delete, Accepted]
    by_cases hr : req.key = ""
    · rw [if_pos hr]
      simp [hr]
    · rw [if_neg hr, leader]
      exact ⟨fun hp => ⟨hr, hp⟩, And.right⟩

/-! ### The route of a proposed write -/

/-- The envelope of a write is read back from its proposal, and the request from the payload of
the envelope. -/
theorem Write.proposal_read_back (write : Write)
    (h : (proposalData write.data).length < 2 ^ 63) :
    Bincode.deserialize (proposalData write.data) = some write.data ∧
      match write with
      | .set req => decode write.data.value = some req
      | .delete req => decode write.data.value = some req := by
  refine ⟨proposalData_deserialize h, ?_⟩
  have hl : write.data.value.length < 2 ^ 64 := by
    have := length_proposalData write.data
    omega
  cases write with
  | set req => exact decode_encodeToVec (fits_of_length hl)
  | delete req => exact decode_encodeToVec (fits_of_length hl)

/-- The route of a proposed write has the effect of the write. -/
def AppliesWrite {ε : Type} (now : UInt64) (write : Write) (w : World ε) : Prop :=
  DataRoute.route now (proposalData write.data) w = write.effect now w

/-- **The route has the effect of no write**: it panics, where the write returns. -/
theorem not_appliesWrite {ε : Type} (now : UInt64) (write : Write) (w : World ε) :
    ¬ AppliesWrite now write w := by
  intro h
  rw [AppliesWrite, DataRoute.route_panics] at h
  cases write with
  | set req =>
    rw [Write.effect, KvStorage.set_run] at h
    cases h
  | delete req =>
    rw [Write.effect, KvStorage.delete_run] at h
    cases h

/-- A write that the service accepts, its route, and what it stands for. -/
theorem set_request_not_applied :
    (Write.set ⟨"a", "b"⟩).Accepted ∧
      DataRoute.route 0 (proposalData (Write.set ⟨"a", "b"⟩).data) (World.empty : World Empty) =
        (.panicked "called Result::unwrap() on an Err value", World.empty) ∧
      (Write.set ⟨"a", "b"⟩).effect 0 (World.empty : World Empty) =
        (.ok (.ok ()), putKey World.empty (utf8 "a") (kvRecord 0 "b")) ∧
      ¬ AppliesWrite 0 (Write.set ⟨"a", "b"⟩) (World.empty : World Empty) := by
  refine ⟨⟨by decide, by decide⟩, DataRoute.route_panics 0 _ _, rfl, ?_⟩
  intro h
  rw [AppliesWrite, DataRoute.route_panics] at h
  cases h

end PlacementCenter.Server
