import PlacementCenter.Rust.Bincode
import PlacementCenter.Raft.Eraftpb
import PlacementCenter.Common.Errors

/-!
# Requests to the raft machine

A request is sent to the raft machine through a queue, with the sending half of a oneshot channel
on which the machine answers. The caller waits for the answer for thirty seconds.

## Main definitions

* `RaftMessage`, `RaftResponseMesage`: the requests and the answers
* `StorageData`: the envelope of a replicated write, with its bincode encoding
* `Fate`: how a oneshot channel ends for the one who waits on it
* `Request`, `Request.apply`: the four methods of `RaftMachineApply`

## Main results

* `waitRecvChanResp_eq_true`: every end of the channel within the limit counts as an answer
* `Request.apply_eq_ok`, `Request.apply_eq_error`: what the caller is told
-/

namespace PlacementCenter.Raft

open Rust

/-- The answer of the raft machine. -/
inductive RaftResponseMesage where
  | success
  | fail
  deriving DecidableEq, Repr

/-- A oneshot channel, by its number. -/
abbrev ChanId := ℕ

/-- A request, with the sender of its channel. -/
inductive RaftMessage where
  | confChange (change : ConfChange) (chan : ChanId)
  | raft (message : RaftPreludeMessage) (chan : ChanId)
  | transferLeader (nodeId : UInt64) (chan : ChanId)
  | propose (data : Bytes) (chan : ChanId)

/-- The channel of a request. -/
def RaftMessage.chan : RaftMessage → ChanId
  | confChange _ chan => chan
  | raft _ chan => chan
  | transferLeader _ chan => chan
  | propose _ chan => chan

/-! ### The envelope of a write -/

inductive StorageDataType where
  | kvSet
  | kvDelete
  deriving DecidableEq, Repr

/-- The index of a variant. -/
def StorageDataType.index : StorageDataType → ℕ
  | kvSet => 0
  | kvDelete => 1

/-- The variant with an index. -/
def StorageDataType.ofIndex : ℕ → Option StorageDataType
  | 0 => some kvSet
  | 1 => some kvDelete
  | _ => none

theorem StorageDataType.ofIndex_eq_some {n : ℕ} {t : StorageDataType} :
    ofIndex n = some t ↔ n = t.index := by
  constructor
  · intro h
    rcases n with _ | _ | n
    · cases h
      rfl
    · cases h
      rfl
    · cases h
  · rintro rfl
    cases t <;> rfl

theorem StorageDataType.index_lt (t : StorageDataType) : t.index < 2 := by
  cases t <;> decide

instance : Bincode StorageDataType where
  put t := leBytes 4 t.index
  get b := (Bincode.getNat 4 b).bind fun r =>
    (StorageDataType.ofIndex r.1).map fun t => (t, r.2)
  put_ne_nil _ h := by
    have := congrArg List.length h
    simp at this
  get_put t rest _ := by
    have ht := t.index_lt
    rw [Bincode.getNat_leBytes (by omega), Option.bind_some,
      StorageDataType.ofIndex_eq_some.mpr rfl]
    rfl

/-- The envelope of a replicated write: its kind and its request. -/
structure StorageData where
  dataType : StorageDataType
  value : Bytes
  deriving DecidableEq, Repr

/-- `StorageData::new`. -/
def StorageData.new (dataType : StorageDataType) (value : Bytes) : StorageData := ⟨dataType, value⟩

instance : Bincode StorageData where
  put d := Bincode.put (d.dataType, d.value)
  get b := (Bincode.get (α := StorageDataType × Bytes) b).map fun r => (⟨r.1.1, r.1.2⟩, r.2)
  put_ne_nil d := Bincode.put_ne_nil (d.dataType, d.value)
  get_put d rest h := by
    rw [Bincode.get_put (d.dataType, d.value) rest h]
    rfl

/-! ### Waiting for the answer -/

/-- How a oneshot channel ends for the one who waits on it: the milliseconds until then, and the
answer, unless the sender was dropped. `none` when neither happens. -/
abbrev Fate := Option (ℕ × Option RaftResponseMesage)

/-- `tokio::time::timeout`, on the time and the value of a future: the value, when it is there
within the limit. -/
def timeout {α : Type} (limit : ℕ) (future : Option (ℕ × α)) : Option α :=
  (future.filter fun r => r.1 ≤ limit).map Prod.snd

/-- The thirty seconds a caller waits. -/
def waitLimit : ℕ := 30 * 1000

/-- `wait_recv_chan_resp`: a dropped sender reads as `Fail`, and any value in time as `true`. -/
def waitRecvChanResp (rx : Fate) : Bool :=
  let res := timeout waitLimit (rx.map fun r => (r.1, r.2.getD .fail))
  match res with
  | some _ => true
  | none => false

/-- `apply_raft_status_machine_message`: the failure of the send is ignored; `fate` is what becomes
of the channel of the message. -/
def applyRaftStatusMachineMessage (fate : RaftMessage → Fate) (message : RaftMessage)
    (action : String) : Except RobustMQError Unit :=
  if !waitRecvChanResp (fate message) then .error (.raftLogCommitTimeout action) else .ok ()

/-- The four kinds of requests, with their action texts. -/
inductive Request where
  | transferLeader (nodeId : UInt64)
  | propose (data : Bytes) (action : String)
  | raft (message : RaftPreludeMessage) (action : String)
  | confChange (change : ConfChange) (action : String)

/-- The message of a request. -/
def Request.message (chan : ChanId) : Request → RaftMessage
  | transferLeader nodeId => .transferLeader nodeId chan
  | propose data _ => .propose data chan
  | raft message _ => .raft message chan
  | confChange change _ => .confChange change chan

/-- The text of a request that is reported with a timeout. -/
def Request.action : Request → String
  | transferLeader _ => "transfer_leader"
  | propose _ action => action
  | raft _ action => action
  | confChange _ action => action

/-- `transfer_leader`, `apply_propose_message` on the data of a proposal, `apply_raft_message` and
`apply_conf_raft_message`, on the channel `chan`. -/
def Request.apply (fate : RaftMessage → Fate) (chan : ChanId) (request : Request) :
    Except RobustMQError Unit :=
  applyRaftStatusMachineMessage fate (request.message chan) request.action

/-- The data of the proposal `apply_propose_message` makes of a write. -/
def proposalData (data : StorageData) : Bytes := Bincode.serialize data

/-- The request `apply_propose_message` makes of a write. -/
def Request.ofWrite (data : StorageData) (action : String) : Request :=
  .propose (proposalData data) action

@[simp] theorem Request.chan_message (chan : ChanId) (request : Request) :
    (request.message chan).chan = chan := by
  cases request <;> rfl

/-- **Any end of the channel within the limit counts as an answer.** -/
theorem waitRecvChanResp_eq_true {rx : Fate} :
    waitRecvChanResp rx = true ↔ ∃ t a, rx = some (t, a) ∧ t ≤ waitLimit := by
  rcases rx with _ | ⟨t, a⟩
  · simp [waitRecvChanResp, timeout]
  · by_cases ht : t ≤ waitLimit <;> simp [waitRecvChanResp, timeout, Option.filter, ht]

section apply

variable {fate : RaftMessage → Fate} {chan : ChanId} {request : Request}

theorem Request.apply_eq_ok :
    request.apply fate chan = .ok () ↔
      ∃ t a, fate (request.message chan) = some (t, a) ∧ t ≤ waitLimit := by
  rw [Request.apply, applyRaftStatusMachineMessage, ← waitRecvChanResp_eq_true]
  cases waitRecvChanResp (fate (request.message chan)) <;> simp

/-- A caller that is not told of success is told of a timeout. -/
theorem Request.apply_eq_error (h : request.apply fate chan ≠ .ok ()) :
    request.apply fate chan = .error (.raftLogCommitTimeout request.action) := by
  rw [Request.apply, applyRaftStatusMachineMessage] at h ⊢
  cases hw : waitRecvChanResp (fate (request.message chan)) with
  | true => simp [hw] at h
  | false => rfl

end apply

end PlacementCenter.Raft
