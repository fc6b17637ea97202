import PlacementCenter.Raft.Metadata
import PlacementCenter.Raft.Apply
import PlacementCenter.Raft.RaftRocksDBStorage

/-!
# The raft machine

The task that drives the node of the raft crate: it takes requests from a queue, hands them to the
node, and works off what the node reports as ready. The node itself and the clock lie outside: what
they answer during a turn of the loop is an input of the turn.

## Main definitions

* `MachineEvent`: what a run of the machine shows to the outside
* `RaftMachine`: the state of the task
* `Ready`, `LightReady`, `Cycle`: what the node reports, and its answers during one cycle
* `Route σ`: the route of committed data that a machine is given
* `RaftMachine.handleMessage`: a request, by the arms of the loop of `run`
* `RaftMachine.handleCommittedEntries`, `onReady`, `newNode`, `turn`: the code of `raft/machine.rs`
-/

namespace PlacementCenter.Raft

open Rust Rust.Prost Storage

/-- A call of the node of the raft crate. -/
inductive RaftCall where
  | propose (context data : Bytes)
  | proposeConfChange (context : Bytes) (change : ConfChange)
  | step (message : RaftPreludeMessage)
  | transferLeader (nodeId : UInt64)
  | tick

/-- What a run of the machine shows to the outside. -/
inductive MachineEvent where
  /-- The node was called. -/
  | called (call : RaftCall)
  /-- A committed entry was passed to `DataRoute::route`. -/
  | routed (entry : Entry)
  /-- The route of a committed entry returned `Ok`. -/
  | applied (entry : Entry)
  /-- `Success` was sent on a channel: on the commit of an entry, or on a request itself. -/
  | responded (chan : ChanId) (entry : Option Entry)
  /-- A message for another node was queued. -/
  | sentPeer (addr : String) (data : Bytes)

/-- The state of the task. -/
structure RaftMachine where
  placementCluster : RaftGroupMetadata
  seqnum : UInt64
  respChannel : HashMap UInt64 ChanId
  entryNum : UInt64
  raftStorage : RaftMachineStorage

/-- `raft::Ready`. -/
structure Ready where
  messages : List RaftPreludeMessage
  snapshot : Snapshot
  entries : List Entry
  committedEntries : List Entry
  hs : Option HardState
  persistedMessages : List RaftPreludeMessage

/-- `raft::LightReady`. -/
structure LightReady where
  commitIndex : Option UInt64
  messages : List RaftPreludeMessage
  committedEntries : List Entry

/-- What the outside answers while entries are worked off: the time at which the entry with an
index is routed, and the configuration the node returns for a change at an index. -/
structure Answers where
  now : UInt64 → UInt64
  applyConfChange : UInt64 → ConfChange → Option ConfState

/-- One cycle: what the node reports as ready, and what it reports once it was advanced. -/
structure Cycle extends Answers where
  ready : Ready
  lightRd : LightReady

/-- `Config`, as far as the node depends on the store. -/
structure Config where
  applied : UInt64
  deriving DecidableEq, Repr

/-- The number of message types. -/
def msgTypes : Int32 := 19

/-- A route of committed data, at a time. -/
abbrev Route (σ : Type) := UInt64 → Bytes → Program σ (Except RobustMQError Unit)

/-- `build_config`. -/
def buildConfig (apply : UInt64) : Config := { applied := apply }

namespace RaftMachine

/-- `RaftMachine::new`. -/
def new (placementCluster : RaftGroupMetadata) (raftStorage : RaftMachineStorage) : RaftMachine where
  placementCluster := placementCluster
  seqnum := 1
  respChannel := ∅
  entryNum := 1
  raftStorage := raftStorage

variable {σ : Type} [Observed σ MachineEvent]

/-! ### Requests -/

/-- Number a proposal and hand it to the node, which takes it or not. The number is all the
context of the entry; the channel of a rejected proposal is dropped. -/
def propose (self : RaftMachine) (call : Bytes → RaftCall) (accepted : Bool) (chan : ChanId) :
    Program σ RaftMachine := do
  let seq := self.seqnum
  -- the number is used up also when the node refuses
  let self := { self with seqnum := seq + 1 }
  Observed.emit (.called (call (Bincode.serialize seq)))
  if accepted then return { self with respChannel := self.respChannel.insert seq chan }
  else return self

/-- The arms of the loop of `run`, for a request that the node takes or not. -/
def handleMessage (self : RaftMachine) (accepted : Bool) : RaftMessage → Program σ RaftMachine
  | .confChange change chan => self.propose (.proposeConfChange · change) accepted chan
  | .raft message chan => do
    Observed.emit (.called (.step message))
    -- a refused message drops its channel
    if accepted then
      Observed.emit (.responded chan none)
    return self
  | .transferLeader nodeId chan => do
    Observed.emit (.called (.transferLeader nodeId))
    Observed.emit (.responded chan none)
    return self
  | .propose data chan => self.propose (.propose · data) accepted chan

/-! ### Messages to the other nodes -/

/-- A message to a member that is not known is not sent. -/
def sendPeerMessage (self : RaftMachine) (id : UInt64) (msg : Bytes) : Program σ Unit :=
  match self.placementCluster.getNodeById id with
  | some node => Observed.emit (.sentPeer node.nodeInnerAddr msg)
  | none => pure ()

/-- One iteration of the loop of `send_message`. The type of a message is read for the log. -/
def sendOne (self : RaftMachine) (_ : Unit) (msg : RaftPreludeMessage) : Program σ Unit := do
  if 0 ≤ msg.msgType ∧ msg.msgType < msgTypes then
    self.sendPeerMessage msg.toId (encodeToVec msg)
  else
    Program.panic s!"Unknown enum variant: {msg.msgType}"

def sendMessage (self : RaftMachine) (messages : List RaftPreludeMessage) : Program σ Unit :=
  messages.foldlM self.sendOne ()

/-! ### Committed entries -/

variable [RocksDb σ]

/-- A normal entry: an error of the route is only logged. -/
def routeEntry (route : Route σ) (now : UInt64) (entry : Entry) : Program σ Unit := do
  Observed.emit (.routed entry)
  match ← route now entry.data.val with
  | .ok () => Observed.emit (.applied entry)
  | .error _ => return ()

/-- The members after a configuration change. A member that cannot be read is only logged. -/
def changePeers (self : RaftMachine) (change : ConfChange) : Program σ RaftMachine :=
  match ConfChangeType.fromI32 change.changeType with
  | some .addNode =>
    match (Bincode.deserialize change.context.val : Option BrokerNode) with
    | some node =>
      pure { self with placementCluster := self.placementCluster.addPeer change.nodeId node }
    | none => pure self
  | some .removeNode =>
    pure { self with placementCluster := self.placementCluster.removePeer change.nodeId }
  -- `_ => unimplemented!()`
  | some .addLearnerNode => Program.panic "not implemented"
  | none => Program.panic s!"Unknown enum variant: {change.changeType}"

/-- A configuration entry: a change the node rejects is not stored. -/
def changeConf (self : RaftMachine) (applyConfChange : ConfChange → Option ConfState)
    (entry : Entry) : Program σ RaftMachine := do
  let change : ConfChange ← Program.unwrapOk (decode entry.data.val)
  let self ← self.changePeers change
  -- the members have changed, whatever the node answers
  match applyConfChange change with
  | some cs =>
    let _ ← RaftRocksDBStorage.setConfState cs
    return self
  | none => return self

/-- The part of the loop of `handle_committed_entries` that applies an entry with data. -/
def applyEntry (route : Route σ) (answers : Answers) (self : RaftMachine) (entry : Entry) :
    Program σ RaftMachine :=
  if entry.data.val = [] then pure self
  else
    match EntryType.fromI32 entry.entryType with
    | some .entryNormal => do
      routeEntry route (answers.now entry.index) entry
      return self
    | some .entryConfChange => self.changeConf (answers.applyConfChange entry.index) entry
    | some .entryConfChangeV2 => pure self
    | none => Program.panic s!"Unknown enum variant: {entry.entryType}"

/-- The part that answers the channel an entry is looked up to belong to. -/
def respond (self : RaftMachine) (entry : Entry) : Program σ RaftMachine :=
  match (Bincode.deserialize entry.context.val : Option UInt64) with
  | some seq =>
    -- the entry may be one that another node numbered
    match self.respChannel[seq]? with
    | some chan => do
      Observed.emit (.responded chan (some entry))
      return { self with respChannel := self.respChannel.erase seq }
    | none => pure self
  | none => pure self

/-- A snapshot with every thousandth entry. -/
def createSnapshot (self : RaftMachine) : Program σ RaftMachine := do
  let num := self.entryNum
  let self := { self with entryNum := num + 1 }
  if num % 1000 = 0 then
    let (_, raftStorage) ← RaftRocksDBStorage.createSnapshot self.raftStorage
    return { self with raftStorage := raftStorage }
  else return self

/-- The part that follows, for every entry. -/
def commitEntry (self : RaftMachine) (entry : Entry) : Program σ RaftMachine := do
  -- `let _ =`: an error is dropped
  let (_, raftStorage) ← RaftRocksDBStorage.commmitIndex self.raftStorage entry.index
  let self := { self with raftStorage := raftStorage }
  let self ← self.respond entry
  self.createSnapshot

/-- One iteration of the loop of `handle_committed_entries`. -/
def handleEntry (route : Route σ) (answers : Answers) (self : RaftMachine) (entry : Entry) :
    Program σ RaftMachine := do
  let self ← self.applyEntry route answers entry
  self.commitEntry entry

def handleCommittedEntries (route : Route σ) (answers : Answers) (self : RaftMachine)
    (entrys : List Entry) : Program σ RaftMachine :=
  entrys.foldlM (handleEntry route answers) self

/-! ### Cycles -/

/-- The snapshot of a `Ready`, unless it is empty. -/
def saveSnapshot (self : RaftMachine) (s : Snapshot) : Program σ RaftMachine := do
  if s = Snapshot.default then return self
  else
    let (_, raftStorage) ← RaftRocksDBStorage.applySnapshot self.raftStorage s
    return { self with raftStorage := raftStorage }

/-- The entries of a `Ready`, unless there are none. -/
def saveEntries (self : RaftMachine) (entries : List Entry) : Program σ RaftMachine := do
  if entries = [] then return self
  else
    let (_, raftStorage) ← RaftRocksDBStorage.append self.raftStorage entries
    return { self with raftStorage := raftStorage }

/-- The hard state of a `Ready`, when it changed. -/
def saveHardState : Option HardState → Program σ Unit
  | some hs => do
    let _ ← RaftRocksDBStorage.setHardState hs
    return ()
  | none => pure ()

/-- The commit index of a `LightReady`, when it changed. -/
def saveCommit : Option UInt64 → Program σ Unit
  | some commit => do
    let _ ← RaftRocksDBStorage.setHardStateComit commit
    return ()
  | none => pure ()

/-- `on_ready`, on a node that has something ready. -/
def onReady (route : Route σ) (self : RaftMachine) (cycle : Cycle) : Program σ RaftMachine := do
  self.sendMessage cycle.ready.messages
  let self ← self.saveSnapshot cycle.ready.snapshot
  let self ← self.saveEntries cycle.ready.entries
  let self ← self.handleCommittedEntries route cycle.toAnswers cycle.ready.committedEntries
  -- the entries were routed before the hard state is stored
  saveHardState cycle.ready.hs
  self.sendMessage cycle.ready.persistedMessages
  -- here the node is advanced
  saveCommit cycle.lightRd.commitIndex
  self.sendMessage cycle.lightRd.messages
  self.handleCommittedEntries route cycle.toAnswers cycle.lightRd.committedEntries

/-- `new_node`: the configuration of the node. The voters become the known members. -/
def newNode (self : RaftMachine) : Program σ Config := do
  let hs ← RaftMachineStorage.hardState
  let conf := buildConfig hs.commit
  let cs ← RaftMachineStorage.confState
  let _ ← RaftMachineStorage.saveConfState
    { cs with voters := self.placementCluster.nodeIds }
  return conf

/-- A process that comes up: the store over the contents of the database, a machine over it, and
the node it starts. -/
def boot (placementCluster : RaftGroupMetadata) : Program σ (RaftMachine × Config) := do
  let self := new placementCluster (← RaftMachineStorage.new)
  let conf ← self.newNode
  return (self, conf)

/-! ### Turns of the loop -/

/-- What the queue gives within a heartbeat. -/
inductive Received where
  | message (message : RaftMessage)
  | closed
  | elapsed

/-- What the outside answers during one turn of the loop: whether the task is to stop, what the
queue gives, whether the node takes the request, whether a heartbeat has passed, the role of the
node and what it reports as ready. -/
structure Turn where
  stop : Bool
  received : Received
  accepted : Bool
  elapsed : Bool
  role : StateRole
  cycle : Option Cycle

/-- A tick of the node, once a heartbeat has passed. -/
def tick (elapsed : Bool) : Program σ Unit :=
  if elapsed then Observed.emit (.called .tick) else pure ()

/-- The part of a turn after the queue was asked. -/
def advance (route : Route σ) (turn : Turn) (self : RaftMachine) : Program σ RaftMachine := do
  tick turn.elapsed
  let self := { self with placementCluster := self.placementCluster.setRole turn.role }
  match turn.cycle with
  | some cycle => self.onReady route cycle
  | none => return self

/-- One turn of the loop of `run`; `none` when the task stops. -/
def turn (route : Route σ) (turn : Turn) (self : RaftMachine) :
    Program σ (Option RaftMachine) := do
  if turn.stop then return none
  else
    match turn.received with
    | .message message =>
      let self ← self.handleMessage turn.accepted message
      return some (← self.advance route turn)
    | .closed => return some self
    | .elapsed => return some (← self.advance route turn)

end RaftMachine

end PlacementCenter.Raft
