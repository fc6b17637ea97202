import PlacementCenter.Raft.Cycles
import PlacementCenter.Server.ServicesKv

/-!
# The address of the leader

A node that is not the leader forwards a write to the address of the leader in its metadata. The
loop of the raft machine keeps the role and the members of the metadata up to date; the leader stays
what it was when the node came up.

## Main definitions

* `KeptByMembers I`: what a new role, a new member and a removed member keep
* `LoopRun route g`: the states after the turns of the loop, in a process that comes up with `g`
* `Clients.forward`: what a handler replies that forwards a write
* `FollowersForward`: writes are forwarded to the leader

## Main results

* `returns_onReady`, `returns_turn`: what the changes of the metadata keep, a turn keeps
* `leader_of_loopRun`: the metadata knows no leader, after any turns
* `followersForward_iff`: **writes are forwarded to the leader** exactly when its address is empty
-/

namespace PlacementCenter.Server

open Rust Rust.Prost Storage Protocol Raft Program

/-! ### The changes of the metadata -/

/-- What a new role, a new member and a removed member keep. -/
structure KeptByMembers (I : RaftGroupMetadata → Prop) : Prop where
  role : ∀ core role, I core → I (core.setRole role)
  add : ∀ core id node, I core → I (core.addPeer id node)
  remove : ∀ core id, I core → I (core.removePeer id)

section returns

variable {σ : Type} [RocksDb σ] [Observed σ MachineEvent] {route : Route σ} {answers : Answers}
  {I : RaftGroupMetadata → Prop} {self : RaftMachine}

omit [RocksDb σ] [Observed σ MachineEvent] in
theorem returns_changePeers (hI : KeptByMembers I) (change : ConfChange)
    (h : I self.placementCluster) :
    Returns (fun core => I core.placementCluster)
      (self.changePeers change : Program σ RaftMachine) := by
  unfold RaftMachine.changePeers
  split
  · split
    · exact returns_pure (hI.add _ _ _ h)
    · exact returns_pure h
  · exact returns_pure (hI.remove _ _ h)
  · exact returns_panic _
  · exact returns_panic _

theorem returns_applyEntry (hI : KeptByMembers I) (e : Entry) (h : I self.placementCluster) :
    Returns (fun core => I core.placementCluster) (self.applyEntry route answers e) := by
  unfold RaftMachine.applyEntry
  split_ifs
  · exact returns_pure h
  · split
    · exact returns_bind_of fun _ => returns_pure h
    · refine returns_bind_of fun change => ?_
      refine returns_bind (returns_changePeers hI change h) fun core hcore => ?_
      split
      · exact returns_bind_of fun _ => returns_pure hcore
      · exact returns_pure hcore
    · exact returns_pure h
    · exact returns_panic _

omit [RocksDb σ] in
theorem returns_respond (e : Entry) (h : I self.placementCluster) :
    Returns (fun core => I core.placementCluster) (self.respond e : Program σ RaftMachine) := by
  unfold RaftMachine.respond
  split
  · split
    · exact returns_bind_of fun _ => returns_pure h
    · exact returns_pure h
  · exact returns_pure h

omit [Observed σ MachineEvent] in
theorem returns_createSnapshot (h : I self.placementCluster) :
    Returns (fun core => I core.placementCluster)
      (self.createSnapshot : Program σ RaftMachine) := by
  unfold RaftMachine.createSnapshot
  dsimp only
  split_ifs
  · exact returns_bind_of fun _ => returns_pure h
  · exact returns_pure h

theorem returns_handleCommittedEntries (hI : KeptByMembers I) (es : List Entry)
    (h : I self.placementCluster) :
    Returns (fun core => I core.placementCluster)
      (self.handleCommittedEntries route answers es) := by
  refine returns_foldlM es (fun core e _ hcore => ?_) h
  refine returns_bind (returns_applyEntry hI e hcore) fun core₁ h₁ => returns_bind_of fun r => ?_
  exact returns_bind (returns_respond e h₁) fun core₂ h₂ => returns_createSnapshot h₂

omit [Observed σ MachineEvent] in
theorem returns_saveSnapshot (snapshot : Snapshot) (h : I self.placementCluster) :
    Returns (fun core => I core.placementCluster)
      (self.saveSnapshot snapshot : Program σ RaftMachine) := by
  unfold RaftMachine.saveSnapshot
  split_ifs
  · exact returns_pure h
  · exact returns_bind_of fun _ => returns_pure h

omit [Observed σ MachineEvent] in
theorem returns_saveEntries (es : List Entry) (h : I self.placementCluster) :
    Returns (fun core => I core.placementCluster)
      (self.saveEntries es : Program σ RaftMachine) := by
  unfold RaftMachine.saveEntries
  split_ifs
  · exact returns_pure h
  · exact returns_bind_of fun _ => returns_pure h

/-- **A cycle keeps what the changes of the metadata keep.** -/
theorem returns_onReady (hI : KeptByMembers I) (c : Cycle) (h : I self.placementCluster) :
    Returns (fun core => I core.placementCluster) (self.onReady route c) := by
  refine returns_bind_of fun _ => returns_bind (returns_saveSnapshot _ h) fun core₁ h₁ => ?_
  refine returns_bind (returns_saveEntries _ h₁) fun core₂ h₂ => ?_
  refine returns_bind (returns_handleCommittedEntries hI _ h₂) fun core₃ h₃ => ?_
  -- what lies between the two lists of entries leaves the machine
  refine returns_bind_of fun _ => returns_bind_of fun _ => returns_bind_of fun _ =>
    returns_bind_of fun _ => ?_
  exact returns_handleCommittedEntries hI _ h₃

omit [RocksDb σ] in
/-- A request leaves the metadata. -/
theorem returns_handleMessage (accepted : Bool) (message : RaftMessage)
    (h : I self.placementCluster) :
    Returns (fun core => I core.placementCluster)
      (self.handleMessage accepted message : Program σ RaftMachine) := by
  -- a proposal only numbers itself, and may keep its channel
  have proposed : ∀ (call : Bytes → RaftCall) (chan : ChanId),
      Returns (fun core => I core.placementCluster)
        (self.propose call accepted chan : Program σ RaftMachine) := by
    intro call chan
    refine returns_bind_of fun _ => ?_
    split_ifs
    · exact returns_pure h
    · exact returns_pure h
  cases message with
  | confChange change chan => exact proposed (.proposeConfChange · change) chan
  | propose data chan => exact proposed (.propose · data) chan
  | raft message chan =>
    refine returns_bind_of fun _ => ?_
    dsimp only
    split_ifs
    · exact returns_bind_of fun _ => returns_pure h
    · exact returns_pure h
  | transferLeader nodeId chan =>
    exact returns_bind_of fun _ => returns_bind_of fun _ => returns_pure h

/-- **A turn keeps what the changes of the metadata keep.** -/
theorem returns_turn (hI : KeptByMembers I) (t : RaftMachine.Turn) (h : I self.placementCluster) :
    Returns (fun o => ∀ core ∈ o, I core.placementCluster) (self.turn route t) := by
  -- the role is taken over before the cycle
  have advanced : ∀ core : RaftMachine, I core.placementCluster →
      Returns (fun core' => I core'.placementCluster) (core.advance route t) := by
    intro core hcore
    refine returns_bind_of fun _ => ?_
    have hrole := hI.role core.placementCluster t.role hcore
    dsimp only
    split
    · exact returns_onReady hI _ hrole
    · exact returns_pure hrole
  have turned : ∀ core : RaftMachine, I core.placementCluster →
      Returns (fun o => ∀ core' ∈ o, I core'.placementCluster)
        (do return some (← core.advance route t)) := by
    intro core hcore
    refine returns_bind (advanced core hcore) fun core' hcore' => returns_pure ?_
    rintro _ ⟨⟩
    exact hcore'
  -- a turn stops, serves a request, or only advances
  unfold RaftMachine.turn
  split_ifs
  · exact returns_pure (by rintro _ ⟨⟩)
  · split
    · exact returns_bind (returns_handleMessage t.accepted _ h) turned
    · refine returns_pure ?_
      rintro _ ⟨⟩
      exact h
    · exact turned self h

end returns

/-! ### Runs of the loop -/

section runs

variable {σ : Type} [RocksDb σ] [Observed σ MachineEvent] {route : Route σ}

/-- The states after the turns of the loop, in a process that comes up with the metadata `g` over
any contents of the database. -/
inductive LoopRun (route : Route σ) (g : RaftGroupMetadata) : RaftMachine → σ → Prop where
  | boot {self : RaftMachine} {conf : Config} {s s' : σ}
    (h : Completes (RaftMachine.boot g) s (self, conf) s') : LoopRun route g self s'
  | turn {self self' : RaftMachine} {s s' : σ} (hr : LoopRun route g self s) (t : RaftMachine.Turn)
    (h : Completes (self.turn route t) s (some self') s') : LoopRun route g self' s'

/-- **What the changes of the metadata keep holds after any turns.** -/
theorem LoopRun.kept {I : RaftGroupMetadata → Prop} (hI : KeptByMembers I) {g : RaftGroupMetadata}
    (hg : I g) {self : RaftMachine} {s : σ} (h : LoopRun route g self s) :
    I self.placementCluster := by
  induction h with
  | boot h =>
    refine returns_bind_of (R := fun r : RaftMachine × Config => I r.1.placementCluster)
      (fun st => ?_) _ _ _ h
    exact returns_bind_of fun conf => returns_pure hg
  | turn hr t h ih => exact returns_turn hI t ih _ _ _ h _ rfl

variable {V : Type} [TomlValue V] {conf : PlacementCenterConfig V}

/-- A node begins without a leader. -/
theorem leader_of_new {g : RaftGroupMetadata} (h : RaftGroupMetadata.new conf = some g) :
    g.leader = none := by
  obtain ⟨peers, -, hg⟩ := Option.bind_eq_some_iff.mp h
  cases hg
  rfl

/-- **The metadata knows no leader**, after any turns of the loop. -/
theorem leader_of_loopRun {g : RaftGroupMetadata} (hg : RaftGroupMetadata.new conf = some g)
    {self : RaftMachine} {s : σ} (h : LoopRun route g self s) :
    self.placementCluster.leader = none := by
  refine h.kept (I := fun core => core.leader = none) ?_ (leader_of_new hg)
  exact ⟨fun _ _ h => h, fun _ _ _ h => h, fun _ _ h => h⟩

end runs

/-! ### Forwarding -/

/-- What a handler replies that forwards a write to the addresses. -/
def Clients.forward (clients : Clients) (addrs : List String) (write : Write) :
    Except Status CommonReply :=
  Except.mapError GrpcKvServices.cancelled <|
    match write with
    | .set req => clients.placementSet addrs req
    | .delete req => clients.placementDelete addrs req

/-- The leader is another member, which is recorded as `node`. -/
structure OtherLeader (core : RaftGroupMetadata) (localId leaderId : UInt64) (node : BrokerNode) :
    Prop where
  elected : leaderId ≠ 0
  other : leaderId ≠ localId
  member : core.getNodeById leaderId = some node

/-- A leader that is another member is the node that writes are forwarded to. -/
structure FollowersForward (core : RaftGroupMetadata) (localId leaderId : UInt64) : Prop where
  addr : ∀ node, OtherLeader core localId leaderId node → core.leaderAddr = node.nodeInnerAddr
  forwarded : ∀ node, OtherLeader core localId leaderId node → core.isLeader = false →
    ∀ write : Write, write.Accepted → ∀ clients propose,
      write.reply clients propose core = clients.forward [node.nodeInnerAddr] write

/-- A node that is not the leader forwards a write to the address in its metadata. -/
theorem reply_of_not_leader {core : RaftGroupMetadata} (h : core.isLeader = false) {write : Write}
    (hw : write.Accepted) (clients : Clients)
    (propose : StorageData → String → Except RobustMQError Unit) :
    write.reply clients propose core = clients.forward [core.leaderAddr] write := by
  cases write with
  | set req =>
    have hne : ¬ (req.key = "" ∨ req.value = "") := not_or.mpr hw
    rw [Write.reply, GrpcKvServices.set, if_neg hne, GrpcKvServices.write, if_pos (by simp [h]),
      Clients.forward]
    cases clients.placementSet [core.leaderAddr] req <;> rfl
  | delete req =>
    rw [Write.reply, GrpcKvServices.delete, if_neg hw, GrpcKvServices.write, if_pos (by simp [h]),
      Clients.forward]
    cases clients.placementDelete [core.leaderAddr] req <;> rfl

/-- **Writes are forwarded to the leader exactly when its address is empty**, after any turns of the
loop: the metadata never learns who leads. -/
theorem followersForward_iff {σ : Type} [RocksDb σ] [Observed σ MachineEvent] {route : Route σ}
    {V : Type} [TomlValue V] {conf : PlacementCenterConfig V} {g : RaftGroupMetadata}
    (hg : RaftGroupMetadata.new conf = some g) {self : RaftMachine} {s : σ}
    (h : LoopRun route g self s) (localId leaderId : UInt64) :
    FollowersForward self.placementCluster localId leaderId ↔
      ∀ node, OtherLeader self.placementCluster localId leaderId node →
        node.nodeInnerAddr = "" := by
  have haddr : self.placementCluster.leaderAddr = "" := by
    rw [RaftGroupMetadata.leaderAddr, leader_of_loopRun hg h]
  constructor
  · intro hf node hnode
    exact (hf.addr node hnode).symm.trans haddr
  · intro hempty
    refine ⟨fun node hnode => ?_, fun node hnode hl write hw clients propose => ?_⟩
    · rw [haddr, hempty node hnode]
    · rw [reply_of_not_leader hl hw, haddr, hempty node hnode]

/-! The node `1` of two comes up and follows the node `2`, whose heartbeat it receives. -/

def pairConfig : PlacementCenterConfig String where
  clusterName := "c"
  nodeId := 1
  nodes := ((∅ : BTreeMap String String).insert "1" "a:1").insert "2" "b:1"

def pair : RaftGroupMetadata := (RaftGroupMetadata.new pairConfig).get (by decide +kernel)

theorem new_pair : RaftGroupMetadata.new pairConfig = some pair := (Option.some_get _).symm

def bootedPair : (RaftMachine × Config) × World MachineEvent :=
  finish (RaftMachine.boot pair) World.empty (by decide +kernel)

def heartbeat : RaftPreludeMessage :=
  { RaftPreludeMessage.default with msgType := 8, toId := 1, fromId := 2, term := 1 }

def follows : RaftMachine.Turn := ⟨false, .message (.raft heartbeat 0), true, false, .follower, none⟩

/-- The node after the turn. -/
def following : RaftMachine :=
  { bootedPair.1.1 with
    placementCluster := bootedPair.1.1.placementCluster.setRole .follower }

def followed : World MachineEvent :=
  (bootedPair.2.emit (.called (.step heartbeat))).emit (.responded 0 none)

theorem completes_bootedPair : Completes (RaftMachine.boot pair) World.empty
    (bootedPair.1.1, bootedPair.1.2) bootedPair.2 := completes_finish _ _ _

theorem loopRun_following : LoopRun dataRoute.route pair following followed :=
  .turn (.boot completes_bootedPair) follows rfl

theorem followersForward_following :
    FollowersForward following.placementCluster 1 2 ↔
      ∀ node, OtherLeader following.placementCluster 1 2 node → node.nodeInnerAddr = "" :=
  followersForward_iff new_pair loopRun_following 1 2

/-- The node `2` leads, at the address `"b:1"`, and writes are forwarded to the empty address. -/
theorem leader_not_known :
    LoopRun dataRoute.route pair following followed ∧
      (∃ node, OtherLeader following.placementCluster 1 2 node ∧ node.nodeInnerAddr = "\"b:1\"") ∧
      (∀ write : Write, write.Accepted → ∀ clients propose,
        write.reply clients propose following.placementCluster = clients.forward [""] write) ∧
      ¬ FollowersForward following.placementCluster 1 2 := by
  have hleader : following.placementCluster.leaderAddr = "" := by
    rw [RaftGroupMetadata.leaderAddr, leader_of_loopRun new_pair loopRun_following]
  -- the members are those of the configuration
  obtain ⟨st, hs, cs, hself, -⟩ := completes_boot completes_bootedPair
  have hmember : following.placementCluster.getNodeById 2 = pair.getNodeById 2 := by
    rw [following, hself]
    rfl
  have haddr : (pair.getNodeById 2).map BrokerNode.nodeInnerAddr = some "\"b:1\"" := by
    decide +kernel
  obtain ⟨node, hnode, hb⟩ := Option.map_eq_some_iff.mp haddr
  have hother : OtherLeader following.placementCluster 1 2 node :=
    ⟨by decide, by decide, hmember.trans hnode⟩
  refine ⟨loopRun_following, ⟨node, hother, hb⟩, fun write hw clients propose => ?_, fun hf => ?_⟩
  · rw [reply_of_not_leader rfl hw, hleader]
  · have hempty := (hf.addr node hother).symm.trans hleader
    rw [hb] at hempty
    exact absurd hempty (by decide)

end PlacementCenter.Server
