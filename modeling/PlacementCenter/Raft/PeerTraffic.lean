import Mathlib.Data.List.Perm.Subperm
import PlacementCenter.Raft.Letters
import PlacementCenter.Server.PeerServices

/-!
# The traffic between the nodes

A message that the node of the raft crate hands out takes five steps to the node it is for: a task
of its own puts it into a queue, one task sends what is queued over the network, the service of the
other node decodes it, puts it into the queue of the machine, and the machine gives it to its node.
Tasks run in any order, a failed connection ends the sender with its queue, the network loses
requests, and nodes stop at any point of a turn.

## Main definitions

* `Mesh`: the nodes by their addresses, and the messages under way between them
* `Mesh.Step`, `Mesh.Run`: the steps of tasks, nodes and network, and whether they lose nothing
* `Mesh.Delivered`: what is promised of the messages

## Main results

* `Sound.step`: what a step keeps of the messages under way
* `delivered_of_run`: **no message is altered or doubled**, and none is lost where nothing fails
-/

namespace PlacementCenter.Raft

open Rust Rust.Prost Storage Program Server

/-! ### The system -/

/-- A node: its machine, while it runs, the contents of its database, what the machine has shown to
the outside, newest first, and whether the sender of the messages runs. -/
structure Peer where
  machine : Option RaftMachine
  columns : Columns
  events : List MachineEvent
  sending : Bool

/-- A node that was never started. -/
def Peer.fresh : Peer := ⟨none, fun _ => ∅, [], false⟩

/-- The nodes by their addresses; the messages of the tasks that queue them and those that are
queued, by the node that sends them; the requests on the network, by their url; the requests that
wait for the machine of a node; and the letters that were handed out. -/
structure Mesh where
  peers : String → Peer
  tasks : List (String × PeerMessage)
  queued : List (String × PeerMessage)
  flying : List (String × SendRaftMessageRequest)
  waiting : List (String × RaftMessage)
  letters : List Letter

namespace Mesh

/-- Nothing was started. -/
def empty : Mesh := ⟨fun _ => .fresh, [], [], [], [], []⟩

def setPeer (s : Mesh) (a : String) (peer : Peer) : Mesh :=
  { s with peers := Function.update s.peers a peer }

end Mesh

/-- What a channel holds: `mpsc::channel(1000)`. -/
def channelCapacity : ℕ := 1000

section Lists

variable {α : Type}

/-- The entries of other nodes. -/
def withoutNode (a : String) (l : List (String × α)) : List (String × α) :=
  l.filter fun x => x.1 ≠ a

def HasRoom (a : String) (l : List (String × α)) : Prop :=
  (l.filter fun x => x.1 = a).length < channelCapacity

/-- The entry is taken out of the list, wherever it is. -/
def Takes (l : List (String × α)) (a : String) (x : α) (rest : List (String × α)) : Prop :=
  ∃ pre post, l = pre ++ (a, x) :: post ∧ rest = pre ++ post

/-- The first entry of a node is taken out of the list. -/
def TakesFirst (l : List (String × α)) (a : String) (x : α) (rest : List (String × α)) : Prop :=
  ∃ pre post, l = pre ++ (a, x) :: post ∧ (∀ y ∈ pre, y.1 ≠ a) ∧ rest = pre ++ post

end Lists

/-- The request that goes to the network, with its url. -/
def PeerEvent.flight : PeerEvent → Option (String × SendRaftMessageRequest)
  | .sending url request => some (url, request)
  | .connecting _ => none

/-- The request that a handler passes to the machine. -/
def machineRequest : Passed Unit Unit Unit → Option Request
  | .machine request => some request
  | _ => none

namespace Mesh

/-- A turn finds the first of the requests that wait for its machine, if it takes one. -/
def Asked (s : Mesh) (a : String) (request : Option RaftMessage)
    (rest : List (String × RaftMessage)) : Prop :=
  match request with
  | some message => TakesFirst s.waiting a message rest
  | none => rest = s.waiting

/-- After a turn of the machine of a node: what it queues is left to tasks. -/
def turned (s : Mesh) (a : String) (machine : Option RaftMachine) (columns : Columns)
    (events : List MachineEvent) (waiting : List (String × RaftMessage)) (letters : List Letter) :
    Mesh :=
  { s.setPeer a ⟨machine, columns, events ++ (s.peers a).events, (s.peers a).sending⟩ with
    tasks := s.tasks ++ (postedIn events).map fun message => (a, message)
    waiting := waiting
    letters := s.letters ++ letters }

/-- A step, and whether no message can be lost in it. -/
inductive Step (router : Router MachineEvent) (s : Mesh) : Bool → Mesh → Prop where
  /-- A node comes up on its contents. -/
  | start {a g m conf w} (hdown : (s.peers a).machine = none)
    (hsending : (s.peers a).sending = false)
    (h : Completes (RaftMachine.boot g) (World.reopen (s.peers a).columns []) (m, conf) w) :
    Step router s true
      (s.setPeer a ⟨some m, w.columns, w.events ++ (s.peers a).events, true⟩)
  /-- A client asks a node for something. -/
  | ask {a} (request : Request) (chan : ChanId) (hother : (request.message chan).forNode = none)
    (hroom : HasRoom a s.waiting) :
    Step router s true { s with waiting := s.waiting ++ [(a, request.message chan)] }
  | turn {a m t rest m' w} (hm : (s.peers a).machine = some m) (hasked : s.Asked a t.request rest)
    (hrun : Completes (m.turn router.route t) (World.reopen (s.peers a).columns []) (some m') w) :
    Step router s true
      (s.turned a (some m') w.columns w.events rest (t.letters m.placementCluster))
  /-- The task of the machine ends at some point of a turn, with its queue. -/
  | cut {a m t rest pt} (hm : (s.peers a).machine = some m) (hasked : s.Asked a t.request rest)
    (hpt : pt ∈ (m.turn router.route t (World.reopen (s.peers a).columns [])).2.points) :
    Step router s false
      (s.turned a none pt.1 pt.2 (withoutNode a rest) (t.letters m.placementCluster))
  /-- A task puts its message into the queue. -/
  | queue {a message rest} (htask : Takes s.tasks a message rest) (hroom : HasRoom a s.queued)
    (hsending : (s.peers a).sending = true) :
    Step router s true { s with tasks := rest, queued := s.queued ++ [(a, message)] }
  /-- A task finds the queue closed. -/
  | refused {a message rest} (htask : Takes s.tasks a message rest)
    (hsending : (s.peers a).sending = false) : Step router s false { s with tasks := rest }
  /-- The sender sends the first message of its queue. -/
  | send {a message rest net events} (hqueued : TakesFirst s.queued a message rest)
    (hsending : (s.peers a).sending = true) (hrecv : net.recv 0 = some message)
    (hrun : Completes (PeersManager.turn net 0) [] () events) :
    Step router s true
      { s with queued := rest, flying := s.flying ++ events.filterMap PeerEvent.flight }
  /-- The sender panics, and its queue is gone. -/
  | die {a message rest net e events} (hqueued : TakesFirst s.queued a message rest)
    (hsending : (s.peers a).sending = true) (hrecv : net.recv 0 = some message)
    (hrun : PeersManager.turn net 0 [] = (.panicked e, events)) :
    Step router s false
      { s.setPeer a { s.peers a with sending := false } with
        queued := withoutNode a rest
        flying := s.flying ++ events.filterMap PeerEvent.flight }
  /-- A request reaches the service of the node at its url. -/
  | arrive {a request rest} (hflying : Takes s.flying (peerUrl a) request rest)
    (hup : (s.peers a).machine.isSome) (hroom : HasRoom a s.waiting) {queue reply passed}
    (hrun : Completes (GrpcRaftServices.sendRaftMessage queue request) [] reply passed) :
    Step router s true
      { s with
        flying := rest
        waiting := s.waiting ++ (passed.filterMap machineRequest).map fun request =>
          (a, request.message queue.chan) }
  /-- A request is lost on the network, or finds no machine. -/
  | lose {url request rest} (hflying : Takes s.flying url request rest) :
    Step router s false { s with flying := rest }
  /-- The process of a node ends, with all its tasks and queues. -/
  | down (a : String) :
    Step router s false
      { s.setPeer a { s.peers a with machine := none, sending := false } with
        tasks := withoutNode a s.tasks
        queued := withoutNode a s.queued
        waiting := withoutNode a s.waiting }

/-- The runs, and whether every step of them loses nothing. -/
inductive Run (router : Router MachineEvent) : Bool → Mesh → Prop where
  | empty : Run router true .empty
  | step {kept kept' s s'} (hr : Run router kept s) (h : Step router s kept' s') :
    Run router (kept && kept') s'

/-! ### What is promised -/

/-- The messages that were handed out for the node at an address. -/
def lettersTo (s : Mesh) (addr : String) : List RaftPreludeMessage :=
  s.letters.filterMap fun l => if l.1 = addr then some l.2 else none

/-- The messages that the node at an address was given by its machine. -/
def steppedAt (s : Mesh) (addr : String) : List RaftPreludeMessage :=
  steppedIn (s.peers addr).events

/-- How often a letter is written in some messages. -/
def copies (l : Letter) (messages : List (String × PeerMessage)) : ℕ :=
  messages.countP fun x => x.2.toAddr = l.1 ∧ x.2.data = encodeToVec l.2

/-- How often it is sent in some requests. -/
def flights (l : Letter) (requests : List (String × SendRaftMessageRequest)) : ℕ :=
  requests.countP fun x => x.1 = peerUrl l.1 ∧ x.2.message = encodeToVec l.2

/-- How often it waits among some requests of machines. -/
def arrivals (l : Letter) (requests : List (String × RaftMessage)) : ℕ :=
  requests.countP fun x => x.1 = l.1 ∧ x.2.forNode = some l.2

/-- How often a letter is under way. -/
def underWay (s : Mesh) (l : Letter) : ℕ :=
  copies l s.tasks + copies l s.queued + flights l s.flying + arrivals l s.waiting

/-- **No message is altered or doubled.** A node is given messages that were handed out for its
address, each at most as often as it was. Where no step can lose a message, each one that fits an
allocation was given to its node, or is under way. -/
structure Delivered (kept : Bool) (s : Mesh) : Prop where
  once : ∀ addr, (s.steppedAt addr).Subperm (s.lettersTo addr)
  complete : kept = true → ∀ l : Letter, (encodeToVec l.2).length < 2 ^ 64 →
    s.letters.count l = (s.steppedAt l.1).count l.2 + s.underWay l

end Mesh

/-! ### Lists -/

section Lists

variable {α : Type} {l rest : List (String × α)} {a : String} {x : α} {y : String × α}

theorem TakesFirst.takes (h : TakesFirst l a x rest) : Takes l a x rest := by
  obtain ⟨pre, post, hl, -, hrest⟩ := h
  exact ⟨pre, post, hl, hrest⟩

theorem Takes.mem (h : Takes l a x rest) : (a, x) ∈ l := by
  obtain ⟨pre, post, rfl, -⟩ := h
  simp

theorem Takes.mem_of_rest (h : Takes l a x rest) (hy : y ∈ rest) : y ∈ l := by
  obtain ⟨pre, post, rfl, rfl⟩ := h
  rw [List.mem_append, List.mem_cons]
  exact (List.mem_append.mp hy).imp_right .inr

theorem Takes.countP (h : Takes l a x rest) (p : String × α → Bool) :
    l.countP p = rest.countP p + [(a, x)].countP p := by
  obtain ⟨pre, post, rfl, rfl⟩ := h
  rw [List.countP_append, List.countP_append, List.countP_cons, List.countP_singleton]
  omega

theorem mem_of_withoutNode (hy : y ∈ withoutNode a l) : y ∈ l := (List.mem_filter.mp hy).1

theorem countP_withoutNode_le (a : String) (l : List (String × α)) (p : String × α → Bool) :
    (withoutNode a l).countP p ≤ l.countP p := List.filter_sublist.countP_le

end Lists

/-! ### Letters that are read back -/

/-- The message is read back from its bytes. -/
def ReadsBack (m : RaftPreludeMessage) : Prop := decode (encodeToVec m) = some m

/-- A message that is read back is written in one way. -/
theorem ReadsBack.encode_inj {m m' : RaftPreludeMessage} (h : ReadsBack m) :
    encodeToVec m' = encodeToVec m ↔ m' = m := by
  refine ⟨fun heq => ?_, fun heq => by rw [heq]⟩
  exact (eq_of_decode_encodeToVec ((congrArg decode heq).trans h)).symm

theorem peerUrl_inj {a b : String} : peerUrl a = peerUrl b ↔ a = b := String.append_right_inj _

/-- The copies of a letter among some letters. -/
theorem copies_posted {l : Letter} (hl : ReadsBack l.2) (a : String) (letters : List Letter) :
    Mesh.copies l ((letters.map Letter.posted).map fun message => (a, message)) =
      letters.count l := by
  rw [Mesh.copies, List.map_map, List.countP_map, List.count]
  refine List.countP_congr fun l' _ => ?_
  simp only [Function.comp_apply, Letter.posted, decide_eq_true_eq, beq_iff_eq, hl.encode_inj,
    Prod.ext_iff]

/-- What the sender sends, when it does not panic. -/
theorem flight_of_completes {net : PeerNetwork} {message : PeerMessage} {events : List PeerEvent}
    (hrecv : net.recv 0 = some message) (hrun : Completes (PeersManager.turn net 0) [] () events) :
    events.filterMap PeerEvent.flight = [(peerUrl message.toAddr, ⟨message.data⟩)] := by
  cases hconnect : net.connect 0 (peerUrl message.toAddr) with
  | error e =>
    rw [Completes, PeersManager.turn_run_panicked hrecv hconnect] at hrun
    cases hrun
  | ok u =>
    have hturn := @PeersManager.turn_run net 0 (fun data hdata => by
      rw [hrecv] at hdata
      rw [← Option.some.inj hdata, hconnect]) []
    obtain ⟨-, rfl⟩ := (completes_of_run hturn).mp hrun
    rw [List.nil_append, PeerNetwork.delivery, hrecv]
    dsimp only
    rw [hconnect]
    rfl

/-- A sender that panics has sent nothing. -/
theorem flight_of_panicked {net : PeerNetwork} {message : PeerMessage} {events : List PeerEvent}
    {e : String} (hrecv : net.recv 0 = some message)
    (hrun : PeersManager.turn net 0 [] = (.panicked e, events)) :
    events.filterMap PeerEvent.flight = [] := by
  cases hconnect : net.connect 0 (peerUrl message.toAddr) with
  | error e' =>
    rw [PeersManager.turn_run_panicked hrecv hconnect] at hrun
    obtain ⟨-, rfl⟩ := Prod.mk.inj hrun
    rfl
  | ok u =>
    rw [@PeersManager.turn_run net 0 (fun data hdata => by
      rw [hrecv] at hdata
      rw [← Option.some.inj hdata, hconnect])] at hrun
    cases hrun

/-- **The service passes the message on**, if it is read back. -/
theorem passed_of_completes {queue : MachineQueue} {request : SendRaftMessageRequest}
    {reply : Except Status SendRaftMessageReply} {passed : List (Passed Unit Unit Unit)}
    {m : RaftPreludeMessage} (hrequest : request.message = encodeToVec m)
    (hrun : Completes (GrpcRaftServices.sendRaftMessage queue request) [] reply passed) :
    (ReadsBack m ∧ passed.filterMap machineRequest = [.raft m "send_raft_message"]) ∨
      ¬ ReadsBack m ∧ passed.filterMap machineRequest = [] := by
  obtain ⟨sent, passed', happly, hreply⟩ := completes_bind.mp hrun
  obtain ⟨-, rfl⟩ := completes_pure.mp hreply
  rw [hrequest, GrpcRaftServices.applyDecoded] at happly
  cases hd : (decode (encodeToVec m) : Option RaftPreludeMessage) with
  | none =>
    rw [hd] at happly
    obtain ⟨-, rfl⟩ := completes_pure.mp happly
    exact .inr ⟨fun h => (by rw [ReadsBack, hd] at h; cases h), rfl⟩
  | some m' =>
    rw [hd] at happly
    obtain ⟨_, passed₁, hpass, happly⟩ := completes_bind.mp happly
    obtain ⟨-, rfl⟩ := completes_pure.mp happly
    obtain ⟨-, rfl⟩ := Prod.mk.inj hpass
    obtain rfl := eq_of_decode_encodeToVec hd
    exact .inl ⟨hd, rfl⟩

namespace Mesh

variable {router : Router MachineEvent} {s s' : Mesh} {kept : Bool} {l : Letter} {a : String}

/-! ### What is under way -/

/-- What is under way was written for a letter, and what arrived was read back. -/
structure Written (s : Mesh) : Prop where
  tasks : ∀ x ∈ s.tasks, ∃ l ∈ s.letters, x.2 = l.posted
  queued : ∀ x ∈ s.queued, ∃ l ∈ s.letters, x.2 = l.posted
  flying : ∀ x ∈ s.flying, ∃ l ∈ s.letters, x = (peerUrl l.1, ⟨encodeToVec l.2⟩)
  waiting : ∀ x ∈ s.waiting, ∀ m ∈ x.2.forNode, ReadsBack m
  stepped : ∀ addr, ∀ m ∈ s.steppedAt addr, ReadsBack m

/-- How often a letter arrived or is under way. -/
def balance (s : Mesh) (l : Letter) : ℕ := (s.steppedAt l.1).count l.2 + s.underWay l

theorem steppedAt_setPeer (s : Mesh) (a addr : String) (peer : Peer) :
    (s.setPeer a peer).steppedAt addr =
      if addr = a then steppedIn peer.events else s.steppedAt addr := by
  unfold setPeer steppedAt
  dsimp only
  rw [Function.update_apply]
  split_ifs <;> rfl

theorem steppedIn_append (es es' : List MachineEvent) :
    steppedIn (es ++ es') = steppedIn es' ++ steppedIn es := by
  rw [steppedIn, List.reverse_append, List.filterMap_append]
  rfl

/-- What a node was given after a turn. -/
theorem steppedAt_turned (machine : Option RaftMachine) (columns : Columns)
    (events : List MachineEvent) (waiting : List (String × RaftMessage)) (letters : List Letter)
    (addr : String) : (s.turned a machine columns events waiting letters).steppedAt addr =
      s.steppedAt addr ++ if addr = a then steppedIn events else [] := by
  have hset := steppedAt_setPeer s a addr
    ⟨machine, columns, events ++ (s.peers a).events, (s.peers a).sending⟩
  refine hset.trans ?_
  split_ifs with haddr
  · rw [steppedIn_append, haddr]
    rfl
  · exact (List.append_nil _).symm

/-- The requests that a turn leaves. -/
theorem Asked.mem {request : Option RaftMessage} {rest : List (String × RaftMessage)}
    (h : s.Asked a request rest) {x : String × RaftMessage} (hx : x ∈ rest) : x ∈ s.waiting := by
  unfold Asked at h
  cases request with
  | none => exact h ▸ hx
  | some message => exact h.takes.mem_of_rest hx

theorem Asked.arrivals {t : RaftMachine.Turn} {rest : List (String × RaftMessage)}
    (h : s.Asked a t.request rest) (l : Letter) : Mesh.arrivals l s.waiting =
      Mesh.arrivals l rest + if l.1 = a then t.stepped.count l.2 else 0 := by
  unfold Asked at h
  rw [RaftMachine.Turn.stepped]
  cases hrequest : t.request with
  | none =>
    rw [hrequest] at h
    rw [h]
    simp
  | some message =>
    rw [hrequest] at h
    have htaken : Mesh.arrivals l s.waiting =
        Mesh.arrivals l rest + Mesh.arrivals l [(a, message)] := h.takes.countP _
    rw [htaken, Mesh.arrivals, Mesh.arrivals, List.countP_singleton]
    by_cases haddr : l.1 = a
    · cases hnode : message.forNode with
      | none => simp [haddr, hnode]
      | some m => simp [haddr, hnode, List.count_singleton]
    · simp [haddr, Ne.symm haddr]

/-- The message that is stepped was waiting. -/
theorem Asked.readable (hs : s.Written) {t : RaftMachine.Turn}
    {rest : List (String × RaftMessage)} (h : s.Asked a t.request rest) :
    ∀ m ∈ t.stepped, ReadsBack m := by
  intro m hm
  unfold Asked at h
  rw [RaftMachine.Turn.stepped] at hm
  cases hrequest : t.request with
  | none =>
    rw [hrequest] at hm
    cases hm
  | some message =>
    rw [hrequest] at h hm
    exact hs.waiting _ h.takes.mem m (Option.mem_toList.mp hm)

/-- What a turn leaves, when it has queued the first of its letters and given the node its message,
or not. -/
theorem Written.turned (hs : s.Written) {t : RaftMachine.Turn}
    {rest waiting : List (String × RaftMessage)} {letters : List Letter}
    {machine : Option RaftMachine} {columns : Columns} {events : List MachineEvent}
    (hasked : s.Asked a t.request rest) (hwaiting : ∀ x ∈ waiting, x ∈ rest)
    (hposted : postedIn events <+: letters.map Letter.posted)
    (hstepped : steppedIn events <+: t.stepped) :
    (s.turned a machine columns events waiting letters).Written where
  tasks x hx := by
    rcases List.mem_append.mp hx with hx | hx
    · obtain ⟨l, hl, heq⟩ := hs.tasks x hx
      exact ⟨l, List.mem_append_left _ hl, heq⟩
    · obtain ⟨message, hmessage, rfl⟩ := List.mem_map.mp hx
      obtain ⟨l, hl, heq⟩ := List.mem_map.mp (hposted.subset hmessage)
      exact ⟨l, List.mem_append_right _ hl, heq.symm⟩
  queued x hx := (hs.queued x hx).imp fun _ h => ⟨List.mem_append_left _ h.1, h.2⟩
  flying x hx := (hs.flying x hx).imp fun _ h => ⟨List.mem_append_left _ h.1, h.2⟩
  waiting x hx := hs.waiting x (hasked.mem (hwaiting x hx))
  stepped addr m hm := by
    rw [steppedAt_turned] at hm
    rcases List.mem_append.mp hm with hm | hm
    · exact hs.stepped addr m hm
    · split_ifs at hm
      · exact hasked.readable hs m (hstepped.subset hm)
      · cases hm

/-- What only takes out of the lists. -/
theorem Written.mono (hs : s.Written) (htasks : ∀ x ∈ s'.tasks, x ∈ s.tasks)
    (hqueued : ∀ x ∈ s'.queued, x ∈ s.queued) (hflying : ∀ x ∈ s'.flying, x ∈ s.flying)
    (hwaiting : ∀ x ∈ s'.waiting, x ∈ s.waiting) (hletters : s'.letters = s.letters)
    (hstepped : ∀ addr, s'.steppedAt addr = s.steppedAt addr) : s'.Written where
  tasks x hx := hletters ▸ hs.tasks x (htasks x hx)
  queued x hx := hletters ▸ hs.queued x (hqueued x hx)
  flying x hx := hletters ▸ hs.flying x (hflying x hx)
  waiting x hx := hs.waiting x (hwaiting x hx)
  stepped addr := hstepped addr ▸ hs.stepped addr

/-- A node whose machine has shown the same. -/
theorem steppedAt_setPeer_self {peer : Peer} (h : steppedIn peer.events = s.steppedAt a)
    (addr : String) : (s.setPeer a peer).steppedAt addr = s.steppedAt addr := by
  rw [steppedAt_setPeer]
  split_ifs with haddr
  · rw [h, haddr]
  · rfl

/-- A process that comes up shows nothing. -/
theorem events_boot {g : RaftGroupMetadata} {m : RaftMachine} {conf : Config} {columns : Columns}
    {w : World MachineEvent}
    (h : Completes (RaftMachine.boot g) (World.reopen columns []) (m, conf) w) : w.events = [] := by
  obtain ⟨st, hs, cs, -, -, -, -, rfl⟩ := completes_boot h
  rfl

/-- **What is under way was written for a letter**, after a step too. -/
theorem Written.step (hs : s.Written) (h : s.Step router kept s') : s'.Written := by
  cases h with
  | @start a g m conf w hdown hsending h =>
    exact hs.mono (fun _ hx => hx) (fun _ hx => hx) (fun _ hx => hx) (fun _ hx => hx) rfl
      (steppedAt_setPeer_self (by rw [events_boot h]; rfl))
  | @ask a request chan hother hroom =>
    refine ⟨hs.tasks, hs.queued, hs.flying, fun x hx m hm => ?_, hs.stepped⟩
    rcases List.mem_append.mp hx with hx | hx
    · exact hs.waiting x hx m hm
    -- a client asks for no message
    · rw [List.mem_singleton.mp hx, hother] at hm
      cases hm
  | turn hm hasked hrun =>
    obtain ⟨hposted, hstepped⟩ := RaftMachine.completes_turn_traffic hrun
    exact hs.turned hasked (fun _ hx => hx) (hposted ▸ List.prefix_refl _)
      (hstepped ▸ List.prefix_refl _)
  | cut hm hasked hpt =>
    obtain ⟨hposted, hstepped⟩ := RaftMachine.traffic_of_point hpt
    exact hs.turned hasked (fun _ hx => mem_of_withoutNode hx) hposted hstepped
  | @queue a message rest htask hroom hsending =>
    refine ⟨fun x hx => hs.tasks x (htask.mem_of_rest hx), fun x hx => ?_, hs.flying, hs.waiting,
      hs.stepped⟩
    rcases List.mem_append.mp hx with hx | hx
    · exact hs.queued x hx
    -- the message was that of a task
    · rw [List.mem_singleton.mp hx]
      exact hs.tasks _ htask.mem
  | refused htask hsending =>
    exact hs.mono (fun _ hx => htask.mem_of_rest hx) (fun _ hx => hx) (fun _ hx => hx)
      (fun _ hx => hx) rfl fun _ => rfl
  | @send a message rest net events hqueued hsending hrecv hrun =>
    refine ⟨hs.tasks, fun x hx => hs.queued x (hqueued.takes.mem_of_rest hx), fun x hx => ?_,
      hs.waiting, hs.stepped⟩
    rcases List.mem_append.mp hx with hx | hx
    · exact hs.flying x hx
    -- the request is that of the message it was taken for
    · rw [flight_of_completes hrecv hrun] at hx
      obtain ⟨l, hl, heq⟩ := hs.queued _ hqueued.takes.mem
      obtain rfl : message = l.posted := heq
      rw [List.mem_singleton, Letter.toAddr_posted, Letter.data_posted] at hx
      exact ⟨l, hl, hx⟩
  | @die a message rest net e events hqueued hsending hrecv hrun =>
    refine hs.mono (fun _ hx => hx) (fun _ hx => ?_) (fun _ hx => ?_) (fun _ hx => hx) rfl
      (steppedAt_setPeer_self rfl)
    · exact hqueued.takes.mem_of_rest (mem_of_withoutNode hx)
    · dsimp only at hx
      rwa [flight_of_panicked hrecv hrun, List.append_nil] at hx
  | @arrive a request rest hflying hup hroom queue reply passed hrun =>
    refine ⟨hs.tasks, hs.queued, fun x hx => hs.flying x (hflying.mem_of_rest hx),
      fun x hx m hm => ?_, hs.stepped⟩
    rcases List.mem_append.mp hx with hx | hx
    · exact hs.waiting x hx m hm
    · -- what the service decodes was written for a letter
      obtain ⟨l, hl, heq⟩ := hs.flying _ hflying.mem
      have hrequest : request.message = encodeToVec l.2 :=
        SendRaftMessageRequest.mk.inj (Prod.mk.inj heq).2
      rcases passed_of_completes hrequest hrun with ⟨hread, hpassed⟩ | ⟨-, hpassed⟩ <;>
        rw [hpassed] at hx
      · rw [List.mem_singleton.mp hx] at hm
        obtain rfl : l.2 = m := Option.some.inj hm
        exact hread
      · cases hx
  | lose hflying =>
    exact hs.mono (fun _ hx => hx) (fun _ hx => hx) (fun _ hx => hflying.mem_of_rest hx)
      (fun _ hx => hx) rfl fun _ => rfl
  | down a =>
    exact hs.mono (fun _ hx => mem_of_withoutNode hx) (fun _ hx => mem_of_withoutNode hx)
      (fun _ hx => hx) (fun _ hx => mem_of_withoutNode hx) rfl (steppedAt_setPeer_self rfl)

/-! ### The balance -/

/-- The letters that arrived or are under way change by those that are handed out. -/
structure Balanced (kept : Bool) (s s' : Mesh) (l : Letter) : Prop where
  le : s'.balance l + s.letters.count l ≤ s.balance l + s'.letters.count l
  eq : kept = true → s'.balance l + s.letters.count l = s.balance l + s'.letters.count l

theorem balanced_of_eq
    (h : s'.balance l + s.letters.count l = s.balance l + s'.letters.count l) :
    Balanced kept s s' l := ⟨Nat.le_of_eq h, fun _ => h⟩

theorem balanced_of_le
    (h : s'.balance l + s.letters.count l ≤ s.balance l + s'.letters.count l) :
    Balanced false s s' l := ⟨h, nofun⟩

theorem copies_append (l : Letter) (ms ms' : List (String × PeerMessage)) :
    copies l (ms ++ ms') = copies l ms + copies l ms' := List.countP_append

theorem flights_append (l : Letter) (rs rs' : List (String × SendRaftMessageRequest)) :
    flights l (rs ++ rs') = flights l rs + flights l rs' := List.countP_append

theorem arrivals_append (l : Letter) (rs rs' : List (String × RaftMessage)) :
    arrivals l (rs ++ rs') = arrivals l rs + arrivals l rs' := List.countP_append

/-- The request that the sender makes of a message is for the same letters. -/
theorem flights_singleton (l : Letter) (message : PeerMessage) :
    flights l [(peerUrl message.toAddr, ⟨message.data⟩)] = copies l [(a, message)] := by
  rw [flights, copies, List.countP_singleton, List.countP_singleton]
  simp only [peerUrl_inj]

/-- What the service makes of a request is for the same letters. -/
theorem arrivals_passed (hl : ReadsBack l.2) {l' : Letter} {request : SendRaftMessageRequest}
    (hrequest : request.message = encodeToVec l'.2) {queue : MachineQueue}
    {reply : Except Status SendRaftMessageReply} {passed : List (Passed Unit Unit Unit)}
    (hrun : Completes (GrpcRaftServices.sendRaftMessage queue request) [] reply passed) :
    arrivals l ((passed.filterMap machineRequest).map fun request =>
      (a, request.message queue.chan)) = flights l [(peerUrl a, request)] := by
  rw [flights, List.countP_singleton, hrequest]
  simp only [peerUrl_inj, hl.encode_inj]
  rcases passed_of_completes hrequest hrun with ⟨-, hpassed⟩ | ⟨hread, hpassed⟩ <;> rw [hpassed]
  · rw [List.map_singleton, arrivals, List.countP_singleton]
    simp [Request.message, RaftMessage.forNode]
  · have hne : l'.2 ≠ l.2 := fun heq => hread (heq ▸ hl)
    simp [arrivals, hne]

/-- **What arrived and what is under way**, after a step. -/
theorem Step.balanced (hs : s.Written) (h : s.Step router kept s') (hl : ReadsBack l.2) :
    Balanced kept s s' l := by
  cases h with
  | @start a g m conf w hdown hsending h =>
    -- a process that comes up shows nothing
    have hevents := events_boot h
    have hstepped : (s.setPeer a
        ⟨some m, w.columns, w.events ++ (s.peers a).events, true⟩).steppedAt l.1 =
          s.steppedAt l.1 := steppedAt_setPeer_self (by rw [hevents]; rfl) _
    refine balanced_of_eq ?_
    rw [balance, hstepped]
    rfl
  | @ask a request chan hother hroom =>
    refine balanced_of_eq ?_
    -- what a client asks for is no message of a node
    have harrivals : arrivals l [(a, request.message chan)] = 0 := by
      rw [arrivals, List.countP_singleton]
      simp [hother]
    dsimp only [balance, underWay, steppedAt]
    rw [arrivals_append, harrivals, Nat.add_zero]
  | @turn a m t rest m' w hm hasked hrun =>
    refine balanced_of_eq ?_
    obtain ⟨hposted, hstepped⟩ := RaftMachine.completes_turn_traffic hrun
    -- the letters become tasks, and the request moves from the queue into the machine
    have hcopies := copies_posted hl a (t.letters m.placementCluster)
    have harrivals := hasked.arrivals l
    rw [balance, balance, steppedAt_turned, List.count_append, hstepped]
    dsimp only [underWay, turned, setPeer]
    rw [copies_append, hposted, hcopies, List.count_append, harrivals]
    split_ifs with haddr
    · omega
    · rw [List.count_nil]
      omega
  | @cut a m t rest pt hm hasked hpt =>
    refine balanced_of_le ?_
    obtain ⟨hposted, hstepped⟩ := RaftMachine.traffic_of_point hpt
    -- the machine handed out the first of its letters, and its queue is gone
    have hcopies : copies l ((postedIn pt.2).map fun message => (a, message)) ≤
        (t.letters m.placementCluster).count l := by
      rw [← copies_posted hl a]
      exact (hposted.map _).sublist.countP_le
    have hcount : (steppedIn pt.2).count l.2 ≤ t.stepped.count l.2 := hstepped.sublist.count_le _
    have hwaiting : arrivals l (withoutNode a rest) ≤ arrivals l rest :=
      countP_withoutNode_le _ _ _
    have harrivals := hasked.arrivals l
    rw [balance, balance, steppedAt_turned, List.count_append]
    dsimp only [underWay, turned, setPeer]
    rw [copies_append, List.count_append, harrivals]
    split_ifs with haddr
    · omega
    · rw [List.count_nil]
      omega
  | @queue a message rest htask hroom hsending =>
    refine balanced_of_eq ?_
    -- a message moves from its task into the queue
    have htaken : copies l s.tasks = copies l rest + copies l [(a, message)] := htask.countP _
    dsimp only [balance, underWay, steppedAt]
    rw [copies_append, htaken]
    omega
  | @refused a message rest htask hsending =>
    refine balanced_of_le ?_
    have htaken : copies l s.tasks = copies l rest + copies l [(a, message)] := htask.countP _
    dsimp only [balance, underWay, steppedAt]
    omega
  | @send a message rest net events hqueued hsending hrecv hrun =>
    refine balanced_of_eq ?_
    -- what is sent stands for the letters of the message
    have htaken : copies l s.queued = copies l rest + copies l [(a, message)] :=
      hqueued.takes.countP _
    dsimp only [balance, underWay, steppedAt]
    rw [flights_append, flight_of_completes hrecv hrun, htaken, flights_singleton (a := a)]
    omega
  | @die a message rest net e events hqueued hsending hrecv hrun =>
    refine balanced_of_le ?_
    have htaken : copies l s.queued = copies l rest + copies l [(a, message)] :=
      hqueued.takes.countP _
    -- nothing was sent, and the rest of the queue is gone
    have hwithout : copies l (withoutNode a rest) ≤ copies l rest := countP_withoutNode_le _ _ _
    have hstepped : (s.setPeer a { s.peers a with sending := false }).steppedAt l.1 =
        s.steppedAt l.1 := steppedAt_setPeer_self (by rfl) _
    dsimp only [balance, underWay, steppedAt, setPeer] at hstepped ⊢
    rw [hstepped, flight_of_panicked hrecv hrun, List.append_nil]
    omega
  | @arrive a request rest hflying hup hroom queue reply passed hrun =>
    refine balanced_of_eq ?_
    -- what the service decodes is the message of the letter that was flying
    obtain ⟨l', hl', heq⟩ := hs.flying _ hflying.mem
    have hrequest : request.message = encodeToVec l'.2 :=
      SendRaftMessageRequest.mk.inj (Prod.mk.inj heq).2
    have htaken : flights l s.flying = flights l rest + flights l [(peerUrl a, request)] :=
      hflying.countP _
    dsimp only [balance, underWay, steppedAt]
    rw [arrivals_append, arrivals_passed hl hrequest hrun, htaken]
    omega
  | @lose url request rest hflying =>
    refine balanced_of_le ?_
    have htaken : flights l s.flying = flights l rest + flights l [(url, request)] :=
      hflying.countP _
    dsimp only [balance, underWay, steppedAt]
    omega
  | down a =>
    refine balanced_of_le ?_
    -- the tasks and the queues of one node are gone
    have htasks : copies l (withoutNode a s.tasks) ≤ copies l s.tasks :=
      countP_withoutNode_le _ _ _
    have hqueued : copies l (withoutNode a s.queued) ≤ copies l s.queued :=
      countP_withoutNode_le _ _ _
    have hwaiting : arrivals l (withoutNode a s.waiting) ≤ arrivals l s.waiting :=
      countP_withoutNode_le _ _ _
    have hstepped : (s.setPeer a { s.peers a with machine := none, sending := false }).steppedAt
        l.1 = s.steppedAt l.1 := steppedAt_setPeer_self (by rfl) _
    dsimp only [balance, underWay, steppedAt, setPeer] at hstepped ⊢
    rw [hstepped]
    omega

/-! ### Runs -/

/-- What holds of the messages in every run. -/
structure Sound (kept : Bool) (s : Mesh) : Prop where
  written : s.Written
  le : ∀ l : Letter, ReadsBack l.2 → s.balance l ≤ s.letters.count l
  eq : kept = true → ∀ l : Letter, ReadsBack l.2 → s.balance l = s.letters.count l

theorem sound_empty : Sound true .empty where
  written := ⟨nofun, nofun, nofun, nofun, nofun⟩
  le _ _ := Nat.le_refl _
  eq _ _ _ := rfl

/-- **What a step keeps.** -/
theorem Sound.step {kept' : Bool} (h : s.Sound kept) (hs : s.Step router kept' s') :
    s'.Sound (kept && kept') where
  written := h.written.step hs
  le l hl := by
    have hbalanced := (hs.balanced h.written hl).le
    have hle := h.le l hl
    omega
  eq hkept l hl := by
    obtain ⟨hk, hk'⟩ := Bool.and_eq_true_iff.mp hkept
    have hbalanced := (hs.balanced h.written hl).eq hk'
    have heq := h.eq hk l hl
    omega

theorem sound_of_run (h : Run router kept s) : s.Sound kept := by
  induction h with
  | empty => exact sound_empty
  | step hr hs ih => exact ih.step hs

theorem count_lettersTo (s : Mesh) (addr : String) (m : RaftPreludeMessage) :
    (s.lettersTo addr).count m = s.letters.count (addr, m) := by
  unfold lettersTo
  induction s.letters with
  | nil => rfl
  | cons l letters ih =>
    rw [List.filterMap_cons, List.count_cons, ← ih]
    by_cases haddr : l.1 = addr
    · rw [if_pos haddr]
      dsimp only
      rw [List.count_cons]
      simp [Prod.ext_iff, haddr]
    · rw [if_neg haddr]
      simp [Prod.ext_iff, haddr]

/-- **No message is altered or doubled.** However tasks, nodes and the network interleave and fail,
a node is given by its machine the messages that were handed out for its address, each at most as
often as it was; and where no step can lose a message, each one was given to its node or is under
way. -/
theorem delivered_of_run (h : Run router kept s) : s.Delivered kept where
  once addr := by
    have hsound := sound_of_run h
    refine List.subperm_ext_iff.mpr fun m hm => ?_
    rw [count_lettersTo]
    have hle := hsound.le (addr, m) (hsound.written.stepped addr m hm)
    exact Nat.le_trans (Nat.le_add_right _ _) hle
  complete hkept l hl := ((sound_of_run h).eq hkept l (decode_encodeToVec (fits_of_length hl))).symm

/-! ### A message -/

/-- A heartbeat for node `2`. -/
def heartbeat : RaftPreludeMessage := { RaftPreludeMessage.default with msgType := 8, toId := 2 }

/-- The members that node `1` knows. -/
def pairGroup : RaftGroupMetadata :=
  ⟨none, .follower, (∅ : HashMap _ _).insert 2 (nodeNamed 2 "b")⟩

def bootedPair : (RaftMachine × Config) × World MachineEvent :=
  finish (RaftMachine.boot pairGroup) World.empty (by decide +kernel)

theorem completes_bootedPair : Completes (RaftMachine.boot pairGroup) World.empty
    (bootedPair.1.1, bootedPair.1.2) bootedPair.2 := completes_finish _ _ _

/-- A turn in which the node hands out the heartbeat. -/
def sendingTurn : RaftMachine.Turn where
  stop := false
  received := .elapsed
  accepted := true
  elapsed := false
  role := .leader
  cycle := some
    { now := fun _ => 0
      applyConfChange := fun _ _ => none
      ready := ⟨[heartbeat], .default, [], [], none, []⟩
      lightRd := ⟨none, [], []⟩ }

theorem completes_sendingTurn :
    Completes (bootedPair.1.1.turn DataRoute.route sendingTurn)
      (World.reopen bootedPair.2.columns [])
      (some { bootedPair.1.1 with
        placementCluster := bootedPair.1.1.placementCluster.setRole .leader })
      ((World.reopen bootedPair.2.columns []).emit (.sentPeer "b" (encodeToVec heartbeat))) := by
  obtain ⟨st, hs, cs, heq, -⟩ := completes_boot completes_bootedPair
  rw [heq]
  rfl

/-- A turn in which the node is given the heartbeat. -/
def givenTurn : RaftMachine.Turn where
  stop := false
  received := .message (.raft heartbeat 0)
  accepted := true
  elapsed := false
  role := .follower
  cycle := none

/-- A network without failures, on which the sender finds one message. -/
def quietNetwork (message : PeerMessage) : PeerNetwork where
  recv _ := some message
  connect _ _ := .ok ()
  sendRaftMessage _ _ := .ok ()

/-- The queue of the machine of node `2`, whose answers come too late. -/
def machineQueue : MachineQueue := ⟨fun _ => none, 0⟩

theorem sendRaftMessage_heartbeat :
    Completes (GrpcRaftServices.sendRaftMessage machineQueue ⟨encodeToVec heartbeat⟩)
      ([] : List (Passed Unit Unit Unit))
      ((GrpcRaftServices.machineReply machineQueue
        (.raft heartbeat "send_raft_message")).map fun _ => ⟨⟩)
      [.machine (.raft heartbeat "send_raft_message")] := by
  have hread : (decode (encodeToVec heartbeat) : Option RaftPreludeMessage) = some heartbeat := by
    decide +kernel
  unfold GrpcRaftServices.sendRaftMessage GrpcRaftServices.applyDecoded
  rw [hread]
  rfl

/-- The heartbeat is given to node `2`. -/
theorem delivered_heartbeat :
    ∃ s : Mesh, heartbeat ∈ s.steppedAt "b" ∧ s.Delivered true := by
  let message : PeerMessage := ⟨"b", encodeToVec heartbeat⟩
  let request : SendRaftMessageRequest := ⟨encodeToVec heartbeat⟩
  have h := Run.step (@Run.empty dataRoute) (.start (a := "a") rfl rfl completes_bootedPair)
  have h := h.step (.start (a := "b") rfl rfl completes_booted)
  have h := h.step (.turn (a := "a") (t := sendingTurn) rfl rfl completes_sendingTurn)
  -- from the task to the queue and to the network
  have htask : Takes [("a", message)] "a" message [] := ⟨[], [], rfl, rfl⟩
  have hfirst : TakesFirst [("a", message)] "a" message [] := ⟨[], [], rfl, nofun, rfl⟩
  have h := h.step (.queue htask (Nat.zero_lt_succ _) rfl)
  have h := h.step (.send hfirst rfl rfl
    (@PeersManager.turn_run (quietNetwork message) 0 (fun _ _ => rfl) []))
  -- from the service to the machine
  have hflying : Takes [(peerUrl "b", request)] (peerUrl "b") request [] := ⟨[], [], rfl, rfl⟩
  have hroom : HasRoom "b" ([] : List (String × RaftMessage)) := Nat.zero_lt_succ _
  have h := h.step (.arrive hflying rfl hroom sendRaftMessage_heartbeat)
  have hwaiting : TakesFirst [("b", RaftMessage.raft heartbeat 0)] "b" (.raft heartbeat 0) [] :=
    ⟨[], [], rfl, nofun, rfl⟩
  have hturn : Completes (booted.1.1.turn DataRoute.route givenTurn)
      (World.reopen booted.2.columns [])
      (some { booted.1.1 with
        placementCluster := booted.1.1.placementCluster.setRole .follower })
      (((World.reopen booted.2.columns []).emit (.called (.step heartbeat))).emit
        (.responded 0 none)) := rfl
  have h := h.step (.turn (a := "b") (t := givenTurn) rfl hwaiting hturn)
  refine ⟨_, ?_, delivered_of_run h⟩
  rw [steppedAt_turned]
  exact List.mem_append_right _ (List.mem_singleton_self heartbeat)

end Mesh

end PlacementCenter.Raft
