import Mathlib.Data.List.Perm.Subperm
import PlacementCenter.Clients.Messages
import PlacementCenter.Openraft.RaftNode

/-!
# The network of the openraft group

The nodes of the group send each other votes, entries and snapshots. A connection writes a request
down, has the service of the other node pass it on, and reads back what the service replies. Any
number of calls may be under way, requests and replies may be lost, and a request may arrive after
its caller has given up.

## Main definitions

* `RpcTypes`: the messages of the group, with their formats
* `NetworkConnection.send`, `NetworkConnection.receive`: the two halves of the methods of a
  connection
* `serve`: the handlers of the other node
* `Rpcs`, `Step`, `Run`: the calls of the group, and what was passed to its nodes
* `Transported s`: what is promised of the calls

## Main results

* `serve_run`: a handler passes the request on, and replies with the answer
* `transported_of_run`: **the network neither alters nor repeats messages**
-/

namespace PlacementCenter.Openraft

open Rust Program Server

/-! ### Connections -/

/-- `RPCError`, as far as the connections make one. -/
inductive RPCError where
  | unreachable (source : RobustMQError)
  deriving DecidableEq, Repr

def toError (e : RobustMQError) : RPCError := .unreachable e

/-- The format in which bincode writes the values of a type: what it writes, it reads back. -/
structure Format (α : Type) where
  serialize : α → Except String Bytes
  deserialize : Bytes → Except String α
  reads_back {a : α} {b : Bytes} : serialize a = .ok b → deserialize b = .ok a

/-- The methods of `RaftNetwork`. -/
inductive RpcKind where
  | appendEntries
  | installSnapshot
  | vote
  deriving DecidableEq, Repr

/-- The requests and responses of the methods. -/
structure RpcTypes where
  Request : RpcKind → Type
  Response : RpcKind → Type
  request : (kind : RpcKind) → Format (Request kind)
  response : (kind : RpcKind) → Format (Response kind)

structure NetworkConnection where
  addr : String
  target : UInt64
  deriving DecidableEq, Repr

def NetworkConnection.new (addr : String) (target : UInt64) : NetworkConnection := ⟨addr, target⟩

/-- `Network::new_client`. -/
def newClient (target : UInt64) (node : RaftNode.Node) : NetworkConnection :=
  .new node.rpcAddr target

variable {T : RpcTypes}

namespace NetworkConnection

variable (T)

/-- The first half of a method: what is sent, once the pool has given a connection. -/
def send (kind : RpcKind) (c : Except RobustMQError Unit) (req : T.Request kind) :
    Except RPCError Bytes :=
  match c with
  | .error e => .error (toError e)
  | .ok _ =>
    match (T.request kind).serialize req with
    | .ok value => .ok value
    | .error e => .error (toError (.commmonError e))

/-- The second half of a method: the response, from the reply of the service. -/
def receive (kind : RpcKind) (reply : Except Status Bytes) : Except RPCError (T.Response kind) :=
  match reply with
  | .error e => .error (toError (.commmonError e.toText))
  | .ok value =>
    match (T.response kind).deserialize value with
    | .ok result => .ok result
    | .error e => .error (toError (.commmonError e))

end NetworkConnection

/-! ### The other node -/

/-- What is passed to a node. -/
abbrev RpcTypes.Message (T : RpcTypes) : Type :=
  Passed (T.Request .vote) (T.Request .appendEntries) (T.Request .installSnapshot)

def RpcTypes.message (T : RpcTypes) : (kind : RpcKind) → T.Request kind → T.Message
  | .appendEntries, req => .append req
  | .installSnapshot, req => .snapshot req
  | .vote, req => .vote req

/-- What a node answers at some moment. -/
abbrev Answering (T : RpcTypes) : Type :=
  (kind : RpcKind) → T.Request kind → Except String (T.Response kind)

section Serve

variable (answer : Answering T)

def endpoint (kind : RpcKind) : Endpoint (T.Request kind) where
  Answer := T.Response kind
  deserialize := (T.request kind).deserialize
  call := answer kind
  serialize := (T.response kind).serialize

def openRaftNode : OpenRaftNode (T.Request .vote) (T.Request .appendEntries)
    (T.Request .installSnapshot) where
  vote := endpoint answer .vote
  appendEntries := endpoint answer .appendEntries
  installSnapshot := endpoint answer .installSnapshot

/-- The handler of a request, and the value of its reply. -/
def serve (kind : RpcKind) (value : Bytes) :
    Program (List T.Message) (Except Status Bytes) :=
  match kind with
  | .appendEntries => do
    return (← GrpcOpenRaftServices.append (openRaftNode answer) ⟨value⟩).map AppendReply.value
  | .installSnapshot => do
    return (← GrpcOpenRaftServices.snapshot (openRaftNode answer) ⟨value⟩).map SnapshotReply.value
  | .vote => do
    return (← GrpcOpenRaftServices.vote (openRaftNode answer) ⟨value⟩).map VoteReply.value

/-- What a handler replies for an answer of the node. -/
def replyOf (kind : RpcKind) (a : Except String (T.Response kind)) : Except Status Bytes :=
  match a with
  | .error e => .error (.cancelled e)
  | .ok res =>
    match (T.response kind).serialize res with
    | .ok data => .ok data
    | .error e => .error (.cancelled e)

theorem passOn_run {α : Type} {e : Endpoint α} {value : Bytes} {req : α}
    (h : e.deserialize value = .ok req) (toPassed : α → T.Message) (passed : List T.Message) :
    Completes (GrpcOpenRaftServices.passOn e toPassed value) passed
      (GrpcOpenRaftServices.replyValue e req) (passed ++ [toPassed req]) := by
  unfold GrpcOpenRaftServices.passOn
  rw [h]
  rfl

/-- A value that is put into a reply is read from it. -/
theorem completes_reply {ρ : Type} {mk : Bytes → ρ} {value : ρ → Bytes}
    (hvalue : ∀ b, value (mk b) = b) {handler : Program (List T.Message) (Except Status Bytes)}
    {reply : Except Status Bytes} {passed passed' : List T.Message}
    (h : Completes handler passed reply passed') :
    Completes (do return (← (do return (← handler).map mk)).map value) passed reply passed' := by
  refine completes_bind.mpr ⟨reply.map mk, passed', completes_bind.mpr ⟨reply, passed', h,
    completes_pure.mpr ⟨rfl, rfl⟩⟩, completes_pure.mpr ⟨?_, rfl⟩⟩
  cases reply with
  | ok b => exact congrArg Except.ok (hvalue b)
  | error e => rfl

/-- **A handler passes the request on**, and replies with the answer. -/
theorem serve_run {kind : RpcKind} {req : T.Request kind} {value : Bytes}
    (h : (T.request kind).deserialize value = .ok req) (passed : List T.Message) :
    Completes (serve answer kind value) passed (replyOf kind (answer kind req))
      (passed ++ [T.message kind req]) := by
  have hreply : GrpcOpenRaftServices.replyValue (endpoint answer kind) req =
      replyOf kind (answer kind req) := by
    unfold GrpcOpenRaftServices.replyValue replyOf
    dsimp only [endpoint]
    cases answer kind req with
    | error e => rfl
    | ok res => cases (T.response kind).serialize res <;> rfl
  rw [← hreply]
  cases kind with
  | appendEntries =>
    exact completes_reply (fun _ => rfl) (passOn_run (e := endpoint answer .appendEntries) h
      Passed.append passed)
  | installSnapshot =>
    exact completes_reply (fun _ => rfl) (passOn_run (e := endpoint answer .installSnapshot) h
      Passed.snapshot passed)
  | vote =>
    exact completes_reply (fun _ => rfl) (passOn_run (e := endpoint answer .vote) h
      Passed.vote passed)

/-- **A response that is read** is the answer of the node. -/
theorem eq_of_receive {kind : RpcKind} {a : Except String (T.Response kind)}
    {res : T.Response kind}
    (h : NetworkConnection.receive T kind (replyOf kind a) = .ok res) : a = .ok res := by
  cases a with
  | error e => cases h
  | ok res' =>
    unfold replyOf at h
    dsimp only at h
    cases hdata : (T.response kind).serialize res' with
    | error e =>
      rw [hdata] at h
      cases h
    | ok data =>
      rw [hdata, NetworkConnection.receive] at h
      simp only [(T.response kind).reads_back hdata] at h
      rw [Except.ok.inj h]

end Serve

/-! ### Calls -/

/-- A call of a method: the bytes that were sent, the answer of the node and the reply to it, and
what the method returned, as far as the call has come. -/
structure RpcCall (T : RpcTypes) where
  conn : NetworkConnection
  kind : RpcKind
  request : T.Request kind
  value : Option Bytes
  answer : Option (Except String (T.Response kind))
  reply : Option (Except Status Bytes)
  result : Option (Except RPCError (T.Response kind))

namespace RpcCall

def start (conn : NetworkConnection) (kind : RpcKind) (request : T.Request kind) : RpcCall T :=
  ⟨conn, kind, request, none, none, none, none⟩

/-- The first half of the method. -/
def send (c : RpcCall T) (connected : Except RobustMQError Unit) : RpcCall T :=
  match NetworkConnection.send T c.kind connected c.request with
  | .ok value => { c with value := some value }
  | .error e => { c with result := some (.error e) }

/-- The handler replied, when the node answered what the bytes say. -/
def handled (c : RpcCall T) (answer : Answering T) (value : Bytes)
    (reply : Except Status Bytes) : RpcCall T :=
  { c with
    answer := (T.request c.kind).deserialize value |>.toOption.map (answer c.kind)
    reply := some reply }

/-- The second half of the method. -/
def receive (c : RpcCall T) (reply : Except Status Bytes) : RpcCall T :=
  { c with result := some (NetworkConnection.receive T c.kind reply) }

/-- The request or the reply is lost, or comes too late. -/
def lose (c : RpcCall T) (reason : String) : RpcCall T :=
  { c with result := some (.error (toError (.commmonError reason))) }

def message (c : RpcCall T) : T.Message := T.message c.kind c.request

/-- What was passed to the node at an address for this call. -/
def passedTo (addr : String) (c : RpcCall T) : Option T.Message :=
  if c.conn.addr = addr ∧ c.reply.isSome then some c.message else none

end RpcCall

/-- The calls of the group, and the messages that were passed to the node at each address. -/
structure Rpcs (T : RpcTypes) where
  calls : List (RpcCall T)
  passed : String → List T.Message

namespace Rpcs

def start : Rpcs T := ⟨[], fun _ => []⟩

def setCall (s : Rpcs T) (i : ℕ) (c : RpcCall T) : Rpcs T := { s with calls := s.calls.set i c }

def setPassed (s : Rpcs T) (addr : String) (passed : List T.Message) : Rpcs T :=
  { s with passed := Function.update s.passed addr passed }

end Rpcs

/-- A step: a node calls a method, one half of it runs, a request reaches the service at its
address, or a caller gives up. -/
inductive Rpcs.Step (s : Rpcs T) : Rpcs T → Prop where
  | call (target : UInt64) (node : RaftNode.Node) (kind : RpcKind) (request : T.Request kind) :
    Step s { s with calls := s.calls ++ [.start (newClient target node) kind request] }
  | send {i c} (hc : s.calls[i]? = some c) (hv : c.value = none) (hr : c.result = none)
    (connected : Except RobustMQError Unit) : Step s (s.setCall i (c.send connected))
  | serve {i c value} (hc : s.calls[i]? = some c) (hv : c.value = some value)
    (ha : c.reply = none) (answer : Answering T) {reply passed}
    (hrun : Completes (serve answer c.kind value) (s.passed c.conn.addr) reply passed) :
    Step s ((s.setCall i (c.handled answer value reply)).setPassed c.conn.addr passed)
  | receive {i c reply} (hc : s.calls[i]? = some c) (ha : c.reply = some reply)
    (hr : c.result = none) : Step s (s.setCall i (c.receive reply))
  | lose {i c} (hc : s.calls[i]? = some c) (hv : c.value.isSome) (hr : c.result = none)
    (reason : String) : Step s (s.setCall i (c.lose reason))

inductive Rpcs.Run : Rpcs T → Prop where
  | start : Run .start
  | step {s s'} (hr : Run s) (h : s.Step s') : Run s'

/-- What is promised of a call: no handler panics on what was sent, which it passes on as the
request of the call, and a response is what the node answered. -/
structure RpcCall.Kept (c : RpcCall T) : Prop where
  guarded : ∀ value, c.value = some value → ∀ (answer : Answering T) passed, ∃ reply,
    Completes (serve answer c.kind value) passed reply (passed ++ [c.message])
  answered : ∀ res, c.result = some (.ok res) → c.answer = some (.ok res)

/-- What was sent to the node at an address, call by call. -/
def Rpcs.sent (s : Rpcs T) (addr : String) : List T.Message :=
  (s.calls.filter fun c => c.conn.addr = addr ∧ c.value.isSome).map RpcCall.message

/-- What is promised of the calls: a node is passed what was sent to its address, and no more often
than it was sent. -/
structure Transported (s : Rpcs T) : Prop where
  kept : ∀ c ∈ s.calls, c.Kept
  once : ∀ addr, (s.passed addr).Subperm (s.sent addr)

/-! ### What a step keeps -/

/-- A call has come as far as its parts say: what was sent is the request written down, what was
replied is the answer, and what was returned comes from the answer. -/
structure RpcCall.Sound (c : RpcCall T) : Prop where
  sent : ∀ value, c.value = some value → (T.request c.kind).serialize c.request = .ok value
  replied : ∀ reply, c.reply = some reply → ∃ a, c.answer = some a ∧ reply = replyOf c.kind a
  unsent : c.value = none → c.reply = none
  unanswered : c.reply = none → c.answer = none
  returned : ∀ res, c.result = some (.ok res) → c.answer = some (.ok res)

namespace RpcCall

variable {c : RpcCall T}

theorem sound_start (conn : NetworkConnection) (kind : RpcKind) (request : T.Request kind) :
    (start conn kind request).Sound where
  sent := fun _ hv => by cases hv
  replied := fun _ ha => by cases ha
  unsent := fun _ => rfl
  unanswered := fun _ => rfl
  returned := fun _ hr => by cases hr

theorem Sound.deserialize (h : c.Sound) {value : Bytes} (hv : c.value = some value) :
    (T.request c.kind).deserialize value = .ok c.request :=
  (T.request c.kind).reads_back (h.sent value hv)

/-- **What a sound call promises.** -/
theorem Sound.kept (h : c.Sound) : c.Kept where
  guarded := fun _ hv answer passed => ⟨_, serve_run answer (h.deserialize hv) passed⟩
  answered := h.returned

theorem Sound.send (h : c.Sound) (connected : Except RobustMQError Unit) :
    (c.send connected).Sound := by
  unfold RpcCall.send
  cases connected with
  | error e => exact ⟨h.sent, h.replied, h.unsent, h.unanswered, fun _ hres => by cases hres⟩
  | ok u =>
    unfold NetworkConnection.send
    dsimp only
    cases hvalue : (T.request c.kind).serialize c.request with
    | error e => exact ⟨h.sent, h.replied, h.unsent, h.unanswered, fun _ hres => by cases hres⟩
    | ok value =>
      refine ⟨fun v hv => ?_, h.replied, fun hnone => (by cases hnone), h.unanswered, h.returned⟩
      rw [← Option.some.inj hv]
      exact hvalue

/-- A call that the handler replies to was not answered before, so it has not returned a
response. -/
theorem Sound.handled (h : c.Sound) {value : Bytes} (hv : c.value = some value)
    (ha : c.reply = none) (answer : Answering T) :
    (c.handled answer value (replyOf c.kind (answer c.kind c.request))).Sound := by
  have hanswer : (c.handled answer value (replyOf c.kind (answer c.kind c.request))).answer =
      some (answer c.kind c.request) := by
    unfold RpcCall.handled
    rw [h.deserialize hv]
    rfl
  refine ⟨h.sent, fun reply hreply => ⟨_, hanswer, (Option.some.inj hreply).symm⟩,
    fun hnone => (by cases hv.symm.trans hnone), fun hnone => (by cases hnone),
    fun res hres => ?_⟩
  have hreturned := h.returned res hres
  rw [h.unanswered ha] at hreturned
  cases hreturned

theorem Sound.receive (h : c.Sound) {reply : Except Status Bytes} (ha : c.reply = some reply) :
    (c.receive reply).Sound := by
  obtain ⟨a, hanswer, rfl⟩ := h.replied reply ha
  refine ⟨h.sent, h.replied, h.unsent, h.unanswered, fun res hres => ?_⟩
  exact hanswer.trans (congrArg some (eq_of_receive (Option.some.inj hres)))

theorem Sound.lose (h : c.Sound) (reason : String) : (c.lose reason).Sound :=
  ⟨h.sent, h.replied, h.unsent, h.unanswered, fun _ hres => by cases hres⟩

theorem passedTo_send (c : RpcCall T) (connected : Except RobustMQError Unit) (addr : String) :
    (c.send connected).passedTo addr = c.passedTo addr := by
  unfold RpcCall.send
  cases NetworkConnection.send T c.kind connected c.request <;> rfl

end RpcCall

namespace Rpcs

variable {s s' : Rpcs T} {i : ℕ} {c c' : RpcCall T}

/-- What was passed to the node at an address, call by call. -/
def delivered (s : Rpcs T) (addr : String) : List T.Message :=
  s.calls.filterMap (RpcCall.passedTo addr)

theorem exists_setCall (hc : s.calls[i]? = some c) : ∃ l l', s.calls = l ++ c :: l' ∧
    ∀ c', (s.setCall i c').calls = l ++ c' :: l' := by
  obtain ⟨hi, hget⟩ := List.getElem?_eq_some_iff.mp hc
  refine ⟨s.calls.take i, s.calls.drop (i + 1), ?_, fun c' => ?_⟩
  · rw [← hget, List.getElem_cons_drop, List.take_append_drop]
  · exact List.set_eq_take_append_cons_drop.trans (if_pos hi)

/-- A call that is passed to no other node than before. -/
theorem delivered_setCall (hc : s.calls[i]? = some c) {addr : String}
    (h : c'.passedTo addr = c.passedTo addr) :
    (s.setCall i c').delivered addr = s.delivered addr := by
  obtain ⟨l, l', heq, hset⟩ := exists_setCall hc
  rw [delivered, delivered, hset, heq]
  simp only [List.filterMap_append, List.filterMap_cons, h]

/-- A call whose message is passed on. -/
theorem delivered_setCall_passed (hc : s.calls[i]? = some c) {addr : String} {m : T.Message}
    (h : c.passedTo addr = none) (h' : c'.passedTo addr = some m) :
    ((s.setCall i c').delivered addr).Perm (s.delivered addr ++ [m]) := by
  obtain ⟨l, l', heq, hset⟩ := exists_setCall hc
  rw [delivered, delivered, hset, heq]
  simp only [List.filterMap_append, List.filterMap_cons, h, h', List.append_assoc]
  exact (List.perm_append_left_iff _).mpr (List.perm_append_singleton _ _).symm

/-- Every call is sound, and a node was passed what was delivered to it. -/
structure Sound (s : Rpcs T) : Prop where
  calls : ∀ c ∈ s.calls, c.Sound
  passed : ∀ addr, (s.passed addr).Perm (s.delivered addr)

theorem sound_start : Sound (.start : Rpcs T) where
  calls := fun _ hc => by cases hc
  passed := fun _ => .refl _

theorem Sound.mem_setCall (h : s.Sound) (hc' : c'.Sound) :
    ∀ c ∈ (s.setCall i c').calls, c.Sound := by
  intro c hc
  rcases List.mem_or_eq_of_mem_set hc with hc | rfl
  · exact h.calls c hc
  · exact hc'

/-- A step of one call that passes nothing on. -/
theorem Sound.setCall (h : s.Sound) (hc : s.calls[i]? = some c) (hc' : c'.Sound)
    (hpassed : ∀ addr, c'.passedTo addr = c.passedTo addr) : (s.setCall i c').Sound where
  calls := h.mem_setCall hc'
  passed addr := (h.passed addr).trans (.of_eq (delivered_setCall hc (hpassed addr)).symm)

/-- **What a step keeps.** -/
theorem Sound.step (h : s.Sound) (hs : s.Step s') : s'.Sound := by
  have sound : ∀ {i : ℕ} {c : RpcCall T}, s.calls[i]? = some c → c.Sound := fun hc =>
    h.calls _ (List.mem_of_getElem? hc)
  cases hs with
  | call target node kind request =>
    refine ⟨fun c hc => ?_, fun addr => (h.passed addr).trans (.of_eq ?_)⟩
    · rcases List.mem_append.mp hc with hc | hc
      · exact h.calls c hc
      · rw [List.mem_singleton.mp hc]
        exact RpcCall.sound_start _ _ _
    · rw [delivered, delivered, List.filterMap_append]
      simp [RpcCall.passedTo, RpcCall.start]
  | send hc hv hr connected =>
    exact h.setCall hc ((sound hc).send connected) fun addr => RpcCall.passedTo_send _ _ addr
  | @serve i c value hc hv ha answer reply passed hrun =>
    have hserved := serve_run answer ((sound hc).deserialize hv) (s.passed c.conn.addr)
    obtain ⟨rfl, rfl⟩ := (completes_of_run hserved).mp hrun
    refine ⟨h.mem_setCall ((sound hc).handled hv ha answer), fun addr => ?_⟩
    -- the call had passed nothing on before
    have hnone : c.passedTo addr = none := if_neg (by simp [ha])
    by_cases haddr : c.conn.addr = addr
    · subst haddr
      have hpassed : (c.handled answer value (replyOf c.kind (answer c.kind c.request))).passedTo
          c.conn.addr = some c.message := if_pos ⟨rfl, rfl⟩
      rw [setPassed]
      dsimp only
      rw [Function.update_self]
      exact ((h.passed c.conn.addr).append_right _).trans
        (delivered_setCall_passed hc hnone hpassed).symm
    · have hother : (c.handled answer value (replyOf c.kind (answer c.kind c.request))).passedTo
          addr = c.passedTo addr := hnone ▸ if_neg fun hand => haddr hand.1
      rw [setPassed]
      dsimp only
      rw [Function.update_of_ne (Ne.symm haddr)]
      exact (h.passed addr).trans (.of_eq (delivered_setCall hc hother).symm)
  | receive hc ha hr =>
    exact h.setCall hc ((sound hc).receive ha) fun addr => rfl
  | lose hc hv hr reason =>
    exact h.setCall hc ((sound hc).lose reason) fun addr => rfl

/-- What was passed on was sent. -/
theorem delivered_sublist {calls : List (RpcCall T)} (h : ∀ c ∈ calls, c.Sound) (addr : String) :
    (calls.filterMap (RpcCall.passedTo addr)).Sublist
      ((calls.filter fun c => c.conn.addr = addr ∧ c.value.isSome).map RpcCall.message) := by
  induction calls with
  | nil => exact .slnil
  | cons c calls ih =>
    have ih := ih fun c' hc' => h c' (List.mem_cons_of_mem c hc')
    rw [List.filterMap_cons, List.filter_cons, RpcCall.passedTo]
    by_cases hpassed : c.conn.addr = addr ∧ c.reply.isSome
    · -- a call with a reply was sent
      have hvalue : c.value.isSome := by
        rw [Option.isSome_iff_ne_none]
        intro hnone
        rw [(h c List.mem_cons_self).unsent hnone] at hpassed
        cases hpassed.2
      rw [if_pos hpassed, if_pos (decide_eq_true ⟨hpassed.1, hvalue⟩), List.map_cons]
      exact ih.cons_cons _
    · rw [if_neg hpassed]
      split_ifs
      · exact ih.cons _
      · exact ih

theorem sound_of_run (h : Run s) : s.Sound := by
  induction h with
  | start => exact sound_start
  | step hr hs ih => exact ih.step hs

/-- **The network neither alters nor repeats messages.** Whatever is lost or comes late, a node is
passed only requests that were sent to its address, each at most as often as it was sent, no handler
panics on them, and a caller gets a response only when the node answered it. -/
theorem transported_of_run (h : Run s) : Transported s where
  kept c hc := ((sound_of_run h).calls c hc).kept
  once addr := ((sound_of_run h).passed addr).subperm.trans
    (delivered_sublist (sound_of_run h).calls addr).subperm

/-! ### A call -/

/-- The format of numbers. -/
def numberFormat : Format UInt64 where
  serialize n := .ok (Bincode.serialize n)
  deserialize b := match Bincode.deserialize b with
    | some n => .ok n
    | none => .error "io error: unexpected end of file"
  reads_back {n b} h := by
    have hlength : (Bincode.serialize n).length = 8 := length_u64LE n
    rw [← Except.ok.inj h, Bincode.deserialize_serialize (by rw [hlength]; decide)]

/-- Messages that are numbers, like the term of a vote. -/
def numberTypes : RpcTypes where
  Request _ := UInt64
  Response _ := UInt64
  request _ := numberFormat
  response _ := numberFormat

/-- A vote is asked for, and the answer is returned. -/
theorem transported_vote : ∃ s : Rpcs numberTypes,
    (∃ c ∈ s.calls, ∃ res, c.result = some (.ok res)) ∧ Transported s := by
  have h : Run (T := numberTypes) _ :=
    .step .start (.call 2 ⟨2, "127.0.0.1:1228"⟩ .vote (7 : UInt64))
  have h := h.step (.send (i := 0) rfl rfl rfl (.ok ()))
  have h := h.step (.serve (i := 0) rfl rfl rfl (fun _ n => .ok n) (serve_run _ rfl _))
  have h := h.step (.receive (i := 0) rfl rfl rfl)
  exact ⟨_, ⟨_, List.mem_singleton_self _, (7 : UInt64), rfl⟩, transported_of_run h⟩

end Rpcs

end PlacementCenter.Openraft
