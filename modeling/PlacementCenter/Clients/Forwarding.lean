import Mathlib.Data.List.Perm.Subperm
import PlacementCenter.Clients.Placement
import PlacementCenter.Raft.ClusterSteps

/-!
# Forwarded writes

The calls of `placement_set` and `placement_delete`, the handlers of the service that their attempts
reach, and the cluster that these propose to. A call knows nothing of its earlier attempts, whose
proposals stay in the log when their handlers gave up.

## Main definitions

* `PlacementCall`, `Handler`, `Net`: a call, a handler and all of them with the cluster
* `Net.Step router nodeAt`: the steps of the calls, of the handlers and of the cluster
* `Net.committed k`: the committed entries of a call, with the attempts they were proposed for
* `Net.Caused k n`: the proposals that an attempt led to, by forwarding as well
* `Net.RetriedUnproposed k`: no attempt that was followed by another one led to a proposal

## Main results

* `traced_of_run`: an attempt reaches one handler at most
* `attributed_of_run`: a proposal on the channel of a handler is of the write of the handler
* `Caused.unique`: a call leads to one proposal at most, when it retried nothing that was proposed
* `committed_of_run`: **a call has at most one committed entry for each attempt**
* `write_executed_twice`: a write is executed again after a later one was answered
-/

namespace PlacementCenter.Placement

open Rust Rust.Prost Storage Protocol Raft Server

/-! ### Calls and handlers -/

/-- A call of `placement_set` or `placement_delete`: the number of its attempt, the handler that the
attempt reached, and what it returned. -/
structure PlacementCall where
  write : Write
  addrs : List String
  times : ℕ
  handler : Option ℕ
  result : Option (Except RobustMQError CommonReply)

/-- A call that begins. -/
def PlacementCall.start (write : Write) (addrs : List String) : PlacementCall :=
  ⟨write, addrs, 1, none, none⟩

/-- The call once its attempt ended. -/
def PlacementCall.ended (call : PlacementCall) (result : Except RobustMQError Bytes) :
    PlacementCall :=
  match afterAttempt call.times result with
  | .returns result => { call with result := some (placementReply result) }
  | .again times => { call with times := times, handler := none }

/-- How far a handler has come. It keeps what it read of the metadata. -/
inductive HandlerState where
  | received
  | proposing (read : RaftGroupMetadata)
  | forwarding (read : RaftGroupMetadata)
  | replied (reply : Except Status CommonReply)

/-- A call of `GrpcKvServices::set` or `delete` on a node: the call and the attempt that it came
from, the channel of its proposal, and the call that it forwards by. -/
structure Handler where
  node : ℕ
  write : Write
  origin : Option (ℕ × ℕ)
  chan : Option ChanId
  call : Option ℕ
  state : HandlerState

namespace Handler

/-- A handler that begins. -/
def start (node : ℕ) (write : Write) (origin : Option (ℕ × ℕ)) : Handler :=
  ⟨node, write, origin, none, none, .received⟩

/-- The message of its proposal, on a channel. -/
def message (h : Handler) (c : ChanId) : RaftMessage :=
  (Request.ofWrite h.write.data h.write.action).message c

/-- The handler made a proposal on the channel of the node. -/
def Proposes (h : Handler) (node : ℕ) (c : ChanId) : Prop := h.node = node ∧ h.chan = some c

instance (h : Handler) (node : ℕ) (c : ChanId) : Decidable (h.Proposes node c) :=
  inferInstanceAs (Decidable (_ ∧ _))

end Handler

/-- The cluster, the calls and the handlers, each known by its place. -/
structure Net where
  cluster : Cluster
  calls : List PlacementCall
  handlers : List Handler

namespace Net

/-- Before any step. -/
def empty : Net := ⟨.empty, [], []⟩

def setCall (net : Net) (k : ℕ) (call : PlacementCall) : Net :=
  { net with calls := net.calls.set k call }

def setHandler (net : Net) (i : ℕ) (h : Handler) : Net :=
  { net with handlers := net.handlers.set i h }

/-- The requests that a node may be given: on the channel of a handler, its proposal. -/
def Asks (net : Net) (node : ℕ) (message : RaftMessage) : Prop :=
  ∀ h ∈ net.handlers, h.Proposes node message.chan → message = h.message message.chan

/-! ### Steps -/

/-- How an attempt of a call ends. -/
inductive Ends (net : Net) (call : PlacementCall) : Except RobustMQError Bytes → Prop where
  /-- The connection fails, whatever the handler did. -/
  | failed (e : RobustMQError) : Ends net call (.error e)
  | answered {i : ℕ} {h : Handler} {reply : Except Status CommonReply}
    (hc : call.handler = some i) (hh : net.handlers[i]? = some h) (hs : h.state = .replied reply) :
    Ends net call (innerReply reply)

/-- How a handler comes to its reply. -/
inductive Replies (net : Net) (h : Handler) : Except Status CommonReply → Prop where
  | rejected (g : RaftGroupMetadata) (clients : Clients)
    (propose : StorageData → String → Except RobustMQError Unit) (hs : h.state = .received)
    (hw : ¬ h.write.Accepted) : Replies net h (h.write.reply clients propose g)
  /-- The channel of the proposal ends in any way, or the handler gives up; the proposal stays. -/
  | proposed {g : RaftGroupMetadata} {c : ChanId} (clients : Clients) (fate : Fate)
    (hs : h.state = .proposing g) (hc : h.chan = some c) :
    Replies net h (h.write.reply clients
      (fun data action => (Request.ofWrite data action).apply (fun _ => fate) c) g)
  | forwarded {g : RaftGroupMetadata} {k : ℕ} {call : PlacementCall}
    {result : Except RobustMQError CommonReply}
    (propose : StorageData → String → Except RobustMQError Unit) (hs : h.state = .forwarding g)
    (hk : h.call = some k) (hc : net.calls[k]? = some call) (hr : call.result = some result) :
    Replies net h (h.write.reply ⟨fun _ _ => result, fun _ _ => result⟩ propose g)

/-- The steps. An address is that of a node, or of none. -/
inductive Step (router : Router MachineEvent) (nodeAt : String → Option ℕ) (net : Net) : Net → Prop
  | call (write : Write) (addrs : List String) :
    Step router nodeAt net { net with calls := net.calls ++ [.start write addrs] }
  /-- The attempt of a call reaches a node. -/
  | reach {k node : ℕ} {call : PlacementCall} {addr : String} {write : Write}
    (hc : net.calls[k]? = some call) (hr : call.result = none) (hh : call.handler = none)
    (ha : attemptAddr call.addrs call.times = some addr) (hn : nodeAt addr = some node)
    (hw : innerRequest call.write = some write) :
    Step router nodeAt net
      { net.setCall k { call with handler := some net.handlers.length } with
        handlers := net.handlers ++ [.start node write (some (k, call.times))] }
  | ended {k : ℕ} {call : PlacementCall} {result : Except RobustMQError Bytes}
    (hc : net.calls[k]? = some call) (hr : call.result = none) (he : net.Ends call result) :
    Step router nodeAt net (net.setCall k (call.ended result))
  /-- The service is called from outside. -/
  | request (node : ℕ) (write : Write) :
    Step router nodeAt net { net with handlers := net.handlers ++ [.start node write none] }
  /-- A handler that takes its node for the leader proposes, on a channel of its own. -/
  | propose {i : ℕ} {h : Handler} {g : RaftGroupMetadata} {c : ChanId}
    (hh : net.handlers[i]? = some h) (hs : h.state = .received) (hw : h.write.Accepted)
    (hl : g.isLeader = true) (hfresh : ∀ h' ∈ net.handlers, ¬ h'.Proposes h.node c)
    (hasked : ∀ message ∈ (net.cluster.members h.node).asked, message.chan ≠ c) :
    Step router nodeAt net (net.setHandler i { h with chan := some c, state := .proposing g })
  /-- Another one forwards, by a call of its own. -/
  | forward {i : ℕ} {h : Handler} {g : RaftGroupMetadata} (hh : net.handlers[i]? = some h)
    (hs : h.state = .received) (hw : h.write.Accepted) (hl : g.isLeader = false) :
    Step router nodeAt net
      { net.setHandler i { h with call := some net.calls.length, state := .forwarding g } with
        calls := net.calls ++ [.start h.write [g.leaderAddr]] }
  | reply {i : ℕ} {h : Handler} {reply : Except Status CommonReply}
    (hh : net.handlers[i]? = some h) (hr : net.Replies h reply) :
    Step router nodeAt net (net.setHandler i { h with state := .replied reply })
  | cluster {cl : Cluster} (h : ClusterStep router net.Asks net.cluster cl) :
    Step router nodeAt net { net with cluster := cl }

/-- What any steps lead to, in any order. -/
inductive Run (router : Router MachineEvent) (nodeAt : String → Option ℕ) : Net → Prop
  | empty : Run router nodeAt .empty
  | step {net net' : Net} (hr : Run router nodeAt net) (h : Step router nodeAt net net') :
    Run router nodeAt net'

/-! ### The entries of a call -/

/-- The attempt of the call `k` that a proposal was made for. -/
def attemptOf (net : Net) (k : ℕ) (p : Proposal) : Option ℕ :=
  (net.handlers.find? fun h => h.Proposes p.node p.message.chan).bind fun h =>
    h.origin.bind fun o => if o.1 = k then some o.2 else none

/-- The committed entries of the call `k`, with their attempts. -/
def committed (net : Net) (k : ℕ) : List (ℕ × Entry) :=
  net.cluster.log.filterMap fun x => (x.2.bind (net.attemptOf k)).map fun n => (n, x.1)

/-- The attempt `n` of the call `k` led to a proposal: of the handler that it reached, or of a call
by which this one forwarded. -/
inductive Caused (net : Net) : ℕ → ℕ → Proposal → Prop
  | proposed {i k n : ℕ} {h : Handler} {p : Proposal} (hh : net.handlers[i]? = some h)
    (ho : h.origin = some (k, n)) (hp : h.Proposes p.node p.message.chan) : Caused net k n p
  | forwarded {i k n k' n' : ℕ} {h : Handler} {p : Proposal} (hh : net.handlers[i]? = some h)
    (ho : h.origin = some (k, n)) (hc : h.call = some k') (hp : Caused net k' n' p) :
    Caused net k n p

/-- The calls by which a call is forwarded, itself included. -/
inductive ForwardedBy (net : Net) : ℕ → ℕ → Prop
  | self (k : ℕ) : ForwardedBy net k k
  | handler {i k n k' k'' : ℕ} {h : Handler} (hh : net.handlers[i]? = some h)
    (ho : h.origin = some (k, n)) (hc : h.call = some k') (hf : ForwardedBy net k' k'') :
    ForwardedBy net k k''

/-- No attempt that was retried, by the call or by one that forwards it, led to a proposal. -/
def RetriedUnproposed (net : Net) (k : ℕ) : Prop :=
  ∀ (k' n : ℕ) (call : PlacementCall), net.ForwardedBy k k' → net.calls[k']? = some call →
    ∀ p ∈ net.cluster.proposals, net.Caused k' n p → ¬ n < call.times

/-- The committed entry `i` is one that the call led to. -/
def CausedAt (net : Net) (k i : ℕ) : Prop :=
  ∃ e p n, net.cluster.log[i]? = some (e, some p) ∧ net.Caused k n p

/-- A proposal for an attempt was made by a handler that the attempt reached. -/
theorem attemptOf_eq_some {net : Net} {k n : ℕ} {p : Proposal} (hp : net.attemptOf k p = some n) :
    ∃ (i : ℕ) (h : Handler), net.handlers[i]? = some h ∧ h.Proposes p.node p.message.chan ∧
      h.origin = some (k, n) := by
  obtain ⟨h, hfind, ho⟩ := Option.bind_eq_some_iff.mp hp
  obtain ⟨⟨k', n'⟩, horigin, hn⟩ := Option.bind_eq_some_iff.mp ho
  obtain ⟨rfl, hn'⟩ := Option.ite_none_right_eq_some.mp hn
  cases hn'
  obtain ⟨i, hi⟩ := List.mem_iff_getElem?.mp (List.mem_of_find?_eq_some hfind)
  have hproposes : h.Proposes p.node p.message.chan := by simpa using List.find?_some hfind
  exact ⟨i, h, hi, hproposes, horigin⟩

/-! ### Attempts and handlers -/

/-- An element of a list after one was replaced. -/
theorem getElem?_of_set {α : Type} {l : List α} {i j : ℕ} {a b : α}
    (h : (l.set i a)[j]? = some b) : j = i ∧ b = a ∨ l[j]? = some b := by
  rw [List.getElem?_set] at h
  split_ifs at h with hij hi
  · exact .inl ⟨hij.symm, (Option.some_inj.mp h).symm⟩
  · exact .inr h

/-- An element of a list after one was added. -/
theorem getElem?_of_append {α : Type} {l : List α} {j : ℕ} {a b : α}
    (h : (l ++ [a])[j]? = some b) : j = l.length ∧ b = a ∨ l[j]? = some b := by
  rw [List.getElem?_append] at h
  split_ifs at h with hj
  · exact .inr h
  · obtain ⟨hlt, hb⟩ := List.getElem?_eq_some_iff.mp h
    rw [List.length_singleton] at hlt
    refine .inl ⟨by omega, ?_⟩
    simpa using hb.symm

/-- The number of an attempt is within the limit, and an attempt reaches one handler at most, which
executes the write of the call. -/
structure Traced (calls : List PlacementCall) (handlers : List Handler) : Prop where
  times : ∀ (k : ℕ) (call : PlacementCall), calls[k]? = some call →
    1 ≤ call.times ∧ call.times ≤ retryTimes + 1
  origin : ∀ (i : ℕ) (h : Handler) (k n : ℕ), handlers[i]? = some h → h.origin = some (k, n) →
    ∃ call : PlacementCall, calls[k]? = some call ∧ h.write = call.write ∧ 1 ≤ n ∧
      (n < call.times ∨ n = call.times ∧ call.handler = some i)
  once : ∀ (i j : ℕ) (h h' : Handler) (o : ℕ × ℕ), handlers[i]? = some h →
    handlers[j]? = some h' → h.origin = some o → h'.origin = some o → i = j

section traced

variable {calls : List PlacementCall} {handlers handlers' : List Handler} {k i : ℕ}
  {call : PlacementCall} {h : Handler}

/-- Handlers with the same writes and origins, or without an origin. -/
theorem Traced.congr (ht : Traced calls handlers)
    (hsame : ∀ (i : ℕ) (h' : Handler), handlers'[i]? = some h' → h'.origin ≠ none →
      ∃ h, handlers[i]? = some h ∧ h'.write = h.write ∧ h'.origin = h.origin) :
    Traced calls handlers' where
  times := ht.times
  origin i h' k n hi ho := by
    obtain ⟨h, hi', hw, ho'⟩ := hsame i h' hi (by simp [ho])
    rw [hw]
    exact ht.origin i h k n hi' (ho'.symm.trans ho)
  once i j h₁ h₂ o hi hj ho₁ ho₂ := by
    obtain ⟨g₁, hi', -, hg₁⟩ := hsame i h₁ hi (by simp [ho₁])
    obtain ⟨g₂, hj', -, hg₂⟩ := hsame j h₂ hj (by simp [ho₂])
    exact ht.once i j g₁ g₂ o hi' hj' (hg₁.symm.trans ho₁) (hg₂.symm.trans ho₂)

theorem Traced.setHandler (ht : Traced calls handlers) (hi : handlers[i]? = some h) {h' : Handler}
    (hw : h'.write = h.write) (ho : h'.origin = h.origin) : Traced calls (handlers.set i h') := by
  refine ht.congr fun j h'' hj _ => ?_
  rcases getElem?_of_set hj with ⟨rfl, rfl⟩ | hj
  · exact ⟨h, hi, hw, ho⟩
  · exact ⟨h'', hj, rfl, rfl⟩

theorem Traced.serve (ht : Traced calls handlers) (node : ℕ) (write : Write) :
    Traced calls (handlers ++ [.start node write none]) := by
  refine ht.congr fun j h' hj ho => ?_
  rcases getElem?_of_append hj with ⟨-, rfl⟩ | hj
  · exact absurd rfl ho
  · exact ⟨h', hj, rfl, rfl⟩

theorem Traced.begin (ht : Traced calls handlers) (write : Write) (addrs : List String) :
    Traced (calls ++ [.start write addrs]) handlers where
  times k call hk := by
    rcases getElem?_of_append hk with ⟨-, rfl⟩ | hk
    · exact ⟨Nat.le_refl 1, Nat.le_add_left 1 retryTimes⟩
    · exact ht.times k call hk
  origin i h k n hi ho := by
    obtain ⟨call, hk, hrest⟩ := ht.origin i h k n hi ho
    refine ⟨call, ?_, hrest⟩
    rw [List.getElem?_append_left (List.getElem?_eq_some_iff.mp hk).1]
    exact hk
  once := ht.once

/-- A call that ends, or goes on with its next attempt, keeps its handlers. -/
theorem Traced.setCall (ht : Traced calls handlers) (hk : calls[k]? = some call)
    {call' : PlacementCall} (hw : call'.write = call.write)
    (htimes : 1 ≤ call'.times ∧ call'.times ≤ retryTimes + 1)
    (hlater : call.times < call'.times ∨ call'.times = call.times ∧ call'.handler = call.handler) :
    Traced (calls.set k call') handlers where
  times k' call'' hk' := by
    rcases getElem?_of_set hk' with ⟨-, rfl⟩ | hk'
    · exact htimes
    · exact ht.times k' call'' hk'
  origin i h k' n hi ho := by
    obtain ⟨call'', hk', hw', hn, hlt⟩ := ht.origin i h k' n hi ho
    by_cases hkk : k' = k
    · subst hkk
      obtain rfl := Option.some_inj.mp (hk.symm.trans hk')
      refine ⟨call', ?_, hw'.trans hw.symm, hn, ?_⟩
      · rw [List.getElem?_set_self (List.getElem?_eq_some_iff.mp hk).1]
      -- a later attempt leaves the old ones behind
      · rcases hlater with hlater | ⟨hsame, hhandler⟩
        · left
          rcases hlt with hlt | ⟨rfl, -⟩
          · exact Nat.lt_trans hlt hlater
          · exact hlater
        · rw [hsame, hhandler]
          exact hlt
    · refine ⟨call'', ?_, hw', hn, hlt⟩
      rw [List.getElem?_set_ne (Ne.symm hkk)]
      exact hk'
  once := ht.once

theorem Traced.ended (ht : Traced calls handlers) (hk : calls[k]? = some call)
    (result : Except RobustMQError Bytes) : Traced (calls.set k (call.ended result)) handlers := by
  obtain ⟨hone, hle⟩ := ht.times k call hk
  unfold PlacementCall.ended
  cases hnext : afterAttempt call.times result with
  | returns result => exact ht.setCall hk rfl ⟨hone, hle⟩ (.inr ⟨rfl, rfl⟩)
  | again n =>
    obtain ⟨rfl, hlt, -⟩ := afterAttempt_eq_again.mp hnext
    exact ht.setCall hk rfl ⟨by simp, by simpa using hlt⟩ (.inl (Nat.lt_succ_self _))

/-- **The attempt of a call reaches a node**, once. -/
theorem Traced.reach (ht : Traced calls handlers) (hk : calls[k]? = some call)
    (hh : call.handler = none) (node : ℕ) :
    Traced (calls.set k { call with handler := some handlers.length })
      (handlers ++ [.start node call.write (some (k, call.times))]) := by
  -- no handler is of this attempt yet
  have hnew : ∀ (i : ℕ) (h : Handler), handlers[i]? = some h → h.origin ≠ some (k, call.times) := by
    intro i h hi ho
    obtain ⟨call', hk', -, -, hlt⟩ := ht.origin i h k call.times hi ho
    obtain rfl := Option.some_inj.mp (hk.symm.trans hk')
    rcases hlt with hlt | ⟨-, hhandler⟩
    · exact absurd hlt (Nat.lt_irrefl _)
    · rw [hh] at hhandler
      cases hhandler
  have hself : (calls.set k { call with handler := some handlers.length })[k]? =
      some { call with handler := some handlers.length } :=
    List.getElem?_set_self (List.getElem?_eq_some_iff.mp hk).1
  refine ⟨?_, ?_, ?_⟩
  · intro k' call' hk'
    rcases getElem?_of_set hk' with ⟨-, rfl⟩ | hk'
    · exact ht.times k call hk
    · exact ht.times k' call' hk'
  · intro i h k' n hi ho
    rcases getElem?_of_append hi with ⟨rfl, rfl⟩ | hold
    · cases ho
      exact ⟨_, hself, rfl, (ht.times k call hk).1, .inr ⟨rfl, rfl⟩⟩
    · obtain ⟨call', hk', hw, hn, hlt⟩ := ht.origin i h k' n hold ho
      by_cases hkk : k' = k
      · subst hkk
        obtain rfl := Option.some_inj.mp (hk.symm.trans hk')
        refine ⟨_, hself, hw, hn, ?_⟩
        rcases hlt with hlt | ⟨rfl, -⟩
        · exact .inl hlt
        · exact absurd ho (hnew i h hold)
      · refine ⟨call', ?_, hw, hn, hlt⟩
        rw [List.getElem?_set_ne (Ne.symm hkk)]
        exact hk'
  · intro i j h₁ h₂ o hi hj ho₁ ho₂
    rcases getElem?_of_append hi with ⟨rfl, rfl⟩ | hi <;>
      rcases getElem?_of_append hj with ⟨rfl, rfl⟩ | hj
    · rfl
    · cases ho₁
      exact absurd ho₂ (hnew j h₂ hj)
    · cases ho₂
      exact absurd ho₁ (hnew i h₁ hi)
    · exact ht.once i j h₁ h₂ o hi hj ho₁ ho₂

end traced

/-! ### Proposals and handlers -/

/-- The channels of the handlers of a node differ, and a proposal on one of them is of the write of
its handler. -/
structure Attributed (cl : Cluster) (handlers : List Handler) : Prop where
  chans : ∀ (i j : ℕ) (h h' : Handler) (node : ℕ) (c : ChanId), handlers[i]? = some h →
    handlers[j]? = some h' → h.Proposes node c → h'.Proposes node c → i = j
  carried : ∀ p ∈ cl.proposals, ∀ h ∈ handlers, h.Proposes p.node p.message.chan →
    p.message = h.message p.message.chan

section attributed

variable {router : Router MachineEvent} {cl cl' : Cluster} {handlers handlers' : List Handler}
  {i : ℕ} {h : Handler}

/-- Handlers with the same channels and writes, or without a channel. -/
theorem Attributed.congr (ha : Attributed cl handlers)
    (hsame : ∀ (i : ℕ) (h' : Handler), handlers'[i]? = some h' → h'.chan ≠ none →
      ∃ h, handlers[i]? = some h ∧ h'.node = h.node ∧ h'.write = h.write ∧ h'.chan = h.chan) :
    Attributed cl handlers' := by
  have old : ∀ (i : ℕ) (h' : Handler) (node : ℕ) (c : ChanId), handlers'[i]? = some h' →
      h'.Proposes node c → ∃ h, handlers[i]? = some h ∧ h.Proposes node c ∧ h'.write = h.write := by
    rintro i h' node c hi ⟨hnode, hc⟩
    obtain ⟨h, hi', hn, hw, hch⟩ := hsame i h' hi (by simp [hc])
    exact ⟨h, hi', ⟨hn.symm.trans hnode, hch.symm.trans hc⟩, hw⟩
  refine ⟨?_, ?_⟩
  · intro i j h₁ h₂ node c hi hj hp₁ hp₂
    obtain ⟨g₁, hi', hg₁, -⟩ := old i h₁ node c hi hp₁
    obtain ⟨g₂, hj', hg₂, -⟩ := old j h₂ node c hj hp₂
    exact ha.chans i j g₁ g₂ node c hi' hj' hg₁ hg₂
  · intro p hp h' hmem hprop
    obtain ⟨i, hi⟩ := List.mem_iff_getElem?.mp hmem
    obtain ⟨h, hi', hprop', hw⟩ := old i h' _ _ hi hprop
    have hmessage := ha.carried p hp h (List.mem_of_getElem? hi') hprop'
    rw [Handler.message, ← hw] at hmessage
    exact hmessage

theorem Attributed.setHandler (ha : Attributed cl handlers) (hi : handlers[i]? = some h)
    {h' : Handler} (hn : h'.node = h.node) (hw : h'.write = h.write) (hc : h'.chan = h.chan) :
    Attributed cl (handlers.set i h') := by
  refine ha.congr fun j h'' hj _ => ?_
  rcases getElem?_of_set hj with ⟨rfl, rfl⟩ | hj
  · exact ⟨h, hi, hn, hw, hc⟩
  · exact ⟨h'', hj, rfl, rfl, rfl⟩

theorem Attributed.serve (ha : Attributed cl handlers) (node : ℕ) (write : Write)
    (origin : Option (ℕ × ℕ)) : Attributed cl (handlers ++ [.start node write origin]) := by
  refine ha.congr fun j h' hj hc => ?_
  rcases getElem?_of_append hj with ⟨-, rfl⟩ | hj
  · exact absurd rfl hc
  · exact ⟨h', hj, rfl, rfl, rfl⟩

/-- A handler makes its message on a channel that its node was never given. -/
theorem Attributed.propose (ha : Attributed cl handlers) (hcl : ChannelsOnce cl)
    {c : ChanId} {state : HandlerState} (hfresh : ∀ h' ∈ handlers, ¬ h'.Proposes h.node c)
    (hasked : ∀ message ∈ (cl.members h.node).asked, message.chan ≠ c) :
    Attributed cl (handlers.set i { h with chan := some c, state := state }) := by
  refine ⟨?_, ?_⟩
  -- the new channel is of no other handler
  · intro j j' h₁ h₂ node c' hj hj' hp₁ hp₂
    rcases getElem?_of_set hj with ⟨rfl, rfl⟩ | hold <;>
      rcases getElem?_of_set hj' with ⟨rfl, rfl⟩ | hold'
    · rfl
    · obtain ⟨rfl, hc⟩ := hp₁
      cases hc
      exact absurd hp₂ (hfresh h₂ (List.mem_of_getElem? hold'))
    · obtain ⟨rfl, hc⟩ := hp₂
      cases hc
      exact absurd hp₁ (hfresh h₁ (List.mem_of_getElem? hold))
    · exact ha.chans j j' h₁ h₂ node c' hold hold' hp₁ hp₂
  · intro p hp h' hmem hprop
    obtain ⟨j, hj⟩ := List.mem_iff_getElem?.mp hmem
    rcases getElem?_of_set hj with ⟨-, rfl⟩ | hj
    · -- the node was asked for every proposal that it made
      obtain ⟨hnode, hc⟩ := hprop
      have hgiven := hcl.asked p hp
      rw [← hnode] at hgiven
      exact absurd (Option.some_inj.mp hc).symm (hasked _ hgiven)
    · exact ha.carried p hp h' (List.mem_of_getElem? hj) hprop

/-- **A node that is asked for proposals of handlers makes proposals of their writes.** -/
theorem Attributed.cluster {calls : List PlacementCall} (ha : Attributed cl handlers)
    (h : ClusterStep router (Net.Asks ⟨cl, calls, handlers⟩) cl cl') : Attributed cl' handlers := by
  have taken : ∀ {node : ℕ} {t : RaftMachine.Turn} {life : ℕ} {seq : UInt64} {ps : List Proposal},
      (∀ message ∈ t.request, Net.Asks ⟨cl, calls, handlers⟩ node message) →
      (ps = [] ∨ ps = t.taken node life seq) → ∀ p ∈ ps ++ cl.proposals, ∀ h ∈ handlers,
        h.Proposes p.node p.message.chan → p.message = h.message p.message.chan := by
    intro node t life seq ps hasks hps p hp h hh hprop
    rcases List.mem_append.mp hp with hp | hp
    · rcases hps with rfl | rfl
      · cases hp
      · obtain ⟨hnode, -, -, hr, -⟩ := RaftMachine.Turn.node_of_mem_taken hp
        rw [hnode] at hprop
        exact hasks p.message hr h hh hprop
    · exact ha.carried p hp h hh hprop
  cases h with
  | start => exact ⟨ha.chans, ha.carried⟩
  | turn i hm hd hasks => exact ⟨ha.chans, taken hasks (.inr rfl)⟩
  | crash i hm hd hasks hpt htaken => exact ⟨ha.chans, taken hasks htaken⟩
  | commit e o hindex hmade hnew hleader => exact ⟨ha.chans, ha.carried⟩

end attributed

/-! ### Handlers and calls -/

/-- A handler proposes or forwards, once it accepted its write, and it forwards its write. -/
structure Forwards (calls : List PlacementCall) (h : Handler) : Prop where
  received : h.state = .received → h.chan = none ∧ h.call = none
  one : h.chan = none ∨ h.call = none
  write : ∀ k ∈ h.call, ∃ call, calls[k]? = some call ∧ call.write = h.write

section forwards

variable {calls calls' : List PlacementCall} {handlers : List Handler} {h : Handler} {i k : ℕ}
  {call : PlacementCall}

theorem forwards_start (node : ℕ) (write : Write) (origin : Option (ℕ × ℕ)) :
    Forwards calls (.start node write origin) :=
  ⟨fun _ => ⟨rfl, rfl⟩, .inl rfl, by rintro k ⟨⟩⟩

/-- Calls that keep their writes. -/
theorem Forwards.grow (hf : Forwards calls h)
    (hgrow : ∀ (k : ℕ) (call : PlacementCall), calls[k]? = some call →
      ∃ call', calls'[k]? = some call' ∧ call'.write = call.write) : Forwards calls' h where
  received := hf.received
  one := hf.one
  write k hk := by
    obtain ⟨call, hcall, hw⟩ := hf.write k hk
    obtain ⟨call', hcall', hw'⟩ := hgrow k call hcall
    exact ⟨call', hcall', hw'.trans hw⟩

theorem getElem?_append_call {call' : PlacementCall} (hk : calls[k]? = some call) :
    ∃ call'', (calls ++ [call'])[k]? = some call'' ∧ call''.write = call.write := by
  refine ⟨call, ?_, rfl⟩
  rw [List.getElem?_append_left (List.getElem?_eq_some_iff.mp hk).1]
  exact hk

theorem getElem?_set_call {call' : PlacementCall} {k' : ℕ} (hk : calls[k]? = some call)
    (hw : call'.write = call.write) {call₀ : PlacementCall} (hk' : calls[k']? = some call₀) :
    ∃ call'', (calls.set k call')[k']? = some call'' ∧ call''.write = call₀.write := by
  by_cases hkk : k = k'
  · subst hkk
    obtain rfl := Option.some_inj.mp (hk.symm.trans hk')
    exact ⟨call', List.getElem?_set_self (List.getElem?_eq_some_iff.mp hk).1, hw⟩
  · exact ⟨call₀, (List.getElem?_set_ne hkk).trans hk', rfl⟩

/-- The handlers after one went on. -/
theorem forwards_set (hf : ∀ h ∈ handlers, Forwards calls h) {h' : Handler}
    (hnew : Forwards calls h') : ∀ h ∈ handlers.set i h', Forwards calls h := by
  intro h hmem
  rcases List.mem_or_eq_of_mem_set hmem with hmem | rfl
  · exact hf h hmem
  · exact hnew

theorem forwards_append (hf : ∀ h ∈ handlers, Forwards calls h) {h' : Handler}
    (hnew : Forwards calls h') : ∀ h ∈ handlers ++ [h'], Forwards calls h := by
  intro h hmem
  rcases List.mem_append.mp hmem with hmem | hmem
  · exact hf h hmem
  · rw [List.mem_singleton.mp hmem]
    exact hnew

end forwards

theorem write_ended (call : PlacementCall) (result : Except RobustMQError Bytes) :
    (call.ended result).write = call.write := by
  unfold PlacementCall.ended
  cases afterAttempt call.times result <;> rfl

/-! ### Runs -/

section runs

variable {router : Router MachineEvent} {nodeAt : String → Option ℕ} {net net' : Net}

/-- **The cluster of a run is one of a run of the cluster**, which commits a proposal once. -/
theorem cluster_of_run (h : Run router nodeAt net) :
    ClusterRun router (fun _ _ _ _ _ => True) net.cluster ∧
      (net.cluster.log.filterMap Prod.snd).Nodup := by
  induction h with
  | empty => exact ⟨.empty, .nil⟩
  | step hr h ih =>
    cases h with
    | cluster h => exact ⟨h.run ih.1, h.commitsOnce ih.2⟩
    | _ => exact ih

/-- **An attempt of a call reaches one handler at most**, in every run. -/
theorem traced_of_run (h : Run router nodeAt net) : Traced net.calls net.handlers := by
  induction h with
  | empty => exact ⟨by rintro k call ⟨⟩, by rintro i h k n ⟨⟩, by rintro i j h h' o ⟨⟩⟩
  | step hr h ih =>
    cases h with
    | call write addrs => exact ih.begin write addrs
    | reach hc hr hh ha hn hw =>
      obtain rfl := eq_of_innerRequest hw
      exact ih.reach hc hh _
    | ended hc hr he => exact ih.ended hc _
    | request node write => exact ih.serve node write
    | propose hh hs hw hl hfresh hasked => exact ih.setHandler hh rfl rfl
    | forward hh hs hw hl =>
      refine Traced.begin ?_ _ _
      exact ih.setHandler hh rfl rfl
    | reply hh hr => exact ih.setHandler hh rfl rfl
    | cluster h => exact ih

/-- **A proposal on the channel of a handler is of its write**, in every run. -/
theorem attributed_of_run (h : Run router nodeAt net) : Attributed net.cluster net.handlers := by
  induction h with
  | empty => exact ⟨by rintro i j h h' node c ⟨⟩, by rintro p ⟨⟩⟩
  | step hr h ih =>
    cases h with
    | call write addrs => exact ih
    | reach hc hr hh ha hn hw => exact ih.serve _ _ _
    | ended hc hr he => exact ih
    | request node write => exact ih.serve node write none
    | propose hh hs hw hl hfresh hasked =>
      exact ih.propose (channelsOnce_of_run (cluster_of_run hr).1) hfresh hasked
    | forward hh hs hw hl => exact ih.setHandler hh rfl rfl rfl
    | reply hh hr => exact ih.setHandler hh rfl rfl rfl
    | cluster h => exact ih.cluster h

/-- **A handler proposes or forwards its write**, in every run. -/
theorem forwards_of_run (h : Run router nodeAt net) : ∀ h ∈ net.handlers, Forwards net.calls h := by
  induction h with
  | empty => rintro h ⟨⟩
  | step hr h ih =>
    cases h with
    | call write addrs =>
      exact fun h hmem => (ih h hmem).grow fun k call => getElem?_append_call
    | reach hc hr hh ha hn hw =>
      refine forwards_append (fun h hmem => ?_) (forwards_start _ _ _)
      refine (ih h hmem).grow fun k call hk => getElem?_set_call hc ?_ hk
      rfl
    | ended hc hr he =>
      refine fun h hmem => (ih h hmem).grow fun k call => ?_
      exact getElem?_set_call hc (write_ended _ _)
    | request node write => exact forwards_append ih (forwards_start _ _ _)
    -- the handler had no channel and no call yet
    | propose hh hs hw hl hfresh hasked =>
      obtain ⟨-, hcall⟩ := (ih _ (List.mem_of_getElem? hh)).received hs
      refine forwards_set ih ⟨by rintro ⟨⟩, .inr hcall, ?_⟩
      rw [hcall]
      rintro k ⟨⟩
    -- the same, and the call has the write of the handler
    | forward hh hs hw hl =>
      obtain ⟨hchan, -⟩ := (ih _ (List.mem_of_getElem? hh)).received hs
      refine forwards_set (fun h hmem => (ih h hmem).grow fun k call => getElem?_append_call)
        ⟨by rintro ⟨⟩, .inl hchan, ?_⟩
      rintro k ⟨⟩
      exact ⟨_, List.getElem?_concat_length .., rfl⟩
    | reply hh hr =>
      have hold := ih _ (List.mem_of_getElem? hh)
      exact forwards_set ih ⟨by rintro ⟨⟩, hold.one, hold.write⟩
    | cluster h => exact ih

/-! ### The entries of a call, in a run -/

/-- A proposal that an attempt led to has a handler that the attempt reached. -/
theorem Caused.handler {k n : ℕ} {p : Proposal} (h : net.Caused k n p) :
    ∃ (i : ℕ) (h : Handler), net.handlers[i]? = some h ∧ h.origin = some (k, n) := by
  cases h with
  | proposed hh ho hp => exact ⟨_, _, hh, ho⟩
  | forwarded hh ho hc hp => exact ⟨_, _, hh, ho⟩

/-- **An attempt leads to proposals of the write of its call**, by forwarding as well. -/
theorem Caused.message (hr : Run router nodeAt net) {k n : ℕ} {p : Proposal}
    (h : net.Caused k n p) (hp : p ∈ net.cluster.proposals) :
    ∃ call, net.calls[k]? = some call ∧
      p.message = (Request.ofWrite call.write.data call.write.action).message p.message.chan := by
  induction h with
  | @proposed i k n h p hh ho hprop =>
    obtain ⟨call, hk, hw, -⟩ := (traced_of_run hr).origin i h k n hh ho
    refine ⟨call, hk, ?_⟩
    rw [← hw]
    exact (attributed_of_run hr).carried p hp h (List.mem_of_getElem? hh) hprop
  | @forwarded i k n k' n' h p hh ho hc hcaused ih =>
    obtain ⟨call, hk, hw, -⟩ := (traced_of_run hr).origin i h k n hh ho
    obtain ⟨call', hk', hmessage⟩ := ih hp
    obtain ⟨call'', hk'', hw'⟩ := (forwards_of_run hr h (List.mem_of_getElem? hh)).write k' hc
    obtain rfl := Option.some_inj.mp (hk'.symm.trans hk'')
    refine ⟨call, hk, ?_⟩
    rw [← hw, ← hw']
    exact hmessage

/-- Only the last attempt led to a proposal, when none that was retried did. -/
theorem RetriedUnproposed.last (hr : Run router nodeAt net) {k n : ℕ} {p : Proposal}
    (hu : net.RetriedUnproposed k) (h : net.Caused k n p) (hp : p ∈ net.cluster.proposals) :
    ∃ call, net.calls[k]? = some call ∧ n = call.times := by
  obtain ⟨i, g, hi, ho⟩ := h.handler
  obtain ⟨call, hk, -, -, hlt⟩ := (traced_of_run hr).origin i g k n hi ho
  rcases hlt with hlt | ⟨heq, -⟩
  · exact absurd hlt (hu k n call (.self k) hk p hp h)
  · exact ⟨call, hk, heq⟩

theorem RetriedUnproposed.attempt_eq (hr : Run router nodeAt net) {k n m : ℕ} {p q : Proposal}
    (hu : net.RetriedUnproposed k) (hp : net.Caused k n p) (hpm : p ∈ net.cluster.proposals)
    (hq : net.Caused k m q) (hqm : q ∈ net.cluster.proposals) : n = m := by
  obtain ⟨call, hk, rfl⟩ := hu.last hr hp hpm
  obtain ⟨call', hk', rfl⟩ := hu.last hr hq hqm
  rw [Option.some_inj.mp (hk.symm.trans hk')]

/-- The handler that an attempt reached. -/
theorem handler_eq (hr : Run router nodeAt net) {i j : ℕ} {h h' : Handler} {o : ℕ × ℕ}
    (hh : net.handlers[i]? = some h) (hh' : net.handlers[j]? = some h') (ho : h.origin = some o)
    (ho' : h'.origin = some o) : h = h' := by
  obtain rfl := (traced_of_run hr).once i j h h' o hh hh' ho ho'
  exact Option.some_inj.mp (hh.symm.trans hh')

/-- A handler that proposes does not forward. -/
theorem call_ne_some (hr : Run router nodeAt net) {i k node : ℕ} {c : ChanId} {h : Handler}
    (hh : net.handlers[i]? = some h) (hp : h.Proposes node c) : h.call ≠ some k := by
  intro hcall
  rcases (forwards_of_run hr h (List.mem_of_getElem? hh)).one with hnone | hnone
  · exact absurd (hp.2.symm.trans hnone) (by simp)
  · exact absurd (hcall.symm.trans hnone) (by simp)

/-- **A call leads to one proposal at most**, when no attempt that was retried led to one. -/
theorem Caused.unique (hr : Run router nodeAt net) {k n m : ℕ} {p q : Proposal}
    (hu : net.RetriedUnproposed k) (hp : net.Caused k n p) (hpm : p ∈ net.cluster.proposals)
    (hq : net.Caused k m q) (hqm : q ∈ net.cluster.proposals) : p = q := by
  -- along the calls that forward, the two go the same way
  induction hp generalizing m with
  | @proposed i k n h p hh ho hprop =>
    obtain rfl := hu.attempt_eq hr (.proposed hh ho hprop) hpm hq hqm
    cases hq with
    | proposed hh' ho' hprop' =>
      obtain rfl := handler_eq hr hh hh' ho ho'
      obtain ⟨hnode, hchan⟩ := hprop
      obtain ⟨hnode', hchan'⟩ := hprop'
      exact (channelsOnce_of_run (cluster_of_run hr).1).once p hpm q hqm
        (hnode.symm.trans hnode') (Option.some_inj.mp (hchan.symm.trans hchan'))
    | forwarded hh' ho' hc' hcaused' =>
      obtain rfl := handler_eq hr hh hh' ho ho'
      exact absurd hc' (call_ne_some hr hh hprop)
  | @forwarded i k n k' n' h p hh ho hc hcaused ih =>
    obtain rfl := hu.attempt_eq hr (.forwarded hh ho hc hcaused) hpm hq hqm
    cases hq with
    | proposed hh' ho' hprop' =>
      obtain rfl := handler_eq hr hh hh' ho ho'
      exact absurd hc (call_ne_some hr hh' hprop')
    | forwarded hh' ho' hc' hcaused' =>
      -- the same call forwards, which retried nothing that was proposed either
      obtain rfl := handler_eq hr hh hh' ho ho'
      obtain rfl := Option.some_inj.mp (hc.symm.trans hc')
      refine ih (fun k'' n'' call hf => ?_) hpm hcaused'
      exact hu k'' n'' call (.handler hh ho hc hf)

/-- The attempts that the committed entries of a call were proposed for. -/
theorem map_fst_committed (net : Net) (k : ℕ) :
    (net.committed k).map Prod.fst =
      (net.cluster.log.filterMap Prod.snd).filterMap (net.attemptOf k) := by
  rw [committed, List.map_filterMap, List.filterMap_filterMap]
  refine congrArg (fun f => List.filterMap f net.cluster.log) (funext fun x => ?_)
  rcases x.2.bind (net.attemptOf k) with _ | n <;> rfl

/-- The attempt of a proposal is the one that reached its handler. -/
theorem attemptOf_of_proposes (hr : Run router nodeAt net) {i k n : ℕ} {h : Handler} {p : Proposal}
    (hh : net.handlers[i]? = some h) (ho : h.origin = some (k, n))
    (hp : h.Proposes p.node p.message.chan) : net.attemptOf k p = some n := by
  -- the first handler that is found is the only one
  have hfound : net.handlers.find? (fun h => h.Proposes p.node p.message.chan) = some h := by
    cases hfind : net.handlers.find? fun h => h.Proposes p.node p.message.chan with
    | none =>
      have hnone := List.find?_eq_none.mp hfind h (List.mem_of_getElem? hh)
      exact absurd hp (by simpa using hnone)
    | some g =>
      -- no other handler of the node has the channel
      obtain ⟨j, hj⟩ := List.mem_iff_getElem?.mp (List.mem_of_find?_eq_some hfind)
      have hg : g.Proposes p.node p.message.chan := by simpa using List.find?_some hfind
      obtain rfl := (attributed_of_run hr).chans j i g h _ _ hj hh hg hp
      exact hj.symm.trans hh
  rw [attemptOf, hfound, Option.bind_some, ho, Option.bind_some, if_pos rfl]

/-- **The committed entries of a call** are those of the proposals of its handlers. -/
theorem mem_committed_iff (hr : Run router nodeAt net) {k n : ℕ} {e : Entry} :
    (n, e) ∈ net.committed k ↔
      ∃ p, (e, some p) ∈ net.cluster.log ∧ ∃ (i : ℕ) (h : Handler), net.handlers[i]? = some h ∧
        h.Proposes p.node p.message.chan ∧ h.origin = some (k, n) := by
  constructor
  · intro h
    obtain ⟨⟨e', o⟩, hx, hn⟩ := List.mem_filterMap.mp h
    obtain ⟨n', hp, heq⟩ := Option.map_eq_some_iff.mp hn
    cases heq
    obtain ⟨p, rfl, hattempt⟩ := Option.bind_eq_some_iff.mp hp
    exact ⟨p, hx, attemptOf_eq_some hattempt⟩
  · rintro ⟨p, hx, i, h, hh, hp, ho⟩
    refine List.mem_filterMap.mpr ⟨(e, some p), hx, ?_⟩
    rw [Option.bind_some, attemptOf_of_proposes hr hh ho hp]
    rfl

/-- **The committed entries of a call are of different attempts**, in every run. -/
theorem nodup_attempts (h : Run router nodeAt net) (k : ℕ) :
    ((net.committed k).map Prod.fst).Nodup := by
  obtain ⟨hrun, honce⟩ := cluster_of_run h
  have hchannels := channelsOnce_of_run hrun
  have htraced := traced_of_run h
  have hlog : ∀ p ∈ net.cluster.log.filterMap Prod.snd, p ∈ net.cluster.proposals := by
    intro p hp
    obtain ⟨x, hx, hxp⟩ := List.mem_filterMap.mp hp
    exact (hchannels.log x hx p hxp).1
  rw [map_fst_committed, List.Nodup, List.pairwise_filterMap]
  refine honce.imp_of_mem fun {p q} hp hq hne n hn n' hn' heq => hne ?_
  -- one attempt, so one handler, one channel and one proposal
  subst heq
  obtain ⟨i, g, hi, ⟨hnode, hchan⟩, ho⟩ := attemptOf_eq_some hn
  obtain ⟨j, g', hj, ⟨hnode', hchan'⟩, ho'⟩ := attemptOf_eq_some hn'
  obtain rfl := htraced.once i j g g' _ hi hj ho ho'
  obtain rfl := Option.some_inj.mp (hi.symm.trans hj)
  exact hchannels.once p (hlog p hp) q (hlog q hq) (hnode.symm.trans hnode')
    (Option.some_inj.mp (hchan.symm.trans hchan'))

/-- **A committed entry that a call led to** is of its write. -/
theorem Caused.data (hr : Run router nodeAt net) {k n : ℕ} {e : Entry} {p : Proposal}
    {call : PlacementCall} (hk : net.calls[k]? = some call) (h : net.Caused k n p)
    (hlog : (e, some p) ∈ net.cluster.log) : e.data.val = proposalData call.write.data := by
  obtain ⟨hp, -, hmakes⟩ := (channelsOnce_of_run (cluster_of_run hr).1).log _ hlog p rfl
  obtain ⟨call', hk', hmessage⟩ := h.message hr hp
  obtain rfl := Option.some_inj.mp (hk.symm.trans hk')
  rw [hmessage] at hmakes
  exact (congrArg Prod.snd (Option.some_inj.mp hmakes)).symm

/-- A proposal is committed at one place of the log. -/
theorem index_eq (hr : Run router nodeAt net) {i j : ℕ} {e e' : Entry} {p : Proposal}
    (hi : net.cluster.log[i]? = some (e, some p)) (hj : net.cluster.log[j]? = some (e', some p)) :
    i = j := by
  have honce := List.pairwise_filterMap.mp (cluster_of_run hr).2
  have differ : ∀ {a b : ℕ} {x y : Entry}, net.cluster.log[a]? = some (x, some p) →
      net.cluster.log[b]? = some (y, some p) → ¬ a < b := by
    intro a b x y ha hb hlt
    obtain ⟨hal, ha⟩ := List.getElem?_eq_some_iff.mp ha
    obtain ⟨hbl, hb⟩ := List.getElem?_eq_some_iff.mp hb
    exact List.pairwise_iff_getElem.mp honce a b hal hbl hlt p (by rw [ha]) p (by rw [hb]) rfl
  exact Nat.le_antisymm (Nat.not_lt.mp (differ hj hi)) (Nat.not_lt.mp (differ hi hj))

/-- The committed entries of a call are of attempts that it made. -/
theorem attempts_of_committed (h : Run router nodeAt net) {k : ℕ} {call : PlacementCall}
    (hk : net.calls[k]? = some call) :
    ∀ x ∈ net.committed k, 1 ≤ x.1 ∧ x.1 ≤ call.times := by
  rintro ⟨n, e⟩ hx
  obtain ⟨p, -, i, g, hi, -, ho⟩ := (mem_committed_iff h).mp hx
  obtain ⟨call', hk', -, hone, hle⟩ := (traced_of_run h).origin i g k n hi ho
  obtain rfl := Option.some_inj.mp (hk.symm.trans hk')
  exact ⟨hone, hle.elim Nat.le_of_lt fun hle => Nat.le_of_eq hle.1⟩

/-- The attempts of the committed entries are different numbers up to that of the last one. -/
theorem length_committed_le (h : Run router nodeAt net) {k : ℕ} {call : PlacementCall}
    (hk : net.calls[k]? = some call) : (net.committed k).length ≤ call.times := by
  have hsub : (net.committed k).map Prod.fst ⊆ List.range' 1 call.times := by
    intro n hn
    obtain ⟨x, hx, rfl⟩ := List.mem_map.mp hn
    obtain ⟨hone, hle⟩ := attempts_of_committed h hk x hx
    exact List.mem_range'_1.mpr ⟨hone, by omega⟩
  have hlength := (List.subperm_of_subset (nodup_attempts h k) hsub).length_le
  rwa [List.length_map, List.length_range'] at hlength

/-- **A call has at most one committed entry for each attempt** that it made, and so at most four;
what it led to, by forwarding as well, is of its write, and it led to one entry at most when no
attempt that was retried led to a proposal. -/
theorem committed_of_run (h : Run router nodeAt net) {k : ℕ} {call : PlacementCall}
    (hk : net.calls[k]? = some call) :
    ((net.committed k).map Prod.fst).Nodup ∧
      (∀ x ∈ net.committed k, 1 ≤ x.1 ∧ x.1 ≤ call.times) ∧
      (net.committed k).length ≤ retryTimes + 1 ∧
      (∀ e p n, (e, some p) ∈ net.cluster.log → net.Caused k n p →
        e.data.val = proposalData call.write.data) ∧
      (net.RetriedUnproposed k → ∀ i j, net.CausedAt k i → net.CausedAt k j → i = j) := by
  refine ⟨nodup_attempts h k, attempts_of_committed h hk, ?_,
    fun e p n hlog hcaused => hcaused.data h hk hlog, ?_⟩
  · exact Nat.le_trans (length_committed_le h hk) ((traced_of_run h).times k call hk).2
  -- one proposal, which is committed once
  · rintro hu i j ⟨e, p, n, hi, hp⟩ ⟨e', q, m, hj, hq⟩
    have hlog := (channelsOnce_of_run (cluster_of_run h).1).log
    obtain ⟨hpm, -⟩ := hlog _ (List.mem_of_getElem? hi) p rfl
    obtain ⟨hqm, -⟩ := hlog _ (List.mem_of_getElem? hj) q rfl
    obtain rfl := hp.unique h hu hpm hq hqm
    exact index_eq h hi hj

end runs

/-! ### A call that is executed twice

The node `0` leads. A call sets a key to `1`, and its handler gives up before the proposal is
committed. Another client sets the key to `2`, both proposals are committed, and this client is
answered. The second attempt of the call proposes again. -/

/-- The only node has the address `a`. -/
def onlyNode (addr : String) : Option ℕ := if addr = "a" then some 0 else none

def writeOne : Write := .set ⟨"k", "1"⟩

def writeTwo : Write := .set ⟨"k", "2"⟩

/-- A turn of the leader. -/
def leads (received : RaftMachine.Received) : RaftMachine.Turn :=
  ⟨false, received, true, true, .leader, none⟩

/-- The proposal of a write, on a channel. -/
def asks (write : Write) (c : ChanId) : RaftMessage :=
  (Request.ofWrite write.data write.action).message c

/-- The cluster after a turn of the node. -/
def turnedAt (cl : Cluster) (m : RaftMachine) (t : RaftMachine.Turn) : Cluster :=
  cl.update 0 ((cl.members 0).turned dataRoute.route m t ((cl.members 0).position t []))
    (t.taken 0 (cl.members 0).life m.seqnum)

/-- The machine once it leads. -/
def leading : RaftMachine :=
  { booted.1.1 with placementCluster := booted.1.1.placementCluster.setRole .leader }

/-- The machine once it made a proposal on a channel. -/
def proposed (m : RaftMachine) (c : ChanId) : RaftMachine :=
  { m with
    seqnum := m.seqnum + 1
    respChannel := m.respChannel.insert m.seqnum c
    placementCluster := m.placementCluster.setRole .leader }

def elected : Cluster := turnedAt oneUp booted.1.1 (leads .elapsed)

def askedOne : Cluster := turnedAt elected leading (leads (.message (asks writeOne 0)))

def askedTwo : Cluster :=
  turnedAt askedOne (proposed leading 0) (leads (.message (asks writeTwo 1)))

/-- The proposal of a write, as the machine numbers it. -/
def proposalOf (m : RaftMachine) (write : Write) (c : ChanId) : Proposal :=
  ⟨0, 1, m.seqnum, asks write c⟩

/-- The entry of the proposal of a write. -/
def entryOf (p : Proposal) (write : Write) (h : (proposalData write.data).length < 2 ^ 63)
    (index : UInt64) : Entry :=
  { Entry.default with
    term := 1
    index := index
    data := ⟨proposalData write.data, h⟩
    context := ⟨Bincode.serialize p.seq, by
      change (u64LE p.seq).length < 2 ^ 63
      rw [length_u64LE]
      decide⟩ }

def entryOne : Entry := entryOf (proposalOf leading writeOne 0) writeOne (by decide +kernel) 1

def entryTwo : Entry :=
  entryOf (proposalOf (proposed leading 0) writeTwo 1) writeTwo (by decide +kernel) 2

def entryAgain : Entry :=
  entryOf (proposalOf (proposed (proposed leading 0) 1) writeOne 2) writeOne (by decide +kernel) 3

def committedTwo : Cluster :=
  { askedTwo with
    log := [(entryOne, some (proposalOf leading writeOne 0)),
      (entryTwo, some (proposalOf (proposed leading 0) writeTwo 1))] }

def askedAgain : Cluster :=
  turnedAt committedTwo (proposed (proposed leading 0) 1) (leads (.message (asks writeOne 2)))

def committedAgain : Cluster :=
  { askedAgain with
    log := askedAgain.log ++
      [(entryAgain, some (proposalOf (proposed (proposed leading 0) 1) writeOne 2))] }

/-- The only call. -/
def callOne (times : ℕ) (handler : Option ℕ) : PlacementCall :=
  ⟨writeOne, ["a"], times, handler, none⟩

/-- The handler of its attempt `n`. -/
def handlerOne (n : ℕ) (chan : Option ChanId) (state : HandlerState) : Handler :=
  ⟨0, writeOne, some (0, n), chan, none, state⟩

/-- The handler of the other client. -/
def handlerTwo (chan : Option ChanId) (state : HandlerState) : Handler :=
  ⟨0, writeTwo, none, chan, none, state⟩

/-- The answer of a handler that gave up. -/
def timedOut : Except Status CommonReply :=
  .error (GrpcKvServices.cancelled (.raftLogCommitTimeout "set"))

/-- The handler of the first attempt, when it gave up. -/
def gaveUp : Handler := handlerOne 1 (some 0) (.replied timedOut)

/-- The handler of the other client, when it was answered. -/
def answered : Handler := handlerTwo (some 1) (.replied (.ok {}))

/-- In the first attempt. -/
def proposing : Net :=
  ⟨askedOne, [callOne 1 (some 0)], [handlerOne 1 (some 0) (.proposing leading.placementCluster)]⟩

/-- The first attempt, when its proposal is committed at once. -/
def executedOnce : Net :=
  { proposing with
    cluster := { askedOne with log := [(entryOne, some (proposalOf leading writeOne 0))] } }

/-- After the first attempt. -/
def retried : Net := ⟨askedOne, [callOne 2 none], [gaveUp]⟩

/-- Once the other client was answered. -/
def overwritten : Net := ⟨committedTwo, [callOne 2 none], [gaveUp, answered]⟩

/-- Once the second attempt was committed. -/
def executedTwice : Net :=
  ⟨committedAgain, [callOne 2 (some 2)],
    [gaveUp, answered, handlerOne 2 (some 2) (.proposing leading.placementCluster)]⟩

theorem step_turnedAt {cl : Cluster} {calls : List PlacementCall} {handlers : List Handler}
    {m : RaftMachine} (received : RaftMachine.Received) (hm : (cl.members 0).machine = some m)
    (hfresh : ∀ message ∈ (leads received).request, ∀ message' ∈ (cl.members 0).asked,
      message'.chan ≠ message.chan)
    (ha : ∀ message ∈ (leads received).request, Asks ⟨cl, calls, handlers⟩ 0 message) :
    Step dataRoute onlyNode ⟨cl, calls, handlers⟩
      ⟨turnedAt cl m (leads received), calls, handlers⟩ :=
  .cluster (.turn 0 hm ⟨hfresh, by rintro c ⟨⟩, fun _ => rfl⟩ ha)

/-- No handler of the leader forwards. -/
def noClients : Clients := ⟨fun _ _ => .ok {}, fun _ _ => .ok {}⟩

theorem step_commit {cl : Cluster} {calls : List PlacementCall} {handlers : List Handler}
    (e : Entry) (p : Proposal) (hindex : e.index.toNat = cl.log.length + 1) (hp : p ∈ cl.proposals)
    (hmakes : p.Makes e)
    (hnew : p.message.chan ∉ (cl.log.filterMap Prod.snd).map fun q => q.message.chan) :
    Step dataRoute onlyNode ⟨cl, calls, handlers⟩
      ⟨{ cl with log := cl.log ++ [(e, some p)] }, calls, handlers⟩ := by
  refine .cluster (.commit e (some p) hindex ?_ ?_ (by rintro ⟨⟩))
  · rintro _ ⟨⟩
    exact ⟨hp, hmakes⟩
  · rintro _ ⟨⟩ hmem
    exact hnew (List.mem_map_of_mem hmem)

/-- A request on a channel of a handler of the same write, or of none. -/
theorem asks_write {cl : Cluster} {calls : List PlacementCall} {handlers : List Handler}
    {write : Write} {c : ChanId} (h : ∀ h ∈ handlers, h.Proposes 0 c → h.write = write) :
    ∀ message ∈ (leads (.message (asks write c))).request,
      Asks ⟨cl, calls, handlers⟩ 0 message := by
  rintro _ ⟨⟩ g hmem hprop
  obtain rfl := h g hmem hprop
  rfl

theorem innerRequest_writeOne : innerRequest writeOne = some writeOne := by
  change (decode (encodeToVec (⟨"k", "1"⟩ : SetRequest))).map Write.set = _
  rw [decode_encodeToVec (fits_of_length (by decide +kernel))]
  rfl

/-- The first attempt: its handler proposes. -/
theorem proposing_run : Run dataRoute onlyNode proposing := by
  have hup : Run dataRoute onlyNode ⟨oneUp, [], []⟩ :=
    .step .empty (.cluster (.start 0 rfl completes_booted))
  have helected : Run dataRoute onlyNode ⟨elected, [], []⟩ :=
    hup.step (step_turnedAt .elapsed rfl (by rintro message ⟨⟩) (by rintro message ⟨⟩))
  have hcall : Run dataRoute onlyNode ⟨elected, [callOne 1 none], []⟩ :=
    helected.step (.call writeOne ["a"])
  have hreach : Run dataRoute onlyNode
      ⟨elected, [callOne 1 (some 0)], [handlerOne 1 none .received]⟩ :=
    hcall.step (@Step.reach dataRoute onlyNode _ 0 0 (callOne 1 none) "a" writeOne
      rfl rfl rfl rfl rfl innerRequest_writeOne)
  have hpropose : Run dataRoute onlyNode ⟨elected, [callOne 1 (some 0)],
      [handlerOne 1 (some 0) (.proposing leading.placementCluster)]⟩ := by
    refine hreach.step (@Step.propose dataRoute onlyNode _ 0 (handlerOne 1 none .received)
      leading.placementCluster 0 rfl rfl ⟨by decide, by decide⟩ rfl ?_ ?_)
    · rintro h hmem ⟨-, hc⟩
      rw [List.mem_singleton.mp hmem] at hc
      cases hc
    · rintro message ⟨⟩
  refine hpropose.step (step_turnedAt (.message (asks writeOne 0)) rfl ?_ (asks_write ?_))
  · rintro message - message' ⟨⟩
  · simp [Handler.Proposes, handlerOne]

/-- The proposal of the first attempt is committed before its handler gives up. -/
theorem executedOnce_run : Run dataRoute onlyNode executedOnce :=
  proposing_run.step (step_commit _ _ rfl (.head _) ⟨rfl, rfl⟩ (by decide))

/-- The handler of the first attempt gives up, and the call goes on. -/
theorem retried_run : Run dataRoute onlyNode retried := by
  have hgave : Run dataRoute onlyNode ⟨askedOne, [callOne 1 (some 0)], [gaveUp]⟩ :=
    proposing_run.step (@Step.reply dataRoute onlyNode _ 0
      (handlerOne 1 (some 0) (.proposing leading.placementCluster)) _ rfl
      (.proposed (g := leading.placementCluster) (c := 0) noClients none rfl rfl))
  exact hgave.step (@Step.ended dataRoute onlyNode _ 0 (callOne 1 (some 0)) (innerReply timedOut)
    rfl rfl (.answered rfl rfl rfl))

/-- The other client: both proposals are committed, and it is answered. -/
theorem overwritten_run : Run dataRoute onlyNode overwritten := by
  have hrequest : Run dataRoute onlyNode
      ⟨askedOne, [callOne 2 none], [gaveUp, handlerTwo none .received]⟩ :=
    retried_run.step (.request 0 writeTwo)
  have hpropose : Run dataRoute onlyNode ⟨askedOne, [callOne 2 none],
      [gaveUp, handlerTwo (some 1) (.proposing leading.placementCluster)]⟩ := by
    refine hrequest.step (@Step.propose dataRoute onlyNode _ 1 (handlerTwo none .received)
      leading.placementCluster 1 rfl rfl ⟨by decide, by decide⟩ rfl ?_ ?_)
    · decide
    · decide
  have hasked : Run dataRoute onlyNode ⟨askedTwo, [callOne 2 none],
      [gaveUp, handlerTwo (some 1) (.proposing leading.placementCluster)]⟩ := by
    refine hpropose.step (step_turnedAt (.message (asks writeTwo 1)) rfl ?_ (asks_write ?_))
    · rintro _ ⟨⟩
      decide
    · simp [Handler.Proposes, gaveUp, handlerOne, handlerTwo]
  -- the proposal that was given up comes first
  have hone : Run dataRoute onlyNode
      ⟨{ askedTwo with log := [(entryOne, some (proposalOf leading writeOne 0))] },
        [callOne 2 none], [gaveUp, handlerTwo (some 1) (.proposing leading.placementCluster)]⟩ :=
    hasked.step (step_commit _ _ rfl (.tail _ (.head _)) ⟨rfl, rfl⟩ (by decide))
  have htwo : Run dataRoute onlyNode ⟨committedTwo, [callOne 2 none],
      [gaveUp, handlerTwo (some 1) (.proposing leading.placementCluster)]⟩ :=
    hone.step (step_commit _ _ rfl (.head _) ⟨rfl, rfl⟩ (by decide))
  exact htwo.step (@Step.reply dataRoute onlyNode _ 1
    (handlerTwo (some 1) (.proposing leading.placementCluster)) _ rfl
    (.proposed (g := leading.placementCluster) (c := 1) noClients (some (0, some .success))
      rfl rfl))

/-- The second attempt: its handler proposes, and the proposal is committed. -/
theorem executedTwice_run : Run dataRoute onlyNode executedTwice := by
  have hreach : Run dataRoute onlyNode
      ⟨committedTwo, [callOne 2 (some 2)], [gaveUp, answered, handlerOne 2 none .received]⟩ :=
    overwritten_run.step (@Step.reach dataRoute onlyNode _ 0 0 (callOne 2 none) "a" writeOne
      rfl rfl rfl rfl rfl innerRequest_writeOne)
  have hpropose : Run dataRoute onlyNode ⟨committedTwo, [callOne 2 (some 2)],
      [gaveUp, answered, handlerOne 2 (some 2) (.proposing leading.placementCluster)]⟩ := by
    refine hreach.step (@Step.propose dataRoute onlyNode _ 2 (handlerOne 2 none .received)
      leading.placementCluster 2 rfl rfl ⟨by decide, by decide⟩ rfl ?_ ?_)
    · decide
    · decide
  have hasked : Run dataRoute onlyNode ⟨askedAgain, [callOne 2 (some 2)],
      [gaveUp, answered, handlerOne 2 (some 2) (.proposing leading.placementCluster)]⟩ := by
    refine hpropose.step (step_turnedAt (.message (asks writeOne 2)) rfl ?_ (asks_write ?_))
    · rintro _ ⟨⟩
      decide
    · simp [Handler.Proposes, gaveUp, answered, handlerOne, handlerTwo]
  exact hasked.step (step_commit _ _ rfl (.head _) ⟨rfl, rfl⟩ (by decide))

/-- **A write is executed twice**, after a write that was answered. -/
theorem write_executed_twice :
    Run dataRoute onlyNode overwritten ∧ overwritten.handlers[1]? = some answered ∧
      Run dataRoute onlyNode executedTwice ∧ (executedTwice.committed 0).length = 2 ∧
      executedTwice.cluster.log.map (fun x => x.1.data.val) =
        [proposalData writeOne.data, proposalData writeTwo.data, proposalData writeOne.data] :=
  ⟨overwritten_run, rfl, executedTwice_run, by decide, rfl⟩

/-- Each of the two entries of the call is of an attempt of its own; the call has one entry when its
first attempt was not retried. -/
theorem committed_executedTwice :
    ((executedTwice.committed 0).map Prod.fst).Nodup ∧
      (executedOnce.CausedAt 0 0 ∧ ∀ i, executedOnce.CausedAt 0 i → i = 0) := by
  have hhandler : executedOnce.handlers[0]? =
      some (handlerOne 1 (some 0) (.proposing leading.placementCluster)) := rfl
  have hcaused : executedOnce.CausedAt 0 0 :=
    ⟨entryOne, proposalOf leading writeOne 0, 1, rfl, .proposed hhandler rfl ⟨rfl, rfl⟩⟩
  have hunproposed : executedOnce.RetriedUnproposed 0 := by
    intro k n call _ hk p _ hp
    obtain ⟨i, h, hi, ho⟩ := hp.handler
    obtain rfl := List.mem_singleton.mp (List.mem_of_getElem? hi)
    obtain rfl := List.mem_singleton.mp (List.mem_of_getElem? hk)
    cases ho
    exact Nat.lt_irrefl 1
  refine ⟨(committed_of_run executedTwice_run rfl).1, hcaused, fun i hi => ?_⟩
  exact (committed_of_run executedOnce_run rfl).2.2.2.2 hunproposed i 0 hi hcaused

end Net

end PlacementCenter.Placement
