import PlacementCenter.Rust.Program
import PlacementCenter.Rust.Bytes

/-!
# The sender of messages to other nodes

One task sends the messages of the raft machine to all other nodes, in the order in which they are
queued. A failure to send is only logged, a failure to connect ends the task.

## Main definitions

* `PeersManager.start`: the loop of the task, for some of its turns
* `PeerNetwork`: what the task receives and how the network answers it
* `DeliversAll net`: the task never panics, and attempts to deliver every message in its turn

## Main results

* `PeersManager.turn_run`: a turn whose connection is made attempts the delivery
* `deliversAll_iff`: the task delivers as long as every connection is made
-/

namespace PlacementCenter.Raft

open Rust Program

/-- A message as it is queued for another node. -/
structure PeerMessage where
  toAddr : String
  data : Bytes

structure SendRaftMessageRequest where
  message : Bytes

/-- What the task does on the network. -/
inductive PeerEvent where
  | connecting (url : String)
  | sending (url : String) (request : SendRaftMessageRequest)

/-- What the task meets in each turn of its loop: the message it receives, in the order of the
queue, or `none` from a closed one, and the results of connecting and of sending. -/
structure PeerNetwork where
  recv : ℕ → Option PeerMessage
  connect : ℕ → String → Except String Unit
  sendRaftMessage : ℕ → SendRaftMessageRequest → Except String Unit

/-- The address at which a node is called. -/
def peerUrl (addr : String) : String := "http://" ++ addr

namespace PeersManager

/-- A turn of the loop of `start`. -/
def turn (net : PeerNetwork) (n : ℕ) : Program (List PeerEvent) Unit :=
  match net.recv n with
  | none => return ()
  | some data => do
    let url := peerUrl data.toAddr
    let request : SendRaftMessageRequest := ⟨data.data⟩
    Program.modify fun events => events ++ [.connecting url]
    Program.expectOk (net.connect n url)
    Program.modify fun events => events ++ [.sending url request]
    match net.sendRaftMessage n request with
    | .ok () => return ()
    -- the error is logged
    | .error _ => return ()

/-- The first turns of the loop, which has no end. -/
def start (net : PeerNetwork) : ℕ → Program (List PeerEvent) Unit
  | 0 => return ()
  | n + 1 => do
    start net n
    turn net n

end PeersManager

/-- What the delivery of the message of a turn takes: a connection, and the message over it. -/
def PeerNetwork.delivery (net : PeerNetwork) (n : ℕ) : List PeerEvent :=
  match net.recv n with
  | none => []
  | some data =>
    match net.connect n (peerUrl data.toAddr) with
    | .ok () => [.connecting (peerUrl data.toAddr), .sending (peerUrl data.toAddr) ⟨data.data⟩]
    | .error _ => [.connecting (peerUrl data.toAddr)]

/-- The task never panics, and attempts the delivery of every message once, in the order of the
queue. -/
def DeliversAll (net : PeerNetwork) : Prop :=
  ∀ turns, Completes (PeersManager.start net turns) [] ()
    ((List.range turns).flatMap net.delivery)

variable {net : PeerNetwork} {n : ℕ} {data : PeerMessage}

/-- **A failed connection ends the task.** -/
theorem PeersManager.turn_run_panicked (hrecv : net.recv n = some data) {e : String}
    (hconnect : net.connect n (peerUrl data.toAddr) = .error e) (events : List PeerEvent) :
    PeersManager.turn net n events = (.panicked "called Result::unwrap() on an Err value",
      events ++ [.connecting (peerUrl data.toAddr)]) := by
  unfold turn
  rw [hrecv]
  dsimp only
  rw [hconnect]
  rfl

/-- **A turn** whose connection is made, or that receives nothing, attempts the delivery. -/
theorem PeersManager.turn_run
    (h : ∀ data, net.recv n = some data → net.connect n (peerUrl data.toAddr) = .ok ())
    (events : List PeerEvent) :
    PeersManager.turn net n events = (.ok (), events ++ net.delivery n) := by
  unfold turn PeerNetwork.delivery
  cases hrecv : net.recv n with
  | none => simp
  | some data =>
    dsimp only
    rw [h data hrecv]
    -- the result of the sending makes no difference
    rcases hsend : net.sendRaftMessage n ⟨data.data⟩ with e | ⟨⟩ <;> simp [bind_run]

/-- **Nothing is attempted after a panic**, by whatever many turns. -/
theorem PeersManager.start_add_of_panicked {m : String} {events : List PeerEvent}
    (h : PeersManager.start net n [] = (.panicked m, events)) (k : ℕ) :
    PeersManager.start net (n + k) [] = (.panicked m, events) := by
  induction k with
  | zero => exact h
  | succ k ih => exact bind_run_panicked ih _

theorem DeliversAll.connect_eq (h : DeliversAll net) (hrecv : net.recv n = some data) :
    net.connect n (peerUrl data.toAddr) = .ok () := by
  obtain ⟨-, events, -, hturn⟩ := completes_bind.mp (h (n + 1))
  cases hconnect : net.connect n (peerUrl data.toAddr) with
  | ok c => rfl
  | error e =>
    rw [Completes, PeersManager.turn_run_panicked hrecv hconnect] at hturn
    cases hturn

/-- **The task delivers** exactly as long as the connection for every message is made. -/
theorem deliversAll_iff (net : PeerNetwork) : DeliversAll net ↔
    ∀ n data, net.recv n = some data → net.connect n (peerUrl data.toAddr) = .ok () := by
  constructor
  · exact fun h n data hrecv => h.connect_eq hrecv
  · intro h turns
    induction turns with
    | zero => rfl
    | succ n ih =>
      rw [List.range_succ, List.flatMap_append, List.flatMap_singleton]
      exact completes_bind.mpr ⟨(), _, ih, PeersManager.turn_run (h n) _⟩

/-- A first message for a node that is down, and more for one that is up. -/
def firstPeerDown : PeerNetwork where
  recv n := some ⟨if n = 0 then "10.0.0.2:1228" else "10.0.0.3:1228", [8]⟩
  connect n _ := if n = 0 then .error "transport error" else .ok ()
  sendRaftMessage _ _ := .ok ()

/-- The messages for the node that is up are never sent. -/
theorem firstPeerDown_silences :
    ¬ DeliversAll firstPeerDown ∧ ∀ n, (PeersManager.start firstPeerDown (1 + n) []).2 =
      [.connecting "http://10.0.0.2:1228"] := by
  have hrecv : firstPeerDown.recv 0 = some ⟨"10.0.0.2:1228", [8]⟩ := rfl
  have hstart : PeersManager.start firstPeerDown 1 [] =
      (.panicked "called Result::unwrap() on an Err value",
        [.connecting "http://10.0.0.2:1228"]) := PeersManager.turn_run_panicked hrecv rfl []
  refine ⟨fun h => ?_, fun n => ?_⟩
  · have hconnect := h.connect_eq hrecv
    cases hconnect
  · rw [PeersManager.start_add_of_panicked hstart n]

end PlacementCenter.Raft
