import PlacementCenter.Clients.Calls
import PlacementCenter.Server.Calls
import PlacementCenter.Server.LeaderAddress
import PlacementCenter.Storage.KvHistory

/-!
# The server as it starts

`start_server` makes the raft machine and does not run it: the task of its loop is commented out.
The queue of the machine stays open and nobody reads it, and the metadata stays that of a follower
without a leader. The services are served all the same.

## Main definitions

* `startServer`: what `start_server` makes
* `GrpcKvServices.existsKey`: the handler that asks whether a key exists
* `PlacementServer`: a server, with the requests of the key-value service that were served
* `PlacementServer.Step`, `Run`: requests and calls are served, in any order
* `Unmoved columns`: what such a server does

## Main results

* `reply_of_follower`: a follower without a leader refuses every write
* `unmoved_of_run`: **a server that starts so never changes its store**, refuses every write, and
  lets every call of the raft machine time out or wait for ever
-/

namespace PlacementCenter.Server

open Rust Rust.Prost Storage Protocol Raft Program
open PlacementCenter.Clients (Remote ExistsRequest ExistsReply placementSet placementDelete
  placementCall_refused)

variable {σ : Type} [RocksDb σ]

/-- The part of `start_server` that makes the metadata, the store and the raft machine; the machine
is not run. -/
def startServer {V : Type} [TomlValue V] (config : PlacementCenterConfig V) :
    Program σ RaftMachine := do
  let placementCache ← Program.unwrap (RaftGroupMetadata.new config)
  let raftMachineStorage ← RaftMachineStorage.new
  return RaftMachine.new placementCache raftMachineStorage

/-- `exists`, with `key_may_exist_cf` of the library. -/
def GrpcKvServices.existsKey (keyMayExistCf : String → Bytes → Program σ Bool)
    (req : ExistsRequest) : Program σ (Except Status ExistsReply) := do
  if req.key = "" then return .error (cancelled (.parameterCannotBeNull "key"))
  else
    match ← KvStorage.existsKey keyMayExistCf req.key with
    | .ok flag => return .ok { flag := flag }
    | .error e => return .error (cancelled e)

/-- A request of the key-value service, with the reply it was served. -/
inductive KvExchange where
  | write (write : Write) (reply : Except Status CommonReply)
  | get (req : GetRequest) (reply : Except Status GetReply)
  | existsKey (req : ExistsRequest) (reply : Except Status ExistsReply)

/-- A server: the callers of its raft machine, and what its key-value service has served. -/
structure PlacementServer where
  process : Process
  served : List KvExchange

/-- The clients reply to the write what the client library does, at the addresses. -/
def Write.Through (remote : Remote) (clients : Clients) (addrs : List String) :
    Write → Prop
  | set req => ∃ fuel calls, placementSet remote addrs req fuel =
      some (.ok (clients.placementSet addrs req), calls)
  | delete req => ∃ fuel calls, placementDelete remote addrs req fuel =
      some (.ok (clients.placementDelete addrs req), calls)

namespace PlacementServer

/-- The steps of a process whose machine is not run: all but its turns. -/
inductive Idle : Process → Process → Prop
  | call (p : Process) (request : Request) : Idle p { p with calls := p.calls ++ [⟨request, none⟩] }
  | send (p : Process) {c : ChanId} {call : Call} (hc : p.calls[c]? = some call)
    (hs : call.since = none) (hq : p.queue.length < queueCapacity) :
    Idle p { p.sent c call with queue := p.queue ++ [call.request.message c] }
  | pass (p : Process) {clock : ℕ} (h : p.clock ≤ clock) : Idle p { p with clock := clock }

/-- The steps of a server. The other servers behave as `remotes` says, request by request. A leader
would propose a write, and reply what comes of the proposal. -/
inductive Step (remotes : ℕ → Remote)
    (keyMayExistCf : String → Bytes → Program (World MachineEvent) Bool) :
    PlacementServer → PlacementServer → Prop
  | write (s : PlacementServer) {m : RaftMachine} (hm : s.process.machine = some m)
    {clients : Clients} (write : Write)
    (h : write.Through (remotes s.served.length) clients [m.placementCluster.leaderAddr])
    (propose : StorageData → String → Except RobustMQError Unit) :
    Step remotes keyMayExistCf s { s with
      served := s.served ++ [.write write (write.reply clients propose m.placementCluster)] }
  | get (s : PlacementServer) {req : GetRequest} {reply : Except Status GetReply}
    {w : World MachineEvent} (h : Completes (GrpcKvServices.get req) s.process.world reply w) :
    Step remotes keyMayExistCf s
      ⟨{ s.process with world := w }, s.served ++ [.get req reply]⟩
  | existsKey (s : PlacementServer) {req : ExistsRequest} {reply : Except Status ExistsReply}
    {w : World MachineEvent}
    (h : Completes (GrpcKvServices.existsKey keyMayExistCf req) s.process.world reply w) :
    Step remotes keyMayExistCf s
      ⟨{ s.process with world := w }, s.served ++ [.existsKey req reply]⟩
  | idle (s : PlacementServer) {p : Process} (h : Idle s.process p) :
    Step remotes keyMayExistCf s { s with process := p }

/-- The servers that start over the contents `columns` and serve any requests. -/
inductive Run {V : Type} [TomlValue V] (config : PlacementCenterConfig V)
    (remotes : ℕ → Remote)
    (keyMayExistCf : String → Bytes → Program (World MachineEvent) Bool) (columns : Columns) :
    PlacementServer → Prop
  | start {m : RaftMachine} {w : World MachineEvent}
    (h : Completes (startServer config) (World.reopen columns []) m w) :
    Run config remotes keyMayExistCf columns ⟨.start m w, []⟩
  | step {s s' : PlacementServer} (hr : Run config remotes keyMayExistCf columns s)
    (h : Step remotes keyMayExistCf s s') : Run config remotes keyMayExistCf columns s'

/-- What a server does whose machine is not run, over the contents `columns`. -/
structure Unmoved (columns : Columns) (s : PlacementServer) : Prop where
  /-- The store is as it was. -/
  contents : s.process.world.columns = columns
  /-- Every write is refused. -/
  writes : ∀ write reply, .write write reply ∈ s.served → ∃ e, reply = .error (.cancelled e)
  /-- A read is served from the contents at the start. -/
  reads : ∀ req reply, .get req reply ∈ s.served → ∀ w : World MachineEvent,
    w.columns = columns → Completes (GrpcKvServices.get req) w reply w
  /-- A key that is there exists. -/
  exist : ∀ req reply, .existsKey req reply ∈ s.served → req.key ≠ "" →
    utf8 req.key ∈ columns dbColumnFamilyCluster → reply = .ok ⟨true⟩
  /-- A caller of the machine is told nothing but that its time is over. -/
  replies : ∀ c call, s.process.calls[c]? = some call → s.process.reply c call =
    (call.since.filter fun since => since + waitLimit < s.process.clock).map fun _ =>
      .error (.raftLogCommitTimeout call.request.action)
  /-- So many callers get as far as to wait. -/
  sent : s.process.calls.countP (fun call => call.since.isSome) ≤ queueCapacity

/-! ### Writes and reads -/

/-- No connection opens to a server without an address. -/
def NoAddress (remote : Remote) : Prop := ∀ times, ∃ e, remote.client times "" .kv = .error e

/-- **A follower without a leader refuses every write.** -/
theorem reply_of_follower {remote : Remote} (hremote : NoAddress remote) {g : RaftGroupMetadata}
    (hrole : g.isLeader = false) (hleader : g.leader = none) {clients : Clients} {write : Write}
    (h : write.Through remote clients [g.leaderAddr])
    (propose : StorageData → String → Except RobustMQError Unit) :
    ∃ e, write.reply clients propose g = .error (.cancelled e) := by
  have haddr : g.leaderAddr = "" := by rw [RaftGroupMetadata.leaderAddr, hleader]
  -- every attempt is one at the empty address
  rw [haddr] at h
  have hrefused : ∀ times, ∀ addr ∈ [""], ∃ e, remote.client times addr .kv = .error e := by
    intro times addr haddr
    rw [List.mem_singleton.mp haddr]
    exact hremote times
  cases write with
  | set req =>
    by_cases hreq : req.key = "" ∨ req.value = ""
    · exact ⟨_, if_pos hreq⟩
    · obtain ⟨fuel, calls, h⟩ := h
      obtain ⟨e, calls', he⟩ := placementCall_refused (List.cons_ne_nil _ _) hrefused h
      have hw : (Write.set req).Accepted := not_or.mp hreq
      rw [reply_of_not_leader hrole hw, Clients.forward, haddr]
      rw [Outcome.ok.inj (Prod.mk.inj he).1]
      exact ⟨_, rfl⟩
  | delete req =>
    by_cases hreq : req.key = ""
    · exact ⟨_, if_pos hreq⟩
    · obtain ⟨fuel, calls, h⟩ := h
      obtain ⟨e, calls', he⟩ := placementCall_refused (List.cons_ne_nil _ _) hrefused h
      have hw : (Write.delete req).Accepted := hreq
      rw [reply_of_not_leader hrole hw, Clients.forward, haddr]
      rw [Outcome.ok.inj (Prod.mk.inj he).1]
      exact ⟨_, rfl⟩

/-- A read leaves the store, and is served from its contents. -/
theorem get_run (req : GetRequest) (columns : Columns) : ∃ reply, ∀ w : World MachineEvent,
    w.columns = columns → GrpcKvServices.get req w = (.ok reply, w) := by
  by_cases hkey : req.key = ""
  · refine ⟨.error (GrpcKvServices.cancelled (.parameterCannotBeNull "key")), fun w _ => ?_⟩
    rw [GrpcKvServices.get, if_pos hkey]
    rfl
  · cases hkv : kvIn (columns dbColumnFamilyCluster) req.key with
    | error e =>
      refine ⟨.error (GrpcKvServices.cancelled e), ?_⟩
      rintro w rfl
      rw [GrpcKvServices.get, if_neg hkey, bind_run_ok (KvStorage.get_run w req.key), hkv]
      rfl
    | ok found =>
      refine ⟨.ok (found.elim .default GetReply.mk), ?_⟩
      rintro w rfl
      rw [GrpcKvServices.get, if_neg hkey, bind_run_ok (KvStorage.get_run w req.key), hkv]
      cases found <;> rfl

/-- Asking for a key leaves the store, and finds a key that is there. -/
theorem completes_existsKey
    {keyMayExistCf : String → Bytes → Program (World MachineEvent) Bool}
    (h : NeverMisses keyMayExistCf) {req : ExistsRequest} {w w' : World MachineEvent}
    {reply : Except Status ExistsReply}
    (hrun : Completes (GrpcKvServices.existsKey keyMayExistCf req) w reply w') :
    w' = w ∧ (req.key ≠ "" → utf8 req.key ∈ w.columns dbColumnFamilyCluster →
      reply = .ok ⟨true⟩) := by
  unfold GrpcKvServices.existsKey at hrun
  split_ifs at hrun with hkey
  · obtain ⟨-, rfl⟩ := completes_pure.mp hrun
    exact ⟨rfl, fun hne => absurd hkey hne⟩
  · obtain ⟨found, hfound, hmem⟩ := h dbColumnFamilyCluster (utf8 req.key) w
    obtain ⟨r, w₁, hr, hrun⟩ := completes_bind.mp hrun
    obtain ⟨rfl, rfl⟩ := (completes_of_run (existsKey_run hfound)).mp hr
    obtain ⟨rfl, rfl⟩ := completes_pure.mp hrun
    exact ⟨rfl, fun _ hin => by rw [hmem hin]⟩

/-! ### Runs -/

variable {remotes : ℕ → Remote}
  {keyMayExistCf : String → Bytes → Program (World MachineEvent) Bool} {columns : Columns}
  {s s' : PlacementServer}

/-- What every step of a server keeps whose machine is not run. -/
structure Standing (columns : Columns) (s : PlacementServer) : Prop where
  contents : s.process.world.columns = columns
  machine : ∃ m, s.process.machine = some m ∧ m.placementCluster.isLeader = false ∧
    m.placementCluster.leader = none
  fates : ∀ c, s.process.fates c = none
  /-- The queue has the messages of those who wait. -/
  queue : s.process.queue.length = s.process.calls.countP fun call => call.since.isSome
  capacity : s.process.queue.length ≤ queueCapacity
  writes : ∀ write reply, .write write reply ∈ s.served → ∃ e, reply = .error (.cancelled e)
  reads : ∀ req reply, .get req reply ∈ s.served → ∀ w : World MachineEvent,
    w.columns = columns → Completes (GrpcKvServices.get req) w reply w
  exist : ∀ req reply, .existsKey req reply ∈ s.served → req.key ≠ "" →
    utf8 req.key ∈ columns dbColumnFamilyCluster → reply = .ok ⟨true⟩

theorem Standing.unmoved (h : Standing columns s) : Unmoved columns s where
  contents := h.contents
  writes := h.writes
  reads := h.reads
  exist := h.exist
  replies c call hc := by
    unfold Process.reply
    cases call.since with
    | none => rfl
    | some since =>
      have hfate : s.process.fateSince c since = none := by rw [Process.fateSince, h.fates]; rfl
      simp only [h.fates, Option.isSome_none, Bool.false_eq_true, false_or, hfate]
      by_cases htime : since + waitLimit < s.process.clock
      · rw [if_pos htime, Option.filter, if_pos (decide_eq_true htime)]
        rfl
      · rw [if_neg htime, Option.filter, if_neg (by simpa using htime)]
        rfl
  sent := h.queue ▸ h.capacity

/-- A caller that begins to wait is one more of those who wait. -/
theorem countP_sent {p : Process} {c : ChanId} {call : Call} (hc : p.calls[c]? = some call)
    (hs : call.since = none) : (p.sent c call).calls.countP (fun call => call.since.isSome) =
      p.calls.countP (fun call => call.since.isSome) + 1 := by
  obtain ⟨hlt, hget⟩ := List.getElem?_eq_some_iff.mp hc
  rw [Process.sent, List.countP_set hlt, hget, hs]
  rfl

theorem standing_idle (h : Standing columns s) {p : Process} (hs : Idle s.process p) :
    Standing columns { s with process := p } := by
  cases hs with
  | call request =>
    refine { h with queue := ?_ }
    rw [List.countP_append]
    exact h.queue
  | send hc hs hq =>
    refine { h with queue := ?_, capacity := ?_ }
    · rw [List.length_append, h.queue]
      exact (countP_sent hc hs).symm
    · rw [List.length_append]
      exact hq
  | pass hclock => exact { h with }

theorem standing_step (hremotes : ∀ n, NoAddress (remotes n)) (hkey : NeverMisses keyMayExistCf)
    (h : Standing columns s) (hs : Step remotes keyMayExistCf s s') : Standing columns s' := by
  cases hs with
  | write hm write hthrough propose =>
    -- a follower without a leader forwards to the empty address
    obtain ⟨m', hm', hrole, hleader⟩ := h.machine
    cases hm.symm.trans hm'
    refine { h with writes := ?_, reads := ?_, exist := ?_ }
    · intro write' reply hmem
      rcases List.mem_append.mp hmem with hmem | hmem
      · exact h.writes write' reply hmem
      · cases List.mem_singleton.mp hmem
        exact reply_of_follower (hremotes _) hrole hleader hthrough propose
    · intro req reply hmem
      exact h.reads req reply (by simpa using hmem)
    · intro req reply hmem
      exact h.exist req reply (by simpa using hmem)
  | @get req reply w hget =>
    -- a read answers from the contents at the start
    obtain ⟨reply', hreply⟩ := get_run req columns
    obtain ⟨rfl, rfl⟩ := (completes_of_run (hreply _ h.contents)).mp hget
    refine { h with writes := ?_, reads := ?_, exist := ?_ }
    · intro write reply hmem
      exact h.writes write reply (by simpa using hmem)
    · intro req' reply hmem
      rcases List.mem_append.mp hmem with hmem | hmem
      · exact h.reads req' reply hmem
      · cases List.mem_singleton.mp hmem
        exact hreply
    · intro req' reply hmem
      exact h.exist req' reply (by simpa using hmem)
  | @existsKey req reply w hex =>
    -- the library misses no key that is there
    obtain ⟨rfl, hfound⟩ := completes_existsKey hkey hex
    refine { h with writes := ?_, reads := ?_, exist := ?_ }
    · intro write reply hmem
      exact h.writes write reply (by simpa using hmem)
    · intro req' reply hmem
      exact h.reads req' reply (by simpa using hmem)
    · intro req' reply' hmem
      rcases List.mem_append.mp hmem with hmem | hmem
      · exact h.exist req' reply' hmem
      · cases List.mem_singleton.mp hmem
        rw [← h.contents]
        exact hfound
  | idle hidle => exact standing_idle h hidle

variable {V : Type} [TomlValue V] {config : PlacementCenterConfig V}

/-- What `start_server` makes is a follower without a leader, over the store as it was. -/
theorem completes_startServer {m : RaftMachine} {w w' : World MachineEvent}
    (h : Completes (startServer config) w m w') :
    w' = w ∧ m.placementCluster.isLeader = false ∧ m.placementCluster.leader = none := by
  obtain ⟨g, w₁, hg, h⟩ := completes_bind.mp h
  obtain ⟨hnew, rfl⟩ := completes_unwrap.mp hg
  obtain ⟨st, w₂, hst, h⟩ := completes_bind.mp h
  obtain ⟨rfl, rfl⟩ := completes_pure.mp h
  obtain ⟨metadata, -, -, rfl⟩ := RaftMachineStorage.completes_new.mp hst
  obtain ⟨peers, -, hpeers⟩ := Option.bind_eq_some_iff.mp hnew
  cases hpeers
  exact ⟨rfl, rfl, rfl⟩

/-- **A server that starts so never changes its store.** Over any contents, whatever is asked of its
services and in whatever order, it refuses every write, reads what was there at the start, and tells
a caller of the raft machine nothing but that its time is over; all but a thousand of these callers
are told nothing at all. -/
theorem unmoved_of_run (hremotes : ∀ n, NoAddress (remotes n)) (hkey : NeverMisses keyMayExistCf)
    (h : Run config remotes keyMayExistCf columns s) : Unmoved columns s := by
  refine Standing.unmoved ?_
  induction h with
  | @start m w h =>
    obtain ⟨rfl, hrole, hleader⟩ := completes_startServer h
    exact ⟨rfl, ⟨m, rfl, hrole, hleader⟩, fun _ => rfl, rfl, Nat.zero_le _, by simp, by simp,
      by simp⟩
  | step hr hs ih => exact standing_step hremotes hkey ih hs

/-! One of two nodes starts over an empty store. It refuses a write, and lets the call of a peer time
out. -/

/-- The library finds the keys that are there. -/
def mayExist (cf : String) (k : Bytes) : Program (World MachineEvent) Bool :=
  Program.gets fun w => (w.columns cf).contains k

theorem neverMisses_mayExist : NeverMisses mayExist := fun _ _ _ =>
  ⟨_, completes_gets.mpr ⟨rfl, rfl⟩, fun h => Std.ExtTreeMap.contains_iff_mem.mpr h⟩

def noHost : RobustMQError := .noAvailableGrpcConnection "KvServices" "invalid URI"

/-- A connection opens wherever there is an address. -/
def addressed : Remote where
  client _ addr _ := if addr = "" then .error noHost else .ok ()
  call _ _ _ _ := .error (.cancelled "leader is not known")

def started : RaftMachine × World MachineEvent :=
  finish (startServer pairConfig) (World.reopen (fun _ => ∅) []) (by decide +kernel)

def put : Write := .set ⟨"k", "v"⟩

def firstCall : Request := .transferLeader 2

/-- The server after the write, the call and thirty seconds. -/
def stale : PlacementServer where
  process :=
    { Process.start started.1 started.2 with
      clock := waitLimit + 1
      calls := [⟨firstCall, some 0⟩]
      queue := [firstCall.message 0] }
  served := [.write put (.error (GrpcKvServices.cancelled noHost))]

theorem run_stale : Run pairConfig (fun _ => addressed) mayExist (fun _ => ∅) stale := by
  have hbegun : Completes (startServer pairConfig) (World.reopen (fun _ => ∅) []) started.1
      started.2 := completes_finish _ _ _
  obtain ⟨-, hrole, hleader⟩ := completes_startServer hbegun
  have haddr : started.1.placementCluster.leaderAddr = "" := by
    rw [RaftGroupMetadata.leaderAddr, hleader]
  -- the write is forwarded to the empty address
  have hwrite := (Run.start hbegun : Run pairConfig (fun _ => addressed) mayExist _ _).step
    (@Step.write _ _ _ started.1 rfl ⟨fun _ _ => .error noHost, fun _ _ => .error noHost⟩ put
      (haddr ▸ ⟨4, _, rfl⟩) fun _ _ => .ok ())
  have hput : put.Accepted := ⟨by decide, by decide⟩
  rw [reply_of_not_leader hrole hput] at hwrite
  have hcall := hwrite.step (.idle _ (.call _ firstCall))
  have hsend := hcall.step (.idle _ (@Idle.send _ 0 ⟨firstCall, none⟩ rfl rfl (by decide)))
  exact hsend.step (.idle _ (@Idle.pass _ (waitLimit + 1) (Nat.zero_le _)))

theorem unmoved_stale : Unmoved (fun _ => ∅) stale :=
  unmoved_of_run (fun _ _ => ⟨noHost, rfl⟩) neverMisses_mayExist run_stale

end PlacementServer

end PlacementCenter.Server
