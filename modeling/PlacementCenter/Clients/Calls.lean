import PlacementCenter.Clients.Messages
import PlacementCenter.Clients.Pools
import PlacementCenter.Clients.Retries

/-!
# The calls of the clients

The functions of the client library, from the request of the caller to the reply it gets. The
request is written down once and sent to one address after the other; at each of them it is read
back for the service, and the reply of the service is written down for the caller, who reads it
back.

## Main definitions

* `Remote`: how the services at the addresses behave, attempt by attempt
* `kvInterfaceCall`, `openraftInterfaceCall`: one attempt
* `placementCall`: the functions of the library
* `upToOk`: the attempts that are made

## Main results

* `interfaceCall_eq`: an attempt asks the service for the request of the caller
* `ends_retryTurn`: the loop makes attempts up to the first one that succeeds
* `placementCall_answers`: **the caller gets the answer of a service to its request**
-/

namespace PlacementCenter

/-- The service that has the interface. -/
def Placement.PlacementCenterInterface.service :
    PlacementCenterInterface → PlacementCenterService
  | set => .kv
  | get => .kv
  | delete => .kv
  | existsKey => .kv
  | vote => .openRaft
  | append => .openRaft
  | snapshot => .openRaft

namespace Clients

open Rust Rust.Prost Protocol Server Placement

/-! ### An attempt -/

/-- How the services behave at each attempt: whether the pool has a connection to the service at an
address, and what the service there answers. -/
structure Remote where
  client : ℕ → String → PlacementCenterService → Except RobustMQError Unit
  call : ℕ → String → (i : PlacementCenterInterface) → i.Request → Except Status i.Reply

section Attempts

variable (remote : Remote) (times : ℕ) (addr : String)

def kvInterfaceCall (interface : PlacementCenterInterface) (request : Bytes) :
    Except RobustMQError Bytes :=
  match remote.client times addr .kv with
  | .ok _ =>
    match interface with
    | .set => innerSet (remote.call times addr .set) request
    | .delete => innerDelete (remote.call times addr .delete) request
    | .get => innerGet (remote.call times addr .get) request
    | .existsKey => innerExists (remote.call times addr .existsKey) request
    | _ => .error (.commmonError
      ("kv service does not support service interfaces [" ++ interface.debug ++ "]"))
  | .error e => .error e

def openraftInterfaceCall (interface : PlacementCenterInterface) (request : Bytes) :
    Except RobustMQError Bytes :=
  match remote.client times addr .openRaft with
  | .ok _ =>
    match interface with
    | .vote => innerVote (remote.call times addr .vote) request
    | .append => innerAppend (remote.call times addr .append) request
    | .snapshot => innerSnapshot (remote.call times addr .snapshot) request
    | _ => .error (.commmonError
      ("openraft service does not support service interfaces [" ++ interface.debug ++ "]"))
  | .error e => .error e

/-- The call of one iteration of the loop of `retry_call`. -/
def interfaceCall (service : PlacementCenterService) (interface : PlacementCenterInterface)
    (request : Bytes) : Except RobustMQError Bytes :=
  match service with
  | .kv => kvInterfaceCall remote times addr interface request
  | .openRaft => openraftInterfaceCall remote times addr interface request

/-- What an attempt comes to: the answer of the service to the request of the caller, where there is
a connection. -/
def attempt (i : PlacementCenterInterface) (request : i.Request) :
    Except RobustMQError i.Reply :=
  match remote.client times addr i.service with
  | .ok _ => (remote.call times addr i request).mapError RobustMQError.grpcServerStatus
  | .error e => .error e

variable {remote times addr}

/-- **An attempt asks the service for the request of the caller**, and returns what it answers. -/
theorem interfaceCall_eq {i : PlacementCenterInterface} {request : i.Request}
    (h : (encodeToVec request).length < 2 ^ 64) :
    interfaceCall remote times addr i.service i (encodeToVec request) =
      (attempt remote times addr i request).map encodeToVec := by
  cases i with
  | set | get | delete | existsKey =>
    cases hclient : remote.client times addr .kv with
    | error e =>
      simp only [interfaceCall, kvInterfaceCall, attempt, PlacementCenterInterface.service, hclient]
      rfl
    | ok _ =>
      simp only [interfaceCall, kvInterfaceCall, attempt, PlacementCenterInterface.service, hclient]
      exact inner_eq h _
  | vote | append | snapshot =>
    cases hclient : remote.client times addr .openRaft with
    | error e =>
      simp only [interfaceCall, openraftInterfaceCall, attempt, PlacementCenterInterface.service,
        hclient]
      rfl
    | ok _ =>
      simp only [interfaceCall, openraftInterfaceCall, attempt, PlacementCenterInterface.service,
        hclient]
      exact inner_eq h _

/-- An attempt without a connection fails, whatever the request. -/
theorem interfaceCall_of_refused {i : PlacementCenterInterface} {e : RobustMQError}
    (h : remote.client times addr i.service = .error e) (request : Bytes) :
    interfaceCall remote times addr i.service i request = .error e := by
  cases i with
  | set | get | delete | existsKey =>
    change remote.client times addr .kv = .error e at h
    simp only [interfaceCall, kvInterfaceCall, PlacementCenterInterface.service, h]
  | vote | append | snapshot =>
    change remote.client times addr .openRaft = .error e at h
    simp only [interfaceCall, openraftInterfaceCall, PlacementCenterInterface.service, h]

end Attempts

/-! ### The loop -/

section Loop

variable {ε α β : Type}

/-- The attempts that are made: those up to the first one that succeeds. -/
def upToOk : List (Except ε α) → List (Except ε α)
  | [] => []
  | .ok a :: _ => [.ok a]
  | .error e :: rs => .error e :: upToOk rs

theorem upToOk_map (f : α → β) (rs : List (Except ε α)) :
    upToOk (rs.map (Except.map f)) = (upToOk rs).map (Except.map f) := by
  induction rs with
  | nil => rfl
  | cons r rs ih =>
    cases r with
    | ok a => rfl
    | error e => exact congrArg (.error e :: ·) ih

/-- The attempts that may be made: `n` of them, from the one numbered `times` on. -/
def attemptsFrom (addrs : List String) (call : ℕ → String → Except ε α) (times n : ℕ) :
    List (Except ε α) :=
  (List.range' times n).filterMap fun k => (attemptAddr addrs k).map (call k)

theorem attemptsFrom_succ {addrs : List String} {times : ℕ} {addr : String}
    (h : attemptAddr addrs times = some addr) (call : ℕ → String → Except ε α) (n : ℕ) :
    attemptsFrom addrs call times (n + 1) =
      call times addr :: attemptsFrom addrs call (times + 1) n := by
  rw [attemptsFrom, List.range'_succ, List.filterMap_cons, h]
  rfl

variable {addrs : List String} {call : InterfaceCall}

theorem retryTurn_leave {s : Retrying} {addr : String} {r : Except RobustMQError Bytes}
    (haddr : attemptAddr addrs s.times = some addr)
    (h : afterAttempt s.times (call s.times addr) = .returns r) :
    retryTurn addrs call s = .leave (.ok r, s.attempted addrs call addr) := by
  rw [retryTurn, haddr]
  dsimp only
  rw [h]
  rfl

theorem retryTurn_again {s : Retrying} {addr : String} {times : ℕ}
    (haddr : attemptAddr addrs s.times = some addr)
    (h : afterAttempt s.times (call s.times addr) = .again times) :
    retryTurn addrs call s = .again ⟨times, s.attempted addrs call addr⟩ := by
  rw [retryTurn, haddr]
  dsimp only
  rw [h]
  rfl

/-- **The loop makes attempts up to the first one that succeeds**, and returns the result of the
last one. -/
theorem ends_retryTurn (haddrs : addrs ≠ []) {times n : ℕ} (hn : times + n = retryTimes + 1)
    (calls : List Called) : ∃ made result,
      Ends (retryTurn addrs call) ⟨times, calls⟩ (.ok result, calls ++ made) ∧
        made.map Called.result = upToOk (attemptsFrom addrs call times (n + 1)) ∧
        (made.map Called.result).getLast? = some result := by
  induction n generalizing times calls with
  | zero =>
    obtain ⟨addr, haddr⟩ : ∃ addr, attemptAddr addrs times = some addr :=
      Option.ne_none_iff_exists'.mp fun hnone => haddrs (attemptAddr_eq_none.mp hnone)
    -- the last attempt is returned in any case
    have hafter : afterAttempt times (call times addr) = .returns (call times addr) := by
      cases call times addr with
      | ok data => rfl
      | error e => exact if_pos (by omega)
    refine ⟨[⟨times % addrs.length, call times addr⟩], call times addr,
      ends_of_leave (retryTurn_leave haddr hafter), ?_, rfl⟩
    rw [attemptsFrom_succ haddr]
    cases hcall : call times addr with
    | ok data => rfl
    | error e => rfl
  | succ n ih =>
    obtain ⟨addr, haddr⟩ : ∃ addr, attemptAddr addrs times = some addr :=
      Option.ne_none_iff_exists'.mp fun hnone => haddrs (attemptAddr_eq_none.mp hnone)
    rw [attemptsFrom_succ haddr]
    cases hcall : call times addr with
    | ok data =>
      have hafter : afterAttempt times (call times addr) = .returns (.ok data) := by
        rw [hcall]
        rfl
      refine ⟨[⟨times % addrs.length, call times addr⟩], .ok data,
        ends_of_leave (retryTurn_leave haddr hafter), ?_, ?_⟩
      · rw [List.map_singleton, hcall]
        rfl
      · rw [List.map_singleton, hcall]
        rfl
    | error e =>
      have hafter : afterAttempt times (call times addr) = .again (times + 1) :=
        (afterAttempt_eq_again (n := times + 1)).mpr ⟨rfl, by omega, e, hcall⟩
      obtain ⟨made, result, hends, hmade, hlast⟩ := @ih (times + 1) (by omega)
        (calls ++ [⟨times % addrs.length, call times addr⟩])
      refine ⟨⟨times % addrs.length, call times addr⟩ :: made, result, ?_, ?_, ?_⟩
      · rw [List.append_cons]
        exact (ends_iff_of_again (retryTurn_again haddr hafter)).mpr hends
      · rw [List.map_cons, hmade, hcall]
        rfl
      · rw [List.map_cons, List.getLast?_cons, hlast]
        rfl

theorem mem_of_mem_upToOk {r : Except ε α} {rs : List (Except ε α)} (h : r ∈ upToOk rs) :
    r ∈ rs := by
  induction rs with
  | nil => cases h
  | cons r' rs ih =>
    cases r' with
    | ok a => exact List.mem_cons.mpr (.inl (List.mem_singleton.mp h))
    | error e => exact List.mem_cons.mpr ((List.mem_cons.mp h).imp id ih)

end Loop

/-! ### The functions of the library -/

/-- The functions `placement_*`, for some turns of the loop of `retry_call`, with the calls that
were made. -/
def placementCall (i : PlacementCenterInterface) (remote : Remote) (addrs : List String)
    (request : i.Request) (fuel : ℕ) :
    Option (Outcome (Except RobustMQError i.Reply) × List Called) :=
  let call : InterfaceCall := fun times addr =>
    interfaceCall remote times addr i.service i (encodeToVec request)
  (turns (retryTurn addrs call) fuel .start).map fun r =>
    match r.1 with
    | .ok result => (.ok (placementReply result), r.2)
    | .panicked m => (.panicked m, r.2)

def placementSet := placementCall .set

def placementGet := placementCall .get

def placementDelete := placementCall .delete

def placementExists := placementCall .existsKey

def placementOpenraftVote := placementCall .vote

def placementOpenraftAppend := placementCall .append

def placementOpenraftSnapshot := placementCall .snapshot

section Calls

variable {i : PlacementCenterInterface} {remote : Remote} {addrs : List String}
  {request : i.Request}

/-- A reply that an attempt comes to is one of the service. -/
theorem call_eq_of_attempt {times : ℕ} {addr : String} {reply : i.Reply}
    (h : attempt remote times addr i request = .ok reply) :
    remote.call times addr i request = .ok reply := by
  unfold attempt at h
  cases hclient : remote.client times addr i.service with
  | error e =>
    rw [hclient] at h
    cases h
  | ok _ =>
    rw [hclient] at h
    cases hcall : remote.call times addr i request with
    | error e =>
      rw [hcall] at h
      cases h
    | ok reply' =>
      rw [hcall] at h
      rw [Except.ok.inj h]

/-- **A call fails where there is no connection**, whatever it carries. -/
theorem placementCall_refused (haddrs : addrs ≠ [])
    (h : ∀ times, ∀ addr ∈ addrs, ∃ e, remote.client times addr i.service = .error e) {fuel : ℕ}
    {r : Outcome (Except RobustMQError i.Reply) × List Called}
    (hr : placementCall i remote addrs request fuel = some r) :
    ∃ e calls, r = (.ok (.error e), calls) := by
  obtain ⟨left, hleft, rfl⟩ := Option.map_eq_some_iff.mp hr
  -- every attempt fails, so does the last one
  have hresult : ∃ e calls, left = (.ok (.error e), calls) := by
    refine Ends.of_invariant (I := fun _ => True)
      (R := fun left => ∃ e calls, left = (.ok (.error e), calls)) (fun _ _ _ _ => trivial) ?_
      ⟨fuel, hleft⟩ trivial
    intro s left _ hleave
    cases haddr : attemptAddr addrs s.times with
    | none => exact absurd (attemptAddr_eq_none.mp haddr) haddrs
    | some addr =>
      obtain ⟨e, he⟩ := h s.times addr (List.mem_of_getElem? haddr)
      have hcall := interfaceCall_of_refused he (encodeToVec request)
      by_cases htimes : s.times > retryTimes
      · have hafter : afterAttempt s.times (.error e) = .returns (.error e) := if_pos htimes
        rw [← hcall] at hafter
        rw [retryTurn_leave haddr hafter] at hleave
        cases hleave
        exact ⟨e, _, congrArg (fun result => (Outcome.ok result, _)) hcall⟩
      · have hafter : afterAttempt s.times (.error e) = .again (s.times + 1) := if_neg htimes
        rw [← hcall] at hafter
        rw [retryTurn_again haddr hafter] at hleave
        cases hleave
  obtain ⟨e, calls, rfl⟩ := hresult
  exact ⟨e, calls, rfl⟩

/-- **The caller gets the answer of a service to its request.** Attempts are made at one address
after the other, up to the first that succeeds and four at most; each asks the service for exactly
the request of the caller, who gets what the last one came to. -/
theorem placementCall_answers (haddrs : addrs ≠ [])
    (hrequest : (encodeToVec request).length < 2 ^ 64)
    (hreplies : ∀ times addr reply, remote.call times addr i request = .ok reply →
      (encodeToVec reply).length < 2 ^ 64) : ∃ fuel result calls,
    placementCall i remote addrs request fuel = some (.ok result, calls) ∧
      calls.map Called.result = (upToOk (attemptsFrom addrs
        (fun times addr => attempt remote times addr i request) 1 (retryTimes + 1))).map
          (Except.map encodeToVec) ∧
      (upToOk (attemptsFrom addrs (fun times addr => attempt remote times addr i request) 1
        (retryTimes + 1))).getLast? = some result := by
  let tried (times : ℕ) (addr : String) := attempt remote times addr i request
  obtain ⟨made, data, ⟨fuel, hends⟩, hmade, hlast⟩ := @ends_retryTurn addrs
    (fun times addr => interfaceCall remote times addr i.service i (encodeToVec request)) haddrs 1
    retryTimes (Nat.add_comm 1 retryTimes) []
  have hattempts : attemptsFrom addrs (fun times addr =>
      interfaceCall remote times addr i.service i (encodeToVec request)) 1 (retryTimes + 1) =
      (attemptsFrom addrs tried 1 (retryTimes + 1)).map (Except.map encodeToVec) := by
    simp only [attemptsFrom, List.map_filterMap, Option.map_map]
    refine List.filterMap_congr fun k _ => ?_
    exact Option.map_congr fun addr _ => interfaceCall_eq hrequest
  rw [hattempts, upToOk_map] at hmade
  rw [hmade, List.getLast?_map] at hlast
  obtain ⟨result, hresult, rfl⟩ := Option.map_eq_some_iff.mp hlast
  refine ⟨fuel, result, made, ?_, hmade, hresult⟩
  -- the reply is read back
  have hreply : placementReply (result.map encodeToVec) = result := by
    cases result with
    | error e => rfl
    | ok reply =>
      obtain ⟨k, -, htried⟩ := List.mem_filterMap.mp
        (mem_of_mem_upToOk (List.mem_of_getLast? hresult))
      obtain ⟨addr, -, hattempt⟩ := Option.map_eq_some_iff.mp htried
      have hlength := hreplies k addr reply (call_eq_of_attempt hattempt)
      show placementReply (.ok (encodeToVec reply)) = .ok reply
      rw [placementReply, decode_encodeToVec (fits_of_length hlength)]
  rw [placementCall, show Retrying.start = ⟨1, []⟩ from rfl, hends, Option.map_some]
  exact congrArg (fun result => some (Outcome.ok result, made)) hreply

/-- One of two nodes has no connection, and the other one knows the value of every key. -/
def oneNodeDown : Remote where
  client _ addr _ := if addr = "a" then .ok () else
    .error (.noAvailableGrpcConnection "KvServices" "timed out")
  call _ _ i _ := match i with
    | .get => .ok (⟨"v"⟩ : GetReply)
    | _ => .error (.cancelled "leader is not known")

theorem placementCall_answers_get : ∃ fuel result calls,
    placementCall .get oneNodeDown ["a", "b"] (⟨"k"⟩ : GetRequest) fuel =
        some (.ok result, calls) ∧
      calls.map Called.result = (upToOk (attemptsFrom ["a", "b"] (fun times addr =>
        attempt oneNodeDown times addr .get (⟨"k"⟩ : GetRequest)) 1 (retryTimes + 1))).map
          (Except.map encodeToVec) ∧
      (upToOk (attemptsFrom ["a", "b"] (fun times addr =>
        attempt oneNodeDown times addr .get (⟨"k"⟩ : GetRequest)) 1
          (retryTimes + 1))).getLast? = some result := by
  refine placementCall_answers (List.cons_ne_nil _ _) (by decide) fun times addr reply h => ?_
  obtain rfl : (⟨"v"⟩ : GetReply) = reply := Except.ok.inj h
  decide

end Calls

end Clients

end PlacementCenter
