import PlacementCenter.Openraft.ApplyBatches
import PlacementCenter.Server.ServicesKv
import PlacementCenter.Storage.KvHistory

/-!
# The key-value service of the openraft group

The handlers of `GrpcKvServices` in `services_kv_new.rs`. A write is checked, and then proposed to
the openraft group, whose state machine holds a map of its own; a read is served from `KvStorage`.
What is proposed is the same for every request.

## Main definitions

* `GrpcKvServicesNew.set`, `delete`, `get`: the handlers
* `KvNode`: a node with its database and its state machine
* `AppliesWrites`: a write that returned was applied on the node
* `Served start requests node`: the node after some acknowledged requests
* `ReadsWrites`, `LeavesOthers`: a read returns the last write of its key, and a write leaves the
  other keys

## Main results

* `Served.kvs`: the state machine after some acknowledged requests
* `readsWrites_iff`: reads return the writes exactly when no key is set
-/

namespace PlacementCenter.Server

open Rust Rust.Program Storage Protocol Openraft

namespace GrpcKvServicesNew

variable {σ ρ : Type}

/-- The end of a write: its entry is proposed, and the response of the group is not looked at. -/
def write (clientWrite : AppRequestData → Program σ (Except String ρ)) (data : AppRequestData) :
    Program σ (Except Status CommonReply) := do
  match ← clientWrite data with
  | .ok _ => return .ok {}
  | .error e => return .error (.cancelled e)

/-- `set`. -/
def set (clientWrite : AppRequestData → Program σ (Except String ρ)) (req : SetRequest) :
    Program σ (Except Status CommonReply) := do
  if req.key = "" ∨ req.value = "" then
    return .error (GrpcKvServices.cancelled (.parameterCannotBeNull "key or value"))
  else
    write clientWrite (.set "k1" "v1")

/-- `delete`. -/
def delete (clientWrite : AppRequestData → Program σ (Except String ρ)) (req : DeleteRequest) :
    Program σ (Except Status CommonReply) := do
  if req.key = "" then
    return .error (GrpcKvServices.cancelled (.parameterCannotBeNull "key"))
  else
    write clientWrite (.delete "k1")

/-- `get`, the same as that of `GrpcKvServices`. -/
def get [RocksDb σ] (req : GetRequest) : Program σ (Except Status GetReply) :=
  GrpcKvServices.get req

end GrpcKvServicesNew

/-! ### Requests -/

/-- The key of a request. -/
def Write.key : Write → String
  | set req => req.key
  | delete req => req.key

/-- What the service proposes for a request. -/
def Write.proposed : Write → AppRequestData
  | set _ => .set "k1" "v1"
  | delete _ => .delete "k1"

/-- What the proposed entry leaves under its key. -/
def Write.left : Write → Option String
  | set _ => some "v1"
  | delete _ => none

/-- The handler of a request. -/
def Write.serve {σ ρ : Type} (clientWrite : AppRequestData → Program σ (Except String ρ)) :
    Write → Program σ (Except Status CommonReply)
  | set req => GrpcKvServicesNew.set clientWrite req
  | delete req => GrpcKvServicesNew.delete clientWrite req

/-- The last request for the key sets it to the value. -/
def LastSet (requests : List Write) (key value : String) : Prop :=
  ∃ pre post, requests = pre ++ Write.set ⟨key, value⟩ :: post ∧ ∀ r ∈ post, r.key ≠ key

/-- **A request is acknowledged** when it passes the check and its proposal returns. -/
theorem Write.serve_ok_iff {σ ρ : Type}
    {clientWrite : AppRequestData → Program σ (Except String ρ)} {r : Write} {s t : σ}
    {reply : CommonReply} :
    Completes (r.serve clientWrite) s (.ok reply) t ↔
      r.Accepted ∧ ∃ response, Completes (clientWrite r.proposed) s (.ok response) t := by
  -- an accepted request is answered once its proposal returned
  have written : ∀ {data : AppRequestData},
      Completes (GrpcKvServicesNew.write clientWrite data) s (.ok reply) t ↔
        ∃ response, Completes (clientWrite data) s (.ok response) t := by
    intro data
    rw [GrpcKvServicesNew.write, completes_bind]
    constructor
    · rintro ⟨_ | response, s', hc, hend⟩
      · cases (completes_pure.mp hend).1
      · obtain ⟨-, rfl⟩ := completes_pure.mp hend
        exact ⟨response, hc⟩
    · rintro ⟨response, hc⟩
      exact ⟨.ok response, t, hc, completes_pure.mpr ⟨rfl, rfl⟩⟩
  have refused : ∀ {e : Status},
      ¬ Completes (pure (.error e) : Program σ (Except Status CommonReply)) s (.ok reply) t :=
    fun hc => by cases (completes_pure.mp hc).1
  cases r with
  | set req =>
    rw [serve, GrpcKvServicesNew.set, Accepted]
    split_ifs with hreq
    · exact ⟨fun hc => absurd hc refused, fun hc => by tauto⟩
    · exact written.trans ⟨fun hc => ⟨not_or.mp hreq, hc⟩, And.right⟩
  | delete req =>
    rw [serve, GrpcKvServicesNew.delete, Accepted]
    split_ifs with hreq
    · exact ⟨fun hc => absurd hc refused, fun hc => absurd hreq hc.1⟩
    · exact written.trans ⟨fun hc => ⟨hreq, hc⟩, And.right⟩

/-! ### Nodes -/

/-- A node: the database that `KvStorage` is on, and the state machine of the group with the memory
that holds its map. -/
structure KvNode (ε ω M : Type) where
  storage : World ε
  memory : Memory ω Kvs
  core : StateMachineStore M

namespace KvNode

variable {ε ω M : Type}

/-- The map of the state machine. -/
def kvs (n : KvNode ε ω M) : Kvs := n.memory.cells n.core.data.kvs

/-- What `get` returns. -/
def get (n : KvNode ε ω M) (key : String) : Outcome (Except Status GetReply) :=
  (GrpcKvServicesNew.get ⟨key⟩ n.storage).1

end KvNode

variable {ε ω M ρ : Type}

/-- The entry is not one of a client. -/
def NotNormal (e : Entry M) : Prop := ∀ data, e.payload ≠ .normal data

/-- **What `client_write` promises**: when it returned, the entry was applied on the node, after
entries that are not of clients. -/
def AppliesWrites
    (clientWrite : AppRequestData → Program (KvNode ε ω M) (Except String ρ)) : Prop :=
  ∀ data n response n', Completes (clientWrite data) n (.ok response) n' →
    n'.storage = n.storage ∧ ∃ es id replies, (∀ e ∈ es, NotNormal e) ∧
      Completes (n.core.apply (es ++ [⟨id, .normal data⟩])) n.memory (replies, n'.core) n'.memory

/-- A node after some acknowledged requests. -/
inductive Served (clientWrite : AppRequestData → Program (KvNode ε ω M) (Except String ρ))
    (start : KvNode ε ω M) : List Write → KvNode ε ω M → Prop where
  | start : Served clientWrite start [] start
  | request {requests n r reply n'} (hr : Served clientWrite start requests n)
      (h : Completes (r.serve clientWrite) n (.ok reply) n') :
      Served clientWrite start (requests ++ [r]) n'

/-- `get` returns the value of the last `set` of its key, and the empty text when there is none. -/
structure ReadsWrites (requests : List Write) (n : KvNode ε ω M) : Prop where
  value : ∀ key v, key ≠ "" → LastSet requests key v → n.get key = .ok (.ok ⟨v⟩)
  empty : ∀ key, key ≠ "" → (∀ v, ¬ LastSet requests key v) → n.get key = .ok (.ok ⟨""⟩)

/-- Another key reads as before, and the state machine holds what it held under it. -/
def LeavesOthers (key : String) (n n' : KvNode ε ω M) : Prop :=
  ∀ k, k ≠ key → n'.get k = n.get k ∧ n'.kvs[k]? = n.kvs[k]?

/-! ### Acknowledged requests -/

theorem replay_of_notNormal {es : List (Entry M)} (h : ∀ e ∈ es, NotNormal e) (kvs : Kvs) :
    replay kvs es = kvs := by
  refine Std.ExtTreeMap.ext_getElem? fun key => ?_
  refine replay_of_forall_not_touches (fun e he ht => ?_) kvs
  rcases ht with ⟨value, hp⟩ | hp
  · exact h e he _ hp
  · exact h e he _ hp

/-- What the proposed entry does to the map. -/
theorem replay_proposed (kvs : Kvs) (id : LogId) (r : Write) :
    replay kvs [(⟨id, .normal r.proposed⟩ : Entry M)] = OrdMap.update kvs ("k1", r.left) := by
  cases r <;> rfl

variable {clientWrite : AppRequestData → Program (KvNode ε ω M) (Except String ρ)}

/-- **One acknowledged request** leaves the database, and updates the one key. -/
theorem serve_effect (hw : AppliesWrites clientWrite) {r : Write} {n n' : KvNode ε ω M}
    {reply : CommonReply} (h : Completes (r.serve clientWrite) n (.ok reply) n') :
    n'.storage = n.storage ∧ n'.kvs = OrdMap.update n.kvs ("k1", r.left) := by
  obtain ⟨-, response, hc⟩ := Write.serve_ok_iff.mp h
  obtain ⟨hs, es, id, replies, hes, happly⟩ := hw _ _ _ _ hc
  refine ⟨hs, ?_⟩
  obtain ⟨hcore, hmem⟩ := (completes_of_run (n.core.apply_run n.memory _)).mp happly
  rw [Prod.mk.injEq] at hcore
  rw [KvNode.kvs, ← hmem, ← hcore.2, StateMachineStore.kvs_advance, Memory.cells_store_self,
    replay_append, replay_of_notNormal hes, replay_proposed]
  rfl

/-- **The state machine after some acknowledged requests** holds one key, and the database is as it
was. -/
theorem Served.kvs (hw : AppliesWrites clientWrite) {start n : KvNode ε ω M}
    {requests : List Write} (h : Served clientWrite start requests n) :
    n.storage = start.storage ∧
      n.kvs = OrdMap.updates start.kvs (requests.map fun r => ("k1", r.left)) := by
  induction h with
  | start => exact ⟨rfl, rfl⟩
  | request _ hr ih =>
    obtain ⟨hs, hk⟩ := serve_effect hw hr
    refine ⟨hs.trans ih.1, ?_⟩
    rw [hk, ih.2, List.map_append, OrdMap.updates_append]
    rfl

/-- The requests that were acknowledged passed the check. -/
theorem Served.accepted {start n : KvNode ε ω M} {requests : List Write}
    (h : Served clientWrite start requests n) : ∀ r ∈ requests, r.Accepted := by
  induction h with
  | start => exact fun r hr => absurd hr List.not_mem_nil
  | request _ hr ih =>
    intro r' hr'
    rcases List.mem_append.mp hr' with hr' | hr'
    · exact ih r' hr'
    · obtain rfl := List.mem_singleton.mp hr'
      exact (Write.serve_ok_iff.mp hr).1

/-- A database without keys reads as empty. -/
theorem get_of_empty {n : KvNode ε ω M} (h : cluster n.storage = ∅) {key : String}
    (hkey : key ≠ "") : n.get key = .ok (.ok ⟨""⟩) := by
  have hnone : kvIn (cluster n.storage) key = .ok none := by
    rw [shows_empty h key]
    simp
  rw [KvNode.get, GrpcKvServicesNew.get, GrpcKvServices.get, if_neg hkey,
    Program.bind_run_ok (KvStorage.get_run n.storage key)]
  rw [cluster] at hnone
  rw [hnone]
  rfl

/-- What a step of the map leaves of the other keys. -/
theorem leavesOthers_iff (hw : AppliesWrites clientWrite) {r : Write} {n n' : KvNode ε ω M}
    {reply : CommonReply} (h : Completes (r.serve clientWrite) n (.ok reply) n') :
    LeavesOthers r.key n n' ↔ r.key = "k1" ∨ n.kvs["k1"]? = r.left := by
  obtain ⟨hs, hk⟩ := serve_effect hw h
  -- whatever is requested, the key that is proposed is `k1`
  have hself : n'.kvs["k1"]? = r.left := by
    rw [hk]
    exact OrdMap.lookup_update_self _ ("k1", r.left)
  constructor
  · intro hl
    refine or_iff_not_imp_left.mpr fun hne => ?_
    rw [← (hl "k1" (Ne.symm hne)).2, hself]
  · intro hc k hne
    refine ⟨by rw [KvNode.get, KvNode.get, hs], ?_⟩
    by_cases hk1 : "k1" = k
    · subst hk1
      rw [hself]
      exact (hc.resolve_left hne.symm).symm
    · rw [hk]
      exact OrdMap.lookup_update_ne _ hk1

/-- **Reads return the writes** exactly when no key is set, and a write leaves the other keys
exactly when it is for the one key that is proposed, or finds it as it leaves it. -/
theorem readsWrites_iff (hw : AppliesWrites clientWrite) {start n : KvNode ε ω M}
    (hstart : cluster start.storage = ∅) {requests : List Write}
    (h : Served clientWrite start requests n) :
    (ReadsWrites requests n ↔ ∀ key v, ¬ LastSet requests key v) ∧
      ∀ (r : Write) reply n', Completes (r.serve clientWrite) n (.ok reply) n' →
        (LeavesOthers r.key n n' ↔ r.key = "k1" ∨ n.kvs["k1"]? = r.left) := by
  have hempty : cluster n.storage = ∅ := by
    rw [(h.kvs hw).1]
    exact hstart
  refine ⟨⟨fun hreads key v hset => ?_, fun hnone => ⟨?_, ?_⟩⟩, fun r reply n' hr => ?_⟩
  · -- a set that was acknowledged has a key and a value, which the database does not hold
    have hmem : Write.set ⟨key, v⟩ ∈ requests := by
      obtain ⟨pre, post, rfl, -⟩ := hset
      simp
    obtain ⟨hkey, hv⟩ := h.accepted _ hmem
    have hget := hreads.value key v hkey hset
    rw [get_of_empty hempty hkey] at hget
    cases hget
    exact hv rfl
  · intro key v _ hset
    exact absurd hset (hnone key v)
  · intro key hkey _
    exact get_of_empty hempty hkey
  · exact leavesOthers_iff hw hr

/-! ### A group of one node -/

/-- The id of the next entry in a group of one node. -/
def nextLogId (core : StateMachineStore Unit) : LogId :=
  match core.data.lastAppliedLogId with
  | some logId => { logId with index := logId.index + 1 }
  | none => ⟨⟨1, 1⟩, 1⟩

/-- The proposal in a group of one node, which applies an entry at once. -/
def loneWrite (data : AppRequestData) : Program (KvNode Empty Unit Unit) (Except String Unit) :=
  fun n =>
    match n.core.apply [⟨nextLogId n.core, .normal data⟩] n.memory with
    | (.ok (_, core), memory) => (.ok (.ok ()), { n with core, memory })
    | (.panicked m, memory) => (.panicked m, { n with memory })

/-- A new node. -/
def loneNode : KvNode Empty Unit Unit where
  storage := World.empty
  memory := ⟨(), fun _ => ∅, 1⟩
  core := ⟨⟨none, ⟨none, ()⟩, ⟨0⟩⟩, 0⟩

theorem appliesWrites_loneWrite : AppliesWrites loneWrite := by
  intro data n response n' h
  unfold Completes loneWrite at h
  rw [StateMachineStore.apply_run] at h
  simp only [Prod.mk.injEq] at h
  obtain ⟨-, rfl⟩ := h
  exact ⟨rfl, [], nextLogId n.core, _, fun e he => absurd he List.not_mem_nil,
    StateMachineStore.apply_run n.core n.memory _⟩

/-- A lone node acknowledges every request that passes the check. -/
theorem serve_lone {r : Write} (h : r.Accepted) (n : KvNode Empty Unit Unit) :
    Completes (r.serve loneWrite) n (.ok {}) (loneWrite r.proposed n).2 := by
  refine Write.serve_ok_iff.mpr ⟨h, (), ?_⟩
  unfold Completes loneWrite
  rw [StateMachineStore.apply_run]

/-- An acknowledged write that is not read, and that changed another key. -/
theorem set_not_read :
    ∃ n, Served loneWrite loneNode [.set ⟨"a", "b"⟩] n ∧ LastSet [.set ⟨"a", "b"⟩] "a" "b" ∧
      n.get "a" = .ok (.ok ⟨""⟩) ∧ ¬ ReadsWrites [.set ⟨"a", "b"⟩] n ∧
      n.kvs.toList = [("k1", "v1")] ∧ ¬ LeavesOthers "a" loneNode n := by
  have hserved : Served loneWrite loneNode [.set ⟨"a", "b"⟩]
      (loneWrite (.set "k1" "v1") loneNode).2 :=
    Served.start.request (serve_lone (r := .set ⟨"a", "b"⟩) ⟨by decide, by decide⟩ loneNode)
  have hlast : LastSet [.set ⟨"a", "b"⟩] "a" "b" := ⟨[], [], rfl, by simp⟩
  have hget : KvNode.get (loneWrite (.set "k1" "v1") loneNode).2 "a" = .ok (.ok ⟨""⟩) := by
    decide +kernel
  refine ⟨_, hserved, hlast, hget, fun hr => ?_, ?_, fun hl => ?_⟩
  · have hb := hr.value "a" "b" (by decide) hlast
    rw [hget] at hb
    exact absurd hb (by decide)
  · decide +kernel
  · have hk := (hl "k1" (by decide)).2
    revert hk
    decide +kernel

/-- The rule on a history that ends with a deletion. -/
theorem readsWrites_iff_of_deleted :
    ∃ n, Served loneWrite loneNode [.set ⟨"k1", "v1"⟩, .delete ⟨"k1"⟩] n ∧
      ((ReadsWrites [.set ⟨"k1", "v1"⟩, .delete ⟨"k1"⟩] n ↔
          ∀ key v, ¬ LastSet [.set ⟨"k1", "v1"⟩, .delete ⟨"k1"⟩] key v) ∧
        ∀ (r : Write) reply n', Completes (r.serve loneWrite) n (.ok reply) n' →
          (LeavesOthers r.key n n' ↔ r.key = "k1" ∨ n.kvs["k1"]? = r.left)) := by
  have hset : Served loneWrite loneNode [.set ⟨"k1", "v1"⟩] _ :=
    Served.start.request (serve_lone (r := .set ⟨"k1", "v1"⟩) ⟨by decide, by decide⟩ loneNode)
  have hserved : Served loneWrite loneNode [.set ⟨"k1", "v1"⟩, .delete ⟨"k1"⟩] _ :=
    hset.request (serve_lone (r := .delete ⟨"k1"⟩) (show "k1" ≠ "" by decide) _)
  exact ⟨_, hserved, readsWrites_iff appliesWrites_loneWrite rfl hserved⟩

end PlacementCenter.Server
