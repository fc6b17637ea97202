import Mathlib.Algebra.Order.BigOperators.Group.Finset
import PlacementCenter.Common.Errors
import PlacementCenter.Rust.Collections

/-!
# Pools of connections

The callers of a client pool share, for each service, a map from the addresses to the pools of their
connections. A caller looks whether its address has a pool, inserts one if not, and looks the pool
up again to ask it for a connection. Each of these is one step, and other callers may step in
between.

## Main definitions

* `ClientPool`: the pools, their connections, and the callers
* `Step`: a step of a caller or of a pool
* `OnePool s`: no address has more than one pool, nor more connections than one pool opens
* `Unraced s e`: a step that does not insert over a pool that another caller has inserted

## Main results

* `poolAt_insertPool`: what an insertion changes
* `Traced.step`, `Current.step`: where pools and connections come from, and that no pool is lost
* `onePool_of_run`: a run without such a race keeps to one pool, and the first race does not
-/

namespace PlacementCenter.Placement

open Rust

inductive PlacementCenterService where
  | kv
  | openRaft
  deriving DecidableEq, Repr

/-- The name of a service in its keys and errors. -/
def PlacementCenterService.module : PlacementCenterService → String
  | kv => "KvServices"
  | openRaft => "OpenRaftServices"

/-- What a caller asks a connection to: a service at an address. -/
structure Target where
  service : PlacementCenterService
  addr : String
  deriving DecidableEq, Repr

/-- The key of a pool. -/
def Target.key (target : Target) : String :=
  "PlacementCenter" ++ "_" ++ target.service.module ++ "_" ++ target.addr

/-- A pool, by its place in the order in which pools were inserted. -/
abbrev PoolId := ℕ

/-- Where a caller is: before `contains_key`, before `insert`, before `get`, or waiting for a
connection of the pool it got. -/
inductive Point where
  | check
  | build
  | look
  | wait (pool : PoolId)
  deriving DecidableEq, Repr

/-- A call of `placement_center_kv_services_client` or `placement_center_openraft_services_client`.
-/
structure Call where
  target : Target
  point : Point
  deriving DecidableEq, Repr

/-- The pools by service and key, and the callers. A connection is given by its pool. -/
structure ClientPool where
  maxOpenConnection : UInt64
  pools : PlacementCenterService → HashMap String PoolId
  /-- The targets of all pools ever inserted, in order. -/
  inserted : List Target
  /-- The number of open connections of a pool. -/
  opened : PoolId → ℕ
  callers : ℕ → Option Call
  /-- What the calls returned. -/
  returned : List (Target × Except RobustMQError PoolId)

namespace ClientPool

def new (maxOpenConnection : UInt64) : ClientPool where
  maxOpenConnection
  pools _ := ∅
  inserted := []
  opened _ := 0
  callers _ := none
  returned := []

variable (s : ClientPool)

/-- The pool in the map of a service, under the key of the target. -/
def poolAt (target : Target) : Option PoolId := (s.pools target.service)[target.key]?

def setCaller (i : ℕ) (call : Option Call) : ClientPool :=
  { s with callers := Function.update s.callers i call }

/-- A new pool replaces the one that is under the key of the target, if there is one. -/
def insertPool (target : Target) : ClientPool :=
  { s with
    pools := Function.update s.pools target.service
      ((s.pools target.service).insert target.key s.inserted.length)
    inserted := s.inserted ++ [target] }

def setOpened (pool : PoolId) (n : ℕ) : ClientPool :=
  { s with opened := Function.update s.opened pool n }

/-- A call returns. -/
def finish (i : ℕ) (target : Target) (result : Except RobustMQError PoolId) : ClientPool :=
  { s.setCaller i none with returned := (target, result) :: s.returned }

end ClientPool

/-- The steps of the callers, by their numbers, and of the pools. -/
inductive Event where
  | call (i : ℕ) (target : Target)
  | containsKey (i : ℕ)
  | insert (i : ℕ)
  | get (i : ℕ)
  | connect (i : ℕ)
  | refuse (i : ℕ) (reason : String)
  | openConnection (pool : PoolId)
  | closeConnection (pool : PoolId)

/-- A step. A pool opens connections up to its limit, and hands out open ones. -/
inductive Step (s : ClientPool) : Event → ClientPool → Prop where
  | call {i target} (h : s.callers i = none) :
    Step s (.call i target) (s.setCaller i (some ⟨target, .check⟩))
  | containsKey {i target} (h : s.callers i = some ⟨target, .check⟩) :
    Step s (.containsKey i)
      (s.setCaller i (some ⟨target, if (s.poolAt target).isSome then .look else .build⟩))
  -- another caller may have inserted a pool since the check
  | insert {i target} (h : s.callers i = some ⟨target, .build⟩) :
    Step s (.insert i) ((s.insertPool target).setCaller i (some ⟨target, .look⟩))
  | get {i target pool} (h : s.callers i = some ⟨target, .look⟩)
    (hp : s.poolAt target = some pool) :
    Step s (.get i) (s.setCaller i (some ⟨target, .wait pool⟩))
  | getNone {i target} (h : s.callers i = some ⟨target, .look⟩) (hp : s.poolAt target = none) :
    Step s (.get i) (s.finish i target (.error
      (.noAvailableGrpcConnection target.service.module "connection pool is not initialized")))
  | connect {i target pool} (h : s.callers i = some ⟨target, .wait pool⟩) (ho : 0 < s.opened pool) :
    Step s (.connect i) (s.finish i target (.ok pool))
  | refuse {i target pool reason} (h : s.callers i = some ⟨target, .wait pool⟩) :
    Step s (.refuse i reason) (s.finish i target (.error
      (.noAvailableGrpcConnection target.service.module reason)))
  | openConnection {pool} (hp : pool < s.inserted.length)
    (ho : s.opened pool < s.maxOpenConnection.toNat) :
    Step s (.openConnection pool) (s.setOpened pool (s.opened pool + 1))
  | closeConnection {pool} (ho : 0 < s.opened pool) :
    Step s (.closeConnection pool) (s.setOpened pool (s.opened pool - 1))

/-- A run in which every step meets the condition `C`. -/
inductive PoolRun (C : ClientPool → Event → Prop) (start : ClientPool) : ClientPool → Prop where
  | start : PoolRun C start start
  | step {s s' e} (hr : PoolRun C start s) (hC : C s e) (h : Step s e s') : PoolRun C start s'

/-- The open connections to a target, of all the pools that were inserted for it. -/
def openTo (s : ClientPool) (target : Target) : ℕ :=
  ∑ pool ∈ (Finset.range s.inserted.length).filter (fun pool => s.inserted[pool]? = some target),
    s.opened pool

/-- At most one pool was inserted for a target, every connection to the target is of that pool, and
no more connections are open than a pool opens. -/
structure OnePool (s : ClientPool) : Prop where
  one_inserted {target : Target} {pool pool' : PoolId} (h : s.inserted[pool]? = some target)
    (h' : s.inserted[pool']? = some target) : pool = pool'
  obtained {target : Target} {pool : PoolId} (h : (target, .ok pool) ∈ s.returned) :
    s.inserted[pool]? = some target
  openTo_le : ∀ target, openTo s target ≤ s.maxOpenConnection.toNat

/-- A caller does not insert over a pool: no other one has inserted a pool for its target since it
found none. -/
def Unraced (s : ClientPool) : Event → Prop
  | .insert i => ∀ target, s.callers i = some ⟨target, .build⟩ → s.poolAt target = none
  | _ => True

/-! ### The pools of a step -/

variable {s s' : ClientPool} {e : Event} {target target' : Target} {pool : PoolId} {i : ℕ}

/-- The key of a target is that of no other target of the service. -/
theorem key_inj (hs : target.service = target'.service) :
    target.key = target'.key ↔ target = target' := by
  obtain ⟨service, addr⟩ := target
  obtain ⟨service', addr'⟩ := target'
  obtain rfl : service = service' := hs
  have hkey : Target.key ⟨service, addr⟩ = Target.key ⟨service, addr'⟩ ↔ addr = addr' :=
    String.append_right_inj _
  rw [hkey, Target.mk.injEq, eq_self, true_and]

/-- **An insertion** puts the new pool under its target, and leaves the others. -/
theorem poolAt_insertPool : (s.insertPool target).poolAt target' =
    if target = target' then some s.inserted.length else s.poolAt target' := by
  rw [ClientPool.poolAt, ClientPool.insertPool]
  dsimp only
  by_cases hs : target.service = target'.service
  · rw [← hs, Function.update_self, OrdMap.lookup_insert]
    simp only [key_inj hs]
    rw [ClientPool.poolAt, hs]
  · have hne : target ≠ target' := fun h => hs (congrArg Target.service h)
    rw [Function.update_of_ne (Ne.symm hs), if_neg hne, ClientPool.poolAt]

/-- After an insertion, the caller's own lookup finds its pool. -/
theorem poolAt_insertPool_setCaller {call : Option Call} :
    ((s.insertPool target).setCaller i call).poolAt target = some s.inserted.length :=
  poolAt_insertPool.trans (if_pos rfl)

/-- What a step does to the pools: nothing, unless it inserts one. -/
theorem Step.pools_cases (h : Step s e s') :
    (s'.inserted = s.inserted ∧ ∀ target, s'.poolAt target = s.poolAt target) ∨
      ∃ i target, e = .insert i ∧ s.callers i = some ⟨target, .build⟩ ∧
        s'.inserted = s.inserted ++ [target] ∧
        ∀ target', s'.poolAt target' = (s.insertPool target).poolAt target' := by
  cases h with
  | insert h => exact .inr ⟨_, _, rfl, h, rfl, fun _ => rfl⟩
  | _ => exact .inl ⟨rfl, fun _ => rfl⟩

theorem Step.inserted_of_mem (h : Step s e s') (hpool : s.inserted[pool]? = some target) :
    s'.inserted[pool]? = some target := by
  obtain ⟨hins, -⟩ | ⟨_, _, -, -, hins, -⟩ := h.pools_cases
  · rw [hins, hpool]
  · rw [hins, List.getElem?_append_left (List.getElem?_eq_some_iff.mp hpool).1, hpool]

/-- A caller that waits for a connection has got the pool of its target. -/
theorem Step.wait_cases (h : Step s e s') (hw : s'.callers i = some ⟨target, .wait pool⟩) :
    s.callers i = some ⟨target, .wait pool⟩ ∨ s.poolAt target = some pool := by
  cases h with
  | get h hp =>
    simp only [ClientPool.setCaller, Function.update_apply] at hw
    split at hw
    · cases hw
      exact .inr hp
    · exact .inl hw
  | call | containsKey | insert | getNone | connect | refuse =>
    -- the caller that steps is not waiting after the step
    simp only [ClientPool.setCaller, ClientPool.finish, Function.update_apply] at hw
    split at hw
    · grind
    · exact .inl hw
  | openConnection | closeConnection => exact .inl hw

/-- A returned connection is of the pool that the caller waited for. -/
theorem Step.returned_cases (h : Step s e s') (hr : (target, .ok pool) ∈ s'.returned) :
    (target, .ok pool) ∈ s.returned ∨ ∃ i, s.callers i = some ⟨target, .wait pool⟩ := by
  cases h with
  | connect h =>
    obtain heq | hr := List.mem_cons.mp hr
    · cases heq
      exact .inr ⟨_, h⟩
    · exact .inl hr
  | getNone | refuse =>
    obtain heq | hr := List.mem_cons.mp hr
    · cases heq
    · exact .inl hr
  | _ => exact .inl hr

theorem Step.opened_le (h : Step s e s') (ho : s.opened pool ≤ s.maxOpenConnection.toNat) :
    s'.opened pool ≤ s.maxOpenConnection.toNat := by
  cases h with
  | openConnection | closeConnection =>
    simp only [ClientPool.setOpened, Function.update_apply]
    split <;> grind
  | _ => exact ho

theorem Step.maxOpenConnection_eq (h : Step s e s') :
    s'.maxOpenConnection = s.maxOpenConnection := by
  cases h <;> rfl

/-! ### Where pools and connections come from -/

/-- The pools in the maps, the pools that callers wait for and those of the returned connections
were inserted for their targets, and no pool has more connections than it opens. -/
structure Traced (s : ClientPool) : Prop where
  pooled {target : Target} {pool : PoolId} (h : s.poolAt target = some pool) :
    s.inserted[pool]? = some target
  waiting {i : ℕ} {target : Target} {pool : PoolId}
    (h : s.callers i = some ⟨target, .wait pool⟩) : s.inserted[pool]? = some target
  returned {target : Target} {pool : PoolId} (h : (target, .ok pool) ∈ s.returned) :
    s.inserted[pool]? = some target
  opened (pool : PoolId) : s.opened pool ≤ s.maxOpenConnection.toNat

theorem Traced.new {n : UInt64} : Traced (.new n) where
  pooled h := nomatch h
  waiting h := nomatch h
  returned h := nomatch h
  opened _ := Nat.zero_le _

/-- **Every step keeps the traces**, whatever the other callers do. -/
theorem Traced.step (ht : Traced s) (h : Step s e s') : Traced s' where
  pooled {target pool} hpool := by
    obtain ⟨-, hpools⟩ | ⟨_, target', -, -, hins, hpools⟩ := h.pools_cases
    · exact h.inserted_of_mem (ht.pooled (hpools target ▸ hpool))
    · rw [hpools, poolAt_insertPool] at hpool
      split at hpool
      next heq =>
        obtain rfl := Option.some.inj hpool
        rw [hins, heq, List.getElem?_concat_length]
      next => exact h.inserted_of_mem (ht.pooled hpool)
  waiting hw := by
    obtain hw | hpool := h.wait_cases hw
    · exact h.inserted_of_mem (ht.waiting hw)
    · exact h.inserted_of_mem (ht.pooled hpool)
  returned hr := by
    obtain hr | ⟨i, hw⟩ := h.returned_cases hr
    · exact h.inserted_of_mem (ht.returned hr)
    · exact h.inserted_of_mem (ht.waiting hw)
  opened pool := by
    rw [h.maxOpenConnection_eq]
    exact h.opened_le (ht.opened pool)

/-- Every pool that was inserted is still in the maps. -/
def Current (s : ClientPool) : Prop :=
  ∀ ⦃target pool⦄, s.inserted[pool]? = some target → s.poolAt target = some pool

/-- **A step without a race** loses no pool. -/
theorem Current.step (hc : Current s) (hu : Unraced s e) (h : Step s e s') : Current s' := by
  intro target pool hpool
  obtain ⟨hins, hpools⟩ | ⟨i, target', rfl, hi, hins, hpools⟩ := h.pools_cases
  · rw [hpools]
    exact hc (hins ▸ hpool)
  · have hnone : s.poolAt target' = none := hu target' hi
    rw [hpools, poolAt_insertPool]
    rw [hins, List.getElem?_append] at hpool
    split at hpool
    next hlt =>
      -- a pool of an earlier insertion: its target is not the one without a pool
      have hold : s.poolAt target = some pool := hc hpool
      rw [if_neg (by rintro rfl; exact absurd hold (by simp [hnone])), hold]
    next hge =>
      obtain ⟨heq, rfl⟩ : pool = s.inserted.length ∧ target' = target := by grind
      rw [if_pos rfl, heq]

/-- Traced pools of which none was lost are one for each target. -/
theorem OnePool.of_current (ht : Traced s) (hc : Current s) : OnePool s := by
  have hone {target : Target} {pool pool' : PoolId} (h : s.inserted[pool]? = some target)
      (h' : s.inserted[pool']? = some target) : pool = pool' :=
    Option.some.inj ((hc h).symm.trans (hc h'))
  refine ⟨hone, ht.returned, fun target => ?_⟩
  have hcard : ((Finset.range s.inserted.length).filter
      fun pool => s.inserted[pool]? = some target).card ≤ 1 := by
    rw [Finset.card_le_one]
    intro pool h pool' h'
    exact hone (Finset.mem_filter.mp h).2 (Finset.mem_filter.mp h').2
  calc openTo s target
      ≤ _ • s.maxOpenConnection.toNat := Finset.sum_le_card_nsmul _ _ _ fun pool _ => ht.opened pool
    _ ≤ 1 • s.maxOpenConnection.toNat := Nat.mul_le_mul_right _ hcard
    _ = s.maxOpenConnection.toNat := one_nsmul _

/-! ### Runs -/

/-- In any run, pools and connections are traced. -/
theorem traced_of_run {C : ClientPool → Event → Prop} {n : UInt64} (hr : PoolRun C (.new n) s) :
    Traced s := by
  induction hr with
  | start => exact .new
  | step _ _ h ih => exact ih.step h

/-- A run without a race loses no pool. -/
theorem current_of_run {n : UInt64} (hr : PoolRun Unraced (.new n) s) : Current s := by
  induction hr with
  | start => exact fun _ _ h => nomatch h
  | step _ hu h ih => exact ih.step hu h

/-- **A race inserts a second pool** for its target. -/
theorem not_onePool_of_race (ht : Traced s) (hu : ¬ Unraced s e) (h : Step s e s') :
    ¬ OnePool s' := by
  intro hone
  cases h with
  | @insert i target h =>
    refine hu fun target' h' => ?_
    obtain rfl : target = target' := by simpa using h.symm.trans h'
    by_contra hpool
    obtain ⟨pool, hpool⟩ := Option.ne_none_iff_exists'.mp hpool
    have hlt : pool < s.inserted.length := (List.getElem?_eq_some_iff.mp (ht.pooled hpool)).1
    have hold : (s.inserted ++ [target])[pool]? = some target := by
      rw [List.getElem?_append_left hlt, ht.pooled hpool]
    exact hlt.ne (hone.one_inserted hold List.getElem?_concat_length)
  | _ => exact hu trivial

/-- **One pool for an address.** In every run in which no caller inserts over the pool that another
one has inserted since it found none, each address has one pool, of which all its connections are,
and the first step that does insert over a pool ends this. -/
theorem onePool_of_run {n : UInt64} (hr : PoolRun Unraced (.new n) s) :
    OnePool s ∧ ∀ e s', Step s e s' → (OnePool s' ↔ Unraced s e) := by
  have ht : Traced s := traced_of_run hr
  have hc : Current s := current_of_run hr
  refine ⟨.of_current ht hc, fun e s' h => ⟨fun hone => ?_, fun hu => ?_⟩⟩
  · by_contra hu
    exact not_onePool_of_race ht hu h hone
  · exact .of_current (ht.step h) (hc.step hu h)

/-- Two calls for one address, the second after the first has returned. -/
theorem onePool_of_run_calls : ∃ s : ClientPool, PoolRun Unraced (.new 1) s ∧
    s.returned = [(⟨.kv, "127.0.0.1:1228"⟩, .ok 0), (⟨.kv, "127.0.0.1:1228"⟩, .ok 0)] ∧
    OnePool s ∧ ∀ e s', Step s e s' → (OnePool s' ↔ Unraced s e) := by
  have run : PoolRun Unraced (.new 1) _ := PoolRun.start
    |>.step (e := .call 0 ⟨.kv, "127.0.0.1:1228"⟩) trivial (.call rfl)
    |>.step (e := .containsKey 0) trivial (.containsKey rfl)
    |>.step (e := .insert 0) (fun _ _ => rfl) (.insert rfl)
    |>.step (e := .get 0) trivial (.get rfl poolAt_insertPool_setCaller)
    |>.step (e := .openConnection 0) trivial (.openConnection (by decide) (by decide))
    |>.step (e := .connect 0) trivial (.connect rfl (by decide))
    |>.step (e := .call 1 ⟨.kv, "127.0.0.1:1228"⟩) trivial (.call rfl)
    |>.step (e := .containsKey 1) trivial (.containsKey rfl)
    |>.step (e := .get 1) trivial (.get rfl (poolAt_insertPool.trans (if_pos rfl)))
    |>.step (e := .connect 1) trivial (.connect rfl (by decide))
  exact ⟨_, run, rfl, onePool_of_run run⟩

/-- Two callers look for a pool before either has inserted one. The second inserts over the first's
pool, whose connection stays open: two connections are open where a pool opens one. -/
theorem second_pool_inserted : ∃ s : ClientPool, PoolRun (fun _ _ => True) (.new 1) s ∧
    s.returned = [(⟨.kv, "127.0.0.1:1228"⟩, .ok 1), (⟨.kv, "127.0.0.1:1228"⟩, .ok 0)] ∧
    openTo s ⟨.kv, "127.0.0.1:1228"⟩ = 2 ∧ ¬ OnePool s := by
  have run : PoolRun (fun _ _ => True) (.new 1) _ := PoolRun.start
    |>.step (e := .call 0 ⟨.kv, "127.0.0.1:1228"⟩) trivial (.call rfl)
    |>.step (e := .call 1 ⟨.kv, "127.0.0.1:1228"⟩) trivial (.call rfl)
    |>.step (e := .containsKey 0) trivial (.containsKey rfl)
    |>.step (e := .containsKey 1) trivial (.containsKey rfl)
    |>.step (e := .insert 0) trivial (.insert rfl)
    |>.step (e := .get 0) trivial (.get rfl poolAt_insertPool_setCaller)
    |>.step (e := .openConnection 0) trivial (.openConnection (by decide) (by decide))
    |>.step (e := .connect 0) trivial (.connect rfl (by decide))
    |>.step (e := .insert 1) trivial (.insert rfl)
    |>.step (e := .get 1) trivial (.get rfl poolAt_insertPool_setCaller)
    |>.step (e := .openConnection 1) trivial (.openConnection (by decide) (by decide))
    |>.step (e := .connect 1) trivial (.connect rfl (by decide))
  refine ⟨_, run, rfl, rfl, fun hone => ?_⟩
  exact absurd (hone.openTo_le ⟨.kv, "127.0.0.1:1228"⟩) Nat.one_lt_two.not_ge

end PlacementCenter.Placement
