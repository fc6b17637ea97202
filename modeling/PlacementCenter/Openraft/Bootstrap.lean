import PlacementCenter.Server.NodeAddresses

/-!
# The start of the openraft cluster

Every process of the cluster runs `start_openraft_node` whenever it comes up. All of them read one
table of nodes, each with an id of its own. Processes come up any number of times and in any order,
openraft may fail to answer, and a node that was not set up may be contacted by one that was.

## Main definitions

* `RaftState`: what is visible of the raft of a node
* `RaftHandle.Lawful view raft`: what openraft documents of its two operations
* `Bootstrap.Step`, `Bootstrap.Run`: the starts of the processes
* `Bootstrap.SetUpOnce`: what is promised of them

## Main results

* `calcInitNode_eq_some`: the node that sets up the cluster has the lowest id
* `startOpenraftNode_setUps`: what one start does
* `setUpOnce_of_run`: **the cluster is set up at most once**, with the configured nodes
-/

namespace PlacementCenter.Openraft.RaftNode

open Rust Program Server

/-! ### The raft of a node -/

/-- What is visible of the raft of a node: whether it has a log or a vote, and the members it was
set up with, call by call. -/
structure RaftState where
  initialized : Bool
  setUps : List (BTreeMap UInt64 Node)

/-- The members are stored once, in a raft that has no log and no vote, or not at all. -/
def RaftState.Stored (nodes : BTreeMap UInt64 Node) (s t : RaftState) : Prop :=
  t = s ∨ s.initialized = false ∧ t = ⟨true, s.setUps ++ [nodes]⟩

/-- What openraft documents of the operations of a raft. Both may fail at any time, and the members
may be stored although an error is returned. -/
structure RaftHandle.Lawful {σ : Type} (view : σ → RaftState) (raft : RaftHandle σ) : Prop where
  isInitialized : ∀ s, Meets raft.isInitialized s
    (fun r t => view t = view s ∧ ∀ flag, r = .ok flag → flag = (view s).initialized)
    fun t => view t = view s
  initializeWith : ∀ nodes s, Meets (raft.initializeWith nodes) s
    (fun r t => (view s).Stored nodes (view t) ∧ (r = .ok () → (view t).initialized = true))
    fun t => (view s).Stored nodes (view t)

/-! ### The node that sets up the cluster -/

theorem mem_sortedKeys {nodes : BTreeMap UInt64 Node} {id : UInt64} :
    id ∈ nodes.keys.mergeSort (fun a b => decide (a ≤ b)) ↔ id ∈ nodes :=
  List.mem_mergeSort.trans Std.ExtTreeMap.mem_keys

theorem pairwise_sortedKeys (nodes : BTreeMap UInt64 Node) :
    (nodes.keys.mergeSort fun a b => decide (a ≤ b)).Pairwise (· ≤ ·) := by
  have htrans : ∀ a b c : UInt64, decide (a ≤ b) → decide (b ≤ c) → decide (a ≤ c) := by
    intro a b c hab hbc
    rw [decide_eq_true_eq] at hab hbc ⊢
    exact UInt64.le_trans hab hbc
  have htotal : ∀ a b : UInt64, decide (a ≤ b) || decide (b ≤ a) := by
    intro a b
    rw [Bool.or_eq_true, decide_eq_true_eq, decide_eq_true_eq]
    exact UInt64.le_total a b
  exact (List.pairwise_mergeSort htrans htotal _).imp of_decide_eq_true

/-- **The lowest id.** -/
theorem calcInitNode_eq_some {nodes : BTreeMap UInt64 Node} {id : UInt64}
    (h : calcInitNode nodes = some id) : id ∈ nodes ∧ ∀ id' ∈ nodes, id ≤ id' := by
  have hsorted := pairwise_sortedKeys nodes
  obtain ⟨rest, hrest⟩ := List.head?_eq_some_iff.mp h
  rw [hrest] at hsorted
  refine ⟨mem_sortedKeys.mp (hrest ▸ List.mem_cons_self), fun id' hid' => ?_⟩
  have hmem := mem_sortedKeys.mpr hid'
  rw [hrest] at hmem
  rcases List.mem_cons.mp hmem with rfl | hmem
  · exact UInt64.le_refl _
  · exact (List.pairwise_cons.mp hsorted).1 id' hmem

theorem calcInitNode_of_lowest {nodes : BTreeMap UInt64 Node} {id : UInt64} (hid : id ∈ nodes)
    (hlowest : ∀ id' ∈ nodes, id ≤ id') : calcInitNode nodes = some id := by
  cases hfirst : calcInitNode nodes with
  | none =>
    have hmem := mem_sortedKeys.mpr hid
    rw [List.head?_eq_none_iff.mp hfirst] at hmem
    cases hmem
  | some first =>
    obtain ⟨hmem, hle⟩ := calcInitNode_eq_some hfirst
    exact congrArg some (UInt64.le_antisymm (hle id hid) (hlowest first hmem))

/-! ### A start -/

variable {V σ : Type} [TomlValue V] {view : σ → RaftState} {raft : RaftHandle σ}

/-- The node with the lowest id sets up a raft that was not set up, with the members that it
reads. -/
def SetsUp (conf : PlacementCenterConfig V) (s t : RaftState) : Prop :=
  ∃ nodes, raftNodes conf = some nodes ∧ calcInitNode nodes = some conf.nodeId ∧
    s.initialized = false ∧ t = ⟨true, s.setUps ++ [nodes]⟩

/-- **What a start does**: nothing, or it sets up the raft. -/
theorem startOpenraftNode_setUps (hraft : raft.Lawful view) (conf : PlacementCenterConfig V)
    (s : σ) : view (startOpenraftNode raft conf s).2 = view s ∨
      SetsUp conf (view s) (view (startOpenraftNode raft conf s).2) := by
  refine Meets.of_run (R := fun t => view t = view s ∨ SetsUp conf (view s) (view t)) ?_
  unfold startOpenraftNode
  rw [meets_bind]
  cases hnodes : raftNodes conf with
  | none => exact .inl rfl
  | some nodes =>
    apply meets_bind.mpr
    cases hfirst : calcInitNode nodes with
    | none => exact .inl rfl
    | some first =>
      show Meets (if first = conf.nodeId then _ else _) s _ _
      split_ifs with hid
      · -- only here the raft is asked
        apply meets_bind.mpr
        refine (hraft.isInitialized s).mono (fun r t ht => ?_) fun t ht => .inl ht
        rcases r with e | flag
        · exact .inl ht.1
        · cases flag with
          | true => exact .inl ht.1
          | false =>
            -- `initialize` may fail after it stored the members
            have stored : ∀ u, (view t).Stored nodes (view u) →
                view u = view s ∨ SetsUp conf (view s) (view u) := by
              intro u hu
              rw [ht.1] at hu
              exact hu.imp_right fun hu => ⟨nodes, hnodes, hid ▸ hfirst, hu⟩
            apply meets_bind.mpr
            refine (hraft.initializeWith nodes t).mono (fun r u hu => ?_) stored
            cases r with
            | ok _ => exact stored u hu.1
            | error _ => exact stored u hu.1
      · exact .inl rfl

/-- The node with the lowest id asks a raft that is not set up for that. -/
theorem startOpenraftNode_first {conf : PlacementCenterConfig V} {nodes : BTreeMap UInt64 Node}
    {s : σ} (hnodes : raftNodes conf = some nodes) (hfirst : calcInitNode nodes = some conf.nodeId)
    (hflag : raft.isInitialized s = (.ok (.ok false), s)) :
    (startOpenraftNode raft conf s).2 = (raft.initializeWith nodes s).2 := by
  unfold startOpenraftNode
  rw [hnodes, unwrapOk_some, pure_bind, hfirst, unwrap_some, pure_bind, if_pos rfl,
    bind_run_ok hflag]
  change ((raft.initializeWith nodes >>= _) s).2 = _
  rw [bind_run]
  rcases raft.initializeWith nodes s with ⟨(_ | _) | _, t⟩
  · rfl
  · rfl
  · rfl

/-- **A start of the node with the lowest id** that returns leaves its raft set up. -/
theorem initialized_of_completes (hraft : raft.Lawful view) {conf : PlacementCenterConfig V}
    {s t : σ} {nodes : BTreeMap UInt64 Node} (hnodes : raftNodes conf = some nodes)
    (hfirst : calcInitNode nodes = some conf.nodeId)
    (h : Completes (startOpenraftNode raft conf) s () t) : (view t).initialized = true := by
  obtain ⟨nodes', first, hnodes', hfirst', hcase⟩ := completes_startOpenraftNode.mp h
  obtain rfl := Option.some.inj (hnodes.symm.trans hnodes')
  obtain rfl := Option.some.inj (hfirst.symm.trans hfirst')
  rcases hcase with ⟨hne, -⟩ | ⟨-, hflag | ⟨r, -, hsetUp⟩⟩
  · exact absurd rfl hne
  · obtain ⟨hview, htrue⟩ := (hraft.isInitialized s).of_completes hflag
    rw [hview]
    exact (htrue true rfl).symm
  · exact ((hraft.initializeWith nodes r).of_completes hsetUp).2 rfl

/-! ### The cluster -/

section Cluster

variable {ι : Type} [DecidableEq ι] (view : σ → RaftState)
  (clusterName : String) (nodes : BTreeMap String V) (ids : ι → UInt64)

/-- The configuration of a process: they differ in the id. -/
def confOf (i : ι) : PlacementCenterConfig V := ⟨clusterName, ids i, nodes⟩

/-- A process comes up, or a node that was set up contacts another one. -/
inductive Bootstrap.Step (s : ι → σ) : (ι → σ) → Prop where
  | start (i : ι) (raft : RaftHandle σ) (hraft : raft.Lawful view) :
    Step s (Function.update s i
      (startOpenraftNode raft (confOf clusterName nodes ids i) (s i)).2)
  | contact (i j : ι) (h : (view (s i)).initialized = true) {t : σ}
    (ht : view t = { view (s j) with initialized := true }) : Step s (Function.update s j t)

inductive Bootstrap.Run : (ι → σ) → Prop where
  | fresh {s} (h : ∀ i, view (s i) = ⟨false, []⟩) : Run s
  | step {s s'} (hr : Run s) (h : Bootstrap.Step view clusterName nodes ids s s') : Run s'

/-- **The cluster is set up at most once.** The node that sets it up has the lowest configured id,
and the members are the configured nodes with their addresses. No raft has a log or a vote before
that, and once that node comes up without an error its raft has one. -/
structure Bootstrap.SetUpOnce (s : ι → σ) : Prop where
  once : ∀ i j, (view (s i)).setUps ≠ [] → (view (s j)).setUps ≠ [] → i = j
  single : ∀ i, (view (s i)).setUps.length ≤ 1
  lowest : ∀ i, (view (s i)).setUps ≠ [] → ∀ id : UInt64, id ∈ configuredAddrs nodes → ids i ≤ id
  members : ∀ i, ∀ m ∈ (view (s i)).setUps, ∀ id, rpcAddr m id = (configuredAddrs nodes)[id]?
  before : ∀ i, (view (s i)).initialized = true → ∃ j, (view (s j)).setUps ≠ []
  after : ∀ i (raft : RaftHandle σ) t, raft.Lawful view → ids i ∈ configuredAddrs nodes →
    (∀ id : UInt64, id ∈ configuredAddrs nodes → ids i ≤ id) →
      Completes (startOpenraftNode raft (confOf clusterName nodes ids i)) (s i) () t →
        (view t).initialized = true

/-! ### What a step keeps -/

/-- A raft was set up with the members that every process reads, by the process with the lowest
id, or not at all; one that has a log or a vote has it from there. -/
structure Bootstrap.Sound (m : BTreeMap UInt64 Node) (s : ι → RaftState) : Prop where
  setUps : ∀ i, (s i).setUps = [] ∨
    (s i).setUps = [m] ∧ calcInitNode m = some (ids i) ∧ (s i).initialized = true
  before : ∀ i, (s i).initialized = true → ∃ j, (s j).setUps ≠ []

namespace Bootstrap

variable {view clusterName nodes ids} {s s' : ι → σ} {m : BTreeMap UInt64 Node}

/-- A process sets up its raft. -/
theorem Sound.setsUp {v : ι → RaftState}
    (hnodes : ∀ i, raftNodes (confOf clusterName nodes ids i) = some m) (h : Sound ids m v) {i : ι}
    {t : RaftState} (ht : SetsUp (confOf clusterName nodes ids i) (v i) t) :
    Sound ids m (Function.update v i t) := by
  obtain ⟨m', hm', hfirst, hfresh, rfl⟩ := ht
  obtain rfl := Option.some.inj ((hnodes i).symm.trans hm')
  -- a raft that was set up has a log
  have hnone : (v i).setUps = [] := by
    rcases h.setUps i with hnone | ⟨-, -, hinitialized⟩
    · exact hnone
    · rw [hfresh] at hinitialized
      cases hinitialized
  refine ⟨fun j => ?_, fun _ _ => ⟨i, ?_⟩⟩
  · rw [Function.update_apply]
    split_ifs with hj
    · exact .inr ⟨by rw [hnone]; rfl, hj ▸ hfirst, rfl⟩
    · exact h.setUps j
  · rw [Function.update_self]
    exact List.append_ne_nil_of_right_ne_nil _ (List.cons_ne_nil _ _)

/-- A process that was set up contacts another one. -/
theorem Sound.contact {v : ι → RaftState} (h : Sound ids m v) {i : ι} (j : ι)
    (hi : (v i).initialized = true) :
    Sound ids m (Function.update v j { v j with initialized := true }) := by
  obtain ⟨k, hk⟩ := h.before i hi
  have hset : ∀ l, (Function.update v j { v j with initialized := true } l).setUps =
      (v l).setUps := by
    intro l
    rw [Function.update_apply]
    split_ifs with hl
    · rw [hl]
    · rfl
  refine ⟨fun l => ?_, fun _ _ => ⟨k, by rwa [hset]⟩⟩
  rw [hset]
  refine (h.setUps l).imp_right fun hl => ⟨hl.1, hl.2.1, ?_⟩
  rw [Function.update_apply]
  split_ifs
  · rfl
  · exact hl.2.2

theorem Sound.step (hnodes : ∀ i, raftNodes (confOf clusterName nodes ids i) = some m)
    (h : Sound ids m (view ∘ s)) (hs : Step view clusterName nodes ids s s') :
    Sound ids m (view ∘ s') := by
  cases hs with
  | start i raft hraft =>
    rw [Function.comp_update]
    rcases startOpenraftNode_setUps hraft (confOf clusterName nodes ids i) (s i) with hrun | hrun
    · rw [hrun, show view (s i) = (view ∘ s) i from rfl, Function.update_eq_self]
      exact h
    · exact h.setsUp hnodes hrun
  | contact i j hi ht =>
    rw [Function.comp_update, ht]
    exact h.contact j hi

theorem sound_of_run (hnodes : ∀ i, raftNodes (confOf clusterName nodes ids i) = some m)
    (h : Run view clusterName nodes ids s) : Sound ids m (view ∘ s) := by
  induction h with
  | fresh h =>
    refine ⟨fun i => .inl ?_, fun i hi => ?_⟩
    · rw [Function.comp_apply, h i]
    · rw [Function.comp_apply, h i] at hi
      cases hi
  | step hr hs ih => exact ih.step hnodes hs

theorem mem_iff_of_rpcAddr (h : ∀ id, rpcAddr m id = (configuredAddrs nodes)[id]?) {id : UInt64} :
    id ∈ configuredAddrs nodes ↔ id ∈ m := by
  rw [Std.ExtTreeMap.mem_iff_isSome_getElem?, Std.ExtTreeMap.mem_iff_isSome_getElem?, ← h id,
    rpcAddr, Option.isSome_map]

/-- **The cluster is set up at most once**, whichever processes come up how often and in which
order. -/
theorem setUpOnce_of_run (hids : Function.Injective ids) (hvalid : ValidNodes nodes)
    (h : Run view clusterName nodes ids s) : SetUpOnce view clusterName nodes ids s := by
  obtain ⟨m, hm, haddrs⟩ := @rpcAddrs_of_valid V _ ⟨clusterName, 0, nodes⟩ hvalid
  have hnodes : ∀ i, raftNodes (confOf clusterName nodes ids i) = some m := fun _ => hm
  have hsound := sound_of_run hnodes h
  -- a raft that was set up was so by the lowest node, with the configured members
  have hset : ∀ i, (view (s i)).setUps ≠ [] → (view (s i)).setUps = [m] ∧
      calcInitNode m = some (ids i) ∧ (view (s i)).initialized = true := fun i hi =>
    (hsound.setUps i).resolve_left hi
  refine ⟨fun i j hi hj => ?_, fun i => ?_, fun i hi id hid => ?_, fun i m' hm' => ?_,
    hsound.before, fun i raft t hraft hid hlowest hrun => ?_⟩
  · have heq := (hset i hi).2.1.symm.trans (hset j hj).2.1
    exact hids (Option.some.inj heq)
  · rcases hsound.setUps i with hi | ⟨hi, -⟩ <;> rw [Function.comp_apply] at hi <;> rw [hi]
    · exact Nat.zero_le _
    · exact Nat.le_refl _
  · exact (calcInitNode_eq_some (hset i hi).2.1).2 id ((mem_iff_of_rpcAddr haddrs).mp hid)
  · have hi := (hset i (List.ne_nil_of_mem hm')).1
    rw [hi] at hm'
    rw [List.mem_singleton.mp hm']
    exact haddrs
  · refine initialized_of_completes hraft (hnodes i) ?_ hrun
    exact calcInitNode_of_lowest ((mem_iff_of_rpcAddr haddrs).mp hid) fun id' hid' =>
      hlowest id' ((mem_iff_of_rpcAddr haddrs).mpr hid')

end Bootstrap

end Cluster

/-! ### Two nodes -/

/-- The errors that the two operations return at some moment, if any; one of the second may come
after the members were stored. -/
structure Failures where
  flag : Option String
  setUp : Option (String × Bool)

/-- A raft that keeps what is visible of it, and cannot be set up once it has a log or a vote. -/
def raftHandle (failures : Failures) : RaftHandle RaftState where
  isInitialized := do
    let flag ← Program.gets RaftState.initialized
    match failures.flag with
    | some e => return .error e
    | none => return .ok flag
  initializeWith nodes := do
    let flag ← Program.gets RaftState.initialized
    if flag then return .error "not allowed to initialize"
    else
      match failures.setUp with
      | some (e, false) => return .error e
      | some (e, true) =>
        Program.modify fun s => ⟨true, s.setUps ++ [nodes]⟩
        return .error e
      | none =>
        Program.modify fun s => ⟨true, s.setUps ++ [nodes]⟩
        return .ok ()

theorem lawful_raftHandle (failures : Failures) : (raftHandle failures).Lawful id := by
  obtain ⟨flag, setUp⟩ := failures
  constructor
  · intro s
    cases flag with
    | none => exact ⟨rfl, fun flag h => (Except.ok.inj h).symm⟩
    | some e => exact ⟨rfl, by rintro flag ⟨⟩⟩
  · rintro nodes ⟨initialized, setUps⟩
    cases initialized with
    | true => exact ⟨.inl rfl, by rintro ⟨⟩⟩
    | false =>
      rcases setUp with _ | ⟨e, _ | _⟩
      · exact ⟨.inr ⟨rfl, rfl⟩, fun _ => rfl⟩
      · exact ⟨.inl rfl, by rintro ⟨⟩⟩
      · exact ⟨.inr ⟨rfl, rfl⟩, by rintro ⟨⟩⟩

/-- A table with two nodes. -/
def twoNodes : BTreeMap String String :=
  (oneNode.nodes.insert "2" "127.0.0.2:1228")

theorem validNodes_twoNodes : ValidNodes twoNodes := by
  have htwo : twoNodes.toList = [("1", "127.0.0.1:1228"), ("2", "127.0.0.2:1228")] := by
    decide +kernel
  have hplain : ∀ addr ∈ ["127.0.0.1:1228", "127.0.0.2:1228"],
      addr.toList.all (fun c => decide (Plain c)) = true := by decide +kernel
  have haddr : ∀ addr ∈ ["127.0.0.1:1228", "127.0.0.2:1228"], IsAddr addr := fun addr h =>
    ⟨by revert addr; decide, fun c hc =>
      of_decide_eq_true (List.all_eq_true.mp (hplain addr h) c hc)⟩
  intro entry hentry
  rw [htwo] at hentry
  rcases List.mem_cons.mp hentry with rfl | hentry
  · exact ⟨1, _, by decide +kernel, haddr _ (.head _)⟩
  · obtain rfl := List.mem_singleton.mp hentry
    exact ⟨2, _, by decide +kernel, haddr _ (.tail _ (.head _))⟩

namespace Bootstrap

/-- The ids of the two processes. -/
def twoIds : Bool → UInt64
  | false => 1
  | true => 2

/-- The configuration of one of them. -/
abbrev twoConf (i : Bool) : PlacementCenterConfig String :=
  confOf "placement-test" twoNodes twoIds i

/-- The members that both read. -/
def twoMembers : BTreeMap UInt64 Node := (raftNodes (twoConf false)).get (by decide +kernel)

theorem raftNodes_twoConf (i : Bool) : raftNodes (twoConf i) = some twoMembers :=
  (Option.some_get _).symm

/-- The first node has the lowest id. -/
theorem calcInitNode_twoMembers : calcInitNode twoMembers = some 1 := by
  have hkeys : twoMembers.keys = [1, 2] := by decide +kernel
  have hmem : ∀ id : UInt64, id ∈ twoMembers ↔ id ∈ [1, 2] := fun id => by
    rw [← Std.ExtTreeMap.mem_keys, hkeys]
  refine calcInitNode_of_lowest ((hmem 1).mpr (.head _)) fun id hid => ?_
  rcases List.mem_cons.mp ((hmem id).mp hid) with rfl | hid
  · exact UInt64.le_refl _
  · obtain rfl := List.mem_singleton.mp hid
    decide

/-- A process comes up, with some errors. -/
def started (s : Bool → RaftState) (i : Bool) (failures : Failures) : Bool → RaftState :=
  Function.update s i (startOpenraftNode (raftHandle failures) (twoConf i) (s i)).2

/-- The second node comes up before the first one, which fails after it stored the members. -/
def firstFailed : Bool → RaftState :=
  started (started (fun _ => ⟨false, []⟩) true ⟨none, none⟩) false ⟨none, some ("disk full", true)⟩

/-- The first node reaches the second one, and comes up once more. -/
def startedAgain : Bool → RaftState :=
  started (Function.update firstFailed true { firstFailed true with initialized := true }) false
    ⟨none, none⟩

theorem firstFailed_false : firstFailed false = ⟨true, [twoMembers]⟩ := by
  unfold firstFailed started
  rw [Function.update_self, Function.update_of_ne Bool.false_ne_true,
    startOpenraftNode_first (raftNodes_twoConf false) calcInitNode_twoMembers rfl]
  rfl

/-- A raft that was set up is left alone. -/
theorem startedAgain_false : startedAgain false = ⟨true, [twoMembers]⟩ := by
  unfold startedAgain started
  rw [Function.update_self, Function.update_of_ne Bool.false_ne_true, firstFailed_false]
  rcases startOpenraftNode_setUps (lawful_raftHandle ⟨none, none⟩) (twoConf false)
    ⟨true, [twoMembers]⟩ with hrun | ⟨m, -, -, hfresh, -⟩
  · exact hrun
  · cases hfresh

theorem Run.started {s : Bool → RaftState} (hr : Run id "placement-test" twoNodes twoIds s)
    (i : Bool) (failures : Failures) :
    Run id "placement-test" twoNodes twoIds (started s i failures) :=
  hr.step (.start i _ (lawful_raftHandle failures))

theorem run_startedAgain : Run id "placement-test" twoNodes twoIds startedAgain := by
  have hfresh : Run id "placement-test" twoNodes twoIds fun _ => ⟨false, []⟩ := .fresh fun _ => rfl
  have hfailed : Run id "placement-test" twoNodes twoIds firstFailed :=
    (hfresh.started true ⟨none, none⟩).started false ⟨none, some ("disk full", true)⟩
  have hinitialized : (firstFailed false).initialized = true := by rw [firstFailed_false]
  exact (hfailed.step (.contact false true hinitialized rfl)).started false ⟨none, none⟩

/-- The first node set up the cluster, once. -/
theorem setUpOnce_startedAgain : (startedAgain false).setUps = [twoMembers] ∧
    SetUpOnce id "placement-test" twoNodes twoIds startedAgain := by
  have hids : Function.Injective twoIds := by
    rintro (_ | _) (_ | _) h <;> first | rfl | cases h
  exact ⟨by rw [startedAgain_false], setUpOnce_of_run hids validNodes_twoNodes run_startedAgain⟩

end Bootstrap

end PlacementCenter.Openraft.RaftNode
