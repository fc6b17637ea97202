import PlacementCenter.Raft.AppliedIndex
import PlacementCenter.Raft.Configurations

/-!
# Restarts within the bounds of the log

A node stores its commit index, and the bounds of its log, as it works off what the raft crate
reports. The bounds are kept by every write of a cycle that installs no snapshot. An installation
restores the records of the sender one by one, so that a crash may find the bounds of one node with
the commit index of the other; and a snapshot that is taken while the stored commit index is ahead
moves the first index beyond the entries that are committed next.

## Main definitions

* `View`: the commit index of the node, and the index of the last entry it delivered
* `Cycle.LogContract`: what the raft crate promises about a cycle
* `NodeOp`, `NodeOp.Orderly`: cycles and snapshots, and the condition on their commit indices
* `RestartRun`: the runs of these, with a crash at any point
* `Bounded C D L w`: the invariant, with bounds on the commit index, on the entries delivered and on
  the last index

## Main results

* `Bounded.handleEntry`, `Bounded.saveSnapshot`, `Bounded.onReady`: what the parts of a cycle keep
* `canRestart_of_run`: **a node can restart** at every crash point of a run of orderly operations
-/

namespace PlacementCenter.Raft

open Rust Rust.Prost Storage Program

/-! ### What the raft crate promises -/

/-- What the node knows of its log: its commit index, and the index of the last entry it
delivered. -/
structure View where
  commit : ℕ
  delivered : ℕ
  deriving DecidableEq

namespace Cycle

/-- The view once the snapshot of a cycle was taken over. -/
def base (c : Cycle) (v : View) : View :=
  if c.ready.snapshot = .default then v
  else ⟨c.ready.snapshot.getMetadata.index.toNat, c.ready.snapshot.getMetadata.index.toNat⟩

/-- The commit index that is handed over with the entries. -/
def readyCommit (c : Cycle) (v : View) : ℕ :=
  (c.ready.hs.map fun hs => hs.commit.toNat).getD (c.base v).commit

/-- The commit index at the end of a cycle. -/
def lightCommit (c : Cycle) (v : View) : ℕ :=
  (c.lightRd.commitIndex.map UInt64.toNat).getD (c.readyCommit v)

end Cycle

/-- The view after a cycle. -/
def View.after (v : View) (c : Cycle) : View :=
  ⟨c.lightCommit v, (c.base v).delivered + c.delivered.length⟩

/-- What the raft crate promises about a cycle on the store of `node` over `w`. -/
structure Cycle.LogContract (c : Cycle) (v : View) (node : RaftMachine) (w : World MachineEvent) :
    Prop where
  /-- A snapshot is not behind the commit index. -/
  snapshot_ge : c.ready.snapshot ≠ .default → v.commit ≤ (c.base v).commit
  /-- Appends start above the commit index. -/
  appended_gt : ∀ e ∈ c.ready.entries, (c.base v).commit < e.index.toNat
  /-- Entries are delivered in order. -/
  in_order : c.delivered.map (fun e => e.index.toNat) =
    List.range' ((c.base v).delivered + 1) c.delivered.length
  /-- The commit index never decreases. -/
  ready_ge : (c.base v).commit ≤ c.readyCommit v
  light_ge : c.readyCommit v ≤ c.lightCommit v
  /-- What is delivered is committed. -/
  ready_delivered : (c.base v).delivered + c.ready.committedEntries.length ≤ c.readyCommit v
  delivered_le : (v.after c).delivered ≤ (v.after c).commit
  /-- What is committed is in the log, once the entries of the cycle were appended. -/
  in_log : ∀ core w', Completes (do
    node.sendMessage c.ready.messages
    let node ← node.saveSnapshot c.ready.snapshot
    node.saveEntries c.ready.entries) w core w' →
      c.lightCommit v ≤ (lastIndexIn core.raftStorage (cluster w')).toNat

/-- What drives the store of a node: a cycle, where a snapshot that is installed was taken of the
contents `sender`; and a snapshot that is taken for another node. -/
inductive NodeOp where
  | cycle (c : Cycle) (sender : ColumnFamily)
  | snapshot (requestIndex : UInt64)

namespace NodeOp

/-- The node after an operation. -/
def run (route : Route (World MachineEvent)) (self : RaftMachine) :
    NodeOp → Program (World MachineEvent) RaftMachine
  | cycle c _ => self.onReady route c
  | snapshot requestIndex => do
    let (_, raftStorage) ← RaftRocksDBStorage.snapshot self.raftStorage requestIndex
    return { self with raftStorage := raftStorage }

/-- What the raft crate promises about an operation. The configurations it hands over fit an
allocation. -/
def Contract (v : View) (self : RaftMachine) (w : World MachineEvent) : NodeOp → Prop
  | cycle c sender => c.LogContract v self w ∧
      (c.ready.snapshot ≠ .default →
        RaftMachineStorage.snapshotOf sender = some c.ready.snapshot ∧
          ConfFits (c.ready.snapshot.getMetadata.confState.getD ConfState.default)) ∧
      AnswersFit c.toAnswers
  | snapshot _ => True

/-- A snapshot that is installed fits over the store, unless it is refused; and a snapshot is only
taken when the stored commit index is not further ahead than the next two entries. -/
def Orderly (v : View) (self : RaftMachine) (w : World MachineEvent) : NodeOp → Prop
  | cycle c sender => c.ready.snapshot ≠ .default →
      firstIndexIn self.raftStorage (cluster w) ≤ c.ready.snapshot.getMetadata.index →
        FitsOver sender (cluster w) c.ready.snapshot.getMetadata.index.toNat
  | snapshot _ => ∀ hs, hardStateIn (cluster w) = some hs → hs.commit.toNat ≤ v.delivered + 2

/-- The view after an operation. -/
def view (v : View) : NodeOp → View
  | cycle c _ => v.after c
  | snapshot _ => v

end NodeOp

/-- The runs of operations that meet a condition, from the empty database. An operation may be cut
at any point between two effects; the process then comes up on what was written. -/
inductive RestartRun (router : Router MachineEvent)
    (Cond : View → RaftMachine → World MachineEvent → NodeOp → Prop) :
    RaftMachine → World MachineEvent → View → Prop where
  | boot {g self conf w} (hg : BootFits g ∅)
    (h : Completes (RaftMachine.boot g) World.empty (self, conf) w) :
    RestartRun router Cond self w ⟨conf.applied.toNat, conf.applied.toNat⟩
  | step {self self' w w' v} (op : NodeOp) (hr : RestartRun router Cond self w v)
    (hc : op.Contract v self w) (hC : Cond v self w op)
    (h : Completes (op.run router.route self) w self' w') :
    RestartRun router Cond self' w' (op.view v)
  | crash {self self' w w' v g conf} (op : NodeOp) (hr : RestartRun router Cond self w v)
    (hc : op.Contract v self w) (hC : Cond v self w op) {pt : Columns × List MachineEvent}
    (hpt : pt ∈ (op.run router.route self w).2.points)
    (hg : BootFits g (pt.1 dbColumnFamilyCluster))
    (h : Completes (RaftMachine.boot g) (World.reopen pt.1 pt.2) (self', conf) w') :
    RestartRun router Cond self' w' ⟨conf.applied.toNat, conf.applied.toNat⟩

/-! ### The invariant -/

/-- The crash points of a world are within bounds. -/
def SafePoints (w : World MachineEvent) : Prop :=
  ∀ pt ∈ w.points, CommitInBounds (pt.1 dbColumnFamilyCluster)

/-- The stored commit index is at most `C`, the first index is at most that of the entry after the
next one once `D` entries were delivered, and the last index is at least `L`. -/
structure Bounded (C D L : ℕ) (w : World MachineEvent) : Prop where
  stored : ∃ hs, hardStateIn (cluster w) = some hs ∧ hs.commit.toNat ≤ C ∧
    ∀ fi ∈ recordedIndex (cluster w) .firstIndex, fi.toNat ≤ hs.commit.toNat + 1
  first : ∀ fi ∈ recordedIndex (cluster w) .firstIndex, fi.toNat ≤ D + 2
  last : ∀ li ∈ recordedIndex (cluster w) .lastIndex, L ≤ li.toNat
  le : C ≤ L
  past : ∀ pt ∈ w.past, CommitInBounds (pt.1 dbColumnFamilyCluster)

section invariant

variable {C D L : ℕ} {w w' : World MachineEvent}

theorem Bounded.inBounds (h : Bounded C D L w) : CommitInBounds (cluster w) := by
  obtain ⟨hs, hhs, hle, hfirst⟩ := h.stored
  refine ⟨hs, hhs, hfirst, ?_⟩
  intro li hli
  have := h.last li hli
  have := h.le
  omega

theorem Bounded.points (h : Bounded C D L w) : SafePoints w := by
  intro pt hpt
  rcases List.mem_cons.mp hpt with rfl | hpt
  · exact h.inBounds
  · exact h.past pt hpt

/-- An effect that leaves the three records keeps the invariant. -/
theorem Bounded.effect (h : Bounded C D L w) (hpast : w'.past = w.points)
    (hrec : ∀ r : Record, r = .hardState ∨ r = .firstIndex ∨ r = .lastIndex →
      (cluster w')[r.key]? = (cluster w)[r.key]?) : Bounded C D L w' where
  stored := by
    rw [hardStateIn_congr (hrec .hardState (.inl rfl)),
      recordedIndex_congr (hrec .firstIndex (.inr (.inl rfl)))]
    exact h.stored
  first := by
    rw [recordedIndex_congr (hrec .firstIndex (.inr (.inl rfl)))]
    exact h.first
  last := by
    rw [recordedIndex_congr (hrec .lastIndex (.inr (.inr rfl)))]
    exact h.last
  le := h.le
  past := by
    rw [hpast]
    exact h.points

/-- The write of another record. -/
theorem Bounded.putOther (h : Bounded C D L w) {k : Bytes} (v : Bytes)
    (hk : ∀ r : Record, r = .hardState ∨ r = .firstIndex ∨ r = .lastIndex → k ≠ r.key) :
    Bounded C D L (putKey w k v) := by
  refine h.effect rfl fun r hr => ?_
  rw [cluster_putKey]
  exact OrdMap.lookup_insert_ne _ _ (hk r hr)

theorem keptBeside_bounded (C D L : ℕ) : KeptBeside (fun _ => True) (Bounded C D L) where
  emit w e _ hw := hw.effect rfl fun _ _ => rfl
  clients := by
    constructor
    · intro w k v hk hw
      exact hw.putOther v fun r _ => (r.key_ne_of_client hk).symm
    · intro w k hk hw
      refine hw.effect rfl fun r _ => ?_
      rw [cluster, World.columns_delete_self]
      exact OrdMap.lookup_erase_ne _ (r.key_ne_of_client hk).symm
  records := by
    intro w r text hr hw
    refine hw.putOther _ fun r' hr' => ?_
    rcases hr with rfl | rfl | rfl <;> rcases hr' with rfl | rfl | rfl <;> simp

/-- A commit index that the first index allows. -/
theorem Bounded.putHardState (h : Bounded C D L w) {hs : HardState} {C' : ℕ}
    (hle : hs.commit.toNat ≤ C') (hL : C' ≤ L)
    (hfirst : ∀ fi ∈ recordedIndex (cluster w) .firstIndex, fi.toNat ≤ hs.commit.toNat + 1) :
    Bounded C' D L (putRecord w .hardState (encodeToVec hs)) := by
  constructor
  · rw [cluster_putRecord, hardStateIn_insert_self, recordedIndex_insert_record (by simp)]
    exact ⟨hs, rfl, hle, hfirst⟩
  · rw [cluster_putRecord, recordedIndex_insert_record (by simp)]
    exact h.first
  · rw [cluster_putRecord, recordedIndex_insert_record (by simp)]
    exact h.last
  · exact hL
  · exact h.points

/-- The stored commit index as the first index. -/
theorem Bounded.putFirstIndex (h : Bounded C D L w) {hs : HardState}
    (hhs : hardStateIn (cluster w) = some hs) (hle : hs.commit.toNat ≤ D + 2) :
    Bounded C D L (putRecord w .firstIndex hs.commit) := by
  obtain ⟨hs', hhs', hC, -⟩ := h.stored
  obtain rfl : hs = hs' := Option.some.inj (hhs.symm.trans hhs')
  constructor
  · rw [cluster_putRecord, hardStateIn_insert_record _ (by simp), recordedIndex_insert_self]
    refine ⟨hs, hhs, hC, ?_⟩
    rintro fi ⟨⟩
    exact Nat.le_succ _
  · rw [cluster_putRecord, recordedIndex_insert_self]
    rintro fi ⟨⟩
    exact hle
  · rw [cluster_putRecord, recordedIndex_insert_record (by simp)]
    exact h.last
  · exact h.le
  · exact h.points

theorem Bounded.putLastIndex (h : Bounded C D L w) {i : UInt64} (hi : L ≤ i.toNat) :
    Bounded C D L (putRecord w .lastIndex i) := by
  constructor
  · rw [cluster_putRecord, hardStateIn_insert_record _ (by simp),
      recordedIndex_insert_record (by simp)]
    exact h.stored
  · rw [cluster_putRecord, recordedIndex_insert_record (by simp)]
    exact h.first
  · rw [cluster_putRecord, recordedIndex_insert_self]
    rintro li ⟨⟩
    exact hi
  · exact h.le
  · exact h.points

/-- The numbers may be raised, as far as the last index allows. -/
theorem Bounded.raise (h : Bounded C D L w) {C' D' L' : ℕ} (hC : C ≤ C') (hD : D ≤ D')
    (hle : C' ≤ L') (hL : ∀ li ∈ recordedIndex (cluster w) .lastIndex, L' ≤ li.toNat) :
    Bounded C' D' L' w := by
  obtain ⟨hs, hhs, hs_le, hfirst⟩ := h.stored
  refine ⟨⟨hs, hhs, Nat.le_trans hs_le hC, hfirst⟩, ?_, hL, hle, h.past⟩
  intro fi hfi
  have := h.first fi hfi
  omega

/-- Entries above the last index that is needed are appended. -/
theorem Bounded.appended {es : List Entry} (hes : ∀ e ∈ es, L ≤ e.index.toNat) :
    ∀ {w : World MachineEvent}, Bounded C D L w → Bounded C D L (appended w es) := by
  induction es with
  | nil => exact fun h => h
  | cons e es ih =>
    intro w h
    rw [appended_cons]
    apply ih fun e' he' => hes e' (List.mem_cons_of_mem e he')
    -- the entry is written before the last index moves to it
    have hentry : Bounded C D L (putRecord w (.entry e.index) (encodeToVec e)) := by
      refine h.putOther _ fun r hr => ?_
      rcases hr with rfl | rfl | rfl <;> simp
    exact hentry.putLastIndex (hes e List.mem_cons_self)

/-! ### Committed entries -/

/-- The invariant, where the stored commit index may become the first index. -/
def Settled (C D L : ℕ) (w : World MachineEvent) : Prop :=
  Bounded C D L w ∧ ∀ hs, hardStateIn (cluster w) = some hs → hs.commit.toNat ≤ D + 2

theorem keptBeside_settled (C D L : ℕ) : KeptBeside (fun _ => True) (Settled C D L) where
  emit w e he hw := ⟨(keptBeside_bounded C D L).emit w e he hw.1, hw.2⟩
  clients := by
    constructor
    · intro w k v hk hw
      refine ⟨(keptBeside_bounded C D L).clients.put w k v hk hw.1, ?_⟩
      rw [cluster_putKey, hardStateIn_congr
        (OrdMap.lookup_insert_ne _ _ (Record.hardState.key_ne_of_client hk).symm)]
      exact hw.2
    · intro w k hk hw
      refine ⟨(keptBeside_bounded C D L).clients.delete w k hk hw.1, ?_⟩
      rw [cluster, World.columns_delete_self, hardStateIn_congr
        (OrdMap.lookup_erase_ne _ (Record.hardState.key_ne_of_client hk).symm)]
      exact hw.2
  records := by
    intro w r text hr hw
    refine ⟨(keptBeside_bounded C D L).records w r text hr hw.1, ?_⟩
    rw [cluster_putKey, hardStateIn_insert_record _ (by rcases hr with rfl | rfl | rfl <;> simp)]
    exact hw.2

/-- A snapshot keeps the invariant where the commit index may become the first index. -/
theorem Settled.putFirstIndex (h : Settled C D L w) {hs : HardState}
    (hhs : hardStateIn (cluster w) = some hs) :
    Settled C D L (putRecord w .firstIndex hs.commit) := by
  refine ⟨h.1.putFirstIndex hhs (h.2 hs hhs), ?_⟩
  rw [cluster_putRecord, hardStateIn_insert_record _ (by simp)]
  exact h.2

variable {router : Router MachineEvent} {answers : Answers} {self self' : RaftMachine}

/-- **The commit of the next entry**: the stored commit index becomes its index. -/
theorem Bounded.commmitIndex (h : Bounded C D L w) (core : RaftMachineStorage) {idx : UInt64}
    (hidx : idx.toNat = D + 1) (hC : D + 1 ≤ C) :
    Meets (RaftRocksDBStorage.commmitIndex core idx) w (fun _ t => Settled C (D + 1) L t)
      SafePoints := by
  have hu : Bounded C D L ((core.afterCommit idx).uncommitted w) :=
    (keptBeside_bounded C D L).records w .uncommit _ (.inr (.inl rfl)) h
  unfold RaftRocksDBStorage.commmitIndex
  rw [meets_bind]
  refine meets_of_runs ?_ ?_
  · rintro ⟨r, core'⟩ t hrun
    obtain ⟨e, hs, -, -, -, rfl, rfl⟩ := RaftMachineStorage.completes_commmitIndex hrun
    apply meets_pure.mpr
    have hcommit : (RaftMachineStorage.committedState hs e idx).commit.toNat = D + 1 := hidx
    constructor
    · -- the first index is at most the one after the entry
      have hput := hu.putHardState (Nat.le_trans (Nat.le_of_eq hcommit) hC) h.le fun fi hfi => by
        rw [hcommit]
        exact hu.first fi hfi
      exact hput.raise (Nat.le_refl C) (Nat.le_succ D) h.le hput.last
    · intro hs' hhs'
      rw [cluster_putRecord, hardStateIn_insert_self] at hhs'
      obtain rfl := Option.some.inj hhs'
      omega
  · intro m t hrun
    -- a panic leaves the store, or comes after the write of the uncommitted indices
    rcases RaftMachineStorage.commmitIndex_panicked hrun with rfl | rfl
    · exact h.points
    · exact hu.points

/-- **The next entry** keeps the invariant, however its handling ends. -/
theorem Bounded.handleEntry (h : Bounded C D L w) {e : Entry} (he : e.index.toNat = D + 1)
    (hC : D + 1 ≤ C) :
    Meets (self.handleEntry router.route answers e) w (fun _ t => Bounded C (D + 1) L t)
      SafePoints := by
  have beside := keptBeside_settled C (D + 1) L
  unfold RaftMachine.handleEntry
  rw [meets_bind]
  refine ((RaftMachine.keeps_applyEntry (keptBeside_bounded C D L) router answers self trivial
    trivial).meets h fun _ ht => ht.points).mono ?_ fun _ ht => ht
  intro core w₁ hw₁
  unfold RaftMachine.commitEntry
  rw [meets_bind]
  refine (hw₁.commmitIndex core.raftStorage he hC).mono ?_ fun _ ht => ht
  rintro ⟨r, st⟩ w₂ hw₂
  -- the answer and the snapshot come after the commit
  refine ((keeps_bind (RaftMachine.keeps_respond beside _ fun _ => trivial) fun core =>
    RaftMachine.keeps_thousandth beside core fun _ _ hw hhs => hw.putFirstIndex hhs).meets hw₂
      fun _ ht => ht.1.points).mono ?_ fun _ ht => ht
  exact fun _ _ ht => ht.1

/-- **Entries that are delivered in order** keep the invariant. -/
theorem Bounded.handleCommittedEntries {es : List Entry} {n : ℕ} (h : Bounded C D L w)
    (hes : es.map (fun e => e.index.toNat) = List.range' (D + 1) n) (hC : D + n ≤ C) :
    Meets (self.handleCommittedEntries router.route answers es) w
      (fun _ t => Bounded C (D + n) L t) SafePoints := by
  induction es generalizing self w D n with
  | nil =>
    obtain rfl : 0 = n := by simpa using congrArg List.length hes
    exact h
  | cons e es ih =>
    obtain ⟨n, rfl⟩ : ∃ m, n = m + 1 := by
      refine ⟨es.length, ?_⟩
      simpa using (congrArg List.length hes).symm
    rw [List.map_cons, List.range'_succ] at hes
    obtain ⟨he, hes⟩ := List.cons.inj hes
    rw [RaftMachine.handleCommittedEntries, List.foldlM_cons, meets_bind]
    -- the head is the next entry, and the tail starts after it
    refine (h.handleEntry he (by omega)).mono ?_ fun _ ht => ht
    intro core t ht
    refine (ih ht hes (by omega)).mono ?_ fun _ ht => ht
    intro _ t' ht'
    rwa [Nat.add_assoc, Nat.add_comm 1 n] at ht'

/-! ### The parts around them -/

theorem Bounded.saveEntries (h : Bounded C D L w) {es : List Entry}
    (hes : ∀ e ∈ es, L ≤ e.index.toNat) :
    Meets (self.saveEntries es) w (fun _ t => Bounded C D L t) SafePoints := by
  unfold RaftMachine.saveEntries
  split_ifs with hnil
  · exact h
  · unfold RaftRocksDBStorage.append
    rw [meets_bind, meets_bind]
    refine meets_of_runs ?_ ?_
    · rintro ⟨r, core⟩ t hrun
      obtain ⟨-, ⟨-, -, rfl⟩ | ⟨-, -, -, rfl⟩⟩ := RaftMachineStorage.completes_append hrun
      · exact h
      · exact (keptBeside_bounded C D L).records _ .uncommit _ (.inr (.inl rfl))
          (Bounded.appended hes h)
    · intro m t hrun
      rw [RaftMachineStorage.append_panicked hrun]
      exact h.points

theorem Bounded.saveHardState (h : Bounded C D L w) {o : Option HardState}
    (ho : ∀ hs ∈ o, hs.commit.toNat = C) :
    Meets (RaftMachine.saveHardState o) w (fun _ t => Bounded C D L t) SafePoints := by
  cases o with
  | none => exact h
  | some hs =>
    have hC := ho hs rfl
    refine h.putHardState (Nat.le_of_eq hC) h.le ?_
    intro fi hfi
    obtain ⟨hs', -, hle, hfirst⟩ := h.stored
    have := hfirst fi hfi
    omega

theorem Bounded.saveCommit (h : Bounded C D L w) {o : Option UInt64} {K : ℕ}
    (ho : ∀ k ∈ o, k.toNat = K) (hC : C ≤ K) (hK : K ≤ L) :
    Meets (RaftMachine.saveCommit o) w (fun _ t => Bounded K D L t) SafePoints := by
  obtain ⟨hs, -, hle, hfirst⟩ := h.stored
  have hK' : Bounded K D L w ∧ ∀ fi ∈ recordedIndex (cluster w) .firstIndex, fi.toNat ≤ K + 1 := by
    refine ⟨h.raise hC (Nat.le_refl D) hK h.last, ?_⟩
    intro fi hfi
    have := hfirst fi hfi
    omega
  -- the invariant alone does not bound the first index by the new commit index
  have keeps : Keeps (fun t => Bounded K D L t ∧
      ∀ fi ∈ recordedIndex (cluster t) .firstIndex, fi.toNat ≤ K + 1)
        (RaftMachine.saveCommit o) := by
    cases o with
    | none => exact keeps_pure _
    | some k =>
      have hk : k.toNat = K := ho k rfl
      refine keeps_bind (keeps_bind (keeps_bind keeps_hardState fun hs => ?_) fun _ =>
        keeps_pure _) fun _ => keeps_pure _
      rintro t ⟨ht, hfi⟩
      have hcommit : ({ hs with commit := k } : HardState).commit.toNat = K := hk
      rw [RaftMachineStorage.saveHardState_run]
      refine ⟨ht.putHardState (Nat.le_of_eq hcommit) hK (by rwa [hcommit]), ?_⟩
      rwa [cluster_putRecord, recordedIndex_insert_record (by simp)]
  exact (keeps.meets hK' fun _ ht => ht.1.points).mono (fun _ _ ht => ht.1) fun _ ht => ht

/-- **An installation keeps the invariant** at every point, when the snapshot fits over the store:
it ends with the commit index of the snapshot, or was refused. -/
theorem Bounded.installSnapshot (h : Bounded C D C w) (hD : D ≤ C) {s : Snapshot}
    {sender : ColumnFamily} (hs : RaftMachineStorage.snapshotOf sender = some s)
    (hge : C ≤ s.getMetadata.index.toNat) (core : RaftMachineStorage)
    (hfit : firstIndexIn core (cluster w) ≤ s.getMetadata.index →
      FitsOver sender (cluster w) s.getMetadata.index.toNat) :
    Meets (RaftRocksDBStorage.applySnapshot core s) w
      (fun _ t => ∃ C' ≤ s.getMetadata.index.toNat, Bounded C' s.getMetadata.index.toNat C' t)
      SafePoints := by
  obtain ⟨hss, cs, hhss, -, -, hm⟩ := RaftMachineStorage.snapshotOf_eq_some hs
  have hidx : s.getMetadata.index = hss.commit := by
    rw [Snapshot.getMetadata, hm, Option.getD_some]
  unfold RaftRocksDBStorage.applySnapshot
  rw [meets_bind]
  by_cases hf : firstIndexIn core (cluster w) ≤ s.getMetadata.index
  swap
  · -- refused: the store stays behind the view
    have hrun := RaftMachineStorage.applySnapshot_run_refused (UInt64.not_le.mp hf)
    refine meets_of_eq_ok hrun (meets_pure.mpr ⟨C, hge, ?_⟩)
    exact h.raise (Nat.le_refl C) (Nat.le_trans hD hge) (Nat.le_refl C) h.last
  obtain ⟨hsr, hhsr, hle, hfirst⟩ := h.stored
  have hfit := hfit hf
  have hfit' := hidx ▸ hfit
  -- the points of the restore are between the two stores
  have hpairs := RaftMachineStorage.payloadPairs_snapshotOf hs
  have hps : ∀ p ∈ RaftMachineStorage.payloadPairs s.data, sender[utf8 p.1]? = some (utf8 p.2) := by
    rw [hpairs]
    exact fun p hp => mem_dumpPairs hp
  obtain ⟨hend, hpast⟩ := between_restored hps (BetweenStores.refl (cluster w) sender)
  have between : ∀ {m : ColumnFamily}, BetweenStores (cluster w) sender m → CommitInBounds m :=
    fun hb => hb.commitInBounds hhsr hhss hfirst (by rw [← hidx]; omega) hfit'
  obtain ⟨hs₀, hhs₀, -, -⟩ := between hend
  refine meets_of_eq_ok (RaftMachineStorage.applySnapshot_run hf hhs₀) (meets_pure.mpr
    ⟨s.getMetadata.index.toNat, Nat.le_refl _, ?_⟩)
  refine (keptBeside_bounded _ _ _).records _ .confState _ (.inl rfl) ?_
  -- the hard state of the snapshot comes last
  have hlast := hend.le_last hfit
  have first : ∀ fi ∈ recordedIndex (cluster (RaftMachineStorage.restored w
      (RaftMachineStorage.payloadPairs s.data))) .firstIndex,
        fi.toNat ≤ s.getMetadata.index.toNat + 1 := by
    intro fi hfi
    have := hend.first_le hhsr hfirst hfit fi hfi
    omega
  constructor
  · rw [cluster_putRecord, hardStateIn_insert_self, recordedIndex_insert_record (by simp)]
    exact ⟨_, rfl, Nat.le_refl _, first⟩
  · rw [cluster_putRecord, recordedIndex_insert_record (by simp)]
    exact fun fi hfi => Nat.le_succ_of_le (first fi hfi)
  · rw [cluster_putRecord, recordedIndex_insert_record (by simp)]
    exact hlast
  · exact Nat.le_refl _
  · intro pt hpt
    rcases List.mem_cons.mp hpt with rfl | hpt
    · exact between hend
    · rcases hpast pt hpt with hpt | hpt
      · exact h.past pt hpt
      · exact between hpt

variable {v : View} {c : Cycle} {sender : ColumnFamily}

theorem Cycle.base_eq (hsnap : c.ready.snapshot ≠ .default) (v : View) :
    c.base v = ⟨c.ready.snapshot.getMetadata.index.toNat,
      c.ready.snapshot.getMetadata.index.toNat⟩ := if_neg hsnap

theorem Bounded.saveSnapshot (h : Bounded v.commit v.delivered v.commit w')
    (hw : cluster w' = cluster w) (hv : v.delivered ≤ v.commit)
    (hc : (NodeOp.cycle c sender).Contract v self w)
    (ho : (NodeOp.cycle c sender).Orderly v self w) :
    Meets (self.saveSnapshot c.ready.snapshot) w'
      (fun _ t => ∃ C ≤ (c.base v).commit, Bounded C (c.base v).delivered C t) SafePoints := by
  unfold RaftMachine.saveSnapshot
  by_cases hsnap : c.ready.snapshot = .default
  · rw [if_pos hsnap]
    apply meets_pure.mpr
    rw [show c.base v = v from if_pos hsnap]
    exact ⟨v.commit, Nat.le_refl _, h⟩
  · rw [if_neg hsnap, meets_bind]
    have hge := hc.1.snapshot_ge hsnap
    have hfit := ho hsnap
    rw [← hw] at hfit
    rw [Cycle.base_eq hsnap] at hge ⊢
    exact h.installSnapshot hv (hc.2.1 hsnap).1 hge self.raftStorage hfit

/-- **A cycle keeps the invariant** at every point. -/
theorem Bounded.onReady (h : Bounded v.commit v.delivered v.commit w) (hv : v.delivered ≤ v.commit)
    (hc : (NodeOp.cycle c sender).Contract v self w)
    (ho : (NodeOp.cycle c sender).Orderly v self w) :
    Meets (self.onReady router.route c) w
      (fun _ t => Bounded (v.after c).commit (v.after c).delivered (v.after c).commit t)
      SafePoints := by
  have messages : ∀ (core : RaftMachine) (C D L : ℕ) (ms : List RaftPreludeMessage),
      Keeps (Bounded C D L) (core.sendMessage ms) := fun core C D L ms =>
    RaftMachine.keeps_sendMessage
      (fun w _ _ hw => (keptBeside_bounded C D L).emit w _ trivial hw) core ms
  have hlog := hc.1
  obtain ⟨hfirst, hsecond⟩ := Cycle.split_of_in_order hlog.in_order
  unfold RaftMachine.onReady
  rw [meets_bind]
  -- the messages leave the contents of the store
  have hsent := (RaftMachine.keeps_sendMessage
    (P := fun t => Bounded v.commit v.delivered v.commit t ∧ cluster t = cluster w)
    (fun t _ _ ht => ⟨(keptBeside_bounded _ _ _).emit t _ trivial ht.1, ht.2⟩) self
    c.ready.messages).meets ⟨h, rfl⟩ fun t ht => ht.1.points
  refine hsent.completed.mono ?_ fun _ ht => ht
  rintro _ w₁ ⟨h₁, hw₁⟩
  rw [meets_bind]
  refine (hw₁.1.saveSnapshot hw₁.2 hv hc ho).completed.mono ?_ fun _ ht => ht
  rintro core₂ w₂ ⟨h₂, C, hC, hw₂⟩
  rw [meets_bind]
  -- entries are appended above the commit index
  refine (hw₂.saveEntries fun e he => ?_).completed.mono ?_ fun _ ht => ht
  · exact Nat.le_of_lt (Nat.lt_of_le_of_lt hC (hlog.appended_gt e he))
  rintro core₃ w₃ ⟨h₃, hw₃⟩
  -- now the log covers what is committed
  have hcovers := hlog.in_log core₃ w₃ (completes_bind.mpr ⟨_, w₁, h₁,
    completes_bind.mpr ⟨core₂, w₂, h₂, h₃⟩⟩)
  replace hw₃ : Bounded (c.readyCommit v) (c.base v).delivered (c.lightCommit v) w₃ := by
    refine hw₃.raise (Nat.le_trans hC hlog.ready_ge) (Nat.le_refl _) hlog.light_ge ?_
    intro li hli
    rw [lastIndexIn, indexIn_eq, hli, Option.getD_some] at hcovers
    exact hcovers
  rw [meets_bind]
  refine (hw₃.handleCommittedEntries hfirst hlog.ready_delivered).mono ?_ fun _ ht => ht
  intro core₄ w₄ hw₄
  rw [meets_bind]
  refine (hw₄.saveHardState fun hs hhs => ?_).mono ?_ fun _ ht => ht
  · rw [Cycle.readyCommit, Option.mem_def.mp hhs]
    rfl
  intro _ w₅ hw₅
  rw [meets_bind]
  refine ((messages core₄ _ _ _ _).meets hw₅ fun _ ht => ht.points).mono ?_ fun _ ht => ht
  intro _ w₆ hw₆
  rw [meets_bind]
  refine (hw₆.saveCommit (K := c.lightCommit v) (fun k hk => ?_) hlog.light_ge
    (Nat.le_refl _)).mono ?_ fun _ ht => ht
  · rw [Cycle.lightCommit, Option.mem_def.mp hk]
    rfl
  intro _ w₇ hw₇
  rw [meets_bind]
  refine ((messages core₄ _ _ _ _).meets hw₇ fun _ ht => ht.points).mono ?_ fun _ ht => ht
  intro _ w₈ hw₈
  have hle := hlog.delivered_le
  have hdelivered : (v.after c).delivered = (c.base v).delivered +
      c.ready.committedEntries.length + c.lightRd.committedEntries.length := by
    rw [View.after, Cycle.delivered, List.length_append, Nat.add_assoc]
  rw [hdelivered] at hle ⊢
  exact hw₈.handleCommittedEntries hsecond hle

/-- **An orderly operation keeps the invariant** at every point. -/
theorem Bounded.run (h : Bounded v.commit v.delivered v.commit w) (hv : v.delivered ≤ v.commit)
    {op : NodeOp} (hc : op.Contract v self w) (ho : op.Orderly v self w) :
    Meets (op.run router.route self) w
      (fun _ t => Bounded (op.view v).commit (op.view v).delivered (op.view v).commit t)
      SafePoints := by
  cases op with
  | cycle c sender => exact h.onReady hv hc ho
  | snapshot requestIndex =>
    have beside := keptBeside_settled v.commit v.delivered v.commit
    have keeps : Keeps (Settled v.commit v.delivered v.commit)
        ((NodeOp.snapshot requestIndex).run router.route self) := by
      refine keeps_bind ?_ fun _ => keeps_pure _
      unfold RaftRocksDBStorage.snapshot
      -- a request ahead of the commit index only takes a note
      split_ifs
      · exact keeps_pure _
      · refine keeps_bind (keeps_bind (RaftMachine.keeps_newFirstIndex beside
          (fun _ _ hw hhs => hw.putFirstIndex hhs) _) fun core => keeps_bind ?_ fun _ =>
            keeps_pure _) ?_
        · exact keeps_of_readOnly _ RaftMachineStorage.storedSnapshot_run
        · rintro ⟨snap, core⟩
          dsimp only
          split_ifs
          · exact keeps_pure _
          · exact keeps_pure _
    exact (keeps.meets ⟨h, ho⟩ fun _ ht => ht.1.points).mono (fun _ _ ht => ht.1) fun _ ht => ht

theorem Bounded.points_run (h : Bounded v.commit v.delivered v.commit w)
    (hv : v.delivered ≤ v.commit) {op : NodeOp} (hc : op.Contract v self w)
    (ho : op.Orderly v self w) : SafePoints (op.run router.route self w).2 :=
  ((h.run hv hc ho).mono (fun _ _ ht => ht.points) fun _ ht => ht).of_run

/-! ### Runs -/

/-- A node that comes up at a point within bounds takes the stored commit index for its own. -/
theorem bounded_of_boot {pt : Columns × List MachineEvent}
    (hpt : CommitInBounds (pt.1 dbColumnFamilyCluster)) {g : RaftGroupMetadata} {conf : Config}
    (h : Completes (RaftMachine.boot g) (World.reopen pt.1 pt.2) (self, conf) w) :
    Bounded conf.applied.toNat conf.applied.toNat conf.applied.toNat w := by
  obtain ⟨st, hs, cs, -, hhs, happ, -, rfl⟩ := completes_boot h
  obtain ⟨hs', hhs', hfirst, hlast⟩ := hpt
  obtain rfl : hs = hs' := Option.some.inj (hhs.symm.trans hhs')
  rw [happ]
  refine (keptBeside_bounded _ _ _).records _ .confState _ (.inl rfl) ?_
  refine ⟨⟨hs, hhs, Nat.le_refl _, hfirst⟩, ?_, hlast, Nat.le_refl _, fun pt hpt => by cases hpt⟩
  exact fun fi hfi => Nat.le_succ_of_le (hfirst fi hfi)

theorem commitInBounds_empty : CommitInBounds ∅ := by
  refine ⟨HardState.default, hardStateIn_empty, ?_, ?_⟩
  · intro fi hfi
    rw [recordedIndex_empty] at hfi
    cases hfi
  · intro li hli
    rw [recordedIndex_empty] at hli
    cases hli

/-- What is delivered is committed, after an operation as before. -/
theorem NodeOp.Contract.delivered_le {op : NodeOp} (hc : op.Contract v self w)
    (hv : v.delivered ≤ v.commit) : (op.view v).delivered ≤ (op.view v).commit := by
  cases op with
  | cycle c sender => exact hc.1.delivered_le
  | snapshot _ => exact hv

/-- An operation leaves the configuration readable at every point. -/
theorem NodeOp.Contract.keepsReadable {op : NodeOp} (hc : op.Contract v self w) :
    Keeps HasConf (op.run router.route self) := by
  cases op with
  | cycle c sender =>
    exact keepsReadable_onReady router self hc.2.2 fun hsnap core =>
      keepsReadable_applySnapshot (hc.2.1 hsnap).1 (hc.2.1 hsnap).2 core
  | snapshot requestIndex =>
    refine keeps_bind ?_ fun _ => keeps_pure _
    unfold RaftRocksDBStorage.snapshot
    split_ifs
    · exact keeps_pure _
    · refine keeps_bind (keeps_bind (keepsReadable_createSnapshot _) fun core =>
        keeps_bind ?_ fun _ => keeps_pure _) ?_
      · exact keeps_of_readOnly _ RaftMachineStorage.storedSnapshot_run
      · rintro ⟨snap, core⟩
        dsimp only
        split_ifs
        · exact keeps_pure _
        · exact keeps_pure _

/-- **Every run of orderly operations keeps the invariant.** -/
theorem bounded_of_run (h : RestartRun router NodeOp.Orderly self w v) :
    v.delivered ≤ v.commit ∧ Bounded v.commit v.delivered v.commit w := by
  induction h with
  | boot _ h =>
    have hempty : CommitInBounds (((fun _ => ∅, []) : Columns × List MachineEvent).1
        dbColumnFamilyCluster) := commitInBounds_empty
    exact ⟨Nat.le_refl _, bounded_of_boot hempty h⟩
  | step op hr hc ho h ih =>
    exact ⟨hc.delivered_le ih.1, (ih.2.run ih.1 hc ho).of_completes h⟩
  | crash op hr hc ho hpt _ h ih =>
    exact ⟨Nat.le_refl _, bounded_of_boot (ih.2.points_run ih.1 hc ho _ hpt) h⟩

/-- In every run the configuration can be read at every point. -/
theorem hasConf_of_run {Cond : View → RaftMachine → World MachineEvent → NodeOp → Prop}
    (h : RestartRun router Cond self w v) : HasConf w := by
  induction h with
  | @boot g self conf w hg h =>
    have hempty : BootFits g (((fun _ => ∅, []) : Columns × List MachineEvent).1
        dbColumnFamilyCluster) := hg
    exact hasConf_of_boot hempty h
  | step op hr hc hC h ih => exact hc.keepsReadable.of_completes ih h
  | crash op hr hc hC hpt hg h ih => exact hasConf_of_boot hg h

/-- **A node can restart** at every crash point of a run of orderly operations, between two of them
and between two writes of the next one: a store can be opened there, and its commit index lies
within its bounds. -/
theorem canRestart_of_run (h : RestartRun router NodeOp.Orderly self w v) :
    (∀ pt ∈ w.points, CanRestart pt ∧ OpensInBounds pt) ∧
      ∀ op : NodeOp, op.Contract v self w → op.Orderly v self w →
        ∀ pt ∈ (op.run router.route self w).2.points, CanRestart pt ∧ OpensInBounds pt := by
  obtain ⟨hv, hw⟩ := bounded_of_run h
  have hconf := hasConf_of_run h
  constructor
  · intro pt hpt
    have hbounds := hw.points pt hpt
    exact ⟨hbounds.canRestart (hconf pt hpt), hbounds.opensInBounds⟩
  · intro op hc ho pt hpt
    have hbounds := hw.points_run hv hc ho pt hpt
    exact ⟨hbounds.canRestart (hc.keepsReadable w hconf pt hpt), hbounds.opensInBounds⟩

end invariant

/-! ### A snapshot of two entries -/

/-- The first two entries of a term, without data. -/
def firstTwo : List Entry :=
  [{ Entry.default with term := 1, index := 1 }, { Entry.default with term := 1, index := 2 }]

/-- The cycle of a node that learns the two entries and their commit at once. -/
def twoCycle : Cycle where
  now _ := 0
  applyConfChange _ _ := none
  ready := ⟨[], .default, firstTwo, [], some ⟨1, 2, 2⟩, []⟩
  lightRd := ⟨none, [], firstTwo⟩

/-- The node after the cycle. -/
def twoCommitted : RaftMachine × World MachineEvent :=
  finish (booted.1.1.onReady DataRoute.route twoCycle) booted.2 (by decide +kernel)

/-- The cycle of a node without a log that votes for node 2. -/
def voteCycle : Cycle where
  now _ := 0
  applyConfChange _ _ := none
  ready := ⟨[], .default, [], [], some ⟨1, 2, 0⟩, []⟩
  lightRd := ⟨none, [], []⟩

/-- The node after its vote. -/
def receiver : RaftMachine × World MachineEvent :=
  finish (booted.1.1.onReady DataRoute.route voteCycle) booted.2 (by decide +kernel)

/-- The cycle of a node that installs a snapshot of the two entries. -/
def installCycle (s : Snapshot) : Cycle where
  now _ := 0
  applyConfChange _ _ := none
  ready := ⟨[], s, [], [], some ⟨1, 2, 2⟩, []⟩
  lightRd := ⟨none, [], []⟩

section runs

variable {Cond : View → RaftMachine → World MachineEvent → NodeOp → Prop}

theorem answersFit_none {answers : Answers} (h : ∀ idx change,
    answers.applyConfChange idx change = none) : AnswersFit answers := by
  intro idx change cs hcs
  rw [h idx change] at hcs
  cases hcs

/-- The configuration of a node on its own fits. -/
theorem bootFits_alone {m : ColumnFamily} (h : confStateIn m = some ConfState.default) :
    BootFits ⟨none, .follower, ∅⟩ m := by
  intro cs hcs
  obtain rfl := Option.some.inj (h.symm.trans hcs)
  decide +kernel

theorem booted_restartRun (Cond : View → RaftMachine → World MachineEvent → NodeOp → Prop) :
    RestartRun dataRoute Cond booted.1.1 booted.2 ⟨0, 0⟩ := by
  have happ : booted.1.2.applied.toNat = 0 := by decide +kernel
  have hr : RestartRun dataRoute Cond booted.1.1 booted.2 ⟨_, _⟩ :=
    .boot (bootFits_alone (by decide +kernel)) completes_booted
  rwa [happ] at hr

theorem twoCycle_contract (m : ColumnFamily) :
    (NodeOp.cycle twoCycle m).Contract ⟨0, 0⟩ booted.1.1 booted.2 := by
  refine ⟨?_, fun hsnap => absurd rfl hsnap, answersFit_none fun _ _ => rfl⟩
  constructor
  · exact fun hsnap => absurd rfl hsnap
  · intro e he
    obtain rfl | rfl : e = _ ∨ e = _ := by simpa [twoCycle, firstTwo] using he
    · decide
    · decide
  · rfl
  · exact Nat.zero_le 2
  · exact Nat.le_refl 2
  · exact Nat.zero_le 2
  · exact Nat.le_refl 2
  · intro core w' h
    obtain ⟨rfl, rfl⟩ := (completes_of_run (completes_finish _ _ (by decide +kernel))).mp h
    decide +kernel

theorem twoCommitted_run (hC : Cond ⟨0, 0⟩ booted.1.1 booted.2 (.cycle twoCycle ∅)) :
    RestartRun dataRoute Cond twoCommitted.1 twoCommitted.2 ⟨2, 2⟩ :=
  (booted_restartRun Cond).step (.cycle twoCycle ∅) (twoCycle_contract ∅) hC
    (completes_finish _ _ _)

theorem voteCycle_contract (m : ColumnFamily) :
    (NodeOp.cycle voteCycle m).Contract ⟨0, 0⟩ booted.1.1 booted.2 := by
  refine ⟨?_, fun hsnap => absurd rfl hsnap, answersFit_none fun _ _ => rfl⟩
  constructor
  · exact fun hsnap => absurd rfl hsnap
  · rintro e ⟨⟩
  · rfl
  · exact Nat.le_refl 0
  · exact Nat.le_refl 0
  · exact Nat.le_refl 0
  · exact Nat.le_refl 0
  · exact fun core w' _ => Nat.zero_le _

theorem receiver_run (hC : Cond ⟨0, 0⟩ booted.1.1 booted.2 (.cycle voteCycle ∅)) :
    RestartRun dataRoute Cond receiver.1 receiver.2 ⟨0, 0⟩ :=
  (booted_restartRun Cond).step (.cycle voteCycle ∅) (voteCycle_contract ∅) hC
    (completes_finish _ _ _)

/-- A snapshot of the two entries may be installed over the vote. -/
theorem installCycle_contract {s : Snapshot} {m : ColumnFamily}
    (hs : RaftMachineStorage.snapshotOf m = some s) (hsnap : s ≠ .default)
    (hidx : s.getMetadata.index = 2)
    (hfit : ConfFits (s.getMetadata.confState.getD ConfState.default))
    (hlog : ∀ core w', Completes (do
      receiver.1.sendMessage []
      let node ← receiver.1.saveSnapshot s
      node.saveEntries []) receiver.2 core w' →
        2 ≤ (lastIndexIn core.raftStorage (cluster w')).toNat) :
    (NodeOp.cycle (installCycle s) m).Contract ⟨0, 0⟩ receiver.1 receiver.2 := by
  have hbase : (installCycle s).base ⟨0, 0⟩ = ⟨2, 2⟩ := by
    rw [Cycle.base_eq hsnap, installCycle]
    simp [hidx]
  refine ⟨?_, fun _ => ⟨hs, hfit⟩, answersFit_none fun _ _ => rfl⟩
  constructor
  · exact fun _ => Nat.zero_le _
  · rintro e ⟨⟩
  · rfl
  · rw [hbase]
    exact Nat.le_refl 2
  · exact Nat.le_refl 2
  · rw [hbase]
    exact Nat.le_refl 2
  · rw [View.after, hbase]
    exact Nat.le_refl 2
  · exact hlog

end runs

/-- A snapshot that is taken may be cut after the write of the first index. -/
theorem NodeOp.mem_points_snapshot {route : Route (World MachineEvent)} {self : RaftMachine}
    {w : World MachineEvent} {s : Snapshot} (requestIndex : UInt64)
    (htrigger : self.raftStorage.triggerSnapUnavailable = false)
    (hs : RaftMachineStorage.snapshotOf (cluster w) = some s) {pt : Columns × List MachineEvent}
    (hpt : pt ∈ (putRecord w .firstIndex s.getMetadata.index).points) :
    pt ∈ ((NodeOp.snapshot requestIndex).run route self w).2.points := by
  have hcreate : Completes self.raftStorage.createSnapshot w (self.raftStorage.afterSnapshot s) _ :=
    RaftMachineStorage.completes_createSnapshot.mpr ⟨s, hs, rfl, rfl⟩
  have stored : Keeps (fun t : World MachineEvent => pt ∈ t.points)
      RaftMachineStorage.storedSnapshot :=
    keeps_of_readOnly _ RaftMachineStorage.storedSnapshot_run
  have meets : Meets ((NodeOp.snapshot requestIndex).run route self) w
      (fun _ t => pt ∈ t.points) fun t => pt ∈ t.points := by
    unfold NodeOp.run RaftRocksDBStorage.snapshot
    rw [meets_bind, htrigger, if_neg Bool.false_ne_true, meets_bind]
    unfold RaftMachineStorage.snapshot
    rw [meets_bind]
    refine meets_of_eq_ok hcreate ?_
    -- the stored snapshot is only read
    rw [meets_bind]
    refine (stored.meets (List.mem_cons_of_mem _ hpt) fun _ ht => ht).mono ?_ fun _ ht => ht
    intro snap t ht
    apply meets_pure.mpr
    dsimp only
    split_ifs
    · exact ht
    · exact ht
  exact meets.of_run

/-- The points between the two writes of a snapshot that is taken. -/
theorem NodeOp.mem_points_firstIndex {route : Route (World MachineEvent)} {self : RaftMachine}
    {w w' : World MachineEvent} {s : Snapshot} {idx : UInt64} (requestIndex : UInt64)
    (htrigger : self.raftStorage.triggerSnapUnavailable = false)
    (hs : Completes RaftMachineStorage.newSnapshot w s w') (hidx : s.getMetadata.index = idx) :
    ((putRecord w .firstIndex idx).columns, (putRecord w .firstIndex idx).events) ∈
      ((NodeOp.snapshot requestIndex).run route self w).2.points := by
  obtain ⟨hs, -⟩ := RaftMachineStorage.completes_newSnapshot.mp hs
  refine NodeOp.mem_points_snapshot requestIndex htrigger hs ?_
  rw [hidx]
  exact World.mem_points_self _

/-! ### An installation that is orderly -/

/-- The snapshot that the node of the two entries builds. -/
def twoSnapshot : Snapshot × World MachineEvent :=
  finish RaftMachineStorage.newSnapshot twoCommitted.2 (by decide +kernel)

theorem snapshotOf_twoCommitted :
    RaftMachineStorage.snapshotOf (cluster twoCommitted.2) = some twoSnapshot.1 :=
  (RaftMachineStorage.completes_newSnapshot.mp (completes_finish _ _ (by decide +kernel))).1

/-- The node that voted, once it installed the snapshot. -/
def receiverInstalled : RaftMachine × World MachineEvent :=
  finish (receiver.1.onReady DataRoute.route (installCycle twoSnapshot.1)) receiver.2
    (by decide +kernel)

/-- The node of the two entries recorded no first index, and the other one no last index. -/
theorem fitsOver_receiver : FitsOver (cluster twoCommitted.2) (cluster receiver.2) 2 where
  first fi hfi := by
    have hnone : recordedIndex (cluster twoCommitted.2) .firstIndex = none := by decide +kernel
    rw [hnone] at hfi
    cases hfi
  last li hli := by
    have hnone : recordedIndex (cluster receiver.2) .lastIndex = none := by decide +kernel
    rw [hnone] at hli
    cases hli
  sent li hli := by
    have htwo : recordedIndex (cluster twoCommitted.2) .lastIndex = some 2 := by decide +kernel
    obtain rfl := Option.some.inj (htwo.symm.trans hli)
    decide

theorem receiverInstalled_run : RestartRun dataRoute NodeOp.Orderly receiverInstalled.1
    receiverInstalled.2 ⟨2, 2⟩ := by
  have hidx : twoSnapshot.1.getMetadata.index = 2 := by decide +kernel
  have hcontract := installCycle_contract snapshotOf_twoCommitted (by decide +kernel) hidx
    (by decide +kernel) (by
      intro core w' h
      obtain ⟨rfl, rfl⟩ := (completes_of_run (completes_finish _ _ (by decide +kernel))).mp h
      decide +kernel)
  -- the vote left no bounds that the snapshot has to fit
  have horderly : (NodeOp.cycle (installCycle twoSnapshot.1) (cluster twoCommitted.2)).Orderly
      ⟨0, 0⟩ receiver.1 receiver.2 := by
    intro _ _
    rw [show (installCycle twoSnapshot.1).ready.snapshot.getMetadata.index = 2 from hidx]
    exact fitsOver_receiver
  have hview : (View.mk 0 0).after (installCycle twoSnapshot.1) = ⟨2, 2⟩ := by decide +kernel
  have hr := (receiver_run fun hsnap => absurd rfl hsnap).step _ hcontract horderly
    (completes_finish _ _ (by decide +kernel))
  rwa [NodeOp.view, hview] at hr

/-- The contents between the two writes of a snapshot that the node takes in turn. -/
def receiverCut : World MachineEvent := putRecord receiverInstalled.2 .firstIndex (2 : UInt64)

theorem receiverCut_mem_points : (receiverCut.columns, receiverCut.events) ∈
    ((NodeOp.snapshot 0).run dataRoute.route receiverInstalled.1
      receiverInstalled.2).2.points :=
  NodeOp.mem_points_firstIndex 0 (by decide +kernel) (completes_finish _ _ (by decide +kernel))
    (by decide +kernel)

/-- The node can restart where its snapshot is cut. -/
theorem canRestart_receiverCut : CanRestart (receiverCut.columns, receiverCut.events) ∧
    OpensInBounds (receiverCut.columns, receiverCut.events) := by
  refine (canRestart_of_run receiverInstalled_run).2 (.snapshot 0) trivial ?_ _
    receiverCut_mem_points
  intro hs hhs
  have hstored : hardStateIn (cluster receiverInstalled.2) = some ⟨1, 2, 2⟩ := by decide +kernel
  obtain rfl := Option.some.inj (hstored.symm.trans hhs)
  decide

/-! ### An installation that is cut -/

/-- The contents between the two writes of a snapshot. -/
def cut : World MachineEvent := putRecord twoCommitted.2 .firstIndex (2 : UInt64)

theorem cut_mem_points : (cut.columns, cut.events) ∈
    ((NodeOp.snapshot 0).run dataRoute.route twoCommitted.1 twoCommitted.2).2.points :=
  NodeOp.mem_points_firstIndex 0 (by decide +kernel) (completes_finish _ _ (by decide +kernel))
    (by decide +kernel)

/-- A node that comes up after a crash while it took a snapshot. -/
def sender : (RaftMachine × Config) × World MachineEvent :=
  finish (RaftMachine.boot ⟨none, .follower, ∅⟩) (World.reopen cut.columns cut.events)
    (by decide +kernel)

theorem completes_sender :
    Completes (RaftMachine.boot ⟨none, .follower, ∅⟩) (World.reopen cut.columns cut.events)
      (sender.1.1, sender.1.2) sender.2 := completes_finish _ _ _

/-- The snapshot that it builds. -/
def sent : Snapshot × World MachineEvent :=
  finish RaftMachineStorage.newSnapshot sender.2 (by decide +kernel)

theorem snapshotOf_sender : RaftMachineStorage.snapshotOf (cluster sender.2) = some sent.1 :=
  (RaftMachineStorage.completes_newSnapshot.mp (completes_finish _ _ (by decide +kernel))).1

theorem sender_run : RestartRun dataRoute (fun _ _ _ _ => True) sender.1.1 sender.2 ⟨2, 2⟩ := by
  have happ : sender.1.2.applied.toNat = 2 := by decide +kernel
  have hfit : BootFits ⟨none, .follower, ∅⟩ (cluster cut) := bootFits_alone (by decide +kernel)
  have hr : RestartRun dataRoute (fun _ _ _ _ => True) sender.1.1 sender.2 ⟨_, _⟩ :=
    (twoCommitted_run trivial).crash (.snapshot 0) trivial trivial cut_mem_points hfit
      completes_sender
  rwa [happ] at hr

theorem sent_contract : (NodeOp.cycle (installCycle sent.1) (cluster sender.2)).Contract ⟨0, 0⟩
    receiver.1 receiver.2 :=
  installCycle_contract snapshotOf_sender (by decide +kernel) (by decide +kernel)
    (by decide +kernel) (by
      intro core w' h
      obtain ⟨rfl, rfl⟩ := (completes_of_run (completes_finish _ _ (by decide +kernel))).mp h
      decide +kernel)

/-- A node that voted, and stops during the installation once the first index was restored, does not
come up again: its hard state is that of its vote, with the commit index `0`. -/
theorem first_index_without_commit :
    RestartRun dataRoute (fun _ _ _ _ => True) sender.1.1 sender.2 ⟨2, 2⟩ ∧
      RestartRun dataRoute (fun _ _ _ _ => True) receiver.1 receiver.2 ⟨0, 0⟩ ∧
      (NodeOp.cycle (installCycle sent.1) (cluster sender.2)).Contract ⟨0, 0⟩ receiver.1
        receiver.2 ∧
      ∃ pt ∈ ((NodeOp.cycle (installCycle sent.1) (cluster sender.2)).run dataRoute.route
        receiver.1 receiver.2).2.points,
          hardStateIn (pt.1 dbColumnFamilyCluster) = some ⟨1, 2, 0⟩ ∧
            recordedIndex (pt.1 dbColumnFamilyCluster) .firstIndex = some 2 ∧
              ¬ CanRestart pt := by
  have hpt : ∃ pt ∈ ((NodeOp.cycle (installCycle sent.1) (cluster sender.2)).run dataRoute.route
      receiver.1 receiver.2).2.points,
        hardStateIn (pt.1 dbColumnFamilyCluster) = some ⟨1, 2, 0⟩ ∧
          recordedIndex (pt.1 dbColumnFamilyCluster) .firstIndex = some 2 := by
    decide +kernel
  obtain ⟨pt, hmem, hhs, hfi⟩ := hpt
  exact ⟨sender_run, receiver_run trivial, sent_contract, pt, hmem, hhs, hfi,
    not_canRestart hhs (by decide) hfi (by decide)⟩

end PlacementCenter.Raft
