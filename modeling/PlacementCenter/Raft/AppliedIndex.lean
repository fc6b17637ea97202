import PlacementCenter.Raft.Cycles

/-!
# The commit index as the applied index

A restart takes the stored commit index for the index of the last applied entry. It is stored with
the hard state and on the way, before the entries it commits are routed, so a crash in between
skips an update for good, unless the entries that are still to be routed carry none.

## Main definitions

* `Entry.IsUpdate`: the entries that are passed to the route
* `NoSkippedUpdate`: at a crash point, every update up to the stored commit index was routed
* `Cycle.RoutesBeforeCommit`: no update is committed before it is routed
* `CrashRun`: the runs of cycles with a crash at any point, from the empty database

## Main results

* `Handled.onReady`: a cycle that routes before it commits skips no update, wherever it stops
* `noSkippedUpdate_of_run`: in a run of such cycles, no crash skips an update
-/

namespace PlacementCenter.Raft

open Rust Rust.Prost Storage Program

/-! ### Updates and crash points -/

/-- An entry that is passed to the route: a normal one with data. -/
def Entry.IsUpdate (e : Entry) : Prop :=
  e.data.val ≠ [] ∧ EntryType.fromI32 e.entryType = some .entryNormal

/-- Every update of the log up to the index `n` was passed to the route. -/
def RoutedUpTo (n : ℕ) (m : ColumnFamily) (es : List MachineEvent) : Prop :=
  ∀ i e, i.toNat ≤ n → entryIn m i = some (some e) → e.IsUpdate → .routed e ∈ es

/-- At a crash point, every update up to the stored commit index was passed to the route. -/
def NoSkippedUpdate (pt : Columns × List MachineEvent) : Prop :=
  ∀ hs, hardStateIn (pt.1 dbColumnFamilyCluster) = some hs →
    RoutedUpTo hs.commit.toNat (pt.1 dbColumnFamilyCluster) pt.2

/-- The largest commit index that is stored before the last entries of a cycle are routed. -/
def Cycle.commitBound (c : Cycle) : ℕ :=
  max ((c.ready.hs.map fun hs => hs.commit.toNat).getD 0)
    ((c.lightRd.commitIndex.map UInt64.toNat).getD 0)

/-- The cycle installs no snapshot, and commits none of its last updates before it is routed. -/
def Cycle.RoutesBeforeCommit (c : Cycle) : Prop :=
  c.ready.snapshot = .default ∧
    ∀ e ∈ c.lightRd.committedEntries, e.IsUpdate → c.commitBound < e.index.toNat

/-- The runs of cycles and crashes, from the empty database. A cycle may be cut at any point
between two effects; the process then comes up on what was written. -/
inductive CrashRun (router : Router MachineEvent) (Cond : Cycle → Prop) :
    RaftMachine → World MachineEvent → Progress → Prop where
  | boot {g self conf w hs}
    (h : Completes (RaftMachine.boot g) World.empty (self, conf) w)
    (hhs : hardStateIn (cluster w) = some hs) :
    CrashRun router Cond self w ⟨hs, conf.applied.toNat⟩
  | cycle {self self' w w' p} (c : Cycle) (hr : CrashRun router Cond self w p)
    (hc : c.Contract p w) (hcond : Cond c)
    (h : Completes (self.onReady router.route c) w self' w') :
    CrashRun router Cond self' w' (p.after c)
  | crash {self self' w w' p g conf hs} (c : Cycle) (hr : CrashRun router Cond self w p)
    (hc : c.Contract p w) (hcond : Cond c) {pt : Columns × List MachineEvent}
    (hpt : pt ∈ (self.onReady router.route c w).2.points)
    (h : Completes (RaftMachine.boot g) (World.reopen pt.1 pt.2) (self', conf) w')
    (hhs : hardStateIn (cluster w') = some hs) :
    CrashRun router Cond self' w' ⟨hs, conf.applied.toNat⟩

/-! ### The invariant -/

section invariant

variable {router : Router MachineEvent} {answers : Answers} {self self' : RaftMachine}
  {w w' : World MachineEvent} {n n' : ℕ}

/-- Every update up to the index `n` was routed, the stored commit index is at most `n`, and no
earlier crash point skips an update. -/
structure Handled (n : ℕ) (w : World MachineEvent) : Prop where
  routed : RoutedUpTo n (cluster w) w.events
  commit_le : ∀ hs, hardStateIn (cluster w) = some hs → hs.commit.toNat ≤ n
  past : ∀ pt ∈ w.past, NoSkippedUpdate pt

theorem RoutedUpTo.mono {m : ColumnFamily} {es : List MachineEvent} (h : RoutedUpTo n m es)
    (hn : n' ≤ n) : RoutedUpTo n' m es :=
  fun i e hi => h i e (Nat.le_trans hi hn)

theorem Handled.points (h : Handled n w) : ∀ pt ∈ w.points, NoSkippedUpdate pt := by
  intro pt hpt
  rcases List.mem_cons.mp hpt with rfl | hpt
  · exact fun hs hhs => h.routed.mono (h.commit_le hs hhs)
  · exact h.past pt hpt

/-- One effect keeps the invariant when it adds no log entry up to `n`, and stores no later commit
index. -/
theorem Handled.effect (h : Handled n w) (hpast : w'.past = w.points)
    (hev : w.events ⊆ w'.events)
    (hlog : ∀ i e, i.toNat ≤ n → entryIn (cluster w') i = some (some e) →
      entryIn (cluster w) i = some (some e))
    (hcommit : ∀ hs, hardStateIn (cluster w') = some hs → hs.commit.toNat ≤ n) : Handled n w' where
  routed i e hi he hu := hev (h.routed i e hi (hlog i e hi he) hu)
  commit_le := hcommit
  past := by
    rw [hpast]
    exact h.points

/-- A write of one key, as an effect. -/
theorem Handled.putKey (h : Handled n w) {k : Bytes} (v : Bytes)
    (hk : ∀ i : UInt64, i.toNat ≤ n → k ≠ (Record.entry i).key) (hhs : k ≠ Record.hardState.key) :
    Handled n (putKey w k v) := by
  refine h.effect rfl (fun _ he => he) (fun i e hi he => ?_) (fun hs hhs' => h.commit_le hs ?_)
  · rwa [cluster_putKey, entryIn_congr (OrdMap.lookup_insert_ne _ _ (hk i hi))] at he
  · rwa [cluster_putKey, hardStateIn_congr (OrdMap.lookup_insert_ne _ _ hhs)] at hhs'

theorem Handled.putHardState (h : Handled n w) {hs : HardState} (hn : hs.commit.toNat ≤ n) :
    Handled n (putRecord w .hardState (encodeToVec hs)) := by
  refine h.effect rfl (fun _ he => he) (fun i e _ he => ?_) (fun hs' hhs' => ?_)
  · rwa [cluster_putRecord, entryIn_insert_record _ (by simp)] at he
  · rw [cluster_putRecord, hardStateIn_insert_self, Option.some_inj] at hhs'
    rwa [← hhs']

theorem keptAside_handled (n : ℕ) : KeptAside (fun _ => True) (Handled n) where
  emit w e _ hw := hw.effect rfl (List.subset_cons_self e w.events) (fun _ _ _ he => he) hw.commit_le
  clients := by
    constructor
    · intro w k v hk hw
      exact hw.putKey v (fun i _ => ((Record.entry i).key_ne_of_client hk).symm)
        (Record.hardState.key_ne_of_client hk).symm
    · intro w k hk hw
      have hne : ∀ r : Record, ((cluster w).erase k)[r.key]? = (cluster w)[r.key]? := fun r =>
        OrdMap.lookup_erase_ne _ (r.key_ne_of_client hk).symm
      have hc : cluster (w.delete dbColumnFamilyCluster k) = (cluster w).erase k :=
        World.columns_delete_self w _ _
      refine hw.effect rfl (fun _ he => he) (fun i e _ he => ?_) (fun hs hhs => hw.commit_le hs ?_)
      · rwa [hc, entryIn_congr (hne _)] at he
      · rwa [hc, hardStateIn_congr (hne _)] at hhs
  records w r text hr hw := by
    refine hw.putKey _ (fun i _ => ?_) ?_ <;>
      rcases hr with rfl | rfl | rfl | rfl <;> simp

/-- The entries `es` are in the log. -/
def StoredAll (es : List Entry) (w : World MachineEvent) : Prop :=
  ∀ e ∈ es, entryIn (cluster w) e.index = some (some e)

theorem keptAside_storedAll (es : List Entry) : KeptAside (fun _ => True) (StoredAll es) where
  emit _ _ _ hw := hw
  clients := by
    constructor
    · intro w k v hk hw e he
      rw [cluster_putKey, entryIn_congr (OrdMap.lookup_insert_ne _ _
        ((Record.entry e.index).key_ne_of_client hk).symm)]
      exact hw e he
    · intro w k hk hw e he
      rw [cluster, World.columns_delete_self, entryIn_congr (OrdMap.lookup_erase_ne _
        ((Record.entry e.index).key_ne_of_client hk).symm)]
      exact hw e he
  records w r text hr hw e he := by
    rw [cluster_putKey, entryIn_insert_record _ (by rcases hr with rfl | rfl | rfl | rfl <;> simp)]
    exact hw e he

theorem KeptAside.and {A : MachineEvent → Prop} {P Q : World MachineEvent → Prop}
    (hP : KeptAside A P) (hQ : KeptAside A Q) : KeptAside A fun w => P w ∧ Q w where
  emit w e he hw := ⟨hP.emit w e he hw.1, hQ.emit w e he hw.2⟩
  clients :=
    { put := fun w k v hk hw => ⟨hP.clients.put w k v hk hw.1, hQ.clients.put w k v hk hw.2⟩
      delete := fun w k hk hw => ⟨hP.clients.delete w k hk hw.1, hQ.clients.delete w k hk hw.2⟩ }
  records w r text hr hw := ⟨hP.records w r text hr hw.1, hQ.records w r text hr hw.2⟩

/-- Updates up to `n` were routed, and the entries `es` of the cycle are in the log. -/
def HandledIn (es : List Entry) (n : ℕ) (w : World MachineEvent) : Prop :=
  Handled n w ∧ StoredAll es w

theorem keptAside_handledIn (es : List Entry) (n : ℕ) :
    KeptAside (fun _ => True) (HandledIn es n) :=
  (keptAside_handled n).and (keptAside_storedAll es)

theorem HandledIn.putHardState {es : List Entry} (h : HandledIn es n w) {hs : HardState}
    (hn : hs.commit.toNat ≤ n) : HandledIn es n (putRecord w .hardState (encodeToVec hs)) := by
  refine ⟨h.1.putHardState hn, fun e he => ?_⟩
  rw [cluster_putRecord, entryIn_insert_record _ (by simp)]
  exact h.2 e he

/-- The index moves over stored entries that carry no update or were routed. -/
theorem HandledIn.raise {es : List Entry} (h : HandledIn es n w) (hn : n ≤ n')
    (hes : ∀ i : UInt64, n < i.toNat → i.toNat ≤ n' →
      ∃ e ∈ es, e.index = i ∧ (e.IsUpdate → .routed e ∈ w.events)) : HandledIn es n' w := by
  refine ⟨⟨fun i e hi he hu => ?_, fun hs hhs => ?_, h.1.past⟩, h.2⟩
  · by_cases hle : i.toNat ≤ n
    · exact h.1.routed i e hle he hu
    · obtain ⟨e', he', rfl, hr⟩ := hes i (by omega) hi
      rw [h.2 e' he', Option.some_inj, Option.some_inj] at he
      subst he
      exact hr hu
  · exact Nat.le_trans (h.1.commit_le hs hhs) hn

/-! ### What a cycle keeps -/

/-- **An entry is routed before it is committed**, however its handling ends. -/
theorem HandledIn.handleEntry {es : List Entry} {e : Entry} (h : HandledIn es n w) (he : e ∈ es)
    (hn : e.index.toNat ≤ n + 1) :
    HandledIn es (max n e.index.toNat) (self.handleEntry router.route answers e w).2 := by
  have aside := keptAside_handledIn es (max n e.index.toNat)
  have raised : ∀ w, HandledIn es n w → (e.IsUpdate → .routed e ∈ w.events) →
      HandledIn es (max n e.index.toNat) w := by
    intro w hw hr
    refine hw.raise (Nat.le_max_left _ _) fun i hi hi' => ⟨e, he, ?_, hr⟩
    exact UInt64.toNat_inj.mp (by omega)
  -- the route comes first: once it ran, the index of the entry may be stored
  refine run_bind_of ?_ fun core => ?_
  · by_cases hu : e.IsUpdate
    · have hrouted := raised (w.emit (.routed e))
        ((keptAside_handledIn es n).emit w (.routed e) trivial h) fun _ => List.mem_cons_self
      have hrest : Keeps (HandledIn es (max n e.index.toNat)) _ :=
        keeps_bind (RaftMachine.keeps_routed aside.beside router e trivial (answers.now e.index)) fun _ =>
          keeps_pure self
      rw [RaftMachine.applyEntry, if_neg hu.1, hu.2]
      exact hrest _ hrouted
    · exact RaftMachine.keeps_applyEntry aside.beside router answers self trivial trivial w
        (raised w h fun hu' => absurd hu' hu)
  · exact RaftMachine.keeps_commitEntry aside core (fun _ => trivial) fun w e' hs hw _ _ =>
      hw.putHardState (Nat.le_max_right _ _)

/-- Entries that follow each other from `k + 1` on. -/
theorem HandledIn.handleCommittedEntries {es : List Entry} {k : ℕ} (L : List Entry)
    (h : HandledIn es n w) (hL : ∀ e ∈ L, e ∈ es) (hk : k ≤ n)
    (hi : L.map (fun e => e.index.toNat) = List.range' (k + 1) L.length) :
    Meets (self.handleCommittedEntries router.route answers L) w
      (fun _ t => HandledIn es (max n (k + L.length)) t)
      (fun t => ∀ pt ∈ t.points, NoSkippedUpdate pt) := by
  induction L generalizing self w n k with
  | nil =>
    rw [List.length_nil, Nat.add_zero, Nat.max_eq_left hk]
    exact h
  | cons e L ih =>
    rw [List.length_cons, List.range'_succ, List.map_cons] at hi
    obtain ⟨hik, hi⟩ := List.cons.inj hi
    have he : HandledIn es (max n e.index.toNat)
        (self.handleEntry router.route answers e w).2 :=
      h.handleEntry (hL e List.mem_cons_self) (by omega)
    rw [RaftMachine.handleCommittedEntries, List.foldlM_cons, meets_bind]
    -- when the head panics, nothing of the tail is stored
    refine meets_of_runs (fun core t hc => ?_) (fun m t hm => ?_)
    · rw [hc] at he
      refine (ih he (fun e he => hL e (List.mem_cons_of_mem _ he)) (k := k + 1) (by omega)
        hi).mono (fun _ t ht => ?_) fun _ ht => ht
      have hmax : max (max n e.index.toNat) (k + 1 + L.length) = max n (k + (e :: L).length) := by
        rw [List.length_cons]
        omega
      rwa [hmax] at ht
    · rw [hm] at he
      exact he.1.points

theorem keeps_saveHardState {es : List Entry} {o : Option HardState}
    (hn : ∀ hs ∈ o, hs.commit.toNat ≤ n) : Keeps (HandledIn es n) (RaftMachine.saveHardState o) := by
  cases o with
  | none => exact keeps_pure _
  | some hs => exact fun w hw => hw.putHardState (hn hs rfl)

theorem keeps_saveCommit {es : List Entry} {o : Option UInt64} (hn : ∀ k ∈ o, k.toNat ≤ n) :
    Keeps (HandledIn es n) (RaftMachine.saveCommit o) := by
  cases o with
  | none => exact keeps_pure _
  | some k =>
    refine keeps_bind (keeps_bind (keeps_bind keeps_hardState fun hs => ?_) fun _ =>
      keeps_pure _) fun _ => keeps_pure _
    have hk : ({ hs with commit := k } : HardState).commit.toNat ≤ n := hn k rfl
    exact fun w hw => hw.putHardState hk

/-- An append above `n` keeps the invariant. -/
theorem keeps_saveEntries {L : List Entry} (hL : ∀ e ∈ L, n < e.index.toNat) :
    Keeps (Handled n) (self.saveEntries L) := by
  have happend : ∀ core : RaftMachineStorage, Keeps (Handled n) (core.append L) := by
    refine fun core => keeps_of_bind_pure ((RaftOp.append L).keeps (fun w r text hr hw => ?_) core)
    refine hw.putKey _ (fun i hi => ?_) ?_
    · rcases hr with ⟨e, he, rfl⟩ | rfl | rfl
      · have := hL e he
        simp only [ne_eq, Record.key_inj, Record.entry.injEq]
        rintro rfl
        omega
      · simp
      · simp
    · rcases hr with ⟨e, he, rfl⟩ | rfl | rfl <;> simp
  unfold RaftMachine.saveEntries
  split_ifs
  · exact keeps_pure _
  · exact keeps_bind (keeps_bind (happend _) fun _ => keeps_pure _) fun _ => keeps_pure _

/-- What is stored ahead is delivered in the same cycle. -/
theorem Cycle.Contract.commitBound_le {c : Cycle} {p : Progress} (hc : c.Contract p w) :
    c.commitBound ≤ (p.after c).delivered := by
  refine Nat.max_le.mpr ⟨?_, ?_⟩
  · cases h : c.ready.hs with
    | none => exact Nat.zero_le _
    | some hs => exact hc.hs_commit_le hs h
  · cases h : c.lightRd.commitIndex with
    | none => exact Nat.zero_le _
    | some k => exact hc.commitIndex_le k h

/-- Where a cycle routes before it commits, what is stored ahead commits no update that was not
routed. -/
theorem HandledIn.ahead {c : Cycle} {p : Progress} (hc : c.Contract p w)
    (hk : c.RoutesBeforeCommit) {t : World MachineEvent}
    (h : HandledIn c.delivered (p.delivered + c.ready.committedEntries.length) t) :
    HandledIn c.delivered
      (max (p.delivered + c.ready.committedEntries.length) c.commitBound) t := by
  refine h.raise (Nat.le_max_left _ _) fun i hi hi' => ?_
  have hle := hc.commitBound_le
  rw [p.delivered_after c] at hle
  have hmem : i.toNat ∈ c.lightRd.committedEntries.map fun e => e.index.toNat := by
    rw [(Cycle.split_of_in_order hc.in_order).2, List.mem_range'_1]
    omega
  obtain ⟨e, he, hei⟩ := List.mem_map.mp hmem
  refine ⟨e, List.mem_append_right _ he, UInt64.toNat_inj.mp hei, fun hu => ?_⟩
  have := hk.2 e he hu
  omega

/-- **A cycle that routes before it commits skips no update**, wherever it stops. -/
theorem Handled.onReady {c : Cycle} {p : Progress} (h : Handled p.delivered w)
    (hc : c.Contract p w) (hk : c.RoutesBeforeCommit) :
    Meets (self.onReady router.route c) w (fun _ t => Handled (p.after c).delivered t)
      (fun t => ∀ pt ∈ t.points, NoSkippedUpdate pt) := by
  have messages : ∀ (core : RaftMachine) (n : ℕ) (ms : List RaftPreludeMessage),
      Keeps (HandledIn c.delivered n) (core.sendMessage ms) := fun core n ms =>
    RaftMachine.keeps_sendMessage
      (fun w _ _ hw => (keptAside_handledIn c.delivered n).emit w _ trivial hw) core ms
  have safe : ∀ {n : ℕ} (t : World MachineEvent), HandledIn c.delivered n t →
      ∀ pt ∈ t.points, NoSkippedUpdate pt := fun _ ht => ht.1.points
  have hbound : ∀ {a b : ℕ}, b ≤ c.commitBound → b ≤ max a c.commitBound := by
    intro a b hb
    omega
  obtain ⟨hfirst, hsecond⟩ := Cycle.split_of_in_order hc.in_order
  unfold RaftMachine.onReady
  rw [meets_bind]
  -- The messages leave the contents of the store.
  refine ((RaftMachine.keeps_sendMessage
    (P := fun t => Handled p.delivered t ∧ cluster t = cluster w)
    (fun t _ _ ht => ⟨(keptAside_handled _).emit t _ trivial ht.1, ht.2⟩) self c.ready.messages).meets
      ⟨h, rfl⟩ fun t ht => ht.1.points).mono (fun _ w₁ hw₁ => ?_) fun _ ht => ht
  obtain ⟨hw₁, hcl⟩ := hw₁
  rw [RaftMachine.saveSnapshot, if_pos hk.1, meets_bind, meets_pure, meets_bind]
  have happend : Handled p.delivered (self.saveEntries c.ready.entries w₁).2 :=
    keeps_saveEntries hc.appended_gt w₁ hw₁
  refine meets_of_runs (fun core w₂ h₂ => ?_) (fun m w₂ h₂ => ?_)
  swap
  · rw [h₂] at happend
    exact happend.points
  rw [h₂] at happend
  have hw₂ : HandledIn c.delivered p.delivered w₂ := by
    refine ⟨happend, fun e he => ?_⟩
    rw [(RaftMachine.completes_saveEntries h₂).2, cluster_appended_congr _ hcl]
    exact hc.stored hk.1 e he
  rw [meets_bind]
  refine (hw₂.handleCommittedEntries c.ready.committedEntries
    (fun e he => List.mem_append_left _ he) (Nat.le_refl _) hfirst).mono
      (fun core w₃ hw₃ => ?_) fun _ ht => ht
  rw [Nat.max_eq_right (Nat.le_add_right _ _)] at hw₃
  replace hw₃ := hw₃.ahead hc hk
  rw [meets_bind]
  refine ((keeps_saveHardState fun hs hhs => hbound ?_).meets hw₃ safe).mono
    (fun _ w₄ hw₄ => ?_) fun _ ht => ht
  · rw [Cycle.commitBound, hhs]
    exact Nat.le_max_left _ _
  rw [meets_bind]
  refine ((messages core _ _).meets hw₄ safe).mono (fun _ w₅ hw₅ => ?_) fun _ ht => ht
  rw [meets_bind]
  refine ((keeps_saveCommit fun k hk' => hbound ?_).meets hw₅ safe).mono
    (fun _ w₆ hw₆ => ?_) fun _ ht => ht
  · rw [Cycle.commitBound, hk']
    exact Nat.le_max_right _ _
  rw [meets_bind]
  refine ((messages core _ _).meets hw₆ safe).mono (fun _ w₇ hw₇ => ?_) fun _ ht => ht
  refine (hw₇.handleCommittedEntries c.lightRd.committedEntries
    (fun e he => List.mem_append_right _ he) (Nat.le_max_left _ _) hsecond).mono
      (fun core w₈ hw₈ => ?_) fun _ ht => ht
  have hle := hc.commitBound_le
  rw [p.delivered_after c] at hle
  have hmax : max (max (p.delivered + c.ready.committedEntries.length) c.commitBound)
      (p.delivered + c.ready.committedEntries.length + c.lightRd.committedEntries.length) =
        (p.after c).delivered := by
    rw [p.delivered_after c]
    omega
  rw [hmax] at hw₈
  exact hw₈.1

theorem Handled.points_onReady {c : Cycle} {p : Progress} (h : Handled p.delivered w)
    (hc : c.Contract p w) (hk : c.RoutesBeforeCommit) :
    ∀ pt ∈ (self.onReady router.route c w).2.points, NoSkippedUpdate pt :=
  ((h.onReady hc hk).mono (fun _ _ ht => ht.points) fun _ ht => ht).of_run

/-! ### Runs -/

/-- A process that comes up at a crash point without skipped updates takes them for applied. -/
theorem handled_of_boot {pt : Columns × List MachineEvent} (hpt : NoSkippedUpdate pt)
    {g : RaftGroupMetadata} {conf : Config}
    (h : Completes (RaftMachine.boot g) (World.reopen pt.1 pt.2) (self, conf) w') :
    Handled conf.applied.toNat w' := by
  obtain ⟨st, hs, cs, -, hhs, happ, -, rfl⟩ := completes_boot h
  have hw : Handled conf.applied.toNat (World.reopen pt.1 pt.2) := by
    rw [happ]
    refine ⟨hpt hs hhs, fun hs' hhs' => ?_, fun _ hpt => by cases hpt⟩
    obtain rfl : hs = hs' := Option.some_inj.mp (hhs.symm.trans hhs')
    exact Nat.le_refl _
  exact hw.putKey _ (fun i _ => by simp) (by simp)

theorem handled_of_run {p : Progress}
    (h : CrashRun router Cycle.RoutesBeforeCommit self w p) : Handled p.delivered w := by
  induction h with
  | @boot g self conf w hs h hhs =>
    have hempty : NoSkippedUpdate ((fun _ => ∅, []) : Columns × List MachineEvent) := by
      intro hs hhs i e _ he _
      simp at he
    exact handled_of_boot hempty h
  | @cycle self self' w w' p c hr hc hk h ih =>
    exact (ih.onReady hc hk).of_completes h
  | @crash self self' w w' p g conf hs c hr hc hk pt hpt h hhs ih =>
    exact handled_of_boot (ih.points_onReady hc hk pt hpt) h

/-- **No crash skips an update** in a run whose cycles route before they commit: neither between
two cycles nor within the next one. -/
theorem noSkippedUpdate_of_run {p : Progress}
    (h : CrashRun router Cycle.RoutesBeforeCommit self w p) :
    (∀ pt ∈ w.points, NoSkippedUpdate pt) ∧
      ∀ c : Cycle, c.Contract p w → c.RoutesBeforeCommit →
        ∀ pt ∈ (self.onReady router.route c w).2.points, NoSkippedUpdate pt := by
  have hw := handled_of_run h
  exact ⟨hw.points, fun c hc hk => hw.points_onReady hc hk⟩

end invariant

/-! ### An update that is committed as it arrives -/

/-- An update of term `1`. -/
def update : Entry :=
  { Entry.default with term := 1, index := 1, data := ⟨[0], by decide⟩ }

theorem booted_crashRun (Cond : Cycle → Prop) :
    CrashRun dataRoute Cond booted.1.1 booted.2 noProgress := by
  have happ : booted.1.2.applied = 0 := by decide +kernel
  have hr := @CrashRun.boot dataRoute Cond _ _ _ _ _ completes_booted hardStateIn_booted
  rwa [happ] at hr

/-- The node takes the update for applied that was not routed: the crash comes after the hard
state was stored, and before the last entries of the cycle are routed. -/
theorem crash_skips_update :
    CrashRun dataRoute (fun _ => True) booted.1.1 booted.2 noProgress ∧
      (learnCycle update ⟨1, 0, 1⟩).Contract noProgress booted.2 ∧
      ∃ pt ∈ (booted.1.1.onReady DataRoute.route (learnCycle update ⟨1, 0, 1⟩) booted.2).2.points,
        hardStateIn (pt.1 dbColumnFamilyCluster) = some ⟨1, 0, 1⟩ ∧
          entryIn (pt.1 dbColumnFamilyCluster) 1 = some (some update) ∧ pt.2.length = 0 ∧
          ¬ NoSkippedUpdate pt := by
  have hpt : ∃ pt ∈ (booted.1.1.onReady DataRoute.route (learnCycle update ⟨1, 0, 1⟩)
      booted.2).2.points, hardStateIn (pt.1 dbColumnFamilyCluster) = some ⟨1, 0, 1⟩ ∧
        entryIn (pt.1 dbColumnFamilyCluster) 1 = some (some update) ∧ pt.2.length = 0 := by
    decide +kernel
  obtain ⟨pt, hmem, hhs, he, hev⟩ := hpt
  refine ⟨booted_crashRun _, learnCycle_contract rfl (by decide) (by decide), pt, hmem, hhs, he,
    hev, fun h => ?_⟩
  have hrouted := h _ hhs 1 update (by decide) he ⟨by decide, rfl⟩
  rw [List.length_eq_zero_iff.mp hev] at hrouted
  cases hrouted

/-- The cycle that stores the update, before it is committed. -/
def storeCycle : Cycle where
  now _ := 0
  applyConfChange _ _ := none
  ready := ⟨[], .default, [update], [], some ⟨1, 0, 0⟩, []⟩
  lightRd := ⟨none, [], []⟩

/-- The cycle that commits it. -/
def commitCycle : Cycle where
  now _ := 0
  applyConfChange _ _ := none
  ready := ⟨[], .default, [], [update], some ⟨1, 0, 1⟩, []⟩
  lightRd := ⟨none, [], []⟩

/-- The node after the update was stored. -/
def storedUpdate : RaftMachine × World MachineEvent :=
  finish (booted.1.1.onReady DataRoute.route storeCycle) booted.2 (by decide +kernel)

theorem storedUpdate_run : CrashRun dataRoute Cycle.RoutesBeforeCommit storedUpdate.1
    storedUpdate.2 (noProgress.after storeCycle) := by
  refine .cycle storeCycle (booted_crashRun _) ?_ ⟨rfl, by rintro e ⟨⟩⟩ (completes_finish _ _ _)
  constructor
  · exact fun hs _ => UInt64.zero_le
  · intro e he
    obtain rfl : e = update := by simpa [storeCycle] using he
    decide
  · rfl
  · rintro - e ⟨⟩
  · rintro e ⟨⟩
  · rintro hs ⟨⟩
    decide
  · rintro k ⟨⟩

theorem commitCycle_contract : commitCycle.Contract (noProgress.after storeCycle) storedUpdate.2 := by
  have he : entryIn (cluster storedUpdate.2) 1 = some (some update) := by decide +kernel
  constructor
  · rintro hs ⟨⟩
    decide
  · rintro e ⟨⟩
  · rfl
  · intro _ e he'
    obtain rfl : e = update := by simpa [commitCycle, Cycle.delivered] using he'
    exact he
  · intro e he'
    obtain rfl : e = update := by simpa [commitCycle, Cycle.delivered] using he'
    decide
  · rintro hs ⟨⟩
    decide
  · rintro k ⟨⟩

theorem noSkippedUpdate_commitCycle :
    (∀ pt ∈ storedUpdate.2.points, NoSkippedUpdate pt) ∧
      ∀ pt ∈ (storedUpdate.1.onReady DataRoute.route commitCycle storedUpdate.2).2.points,
        NoSkippedUpdate pt := by
  have h := noSkippedUpdate_of_run storedUpdate_run
  exact ⟨h.1, h.2 commitCycle commitCycle_contract ⟨rfl, by rintro e ⟨⟩⟩⟩

end PlacementCenter.Raft
