import PlacementCenter.Openraft.Builders
import PlacementCenter.Openraft.LogRuns

/-!
# The order of the stored snapshots

Builders and installations store their snapshots under one key. An installation is not below the
position of the state machine, and so not below what is stored. A builder keeps the position it was
handed out at, while newer snapshots are stored: the one it stores then may be older.

## Main definitions

* `storedLogId M w`: the position of the stored snapshot
* `NeverBack M start w`: the position did not decrease at any point between two writes
* `Node.InOrder`: what openraft calls the worker with
* `Node.Current`: a builder stores a snapshot that is not older than the stored one

## Main results

* `neverBack_extend`: one more snapshot
* `Node.Ordered.step`: what is stored or may be built is not above the position of the state machine
* `Node.neverBack_iff`: **the stored snapshot never goes backwards** exactly in the runs in which
  every builder is `Current`
-/

namespace PlacementCenter.Openraft

open Rust Program LogId

variable {ε M : Type} [SerdeJson M]

/-- The position of the stored snapshot. -/
def storedLogId (M : Type) [SerdeJson M] (w : Journal ε) : Option LogId :=
  (StateMachineStore.snapshotIn M w).bind fun snap => snap.metadata.lastLogId

/-- The position of the stored snapshot did not decrease since `start`, at any point between two
writes. -/
def NeverBack (M : Type) [SerdeJson M] (start w : Journal ε) : Prop :=
  ∀ p q : Journal ε, start.IsPrefix p → p.IsPrefix q → q.IsPrefix w →
    AtMost (storedLogId M p) (storedLogId M q)

@[simp] theorem storedLogId_extend (w : Journal ε) (snap : StoredSnapshot M) :
    storedLogId M (w.extend (StateMachineStore.snapshotEffects snap)) = snap.metadata.lastLogId := by
  rw [storedLogId, StateMachineStore.snapshotIn_extend_snapshotEffects, Option.bind_some]

theorem storedLogId_part (w : Journal ε) (snap : StoredSnapshot M) {part : List (Effect ε)}
    (h : part <+: StateMachineStore.snapshotEffects snap) :
    part = [] ∨ storedLogId M (w.extend part) = snap.metadata.lastLogId := by
  refine (StateMachineStore.snapshotIn_part w snap h).imp_right fun hnew => ?_
  rw [storedLogId, hnew, Option.bind_some]

theorem neverBack_refl (w : Journal ε) : NeverBack M w w := by
  intro p q hp hpq hq
  have hpw : p.effects = w.effects := (hpq.trans hq).eq_of_length_le hp.length_le
  have hqw : q.effects = w.effects := hq.eq_of_length_le (hp.trans hpq).length_le
  obtain ⟨effects⟩ := p
  obtain ⟨effects'⟩ := q
  cases hpw
  cases hqw
  exact AtMost.refl _

/-- **One more snapshot** keeps the order exactly when it is not older than the stored one. -/
theorem neverBack_extend {start w : Journal ε} (hw : start.IsPrefix w) (snap : StoredSnapshot M) :
    NeverBack M start (w.extend (StateMachineStore.snapshotEffects snap)) ↔
      NeverBack M start w ∧ AtMost (storedLogId M w) snap.metadata.lastLogId := by
  constructor
  · intro h
    refine ⟨fun p q hp hpq hq => h p q hp hpq (hq.trans (List.prefix_append _ _)), ?_⟩
    rw [← storedLogId_extend w snap]
    exact h w _ hw (List.prefix_append _ _) (Journal.IsPrefix.refl _)
  -- the later of two points is old, or new with the earlier one old or new
  · rintro ⟨h, hle⟩ p q hp hpq hq
    rcases Journal.isPrefix_extend.mp hq with hq | ⟨part, hpart, rfl⟩
    · exact h p q hp hpq hq
    · rcases storedLogId_part w snap hpart with rfl | hnew
      · rw [Journal.extend_nil] at hpq ⊢
        exact h p w hp hpq (Journal.IsPrefix.refl w)
      · rw [hnew]
        rcases Journal.isPrefix_extend.mp hpq with hpw | ⟨part', hpart', rfl⟩
        · exact (h p w hp hpw (Journal.IsPrefix.refl w)).trans hle
        · rcases storedLogId_part w snap (hpart'.trans hpart) with rfl | hnew'
          · rwa [Journal.extend_nil]
          · rw [hnew']
            exact AtMost.refl _

namespace Node

/-! ### The position of the state machine -/

/-- What openraft calls the worker with: entries and snapshots that are not below the position of
the state machine. -/
def InOrder (n : Node ε M) : Action M → Prop
  | .apply e => AtMost n.core.data.lastAppliedLogId (some e.logId)
  | .install snap => AtMost n.core.data.lastAppliedLogId snap.metadata.lastLogId
  | _ => True

/-- A builder stores a snapshot that is not older than the stored one. -/
def Current (n : Node ε M) : Action M → Prop
  | .build b => AtMost (storedLogId M n.memory.base) b.core.data.lastAppliedLogId
  | _ => True

/-- What is stored, and what may be built, is not above the position of the state machine. -/
structure Ordered (n : Node ε M) : Prop where
  stored : AtMost (storedLogId M n.memory.base) n.core.data.lastAppliedLogId
  builders : ∀ b ∈ n.builders, AtMost b.core.data.lastAppliedLogId n.core.data.lastAppliedLogId
  installing : ∀ snap ∈ n.installing, snap.metadata.lastLogId = n.core.data.lastAppliedLogId

/-- The worker moved on to a later position. -/
theorem Ordered.advance {n n' : Node ε M} (h : n.Ordered)
    (hbase : n'.memory.base = n.memory.base)
    (hlast : AtMost n.core.data.lastAppliedLogId n'.core.data.lastAppliedLogId)
    (hb : n'.builders = n.builders)
    (hi : ∀ snap ∈ n'.installing, snap.metadata.lastLogId = n'.core.data.lastAppliedLogId) :
    n'.Ordered where
  stored := by
    rw [hbase]
    exact h.stored.trans hlast
  builders b hmem := (h.builders b (hb ▸ hmem)).trans hlast
  installing := hi

/-- **A step keeps the order** of the positions. -/
theorem Ordered.step {n n' : Node ε M} {a : Action M} (h : n.Ordered) (ha : n.InOrder a)
    (hs : Step a n n') : n'.Ordered := by
  have hbase := hs.base_eq
  cases hs with
  -- the worker moves on
  | @apply n e reply core memory hw hrun =>
    obtain ⟨hr, -⟩ := (completes_of_run (n.core.applyEntry_run n.memory e)).mp hrun
    cases hr
    refine h.advance (hbase.trans (Journal.extend_nil _)) ha rfl fun snap hsnap => ?_
    rw [hw] at hsnap
    cases hsnap
  | handOut hw =>
    refine ⟨h.stored, fun b hb => ?_, h.installing⟩
    rcases List.mem_cons.mp hb with rfl | hb
    · exact AtMost.refl _
    · exact h.builders b hb
  | install hw hrun =>
    obtain ⟨kvs, -, rfl, -⟩ := updateStateMachine_ok hrun
    refine h.advance (hbase.trans (Journal.extend_nil _)) ha rfl fun snap hsnap => ?_
    cases hsnap
    rfl
  | refuse hw hrun =>
    obtain ⟨rfl, rfl⟩ := updateStateMachine_error hrun
    exact h
  -- what is stored is the snapshot that was installed
  | @store n snap memory hw hrun =>
    refine ⟨?_, h.builders, fun s hs => by cases hs⟩
    rw [hbase]
    exact (storedLogId_extend _ snap).symm ▸ h.installing snap hw ▸ AtMost.refl _
  | @read n b l r kvs memory hb hrun =>
    obtain ⟨-, rfl⟩ := (completes_of_run (Memory.read_run _ _)).mp hrun
    exact ⟨h.stored, forall_builders hb h.builders fun hlabel => hlabel, h.installing⟩
  -- what is stored is at the position of the builder
  | @build n b l r kvs snap memory hb hr hrun =>
    have hlabel := h.builders b (hb ▸ List.mem_append_right _ List.mem_cons_self)
    refine ⟨?_, forall_builders hb h.builders fun hlabel => hlabel, h.installing⟩
    rw [hbase, Action.stored, hr]
    exact (storedLogId_extend n.memory.base (b.core.snapshotOf kvs)).symm ▸ hlabel

variable [Inhabited M] {m : Memory (Journal ε) Kvs} {start n : Node ε M}

/-- A store that was just opened is at the position of the stored snapshot. -/
theorem Starts.ordered (h : Starts m start) : start.Ordered := by
  obtain ⟨hbase, hat⟩ := h.position
  refine ⟨?_, fun b hb => ?_, fun snap hsnap => ?_⟩
  · rw [storedLogId, hbase]
    rcases hs : StateMachineStore.snapshotIn M m.base with _ | snap
    · exact atMost_none _
    · rw [hs] at hat
      rw [hat.1]
      exact AtMost.refl _
  · rw [h.builders] at hb
    cases hb
  · rw [h.installing] at hsnap
    cases hsnap

/-! ### Runs -/

/-- **Every run keeps the order** of the positions. -/
theorem ordered_of_run {C : Node ε M → Action M → Prop} (hs : Starts m start)
    (hC : ∀ n a, C n a → n.InOrder a) (h : Run C start n) : n.Ordered := by
  induction h with
  | start => exact hs.ordered
  | step _ ha hstep ih => exact ih.step (hC _ _ ha) hstep

omit [Inhabited M] in
theorem Run.isPrefix {C : Node ε M → Action M → Prop} (h : Run C start n) :
    start.memory.base.IsPrefix n.memory.base := by
  induction h with
  | start => exact Journal.IsPrefix.refl _
  | step _ _ hstep ih =>
    rw [hstep.base_eq]
    exact ih.trans (List.prefix_append _ _)

omit [Inhabited M] in
/-- A step that stores nothing keeps what is stored. -/
theorem neverBack_quiet {a : Action M} (h : a.stored = none) (hc : n.Current a) :
    NeverBack M start.memory.base (n.memory.base.extend (effects a.stored)) ↔
      NeverBack M start.memory.base n.memory.base ∧ n.Current a := by
  rw [h, effects, Option.elim_none, Journal.extend_nil, and_iff_left hc]

omit [Inhabited M] in
/-- **One step** keeps the stored snapshots in order exactly when a builder is current. -/
theorem Ordered.neverBack_step {n n' : Node ε M} {a : Action M} (h : n.Ordered)
    (hpre : start.memory.base.IsPrefix n.memory.base) (hs : Step a n n') :
    NeverBack M start.memory.base n'.memory.base ↔
      NeverBack M start.memory.base n.memory.base ∧ n.Current a := by
  rw [hs.base_eq]
  cases hs with
  | @store n snap memory hw hrun =>
    have hle : AtMost (storedLogId M n.memory.base) snap.metadata.lastLogId :=
      (h.installing snap hw).symm ▸ h.stored
    exact (neverBack_extend hpre snap).trans (and_congr_right fun _ => iff_of_true hle trivial)
  | @build n b l r kvs snap memory hb hr hrun =>
    rw [Action.stored, hr]
    exact neverBack_extend hpre (b.core.snapshotOf kvs)
  | apply hw hrun => exact neverBack_quiet rfl trivial
  | handOut hw => exact neverBack_quiet rfl trivial
  | install hw hrun => exact neverBack_quiet rfl trivial
  | refuse hw hrun => exact neverBack_quiet rfl trivial
  | read hb hrun => exact neverBack_quiet rfl trivial

/-- **The stored snapshot never goes backwards**, at any point between two writes, exactly in the
runs in which no builder stores a snapshot that is older than the stored one. -/
theorem neverBack_iff (hs : Starts m start) (h : Run InOrder start n) :
    NeverBack M start.memory.base n.memory.base ↔
      Run (fun n a => n.InOrder a ∧ n.Current a) start n := by
  constructor
  · intro hnever
    induction h with
    | start => exact .start
    | step hr ha hstep ih =>
      have hord := ordered_of_run hs (fun _ _ ha => ha) hr
      obtain ⟨hnever, hc⟩ := (hord.neverBack_step hr.isPrefix hstep).mp hnever
      exact (ih hnever).step ⟨ha, hc⟩ hstep
  · clear h
    intro h
    induction h with
    | start => exact neverBack_refl _
    | step hr hc hstep ih =>
      have hord := ordered_of_run hs (fun _ _ hc => hc.1) hr
      exact (hord.neverBack_step hr.isPrefix hstep).mpr ⟨ih, hc.2⟩

/-! ### A builder that is overtaken -/

theorem blankEntry_lt_secondEntry : blankEntry.logId < secondEntry.logId := by decide

/-- The first of two builders stores its snapshot after the second. -/
theorem older_snapshot_stored : ∃ n : Node Unit Configs, Run InOrder (opened Unit Configs) n ∧
    ¬ NeverBack Configs (opened Unit Configs).memory.base n.memory.base := by
  have h : Run InOrder (opened Unit Configs) (opened Unit Configs) := .start
  have h := h.step (a := .apply blankEntry) (atMost_none _)
    (.apply rfl (StateMachineStore.applyEntry_run _ _ _))
  have h := h.step (a := .handOut) trivial (.handOut rfl)
  have h := h.step (a := .apply secondEntry) (atMost_some.mpr (le_of_lt blankEntry_lt_secondEntry))
    (.apply rfl (StateMachineStore.applyEntry_run _ _ _))
  have h := h.step (a := .handOut) trivial (.handOut rfl)
  -- the second builder reads the map and stores its snapshot
  have h := h.step (a := .read _) trivial (.read (l := []) rfl (Memory.read_run _ _))
  have h := h.step (a := .build _) trivial
    (.build (l := []) rfl rfl (StateMachineStore.storeSnapshot_run _ _ _))
  -- then the first one does
  have h := h.step (a := .read _) trivial (.read (l := [_]) rfl (Memory.read_run _ _))
  have h := h.step (a := .build _) trivial
    (.build (l := [_]) rfl rfl (StateMachineStore.storeSnapshot_run _ _ _))
  refine ⟨_, h, fun hnever => ?_⟩
  have hle := ((neverBack_extend List.nil_prefix _).mp hnever).2
  rw [storedLogId_extend] at hle
  exact absurd (atMost_some.mp hle) (not_le_of_gt blankEntry_lt_secondEntry)

/-- A snapshot that the leader sends. -/
def sentSnapshot : StoredSnapshot Configs :=
  ⟨⟨some thirdEntry.logId, default, ""⟩, SerdeJson.toVec (∅ : Kvs)⟩

/-- After a snapshot was stored, a builder with a later position is current. -/
theorem current_of_stored {n : Node Unit Configs} {w : Journal Unit} {snap : StoredSnapshot Configs}
    {b : Builder Configs} (hbase : n.memory.base = w.extend (StateMachineStore.snapshotEffects snap))
    (hle : AtMost snap.metadata.lastLogId b.core.data.lastAppliedLogId) : n.Current (.build b) := by
  rwa [Current, hbase, storedLogId_extend]

theorem secondEntry_lt_thirdEntry : secondEntry.logId < thirdEntry.logId := by decide

/-- The two builders store their snapshots in the other order, and the worker installs one. -/
theorem neverBack_installed : ∃ n : Node Unit Configs, n.built.length = 2 ∧
    storedLogId Configs n.memory.base = some thirdEntry.logId ∧
    NeverBack Configs (opened Unit Configs).memory.base n.memory.base := by
  have h : Run (fun n a => n.InOrder a ∧ n.Current a) (opened Unit Configs) (opened Unit Configs) :=
    .start
  have h := h.step (a := .apply blankEntry) ⟨atMost_none _, trivial⟩
    (.apply rfl (StateMachineStore.applyEntry_run _ _ _))
  have h := h.step (a := .handOut) ⟨trivial, trivial⟩ (.handOut rfl)
  have h := h.step (a := .apply secondEntry)
    ⟨atMost_some.mpr (le_of_lt blankEntry_lt_secondEntry), trivial⟩
    (.apply rfl (StateMachineStore.applyEntry_run _ _ _))
  have h := h.step (a := .handOut) ⟨trivial, trivial⟩ (.handOut rfl)
  -- the first builder stores its snapshot, then the second one does
  have h := h.step (a := .read _) ⟨trivial, trivial⟩ (.read (l := [_]) rfl (Memory.read_run _ _))
  have h := h.step (a := .build _) ⟨trivial, atMost_none _⟩
    (.build (l := [_]) rfl rfl (StateMachineStore.storeSnapshot_run _ _ _))
  have h := h.step (a := .read _) ⟨trivial, trivial⟩ (.read (l := []) rfl (Memory.read_run _ _))
  have h := h.step (a := .build _)
    ⟨trivial, by
      exact current_of_stored rfl (atMost_some.mpr (le_of_lt blankEntry_lt_secondEntry))⟩
    (.build (l := []) rfl rfl (StateMachineStore.storeSnapshot_run _ _ _))
  -- the snapshot of the leader reaches further
  have h := h.step (a := .install sentSnapshot)
    ⟨atMost_some.mpr (le_of_lt secondEntry_lt_thirdEntry), trivial⟩
    (.install rfl (StateMachineStore.updateStateMachine_run _ _ (SerdeJson.fromSlice_toVec _)))
  have h := h.step (a := .store sentSnapshot) ⟨trivial, trivial⟩
    (.store rfl (StateMachineStore.setCurrentSnapshot_run _ _))
  exact ⟨_, rfl, storedLogId_extend _ sentSnapshot,
    (neverBack_iff starts_opened (h.mono fun _ _ hC => hC.1)).mpr h⟩

end Node

end PlacementCenter.Openraft
