import PlacementCenter.Openraft.Builders
import PlacementCenter.Openraft.LogRuns
import PlacementCenter.Rust.Text

/-!
# Ids of snapshots

The id of a snapshot is the position of its builder and the number of the builder. The store counts
the builders it hands out in memory only, so the count starts again after a restart: within one life
the ids are different, and across a restart they repeat when the position does.

## Main definitions

* `Lives σ M`: a node with its builders and the snapshots of its lives
* `Lives.Step`, `Lives.Run C start n`: the steps of the node, and the runs whose steps meet `C`
* `Lives.Counts`, `Lives.NotRepeated`: the counter does not run over, and a build does not repeat
  the position and the number of an earlier life
* `Lives.UniqueIds`: no two snapshots have the same id

## Main results

* `StateMachineStore.snapshotId_inj`: an id tells the position and the number
* `Lives.Run.numbered`: in one life, the builders have different numbers
* `Lives.uniqueIds_of_run`: the ids are unique when no build repeats the position and the number of
  an earlier life
-/

namespace PlacementCenter.Openraft

open Rust Program

variable {M : Type}

/-! ### Reading an id -/

theorem toList_display (l : LeaderId) (s : List Char) : l.display.toList ++ s =
    'T' :: (Nat.toDigits 10 l.term.toNat ++ '-' :: 'N' :: (Nat.toDigits 10 l.nodeId.toNat ++ s)) := by
  simp [LeaderId.display, Nat.toList_repr]

/-- The text of a leader is read back from a text that goes on with a separator. -/
theorem display_append_inj {l l' : LeaderId} {c : Char} {s t : List Char} (hc : c.isDigit = false)
    (h : l.display.toList ++ c :: s = l'.display.toList ++ c :: t) : l = l' ∧ s = t := by
  rw [toList_display, toList_display, List.cons_inj_right, toDigits_append_inj (by decide),
    List.cons_inj_right, toDigits_append_inj hc] at h
  obtain ⟨ht, hn, hs⟩ := h
  obtain ⟨term, nodeId⟩ := l
  obtain ⟨term', nodeId'⟩ := l'
  obtain rfl : term = term' := UInt64.toNat_inj.mp ht
  obtain rfl : nodeId = nodeId' := UInt64.toNat_inj.mp hn
  exact ⟨rfl, hs⟩

namespace StateMachineStore

theorem snapshotId_of_some {core : StateMachineStore M} {id : LogId}
    (h : core.data.lastAppliedLogId = some id) : core.snapshotId.toList =
      id.leaderId.display.toList ++ '-' :: (Nat.toDigits 10 id.index.toNat ++
        '-' :: Nat.toDigits 10 core.snapshotIdx.toNat) := by
  simp [snapshotId, h, Nat.toList_repr]

theorem snapshotId_of_none {core : StateMachineStore M} (h : core.data.lastAppliedLogId = none) :
    core.snapshotId.toList = '-' :: '-' :: Nat.toDigits 10 core.snapshotIdx.toNat := by
  simp [snapshotId, h, Nat.toList_repr]

/-- **An id tells the position and the number** of its builder. -/
theorem snapshotId_inj {core core' : StateMachineStore M} :
    core.snapshotId = core'.snapshotId ↔
      core.data.lastAppliedLogId = core'.data.lastAppliedLogId ∧
        core.snapshotIdx = core'.snapshotIdx := by
  constructor
  · intro h
    have htext := congrArg String.toList h
    rcases ha : core.data.lastAppliedLogId with _ | id <;>
      rcases ha' : core'.data.lastAppliedLogId with _ | id'
    · rw [snapshotId_of_none ha, snapshotId_of_none ha', List.cons_inj_right, List.cons_inj_right,
        toDigits_inj] at htext
      exact ⟨rfl, UInt64.toNat_inj.mp htext⟩
    · rw [snapshotId_of_none ha, snapshotId_of_some ha', toList_display] at htext
      -- a position begins with `T`, an empty one with a dash
      exact absurd (List.cons.inj htext).1 (by decide)
    · rw [snapshotId_of_some ha, snapshotId_of_none ha', toList_display] at htext
      exact absurd (List.cons.inj htext).1 (by decide)
    · rw [snapshotId_of_some ha, snapshotId_of_some ha'] at htext
      -- the leader, the index and the number are read off one by one
      obtain ⟨hl, hrest⟩ := display_append_inj (by decide) htext
      obtain ⟨hi, hk⟩ := (toDigits_append_inj (by decide)).mp hrest
      rw [toDigits_inj] at hk
      obtain ⟨leader, index⟩ := id
      obtain ⟨leader', index'⟩ := id'
      obtain rfl : leader = leader' := hl
      obtain rfl : index = index' := UInt64.toNat_inj.mp hi
      exact ⟨rfl, UInt64.toNat_inj.mp hk⟩
  · rintro ⟨ha, hk⟩
    rw [snapshotId, snapshotId, ha, hk]

/-! ### What the operations do to the counter -/

section counter

variable {σ : Type}

/-- An entry leaves the counter. -/
theorem applyEntry_snapshotIdx [Shared σ Kvs] (core : StateMachineStore M) (e : Entry M) :
    Returns (fun r => r.2.snapshotIdx = core.snapshotIdx)
      (core.applyEntry e : Program σ (AppResponseData × StateMachineStore M)) := by
  rcases e with ⟨id, _ | (⟨key, value⟩ | ⟨key⟩) | mem⟩
  · exact returns_pure rfl
  · exact returns_bind_of fun _ => returns_bind_of fun _ => returns_pure rfl
  · exact returns_bind_of fun _ => returns_bind_of fun _ => returns_pure rfl
  · exact returns_pure rfl

/-- A batch leaves the counter. -/
theorem apply_snapshotIdx [Shared σ Kvs] (core : StateMachineStore M) (es : List (Entry M)) :
    Returns (fun r => r.2.snapshotIdx = core.snapshotIdx)
      (core.apply es : Program σ (List AppResponseData × StateMachineStore M)) := by
  induction es generalizing core with
  | nil => exact returns_pure rfl
  | cons e es ih =>
    refine returns_bind (applyEntry_snapshotIdx core e) ?_
    rintro ⟨reply, core₁⟩ h₁
    refine returns_bind (ih core₁) ?_
    rintro ⟨replies, core₂⟩ h₂
    exact returns_pure (h₂.trans h₁)

variable [RocksDb σ] [Shared σ Kvs] [SerdeJson M]

/-- A snapshot has the metadata of its builder. -/
theorem buildSnapshot_meta (core : StateMachineStore M) :
    Returns (fun r => ∀ snap, r = .ok snap → snap.metadata = core.snapshotMeta)
      (core.buildSnapshot : Program σ (StorageResult (Snapshot M))) := by
  refine returns_bind_of fun kvs => returns_bind_of fun r => ?_
  rcases r with e | _
  · exact returns_pure fun snap h => by cases h
  · exact returns_pure fun snap h => by
      obtain rfl := Except.ok.inj h
      rfl

end counter

end StateMachineStore

/-! ### A node over its lives -/

/-- A snapshot with the builder that built it. -/
abbrev Built (M : Type) := StateMachineStore M × Snapshot M

/-- A node with the builders it handed out in this life, and the snapshots that were built in this
life and in the earlier ones. -/
structure Lives (σ M : Type) where
  world : σ
  core : StateMachineStore M
  builders : List (StateMachineStore M)
  built : List (Built M)
  earlier : List (Built M)

namespace Lives

/-- The steps of a node; a step of a builder names it. -/
inductive Action (M : Type) where
  | apply (es : List (Entry M))
  | handOut
  | build (b : StateMachineStore M)
  | restart

variable {σ : Type}

section steps

variable [RocksDb σ] [Shared σ Kvs] [SerdeJson M] [Inhabited M]

/-- One step. A builder builds once, at any time after it was handed out; a restart drops the
builders. -/
inductive Step : Action M → Lives σ M → Lives σ M → Prop where
  | apply {n : Lives σ M} {es replies core world}
      (h : Completes (n.core.apply es) n.world (replies, core) world) :
      Step (.apply es) n { n with world, core }
  | handOut {n : Lives σ M} :
      Step .handOut n { n with
        core := n.core.getSnapshotBuilder.2
        builders := n.core.getSnapshotBuilder.1 :: n.builders }
  | build {n : Lives σ M} {b l r snap world} (hb : n.builders = l ++ b :: r)
      (h : Completes b.buildSnapshot n.world (.ok snap) world) :
      Step (.build b) n { n with world, builders := l ++ r, built := (b, snap) :: n.built }
  | fail {n : Lives σ M} {b l r e world} (hb : n.builders = l ++ b :: r)
      (h : Completes b.buildSnapshot n.world (.error e) world) :
      Step (.build b) n { n with world, builders := l ++ r }
  | restart {n : Lives σ M} {core world}
      (h : Completes (StateMachineStore.new M) n.world (.ok core) world) :
      Step .restart n ⟨world, core, [], [], n.built ++ n.earlier⟩

/-- A node whose store was just opened. -/
structure Starts (n : Lives σ M) : Prop where
  opened : ∃ w, Completes (StateMachineStore.new M) w (.ok n.core) n.world
  builders : n.builders = []
  built : n.built = []
  earlier : n.earlier = []

/-- Every run whose steps meet the condition `C` on the node they are taken on. -/
inductive Run (C : Lives σ M → Action M → Prop) (start : Lives σ M) : Lives σ M → Prop where
  | start : Run C start start
  | step {n n' a} (hr : Run C start n) (hC : C n a) (h : Step a n n') : Run C start n'

end steps

/-- The counter does not run over. -/
def Counts (n : Lives σ M) : Action M → Prop
  | .handOut => n.core.snapshotIdx.toNat + 1 < 2 ^ 64
  | _ => True

/-- No snapshot of an earlier life was built at the position and with the number of the builder. -/
def NotRepeated (n : Lives σ M) : Action M → Prop
  | .build b => ∀ p ∈ n.earlier, ¬ (p.1.data.lastAppliedLogId = b.data.lastAppliedLogId ∧
      p.1.snapshotIdx = b.snapshotIdx)
  | _ => True

/-- No two of the snapshots that were built have the same id. -/
def UniqueIds (n : Lives σ M) : Prop :=
  (n.built ++ n.earlier).Pairwise fun p q => p.2.metadata.snapshotId ≠ q.2.metadata.snapshotId

/-! ### The numbers of one life -/

/-- The builders of this life have different numbers, up to the counter, and a snapshot has the id
of its builder. -/
structure Numbered (n : Lives σ M) : Prop where
  labelled : ∀ p ∈ n.built ++ n.earlier, p.2.metadata.snapshotId = p.1.snapshotId
  bounded : ∀ b ∈ n.builders ++ n.built.map Prod.fst,
    b.snapshotIdx.toNat ≤ n.core.snapshotIdx.toNat
  distinct : (n.builders ++ n.built.map Prod.fst).Pairwise fun b b' =>
    b.snapshotIdx ≠ b'.snapshotIdx

/-- A node without builders and snapshots of its own life. -/
theorem numbered_of_nil {n : Lives σ M} (hb : n.builders = []) (hbuilt : n.built = [])
    (h : ∀ p ∈ n.earlier, p.2.metadata.snapshotId = p.1.snapshotId) : n.Numbered where
  labelled := by
    rw [hbuilt]
    exact h
  bounded := by
    rw [hb, hbuilt]
    exact fun b hb => absurd hb List.not_mem_nil
  distinct := by
    rw [hb, hbuilt]
    exact List.Pairwise.nil

/-- A new builder has a number above the others. -/
theorem Numbered.handOut {n : Lives σ M} (h : n.Numbered) (hc : n.Counts .handOut) :
    Numbered { n with
      core := n.core.getSnapshotBuilder.2
      builders := n.core.getSnapshotBuilder.1 :: n.builders } := by
  have hnext : (n.core.snapshotIdx + 1).toNat = n.core.snapshotIdx.toNat + 1 := by
    rw [UInt64.toNat_add]
    exact Nat.mod_eq_of_lt hc
  refine ⟨h.labelled, fun b hb => ?_, List.pairwise_cons.mpr ⟨fun b hb he => ?_, h.distinct⟩⟩
  · rcases List.mem_cons.mp hb with rfl | hb
    · exact le_refl _
    · exact (h.bounded b hb).trans (Nat.le_of_lt (Nat.lt_of_succ_le (Nat.le_of_eq hnext.symm)))
  · have hle := h.bounded b hb
    have hnum : (n.core.snapshotIdx + 1).toNat = b.snapshotIdx.toNat := congrArg UInt64.toNat he
    omega

/-- The ids of two snapshots of numbered nodes. -/
theorem Numbered.id_eq_iff {n : Lives σ M} (h : n.Numbered) {p q : Built M}
    (hp : p ∈ n.built ++ n.earlier) (hq : q ∈ n.built ++ n.earlier) :
    p.2.metadata.snapshotId = q.2.metadata.snapshotId ↔
      p.1.data.lastAppliedLogId = q.1.data.lastAppliedLogId ∧ p.1.snapshotIdx = q.1.snapshotIdx := by
  rw [h.labelled p hp, h.labelled q hq, StateMachineStore.snapshotId_inj]

/-- **A snapshot that was just built** has an id of its own exactly when its builder does not repeat
the position and the number of an earlier life. -/
theorem uniqueIds_cons_iff {n n' : Lives σ M} {b : StateMachineStore M} {snap : Snapshot M}
    (hu : n.UniqueIds) (hn' : n'.Numbered) (hbuilt : n'.built = (b, snap) :: n.built)
    (hearlier : n'.earlier = n.earlier) : n'.UniqueIds ↔ n.NotRepeated (.build b) := by
  have hmem : ∀ p ∈ n.built ++ n.earlier, p ∈ n'.built ++ n'.earlier := fun p hp => by
    rw [hbuilt, hearlier, List.cons_append]
    exact List.mem_cons_of_mem _ hp
  have hself : (b, snap) ∈ n'.built ++ n'.earlier := by
    rw [hbuilt, List.cons_append]
    exact List.mem_cons_self
  rw [UniqueIds, hbuilt, hearlier, List.cons_append, List.pairwise_cons]
  constructor
  · rintro ⟨hne, -⟩ p hp ⟨hpos, hnum⟩
    have hin := List.mem_append_right n.built hp
    exact hne p hin ((hn'.id_eq_iff hself (hmem p hin)).mpr ⟨hpos.symm, hnum.symm⟩)
  · intro hrep
    refine ⟨fun p hp he => ?_, hu⟩
    obtain ⟨hpos, hnum⟩ := (hn'.id_eq_iff hself (hmem p hp)).mp he
    rcases List.mem_append.mp hp with hp | hp
    · -- a snapshot of the same life has another number
      have hdistinct := hn'.distinct
      rw [hbuilt, List.map_cons] at hdistinct
      have htail := (List.pairwise_append.mp hdistinct).2.1
      exact (List.pairwise_cons.mp htail).1 p.1 (List.mem_map_of_mem hp) hnum
    · exact hrep p hp ⟨hpos.symm, hnum.symm⟩

/-! ### Unique ids -/

section runs

variable [RocksDb σ] [Shared σ Kvs] [SerdeJson M] [Inhabited M]

theorem Starts.numbered {n : Lives σ M} (h : n.Starts) : n.Numbered :=
  numbered_of_nil h.builders h.built fun p hp => by
    rw [h.earlier] at hp
    cases hp

/-- **One step** keeps the numbers apart. -/
theorem Step.numbered {n n' : Lives σ M} {a : Action M} (h : Step a n n') (hn : n.Numbered)
    (hc : n.Counts a) : n'.Numbered := by
  cases h with
  | apply h =>
    have hidx := StateMachineStore.apply_snapshotIdx _ _ _ _ _ h
    refine ⟨hn.labelled, fun b hb => ?_, hn.distinct⟩
    rw [hidx]
    exact hn.bounded b hb
  | handOut => exact hn.handOut hc
  | @build n b l r snap world hb h =>
    -- the builder goes from one list to the other
    have hperm : ((l ++ r) ++ ((b, snap) :: n.built).map Prod.fst).Perm
        (n.builders ++ n.built.map Prod.fst) := by
      rw [hb, List.map_cons, List.append_assoc, List.append_assoc, List.cons_append]
      exact List.Perm.append_left l (List.perm_middle)
    refine ⟨fun p hp => ?_, fun c hc => hn.bounded c (hperm.mem_iff.mp hc), ?_⟩
    · rcases List.mem_cons.mp hp with rfl | hp
      · rw [StateMachineStore.buildSnapshot_meta b _ _ _ h snap rfl]
        rfl
      · exact hn.labelled p hp
    · exact (hperm.pairwise_iff fun h => Ne.symm h).mpr hn.distinct
  | @fail n b l r e world hb h =>
    have hsub : ((l ++ r) ++ n.built.map Prod.fst).Sublist (n.builders ++ n.built.map Prod.fst) := by
      rw [hb]
      exact List.Sublist.append_right (List.Sublist.append_left (List.sublist_cons_self b r) l) _
    exact ⟨hn.labelled, fun c hc => hn.bounded c (hsub.subset hc), hn.distinct.sublist hsub⟩
  | restart h => exact numbered_of_nil rfl rfl hn.labelled

/-- **In one life the builders have different numbers.** -/
theorem Run.numbered {start n : Lives σ M} (hs : start.Starts) (h : Run Counts start n) :
    n.Numbered := by
  induction h with
  | start => exact hs.numbered
  | step _ hc hstep ih => exact hstep.numbered ih hc

/-- A step that meets the condition keeps the ids apart. -/
theorem Step.uniqueIds {n n' : Lives σ M} {a : Action M} (h : Step a n n') (hn : n.Numbered)
    (hc : n.Counts a) (hrep : n.NotRepeated a) (hu : n.UniqueIds) : n'.UniqueIds := by
  have hn' := h.numbered hn hc
  cases h with
  | apply h => exact hu
  | handOut => exact hu
  | build hb h => exact (uniqueIds_cons_iff hu hn' rfl rfl).mpr hrep
  | fail hb h => exact hu
  | restart h => exact hu

/-- The conditions on a step: the counter goes on, and no build repeats an earlier life. -/
def Fresh (n : Lives σ M) (a : Action M) : Prop := n.Counts a ∧ n.NotRepeated a

theorem Run.counts {start n : Lives σ M} (h : Run Fresh start n) : Run Counts start n := by
  induction h with
  | start => exact .start
  | step _ hc hstep ih => exact ih.step hc.1 hstep

/-- **The ids of the snapshots are unique** in every run in which no build repeats the position and
the number of an earlier life; and the next build keeps them unique exactly when it does not. -/
theorem uniqueIds_of_run {start n : Lives σ M} (hs : start.Starts) (h : Run Fresh start n) :
    n.UniqueIds ∧ ∀ b n', Step (.build b) n n' → n'.built ≠ n.built →
      (n'.UniqueIds ↔ n.NotRepeated (.build b)) := by
  have hu : n.UniqueIds := by
    induction h with
    | start =>
      rw [UniqueIds, hs.built, hs.earlier]
      exact List.Pairwise.nil
    | step hr hc hstep ih => exact hstep.uniqueIds (Run.numbered hs hr.counts) hc.1 hc.2 ih
  refine ⟨hu, fun b n' hstep hbuilt => ?_⟩
  have hn' := hstep.numbered (Run.numbered hs h.counts) trivial
  cases hstep with
  | build hb hc => exact uniqueIds_cons_iff hu hn' rfl rfl
  | fail hb hc => exact absurd rfl hbuilt

end runs

/-! ### A restart at the position of the last snapshot -/

/-- A node whose store was opened on the empty database. -/
def opened : Lives (Memory (Journal Unit) Kvs) Configs :=
  ⟨(Node.opened Unit Configs).memory, (Node.opened Unit Configs).core, [], [], []⟩

theorem starts_opened : opened.Starts where
  opened := ⟨_, (Node.starts_opened (ε := Unit) (M := Configs)).opened⟩
  builders := rfl
  built := rfl
  earlier := rfl

theorem buildSnapshot_run (core : StateMachineStore Configs) (m : Memory (Journal Unit) Kvs) :
    Completes core.buildSnapshot m
      (.ok ⟨core.snapshotMeta, SerdeJson.toVec (m.cells core.data.kvs)⟩)
      { m with base := m.base.extend (StateMachineStore.snapshotEffects
        (core.snapshotOf (m.cells core.data.kvs))) } :=
  completes_bind.mpr ⟨_, m, Memory.read_run _ _, core.storeSnapshot_run m _⟩

/-- A builder on the empty database and one after a restart, at the same entry. -/
theorem snapshotId_repeated : ∃ n, Run Counts opened n ∧
    (n.built ++ n.earlier).map (fun p => p.2.metadata.snapshotId) = ["T1-N1-0-1", "T1-N1-0-1"] ∧
      ¬ n.UniqueIds := by
  have h : Run Counts opened opened := .start
  have h := h.step (a := .apply [blankEntry]) trivial
    (.apply (StateMachineStore.apply_run _ _ [blankEntry]))
  have h := h.step (a := .handOut) (show 0 + 1 < 2 ^ 64 by decide) .handOut
  have h := h.step (a := .build _) trivial (.build (l := []) rfl (buildSnapshot_run _ _))
  -- the new store reads the position of the snapshot, and counts from zero
  have h := h.step (a := .restart) trivial (.restart (StateMachineStore.new_run_some _
    (StateMachineStore.snapshotIn_extend_snapshotEffects _ _) (SerdeJson.fromSlice_toVec _)))
  have h := h.step (a := .handOut) (show 0 + 1 < 2 ^ 64 by decide) .handOut
  have h := h.step (a := .build _) trivial (.build (l := []) rfl (buildSnapshot_run _ _))
  refine ⟨_, h, rfl, fun hu => ?_⟩
  exact (List.pairwise_cons.mp hu).1 _ (List.mem_singleton_self _) rfl

theorem notRepeated_of_ne {n : Lives (Memory (Journal Unit) Kvs) Configs}
    {b : StateMachineStore Configs}
    (h : ∀ p ∈ n.earlier, p.1.data.lastAppliedLogId ≠ b.data.lastAppliedLogId) :
    n.NotRepeated (.build b) :=
  fun p hp hsame => h p hp hsame.1

theorem position_ne : (some blankEntry.logId : Option LogId) ≠ some secondEntry.logId := by decide

/-- Two snapshots of the first life, and one of the second at a later position; the first builder of
the second life, at the old position, is still there. -/
theorem uniqueIds_twoLives : ∃ n : Lives (Memory (Journal Unit) Kvs) Configs,
    (n.built ++ n.earlier).map (fun p => p.2.metadata.snapshotId) =
      ["T1-N1-1-2", "T1-N1-0-2", "T1-N1-0-1"] ∧
    n.builders.map StateMachineStore.snapshotId = ["T1-N1-0-1"] ∧ n.UniqueIds ∧
    ∀ b n', Step (.build b) n n' → n'.built ≠ n.built →
      (n'.UniqueIds ↔ n.NotRepeated (.build b)) := by
  have h : Run Fresh opened opened := .start
  have h := h.step (a := .apply [blankEntry]) ⟨trivial, trivial⟩
    (.apply (StateMachineStore.apply_run _ _ [blankEntry]))
  have h := h.step (a := .handOut) ⟨show 0 + 1 < 2 ^ 64 by decide, trivial⟩ .handOut
  have h := h.step (a := .build _) ⟨trivial, fun p hp => absurd hp List.not_mem_nil⟩
    (.build (l := []) rfl (buildSnapshot_run _ _))
  have h := h.step (a := .handOut) ⟨show 1 + 1 < 2 ^ 64 by decide, trivial⟩ .handOut
  have h := h.step (a := .build _) ⟨trivial, fun p hp => absurd hp List.not_mem_nil⟩
    (.build (l := []) rfl (buildSnapshot_run _ _))
  -- the second life counts from zero again
  have h := h.step (a := .restart) ⟨trivial, trivial⟩ (.restart (StateMachineStore.new_run_some _
    (StateMachineStore.snapshotIn_extend_snapshotEffects _ _) (SerdeJson.fromSlice_toVec _)))
  have h := h.step (a := .handOut) ⟨show 0 + 1 < 2 ^ 64 by decide, trivial⟩ .handOut
  have h := h.step (a := .apply [secondEntry]) ⟨trivial, trivial⟩
    (.apply (StateMachineStore.apply_run _ _ [secondEntry]))
  have h := h.step (a := .handOut) ⟨show 1 + 1 < 2 ^ 64 by decide, trivial⟩ .handOut
  have h := h.step (a := .build _) ⟨trivial, by
      exact notRepeated_of_ne (List.forall_mem_cons.mpr ⟨position_ne,
        List.forall_mem_cons.mpr ⟨position_ne, List.forall_mem_nil _⟩⟩)⟩
    (.build (l := []) rfl (buildSnapshot_run _ _))
  exact ⟨_, rfl, rfl, uniqueIds_of_run starts_opened h⟩

end Lives

end PlacementCenter.Openraft
