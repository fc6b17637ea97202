import PlacementCenter.Openraft.SnapshotCuts
import PlacementCenter.Openraft.SnapshotOrder
import PlacementCenter.Rust.FuzzySnapshots

/-!
# The nodes of a group

The nodes of the openraft group apply one log. Each is a worker with its builders over its own
database. The snapshots that one node built or stored are sent to the others and installed there,
any time later; a node may stop at any moment, and is opened again on what the crash left.

## Main definitions

* `Group M`: the nodes, and the snapshots that were sent
* `Group.Step log R`, `Group.Run log R`: the steps of a group, and every interleaving of them
* `appliedAfter es`: the position and the membership after some entries
* `Fitting log R F`: a relation `F` between positions of the log and maps that the steps keep
* `Group.Fits log F g`: every map and every snapshot of the group fits its position

## Main results

* `Node.Fits.step`: what one step of a worker or of a builder keeps
* `Group.fits_of_run`: **every map and every snapshot fits its position**, in every run
-/

namespace PlacementCenter.Openraft

open Rust Program LogId

variable {M : Type}

/-! ### Positions of the log -/

/-- The membership that an entry stores. -/
def Entry.storedMembership (e : Entry M) : Option (StoredMembership M) :=
  match e.payload with
  | .membership mem => some ⟨some e.logId, mem⟩
  | .normal _ => none
  | .blank => none

/-- The position and the membership after some entries: those of the last entry, and of the last one
that stores a membership. -/
def appliedAfter [Inhabited M] (es : List (Entry M)) : Option LogId × StoredMembership M :=
  (es.getLast?.map Entry.logId, (es.reverse.findSome? Entry.storedMembership).getD default)

/-- The ids of the log grow. -/
def Increasing (log : List (Entry M)) : Prop := log.Pairwise fun e e' => e.logId < e'.logId

theorem appliedAfter_concat [Inhabited M] (es : List (Entry M)) (e : Entry M) :
    appliedAfter (es ++ [e]) =
      (some e.logId, e.storedMembership.getD (appliedAfter es).2) := by
  rw [appliedAfter, List.getLast?_concat, List.reverse_append, List.reverse_singleton,
    List.singleton_append, List.findSome?_cons]
  rcases e.storedMembership with _ | mem
  · rfl
  · rfl

theorem StateMachineStore.appliedState_advanceOne (core : StateMachineStore M) (e : Entry M) :
    (core.advanceOne e).appliedState =
      (some e.logId, e.storedMembership.getD core.appliedState.2) := by
  rcases e with ⟨id, _ | req | mem⟩ <;> rfl

section increasing

variable {log es es' : List (Entry M)}

/-- The last of some entries is below a later one. -/
theorem Increasing.last_lt (h : Increasing log) {t : List (Entry M)} {e last : Entry M}
    (hes : es ++ (t ++ [e]) <+: log) (hlast : last ∈ es.getLast?) : last.logId < e.logId := by
  have hsort := List.Pairwise.sublist hes.sublist h
  refine (List.pairwise_append.mp hsort).2.2 last (List.mem_of_getLast? hlast) e ?_
  exact List.mem_append_right _ (List.mem_singleton_self e)

/-- A part of the log that ends at a lower id is a part of the other. -/
theorem Increasing.isPrefix (h : Increasing log) (hes : es <+: log) (hes' : es' <+: log)
    (hle : AtMost (es.getLast?.map Entry.logId) (es'.getLast?.map Entry.logId)) : es <+: es' := by
  rcases List.prefix_or_prefix_of_prefix hes hes' with hp | ⟨t, rfl⟩
  · exact hp
  -- the other would end before an entry of this one
  · rcases List.eq_nil_or_concat' t with rfl | ⟨t, e, rfl⟩
    · rw [List.append_nil]
    · rw [← List.append_assoc, List.getLast?_concat] at hle
      obtain ⟨y, hy, hey⟩ := hle _ rfl
      obtain ⟨last, hlast, rfl⟩ := Option.map_eq_some_iff.mp hy
      exact absurd hey (not_le_of_gt (h.last_lt hes hlast))

/-- A longer part of the log ends at a higher id. -/
theorem Increasing.atMost (h : Increasing log) (hes : es <+: es') (hes' : es' <+: log) :
    AtMost (es.getLast?.map Entry.logId) (es'.getLast?.map Entry.logId) := by
  obtain ⟨t, rfl⟩ := hes
  rcases List.eq_nil_or_concat' t with rfl | ⟨t, e, rfl⟩
  · rw [List.append_nil]
    exact AtMost.refl _
  · intro x hx
    obtain ⟨last, hlast, rfl⟩ := Option.map_eq_some_iff.mp hx
    refine ⟨e.logId, ?_, (h.last_lt hes' hlast).le⟩
    rw [← List.append_assoc, List.getLast?_concat]
    rfl

/-- **A position is the end of one part** of the log. -/
theorem Increasing.eq_of_position (h : Increasing log) (hes : es <+: log) (hes' : es' <+: log)
    (heq : es.getLast?.map Entry.logId = es'.getLast?.map Entry.logId) : es = es' := by
  have hto := h.isPrefix hes hes' (heq ▸ AtMost.refl _)
  have hfrom := h.isPrefix hes' hes (heq ▸ AtMost.refl _)
  exact hto.eq_of_length_le hfrom.length_le

end increasing

/-! ### Maps that fit their positions -/

/-- A relation between the parts of the log and maps that the steps of a group keep, when a builder
reads only maps that `R` relates to the one it was handed out with. -/
structure Fitting (log : List (Entry M)) (R : Kvs → Kvs → Prop) (F : List (Entry M) → Kvs → Prop) :
    Prop where
  empty : F [] ∅
  apply : ∀ {es e kvs}, es ++ [e] <+: log → F es kvs → F (es ++ [e]) (replay kvs [e])
  read : ∀ {es es' kvs kvs'}, es <+: es' → es' <+: log → F es kvs → F es' kvs' → R kvs kvs' →
    F es kvs'

/-- The position and the membership of a snapshot. -/
def StoredSnapshot.appliedState (snap : StoredSnapshot M) : Option LogId × StoredMembership M :=
  (snap.metadata.lastLogId, snap.metadata.lastMembership)

section fits

variable [Inhabited M] (log : List (Entry M)) (F : List (Entry M) → Kvs → Prop)

/-- The position and the membership are those after a part of the log, which the map fits. -/
def FitsAt (applied : Option LogId × StoredMembership M) (kvs : Kvs) : Prop :=
  ∃ es, es <+: log ∧ applied = appliedAfter es ∧ F es kvs

/-- The data of the snapshot can be read, and fits its position. -/
def StoredSnapshot.Fits (snap : StoredSnapshot M) : Prop :=
  ∃ kvs, SerdeJson.fromSlice snap.data = some kvs ∧ FitsAt log F snap.appliedState kvs

/-- The builder shares the map of the worker, and what it read fits its position. -/
structure Builder.Fits (core : StateMachineStore M) (b : Builder M) : Prop where
  cell : b.core.data.kvs = core.data.kvs
  below : AtMost b.core.data.lastAppliedLogId core.data.lastAppliedLogId
  handedOut : FitsAt log F b.core.appliedState b.handedOut
  read : ∀ kvs ∈ b.read, FitsAt log F b.core.appliedState kvs

variable [SerdeJson M]

/-- Whatever a crash leaves, the stored snapshot fits. -/
def StoredFits {ε : Type} (w : Journal ε) : Prop :=
  ∀ p : Journal ε, p.IsPrefix w → ∀ snap ∈ StateMachineStore.snapshotIn M p, snap.Fits log F

/-- The map of a node and all its snapshots fit their positions. -/
structure Node.Fits {ε : Type} (n : Node ε M) : Prop where
  core : FitsAt log F n.core.appliedState (n.memory.cells n.core.data.kvs)
  builders : ∀ b ∈ n.builders, b.Fits log F n.core
  installing : ∀ snap ∈ n.installing, snap.Fits log F
  stored : StoredFits log F n.memory.base
  built : ∀ p ∈ n.built, p.2.toStored.Fits log F

end fits

/-- What openraft calls the worker of a node with: the next entry of the log, and snapshots that
were sent and are not below the position of the node. A builder reads what `R` allows. -/
def Node.Calls {ε : Type} (log : List (Entry M)) (R : Kvs → Kvs → Prop)
    (sent : List (StoredSnapshot M)) (n : Node ε M) : Action M → Prop
  | .apply e => ∃ es, es ++ [e] <+: log ∧
      n.core.data.lastAppliedLogId = es.getLast?.map Entry.logId
  | .install snap => snap ∈ sent ∧ AtMost n.core.data.lastAppliedLogId snap.metadata.lastLogId
  | .read b => R b.handedOut (n.memory.cells b.core.data.kvs)
  | .handOut => True
  | .store _ => True
  | .build _ => True

section steps

variable [Inhabited M] [SerdeJson M] {ε : Type} {log : List (Entry M)} {R : Kvs → Kvs → Prop}
  {F : List (Entry M) → Kvs → Prop}

omit [Inhabited M] in
theorem StateMachineStore.getCurrentSnapshot_run (m : Memory (Journal ε) Kvs) :
    getCurrentSnapshot M m =
      (.ok (.ok ((snapshotIn M m.base).map fun s => ⟨s.metadata, s.data⟩)), m) := rfl

/-- One more snapshot that fits. -/
theorem StoredFits.store {w : Journal ε} (h : StoredFits log F w) {snap : StoredSnapshot M}
    (hsnap : snap.Fits log F) :
    StoredFits log F (w.extend (StateMachineStore.snapshotEffects snap)) := by
  intro p hp s hs
  rcases Journal.isPrefix_extend.mp hp with hp | ⟨part, hpart, rfl⟩
  · exact h p hp s hs
  · rcases StateMachineStore.snapshotIn_part w snap hpart with rfl | hnew
    · rw [Journal.extend_nil] at hs
      exact h w (.refl w) s hs
    · rw [hnew] at hs
      exact Option.mem_some_iff.mp hs ▸ hsnap

/-- The worker moved on to a later position, where its map fits. -/
theorem Node.Fits.advance {n n' : Node ε M} (h : n.Fits log F)
    (hcore : FitsAt log F n'.core.appliedState (n'.memory.cells n'.core.data.kvs))
    (hcell : n'.core.data.kvs = n.core.data.kvs)
    (hlast : AtMost n.core.data.lastAppliedLogId n'.core.data.lastAppliedLogId)
    (hbase : n'.memory.base = n.memory.base) (hb : n'.builders = n.builders)
    (hi : ∀ snap ∈ n'.installing, snap.Fits log F) (hbuilt : n'.built = n.built) :
    n'.Fits log F where
  core := hcore
  builders b hmem := by
    obtain ⟨hc, hbelow, hout, hread⟩ := h.builders b (hb ▸ hmem)
    exact ⟨hc.trans hcell.symm, hbelow.trans hlast, hout, hread⟩
  installing := hi
  stored := hbase ▸ h.stored
  built := hbuilt ▸ h.built

omit [SerdeJson M] in
/-- What a builder reads fits its position. -/
theorem Builder.Fits.reads {n : Node ε M} {b : Builder M} (h : b.Fits log F n.core)
    (hF : Fitting log R F) (hlog : Increasing log)
    (hn : FitsAt log F n.core.appliedState (n.memory.cells n.core.data.kvs))
    (hR : R b.handedOut (n.memory.cells b.core.data.kvs)) :
    FitsAt log F b.core.appliedState (n.memory.cells b.core.data.kvs) := by
  obtain ⟨es, hes, hpos, hout⟩ := h.handedOut
  obtain ⟨es', hes', hpos', hmap⟩ := hn
  have hlabel : b.core.data.lastAppliedLogId = es.getLast?.map Entry.logId :=
    congrArg Prod.fst hpos
  have hlast : n.core.data.lastAppliedLogId = es'.getLast?.map Entry.logId :=
    congrArg Prod.fst hpos'
  have hbelow := h.below
  rw [hlabel, hlast] at hbelow
  rw [h.cell] at hR ⊢
  exact ⟨es, hes, hpos, hF.read (hlog.isPrefix hes hes' hbelow) hes' hout hmap hR⟩

omit [SerdeJson M] in
/-- **The next entry** of the log. -/
theorem FitsAt.applyEntry {core : StateMachineStore M} {kvs : Kvs} {e : Entry M}
    (h : FitsAt log F core.appliedState kvs) (hF : Fitting log R F) (hlog : Increasing log)
    {es : List (Entry M)} (hes : es ++ [e] <+: log)
    (hpos : core.data.lastAppliedLogId = es.getLast?.map Entry.logId) :
    FitsAt log F (core.advanceOne e).appliedState (replay kvs [e]) := by
  obtain ⟨es', hes', hpos', hmap⟩ := h
  have hprefix : es <+: log := (List.prefix_append es [e]).trans hes
  obtain rfl : es' = es := hlog.eq_of_position hes' hprefix
    ((congrArg Prod.fst hpos').symm.trans hpos)
  refine ⟨es' ++ [e], hes, ?_, hF.apply hes hmap⟩
  rw [StateMachineStore.appliedState_advanceOne, hpos', appliedAfter_concat]

/-- **A step of a node** keeps that all fits. -/
theorem Node.Fits.step {n n' : Node ε M} {a : Action M} {sent : List (StoredSnapshot M)}
    (h : n.Fits log F) (hF : Fitting log R F) (hlog : Increasing log)
    (hsent : ∀ snap ∈ sent, snap.Fits log F) (ha : n.Calls log R sent a) (hs : Step a n n') :
    n'.Fits log F := by
  cases hs with
  | @apply n e reply core memory hw hrun =>
    obtain ⟨hr, rfl⟩ := (completes_of_run (n.core.applyEntry_run n.memory e)).mp hrun
    cases hr
    obtain ⟨es, hes, hpos⟩ := ha
    have hmap := h.core.applyEntry hF hlog hes hpos
    refine h.advance ?_ rfl ?_ rfl rfl h.installing rfl
    · rwa [← Memory.cells_store_self n.memory n.core.data.kvs (replay _ [e])] at hmap
    · rw [hpos]
      refine (hlog.atMost (List.prefix_append es [e]) hes).trans ?_
      rw [List.getLast?_concat]
      exact AtMost.refl _
  | handOut hw =>
    refine ⟨h.core, fun b hb => ?_, h.installing, h.stored, h.built⟩
    rcases List.mem_cons.mp hb with rfl | hb
    · exact ⟨rfl, AtMost.refl _, h.core, fun kvs hkvs => by cases hkvs⟩
    · obtain ⟨hcell, hbelow, hout, hread⟩ := h.builders b hb
      exact ⟨hcell, hbelow, hout, hread⟩
  -- the snapshot that was sent becomes the state of the worker
  | @install n snap core memory hw hrun =>
    obtain ⟨kvs, hd, rfl, rfl⟩ := updateStateMachine_ok hrun
    have hsnap := hsent snap ha.1
    obtain ⟨kvs', hd', hmap⟩ := hsent snap ha.1
    obtain rfl : kvs' = kvs := Option.some.inj (hd'.symm.trans hd)
    refine h.advance ?_ rfl ha.2 rfl rfl (fun s hs => ?_) rfl
    · rwa [← Memory.cells_store_self n.memory n.core.data.kvs kvs'] at hmap
    · exact Option.mem_some_iff.mp hs ▸ hsnap
  | refuse hw hrun =>
    obtain ⟨rfl, rfl⟩ := updateStateMachine_error hrun
    exact h
  | @store n snap memory hw hrun =>
    obtain ⟨-, rfl⟩ := (completes_of_run
      (StateMachineStore.setCurrentSnapshot_run n.memory snap)).mp hrun
    exact ⟨h.core, h.builders, (fun s hs => by cases hs), h.stored.store (h.installing snap hw),
      h.built⟩
  | @read n b l r kvs memory hb hrun =>
    obtain ⟨hkvs, rfl⟩ := (completes_of_run (Memory.read_run _ _)).mp hrun
    cases hkvs
    refine ⟨h.core, forall_builders hb h.builders fun hfits => ?_, h.installing, h.stored, h.built⟩
    refine ⟨hfits.cell, hfits.below, hfits.handedOut, fun kvs hkvs => ?_⟩
    exact Option.mem_some_iff.mp hkvs ▸ hfits.reads hF hlog h.core ha
  | @build n b l r kvs snap memory hb hr hrun =>
    obtain ⟨hsnap, rfl⟩ := (completes_of_run (b.core.storeSnapshot_run n.memory kvs)).mp hrun
    cases hsnap
    have hbuilder := h.builders b (hb ▸ List.mem_append_right _ List.mem_cons_self)
    have hfits : (b.core.snapshotOf kvs).Fits log F :=
      ⟨kvs, SerdeJson.fromSlice_toVec kvs, hbuilder.read kvs hr⟩
    refine ⟨h.core, forall_builders hb h.builders fun hold => ?_, h.installing,
      h.stored.store hfits, fun p hp => ?_⟩
    · exact ⟨hold.cell, hold.below, hold.handedOut, fun kvs hkvs => by cases hkvs⟩
    · rcases List.mem_cons.mp hp with rfl | hp
      · exact hfits
      · exact h.built p hp

/-- **A store that was just opened** fits what was stored. -/
theorem Node.Starts.fits {m : Memory (Journal ε) Kvs} {n : Node ε M} (h : Starts m n)
    (hF : Fitting log R F) (hm : StoredFits log F m.base) : n.Fits log F := by
  obtain ⟨hbase, -⟩ := h.position
  obtain ⟨ho, hi, hb, hbuilt⟩ := h
  refine ⟨?_, fun b hmem => ?_, fun s hs => ?_, hbase ▸ hm, fun p hp => ?_⟩
  · rcases n with ⟨memory, core, installing, builders, built⟩
    rcases hs : StateMachineStore.snapshotIn M m.base with _ | snap
    -- no snapshot: the empty map at the start of the log
    · obtain ⟨hcore, rfl⟩ := (completes_of_run (new_run_none hs)).mp ho
      cases hcore
      refine ⟨[], List.nil_prefix, rfl, ?_⟩
      have hempty := hF.empty
      rwa [← Memory.cells_store_self m ⟨m.next⟩ ∅] at hempty
    · obtain ⟨kvs, hd, hfits⟩ := hm m.base (.refl _) snap hs
      obtain ⟨hcore, rfl⟩ := (completes_of_run (StateMachineStore.new_run_some m hs hd)).mp ho
      cases hcore
      rwa [← Memory.cells_store_self m ⟨m.next⟩ kvs] at hfits
  · rw [hb] at hmem
    cases hmem
  · rw [hi] at hs
    cases hs
  · rw [hbuilt] at hp
    cases hp

end steps

/-! ### The steps of a group -/

/-- The operations of the log store on the database that it shares with the state machine. -/
def LogOp.OfLogStore : LogOp M → Prop
  | setCurrentSnapshot _ => False
  | append _ => True
  | truncate _ => True
  | purge _ => True
  | saveVote _ => True
  | saveCommitted _ => True

/-- What a node does: a step of the worker or of a builder, an operation of the log store on the
database, or nothing. -/
inductive Node.Move [SerdeJson M] (log : List (Entry M)) (R : Kvs → Kvs → Prop)
    (sent : List (StoredSnapshot M)) (n : Node (LogEvent M) M) : Node (LogEvent M) M → Prop where
  | rest : Move log R sent n n
  | work {a n'} (ha : n.Calls log R sent a) (h : Step a n n') : Move log R sent n n'
  | write {op r base} (hop : LogOp.OfLogStore op) (h : Completes op.run n.memory.base r base) :
      Move log R sent n { n with memory := { n.memory with base } }

section moves

variable [SerdeJson M]

/-- The log store does not touch the stored snapshot. -/
theorem snapshotIn_of_logStore {op : LogOp M} (hop : op.OfLogStore) (w : Journal (LogEvent M))
    {part : List (Effect (LogEvent M))} (hp : part <+: op.effects) :
    StateMachineStore.snapshotIn M (w.extend part) = StateMachineStore.snapshotIn M w := by
  have hputs : ∀ x ∈ op.effects, ¬ x.Puts storeFamily (utf8 "snapshot") ∧
      ¬ x.Deletes storeFamily (utf8 "snapshot") := by
    have hkey : ∀ key : String, key ≠ "snapshot" → utf8 key ≠ utf8 "snapshot" := fun key hne h =>
      hne (utf8_injective h)
    cases op with
    | append entries =>
      intro x hx
      rcases List.mem_append.mp hx with hx | hx
      · obtain ⟨e, -, rfl⟩ := List.mem_map.mp hx
        simp [LogStore.putEntry, Effect.Puts, Effect.Deletes, storeFamily, logsFamily]
      · rw [List.mem_singleton.mp hx]
        simp [Effect.Puts, Effect.Deletes]
    | truncate logId => simp [LogOp.effects, Effect.Puts, Effect.Deletes, storeFamily, logsFamily]
    | purge logId =>
      simp [LogOp.effects, Effect.Puts, Effect.Deletes, storeFamily, logsFamily,
        hkey "last_purged_log_id" (by decide)]
    | saveVote vote =>
      simp [LogOp.effects, Effect.Puts, Effect.Deletes, hkey "vote" (by decide)]
    | saveCommitted committed =>
      simp [LogOp.effects, Effect.Puts, Effect.Deletes, hkey "committed" (by decide)]
    | setCurrentSnapshot snap => exact hop.elim
  rw [StateMachineStore.snapshotIn, StateMachineStore.snapshotIn,
    Journal.lookup_extend w _ _ (fun x hx => (hputs x (hp.subset hx)).1)
      fun x hx => (hputs x (hp.subset hx)).2]

/-- **A move of a node** keeps that all fits. -/
theorem Node.Fits.move [Inhabited M] {log : List (Entry M)} {R : Kvs → Kvs → Prop}
    {F : List (Entry M) → Kvs → Prop} {n n' : Node (LogEvent M) M} {sent : List (StoredSnapshot M)}
    (h : n.Fits log F) (hF : Fitting log R F) (hlog : Increasing log)
    (hsent : ∀ snap ∈ sent, snap.Fits log F) (hmove : n.Move log R sent n') : n'.Fits log F := by
  cases hmove with
  | rest => exact h
  | work ha hs => exact h.step hF hlog hsent ha hs
  | @write op r base hop hrun =>
    obtain ⟨-, rfl⟩ := (completes_of_run (op.run_eq _)).mp hrun
    refine ⟨h.core, h.builders, h.installing, fun p hp s hs => ?_, h.built⟩
    rcases Journal.isPrefix_extend.mp hp with hp | ⟨part, hpart, rfl⟩
    · exact h.stored p hp s hs
    · rw [snapshotIn_of_logStore hop _ hpart] at hs
      exact h.stored _ (.refl _) s hs

end moves

/-- The nodes of a group, and the snapshots that were sent. -/
structure Group (M : Type) where
  nodes : UInt64 → Node (LogEvent M) M
  sent : List (StoredSnapshot M)

namespace Group

/-- The group in which the node `i` is replaced. -/
def set (g : Group M) (i : UInt64) (n : Node (LogEvent M) M) : Group M :=
  { g with nodes := Function.update g.nodes i n }

@[simp] theorem nodes_set_self (g : Group M) (i : UInt64) (n : Node (LogEvent M) M) :
    (g.set i n).nodes i = n := Function.update_self _ _ _

theorem nodes_set_ne (g : Group M) {i j : UInt64} (n : Node (LogEvent M) M) (h : j ≠ i) :
    (g.set i n).nodes j = g.nodes j := Function.update_of_ne h _ _

variable [Inhabited M] [SerdeJson M]

/-- The stores of all nodes were just opened on empty databases. -/
structure Opens (g : Group M) : Prop where
  nodes : ∀ i, ∃ m : Memory (Journal (LogEvent M)) Kvs, m.base = .empty ∧ Node.Starts m (g.nodes i)
  sent : g.sent = []

/-- One step of a group. -/
inductive Step (log : List (Entry M)) (R : Kvs → Kvs → Prop) : Group M → Group M → Prop where
  | move {g i n} (h : (g.nodes i).Move log R g.sent n) : Step log R g (g.set i n)
  /-- A node sends its stored snapshot. -/
  | send {g i snap}
      (h : Completes (StateMachineStore.getCurrentSnapshot M) (g.nodes i).memory (.ok (some snap))
        (g.nodes i).memory) :
      Step log R g { g with sent := snap.toStored :: g.sent }
  /-- A node sends a snapshot that it built. -/
  | sendBuilt {g i p} (h : p ∈ (g.nodes i).built) :
      Step log R g { g with sent := p.2.toStored :: g.sent }
  /-- A node stops at a point `p` of a move, and is opened again on what the crash left. -/
  | restart {g i n p m n'} (h : (g.nodes i).Move log R g.sent n)
      (hfrom : (g.nodes i).memory.base.IsPrefix p) (hto : p.IsPrefix n.memory.base)
      (hm : p.Crash m.base) (h' : Node.Starts m n') : Step log R g (g.set i n')

/-- Every interleaving of the steps of a group. -/
inductive Run (log : List (Entry M)) (R : Kvs → Kvs → Prop) : Group M → Prop where
  | start {g} (h : Opens g) : Run log R g
  | step {g g'} (hr : Run log R g) (h : Step log R g g') : Run log R g'

/-- A run of one node, while the others wait. -/
theorem Run.node {log : List (Entry M)} {R : Kvs → Kvs → Prop} {g : Group M} (h : Run log R g)
    {i : UInt64} {n : Node (LogEvent M) M}
    (hn : Node.Run (fun n a => n.Calls log R g.sent a) (g.nodes i) n) : Run log R (g.set i n) := by
  induction hn with
  | start =>
    rw [Group.set, Function.update_eq_self]
    exact h
  | @step n n' a hr ha hs ih =>
    have hset : (g.set i n).set i n' = g.set i n' := by
      rw [Group.set, Group.set, Function.update_idem]
      rfl
    rw [← hset]
    refine ih.step (.move (.work (a := a) ?_ ?_))
    · rwa [nodes_set_self]
    · rwa [nodes_set_self]

/-- Every map and every snapshot of the group fits its position. -/
structure Fits (log : List (Entry M)) (F : List (Entry M) → Kvs → Prop) (g : Group M) : Prop where
  nodes : ∀ i, (g.nodes i).Fits log F
  sent : ∀ snap ∈ g.sent, snap.Fits log F

variable {log : List (Entry M)} {R : Kvs → Kvs → Prop} {F : List (Entry M) → Kvs → Prop}

/-- One node took a step. -/
theorem Fits.set {g : Group M} (h : g.Fits log F) {i : UInt64} {n : Node (LogEvent M) M}
    (hn : n.Fits log F) : (g.set i n).Fits log F where
  nodes j := by
    by_cases hj : j = i
    · subst hj
      rw [nodes_set_self]
      exact hn
    · rw [nodes_set_ne g n hj]
      exact h.nodes j
  sent := h.sent

/-- **A step of the group** keeps that all fits. -/
theorem Fits.step {g g' : Group M} (h : g.Fits log F) (hF : Fitting log R F)
    (hlog : Increasing log) (hs : Step log R g g') : g'.Fits log F := by
  cases hs with
  | @move i n hmove => exact h.set ((h.nodes i).move hF hlog h.sent hmove)
  -- what is sent was stored or built
  | @send i snap hrun =>
    obtain ⟨hsnap, -⟩ := (completes_of_run (StateMachineStore.getCurrentSnapshot_run _)).mp hrun
    obtain ⟨s, hs, rfl⟩ := Option.map_eq_some_iff.mp (Except.ok.inj hsnap)
    refine ⟨h.nodes, fun s' hs' => ?_⟩
    rcases List.mem_cons.mp hs' with rfl | hs'
    · exact (h.nodes i).stored _ (.refl _) s hs
    · exact h.sent s' hs'
  | @sendBuilt i p hp =>
    refine ⟨h.nodes, fun s hs => ?_⟩
    rcases List.mem_cons.mp hs with rfl | hs
    · exact (h.nodes i).built p hp
    · exact h.sent s hs
  -- what a crash leaves was stored, before the move or by it
  | @restart i n p m n' hmove hfrom hto hcrash hn =>
    have hstored := ((h.nodes i).move hF hlog h.sent hmove).stored
    exact h.set (hn.fits hF fun q hq => hstored q (hq.trans (hcrash.lost.trans hto)))

theorem Opens.fits {g : Group M} (h : Opens g) (hF : Fitting log R F) : g.Fits log F := by
  refine ⟨fun i => ?_, fun s hs => ?_⟩
  · obtain ⟨m, hm, hn⟩ := h.nodes i
    refine hn.fits hF fun p hp s hs => ?_
    obtain ⟨effects⟩ := p
    rw [hm] at hp
    obtain rfl : effects = [] := List.prefix_nil.mp hp
    cases hs
  · rw [h.sent] at hs
    cases hs

/-- **Every map and every snapshot fits its position**, in every run of a group. -/
theorem fits_of_run {g : Group M} (h : Run log R g) (hF : Fitting log R F)
    (hlog : Increasing log) : g.Fits log F := by
  induction h with
  | start h => exact h.fits hF
  | step _ hs ih => exact ih.step hF hlog hs

end Group

end PlacementCenter.Openraft
