import PlacementCenter.Openraft.Group

/-!
# Convergence of the nodes of a group

A builder reads the map of its node after it was handed out, so a snapshot may be newer than its
position, key by key. A node that installed it is then ahead of its position at some keys, and
behind at none. It applies the entries after its position, and ends where every other node does.

## Main definitions

* `Shows log es kvs`: every key of the map is as it is after a point of the log, not before `es`
* `Prompt`: a builder reads the map that it was handed out with
* `Group.CaughtUp log n`: the node ends at the end of the log
* `Group.newStorage`: the stores are opened

## Main results

* `Group.fresh_of_run`: no map and no snapshot is behind its position at any key
* `Group.caughtUp_of_run`: **a node that applies the rest of the log** ends at its end
* `Group.agree_of_prompt`: nodes at one position agree, when all builders are prompt
* `Group.opens_of_run`: no crash keeps a node from starting
-/

namespace PlacementCenter.Openraft

open Rust Program LogId

variable {M : Type}

/-! ### Entries as writes -/

/-- What an entry writes to a key, if it does. -/
def Entry.writes (e : Entry M) (k : String) : Option (Option String) := OrdMap.lastUpdate e.update k

/-- The keys of a map as registers. -/
def registers (kvs : Kvs) (k : String) : Option String := kvs[k]?

theorem registers_replay (kvs : Kvs) (es : List (Entry M)) :
    registers (replay kvs es) = Registers.run Entry.writes (registers kvs) es := by
  induction es generalizing kvs with
  | nil => rfl
  | cons e es ih =>
    have hone : registers (replay kvs [e]) = Registers.write Entry.writes (registers kvs) e := by
      funext k
      rw [registers, replay, OrdMap.lookup_updates, List.flatMap_singleton]
      rfl
    rw [← List.singleton_append, replay_append, ih, hone, Registers.run_append]
    rfl

theorem registers_injective : Function.Injective registers := fun _ _ h =>
  Std.ExtTreeMap.ext_getElem? fun k => congrFun h k

/-- Every key of the map is as it is after a point of the log, not before `es`. -/
def Shows (log es : List (Entry M)) (kvs : Kvs) : Prop :=
  ∀ k : String, ∃ ws, es <+: ws ∧ ws <+: log ∧ kvs[k]? = (replay ∅ ws)[k]?

variable {log es : List (Entry M)} {kvs : Kvs}

theorem shows_iff : Shows log es kvs ↔
    Registers.Shows Entry.writes (registers ∅) log es (registers kvs) := by
  refine forall_congr' fun k => exists_congr fun ws => ?_
  rw [← registers_replay]
  rfl

/-- A builder reads the map that it was handed out with. -/
def Prompt (kvs kvs' : Kvs) : Prop := kvs' = kvs

/-- A builder reads any map. -/
def Anytime (_ _ : Kvs) : Prop := True

/-- **A later map** may be read for an earlier position. -/
theorem fitting_shows (log : List (Entry M)) : Fitting log Anytime (Shows log) where
  empty k := ⟨[], List.prefix_refl _, List.nil_prefix, rfl⟩
  apply {es e kvs} hes h := by
    rw [shows_iff, registers_replay]
    exact (shows_iff.mp h).append hes
  read {es es' kvs kvs'} hle _ _ h _ :=
    shows_iff.mpr ((shows_iff.mp h).mono hle (List.prefix_refl log))

/-- The map at a position is that of the position, when the builders are prompt. -/
theorem fitting_replay (log : List (Entry M)) :
    Fitting log Prompt fun es kvs => kvs = replay ∅ es where
  empty := rfl
  apply {es e kvs} _ h := by rw [h, replay_append]
  read {es es' kvs kvs'} _ _ h _ hR := hR.trans h

namespace Group

variable [Inhabited M] [SerdeJson M] {g : Group M}

/-- **No map and no snapshot is behind its position** at any key: not the map of a node, nor a
snapshot that was sent, installed or built, nor what is stored after a crash. -/
theorem fresh_of_run (hlog : Increasing log) (h : Run log Anytime g) : g.Fits log (Shows log) :=
  fits_of_run h (fitting_shows log) hlog

/-- The node is at a position of the log, and ends at its end: however the entries after the
position are split into batches, they lead to the map, the position and the membership of the whole
log. -/
def CaughtUp (log : List (Entry M)) (n : Node (LogEvent M) M) : Prop :=
  ∃ es rest, es ++ rest = log ∧ n.core.appliedState = appliedAfter es ∧
    ∃ core m, AppliesTo rest n.core n.memory core m ∧ core.appliedState = appliedAfter log ∧
      m.cells core.data.kvs = replay ∅ log

omit [SerdeJson M] in
theorem appliedState_advance {core : StateMachineStore M} {es rest : List (Entry M)}
    (h : core.appliedState = appliedAfter es) :
    (core.advance rest).appliedState = appliedAfter (es ++ rest) := by
  induction rest generalizing core es with
  | nil =>
    rw [List.append_nil]
    exact h
  | cons e rest ih =>
    have hone : (core.advanceOne e).appliedState = appliedAfter (es ++ [e]) := by
      rw [StateMachineStore.appliedState_advanceOne, h, appliedAfter_concat]
    have hrest := ih hone
    rwa [List.append_assoc, List.singleton_append] at hrest

/-- **A node that applies the rest of the log** ends at the end of the log, whatever happened in the
group before. -/
theorem caughtUp_of_run (hlog : Increasing log) (h : Run log Anytime g) (i : UInt64) :
    CaughtUp log (g.nodes i) := by
  obtain ⟨es, ⟨rest, hrest⟩, hpos, hmap⟩ := ((fits_of_run h (fitting_shows log) hlog).nodes i).core
  refine ⟨es, rest, hrest, hpos, _, _, appliesTo rest _ _, ?_, ?_⟩
  · rw [appliedState_advance hpos, hrest]
  · rw [StateMachineStore.kvs_advance, Memory.cells_store_self]
    apply registers_injective
    rw [registers_replay, registers_replay]
    exact (shows_iff.mp hmap).converges hrest

/-- **Nodes at one position agree**, when every builder reads the map it was handed out with: each
holds the map and the membership of the entries up to there. -/
theorem agree_of_prompt (hlog : Increasing log) (h : Run log Prompt g) (i j : UInt64)
    (hpos : (g.nodes i).core.data.lastAppliedLogId = (g.nodes j).core.data.lastAppliedLogId) :
    (g.nodes i).memory.cells (g.nodes i).core.data.kvs =
        (g.nodes j).memory.cells (g.nodes j).core.data.kvs ∧
      (g.nodes i).core.data.lastMembership = (g.nodes j).core.data.lastMembership := by
  have hfits := fits_of_run h (fitting_replay log) hlog
  obtain ⟨es, hes, happlied, hmap⟩ := (hfits.nodes i).core
  obtain ⟨es', hes', happlied', hmap'⟩ := (hfits.nodes j).core
  -- the position is the end of one part of the log
  obtain rfl : es = es' := by
    refine hlog.eq_of_position hes hes' ?_
    exact (congrArg Prod.fst happlied).symm.trans (hpos.trans (congrArg Prod.fst happlied'))
  exact ⟨hmap.trans hmap'.symm, congrArg Prod.snd (happlied.trans happlied'.symm)⟩

/-! ### Opening the stores again -/

/-- `new_storage`, on a database that was opened: a state machine that cannot be restored panics. The
log store is the database itself. -/
def newStorage {σ : Type} [RocksDb σ] [Shared σ Kvs] (M : Type) [SerdeJson M] [Inhabited M] :
    Program σ (StateMachineStore M) := do
  Program.expectOk (← StateMachineStore.new M)

theorem newStorage_run {m m' : Memory (Journal (LogEvent M)) Kvs} {core : StateMachineStore M}
    (h : Completes (StateMachineStore.new M) m (.ok core) m') :
    Completes (newStorage M) m core m' := by
  unfold newStorage
  exact (Program.bind_run_ok h _).trans rfl

/-- **No crash keeps a node from starting.** Whatever a crash leaves, at any point of any move of any
node, `new_storage` restores a state machine at a position of the log. -/
theorem opens_of_run (hlog : Increasing log) (h : Run log Anytime g) {i : UInt64}
    {n : Node (LogEvent M) M} {p : Journal (LogEvent M)} {m : Memory (Journal (LogEvent M)) Kvs}
    (hmove : (g.nodes i).Move log Anytime g.sent n) (hto : p.IsPrefix n.memory.base)
    (hm : p.Crash m.base) : ∃ core m', Completes (newStorage M) m core m' ∧
      FitsAt log (Shows log) core.appliedState (m'.cells core.data.kvs) := by
  have hfits := fits_of_run h (fitting_shows log) hlog
  have hstored := ((hfits.nodes i).move (fitting_shows log) hlog hfits.sent hmove).stored
  have hbase : StoredFits log (Shows log) m.base := fun q hq =>
    hstored q (hq.trans (hm.lost.trans hto))
  obtain ⟨core, m', hnew⟩ : ∃ core m', Completes (StateMachineStore.new M) m (.ok core) m' := by
    rcases hs : StateMachineStore.snapshotIn M m.base with _ | snap
    · exact ⟨_, _, Node.new_run_none hs⟩
    · obtain ⟨kvs, hd, -⟩ := hbase m.base (.refl _) snap hs
      exact ⟨_, _, StateMachineStore.new_run_some m hs hd⟩
  have hstarts : Node.Starts m ⟨m', core, none, [], []⟩ := ⟨hnew, rfl, rfl, rfl⟩
  exact ⟨core, m', newStorage_run hnew, (hstarts.fits (fitting_shows log) hbase).core⟩

/-! ### A snapshot that is installed on another node -/

/-- The group of nodes that were just opened on empty databases. -/
def fresh : Group Configs := ⟨fun _ => Node.opened (LogEvent Configs) Configs, []⟩

theorem opens_fresh : Opens fresh := ⟨fun _ => ⟨_, rfl, Node.starts_opened⟩, rfl⟩

theorem increasing_twoEntries : Increasing Node.twoEntries := by
  simp only [Increasing, Node.twoEntries, List.pairwise_cons]
  exact ⟨by decide, by decide, .nil⟩

/-- A node builds a snapshot after the first entry. -/
theorem exists_built {R : Kvs → Kvs → Prop} (hR : ∀ kvs, R kvs kvs)
    (sent : List (StoredSnapshot Configs)) : ∃ n p kvs,
      Node.Run (fun n a => n.Calls Node.twoEntries R sent a)
        (Node.opened (LogEvent Configs) Configs) n ∧
      n.core.data.lastAppliedLogId = some blankEntry.logId ∧ p ∈ n.built ∧
      p.2.metadata.lastLogId = some blankEntry.logId ∧
      SerdeJson.fromSlice p.2.snapshot = some (kvs : Kvs) := by
  have h : Node.Run (fun n a => n.Calls Node.twoEntries R sent a)
    (Node.opened (LogEvent Configs) Configs) _ := .start
  have h := h.step (a := .apply blankEntry) ⟨[], ⟨[Node.setEntry], rfl⟩, rfl⟩
    (.apply rfl (StateMachineStore.applyEntry_run _ _ _))
  have h := h.step (a := .handOut) trivial (.handOut rfl)
  have h := h.step (a := .read _) (by exact hR _) (.read (l := []) rfl (Memory.read_run _ _))
  have h := h.step (a := .build _) trivial
    (.build (l := []) rfl rfl (StateMachineStore.storeSnapshot_run _ _ _))
  exact ⟨_, _, _, h, rfl, List.mem_cons_self, rfl, SerdeJson.fromSlice_toVec _⟩

/-- A node installs a snapshot that was sent. -/
theorem exists_installed {R : Kvs → Kvs → Prop} (sent : List (StoredSnapshot Configs))
    {snap : StoredSnapshot Configs} (hs : snap ∈ sent) {kvs : Kvs}
    (hd : SerdeJson.fromSlice snap.data = some kvs) : ∃ n,
      Node.Run (fun n a => n.Calls Node.twoEntries R sent a)
        (Node.opened (LogEvent Configs) Configs) n ∧
      n.core.data.lastAppliedLogId = snap.metadata.lastLogId := by
  have h : Node.Run (fun n a => n.Calls Node.twoEntries R sent a)
    (Node.opened (LogEvent Configs) Configs) _ := .start
  have h := h.step (a := .install snap) ⟨hs, atMost_none _⟩
    (.install rfl (StateMachineStore.updateStateMachine_run _ _ hd))
  have h := h.step (a := .store snap) trivial
    (.store rfl (StateMachineStore.setCurrentSnapshot_run _ _))
  exact ⟨_, h, rfl⟩

/-- The first node builds a snapshot, and the second one installs it. -/
theorem exists_run {R : Kvs → Kvs → Prop} (hR : ∀ kvs, R kvs kvs) : ∃ g : Group Configs,
    Run Node.twoEntries R g ∧ g.sent ≠ [] ∧
      (g.nodes 0).core.data.lastAppliedLogId = (g.nodes 1).core.data.lastAppliedLogId := by
  obtain ⟨n, p, kvs, hn, hpos, hp, hlabel, hd⟩ := exists_built hR []
  have h : Run Node.twoEntries R fresh := .start opens_fresh
  have h := h.node (i := 0) hn
  have h := h.step (.sendBuilt (i := 0) (p := p) (by rwa [nodes_set_self]))
  obtain ⟨n', hn', hpos'⟩ := exists_installed (R := R) [p.2.toStored] List.mem_cons_self hd
  have hne : (1 : UInt64) ≠ 0 := by decide
  have hopened : ((fresh.set 0 n).nodes 1) = Node.opened (LogEvent Configs) Configs :=
    nodes_set_ne fresh n hne
  have h := h.node (i := 1) (n := n') (hopened ▸ hn')
  refine ⟨_, h, List.cons_ne_nil _ _, ?_⟩
  rw [nodes_set_self, nodes_set_ne _ _ hne.symm, hpos']
  exact (congrArg (fun m => m.core.data.lastAppliedLogId) (nodes_set_self fresh 0 n)).trans
    (hpos.trans hlabel.symm)

/-- The snapshot and the maps are not behind their positions. -/
theorem fresh_exists_run : ∃ g : Group Configs, g.sent ≠ [] ∧
    g.Fits Node.twoEntries (Shows Node.twoEntries) := by
  obtain ⟨g, h, hsent, -⟩ := exists_run (R := Anytime) fun _ => trivial
  exact ⟨g, hsent, fresh_of_run increasing_twoEntries h⟩

/-- The node that installed the snapshot ends at the end of the log. -/
theorem caughtUp_exists_run : ∃ g : Group Configs, g.sent ≠ [] ∧
    CaughtUp Node.twoEntries (g.nodes 1) := by
  obtain ⟨g, h, hsent, -⟩ := exists_run (R := Anytime) fun _ => trivial
  exact ⟨g, hsent, caughtUp_of_run increasing_twoEntries h 1⟩

/-- The two nodes are at one position, and agree. -/
theorem agree_exists_run : ∃ g : Group Configs, g.sent ≠ [] ∧
    (g.nodes 0).memory.cells (g.nodes 0).core.data.kvs =
      (g.nodes 1).memory.cells (g.nodes 1).core.data.kvs ∧
    (g.nodes 0).core.data.lastMembership = (g.nodes 1).core.data.lastMembership := by
  obtain ⟨g, h, hsent, hpos⟩ := exists_run (R := Prompt) fun _ => rfl
  exact ⟨g, hsent, agree_of_prompt increasing_twoEntries h 0 1 hpos⟩

/-- The node that built the snapshot is opened again. -/
theorem opens_exists_run : ∃ (m m' : Memory (Journal (LogEvent Configs)) Kvs)
    (core : StateMachineStore Configs), Completes (newStorage Configs) m core m' ∧
      FitsAt Node.twoEntries (Shows Node.twoEntries) core.appliedState
        (m'.cells core.data.kvs) := by
  obtain ⟨g, h, -, -⟩ := exists_run (R := Anytime) fun _ => trivial
  have hcrash : (g.nodes 0).memory.base.Crash (g.nodes 0).memory.base := by
    refine ⟨.refl _, fun before after heq => ⟨after, ?_⟩⟩
    rw [heq, List.append_assoc, List.singleton_append]
  obtain ⟨core, m', hnew, hfits⟩ := opens_of_run (m := (g.nodes 0).memory)
    increasing_twoEntries h .rest (.refl _) hcrash
  exact ⟨_, m', core, hnew, hfits⟩

end Group

end PlacementCenter.Openraft
