import PlacementCenter.Storage.ClientKeys

/-!
# Replicas

Nodes that execute the same commands of the clients. A stored value carries the second in which the
node wrote it, so the contents of the nodes agree in everything but these times.

## Main definitions

* `Command`: a set or a delete of the key-value service
* `executeAll clock cmds`: a node executes the commands, the one at position `n` at `clock n`
* `AgreeUpToTime m m'`: the contents differ in the times of writing only
* `InStep cmds clock clock'`: the last set of each key was executed in the same second

## Main results

* `cluster_executeAll`: what the commands leave
* `executeAll_agree`: **nodes that execute the same commands agree up to the times of writing**, and
  in all bytes exactly when they are in step
-/

namespace PlacementCenter.Storage

open Rust Raft Program

/-- A command of the clients. -/
inductive Command where
  | set (key value : String)
  | delete (key : String)
  deriving DecidableEq, Repr

namespace Command

/-- The key of a command. -/
def key : Command → String
  | set key _ => key
  | delete key => key

/-- What a command leaves under its key at the time `now`. -/
def stored (now : UInt64) : Command → Option Bytes
  | set _ value => some (kvRecord now value)
  | delete _ => none

variable {σ : Type} [RocksDb σ]

/-- The execution of a command at the time `now`. -/
def execute (now : UInt64) : Command → Program σ (Except RobustMQError Unit)
  | set key value => KvStorage.set now key value
  | delete key => KvStorage.delete key

end Command

/-- A node executes commands, with their positions. An error is only logged. -/
def executeFrom {σ : Type} [RocksDb σ] (clock : ℕ → UInt64) (cmds : List (Command × ℕ)) :
    Program σ Unit :=
  cmds.foldlM (fun _ c => do
    let _ ← c.1.execute (clock c.2)
    return ()) ()

/-- A node executes the commands; the one at position `n` at the time `clock n`. -/
def executeAll {σ : Type} [RocksDb σ] (clock : ℕ → UInt64) (cmds : List Command) :
    Program σ Unit := executeFrom clock cmds.zipIdx

/-! ### What the commands leave -/

section executes

variable {ε : Type} (clock : ℕ → UInt64)

/-- The key of a command at a position, as the database has it. -/
def keyAt (c : Command × ℕ) : Bytes := utf8 c.1.key

/-- What a command at a position leaves. -/
def storedAt (c : Command × ℕ) : Option Bytes := c.1.stored (clock c.2)

theorem execute_run (now : UInt64) (c : Command) (w : World ε) :
    ∃ w', c.execute now w = (.ok (.ok ()), w') ∧
      cluster w' = (cluster w).update (utf8 c.key, c.stored now) := by
  cases c with
  | set key value => exact ⟨_, KvStorage.set_run w key now value, cluster_set now key value w⟩
  | delete key => exact ⟨_, KvStorage.delete_run w key, cluster_delete key w⟩

theorem executeFrom_run (cmds : List (Command × ℕ)) (w : World ε) :
    ∃ w', executeFrom clock cmds w = (.ok (), w') ∧
      cluster w' = (cluster w).updates (cmds.map fun c => (keyAt c, storedAt clock c)) := by
  induction cmds generalizing w with
  | nil => exact ⟨w, rfl, rfl⟩
  | cons c cmds ih =>
    obtain ⟨w₁, hrun, h₁⟩ := execute_run (clock c.2) c.1 w
    obtain ⟨w₂, htail, h₂⟩ := ih w₁
    refine ⟨w₂, ?_, ?_⟩
    · rw [executeFrom, List.foldlM_cons]
      exact (bind_run_ok (bind_run_ok hrun _) _).trans htail
    · rw [h₂, h₁]
      rfl

/-- **What the commands leave**: the updates of their keys, in order. -/
theorem cluster_executeAll (cmds : List Command) (w : World ε) :
    cluster (executeAll clock cmds w).2 =
      (cluster w).updates (cmds.zipIdx.map fun c => (keyAt c, storedAt clock c)) := by
  obtain ⟨w', hrun, h⟩ := executeFrom_run clock cmds.zipIdx w
  rw [executeAll, hrun]
  exact h

end executes

/-! ### Commands in step -/

/-- Both clocks have the last set of every key in the same second. -/
def InStep (cmds : List Command) (clock clock' : ℕ → UInt64) : Prop :=
  ∀ pre key value post, cmds = pre ++ .set key value :: post → (∀ c ∈ post, c.key ≠ key) →
    clock pre.length = clock' pre.length

/-- A last command, by what is before and after it. -/
theorem lastOn_zipIdx {cmds : List Command} {c : Command} {n : ℕ} :
    OrdMap.LastOn keyAt cmds.zipIdx (c, n) ↔
      ∃ pre post, cmds = pre ++ c :: post ∧ n = pre.length ∧ ∀ c' ∈ post, c'.key ≠ c.key := by
  constructor
  -- a position is the number of the commands before it
  · rintro ⟨pre, post, heq, hpost⟩
    have hat : cmds.zipIdx[pre.length]? = some (c, n) := by
      rw [heq, List.getElem?_append_right (Nat.le_refl _), Nat.sub_self]
      rfl
    have hcmds : cmds = pre.map Prod.fst ++ c :: post.map Prod.fst := by
      have := congrArg (List.map Prod.fst) heq
      simpa using this
    refine ⟨pre.map Prod.fst, post.map Prod.fst, hcmds, ?_, fun c' hc' hk => ?_⟩
    · rw [List.getElem?_zipIdx] at hat
      obtain ⟨c', -, hn⟩ := Option.map_eq_some_iff.mp hat
      have hlen := congrArg Prod.snd hn
      simpa using hlen.symm
    · obtain ⟨y, hy, rfl⟩ := List.mem_map.mp hc'
      exact hpost y hy (congrArg utf8 hk)
  · rintro ⟨pre, post, rfl, rfl, hpost⟩
    refine ⟨pre.zipIdx, post.zipIdx (pre.length + 1), ?_, fun y hy hk => ?_⟩
    · rw [List.zipIdx_append, List.zipIdx_cons, Nat.zero_add]
    · exact hpost y.1 (List.fst_mem_of_mem_zipIdx hy) (utf8_injective hk)

/-- Records of one value differ when they are of different seconds. -/
theorem kvRecord_inj {now now' : UInt64} {value : String}
    (h : kvRecord now value = kvRecord now' value) : now = now' := by
  have hp := congrArg (parseRecord StorageDataWrap) h
  rw [kvRecord, kvRecord, parseRecord_recordBytes, parseRecord_recordBytes] at hp
  exact congrArg StorageDataWrap.createTime (Except.ok.inj hp)

/-- Nodes are in step when the last commands leave the same. -/
theorem inStep_iff {cmds : List Command} {clock clock' : ℕ → UInt64} :
    InStep cmds clock clock' ↔
      ∀ c, OrdMap.LastOn keyAt cmds.zipIdx c → storedAt clock c = storedAt clock' c := by
  constructor
  · rintro h ⟨c, n⟩ hlast
    obtain ⟨pre, post, hcmds, rfl, hpost⟩ := lastOn_zipIdx.mp hlast
    cases c with
    | set key value => rw [storedAt, storedAt, h pre key value post hcmds hpost]
    | delete key => rfl
  · intro h pre key value post hcmds hpost
    have hsame := h _ (lastOn_zipIdx.mpr ⟨pre, post, hcmds, rfl, hpost⟩)
    exact kvRecord_inj (Option.some_inj.mp hsame)

/-! ### Agreement -/

/-- The same bytes, or records of the same data. -/
def SameData (v v' : Bytes) : Prop :=
  v = v' ∨ ∃ now now' data, v = recordBytes (StorageDataWrap.new now data) ∧
    v' = recordBytes (StorageDataWrap.new now' data)

/-- The contents have the same keys, with the same bytes or records of the same data. -/
def AgreeUpToTime (m m' : ColumnFamily) : Prop :=
  ∀ k : Bytes, Option.Rel SameData m[k]? m'[k]?

theorem option_rel_of_eq {o o' : Option Bytes} (h : o = o') : Option.Rel SameData o o' := by
  subst h
  cases o with
  | none => exact .none
  | some v => exact .some (.inl rfl)

theorem storedAt_rel (clock clock' : ℕ → UInt64) (c : Command × ℕ) :
    Option.Rel SameData (storedAt clock c) (storedAt clock' c) := by
  obtain ⟨c, n⟩ := c
  cases c with
  | set key value => exact .some (.inr ⟨_, _, _, rfl, rfl⟩)
  | delete key => exact .none

theorem kvIn_of_record {m : ColumnFamily} {key : String} {d : StorageDataWrap}
    (h : m[utf8 key]? = some (recordBytes d)) : kvIn m key = valueOf d := by
  have hread : readIn StorageDataWrap m key = .ok (some d) := by
    rw [readIn, h]
    show (parseRecord StorageDataWrap (recordBytes d)).map some = _
    rw [parseRecord_recordBytes]
    rfl
  rw [kvIn, hread]

/-- Readers see no difference between contents that agree up to the times. -/
theorem AgreeUpToTime.kvIn_eq {m m' : ColumnFamily} (h : AgreeUpToTime m m') (key : String) :
    kvIn m key = kvIn m' key := by
  have hkey := h (utf8 key)
  rcases hm : m[utf8 key]? with _ | v <;> rcases hm' : m'[utf8 key]? with _ | v' <;>
    rw [hm, hm'] at hkey
  · exact kvIn_congr (hm.trans hm'.symm)
  · cases hkey
  · cases hkey
  · obtain ⟨rfl | ⟨now, now', data, rfl, rfl⟩⟩ := hkey
    · exact kvIn_congr (hm.trans hm'.symm)
    · rw [kvIn_of_record hm, kvIn_of_record hm']
      rfl

/-- Dumps of the same bytes hold the same texts. -/
theorem lookup_of_dumpOf_eq {m m' : ColumnFamily} (h : dumpOf m = dumpOf m') {k v : String}
    (hm : m[utf8 k]? = some (utf8 v)) : m'[utf8 k]? = some (utf8 v) := by
  have hpairs := congrArg RaftMachineStorage.dumpPairs h
  rw [RaftMachineStorage.dumpPairs_dumpOf, RaftMachineStorage.dumpPairs_dumpOf] at hpairs
  have htexts := congrArg (List.map fun p => (utf8 p.1, utf8 p.2)) hpairs
  rw [RaftMachineStorage.map_textPairs, RaftMachineStorage.map_textPairs] at htexts
  have hmem : (utf8 k, utf8 v) ∈ m.toList.filter RaftMachineStorage.isText := by
    rw [List.mem_filter]
    exact ⟨Std.ExtTreeMap.mem_toList_iff_getElem?_eq_some.mpr hm, by
      simp [RaftMachineStorage.isText]⟩
  rw [htexts] at hmem
  exact Std.ExtTreeMap.mem_toList_iff_getElem?_eq_some.mp (List.mem_filter.mp hmem).1

section agree

variable {ε : Type} {w w' : World ε} (clock clock' : ℕ → UInt64) (cmds : List Command)

theorem agreeUpToTime_executeAll (h : cluster w = cluster w') :
    AgreeUpToTime (cluster (executeAll clock cmds w).2) (cluster (executeAll clock' cmds w').2) := by
  intro k
  rw [cluster_executeAll, cluster_executeAll, ← h]
  -- a key that no command has keeps its value; another one has that of its last command
  rcases OrdMap.forall_ne_or_lastOn keyAt cmds.zipIdx k with hne | ⟨c, hlast, rfl⟩
  · refine option_rel_of_eq ?_
    rw [OrdMap.lookup_updates_map_of_forall_ne _ _ hne,
      OrdMap.lookup_updates_map_of_forall_ne _ _ hne]
  · rw [OrdMap.lookup_updates_lastOn _ _ hlast, OrdMap.lookup_updates_lastOn _ _ hlast]
    exact storedAt_rel clock clock' c

theorem cluster_executeAll_eq_iff (h : cluster w = cluster w') :
    cluster (executeAll clock cmds w).2 = cluster (executeAll clock' cmds w').2 ↔
      InStep cmds clock clock' := by
  rw [cluster_executeAll, cluster_executeAll, ← h, OrdMap.updates_eq_iff, inStep_iff]

theorem dumpOf_executeAll_eq_iff (h : cluster w = cluster w') :
    dumpOf (cluster (executeAll clock cmds w).2) = dumpOf (cluster (executeAll clock' cmds w').2) ↔
      InStep cmds clock clock' := by
  constructor
  · intro hdump pre key value post hcmds hpost
    have hlast : OrdMap.LastOn keyAt cmds.zipIdx (.set key value, pre.length) :=
      lastOn_zipIdx.mpr ⟨pre, post, hcmds, rfl, hpost⟩
    -- the record of this set is text on both nodes
    have hleft := OrdMap.lookup_updates_lastOn (storedAt clock) (cluster w) hlast
    have hright := OrdMap.lookup_updates_lastOn (storedAt clock') (cluster w') hlast
    rw [← cluster_executeAll] at hleft hright
    have hsame := lookup_of_dumpOf_eq hdump hleft
    exact kvRecord_inj (Option.some_inj.mp (hsame.symm.trans hright))
  · intro hstep
    rw [(cluster_executeAll_eq_iff clock clock' cmds h).mpr hstep]

end agree

/-- **Nodes that execute the same commands from the same contents agree up to the times of
writing**: the keys, the data and what is read of them are the same. The contents and their dumps
are the same exactly when the nodes executed the last set of each key in the same second. -/
theorem executeAll_agree {ε : Type} {w w' : World ε} (h : cluster w = cluster w')
    (cmds : List Command) (clock clock' : ℕ → UInt64) :
    AgreeUpToTime (cluster (executeAll clock cmds w).2) (cluster (executeAll clock' cmds w').2) ∧
      (∀ key, (KvStorage.get key (executeAll clock cmds w).2).1 =
        (KvStorage.get key (executeAll clock' cmds w').2).1) ∧
      (cluster (executeAll clock cmds w).2 = cluster (executeAll clock' cmds w').2 ↔
        InStep cmds clock clock') ∧
      (dumpOf (cluster (executeAll clock cmds w).2) =
        dumpOf (cluster (executeAll clock' cmds w').2) ↔ InStep cmds clock clock') := by
  have hagree := agreeUpToTime_executeAll clock clock' cmds h
  refine ⟨hagree, fun key => ?_, cluster_executeAll_eq_iff clock clock' cmds h,
    dumpOf_executeAll_eq_iff clock clock' cmds h⟩
  rw [KvStorage.get_run, KvStorage.get_run]
  exact congrArg Outcome.ok (hagree.kvIn_eq key)

/-! Two nodes set a key, one second apart. -/

def oneSet : List Command := [.set "k" "v"]

/-- The node that comes up empty and sets the key at the time `now`. -/
def setAt (now : UInt64) : World Empty := (executeAll (fun _ => now) oneSet World.empty).2

theorem setAt_agree :
    AgreeUpToTime (cluster (setAt 0)) (cluster (setAt 1)) ∧
      (∀ key, (KvStorage.get key (setAt 0)).1 = (KvStorage.get key (setAt 1)).1) ∧
      (cluster (setAt 0) = cluster (setAt 1) ↔ InStep oneSet (fun _ => 0) fun _ => 1) ∧
      (dumpOf (cluster (setAt 0)) = dumpOf (cluster (setAt 1)) ↔
        InStep oneSet (fun _ => 0) fun _ => 1) :=
  executeAll_agree rfl oneSet (fun _ => 0) fun _ => 1

/-- The two nodes store different bytes, and dump different texts. -/
theorem setAt_differ :
    cluster (setAt 0) ≠ cluster (setAt 1) ∧
      dumpOf (cluster (setAt 0)) ≠ dumpOf (cluster (setAt 1)) := by
  have hstep : ¬ InStep oneSet (fun _ => 0) fun _ => 1 := by
    intro h
    have hsame := h [] "k" "v" [] rfl fun c hc => by cases hc
    exact absurd hsame (by decide)
  constructor
  · exact (cluster_executeAll_eq_iff (fun _ => 0) (fun _ => 1) oneSet rfl).not.mpr hstep
  · exact (dumpOf_executeAll_eq_iff (fun _ => 0) (fun _ => 1) oneSet rfl).not.mpr hstep

end PlacementCenter.Storage
