import PlacementCenter.Storage.StoreEffects
import PlacementCenter.Storage.KvStorage

/-!
# Runs of a node's store

The operations on the store of a node, by the raft crate and by the clients, and the stores that
a run of them reaches. A panic ends the process; the store is then opened again over what was
written.

## Main definitions

* `RaftOp`: the operations of the log store
* `StoreOp`: these, the installation of a snapshot and the writes of the clients
* `Reachable self w`: a run from the empty database reaches the store `self` over `w`
* `runOps ops`: one such run

## Main results

* `RaftOp.keeps`: what the writes of its records keep, an operation of the log store keeps
* `Reachable.induction`: what the write and the deletion of a text keep, every run keeps
* `Reachable.allText`: the keys and values of a reachable store are texts
-/

namespace PlacementCenter.Storage

open Rust Rust.Prost Raft

/-- The operations of the log store that the raft crate drives on one node. -/
inductive RaftOp where
  | append (entrys : List Entry)
  | commmitIndex (idx : UInt64)
  | saveHardState (hs : HardState)
  | setHardStateCommit (commit : UInt64)
  | saveConfState (cs : ConfState)
  | createSnapshot

/-- The operations on the store of a node. -/
inductive StoreOp where
  | raft (op : RaftOp)
  | applySnapshot (snapshot : Snapshot)
  | set (now : UInt64) (key value : String)
  | delete (key : String)

variable {σ : Type} [RocksDb σ]

/-- The store after an operation of the log store. -/
def RaftOp.run (self : RaftMachineStorage) : RaftOp → Program σ RaftMachineStorage
  | append entrys => do return (← self.append entrys).2
  | commmitIndex idx => do return (← self.commmitIndex idx).2
  | saveHardState hs => do
    let _ ← RaftMachineStorage.saveHardState hs
    return self
  | setHardStateCommit commit => do
    let _ ← RaftMachineStorage.setHardStateCommit commit
    return self
  | saveConfState cs => do
    let _ ← RaftMachineStorage.saveConfState cs
    return self
  | createSnapshot => self.createSnapshot

/-- The store after an operation. -/
def StoreOp.run (self : RaftMachineStorage) : StoreOp → Program σ RaftMachineStorage
  | raft op => op.run self
  | applySnapshot snapshot => do return (← self.applySnapshot snapshot).2
  | set now key value => do
    let _ ← KvStorage.set now key value
    return self
  | delete key => do
    let _ ← KvStorage.delete key
    return self

variable {ε : Type}

/-- A run from the empty database reaches the store `self` over the world `w`. -/
inductive Reachable : RaftMachineStorage → World ε → Prop where
  | start {self w} (h : Program.Completes RaftMachineStorage.new World.empty self w) :
    Reachable self w
  | step {self self' w w'} (op : StoreOp) (hr : Reachable self w)
    (h : Program.Completes (op.run self) w self' w') : Reachable self' w'
  | restart {self self' w w'} (hr : Reachable self w)
    (h : Program.Completes RaftMachineStorage.new w self' w') : Reachable self' w'
  | panicked {self self' w t w'} {msg : String} (op : StoreOp) (hr : Reachable self w)
    (hp : op.run self w = (.panicked msg, t))
    (h : Program.Completes RaftMachineStorage.new t self' w') : Reachable self' w'

/-- Open the database and run some operations. -/
def runOps (ops : List StoreOp) : Program σ RaftMachineStorage := do
  let self ← RaftMachineStorage.new
  ops.foldlM StoreOp.run self

theorem reachable_runOps {ops : List StoreOp} {self : RaftMachineStorage} {w : World ε}
    (h : Program.Completes (runOps ops) World.empty self w) : Reachable self w := by
  obtain ⟨self₀, w₀, h₀, h⟩ := Program.completes_bind.mp h
  exact h.foldlM Reachable (fun _ op _ _ _ _ hr hc => .step op hr hc) (.start h₀)

/-- The empty database can be opened. -/
theorem new_isOk : (RaftMachineStorage.new (World.empty : World Unit)).1.isOk = true := by
  decide +kernel

/-- A store over the empty database. -/
def emptyStore : RaftMachineStorage × World Unit :=
  Program.finish RaftMachineStorage.new World.empty new_isOk

/-! ### What the operations keep -/

open Program

section keeps

variable {P : World ε → Prop}

theorem keeps_of_readOnly {α : Type} {p : Program (World ε) α} (a : World ε → Option α)
    (h : ∀ w, p w = (Program.unwrapOk (a w) : Program (World ε) α) w) : Keeps P p := by
  refine keeps_of_run p fun w => ?_
  rw [h]
  cases a w <;> rfl

theorem keeps_hardState : Keeps P (RaftMachineStorage.hardState : Program (World ε) _) :=
  keeps_of_readOnly _ RaftMachineStorage.hardState_run

theorem keeps_entryByIdx (idx : UInt64) :
    Keeps P (RaftMachineStorage.entryByIdx idx : Program (World ε) _) :=
  keeps_of_readOnly _ fun w => RaftMachineStorage.entryByIdx_run w idx

theorem keeps_firstIndex (self : RaftMachineStorage) :
    Keeps P (self.firstIndex : Program (World ε) _) :=
  keeps_of_run _ fun w => by rw [RaftMachineStorage.firstIndex_run]

theorem keeps_lastIndex (self : RaftMachineStorage) :
    Keeps P (self.lastIndex : Program (World ε) _) :=
  keeps_of_run _ fun w => by rw [RaftMachineStorage.lastIndex_run]

theorem keeps_newSnapshot : Keeps P (RaftMachineStorage.newSnapshot : Program (World ε) _) := by
  refine keeps_of_run _ fun w => ?_
  rcases RaftMachineStorage.newSnapshot_run w with ⟨s, -, h⟩ | ⟨-, msg, h⟩ <;> rw [h]

/-- The operations that save a state and leave the log. -/
def RaftOp.SavesState : RaftOp → Prop
  | saveHardState _ | setHardStateCommit _ | saveConfState _ => True
  | _ => False

/-- They leave the store in memory as it is. -/
theorem RaftOp.SavesState.self_eq {op : RaftOp} (h : op.SavesState)
    {self self' : RaftMachineStorage} {w w' : World ε} (hc : Completes (op.run self) w self' w') :
    self' = self := by
  cases op with
  | saveHardState hs =>
    obtain ⟨_, _, -, hc⟩ := completes_bind.mp hc
    exact (completes_pure.mp hc).1.symm
  | setHardStateCommit commit =>
    obtain ⟨_, _, -, hc⟩ := completes_bind.mp hc
    exact (completes_pure.mp hc).1.symm
  | saveConfState cs =>
    obtain ⟨_, _, -, hc⟩ := completes_bind.mp hc
    exact (completes_pure.mp hc).1.symm
  | append entrys => exact h.elim
  | commmitIndex idx => exact h.elim
  | createSnapshot => exact h.elim

/-- The records an operation of the log store may write. -/
def RaftOp.Writes : RaftOp → Record → Prop
  | append entrys, r => (∃ e ∈ entrys, r = .entry e.index) ∨ r = .lastIndex ∨ r = .uncommit
  | commmitIndex _, r => r = .uncommit ∨ r = .hardState
  | saveHardState _, r => r = .hardState
  | setHardStateCommit _, r => r = .hardState
  | saveConfState _, r => r = .confState
  | createSnapshot, r => r = .firstIndex ∨ r = .snapshot

/-- The write of a record in `R` keeps `P`. -/
def KeptByRecords (R : Record → Prop) (P : World ε → Prop) : Prop :=
  ∀ (w : World ε) (r : Record) (text : String), R r → P w → P (putKey w r.key (utf8 text))

theorem KeptByRecords.mono {R R' : Record → Prop} (hP : KeptByRecords R P) (h : ∀ r, R' r → R r) :
    KeptByRecords R' P := fun w r text hr => hP w r text (h r hr)

theorem KeptByRecords.write {R : Record → Prop} (hP : KeptByRecords R P) {α : Type} [SerdeJson α]
    {r : Record} (hr : R r) (value : α) :
    Keeps P (RocksDBEngine.write dbColumnFamilyCluster r.name value : Program (World ε) _) :=
  fun w hw => hP w r (SerdeJson.toString value) hr hw

/-- **What the writes of its records keep, an operation of the log store keeps**, also when it
panics. -/
theorem RaftOp.keeps (op : RaftOp) (hP : KeptByRecords op.Writes P) (self : RaftMachineStorage) :
    Keeps P (op.run self : Program (World ε) _) := by
  cases op with
  | append entrys =>
    refine keeps_bind ?_ fun _ => keeps_pure _
    cases entrys with
    | nil => exact keeps_pure _
    | cons e es =>
      -- two assertions on the first entry, then one write after the other
      refine keeps_bind (keeps_firstIndex self) fun fi => ?_
      split_ifs
      · exact keeps_panic _
      · refine keeps_bind (keeps_lastIndex self) fun li => ?_
        split_ifs
        · exact keeps_panic _
        · refine keeps_bind (keeps_foldlM _ (fun self e he => ?_) _) fun self =>
            keeps_bind (keeps_bind (hP.write (r := .uncommit) (.inr (.inr rfl)) _) fun _ =>
              keeps_pure _) fun _ => keeps_pure _
          exact keeps_bind (hP.write (r := .entry e.index) (.inl ⟨e, he, rfl⟩) _) fun _ =>
            keeps_bind (keeps_expectOk _) fun _ =>
              keeps_bind (hP.write (r := .lastIndex) (.inr (.inl rfl)) _) fun _ =>
                keeps_bind (keeps_expectOk _) fun _ => keeps_pure _
  | commmitIndex idx =>
    refine keeps_bind (keeps_bind (keeps_entryByIdx idx) fun entry => ?_) fun _ => keeps_pure _
    refine keeps_bind (keeps_bind (hP.write (r := .uncommit) (.inl rfl) _) fun _ =>
      keeps_pure _) fun _ => ?_
    refine keeps_bind keeps_hardState fun hs => ?_
    exact keeps_bind (keeps_unwrap entry) fun _ =>
      keeps_bind (hP.write (r := .hardState) (.inr rfl) _) fun _ => keeps_pure _
  | saveHardState hs => exact keeps_bind (hP.write (r := .hardState) rfl _) fun _ => keeps_pure _
  | setHardStateCommit commit =>
    refine keeps_bind (keeps_bind keeps_hardState fun hs => ?_) fun _ => keeps_pure _
    exact hP.write (r := .hardState) rfl _
  | saveConfState cs => exact keeps_bind (hP.write (r := .confState) rfl _) fun _ => keeps_pure _
  | createSnapshot =>
    refine keeps_bind keeps_newSnapshot fun s => ?_
    exact keeps_bind (hP.write (r := .firstIndex) (.inl rfl) _) fun _ =>
      keeps_bind (keeps_bind (hP.write (r := .snapshot) (.inr rfl) _) fun _ => keeps_pure _)
        fun _ => keeps_pure _

/-- The write of a text and the deletion of one keep `P`. -/
structure KeptByTexts (P : World ε → Prop) : Prop where
  put : ∀ (w : World ε) (k v : String), P w → P (putKey w (utf8 k) (utf8 v))
  delete : ∀ (w : World ε) (k : String), P w → P (w.delete dbColumnFamilyCluster (utf8 k))

theorem KeptByTexts.records (hP : KeptByTexts P) (R : Record → Prop) : KeptByRecords R P :=
  fun w r text _ hw => hP.put w r.name text hw

/-- What the write and the deletion of a text keep, every operation keeps. -/
theorem StoreOp.keeps (hP : KeptByTexts P) (self : RaftMachineStorage) (op : StoreOp) :
    Keeps P (op.run self : Program (World ε) _) := by
  cases op with
  | raft op => exact op.keeps (hP.records _) self
  | applySnapshot s =>
    refine keeps_bind (keeps_bind (keeps_firstIndex self) fun fi => ?_) fun _ => keeps_pure _
    dsimp only
    split_ifs
    · exact keeps_pure _
    · refine keeps_bind (fun w hw => ?_) fun _ => ?_
      · rw [RaftMachineStorage.writeAll_run]
        dsimp only
        induction RaftMachineStorage.payloadPairs s.data generalizing w with
        | nil => exact hw
        | cons p ps ih => exact ih _ (hP.put w p.1 p.2 hw)
      · refine keeps_bind keeps_hardState fun hs => ?_
        have hR := hP.records fun _ => True
        exact keeps_bind (hR.write (r := .hardState) trivial _) fun _ =>
          keeps_bind (hR.write (r := .confState) trivial _) fun _ => keeps_pure _
  | set now key value =>
    exact keeps_bind (fun w hw => hP.put w key _ hw) fun _ => keeps_pure _
  | delete key => exact keeps_bind (fun w hw => hP.delete w key hw) fun _ => keeps_pure _

theorem keeps_new : Keeps P (RaftMachineStorage.new : Program (World ε) _) := by
  refine keeps_bind (keeps_of_run _ fun w => ?_) fun _ => keeps_bind ?_ fun _ => keeps_pure _
  · rw [RaftMachineStorage.readUncommitIndex_run]
  · exact keeps_of_readOnly _ RaftMachineStorage.createSnapshotMetadata_run

/-- **What the write and the deletion of a text keep, every run keeps.** -/
theorem Reachable.induction (hP : KeptByTexts P) (h₀ : P World.empty) {self : RaftMachineStorage}
    {w : World ε} (hr : Reachable self w) : P w := by
  induction hr with
  | @start self w h =>
    have := keeps_new World.empty h₀
    rwa [h] at this
  | @step self self' w w' op hr h ih =>
    have := op.keeps hP self w ih
    rwa [h] at this
  | @restart self self' w w' hr h ih =>
    have := keeps_new w ih
    rwa [h] at this
  | @panicked self self' w t w' msg op hr hp h ih =>
    have ht := op.keeps hP self w ih
    rw [hp] at ht
    have := keeps_new t ht
    rwa [h] at this

end keeps

/-! ### Texts -/

/-- Every key and every value is text. -/
def AllText (m : ColumnFamily) : Prop :=
  ∀ k v, m[k]? = some v → RaftMachineStorage.isText (k, v) = true

/-- **The keys and values of a reachable store are texts.** -/
theorem Reachable.allText {self : RaftMachineStorage} {w : World ε} (hr : Reachable self w) :
    AllText (cluster w) := by
  refine hr.induction (P := fun w => AllText (cluster w)) ⟨?_, ?_⟩ (fun k v h => by simp at h)
  · intro w k v hw k' v' h
    rw [cluster_putKey, OrdMap.lookup_insert] at h
    split_ifs at h with hk
    · cases h
      subst hk
      simp [RaftMachineStorage.isText]
    · exact hw k' v' h
  · intro w k hw k' v' h
    rw [cluster, World.columns_delete_self, OrdMap.lookup_erase] at h
    split_ifs at h
    exact hw k' v' h

end PlacementCenter.Storage
