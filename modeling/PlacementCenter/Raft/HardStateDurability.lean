import PlacementCenter.Raft.Cycles

/-!
# The durability of the hard state

Three writers share the record of the hard state: the hard states of the node, the commit index on
the way, and every committed entry. The last of them also stores the term of the entry, so an
entry of an earlier term takes the stored term back, unless the hard state of the node is stored
after it.

## Main definitions

* `DurableHardState`: the stored hard state is not behind the one handed over
* `Cycle.lastTerm`: the entry whose commit is the last write of the stored term
* `Cycle.KeepsTerm`: no such entry is of an earlier term than the node
* `CycleRun`: the runs of cycles without snapshots

## Main results

* `durable_of_run`: in a run whose cycles keep the term, the hard state is durable
* `durable_step_iff`: any other cycle takes the stored term back
-/

namespace PlacementCenter.Raft

open Rust Rust.Prost Storage Program

/-- The stored hard state is of the term that was handed over or of a later one, and in the same
term it holds the same vote. -/
def DurableHardState (last : HardState) (w : World MachineEvent) : Prop :=
  ∃ hs, Completes RaftMachineStorage.hardState w hs w ∧ last.term ≤ hs.term ∧
    (hs.term = last.term → hs.vote = last.vote)

/-- The entry whose commit is the last write of the stored term in a cycle. The hard state of the
node is stored between the two lists of entries. -/
def Cycle.lastTerm (c : Cycle) : Option Entry :=
  match c.lightRd.committedEntries.getLast?, c.ready.hs with
  | some e, _ => some e
  | none, some _ => none
  | none, none => c.ready.committedEntries.getLast?

/-- The last entry that writes the stored term is of the term of the node. -/
def Cycle.KeepsTerm (p : Progress) (c : Cycle) : Prop :=
  ∀ e ∈ c.lastTerm, (c.current p).term ≤ e.term

/-- The runs of cycles without snapshots, from any store; `p` is what the node has handed over. -/
inductive CycleRun (router : Router MachineEvent) (Cond : Progress → Cycle → Prop) :
    RaftMachine → World MachineEvent → Progress → Prop where
  | start {self w p} (h : hardStateIn (cluster w) = some p.last) : CycleRun router Cond self w p
  | cycle {self self' w w' p} (c : Cycle) (hr : CycleRun router Cond self w p)
    (hc : c.Contract p w) (hsnap : c.ready.snapshot = .default) (hcond : Cond p c)
    (h : Completes (self.onReady router.route c) w self' w') :
    CycleRun router Cond self' w' (p.after c)

/-! ### The stored term and vote -/

theorem committedStates_vote (hs : HardState) (es : List Entry) :
    (committedStates hs es).vote = hs.vote := by
  induction es generalizing hs with
  | nil => rfl
  | cons e es ih => exact ih (RaftMachineStorage.committedState hs e e.index)

/-- The stored term is that of the last entry. -/
theorem committedStates_term (hs : HardState) (es : List Entry) :
    (committedStates hs es).term = (es.getLast?.map fun e => e.term).getD hs.term := by
  induction es generalizing hs with
  | nil => rfl
  | cons e es ih =>
    refine (ih (RaftMachineStorage.committedState hs e e.index)).trans ?_
    cases es with
    | nil => rfl
    | cons e' es => rw [List.getLast?_cons_cons, List.getLast?_cons]; rfl

theorem Cycle.storedState_vote (c : Cycle) (hs : HardState) :
    (c.storedState hs).vote = (c.ready.hs.getD hs).vote := by
  rw [storedState, committedStates_vote]
  cases hr : c.ready.hs with
  | none => exact committedStates_vote hs _
  | some hs' => rfl

/-- The term of the last entry that writes it, or that of the hard state of the node. -/
theorem Cycle.storedState_term (c : Cycle) (hs : HardState) :
    (c.storedState hs).term = (c.lastTerm.map fun e => e.term).getD (c.ready.hs.getD hs).term := by
  rw [storedState, committedStates_term, lastTerm]
  cases hl : c.lightRd.committedEntries.getLast? with
  | some e => rfl
  | none =>
    cases hr : c.ready.hs with
    | none => exact committedStates_term hs _
    | some hs' => rfl

/-! ### Runs -/

variable {router : Router MachineEvent} {self self' : RaftMachine} {w w' : World MachineEvent}
  {p : Progress}

/-- The stored hard state holds the vote that was handed over, in a term that is not earlier. -/
def VoteInv (last : HardState) (w : World MachineEvent) : Prop :=
  ∃ hs, hardStateIn (cluster w) = some hs ∧ last.term ≤ hs.term ∧ hs.vote = last.vote

theorem VoteInv.durable {last : HardState} (h : VoteInv last w) : DurableHardState last w := by
  obtain ⟨hs, hhs, hterm, hvote⟩ := h
  exact ⟨hs, (RaftMachineStorage.completes_hardState w).mpr ⟨hhs, rfl⟩, hterm, fun _ => hvote⟩

/-- What a cycle leaves, when the vote was stored before it. -/
theorem stored_of_cycle {c : Cycle} (hi : VoteInv p.last w) (hc : c.Contract p w)
    (hsnap : c.ready.snapshot = .default)
    (h : Completes (self.onReady router.route c) w self' w') :
    ∃ hs, hardStateIn (cluster w') = some hs ∧ hs.vote = (c.current p).vote ∧
      ((c.current p).term ≤ hs.term ↔ c.KeepsTerm p) := by
  obtain ⟨hs, hhs, hterm, hvote⟩ := hi
  refine ⟨_, RaftMachine.completes_onReady hsnap hhs (hc.stored hsnap) h, ?_, ?_⟩
  · rw [Cycle.storedState_vote, Cycle.current]
    cases c.ready.hs with
    | none => exact hvote
    | some hs' => rfl
  · rw [Cycle.storedState_term, Cycle.KeepsTerm]
    cases hl : c.lastTerm with
    | some e => simp
    | none =>
      -- Without such an entry the stored term is the one handed over, or stays.
      simp only [Option.map_none, Option.getD_none, Option.mem_def, reduceCtorEq, false_implies,
        implies_true, iff_true, Cycle.current]
      cases c.ready.hs with
      | none => exact hterm
      | some hs' => exact UInt64.le_refl _

/-- A cycle that keeps the term keeps the vote. -/
theorem VoteInv.cycle {c : Cycle} (hi : VoteInv p.last w) (hc : c.Contract p w)
    (hsnap : c.ready.snapshot = .default) (hk : c.KeepsTerm p)
    (h : Completes (self.onReady router.route c) w self' w') : VoteInv (p.after c).last w' := by
  obtain ⟨hs, hhs, hvote, hterm⟩ := stored_of_cycle hi hc hsnap h
  exact ⟨hs, hhs, hterm.mpr hk, hvote⟩

theorem voteInv_of_run (h : CycleRun router Cycle.KeepsTerm self w p) : VoteInv p.last w := by
  induction h with
  | @start self w p h => exact ⟨p.last, h, UInt64.le_refl _, rfl⟩
  | cycle c _ hc hsnap hk h ih => exact ih.cycle hc hsnap hk h

/-- **The hard state is durable** in every run whose cycles keep the term. -/
theorem durable_of_run (h : CycleRun router Cycle.KeepsTerm self w p) :
    DurableHardState p.last w :=
  (voteInv_of_run h).durable

/-- **Any other cycle takes the stored term back**: after a run that kept the term, the hard state
is durable exactly when the next cycle keeps it. -/
theorem durable_step_iff {c : Cycle} (hr : CycleRun router Cycle.KeepsTerm self w p)
    (hc : c.Contract p w) (hsnap : c.ready.snapshot = .default)
    (h : Completes (self.onReady router.route c) w self' w') :
    DurableHardState (p.after c).last w' ↔ c.KeepsTerm p := by
  obtain ⟨hs, hhs, -, hterm⟩ := stored_of_cycle (voteInv_of_run hr) hc hsnap h
  constructor
  · rintro ⟨hs', hhs', hle, -⟩
    obtain ⟨hhs', -⟩ := (RaftMachineStorage.completes_hardState w').mp hhs'
    obtain rfl : hs = hs' := Option.some_inj.mp (hhs.symm.trans hhs')
    exact hterm.mp hle
  · intro hk
    exact (voteInv_of_run (.cycle c hr hc hsnap hk h)).durable

/-! ### A follower behind its leader

The leader of term `2` replicates an entry of term `1`. -/

/-- An entry without data, of term `1`. -/
def oldEntry : Entry := { Entry.default with term := 1, index := 1 }

theorem booted_run (Cond : Progress → Cycle → Prop) :
    CycleRun dataRoute Cond booted.1.1 booted.2 noProgress :=
  .start hardStateIn_booted

/-- The follower after it learned the entry in the term of the entry. -/
def sameTerm : RaftMachine × World MachineEvent :=
  finish (booted.1.1.onReady DataRoute.route (learnCycle oldEntry ⟨1, 2, 1⟩)) booted.2
    (by decide +kernel)

theorem durable_sameTerm : DurableHardState ⟨1, 2, 1⟩ sameTerm.2 := by
  have hr : CycleRun dataRoute Cycle.KeepsTerm sameTerm.1 sameTerm.2
      (noProgress.after (learnCycle oldEntry ⟨1, 2, 1⟩)) := by
    refine .cycle (learnCycle oldEntry ⟨1, 2, 1⟩) (booted_run _)
      (learnCycle_contract rfl (by decide) (by decide)) rfl ?_ (completes_finish _ _ _)
    rintro e ⟨⟩
    decide
  exact durable_of_run hr

/-- The follower after it learned the entry in term `2`, in which it voted for node `2`. -/
def laterTerm : RaftMachine × World MachineEvent :=
  finish (booted.1.1.onReady DataRoute.route (learnCycle oldEntry ⟨2, 2, 1⟩)) booted.2
    (by decide +kernel)

/-- The stored term is `1` after the node handed over term `2`. -/
theorem stored_term_behind :
    CycleRun dataRoute (fun _ _ => True) laterTerm.1 laterTerm.2
        (noProgress.after (learnCycle oldEntry ⟨2, 2, 1⟩)) ∧
      (noProgress.after (learnCycle oldEntry ⟨2, 2, 1⟩)).last = ⟨2, 2, 1⟩ ∧
      Completes RaftMachineStorage.hardState laterTerm.2 ⟨1, 2, 1⟩ laterTerm.2 ∧
      ¬ DurableHardState ⟨2, 2, 1⟩ laterTerm.2 := by
  have hhs : hardStateIn (cluster laterTerm.2) = some ⟨1, 2, 1⟩ := by decide +kernel
  refine ⟨?_, rfl, (RaftMachineStorage.completes_hardState _).mpr ⟨hhs, rfl⟩, ?_⟩
  · exact .cycle (learnCycle oldEntry ⟨2, 2, 1⟩) (booted_run _)
      (learnCycle_contract rfl (by decide) (by decide)) rfl trivial (completes_finish _ _ _)
  · rintro ⟨hs, hhs', hle, -⟩
    obtain ⟨hhs', -⟩ := (RaftMachineStorage.completes_hardState _).mp hhs'
    obtain rfl : (⟨1, 2, 1⟩ : HardState) = hs := Option.some_inj.mp (hhs.symm.trans hhs')
    exact absurd hle (by decide)

end PlacementCenter.Raft
