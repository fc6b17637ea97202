import PlacementCenter.Raft.Acknowledgements

/-!
# Steps of a cluster

The steps of a cluster whose nodes are given certain requests only, and whose raft crate commits a
proposal once. A node is given a channel once, so there is one proposal for it.

## Main definitions

* `ClusterStep router asks`: a start, a turn, a crash or a commit
* `ChannelsOnce cl`: a channel of a node has one proposal

## Main results

* `ClusterStep.run`: the steps are those of the runs of a cluster
* `channelsOnce_of_run`: a channel has one proposal, in every run
* `ClusterStep.commitsOnce`: a proposal is committed once
-/

namespace PlacementCenter.Raft

open Rust Rust.Prost Storage Program

/-- A step of a cluster whose node `i` may be given the requests `asks i`. -/
inductive ClusterStep (router : Router MachineEvent) (asks : ℕ → RaftMessage → Prop)
    (cl : Cluster) : Cluster → Prop where
  | start {g m conf w} (i : ℕ) (hdown : (cl.members i).machine = none)
    (h : Completes (RaftMachine.boot g) (cl.members i).world (m, conf) w) :
    ClusterStep router asks cl (cl.update i
      { cl.members i with
        machine := some m
        columns := w.columns
        events := w.events
        life := (cl.members i).life + 1
        delivered := conf.applied.toNat } [])
  | turn {m t es} (i : ℕ) (hm : (cl.members i).machine = some m)
    (hd : Delivers cl (cl.members i) t es) (ha : ∀ message ∈ t.request, asks i message) :
    ClusterStep router asks cl (cl.update i
      ((cl.members i).turned router.route m t ((cl.members i).position t es))
      (t.taken i (cl.members i).life m.seqnum))
  | crash {m t es pt taken} (i : ℕ) (hm : (cl.members i).machine = some m)
    (hd : Delivers cl (cl.members i) t es) (ha : ∀ message ∈ t.request, asks i message)
    (hpt : pt ∈ (m.turn router.route t (cl.members i).world).2.points)
    (htaken : taken = [] ∨ taken = t.taken i (cl.members i).life m.seqnum) :
    ClusterStep router asks cl (cl.update i
      { cl.members i with
        machine := none
        columns := pt.1
        events := pt.2
        asked := t.request.toList ++ (cl.members i).asked } taken)
  /-- An entry is made of a proposal once: the node hands it over once, and a message between the
  nodes is sent once. -/
  | commit (e : Entry) (o : Option Proposal) (hindex : e.index.toNat = cl.log.length + 1)
    (hmade : ∀ p ∈ o, p ∈ cl.proposals ∧ p.Makes e) (hnew : ∀ p ∈ o, p ∉ cl.log.filterMap Prod.snd)
    (hleader : o = none → e.context.val = [] ∧ e.data.val = []) :
    ClusterStep router asks cl { cl with log := cl.log ++ [(e, o)] }

variable {router : Router MachineEvent} {asks : ℕ → RaftMessage → Prop} {cl cl' : Cluster}

/-- **The steps are those of the runs of a cluster.** -/
theorem ClusterStep.run (hr : ClusterRun router (fun _ _ _ _ _ => True) cl)
    (h : ClusterStep router asks cl cl') : ClusterRun router (fun _ _ _ _ _ => True) cl' := by
  cases h with
  | start i hdown h => exact .start i hr hdown h
  | turn i hm hd ha => exact .turn i hr hm hd trivial
  | crash i hm hd ha hpt htaken => exact .crash i hr hm hd trivial hpt htaken
  | commit e o hindex hmade hnew hleader => exact .commit e o hr hindex hmade hleader

/-! ### Channels -/

/-- A channel of a node has one proposal, which the node was asked for; committed entries are made
of proposals. -/
structure ChannelsOnce (cl : Cluster) : Prop where
  asked : ∀ p ∈ cl.proposals, p.message ∈ (cl.members p.node).asked
  once : ∀ p ∈ cl.proposals, ∀ p' ∈ cl.proposals, p.node = p'.node →
    p.message.chan = p'.message.chan → p = p'
  log : ∀ x ∈ cl.log, ∀ p ∈ x.2, p ∈ cl.proposals ∧ p.Makes x.1

/-- A node is asked for something, or for nothing, and makes some proposal of it. -/
structure Asks (cl : Cluster) (i : ℕ) (request : Option RaftMessage) (mem : Member)
    (taken : List Proposal) : Prop where
  asked : mem.asked = request.toList ++ (cl.members i).asked
  fresh : ∀ message ∈ request, ∀ message' ∈ (cl.members i).asked, message'.chan ≠ message.chan
  made : ∀ p ∈ taken, p.node = i ∧ request = some p.message
  one : ∀ p ∈ taken, ∀ p' ∈ taken, p = p'

section asks

variable {i : ℕ} {t : RaftMachine.Turn} {mem : Member} {taken : List Proposal}
  {request : Option RaftMessage}

/-- A start asks for nothing. -/
theorem asks_nothing (hasked : mem.asked = (cl.members i).asked) : Asks cl i none mem [] :=
  ⟨hasked, by rintro message ⟨⟩, by rintro p ⟨⟩, by rintro p ⟨⟩⟩

/-- What a turn is asked for, whether it makes the proposal or not. -/
theorem asks_turn {life : ℕ} {seq : UInt64}
    (hasked : mem.asked = t.request.toList ++ (cl.members i).asked)
    (hfresh : ∀ message ∈ t.request, ∀ message' ∈ (cl.members i).asked,
      message'.chan ≠ message.chan)
    (htaken : taken = [] ∨ taken = t.taken i life seq) : Asks cl i t.request mem taken := by
  rcases htaken with rfl | rfl
  · exact ⟨hasked, hfresh, by rintro p ⟨⟩, by rintro p ⟨⟩⟩
  · refine ⟨hasked, hfresh, fun p hp => ?_, fun p hp p' hp' => ?_⟩
    · obtain ⟨hi, -, -, hr, -⟩ := RaftMachine.Turn.node_of_mem_taken hp
      exact ⟨hi, hr⟩
    · obtain ⟨hi, hl, hs, hr, -⟩ := RaftMachine.Turn.node_of_mem_taken hp
      obtain ⟨hi', hl', hs', hr', -⟩ := RaftMachine.Turn.node_of_mem_taken hp'
      have hmessage : p.message = p'.message := Option.some.inj (hr.symm.trans hr')
      cases p
      cases p'
      simp_all

theorem ChannelsOnce.ask (h : ChannelsOnce cl) (ha : Asks cl i request mem taken) :
    ChannelsOnce (cl.update i mem taken) := by
  have grows : ∀ j, ∀ message ∈ (cl.members j).asked,
      message ∈ ((cl.update i mem taken).members j).asked := by
    intro j message hm
    by_cases hj : j = i
    · subst hj
      change message ∈ (Function.update cl.members j mem j).asked
      rw [Function.update_self, ha.asked]
      exact List.mem_append_right _ hm
    · change message ∈ (Function.update cl.members i mem j).asked
      rwa [Function.update_of_ne hj]
  -- an earlier proposal has another channel than the request
  have newer : ∀ p ∈ taken, ∀ p' ∈ cl.proposals, p.node = p'.node →
      p.message.chan ≠ p'.message.chan := by
    intro p hp p' hp' hnode hc
    obtain ⟨hi, hr⟩ := ha.made p hp
    have hasked := h.asked p' hp'
    rw [← hnode, hi] at hasked
    exact ha.fresh p.message hr p'.message hasked hc.symm
  -- the proposals of the request join the earlier ones
  refine ⟨?_, ?_, ?_⟩
  · intro p hp
    rcases List.mem_append.mp hp with hp | hp
    · obtain ⟨hi, hr⟩ := ha.made p hp
      change p.message ∈ (Function.update cl.members i mem p.node).asked
      rw [hi, Function.update_self, ha.asked, hr]
      exact List.mem_append_left _ (List.mem_singleton_self _)
    · exact grows _ _ (h.asked p hp)
  · intro p hp p' hp' hnode hc
    rcases List.mem_append.mp hp with hp | hp <;> rcases List.mem_append.mp hp' with hp' | hp'
    · exact ha.one p hp p' hp'
    · exact absurd hc (newer p hp p' hp' hnode)
    · exact absurd hc.symm (newer p' hp' p hp hnode.symm)
    · exact h.once p hp p' hp' hnode hc
  · intro x hx p hp
    obtain ⟨hmem, hmakes⟩ := h.log x hx p hp
    exact ⟨List.mem_append_right _ hmem, hmakes⟩

end asks

/-- **A channel has one proposal**, in every run. -/
theorem channelsOnce_of_run
    {Cond : Member → RaftMachine → ℕ → RaftMachine.Turn → List Committed → Prop}
    (h : ClusterRun router Cond cl) : ChannelsOnce cl := by
  induction h with
  | empty => exact ⟨by rintro p ⟨⟩, by rintro p ⟨⟩, by rintro x ⟨⟩⟩
  | start i hr hdown hboot ih =>
    exact ih.ask (asks_nothing rfl)
  | turn i hr hm hd hC ih =>
    exact ih.ask (asks_turn (asked_turned router.route _ _ _ _) hd.fresh (.inr rfl))
  | crash i hr hm hd hC hpt htaken ih => exact ih.ask (asks_turn rfl hd.fresh htaken)
  | commit e o hr hindex hmade hleader ih =>
    refine ⟨ih.asked, ih.once, fun x hx p hp => ?_⟩
    rcases List.mem_append.mp hx with hx | hx
    · exact ih.log x hx p hp
    · rw [List.mem_singleton.mp hx] at hp ⊢
      exact hmade p hp

/-- **A proposal is committed once.** -/
theorem ClusterStep.commitsOnce (h : ClusterStep router asks cl cl')
    (hc : (cl.log.filterMap Prod.snd).Nodup) : (cl'.log.filterMap Prod.snd).Nodup := by
  cases h with
  | start => exact hc
  | turn => exact hc
  | crash => exact hc
  | commit e o hindex hmade hnew hleader =>
    cases o with
    | none => simpa using hc
    | some p =>
      have hp := hnew p rfl
      simp only [List.filterMap_append, List.filterMap_cons, List.filterMap_nil]
      refine List.nodup_append.mpr ⟨hc, List.pairwise_singleton _ p, fun q hq q' hq' => ?_⟩
      rw [List.mem_singleton.mp hq']
      rintro rfl
      exact hp hq

end PlacementCenter.Raft
