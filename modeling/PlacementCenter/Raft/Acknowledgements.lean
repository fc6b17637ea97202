import PlacementCenter.Raft.Answers

/-!
# Acknowledgements across a cluster

The nodes of a cluster, the proposals they made and the committed sequence that the raft crate
delivers to every node. A node numbers its proposals from `1` each time it starts, puts only the
number into the entry, and looks the number of every committed entry up in its own table.

## Main definitions

* `Proposal`, `Proposal.Makes`: a proposal that a node took, and the entry that is made of it
* `Member`, `Cluster`: a node with its history, and the cluster with its committed sequence
* `ClusterRun Cond`: starts, turns, crashes and commits, in any order
* `Acknowledges`: every acknowledgement of a proposal belongs to it
* `OwnEntries`: the condition on the entries that a turn delivers

## Main results

* `NumbersOnce.take`: a node gives a number once in a life
* `Sound.acknowledge`: the number of an entry finds the channel of the proposal it was made of
* `acknowledges_of_run`: **an acknowledgement belongs to its proposal**, in every run in which
  entries only find the channels of proposals of the same node and life
-/

namespace PlacementCenter.Raft

open Rust Rust.Prost Storage Program

/-! ### Proposals -/

/-- The type and the data of the entry that a request proposes. -/
def RaftMessage.payload : RaftMessage → Option (Int32 × Bytes)
  | propose data _ => some (0, data)
  | confChange change _ => some (1, encodeToVec change)
  | _ => none

/-- A proposal that a node took: the node, which of its lives it was, the number and the request. -/
structure Proposal where
  node : ℕ
  life : ℕ
  seq : UInt64
  message : RaftMessage

/-- The entry is made of the proposal: its context is the number alone. -/
def Proposal.Makes (p : Proposal) (e : Entry) : Prop :=
  e.context.val = Bincode.serialize p.seq ∧ p.message.payload = some (e.entryType, e.data.val)

theorem Proposal.length_context (p : Proposal) : (Bincode.serialize p.seq).length < 2 ^ 64 := by
  change (u64LE p.seq).length < 2 ^ 64
  rw [length_u64LE]
  decide

/-- A committed entry, with the proposal it was made of. The entry of a new leader has none. -/
abbrev Committed := Entry × Option Proposal

namespace RaftMachine

/-- The request of a turn. -/
def Turn.request (t : Turn) : Option RaftMessage :=
  if t.stop then none
  else match t.received with
    | .message message => some message
    | _ => none

/-- The proposal that the node takes in a turn. -/
def Turn.taken (t : Turn) (node life : ℕ) (seq : UInt64) : List Proposal :=
  match t.request with
  | some message =>
    if message.payload.isSome ∧ t.accepted then [⟨node, life, seq, message⟩] else []
  | none => []

/-- The number that the next proposal has after a turn. -/
def Turn.nextSeq (t : Turn) (seq : UInt64) : UInt64 :=
  match t.request with
  | some message => if message.payload.isSome then seq + 1 else seq
  | none => seq

/-- The table of a machine after the request of a turn. -/
def tableAfter (m : RaftMachine) (t : Turn) : HashMap UInt64 ChanId :=
  match t.request with
  | some message =>
    if message.payload.isSome ∧ t.accepted then m.respChannel.insert m.seqnum message.chan
    else m.respChannel
  | none => m.respChannel

end RaftMachine

/-! ### Clusters -/

/-- A node: its machine, while it runs, the contents of its database, what it has shown to the
outside, how often it started, how many committed entries were delivered to it, and the requests it
was given, newest first. -/
structure Member where
  machine : Option RaftMachine
  columns : Columns
  events : List MachineEvent
  life : ℕ
  delivered : ℕ
  asked : List RaftMessage

/-- A node that was never started. -/
def Member.fresh : Member := ⟨none, fun _ => ∅, [], 0, 0, []⟩

/-- The world of a node. -/
def Member.world (mem : Member) : World MachineEvent := World.reopen mem.columns mem.events

/-- The nodes by their numbers, the proposals they took and the committed sequence. -/
structure Cluster where
  members : ℕ → Member
  proposals : List Proposal
  log : List Committed

namespace Cluster

/-- The cluster before any node was started. -/
def empty : Cluster := ⟨fun _ => .fresh, [], []⟩

/-- The cluster after one node changed, and took some proposals. -/
def update (cl : Cluster) (i : ℕ) (mem : Member) (taken : List Proposal) : Cluster :=
  { cl with members := Function.update cl.members i mem, proposals := taken ++ cl.proposals }

end Cluster

/-- The node after a turn; it is down when the task stopped or panicked. -/
def Member.turned (route : Route (World MachineEvent)) (mem : Member) (m : RaftMachine)
    (t : RaftMachine.Turn) (delivered : ℕ) : Member :=
  let asked := t.request.toList ++ mem.asked
  match m.turn route t mem.world with
  | (.ok (some m'), w) => ⟨some m', w.columns, w.events, mem.life, delivered, asked⟩
  | (.ok none, w) => ⟨none, w.columns, w.events, mem.life, delivered, asked⟩
  | (.panicked _, w) => ⟨none, w.columns, w.events, mem.life, delivered, asked⟩

/-- The position from which a turn delivers entries: a snapshot stands for those before it. -/
def Member.base (mem : Member) (c : Cycle) : ℕ :=
  if c.ready.snapshot = .default then mem.delivered
  else c.ready.snapshot.getMetadata.index.toNat

/-- What the raft crate promises about a turn: it delivers the next committed entries. The channel
of a request was in no other one. -/
structure Delivers (cl : Cluster) (mem : Member) (t : RaftMachine.Turn) (es : List Committed) :
    Prop where
  fresh : ∀ message ∈ t.request, ∀ message' ∈ mem.asked, message'.chan ≠ message.chan
  entries : ∀ c ∈ t.cycle, es.map Prod.fst = c.delivered ∧ es <+: cl.log.drop (mem.base c)
  idle : t.cycle = none → es = []

/-- The position after a turn. -/
def Member.position (mem : Member) (t : RaftMachine.Turn) (es : List Committed) : ℕ :=
  (t.cycle.map mem.base).getD mem.delivered + es.length

/-- The runs of a cluster whose turns meet a condition. -/
inductive ClusterRun (router : Router MachineEvent)
    (Cond : Member → RaftMachine → ℕ → RaftMachine.Turn → List Committed → Prop) :
    Cluster → Prop where
  | empty : ClusterRun router Cond .empty
  /-- A node that is down comes up on its contents, with an empty table. -/
  | start {cl g m conf w} (i : ℕ) (hr : ClusterRun router Cond cl)
    (hdown : (cl.members i).machine = none)
    (h : Completes (RaftMachine.boot g) (cl.members i).world (m, conf) w) :
    ClusterRun router Cond (cl.update i
      { cl.members i with
        machine := some m
        columns := w.columns
        events := w.events
        life := (cl.members i).life + 1
        delivered := conf.applied.toNat } [])
  | turn {cl m t es} (i : ℕ) (hr : ClusterRun router Cond cl)
    (hm : (cl.members i).machine = some m) (hd : Delivers cl (cl.members i) t es)
    (hC : Cond (cl.members i) m i t es) :
    ClusterRun router Cond (cl.update i
      ((cl.members i).turned router.route m t ((cl.members i).position t es))
      (t.taken i (cl.members i).life m.seqnum))
  /-- A node stops at any point of a turn, before it made the proposal of the turn or after. -/
  | crash {cl m t es pt taken} (i : ℕ) (hr : ClusterRun router Cond cl)
    (hm : (cl.members i).machine = some m) (hd : Delivers cl (cl.members i) t es)
    (hC : Cond (cl.members i) m i t es)
    (hpt : pt ∈ (m.turn router.route t (cl.members i).world).2.points)
    (htaken : taken = [] ∨ taken = t.taken i (cl.members i).life m.seqnum) :
    ClusterRun router Cond (cl.update i
      { cl.members i with
        machine := none
        columns := pt.1
        events := pt.2
        asked := t.request.toList ++ (cl.members i).asked } taken)
  /-- An entry is committed: one that was made of a proposal, or that of a new leader. What was
  discarded is never committed. -/
  | commit {cl} (e : Entry) (o : Option Proposal) (hr : ClusterRun router Cond cl)
    (hindex : e.index.toNat = cl.log.length + 1) (hmade : ∀ p ∈ o, p ∈ cl.proposals ∧ p.Makes e)
    (hleader : o = none → e.context.val = [] ∧ e.data.val = []) :
    ClusterRun router Cond { cl with log := cl.log ++ [(e, o)] }

/-- **Every acknowledgement of a proposal belongs to it**: the entry whose commit sent it has the
data of the proposal, and its route returned `Ok` before. -/
def Acknowledges (asked : List RaftMessage) (es : List MachineEvent) : Prop :=
  ∀ c e past, (MachineEvent.responded c (some e) :: past) <:+ es →
    ∀ data, .propose data c ∈ asked → e.data.val = data ∧ .applied e ∈ past

/-- The number of an entry finds the channel of a client's proposal, once the request of the turn
was taken. -/
def FindsProposal (mem : Member) (m : RaftMachine) (t : RaftMachine.Turn) (e : Entry) : Prop :=
  ∃ (seq : UInt64) (c : ChanId) (data : Bytes), Bincode.deserialize e.context.val = some seq ∧
    (m.tableAfter t)[seq]? = some c ∧ .propose data c ∈ t.request.toList ++ mem.asked

/-- The condition on a turn: a delivered entry whose number finds the channel of a client's proposal
was proposed by this node in this life, has data, and is not refused by the route; and the numbers
do not run out. -/
structure OwnEntries (router : Router MachineEvent) (mem : Member) (m : RaftMachine) (i : ℕ)
    (t : RaftMachine.Turn) (es : List Committed) : Prop where
  own : ∀ x ∈ es, FindsProposal mem m t x.1 → ∃ p ∈ x.2, p.node = i ∧ p.life = mem.life
  data : ∀ x ∈ es, FindsProposal mem m t x.1 → x.1.data.val ≠ []
  routed : ∀ x ∈ es, FindsProposal mem m t x.1 →
    ∀ now w err, (router.route now x.1.data.val w).1 ≠ .ok (.error err)
  numbers : m.seqnum.toNat + 1 < 2 ^ 64

/-! ### Answers to proposals -/

/-- What a node has shown, with the requests it was given: its answers are on their channels, and
every acknowledgement of a proposal belongs to it. -/
structure Answered (asked : List RaftMessage) (es : List MachineEvent) : Prop where
  known : ∀ c e, .responded c e ∈ es → ∃ message ∈ asked, message.chan = c
  acknowledges : Acknowledges asked es

variable {asked : List RaftMessage} {es : List MachineEvent}

theorem Answered.cons (h : Answered asked es) {ev : MachineEvent} (hev : ev.NotAnswer) :
    Answered asked (ev :: es) where
  known c e hmem := by
    rcases List.mem_cons.mp hmem with rfl | hmem
    · exact absurd rfl (hev c e)
    · exact h.known c e hmem
  acknowledges c e past hsuffix := by
    rcases List.suffix_cons_iff.mp hsuffix with heq | hsuffix
    · cases heq
      exact absurd rfl (hev c (some e))
    · exact h.acknowledges c e past hsuffix

/-- An answer to a request, on the commit of an entry or at once. -/
theorem Answered.cons_answer (h : Answered asked es) {message : RaftMessage}
    (hm : message ∈ asked) {o : Option Entry} (hack : ∀ e ∈ o, ∀ data,
      .propose data message.chan ∈ asked → e.data.val = data ∧ .applied e ∈ es) :
    Answered asked (.responded message.chan o :: es) where
  known c e hmem := by
    rcases List.mem_cons.mp hmem with heq | hmem
    · cases heq
      exact ⟨message, hm, rfl⟩
    · exact h.known c e hmem
  acknowledges c e past hsuffix := by
    rcases List.suffix_cons_iff.mp hsuffix with heq | hsuffix
    · cases heq
      exact hack e rfl
    · exact h.acknowledges c e past hsuffix

/-- A further request on a channel that was not answered. -/
theorem Answered.ask (h : Answered asked es) {new : List RaftMessage}
    (hfresh : ∀ message ∈ new, ∀ message' ∈ asked, message'.chan ≠ message.chan) :
    Answered (new ++ asked) es where
  known c e hmem := by
    obtain ⟨message, hm, hc⟩ := h.known c e hmem
    exact ⟨message, List.mem_append_right _ hm, hc⟩
  acknowledges c e past hsuffix data hd := by
    rcases List.mem_append.mp hd with hd | hd
    · -- the channel was answered, so it is not new
      obtain ⟨message, hm, hc⟩ := h.known c (some e) (hsuffix.mem List.mem_cons_self)
      exact absurd hc (hfresh _ hd message hm)
    · exact h.acknowledges c e past hsuffix data hd

/-! ### The invariant -/

/-- The table of a machine holds proposals of its node and life, and all of these are numbered below
the next one. -/
structure Numbered (ps : List Proposal) (i life : ℕ) (m : RaftMachine) : Prop where
  registered : ∀ (seq : UInt64) (c : ChanId), m.respChannel[seq]? = some c →
    ∃ p ∈ ps, p.node = i ∧ p.life = life ∧ p.seq = seq ∧ p.message.chan = c
  seq_lt : ∀ p ∈ ps, p.node = i → p.life = life → p.seq < m.seqnum

theorem Numbered.later {ps : List Proposal} {i life : ℕ} {core later : RaftMachine}
    (h : Numbered ps i life core) (hk : RaftMachine.KeepsTable core later) :
    Numbered ps i life later where
  registered seq c hs := h.registered seq c (hk.lookup seq c hs)
  seq_lt := by
    rw [hk.seqnum]
    exact h.seq_lt

/-- What holds of the node `i`, when these are the proposals. -/
structure Sound (ps : List Proposal) (i : ℕ) (mem : Member) : Prop where
  machine : ∀ m ∈ mem.machine, Numbered ps i mem.life m
  life_le : ∀ p ∈ ps, p.node = i → p.life ≤ mem.life
  asked : ∀ p ∈ ps, p.node = i → p.message ∈ mem.asked
  chans : mem.asked.Pairwise fun a b => b.chan ≠ a.chan
  answered : Answered mem.asked mem.events

/-- Two proposals of a node in one life have different numbers. -/
def NumbersOnce (ps : List Proposal) : Prop :=
  ∀ p ∈ ps, ∀ p' ∈ ps, p.node = p'.node → p.life = p'.life → p.seq = p'.seq → p = p'

/-- What holds of a cluster. -/
structure Consistent (cl : Cluster) : Prop where
  members : ∀ i, Sound cl.proposals i (cl.members i)
  once : NumbersOnce cl.proposals
  log : ∀ x ∈ cl.log, ∀ p ∈ x.2, p ∈ cl.proposals ∧ p.Makes x.1

section invariant

variable {router : Router MachineEvent} {cl : Cluster} {i : ℕ} {mem : Member} {m : RaftMachine}
  {t : RaftMachine.Turn} {ps taken : List Proposal}

/-- The proposals of another node say nothing about this one. -/
theorem Sound.take (h : Sound ps i mem) (ht : ∀ p ∈ taken, p.node ≠ i) :
    Sound (taken ++ ps) i mem := by
  have old : ∀ p ∈ taken ++ ps, p.node = i → p ∈ ps := by
    intro p hp hi
    rcases List.mem_append.mp hp with hp | hp
    · exact absurd hi (ht p hp)
    · exact hp
  refine ⟨?_, ?_, ?_, h.chans, h.answered⟩
  · intro m hm
    refine ⟨?_, fun p hp hi hl => (h.machine m hm).seq_lt p (old p hp hi) hi hl⟩
    intro seq c hs
    obtain ⟨p, hp, hrest⟩ := (h.machine m hm).registered seq c hs
    exact ⟨p, List.mem_append_right _ hp, hrest⟩
  · exact fun p hp hi => h.life_le p (old p hp hi) hi
  · exact fun p hp hi => h.asked p (old p hp hi) hi

/-- One node changes, and takes some proposals. -/
theorem Consistent.update (h : Consistent cl) (hmem : Sound (taken ++ cl.proposals) i mem)
    (htaken : ∀ p ∈ taken, p.node = i) (honce : NumbersOnce (taken ++ cl.proposals)) :
    Consistent (cl.update i mem taken) where
  members j := by
    by_cases hj : j = i
    · subst hj
      change Sound (taken ++ cl.proposals) j (Function.update cl.members j mem j)
      rw [Function.update_self]
      exact hmem
    · change Sound (taken ++ cl.proposals) j (Function.update cl.members i mem j)
      rw [Function.update_of_ne hj]
      exact (h.members j).take fun p hp hpj => hj (hpj.symm.trans (htaken p hp))
  once := honce
  log x hx p hp := by
    obtain ⟨hmem, hmakes⟩ := h.log x hx p hp
    exact ⟨List.mem_append_right _ hmem, hmakes⟩

/-! ### The request of a turn -/

namespace RaftMachine

/-- A machine after the request of a turn. -/
def requested (m : RaftMachine) (t : Turn) : RaftMachine :=
  { m with seqnum := t.nextSeq m.seqnum, respChannel := m.tableAfter t }

theorem Turn.node_of_mem_taken {life : ℕ} {seq : UInt64} {p : Proposal}
    (hp : p ∈ t.taken i life seq) :
    p.node = i ∧ p.life = life ∧ p.seq = seq ∧ t.request = some p.message ∧
      p.message.payload.isSome := by
  unfold Turn.taken at hp
  cases hr : t.request with
  | none =>
    rw [hr] at hp
    cases hp
  | some message =>
    rw [hr] at hp
    dsimp only at hp
    split_ifs at hp with hm
    · rw [List.mem_singleton.mp hp]
      exact ⟨rfl, rfl, rfl, rfl, hm.1⟩
    · cases hp

theorem Turn.le_nextSeq {seq : UInt64} (h : seq.toNat + 1 < 2 ^ 64) :
    seq.toNat ≤ (t.nextSeq seq).toNat := by
  unfold Turn.nextSeq
  split
  · split_ifs
    · rw [UInt64.toNat_add]
      change seq.toNat ≤ (seq.toNat + 1) % 2 ^ 64
      rw [Nat.mod_eq_of_lt h]
      exact Nat.le_succ _
    · exact Nat.le_refl _
  · exact Nat.le_refl _

theorem Turn.lt_nextSeq {life : ℕ} {seq : UInt64} (h : seq.toNat + 1 < 2 ^ 64) {p : Proposal}
    (hp : p ∈ t.taken i life seq) : seq.toNat < (t.nextSeq seq).toNat := by
  obtain ⟨-, -, -, hr, hpayload⟩ := Turn.node_of_mem_taken hp
  rw [Turn.nextSeq, hr]
  dsimp only
  rw [if_pos hpayload, UInt64.toNat_add]
  change seq.toNat < (seq.toNat + 1) % 2 ^ 64
  rw [Nat.mod_eq_of_lt h]
  exact Nat.lt_succ_self _

/-- A channel in the table was there before, or is that of the proposal of the turn. -/
theorem lookup_tableAfter (life : ℕ) {seq : UInt64} {c : ChanId}
    (hs : (m.tableAfter t)[seq]? = some c) :
    m.respChannel[seq]? = some c ∨
      ∃ p ∈ t.taken i life m.seqnum, p.seq = seq ∧ p.message.chan = c := by
  unfold tableAfter at hs
  unfold Turn.taken
  cases hr : t.request with
  | none =>
    rw [hr] at hs
    exact .inl hs
  | some message =>
    rw [hr] at hs
    dsimp only at hs ⊢
    -- only a proposal that is made registers its channel
    split_ifs at hs with hm
    · rw [OrdMap.lookup_insert] at hs
      split_ifs at hs with hseq
      · rw [if_pos hm]
        cases hs
        exact .inr ⟨_, List.mem_singleton_self _, hseq, rfl⟩
      · exact .inl hs
    · exact .inl hs

end RaftMachine

/-- A node once its machine worked off the request of a turn. -/
def Member.requested (mem : Member) (m : RaftMachine) (t : RaftMachine.Turn) : Member :=
  { mem with
    machine := some (m.requested t)
    asked := t.request.toList ++ mem.asked }

/-- A new number is above those given before. -/
theorem NumbersOnce.take (h : NumbersOnce ps) (hs : Sound ps i mem) (hm : mem.machine = some m) :
    NumbersOnce (t.taken i mem.life m.seqnum ++ ps) := by
  -- a proposal of this turn and an earlier one of this life
  have newer : ∀ p ∈ t.taken i mem.life m.seqnum, ∀ p' ∈ ps, p.node = p'.node →
      p.life = p'.life → p.seq ≠ p'.seq := by
    intro p hp p' hp' hnode hlife hseq
    obtain ⟨hi, hl, hq, -⟩ := RaftMachine.Turn.node_of_mem_taken hp
    have hlt := (hs.machine m hm).seq_lt p' hp' (hnode.symm.trans hi) (hlife.symm.trans hl)
    rw [← hseq, hq] at hlt
    exact absurd hlt (UInt64.lt_irrefl _)
  intro p hp p' hp' hnode hlife hseq
  rcases List.mem_append.mp hp with hp | hp <;> rcases List.mem_append.mp hp' with hp' | hp'
  · obtain ⟨-, -, -, hr, -⟩ := RaftMachine.Turn.node_of_mem_taken hp
    obtain ⟨-, -, -, hr', -⟩ := RaftMachine.Turn.node_of_mem_taken hp'
    have hmessage : p.message = p'.message := Option.some.inj (hr.symm.trans hr')
    cases p
    cases p'
    simp_all
  · exact absurd hseq (newer p hp p' hp' hnode hlife)
  · exact absurd hseq.symm (newer p' hp' p hp hnode.symm hlife.symm)
  · exact h p hp p' hp' hnode hlife hseq

/-- The request of a turn keeps what holds of its node. -/
theorem Sound.requested (h : Sound ps i mem) (hm : mem.machine = some m)
    (hfresh : ∀ message ∈ t.request, ∀ message' ∈ mem.asked, message'.chan ≠ message.chan)
    (hnum : m.seqnum.toNat + 1 < 2 ^ 64) :
    Sound (t.taken i mem.life m.seqnum ++ ps) i (mem.requested m t) where
  machine := by
    rintro _ ⟨⟩
    refine ⟨?_, ?_⟩
    · intro seq c hs
      -- a channel of the table is an old one, or that of the request
      rcases RaftMachine.lookup_tableAfter mem.life hs with hs | ⟨p, hp, hseq, hc⟩
      · obtain ⟨p, hp, hrest⟩ := (h.machine m hm).registered seq c hs
        exact ⟨p, List.mem_append_right _ hp, hrest⟩
      · obtain ⟨hi, hl, -⟩ := RaftMachine.Turn.node_of_mem_taken hp
        exact ⟨p, List.mem_append_left _ hp, hi, hl, hseq, hc⟩
    · intro p hp hi hl
      -- the counter is past the number that was taken, and does not wrap
      rw [UInt64.lt_iff_toNat_lt]
      rcases List.mem_append.mp hp with hp | hp
      · obtain ⟨-, -, hseq, -⟩ := RaftMachine.Turn.node_of_mem_taken hp
        rw [hseq]
        exact RaftMachine.Turn.lt_nextSeq hnum hp
      · have hlt := UInt64.lt_iff_toNat_lt.mp ((h.machine m hm).seq_lt p hp hi hl)
        exact Nat.lt_of_lt_of_le hlt (RaftMachine.Turn.le_nextSeq hnum)
  life_le p hp hi := by
    rcases List.mem_append.mp hp with hp | hp
    · exact Nat.le_of_eq (RaftMachine.Turn.node_of_mem_taken hp).2.1
    · exact h.life_le p hp hi
  asked p hp hi := by
    rcases List.mem_append.mp hp with hp | hp
    · obtain ⟨-, -, -, hr, -⟩ := RaftMachine.Turn.node_of_mem_taken hp
      exact List.mem_append_left _ (Option.mem_toList.mpr hr)
    · exact List.mem_append_right _ (h.asked p hp hi)
  chans := by
    change (t.request.toList ++ mem.asked).Pairwise _
    rw [List.pairwise_append]
    refine ⟨?_, h.chans, ?_⟩
    · cases t.request <;> simp
    · exact fun message hmem message' hmem' => hfresh message (Option.mem_toList.mp hmem) message' hmem'
  answered := h.answered.ask fun message hmem => hfresh message (Option.mem_toList.mp hmem)

/-! ### The entries of a turn -/

/-- What holds of the events at every crash point. -/
def AtPoints (Q : List MachineEvent → Prop) (w : World MachineEvent) : Prop :=
  ∀ pt ∈ w.points, Q pt.2

theorem keptByWrites_atPoints (Q : List MachineEvent → Prop) :
    RaftMachine.KeptByWrites (AtPoints Q) where
  put w k v hw pt hpt := by
    rcases List.mem_cons.mp hpt with rfl | hpt
    · exact hw (w.columns, w.events) (World.mem_points_self w)
    · exact hw pt hpt
  delete w k hw pt hpt := by
    rcases List.mem_cons.mp hpt with rfl | hpt
    · exact hw (w.columns, w.events) (World.mem_points_self w)
    · exact hw pt hpt

theorem AtPoints.emit {Q : List MachineEvent → Prop} {w : World MachineEvent} (hw : AtPoints Q w)
    {ev : MachineEvent} (hev : Q w.events → Q (ev :: w.events)) : AtPoints Q (w.emit ev) := by
  intro pt hpt
  rcases List.mem_cons.mp hpt with rfl | hpt
  · exact hev (hw _ (World.mem_points_self w))
  · exact hw pt hpt

/-- A normal entry with data that the route does not refuse was applied, once it is worked off. -/
theorem RaftMachine.applied_of_completes {self self' : RaftMachine} {answers : Answers} {e : Entry}
    {w w' : World MachineEvent} (hdata : e.data.val ≠ []) (htype : e.entryType = 0)
    (hroute : ∀ now w err, (router.route now e.data.val w).1 ≠ .ok (.error err))
    (h : Completes (self.applyEntry router.route answers e) w self' w') :
    .applied e ∈ w'.events := by
  have hnormal : EntryType.fromI32 e.entryType = some .entryNormal := by
    rw [htype]
    rfl
  unfold applyEntry at h
  rw [if_neg hdata, hnormal] at h
  obtain ⟨_, w₁, hr, h⟩ := completes_bind.mp h
  obtain ⟨-, rfl⟩ := completes_pure.mp h
  unfold routeEntry at hr
  obtain ⟨_, w₂, -, hr⟩ := completes_bind.mp hr
  obtain ⟨r, w₃, hrun, hr⟩ := completes_bind.mp hr
  -- a route that fails only logs: the hypothesis excludes it
  cases r with
  | ok _ =>
    obtain ⟨-, rfl⟩ := (completes_of_run (World.emit_run _ _)).mp hr
    exact List.mem_cons_self
  | error err => exact absurd (congrArg Prod.fst hrun) (hroute _ _ err)

/-- Requests with one channel are one request. -/
theorem eq_of_chan {asked : List RaftMessage} (h : asked.Pairwise fun a b => b.chan ≠ a.chan)
    {a b : RaftMessage} (ha : a ∈ asked) (hb : b ∈ asked) (hc : a.chan = b.chan) : a = b := by
  have inj : ∀ ⦃x⦄, x ∈ asked → ∀ ⦃y⦄, y ∈ asked → x.chan = y.chan → x = y := by
    refine List.Pairwise.forall_of_forall_of_flip (fun _ _ _ => rfl) (h.imp ?_) (h.imp ?_)
    · exact fun hne heq => absurd heq.symm hne
    · exact fun hne heq => absurd heq hne
  exact inj ha hb hc

/-- **An entry is acknowledged to its own proposal**: the number in its context finds the channel of
the proposal it was made of, since a number is given once in a life. -/
theorem Sound.acknowledge (h : Sound ps i mem) (honce : NumbersOnce ps)
    (hm : mem.machine = some m) {x : Committed} (hx : ∀ p ∈ x.2, p ∈ ps ∧ p.Makes x.1)
    {seq : UInt64} {c : ChanId} (hseq : Bincode.deserialize x.1.context.val = some seq)
    (hc : m.respChannel[seq]? = some c) {data : Bytes} (hd : .propose data c ∈ mem.asked)
    (hown : ∃ p ∈ x.2, p.node = i ∧ p.life = mem.life) :
    x.1.data.val = data ∧ x.1.entryType = 0 := by
  obtain ⟨p, hp, hpi, hpl, hpseq, hpc⟩ := (h.machine m hm).registered seq c hc
  obtain ⟨p', hp', hpi', hpl'⟩ := hown
  obtain ⟨hmem, hcontext, hpayload⟩ := hx p' hp'
  -- the context holds the number of the proposal of the entry
  have hseq' : p'.seq = seq := by
    rw [hcontext, Bincode.deserialize_serialize p'.length_context] at hseq
    exact Option.some.inj hseq
  obtain rfl : p = p' :=
    honce p hp p' hmem (hpi.trans hpi'.symm) (hpl.trans hpl'.symm) (hpseq.trans hseq'.symm)
  -- and the channel that it finds belongs to one request only
  have hmessage : p.message = .propose data c :=
    eq_of_chan h.chans (h.asked p hp hpi) hd hpc
  have hfields : some ((0 : Int32), data) = some (x.1.entryType, x.1.data.val) := by
    rw [← hpayload, hmessage]
    rfl
  obtain ⟨htype, hdata⟩ := Prod.mk.inj (Option.some.inj hfields)
  exact ⟨hdata.symm, htype.symm⟩

/-- What the condition of a turn says about one of its entries. -/
structure OwnEntry (router : Router MachineEvent) (mem : Member) (m : RaftMachine) (i : ℕ)
    (x : Committed) : Prop where
  own : ∃ p ∈ x.2, p.node = i ∧ p.life = mem.life
  data : x.1.data.val ≠ []
  routed : ∀ now w err, (router.route now x.1.data.val w).1 ≠ .ok (.error err)

/-- **An entry that is worked off** keeps the answers to proposals. -/
theorem Sound.meets_handleEntry (h : Sound ps i mem) (honce : NumbersOnce ps)
    (hm : mem.machine = some m) {x : Committed} (hx : ∀ p ∈ x.2, p ∈ ps ∧ p.Makes x.1)
    (hown : ∀ (seq : UInt64) (c : ChanId) (data : Bytes),
      Bincode.deserialize x.1.context.val = some seq → m.respChannel[seq]? = some c →
        .propose data c ∈ mem.asked → OwnEntry router mem m i x)
    {core : RaftMachine} (hcore : RaftMachine.KeepsTable m core) {w : World MachineEvent}
    (hw : AtPoints (Answered mem.asked) w) (answers : Answers) :
    Meets (core.handleEntry router.route answers x.1) w
      (fun core' w' => RaftMachine.KeepsTable core core' ∧ AtPoints (Answered mem.asked) w')
      (AtPoints (Answered mem.asked)) := by
  have hW := keptByWrites_atPoints (Answered mem.asked)
  unfold RaftMachine.handleEntry
  rw [meets_bind]
  refine (RaftMachine.meets_applyEntry (A := MachineEvent.NotAnswer) hW
    (fun w ev hev hw => hw.emit fun h => h.cons hev) router answers (by rintro c e ⟨⟩)
      (by rintro c e ⟨⟩) hw).completed.mono ?_ fun _ ht => ht
  rintro core₁ w₁ ⟨hrun, hk₁, hw₁⟩
  -- what the application leaves for the answer
  let applied (w : World MachineEvent) : Prop := x.1.data.val ≠ [] → x.1.entryType = 0 →
    (∀ now w err, (router.route now x.1.data.val w).1 ≠ .ok (.error err)) → .applied x.1 ∈ w.events
  have happlied : applied w₁ := fun hdata htype hroute =>
    RaftMachine.applied_of_completes hdata htype hroute hrun
  have emit : ∀ w ev, (∃ (seq : UInt64) (c : ChanId), ev = .responded c (some x.1) ∧
      Bincode.deserialize x.1.context.val = some seq ∧ m.respChannel[seq]? = some c) →
        AtPoints (Answered mem.asked) w ∧ applied w →
          AtPoints (Answered mem.asked) (w.emit ev) ∧ applied (w.emit ev) := by
    rintro w _ ⟨seq, c, rfl, hseq, hc⟩ ⟨hw, happ⟩
    refine ⟨hw.emit fun ha => ?_, fun hdata htype hroute => List.mem_cons_of_mem _
      (happ hdata htype hroute)⟩
    obtain ⟨p, hp, hpi, -, -, rfl⟩ := (h.machine m hm).registered seq c hc
    refine ha.cons_answer (h.asked p hp hpi) fun e' he data hd => ?_
    obtain rfl := Option.some_inj.mp he
    have hentry := hown seq _ data hseq hc hd
    obtain ⟨hdata, htype⟩ := h.acknowledge honce hm hx hseq hc hd hentry.own
    exact ⟨hdata, happ hentry.data htype hentry.routed⟩
  have hwrites : RaftMachine.KeptByWrites fun w => AtPoints (Answered mem.asked) w ∧ applied w :=
    ⟨fun w k v hw => ⟨hW.put w k v hw.1, hw.2⟩, fun w k hw => ⟨hW.delete w k hw.1, hw.2⟩⟩
  refine (RaftMachine.meets_commitEntry hwrites emit (fun seq c hseq hc => ?_)
    ⟨hw₁, happlied⟩).mono (fun core₂ w₂ h₂ => ⟨hk₁.trans h₂.1, h₂.2.1⟩) fun _ ht => ht.1
  exact ⟨seq, c, rfl, hseq, hcore.lookup seq c (hk₁.lookup seq c hc)⟩

theorem requested_of_proposal {message : RaftMessage} (hr : t.request = some message)
    (hp : message.payload.isSome) :
    m.requested t = { m with
      seqnum := m.seqnum + 1
      respChannel := if t.accepted then m.respChannel.insert m.seqnum message.chan
        else m.respChannel } := by
  rw [RaftMachine.requested, RaftMachine.Turn.nextSeq, RaftMachine.tableAfter, hr]
  dsimp only
  rw [if_pos hp]
  cases t.accepted <;> simp [hp]

theorem requested_of_other (hr : ∀ message ∈ t.request, message.payload = none) :
    m.requested t = m := by
  rw [RaftMachine.requested, RaftMachine.Turn.nextSeq, RaftMachine.tableAfter]
  cases hq : t.request with
  | none => rfl
  | some message => simp [hr message hq]

/-- The request of a turn leaves the machine that was foreseen. -/
theorem meets_request {message : RaftMessage} (hr : t.request = some message)
    (hmem : message ∈ asked) {w : World MachineEvent} (hw : AtPoints (Answered asked) w) :
    Meets (m.handleMessage t.accepted message) w
      (fun core w' => RaftMachine.KeepsTable (m.requested t) core ∧ AtPoints (Answered asked) w')
      (AtPoints (Answered asked)) := by
  have called : ∀ call, AtPoints (Answered asked) (w.emit (.called call)) := fun call =>
    hw.emit fun h => h.cons (by rintro c e ⟨⟩)
  have proposed : ∀ call : Bytes → RaftCall, message.payload.isSome →
      Meets (m.propose call t.accepted message.chan) w (fun core w' =>
        RaftMachine.KeepsTable (m.requested t) core ∧ AtPoints (Answered asked) w')
          (AtPoints (Answered asked)) := by
    intro call hp
    refine meets_of_eq_ok (RaftMachine.propose_run call t.accepted message.chan) ⟨?_, called _⟩
    rw [requested_of_proposal hr hp]
    exact .refl _
  have answered : ∀ call, AtPoints (Answered asked)
      ((w.emit (.called call)).emit (.responded message.chan none)) := fun call =>
    (called call).emit fun h => h.cons_answer hmem fun e he => by cases he
  have other : message.payload = none → RaftMachine.KeepsTable (m.requested t) m := by
    intro hp
    rw [requested_of_other fun message' hm => by rw [← Option.some.inj (hr.symm.trans hm), hp]]
    exact .refl _
  -- a proposal registers its channel; the rest is answered with no entry or dropped
  cases message with
  | propose data chan => exact proposed (fun context => .propose context data) rfl
  | confChange change chan =>
    exact proposed (fun context => .proposeConfChange context change) rfl
  | raft message chan =>
    unfold RaftMachine.handleMessage
    cases t.accepted with
    | true => exact ⟨other rfl, answered _⟩
    | false => exact ⟨other rfl, called _⟩
  | transferLeader nodeId chan => exact ⟨other rfl, answered _⟩

/-- **A turn** keeps the answers to proposals at every point, and leaves the machine's table. -/
theorem Consistent.meets_turn (h : Consistent cl) (hm : (cl.members i).machine = some m)
    {es : List Committed} (hd : Delivers cl (cl.members i) t es)
    (hC : OwnEntries router (cl.members i) m i t es) :
    Meets (m.turn router.route t) (cl.members i).world
      (fun o w => (∀ m' ∈ o, RaftMachine.KeepsTable (m.requested t) m') ∧
        AtPoints (Answered (t.request.toList ++ (cl.members i).asked)) w)
      (AtPoints (Answered (t.request.toList ++ (cl.members i).asked))) := by
  have hs := (h.members i).requested hm hd.fresh hC.numbers
  have honce := h.once.take (t := t) (h.members i) hm
  have hw : AtPoints (Answered (t.request.toList ++ (cl.members i).asked))
      (cl.members i).world := by
    intro pt hpt
    rw [List.mem_singleton.mp hpt]
    exact hs.answered
  -- the rule of a turn: its message, its entries, and the turn without a message
  refine RaftMachine.meets_turn_of_entries t (keptByWrites_atPoints _)
    (fun core later hk hcore => hcore.trans hk)
    (fun w ev hev hw => hw.emit fun ha => ha.cons hev) ?_ ?_ ?_ ?_
  · intro hstop message hrec
    have hr : t.request = some message := by
      rw [RaftMachine.Turn.request, hstop, hrec]
      rfl
    refine meets_request hr (List.mem_append_left _ ?_) hw
    rw [hr]
    exact List.mem_singleton_self message
  · intro c hc e he core w hcore hw
    obtain ⟨hentries, hprefix⟩ := hd.entries c hc
    rw [← hentries] at he
    obtain ⟨x, hx, rfl⟩ := List.mem_map.mp he
    -- what is delivered is committed, so its proposal was made
    have hlog : x ∈ cl.log := List.mem_of_mem_drop (List.IsPrefix.subset hprefix hx)
    refine hs.meets_handleEntry honce rfl (fun p hp => ?_) ?_ hcore hw c.toAnswers
    · obtain ⟨hmem, hmakes⟩ := h.log x hlog p hp
      exact ⟨List.mem_append_right _ hmem, hmakes⟩
    · intro seq c data hseq hfound hasked
      have hfinds : FindsProposal (cl.members i) m t x.1 := ⟨seq, c, data, hseq, hfound, hasked⟩
      exact ⟨hC.own x hx hfinds, hC.data x hx hfinds, hC.routed x hx hfinds⟩
  · intro hidle
    rw [requested_of_other]
    · exact .refl m
    · intro message hmem
      have hr : t.request = some message := hmem
      rw [RaftMachine.Turn.request] at hr
      split_ifs at hr
      cases hrec : t.received with
      | message message' => exact absurd hrec (hidle message')
      | closed =>
        rw [hrec] at hr
        cases hr
      | elapsed =>
        rw [hrec] at hr
        cases hr
  · exact hw

/-- A node that went down keeps what it was asked and what it showed. -/
theorem Sound.down (h : Sound ps i mem) {columns : Columns} {events : List MachineEvent}
    (ha : Answered mem.asked events) (delivered : ℕ) :
    Sound ps i ⟨none, columns, events, mem.life, delivered, mem.asked⟩ :=
  ⟨by rintro m ⟨⟩, h.life_le, h.asked, h.chans, ha⟩

theorem Consistent.turn (h : Consistent cl) (hm : (cl.members i).machine = some m)
    {es : List Committed} (hd : Delivers cl (cl.members i) t es)
    (hC : OwnEntries router (cl.members i) m i t es) (delivered : ℕ) :
    Consistent (cl.update i ((cl.members i).turned router.route m t delivered)
      (t.taken i (cl.members i).life m.seqnum)) := by
  have hs := (h.members i).requested hm hd.fresh hC.numbers
  have meets := h.meets_turn hm hd hC
  refine h.update ?_ (fun p hp => (RaftMachine.Turn.node_of_mem_taken hp).1)
    (h.once.take (h.members i) hm)
  unfold Member.turned
  unfold Meets at meets
  -- a turn stops, goes on, or panics: the member is down, or has the new machine
  rcases hrun : m.turn router.route t (cl.members i).world with ⟨⟨_ | m'⟩ | msg, w⟩
  · rw [hrun] at meets
    exact hs.down (meets.2 _ (World.mem_points_self w)) delivered
  · rw [hrun] at meets
    refine ⟨?_, hs.life_le, hs.asked, hs.chans, meets.2 _ (World.mem_points_self w)⟩
    rintro _ ⟨⟩
    exact (hs.machine _ rfl).later (meets.1 m' rfl)
  · rw [hrun] at meets
    exact hs.down (meets _ (World.mem_points_self w)) delivered

theorem Consistent.crash (h : Consistent cl) (hm : (cl.members i).machine = some m)
    {es : List Committed} (hd : Delivers cl (cl.members i) t es)
    (hC : OwnEntries router (cl.members i) m i t es) {pt : Columns × List MachineEvent}
    (hpt : pt ∈ (m.turn router.route t (cl.members i).world).2.points)
    (htaken : taken = [] ∨ taken = t.taken i (cl.members i).life m.seqnum) :
    Consistent (cl.update i
      { cl.members i with
        machine := none
        columns := pt.1
        events := pt.2
        asked := t.request.toList ++ (cl.members i).asked } taken) := by
  have hs := (h.members i).requested hm hd.fresh hC.numbers
  have points := (((h.meets_turn hm hd hC).mono (fun _ _ ht => ht.2) fun _ ht => ht).of_run) pt hpt
  rcases htaken with rfl | rfl
  · -- the proposal of the turn was not made
    refine h.update ⟨by rintro m ⟨⟩, (h.members i).life_le, ?_, hs.chans, points⟩ (by rintro p ⟨⟩)
      h.once
    exact fun p hp hi => List.mem_append_right _ ((h.members i).asked p hp hi)
  -- the proposal was made before the node went down
  · exact h.update (hs.down points _) (fun p hp => (RaftMachine.Turn.node_of_mem_taken hp).1)
      (h.once.take (h.members i) hm)

theorem Consistent.start (h : Consistent cl) {g : RaftGroupMetadata} {conf : Config}
    {w : World MachineEvent}
    (hboot : Completes (RaftMachine.boot g) (cl.members i).world (m, conf) w) :
    Consistent (cl.update i
      { cl.members i with
        machine := some m
        columns := w.columns
        events := w.events
        life := (cl.members i).life + 1
        delivered := conf.applied.toNat } []) := by
  obtain ⟨st, hs, cs, rfl, -, -, -, rfl⟩ := completes_boot hboot
  refine h.update ⟨?_, ?_, (h.members i).asked, (h.members i).chans, (h.members i).answered⟩
    (by rintro p ⟨⟩) h.once
  · rintro _ ⟨⟩
    constructor
    -- the table of a new machine is empty
    · intro seq c hlookup
      exact absurd hlookup (by simp [RaftMachine.new])
    · -- no proposal is of this life yet
      intro p hp hi hl
      have hl : p.life = (cl.members i).life + 1 := hl
      have := (h.members i).life_le p hp hi
      omega
  · exact fun p hp hi => Nat.le_succ_of_le ((h.members i).life_le p hp hi)

theorem consistent_empty : Consistent .empty where
  members _ := ⟨by rintro m ⟨⟩, by rintro p ⟨⟩, by rintro p ⟨⟩, .nil,
    ⟨by rintro c e ⟨⟩, fun c e past h => absurd (List.suffix_nil.mp h) (by simp)⟩⟩
  once := by rintro p ⟨⟩
  log := by rintro x ⟨⟩

/-- **Every run in which entries find the channels of their own proposals only is consistent.** -/
theorem consistent_of_run (h : ClusterRun router (OwnEntries router) cl) : Consistent cl := by
  induction h with
  | empty => exact consistent_empty
  | start i hr hdown hboot ih => exact ih.start hboot
  | turn i hr hm hd hC ih => exact ih.turn hm hd hC _
  | crash i hr hm hd hC hpt htaken ih => exact ih.crash hm hd hC hpt htaken
  | commit e o hr hindex hmade hleader ih =>
    refine ⟨ih.members, ih.once, ?_⟩
    intro x hx p hp
    rcases List.mem_append.mp hx with hx | hx
    · exact ih.log x hx p hp
    · rw [List.mem_singleton.mp hx] at hp ⊢
      exact hmade p hp

/-- **An acknowledgement belongs to its proposal**, on every node. -/
theorem acknowledges_of_run (h : ClusterRun router (OwnEntries router) cl) (i : ℕ) :
    Acknowledges (cl.members i).asked (cl.members i).events :=
  ((consistent_of_run h).members i).answered.acknowledges

end invariant

/-! ### Two nodes that number their proposals alike -/

/-- A turn that takes a request, and has nothing ready. -/
def askTurn (message : RaftMessage) : RaftMachine.Turn where
  stop := false
  received := .message message
  accepted := true
  elapsed := false
  role := .follower
  cycle := none

/-- A turn without a request, with a cycle. -/
def readyTurn (c : Cycle) : RaftMachine.Turn where
  stop := false
  received := .elapsed
  accepted := true
  elapsed := false
  role := .follower
  cycle := some c

/-- A node that came up on the empty database. -/
def upNode : Member where
  machine := some booted.1.1
  columns := booted.2.columns
  events := booted.2.events
  life := 1
  delivered := booted.1.2.applied.toNat
  asked := []

/-- The cluster with one node that came up. -/
def oneUp : Cluster := Cluster.empty.update 0 upNode []

/-- The cluster once both nodes came up. -/
def bothUp : Cluster := oneUp.update 1 upNode []

theorem oneUp_run (router : Router MachineEvent)
    (Cond : Member → RaftMachine → ℕ → RaftMachine.Turn → List Committed → Prop) :
    ClusterRun router Cond oneUp := .start 0 .empty rfl completes_booted

theorem bothUp_run (Cond : Member → RaftMachine → ℕ → RaftMachine.Turn → List Committed → Prop) :
    ClusterRun dataRoute Cond bothUp := .start 1 (oneUp_run dataRoute Cond) rfl completes_booted

/-- A node after it took its first proposal. -/
def askedNode (route : Route (World MachineEvent)) (message : RaftMessage) : Member :=
  upNode.turned route booted.1.1 (askTurn message) (upNode.position (askTurn message) [])

/-- The change that node `1` proposes. -/
def removal : ConfChange := ⟨0, 1, 2, .empty⟩

/-- The cluster once node `1` proposed the change and node `0` a write, each as its number `1`. -/
def bothAsked : Cluster :=
  (bothUp.update 1 (askedNode DataRoute.route (.confChange removal 0))
    ((askTurn (.confChange removal 0)).taken 1 1 booted.1.1.seqnum)).update 0
      (askedNode DataRoute.route (.propose [7] 0)) ((askTurn (.propose [7] 0)).taken 0 1 booted.1.1.seqnum)

theorem delivers_askTurn {cl : Cluster} {mem : Member} (hmem : mem.asked = [])
    (message : RaftMessage) : Delivers cl mem (askTurn message) [] where
  fresh message' _ message'' h := by
    rw [hmem] at h
    cases h
  entries c hc := by cases hc
  idle _ := rfl

theorem bothAsked_run :
    ClusterRun dataRoute (fun _ _ _ _ _ => True) bothAsked := by
  have h₁ := bothUp_run fun _ _ _ _ _ => True
  have h₂ := h₁.turn (m := booted.1.1) 1 rfl (delivers_askTurn rfl (.confChange removal 0)) trivial
  exact h₂.turn (m := booted.1.1) 0 rfl (delivers_askTurn rfl (.propose [7] 0)) trivial

/-- The entry of the change. -/
def removalEntry : Entry :=
  { Entry.default with
    entryType := 1
    term := 1
    index := 1
    data := ⟨encodeToVec removal, by decide +kernel⟩
    context := ⟨Bincode.serialize (1 : UInt64), by decide +kernel⟩ }

/-- The proposal of the change. -/
def removalProposal : Proposal := ⟨1, 1, booted.1.1.seqnum, .confChange removal 0⟩

/-- The cluster once the change was committed. -/
def removalCommitted : Cluster :=
  { bothAsked with log := bothAsked.log ++ [(removalEntry, some removalProposal)] }

theorem removalCommitted_run :
    ClusterRun dataRoute (fun _ _ _ _ _ => True) removalCommitted := by
  refine .commit removalEntry (some removalProposal) bothAsked_run rfl ?_ (by rintro ⟨⟩)
  rintro _ ⟨⟩
  refine ⟨List.mem_cons_of_mem _ List.mem_cons_self, ?_, ?_⟩
  · decide +kernel
  · rfl

/-- The machine of node `0` with the channel of its write in the table. -/
def proposer : RaftMachine :=
  { booted.1.1.requested (askTurn (.propose [7] 0)) with
    placementCluster := booted.1.1.placementCluster.setRole .follower }

/-- The cycle in which it learns the change. -/
def removalTurn : RaftMachine.Turn := readyTurn (learnCycle removalEntry ⟨1, 0, 1⟩)

theorem delivers_removal : Delivers removalCommitted (removalCommitted.members 0) removalTurn
    [(removalEntry, some removalProposal)] where
  fresh message hm := by cases hm
  entries c hc := by
    cases hc
    refine ⟨rfl, ?_⟩
    have hbase : (removalCommitted.members 0).base (learnCycle removalEntry ⟨1, 0, 1⟩) = 0 := by
      decide +kernel
    rw [hbase]
    exact List.prefix_rfl
  idle h := by cases h

/-- The event is an answer on the channel, for the commit of the entry. -/
def answersFor (c : ChanId) (e : Entry) : MachineEvent → Bool
  | .responded c' (some e') => c' = c ∧ e' = e
  | _ => false

/-- The cluster once node `0` learned the change. -/
def removalLearned : Cluster :=
  removalCommitted.update 0
    ((removalCommitted.members 0).turned DataRoute.route proposer removalTurn
      ((removalCommitted.members 0).position removalTurn [(removalEntry, some removalProposal)]))
    (removalTurn.taken 0 1 proposer.seqnum)

theorem answered_removal :
    ∃ ev ∈ (removalLearned.members 0).events, answersFor 0 removalEntry ev := by
  decide +kernel

theorem asked_turned (route : Route (World MachineEvent)) (mem : Member) (m : RaftMachine)
    (t : RaftMachine.Turn) (delivered : ℕ) :
    (mem.turned route m t delivered).asked = t.request.toList ++ mem.asked := by
  unfold Member.turned
  rcases m.turn route t mem.world with ⟨⟨_ | _⟩ | _, _⟩ <;> rfl

theorem eq_of_answersFor {c : ChanId} {e : Entry} {ev : MachineEvent} (h : answersFor c e ev) :
    ev = .responded c (some e) := by
  cases ev with
  | responded c' o =>
    cases o with
    | none => cases h
    | some e' =>
      obtain ⟨rfl, rfl⟩ := of_decide_eq_true h
      rfl
  | _ => cases h

/-- Node `0` acknowledges its write on the commit of the change that node `1` proposed. -/
theorem write_acknowledged_by_removal :
    ClusterRun dataRoute (fun _ _ _ _ _ => True) removalLearned ∧
      .propose [7] 0 ∈ (removalLearned.members 0).asked ∧
      (∃ ev ∈ (removalLearned.members 0).events, answersFor 0 removalEntry ev) ∧
      removalEntry.data.val ≠ [7] ∧
      ¬ Acknowledges (removalLearned.members 0).asked (removalLearned.members 0).events := by
  have hdata : removalEntry.data.val ≠ [7] := by decide +kernel
  have hrun : ClusterRun dataRoute (fun _ _ _ _ _ => True) removalLearned :=
    removalCommitted_run.turn (m := proposer) 0 rfl delivers_removal trivial
  have hasked : RaftMessage.propose [7] 0 ∈ (removalLearned.members 0).asked := by
    change _ ∈ ((removalCommitted.members 0).turned DataRoute.route proposer removalTurn _).asked
    rw [asked_turned]
    change _ ∈ (askedNode DataRoute.route (.propose [7] 0)).asked
    rw [askedNode, asked_turned]
    exact List.mem_cons_self
  refine ⟨hrun, hasked, answered_removal, hdata, ?_⟩
  intro hack
  obtain ⟨ev, hev, hans⟩ := answered_removal
  rw [eq_of_answersFor hans] at hev
  obtain ⟨later, past, heq⟩ := List.append_of_mem hev
  exact hdata (hack 0 removalEntry past ⟨later, heq.symm⟩ [7] hasked).1

/-! ### A node that learns its own write -/

/-- A route that accepts everything. -/
def acceptRouter : Router MachineEvent where
  route _ _ := pure (.ok ())
  keeps _ _ _ := keeps_pure _

/-- The cluster once the node proposed a write. -/
def oneAsked : Cluster :=
  oneUp.update 0 (askedNode acceptRouter.route (.propose [7] 0))
    ((askTurn (.propose [7] 0)).taken 0 1 booted.1.1.seqnum)

/-- The entry of the write. -/
def ownEntry : Entry :=
  { Entry.default with
    term := 1
    index := 1
    data := ⟨[7], by decide⟩
    context := ⟨Bincode.serialize (1 : UInt64), by decide +kernel⟩ }

/-- The proposal of the write. -/
def ownProposal : Proposal := ⟨0, 1, booted.1.1.seqnum, .propose [7] 0⟩

/-- The cluster once the write was committed. -/
def ownCommitted : Cluster :=
  { oneAsked with log := oneAsked.log ++ [(ownEntry, some ownProposal)] }

/-- The turn in which the node learns its write. -/
def ownTurn : RaftMachine.Turn := readyTurn (learnCycle ownEntry ⟨1, 0, 1⟩)

/-- The cluster once it did. -/
def ownLearned : Cluster :=
  ownCommitted.update 0
    ((ownCommitted.members 0).turned acceptRouter.route proposer ownTurn
      ((ownCommitted.members 0).position ownTurn [(ownEntry, some ownProposal)]))
    (ownTurn.taken 0 1 proposer.seqnum)

theorem ownLearned_run : ClusterRun acceptRouter (OwnEntries acceptRouter) ownLearned := by
  have h₀ := oneUp_run acceptRouter (OwnEntries acceptRouter)
  -- the node is asked, the entry is committed, and the node learns it
  have h₁ : ClusterRun acceptRouter (OwnEntries acceptRouter) oneAsked := by
    refine h₀.turn (m := booted.1.1) 0 rfl (delivers_askTurn rfl (.propose [7] 0)) ⟨?_, ?_, ?_, ?_⟩
    · rintro x ⟨⟩
    · rintro x ⟨⟩
    · rintro x ⟨⟩
    · decide +kernel
  have h₂ : ClusterRun acceptRouter (OwnEntries acceptRouter) ownCommitted := by
    refine .commit ownEntry (some ownProposal) h₁ rfl ?_ (by rintro ⟨⟩)
    rintro _ ⟨⟩
    refine ⟨List.mem_cons_self, ?_, rfl⟩
    decide +kernel
  refine h₂.turn (m := proposer) 0 rfl ⟨?_, ?_, ?_⟩ ⟨?_, ?_, ?_, ?_⟩
  · rintro message ⟨⟩
  · rintro c ⟨⟩
    refine ⟨rfl, ?_⟩
    have hbase : (ownCommitted.members 0).base (learnCycle ownEntry ⟨1, 0, 1⟩) = 0 := by
      decide +kernel
    rw [hbase]
    exact List.prefix_rfl
  · rintro ⟨⟩
  · intro x hx _
    rw [List.mem_singleton.mp hx]
    exact ⟨ownProposal, rfl, rfl, rfl⟩
  · intro x hx _
    rw [List.mem_singleton.mp hx]
    decide
  · rintro x hx _ now w err ⟨⟩
  · decide +kernel

/-- The node acknowledged its write, after the route returned. -/
theorem acknowledges_own :
    Acknowledges (ownLearned.members 0).asked (ownLearned.members 0).events ∧
      ∃ ev ∈ (ownLearned.members 0).events, answersFor 0 ownEntry ev := by
  refine ⟨acknowledges_of_run ownLearned_run 0, ?_⟩
  decide +kernel

end PlacementCenter.Raft
