import PlacementCenter.Raft.Acknowledgements
import PlacementCenter.Raft.Membership
import PlacementCenter.Raft.Peers

/-!
# The messages of a turn

A cycle sends the messages that the node hands out in three parts, to the addresses that the
members have by then: the entries it works off between the first part and the second may change the
members. A message to no member is dropped. A turn that is cut short has sent the first of them.

## Main definitions

* `Letter`: a message that the node hands out, with the address of the member it is for
* `Turn.letters`: the letters of a turn
* `Turn.stepped`: the message that the node is given in a turn
* `Traffic w stepped letters t`: what was given and sent between two worlds

## Main results

* `meets_turn_traffic`: a turn sends its letters, or the first of them
* `completes_turn_traffic`, `traffic_of_point`: a turn that returns, and one that is cut at any
  point
-/

namespace PlacementCenter.Raft

open Rust Rust.Prost Storage Program

/-! ### Letters -/

/-- The message that an event queues for another node. -/
def MachineEvent.posted : MachineEvent → Option PeerMessage
  | .sentPeer addr data => some ⟨addr, data⟩
  | _ => none

/-- The message that the node is given by an event. -/
def MachineEvent.stepped : MachineEvent → Option RaftPreludeMessage
  | .called (.step message) => some message
  | _ => none

/-- The messages that were queued by some events, newest first. -/
def postedIn (events : List MachineEvent) : List PeerMessage :=
  events.reverse.filterMap MachineEvent.posted

def steppedIn (events : List MachineEvent) : List RaftPreludeMessage :=
  events.reverse.filterMap MachineEvent.stepped

/-- The message of a request for the node. -/
def RaftMessage.forNode : RaftMessage → Option RaftPreludeMessage
  | .raft message _ => some message
  | _ => none

/-- A message that the node hands out, with the address of the member it is for. -/
abbrev Letter := String × RaftPreludeMessage

/-- A letter as it is queued. -/
def Letter.posted (l : Letter) : PeerMessage := ⟨l.1, encodeToVec l.2⟩

@[simp] theorem Letter.toAddr_posted (l : Letter) : l.posted.toAddr = l.1 := rfl

@[simp] theorem Letter.data_posted (l : Letter) : l.posted.data = encodeToVec l.2 := by
  rw [Letter.posted]

/-- The letter of a message to a member. -/
def RaftGroupMetadata.letter (core : RaftGroupMetadata) (msg : RaftPreludeMessage) :
    Option Letter :=
  (core.getNodeById msg.toId).map fun node => (node.nodeInnerAddr, msg)

/-- The members after some entries. -/
def RaftGroupMetadata.after (core : RaftGroupMetadata) (entries : List Entry) :
    RaftGroupMetadata :=
  entries.foldl (fun core e => (changeOf e).elim core (changedCluster core)) core

/-- The letters of a cycle. -/
def Cycle.letters (c : Cycle) (core : RaftGroupMetadata) : List Letter :=
  c.ready.messages.filterMap core.letter ++
    ((c.ready.persistedMessages.filterMap (core.after c.ready.committedEntries).letter) ++
      (c.lightRd.messages.filterMap (core.after c.ready.committedEntries).letter))

namespace RaftMachine

/-- The letters of a turn of a machine with these members. -/
def Turn.letters (t : Turn) (core : RaftGroupMetadata) : List Letter :=
  if t.stop then []
  else
    match t.received, t.cycle with
    | .closed, _ => []
    | _, some c => c.letters (core.setRole t.role)
    | _, none => []

/-- The message that the node is given in a turn. -/
def Turn.stepped (t : Turn) : List RaftPreludeMessage :=
  (t.request.bind RaftMessage.forNode).toList

end RaftMachine

/-- Between two worlds, the node was given these messages, and these letters were queued. -/
structure Traffic (w : World MachineEvent) (stepped : List RaftPreludeMessage)
    (letters : List Letter) (t : World MachineEvent) : Prop where
  posted : postedIn t.events = postedIn w.events ++ letters.map Letter.posted
  stepped : steppedIn t.events = steppedIn w.events ++ stepped

/-- The letters were queued up to one of them. -/
def Cut (w : World MachineEvent) (stepped : List RaftPreludeMessage) (letters : List Letter)
    (t : World MachineEvent) : Prop :=
  ∃ l, l <+: letters ∧ Traffic w stepped l t

section traffic

variable {w t u : World MachineEvent} {stepped stepped' : List RaftPreludeMessage}
  {letters letters' : List Letter} {ev : MachineEvent}

theorem Traffic.refl (w : World MachineEvent) : Traffic w [] [] w :=
  ⟨(List.append_nil _).symm, (List.append_nil _).symm⟩

theorem Traffic.trans (h : Traffic w stepped letters t) (h' : Traffic t stepped' letters' u) :
    Traffic w (stepped ++ stepped') (letters ++ letters') u where
  posted := by rw [h'.posted, h.posted, List.map_append, List.append_assoc]
  stepped := by rw [h'.stepped, h.stepped, List.append_assoc]

/-- What is sent next, and then cut short. -/
theorem Traffic.cut (h : Traffic w stepped letters t) (h' : Cut t [] letters' u) :
    Cut w stepped (letters ++ letters') u := by
  obtain ⟨l, hl, ht⟩ := h'
  have htrans := h.trans ht
  rw [List.append_nil] at htrans
  exact ⟨letters ++ l, (List.prefix_append_right_inj letters).mpr hl, htrans⟩

theorem Cut.append (h : Cut w stepped letters t) (letters' : List Letter) :
    Cut w stepped (letters ++ letters') t := by
  obtain ⟨l, hl, ht⟩ := h
  exact ⟨l, hl.trans (List.prefix_append _ _), ht⟩

theorem Traffic.toCut (h : Traffic w stepped letters t) : Cut w stepped letters t :=
  ⟨letters, List.prefix_refl _, h⟩

theorem postedIn_cons (ev : MachineEvent) (es : List MachineEvent) :
    postedIn (ev :: es) = postedIn es ++ ev.posted.toList := by
  rw [postedIn, List.reverse_cons, List.filterMap_append]
  cases h : ev.posted <;> simp [h, postedIn]

theorem steppedIn_cons (ev : MachineEvent) (es : List MachineEvent) :
    steppedIn (ev :: es) = steppedIn es ++ ev.stepped.toList := by
  rw [steppedIn, List.reverse_cons, List.filterMap_append]
  cases h : ev.stepped <;> simp [h, steppedIn]

/-- An event of its own. -/
theorem traffic_emit {l : List Letter} (h : ev.posted.toList = l.map Letter.posted)
    (h' : ev.stepped.toList = stepped) : Traffic w stepped l (w.emit ev) where
  posted := by rw [World.events_emit, postedIn_cons, h]
  stepped := by rw [World.events_emit, steppedIn_cons, h']

/-- An event that is no message. -/
def MachineEvent.Aside (ev : MachineEvent) : Prop := ev.posted = none ∧ ev.stepped = none

theorem Traffic.emit (h : Traffic w stepped letters t) (hev : ev.Aside) :
    Traffic w stepped letters (t.emit ev) where
  posted := by
    rw [World.events_emit, postedIn_cons, hev.1, h.posted]
    exact List.append_nil _
  stepped := by
    rw [World.events_emit, steppedIn_cons, hev.2, h.stepped]
    exact List.append_nil _

/-- A write is no message. -/
theorem keptByWrites_traffic (w : World MachineEvent) (stepped : List RaftPreludeMessage)
    (letters : List Letter) : RaftMachine.KeptByWrites (Traffic w stepped letters) where
  put _ _ _ h := ⟨h.posted, h.stepped⟩
  delete _ _ h := ⟨h.posted, h.stepped⟩

end traffic

namespace RaftMachine

variable {self : RaftMachine} {w t : World MachineEvent} {stepped : List RaftPreludeMessage}
  {letters : List Letter} {router : Router MachineEvent} {answers : Answers}

/-! ### Messages -/

/-- A message to a member is queued at its address, and one to no member is dropped. -/
theorem sendPeerMessage_traffic (self : RaftMachine) (msg : RaftPreludeMessage)
    (w : World MachineEvent) : ∃ t,
      self.sendPeerMessage msg.toId (encodeToVec msg) w = (.ok (), t) ∧
        Traffic w [] (self.placementCluster.letter msg).toList t := by
  unfold sendPeerMessage RaftGroupMetadata.letter
  cases self.placementCluster.getNodeById msg.toId with
  | none => exact ⟨w, rfl, .refl w⟩
  | some node => exact ⟨_, rfl, traffic_emit rfl rfl⟩

/-- **Messages are queued one after the other**, up to one of no known type. -/
theorem meets_sendMessage (self : RaftMachine) (messages : List RaftPreludeMessage)
    (w : World MachineEvent) :
    Meets (self.sendMessage messages) w
      (fun _ t => Traffic w [] (messages.filterMap self.placementCluster.letter) t)
      (Cut w [] (messages.filterMap self.placementCluster.letter)) := by
  unfold sendMessage
  induction messages generalizing w with
  | nil => exact .refl w
  | cons msg messages ih =>
    rw [List.foldlM_cons, meets_bind, sendOne]
    split_ifs
    · obtain ⟨t, hrun, ht⟩ := sendPeerMessage_traffic self msg w
      have hletters : (msg :: messages).filterMap self.placementCluster.letter =
          (self.placementCluster.letter msg).toList ++
            messages.filterMap self.placementCluster.letter := by
        rw [List.filterMap_cons]
        cases self.placementCluster.letter msg <;> rfl
      rw [hletters]
      refine meets_of_eq_ok hrun ((ih t).mono (fun _ u hu => ht.trans hu) fun u hu => ht.cut hu)
    · exact ⟨[], List.nil_prefix, .refl w⟩

/-! ### Entries -/

/-- What is kept by every write and by the events of an entry. -/
structure KeptByEntries (P : World MachineEvent → Prop) : Prop where
  writes : KeptByWrites P
  routed : ∀ w e, P w → P (w.emit (.routed e))
  applied : ∀ w e, P w → P (w.emit (.applied e))
  responded : ∀ w c e, P w → P (w.emit (.responded c e))

/-- An entry keeps the table, and what is kept by entries. -/
theorem KeptByEntries.meets_handleEntry {P : World MachineEvent → Prop} (hP : KeptByEntries P)
    (e : Entry) (h : P t) : Meets (self.handleEntry router.route answers e) t
      (fun core u => KeepsTable self core ∧ P u) P := by
  have hev : ∀ w ev, (ev = .routed e ∨ ev = .applied e ∨ ∃ c, ev = .responded c (some e)) →
      P w → P (w.emit ev) := by
    rintro w ev (rfl | rfl | ⟨c, rfl⟩) hw
    · exact hP.routed w e hw
    · exact hP.applied w e hw
    · exact hP.responded w c _ hw
  unfold handleEntry
  rw [meets_bind]
  refine (meets_applyEntry hP.writes hev router answers (.inl rfl) (.inr (.inl rfl)) h).mono
    (fun core u hu => ?_) fun _ hu => hu
  exact (meets_commitEntry hP.writes hev (fun _ c _ _ => .inr (.inr ⟨c, rfl⟩)) hu.2).mono
    (fun core' v hv => ⟨hu.1.trans hv.1, hv.2⟩) fun _ hv => hv

/-- An entry is no message. -/
theorem keptByEntries_traffic (w : World MachineEvent) (stepped : List RaftPreludeMessage)
    (letters : List Letter) : KeptByEntries (Traffic w stepped letters) where
  writes := keptByWrites_traffic w stepped letters
  routed _ _ h := h.emit ⟨rfl, rfl⟩
  applied _ _ h := h.emit ⟨rfl, rfl⟩
  responded _ _ _ h := h.emit ⟨rfl, rfl⟩

/-- An entry changes the members, and sends nothing. -/
theorem meets_handleEntry (e : Entry) (h : Traffic w stepped letters t) :
    Meets (self.handleEntry router.route answers e) t
      (fun core u => core.placementCluster =
          (changeOf e).elim self.placementCluster (changedCluster self.placementCluster) ∧
        Traffic w stepped letters u)
      (Traffic w stepped letters) := by
  have hmeets : Meets (self.handleEntry router.route answers e) t
      (fun core u => KeepsTable self core ∧ Traffic w stepped letters u)
      (Traffic w stepped letters) := (keptByEntries_traffic w stepped letters).meets_handleEntry e h
  exact hmeets.completed.mono
    (fun core u hu => ⟨(completes_handleEntry_members hu.1).2.1, hu.2.2⟩) fun _ hu => hu

theorem meets_handleEntries (es : List Entry) (h : Traffic w stepped letters t) :
    Meets (self.handleCommittedEntries router.route answers es) t
      (fun core u => core.placementCluster = self.placementCluster.after es ∧
        Traffic w stepped letters u)
      (Traffic w stepped letters) := by
  unfold handleCommittedEntries
  induction es generalizing self t with
  | nil => exact ⟨rfl, h⟩
  | cons e es ih =>
    rw [List.foldlM_cons, meets_bind]
    refine (meets_handleEntry e h).mono (fun core u hu => ?_) fun _ hu => hu
    refine (ih hu.2).mono (fun core' v hv => ⟨hv.1.trans ?_, hv.2⟩) fun _ hv => hv
    rw [hu.1]
    rfl

/-! ### Cycles -/

/-- A program on the store sends nothing, and the machine that takes over the store has the same
members. -/
theorem meets_store {α : Type} {p : Program (World MachineEvent) α} {f : α → RaftMachineStorage}
    (hp : Keeps (Traffic w stepped letters) p) (h : Traffic w stepped letters t) :
    Meets (do
        let r ← p
        return { self with raftStorage := f r }) t
      (fun core u => core.placementCluster = self.placementCluster ∧ Traffic w stepped letters u)
      (Traffic w stepped letters) := by
  rw [meets_bind]
  exact (hp.meets h fun _ hu => hu).mono (fun _ u hu => ⟨rfl, hu⟩) fun _ hu => hu

theorem meets_saveSnapshot_traffic (s : Snapshot) (h : Traffic w stepped letters t) :
    Meets (self.saveSnapshot s) t
      (fun core u => core.placementCluster = self.placementCluster ∧ Traffic w stepped letters u)
      (Traffic w stepped letters) := by
  unfold saveSnapshot
  split_ifs
  · exact ⟨rfl, h⟩
  · exact meets_store (keeps_bind ((keptByWrites_traffic w stepped letters).applySnapshot _ s)
      fun _ => keeps_pure _) h

theorem meets_saveEntries_traffic (es : List Entry) (h : Traffic w stepped letters t) :
    Meets (self.saveEntries es) t
      (fun core u => core.placementCluster = self.placementCluster ∧ Traffic w stepped letters u)
      (Traffic w stepped letters) := by
  unfold saveEntries
  split_ifs
  · exact ⟨rfl, h⟩
  · exact meets_store (keeps_bind ((keptByWrites_traffic w stepped letters).append _ es)
      fun _ => keeps_pure _) h

/-- **A cycle queues its letters**, up to one of them when it is cut short. -/
theorem meets_onReady_traffic (c : Cycle) (w : World MachineEvent) :
    Meets (self.onReady router.route c) w
      (fun _ t => Traffic w [] (c.letters self.placementCluster) t)
      (Cut w [] (c.letters self.placementCluster)) := by
  unfold onReady Cycle.letters
  -- the parts of the cycle, in the order of the source
  rw [meets_bind]
  refine (meets_sendMessage self _ w).mono (fun _ t₁ h₁ => ?_) fun _ ht => ht.append _
  rw [meets_bind]
  refine (meets_saveSnapshot_traffic _ h₁).mono (fun core₂ t₂ h₂ => ?_)
    fun _ ht => ht.toCut.append _
  rw [meets_bind]
  refine (meets_saveEntries_traffic _ h₂.2).mono (fun core₃ t₃ h₃ => ?_)
    fun _ ht => ht.toCut.append _
  rw [meets_bind]
  refine (meets_handleEntries _ h₃.2).mono (fun core₄ t₄ h₄ => ?_) fun _ ht => ht.toCut.append _
  have hcore : core₄.placementCluster =
      self.placementCluster.after c.ready.committedEntries := by
    rw [h₄.1, h₃.1, h₂.1]
  rw [← hcore, meets_bind]
  refine (((keptByWrites_traffic w _ _).saveHardState _).meets h₄.2 fun _ ht => ht).mono
    (fun _ t₅ h₅ => ?_) fun _ ht => ht.toCut.append _
  rw [meets_bind]
  refine (meets_sendMessage core₄ _ t₅).mono (fun _ t₆ h₆ => ?_) fun _ ht => h₅.cut (ht.append _)
  have hsent := h₅.trans h₆
  rw [meets_bind, ← List.append_assoc]
  refine (((keptByWrites_traffic w _ _).saveCommit _).meets hsent fun _ ht => ht).mono
    (fun _ t₇ h₇ => ?_) fun _ ht => ht.toCut.append _
  rw [meets_bind]
  refine (meets_sendMessage core₄ _ t₇).mono (fun _ t₈ h₈ => ?_) fun _ ht => h₇.cut ht
  exact (meets_handleEntries _ (h₇.trans h₈)).mono (fun _ _ h => h.2) fun _ ht => ht.toCut

/-! ### Turns -/

/-- The node is given the message of a request, and the members stay. -/
theorem meets_handleMessage_traffic (accepted : Bool) (message : RaftMessage)
    (w : World MachineEvent) :
    Meets (self.handleMessage accepted message) w
      (fun core t => core.placementCluster = self.placementCluster ∧
        Traffic w message.forNode.toList [] t) fun _ => False := by
  -- a proposal gives the node no message
  have proposed : ∀ (call : Bytes → RaftCall) chan,
      (∀ context, MachineEvent.stepped (.called (call context)) = none) →
        Meets (self.propose call accepted chan) w
          (fun core t => core.placementCluster = self.placementCluster ∧ Traffic w [] [] t)
          fun _ => False := fun call chan hcall =>
    meets_of_eq_ok (propose_run call accepted chan) ⟨rfl, (Traffic.refl w).emit ⟨rfl, hcall _⟩⟩
  cases message with
  | confChange change chan =>
    exact proposed (fun context => .proposeConfChange context change) chan fun _ => rfl
  | propose data chan => exact proposed (fun context => .propose context data) chan fun _ => rfl
  | raft message chan =>
    -- a message is given to the node before it is taken or refused
    have hstep : Traffic w [message] [] (w.emit (.called (.step message))) := traffic_emit rfl rfl
    cases accepted with
    | true => exact ⟨rfl, hstep.emit ⟨rfl, rfl⟩⟩
    | false => exact ⟨rfl, hstep⟩
  | transferLeader nodeId chan =>
    exact ⟨rfl, ((Traffic.refl w).emit ⟨rfl, rfl⟩).emit ⟨rfl, rfl⟩⟩

/-- The part of a turn after the queue was asked. -/
theorem meets_advance_traffic (turn : Turn) (h : Traffic w stepped [] t)
    (hstop : turn.stop = false) (hreceived : turn.received ≠ .closed) :
    Meets (self.advance router.route turn) t
      (fun _ u => Traffic w stepped (turn.letters self.placementCluster) u)
      (Cut w stepped (turn.letters self.placementCluster)) := by
  have hletters : turn.letters self.placementCluster = (turn.cycle.map fun c =>
      c.letters (self.placementCluster.setRole turn.role)).getD [] := by
    unfold Turn.letters
    rw [if_neg (ne_true_of_eq_false hstop)]
    cases hr : turn.received with
    | closed => exact absurd hr hreceived
    | message _ | elapsed => cases turn.cycle <;> rfl
  rw [hletters]
  unfold advance
  rw [meets_bind]
  -- a tick is no message
  have ticked : Meets (tick turn.elapsed) t (fun _ u => Traffic w stepped [] u) fun _ => False := by
    unfold tick
    split_ifs
    · exact h.emit ⟨rfl, rfl⟩
    · exact h
  refine ticked.mono (fun _ u hu => ?_) fun _ hu => hu.elim
  dsimp only
  cases turn.cycle with
  | none => exact hu
  | some c =>
    -- the letters are all those of the cycle
    refine (meets_onReady_traffic c u).mono (fun _ v hv => ?_) fun v hv => hu.cut hv
    have htrans := hu.trans hv
    rwa [List.append_nil] at htrans

/-- **A turn** gives the node the message of its request, and queues its letters, up to one of
them when it is cut short. -/
theorem meets_turn_traffic (turn : Turn) (w : World MachineEvent) :
    Meets (self.turn router.route turn) w
      (fun _ t => Traffic w turn.stepped (turn.letters self.placementCluster) t)
      (Cut w turn.stepped (turn.letters self.placementCluster)) := by
  unfold RaftMachine.turn Turn.stepped Turn.request
  split_ifs with hstop
  · unfold Turn.letters
    rw [if_pos hstop]
    exact .refl w
  · have hgo := eq_false_of_ne_true hstop
    cases hreceived : turn.received with
    | message message =>
      dsimp only
      rw [meets_bind]
      refine (meets_handleMessage_traffic turn.accepted message w).mono (fun core t h => ?_)
        fun _ ht => ht.elim
      rw [meets_bind, ← h.1]
      exact meets_advance_traffic turn h.2 hgo (by rw [hreceived]; nofun)
    | closed =>
      unfold Turn.letters
      rw [if_neg hstop, hreceived]
      exact .refl w
    | elapsed =>
      dsimp only
      rw [meets_bind]
      exact meets_advance_traffic turn (.refl w) hgo (by rw [hreceived]; nofun)

/-! ### Turns that are cut -/

/-- What was shown at a crash point are the first of the events. -/
theorem keptByWrites_suffix : KeptByWrites fun w => ∀ pt ∈ w.points, pt.2 <:+ w.events where
  put _ _ _ h := List.forall_mem_cons.mpr ⟨List.suffix_refl _, h⟩
  delete _ _ h := List.forall_mem_cons.mpr ⟨List.suffix_refl _, h⟩

theorem suffix_of_point {pt : Columns × List MachineEvent} {turn : Turn} {columns : Columns}
    (hpt : pt ∈ (self.turn router.route turn (World.reopen columns [])).2.points) :
    pt.2 <:+ (self.turn router.route turn (World.reopen columns [])).2.events := by
  have hemit : ∀ (w : World MachineEvent) (ev : MachineEvent),
      (∀ pt ∈ w.points, pt.2 <:+ w.events) →
        ∀ pt ∈ (w.emit ev).points, pt.2 <:+ (w.emit ev).events := by
    intro w ev h
    refine List.forall_mem_cons.mpr ⟨List.suffix_refl _, fun pt hpt => ?_⟩
    exact (h pt hpt).trans (List.suffix_cons _ _)
  have hstart : ∀ pt ∈ (World.reopen columns ([] : List MachineEvent)).points,
      pt.2 <:+ (World.reopen columns ([] : List MachineEvent)).events :=
    List.forall_mem_singleton.mpr (List.suffix_refl _)
  have hmeets := @meets_turn self _ _ router (fun _ => True) turn keptByWrites_suffix
    (fun w ev _ => hemit w ev) (fun w c e _ => hemit w (.responded c e)) (fun _ _ => trivial)
    (fun _ _ => trivial) hstart
  exact (hmeets.mono (fun _ _ h => h.2) fun _ h => h).of_run pt hpt

/-- **A turn that returns** has queued all its letters. -/
theorem completes_turn_traffic {turn : Turn} {columns : Columns} {o : Option RaftMachine}
    (h : Completes (self.turn router.route turn) (World.reopen columns []) o w) :
    postedIn w.events = (turn.letters self.placementCluster).map Letter.posted ∧
      steppedIn w.events = turn.stepped := by
  have htraffic := (meets_turn_traffic turn (World.reopen columns [])).of_completes h
  exact ⟨htraffic.posted, htraffic.stepped⟩

/-- **A turn that is cut at any point** has queued the first of its letters. -/
theorem traffic_of_point {pt : Columns × List MachineEvent} {turn : Turn} {columns : Columns}
    (hpt : pt ∈ (self.turn router.route turn (World.reopen columns [])).2.points) :
    postedIn pt.2 <+: (turn.letters self.placementCluster).map Letter.posted ∧
      steppedIn pt.2 <+: turn.stepped := by
  obtain ⟨l, hl, htraffic⟩ : Cut (World.reopen columns []) turn.stepped
      (turn.letters self.placementCluster)
        (self.turn router.route turn (World.reopen columns [])).2 :=
    ((meets_turn_traffic turn _).mono (fun _ _ h => h.toCut) fun _ h => h).of_run
  have hsuffix := List.reverse_prefix.mpr (suffix_of_point hpt)
  constructor
  · have hposted : postedIn pt.2 <+: postedIn _ := hsuffix.filterMap MachineEvent.posted
    rw [htraffic.posted] at hposted
    exact hposted.trans (hl.map Letter.posted)
  · have hstepped : steppedIn pt.2 <+: steppedIn _ := hsuffix.filterMap MachineEvent.stepped
    rwa [htraffic.stepped] at hstepped

end RaftMachine

end PlacementCenter.Raft
