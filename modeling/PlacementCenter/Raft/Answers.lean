import PlacementCenter.Raft.Cycles

/-!
# The channels of the raft machine

What the turns of the machine do to the table of its channels, and which channels they answer. A
cycle only takes channels out of the table, and answers those it takes out.

## Main definitions

* `KeepsTable`: the later machine has the sequence number and no further channel
* `Registered c`: the channel is in the table
* `NotAnswer`: the events that answer no channel

## Main results

* `propose_run`: what a proposal does to the table
* `meets_commitEntry`: a committed entry answers the channel its context finds, if any
* `meets_onReady`: a cycle keeps the table, and what its entries keep
* `meets_turn_of_entries`: the rule of a turn
* `meets_turn`: a turn answers only channels it was handed or that are in the table
-/

namespace PlacementCenter.Raft

open Rust Rust.Prost Storage Program

/-- The event answers no channel. -/
def MachineEvent.NotAnswer (ev : MachineEvent) : Prop := ∀ c e, ev ≠ .responded c e

namespace RaftMachine

/-- The channel is in the table. -/
def Registered (self : RaftMachine) (c : ChanId) : Prop := ∃ seq : UInt64, self.respChannel[seq]? = some c

/-- The machine `later` has the sequence number of `core`, and no further channel. -/
structure KeepsTable (core later : RaftMachine) : Prop where
  seqnum : later.seqnum = core.seqnum
  lookup : ∀ (seq : UInt64) (c : ChanId), later.respChannel[seq]? = some c →
    core.respChannel[seq]? = some c

theorem KeepsTable.refl (self : RaftMachine) : KeepsTable self self := ⟨rfl, fun _ _ h => h⟩

theorem KeepsTable.trans {a b c : RaftMachine} (h : KeepsTable a b) (h' : KeepsTable b c) :
    KeepsTable a c :=
  ⟨h'.seqnum.trans h.seqnum, fun seq d hd => h.lookup seq d (h'.lookup seq d hd)⟩

theorem KeepsTable.registered {self self' : RaftMachine} (h : KeepsTable self self') {c : ChanId}
    (hc : self'.Registered c) : self.Registered c := by
  obtain ⟨seq, hs⟩ := hc
  exact ⟨seq, h.lookup seq c hs⟩

variable {self : RaftMachine} {w : World MachineEvent}

/-! ### Requests -/

/-- **What a proposal does**: it takes the next number, and registers the channel under it when the
node takes the proposal. -/
theorem propose_run (call : Bytes → RaftCall) (accepted : Bool) (chan : ChanId) :
    self.propose call accepted chan w =
      (.ok { self with
          seqnum := self.seqnum + 1
          respChannel := if accepted then self.respChannel.insert self.seqnum chan
            else self.respChannel },
        w.emit (.called (call (Bincode.serialize self.seqnum)))) := by
  cases accepted <;> rfl

/-- A channel in the table after a proposal was there before, or is that of the proposal. -/
theorem lookup_propose {accepted : Bool} {chan c : ChanId} {seq : UInt64}
    (h : (if accepted then self.respChannel.insert self.seqnum chan
      else self.respChannel)[seq]? = some c) :
    self.respChannel[seq]? = some c ∨ seq = self.seqnum ∧ c = chan ∧ accepted = true := by
  cases accepted with
  | false => exact .inl h
  | true =>
    rw [if_pos rfl, OrdMap.lookup_insert] at h
    split_ifs at h with hs
    · exact .inr ⟨hs.symm, (Option.some_inj.mp h).symm, rfl⟩
    · exact .inl h

/-! ### Events -/

section events

variable {A : MachineEvent → Prop} {P : World MachineEvent → Prop}

/-- What every write of the database keeps. -/
structure KeptByWrites (P : World MachineEvent → Prop) : Prop where
  put : ∀ (w : World MachineEvent) (k v : Bytes), P w → P (putKey w k v)
  delete : ∀ (w : World MachineEvent) (k : Bytes), P w → P (w.delete dbColumnFamilyCluster k)

theorem KeptByWrites.texts (hW : KeptByWrites P) : KeptByTexts P :=
  ⟨fun w _ _ hw => hW.put w _ _ hw, fun w _ hw => hW.delete w _ hw⟩

/-- What the events `A` and every write keep, every effect keeps. -/
theorem KeptByWrites.aside (hW : KeptByWrites P) (hP : ∀ w ev, A ev → P w → P (w.emit ev)) :
    KeptAside A P where
  emit := hP
  clients := ⟨fun w k v _ hw => hW.put w k v hw, fun w k _ hw => hW.delete w k hw⟩
  records w _ _ _ hw := hW.put w _ _ hw

variable (hW : KeptByWrites P) (hP : ∀ w ev, A ev → P w → P (w.emit ev))
  (router : Router MachineEvent) (answers : Answers)
include hW hP

/-- The application of an entry keeps the table. -/
theorem meets_applyEntry {e : Entry} (hr : A (.routed e)) (ha : A (.applied e))
    (hw : P w) :
    Meets (self.applyEntry router.route answers e) w
      (fun self' t => KeepsTable self self' ∧ P t) fun t => P t := by
  have keeps := keeps_applyEntry (hW.aside hP).beside router answers self hr ha w hw
  refine meets_of_runs (fun self' t hc => ?_) (fun m t hm => ?_)
  · rw [hc] at keeps
    refine ⟨?_, keeps⟩
    unfold applyEntry at hc
    split_ifs at hc
    · obtain ⟨rfl, -⟩ := completes_pure.mp hc
      exact .refl self
    · split at hc
      · obtain ⟨-, r, -, hc⟩ := completes_bind.mp hc
        obtain ⟨rfl, -⟩ := completes_pure.mp hc
        exact .refl self
      · obtain ⟨change, r, -, hc⟩ := completes_bind.mp hc
        obtain ⟨core, r', hp, hc⟩ := completes_bind.mp hc
        -- Only the members change.
        have hcore : KeepsTable self core := by
          unfold changePeers at hp
          split at hp
          · split at hp
            · obtain ⟨rfl, -⟩ := completes_pure.mp hp
              exact ⟨rfl, fun _ _ h => h⟩
            · obtain ⟨rfl, -⟩ := completes_pure.mp hp
              exact .refl self
          · obtain ⟨rfl, -⟩ := completes_pure.mp hp
            exact ⟨rfl, fun _ _ h => h⟩
          · exact absurd hp not_completes_panic
          · exact absurd hp not_completes_panic
        split at hc
        · obtain ⟨-, r'', -, hc⟩ := completes_bind.mp hc
          obtain ⟨rfl, -⟩ := completes_pure.mp hc
          exact hcore
        · obtain ⟨rfl, -⟩ := completes_pure.mp hc
          exact hcore
      · obtain ⟨rfl, -⟩ := completes_pure.mp hc
        exact .refl self
      · exact absurd hc not_completes_panic
  · rwa [hm] at keeps

/-- **A committed entry answers** the channel that its context finds in the table, if any. -/
theorem meets_commitEntry {e : Entry}
    (hans : ∀ (seq : UInt64) (c : ChanId), Bincode.deserialize e.context.val = some seq →
      self.respChannel[seq]? = some c → A (.responded c (some e)))
    (hw : P w) :
    Meets (self.commitEntry e) w (fun self' t => KeepsTable self self' ∧ P t)
      fun t => P t := by
  have aside := hW.aside hP
  unfold commitEntry
  rw [meets_bind]
  refine ((keeps_commmitIndex aside.beside self.raftStorage e.index
    (fun w _ _ hw _ _ => hW.put w _ _ hw)).meets hw fun _ ht => ht).mono (fun r t ht => ?_)
      fun _ ht => ht
  obtain ⟨_, st⟩ := r
  dsimp only
  have snapshot : ∀ (core : RaftMachine) (t : World MachineEvent), KeepsTable self core →
      P t → Meets core.createSnapshot t
        (fun self' t => KeepsTable self self' ∧ P t) fun t => P t := by
    intro core t hcore ht
    have hk := keeps_createSnapshot aside core t ht
    refine meets_of_runs (fun self' t' hc => ?_) (fun m t' hm => ?_)
    · rw [hc] at hk
      refine ⟨?_, hk⟩
      unfold createSnapshot at hc
      dsimp only at hc
      split_ifs at hc
      · obtain ⟨⟨_, st'⟩, r, -, hc⟩ := completes_bind.mp hc
        obtain ⟨rfl, -⟩ := completes_pure.mp hc
        exact ⟨hcore.seqnum, hcore.lookup⟩
      · obtain ⟨rfl, -⟩ := completes_pure.mp hc
        exact ⟨hcore.seqnum, hcore.lookup⟩
    · rwa [hm] at hk
  -- an answer needs a number that decodes and is still in the table
  rw [meets_bind, respond]
  cases hd : (Bincode.deserialize e.context.val : Option UInt64) with
  | none => exact snapshot _ t ⟨rfl, fun _ _ h => h⟩ ht
  | some seq =>
    dsimp only
    cases hl : self.respChannel[seq]? with
    | none => exact snapshot _ t ⟨rfl, fun _ _ h => h⟩ ht
    | some c =>
      refine snapshot _ (t.emit (.responded c (some e))) ⟨rfl, fun seq' c' h => ?_⟩
        (hP t _ (hans seq c hd hl) ht)
      rw [OrdMap.lookup_erase] at h
      split_ifs at h
      exact h

end events

/-! ### Cycles -/

section cycles

variable {P : World MachineEvent → Prop} {route : Route (World MachineEvent)} {answers : Answers}

/-- Entries keep the table, and what each of them keeps. -/
theorem meets_handleCommittedEntries (L : List Entry)
    (hentry : ∀ e ∈ L, ∀ core t, KeepsTable self core → P t →
      Meets (core.handleEntry route answers e) t
        (fun core' t => KeepsTable core core' ∧ P t) fun t => P t)
    (hw : P w) :
    Meets (self.handleCommittedEntries route answers L) w
      (fun self' t => KeepsTable self self' ∧ P t) fun t => P t := by
  refine meets_foldlM L (fun core e t he hc => ?_) self w ⟨.refl self, hw⟩
  exact (hentry e he core t hc.1 hc.2).mono (fun core' t ht => ⟨hc.1.trans ht.1, ht.2⟩)
    fun _ ht => ht

/-- What a program on the store keeps, the machine keeps that takes over the store it returns. -/
theorem meets_takeOver {α : Type} {p : Program (World MachineEvent) α}
    {f : α → Program (World MachineEvent) RaftMachine} (hp : Keeps P p)
    (hf : ∀ r, ∃ core, f r = pure { self with raftStorage := core }) (hw : P w) :
    Meets (p >>= f) w (fun self' t => KeepsTable self self' ∧ P t) fun t => P t := by
  rw [meets_bind]
  refine (Keeps.meets (R := P) hp hw fun _ ht => ht).mono (fun r t ht => ?_) fun _ ht => ht
  obtain ⟨core, hcore⟩ := hf r
  rw [hcore]
  exact ⟨⟨rfl, fun _ _ h => h⟩, ht⟩

section writes

variable (hW : KeptByWrites P)
include hW

theorem KeptByWrites.applySnapshot (core : RaftMachineStorage) (s : Snapshot) :
    Keeps P (core.applySnapshot s) :=
  keeps_of_bind_pure ((StoreOp.applySnapshot s).keeps hW.texts core)

theorem KeptByWrites.append (core : RaftMachineStorage) (L : List Entry) :
    Keeps P (core.append L) :=
  keeps_of_bind_pure ((RaftOp.append L).keeps (hW.texts.records _) core)

theorem meets_saveSnapshot (s : Snapshot) (hw : P w) :
    Meets (self.saveSnapshot s) w (fun self' t => KeepsTable self self' ∧ P t)
      fun t => P t := by
  unfold saveSnapshot
  split_ifs
  · exact ⟨.refl self, hw⟩
  · exact meets_takeOver (keeps_bind (hW.applySnapshot _ s) fun _ => keeps_pure _) (fun r => ⟨r.2, rfl⟩) hw

theorem meets_saveEntries (L : List Entry) (hw : P w) :
    Meets (self.saveEntries L) w (fun self' t => KeepsTable self self' ∧ P t)
      fun t => P t := by
  unfold saveEntries
  split_ifs
  · exact ⟨.refl self, hw⟩
  · exact meets_takeOver (keeps_bind (hW.append _ L) fun _ => keeps_pure _) (fun r => ⟨r.2, rfl⟩) hw

theorem KeptByWrites.saveHardState (o : Option HardState) :
    Keeps P (RaftMachine.saveHardState o) := by
  cases o with
  | none => exact keeps_pure _
  | some hs => exact fun w hw => hW.put w _ _ hw

theorem KeptByWrites.saveCommit (o : Option UInt64) : Keeps P (RaftMachine.saveCommit o) := by
  cases o with
  | none => exact keeps_pure _
  | some k =>
    exact keeps_bind (keeps_bind (keeps_bind keeps_hardState fun hs => fun w hw =>
      hW.put w _ _ hw) fun _ => keeps_pure _) fun _ => keeps_pure _

/-- **A cycle keeps the table**, and what its messages and its entries keep. -/
theorem meets_onReady {c : Cycle} (hsent : ∀ w addr data, P w → P (w.emit (.sentPeer addr data)))
    (hentry : ∀ e ∈ c.delivered, ∀ core t, KeepsTable self core → P t →
      Meets (core.handleEntry route c.toAnswers e) t
        (fun core' t => KeepsTable core core' ∧ P t) fun t => P t)
    (hw : P w) :
    Meets (self.onReady route c) w (fun self' t => KeepsTable self self' ∧ P t)
      fun t => P t := by
  have messages : ∀ (core : RaftMachine) (ms : List RaftPreludeMessage) (t : World MachineEvent),
      P t → Meets (core.sendMessage ms) t (fun _ t => P t) fun t => P t :=
    fun core ms t ht => (keeps_sendMessage hsent core ms).meets ht fun _ ht => ht
  unfold onReady
  -- the parts of the cycle, in the order of the source
  rw [meets_bind]
  refine (messages self _ w hw).mono (fun _ w₁ hw₁ => ?_) fun _ ht => ht
  rw [meets_bind]
  refine (meets_saveSnapshot hW _ hw₁).mono (fun core₂ w₂ hw₂ => ?_) fun _ ht => ht
  rw [meets_bind]
  refine (meets_saveEntries hW _ hw₂.2).mono (fun core₃ w₃ hw₃ => ?_) fun _ ht => ht
  have h₃ := hw₂.1.trans hw₃.1
  rw [meets_bind]
  refine (meets_handleCommittedEntries _ (fun e he core t hc => hentry e
    (List.mem_append_left _ he) core t (h₃.trans hc)) hw₃.2).mono
      (fun core₄ w₄ hw₄ => ?_) fun _ ht => ht
  have h₄ := h₃.trans hw₄.1
  rw [meets_bind]
  refine ((hW.saveHardState _).meets hw₄.2 fun _ ht => ht).mono
    (fun _ w₅ hw₅ => ?_) fun _ ht => ht
  rw [meets_bind]
  refine (messages core₄ _ w₅ hw₅).mono (fun _ w₆ hw₆ => ?_) fun _ ht => ht
  rw [meets_bind]
  refine ((hW.saveCommit _).meets hw₆ fun _ ht => ht).mono
    (fun _ w₇ hw₇ => ?_) fun _ ht => ht
  rw [meets_bind]
  refine (messages core₄ _ w₇ hw₇).mono (fun _ w₈ hw₈ => ?_) fun _ ht => ht
  refine (meets_handleCommittedEntries _ (fun e he core t hc => hentry e
    (List.mem_append_right _ he) core t (h₄.trans hc)) hw₈).mono
      (fun core₉ w₉ hw₉ => ⟨h₄.trans hw₉.1, hw₉.2⟩) fun _ ht => ht

end writes

end cycles

/-! ### Turns -/

section turns

variable {P : World MachineEvent → Prop} {router : Router MachineEvent} {H : ChanId → Prop}

/-- The request of a turn: its channel is registered or answered, or dropped. -/
theorem meets_handleMessage (accepted : Bool) (message : RaftMessage)
    (hcalled : ∀ w call, P w → P (w.emit (.called call)))
    (hans : ∀ w c e, H c → P w → P (w.emit (.responded c e))) (hm : H message.chan)
    (hreg : ∀ c, self.Registered c → H c) (hw : P w) :
    Meets (self.handleMessage accepted message) w
      (fun self' t => (∀ c, self'.Registered c → H c) ∧ P t) fun t => P t := by
  -- a proposal changes nothing but the table
  have proposed : ∀ (call : Bytes → RaftCall) (chan : ChanId), H chan →
      Meets (self.propose call accepted chan) w
        (fun self' t => (∀ c, self'.Registered c → H c) ∧ P t) fun t => P t := by
    intro call chan hc
    refine meets_of_eq_ok (propose_run call accepted chan) ⟨fun c hr => ?_, hcalled _ _ hw⟩
    obtain ⟨seq, hs⟩ := hr
    rcases lookup_propose hs with hs | ⟨-, rfl, -⟩
    · exact hreg c ⟨seq, hs⟩
    · exact hc
  cases message with
  | confChange change chan =>
    exact proposed (fun context => .proposeConfChange context change) chan hm
  | propose data chan => exact proposed (fun context => .propose context data) chan hm
  | raft message chan =>
    cases accepted with
    | true => exact ⟨hreg, hans _ _ _ hm (hcalled _ _ hw)⟩
    | false => exact ⟨hreg, hcalled _ _ hw⟩
  | transferLeader nodeId chan => exact ⟨hreg, hans _ _ _ hm (hcalled _ _ hw)⟩

/-- **The rule of a turn.** What its message leaves in `I`, and what every entry keeps that a
machine in `I` works off, a turn keeps. -/
theorem meets_turn_of_entries (turn : Turn) {I : RaftMachine → Prop} (hW : KeptByWrites P)
    (hI : ∀ core later, KeepsTable core later → I core → I later)
    (hev : ∀ w ev, ev.NotAnswer → P w → P (w.emit ev))
    (hmessage : turn.stop = false → ∀ message, turn.received = .message message →
      Meets (self.handleMessage turn.accepted message) w (fun core t => I core ∧ P t) fun t => P t)
    (hentry : ∀ c, turn.cycle = some c → ∀ e ∈ c.delivered, ∀ core t, I core → P t →
      Meets (core.handleEntry router.route c.toAnswers e) t
        (fun core' t => KeepsTable core core' ∧ P t) fun t => P t)
    (hself : (∀ message, turn.received ≠ .message message) → I self) (hw : P w) :
    Meets (self.turn router.route turn) w (fun o t => (∀ self' ∈ o, I self') ∧ P t)
      fun t => P t := by
  -- after its message, a turn ticks and works off its cycle
  have advanced : ∀ (core : RaftMachine) (t : World MachineEvent), I core → P t →
      Meets (core.advance router.route turn) t (fun core' t => I core' ∧ P t) fun t => P t := by
    intro core t hcore ht
    unfold advance
    rw [meets_bind]
    have ticked : Meets (tick turn.elapsed) t (fun _ t => P t) fun t => P t := by
      unfold tick
      split_ifs
      · exact hev _ _ (by rintro c e ⟨⟩) ht
      · exact ht
    refine ticked.mono (fun _ t₁ ht₁ => ?_) fun _ ht => ht
    -- the role is no part of the table
    have hrole : I { core with
        placementCluster := core.placementCluster.setRole turn.role } :=
      hI core _ ⟨rfl, fun _ _ h => h⟩ hcore
    dsimp only
    split
    · next c hc =>
      refine (meets_onReady hW (fun t addr data ht => hev t _ (by rintro c e ⟨⟩) ht)
        (fun e he core' t' hk ht' => hentry c hc e he core' t' (hI _ _ hk hrole) ht') ht₁).mono
          (fun core' t' h => ⟨hI _ _ h.1 hrole, h.2⟩) fun _ ht => ht
    · exact ⟨hrole, ht₁⟩
  -- a turn stops, serves a message, finds the channel closed, or waits in vain
  unfold RaftMachine.turn
  split_ifs with hstop
  · exact ⟨by rintro _ ⟨⟩, hw⟩
  · split
    · next message hrec =>
      rw [meets_bind]
      refine (hmessage (eq_false_of_ne_true hstop) message hrec).mono (fun core t h => ?_)
        fun _ ht => ht
      rw [meets_bind]
      refine (advanced core t h.1 h.2).mono (fun core' t' h' => ⟨?_, h'.2⟩) fun _ ht => ht
      rintro _ ⟨⟩
      exact h'.1
    · next hrec =>
      refine ⟨?_, hw⟩
      rintro _ ⟨⟩
      exact hself fun message hm => by cases hrec.symm.trans hm
    · next hrec =>
      have hidle := hself fun message hm => by cases hrec.symm.trans hm
      rw [meets_bind]
      refine (advanced self w hidle hw).mono (fun core' t' h' => ⟨?_, h'.2⟩) fun _ ht => ht
      rintro _ ⟨⟩
      exact h'.1

/-- **A turn answers only channels in `H`**, when the channel of its request and those in the table
are in `H`. -/
theorem meets_turn (turn : Turn) (hW : KeptByWrites P)
    (hev : ∀ w ev, ev.NotAnswer → P w → P (w.emit ev))
    (hans : ∀ w c e, H c → P w → P (w.emit (.responded c e)))
    (hm : ∀ message, turn.received = .message message → H message.chan)
    (hreg : ∀ c, self.Registered c → H c) (hw : P w) :
    Meets (self.turn router.route turn) w
      (fun o t => (∀ self' ∈ o, ∀ c, self'.Registered c → H c) ∧ P t) fun t => P t := by
  have hA : ∀ w ev, (∀ c e, ev = .responded c e → H c) → P w → P (w.emit ev) := by
    intro w ev ha hw
    cases ev with
    | responded c e => exact hans w c e (ha c e rfl) hw
    | _ => exact hev w _ (by rintro c e ⟨⟩) hw
  refine meets_turn_of_entries turn (I := fun core => ∀ c, core.Registered c → H c) hW
    (fun core later hk hcore c hr => hcore c (hk.registered hr)) hev ?_ ?_ (fun _ => hreg) hw
  · intro _ message hrec
    exact meets_handleMessage turn.accepted message (fun w call hw =>
      hev w _ (by rintro c e ⟨⟩) hw) hans (hm message hrec) hreg hw
  · intro c _ e _ core t hcore ht
    unfold handleEntry
    rw [meets_bind]
    refine (meets_applyEntry hW hA router c.toAnswers (by rintro c e ⟨⟩) (by rintro c e ⟨⟩) ht).mono
      (fun core₁ t₁ h₁ => ?_) fun _ ht => ht
    refine (meets_commitEntry hW hA (fun seq c _ hl => ?_) h₁.2).mono
      (fun core₂ t₂ h₂ => ⟨h₁.1.trans h₂.1, h₂.2⟩) fun _ ht => ht
    rintro d e ⟨⟩
    exact hcore c ⟨seq, h₁.1.lookup seq c hl⟩

end turns

end RaftMachine

end PlacementCenter.Raft
