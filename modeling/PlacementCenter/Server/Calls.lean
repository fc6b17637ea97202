import PlacementCenter.Raft.Answers
import PlacementCenter.Server.ServicesKv

/-!
# Calls of the raft machine

The callers of a process and its raft machine, with the queue between them and the oneshot channels
of the calls. The sender of a channel is with its caller, in the queue or with the machine; a
channel ends when the machine answers on it, or when nobody has its sender any more.

## Main definitions

* `Call`, `Process`: a call of `RaftMachineApply`, and the state of a process
* `Process.Taken c`: the sender of the channel is in the queue or with the machine
* `Process.Step route`: a call, a send, a turn of the machine, and the passage of time
* `Process.Reach route p`: the processes that these lead to
* `Process.reply`: what the caller is told, once it is told something
* `Process.Truthful`: the caller is told of success exactly when the machine answered

## Main results

* `tracked_of_reach`: how a channel ended is what the machine did with its sender
* `reply_stable`: what a caller was told stays
* `truthful_iff`: **a caller is told the truth** exactly when the sender of its channel is not
  dropped while it waits
-/

namespace PlacementCenter.Server

open Rust Rust.Prost Storage Raft Program

/-- A call of `RaftMachineApply`, with the time from which the caller waits for the answer, once
its message was sent. -/
structure Call where
  request : Request
  since : Option ℕ

/-- A process. The channel of a call is the place of the call; the fate of a channel is given with
the time of the clock. -/
structure Process where
  clock : ℕ
  calls : List Call
  queue : List RaftMessage
  machine : Option RaftMachine
  world : World MachineEvent
  fates : ChanId → Fate

/-- The capacity of the queue. -/
def queueCapacity : ℕ := 1000

/-- The event answers the channel. -/
def answersChan (c : ChanId) : MachineEvent → Bool
  | .responded c' _ => c' = c
  | _ => false

/-- What a turn of the machine takes from the queue, and what it leaves. -/
def takes (t : RaftMachine.Turn) (queue rest : List RaftMessage) : Prop :=
  match t.received with
  | .message message => queue = message :: rest
  | _ => queue = [] ∧ rest = []

instance (m : RaftMachine) (c : ChanId) : Decidable (m.Registered c) :=
  decidable_of_iff (∃ p ∈ m.respChannel.toList, p.2 = c) <| by
    constructor
    · rintro ⟨⟨seq, _⟩, hp, rfl⟩
      exact ⟨seq, Std.ExtTreeMap.mem_toList_iff_getElem?_eq_some.mp hp⟩
    · rintro ⟨seq, hs⟩
      exact ⟨(seq, c), Std.ExtTreeMap.mem_toList_iff_getElem?_eq_some.mpr hs, rfl⟩

namespace Process

/-- The process that comes up with a machine. -/
def start (m : RaftMachine) (w : World MachineEvent) : Process :=
  ⟨0, [], [], some m, w, fun _ => none⟩

/-- The caller has not sent its message yet. -/
def Sending (p : Process) (c : ChanId) : Prop := ∃ call ∈ p.calls[c]?, call.since = none

/-- The sender of the channel is in the queue or with the machine. -/
def Taken (p : Process) (c : ChanId) : Prop :=
  (∃ message ∈ p.queue, message.chan = c) ∨ ∃ m ∈ p.machine, m.Registered c

/-- The machine sent `Success` on the channel. -/
def Responded (p : Process) (c : ChanId) : Prop := ∃ ev ∈ p.world.events, answersChan c ev

instance (p : Process) (c : ChanId) : Decidable (p.Sending c) :=
  inferInstanceAs (Decidable (∃ call ∈ p.calls[c]?, call.since = none))

instance (p : Process) (c : ChanId) : Decidable (p.Taken c) :=
  inferInstanceAs (Decidable (_ ∨ _))

instance (p : Process) (c : ChanId) : Decidable (p.Responded c) :=
  inferInstanceAs (Decidable (∃ ev ∈ p.world.events, answersChan c ev))

/-! ### Steps -/

/-- A caller begins to wait. -/
def sent (p : Process) (c : ChanId) (call : Call) : Process :=
  { p with calls := p.calls.set c { call with since := some p.clock } }

/-- The fate of a channel after a turn: it ends at `time` when the machine answered on it, or when
its sender is nowhere any more. -/
def fateAfter (p after : Process) (time : ℕ) (c : ChanId) : Fate :=
  match p.fates c with
  | some fate => some fate
  | none =>
    if after.Responded c then some (time, some .success)
    else if p.Taken c ∧ ¬ after.Taken c then some (time, none)
    else none

/-- The contents after a turn of the machine, apart from the channels. The queue goes with the
machine, when the task stops or panics. -/
def turned (route : Route (World MachineEvent)) (p : Process) (m : RaftMachine) (t : RaftMachine.Turn)
    (rest : List RaftMessage) (clock : ℕ) : Process :=
  match m.turn route t p.world with
  | (.ok (some m'), w) => { p with clock := clock, queue := rest, machine := some m', world := w }
  | (.ok none, w) => { p with clock := clock, queue := [], machine := none, world := w }
  | (.panicked _, w) => { p with clock := clock, queue := [], machine := none, world := w }

/-- A turn of the machine until `clock`; `time` is when the sender of a channel is used or
dropped. -/
def afterTurn (route : Route (World MachineEvent)) (p : Process) (m : RaftMachine) (t : RaftMachine.Turn)
    (rest : List RaftMessage) (clock : ℕ) (time : ChanId → ℕ) : Process :=
  let after := p.turned route m t rest clock
  { after with fates := fun c => p.fateAfter after (time c) c }

/-- The steps of a process. -/
inductive Step (route : Route (World MachineEvent)) : Process → Process → Prop
  /-- A caller makes a channel and a message. -/
  | call (p : Process) (request : Request) :
    Step route p { p with calls := p.calls ++ [⟨request, none⟩] }
  /-- The queue takes a message. -/
  | send (p : Process) {c : ChanId} {call : Call} (hc : p.calls[c]? = some call)
    (hs : call.since = none) (hm : p.machine.isSome) (hq : p.queue.length < queueCapacity) :
    Step route p { p.sent c call with queue := p.queue ++ [call.request.message c] }
  /-- A message to a closed queue is dropped, and its channel with it. -/
  | refuse (p : Process) {c : ChanId} {call : Call} (hc : p.calls[c]? = some call)
    (hs : call.since = none) (hm : p.machine = none) :
    Step route p { p.sent c call with fates := Function.update p.fates c (some (p.clock, none)) }
  | turn (p : Process) {m : RaftMachine} (hm : p.machine = some m) (t : RaftMachine.Turn)
    (rest : List RaftMessage) (ht : takes t p.queue rest) (clock : ℕ) (time : ChanId → ℕ)
    (htime : ∀ c, p.clock ≤ time c ∧ time c ≤ clock) :
    Step route p (p.afterTurn route m t rest clock time)
  | pass (p : Process) {clock : ℕ} (h : p.clock ≤ clock) : Step route p { p with clock := clock }

/-- The processes that steps lead to, from a process that comes up over any contents. -/
inductive Reach (route : Route (World MachineEvent)) : Process → Prop
  | start {g : RaftGroupMetadata} {columns : Columns} {m : RaftMachine} {conf : Config}
    {w : World MachineEvent}
    (h : Completes (RaftMachine.boot g) (World.reopen columns []) (m, conf) w) :
    Reach route (start m w)
  | step {p p' : Process} (hr : Reach route p) (h : Step route p p') : Reach route p'

/-! ### What a caller is told -/

/-- What becomes of the channel, for a caller that waits since `since`. -/
def fateSince (p : Process) (c : ChanId) (since : ℕ) : Fate :=
  (p.fates c).map fun r => (r.1 - since, r.2)

/-- The caller is told something: its message was sent, and the channel or the time ended. -/
def Returned (p : Process) (c : ChanId) (call : Call) : Prop :=
  ∃ since ∈ call.since, (p.fates c).isSome ∨ since + waitLimit < p.clock

/-- What the caller is told. -/
def reply (p : Process) (c : ChanId) (call : Call) : Option (Except RobustMQError Unit) :=
  match call.since with
  | none => none
  | some since =>
    if (p.fates c).isSome ∨ since + waitLimit < p.clock then
      some (call.request.apply (fun _ => p.fateSince c since) c)
    else none

/-- The machine sent `Success` on the channel while the caller waited. -/
def Answered (p : Process) (c : ChanId) (call : Call) : Prop :=
  p.Responded c ∧ ∃ since ∈ call.since, ∃ r ∈ p.fates c, r.1 ≤ since + waitLimit

/-- The sender of the channel was dropped without an answer while the caller waited. -/
def Dropped (p : Process) (c : ChanId) (call : Call) : Prop :=
  ∃ since ∈ call.since, ∃ time, p.fates c = some (time, none) ∧ time ≤ since + waitLimit

/-- What `result` says of a call is true: success when the machine answered, a timeout otherwise;
and a write that the service acknowledges for it was answered. -/
structure TrueResult (p : Process) (c : ChanId) (call : Call) (result : Except RobustMQError Unit) :
    Prop where
  ok_iff : result = .ok () ↔ p.Answered c call
  error : ¬ p.Answered c call → result = .error (.raftLogCommitTimeout call.request.action)
  acknowledged : ∀ (write : Write) (clients : Clients) (g : RaftGroupMetadata),
    g.isLeader = true → call.request = .ofWrite write.data write.action →
      (∃ reply, write.reply clients (fun _ _ => result) g = .ok reply) → p.Answered c call

/-- The caller is told something, and it is true. -/
def Truthful (p : Process) (c : ChanId) (call : Call) : Prop :=
  ∃ result, p.reply c call = some result ∧ p.TrueResult c call result

/-! ### The senders of the channels -/

variable {router : Router MachineEvent} {p p' q : Process} {c : ChanId}

/-- How the channels of `p` ended is what the machine did with their senders. -/
structure Tracked (p : Process) : Prop where
  answered : ∀ c, p.Responded c ↔ ∃ time, p.fates c = some (time, some .success)
  not_fail : ∀ c time, p.fates c ≠ some (time, some .fail)
  dropped : ∀ c time, p.fates c = some (time, none) → ¬ p.Taken c
  sending : ∀ c, p.Sending c → p.fates c = none ∧ ¬ p.Taken c
  taken_lt : ∀ c, p.Taken c → c < p.calls.length
  fates_lt : ∀ c fate, p.fates c = some fate → c < p.calls.length
  closed : p.machine = none → p.queue = []

/-- What a turn of the machine does to the senders: none is taken anew, and only those that were
taken are used. -/
structure Turned (p q : Process) : Prop where
  calls : q.calls = p.calls
  taken : ∀ c, q.Taken c → p.Taken c
  responded : ∀ c, q.Responded c → p.Responded c ∨ p.Taken c
  kept : ∀ c, p.Responded c → q.Responded c
  closed : q.machine = none → q.queue = []

/-- The sender of a message that a turn takes was in the queue, as are those it leaves. -/
theorem taken_of_takes {t : RaftMachine.Turn} {rest : List RaftMessage}
    (ht : takes t p.queue rest) :
    (∀ message, t.received = .message message → p.Taken message.chan) ∧
      ∀ message ∈ rest, p.Taken message.chan := by
  unfold takes at ht
  -- only a message takes the head of the queue
  cases hr : t.received with
  | message message =>
    rw [hr] at ht
    have hq : p.queue = message :: rest := ht
    refine ⟨?_, fun message' hm => .inl ⟨message', ?_, rfl⟩⟩
    · rintro _ ⟨⟩
      exact .inl ⟨message, by rw [hq]; exact List.mem_cons_self, rfl⟩
    · rw [hq]
      exact List.mem_cons_of_mem _ hm
  | closed =>
    rw [hr] at ht
    refine ⟨?_, ?_⟩
    · rintro _ ⟨⟩
    · rw [ht.2]
      rintro _ ⟨⟩
  | elapsed =>
    rw [hr] at ht
    refine ⟨?_, ?_⟩
    · rintro _ ⟨⟩
    · rw [ht.2]
      rintro _ ⟨⟩

/-- The events `es` are those of `p` and more, which answer taken channels only. -/
structure Grown (p : Process) (es : List MachineEvent) : Prop where
  kept : ∀ ev ∈ p.world.events, ev ∈ es
  responded : ∀ c, (∃ ev ∈ es, answersChan c ev) → p.Responded c ∨ p.Taken c

theorem Grown.cons {es : List MachineEvent} (h : p.Grown es) {ev : MachineEvent}
    (hev : ∀ c, answersChan c ev → p.Taken c) : p.Grown (ev :: es) where
  kept ev' h' := List.mem_cons_of_mem _ (h.kept ev' h')
  responded := by
    rintro c ⟨ev', hmem, ha⟩
    rcases List.mem_cons.mp hmem with rfl | hmem
    · exact .inr (hev c ha)
    · exact h.responded c ⟨ev', hmem, ha⟩

theorem answersChan_iff {ev : MachineEvent} :
    answersChan c ev ↔ ∃ e, ev = .responded c e := by
  cases ev with
  | responded c' e =>
    constructor
    · intro h
      exact ⟨e, by rw [of_decide_eq_true h]⟩
    · rintro ⟨e', h⟩
      cases h
      exact decide_eq_true rfl
  | _ => simp [answersChan]

/-- **What a turn does to the senders of the channels.** -/
theorem turned_turned {m : RaftMachine} (hm : p.machine = some m) {t : RaftMachine.Turn}
    {rest : List RaftMessage} (ht : takes t p.queue rest) (clock : ℕ) :
    Turned p (p.turned router.route m t rest clock) := by
  obtain ⟨hmessage, hrest⟩ := taken_of_takes ht
  -- the turn answers taken channels only, and registers only these
  have meets : Meets (m.turn router.route t) p.world
      (fun o w => (∀ m' ∈ o, ∀ c, m'.Registered c → p.Taken c) ∧ p.Grown w.events)
      fun w => p.Grown w.events := by
    refine RaftMachine.meets_turn (H := p.Taken) t ⟨fun _ _ _ h => h, fun _ _ h => h⟩ ?_ ?_ hmessage
      ?_ ?_
    · intro w ev hev h
      refine h.cons fun c hc => ?_
      obtain ⟨e, rfl⟩ := answersChan_iff.mp hc
      exact absurd rfl (hev c e)
    · intro w c e hc h
      refine h.cons fun c' hc' => ?_
      obtain ⟨e', he⟩ := answersChan_iff.mp hc'
      cases he
      exact hc
    · exact fun c hc => .inr ⟨m, hm, hc⟩
    · exact ⟨fun _ h => h, fun c h => .inl h⟩
  -- a machine that stops drops its channels, and so does one that panics
  have stopped : ∀ {w : World MachineEvent}, p.Grown w.events → Turned p
      { p with clock := clock, queue := [], machine := none, world := w } := by
    intro w hw
    refine ⟨rfl, ?_, hw.responded, ?_, fun _ => rfl⟩
    · rintro c (⟨_, hmem, -⟩ | ⟨_, hmem, -⟩)
      · cases hmem
      · cases hmem
    · rintro c ⟨ev, hmem, ha⟩
      exact ⟨ev, hw.kept ev hmem, ha⟩
  unfold turned
  unfold Meets at meets
  rcases hrun : m.turn router.route t p.world with ⟨⟨_ | m'⟩ | msg, w⟩
  · rw [hrun] at meets
    exact stopped meets.2
  · rw [hrun] at meets
    refine ⟨rfl, ?_, meets.2.responded, ?_, ?_⟩
    · rintro c (⟨message, hmem, rfl⟩ | ⟨m₀, hmem, hc⟩)
      · exact hrest message hmem
      · cases hmem
        exact meets.1 m' rfl c hc
    · rintro c ⟨ev, hmem, ha⟩
      exact ⟨ev, meets.2.kept ev hmem, ha⟩
    · rintro ⟨⟩
  · rw [hrun] at meets
    exact stopped meets

theorem fateAfter_of_some {fate : ℕ × Option RaftResponseMesage} (hf : p.fates c = some fate)
    (q : Process) (time : ℕ) : p.fateAfter q time c = some fate := by
  rw [fateAfter, hf]

theorem fateAfter_of_none (hf : p.fates c = none) (q : Process) (time : ℕ) :
    p.fateAfter q time c =
      if q.Responded c then some (time, some .success)
      else if p.Taken c ∧ ¬ q.Taken c then some (time, none)
      else none := by
  rw [fateAfter, hf]

/-- A channel that a turn ends was taken. -/
theorem Turned.taken_of_ends (h : Tracked p) (ht : Turned p q) (hf : p.fates c = none) {time : ℕ}
    {fate : ℕ × Option RaftResponseMesage} (hq : p.fateAfter q time c = some fate) :
    p.Taken c := by
  rw [fateAfter_of_none hf] at hq
  split_ifs at hq with hr hd
  · rcases ht.responded c hr with hp | hp
    · -- an answer from before would have ended it
      obtain ⟨time', hs⟩ := (h.answered c).mp hp
      rw [hf] at hs
      cases hs
    · exact hp
  · exact hd.1

/-- **A turn keeps the account of the channels.** -/
theorem Tracked.turned (h : Tracked p) (ht : Turned p q) (time : ChanId → ℕ) :
    Tracked { q with fates := fun c => p.fateAfter q (time c) c } where
  answered c := by
    change q.Responded c ↔ ∃ t, p.fateAfter q (time c) c = some (t, some .success)
    cases hf : p.fates c with
    | some fate =>
      rw [fateAfter_of_some hf, ← hf, ← h.answered]
      refine ⟨fun hr => ?_, ht.kept c⟩
      rcases ht.responded c hr with hp | hp
      · exact hp
      · -- its sender is taken, so it ended with an answer
        obtain ⟨t, _ | _ | _⟩ := fate
        · exact absurd hp (h.dropped c t hf)
        · exact (h.answered c).mpr ⟨t, hf⟩
        · exact absurd hf (h.not_fail c t)
    | none =>
      rw [fateAfter_of_none hf]
      split_ifs with hr hd
      · exact ⟨fun _ => ⟨_, rfl⟩, fun _ => hr⟩
      · exact ⟨fun hr' => absurd hr' hr, by rintro ⟨t, ht⟩; cases ht⟩
      · exact ⟨fun hr' => absurd hr' hr, by rintro ⟨t, ht⟩; cases ht⟩
  not_fail c t := by
    change p.fateAfter q (time c) c ≠ _
    cases hf : p.fates c with
    | some fate =>
      rw [fateAfter_of_some hf, ← hf]
      exact h.not_fail c t
    | none =>
      rw [fateAfter_of_none hf]
      split_ifs <;> simp
  dropped c t hd := by
    change p.fateAfter q (time c) c = _ at hd
    change ¬ q.Taken c
    cases hf : p.fates c with
    | some fate =>
      rw [fateAfter_of_some hf, ← hf] at hd
      -- a channel that was dropped does not come back
      exact fun hq => h.dropped c t hd (ht.taken c hq)
    | none =>
      rw [fateAfter_of_none hf] at hd
      split_ifs at hd with hr hd'
      · cases hd
      · exact hd'.2
  sending c hs := by
    change p.fateAfter q (time c) c = none ∧ ¬ q.Taken c
    -- the message of the call was not sent yet, so that its channel is not taken
    have hs' : p.Sending c := by
      rw [Sending, ← ht.calls]
      exact hs
    obtain ⟨hf, hnot⟩ := h.sending c hs'
    refine ⟨?_, fun hq => hnot (ht.taken c hq)⟩
    cases hq : p.fateAfter q (time c) c with
    | none => rfl
    | some fate => exact absurd (ht.taken_of_ends h hf hq) hnot
  taken_lt c hq := by
    change c < q.calls.length
    rw [ht.calls]
    exact h.taken_lt c (ht.taken c hq)
  fates_lt c fate hq := by
    change c < q.calls.length
    rw [ht.calls]
    cases hf : p.fates c with
    | some fate' => exact h.fates_lt c fate' hf
    | none => exact h.taken_lt c (ht.taken_of_ends h hf hq)
  closed := ht.closed

/-- The calls of a process once a caller sent its message. -/
theorem sending_sent {call : Call} (hc : p.calls[c]? = some call) {d : ChanId} :
    (p.sent c call).Sending d ↔ p.Sending d ∧ d ≠ c := by
  unfold Sending sent
  dsimp only
  by_cases hd : d = c
  · subst hd
    simp [List.getElem?_set, hc]
  · simp [List.getElem?_set_ne (Ne.symm hd), hd]

/-- A new call has the next channel. -/
theorem sending_append {request : Request} {d : ChanId}
    (hd : ({ p with calls := p.calls ++ [⟨request, none⟩] } : Process).Sending d) :
    p.Sending d ∨ d = p.calls.length := by
  obtain ⟨call, hc, hs⟩ := hd
  rcases Nat.lt_trichotomy d p.calls.length with hlt | heq | hgt
  · refine .inl ⟨call, ?_, hs⟩
    rwa [List.getElem?_append_left hlt] at hc
  · exact .inr heq
  · rw [List.getElem?_eq_none (by simp; omega)] at hc
    cases hc

theorem Tracked.call (h : Tracked p) (request : Request) :
    Tracked { p with calls := p.calls ++ [⟨request, none⟩] } where
  answered := h.answered
  not_fail := h.not_fail
  dropped := h.dropped
  sending d hd := by
    rcases sending_append hd with hd | rfl
    · exact h.sending d hd
    · refine ⟨?_, fun hq => absurd (h.taken_lt _ hq) (Nat.lt_irrefl _)⟩
      cases hf : p.fates p.calls.length with
      | none => rfl
      | some fate => exact absurd (h.fates_lt _ fate hf) (Nat.lt_irrefl _)
  taken_lt c hc := by
    rw [List.length_append]
    exact Nat.lt_add_right 1 (h.taken_lt c hc)
  fates_lt c fate hf := by
    rw [List.length_append]
    exact Nat.lt_add_right 1 (h.fates_lt c fate hf)
  closed := h.closed

theorem Tracked.send (h : Tracked p) {call : Call} (hc : p.calls[c]? = some call)
    (hs : call.since = none) (hm : p.machine.isSome) :
    Tracked { p.sent c call with queue := p.queue ++ [call.request.message c] } := by
  have hsending : p.Sending c := ⟨call, hc, hs⟩
  have hlt : c < p.calls.length := (List.getElem?_eq_some_iff.mp hc).1
  -- only the new channel is taken anew
  have taken : ∀ d, ({ p.sent c call with
      queue := p.queue ++ [call.request.message c] } : Process).Taken d → p.Taken d ∨ d = c := by
    rintro d (⟨message, hmem, rfl⟩ | hd)
    · rcases List.mem_append.mp hmem with hmem | hmem
      · exact .inl (.inl ⟨message, hmem, rfl⟩)
      · rw [List.mem_singleton.mp hmem, Request.chan_message]
        exact .inr rfl
    · exact .inl (.inr hd)
  constructor
  · exact h.answered
  · exact h.not_fail
  -- a channel that was dropped is not taken again: the new one has not ended
  · intro d time hd hq
    rcases taken d hq with hq | rfl
    · exact h.dropped d time hd hq
    · have hnone : p.fates d = none := (h.sending d hsending).1
      exact absurd (hnone.symm.trans hd) (by simp)
  -- the other callers still have their senders
  · intro d hd
    obtain ⟨hd, hne⟩ := (sending_sent hc).mp hd
    refine ⟨(h.sending d hd).1, fun hq => ?_⟩
    rcases taken d hq with hq | rfl
    · exact (h.sending d hd).2 hq
    · exact hne rfl
  · intro d hq
    rw [show (p.sent c call).calls.length = p.calls.length from List.length_set]
    rcases taken d hq with hq | rfl
    · exact h.taken_lt d hq
    · exact hlt
  · intro d fate hf
    rw [show (p.sent c call).calls.length = p.calls.length from List.length_set]
    exact h.fates_lt d fate hf
  · intro hnone
    rw [show p.machine = none from hnone] at hm
    cases hm

theorem Tracked.refuse (h : Tracked p) {call : Call} (hc : p.calls[c]? = some call)
    (hs : call.since = none) (hm : p.machine = none) :
    Tracked { p.sent c call with
      fates := Function.update p.fates c (some (p.clock, none)) } := by
  have hopen := h.sending c ⟨call, hc, hs⟩
  have hlt : c < p.calls.length := (List.getElem?_eq_some_iff.mp hc).1
  -- nothing is taken any more
  have not_taken : ∀ d, ¬ p.Taken d := by
    rintro d (⟨message, hmem, -⟩ | ⟨m, hmem, -⟩)
    · rw [h.closed hm] at hmem
      cases hmem
    · rw [hm] at hmem
      cases hmem
  constructor
  -- an answer is never the end of the refused channel
  · intro d
    change p.Responded d ↔ ∃ time, Function.update p.fates c _ d = _
    by_cases hd : d = c
    · subst hd
      rw [Function.update_self, h.answered, hopen.1]
      simp
    · rw [Function.update_of_ne hd]
      exact h.answered d
  · intro d time
    change Function.update p.fates c _ d ≠ _
    by_cases hd : d = c
    · subst hd
      rw [Function.update_self]
      simp
    · rw [Function.update_of_ne hd]
      exact h.not_fail d time
  · exact fun d _ _ => not_taken d
  · intro d hd
    obtain ⟨hd, hne⟩ := (sending_sent hc).mp hd
    change Function.update p.fates c _ d = none ∧ _
    rw [Function.update_of_ne hne]
    exact ⟨(h.sending d hd).1, not_taken d⟩
  · exact fun d hq => absurd hq (not_taken d)
  · intro d fate hf
    change Function.update p.fates c _ d = _ at hf
    rw [show (p.sent c call).calls.length = p.calls.length from List.length_set]
    by_cases hd : d = c
    · subst hd
      exact hlt
    · rw [Function.update_of_ne hd] at hf
      exact h.fates_lt d fate hf
  · exact h.closed

theorem tracked_step (h : Tracked p) (hs : Step router.route p p') : Tracked p' := by
  cases hs with
  | call request => exact h.call request
  | send hc hs hm hq => exact h.send hc hs hm
  | refuse hc hs hm => exact h.refuse hc hs hm
  | turn hm t rest ht clock time htime => exact h.turned (turned_turned hm ht clock) time
  | pass hclock =>
    exact ⟨h.answered, h.not_fail, h.dropped, h.sending, h.taken_lt, h.fates_lt, h.closed⟩

theorem tracked_start {g : RaftGroupMetadata} {columns : Columns} {m : RaftMachine}
    {conf : Config} {w : World MachineEvent}
    (h : Completes (RaftMachine.boot g) (World.reopen columns []) (m, conf) w) :
    Tracked (start m w) := by
  obtain ⟨st, hs, cs, rfl, -, -, -, rfl⟩ := completes_boot h
  have not_taken : ∀ c, ¬ (start (.new g st)
      (putRecord (World.reopen columns []) .confState
        (encodeToVec { cs with voters := g.nodeIds }))).Taken c := by
    rintro c (⟨_, hmem, -⟩ | ⟨_, hmem, seq, hseq⟩)
    · cases hmem
    · cases hmem
      exact absurd hseq (by simp [RaftMachine.new])
  -- nothing happened yet, so every part holds of nothing
  constructor
  · intro c
    constructor
    · rintro ⟨_, hmem, -⟩
      cases hmem
    · rintro ⟨_, hf⟩
      cases hf
  · rintro c time ⟨⟩
  · rintro c time ⟨⟩
  · rintro c ⟨_, hmem, -⟩
    cases hmem
  · exact fun c hc => absurd hc (not_taken c)
  · rintro c fate ⟨⟩
  · rintro ⟨⟩

/-- **How a channel ended is what the machine did with its sender**, in every process. -/
theorem tracked_of_reach (h : Reach router.route p) : Tracked p := by
  induction h with
  | start h => exact tracked_start h
  | step _ hs ih => exact tracked_step ih hs

/-! ### What callers are told -/

variable {call : Call}

theorem reply_eq_some {result : Except RobustMQError Unit} :
    p.reply c call = some result ↔ ∃ since ∈ call.since,
      ((p.fates c).isSome ∨ since + waitLimit < p.clock) ∧
        call.request.apply (fun _ => p.fateSince c since) c = result := by
  unfold reply
  cases call.since with
  | none => simp
  | some since => simp

/-- **A caller is told something** when the time is over. -/
theorem reply_isSome_iff : (p.reply c call).isSome ↔ p.Returned c call := by
  rw [Option.isSome_iff_exists]
  constructor
  · rintro ⟨result, h⟩
    obtain ⟨since, hs, hr, -⟩ := reply_eq_some.mp h
    exact ⟨since, hs, hr⟩
  · rintro ⟨since, hs, hr⟩
    exact ⟨_, reply_eq_some.mpr ⟨since, hs, hr, rfl⟩⟩

/-- A caller is told of success when its channel ended in time. -/
theorem apply_fateSince_eq_ok {since : ℕ} :
    call.request.apply (fun _ => p.fateSince c since) c = .ok () ↔
      ∃ r, p.fates c = some r ∧ r.1 ≤ since + waitLimit := by
  rw [Request.apply_eq_ok, fateSince]
  constructor
  · rintro ⟨t, a, hf, ht⟩
    obtain ⟨r, hr, he⟩ := Option.map_eq_some_iff.mp hf
    cases he
    exact ⟨r, hr, by omega⟩
  · rintro ⟨r, hr, ht⟩
    exact ⟨r.1 - since, r.2, by rw [hr, Option.map_some], by omega⟩

/-- A channel that ended in time was answered or dropped. -/
theorem Tracked.answered_or_dropped (h : Tracked p) {since : ℕ} (hs : call.since = some since)
    {r : ℕ × Option RaftResponseMesage} (hr : p.fates c = some r) (ht : r.1 ≤ since + waitLimit) :
    p.Answered c call ∧ ¬ p.Dropped c call ∨ ¬ p.Answered c call ∧ p.Dropped c call := by
  -- the end of the channel tells which
  obtain ⟨t, a⟩ := r
  cases a with
  | none =>
    right
    refine ⟨?_, since, hs, t, hr, ht⟩
    rintro ⟨hresp, -⟩
    obtain ⟨t', hf⟩ := (h.answered c).mp hresp
    rw [hr] at hf
    cases hf
  | some a =>
    cases a with
    | success =>
      left
      refine ⟨⟨(h.answered c).mpr ⟨t, hr⟩, since, hs, _, hr, ht⟩, ?_⟩
      rintro ⟨_, -, t', hf, -⟩
      rw [hr] at hf
      cases hf
    | fail => exact absurd hr (h.not_fail c t)

/-- What a caller is told is true, unless the sender of its channel was dropped. -/
theorem Tracked.trueResult_iff (h : Tracked p) {since : ℕ} (hs : call.since = some since) :
    p.TrueResult c call (call.request.apply (fun _ => p.fateSince c since) c) ↔
      ¬ p.Dropped c call := by
  -- success is told of a channel that ended in time
  by_cases hok : call.request.apply (fun _ => p.fateSince c since) c = .ok ()
  · obtain ⟨r, hr, ht⟩ := apply_fateSince_eq_ok.mp hok
    rcases h.answered_or_dropped hs hr ht with ⟨ha, hd⟩ | ⟨ha, hd⟩
    · refine iff_of_true ⟨iff_of_true hok ha, fun hna => absurd ha hna, ?_⟩ hd
      exact fun _ _ _ _ _ _ => ha
    · -- the dropped sender reads as an answer
      exact iff_of_false (fun htrue => ha (htrue.ok_iff.mp hok)) fun hnd => hnd hd
  · have not_ended : ¬ ∃ r, p.fates c = some r ∧ r.1 ≤ since + waitLimit :=
      fun hended => hok (apply_fateSince_eq_ok.mpr hended)
    have hna : ¬ p.Answered c call := by
      rintro ⟨-, since', hs', r, hr, ht⟩
      cases hs.symm.trans hs'
      exact not_ended ⟨r, hr, ht⟩
    have hnd : ¬ p.Dropped c call := by
      rintro ⟨since', hs', t, hf, ht⟩
      cases hs.symm.trans hs'
      exact not_ended ⟨_, hf, ht⟩
    refine iff_of_true ⟨iff_of_false hok hna, fun _ => Request.apply_eq_error hok, ?_⟩ hnd
    intro write clients g hleader _ hack
    exact absurd ((Write.reply_eq_ok hleader write).mp hack).2 hok

/-- **A caller is told the truth** exactly when it is told something and the sender of its channel
was not dropped while it waited. -/
theorem truthful_iff (h : Reach router.route p) :
    p.Truthful c call ↔ p.Returned c call ∧ ¬ p.Dropped c call := by
  have tracked := tracked_of_reach h
  constructor
  · rintro ⟨result, hreply, htrue⟩
    obtain ⟨since, hs, hr, rfl⟩ := reply_eq_some.mp hreply
    exact ⟨⟨since, hs, hr⟩, (tracked.trueResult_iff hs).mp htrue⟩
  · rintro ⟨⟨since, hs, hr⟩, hd⟩
    exact ⟨_, reply_eq_some.mpr ⟨since, hs, hr, rfl⟩, (tracked.trueResult_iff hs).mpr hd⟩

/-! ### What a caller was told stays -/

theorem clock_turned (route : Route (World MachineEvent)) (m : RaftMachine) (t : RaftMachine.Turn)
    (rest : List RaftMessage) (clock : ℕ) : (p.turned route m t rest clock).clock = clock := by
  unfold turned
  rcases m.turn route t p.world with ⟨⟨_ | _⟩ | _, _⟩ <;> rfl

/-- A step ends channels at no earlier time than that of the clock, and leaves the others. -/
theorem fates_step (h : Tracked p) (hs : Step router.route p p') (c : ChanId) :
    p'.fates c = p.fates c ∨ p.fates c = none ∧ ∀ r ∈ p'.fates c, p.clock ≤ r.1 := by
  cases hs with
  | call request => exact .inl rfl
  | send hc hs hm hq => exact .inl rfl
  -- the sender is dropped at once
  | @refuse d call hc hs hm =>
    by_cases hd : c = d
    · subst hd
      refine .inr ⟨(h.sending c ⟨call, hc, hs⟩).1, ?_⟩
      intro r hr
      change Function.update p.fates c _ c = _ at hr
      rw [Function.update_self] at hr
      cases hr
      exact Nat.le_refl p.clock
    · exact .inl (Function.update_of_ne hd _ _)
  -- a channel that had ended stays; another one ends within the turn
  | @turn m hm t rest ht clock time htime =>
    change p.fateAfter (p.turned router.route m t rest clock) (time c) c = _ ∨ _ ∧
      ∀ r ∈ p.fateAfter (p.turned router.route m t rest clock) (time c) c, _
    cases hf : p.fates c with
    | some fate => exact .inl (fateAfter_of_some hf _ _)
    | none =>
      refine .inr ⟨rfl, ?_⟩
      intro r hr
      rw [fateAfter_of_none hf] at hr
      split_ifs at hr
      · cases hr
        exact (htime c).1
      · cases hr
        exact (htime c).1
      · cases hr
  | pass hclock => exact .inl rfl

theorem clock_le_step (hs : Step router.route p p') : p.clock ≤ p'.clock := by
  cases hs with
  | call request => exact Nat.le_refl p.clock
  | send hc hs hm hq => exact Nat.le_refl p.clock
  | refuse hc hs hm => exact Nat.le_refl p.clock
  | turn hm t rest ht clock time htime =>
    change p.clock ≤ (p.turned router.route _ t rest clock).clock
    rw [clock_turned]
    exact Nat.le_trans (htime 0).1 (htime 0).2
  | pass hclock => exact hclock

/-- **What a caller was told stays**, whatever happens to its channel later. -/
theorem reply_stable (h : Reach router.route p) (hs : Step router.route p p')
    {result : Except RobustMQError Unit} (hr : p.reply c call = some result) :
    p'.reply c call = some result := by
  have tracked := tracked_of_reach h
  have hclock := clock_le_step hs
  obtain ⟨since, hsince, hret, rfl⟩ := reply_eq_some.mp hr
  refine reply_eq_some.mpr ⟨since, hsince, ?_⟩
  -- the channel stays as it was, or ends now
  rcases fates_step tracked hs c with hf | ⟨hnone, hlate⟩
  · refine ⟨?_, by rw [fateSince, fateSince, hf]⟩
    rw [hf]
    exact hret.imp_right fun hlt => Nat.lt_of_lt_of_le hlt hclock
  · -- the time was over before
    have hover : since + waitLimit < p.clock := by
      rw [hnone] at hret
      simpa using hret
    have before : call.request.apply (fun _ => p.fateSince c since) c ≠ .ok () := by
      intro hok
      obtain ⟨r, hf, -⟩ := apply_fateSince_eq_ok.mp hok
      rw [hnone] at hf
      cases hf
    have after : call.request.apply (fun _ => p'.fateSince c since) c ≠ .ok () := by
      intro hok
      obtain ⟨r, hf, ht⟩ := apply_fateSince_eq_ok.mp hok
      have := hlate r hf
      omega
    refine ⟨.inr (Nat.lt_of_lt_of_le hover hclock), ?_⟩
    rw [Request.apply_eq_error before, Request.apply_eq_error after]

/-! ### A call that the node rejects -/

/-- A turn that takes a message, which the node takes or rejects. -/
def oneTurn (message : RaftMessage) (accepted : Bool) : RaftMachine.Turn where
  stop := false
  received := .message message
  accepted := accepted
  elapsed := false
  role := .leader
  cycle := none

/-- A process whose only message is in the queue. -/
def oneSent (request : Request) : Process :=
  { start booted.1.1 booted.2 with
    calls := [⟨request, some 0⟩]
    queue := [request.message 0] }

/-- The process after the turn that takes it. -/
def oneCall (request : Request) (accepted : Bool) : Process :=
  (oneSent request).afterTurn DataRoute.route booted.1.1 (oneTurn (request.message 0) accepted) [] 0
    fun _ => 0

theorem reach_oneCall (request : Request) (accepted : Bool) :
    Reach dataRoute.route (oneCall request accepted) := by
  have h₀ : Reach dataRoute.route (start booted.1.1 booted.2) := .start completes_booted
  have h₁ := h₀.step (.call _ request)
  have h₂ := h₁.step (.send _ (c := 0) rfl rfl rfl (by decide : 0 < queueCapacity))
  exact h₂.step (.turn (oneSent request) rfl (oneTurn (request.message 0) accepted) [] rfl 0 _
    fun _ => ⟨Nat.le_refl 0, Nat.le_refl 0⟩)

/-- A transfer of the leadership is answered, and its caller is told so. -/
theorem truthful_transferLeader :
    (oneCall (.transferLeader 1) true).Truthful 0 ⟨.transferLeader 1, some 0⟩ := by
  refine (truthful_iff (reach_oneCall (.transferLeader 1) true)).mpr ⟨⟨0, rfl, .inl ?_⟩, ?_⟩
  · decide +kernel
  · rintro ⟨since, -, time, hf, -⟩
    have hended : (oneCall (.transferLeader 1) true).fates 0 = some (0, some .success) := by
      decide +kernel
    rw [hended] at hf
    cases hf

/-- The request of a client that sets the key `a`. -/
def setRequest : Request := .ofWrite (Write.set ⟨"a", "b"⟩).data (Write.set ⟨"a", "b"⟩).action

/-- A node that reaches no other one. -/
def noClients : Clients where
  placementSet _ _ := .error (.raftLogCommitTimeout "")
  placementDelete _ _ := .error (.raftLogCommitTimeout "")

/-- The node rejects the proposal of a write; its caller is told of success, and the service
acknowledges the write. -/
theorem rejected_write_acknowledged :
    Reach dataRoute.route (oneCall setRequest false) ∧
      (oneCall setRequest false).calls[0]? = some ⟨setRequest, some 0⟩ ∧
      (oneCall setRequest false).reply 0 ⟨setRequest, some 0⟩ = some (.ok ()) ∧
      (∃ reply, (Write.set ⟨"a", "b"⟩).reply noClients (fun _ _ => .ok ()) ⟨none, .leader, ∅⟩ =
        .ok reply) ∧
      ¬ (oneCall setRequest false).Responded 0 ∧
      ¬ (oneCall setRequest false).Truthful 0 ⟨setRequest, some 0⟩ := by
  have hreach := reach_oneCall setRequest false
  have hended : (oneCall setRequest false).fates 0 = some (0, none) := by decide +kernel
  have hreply : (oneCall setRequest false).reply 0 ⟨setRequest, some 0⟩ = some (.ok ()) := by
    refine reply_eq_some.mpr ⟨0, rfl, .inl ?_, apply_fateSince_eq_ok.mpr ⟨_, hended, ?_⟩⟩
    · rw [hended]
      rfl
    · exact Nat.zero_le _
  refine ⟨hreach, rfl, hreply, ⟨{}, rfl⟩, ?_, ?_⟩
  · intro hr
    obtain ⟨t, hf⟩ := ((tracked_of_reach hreach).answered 0).mp hr
    rw [hended] at hf
    cases hf
  · -- told of success, though nothing was answered
    rintro ⟨result, hres, htrue⟩
    cases hreply.symm.trans hres
    obtain ⟨t, hf⟩ := ((tracked_of_reach hreach).answered 0).mp (htrue.ok_iff.mp rfl).1
    rw [hended] at hf
    cases hf

end Process

end PlacementCenter.Server
