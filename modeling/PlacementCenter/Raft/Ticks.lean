import PlacementCenter.Raft.Letters

/-!
# The ticks of the node

The loop of the raft machine ticks the node when a heartbeat has passed since the last tick. It
looks at the clock once in every turn, after it waited for the queue, which takes a heartbeat when
nothing comes. A turn that finds the queue closed goes on to the next one before it looks.

## Main definitions

* `ticksIn`: how often the node was ticked
* `Ticking`: the loop with its `now`, the clock, and the turns that ticked
* `Ticking.Next`: a turn while the queue is open
* `Ticking.Open`, `Closed`: the turns while the queue is open, and once it is closed
* `Ticking.Spaced limit`: two ticks, one after the other, when a turn takes `limit` at most
* `Ticking.Paced router begun limit s s'`: when the node was ticked, and is ticked next

## Main results

* `meets_turn_ticks`: a turn ticks the node once, when a heartbeat has passed, or not at all
* `paced_of_run`: **ticks are a heartbeat apart at least**, and come as soon as the turns allow,
  until the queue is closed
-/

namespace PlacementCenter.Raft

open Rust Storage Program

/-- The event ticks the node. -/
def MachineEvent.isTick : MachineEvent → Bool
  | .called .tick => true
  | _ => false

/-- How often the node was ticked. -/
def ticksIn (events : List MachineEvent) : ℕ := events.countP MachineEvent.isTick

/-- The node was ticked `n` times. -/
def Ticked (n : ℕ) (w : World MachineEvent) : Prop := ticksIn w.events = n

theorem Ticked.emit {n : ℕ} {w : World MachineEvent} (h : Ticked n w) {ev : MachineEvent}
    (hev : ev.isTick = false) : Ticked n (w.emit ev) := by
  rw [Ticked, ticksIn, World.events_emit, List.countP_cons_of_neg (by simp [hev])]
  exact h

theorem Ticked.tick {n : ℕ} {w : World MachineEvent} (h : Ticked n w) :
    Ticked (n + 1) (w.emit (.called .tick)) := by
  rw [Ticked, ticksIn, World.events_emit, List.countP_cons_of_pos rfl]
  exact congrArg (· + 1) h

namespace RaftMachine

/-- `heartbeat` of `run`, in milliseconds. -/
def heartbeat : ℕ := 100

variable {self : RaftMachine} {w t : World MachineEvent} {n : ℕ} {router : Router MachineEvent}

/-- Nothing ticks but a tick. -/
theorem keptByEntries_ticked (n : ℕ) : KeptByEntries (Ticked n) where
  writes := ⟨fun _ _ _ h => h, fun _ _ h => h⟩
  routed _ _ h := h.emit rfl
  applied _ _ h := h.emit rfl
  responded _ _ _ h := h.emit rfl

theorem handleMessage_ticked (accepted : Bool) (message : RaftMessage) (h : Ticked n w) :
    Meets (self.handleMessage accepted message) w (fun _ t => Ticked n t) fun _ => False := by
  have proposed : ∀ (call : Bytes → RaftCall) chan,
      (∀ context, MachineEvent.isTick (.called (call context)) = false) →
        Meets (self.propose call accepted chan) w (fun _ t => Ticked n t) fun _ => False :=
    fun call chan hcall => meets_of_eq_ok (propose_run call accepted chan) (h.emit (hcall _))
  cases message with
  | confChange change chan =>
    exact proposed (fun context => .proposeConfChange context change) chan fun _ => rfl
  | propose data chan => exact proposed (fun context => .propose context data) chan fun _ => rfl
  | raft message chan =>
    have hstep : Ticked n (w.emit (.called (.step message))) := h.emit rfl
    cases accepted with
    | true => exact hstep.emit rfl
    | false => exact hstep
  | transferLeader nodeId chan =>
    have hcalled : Ticked n (w.emit (.called (.transferLeader nodeId))) := h.emit rfl
    exact hcalled.emit rfl

/-- The part of a turn after the queue was asked. -/
theorem meets_advance_ticks (turn : Turn) (h : Ticked n t) :
    Meets (self.advance router.route turn) t (fun _ u => Ticked (n + turn.elapsed.toNat) u)
      fun _ => True := by
  unfold advance
  rw [meets_bind]
  have ticked : Meets (tick turn.elapsed) t (fun _ u => Ticked (n + turn.elapsed.toNat) u)
      fun _ => False := by
    unfold tick
    cases turn.elapsed with
    | true => exact h.tick
    | false => exact h
  refine ticked.mono (fun _ u hu => ?_) fun _ hu => hu.elim
  dsimp only
  cases turn.cycle with
  | none => exact hu
  | some c =>
    -- nothing that a cycle does is a tick
    refine (meets_onReady (keptByEntries_ticked _).writes (fun w addr data hw => hw.emit rfl)
      (fun e _ core t _ ht => (keptByEntries_ticked _).meets_handleEntry e ht) hu).mono
        (fun _ v hv => hv.2) fun _ _ => trivial

/-- **A turn ticks the node once**, when a heartbeat has passed, or not at all. -/
theorem meets_turn_ticks (turn : Turn) (h : Ticked n w) :
    Meets (self.turn router.route turn) w
      (fun o t => o.isSome → turn.received ≠ .closed → Ticked (n + turn.elapsed.toNat) t)
      fun _ => True := by
  unfold RaftMachine.turn
  split_ifs
  · nofun
  · cases turn.received with
    | message message =>
      dsimp only
      rw [meets_bind]
      refine (handleMessage_ticked turn.accepted message h).mono (fun core t ht => ?_)
        fun _ ht => ht.elim
      rw [meets_bind]
      exact (meets_advance_ticks turn ht).mono (fun _ u hu _ _ => hu) fun _ _ => trivial
    | closed => exact fun _ hclosed => absurd rfl hclosed
    | elapsed =>
      dsimp only
      rw [meets_bind]
      exact (meets_advance_ticks turn h).mono (fun _ u hu _ _ => hu) fun _ _ => trivial

end RaftMachine

open RaftMachine

/-! ### The clock -/

/-- The clock in a turn: when the time since the last tick is read, when the instant of a tick is
taken, and when the turn ends. -/
structure Moments where
  checked : ℕ
  reset : ℕ
  ended : ℕ

/-- The loop between two turns, with the instant of the last tick and the clock. The turns that
ticked come with their moments, the last one first and the start of the loop behind them. -/
structure Ticking where
  machine : RaftMachine
  world : World MachineEvent
  now : ℕ
  clock : ℕ
  resets : List Moments

namespace Ticking

/-- How often the node was ticked. -/
def ticks (s : Ticking) : ℕ := ticksIn s.world.events

/-- A turn that begins at `begun` reads the clock at these moments. It has waited for a heartbeat
when nothing came, and takes `limit` at most. -/
structure Fits (limit begun : ℕ) (received : Received) (m : Moments) : Prop where
  checked : begun ≤ m.checked
  waited : received = .elapsed → begun + heartbeat ≤ m.checked
  reset : m.checked ≤ m.reset
  ended : m.reset ≤ m.ended
  short : m.ended ≤ begun + limit

/-- A turn while the queue is open, which takes `limit` at most. -/
inductive Next (router : Router MachineEvent) (limit : ℕ) (s : Ticking) (t : Turn) : Ticking → Prop
  | turn {m : Moments} (hopen : t.received ≠ .closed) (hm : Fits limit s.clock t.received m)
    (helapsed : t.elapsed = decide (heartbeat ≤ m.checked - s.now)) {machine : RaftMachine}
    {w : World MachineEvent}
    (h : Completes (s.machine.turn router.route t) s.world (some machine) w) :
    Next router limit s t ⟨machine, w, if t.elapsed then m.reset else s.now, m.ended,
      if t.elapsed then m :: s.resets else s.resets⟩

/-- The loop of a process that begins at `begun`, while the queue is open. -/
inductive Open (router : Router MachineEvent) (g : RaftGroupMetadata) (begun limit : ℕ) :
    Ticking → Prop
  | boot {columns : Columns} {machine : RaftMachine} {conf : Config} {w : World MachineEvent}
    (h : Completes (RaftMachine.boot g) (World.reopen columns []) (machine, conf) w) :
    Open router g begun limit ⟨machine, w, begun, begun, [⟨begun, begun, begun⟩]⟩
  | turn {s s' : Ticking} (hs : Open router g begun limit s) {t : Turn}
    (h : Next router limit s t s') : Open router g begun limit s'

/-- The turns from `s` on, once the queue is closed. -/
inductive Closed (router : Router MachineEvent) (s : Ticking) : Ticking → Prop
  | refl : Closed router s s
  | turn {s' : Ticking} (hs : Closed router s s') {t : Turn} (hclosed : t.received = .closed)
    {clock : ℕ} (hclock : s'.clock ≤ clock) {machine : RaftMachine} {w : World MachineEvent}
    (h : Completes (s'.machine.turn router.route t) s'.world (some machine) w) :
    Closed router s { s' with machine := machine, world := w, clock := clock }

/-- Two ticks, the later one first. -/
structure Spaced (limit : ℕ) (m' m : Moments) : Prop where
  /-- A tick comes a heartbeat after the last one, at the earliest. -/
  apart : m.reset + heartbeat ≤ m'.checked
  ordered : m'.checked ≤ m'.reset
  /-- It comes in the second turn after the heartbeat, at the latest. -/
  close : m'.reset ≤ m.reset + heartbeat + 2 * limit

/-- When the node was ticked in a loop that begins at `begun`, up to `s`, and is ticked next; the
queue is closed from `s` to `s'`. -/
structure Paced (router : Router MachineEvent) (begun limit : ℕ) (s s' : Ticking) : Prop where
  /-- The ticks are those of the turns. -/
  counted : s.resets.length = s.ticks + 1
  began : s.resets.getLast? = some ⟨begun, begun, begun⟩
  spaced : s.resets.IsChain (Spaced limit)
  /-- The time since the last tick is a heartbeat and a turn, at most. -/
  due : ∀ m ∈ s.resets.head?, s.clock ≤ m.reset + heartbeat + limit
  /-- A turn ticks once or not at all, and it ticks when nothing comes. -/
  once : ∀ t u, Next router limit s t u → u.ticks = s.ticks + t.elapsed.toNat
  unheard : ∀ t u, Next router limit s t u → t.received = .elapsed → u.ticks = s.ticks + 1
  /-- So the ticks since the start are as many as the heartbeats, at most. -/
  atMost : begun + heartbeat * s.ticks ≤ s.clock
  atLeast : s.clock ≤ begun + (heartbeat + 2 * limit) * s.ticks + heartbeat + limit
  /-- A closed queue ends the ticks. -/
  stopped : s'.ticks = s.ticks

/-! ### Runs -/

variable {router : Router MachineEvent} {g : RaftGroupMetadata} {begun limit : ℕ} {s s' : Ticking}
  {t : Turn}

/-- A turn ticks the node once, or not at all. -/
theorem Next.ticks (h : Next router limit s t s') : s'.ticks = s.ticks + t.elapsed.toNat := by
  obtain ⟨hopen, -, -, h⟩ := h
  exact (meets_turn_ticks t (rfl : Ticked s.ticks s.world)).of_completes h rfl hopen

/-- What every turn keeps while the queue is open. -/
structure Steady (begun limit : ℕ) (s : Ticking) : Prop where
  counted : s.resets.length = s.ticks + 1
  began : s.resets.getLast? = some ⟨begun, begun, begun⟩
  spaced : s.resets.IsChain (Spaced limit)
  last : s.resets.head?.map Moments.reset = some s.now
  now_le : s.now ≤ s.clock
  /-- The last look at the clock was within a heartbeat after the last tick. -/
  recent : s.clock ≤ s.now + heartbeat + limit

/-- The moments at which `now` was taken. -/
theorem Steady.cons (h : Steady begun limit s) :
    ∃ m ms, s.resets = m :: ms ∧ m.reset = s.now := by
  obtain ⟨m, hm, hnow⟩ := Option.map_eq_some_iff.mp h.last
  obtain ⟨ms, hms⟩ := List.head?_eq_some_iff.mp hm
  exact ⟨m, ms, hms, hnow⟩

theorem steady_next (hs : Steady begun limit s) (h : Next router limit s t s') :
    Steady begun limit s' := by
  have hticks := h.ticks
  have hnow := hs.now_le
  have hrecent := hs.recent
  cases h with | @turn m hopen hm helapsed machine w h
  obtain ⟨hchecked, -, hreset, hended, hshort⟩ := hm
  by_cases htick : heartbeat ≤ m.checked - s.now
  · rw [decide_eq_true htick] at helapsed
    rw [helapsed] at hticks ⊢
    obtain ⟨last, ms, hms, hlast⟩ := hs.cons
    constructor
    · rw [hticks]
      exact congrArg (· + 1) hs.counted
    · have hbegan := hs.began
      rw [hms] at hbegan
      dsimp only
      rw [if_pos rfl, hms, List.getLast?_cons_cons, hbegan]
    -- the turn before it looked at the clock too early, so two turns are enough
    · have hspaced : Spaced limit m last := by
        refine ⟨?_, hreset, ?_⟩
        · omega
        · omega
      have hchain := hs.spaced
      rw [hms] at hchain
      dsimp only
      rw [if_pos rfl, hms, List.isChain_cons_cons]
      exact ⟨hspaced, hchain⟩
    · rfl
    · exact hended
    · dsimp only
      rw [if_pos rfl]
      omega
  -- the clock was read within a heartbeat after the last tick
  · rw [decide_eq_false htick] at helapsed
    rw [helapsed] at hticks ⊢
    refine ⟨hs.counted.trans (congrArg (· + 1) hticks.symm), hs.began, hs.spaced, hs.last, ?_, ?_⟩
    · exact Nat.le_trans hnow (by dsimp only; omega)
    · dsimp only
      rw [if_neg Bool.false_ne_true]
      omega

theorem steady_of_open (h : Open router g begun limit s) : Steady begun limit s := by
  induction h with
  | boot h =>
    obtain ⟨st, hs, cs, rfl, -, -, -, rfl⟩ := completes_boot h
    exact ⟨rfl, rfl, List.IsChain.singleton _, rfl, Nat.le_refl _, by dsimp only; omega⟩
  | turn hs h ih => exact steady_next ih h

/-- A turn in which nothing comes has waited for a heartbeat. -/
theorem Steady.elapsed (hs : Steady begun limit s) (h : Next router limit s t s')
    (ht : t.received = .elapsed) : t.elapsed = true := by
  obtain ⟨hopen, hm, helapsed, h⟩ := h
  have hwaited := hm.waited ht
  have hnow := hs.now_le
  rw [helapsed, decide_eq_true_iff]
  omega

/-- Ticks that are spaced, from the first to the last. -/
theorem reset_of_spaced {m m₀ : Moments} {ms : List Moments}
    (h : (m :: ms).IsChain (Spaced limit)) (hlast : (m :: ms).getLast? = some m₀) :
    m₀.reset + heartbeat * ms.length ≤ m.reset ∧
      m.reset ≤ m₀.reset + (heartbeat + 2 * limit) * ms.length := by
  induction ms generalizing m with
  | nil =>
    obtain rfl := Option.some.inj hlast
    exact ⟨Nat.le_refl _, Nat.le_refl _⟩
  | cons m' ms ih =>
    obtain ⟨⟨hapart, hordered, hclose⟩, hchain⟩ := List.isChain_cons_cons.mp h
    rw [List.getLast?_cons_cons] at hlast
    obtain ⟨hmost, hleast⟩ := ih hchain hlast
    rw [List.length_cons, Nat.mul_succ, Nat.mul_succ]
    exact ⟨by omega, by omega⟩

/-- A turn that finds the queue closed leaves the world. -/
theorem ticks_of_closed (h : Closed router s s') : s'.ticks = s.ticks := by
  induction h with
  | refl => rfl
  | @turn s' hs t hclosed clock hclock machine w h ih =>
    unfold RaftMachine.turn at h
    split_ifs at h
    · cases (completes_pure.mp h).1
    -- `continue`
    · rw [hclosed] at h
      obtain ⟨-, rfl⟩ := completes_pure.mp h
      exact ih

/-- **Ticks are a heartbeat apart at least**, and each comes within two turns after the heartbeat,
whatever requests, messages and entries the turns work off: a stream of requests does not keep the
node from its ticks. A turn in which nothing comes ticks. Once the queue is closed there are no
more. -/
theorem paced_of_run (h : Open router g begun limit s) (hclosed : Closed router s s') :
    Paced router begun limit s s' := by
  have hs := steady_of_open h
  obtain ⟨m, ms, hms, hlast⟩ := hs.cons
  have hspaced := hs.spaced
  have hbegan := hs.began
  have hcounted := hs.counted
  rw [hms] at hspaced hbegan hcounted
  -- the distances of the ticks add up
  obtain ⟨hmost, hleast⟩ := reset_of_spaced hspaced hbegan
  rw [Nat.succ.inj hcounted] at hmost hleast
  dsimp only at hmost hleast
  have hnow := hs.now_le
  have hrecent := hs.recent
  refine ⟨hs.counted, hs.began, hs.spaced, ?_, fun t u hu => hu.ticks, ?_, ?_, ?_,
    ticks_of_closed hclosed⟩
  · rw [hms, List.head?_cons]
    rintro _ ⟨⟩
    rw [hlast]
    exact hrecent
  · intro t u hu hunheard
    rw [hu.ticks, hs.elapsed hu hunheard]
    rfl
  · omega
  · omega

/-! A node that came up alone is asked to hand over, hears nothing for a heartbeat, and finds its
queue closed. -/

def asked : Turn := ⟨false, .message (.transferLeader 2 0), true, false, .follower, none⟩

def unasked : Turn := ⟨false, .elapsed, true, true, .follower, none⟩

def deserted : Turn := ⟨false, .closed, true, false, .follower, none⟩

/-- The machine after a turn that only took over its role. -/
def following : RaftMachine :=
  { bootedAlone.1.1 with
    placementCluster := bootedAlone.1.1.placementCluster.setRole .follower }

def handedOver : World MachineEvent :=
  (bootedAlone.2.emit (.called (.transferLeader 2))).emit (.responded 0 none)

def unheard : Ticking :=
  ⟨following, handedOver.emit (.called .tick), 131, 140, [⟨131, 131, 140⟩, ⟨0, 0, 0⟩]⟩

theorem open_unheard : Open dataRoute aloneGroup 0 200 unheard := by
  have hboot : Open dataRoute aloneGroup 0 200
      ⟨bootedAlone.1.1, bootedAlone.2, 0, 0, [⟨0, 0, 0⟩]⟩ :=
    @Open.boot _ _ _ _ (fun _ => ∅) _ _ _ completes_bootedAlone
  have hasked : Open dataRoute aloneGroup 0 200
      ⟨following, handedOver, 0, 30, [⟨0, 0, 0⟩]⟩ :=
    hboot.turn (t := asked) (.turn (m := ⟨20, 20, 30⟩) (by rintro ⟨⟩) ⟨by decide,
      by rintro ⟨⟩, by decide, by decide, by decide⟩ rfl rfl)
  exact hasked.turn (t := unasked) (.turn (m := ⟨131, 131, 140⟩) (by rintro ⟨⟩) ⟨by decide,
    fun _ => by decide, by decide, by decide, by decide⟩ rfl rfl)

theorem closed_unheard : Closed dataRoute unheard { unheard with clock := 150 } :=
  Closed.refl.turn (t := deserted) rfl (by decide) rfl

theorem paced_unheard : Paced dataRoute 0 200 unheard { unheard with clock := 150 } :=
  paced_of_run open_unheard closed_unheard

end Ticking

end PlacementCenter.Raft
