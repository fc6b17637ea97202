import Mathlib.Data.Finset.Basic
import Mathlib.Order.Interval.Finset.Nat
import PlacementCenter.Clients.Placement
import PlacementCenter.Rust.Loops

/-!
# Retries

The loop of `retry_call`, which sends a request to one address after the other. The first attempt
goes to the second address, the last one before it gives up is the fourth.

## Main definitions

* `retryTurn`: a turn of the loop, with the calls it makes
* `ServesCall addrs interfaceCall`: the loop returns what the calls allow

## Main results

* `card_residues`: how many addresses successive attempts reach
* `servesCall_iff`: the loop serves every list of addresses but the empty one
-/

namespace PlacementCenter.Placement

open Rust

/-- A call that the loop made: the position of its address, and its result. -/
structure Called where
  position : ℕ
  result : Except RobustMQError Bytes

/-- What the loop of `retry_call` changes, and the calls it has made. -/
structure Retrying where
  times : ℕ
  calls : List Called

/-- The results of the attempts, each at an address: `kv_interface_call` or
`openraft_interface_call` for the service, the interface and the request of the loop. -/
abbrev InterfaceCall := ℕ → String → Except RobustMQError Bytes

/-- A turn of the loop of `retry_call`. It leaves with a result or a panic, and with the calls that
were made. -/
def retryTurn (addrs : List String) (interfaceCall : InterfaceCall) (s : Retrying) :
    Turn Retrying (Outcome (Except RobustMQError Bytes) × List Called) :=
  match attemptAddr addrs s.times with
  | none => .leave
      (.panicked "attempt to calculate the remainder with a divisor of zero", s.calls)
  | some addr =>
    let result := interfaceCall s.times addr
    let calls := s.calls ++ [⟨s.times % addrs.length, result⟩]
    match afterAttempt s.times result with
    | .returns result => .leave (.ok result, calls)
    | .again times => .again ⟨times, calls⟩

/-- The loop before its first turn. -/
def Retrying.start : Retrying := ⟨1, []⟩

/-- The calls are the first attempts of the loop: each at the address of the attempt, with the
result of the attempt. -/
def AreAttempts (addrs : List String) (interfaceCall : InterfaceCall) (calls : List Called) :
    Prop :=
  ∀ k c, calls[k]? = some c → c.position = (k + 1) % addrs.length ∧
    ∃ addr, addrs[c.position]? = some addr ∧ c.result = interfaceCall (k + 1) addr

/-- The data of the first call that succeeded. -/
def firstOk (calls : List Called) : Option Bytes := calls.findSome? fun c => c.result.toOption

/-- What a call through the loop makes of the results of the attempts: the data of the first one
that succeeds, and otherwise, when as many different addresses were called as there are, up to the
number of attempts, the error of the last one. -/
structure Answered (addrs : List String) (interfaceCall : InterfaceCall) (calls : List Called)
    (result : Except RobustMQError Bytes) : Prop where
  attempts : AreAttempts addrs interfaceCall calls
  length_le : calls.length ≤ retryTimes + 1
  first_ok : ∀ data, firstOk calls = some data → result = .ok data
  last_error : firstOk calls = none →
    (∃ e, result = .error e) ∧ calls.getLast?.map Called.result = some result ∧
      (calls.map Called.position).toFinset.card = min addrs.length (retryTimes + 1)

/-- The loop ends without a panic, with an answer from the calls it made. -/
def ServesCall (addrs : List String) (interfaceCall : InterfaceCall) : Prop :=
  ∃ calls result, Ends (retryTurn addrs interfaceCall) .start (.ok result, calls) ∧
    Answered addrs interfaceCall calls result

/-! ### The addresses of successive attempts -/

/-- **Successive numbers have different residues**, up to the modulus. -/
theorem card_residues {n : ℕ} (hn : 0 < n) (c m : ℕ) :
    ((Finset.Ico c (c + m)).image (· % n)).card = min n m := by
  rcases Nat.le_total m n with h | h
  · have hinj : Set.InjOn (· % n) (Finset.Ico c (c + m)) :=
      (Nat.mod_injOn_Ico c n).mono (Finset.coe_subset.mpr (Finset.Ico_subset_Ico_right (by omega)))
    rw [Nat.min_eq_right h, Finset.card_image_of_injOn hinj, Nat.card_Ico, Nat.add_sub_cancel_left]
  · have hall : (Finset.Ico c (c + m)).image (· % n) = Finset.range n := by
      refine Finset.Subset.antisymm (fun x hx => ?_) ?_
      · obtain ⟨y, -, rfl⟩ := Finset.mem_image.mp hx
        exact Finset.mem_range.mpr (Nat.mod_lt y hn)
      · rw [← Nat.image_Ico_mod c n]
        exact Finset.image_subset_image (Finset.Ico_subset_Ico_right (by omega))
    rw [Nat.min_eq_left h, hall, Finset.card_range]

section Attempts

variable {addrs : List String} {interfaceCall : InterfaceCall} {calls : List Called} {addr : String}

theorem attemptAddr_eq_none {times : ℕ} : attemptAddr addrs times = none ↔ addrs = [] := by
  rw [attemptAddr, List.getElem?_eq_none_iff, ← List.length_eq_zero_iff]
  rcases Nat.eq_zero_or_pos addrs.length with h | h
  · simp [h]
  · have := Nat.mod_lt times h
    omega

/-- One more attempt. -/
theorem AreAttempts.snoc (h : AreAttempts addrs interfaceCall calls)
    (haddr : attemptAddr addrs (calls.length + 1) = some addr) :
    AreAttempts addrs interfaceCall (calls ++ [⟨(calls.length + 1) % addrs.length,
      interfaceCall (calls.length + 1) addr⟩]) := by
  intro k c hc
  rcases Nat.lt_trichotomy k calls.length with hk | rfl | hk
  · rw [List.getElem?_append_left hk] at hc
    exact h k c hc
  · rw [List.getElem?_concat_length, Option.some_inj] at hc
    subst hc
    exact ⟨rfl, addr, haddr, rfl⟩
  · rw [List.getElem?_eq_none (by simp; omega)] at hc
    cases hc

/-- The positions of the attempts. -/
theorem AreAttempts.toFinset_positions (h : AreAttempts addrs interfaceCall calls) :
    (calls.map Called.position).toFinset =
      (Finset.Ico 1 (1 + calls.length)).image (· % addrs.length) := by
  have hmap : calls.map Called.position = (List.range' 1 calls.length).map (· % addrs.length) := by
    refine List.ext_getElem (by simp) fun k hk hk' => ?_
    rw [List.length_map] at hk
    rw [List.getElem_map, List.getElem_map, List.getElem_range',
      (h k _ (List.getElem?_eq_getElem hk)).1, Nat.one_mul, Nat.add_comm]
  ext x
  simp [hmap]

theorem firstOk_snoc (h : firstOk calls = none) (c : Called) :
    firstOk (calls ++ [c]) = c.result.toOption := by
  rw [firstOk, List.findSome?_append, ← firstOk, h, Option.none_or, List.findSome?_singleton]

end Attempts

/-! ### The loop -/

section Loop

variable {addrs : List String} {interfaceCall : InterfaceCall} {s t : Retrying}

/-- The calls after one more attempt, at the address `addr`. -/
def Retrying.attempted (addrs : List String) (interfaceCall : InterfaceCall) (s : Retrying)
    (addr : String) : List Called :=
  s.calls ++ [⟨s.times % addrs.length, interfaceCall s.times addr⟩]

/-- The attempts so far failed, and another one may be made. -/
structure AllFailed (addrs : List String) (interfaceCall : InterfaceCall) (s : Retrying) :
    Prop where
  times_eq : s.times = s.calls.length + 1
  times_le : s.times ≤ retryTimes + 1
  attempts : AreAttempts addrs interfaceCall s.calls
  none_ok : firstOk s.calls = none

theorem AllFailed.start : AllFailed addrs interfaceCall .start where
  times_eq := rfl
  times_le := Nat.le_add_left _ _
  attempts := fun _ _ hc => by cases hc
  none_ok := rfl

/-- One more attempt, after those that failed. -/
theorem AllFailed.attempted (hs : AllFailed addrs interfaceCall s)
    (haddr : attemptAddr addrs s.times = some addr) :
    AreAttempts addrs interfaceCall (s.attempted addrs interfaceCall addr) ∧
      (s.attempted addrs interfaceCall addr).length = s.times ∧
      firstOk (s.attempted addrs interfaceCall addr) = (interfaceCall s.times addr).toOption := by
  refine ⟨?_, ?_, firstOk_snoc hs.none_ok _⟩
  · rw [hs.times_eq] at haddr
    rw [Retrying.attempted, hs.times_eq]
    exact hs.attempts.snoc haddr
  · rw [Retrying.attempted, List.length_append, List.length_singleton, hs.times_eq]

/-- The loop returns the result of an attempt, which succeeded or was the last one. -/
theorem afterAttempt_eq_returns {times : ℕ} {result r : Except RobustMQError Bytes}
    (h : afterAttempt times result = .returns r) :
    r = result ∧ (result.toOption = none → retryTimes < times) := by
  cases result with
  | ok data =>
    cases h
    exact ⟨rfl, fun hnone => by cases hnone⟩
  | error e =>
    rw [afterAttempt] at h
    split_ifs at h with htimes
    cases h
    exact ⟨rfl, fun _ => htimes⟩

/-- A turn that goes on made an attempt that failed. -/
theorem retryTurn_eq_again (h : retryTurn addrs interfaceCall s = .again t) :
    ∃ addr e, attemptAddr addrs s.times = some addr ∧ interfaceCall s.times addr = .error e ∧
      s.times ≤ retryTimes ∧ t = ⟨s.times + 1, s.attempted addrs interfaceCall addr⟩ := by
  unfold retryTurn at h
  split at h
  · cases h
  · rename_i addr haddr
    dsimp only at h
    split at h
    · cases h
    · rename_i n hafter
      obtain ⟨rfl, hle, e, he⟩ := afterAttempt_eq_again.mp hafter
      cases h
      exact ⟨addr, e, haddr, he, hle, rfl⟩

/-- A turn that leaves made an attempt whose result it returns, where there is an address. -/
theorem retryTurn_eq_leave (haddrs : addrs ≠ [])
    {r : Outcome (Except RobustMQError Bytes) × List Called}
    (h : retryTurn addrs interfaceCall s = .leave r) :
    ∃ addr, attemptAddr addrs s.times = some addr ∧
      r = (.ok (interfaceCall s.times addr), s.attempted addrs interfaceCall addr) ∧
      ((interfaceCall s.times addr).toOption = none → retryTimes < s.times) := by
  unfold retryTurn at h
  split at h
  · rename_i hnone
    exact absurd (attemptAddr_eq_none.mp hnone) haddrs
  · rename_i addr haddr
    dsimp only at h
    split at h
    · rename_i result hafter
      obtain ⟨rfl, hlast⟩ := afterAttempt_eq_returns hafter
      cases h
      exact ⟨addr, haddr, rfl, hlast⟩
    · cases h

theorem retryTurn_nil :
    retryTurn [] interfaceCall s =
      .leave (.panicked "attempt to calculate the remainder with a divisor of zero", s.calls) := rfl

/-- **A turn that goes on** leaves only failed attempts behind. -/
theorem AllFailed.step (hs : AllFailed addrs interfaceCall s)
    (h : retryTurn addrs interfaceCall s = .again t) :
    AllFailed addrs interfaceCall t ∧ retryTimes + 1 - t.times < retryTimes + 1 - s.times := by
  obtain ⟨addr, e, haddr, he, hle, rfl⟩ := retryTurn_eq_again h
  obtain ⟨hattempts, hlength, hfirst⟩ := hs.attempted haddr
  refine ⟨⟨?_, by dsimp only; omega, hattempts, ?_⟩, by dsimp only; omega⟩
  · rw [hlength]
  · rw [hfirst, he]
    rfl

/-- **A turn that leaves** answers from the attempts that were made. -/
theorem AllFailed.answered (hs : AllFailed addrs interfaceCall s) (haddrs : addrs ≠ [])
    {r : Outcome (Except RobustMQError Bytes) × List Called}
    (h : retryTurn addrs interfaceCall s = .leave r) :
    ∃ result, r.1 = .ok result ∧ Answered addrs interfaceCall r.2 result := by
  obtain ⟨addr, haddr, rfl, hlast⟩ := retryTurn_eq_leave haddrs h
  have hle := hs.times_le
  obtain ⟨hattempts, hlength, hfirst⟩ := hs.attempted haddr
  refine ⟨interfaceCall s.times addr, rfl, hattempts, hlength.trans_le hle, ?_, ?_⟩
  · intro data hdata
    rw [hfirst] at hdata
    -- a call that succeeded is the last one
    cases hr : interfaceCall s.times addr with
    | ok data' =>
      rw [hr] at hdata
      rw [Option.some.inj hdata]
    | error e =>
      rw [hr] at hdata
      cases hdata
  · intro hnone
    rw [hfirst] at hnone
    -- all calls failed, so that none is left
    have htimes : s.times = retryTimes + 1 := by
      have := hlast hnone
      omega
    refine ⟨?_, by simp [Retrying.attempted], ?_⟩
    · cases hr : interfaceCall s.times addr with
      | ok data =>
        rw [hr] at hnone
        cases hnone
      | error e => exact ⟨e, rfl⟩
    -- the addresses take turns
    · rw [hattempts.toFinset_positions, hlength, htimes,
        card_residues (List.length_pos_iff.mpr haddrs)]

end Loop

/-- **The loop serves every list of addresses** but the empty one, where it panics. -/
theorem servesCall_iff (addrs : List String) (interfaceCall : InterfaceCall) :
    ServesCall addrs interfaceCall ↔ addrs ≠ [] := by
  constructor
  · rintro ⟨calls, result, hends, -⟩ rfl
    rw [ends_iff_of_leave retryTurn_nil] at hends
    cases hends
  · intro haddrs
    have hhalts : Halts (retryTurn addrs interfaceCall) .start :=
      halts_of_measure (fun s => retryTimes + 1 - s.times) (fun _ _ hs => hs.step)
        AllFailed.start
    obtain ⟨⟨outcome, calls⟩, hends⟩ := hhalts
    obtain ⟨result, rfl, hanswered⟩ := hends.of_invariant (fun _ _ hs h => (hs.step h).1)
      (fun _ _ hs h => hs.answered haddrs h) AllFailed.start
    exact ⟨calls, result, hends, hanswered⟩

/-- Without an address the loop panics, whatever the calls would return. -/
theorem not_servesCall_nil : ¬ ServesCall [] fun _ _ => .ok [] := by
  rintro ⟨calls, result, hends, -⟩
  rw [ends_iff_of_leave retryTurn_nil] at hends
  cases hends

end PlacementCenter.Placement
