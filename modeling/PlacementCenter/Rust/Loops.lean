import Mathlib.Algebra.Group.Nat.Defs
import Mathlib.Tactic.Common

/-!
# Loops that may not end

A loop is given by what one turn of it does: leave with a result, or go on from another state.

## Main definitions

* `Turn`: what a turn does
* `turns body n s`: the result of the loop after at most `n` turns
* `Ends body s r`, `Halts body s`: the loop from `s` ends with `r`, with some result

## Main results

* `ends_iff_of_again`: a turn that goes on does not change how the loop ends
* `halts_of_measure`: a loop whose turns make a measure smaller ends
* `Ends.of_invariant`: what every turn keeps holds at the end
* `not_halts_of_stuck`: a turn that goes on from its own state is repeated for ever
-/

namespace Rust

/-- What a turn of a loop does. -/
inductive Turn (α β : Type) where
  | again (state : α)
  | leave (result : β)

variable {α β : Type} {body : α → Turn α β} {s t : α} {r : β}

/-- The result of a loop that ends within some turns. -/
def turns (body : α → Turn α β) : ℕ → α → Option β
  | 0, _ => none
  | n + 1, s =>
    match body s with
    | .again t => turns body n t
    | .leave r => some r

theorem turns_succ_of_again (h : body s = .again t) (n : ℕ) :
    turns body (n + 1) s = turns body n t := by
  rw [turns, h]

theorem turns_succ_of_leave (h : body s = .leave r) (n : ℕ) :
    turns body (n + 1) s = some r := by
  rw [turns, h]

/-- The loop from `s` ends with the result `r`. -/
def Ends (body : α → Turn α β) (s : α) (r : β) : Prop := ∃ n, turns body n s = some r

/-- The loop from `s` ends. -/
def Halts (body : α → Turn α β) (s : α) : Prop := ∃ r, Ends body s r

theorem Ends.halts (h : Ends body s r) : Halts body s := ⟨r, h⟩

theorem ends_of_leave (h : body s = .leave r) : Ends body s r := ⟨1, turns_succ_of_leave h 0⟩

theorem ends_iff_of_leave {r' : β} (h : body s = .leave r) : Ends body s r' ↔ r' = r := by
  constructor
  · rintro ⟨n, hn⟩
    cases n with
    | zero => cases hn
    | succ n => exact (Option.some.inj ((turns_succ_of_leave h n).symm.trans hn)).symm
  · rintro rfl
    exact ends_of_leave h

/-- **A turn that goes on** leaves the end of the loop to the state it goes on from. -/
theorem ends_iff_of_again (h : body s = .again t) : Ends body s r ↔ Ends body t r := by
  constructor
  · rintro ⟨n, hn⟩
    cases n with
    | zero => cases hn
    | succ n => exact ⟨n, (turns_succ_of_again h n).symm.trans hn⟩
  · rintro ⟨n, hn⟩
    exact ⟨n + 1, (turns_succ_of_again h n).trans hn⟩

theorem halts_iff_of_again (h : body s = .again t) : Halts body s ↔ Halts body t :=
  exists_congr fun _ => ends_iff_of_again h

/-- **A loop ends** when every turn that goes on makes a measure smaller. -/
theorem halts_of_measure {I : α → Prop} (μ : α → ℕ)
    (h : ∀ s t, I s → body s = .again t → I t ∧ μ t < μ s) (hs : I s) : Halts body s := by
  induction hμ : μ s using Nat.strongRecOn generalizing s with
  | ind n ih =>
    cases hbody : body s with
    | again t =>
      obtain ⟨ht, hlt⟩ := h s t hs hbody
      exact (halts_iff_of_again hbody).mpr (ih (μ t) (hμ ▸ hlt) ht rfl)
    | leave r => exact (ends_of_leave hbody).halts

/-- **The invariant rule**: what every turn keeps, and what the last one makes of it. -/
theorem Ends.of_invariant {I : α → Prop} {R : β → Prop}
    (hagain : ∀ s t, I s → body s = .again t → I t) (hleave : ∀ s r, I s → body s = .leave r → R r)
    (h : Ends body s r) (hs : I s) : R r := by
  obtain ⟨n, hn⟩ := h
  induction n generalizing s with
  | zero => cases hn
  | succ n ih =>
    cases hbody : body s with
    | again t =>
      rw [turns_succ_of_again hbody] at hn
      exact ih (hagain s t hs hbody) hn
    | leave r' =>
      rw [turns_succ_of_leave hbody] at hn
      cases hn
      exact hleave s _ hs hbody

/-- **A turn that goes on from its own state** never lets the loop end. -/
theorem not_halts_of_stuck (h : body s = .again s) : ¬ Halts body s := by
  rintro ⟨r, n, hn⟩
  induction n with
  | zero => cases hn
  | succ n ih => exact ih ((turns_succ_of_again h n).symm.trans hn)

end Rust
