import Mathlib.Data.List.Infix
import Mathlib.Tactic.Common

/-!
# Fuzzy snapshots

Registers are written by the events of a log. An event sets some of them, and what it sets does not
depend on what was there. A copy of the registers that was taken while the log was applied shows
each register as it was after some point of the log. When no point is before the label of the copy,
the events after the label make up for the difference.

## Main definitions

* `Registers.run w s es`: the registers after some events
* `Registers.Shows w init log es s`: every register is as it was after a point of the log from the
  label `es` on

## Main results

* `Registers.Shows.append`: the next events of the log move the label
* `Registers.Shows.mono`: an earlier label, and a longer log
* `Registers.Shows.converges`: **the events after the label** lead to the end of the log
-/

namespace Rust.Registers

universe u v w

variable {ι : Type u} {κ : Type v} {ν : Type w}

/-- The registers after an event: `w e a` is what the event sets the register `a` to, if it does. -/
def write (w : ι → κ → Option ν) (s : κ → ν) (e : ι) : κ → ν := fun a => (w e a).getD (s a)

/-- The registers after some events. -/
def run (w : ι → κ → Option ν) (s : κ → ν) (es : List ι) : κ → ν := es.foldl (write w) s

variable (w : ι → κ → Option ν) (init : κ → ν)

theorem run_append (s : κ → ν) (es es' : List ι) :
    run w s (es ++ es') = run w (run w s es) es' := List.foldl_append

theorem run_concat (s : κ → ν) (es : List ι) (e : ι) :
    run w s (es ++ [e]) = write w (run w s es) e := by
  rw [run_append]
  rfl

/-- Every register is as it was after a point of the log, not before the label `es`. -/
def Shows (log es : List ι) (s : κ → ν) : Prop :=
  ∀ a, ∃ ws, es <+: ws ∧ ws <+: log ∧ s a = run w init ws a

variable {w init} {log es : List ι} {s : κ → ν}

/-- The registers at a point of the log. -/
theorem shows_run (h : es <+: log) : Shows w init log es (run w init es) := fun _ =>
  ⟨es, List.prefix_refl es, h, rfl⟩

/-- An earlier label, and a longer log. -/
theorem Shows.mono (h : Shows w init log es s) {log' es' : List ι} (hes : es' <+: es)
    (hlog : log <+: log') : Shows w init log' es' s := by
  intro a
  obtain ⟨ws, hfrom, hto, hs⟩ := h a
  exact ⟨ws, hes.trans hfrom, hto.trans hlog, hs⟩

/-- **The next event** moves the label: a register that it does not set may be at the old label. -/
theorem Shows.concat (h : Shows w init log es s) {e : ι} (hlog : es ++ [e] <+: log) :
    Shows w init log (es ++ [e]) (write w s e) := by
  intro a
  rcases hw : w e a with _ | v
  · obtain ⟨ws, ⟨t, rfl⟩, hto, hs⟩ := h a
    have hwrite : write w s e a = run w init (es ++ t) a := by rw [write, hw, Option.getD_none, hs]
    rcases t with _ | ⟨e', t⟩
    -- the register is at the old label, where it is what it is at the new one
    · rw [List.append_nil] at hwrite
      refine ⟨es ++ [e], List.prefix_refl _, hlog, ?_⟩
      rw [hwrite, run_concat, write, hw, Option.getD_none]
    -- the point is at the new label or beyond
    · have hboth : es ++ [e'] <+: log := by
        refine List.IsPrefix.trans ⟨t, ?_⟩ hto
        rw [List.append_assoc, List.singleton_append]
      have heq : es ++ [e] = es ++ [e'] := by
        refine List.IsPrefix.eq_of_length (List.prefix_of_prefix_length_le hlog hboth ?_) ?_
        · simp
        · simp
      refine ⟨es ++ e' :: t, ?_, hto, hwrite⟩
      rw [heq]
      exact ⟨t, by rw [List.append_assoc, List.singleton_append]⟩
  · refine ⟨es ++ [e], List.prefix_refl _, hlog, ?_⟩
    rw [run_concat, write, write, hw, Option.getD_some, Option.getD_some]

/-- **The next events** of the log move the label. -/
theorem Shows.append (h : Shows w init log es s) {es' : List ι} (hlog : es ++ es' <+: log) :
    Shows w init log (es ++ es') (run w s es') := by
  induction es' using List.reverseRecOn with
  | nil =>
    rw [List.append_nil]
    exact h
  | append_singleton es' e ih =>
    rw [← List.append_assoc] at hlog ⊢
    rw [run_concat]
    exact (ih ((List.prefix_append _ _).trans hlog)).concat hlog

/-- A label at the end of the log leaves no choice. -/
theorem shows_end_iff : Shows w init log log s ↔ s = run w init log := by
  constructor
  · intro h
    funext a
    obtain ⟨ws, hfrom, hto, hs⟩ := h a
    rw [hs, hto.eq_of_length_le hfrom.length_le]
  · rintro rfl
    exact shows_run (List.prefix_refl log)

/-- **The events after the label** lead to the end of the log. -/
theorem Shows.converges (h : Shows w init log es s) {rest : List ι} (hlog : es ++ rest = log) :
    run w s rest = run w init log := by
  subst hlog
  exact shows_end_iff.mp (h.append (List.prefix_refl _))

end Rust.Registers
