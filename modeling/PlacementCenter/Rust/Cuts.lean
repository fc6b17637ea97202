import PlacementCenter.Rust.RocksDb

/-!
# Where a crash may cut a program

A program is cut between two of its effects. What is found then is the world at one of the points
from its start on.

## Main definitions

* `World.CutAt w w' pt`: a crash on the way from `w` to `w'` may find the contents and events `pt`

## Main results

* `World.cutAt_self`: no effect, one point
* `World.CutAt.effect`: an effect adds one point
-/

namespace Rust

namespace World

variable {ε : Type} {w w' w'' : World ε} {pt : Columns × List ε}

/-- A crash on the way from `w` to `w'` may find the contents and events `pt`. -/
def CutAt (w w' : World ε) (pt : Columns × List ε) : Prop :=
  ∃ past, w.past <:+ past ∧ pt :: past <:+ w'.points

/-- Without an effect the world is found as it was. -/
theorem cutAt_self : CutAt w w pt ↔ pt = (w.columns, w.events) := by
  constructor
  · rintro ⟨past, hlo, hhi⟩
    rcases List.suffix_cons_iff.mp hhi with heq | hlt
    · exact (List.cons.inj heq).1
    · have := hlo.length_le
      have := hlt.length_le
      rw [List.length_cons] at this
      omega
  · rintro rfl
    exact ⟨w.past, List.suffix_rfl, List.suffix_rfl⟩

/-- **An effect adds one point**: the world after it. -/
theorem CutAt.effect (h : CutAt w w'' pt) (hpast : w''.past = w'.points) :
    pt = (w''.columns, w''.events) ∨ CutAt w w' pt := by
  obtain ⟨past, hlo, hhi⟩ := h
  rcases List.suffix_cons_iff.mp hhi with heq | hlt
  · exact .inl (List.cons.inj heq).1
  · rw [hpast] at hlt
    exact .inr ⟨past, hlo, hlt⟩

end World

end Rust
