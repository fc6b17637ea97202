import Mathlib.Data.List.Infix
import Mathlib.Tactic.Common

/-!
# Paths

A path is a list of segments. Its text has a separator before every segment, and the path is read
back from it when no segment holds the separator. A search by the text of a path leads to all paths
that the path starts, where the last segment may go on.

## Main definitions

* `render sep p`: the text of a path
* `Plain sep p`: no segment holds the separator
* `Finds p q`: the search by the path `p` leads to the path `q`

## Main results

* `render_inj`: a plain path is read back from its text
* `render_prefix_iff`: the text of one path starts with that of another when the search finds it
-/

namespace Rust.Path

variable {α : Type} {sep : α} {s s' : List α} {p q : List (List α)}

/-- The text of a path. -/
def render (sep : α) : List (List α) → List α
  | [] => []
  | s :: p => sep :: (s ++ render sep p)

def Plain (sep : α) (p : List (List α)) : Prop := ∀ s ∈ p, sep ∉ s

/-- The segments of the first path are those of the second one, but for the last, which may go on
there. -/
def Finds : List (List α) → List (List α) → Prop
  | [], _ => True
  | _ :: _, [] => False
  | [s], s' :: _ => s <+: s'
  | s :: p, s' :: q => s = s' ∧ Finds p q

instance Finds.decidable [DecidableEq α] : (p q : List (List α)) → Decidable (Finds p q)
  | [], _ => .isTrue trivial
  | _ :: _, [] => .isFalse id
  | [_], _ :: _ => inferInstanceAs (Decidable (_ <+: _))
  | _ :: t :: p, _ :: q => @instDecidableAnd _ _ _ (Finds.decidable (t :: p) q)

theorem render_cons (s : List α) (p : List (List α)) :
    render sep (s :: p) = sep :: (s ++ render sep p) := rfl

theorem finds_cons_cons (hp : p ≠ []) : Finds (s :: p) (s' :: q) ↔ s = s' ∧ Finds p q := by
  rw [Finds.eq_4 _ _ _ _ hp]

theorem plain_cons : Plain sep (s :: p) ↔ sep ∉ s ∧ Plain sep p := List.forall_mem_cons

/-! ### Reading a path back -/

theorem render_eq_intercalate (p : List (List α)) :
    render sep p = [sep].intercalate ([] :: p) := by
  induction p with
  | nil => rfl
  | cons s p ih =>
    cases p with
    | nil => simp [render]
    | cons t p => simp_all [render, List.intercalate_cons_cons]

/-- **A plain path is read back** from its text. -/
theorem render_inj (hp : Plain sep p) (hq : Plain sep q) :
    render sep p = render sep q ↔ p = q := by
  classical
  refine ⟨fun h => ?_, fun h => h ▸ rfl⟩
  have back : ∀ {p : List (List α)}, Plain sep p → (render sep p).splitOn sep = [] :: p := by
    intro p hp
    rw [render_eq_intercalate]
    refine List.splitOn_intercalate sep (fun s hs => ?_) (List.cons_ne_nil _ _)
    rcases List.mem_cons.mp hs with rfl | hs
    · exact List.not_mem_nil
    · exact hp s hs
  have heq := back hp
  rw [h, back hq] at heq
  exact (List.cons.inj heq).2.symm

/-! ### Searches -/

/-- What follows a segment: nothing, or the next separator. -/
def Follows (sep : α) (rest : List α) : Prop := ∀ a ∈ rest.head?, a = sep

theorem follows_render (p : List (List α)) : Follows sep (render sep p) := by
  cases p with
  | nil => exact fun a ha => by cases ha
  | cons s p => exact fun a ha => (Option.some.inj ha).symm

section Segments

variable {rest : List α}

/-- A text without the separator starts a segment, if it starts what goes on from there. -/
theorem prefix_append_iff (hs : sep ∉ s) (hrest : Follows sep rest) :
    s <+: s' ++ rest ↔ s <+: s' := by
  refine ⟨fun h => ?_, fun h => h.trans (List.prefix_append _ _)⟩
  rcases List.prefix_or_prefix_of_prefix h (List.prefix_append s' rest) with h' | ⟨t, rfl⟩
  · exact h'
  · have ht : t <+: rest := (List.prefix_append_right_inj s').mp h
    cases t with
    | nil => simp
    | cons a t =>
      -- the text would go on with a separator
      obtain ⟨u, rfl⟩ := ht
      obtain rfl : a = sep := hrest a rfl
      exact absurd (by simp) hs

/-- A segment and the next separator start a text with the same segment only. -/
theorem append_sep_prefix_iff {t : List α} (hs : sep ∉ s) (hs' : sep ∉ s')
    (hrest : Follows sep rest) :
    s ++ sep :: t <+: s' ++ rest ↔ s = s' ∧ sep :: t <+: rest := by
  constructor
  · intro h
    obtain ⟨u, rfl⟩ := (prefix_append_iff hs hrest).mp ((List.prefix_append _ _).trans h)
    rw [List.append_assoc, List.prefix_append_right_inj] at h
    cases u with
    | nil => exact ⟨(List.append_nil s).symm, h⟩
    | cons a u =>
      obtain ⟨rfl, -⟩ := List.cons_prefix_cons.mp h
      exact absurd (by simp) hs'
  · rintro ⟨rfl, h⟩
    exact (List.prefix_append_right_inj s).mpr h

end Segments

/-- **The text of a path starts with that of another** exactly when the search by the one finds the
other. -/
theorem render_prefix_iff (hp : Plain sep p) (hq : Plain sep q) :
    render sep p <+: render sep q ↔ Finds p q := by
  induction p, q using Finds.induct with
  | case1 q => exact iff_of_true List.nil_prefix trivial
  | case2 s p => simp [render, Finds]
  | case3 s s' q =>
    obtain ⟨hs, -⟩ := plain_cons.mp hp
    rw [render_cons, render_cons, List.cons_prefix_cons, and_iff_right rfl, render,
      List.append_nil, Finds]
    exact prefix_append_iff hs (follows_render q)
  | case4 s p s' q hne ih =>
    obtain ⟨hs, hp⟩ := plain_cons.mp hp
    obtain ⟨hs', hq⟩ := plain_cons.mp hq
    obtain ⟨t, p, rfl⟩ := List.exists_cons_of_ne_nil hne
    rw [finds_cons_cons hne, ← ih hp hq, render_cons s, render_cons s' q, List.cons_prefix_cons,
      and_iff_right rfl]
    exact append_sep_prefix_iff hs hs' (follows_render q)

end Rust.Path
