import PlacementCenter.Rust.Journal

/-!
# Flushed families

A column family whose every write was followed by a flush of the write-ahead log survives a crash of
the machine as it is. In the middle of an operation that writes once to the family, a crash leaves
it as it was before the operation or as it is after it.

## Main definitions

* `Effect.Touches cf`: an effect may change the family
* `Journal.Flushed cf w`: every effect on the family was followed by a flush
* `TouchesOnce cf es`: at most one of the effects is on the family

## Main results

* `Journal.Flushed.extend`, `Journal.flushed_extend_sync`: effects after which the family is flushed
* `Journal.column_part`: what a part of the effects leaves
* `Journal.Crash.column_eq`: **a crash keeps a flushed family**
* `Journal.Crash.column_extend`: **a crash in the middle of one write** leaves the old family or the
  new one
-/

namespace Rust

variable {ε : Type} {cf : String}

/-- An effect may change the family. -/
def Effect.Touches (cf : String) : Effect ε → Prop
  | put cf' _ _ => cf' = cf
  | delete cf' _ => cf' = cf
  | deleteRange cf' _ _ => cf' = cf
  | sync => False
  | event _ => False

/-- An effect on another family changes nothing. -/
theorem Effect.on_of_not_touches {x : Effect ε} (h : ¬ x.Touches cf) (m : ColumnFamily) :
    x.on cf m = m := by
  cases x with
  | put cf' k v => exact if_neg h
  | delete cf' k => exact if_neg h
  | deleteRange cf' lo hi => exact if_neg h
  | sync => rfl
  | event e => rfl

/-- At most one of the effects is on the family. -/
def TouchesOnce (cf : String) (es : List (Effect ε)) : Prop :=
  ∀ part rest, es = part ++ rest → (∀ x ∈ part, ¬ x.Touches cf) ∨ ∀ x ∈ rest, ¬ x.Touches cf

/-- No effect is on the family. -/
theorem touchesOnce_of_forall {es : List (Effect ε)} (h : ∀ x ∈ es, ¬ x.Touches cf) :
    TouchesOnce cf es := by
  rintro part rest rfl
  exact .inl fun x hx => h x (List.mem_append_left _ hx)

/-- Only the first effect is on the family. -/
theorem touchesOnce_cons {x : Effect ε} {es : List (Effect ε)} (h : ∀ y ∈ es, ¬ y.Touches cf) :
    TouchesOnce cf (x :: es) := by
  rintro (_ | ⟨y, part⟩) rest hes
  · exact .inl fun y hy => by cases hy
  · obtain ⟨rfl, rfl⟩ := List.cons.inj hes
    exact .inr fun y hy => h y (List.mem_append_right _ hy)

namespace Journal

/-- Every effect on the family was followed by a flush. -/
def Flushed (cf : String) (w : Journal ε) : Prop :=
  ∀ before x after, w.effects = before ++ x :: after → x.Touches cf → .sync ∈ after

theorem flushed_empty : Flushed cf (empty : Journal ε) := by
  intro before x after h
  simp [empty] at h

/-- Effects that leave the family alone, or flush what they write. -/
theorem Flushed.extend {w : Journal ε} (h : w.Flushed cf) {es : List (Effect ε)}
    (hes : Flushed cf ⟨es⟩) : (w.extend es).Flushed cf := by
  intro before x after heq hx
  rw [effects_extend] at heq
  rcases List.append_eq_append_iff.mp heq with ⟨as, rfl, has⟩ | ⟨bs, hbs, hes'⟩
  · exact hes as x after has hx
  · rcases bs with _ | ⟨b, bs⟩
    · exact hes [] x after hes'.symm hx
    · obtain ⟨rfl, rfl⟩ := List.cons.inj hes'
      exact List.mem_append_left _ (h before x bs hbs hx)

theorem flushed_of_forall {es : List (Effect ε)} (h : ∀ x ∈ es, ¬ x.Touches cf) :
    Flushed cf ⟨es⟩ := by
  rintro before x after rfl hx
  exact absurd hx (h x (by simp))

/-- An effect, a flush, and effects on other families. -/
theorem flushed_cons_sync {x : Effect ε} {es : List (Effect ε)} (h : ∀ y ∈ es, ¬ y.Touches cf) :
    Flushed cf ⟨x :: .sync :: es⟩ := by
  intro before x' after heq hx
  match before, heq with
  | [], heq =>
    obtain ⟨-, rfl⟩ := List.cons.inj heq
    exact List.mem_cons_self
  | [y], heq =>
    obtain ⟨-, heq⟩ := List.cons.inj heq
    obtain ⟨rfl, -⟩ := List.cons.inj heq
    exact hx.elim
  | y :: z :: before, heq =>
    obtain ⟨-, heq⟩ := List.cons.inj heq
    obtain ⟨-, rfl⟩ := List.cons.inj heq
    exact absurd hx (h x' (List.mem_append_right _ List.mem_cons_self))

/-- A flush at the end follows every effect. -/
theorem flushed_extend_sync (w : Journal ε) : (w.extend [.sync]).Flushed cf := by
  intro before x after heq hx
  rw [effects_extend] at heq
  rcases List.eq_nil_or_concat after with rfl | ⟨init, last, rfl⟩
  · obtain ⟨-, hlast⟩ := List.append_inj' heq rfl
    cases hlast
    exact hx.elim
  · rw [List.concat_eq_append, ← List.cons_append, ← List.append_assoc] at heq
    obtain ⟨-, hlast⟩ := List.append_inj' heq rfl
    cases hlast
    rw [List.concat_eq_append]
    exact List.mem_append_right _ List.mem_cons_self

theorem column_extend_of_forall (w : Journal ε) {es : List (Effect ε)}
    (h : ∀ x ∈ es, ¬ x.Touches cf) : (w.extend es).column cf = w.column cf := by
  rw [column_extend]
  generalize w.column cf = m
  induction es with
  | nil => rfl
  | cons x es ih =>
    rw [List.foldl_cons, Effect.on_of_not_touches (h x List.mem_cons_self)]
    exact ih fun y hy => h y (List.mem_cons_of_mem x hy)

/-- A part of the effects leaves the old family or the new one. -/
theorem column_part (w : Journal ε) {es part : List (Effect ε)} (hone : TouchesOnce cf es)
    (hpart : part <+: es) : (w.extend part).column cf = w.column cf ∨
      (w.extend part).column cf = (w.extend es).column cf := by
  obtain ⟨rest, rfl⟩ := hpart
  rcases hone part rest rfl with hold | hnew
  · exact .inl (column_extend_of_forall w hold)
  · right
    rw [← extend_extend, column_extend_of_forall _ hnew]

namespace Crash

variable {w q : Journal ε}

/-- What a crash loses was not flushed. -/
theorem not_sync_mem (h : w.Crash q) {lost : List (Effect ε)} (hw : w = q.extend lost) :
    .sync ∉ lost := by
  intro hmem
  obtain ⟨before, after, rfl⟩ := List.append_of_mem hmem
  have hkept := h.kept (q.effects ++ before) after (by rw [hw, effects_extend, List.append_assoc])
  have hle := hkept.length_le
  simp only [List.length_append, List.length_singleton] at hle
  omega

/-- What a crash loses lies after everything that was followed by a flush. -/
theorem lost_suffix {lost before after : List (Effect ε)} (h : (q.extend lost).Crash q)
    (heq : (q.extend lost).effects = before ++ after) (hsync : .sync ∈ after) : lost <:+ after := by
  rw [effects_extend] at heq
  rcases List.append_eq_append_iff.mp heq with ⟨as, -, hlost⟩ | ⟨bs, -, hafter⟩
  · exact absurd (hlost ▸ List.mem_append_right _ hsync) (h.not_sync_mem rfl)
  · exact ⟨bs, hafter.symm⟩

/-- **A crash may lose effects** exactly when none of them was flushed. -/
theorem iff_not_sync_mem {lost : List (Effect ε)} : (q.extend lost).Crash q ↔ .sync ∉ lost := by
  refine ⟨fun h => h.not_sync_mem rfl, fun h => ⟨List.prefix_append _ _, fun before after heq => ?_⟩⟩
  rw [effects_extend] at heq
  rcases List.append_eq_append_iff.mp heq with ⟨as, -, has⟩ | ⟨bs, hbs, hes⟩
  · exact absurd (has ▸ List.mem_append_right _ List.mem_cons_self) h
  · rcases bs with _ | ⟨b, bs⟩
    · rw [List.nil_append] at hes
      exact absurd (hes ▸ List.mem_cons_self) h
    · obtain ⟨rfl, -⟩ := List.cons.inj hes
      exact ⟨bs, by rw [hbs, List.append_assoc, List.singleton_append]⟩

/-- What a crash leaves is an earlier point. -/
theorem exists_lost (h : w.Crash q) : ∃ lost, w = q.extend lost := by
  obtain ⟨lost, hlost⟩ := h.lost
  exact ⟨lost, congrArg Journal.mk hlost.symm⟩

/-- **A crash keeps a flushed family.** -/
theorem column_eq (h : w.Crash q) (hw : w.Flushed cf) : q.column cf = w.column cf := by
  obtain ⟨lost, rfl⟩ := h.exists_lost
  refine (column_extend_of_forall q fun x hx htouch => ?_).symm
  obtain ⟨before, after, rfl⟩ := List.append_of_mem hx
  have hsync := hw (q.effects ++ before) x after (by simp) htouch
  refine h.not_sync_mem rfl ?_
  exact List.mem_append_right _ (List.mem_cons_of_mem x hsync)

/-- A crash at a later point that leaves an earlier one is a crash at any point between. -/
theorem of_extend {part : List (Effect ε)} (h : (w.extend part).Crash q) (hq : q.IsPrefix w) :
    w.Crash q where
  lost := hq
  kept before after hw := by
    refine h.kept before (after ++ part) ?_
    rw [effects_extend, hw, List.append_assoc, List.cons_append]

/-- **A crash in the middle of one write** to a flushed family leaves the old family or the new
one. -/
theorem column_extend {es part : List (Effect ε)} (h : (w.extend part).Crash q)
    (hw : w.Flushed cf) (hone : TouchesOnce cf es) (hpart : part <+: es) :
    q.column cf = w.column cf ∨ q.column cf = (w.extend es).column cf := by
  rcases isPrefix_extend.mp h.lost with hq | ⟨kept, hkept, rfl⟩
  · exact .inl ((h.of_extend hq).column_eq hw)
  · exact column_part w hone (hkept.trans hpart)

end Crash

end Journal

end Rust
