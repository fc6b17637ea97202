import Mathlib.Algebra.Group.Nat.Defs
import Mathlib.Tactic.Common

/-!
# Programs that may panic

A program over a world `σ` runs to a value or to a panic, and leaves a world in both cases: what
was written before a panic stays written. A postcondition speaks of the value and the world a
completed run leaves; a panic condition speaks of the world left by a run that panicked.

## Main definitions

* `Outcome`, `Program`: the results of a run, and the programs as a monad
* `Program.panic`, `Program.unwrap`, `Program.unwrapOk`, `Program.expectOk`: the ways a run panics
* `Program.Meets p s Q P`: from the world `s`, `p` completes in `Q` or panics in `P`
* `Program.Completes p s a t`: the run of `p` from `s` returns `a` and leaves `t`
* `Program.Returns R p`: every completed run of `p` returns a value in `R`
* `Program.Keeps P p`: every run of `p` keeps `P`, however it ends

## Main results

* `Program.meets_bind`, `Program.Meets.mono`: composition and consequence
* `Program.meets_foldlM`: the invariant rule of a loop
* `Program.keeps_bind`, `Program.keeps_foldlM`: what the parts of a program keep, it keeps
* `Program.completes_bind`: a completed sequence is two completed parts
* `Program.foldlM_unit_run`: a loop whose every turn only changes the world
* `Program.Completes.foldlM`: what every completed iteration keeps, the completed loop keeps
* `Program.returns_bind`, `Program.returns_foldlM`: what the last part of a program returns
-/

namespace Rust

universe u v

/-- The end of a run: a value, or a panic with its message. -/
inductive Outcome (α : Type u) where
  | ok (value : α)
  | panicked (message : String)
  deriving Repr, DecidableEq

/-- The run returned a value. -/
def Outcome.isOk {α : Type u} : Outcome α → Bool
  | ok _ => true
  | panicked _ => false

/-- The value a run returned. -/
def Outcome.value {α : Type u} : (o : Outcome α) → o.isOk = true → α
  | ok a, _ => a

/-- A program over the world `σ`. -/
def Program (σ : Type v) (α : Type u) : Type (max u v) := σ → Outcome α × σ

namespace Program

variable {σ : Type v} {α β : Type u}

/-- A program without effect. -/
protected def pure (a : α) : Program σ α := fun s => (.ok a, s)

/-- Sequencing: a panic ends the run in the world it left. -/
protected def bind (p : Program σ α) (f : α → Program σ β) : Program σ β := fun s =>
  match p s with
  | (.ok a, t) => f a t
  | (.panicked m, t) => (.panicked m, t)

instance : Monad (Program σ) where
  pure := Program.pure
  bind := Program.bind

/-- A panic with a message. -/
def panic (message : String) : Program σ α := fun s => (.panicked message, s)

/-- `Option::unwrap`. -/
def unwrap : Option α → Program σ α
  | some a => pure a
  | none => panic "called Option::unwrap() on a None value"

/-- `Result::unwrap` on a result whose error is not kept. -/
def unwrapOk : Option α → Program σ α
  | some a => pure a
  | none => panic "called Result::unwrap() on an Err value"

/-- `Result::unwrap`. -/
def expectOk {ε : Type u} : Except ε α → Program σ α
  | .ok a => pure a
  | .error _ => panic "called Result::unwrap() on an Err value"

/-- A read of the world. -/
def gets (f : σ → α) : Program σ α := fun s => (.ok (f s), s)

/-- A write of the world. -/
def modify (f : σ → σ) : Program σ PUnit.{u + 1} := fun s => (.ok ⟨⟩, f s)

@[simp] theorem pure_run (a : α) (s : σ) : (pure a : Program σ α) s = (.ok a, s) := rfl

@[simp] theorem panic_run (m : String) (s : σ) : (panic m : Program σ α) s = (.panicked m, s) := rfl

@[simp] theorem gets_run (f : σ → α) (s : σ) : gets f s = (.ok (f s), s) := rfl

@[simp] theorem modify_run (f : σ → σ) (s : σ) : modify f s = (.ok ⟨⟩, f s) := rfl

@[simp] theorem unwrap_some (a : α) : (unwrap (some a) : Program σ α) = pure a := rfl

@[simp] theorem unwrap_none :
    (unwrap none : Program σ α) = panic "called Option::unwrap() on a None value" := rfl

@[simp] theorem unwrapOk_some (a : α) : (unwrapOk (some a) : Program σ α) = pure a := rfl

@[simp] theorem unwrapOk_none :
    (unwrapOk none : Program σ α) = panic "called Result::unwrap() on an Err value" := rfl

@[simp] theorem expectOk_ok {ε : Type u} (a : α) :
    (expectOk (.ok a : Except ε α) : Program σ α) = pure a := rfl

@[simp] theorem expectOk_error {ε : Type u} (e : ε) :
    (expectOk (.error e : Except ε α) : Program σ α) =
      panic "called Result::unwrap() on an Err value" := rfl

theorem bind_run (p : Program σ α) (f : α → Program σ β) (s : σ) :
    (p >>= f) s = match p s with
      | (.ok a, t) => f a t
      | (.panicked m, t) => (.panicked m, t) := rfl

theorem bind_run_ok {p : Program σ α} {s t : σ} {a : α} (h : p s = (.ok a, t))
    (f : α → Program σ β) : (p >>= f) s = f a t := by
  rw [bind_run, h]

theorem bind_run_panicked {p : Program σ α} {s t : σ} {m : String}
    (h : p s = (.panicked m, t)) (f : α → Program σ β) : (p >>= f) s = (.panicked m, t) := by
  rw [bind_run, h]

/-- A sequence panics when one of its parts does. -/
theorem bind_run_eq_panicked {p : Program σ α} {f : α → Program σ β} {s t : σ} {m : String} :
    (p >>= f) s = (.panicked m, t) ↔
      p s = (.panicked m, t) ∨ ∃ a r, p s = (.ok a, r) ∧ f a r = (.panicked m, t) := by
  rw [bind_run]
  rcases p s with ⟨a | m', r⟩ <;> simp

@[simp] theorem pure_bind_run (a : α) (f : α → Program σ β) (s : σ) :
    ((pure a : Program σ α) >>= f) s = f a s := rfl

@[simp] theorem gets_bind_run (g : σ → α) (f : α → Program σ β) (s : σ) :
    (gets g >>= f) s = f (g s) s := rfl

@[simp] theorem panic_bind_run (m : String) (f : α → Program σ β) (s : σ) :
    ((panic m : Program σ α) >>= f) s = (.panicked m, s) := rfl

instance : LawfulMonad (Program σ) := by
  refine LawfulMonad.mk' (Program σ) ?_ ?_ ?_
  · intro α p
    funext s
    change Program.bind p _ s = p s
    unfold Program.bind
    rcases p s with ⟨_ | _, t⟩ <;> rfl
  · intro α β a f
    rfl
  · intro α β γ p f g
    funext s
    change Program.bind (Program.bind p f) g s = Program.bind p (fun a => Program.bind (f a) g) s
    unfold Program.bind
    rcases p s with ⟨_ | _, t⟩ <;> rfl

/-! ### Completed runs -/

/-- The run of `p` from `s` returns `a` and leaves the world `t`. -/
def Completes (p : Program σ α) (s : σ) (a : α) (t : σ) : Prop := p s = (.ok a, t)

theorem completes_bind {p : Program σ α} {f : α → Program σ β} {s t : σ} {b : β} :
    Completes (p >>= f) s b t ↔ ∃ a r, Completes p s a r ∧ Completes (f a) r b t := by
  unfold Completes
  rw [bind_run]
  rcases h : p s with ⟨_ | _, r⟩ <;> simp

@[simp] theorem completes_pure {a b : α} {s t : σ} :
    Completes (pure a : Program σ α) s b t ↔ a = b ∧ s = t := by
  simp [Completes]

@[simp] theorem completes_gets {f : σ → α} {b : α} {s t : σ} :
    Completes (gets f) s b t ↔ f s = b ∧ s = t := by
  simp [Completes]

@[simp] theorem not_completes_panic {m : String} {b : α} {s t : σ} :
    ¬ Completes (panic m : Program σ α) s b t := by
  simp [Completes]

@[simp] theorem completes_unwrap {o : Option α} {b : α} {s t : σ} :
    Completes (unwrap o : Program σ α) s b t ↔ o = some b ∧ s = t := by
  cases o <;> simp

@[simp] theorem completes_unwrapOk {o : Option α} {b : α} {s t : σ} :
    Completes (unwrapOk o : Program σ α) s b t ↔ o = some b ∧ s = t := by
  cases o <;> simp

/-- A program that ran to `a` and `t` completes there only. -/
theorem completes_of_run {p : Program σ α} {s t r : σ} {a b : α} (h : p s = (.ok a, t)) :
    Completes p s b r ↔ a = b ∧ t = r := by
  simp [Completes, h]

/-- The value and the world of a run that returned. -/
@[irreducible] def finish (p : Program σ α) (s : σ) (h : (p s).1.isOk = true) : α × σ :=
  ((p s).1.value h, (p s).2)

/-- A run that returned a value completes. -/
theorem completes_finish (p : Program σ α) (s : σ) (h : (p s).1.isOk = true) :
    Completes p s (finish p s h).1 (finish p s h).2 := by
  have value : ∀ (r : Outcome α × σ) (h : r.1.isOk = true), r = (.ok (r.1.value h), r.2) := by
    rintro ⟨a | m, t⟩ h
    · rfl
    · cases h
  unfold finish
  exact value (p s) h

/-- The invariant rule of a completed loop. -/
theorem Completes.foldlM {ι : Type u} {body : α → ι → Program σ α} {xs : List ι} {a b : α}
    {s t : σ} (h : Completes (xs.foldlM body a) s b t) (Inv : α → σ → Prop)
    (hbody : ∀ a x s b t, x ∈ xs → Inv a s → Completes (body a x) s b t → Inv b t)
    (hs : Inv a s) : Inv b t := by
  induction xs generalizing a s with
  | nil =>
    obtain ⟨rfl, rfl⟩ := completes_pure.mp h
    exact hs
  | cons x xs ih =>
    rw [List.foldlM_cons] at h
    obtain ⟨c, r, hc, h⟩ := completes_bind.mp h
    refine ih h (fun a y s b t hy => hbody a y s b t (List.mem_cons_of_mem x hy)) ?_
    exact hbody a x s c r List.mem_cons_self hs hc

/-- A loop whose every turn only changes the world. -/
theorem foldlM_unit_run {ι : Type u} {body : PUnit → ι → Program σ PUnit} {f : σ → ι → σ}
    (h : ∀ x s, body ⟨⟩ x s = (.ok ⟨⟩, f s x)) (xs : List ι) (s : σ) :
    xs.foldlM body ⟨⟩ s = (.ok ⟨⟩, xs.foldl f s) := by
  induction xs generalizing s with
  | nil => rfl
  | cons x xs ih =>
    rw [List.foldlM_cons, bind_run_ok (h x s), ih]
    rfl

/-! ### Returned values -/

/-- Every completed run of `p` returns a value in `R`. -/
def Returns (R : α → Prop) (p : Program σ α) : Prop := ∀ s a t, Completes p s a t → R a

section Returns

variable {R : α → Prop}

theorem returns_pure {a : α} (h : R a) : Returns R (pure a : Program σ α) := by
  intro s b t hc
  obtain ⟨rfl, -⟩ := completes_pure.mp hc
  exact h

theorem returns_panic (m : String) : Returns R (panic m : Program σ α) :=
  fun _ _ _ hc => absurd hc not_completes_panic

/-- A sequence returns what its second part returns, on the values of the first. -/
theorem returns_bind {S : β → Prop} {p : Program σ β} {f : β → Program σ α} (hp : Returns S p)
    (hf : ∀ b, S b → Returns R (f b)) : Returns R (p >>= f) := by
  intro s a t hc
  obtain ⟨b, r, hb, hc⟩ := completes_bind.mp hc
  exact hf b (hp s b r hb) r a t hc

/-- What the second part returns on any value. -/
theorem returns_bind_of {p : Program σ β} {f : β → Program σ α} (hf : ∀ b, Returns R (f b)) :
    Returns R (p >>= f) :=
  returns_bind (S := fun _ => True) (fun _ _ _ _ => trivial) fun b _ => hf b

theorem returns_foldlM {ι : Type u} {body : α → ι → Program σ α} (xs : List ι)
    (hb : ∀ a, ∀ x ∈ xs, R a → Returns R (body a x)) {a : α} (ha : R a) :
    Returns R (xs.foldlM body a) := by
  intro s b t hc
  refine hc.foldlM (fun a _ => R a) (fun a x s b t hx hRa hbody => ?_) ha
  exact hb a x hx hRa s b t hbody

end Returns

/-! ### Invariants of a run

What a run keeps, however it ends. -/

/-- Every run of `p`, completed or panicked, keeps `P`. -/
def Keeps (P : σ → Prop) (p : Program σ α) : Prop := ∀ s, P s → P (p s).2

section Keeps

variable {P : σ → Prop}

theorem Keeps.of_completes {p : Program σ α} (h : Keeps P p) {s t : σ} {a : α} (hs : P s)
    (hc : Completes p s a t) : P t := by
  have := h s hs
  rwa [hc] at this

theorem keeps_of_run (p : Program σ α) (h : ∀ s, (p s).2 = s) : Keeps P p := fun s hs => by
  rw [h s]
  exact hs

@[simp] theorem keeps_pure (a : α) : Keeps P (pure a : Program σ α) := fun _ hs => hs

@[simp] theorem keeps_panic (m : String) : Keeps P (panic m : Program σ α) := fun _ hs => hs

@[simp] theorem keeps_unwrap (o : Option α) : Keeps P (unwrap o : Program σ α) := by
  cases o <;> simp

@[simp] theorem keeps_unwrapOk (o : Option α) : Keeps P (unwrapOk o : Program σ α) := by
  cases o <;> simp

@[simp] theorem keeps_expectOk {ε : Type u} (r : Except ε α) :
    Keeps P (expectOk r : Program σ α) := by
  cases r <;> simp

/-- What the first part of a sequence reaches and the second keeps, the sequence reaches. -/
theorem run_bind_of {p : Program σ α} {f : α → Program σ β} {s : σ} (hp : P (p s).2)
    (hf : ∀ a, Keeps P (f a)) : P ((p >>= f) s).2 := by
  rw [bind_run]
  rcases h : p s with ⟨a | m, t⟩ <;> rw [h] at hp
  · exact hf a t hp
  · exact hp

theorem keeps_bind {p : Program σ α} {f : α → Program σ β} (hp : Keeps P p)
    (hf : ∀ a, Keeps P (f a)) : Keeps P (p >>= f) := by
  intro s hs
  exact run_bind_of (hp s hs) hf

/-- A program keeps what it keeps with its result changed. -/
theorem keeps_of_bind_pure {p : Program σ α} {g : α → β}
    (h : Keeps P (p >>= fun a => (pure (g a) : Program σ β))) : Keeps P p := by
  intro s hs
  have ht := h s hs
  rw [bind_run] at ht
  rcases hp : p s with ⟨a | m, t⟩ <;> rw [hp] at ht <;> exact ht

theorem keeps_foldlM {ι : Type u} {body : α → ι → Program σ α} (xs : List ι)
    (hb : ∀ a, ∀ x ∈ xs, Keeps P (body a x)) (a : α) : Keeps P (xs.foldlM body a) := by
  induction xs generalizing a with
  | nil => exact keeps_pure a
  | cons x xs ih =>
    rw [List.foldlM_cons]
    exact keeps_bind (hb a x List.mem_cons_self) fun a =>
      ih (fun a y hy => hb a y (List.mem_cons_of_mem x hy)) a

end Keeps

/-! ### Postconditions -/

/-- From the world `s`, the program `p` completes in `Q` or panics in `P`. -/
def Meets (p : Program σ α) (s : σ) (Q : α → σ → Prop) (P : σ → Prop) : Prop :=
  match p s with
  | (.ok a, t) => Q a t
  | (.panicked _, t) => P t

variable {p : Program σ α} {s : σ} {Q : α → σ → Prop} {P : σ → Prop}

theorem Meets.of_completes (h : Meets p s Q P) {a : α} {t : σ} (hc : Completes p s a t) : Q a t := by
  unfold Meets at h
  rwa [hc] at h

@[simp] theorem meets_pure {a : α} : Meets (pure a : Program σ α) s Q P ↔ Q a s := Iff.rfl

@[simp] theorem meets_panic {m : String} : Meets (panic m : Program σ α) s Q P ↔ P s := Iff.rfl

@[simp] theorem meets_gets {f : σ → α} : Meets (gets f) s Q P ↔ Q (f s) s := Iff.rfl

theorem meets_bind {f : α → Program σ β} {Q : β → σ → Prop} :
    Meets (p >>= f) s Q P ↔ Meets p s (fun a t => Meets (f a) t Q P) P := by
  unfold Meets
  rw [bind_run]
  rcases p s with ⟨_ | _, t⟩ <;> rfl

theorem Meets.mono {Q' : α → σ → Prop} {P' : σ → Prop} (h : Meets p s Q P)
    (hQ : ∀ a t, Q a t → Q' a t) (hP : ∀ t, P t → P' t) : Meets p s Q' P' := by
  unfold Meets at h ⊢
  rcases hp : p s with ⟨_ | _, t⟩ <;> simp only [hp] at h ⊢
  · exact hQ _ _ h
  · exact hP _ h

/-- The postcondition of a run is about a run that completed. -/
theorem Meets.completed (h : Meets p s Q P) :
    Meets p s (fun a t => Completes p s a t ∧ Q a t) P := by
  unfold Meets at h ⊢
  rcases hp : p s with ⟨_ | _, t⟩ <;> simp only [hp] at h ⊢
  · exact ⟨hp, h⟩
  · exact h

/-- A program meets what holds of its completed runs and of its panics. -/
theorem meets_of_runs (hQ : ∀ a t, Completes p s a t → Q a t)
    (hP : ∀ m t, p s = (.panicked m, t) → P t) : Meets p s Q P := by
  unfold Meets
  rcases hp : p s with ⟨a | m, t⟩
  · exact hQ a t hp
  · exact hP m t hp

/-- What a program keeps holds however its run ends. -/
theorem Keeps.meets {R : σ → Prop} (h : Keeps R p) (hs : R s) (hP : ∀ t, R t → P t) :
    Meets p s (fun _ t => R t) P := by
  have ht := h s hs
  refine meets_of_runs (fun a t hc => ?_) (fun m t hm => hP t ?_)
  · rwa [hc] at ht
  · rwa [hm] at ht

theorem Meets.of_run {R : σ → Prop} (h : Meets p s (fun _ t => R t) R) : R (p s).2 := by
  unfold Meets at h
  rcases hp : p s with ⟨a | m, t⟩ <;> rw [hp] at h <;> exact h

theorem meets_of_eq_ok {a : α} {t : σ} (h : p s = (.ok a, t)) (hQ : Q a t) : Meets p s Q P := by
  unfold Meets
  rw [h]
  exact hQ

/-- What a program meets is decided by the run. -/
theorem meets_iff_of_run_ok {a : α} {t : σ} (h : p s = (.ok a, t)) : Meets p s Q P ↔ Q a t := by
  unfold Meets
  rw [h]

theorem meets_iff_of_run_panicked {m : String} {t : σ} (h : p s = (.panicked m, t)) :
    Meets p s Q P ↔ P t := by
  unfold Meets
  rw [h]

/-- **The invariant rule of a loop.** Every iteration keeps the invariant, and panics only in
the panic condition. -/
theorem meets_foldlM {ι : Type u} {body : α → ι → Program σ α} {Inv : α → σ → Prop}
    (xs : List ι) (hbody : ∀ a x t, x ∈ xs → Inv a t → Meets (body a x) t Inv P) :
    ∀ (a : α) (s : σ), Inv a s → Meets (xs.foldlM body a) s Inv P := by
  induction xs with
  | nil => intro a s h; exact h
  | cons x xs ih =>
    intro a s h
    rw [List.foldlM_cons, meets_bind]
    refine (hbody a x s List.mem_cons_self h).mono (fun b t hb => ?_) (fun _ ht => ht)
    exact ih (fun a y t hy => hbody a y t (List.mem_cons_of_mem x hy)) b t hb

end Program

end Rust
