import PlacementCenter.Storage.LogImages

/-!
# The life of a log store

The process may be cut off between any two writes of the log store, by a crash or by a panic of the
store, and the store is then opened again on what was written.

## Main definitions

* `StoreLife C self₀ w₀ turns self w`: operations and crashes lead from one store to another
* `Leads s₀ turns s`: the same on the images
* `StoreOp.StartsAbove n`: an append leaves the entries up to `n` alone
* `StoreTurn.Orderly`: the terms of appends follow, and no append that replaces entries is cut off

## Main results

* `StoreLife.rule`: what every turn keeps on the images, a life keeps
* `readBack_of_life`: along every life the store shows an image of its history
* `kept_of_life`: **no crash takes an entry back** below the appends that follow
* `inOrder_of_life`: terms stay in order while no append is cut off that replaces entries
* `torn_of_life`: an append that replaces entries may leave its first one before the old tail
-/

namespace PlacementCenter.Storage

open Rust Rust.Prost Raft Program

/-! ### Lives -/

/-- A turn of a life: an operation completes, or it is cut off. -/
inductive StoreTurn where
  | done (op : StoreOp)
  | cut (op : StoreOp)

/-- The operation of a turn. -/
def StoreTurn.op : StoreTurn → StoreOp
  | done op => op
  | cut op => op

variable {ε : Type}

/-- The lives of a store whose turns meet a condition, newest turn first. An operation that is cut
off, by a crash or a panic, is followed by an opening of the store. -/
inductive StoreLife (C : RaftMachineStorage → ColumnFamily → StoreTurn → Prop)
    (self₀ : RaftMachineStorage) (w₀ : World ε) :
    List StoreTurn → RaftMachineStorage → World ε → Prop where
  | start : StoreLife C self₀ w₀ [] self₀ w₀
  | done {turns self w self' w'} (op : StoreOp) (hl : StoreLife C self₀ w₀ turns self w)
    (hx : op.Expected self (cluster w)) (hC : C self (cluster w) (.done op))
    (hc : Completes (op.run self) w self' w') : StoreLife C self₀ w₀ (.done op :: turns) self' w'
  | cut {turns self w pt self' w'} (op : StoreOp) (hl : StoreLife C self₀ w₀ turns self w)
    (hx : op.Expected self (cluster w)) (hC : C self (cluster w) (.cut op))
    (hpt : World.CutAt w (op.run self w).2 pt)
    (hnew : Completes RaftMachineStorage.new (World.reopen pt.1 pt.2) self' w') :
    StoreLife C self₀ w₀ (.cut op :: turns) self' w'

/-- The turns of a life on the images. -/
inductive Leads (s₀ : LogImage) : List StoreTurn → LogImage → Prop where
  | start : Leads s₀ [] s₀
  | done {turns s} (op : StoreOp) (h : Leads s₀ turns s) : Leads s₀ (.done op :: turns) (op.write s)
  | cut {turns s s'} (op : StoreOp) (h : Leads s₀ turns s) (hl : op.Leaves s s') :
    Leads s₀ (.cut op :: turns) s'.reopened

section lives

variable {C : RaftMachineStorage → ColumnFamily → StoreTurn → Prop}
  {self₀ self : RaftMachineStorage} {w₀ w : World ε} {s₀ : LogImage} {turns : List StoreTurn}

/-- The turns of a life may meet a weaker condition. -/
theorem StoreLife.mono {C' : RaftMachineStorage → ColumnFamily → StoreTurn → Prop}
    (hl : StoreLife C self₀ w₀ turns self w) (hi : ∀ self m turn, C self m turn → C' self m turn) :
    StoreLife C' self₀ w₀ turns self w := by
  induction hl with
  | start => exact .start
  | done op hl hx hC hc ih => exact ih.done op hx (hi _ _ _ hC) hc
  | cut op hl hx hC hpt hnew ih => exact ih.cut op hx (hi _ _ _ hC) hpt hnew

/-- A life goes on with another one. -/
theorem StoreLife.trans {turns' : List StoreTurn} {self' : RaftMachineStorage} {w' : World ε}
    (hl : StoreLife C self₀ w₀ turns self w) (hl' : StoreLife C self w turns' self' w') :
    StoreLife C self₀ w₀ (turns' ++ turns) self' w' := by
  induction hl' with
  | start => exact hl
  | done op _ hx hC hc ih => exact ih.done op hx hC hc
  | cut op _ hx hC hpt hnew ih => exact ih.cut op hx hC hpt hnew

/-- **The rule of lives**: what every turn keeps on the images, a life keeps. -/
theorem StoreLife.rule {P : List StoreTurn → LogImage → Prop}
    (hl : StoreLife C self₀ w₀ turns self w) (h₀ : Holds self₀ (cluster w₀) s₀) (hP : P [] s₀)
    (hdone : ∀ {turns self self'} {w w' : World ε} {s op}, Holds self (cluster w) s →
      op.Expected self (cluster w) → C self (cluster w) (.done op) →
        Completes (op.run self) w self' w' → P turns s → P (.done op :: turns) (op.write s))
    (hcut : ∀ {turns self} {w : World ε} {s s' op}, Holds self (cluster w) s →
      op.Expected self (cluster w) → C self (cluster w) (.cut op) → P turns s → op.Leaves s s' →
        P (.cut op :: turns) s'.reopened) :
    ∃ s, Holds self (cluster w) s ∧ P turns s := by
  induction hl with
  | start => exact ⟨s₀, h₀, hP⟩
  | done op hl hx hC hc ih =>
    obtain ⟨s, hs, hp⟩ := ih
    exact ⟨_, hs.step hx hc, hdone hs hx hC hc hp⟩
  | @cut _ _ _ pt _ _ op hl hx hC hpt hnew ih =>
    obtain ⟨s, hs, hp⟩ := ih
    obtain ⟨s', hleaves, hdisk⟩ := hs.cut hx hpt
    have hre : OnDisk (cluster (World.reopen pt.1 pt.2)) s' := hdisk
    exact ⟨_, hre.holds_reopened hnew, hcut hs hx hC hp hleaves⟩

/-- The store on the empty database. -/
theorem Holds.start (hnew : Completes RaftMachineStorage.new (World.empty : World ε) self₀ w₀) :
    Holds self₀ (cluster w₀) .start := by
  have hdisk : OnDisk (cluster (World.empty : World ε))
      ⟨[], .default, .default, none, .default⟩ := {
    log := .empty
    bound := by decide
    hardState := hardStateIn_empty
    confState := confStateIn_empty
    first := readRecord_empty _
    commit_le := Nat.le_refl 0 }
  exact hdisk.holds_reopened hnew

/-- Along a life the store holds an image. -/
theorem StoreLife.holds (hl : StoreLife C self₀ w₀ turns self w)
    (h₀ : Holds self₀ (cluster w₀) s₀) : ∃ s, Holds self (cluster w) s := by
  obtain ⟨s, hs, -⟩ := hl.rule h₀ (P := fun _ _ => True) trivial (fun _ _ _ _ _ => trivial)
    (fun _ _ _ _ _ => trivial)
  exact ⟨s, hs⟩

/-- **Along every life the store shows an image of its history**, and it can be opened again
wherever the next operation is cut off. -/
theorem readBack_of_life (hnew : Completes RaftMachineStorage.new World.empty self₀ w₀)
    (hl : StoreLife C self₀ w₀ turns self w) :
    (∃ s, Leads .start turns s ∧ s.ReadBack self w) ∧
      ∀ op : StoreOp, op.Expected self (cluster w) → ∀ pt, World.CutAt w (op.run self w).2 pt →
        ∃ self', Completes RaftMachineStorage.new (World.reopen pt.1 pt.2) self'
          (World.reopen pt.1 pt.2) := by
  obtain ⟨s, hs, hleads⟩ := hl.rule (.start hnew) (P := Leads .start) .start
    (fun _ _ _ _ h => .done _ h) (fun _ _ _ h hleaves => .cut _ h hleaves)
  refine ⟨⟨s, hleads, hs.readBack⟩, ?_⟩
  intro op hx pt hpt
  obtain ⟨s', -, hdisk⟩ := hs.cut hx hpt
  have hre : OnDisk (cluster (World.reopen pt.1 pt.2)) s' := hdisk
  exact hre.opens

/-! ### Entries below the appends -/

/-- The operation leaves the entries up to an index alone. -/
def StoreOp.StartsAbove (n : UInt64) : StoreOp → Prop
  | raft (.append es) => ∀ e ∈ es.head?, n < e.index
  | _ => True

/-- The images agree up to an index. -/
structure LogImage.SameUpTo (n : ℕ) (s s' : LogImage) : Prop where
  le : n ≤ s'.entries.length
  same : s'.entries.take n = s.entries.take n

theorem LogImage.SameUpTo.entry {n : UInt64} {s s' : LogImage} (h : s.SameUpTo n.toNat s')
    {idx : UInt64} (hle : idx ≤ n) : s'.entry idx = s.entry idx := by
  rw [LogImage.entry, LogImage.entry]
  split_ifs with h0
  · rfl
  · have hlt : idx.toNat - 1 < n.toNat := by
      have := UInt64.le_iff_toNat_le.mp hle
      have : idx.toNat ≠ 0 := fun h => h0 (UInt64.toNat_inj.mp h)
      omega
    rw [← List.getElem?_take_of_lt hlt, h.same, List.getElem?_take_of_lt hlt]

/-- An append above an index keeps the entries up to it. -/
theorem LogImage.SameUpTo.append {n : UInt64} {s s' : LogImage} {m : ColumnFamily}
    (h : s.SameUpTo n.toNat s') (hlog : StoredLog m s'.entries) {es : List Entry}
    (hes : ∀ e ∈ es.head?, n < e.index) :
    s.SameUpTo n.toNat { s' with entries := refAppend s'.entries es } := by
  cases es with
  | nil => exact h
  | cons e es =>
    have hlt := UInt64.lt_iff_toNat_lt.mp (hes e rfl)
    have hle := h.le
    -- an append drops the entries from its first index on
    have hkept : n.toNat ≤ (s'.entries.take (e.index.toNat - 1)).length := by
      rw [List.length_take]
      omega
    rw [refAppend_eq_appendLog hlog]
    refine ⟨?_, ?_⟩
    · rw [appendLog, List.length_append]
      exact Nat.le_trans hkept (Nat.le_add_right _ _)
    · rw [appendLog, List.take_append_of_le_length hkept, List.take_take,
        Nat.min_eq_left (by omega)]
      exact h.same

/-- **A turn above an index** keeps the entries up to it, also when it is cut off. -/
theorem LogImage.SameUpTo.leaves {n : UInt64} {s s' t : LogImage} {m : ColumnFamily} {op : StoreOp}
    (h : s.SameUpTo n.toNat s') (hlog : StoredLog m s'.entries) (ho : op.StartsAbove n)
    (hl : op.Leaves s' t) : s.SameUpTo n.toNat t := by
  have hwrite : s.SameUpTo n.toNat (op.write s') := by
    cases op with
    | raft op =>
      cases op with
      | append es => exact h.append hlog ho
      | commmitIndex idx =>
        rw [StoreOp.write]
        cases s'.entry idx <;> exact ⟨h.le, h.same⟩
      | _ => exact ⟨h.le, h.same⟩
    | _ => exact h
  cases hl with
  | undone => exact h
  | written => exact hwrite
  | part es es' =>
    -- the entries that were appended begin as the batch does
    refine h.append hlog fun e he => ho e ?_
    rw [List.head?_append, he]
    rfl
  | torn e es hle =>
    -- the torn entry lies above the index
    have hlt := UInt64.lt_iff_toNat_lt.mp (ho e rfl)
    refine ⟨?_, ?_⟩
    · show n.toNat ≤ (s'.entries.set (e.index.toNat - 1) e).length
      rw [List.length_set]
      exact h.le
    · show (s'.entries.set (e.index.toNat - 1) e).take n.toNat = _
      rw [List.take_set_of_le (by omega)]
      exact h.same
  | first => exact ⟨h.le, h.same⟩

/-- A life whose appends start above an index leaves the image as it was up to there. -/
theorem sameUpTo_of_life {C' : RaftMachineStorage → ColumnFamily → StoreTurn → Prop}
    {self' : RaftMachineStorage} {w' : World ε} {turns' : List StoreTurn} {n : UInt64}
    (hs : Holds self (cluster w) s₀) (hn : n.toNat ≤ s₀.entries.length)
    (hl' : StoreLife C' self w turns' self' w') (habove : ∀ t ∈ turns', t.op.StartsAbove n) :
    ∃ s', Holds self' (cluster w') s' ∧ s₀.SameUpTo n.toNat s' := by
  obtain ⟨s', hs', hsame⟩ := hl'.rule hs
    (P := fun turns s' => (∀ t ∈ turns, t.op.StartsAbove n) → s₀.SameUpTo n.toNat s')
    (fun _ => ⟨hn, rfl⟩)
    (fun h _ _ _ ih ha => (ih fun t ht => ha t (List.mem_cons_of_mem _ ht)).leaves h.disk.log
      (ha _ List.mem_cons_self) (.written _))
    (fun h _ _ ih hleaves ha =>
      have := (ih fun t ht => ha t (List.mem_cons_of_mem _ ht)).leaves h.disk.log
        (ha _ List.mem_cons_self) hleaves
      ⟨this.le, this.same⟩)
  exact ⟨s', hs', hsame habove⟩

/-- An index that is kept is not beyond the last one. -/
theorem LogImage.SameUpTo.le_last {s s' : LogImage} {n : UInt64} (h : s.SameUpTo n.toNat s')
    (hs' : Holds self (cluster w) s') : n ≤ s'.lastIndex := by
  rw [UInt64.le_iff_toNat_le, hs'.toNat_lastIndex]
  exact h.le

/-- **No crash takes an entry back** below the appends that follow: in every continuation of a life
the entries up to an index are read back unchanged, as long as the appends start above it. -/
theorem kept_of_life {C' : RaftMachineStorage → ColumnFamily → StoreTurn → Prop}
    {self' : RaftMachineStorage} {w' : World ε} {turns' : List StoreTurn} {n last : UInt64}
    (hnew : Completes RaftMachineStorage.new World.empty self₀ w₀)
    (hl : StoreLife C self₀ w₀ turns self w) (hlast : Completes self.lastIndex w last w)
    (hn : n ≤ last) (hl' : StoreLife C' self w turns' self' w')
    (habove : ∀ t ∈ turns', t.op.StartsAbove n) :
    (∃ last', Completes self'.lastIndex w' last' w' ∧ n ≤ last') ∧
      ∀ idx ≤ n, ∀ e, Completes (RaftMachineStorage.entryByIdx idx) w e w ↔
        Completes (RaftMachineStorage.entryByIdx idx) w' e w' := by
  obtain ⟨s, hs⟩ := hl.holds (.start hnew)
  obtain ⟨rfl, -⟩ := (completes_of_run hs.readBack.last).mp hlast
  have hlen := UInt64.le_iff_toNat_le.mp hn
  rw [hs.toNat_lastIndex] at hlen
  obtain ⟨s', hs', hsame⟩ := sameUpTo_of_life hs hlen hl' habove
  have hn' := hsame.le_last hs'
  refine ⟨⟨_, hs'.readBack.last, hn'⟩, ?_⟩
  intro idx hidx e
  rw [hs.completes_entry (UInt64.le_trans hidx hn), hs'.completes_entry (UInt64.le_trans hidx hn'),
    hsame.entry hidx]

/-! ### Terms -/

/-- The terms of some entries are in order. -/
def TermsInOrder (es : List Entry) : Prop := es.Pairwise fun e e' => e.term ≤ e'.term

instance (es : List Entry) : Decidable (TermsInOrder es) :=
  inferInstanceAs (Decidable (es.Pairwise fun e e' => e.term ≤ e'.term))

/-- What the raft crate promises about the terms of an append: they are in order, and not below that
of the entry before. -/
def StoreOp.TermsFollow (m : ColumnFamily) : StoreOp → Prop
  | raft (.append es) => TermsInOrder es ∧ ∀ e ∈ es.head?, ∀ e',
      entryIn m (e.index - 1) = some (some e') → e'.term ≤ e.term
  | _ => True

/-- The operation replaces no entry: an append starts behind the last index. -/
def StoreOp.Extends (self : RaftMachineStorage) (m : ColumnFamily) : StoreOp → Prop
  | raft (.append es) => ∀ e ∈ es.head?, e.index = lastIndexIn self m + 1
  | _ => True

/-- The terms of appends follow, and none is cut off that replaces entries. -/
def StoreTurn.Orderly (self : RaftMachineStorage) (m : ColumnFamily) : StoreTurn → Prop
  | done op => op.TermsFollow m
  | cut op => op.TermsFollow m ∧ op.Extends self m

/-- An append whose terms follow leaves the terms in order. -/
theorem TermsInOrder.append {m : ColumnFamily} {log es : List Entry} (h : TermsInOrder log)
    (hlog : StoredLog m log) (hle : ∀ e ∈ es.head?, e.index ≠ 0 ∧ e.index.toNat ≤ log.length + 1)
    (hes : (StoreOp.raft (.append es)).TermsFollow m) : TermsInOrder (refAppend log es) := by
  cases es with
  | nil => exact h
  | cons e es =>
    obtain ⟨hsorted, hprev⟩ := hes
    obtain ⟨hpos, hle⟩ := hle e rfl
    have hone : 1 ≤ e.index.toNat :=
      Nat.one_le_iff_ne_zero.mpr fun h0 => hpos (UInt64.toNat_inj.mp h0)
    rw [refAppend_eq_appendLog hlog, appendLog, TermsInOrder, List.pairwise_append]
    refine ⟨h.sublist (List.take_sublist _ _), hsorted, ?_⟩
    intro a ha b hb
    obtain ⟨i, hi, rfl⟩ := List.getElem_of_mem ha
    rw [List.length_take] at hi
    -- the entry before the first appended one
    have hprevIdx : (e.index - 1).toNat = e.index.toNat - 1 :=
      UInt64.toNat_sub_of_le _ _ (UInt64.le_iff_toNat_le.mpr hone)
    have hne : e.index - 1 ≠ 0 := by
      intro h0
      rw [h0] at hprevIdx
      have : (0 : UInt64).toNat = 0 := rfl
      omega
    obtain ⟨e', hget, -, hent⟩ := hlog.entry_at hne (by omega)
    rw [hprevIdx] at hget
    obtain ⟨hlt, rfl⟩ := List.getElem?_eq_some_iff.mp hget
    calc (log.take (e.index.toNat - 1))[i].term
        = log[i].term := by rw [List.getElem_take]
      _ ≤ log[e.index.toNat - 1 - 1].term := by
        rcases Nat.lt_or_eq_of_le (show i ≤ e.index.toNat - 1 - 1 by omega) with hlt' | rfl
        · exact List.pairwise_iff_getElem.mp h i _ (by omega) hlt hlt'
        · exact UInt64.le_refl _
      _ ≤ e.term := hprev e rfl _ hent
      _ ≤ b.term := by
        rcases List.mem_cons.mp hb with rfl | hb
        · exact UInt64.le_refl _
        · exact (List.pairwise_cons.mp hsorted).1 b hb

/-- The first of the appended entries go first. -/
theorem StoreOp.TermsFollow.left {m : ColumnFamily} {es es' : List Entry}
    (h : (StoreOp.raft (.append (es ++ es'))).TermsFollow m) :
    (StoreOp.raft (.append es)).TermsFollow m :=
  ⟨(List.pairwise_append.mp h.1).1, fun e he => h.2 e (by rw [List.head?_append, he]; rfl)⟩

/-- The first index of an expected append, when it leaves no gap. -/
theorem Holds.first_le (h : Holds self (cluster w) s₀) {es : List Entry}
    (hx : (StoreOp.raft (.append es)).Expected self (cluster w))
    (hle : ∀ e ∈ es.head?, e.index.toNat ≤ s₀.entries.length + 1) :
    ∀ e ∈ es.head?, e.index ≠ 0 ∧ e.index.toNat ≤ s₀.entries.length + 1 := by
  intro e he
  refine ⟨?_, hle e he⟩
  intro h0
  have hlt := hx.2.2 _ h.disk.hardState e he
  rw [h0] at hlt
  exact UInt64.not_lt_zero hlt

/-- An operation that completes keeps the terms in order. -/
theorem Holds.inOrder_write {self' : RaftMachineStorage} {w' : World ε} {op : StoreOp}
    (h : Holds self (cluster w) s₀) (hx : op.Expected self (cluster w))
    (hf : op.TermsFollow (cluster w)) (hc : Completes (op.run self) w self' w')
    (ho : TermsInOrder s₀.entries) : TermsInOrder (op.write s₀).entries := by
  cases op with
  | raft op =>
    cases op with
    | append es =>
      obtain ⟨⟨r, core⟩, t, hr, -⟩ := completes_bind.mp hc
      obtain ⟨-, ⟨rfl, -⟩ | ⟨-, hg, -⟩⟩ := RaftMachineStorage.completes_append hr
      · exact ho
      · exact ho.append h.disk.log (h.first_le hx (h.appendable hx hg).follows) hf
    | commmitIndex idx =>
      rw [StoreOp.write]
      cases s₀.entry idx <;> exact ho
    | _ => exact ho
  | _ => exact ho

/-- An operation that replaces nothing keeps the terms in order, wherever it is cut off. -/
theorem Holds.inOrder_leaves {op : StoreOp} {t : LogImage} (h : Holds self (cluster w) s₀)
    (hx : op.Expected self (cluster w)) (hf : op.TermsFollow (cluster w))
    (he : op.Extends self (cluster w)) (hl : op.Leaves s₀ t) (ho : TermsInOrder s₀.entries) :
    TermsInOrder t.entries := by
  have hnext : ∀ e : Entry, e.index = lastIndexIn self (cluster w) + 1 →
      e.index.toNat = s₀.entries.length + 1 := by
    intro e he
    -- the last index does not run over
    have hbound := h.disk.bound
    have hone : (1 : UInt64).toNat = 1 := rfl
    rw [he, h.lastIndexIn_eq, UInt64.toNat_add, h.toNat_lastIndex, hone,
      Nat.mod_eq_of_lt (by omega)]
  have happ : ∀ es : List Entry, op = .raft (.append es) →
      ∀ e ∈ es.head?, e.index ≠ 0 ∧ e.index.toNat ≤ s₀.entries.length + 1 := by
    rintro es rfl
    exact h.first_le hx fun e hmem => Nat.le_of_eq (hnext e (he e hmem))
  cases hl with
  | undone => exact ho
  | written =>
    cases op with
    | raft op =>
      cases op with
      | append es => exact ho.append h.disk.log (happ es rfl) hf
      | commmitIndex idx =>
        rw [StoreOp.write]
        cases s₀.entry idx <;> exact ho
      | _ => exact ho
    | _ => exact ho
  | part es es' =>
    refine ho.append h.disk.log (fun e hmem => happ _ rfl e ?_) hf.left
    rw [List.head?_append, hmem]
    rfl
  | torn e es hle =>
    -- a torn entry lies inside the log, an extending one behind it
    have := hnext e (he e rfl)
    omega
  | first => exact ho

/-- **Terms stay in order**, through any crashes, while no append is cut off that replaces
entries. -/
theorem inOrder_of_life {last i j : UInt64} {e e' : Entry}
    (hnew : Completes RaftMachineStorage.new World.empty self₀ w₀)
    (hl : StoreLife StoreTurn.Orderly self₀ w₀ turns self w)
    (hlast : Completes self.lastIndex w last w) (hij : i ≤ j) (hj : j ≤ last)
    (he : Completes (RaftMachineStorage.entryByIdx i) w (some e) w)
    (he' : Completes (RaftMachineStorage.entryByIdx j) w (some e') w) : e.term ≤ e'.term := by
  obtain ⟨s, hs, hsorted⟩ := hl.rule (.start hnew) (P := fun _ s => TermsInOrder s.entries)
    List.Pairwise.nil (fun h hx hf hc ho => h.inOrder_write hx hf hc ho)
    (fun h hx hf ho hleaves => (h.inOrder_leaves hx hf.1 hf.2 hleaves ho : TermsInOrder _))
  obtain ⟨rfl, -⟩ := (completes_of_run hs.readBack.last).mp hlast
  -- both are entries of the image
  have hat : ∀ {k : UInt64} {a : Entry}, k ≤ s.lastIndex →
      Completes (RaftMachineStorage.entryByIdx k) w (some a) w →
        s.entries[k.toNat - 1]? = some a := by
    intro k a hk ha
    have hread := (hs.completes_entry hk).mp ha
    rw [LogImage.entry] at hread
    split_ifs at hread
    exact hread
  obtain ⟨hi, rfl⟩ := List.getElem?_eq_some_iff.mp (hat (UInt64.le_trans hij hj) he)
  obtain ⟨hj, rfl⟩ := List.getElem?_eq_some_iff.mp (hat hj he')
  have hle := UInt64.le_iff_toNat_le.mp hij
  rcases Nat.lt_or_eq_of_le (Nat.sub_le_sub_right hle 1) with hlt | heq
  · exact List.pairwise_iff_getElem.mp hsorted _ _ hi hj hlt
  · simp only [heq]
    exact UInt64.le_refl _

/-! ### An append that is cut off -/

/-- The writes of an append come after what was there. -/
theorem points_appended (es : List Entry) (w : World ε) : w.points <:+ (appended w es).points := by
  induction es generalizing w with
  | nil => exact List.suffix_rfl
  | cons e es ih => exact List.IsSuffix.trans ⟨[_, _], rfl⟩ (ih (appendedEntry w e))

/-- An append that the store admits goes through. -/
theorem Holds.completes_append (h : Holds self (cluster w) s₀) {e : Entry} (es : List Entry)
    (hlo : s₀.firstIndex ≤ e.index) (hhi : e.index ≤ s₀.lastIndex + 1) :
    Completes ((StoreOp.raft (.append (e :: es))).run self) w (self.afterAppend (e :: es))
      (putRecord (appended w (e :: es)) .uncommit
        (Bincode.serialize (self.afterAppend (e :: es)).uncommitIndex)) := by
  have hg : RaftMachineStorage.AppendGuard self (cluster w) (e :: es) := by
    rintro e' ⟨⟩
    rw [h.firstIndexIn_eq, h.lastIndexIn_eq]
    exact ⟨hlo, hhi⟩
  rw [StoreOp.run, RaftOp.run, Completes, bind_run_ok (RaftMachineStorage.append_run_cons e es hg)]
  rfl

/-- Its first entry is written before its last index. -/
theorem Holds.cutAt_entry (h : Holds self (cluster w) s₀) {e : Entry} (es : List Entry)
    (hlo : s₀.firstIndex ≤ e.index) (hhi : e.index ≤ s₀.lastIndex + 1) :
    World.CutAt w ((StoreOp.raft (.append (e :: es))).run self w).2
      ((putRecord w (.entry e.index) (encodeToVec e)).columns, w.events) := by
  rw [h.completes_append es hlo hhi]
  have htail : (appendedEntry w e).points <:+ (putRecord (appended w (e :: es)) .uncommit
      (Bincode.serialize (self.afterAppend (e :: es)).uncommitIndex)).points :=
    (points_appended es (appendedEntry w e)).trans (List.suffix_cons _ _)
  exact ⟨w.points, List.suffix_cons _ _, (List.suffix_cons _ _).trans htail⟩

/-- There the life may go on. -/
theorem StoreLife.cut_entry (hl : StoreLife C self₀ w₀ turns self w)
    (h : Holds self (cluster w) s₀) {e : Entry} {es : List Entry}
    (hx : (StoreOp.raft (.append (e :: es))).Expected self (cluster w))
    (hC : C self (cluster w) (.cut (.raft (.append (e :: es))))) (hlo : s₀.firstIndex ≤ e.index)
    (hhi : e.index ≤ s₀.lastIndex + 1) :
    ∃ self' w', StoreLife C self₀ w₀ (.cut (.raft (.append (e :: es))) :: turns) self' w' := by
  have hpt := h.cutAt_entry es hlo hhi
  obtain ⟨s, -, hdisk⟩ := h.cut hx hpt
  obtain ⟨self', hnew⟩ := OnDisk.opens (w := World.reopen _ w.events) hdisk
  exact ⟨self', _, hl.cut _ hx hC hpt hnew⟩

/-- **A cut may leave the first entry of an append before the old tail**: on every store and for
every append that replaces entries, there is a point at which the store is opened with the new entry
and everything behind it as it was. -/
theorem torn_of_life {first last : UInt64} {e : Entry} {es : List Entry}
    (hnew : Completes RaftMachineStorage.new World.empty self₀ w₀)
    (hl : StoreLife C self₀ w₀ turns self w)
    (hx : (StoreOp.raft (.append (e :: es))).Expected self (cluster w))
    (hfirst : Completes self.firstIndex w first w) (hlo : first ≤ e.index)
    (hlast : Completes self.lastIndex w last w) (hlt : e.index < last) :
    ∃ pt self' w', World.CutAt w ((StoreOp.raft (.append (e :: es))).run self w).2 pt ∧
      Completes RaftMachineStorage.new (World.reopen pt.1 pt.2) self' w' ∧
      Completes (RaftMachineStorage.entryByIdx e.index) w' (some e) w' ∧
      ∀ idx, e.index < idx → idx ≤ last → ∀ old,
        Completes (RaftMachineStorage.entryByIdx idx) w old w →
          Completes (RaftMachineStorage.entryByIdx idx) w' old w' := by
  obtain ⟨s, hs⟩ := hl.holds (.start hnew)
  obtain ⟨rfl, -⟩ := (completes_of_run hs.readBack.last).mp hlast
  obtain ⟨rfl, -⟩ := (completes_of_run hs.readBack.first).mp hfirst
  have hlen := hs.toNat_lastIndex
  have hlt' := UInt64.lt_iff_toNat_lt.mp hlt
  have hhi : e.index ≤ s.lastIndex + 1 := by
    have hbound := hs.disk.bound
    have hone : (1 : UInt64).toNat = 1 := rfl
    rw [UInt64.le_iff_toNat_le, UInt64.toNat_add, hone, Nat.mod_eq_of_lt (by omega)]
    omega
  have hpos : e.index ≠ 0 := (hs.first_le hx (by rintro e' ⟨⟩; omega) e rfl).1
  have hdisk := hs.disk.putEntry (hs.disk.log.putWithin hpos (by omega)) (List.length_set ..)
  rw [← cluster_putRecord] at hdisk
  obtain ⟨self', hnew'⟩ := OnDisk.opens (w := World.reopen _ w.events) hdisk
  have hs' := OnDisk.holds_reopened (w := World.reopen _ w.events) hdisk hnew'
  -- the log is as long as before
  have hlast' : ∀ idx : UInt64, idx ≤ s.lastIndex → idx ≤ LogImage.lastIndex
      { s.reopened with entries := s.entries.set (e.index.toNat - 1) e } := by
    intro idx hidx
    have hlen' := hs'.toNat_lastIndex
    have hsame : (s.entries.set (e.index.toNat - 1) e).length = s.entries.length :=
      List.length_set ..
    rw [UInt64.le_iff_toNat_le] at hidx ⊢
    exact Nat.le_trans hidx (Nat.le_of_eq (hlen.trans (hsame.symm.trans hlen'.symm)))
  refine ⟨_, self', _, hs.cutAt_entry es hlo hhi, hnew', ?_, ?_⟩
  · rw [hs'.completes_entry (hlast' _ (UInt64.le_of_lt hlt)), LogImage.entry, if_neg hpos]
    exact List.getElem?_set_self (by omega)
  · intro idx hgt hle old hold
    have hne : e.index.toNat - 1 ≠ idx.toNat - 1 := by
      have := UInt64.lt_iff_toNat_lt.mp hgt
      have : e.index.toNat ≠ 0 := fun h => hpos (UInt64.toNat_inj.mp h)
      omega
    rw [hs.completes_entry hle] at hold
    rw [hs'.completes_entry (hlast' idx hle), ← hold, LogImage.entry, LogImage.entry]
    exact congrArg (ite _ none) (List.getElem?_set_ne hne)

/-- Three entries of the first term, one of the second term that replaces the second one, and one
that follows them. -/
def threeEntries : List Entry :=
  [1, 2, 3].map fun i => { Entry.default with term := 1, index := i }

def replacing : Entry := { Entry.default with term := 2, index := 2 }

def following : Entry := { Entry.default with term := 2, index := 4 }

theorem appended_threeEntries : ∃ self, ∃ w : World Unit,
    StoreLife StoreTurn.Orderly emptyStore.1 emptyStore.2
        [.done (.raft (.append threeEntries))] self w ∧
      Completes self.lastIndex w 3 w ∧
      Holds self (cluster w) { LogImage.start with entries := threeEntries } := by
  have h₀ : Holds emptyStore.1 (cluster emptyStore.2) .start := .start (completes_finish _ _ _)
  have hx : (StoreOp.raft (.append threeEntries)).Expected emptyStore.1 (cluster emptyStore.2) := by
    refine ⟨⟨1, Nat.le_refl 1, rfl⟩, by decide, ?_⟩
    intro hs hhs
    rw [h₀.disk.hardState] at hhs
    obtain rfl := Option.some.inj hhs
    decide
  have hf : (StoreOp.raft (.append threeEntries)).TermsFollow (cluster emptyStore.2) := by
    refine ⟨by decide, ?_⟩
    rintro e ⟨⟩ e' he'
    rw [show entryIn (cluster emptyStore.2) (1 - 1) = some none from h₀.disk.log.zero] at he'
    cases he'
  have hc := h₀.completes_append (e := { Entry.default with term := 1, index := 1 })
    (threeEntries.drop 1) (by decide) (by decide)
  have h₁ := h₀.step hx hc
  exact ⟨_, _, StoreLife.start.done _ hx hf hc, h₁.readBack.last, h₁⟩

theorem expected_one (e : Entry) {self : RaftMachineStorage} {w : World Unit}
    (h : Holds self (cluster w) { LogImage.start with entries := threeEntries })
    (hpos : 0 < e.index) (hlt : e.index.toNat < 2 ^ 64 - 1) :
    (StoreOp.raft (.append [e])).Expected self (cluster w) := by
  refine ⟨⟨e.index.toNat, UInt64.lt_iff_toNat_lt.mp hpos, rfl⟩, by simpa using hlt, ?_⟩
  intro hs hhs
  rw [h.disk.hardState] at hhs
  obtain rfl := Option.some.inj hhs
  rintro _ ⟨⟩
  exact hpos

/-- A life with a cut append. -/
theorem readBack_replacing : ∃ self, ∃ w : World Unit, ∃ s : LogImage,
    Leads .start [.cut (.raft (.append [replacing])), .done (.raft (.append threeEntries))] s ∧
      s.ReadBack self w := by
  obtain ⟨self₁, w₁, hl₁, -, h₁⟩ := appended_threeEntries
  obtain ⟨self, w, hl⟩ := (hl₁.mono fun _ _ _ _ => trivial).cut_entry h₁
    (expected_one replacing h₁ (by decide) (by decide)) trivial (by decide) (by decide)
  exact ⟨self, w, (readBack_of_life (completes_finish _ _ _) hl).1⟩

theorem kept_replacing : ∃ self, ∃ w : World Unit,
    StoreLife (fun _ _ _ => True) emptyStore.1 emptyStore.2
        [.cut (.raft (.append [replacing])), .done (.raft (.append threeEntries))] self w ∧
      Completes (RaftMachineStorage.entryByIdx 1) w threeEntries[0]? w := by
  obtain ⟨self₁, w₁, hl₁, hlast, h₁⟩ := appended_threeEntries
  obtain ⟨self, w, hl⟩ := StoreLife.start.cut_entry (C := fun _ _ _ => True) h₁
    (expected_one replacing h₁ (by decide) (by decide)) trivial (by decide) (by decide)
  obtain ⟨-, hkept⟩ := kept_of_life (n := 1) (completes_finish _ _ _) hl₁ hlast (by decide) hl (by
    intro t ht
    obtain rfl := List.mem_singleton.mp ht
    rintro e ⟨⟩
    decide)
  refine ⟨self, w, (hl₁.mono fun _ _ _ _ => trivial).trans hl, ?_⟩
  exact (hkept 1 (by decide) _).mp (h₁.readBack.entry 1 (by decide))

/-- A life with a cut append that replaces nothing. -/
theorem inOrder_following : ∃ self, ∃ w : World Unit,
    StoreLife StoreTurn.Orderly emptyStore.1 emptyStore.2
        [.cut (.raft (.append [following])), .done (.raft (.append threeEntries))] self w ∧
      ∀ e e' : Entry, threeEntries[0]? = some e → threeEntries[2]? = some e' →
        e.term ≤ e'.term := by
  obtain ⟨self₁, w₁, hl₁, -, h₁⟩ := appended_threeEntries
  have horderly : StoreTurn.Orderly self₁ (cluster w₁) (.cut (.raft (.append [following]))) := by
    refine ⟨⟨List.pairwise_singleton _ _, ?_⟩, ?_⟩
    · rintro _ ⟨⟩ e' he'
      obtain rfl : e' = { Entry.default with term := 1, index := 3 } :=
        Option.some.inj (Option.some.inj (he'.symm.trans (h₁.entry (by decide))))
      decide
    · rintro _ ⟨⟩
      rw [h₁.lastIndexIn_eq]
      decide
  obtain ⟨self, w, hl⟩ := StoreLife.start.cut_entry h₁ (expected_one following h₁ (by decide)
    (by decide)) horderly (by decide) (by decide)
  -- the three entries are still there
  obtain ⟨s, hs, hsame⟩ := sameUpTo_of_life (n := 3) h₁ (by decide) hl (by
    intro t ht
    obtain rfl := List.mem_singleton.mp ht
    rintro e ⟨⟩
    decide)
  refine ⟨self, w, hl₁.trans hl, ?_⟩
  intro e e' he he'
  have hlast : (3 : UInt64) ≤ s.lastIndex := hsame.le_last hs
  refine inOrder_of_life (i := 1) (j := 3) (completes_finish _ _ _) (hl₁.trans hl)
    hs.readBack.last (by decide) hlast ?_ ?_
  · rw [hs.completes_entry (UInt64.le_trans (by decide) hlast), hsame.entry (by decide), ← he]
    rfl
  · rw [hs.completes_entry hlast, hsame.entry (by decide), ← he']
    rfl

theorem torn_replacing : ∃ w : World Unit,
    Completes (RaftMachineStorage.entryByIdx 2) w (some replacing) w ∧
      Completes (RaftMachineStorage.entryByIdx 3) w threeEntries[2]? w := by
  obtain ⟨self₁, w₁, hl₁, hlast, h₁⟩ := appended_threeEntries
  obtain ⟨pt, self, w, -, -, hnew, hold⟩ := torn_of_life (completes_finish _ _ _) hl₁
    (expected_one replacing h₁ (by decide) (by decide)) h₁.readBack.first (by decide) hlast (by decide)
  exact ⟨w, hnew, hold 3 (by decide) (by decide) _ (h₁.readBack.entry 3 (by decide))⟩

end lives

end PlacementCenter.Storage
