import PlacementCenter.Storage.StoreRuns

/-!
# The bounds of the log

A node that comes up checks its commit index against the first and the last index. The three are
records of their own, and a crash may find any of them before the others were written: an
installation restores the records of the sender one by one.

## Main definitions

* `recordedIndex m r`: the index that a record holds
* `CommitInBounds m`: the stored commit index lies within the recorded bounds
* `OpensInBounds pt`: a store that is opened at a crash point has its commit index within its bounds
* `CanRestart pt`: a store can be opened at a crash point, and passes the check of the raft crate
* `BetweenStores receiver sender m`: every record is that of the receiver or that of the sender
* `FitsOver sender receiver index`: the records of the sender may be mixed with those of the
  receiver

## Main results

* `CommitInBounds.opensInBounds`, `CommitInBounds.canRestart`: within the recorded bounds, the check
  succeeds
* `BetweenStores.commitInBounds`: **an installation that is cut** leaves the commit index within
  bounds, when the sender fits over the receiver
-/

namespace PlacementCenter.Storage

open Rust Rust.Prost Raft Program

variable {ε : Type}

/-! ### Recorded indices -/

/-- The index that a record holds, if it can be read. -/
def recordedIndex (m : ColumnFamily) (r : Record) : Option UInt64 :=
  match readRecord UInt64 m r with
  | .ok i => i
  | .error _ => none

theorem indexIn_eq (m : ColumnFamily) (r : Record) (d : UInt64) :
    indexIn m r d = (recordedIndex m r).getD d := by
  rw [indexIn, recordedIndex]
  rcases readRecord UInt64 m r with e | _ | i <;> rfl

theorem recordedIndex_congr {m m' : ColumnFamily} {r : Record} (h : m[r.key]? = m'[r.key]?) :
    recordedIndex m r = recordedIndex m' r := by
  rw [recordedIndex, recordedIndex, readRecord_congr h]

@[simp] theorem recordedIndex_insert_self (m : ColumnFamily) (r : Record) (i : UInt64) :
    recordedIndex (m.insert r.key (recordBytes i)) r = some i := by
  simp [recordedIndex]

@[simp] theorem recordedIndex_insert_record {r r' : Record} (h : r ≠ r') (m : ColumnFamily)
    (v : Bytes) : recordedIndex (m.insert r.key v) r' = recordedIndex m r' :=
  recordedIndex_congr (OrdMap.lookup_insert_ne m v (by simpa using h))

@[simp] theorem recordedIndex_empty (r : Record) : recordedIndex ∅ r = none := by
  simp [recordedIndex]

/-- A configuration whose encoding fits an allocation is read back. -/
theorem confStateIn_of_text {m : ColumnFamily} {cs : ConfState}
    (hm : m[Record.confState.key]? = some (recordBytes (encodeToVec cs)))
    (hl : (encodeToVec cs).length < 2 ^ 63) : confStateIn m = some cs := by
  have hfit := fits_of_length (m := cs) (Nat.lt_trans hl (by decide))
  rw [← messageIn_insert_self ∅ ConfState.default .confState hfit]
  exact confStateIn_congr (by rw [hm, OrdMap.lookup_insert_self])

/-! ### The check of a node that comes up -/

/-- The hard state can be read, and its commit index lies within the recorded bounds. -/
def CommitInBounds (m : ColumnFamily) : Prop :=
  ∃ hs, hardStateIn m = some hs ∧
    (∀ fi ∈ recordedIndex m .firstIndex, fi.toNat ≤ hs.commit.toNat + 1) ∧
    ∀ li ∈ recordedIndex m .lastIndex, hs.commit.toNat ≤ li.toNat

/-- The commit index of a hard state lies between the indices of a store. -/
def InBounds (self : RaftMachineStorage) (w : World ε) (hs : HardState) : Prop :=
  ∃ first last, Completes self.firstIndex w first w ∧ Completes self.lastIndex w last w ∧
    first.toNat ≤ hs.commit.toNat + 1 ∧ hs.commit.toNat ≤ last.toNat

/-- Every store that is opened at a crash point has its commit index within its bounds. -/
def OpensInBounds (pt : Columns × List ε) : Prop :=
  ∀ self w, Completes RaftMachineStorage.new (World.reopen pt.1 pt.2) self w →
    ∃ hs, Completes RaftMachineStorage.hardState w hs w ∧ InBounds self w hs

/-- A store can be opened at a crash point, and passes the check of the raft crate. A hard state that
is the default one is not loaded, and not checked. -/
structure CanRestart (pt : Columns × List ε) : Prop where
  opens : ∃ self, Completes RaftMachineStorage.new (World.reopen pt.1 pt.2) self
    (World.reopen pt.1 pt.2)
  checked : ∀ self w, Completes RaftMachineStorage.new (World.reopen pt.1 pt.2) self w →
    ∃ hs, Completes RaftMachineStorage.hardState w hs w ∧ (hs ≠ .default → InBounds self w hs)

/-- **Within the recorded bounds**, a store without a record is opened with the bounds at its commit
index. -/
theorem CommitInBounds.opensInBounds {pt : Columns × List ε}
    (h : CommitInBounds (pt.1 dbColumnFamilyCluster)) : OpensInBounds pt := by
  obtain ⟨hs, hhs, hfirst, hlast⟩ := h
  intro self w hnew
  obtain ⟨metadata, hm, rfl, rfl⟩ := RaftMachineStorage.completes_new.mp hnew
  have hidx : metadata.index = hs.commit := by
    obtain ⟨hs', cs, hhs', -, rfl⟩ := metadataIn_eq_some.mp hm
    obtain rfl : hs = hs' := Option.some.inj (hhs.symm.trans hhs')
    rfl
  -- an index that is not recorded is taken from the snapshot metadata
  refine ⟨hs, (RaftMachineStorage.completes_hardState _).mpr ⟨hhs, rfl⟩, _, _,
    RaftMachineStorage.firstIndex_run _ _, RaftMachineStorage.lastIndex_run _ _, ?_, ?_⟩
  · rw [firstIndexIn, indexIn_eq]
    rcases hf : recordedIndex (cluster (World.reopen pt.1 pt.2)) .firstIndex with _ | fi
    · rw [Option.getD_none, hidx, UInt64.toNat_add]
      exact Nat.mod_le _ _
    · exact hfirst fi hf
  · rw [lastIndexIn, indexIn_eq]
    rcases hl : recordedIndex (cluster (World.reopen pt.1 pt.2)) .lastIndex with _ | li
    · exact Nat.le_of_eq (by rw [Option.getD_none, hidx])
    · exact hlast li hl

/-- A store can be opened where the hard state and the configuration can be read. -/
theorem completes_new_reopen {pt : Columns × List ε} {hs : HardState} {cs : ConfState}
    (hhs : hardStateIn (pt.1 dbColumnFamilyCluster) = some hs)
    (hcs : confStateIn (pt.1 dbColumnFamilyCluster) = some cs) :
    ∃ self, Completes RaftMachineStorage.new (World.reopen pt.1 pt.2) self
      (World.reopen pt.1 pt.2) := by
  have hm : metadataIn (cluster (World.reopen pt.1 pt.2)) =
      some { confState := some cs, index := hs.commit, term := hs.term } :=
    metadataIn_eq_some.mpr ⟨hs, cs, hhs, hcs, rfl⟩
  exact ⟨_, RaftMachineStorage.completes_new.mpr ⟨_, hm, rfl, rfl⟩⟩

/-- **Within the recorded bounds, the check succeeds.** -/
theorem CommitInBounds.canRestart {pt : Columns × List ε}
    (h : CommitInBounds (pt.1 dbColumnFamilyCluster))
    (hcs : ∃ cs, confStateIn (pt.1 dbColumnFamilyCluster) = some cs) : CanRestart pt where
  opens := by
    obtain ⟨hs, hhs, -⟩ := h
    obtain ⟨cs, hcs⟩ := hcs
    exact completes_new_reopen hhs hcs
  checked self w hnew := by
    obtain ⟨hs, hread, hbounds⟩ := h.opensInBounds self w hnew
    exact ⟨hs, hread, fun _ => hbounds⟩

/-- A first index beyond the commit index of a hard state that was saved fails the check. -/
theorem not_canRestart {pt : Columns × List ε} {hs : HardState} {fi : UInt64}
    (hhs : hardStateIn (pt.1 dbColumnFamilyCluster) = some hs) (hsaved : hs ≠ .default)
    (hfi : recordedIndex (pt.1 dbColumnFamilyCluster) .firstIndex = some fi)
    (hlt : hs.commit.toNat + 1 < fi.toNat) : ¬ CanRestart pt := by
  rintro ⟨⟨self, hnew⟩, hchecked⟩
  obtain ⟨hs', hread, hbounds⟩ := hchecked self _ hnew
  obtain ⟨hhs', -⟩ := (RaftMachineStorage.completes_hardState _).mp hread
  obtain rfl : hs = hs' := Option.some.inj (hhs.symm.trans hhs')
  obtain ⟨first, last, hfirst, -, hle, -⟩ := hbounds hsaved
  obtain ⟨rfl, -⟩ := (completes_of_run (RaftMachineStorage.firstIndex_run _ _)).mp hfirst
  have hrecorded : recordedIndex (cluster (World.reopen pt.1 pt.2)) .firstIndex = some fi := hfi
  rw [firstIndexIn, indexIn_eq, hrecorded, Option.getD_some] at hle
  omega

/-! ### An installation that is cut -/

/-- Every record is that of the receiver or that of the sender. -/
def BetweenStores (receiver sender m : ColumnFamily) : Prop :=
  ∀ r : Record, m[r.key]? = receiver[r.key]? ∨ m[r.key]? = sender[r.key]?

/-- The records of the sender may be mixed with those of the receiver, when the snapshot has the
index `index`. -/
structure FitsOver (sender receiver : ColumnFamily) (index : ℕ) : Prop where
  /-- The first index of the sender is not beyond the commit index of the receiver. -/
  first : ∀ fi ∈ recordedIndex sender .firstIndex, ∀ hs, hardStateIn receiver = some hs →
    fi.toNat ≤ hs.commit.toNat + 1
  /-- The commit index of the sender is not beyond the last index of the receiver. -/
  last : ∀ li ∈ recordedIndex receiver .lastIndex, index ≤ li.toNat
  /-- It is not beyond the last index of the sender. -/
  sent : ∀ li ∈ recordedIndex sender .lastIndex, index ≤ li.toNat

section between

variable {receiver sender m : ColumnFamily}

theorem BetweenStores.refl (receiver sender : ColumnFamily) :
    BetweenStores receiver sender receiver := fun _ => .inl rfl

theorem BetweenStores.insert (h : BetweenStores receiver sender m) {k v : Bytes}
    (hk : sender[k]? = some v) : BetweenStores receiver sender (m.insert k v) := by
  intro r
  by_cases hr : k = r.key
  · subst hr
    right
    rw [OrdMap.lookup_insert_self, hk]
  · rw [OrdMap.lookup_insert_ne m v hr]
    exact h r

/-- The texts of a dump are entries of the store it was taken from. -/
theorem mem_dumpPairs {p : String × String}
    (hp : p ∈ RaftMachineStorage.dumpPairs (dumpOf sender)) :
    sender[utf8 p.1]? = some (utf8 p.2) := by
  rw [RaftMachineStorage.dumpPairs_dumpOf] at hp
  have hmem : (utf8 p.1, utf8 p.2) ∈ sender.toList.filter RaftMachineStorage.isText := by
    rw [← RaftMachineStorage.map_textPairs]
    exact List.mem_map.mpr ⟨p, hp, rfl⟩
  exact Std.ExtTreeMap.mem_toList_iff_getElem?_eq_some.mp (List.mem_filter.mp hmem).1

/-- While a dump is written back, the store is between the two. -/
theorem between_restored {ps : List (String × String)}
    (hps : ∀ p ∈ ps, sender[utf8 p.1]? = some (utf8 p.2)) {w : World ε}
    (hw : BetweenStores receiver sender (cluster w)) :
    BetweenStores receiver sender (cluster (RaftMachineStorage.restored w ps)) ∧
      ∀ pt ∈ (RaftMachineStorage.restored w ps).past,
        pt ∈ w.past ∨ BetweenStores receiver sender (pt.1 dbColumnFamilyCluster) := by
  induction ps generalizing w with
  | nil => exact ⟨hw, fun pt hpt => .inl hpt⟩
  | cons p ps ih =>
    have hstep : BetweenStores receiver sender (cluster (putKey w (utf8 p.1) (utf8 p.2))) := by
      rw [cluster_putKey]
      exact hw.insert (hps p List.mem_cons_self)
    obtain ⟨hend, hpast⟩ := ih (fun q hq => hps q (List.mem_cons_of_mem p hq)) hstep
    refine ⟨hend, ?_⟩
    intro pt hpt
    rcases hpast pt hpt with hpt | hpt
    · -- the points before the write, and the contents it was made on
      rcases List.mem_cons.mp hpt with rfl | hpt
      · exact .inr hw
      · exact .inl hpt
    · exact .inr hpt

/-- The first index of either store is allowed by the commit index of the receiver. -/
theorem BetweenStores.first_le (h : BetweenStores receiver sender m) {hs : HardState} {index : ℕ}
    (hr : hardStateIn receiver = some hs)
    (hfirst : ∀ fi ∈ recordedIndex receiver .firstIndex, fi.toNat ≤ hs.commit.toNat + 1)
    (hfit : FitsOver sender receiver index) :
    ∀ fi ∈ recordedIndex m .firstIndex, fi.toNat ≤ hs.commit.toNat + 1 := by
  intro fi hfi
  rcases h .firstIndex with hf | hf
  · rw [recordedIndex_congr hf] at hfi
    exact hfirst fi hfi
  · rw [recordedIndex_congr hf] at hfi
    exact hfit.first fi hfi hs hr

/-- The last index of either store is not below the snapshot. -/
theorem BetweenStores.le_last (h : BetweenStores receiver sender m) {index : ℕ}
    (hfit : FitsOver sender receiver index) :
    ∀ li ∈ recordedIndex m .lastIndex, index ≤ li.toNat := by
  intro li hli
  rcases h .lastIndex with hl | hl
  · rw [recordedIndex_congr hl] at hli
    exact hfit.last li hli
  · rw [recordedIndex_congr hl] at hli
    exact hfit.sent li hli

/-- **An installation that is cut** leaves the commit index within bounds, wherever each of the
three records comes from. -/
theorem BetweenStores.commitInBounds (h : BetweenStores receiver sender m) {hsr hss : HardState}
    (hr : hardStateIn receiver = some hsr) (hs : hardStateIn sender = some hss)
    (hfirst : ∀ fi ∈ recordedIndex receiver .firstIndex, fi.toNat ≤ hsr.commit.toNat + 1)
    (hle : hsr.commit.toNat ≤ hss.commit.toNat)
    (hfit : FitsOver sender receiver hss.commit.toNat) : CommitInBounds m := by
  have first := h.first_le hr hfirst hfit
  have last := h.le_last hfit
  rcases h .hardState with hh | hh
  · refine ⟨hsr, (hardStateIn_congr hh).trans hr, first, ?_⟩
    intro li hli
    exact Nat.le_trans hle (last li hli)
  · refine ⟨hss, (hardStateIn_congr hh).trans hs, ?_, last⟩
    intro fi hfi
    have := first fi hfi
    omega

end between

namespace RaftMachineStorage

variable {self : RaftMachineStorage} {w : World ε} {s : Snapshot}

/-- An installation that is refused writes nothing. -/
theorem applySnapshot_run_refused (h : s.getMetadata.index < firstIndexIn self (cluster w)) :
    applySnapshot self s w = (.ok (.error (.store .snapshotOutOfDate), self), w) := by
  unfold applySnapshot
  dsimp only
  rw [Program.bind_run_ok (firstIndex_run self w), if_pos h]
  rfl

/-- An installation that is not refused, where the restored hard state can be read. -/
theorem applySnapshot_run (h : firstIndexIn self (cluster w) ≤ s.getMetadata.index)
    {hs : HardState} (hhs : hardStateIn (cluster (restored w (payloadPairs s.data))) = some hs) :
    applySnapshot self s w = (.ok (.ok (), self.afterSnapshot s),
      putRecord (putRecord (restored w (payloadPairs s.data)) .hardState
        (encodeToVec (installedState hs s.getMetadata))) .confState
          (encodeToVec (s.getMetadata.confState.getD ConfState.default))) := by
  unfold applySnapshot
  dsimp only
  rw [Program.bind_run_ok (firstIndex_run self w), if_neg (UInt64.not_lt.mpr h),
    Program.bind_run_ok (writeAll_run s.data w), Program.bind_run, hardState_run, hhs]
  rfl

end RaftMachineStorage

end PlacementCenter.Storage
