import PlacementCenter.Storage.StoreRuns

/-!
# Repeated snapshots

`create_snapshot` dumps the column family in which it keeps its result. A second snapshot of the
same state therefore contains the text of the first one, and the stored bytes at least double.

## Main definitions

* `storedBytes w`: the bytes of the snapshot that was last written
* `Idempotent self w`: two snapshots in a row leave what one leaves
* `RaftMachineStorage.createSnapshots`: several snapshots in a row

## Main results

* `length_lt_dump`: a dump is longer than each text that is dumped
* `createSnapshot_twice`: the second snapshot has the same metadata and more than twice the bytes
* `not_idempotent`: two snapshots in a row never leave what one leaves
-/

namespace PlacementCenter.Storage

open Rust Rust.Prost Raft Program

variable {ε : Type}

/-- The bytes of the snapshot that was last written. -/
def storedBytes (w : World ε) : Option Bytes := (cluster w)[Record.snapshot.key]?

/-- Two snapshots in a row leave the stored bytes, the first index and the metadata as one snapshot
leaves them. -/
def Idempotent (self : RaftMachineStorage) (w : World ε) : Prop :=
  ∃ self₁ w₁ self₂ w₂, Completes self.createSnapshot w self₁ w₁ ∧
    Completes self₁.createSnapshot w₁ self₂ w₂ ∧ storedBytes w₂ = storedBytes w₁ ∧
    firstIndexIn self₂ (cluster w₂) = firstIndexIn self₁ (cluster w₁) ∧
    self₂.snapshotMetadata = self₁.snapshotMetadata

/-- Several snapshots in a row. -/
def RaftMachineStorage.createSnapshots {σ : Type} [RocksDb σ] (self : RaftMachineStorage) :
    ℕ → Program σ RaftMachineStorage
  | 0 => pure self
  | n + 1 => do
    let self ← self.createSnapshots n
    self.createSnapshot

/-! ### What a snapshot contains -/

/-- A text of the family is dumped. -/
theorem mem_textsOf {m : ColumnFamily} {k v : String} (h : m[utf8 k]? = some (utf8 v)) :
    (∅ : HashMap String String).insert k v ∈ textsOf m.toList := by
  refine List.mem_filterMap.mpr
    ⟨(utf8 k, utf8 v), Std.ExtTreeMap.mem_toList_iff_getElem?_eq_some.mpr h, ?_⟩
  simp

/-- **A dump is longer than each text** that is dumped. -/
theorem length_lt_dump {m : ColumnFamily} {k v : String} (h : m[utf8 k]? = some (utf8 v)) :
    (utf8 v).length < (Bincode.serialize (dumpOf m)).length := by
  have hentry : ((∅ : HashMap String String).insert k v)[k]? = some v := by simp
  have hfamily : (dumpOf m)[dbColumnFamilyCluster]? = some (textsOf m.toList) := by simp [dumpOf]
  calc (utf8 v).length
      ≤ (Bincode.put v).length := by
        rw [Bincode.length_put_string]
        exact Nat.le_add_left _ _
    _ < (Bincode.put ((∅ : HashMap String String).insert k v)).length :=
        Bincode.length_put_lt_map hentry
    _ < (Bincode.put (textsOf m.toList)).length := Bincode.length_put_lt_list (mem_textsOf h)
    _ < (Bincode.put (dumpOf m)).length := Bincode.length_put_lt_map hfamily

/-- A snapshot is stored as a text more than twice as long as its data. -/
theorem length_data_lt (s : Snapshot) :
    2 * s.data.val.length < (recordBytes (encodeToVec s)).length := by
  have hdata : s.data.val.length ≤ (encodeToVec s).length := by
    rcases hd : s.data.val with _ | ⟨b, bs⟩
    · exact Nat.zero_le _
    · refine length_delimited_le 1 (List.mem_append_left _ (mem_bytesField.mpr ⟨?_, ?_⟩))
      · rw [hd]
        exact List.cons_ne_nil b bs
      · rw [hd]
  have htext := SerdeJson.length_toVec_bytes (encodeToVec s)
  change 2 * s.data.val.length < (SerdeJson.toVec (encodeToVec s)).length
  omega

/-! ### Two snapshots in a row -/

/-- The contents after a snapshot: the first index and the stored snapshot are new. -/
theorem cluster_createSnapshot {self self' : RaftMachineStorage} {w w' : World ε}
    (h : Completes self.createSnapshot w self' w') :
    ∃ s, RaftMachineStorage.snapshotOf (cluster w) = some s ∧
      self'.snapshotMetadata = s.getMetadata ∧
      firstIndexIn self' (cluster w') = s.getMetadata.index ∧
      storedBytes w' = some (recordBytes (encodeToVec s)) ∧
      metadataIn (cluster w') = metadataIn (cluster w) := by
  obtain ⟨s, hs, rfl, rfl⟩ := RaftMachineStorage.completes_createSnapshot.mp h
  refine ⟨s, hs, rfl, ?_, ?_, ?_⟩
  · simp [firstIndexIn]
  · rw [storedBytes, cluster_putRecord, OrdMap.lookup_insert_self]
  · simp [metadataIn]

/-- The metadata of a snapshot are those of the contents. -/
theorem metadata_snapshotOf {m : ColumnFamily} {s : Snapshot}
    (h : RaftMachineStorage.snapshotOf m = some s) : metadataIn m = some s.getMetadata := by
  obtain ⟨metadata, hm, hrest⟩ := Option.bind_eq_some_iff.mp h
  obtain ⟨data, -, hs⟩ := Option.bind_eq_some_iff.mp hrest
  cases hs
  exact hm

/-- **The second snapshot** has the metadata of the first and contains it. -/
theorem createSnapshot_twice {self self₁ self₂ : RaftMachineStorage} {w w₁ w₂ : World ε}
    (h₁ : Completes self.createSnapshot w self₁ w₁)
    (h₂ : Completes self₁.createSnapshot w₁ self₂ w₂) :
    self₂.snapshotMetadata = self₁.snapshotMetadata ∧
      firstIndexIn self₂ (cluster w₂) = firstIndexIn self₁ (cluster w₁) ∧
      ∃ v₁ v₂, storedBytes w₁ = some v₁ ∧ storedBytes w₂ = some v₂ ∧
        2 * v₁.length < v₂.length := by
  obtain ⟨s₁, hs₁, hmeta₁, hfirst₁, hstored₁, hkept⟩ := cluster_createSnapshot h₁
  obtain ⟨s₂, hs₂, hmeta₂, hfirst₂, hstored₂, -⟩ := cluster_createSnapshot h₂
  have hsame : s₂.getMetadata = s₁.getMetadata := by
    have := metadata_snapshotOf hs₂
    rw [hkept, metadata_snapshotOf hs₁] at this
    exact (Option.some_inj.mp this).symm
  refine ⟨by rw [hmeta₂, hmeta₁, hsame], by rw [hfirst₂, hfirst₁, hsame], _, _, hstored₁,
    hstored₂, ?_⟩
  -- the record of the first snapshot is one of the texts of the second
  have htext : (cluster w₁)[utf8 keyNameSnapshot]? =
      some (utf8 (SerdeJson.toString (encodeToVec s₁))) := hstored₁
  have hdump := length_lt_dump htext
  obtain ⟨-, -, -, -, hdata, -⟩ := RaftMachineStorage.snapshotOf_eq_some hs₂
  have hlen := length_data_lt s₂
  rw [hdata] at hlen
  change 2 * (utf8 (SerdeJson.toString (encodeToVec s₁))).length < _
  omega

theorem storedBytes_ne {self self₁ self₂ : RaftMachineStorage} {w w₁ w₂ : World ε}
    (h₁ : Completes self.createSnapshot w self₁ w₁)
    (h₂ : Completes self₁.createSnapshot w₁ self₂ w₂) : storedBytes w₂ ≠ storedBytes w₁ := by
  intro hsame
  obtain ⟨-, -, v₁, v₂, hv₁, hv₂, hdouble⟩ := createSnapshot_twice h₁ h₂
  rw [hv₁, hv₂, Option.some_inj] at hsame
  rw [hsame] at hdouble
  omega

/-- **After `n + 1` snapshots in a row** the stored bytes are `2 ^ n`, at least. -/
theorem createSnapshots_length {self self' : RaftMachineStorage} {w w' : World ε} {n : ℕ}
    (h : Completes (self.createSnapshots (n + 1)) w self' w') :
    ∃ v, storedBytes w' = some v ∧ 2 ^ n ≤ v.length := by
  induction n generalizing self' w' with
  | zero =>
    obtain ⟨_, _, hpure, h₁⟩ := completes_bind.mp h
    obtain ⟨rfl, rfl⟩ := completes_pure.mp hpure
    obtain ⟨s, -, -, -, hstored, -⟩ := cluster_createSnapshot h₁
    exact ⟨_, hstored, Nat.lt_of_le_of_lt (Nat.zero_le _) (length_data_lt s)⟩
  | succ n ih =>
    obtain ⟨self₁, w₁, h₁, h₂⟩ := completes_bind.mp h
    obtain ⟨v, hv, hlen⟩ := ih h₁
    -- the last snapshot before was the second part of a sequence, too
    obtain ⟨_, _, -, hlast⟩ := completes_bind.mp h₁
    obtain ⟨-, -, v₁, v₂, hv₁, hv₂, hdouble⟩ := createSnapshot_twice hlast h₂
    obtain rfl := Option.some_inj.mp (hv.symm.trans hv₁)
    refine ⟨v₂, hv₂, ?_⟩
    rw [Nat.pow_succ]
    omega

/-- **Two snapshots in a row never leave what one leaves**, and the stored bytes double with each
one. -/
theorem not_idempotent (self : RaftMachineStorage) (w : World ε) :
    ¬ Idempotent self w ∧ ∀ n self' w', Completes (self.createSnapshots (n + 1)) w self' w' →
      ∃ v, storedBytes w' = some v ∧ 2 ^ n ≤ v.length := by
  refine ⟨?_, fun n self' w' h => createSnapshots_length h⟩
  rintro ⟨self₁, w₁, self₂, w₂, h₁, h₂, hsame, -, -⟩
  exact storedBytes_ne h₁ h₂ hsame

/-! ### Two snapshots of a new store -/

def snapshotOnce : RaftMachineStorage × World Unit :=
  finish emptyStore.1.createSnapshot emptyStore.2 (by decide +kernel)

def snapshotTwice : RaftMachineStorage × World Unit :=
  finish snapshotOnce.1.createSnapshot snapshotOnce.2 (by decide +kernel)

/-- The second snapshot of a new store differs from the first. -/
theorem snapshotTwice_ne :
    Reachable emptyStore.1 emptyStore.2 ∧
      Completes emptyStore.1.createSnapshot emptyStore.2 snapshotOnce.1 snapshotOnce.2 ∧
      Completes snapshotOnce.1.createSnapshot snapshotOnce.2 snapshotTwice.1 snapshotTwice.2 ∧
      storedBytes snapshotTwice.2 ≠ storedBytes snapshotOnce.2 ∧
      ¬ Idempotent emptyStore.1 emptyStore.2 := by
  have h₁ := completes_finish emptyStore.1.createSnapshot emptyStore.2 (by decide +kernel)
  have h₂ := completes_finish snapshotOnce.1.createSnapshot snapshotOnce.2 (by decide +kernel)
  refine ⟨.start (completes_finish _ _ new_isOk), h₁, h₂, storedBytes_ne h₁ h₂, ?_⟩
  rintro ⟨self₁, w₁, self₂, w₂, h₁', h₂', hsame, -, -⟩
  exact storedBytes_ne h₁' h₂' hsame

end PlacementCenter.Storage
