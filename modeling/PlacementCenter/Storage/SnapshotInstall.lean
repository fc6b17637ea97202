import PlacementCenter.Storage.StoreRuns

/-!
# Installing a snapshot

A snapshot carries a dump of the whole `cluster` column family of its sender: the keys of the
clients and the records of the log store. An installation writes the dump over the contents of
the receiver and deletes nothing.

## Main definitions

* `TransfersContent`: the client keys of the receiver are those of the sender
* `KeepsIdentity`: the hard state of the receiver keeps its own term and vote

## Main results

* `lookup_installed`: the contents after an installation
* `transfersContent_iff`: the content is transferred when the receiver has no client key of its own
* `keepsIdentity_iff`: the identity is kept when the sender's term and vote may replace the
  receiver's
-/

namespace PlacementCenter.Storage

open Rust Rust.Prost Raft Program

variable {ε : Type} {leader follower follower' : RaftMachineStorage} {wL w w' : World ε}
  {s : Snapshot}

/-- **The contents after an installation**: those of the sender over those of the receiver,
outside the two records that are written afterwards. -/
theorem lookup_installed (hL : Reachable leader wL)
    (hs : Completes RaftMachineStorage.newSnapshot wL s wL)
    (h : Completes (follower.applySnapshot s) w (.ok (), follower') w') {k : Bytes}
    (hh : k ≠ Record.hardState.key) (hc : k ≠ Record.confState.key) :
    (cluster w')[k]? = ((cluster wL)[k]?).or (cluster w)[k]? := by
  obtain ⟨hsnap, -⟩ := RaftMachineStorage.completes_newSnapshot.mp hs
  obtain ⟨-, -, hs, -, rfl⟩ := RaftMachineStorage.completes_applySnapshot h
  rw [RaftMachineStorage.payloadPairs_snapshotOf hsnap]
  simp only [cluster_putRecord]
  rw [OrdMap.lookup_insert_ne _ _ hc.symm, OrdMap.lookup_insert_ne _ _ hh.symm,
    RaftMachineStorage.lookup_restored_dump]
  rcases hk : (cluster wL)[k]? with _ | v
  · rfl
  · simp [hL.allText k v hk]

/-! ### The content of the clients -/

/-- The client keys of `w` have the values they have in `wL`. -/
def TransfersContent (wL w : World ε) : Prop :=
  ∀ k, IsClientKey k → (cluster w)[k]? = (cluster wL)[k]?

/-- **An installation transfers the content of the sender exactly when every client key of the
receiver is one of the sender.** -/
theorem transfersContent_iff (hL : Reachable leader wL)
    (hs : Completes RaftMachineStorage.newSnapshot wL s wL)
    (h : Completes (follower.applySnapshot s) w (.ok (), follower') w') :
    TransfersContent wL w' ↔ ∀ k, IsClientKey k → k ∈ cluster w → k ∈ cluster wL := by
  -- a client key has the value of the sender, else its own
  have look : ∀ k, IsClientKey k → (cluster w')[k]? = ((cluster wL)[k]?).or (cluster w)[k]? :=
    fun k hk => lookup_installed hL hs h (Record.hardState.key_ne_of_client hk).symm
      (Record.confState.key_ne_of_client hk).symm
  constructor
  · intro ht k hk hkF
    rw [Std.ExtTreeMap.mem_iff_isSome_getElem?, ← ht k hk, look k hk, Option.isSome_or]
    rw [Std.ExtTreeMap.mem_iff_isSome_getElem?] at hkF
    simp [hkF]
  · intro hsub k hk
    rw [look k hk]
    cases hkL : (cluster wL)[k]? with
    | some v => rfl
    | none =>
      -- a key that the sender lacks is no key of the receiver
      have hnF : k ∉ cluster w := fun hkF => by
        have := hsub k hk hkF
        rw [Std.ExtTreeMap.mem_iff_isSome_getElem?, hkL] at this
        cases this
      rw [Option.none_or, Std.ExtTreeMap.getElem?_eq_none hnF]

/-! A sender that voted for node `3` in term `1`, committed an entry and holds the client key `a`,
and a receiver that voted for node `2` in that term and holds the client key `b`. -/

def senderOps : List StoreOp :=
  [.raft (.saveHardState ⟨1, 3, 0⟩),
    .raft (.append [{ Entry.default with term := 1, index := 1 }]), .raft (.commmitIndex 1),
    .set 0 "a" "1"]

def receiverOps : List StoreOp := [.raft (.saveHardState ⟨1, 2, 0⟩), .set 0 "b" "2"]

def sender : RaftMachineStorage × World Unit :=
  finish (runOps senderOps) World.empty (by decide +kernel)

def receiver : RaftMachineStorage × World Unit :=
  finish (runOps receiverOps) World.empty (by decide +kernel)

def sent : Snapshot × World Unit :=
  finish RaftMachineStorage.newSnapshot sender.2 (by decide +kernel)

def installed : (RaftResult Unit × RaftMachineStorage) × World Unit :=
  finish (receiver.1.applySnapshot sent.1) receiver.2 (by decide +kernel)

theorem sender_reachable : Reachable sender.1 sender.2 :=
  reachable_runOps (completes_finish _ _ _)

theorem receiver_reachable : Reachable receiver.1 receiver.2 :=
  reachable_runOps (completes_finish _ _ _)

theorem sent_completes : Completes RaftMachineStorage.newSnapshot sender.2 sent.1 sender.2 := by
  have h := completes_finish RaftMachineStorage.newSnapshot sender.2 (by decide +kernel)
  exact RaftMachineStorage.completes_newSnapshot.mpr
    ⟨(RaftMachineStorage.completes_newSnapshot.mp h).1, rfl⟩

theorem installed_completes : Completes (receiver.1.applySnapshot sent.1) receiver.2
    (.ok (), installed.1.2) installed.2 := by
  have hr : installed.1.1 = .ok () := by decide +kernel
  have hp : (Except.ok (), installed.1.2) = installed.1 := Prod.ext hr.symm rfl
  rw [hp]
  exact completes_finish _ _ _

theorem transfersContent_iff_example :
    TransfersContent sender.2 installed.2 ↔
      ∀ k, IsClientKey k → k ∈ cluster receiver.2 → k ∈ cluster sender.2 :=
  transfersContent_iff sender_reachable sent_completes installed_completes

/-- The key of the receiver that the sender does not have is left over. -/
theorem install_leaves_key :
    Reachable sender.1 sender.2 ∧ Reachable receiver.1 receiver.2 ∧
      Completes RaftMachineStorage.newSnapshot sender.2 sent.1 sender.2 ∧
      Completes (receiver.1.applySnapshot sent.1) receiver.2 (.ok (), installed.1.2) installed.2 ∧
      ¬ TransfersContent sender.2 installed.2 := by
  refine ⟨sender_reachable, receiver_reachable, sent_completes, installed_completes, fun h => ?_⟩
  exact absurd (h (utf8 "b") (by decide)) (by decide +kernel)

/-! ### The identity of the receiver -/

/-- The hard state `after` an installation keeps the term and the vote `before` it. -/
def KeepsIdentity (before after : HardState) (metadata : SnapshotMetadata) : Prop :=
  after.term = max before.term metadata.term ∧
    (after.term = before.term → after.vote = before.vote) ∧ after.commit = metadata.index

/-- The hard state that an installation reads back is the sender's, where the sender has one. -/
theorem hardStateIn_restored (hL : Reachable leader wL) :
    hardStateIn (cluster (RaftMachineStorage.restored w
      (RaftMachineStorage.dumpPairs (dumpOf (cluster wL))))) =
      if (cluster wL)[Record.hardState.key]? = none then hardStateIn (cluster w)
      else hardStateIn (cluster wL) := by
  have look := RaftMachineStorage.lookup_restored_dump w (cluster wL) Record.hardState.key
  rcases hk : (cluster wL)[Record.hardState.key]? with _ | v
  · rw [if_pos rfl]
    exact hardStateIn_congr (by simpa [hk] using look)
  · rw [if_neg (by simp)]
    rw [hk, Option.filter_some, if_pos (hL.allText _ v hk)] at look
    exact hardStateIn_congr (by simpa [hk] using look)

theorem max_uint64 (a b : UInt64) : max a b = if a ≤ b then b else a := rfl

theorem eq_max_iff {a b : UInt64} : b = max a b ↔ a ≤ b := by
  rw [max_uint64]
  split_ifs with h
  · exact iff_of_true rfl h
  · exact iff_of_false (fun hb => h (by rw [hb]; exact UInt64.le_refl a)) h

/-- **An installation keeps the identity of the receiver exactly when the sender has stored no
hard state, or one whose term is not behind the receiver's, with the same vote in an equal
term.** -/
theorem keepsIdentity_iff (hL : Reachable leader wL)
    (hs : Completes RaftMachineStorage.newSnapshot wL s wL) {before : HardState}
    (hb : Completes RaftMachineStorage.hardState w before w)
    (h : Completes (follower.applySnapshot s) w (.ok (), follower') w') :
    ∃ own after, Completes RaftMachineStorage.hardState wL own wL ∧
      Completes RaftMachineStorage.hardState w' after w' ∧
      (KeepsIdentity before after s.getMetadata ↔
        (cluster wL)[Record.hardState.key]? = none ∨
          before.term ≤ own.term ∧ (before.term = own.term → before.vote = own.vote)) := by
  obtain ⟨hsnap, -⟩ := RaftMachineStorage.completes_newSnapshot.mp hs
  obtain ⟨own, cs, hown, -, -, hmeta⟩ := RaftMachineStorage.snapshotOf_eq_some hsnap
  obtain ⟨-, -, read, hread, rfl⟩ := RaftMachineStorage.completes_applySnapshot h
  have hb := (RaftMachineStorage.completes_hardState w).mp hb
  rw [RaftMachineStorage.payloadPairs_snapshotOf hsnap, hardStateIn_restored hL] at hread
  have hm : s.getMetadata = { confState := some cs, index := own.commit, term := own.term } := by
    rw [Snapshot.getMetadata, hmeta, Option.getD_some]
  refine ⟨own, RaftMachineStorage.installedState read s.getMetadata,
    (RaftMachineStorage.completes_hardState wL).mpr ⟨hown, rfl⟩,
    (RaftMachineStorage.completes_hardState _).mpr ⟨by simp, rfl⟩, ?_⟩
  rw [hm]
  by_cases hk : (cluster wL)[Record.hardState.key]? = none
  · -- The sender has no hard state of its own: the receiver's is read back.
    rw [if_pos hk] at hread
    obtain rfl : before = read := Option.some.inj (hb.1.symm.trans hread)
    exact iff_of_true ⟨rfl, fun _ => rfl, rfl⟩ (.inl hk)
  · -- The sender's hard state is read back in place of the receiver's.
    rw [if_neg hk] at hread
    obtain rfl : own = read := Option.some.inj (hown.symm.trans hread)
    have hself : max own.term own.term = own.term := by rw [max_uint64, ite_self]
    simp only [KeepsIdentity, RaftMachineStorage.installedState, hk, false_or, hself, eq_max_iff,
      and_true]
    exact and_congr_right fun _ =>
      ⟨fun h he => (h he.symm).symm, fun h he => (h he.symm).symm⟩

theorem receiver_hardState :
    Completes RaftMachineStorage.hardState receiver.2 ⟨1, 2, 0⟩ receiver.2 :=
  (RaftMachineStorage.completes_hardState _).mpr ⟨by decide +kernel, rfl⟩

theorem keepsIdentity_iff_example :
    ∃ own after, Completes RaftMachineStorage.hardState sender.2 own sender.2 ∧
      Completes RaftMachineStorage.hardState installed.2 after installed.2 ∧
      (KeepsIdentity ⟨1, 2, 0⟩ after sent.1.getMetadata ↔
        (cluster sender.2)[Record.hardState.key]? = none ∨
          1 ≤ own.term ∧ (1 = own.term → 2 = own.vote)) :=
  keepsIdentity_iff sender_reachable sent_completes receiver_hardState installed_completes

/-- The receiver's vote for node `2` becomes the sender's vote for node `3`, in the same term. -/
theorem install_replaces_vote :
    Reachable sender.1 sender.2 ∧ Reachable receiver.1 receiver.2 ∧
      Completes RaftMachineStorage.newSnapshot sender.2 sent.1 sender.2 ∧
      Completes (receiver.1.applySnapshot sent.1) receiver.2 (.ok (), installed.1.2) installed.2 ∧
      Completes RaftMachineStorage.hardState receiver.2 ⟨1, 2, 0⟩ receiver.2 ∧
      Completes RaftMachineStorage.hardState installed.2 ⟨1, 3, 1⟩ installed.2 ∧
      ¬ KeepsIdentity ⟨1, 2, 0⟩ ⟨1, 3, 1⟩ sent.1.getMetadata := by
  have hafter : hardStateIn (cluster installed.2) = some ⟨1, 3, 1⟩ := by decide +kernel
  refine ⟨sender_reachable, receiver_reachable, sent_completes, installed_completes,
    receiver_hardState, (RaftMachineStorage.completes_hardState _).mpr ⟨hafter, rfl⟩, ?_⟩
  intro h
  exact absurd (h.2.1 rfl) (by decide)

end PlacementCenter.Storage
