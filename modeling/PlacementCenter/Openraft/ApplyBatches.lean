import PlacementCenter.Openraft.SnapshotReplay

/-!
# Batches of entries

The raft core pairs the replies of `apply` with the waiting clients by position, and it chooses
where a batch ends. The replies are one for each entry, in order; the last entries of their kind
decide the state; and the batches do not matter.

## Main definitions

* `StateMachineStore.applyInBatches`: a sequence of batches with all of its replies
* `Entry.Touches key`: the entry sets or deletes the key
* `Applied`: what `apply` returns for some entries and leaves of the state

## Main results

* `StateMachineStore.applyInBatches_run`: batches are one batch
* `StateMachineStore.apply_applied`: what `apply` does, however the entries are cut
-/

namespace PlacementCenter.Openraft

open Rust Program

variable {M : Type}

/-- The entry sets or deletes the key. -/
def Entry.Touches (key : String) (e : Entry M) : Prop :=
  (∃ value, e.payload = .normal (.set key value)) ∨ e.payload = .normal (.delete key)

/-! ### What the entries leave -/

/-- An entry updates the keys it touches. -/
theorem Entry.touches_of_mem_update {e : Entry M} {u : String × Option String}
    (h : u ∈ e.update) : e.Touches u.1 := by
  rcases e with ⟨id, _ | (⟨key, value⟩ | ⟨key⟩) | mem⟩
  · cases h
  · obtain rfl := List.mem_singleton.mp h
    exact .inl ⟨value, rfl⟩
  · obtain rfl := List.mem_singleton.mp h
    exact .inr rfl
  · cases h

theorem replay_of_forall_not_touches {es : List (Entry M)} {key : String}
    (h : ∀ e ∈ es, ¬ e.Touches key) (kvs : Kvs) : (replay kvs es)[key]? = kvs[key]? := by
  refine OrdMap.lookup_updates_of_forall_ne (fun u hu => ?_) kvs
  rintro rfl
  obtain ⟨e, he, hu⟩ := List.mem_flatMap.mp hu
  exact h e he (e.touches_of_mem_update hu)

/-- **The last entry that touches a key** decides what is under it. -/
theorem replay_last {pre post : List (Entry M)} {e : Entry M} {key : String} {o : Option String}
    (he : e.update = [(key, o)]) (h : ∀ d ∈ post, ¬ d.Touches key) (kvs : Kvs) :
    (replay kvs (pre ++ e :: post))[key]? = o := by
  rw [replay_append, ← List.singleton_append, replay_append, replay_of_forall_not_touches h,
    replay, List.flatMap_singleton, he]
  exact OrdMap.lookup_update_self _ (key, o)

namespace StateMachineStore

variable (core : StateMachineStore M)

theorem advance_append (es es' : List (Entry M)) :
    core.advance (es ++ es') = (core.advance es).advance es' := List.foldl_append

theorem lastAppliedLogId_advance (es : List (Entry M)) (e : Entry M) :
    (core.advance (es ++ [e])).data.lastAppliedLogId = some e.logId := by
  rw [advance_append]
  rfl

/-- Without a membership entry the membership stays. -/
theorem lastMembership_advance_of_forall {es : List (Entry M)}
    (h : ∀ e ∈ es, ∀ mem, e.payload ≠ .membership mem) :
    (core.advance es).data.lastMembership = core.data.lastMembership := by
  induction es generalizing core with
  | nil => rfl
  | cons e es ih =>
    refine (ih (core.advanceOne e) fun d hd => h d (List.mem_cons_of_mem e hd)).trans ?_
    have hne := h e List.mem_cons_self
    rcases e with ⟨id, _ | req | mem⟩
    · rfl
    · rfl
    · exact absurd rfl (hne mem)

/-- **The last membership entry** decides the membership. -/
theorem lastMembership_advance {pre post : List (Entry M)} {e : Entry M} {mem : M}
    (he : e.payload = .membership mem) (h : ∀ d ∈ post, ∀ mem, d.payload ≠ .membership mem) :
    (core.advance (pre ++ e :: post)).data.lastMembership = ⟨some e.logId, mem⟩ := by
  have hone : ((core.advance pre).advanceOne e).data.lastMembership = ⟨some e.logId, mem⟩ := by
    simp only [advanceOne, he]
  rw [advance_append, ← hone]
  exact lastMembership_advance_of_forall _ h

/-! ### Batches -/

/-- The entries in batches, with all of the replies. -/
def applyInBatches {σ : Type} [Shared σ Kvs] (core : StateMachineStore M) :
    List (List (Entry M)) → Program σ (List AppResponseData × StateMachineStore M)
  | [] => return ([], core)
  | batch :: batches => do
    let (replies, core) ← core.apply batch
    let (rest, core) ← core.applyInBatches batches
    return (replies ++ rest, core)

variable {ω : Type} (m : Memory ω Kvs)

/-- **Batches are one batch**: the same replies, the same position and the same map. -/
theorem applyInBatches_run (batches : List (List (Entry M))) :
    core.applyInBatches batches m = core.apply batches.flatten m := by
  induction batches generalizing core m with
  | nil => rfl
  | cons batch batches ih =>
    rw [applyInBatches, Program.bind_run_ok (apply_run core m batch)]
    simp only
    rw [Program.bind_run_ok ((ih _ _).trans (apply_run _ _ _)), apply_run, kvs_advance,
      Memory.store_store, Memory.cells_store_self, ← replay_append, List.flatten_cons,
      List.map_append, advance_append]
    rfl

end StateMachineStore

/-- What `apply` returns for the entries `es` and leaves of the map and of the store. -/
structure Applied (es : List (Entry M)) (core : StateMachineStore M) (kvs : Kvs)
    (replies : List AppResponseData) (core' : StateMachineStore M) (kvs' : Kvs) : Prop where
  /-- One reply for each entry. -/
  length : replies.length = es.length
  /-- The reply to an entry holds the value it sets, or nothing. -/
  reply : ∀ (i : ℕ) e r, es[i]? = some e → replies[i]? = some r →
    ∀ v, r.value = some v ↔ ∃ key, e.payload = .normal (.set key v)
  /-- A key that was last set holds that value. -/
  set : ∀ pre e post key value, es = pre ++ e :: post → e.payload = .normal (.set key value) →
    (∀ d ∈ post, ¬ d.Touches key) → kvs'[key]? = some value
  /-- A key that was last deleted is not there. -/
  delete : ∀ pre e post key, es = pre ++ e :: post → e.payload = .normal (.delete key) →
    (∀ d ∈ post, ¬ d.Touches key) → kvs'[key]? = none
  /-- Every other key is as it was. -/
  untouched : ∀ key, (∀ e ∈ es, ¬ e.Touches key) → kvs'[key]? = kvs[key]?
  /-- The position is that of the last entry. -/
  lastAppliedLogId : ∀ pre e, es = pre ++ [e] → core'.data.lastAppliedLogId = some e.logId
  /-- The membership is the last one, with the position of its entry. -/
  lastMembership : ∀ pre e post mem, es = pre ++ e :: post → e.payload = .membership mem →
    (∀ d ∈ post, ∀ mem, d.payload ≠ .membership mem) →
      core'.data.lastMembership = ⟨some e.logId, mem⟩
  /-- Without a membership entry it stays. -/
  sameMembership : (∀ e ∈ es, ∀ mem, e.payload ≠ .membership mem) →
    core'.data.lastMembership = core.data.lastMembership
  /-- Without entries the position stays. -/
  samePosition : es = [] → core'.data.lastAppliedLogId = core.data.lastAppliedLogId
  /-- The store keeps its map and its counter. -/
  sameStore : core'.data.kvs = core.data.kvs ∧ core'.snapshotIdx = core.snapshotIdx

theorem Entry.reply_value {e : Entry M} {v : String} :
    e.reply.value = some v ↔ ∃ key, e.payload = .normal (.set key v) := by
  rcases e with ⟨id, _ | (⟨key, value⟩ | ⟨key⟩) | mem⟩ <;> simp [Entry.reply]

theorem StateMachineStore.snapshotIdx_advance (core : StateMachineStore M) (es : List (Entry M)) :
    (core.advance es).snapshotIdx = core.snapshotIdx := by
  induction es generalizing core with
  | nil => rfl
  | cons e es ih => exact (ih (core.advanceOne e)).trans rfl

theorem applied (es : List (Entry M)) (core : StateMachineStore M) (kvs : Kvs) :
    Applied es core kvs (es.map Entry.reply) (core.advance es) (replay kvs es) where
  length := List.length_map _
  reply i e r he hr v := by
    rw [List.getElem?_map, he, Option.map_some, Option.some_inj] at hr
    rw [← hr, Entry.reply_value]
  set pre e post key value hes he hpost := by
    rw [hes]
    exact replay_last (by rw [Entry.update, he]) hpost kvs
  delete pre e post key hes he hpost := by
    rw [hes]
    exact replay_last (by rw [Entry.update, he]) hpost kvs
  untouched key h := replay_of_forall_not_touches h kvs
  lastAppliedLogId pre e hes := by
    rw [hes]
    exact core.lastAppliedLogId_advance pre e
  lastMembership pre e post mem hes he hpost := by
    rw [hes]
    exact core.lastMembership_advance he hpost
  sameMembership h := core.lastMembership_advance_of_forall h
  samePosition hes := by
    rw [hes]
    rfl
  sameStore := ⟨core.kvs_advance es, core.snapshotIdx_advance es⟩

/-- **What `apply` does**, in one call or in any batches: a reply for each entry, and a state that
the last entries of their kind decide. -/
theorem StateMachineStore.apply_applied {ω : Type} (core : StateMachineStore M) (m : Memory ω Kvs)
    (es : List (Entry M)) :
    ∃ replies core' m', Completes (core.apply es) m (replies, core') m' ∧
      Applied es core (m.cells core.data.kvs) replies core' (m'.cells core'.data.kvs) ∧
      ∀ batches : List (List (Entry M)), batches.flatten = es →
        Completes (core.applyInBatches batches) m (replies, core') m' := by
  refine ⟨_, _, _, core.apply_run m es, ?_, ?_⟩
  · rw [kvs_advance, Memory.cells_store_self]
    exact applied es core _
  · rintro batches rfl
    exact (core.applyInBatches_run m batches).trans (core.apply_run m _)

end PlacementCenter.Openraft
