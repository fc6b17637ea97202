import PlacementCenter.Protocol.Kv
import PlacementCenter.Raft.Apply
import PlacementCenter.Storage.RaftRecords
import PlacementCenter.Storage.KvStorage

/-!
# Routing the committed writes

`DataRoute` applies the data of a committed entry to the key-value store. It reads the envelope,
and then reads the request from the bytes of the whole envelope.

## Main definitions

* `DataRoute.route`: the code of `raft/route.rs`
* `KeptByClients P`: what the writes of the clients keep
* `Router ε`: a route that writes and deletes client keys only

## Main results

* `DataRoute.route_panics`: the route panics on every byte string, and writes nothing
* `proposalData_deserialize`: the envelope of a proposal is read back
-/

namespace PlacementCenter.Raft

open Rust Rust.Prost Storage Protocol

section route

variable {σ : Type} [RocksDb σ]

/-- `DataRoute::route`, at the time `now`. Both requests are decoded from `data`, the envelope
itself. -/
def DataRoute.route (now : UInt64) (data : Bytes) : Program σ (Except RobustMQError Unit) := do
  let storageData : StorageData ← Program.unwrapOk (Bincode.deserialize data)
  match storageData.dataType with
  | .kvSet =>
    let req : SetRequest ← Program.unwrapOk (Prost.decode data)
    KvStorage.set now req.key req.value
  | .kvDelete =>
    let req : DeleteRequest ← Program.unwrapOk (Prost.decode data)
    KvStorage.delete req.key

end route

/-- The envelope of a write that fits an allocation is read back. -/
theorem proposalData_deserialize {d : StorageData} (h : (proposalData d).length < 2 ^ 63) :
    Bincode.deserialize (proposalData d) = some d :=
  Bincode.deserialize_serialize (by rw [proposalData] at h; omega)

/-- An envelope is its kind, the length of its payload and the payload. -/
theorem length_proposalData (d : StorageData) :
    (proposalData d).length = d.value.length + 12 := by
  have hv : Bincode.putMany d.value = d.value := List.flatMap_singleton' d.value
  change (leBytes 4 d.dataType.index ++
    Bincode.putCounted d.value.length (Bincode.putMany d.value)).length = _
  rw [hv, Bincode.putCounted]
  simp only [List.length_append, length_leBytes]
  omega

/-- An envelope starts with the index of its kind. -/
theorem head_of_deserialize {data : Bytes} {d : StorageData}
    (h : Bincode.deserialize data = some d) :
    ∃ b bs, data = b :: bs ∧ b.toNat < 8 := by
  rw [Bincode.deserialize, Option.map_eq_some_iff] at h
  obtain ⟨⟨d', rest⟩, h, -⟩ := h
  obtain ⟨⟨⟨t, v⟩, rest'⟩, h, -⟩ := Option.map_eq_some_iff.mp h
  obtain ⟨⟨t', b'⟩, ht, -⟩ := Option.bind_eq_some_iff.mp h
  obtain ⟨⟨n, b''⟩, hn, ht⟩ := Option.bind_eq_some_iff.mp ht
  obtain ⟨t'', ht, -⟩ := Option.map_eq_some_iff.mp ht
  have hlt := t''.index_lt
  rw [← StorageDataType.ofIndex_eq_some.mp ht] at hlt
  rw [Bincode.getNat] at hn
  split_ifs at hn with hl
  obtain ⟨rfl, -⟩ := Prod.mk.inj (Option.some_inj.mp hn)
  cases data with
  | nil => simp at hl
  | cons b bs =>
    refine ⟨b, bs, rfl, ?_⟩
    rw [List.take_succ_cons, leNat] at hlt
    omega

/-- **The route panics on every byte string.** Where the envelope can be read, its first byte is
that of a protobuf key with the field number `0`. -/
theorem DataRoute.route_panics {σ : Type} [RocksDb σ] (now : UInt64) (data : Bytes) (s : σ) :
    DataRoute.route now data s = (.panicked "called Result::unwrap() on an Err value", s) := by
  unfold DataRoute.route
  cases hd : (Bincode.deserialize data : Option StorageData) with
  | none => rfl
  | some d =>
    obtain ⟨b, bs, rfl, hb⟩ := head_of_deserialize hd
    rw [Program.unwrapOk_some, pure_bind]
    cases d.dataType with
    | kvSet =>
      dsimp only
      rw [decode_zero_key hb]
      rfl
    | kvDelete =>
      dsimp only
      rw [decode_zero_key hb]
      rfl

/-! ### Routes on client keys -/

variable {ε : Type}

/-- The write of a client key and the deletion of one keep `P`. -/
structure KeptByClients (P : World ε → Prop) : Prop where
  put : ∀ (w : World ε) (k v : Bytes), IsClientKey k → P w → P (putKey w k v)
  delete : ∀ (w : World ε) (k : Bytes), IsClientKey k → P w →
    P (w.delete dbColumnFamilyCluster k)

/-- A route of committed data at a time. It writes and deletes client keys only. -/
structure Router (ε : Type) where
  route : UInt64 → Bytes → Program (World ε) (Except RobustMQError Unit)
  keeps : ∀ {P : World ε → Prop}, KeptByClients P → ∀ now data, Program.Keeps P (route now data)

/-- The route of the program. -/
def dataRoute : Router ε where
  route := DataRoute.route
  keeps _ now data := Program.keeps_of_run _ fun w => by rw [DataRoute.route_panics]

end PlacementCenter.Raft
