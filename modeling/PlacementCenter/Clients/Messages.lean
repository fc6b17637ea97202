import PlacementCenter.Protocol.Kv
import PlacementCenter.Server.PeerServices

/-!
# The messages of the clients

The remaining requests and replies that clients and services exchange. Most of them have one field,
a text or some bytes.

## Main definitions

* `oneBytes`, `oneString`: the encoding of a message with one field
* `ExistsRequest`, `ExistsReply`: the messages of `exists`

## Main results

* `lawful_oneBytes`, `lawful_oneString`: a message with one field is read back
-/

namespace PlacementCenter.Clients

open Rust Rust.Prost Protocol Server

section OneField

variable {ρ : Type}

/-- The encoding of a message whose field 1 is of type `bytes`. -/
@[reducible] def oneBytes (mk : Bytes → ρ) (value : ρ → Bytes) : Message ρ where
  default := mk []
  fields m := bytesField 1 (value m)
  mergeField
    | _, (1, .delimited b) => some (mk b)
    | m, (tag, _) => if tag = 1 then none else some m

/-- The encoding of a message whose field 1 is of type `string`. -/
@[reducible] def oneString (mk : String → ρ) (value : ρ → String) : Message ρ where
  default := mk ""
  fields m := stringField 1 (value m)
  mergeField
    | _, (1, .delimited b) => (fromUtf8 b).map mk
    | m, (tag, _) => if tag = 1 then none else some m

theorem lawful_oneBytes {mk : Bytes → ρ} {value : ρ → Bytes} (h : ∀ m, mk (value m) = m) :
    @LawfulMessage ρ (oneBytes mk value) := by
  let _ := oneBytes mk value
  refine ⟨fun m f hf => ?_, fun m _ => foldlM_bytesField (fun hnil => ?_) (congrArg some (h m))⟩
  · obtain ⟨-, rfl⟩ := mem_bytesField.mp hf
    simp [Field.Known]
  · rw [← h m, hnil]
    rfl

theorem lawful_oneString {mk : String → ρ} {value : ρ → String} (h : ∀ m, mk (value m) = m) :
    @LawfulMessage ρ (oneString mk value) := by
  let _ := oneString mk value
  refine ⟨fun m f hf => ?_, fun m _ => foldlM_bytesField (fun hnil => ?_) ?_⟩
  · obtain ⟨-, rfl⟩ := mem_bytesField.mp hf
    simp [Field.Known]
  · rw [← h m, utf8_eq_nil.mp hnil]
    rfl
  · show (fromUtf8 (utf8 (value m))).map mk = some m
    rw [fromUtf8_utf8, Option.map_some, h m]

end OneField

/-! ### The key-value service -/

structure ExistsRequest where
  key : String
  deriving DecidableEq, Repr

structure ExistsReply where
  flag : Bool
  deriving DecidableEq, Repr

instance : Message GetRequest := oneString GetRequest.mk GetRequest.key

instance : LawfulMessage GetRequest := lawful_oneString fun _ => rfl

instance : Message GetReply := oneString GetReply.mk GetReply.value

instance : LawfulMessage GetReply := lawful_oneString fun _ => rfl

instance : Message ExistsRequest := oneString ExistsRequest.mk ExistsRequest.key

instance : LawfulMessage ExistsRequest := lawful_oneString fun _ => rfl

instance : Message ExistsReply where
  default := ⟨false⟩
  fields m := boolField 1 m.flag
  mergeField
    | _, (1, .varint n) => some ⟨n ≠ 0⟩
    | m, (tag, _) => if tag = 1 then none else some m

instance : LawfulMessage ExistsReply where
  known m f hf := by
    obtain ⟨-, rfl⟩ := mem_boolField.mp hf
    simp [Field.Known]
  merge_fields m _ := by
    obtain ⟨flag⟩ := m
    cases flag with
    | false => rfl
    | true => rfl

instance : LawfulMessage CommonReply where
  known _ _ hf := by cases hf
  merge_fields _ _ := rfl

/-! ### The services of the openraft node -/

instance : Message VoteRequest := oneBytes VoteRequest.mk VoteRequest.value

instance : LawfulMessage VoteRequest := lawful_oneBytes fun _ => rfl

instance : Message AppendRequest := oneBytes AppendRequest.mk AppendRequest.value

instance : LawfulMessage AppendRequest := lawful_oneBytes fun _ => rfl

instance : Message SnapshotRequest := oneBytes SnapshotRequest.mk SnapshotRequest.value

instance : LawfulMessage SnapshotRequest := lawful_oneBytes fun _ => rfl

instance : Message VoteReply := oneBytes VoteReply.mk VoteReply.value

instance : LawfulMessage VoteReply := lawful_oneBytes fun _ => rfl

instance : Message AppendReply := oneBytes AppendReply.mk AppendReply.value

instance : LawfulMessage AppendReply := lawful_oneBytes fun _ => rfl

instance : Message SnapshotReply := oneBytes SnapshotReply.mk SnapshotReply.value

instance : LawfulMessage SnapshotReply := lawful_oneBytes fun _ => rfl

end PlacementCenter.Clients
