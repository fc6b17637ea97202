import PlacementCenter.Rust.Prost

/-!
# The messages of the key-value service

## Main definitions

* `SetRequest`, `DeleteRequest`, `GetRequest`: the requests, with their protobuf encodings
* `CommonReply`, `GetReply`: the replies

## Main results

* the two requests that travel through the log are `LawfulMessage`s
-/

namespace PlacementCenter.Protocol

open Rust Rust.Prost

structure SetRequest where
  key : String
  value : String
  deriving DecidableEq, Repr

instance : Message SetRequest where
  default := ⟨"", ""⟩
  fields m := stringField 1 m.key ++ stringField 2 m.value
  mergeField
    | m, (1, .delimited b) => (fromUtf8 b).map fun s => { m with key := s }
    | m, (2, .delimited b) => (fromUtf8 b).map fun s => { m with value := s }
    | m, (tag, _) => if 1 ≤ tag ∧ tag ≤ 2 then none else some m

structure DeleteRequest where
  key : String
  deriving DecidableEq, Repr

instance : Message DeleteRequest where
  default := ⟨""⟩
  fields m := stringField 1 m.key
  mergeField
    | m, (1, .delimited b) => (fromUtf8 b).map fun s => { m with key := s }
    | m, (tag, _) => if tag = 1 then none else some m

structure GetRequest where
  key : String
  deriving DecidableEq, Repr

structure GetReply where
  value : String
  deriving DecidableEq, Repr

/-- `GetReply::default`. -/
def GetReply.default : GetReply := ⟨""⟩

structure CommonReply where
  deriving DecidableEq, Repr

instance : Message CommonReply where
  default := {}
  fields _ := []
  mergeField m _ := some m

/-! ### The requests are read back -/

instance : LawfulMessage SetRequest where
  known m f hf := by
    simp only [Message.fields, stringField, List.mem_append, mem_bytesField] at hf
    rcases hf with ⟨-, rfl⟩ | ⟨-, rfl⟩ <;> simp [Field.Known]
  merge_fields m _ := by
    obtain ⟨key, value⟩ := m
    have h₁ : (stringField 1 key).foldlM Message.mergeField (⟨"", ""⟩ : SetRequest) =
        some ⟨key, ""⟩ :=
      foldlM_bytesField (fun h => by rw [utf8_eq_nil.mp h]) (by simp [Message.mergeField])
    have h₂ : (stringField 2 value).foldlM Message.mergeField (⟨key, ""⟩ : SetRequest) =
        some ⟨key, value⟩ :=
      foldlM_bytesField (fun h => by rw [utf8_eq_nil.mp h]) (by simp [Message.mergeField])
    simp only [Message.fields, Message.default, List.foldlM_append, Option.bind_eq_bind, h₁, h₂,
      Option.bind_some]

instance : LawfulMessage DeleteRequest where
  known m f hf := by
    simp only [Message.fields, stringField, mem_bytesField] at hf
    obtain ⟨-, rfl⟩ := hf
    simp [Field.Known]
  merge_fields m _ := by
    obtain ⟨key⟩ := m
    refine foldlM_bytesField (fun h => ?_) (by simp [Message.mergeField])
    obtain rfl : key = "" := utf8_eq_nil.mp h
    rfl

end PlacementCenter.Protocol
