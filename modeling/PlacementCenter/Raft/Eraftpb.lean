import PlacementCenter.Rust.Prost

/-!
# The messages of the raft crate

The records of the raft crate that the log store keeps, with their protobuf encodings, and the
errors a store returns to it.

## Main definitions

* `HardState`, `ConfState`, `Entry`, `SnapshotMetadata`, `Snapshot`, `ConfChange`,
  `RaftPreludeMessage`
* `EntryType`, `ConfChangeType`: the enumerations, kept in a message as `i32`
* `StorageError`, `RaftError`, `RaftState`

## Main results

* every record of the store and every message between nodes is a `LawfulMessage`
* `HardState.decode_encodeToVec`, `Entry.decode_encodeToVec`: these two always fit
-/

namespace PlacementCenter.Raft

open Rust Rust.Prost

/-! ### Enumerations -/

inductive EntryType where
  | entryNormal
  | entryConfChange
  | entryConfChangeV2
  deriving DecidableEq, Repr

/-- `EntryType::from_i32`. -/
def EntryType.fromI32 (x : Int32) : Option EntryType :=
  if x = 0 then some entryNormal
  else if x = 1 then some entryConfChange
  else if x = 2 then some entryConfChangeV2
  else none

inductive ConfChangeType where
  | addNode
  | removeNode
  | addLearnerNode
  deriving DecidableEq, Repr

/-- `ConfChangeType::from_i32`. -/
def ConfChangeType.fromI32 (x : Int32) : Option ConfChangeType :=
  if x = 0 then some addNode
  else if x = 1 then some removeNode
  else if x = 2 then some addLearnerNode
  else none

/-! ### Messages -/

structure HardState where
  term : UInt64
  vote : UInt64
  commit : UInt64
  deriving DecidableEq, Repr

instance : Message HardState where
  default := ⟨0, 0, 0⟩
  fields m := uint64Field 1 m.term ++ uint64Field 2 m.vote ++ uint64Field 3 m.commit
  mergeField
    | m, (1, .varint n) => some { m with term := n }
    | m, (2, .varint n) => some { m with vote := n }
    | m, (3, .varint n) => some { m with commit := n }
    | m, (tag, _) => if 1 ≤ tag ∧ tag ≤ 3 then none else some m

/-- `HardState::default`. -/
def HardState.default : HardState := Message.default

structure ConfState where
  voters : List UInt64
  learners : List UInt64
  votersOutgoing : List UInt64
  learnersNext : List UInt64
  autoLeave : Bool
  deriving DecidableEq, Repr

instance : Message ConfState where
  default := ⟨[], [], [], [], false⟩
  fields m := packedField 1 m.voters ++ packedField 2 m.learners ++
    packedField 3 m.votersOutgoing ++ packedField 4 m.learnersNext ++ boolField 5 m.autoLeave
  mergeField
    | m, (1, .varint n) => some { m with voters := m.voters ++ [n] }
    | m, (1, .delimited b) => (getPacked b).map fun ns => { m with voters := m.voters ++ ns }
    | m, (2, .varint n) => some { m with learners := m.learners ++ [n] }
    | m, (2, .delimited b) => (getPacked b).map fun ns => { m with learners := m.learners ++ ns }
    | m, (3, .varint n) => some { m with votersOutgoing := m.votersOutgoing ++ [n] }
    | m, (3, .delimited b) =>
      (getPacked b).map fun ns => { m with votersOutgoing := m.votersOutgoing ++ ns }
    | m, (4, .varint n) => some { m with learnersNext := m.learnersNext ++ [n] }
    | m, (4, .delimited b) =>
      (getPacked b).map fun ns => { m with learnersNext := m.learnersNext ++ ns }
    | m, (5, .varint n) => some { m with autoLeave := n ≠ 0 }
    | m, (tag, _) => if 1 ≤ tag ∧ tag ≤ 5 then none else some m

/-- `ConfState::default`. -/
def ConfState.default : ConfState := Message.default

structure Entry where
  entryType : Int32
  term : UInt64
  index : UInt64
  data : ByteVec
  syncLog : Bool
  context : ByteVec
  deriving DecidableEq, Repr

/-- `Entry::default`. -/
def Entry.default : Entry := ⟨0, 0, 0, .empty, false, .empty⟩

instance : Message Entry where
  default := Entry.default
  fields m := enumField 1 m.entryType ++ uint64Field 2 m.term ++ uint64Field 3 m.index ++
    bytesField 4 m.data ++ boolField 5 m.syncLog ++ bytesField 6 m.context
  mergeField
    | m, (1, .varint n) => some { m with entryType := toEnum n }
    | m, (2, .varint n) => some { m with term := n }
    | m, (3, .varint n) => some { m with index := n }
    | m, (4, .delimited b) => (ByteVec.ofBytes b).map fun b => { m with data := b }
    | m, (5, .varint n) => some { m with syncLog := n ≠ 0 }
    | m, (6, .delimited b) => (ByteVec.ofBytes b).map fun b => { m with context := b }
    | m, (tag, _) => if 1 ≤ tag ∧ tag ≤ 6 then none else some m

structure SnapshotMetadata where
  confState : Option ConfState
  index : UInt64
  term : UInt64
  deriving DecidableEq, Repr

/-- `SnapshotMetadata::default`. -/
def SnapshotMetadata.default : SnapshotMetadata := ⟨none, 0, 0⟩

instance : Message SnapshotMetadata where
  default := SnapshotMetadata.default
  fields m := messageField 1 m.confState ++ uint64Field 2 m.index ++ uint64Field 3 m.term
  mergeField
    | m, (1, .delimited b) => (mergeMessage m.confState b).map fun c => { m with confState := c }
    | m, (2, .varint n) => some { m with index := n }
    | m, (3, .varint n) => some { m with term := n }
    | m, (tag, _) => if 1 ≤ tag ∧ tag ≤ 3 then none else some m

structure Snapshot where
  data : ByteVec
  metadata : Option SnapshotMetadata
  deriving DecidableEq, Repr

/-- `Snapshot::default`. -/
def Snapshot.default : Snapshot := ⟨.empty, none⟩

/-- `Snapshot::get_metadata`. -/
def Snapshot.getMetadata (s : Snapshot) : SnapshotMetadata := s.metadata.getD .default

instance : Message Snapshot where
  default := Snapshot.default
  fields m := bytesField 1 m.data ++ messageField 2 m.metadata
  mergeField
    | m, (1, .delimited b) => (ByteVec.ofBytes b).map fun b => { m with data := b }
    | m, (2, .delimited b) => (mergeMessage m.metadata b).map fun c => { m with metadata := c }
    | m, (tag, _) => if 1 ≤ tag ∧ tag ≤ 2 then none else some m

structure ConfChange where
  id : UInt64
  changeType : Int32
  nodeId : UInt64
  context : ByteVec
  deriving DecidableEq, Repr

instance : Message ConfChange where
  default := ⟨0, 0, 0, .empty⟩
  fields m := uint64Field 1 m.id ++ enumField 2 m.changeType ++ uint64Field 3 m.nodeId ++
    bytesField 4 m.context
  mergeField
    | m, (1, .varint n) => some { m with id := n }
    | m, (2, .varint n) => some { m with changeType := toEnum n }
    | m, (3, .varint n) => some { m with nodeId := n }
    | m, (4, .delimited b) => (ByteVec.ofBytes b).map fun b => { m with context := b }
    | m, (tag, _) => if 1 ≤ tag ∧ tag ≤ 4 then none else some m

/-- `eraftpb::Message`: what one node of the group sends to another. -/
structure RaftPreludeMessage where
  msgType : Int32
  toId : UInt64
  fromId : UInt64
  term : UInt64
  logTerm : UInt64
  index : UInt64
  entries : List Entry
  commit : UInt64
  snapshot : Option Snapshot
  reject : Bool
  rejectHint : UInt64
  context : ByteVec
  requestSnapshot : UInt64
  deprecatedPriority : UInt64
  commitTerm : UInt64
  priority : Int64
  deriving DecidableEq, Repr

/-- `eraftpb::Message::default`. -/
def RaftPreludeMessage.default : RaftPreludeMessage :=
  ⟨0, 0, 0, 0, 0, 0, [], 0, none, false, 0, .empty, 0, 0, 0, 0⟩

instance : Message RaftPreludeMessage where
  default := RaftPreludeMessage.default
  fields m := enumField 1 m.msgType ++ uint64Field 2 m.toId ++ uint64Field 3 m.fromId ++
    uint64Field 4 m.term ++ uint64Field 5 m.logTerm ++ uint64Field 6 m.index ++
    repeatedField 7 m.entries ++ uint64Field 8 m.commit ++ messageField 9 m.snapshot ++
    boolField 10 m.reject ++ uint64Field 11 m.rejectHint ++ bytesField 12 m.context ++
    uint64Field 13 m.requestSnapshot ++ uint64Field 14 m.deprecatedPriority ++
    uint64Field 15 m.commitTerm ++ int64Field 16 m.priority
  mergeField
    | m, (1, .varint n) => some { m with msgType := toEnum n }
    | m, (2, .varint n) => some { m with toId := n }
    | m, (3, .varint n) => some { m with fromId := n }
    | m, (4, .varint n) => some { m with term := n }
    | m, (5, .varint n) => some { m with logTerm := n }
    | m, (6, .varint n) => some { m with index := n }
    | m, (7, .delimited b) => (decode b).map fun e => { m with entries := m.entries ++ [e] }
    | m, (8, .varint n) => some { m with commit := n }
    | m, (9, .delimited b) => (mergeMessage m.snapshot b).map fun s => { m with snapshot := s }
    | m, (10, .varint n) => some { m with reject := n ≠ 0 }
    | m, (11, .varint n) => some { m with rejectHint := n }
    | m, (12, .delimited b) => (ByteVec.ofBytes b).map fun b => { m with context := b }
    | m, (13, .varint n) => some { m with requestSnapshot := n }
    | m, (14, .varint n) => some { m with deprecatedPriority := n }
    | m, (15, .varint n) => some { m with commitTerm := n }
    | m, (16, .varint n) => some { m with priority := n.toInt64 }
    | m, (tag, _) => if 1 ≤ tag ∧ tag ≤ 16 then none else some m

/-! ### The messages are read back -/

instance : LawfulMessage HardState where
  known m f hf := by
    simp only [Message.fields, List.mem_append, mem_uint64Field] at hf
    rcases hf with (⟨-, rfl⟩ | ⟨-, rfl⟩) | ⟨-, rfl⟩ <;> simp [Field.Known]
  merge_fields m _ := by
    obtain ⟨term, vote, commit⟩ := m
    have h₁ : (uint64Field 1 term).foldlM Message.mergeField (⟨0, 0, 0⟩ : HardState) =
        some ⟨term, 0, 0⟩ := foldlM_uint64Field (by rintro rfl; rfl) rfl
    have h₂ : (uint64Field 2 vote).foldlM Message.mergeField (⟨term, 0, 0⟩ : HardState) =
        some ⟨term, vote, 0⟩ := foldlM_uint64Field (by rintro rfl; rfl) rfl
    have h₃ : (uint64Field 3 commit).foldlM Message.mergeField (⟨term, vote, 0⟩ : HardState) =
        some ⟨term, vote, commit⟩ := foldlM_uint64Field (by rintro rfl; rfl) rfl
    simp only [Message.fields, Message.default, List.foldlM_append, Option.bind_eq_bind, h₁, h₂,
      h₃, Option.bind_some]

instance : LawfulMessage ConfState where
  known m f hf := by
    simp only [Message.fields, packedField, List.mem_append, mem_bytesField, mem_boolField] at hf
    rcases hf with (((⟨-, rfl⟩ | ⟨-, rfl⟩) | ⟨-, rfl⟩) | ⟨-, rfl⟩) | ⟨-, rfl⟩ <;>
      simp [Field.Known]
  merge_fields m _ := by
    obtain ⟨vs, ls, os, ns, auto⟩ := m
    have h₁ : (packedField 1 vs).foldlM Message.mergeField (⟨[], [], [], [], false⟩ : ConfState) =
        some ⟨vs, [], [], [], false⟩ :=
      foldlM_bytesField (fun h => by rw [flatMap_putVarint_eq_nil.mp h])
        (by simp [Message.mergeField, getPacked_flatMap])
    have h₂ : (packedField 2 ls).foldlM Message.mergeField (⟨vs, [], [], [], false⟩ : ConfState) =
        some ⟨vs, ls, [], [], false⟩ :=
      foldlM_bytesField (fun h => by rw [flatMap_putVarint_eq_nil.mp h])
        (by simp [Message.mergeField, getPacked_flatMap])
    have h₃ : (packedField 3 os).foldlM Message.mergeField (⟨vs, ls, [], [], false⟩ : ConfState) =
        some ⟨vs, ls, os, [], false⟩ :=
      foldlM_bytesField (fun h => by rw [flatMap_putVarint_eq_nil.mp h])
        (by simp [Message.mergeField, getPacked_flatMap])
    have h₄ : (packedField 4 ns).foldlM Message.mergeField (⟨vs, ls, os, [], false⟩ : ConfState) =
        some ⟨vs, ls, os, ns, false⟩ :=
      foldlM_bytesField (fun h => by rw [flatMap_putVarint_eq_nil.mp h])
        (by simp [Message.mergeField, getPacked_flatMap])
    have h₅ : (boolField 5 auto).foldlM Message.mergeField (⟨vs, ls, os, ns, false⟩ : ConfState) =
        some ⟨vs, ls, os, ns, auto⟩ :=
      foldlM_boolField (by rintro rfl; rfl) (by rintro rfl; rfl)
    simp only [Message.fields, Message.default, List.foldlM_append, Option.bind_eq_bind, h₁, h₂,
      h₃, h₄, h₅, Option.bind_some]

instance : LawfulMessage Entry where
  known m f hf := by
    simp only [Message.fields, List.mem_append, mem_enumField, mem_uint64Field, mem_bytesField,
      mem_boolField] at hf
    rcases hf with ((((⟨-, rfl⟩ | ⟨-, rfl⟩) | ⟨-, rfl⟩) | ⟨-, rfl⟩) | ⟨-, rfl⟩) | ⟨-, rfl⟩ <;>
      simp [Field.Known]
  merge_fields m _ := by
    obtain ⟨ty, term, index, data, sync, ctx⟩ := m
    have h₁ : (enumField 1 ty).foldlM Message.mergeField Entry.default =
        some ⟨ty, 0, 0, .empty, false, .empty⟩ :=
      foldlM_enumField (by rintro rfl; rfl) (by simp [Message.mergeField, Entry.default])
    have h₂ : (uint64Field 2 term).foldlM Message.mergeField
        (⟨ty, 0, 0, .empty, false, .empty⟩ : Entry) = some ⟨ty, term, 0, .empty, false, .empty⟩ :=
      foldlM_uint64Field (by rintro rfl; rfl) rfl
    have h₃ : (uint64Field 3 index).foldlM Message.mergeField
        (⟨ty, term, 0, .empty, false, .empty⟩ : Entry) =
          some ⟨ty, term, index, .empty, false, .empty⟩ :=
      foldlM_uint64Field (by rintro rfl; rfl) rfl
    have h₄ : (bytesField 4 data).foldlM Message.mergeField
        (⟨ty, term, index, .empty, false, .empty⟩ : Entry) =
          some ⟨ty, term, index, data, false, .empty⟩ :=
      foldlM_bytesField (fun h => by rw [ByteVec.eq_empty h]) (by simp [Message.mergeField])
    have h₅ : (boolField 5 sync).foldlM Message.mergeField
        (⟨ty, term, index, data, false, .empty⟩ : Entry) =
          some ⟨ty, term, index, data, sync, .empty⟩ :=
      foldlM_boolField (by rintro rfl; rfl) (by rintro rfl; rfl)
    have h₆ : (bytesField 6 ctx).foldlM Message.mergeField
        (⟨ty, term, index, data, sync, .empty⟩ : Entry) =
          some ⟨ty, term, index, data, sync, ctx⟩ :=
      foldlM_bytesField (fun h => by rw [ByteVec.eq_empty h]) (by simp [Message.mergeField])
    simp only [Message.fields, Message.default, List.foldlM_append, Option.bind_eq_bind, h₁, h₂,
      h₃, h₄, h₅, h₆, Option.bind_some]

instance : LawfulMessage SnapshotMetadata where
  known m f hf := by
    simp only [Message.fields, List.mem_append, mem_messageField, mem_uint64Field] at hf
    rcases hf with (⟨c, -, rfl⟩ | ⟨-, rfl⟩) | ⟨-, rfl⟩ <;> simp [Field.Known]
  merge_fields m hf := by
    obtain ⟨cs, index, term⟩ := m
    have h₁ : (messageField 1 cs).foldlM Message.mergeField SnapshotMetadata.default =
        some ⟨cs, 0, 0⟩ := by
      refine foldlM_messageField (by rintro rfl; rfl) fun c hc => ?_
      obtain rfl := Option.mem_def.mp hc
      have hl := hf (1, .delimited (encodeToVec c)) (by simp [Message.fields])
      simp [Message.mergeField, SnapshotMetadata.default, mergeMessage_encodeToVec hl.2]
    have h₂ : (uint64Field 2 index).foldlM Message.mergeField (⟨cs, 0, 0⟩ : SnapshotMetadata) =
        some ⟨cs, index, 0⟩ := foldlM_uint64Field (by rintro rfl; rfl) rfl
    have h₃ : (uint64Field 3 term).foldlM Message.mergeField (⟨cs, index, 0⟩ : SnapshotMetadata) =
        some ⟨cs, index, term⟩ := foldlM_uint64Field (by rintro rfl; rfl) rfl
    simp only [Message.fields, Message.default, List.foldlM_append, Option.bind_eq_bind, h₁, h₂,
      h₃, Option.bind_some]

instance : LawfulMessage Snapshot where
  known m f hf := by
    simp only [Message.fields, List.mem_append, mem_messageField, mem_bytesField] at hf
    rcases hf with ⟨-, rfl⟩ | ⟨c, -, rfl⟩ <;> simp [Field.Known]
  merge_fields m hf := by
    obtain ⟨data, metadata⟩ := m
    have h₁ : (bytesField 1 data).foldlM Message.mergeField Snapshot.default =
        some ⟨data, none⟩ :=
      foldlM_bytesField (fun h => by rw [ByteVec.eq_empty h]; rfl)
        (by simp [Message.mergeField, Snapshot.default])
    have h₂ : (messageField 2 metadata).foldlM Message.mergeField (⟨data, none⟩ : Snapshot) =
        some ⟨data, metadata⟩ := by
      refine foldlM_messageField (by rintro rfl; rfl) fun c hc => ?_
      obtain rfl := Option.mem_def.mp hc
      have hl := hf (2, .delimited (encodeToVec c)) (by simp [Message.fields])
      simp [Message.mergeField, mergeMessage_encodeToVec hl.2]
    simp only [Message.fields, Message.default, List.foldlM_append, Option.bind_eq_bind, h₁, h₂,
      Option.bind_some]

instance : LawfulMessage ConfChange where
  known m f hf := by
    simp only [Message.fields, List.mem_append, mem_enumField, mem_uint64Field,
      mem_bytesField] at hf
    rcases hf with ((⟨-, rfl⟩ | ⟨-, rfl⟩) | ⟨-, rfl⟩) | ⟨-, rfl⟩ <;> simp [Field.Known]
  merge_fields m _ := by
    obtain ⟨id, ty, node, ctx⟩ := m
    have h₁ : (uint64Field 1 id).foldlM Message.mergeField (⟨0, 0, 0, .empty⟩ : ConfChange) =
        some ⟨id, 0, 0, .empty⟩ := foldlM_uint64Field (by rintro rfl; rfl) rfl
    have h₂ : (enumField 2 ty).foldlM Message.mergeField (⟨id, 0, 0, .empty⟩ : ConfChange) =
        some ⟨id, ty, 0, .empty⟩ :=
      foldlM_enumField (by rintro rfl; rfl) (by simp [Message.mergeField])
    have h₃ : (uint64Field 3 node).foldlM Message.mergeField (⟨id, ty, 0, .empty⟩ : ConfChange) =
        some ⟨id, ty, node, .empty⟩ := foldlM_uint64Field (by rintro rfl; rfl) rfl
    have h₄ : (bytesField 4 ctx).foldlM Message.mergeField (⟨id, ty, node, .empty⟩ : ConfChange) =
        some ⟨id, ty, node, ctx⟩ :=
      foldlM_bytesField (fun h => by rw [ByteVec.eq_empty h]) (by simp [Message.mergeField])
    simp only [Message.fields, Message.default, List.foldlM_append, Option.bind_eq_bind, h₁, h₂,
      h₃, h₄, Option.bind_some]

/-! ### Messages that always fit -/

theorem HardState.fits (m : HardState) : ∀ f ∈ Message.fields m, f.Fits := by
  refine fits_of_length ?_
  have h₁ := length_putFields_uint64Field_le 1 m.term
  have h₂ := length_putFields_uint64Field_le 2 m.vote
  have h₃ := length_putFields_uint64Field_le 3 m.commit
  simp only [encodeToVec, putFields, Message.fields, List.flatMap_append, List.length_append]
    at h₁ h₂ h₃ ⊢
  omega

@[simp] theorem HardState.decode_encodeToVec (m : HardState) :
    decode (encodeToVec m) = some m :=
  Prost.decode_encodeToVec m.fits

theorem Entry.fits (m : Entry) : ∀ f ∈ Message.fields m, f.Fits := by
  have hd := m.data.property
  have hc := m.context.property
  intro f hf
  simp only [Message.fields, List.mem_append, mem_enumField, mem_uint64Field, mem_bytesField,
    mem_boolField] at hf
  rcases hf with ((((⟨-, rfl⟩ | ⟨-, rfl⟩) | ⟨-, rfl⟩) | ⟨-, rfl⟩) | ⟨-, rfl⟩) | ⟨-, rfl⟩ <;>
    simp only [Field.Fits] <;> omega

@[simp] theorem Entry.decode_encodeToVec (m : Entry) : decode (encodeToVec m) = some m :=
  Prost.decode_encodeToVec m.fits

/-! ### The messages between the nodes -/

instance : LawfulMessage RaftPreludeMessage where
  known m f hf := by
    simp only [Message.fields, List.mem_append, mem_enumField, mem_uint64Field, mem_bytesField,
      mem_boolField, mem_messageField, mem_repeatedField, mem_int64Field] at hf
    rcases hf with ((((((((((((((hf | hf) | hf) | hf) | hf) | hf) | hf) | hf) | hf) | hf) | hf) |
      hf) | hf) | hf) | hf) | hf
    -- the entries and the snapshot
    case inl.inl.inl.inl.inl.inl.inl.inl.inl.inr | inl.inl.inl.inl.inl.inl.inl.inr =>
      obtain ⟨_, -, rfl⟩ := hf
      simp [Field.Known]
    all_goals
      obtain ⟨-, rfl⟩ := hf
      simp [Field.Known]
  merge_fields m hf := by
    have hfits : ∀ s ∈ m.snapshot, (encodeToVec s).length < 2 ^ 64 := fun s hs =>
      (hf (9, .delimited (encodeToVec s)) (by simp [Message.fields, Option.mem_def.mp hs])).2
    obtain ⟨ty, dest, src, term, logTerm, index, entries, commit, snapshot, reject, hint, ctx,
      request, deprecated, commitTerm, priority⟩ := m
    -- the message after each of its fields
    let m₁ : RaftPreludeMessage := { RaftPreludeMessage.default with msgType := ty }
    let m₂ : RaftPreludeMessage := { m₁ with toId := dest }
    let m₃ : RaftPreludeMessage := { m₂ with fromId := src }
    let m₄ : RaftPreludeMessage := { m₃ with term := term }
    let m₅ : RaftPreludeMessage := { m₄ with logTerm := logTerm }
    let m₆ : RaftPreludeMessage := { m₅ with index := index }
    let m₇ (l : List Entry) : RaftPreludeMessage := { m₆ with entries := l }
    let m₈ : RaftPreludeMessage := { m₇ entries with commit := commit }
    let m₉ : RaftPreludeMessage := { m₈ with snapshot := snapshot }
    let m₁₀ : RaftPreludeMessage := { m₉ with reject := reject }
    let m₁₁ : RaftPreludeMessage := { m₁₀ with rejectHint := hint }
    let m₁₂ : RaftPreludeMessage := { m₁₁ with context := ctx }
    let m₁₃ : RaftPreludeMessage := { m₁₂ with requestSnapshot := request }
    let m₁₄ : RaftPreludeMessage := { m₁₃ with deprecatedPriority := deprecated }
    let m₁₅ : RaftPreludeMessage := { m₁₄ with commitTerm := commitTerm }
    let m₁₆ : RaftPreludeMessage := { m₁₅ with priority := priority }
    have h₁ : (enumField 1 ty).foldlM Message.mergeField RaftPreludeMessage.default = some m₁ :=
      foldlM_enumField (by rintro rfl; rfl) (by simp [Message.mergeField, m₁])
    have h₂ : (uint64Field 2 dest).foldlM Message.mergeField m₁ = some m₂ :=
      foldlM_uint64Field (by rintro rfl; rfl) rfl
    have h₃ : (uint64Field 3 src).foldlM Message.mergeField m₂ = some m₃ :=
      foldlM_uint64Field (by rintro rfl; rfl) rfl
    have h₄ : (uint64Field 4 term).foldlM Message.mergeField m₃ = some m₄ :=
      foldlM_uint64Field (by rintro rfl; rfl) rfl
    have h₅ : (uint64Field 5 logTerm).foldlM Message.mergeField m₄ = some m₅ :=
      foldlM_uint64Field (by rintro rfl; rfl) rfl
    have h₆ : (uint64Field 6 index).foldlM Message.mergeField m₅ = some (m₇ []) :=
      foldlM_uint64Field (by rintro rfl; rfl) rfl
    have h₇ : (repeatedField 7 entries).foldlM Message.mergeField (m₇ []) = some (m₇ entries) :=
      foldlM_repeatedField (fun l e _ => by simp [Message.mergeField, m₇]) []
    have h₈ : (uint64Field 8 commit).foldlM Message.mergeField (m₇ entries) = some m₈ :=
      foldlM_uint64Field (by rintro rfl; rfl) rfl
    have h₉ : (messageField 9 snapshot).foldlM Message.mergeField m₈ = some m₉ := by
      refine foldlM_messageField (by rintro rfl; rfl) fun s hs => ?_
      have hread := mergeMessage_encodeToVec (hfits s hs)
      obtain rfl := Option.mem_def.mp hs
      exact congrArg (Option.map fun s => { m₈ with snapshot := s }) hread
    have h₁₀ : (boolField 10 reject).foldlM Message.mergeField m₉ = some m₁₀ :=
      foldlM_boolField (by rintro rfl; rfl) (by rintro rfl; rfl)
    have h₁₁ : (uint64Field 11 hint).foldlM Message.mergeField m₁₀ = some m₁₁ :=
      foldlM_uint64Field (by rintro rfl; rfl) rfl
    have h₁₂ : (bytesField 12 ctx).foldlM Message.mergeField m₁₁ = some m₁₂ :=
      foldlM_bytesField (fun h => by simp only [m₁₂]; rw [ByteVec.eq_empty h]; rfl)
        (by simp [Message.mergeField, m₁₂])
    have h₁₃ : (uint64Field 13 request).foldlM Message.mergeField m₁₂ = some m₁₃ :=
      foldlM_uint64Field (by rintro rfl; rfl) rfl
    have h₁₄ : (uint64Field 14 deprecated).foldlM Message.mergeField m₁₃ = some m₁₄ :=
      foldlM_uint64Field (by rintro rfl; rfl) rfl
    have h₁₅ : (uint64Field 15 commitTerm).foldlM Message.mergeField m₁₄ = some m₁₅ :=
      foldlM_uint64Field (by rintro rfl; rfl) rfl
    have h₁₆ : (int64Field 16 priority).foldlM Message.mergeField m₁₅ = some m₁₆ :=
      foldlM_int64Field (by rintro rfl; rfl) (by simp [Message.mergeField, m₁₆])
    simp only [Message.fields, Message.default, List.foldlM_append, Option.bind_eq_bind, h₁, h₂,
      h₃, h₄, h₅, h₆, h₇, h₈, h₉, h₁₀, h₁₁, h₁₂, h₁₃, h₁₄, h₁₅, h₁₆, Option.bind_some]
    rfl

/-! ### Errors and states -/

/-- `raft::StorageError`. -/
inductive StorageError where
  | compacted
  | unavailable
  | logTemporarilyUnavailable
  | snapshotOutOfDate
  | snapshotTemporarilyUnavailable
  deriving DecidableEq, Repr

/-- `raft::Error`, as far as a store returns it. -/
inductive RaftError where
  | store (error : StorageError)
  deriving DecidableEq, Repr

/-- `raft::Result`. -/
abbrev RaftResult (α : Type) := Except RaftError α

/-- `raft::RaftState`. -/
structure RaftState where
  hardState : HardState
  confState : ConfState
  deriving DecidableEq, Repr

end PlacementCenter.Raft
