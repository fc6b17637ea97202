import Mathlib.Data.Prod.Lex
import PlacementCenter.Rust.SerdeJson

/-!
# The types of the openraft group

The types of `typeconfig.rs` and `route/mod.rs`, and those of the openraft crate that the stores
write, with their JSON. A membership is a type `M` of the crate that the stores only copy.

## Main definitions

* `LogId`: the id of a log entry, ordered by term, then node, then index
* `Entry`, `EntryPayload`, `AppRequestData`: the entries of the log
* `SnapshotMeta`, `StoredSnapshot`: a snapshot and its metadata
* `StorageError`, `StorageResult`: what the stores return
-/

namespace PlacementCenter.Openraft

open Rust

/-- `openraft::LeaderId`. -/
structure LeaderId where
  term : UInt64
  nodeId : UInt64
  deriving DecidableEq, Repr

/-- The text of a leader, as its `Display` prints it. -/
def LeaderId.display (l : LeaderId) : String :=
  "T" ++ toString l.term.toNat ++ "-N" ++ toString l.nodeId.toNat

/-- `openraft::LogId`. -/
structure LogId where
  leaderId : LeaderId
  index : UInt64
  deriving DecidableEq, Repr

namespace LogId

/-- The fields of a log id, in the order in which they are compared. -/
def key (id : LogId) : ℕ ×ₗ ℕ ×ₗ ℕ :=
  toLex (id.leaderId.term.toNat, toLex (id.leaderId.nodeId.toNat, id.index.toNat))

theorem key_injective : Function.Injective key := by
  rintro ⟨⟨t, n⟩, i⟩ ⟨⟨t', n'⟩, i'⟩ h
  obtain ⟨ht, h⟩ := Prod.mk.inj (toLex.injective h)
  obtain ⟨hn, hi⟩ := Prod.mk.inj (toLex.injective h)
  obtain rfl := UInt64.toNat_inj.mp ht
  obtain rfl := UInt64.toNat_inj.mp hn
  obtain rfl := UInt64.toNat_inj.mp hi
  rfl

/-- Log ids compare by leader, then by index. -/
instance : LinearOrder LogId := LinearOrder.lift' key key_injective

/-- The index after a log id: the first one when there is none. -/
def nextIndex : Option LogId → ℕ
  | some id => id.index.toNat + 1
  | none => 0

/-- An optional log id is at most another: no id is below every id. -/
def AtMost (a b : Option LogId) : Prop := ∀ x ∈ a, ∃ y ∈ b, x ≤ y

theorem AtMost.refl (a : Option LogId) : AtMost a a := fun x hx => ⟨x, hx, le_rfl⟩

@[simp] theorem atMost_none (b : Option LogId) : AtMost none b := fun x hx => by cases hx

@[simp] theorem atMost_some {a b : LogId} : AtMost (some a) (some b) ↔ a ≤ b := by
  simp [AtMost]

theorem AtMost.trans {a b c : Option LogId} (h : AtMost a b) (h' : AtMost b c) : AtMost a c := by
  intro x hx
  obtain ⟨y, hy, hxy⟩ := h x hx
  obtain ⟨z, hz, hyz⟩ := h' y hy
  exact ⟨z, hz, hxy.trans hyz⟩

end LogId

/-- `AppRequestData`. -/
inductive AppRequestData where
  | set (key value : String)
  | delete (key : String)
  deriving DecidableEq, Repr

/-- `AppResponseData`. -/
structure AppResponseData where
  value : Option String
  deriving DecidableEq, Repr

/-- `openraft::EntryPayload`. -/
inductive EntryPayload (M : Type) where
  | blank
  | normal (req : AppRequestData)
  | membership (mem : M)
  deriving DecidableEq, Repr

/-- `openraft::Entry`. -/
structure Entry (M : Type) where
  logId : LogId
  payload : EntryPayload M
  deriving DecidableEq, Repr

/-- The index of an entry. -/
def Entry.index {M : Type} (e : Entry M) : UInt64 := e.logId.index

/-- `openraft::Vote`. -/
structure Vote where
  leaderId : LeaderId
  committed : Bool
  deriving DecidableEq, Repr

/-- `openraft::StoredMembership`. -/
structure StoredMembership (M : Type) where
  logId : Option LogId
  membership : M
  deriving DecidableEq, Repr

instance {M : Type} [Inhabited M] : Inhabited (StoredMembership M) := ⟨none, default⟩

/-- `openraft::SnapshotMeta`. -/
structure SnapshotMeta (M : Type) where
  lastLogId : Option LogId
  lastMembership : StoredMembership M
  snapshotId : String
  deriving DecidableEq, Repr

/-- `openraft::SnapshotSignature`. -/
structure SnapshotSignature where
  lastLogId : Option LogId
  lastMembershipLogId : Option LogId
  snapshotId : String
  deriving DecidableEq, Repr

/-- `SnapshotMeta::signature`. -/
def SnapshotMeta.signature {M : Type} (s : SnapshotMeta M) : SnapshotSignature :=
  ⟨s.lastLogId, s.lastMembership.logId, s.snapshotId⟩

structure StoredSnapshot (M : Type) where
  /-- The field `meta`. -/
  metadata : SnapshotMeta M
  /-- The data of the state machine at the time of this snapshot. -/
  data : Bytes
  deriving DecidableEq, Repr

/-- `openraft::LogState`. -/
structure LogState where
  lastPurgedLogId : Option LogId
  lastLogId : Option LogId
  deriving DecidableEq, Repr

/-! ### Errors -/

/-- `openraft::ErrorSubject`, as far as the stores use it. -/
inductive ErrorSubject where
  | store
  | vote
  | logs
  | stateMachine
  | snapshot (signature : Option SnapshotSignature)
  deriving DecidableEq, Repr

/-- `openraft::ErrorVerb`, as far as the stores use it. -/
inductive ErrorVerb where
  | read
  | write
  deriving DecidableEq, Repr

/-- `openraft::StorageError`, with the text of its source. -/
structure StorageError where
  subject : ErrorSubject
  verb : ErrorVerb
  source : String
  deriving DecidableEq, Repr

namespace StorageError

def read (source : String) : StorageError := ⟨.store, .read, source⟩

def write (source : String) : StorageError := ⟨.store, .write, source⟩

def writeVote (source : String) : StorageError := ⟨.vote, .write, source⟩

def readLogs (source : String) : StorageError := ⟨.logs, .read, source⟩

def writeLogs (source : String) : StorageError := ⟨.logs, .write, source⟩

def readSnapshot (signature : Option SnapshotSignature) (source : String) : StorageError :=
  ⟨.snapshot signature, .read, source⟩

def writeSnapshot (signature : Option SnapshotSignature) (source : String) : StorageError :=
  ⟨.snapshot signature, .write, source⟩

end StorageError

abbrev StorageResult (α : Type) := Except StorageError α

/-! ### JSON -/

/-- The value of an enum variant with content: an object with one member. -/
def variantOf : Json → Option (String × Json)
  | .obj [(name, content)] => some (name, content)
  | _ => none

instance : SerdeJson LeaderId where
  toJson l := .obj (["term", "node_id"].zip [SerdeJson.toJson l.term, SerdeJson.toJson l.nodeId])
  fromJson j := do
    match ← Json.structFields ["term", "node_id"] j with
    | [term, nodeId] => return ⟨← SerdeJson.fromJson term, ← SerdeJson.fromJson nodeId⟩
    | _ => none
  fromJson_toJson l := by
    rw [Json.structFields_zip (by decide) rfl]
    simp [SerdeJson.fromJson_toJson]

instance : SerdeJson LogId where
  toJson id :=
    .obj (["leader_id", "index"].zip [SerdeJson.toJson id.leaderId, SerdeJson.toJson id.index])
  fromJson j := do
    match ← Json.structFields ["leader_id", "index"] j with
    | [leaderId, index] => return ⟨← SerdeJson.fromJson leaderId, ← SerdeJson.fromJson index⟩
    | _ => none
  fromJson_toJson id := by
    rw [Json.structFields_zip (by decide) rfl]
    simp [SerdeJson.fromJson_toJson]

instance : SerdeJson (Option LogId) := SerdeJson.option fun _ => by simp [SerdeJson.toJson]

instance : SerdeJson Vote where
  toJson v := .obj
    (["leader_id", "committed"].zip [SerdeJson.toJson v.leaderId, SerdeJson.toJson v.committed])
  fromJson j := do
    match ← Json.structFields ["leader_id", "committed"] j with
    | [leaderId, committed] =>
      return ⟨← SerdeJson.fromJson leaderId, ← SerdeJson.fromJson committed⟩
    | _ => none
  fromJson_toJson v := by
    rw [Json.structFields_zip (by decide) rfl]
    simp [SerdeJson.fromJson_toJson]

instance : SerdeJson AppRequestData where
  toJson
    | .set key value => .obj [("Set",
        .obj (["key", "value"].zip [SerdeJson.toJson key, SerdeJson.toJson value]))]
    | .delete key => .obj [("Delete", .obj (["key"].zip [SerdeJson.toJson key]))]
  fromJson j := do
    match ← variantOf j with
    | ("Set", content) =>
      match ← Json.structFields ["key", "value"] content with
      | [key, value] => return .set (← SerdeJson.fromJson key) (← SerdeJson.fromJson value)
      | _ => none
    | ("Delete", content) =>
      match ← Json.structFields ["key"] content with
      | [key] => return .delete (← SerdeJson.fromJson key)
      | _ => none
    | _ => none
  fromJson_toJson
    | .set key value => by
      simp only [variantOf, Option.bind_eq_bind, Option.bind_some]
      rw [Json.structFields_zip (by decide) rfl]
      simp [SerdeJson.fromJson_toJson]
    | .delete key => by
      simp only [variantOf, Option.bind_eq_bind, Option.bind_some]
      rw [Json.structFields_zip (by decide) rfl]
      simp [SerdeJson.fromJson_toJson]

section Membership

variable {M : Type} [SerdeJson M]

instance : SerdeJson (EntryPayload M) where
  toJson
    | .blank => .str "Blank"
    | .normal req => .obj [("Normal", SerdeJson.toJson req)]
    | .membership mem => .obj [("Membership", SerdeJson.toJson mem)]
  fromJson
    | .str "Blank" => some .blank
    | j => do
      match ← variantOf j with
      | ("Normal", content) => return .normal (← SerdeJson.fromJson content)
      | ("Membership", content) => return .membership (← SerdeJson.fromJson content)
      | _ => none
  fromJson_toJson
    | .blank => rfl
    | .normal req => by simp [variantOf, SerdeJson.fromJson_toJson]
    | .membership mem => by simp [variantOf, SerdeJson.fromJson_toJson]

instance : SerdeJson (Entry M) where
  toJson e :=
    .obj (["log_id", "payload"].zip [SerdeJson.toJson e.logId, SerdeJson.toJson e.payload])
  fromJson j := do
    match ← Json.structFields ["log_id", "payload"] j with
    | [logId, payload] => return ⟨← SerdeJson.fromJson logId, ← SerdeJson.fromJson payload⟩
    | _ => none
  fromJson_toJson e := by
    rw [Json.structFields_zip (by decide) rfl]
    simp [SerdeJson.fromJson_toJson]

instance : SerdeJson (StoredMembership M) where
  toJson s := .obj
    (["log_id", "membership"].zip [SerdeJson.toJson s.logId, SerdeJson.toJson s.membership])
  fromJson j := do
    match ← Json.structFields ["log_id", "membership"] j with
    | [logId, membership] => return ⟨← SerdeJson.fromJson logId, ← SerdeJson.fromJson membership⟩
    | _ => none
  fromJson_toJson s := by
    rw [Json.structFields_zip (by decide) rfl]
    simp [SerdeJson.fromJson_toJson]

instance : SerdeJson (SnapshotMeta M) where
  toJson s := .obj (["last_log_id", "last_membership", "snapshot_id"].zip
    [SerdeJson.toJson s.lastLogId, SerdeJson.toJson s.lastMembership,
      SerdeJson.toJson s.snapshotId])
  fromJson j := do
    match ← Json.structFields ["last_log_id", "last_membership", "snapshot_id"] j with
    | [lastLogId, lastMembership, snapshotId] =>
      return ⟨← SerdeJson.fromJson lastLogId, ← SerdeJson.fromJson lastMembership,
        ← SerdeJson.fromJson snapshotId⟩
    | _ => none
  fromJson_toJson s := by
    rw [Json.structFields_zip (by decide) rfl]
    simp [SerdeJson.fromJson_toJson]

instance : SerdeJson (StoredSnapshot M) where
  toJson s := .obj (["meta", "data"].zip [SerdeJson.toJson s.metadata, SerdeJson.toJson s.data])
  fromJson j := do
    match ← Json.structFields ["meta", "data"] j with
    | [metadata, data] => return ⟨← SerdeJson.fromJson metadata, ← SerdeJson.fromJson data⟩
    | _ => none
  fromJson_toJson s := by
    rw [Json.structFields_zip (by decide) rfl]
    simp [SerdeJson.fromJson_toJson]

end Membership

end PlacementCenter.Openraft
