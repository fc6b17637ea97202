import PlacementCenter.Rust.Bytes
import PlacementCenter.Rust.Text

/-!
# The keys of the Raft records

The names under which the log store keeps its records in the `cluster` column family, next to
the keys of the clients.

## Main definitions

* `keyNameByFirstIndex`, …, `keyNameSnapshot`: the names of `storage/keys.rs`
* `Record`, `Record.name`, `Record.key`: the records of the log store and their keys
* `IsRaftKey`: the names the log store uses
* `raftPrefix`, `IsClientKey`: the namespace of the log store, and the keys outside it

## Main results

* `Record.name_injective`: distinct records have distinct names
* `Record.prefix`: every name of the log store lies in its namespace
-/

namespace PlacementCenter.Storage

open Rust

def keyNameByFirstIndex : String := "/raft/first_index"

def keyNameByLastIndex : String := "/raft/last_index"

def keyNameByHardState : String := "/raft/hard_state"

def keyNameByConfState : String := "/raft/conf_state"

def keyNameByEntry (idx : UInt64) : String := "/raft/entry/" ++ Nat.repr idx.toNat

def keyNameUncommit : String := "/raft/uncommit_index"

def keyNameSnapshot : String := "/raft/snapshot"

/-- The records of the log store. -/
inductive Record where
  | firstIndex
  | lastIndex
  | hardState
  | confState
  | entry (idx : UInt64)
  | uncommit
  | snapshot
  deriving DecidableEq

/-- The name of a record. -/
def Record.name : Record → String
  | firstIndex => keyNameByFirstIndex
  | lastIndex => keyNameByLastIndex
  | hardState => keyNameByHardState
  | confState => keyNameByConfState
  | entry idx => keyNameByEntry idx
  | uncommit => keyNameUncommit
  | snapshot => keyNameSnapshot

/-- The key under which the log store keeps a record. -/
def Record.key (r : Record) : Bytes := utf8 r.name

/-- The names under which the log store keeps a record. -/
def IsRaftKey (s : String) : Prop := ∃ r : Record, r.name = s

/-- The namespace of the log store. -/
def raftPrefix : Bytes := utf8 "/raft/"

/-- A key outside the namespace of the log store. -/
def IsClientKey (k : Bytes) : Prop := ¬ raftPrefix <+: k

instance : DecidablePred IsClientKey := fun k => inferInstanceAs (Decidable (¬ raftPrefix <+: k))

/-- Distinct indices have distinct names. -/
theorem keyNameByEntry_inj {i j : UInt64} : keyNameByEntry i = keyNameByEntry j ↔ i = j := by
  refine ⟨fun h => ?_, fun h => h ▸ rfl⟩
  have hd : Nat.toDigits 10 i.toNat = Nat.toDigits 10 j.toNat := by
    simpa [keyNameByEntry, Nat.toList_repr] using congrArg String.toList h
  exact UInt64.toNat_inj.mp (toDigits_inj.mp hd)

/-- The name of an entry differs from a name that leaves `/raft/entry/`. -/
theorem keyNameByEntry_ne {idx : UInt64} {s : String} (h : ¬ "/raft/entry/".toList <+: s.toList) :
    keyNameByEntry idx ≠ s := by
  rintro rfl
  exact h ⟨(Nat.repr idx.toNat).toList, by simp [keyNameByEntry]⟩

/-- Distinct records have distinct names. -/
theorem Record.name_injective : Function.Injective Record.name := by
  have other : ∀ {idx : UInt64} {r : Record}, (∀ i, r ≠ entry i) → keyNameByEntry idx ≠ r.name := by
    intro idx r hr
    refine keyNameByEntry_ne ?_
    cases r with
    | entry i => exact absurd rfl (hr i)
    | _ => decide
  intro r r' h
  cases r with
  | entry i =>
    cases r' with
    | entry j => rw [keyNameByEntry_inj.mp h]
    | _ => exact absurd h (other (by simp))
  | _ =>
    cases r' with
    | entry j => exact absurd h.symm (other (by simp))
    | _ => first | rfl | exact absurd h (by decide)

@[simp] theorem Record.key_inj {r r' : Record} : r.key = r'.key ↔ r = r' := by
  rw [key, key, utf8_inj, Record.name_injective.eq_iff]

/-- Every name of the log store lies in its namespace. -/
theorem Record.prefix (r : Record) : raftPrefix <+: r.key := by
  have split : ∀ {t : String}, r.name = "/raft/" ++ t → raftPrefix <+: r.key := by
    intro t h
    exact ⟨utf8 t, by rw [key, h, raftPrefix, utf8_append]⟩
  cases r with
  | firstIndex => exact split (t := "first_index") (by decide)
  | lastIndex => exact split (t := "last_index") (by decide)
  | hardState => exact split (t := "hard_state") (by decide)
  | confState => exact split (t := "conf_state") (by decide)
  | entry idx =>
    refine split (t := "entry/" ++ Nat.repr idx.toNat) ?_
    rw [name, keyNameByEntry, ← String.append_assoc]
    rfl
  | uncommit => exact split (t := "uncommit_index") (by decide)
  | snapshot => exact split (t := "snapshot") (by decide)

/-- The key of a record is not a client key. -/
theorem Record.key_ne_of_client (r : Record) {k : Bytes} (hk : IsClientKey k) : r.key ≠ k := by
  rintro rfl
  exact hk r.prefix

end PlacementCenter.Storage
