import PlacementCenter.Rust.Json
import PlacementCenter.Rust.Collections

/-!
# Typed JSON

The types a program writes as JSON text and reads back: unsigned integers, booleans, texts,
optional values, sequences, maps with text keys, and structs. A struct is written as an object and
read from an object, in any order of its members and with others among them, or from an array of its
fields.

## Main definitions

* `SerdeJson α`: types with a JSON value
* `SerdeJson.toString`, `SerdeJson.fromStr`: `serde_json::to_string` and `serde_json::from_str`
* `SerdeJson.toVec`, `SerdeJson.fromSlice`: the same on bytes
* `Serialize α`: types that are written, if only some of their values
* `Json.structFields`: the fields of a struct, in the order of its declaration

## Main results

* `SerdeJson.fromStr_toString`: a typed value is read back from its text
* `SerdeJson.length_toVec_bytes`: the text of a byte string is twice as long
* `Json.structFields_zip`: the fields of a struct are read back
-/

namespace Rust

/-- Types with a JSON value. -/
class SerdeJson (α : Type) where
  toJson : α → Json
  fromJson : Json → Option α
  fromJson_toJson : ∀ a, fromJson (toJson a) = some a

namespace SerdeJson

variable {α : Type}

/-- `serde_json::to_string`. -/
def toString [SerdeJson α] (a : α) : String := String.ofList (toJson a).render

/-- `serde_json::from_str`. -/
def fromStr [SerdeJson α] (s : String) : Option α := (Json.parse s.toList).bind fromJson

/-- `serde_json::to_vec`. -/
def toVec [SerdeJson α] (a : α) : Bytes := utf8 (toString a)

/-- `serde_json::from_slice`. Bytes that are not UTF-8 are refused. -/
def fromSlice [SerdeJson α] (b : Bytes) : Option α := (fromUtf8 b).bind fromStr

end SerdeJson

/-- Types that `serde_json::to_vec` writes, with the text of the error where it does not. -/
class Serialize (α : Type) where
  toVec : α → Except String Bytes

/-- A value with a JSON value is always written. -/
instance {α : Type} [SerdeJson α] : Serialize α where
  toVec a := .ok (SerdeJson.toVec a)

namespace SerdeJson

variable {α : Type}

/-- **A typed value is read back from its text.** -/
@[simp] theorem fromStr_toString [SerdeJson α] (a : α) : fromStr (toString a) = some a := by
  simp [fromStr, toString, Json.parse_render, fromJson_toJson]

/-- A typed value is read back from its bytes. -/
@[simp] theorem fromSlice_toVec [SerdeJson α] (a : α) : fromSlice (toVec a) = some a := by
  simp [fromSlice, toVec]

theorem toVec_injective [SerdeJson α] : Function.Injective (toVec : α → Bytes) := by
  intro a b h
  have hb : fromSlice (toVec a) = some b := by rw [h, fromSlice_toVec]
  rw [fromSlice_toVec] at hb
  exact Option.some.inj hb

instance : SerdeJson UInt64 where
  toJson x := .nat x.toNat
  fromJson
    | .nat n => if n < 2 ^ 64 then some (UInt64.ofNat n) else none
    | _ => none
  fromJson_toJson x := by
    simp only
    rw [if_pos x.toNat_lt, UInt64.ofNat_toNat]

instance : SerdeJson UInt8 where
  toJson x := .nat x.toNat
  fromJson
    | .nat n => if n < 2 ^ 8 then some (UInt8.ofNat n) else none
    | _ => none
  fromJson_toJson x := by
    simp only
    rw [if_pos x.toNat_lt, UInt8.ofNat_toNat]

instance : SerdeJson String where
  toJson s := .str s
  fromJson
    | .str s => some s
    | _ => none
  fromJson_toJson _ := rfl

instance : SerdeJson Bool where
  toJson b := .bool b
  fromJson
    | .bool b => some b
    | _ => none
  fromJson_toJson _ := rfl

/-- An optional value is `null` or the value, when no value is written as `null`. -/
@[reducible] def option [SerdeJson α] (h : ∀ a : α, toJson a ≠ .null) : SerdeJson (Option α) where
  toJson
    | some a => toJson a
    | none => .null
  fromJson
    | .null => some none
    | j => (fromJson j).map some
  fromJson_toJson
    | none => rfl
    | some a => by
      simp only
      split
      · next heq => exact absurd heq (h a)
      · rw [fromJson_toJson]
        rfl

theorem mapM_map_fromJson [SerdeJson α] (as : List α) :
    (as.map toJson).mapM fromJson = some as := by
  induction as with
  | nil => rfl
  | cons a as ih => simp [List.mapM_cons, fromJson_toJson, ih]

instance [SerdeJson α] : SerdeJson (List α) where
  toJson as := .arr (as.map toJson)
  fromJson
    | .arr items => items.mapM fromJson
    | _ => none
  fromJson_toJson := mapM_map_fromJson

/-- A map is an object; of two members with one name the later is kept. -/
instance [SerdeJson α] : SerdeJson (OrdMap String α) where
  toJson m := .obj (m.toList.map fun p => (p.1, toJson p.2))
  fromJson
    | .obj ms => (ms.mapM fun p => (fromJson p.2).map fun v => (p.1, v)).map (OrdMap.writePairs ∅)
    | _ => none
  fromJson_toJson m := by
    have h : ∀ ps : List (String × α),
        (ps.map fun p => (p.1, toJson p.2)).mapM
          (fun p => (fromJson p.2).map fun v => (p.1, v)) = some ps := by
      intro ps
      induction ps with
      | nil => rfl
      | cons p ps ih => simp [List.mapM_cons, fromJson_toJson, ih]
    simp [h, OrdMap.writePairs_empty_toList]

/-- **The text of a byte string is twice as long**, at least. -/
theorem length_toVec_bytes (b : Bytes) : 2 * b.length + 1 ≤ (toVec b).length := by
  have hjson : toJson b = .arr ((b.map UInt8.toNat).map Json.nat) := by
    rw [List.map_map]
    rfl
  have htext := Json.length_render_nats (b.map UInt8.toNat)
  rw [List.length_map, ← hjson] at htext
  exact Nat.le_trans htext (length_le_utf8 _)

end SerdeJson

namespace Json

/-- The one member of a name. -/
def member (name : String) (ms : List (String × Json)) : Option Json :=
  match ms.filter fun m => m.1 = name with
  | [m] => some m.2
  | _ => none

/-- The fields of a struct, in the order of its declaration. -/
def structFields (names : List String) : Json → Option (List Json)
  | obj ms => names.mapM fun name => member name ms
  | arr items => if items.length = names.length then some items else none
  | _ => none

/-- The member of a field is the one written for it. -/
theorem member_zip {names : List String} (hd : names.Nodup) {vs : List Json} {name : String}
    {v : Json} (h : (name, v) ∈ names.zip vs) : member name (names.zip vs) = some v := by
  induction names generalizing vs with
  | nil => simp at h
  | cons a names ih =>
    obtain ⟨ha, hd⟩ := List.nodup_cons.mp hd
    cases vs with
    | nil => simp at h
    | cons x vs =>
      rw [List.zip_cons_cons] at h ⊢
      -- the first name, or one of the others: the names differ
      rcases List.mem_cons.mp h with h | h
      · cases h
        have hf : (names.zip vs).filter (fun m => m.1 = name) = [] := by
          refine List.filter_eq_nil_iff.mpr fun m hm he => ha ?_
          rw [← of_decide_eq_true he]
          exact (List.of_mem_zip hm).1
        simp [member, hf]
      · have hne : a ≠ name := by
          rintro rfl
          exact ha (List.of_mem_zip h).1
        rw [member, List.filter_cons_of_neg (by simpa using hne)]
        exact ih hd h

/-- **The fields of a struct are read back.** -/
theorem structFields_zip {names : List String} (hd : names.Nodup) {vs : List Json}
    (hl : names.length = vs.length) : structFields names (obj (names.zip vs)) = some vs := by
  have read : ∀ (f : String → Option Json) {names : List String} {vs : List Json},
      names.length = vs.length → (∀ p ∈ names.zip vs, f p.1 = some p.2) →
        names.mapM f = some vs := by
    intro f names
    induction names with
    | nil =>
      rintro vs hl -
      obtain rfl := List.length_eq_zero_iff.mp hl.symm
      rfl
    | cons name names ih =>
      intro vs hl h
      obtain ⟨v, vs, rfl⟩ := List.exists_cons_of_length_eq_add_one hl.symm
      rw [List.zip_cons_cons] at h
      rw [List.mapM_cons, h (name, v) List.mem_cons_self,
        ih (by simpa using hl) fun p hp => h p (List.mem_cons_of_mem _ hp)]
      rfl
  exact read _ hl fun p hp => member_zip hd hp

/-- The two fields of a struct are read back. -/
theorem structFields_two {a b : String} (h : a ≠ b) (x y : Json) :
    structFields [a, b] (obj [(a, x), (b, y)]) = some [x, y] := by
  have h' : b ≠ a := h.symm
  simp [structFields, member, h, h', List.mapM_cons]

end Json

end Rust
