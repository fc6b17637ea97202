import PlacementCenter.Rust.Bytes

/-!
# The protobuf wire format

The wire format as prost reads and writes it: a message is a sequence of fields, each a key (a
field number and a wire type, as one varint) and a payload. A key with field number `0`, a wire
type above `5`, a varint of more than ten bytes, a payload that runs past the end and an end of
group without its start are decode errors; a field the message does not have is skipped.

## Main definitions

* `putVarint`, `getVarint`: base-128 varints
* `Payload`, `Field`, `putFields`, `getFields`: fields, and a message as a list of fields
* `Message α`: types with field lists, `encodeToVec`, `decode`

## Main results

* `getVarint_putVarint`, `getFields_putFields`: the decoder reads the encoder back
* `decode_encodeToVec`: a lawful message whose parts fit is read back
* `decode_encodeToVec_of_not_fits`: one with a part that does not fit is not
* `getFields_zero_key`: a key with field number `0` is a decode error
-/

namespace Rust.Prost

/-! ## Varints -/

/-- A varint of at most `k` bytes. -/
def putVarintAux : ℕ → ℕ → Bytes
  | 0, _ => []
  | k + 1, n =>
    if n < 128 then [UInt8.ofNat n] else UInt8.ofNat (n % 128 + 128) :: putVarintAux k (n / 128)

/-- The varint of a `u64`: seven bits per byte, low bits first, the top bit set on every byte but
the last. -/
def putVarint (n : ℕ) : Bytes := putVarintAux 10 n

/-- Read a varint of at most `k` bytes. The tenth byte of a `u64` holds one bit. -/
def getVarintAux : ℕ → Bytes → Option (ℕ × Bytes)
  | 0, _ => none
  | _ + 1, [] => none
  | k + 1, b :: bs =>
    if b.toNat < 128 then
      if k = 0 ∧ 2 ≤ b.toNat then none else some (b.toNat, bs)
    else (getVarintAux k bs).map fun r => (b.toNat - 128 + 128 * r.1, r.2)

/-- `decode_varint`. -/
def getVarint (b : Bytes) : Option (ℕ × Bytes) := getVarintAux 10 b

/-- The last byte of a varint. -/
theorem toNat_lastByte {n : ℕ} (h : n < 128) : (UInt8.ofNat n).toNat = n := by
  rw [UInt8.toNat_ofNat']
  omega

/-- A byte of a varint that is followed by another one. -/
theorem toNat_nextByte (n : ℕ) : (UInt8.ofNat (n % 128 + 128)).toNat = n % 128 + 128 := by
  rw [UInt8.toNat_ofNat']
  omega

theorem getVarintAux_putVarintAux (k n : ℕ) (rest : Bytes) (h : n < 2 * 128 ^ k) :
    getVarintAux (k + 1) (putVarintAux (k + 1) n ++ rest) = some (n, rest) := by
  -- seven bits for each byte that is left
  induction k generalizing n with
  | zero =>
    have hn : n < 2 := by simpa using h
    have hlt : n < 128 := by omega
    simp only [putVarintAux, if_pos hlt, List.singleton_append, getVarintAux, toNat_lastByte hlt]
    rw [if_neg (by omega)]
  | succ k ih =>
    rw [putVarintAux]
    by_cases hlt : n < 128
    · simp only [if_pos hlt, List.singleton_append, getVarintAux, toNat_lastByte hlt]
      rw [if_neg (by omega)]
    · have hq : n / 128 < 2 * 128 ^ k := by
        rw [Nat.pow_succ] at h
        omega
      rw [if_neg hlt, List.cons_append, getVarintAux, toNat_nextByte, if_neg (by omega), ih _ hq]
      simp only [Option.map_some, Option.some.injEq, Prod.mk.injEq, and_true]
      omega

/-- **A `u64` is read back from its varint**, whatever follows it. -/
theorem getVarint_putVarint {n : ℕ} (h : n < 2 ^ 64) (rest : Bytes) :
    getVarint (putVarint n ++ rest) = some (n, rest) :=
  getVarintAux_putVarintAux 9 n rest h

theorem getVarintAux_putVarintAux_of_le (k n : ℕ) (rest : Bytes) (h : 2 * 128 ^ k ≤ n) :
    getVarintAux (k + 1) (putVarintAux (k + 1) n ++ rest) = none := by
  induction k generalizing n with
  | zero =>
    have hn : 2 ≤ n := by simpa using h
    rw [putVarintAux]
    by_cases hlt : n < 128
    · rw [if_pos hlt, List.singleton_append, getVarintAux, toNat_lastByte hlt, if_pos hlt,
        if_pos ⟨rfl, hn⟩]
    · -- the last byte asks for another one
      rw [if_neg hlt, List.cons_append, getVarintAux, toNat_nextByte, if_neg (by omega),
        getVarintAux, Option.map_none]
  | succ k ih =>
    have hpow : 128 ^ (k + 1) = 128 * 128 ^ k := by rw [Nat.pow_succ, Nat.mul_comm]
    have hpos : 0 < 128 ^ k := Nat.pow_pos (by decide)
    have hge : ¬ n < 128 := by omega
    rw [putVarintAux, if_neg hge, List.cons_append, getVarintAux, toNat_nextByte,
      if_neg (by omega), ih _ (by omega), Option.map_none]

/-- **A number beyond a `u64` is not read back**: its varint takes more than ten bytes, or has more
than one bit in the tenth. -/
theorem getVarint_putVarint_of_le {n : ℕ} (h : 2 ^ 64 ≤ n) (rest : Bytes) :
    getVarint (putVarint n ++ rest) = none :=
  getVarintAux_putVarintAux_of_le 9 n rest h

theorem putVarint_ne_nil (n : ℕ) : putVarint n ≠ [] := by
  rw [putVarint, putVarintAux]
  split <;> simp

/-! ## Fields -/

/-- The payload of a field, by wire type. A group is skipped, so its content is not kept. -/
inductive Payload where
  | varint (n : UInt64)
  | fixed64 (b : Bytes)
  | delimited (b : Bytes)
  | group
  | fixed32 (b : Bytes)
  deriving DecidableEq, Repr

/-- A field: its number and its payload. -/
abbrev Field := ℕ × Payload

/-- The wire type of a payload. -/
def Payload.wireType : Payload → ℕ
  | varint _ => 0
  | fixed64 _ => 1
  | delimited _ => 2
  | group => 3
  | fixed32 _ => 5

/-- The bytes of a payload. No message writes a group. -/
def Payload.put : Payload → Bytes
  | varint n => putVarint n.toNat
  | fixed64 b => b
  | delimited b => putVarint b.length ++ b
  | group => []
  | fixed32 b => b

/-- The bytes of a field. -/
def putField (f : Field) : Bytes := putVarint (f.1 * 8 + f.2.wireType) ++ f.2.put

/-- The next `k` bytes. -/
def getBytes (k : ℕ) (b : Bytes) : Option (Bytes × Bytes) :=
  if b.length < k then none else some (b.take k, b.drop k)

/-- `decode_key`: the field number and the wire type. -/
def getKey (b : Bytes) : Option ((ℕ × ℕ) × Bytes) :=
  (getVarint b).bind fun r =>
    if r.1 < 2 ^ 32 ∧ r.1 % 8 ≤ 5 ∧ 1 ≤ r.1 / 8 then some ((r.1 / 8, r.1 % 8), r.2) else none

/-- `skip_field` on the content of a group, up to the end of the group with number `tag`. -/
def skipGroup : ℕ → ℕ → Bytes → Option Bytes
  | 0, _, _ => none
  | fuel + 1, tag, b =>
    (getKey b).bind fun r =>
      match r.1.2 with
      | 0 => (getVarint r.2).bind fun v => skipGroup fuel tag v.2
      | 1 => (getBytes 8 r.2).bind fun v => skipGroup fuel tag v.2
      | 2 => (getVarint r.2).bind fun n => (getBytes n.1 n.2).bind fun v => skipGroup fuel tag v.2
      | 3 => (skipGroup fuel r.1.1 r.2).bind fun rest => skipGroup fuel tag rest
      | 4 => if r.1.1 = tag then some r.2 else none
      | _ => (getBytes 4 r.2).bind fun v => skipGroup fuel tag v.2

/-- The payload that follows the key of a field. -/
def getPayload (tag wireType : ℕ) (b : Bytes) : Option (Payload × Bytes) :=
  match wireType with
  | 0 => (getVarint b).map fun r => (.varint (UInt64.ofNat r.1), r.2)
  | 1 => (getBytes 8 b).map fun r => (.fixed64 r.1, r.2)
  | 2 => (getVarint b).bind fun n => (getBytes n.1 n.2).map fun r => (.delimited r.1, r.2)
  | 3 => (skipGroup b.length tag b).map fun rest => (.group, rest)
  | 4 => none
  | _ => (getBytes 4 b).map fun r => (.fixed32 r.1, r.2)

/-- One field. -/
def getField (b : Bytes) : Option (Field × Bytes) :=
  (getKey b).bind fun r =>
    (getPayload r.1.1 r.1.2 r.2).map fun p => ((r.1.1, p.1), p.2)

/-- Fields up to the end of the input. -/
def getFieldsAux : ℕ → Bytes → Option (List Field)
  | _, [] => some []
  | 0, _ :: _ => none
  | fuel + 1, b => (getField b).bind fun r => (getFieldsAux fuel r.2).map fun fs => r.1 :: fs

/-- The fields of a message. Every field takes at least one byte. -/
def getFields (b : Bytes) : Option (List Field) := getFieldsAux b.length b

/-- The bytes of a list of fields. -/
def putFields (fs : List Field) : Bytes := fs.flatMap putField

/-- A field of a kind the encoder writes, with a number below `2 ^ 29`. -/
def Field.Known : Field → Prop
  | (tag, .varint _) => 1 ≤ tag ∧ tag < 2 ^ 29
  | (tag, .delimited _) => 1 ≤ tag ∧ tag < 2 ^ 29
  | _ => False

/-- A field as the encoder writes it: a known one whose length is a `u64`. -/
def Field.Fits : Field → Prop
  | (tag, .varint _) => 1 ≤ tag ∧ tag < 2 ^ 29
  | (tag, .delimited b) => (1 ≤ tag ∧ tag < 2 ^ 29) ∧ b.length < 2 ^ 64
  | _ => False

/-- A known field fits when its bytes do. -/
theorem Field.Known.fits {f : Field} (h : f.Known) (hl : (putField f).length < 2 ^ 64) :
    f.Fits := by
  obtain ⟨tag, p⟩ := f
  cases p with
  | varint n => exact h
  | delimited b =>
    refine ⟨h, ?_⟩
    simp only [putField, Payload.put, List.length_append] at hl
    omega
  | fixed64 b => cases h
  | group => cases h
  | fixed32 b => cases h

theorem getKey_put {tag w : ℕ} (ht : 1 ≤ tag ∧ tag < 2 ^ 29) (hw : w ≤ 5) (rest : Bytes) :
    getKey (putVarint (tag * 8 + w) ++ rest) = some ((tag, w), rest) := by
  have hq : (tag * 8 + w) / 8 = tag := by omega
  have hr : (tag * 8 + w) % 8 = w := by omega
  rw [getKey, getVarint_putVarint (by omega)]
  simp only [Option.bind_some, hq, hr]
  rw [if_pos (by omega)]

theorem getField_putField {f : Field} (hf : f.Fits) (rest : Bytes) :
    getField (putField f ++ rest) = some (f, rest) := by
  obtain ⟨tag, p⟩ := f
  cases p with
  | varint n =>
    rw [putField, List.append_assoc, getField]
    simp only [Payload.wireType, Payload.put]
    rw [getKey_put hf (by decide)]
    simp [getPayload, getVarint_putVarint n.toNat_lt]
  | delimited b =>
    obtain ⟨ht, hb⟩ := hf
    rw [putField, List.append_assoc, getField]
    simp only [Payload.wireType, Payload.put]
    rw [getKey_put ht (by decide)]
    simp [getPayload, getVarint_putVarint hb, getBytes]
  | fixed64 | group | fixed32 => exact hf.elim

/-- A known field whose length is not a `u64` is not read back. -/
theorem getField_putField_of_not_fits {f : Field} (hk : f.Known) (hf : ¬ f.Fits) (rest : Bytes) :
    getField (putField f ++ rest) = none := by
  obtain ⟨tag, p⟩ := f
  cases p with
  | varint n => exact absurd hk hf
  | delimited b =>
    have hb : 2 ^ 64 ≤ b.length := Nat.le_of_not_lt fun hb => hf ⟨hk, hb⟩
    rw [putField, List.append_assoc, getField]
    simp only [Payload.wireType, Payload.put]
    rw [getKey_put hk (by decide), Option.bind_some, getPayload, List.append_assoc,
      getVarint_putVarint_of_le hb]
    rfl
  | fixed64 | group | fixed32 => exact hk.elim

theorem putField_ne_nil (f : Field) : putField f ≠ [] := fun h =>
  putVarint_ne_nil _ (List.append_eq_nil_iff.mp h).1

theorem getFieldsAux_putFields (fs : List Field) (hf : ∀ f ∈ fs, f.Fits) :
    ∀ fuel, fs.length ≤ fuel → getFieldsAux fuel (putFields fs) = some fs := by
  induction fs with
  | nil => intro fuel _; simp [putFields, getFieldsAux]
  | cons f fs ih =>
    intro fuel hl
    obtain ⟨fuel, rfl⟩ : ∃ k, fuel = k + 1 := ⟨fuel - 1, by simp at hl; omega⟩
    have hrest := ih (fun g hg => hf g (List.mem_cons_of_mem f hg)) fuel (by simpa using hl)
    have hfield := getField_putField (hf f List.mem_cons_self) (putFields fs)
    simp only [putFields, List.flatMap_cons] at hrest hfield ⊢
    obtain ⟨c, cs, hc⟩ := List.exists_cons_of_ne_nil (putField_ne_nil f)
    rw [hc, List.cons_append, getFieldsAux, ← List.cons_append, ← hc, hfield]
    · simp [hrest]
    · simp

theorem getFieldsAux_putFields_of_not_fits (fs : List Field) (hk : ∀ f ∈ fs, f.Known)
    (hf : ¬ ∀ f ∈ fs, f.Fits) : ∀ fuel, getFieldsAux fuel (putFields fs) = none := by
  induction fs with
  | nil => simp at hf
  | cons f fs ih =>
    intro fuel
    obtain ⟨c, cs, hc⟩ := List.exists_cons_of_ne_nil (putField_ne_nil f)
    have hput : putFields (f :: fs) = c :: (cs ++ putFields fs) := by
      rw [putFields, List.flatMap_cons, hc]
      rfl
    cases fuel with
    | zero =>
      rw [hput]
      rfl
    | succ fuel =>
      rw [hput, getFieldsAux, ← List.cons_append, ← hc]
      -- the first field is read back, or the reader stops there
      · by_cases hfit : f.Fits
        · have htail : ¬ ∀ g ∈ fs, g.Fits := fun h => hf (List.forall_mem_cons.mpr ⟨hfit, h⟩)
          rw [getField_putField hfit, Option.bind_some,
            ih (fun g hg => hk g (List.mem_cons_of_mem f hg)) htail, Option.map_none]
        · rw [getField_putField_of_not_fits (hk f List.mem_cons_self) hfit]
          rfl
      · simp

theorem length_le_putFields (fs : List Field) : fs.length ≤ (putFields fs).length := by
  induction fs with
  | nil => simp
  | cons f fs ih =>
    have hp : 0 < (putField f).length := List.length_pos_iff.mpr (putField_ne_nil f)
    simp only [putFields, List.flatMap_cons, List.length_append, List.length_cons] at ih ⊢
    omega

/-- A field is longer than its content. -/
theorem length_delimited_le (tag : ℕ) {b : Bytes} {fs : List Field}
    (h : (tag, Payload.delimited b) ∈ fs) : b.length ≤ (putFields fs).length := by
  obtain ⟨pre, post, rfl⟩ := List.append_of_mem h
  simp only [putFields, putField, Payload.put, List.flatMap_append, List.flatMap_cons,
    List.length_append]
  omega

/-- **The fields of a message are read back.** -/
theorem getFields_putFields {fs : List Field} (hf : ∀ f ∈ fs, f.Fits) :
    getFields (putFields fs) = some fs :=
  getFieldsAux_putFields fs hf _ (length_le_putFields fs)

/-- **A key whose field number is `0` is a decode error**: a first byte below `8` is such a
key. -/
theorem getFields_zero_key {b : UInt8} (hb : b.toNat < 8) (bs : Bytes) :
    getFields (b :: bs) = none := by
  have hv : getVarint (b :: bs) = some (b.toNat, bs) := by
    simp only [getVarint, getVarintAux]
    rw [if_pos (by omega), if_neg (by omega)]
  have hk : getKey (b :: bs) = none := by
    rw [getKey, hv, Option.bind_some, if_neg (by omega)]
  simp [getFields, getFieldsAux, getField, hk]

/-! ## Messages -/

/-- Types with a protobuf encoding: the default message, the fields the encoder writes and the
merge of one decoded field. -/
class Message (α : Type) where
  default : α
  fields : α → List Field
  mergeField : α → Field → Option α

/-- Messages whose fields rebuild them. -/
class LawfulMessage (α : Type) [Message α] : Prop where
  known : ∀ (m : α), ∀ f ∈ Message.fields m, f.Known
  merge_fields : ∀ m : α, (∀ f ∈ Message.fields m, f.Fits) →
    (Message.fields m).foldlM Message.mergeField Message.default = some m

variable {α : Type} [Message α]

/-- `Message::encode_to_vec`. -/
def encodeToVec (m : α) : Bytes := putFields (Message.fields m)

/-- `Message::decode`: the fields in order, merged into the default message. -/
def decode (b : Bytes) : Option α :=
  (getFields b).bind fun fs => fs.foldlM Message.mergeField Message.default

/-- **A message is read back** when its parts fit. -/
theorem decode_encodeToVec [LawfulMessage α] {m : α} (hf : ∀ f ∈ Message.fields m, f.Fits) :
    decode (encodeToVec m) = some m := by
  rw [decode, encodeToVec, getFields_putFields hf]
  exact LawfulMessage.merge_fields m hf

/-- **A message with a part that does not fit is not read back.** -/
theorem decode_encodeToVec_of_not_fits [LawfulMessage α] {m : α}
    (hf : ¬ ∀ f ∈ Message.fields m, f.Fits) : (decode (encodeToVec m) : Option α) = none := by
  rw [decode, encodeToVec, getFields,
    getFieldsAux_putFields_of_not_fits _ (LawfulMessage.known m) hf]
  rfl

/-- What is read back of a message, if anything, is the message. -/
theorem eq_of_decode_encodeToVec [LawfulMessage α] {m m' : α}
    (h : decode (encodeToVec m) = some m') : m' = m := by
  by_cases hf : ∀ f ∈ Message.fields m, f.Fits
  · rw [decode_encodeToVec hf] at h
    exact (Option.some.inj h).symm
  · rw [decode_encodeToVec_of_not_fits hf] at h
    cases h

/-- The parts of a message fit when the message does. -/
theorem fits_of_length [LawfulMessage α] {m : α} (h : (encodeToVec m).length < 2 ^ 64) :
    ∀ f ∈ Message.fields m, f.Fits := by
  intro f hf
  refine (LawfulMessage.known m f hf).fits (Nat.lt_of_le_of_lt ?_ h)
  obtain ⟨fs, fs', hs⟩ := List.append_of_mem hf
  simp only [encodeToVec, putFields, hs, List.flatMap_append, List.flatMap_cons,
    List.length_append]
  omega

theorem decode_zero_key {b : UInt8} (hb : b.toNat < 8) (bs : Bytes) :
    (decode (b :: bs) : Option α) = none := by
  rw [decode, getFields_zero_key hb]
  rfl

/-! ### The fields of a message

A field with its default value is not written. -/

/-- A `uint64` field. -/
def uint64Field (tag : ℕ) (x : UInt64) : List Field := if x = 0 then [] else [(tag, .varint x)]

/-- An enumeration field: an `i32`, sign-extended. -/
def enumField (tag : ℕ) (x : Int32) : List Field :=
  if x = 0 then [] else [(tag, .varint x.toInt64.toUInt64)]

/-- The `i32` of an enumeration field. -/
def toEnum (n : UInt64) : Int32 := n.toInt64.toInt32

@[simp] theorem toEnum_toUInt64 (x : Int32) : toEnum x.toInt64.toUInt64 = x := by
  simp [toEnum]

/-- A `bool` field. -/
def boolField (tag : ℕ) (x : Bool) : List Field := if x = false then [] else [(tag, .varint 1)]

/-- A `bytes` field. -/
def bytesField (tag : ℕ) (b : Bytes) : List Field := if b = [] then [] else [(tag, .delimited b)]

/-- A `string` field. -/
def stringField (tag : ℕ) (s : String) : List Field := bytesField tag (utf8 s)

/-- A packed `repeated uint64` field. -/
def packedField (tag : ℕ) (xs : List UInt64) : List Field :=
  bytesField tag (xs.flatMap fun x => putVarint x.toNat)

/-- A nested message. -/
def messageField (tag : ℕ) : Option α → List Field
  | none => []
  | some m => [(tag, .delimited (encodeToVec m))]

/-- A repeated message field. -/
def repeatedField (tag : ℕ) (ms : List α) : List Field :=
  ms.map fun m => (tag, .delimited (encodeToVec m))

/-- An `int64` field. -/
def int64Field (tag : ℕ) (x : Int64) : List Field :=
  if x = 0 then [] else [(tag, .varint x.toUInt64)]

/-- Merge the bytes of a nested message into the one read so far. -/
def mergeMessage (o : Option α) (b : Bytes) : Option (Option α) :=
  (getFields b).bind fun fs => (fs.foldlM Message.mergeField (o.getD Message.default)).map some

/-- A nested message is read back. -/
theorem mergeMessage_encodeToVec [LawfulMessage α] {m : α}
    (h : (encodeToVec m).length < 2 ^ 64) : mergeMessage none (encodeToVec m) = some (some m) := by
  have hf := fits_of_length h
  rw [mergeMessage, encodeToVec, getFields_putFields hf, Option.bind_some, Option.getD_none,
    LawfulMessage.merge_fields m hf]
  rfl

theorem flatMap_putVarint_eq_nil {xs : List UInt64} :
    (xs.flatMap fun x => putVarint x.toNat) = [] ↔ xs = [] := by
  cases xs with
  | nil => simp
  | cons x xs => simp [putVarint_ne_nil]

/-- The varints of a packed field, up to the end of its bytes. -/
def getPackedAux : ℕ → Bytes → Option (List UInt64)
  | _, [] => some []
  | 0, _ :: _ => none
  | fuel + 1, b => (getVarint b).bind fun r =>
      (getPackedAux fuel r.2).map fun xs => UInt64.ofNat r.1 :: xs

/-- The values of a packed field. -/
def getPacked (b : Bytes) : Option (List UInt64) := getPackedAux b.length b

theorem getPackedAux_flatMap (xs : List UInt64) :
    ∀ fuel, xs.length ≤ fuel →
      getPackedAux fuel (xs.flatMap fun x => putVarint x.toNat) = some xs := by
  induction xs with
  | nil => intro fuel _; simp [getPackedAux]
  | cons x xs ih =>
    intro fuel hl
    obtain ⟨fuel, rfl⟩ : ∃ k, fuel = k + 1 := ⟨fuel - 1, by simp at hl; omega⟩
    have hrest := ih fuel (by simpa using hl)
    obtain ⟨c, cs, hc⟩ := List.exists_cons_of_ne_nil (putVarint_ne_nil x.toNat)
    rw [List.flatMap_cons, hc, List.cons_append, getPackedAux, ← List.cons_append, ← hc,
      getVarint_putVarint x.toNat_lt]
    · simp [hrest]
    · simp

/-- The values of a packed field are read back. -/
theorem getPacked_flatMap (xs : List UInt64) :
    getPacked (xs.flatMap fun x => putVarint x.toNat) = some xs := by
  refine getPackedAux_flatMap xs _ ?_
  rw [List.length_flatMap]
  induction xs with
  | nil => simp
  | cons x xs ih =>
    have hp : 0 < (putVarint x.toNat).length :=
      List.length_pos_iff.mpr (putVarint_ne_nil x.toNat)
    simp only [List.length_cons, List.map_cons, List.sum_cons]
    omega

@[simp] theorem mem_uint64Field {tag : ℕ} {x : UInt64} {f : Field} :
    f ∈ uint64Field tag x ↔ x ≠ 0 ∧ f = (tag, .varint x) := by
  unfold uint64Field
  split_ifs with h <;> simp [h]

@[simp] theorem mem_enumField {tag : ℕ} {x : Int32} {f : Field} :
    f ∈ enumField tag x ↔ x ≠ 0 ∧ f = (tag, .varint x.toInt64.toUInt64) := by
  unfold enumField
  split_ifs with h <;> simp [h]

@[simp] theorem mem_boolField {tag : ℕ} {x : Bool} {f : Field} :
    f ∈ boolField tag x ↔ x = true ∧ f = (tag, .varint 1) := by
  unfold boolField
  split_ifs with h <;> simp [h]

@[simp] theorem mem_bytesField {tag : ℕ} {b : Bytes} {f : Field} :
    f ∈ bytesField tag b ↔ b ≠ [] ∧ f = (tag, .delimited b) := by
  unfold bytesField
  split_ifs with h <;> simp [h]

@[simp] theorem mem_messageField {tag : ℕ} {o : Option α} {f : Field} :
    f ∈ messageField tag o ↔ ∃ m ∈ o, f = (tag, .delimited (encodeToVec m)) := by
  cases o <;> simp [messageField]

@[simp] theorem mem_repeatedField {tag : ℕ} {ms : List α} {f : Field} :
    f ∈ repeatedField tag ms ↔ ∃ m ∈ ms, f = (tag, .delimited (encodeToVec m)) := by
  simp [repeatedField, eq_comm]

@[simp] theorem mem_int64Field {tag : ℕ} {x : Int64} {f : Field} :
    f ∈ int64Field tag x ↔ x ≠ 0 ∧ f = (tag, .varint x.toUInt64) := by
  unfold int64Field
  split_ifs with h <;> simp [h]

section merge

variable {m m' : α} {tag : ℕ}

theorem foldlM_uint64Field {x : UInt64} (h₀ : x = 0 → m' = m)
    (h : Message.mergeField m (tag, .varint x) = some m') :
    (uint64Field tag x).foldlM Message.mergeField m = some m' := by
  unfold uint64Field
  split_ifs with hx
  · rw [h₀ hx]
    rfl
  · simp [h]

theorem foldlM_enumField {x : Int32} (h₀ : x = 0 → m' = m)
    (h : Message.mergeField m (tag, .varint x.toInt64.toUInt64) = some m') :
    (enumField tag x).foldlM Message.mergeField m = some m' := by
  unfold enumField
  split_ifs with hx
  · rw [h₀ hx]
    rfl
  · simp [h]

theorem foldlM_boolField {x : Bool} (h₀ : x = false → m' = m)
    (h : x = true → Message.mergeField m (tag, .varint 1) = some m') :
    (boolField tag x).foldlM Message.mergeField m = some m' := by
  unfold boolField
  split_ifs with hx
  · rw [h₀ hx]
    rfl
  · simp [h (by simpa using hx)]

theorem foldlM_bytesField {b : Bytes} (h₀ : b = [] → m' = m)
    (h : Message.mergeField m (tag, .delimited b) = some m') :
    (bytesField tag b).foldlM Message.mergeField m = some m' := by
  unfold bytesField
  split_ifs with hb
  · rw [h₀ hb]
    rfl
  · simp [h]

theorem foldlM_messageField {β : Type} [Message β] {o : Option β} (h₀ : o = none → m' = m)
    (h : ∀ n ∈ o, Message.mergeField m (tag, .delimited (encodeToVec n)) = some m') :
    (messageField tag o).foldlM Message.mergeField m = some m' := by
  cases o with
  | none =>
    rw [h₀ rfl]
    rfl
  | some n => simp [messageField, h n rfl]

theorem foldlM_int64Field {x : Int64} (h₀ : x = 0 → m' = m)
    (h : Message.mergeField m (tag, .varint x.toUInt64) = some m') :
    (int64Field tag x).foldlM Message.mergeField m = some m' := by
  unfold int64Field
  split_ifs with hx
  · rw [h₀ hx]
    rfl
  · simp [h]

/-- A repeated message adds to those that were read before. -/
theorem foldlM_repeatedField {β : Type} [Message β] {ms : List β} {g : List β → α}
    (h : ∀ l, ∀ n ∈ ms, Message.mergeField (g l) (tag, .delimited (encodeToVec n)) =
      some (g (l ++ [n]))) (l : List β) :
    (repeatedField tag ms).foldlM Message.mergeField (g l) = some (g (l ++ ms)) := by
  induction ms generalizing l with
  | nil =>
    rw [List.append_nil]
    rfl
  | cons n ms ih =>
    have htail := ih (fun l n hn => h l n (List.mem_cons_of_mem _ hn)) (l ++ [n])
    rw [List.append_assoc, List.singleton_append] at htail
    rw [repeatedField, List.map_cons, List.foldlM_cons, h l n List.mem_cons_self]
    exact htail

end merge

/-! ### Bounded messages -/

theorem length_putVarintAux_le (k n : ℕ) : (putVarintAux k n).length ≤ k := by
  induction k generalizing n with
  | zero => simp [putVarintAux]
  | succ k ih =>
    rw [putVarintAux]
    split_ifs
    · simp
    · have := ih (n / 128)
      simp only [List.length_cons]
      omega

theorem length_putFields_uint64Field_le (tag : ℕ) (x : UInt64) :
    (putFields (uint64Field tag x)).length ≤ 20 := by
  unfold uint64Field
  split_ifs
  · simp [putFields]
  · have h₁ := length_putVarintAux_le 10 (tag * 8 + 0)
    have h₂ := length_putVarintAux_le 10 x.toNat
    simp only [putFields, List.flatMap_cons, List.flatMap_nil, putField, Payload.wireType,
      Payload.put, putVarint, List.append_nil, List.length_append]
    omega

end Rust.Prost
