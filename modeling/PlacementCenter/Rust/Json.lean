import PlacementCenter.Rust.Bytes

/-!
# JSON text

JSON values and their compact text, as serde_json writes and reads it: no blanks are written,
blanks between tokens are read; a string escapes the quote, the backslash and the characters
below `0x20`; nothing but blanks may follow a value. The numbers kept are the natural numbers:
every other number is read as `otherNumber`, which no type of this development takes.

## Main definitions

* `Json`, `Json.render`, `Json.parse`: values, their text, and the value of a text

## Main results

* `Json.parse_render`: every value is read back from its text
-/

namespace Rust

/-- A JSON value. -/
inductive Json where
  | null
  | bool (b : Bool)
  | nat (n : ℕ)
  | otherNumber
  | str (s : String)
  | arr (items : List Json)
  | obj (members : List (String × Json))

namespace Json

/-! ## The text of a value -/

/-- The hexadecimal digit of a number below `16`. -/
def hexDigit (n : ℕ) : Char := if n < 10 then Char.ofNat (48 + n) else Char.ofNat (87 + n)

/-- The text of one character of a string. -/
def escapeChar (c : Char) : List Char :=
  if c = '\x22' then ['\x5c', '\x22']
  else if c = '\x5c' then ['\x5c', '\x5c']
  else if c = '\x08' then ['\x5c', 'b']
  else if c = '\x0c' then ['\x5c', 'f']
  else if c = '\n' then ['\x5c', 'n']
  else if c = '\r' then ['\x5c', 'r']
  else if c = '\t' then ['\x5c', 't']
  else if c.toNat < 32 then ['\x5c', 'u', '0', '0', hexDigit (c.toNat / 16), hexDigit (c.toNat % 16)]
  else [c]

/-- The text of a string. -/
def renderString (s : String) : List Char :=
  '\x22' :: (s.toList.flatMap escapeChar ++ ['\x22'])

mutual

/-- The text of a value. -/
def render : Json → List Char
  | null => ['n', 'u', 'l', 'l']
  | bool true => ['t', 'r', 'u', 'e']
  | bool false => ['f', 'a', 'l', 's', 'e']
  | nat n => Nat.toDigits 10 n
  | otherNumber => ['-', '0']
  | str s => renderString s
  | arr [] => ['[', ']']
  | arr (x :: xs) => '[' :: (render x ++ renderItems xs)
  | obj [] => ['\x7b', '\x7d']
  | obj ((k, v) :: ms) => '\x7b' :: (renderString k ++ ':' :: (render v ++ renderMembers ms))

/-- The items after the first of an array, to its end. -/
def renderItems : List Json → List Char
  | [] => [']']
  | x :: xs => ',' :: (render x ++ renderItems xs)

/-- The members after the first of an object, to its end. -/
def renderMembers : List (String × Json) → List Char
  | [] => ['\x7d']
  | (k, v) :: ms => ',' :: (renderString k ++ ':' :: (render v ++ renderMembers ms))

end

/-! ## The value of a text -/

/-- The blanks of JSON. -/
def isBlank (c : Char) : Bool := c = ' ' || c = '\n' || c = '\t' || c = '\r'

/-- The text after its leading blanks. -/
def skipBlanks (cs : List Char) : List Char := cs.dropWhile isBlank

/-- The value of a hexadecimal digit. -/
def hexValue (c : Char) : Option ℕ :=
  if 48 ≤ c.toNat ∧ c.toNat ≤ 57 then some (c.toNat - 48)
  else if 97 ≤ c.toNat ∧ c.toNat ≤ 102 then some (c.toNat - 87)
  else if 65 ≤ c.toNat ∧ c.toNat ≤ 70 then some (c.toNat - 55)
  else none

/-- Four hexadecimal digits. -/
def parseHex4 : List Char → Option (ℕ × List Char)
  | a :: b :: c :: d :: cs => do
    let a ← hexValue a
    let b ← hexValue b
    let c ← hexValue c
    let d ← hexValue d
    return (4096 * a + 256 * b + 16 * c + d, cs)
  | _ => none

/-- The character of a `\u` escape, after the `u`: one code unit, or a surrogate pair. -/
def parseUnicode (cs : List Char) : Option (Char × List Char) := do
  let (n, cs) ← parseHex4 cs
  if 0xD800 ≤ n ∧ n < 0xDC00 then
    match cs with
    | '\x5c' :: 'u' :: cs =>
      let (m, cs) ← parseHex4 cs
      if 0xDC00 ≤ m ∧ m < 0xE000 then
        return (Char.ofNat (0x10000 + 0x400 * (n - 0xD800) + (m - 0xDC00)), cs)
      else none
    | _ => none
  else if 0xDC00 ≤ n ∧ n < 0xE000 then none
  else return (Char.ofNat n, cs)

/-- The character of an escape, after the backslash. -/
def parseEscape : List Char → Option (Char × List Char)
  | '\x22' :: cs => some ('\x22', cs)
  | '\x5c' :: cs => some ('\x5c', cs)
  | '/' :: cs => some ('/', cs)
  | 'b' :: cs => some ('\x08', cs)
  | 'f' :: cs => some ('\x0c', cs)
  | 'n' :: cs => some ('\n', cs)
  | 'r' :: cs => some ('\r', cs)
  | 't' :: cs => some ('\t', cs)
  | 'u' :: cs => parseUnicode cs
  | _ => none

/-- The characters of a string, after its opening quote. -/
def parseChars : ℕ → List Char → Option (List Char × List Char)
  | 0, _ => none
  | _ + 1, [] => none
  | fuel + 1, c :: cs =>
    if c = '\x22' then some ([], cs)
    else if c = '\x5c' then
      (parseEscape cs).bind fun r => (parseChars fuel r.2).map fun p => (r.1 :: p.1, p.2)
    else if c.toNat < 32 then none
    else (parseChars fuel cs).map fun p => (c :: p.1, p.2)

/-- A string, after its opening quote. -/
def parseString (cs : List Char) : Option (String × List Char) :=
  (parseChars (cs.length + 1) cs).map fun p => (String.ofList p.1, p.2)

/-- The leading digits, and the rest. -/
def takeDigits (cs : List Char) : List Char × List Char :=
  (cs.takeWhile Char.isDigit, cs.dropWhile Char.isDigit)

/-- The fraction of a number: whether there is one, and the rest. -/
def parseFraction : List Char → Option (Bool × List Char)
  | '.' :: cs =>
    let (ds, cs) := takeDigits cs
    if ds = [] then none else some (true, cs)
  | cs => some (false, cs)

/-- The text after an optional sign. -/
def dropSign : List Char → List Char
  | '+' :: cs => cs
  | '-' :: cs => cs
  | cs => cs

/-- The exponent of a number: whether there is one, and the rest. -/
def parseExponent : List Char → Option (Bool × List Char)
  | c :: cs =>
    if c = 'e' ∨ c = 'E' then
      let (ds, cs) := takeDigits (dropSign cs)
      if ds = [] then none else some (true, cs)
    else some (false, c :: cs)
  | [] => some (false, [])

/-- A number without its sign. -/
def parseUnsigned (negative : Bool) (cs : List Char) : Option (Json × List Char) := do
  let (ds, cs) := takeDigits cs
  if ds = [] ∨ (ds.head? = some '0' ∧ ds.length ≠ 1) then none
  else
    let (fraction, cs) ← parseFraction cs
    let (exponent, cs) ← parseExponent cs
    if negative ∨ fraction ∨ exponent then return (otherNumber, cs)
    else return (nat (Nat.ofDigitChars 10 ds 0), cs)

/-- A number. -/
def parseNumber : List Char → Option (Json × List Char)
  | '-' :: cs => parseUnsigned true cs
  | cs => parseUnsigned false cs

/-- The text after an expected word. -/
def parseWord (word cs : List Char) : Option (List Char) :=
  if word <+: cs then some (cs.drop word.length) else none

mutual

/-- A value. Every level of nesting and every item takes one unit of fuel. -/
def parseValue : ℕ → List Char → Option (Json × List Char)
  | 0, _ => none
  | fuel + 1, cs =>
    match skipBlanks cs with
    | '\x22' :: cs => (parseString cs).map fun p => (str p.1, p.2)
    | '[' :: cs =>
      match skipBlanks cs with
      | ']' :: cs => some (arr [], cs)
      | cs => (parseItems fuel cs).map fun p => (arr p.1, p.2)
    | '\x7b' :: cs =>
      match skipBlanks cs with
      | '\x7d' :: cs => some (obj [], cs)
      | cs => (parseMembers fuel cs).map fun p => (obj p.1, p.2)
    | 'n' :: cs => (parseWord ['u', 'l', 'l'] cs).map fun cs => (null, cs)
    | 't' :: cs => (parseWord ['r', 'u', 'e'] cs).map fun cs => (bool true, cs)
    | 'f' :: cs => (parseWord ['a', 'l', 's', 'e'] cs).map fun cs => (bool false, cs)
    | cs => parseNumber cs

/-- The items of an array, to its end. -/
def parseItems : ℕ → List Char → Option (List Json × List Char)
  | 0, _ => none
  | fuel + 1, cs =>
    (parseValue fuel cs).bind fun v =>
      match skipBlanks v.2 with
      | ',' :: cs => (parseItems fuel cs).map fun p => (v.1 :: p.1, p.2)
      | ']' :: cs => some ([v.1], cs)
      | _ => none

/-- The members of an object, to its end. -/
def parseMembers : ℕ → List Char → Option (List (String × Json) × List Char)
  | 0, _ => none
  | fuel + 1, cs =>
    match skipBlanks cs with
    | '\x22' :: cs =>
      (parseString cs).bind fun k =>
        match skipBlanks k.2 with
        | ':' :: cs =>
          (parseValue fuel cs).bind fun v =>
            match skipBlanks v.2 with
            | ',' :: cs => (parseMembers fuel cs).map fun p => ((k.1, v.1) :: p.1, p.2)
            | '\x7d' :: cs => some ([(k.1, v.1)], cs)
            | _ => none
        | _ => none
    | _ => none

end

/-- The value of a whole text. -/
def parse (cs : List Char) : Option Json :=
  (parseValue (cs.length + 1) cs).bind fun p => if skipBlanks p.2 = [] then some p.1 else none

/-! ## Texts are read back -/

theorem skipBlanks_cons {c : Char} (h : isBlank c = false) (cs : List Char) :
    skipBlanks (c :: cs) = c :: cs := by
  simp [skipBlanks, h]

theorem hexValue_hexDigit {n : ℕ} (h : n < 16) : hexValue (hexDigit n) = some n := by
  have : ∀ n : Fin 16, hexValue (hexDigit n) = some n.1 := by decide
  exact this ⟨n, h⟩

/-- The text of a character, after which the string goes on. -/
theorem parseChars_escapeChar (c : Char) (fuel : ℕ) (cs : List Char) :
    parseChars (fuel + 1) (escapeChar c ++ cs) =
      (parseChars fuel cs).map fun p => (c :: p.1, p.2) := by
  unfold escapeChar
  split_ifs with h1 h2 h3 h4 h5 h6 h7 h8
  · subst h1; rfl
  · subst h2; rfl
  · subst h3; rfl
  · subst h4; rfl
  · subst h5; rfl
  · subst h6; rfl
  · subst h7; rfl
  -- a control character has a four-digit escape
  · have hv : c.toNat / 16 < 16 := by omega
    have hw : c.toNat % 16 < 16 := by omega
    have h0 : hexValue '0' = some 0 := by decide
    have hn : 4096 * 0 + 256 * 0 + 16 * (c.toNat / 16) + c.toNat % 16 = c.toNat := by omega
    have hx : parseHex4 ('0' :: '0' :: hexDigit (c.toNat / 16) :: hexDigit (c.toNat % 16) :: cs) =
        some (c.toNat, cs) := by
      simp only [parseHex4, h0, hexValue_hexDigit hv, hexValue_hexDigit hw, bind, Option.bind,
        pure, hn]
    have hu : parseUnicode
        ('0' :: '0' :: hexDigit (c.toNat / 16) :: hexDigit (c.toNat % 16) :: cs) = some (c, cs) := by
      simp only [parseUnicode, hx, bind, Option.bind]
      rw [if_neg (by omega), if_neg (by omega), Char.ofNat_toNat]
      rfl
    have he : parseEscape
        ('u' :: '0' :: '0' :: hexDigit (c.toNat / 16) :: hexDigit (c.toNat % 16) :: cs) =
        some (c, cs) := hu
    simp only [List.cons_append, List.nil_append, parseChars]
    rw [if_neg (by decide), if_pos trivial, he]
    rfl
  · simp only [List.cons_append, List.nil_append, parseChars]
    rw [if_neg h1, if_neg h2, if_neg h8]

theorem parseChars_flatMap (s : List Char) (rest : List Char) :
    ∀ fuel, s.length < fuel →
      parseChars fuel (s.flatMap escapeChar ++ '\x22' :: rest) = some (s, rest) := by
  induction s with
  | nil =>
    intro fuel hf
    obtain ⟨fuel, rfl⟩ : ∃ k, fuel = k + 1 := ⟨fuel - 1, by simp at hf; omega⟩
    rfl
  | cons c s ih =>
    intro fuel hf
    obtain ⟨fuel, rfl⟩ : ∃ k, fuel = k + 1 := ⟨fuel - 1, by simp at hf; omega⟩
    rw [List.flatMap_cons, List.append_assoc, parseChars_escapeChar,
      ih fuel (by simpa using hf)]
    rfl

theorem length_le_flatMap_escapeChar (s : List Char) :
    s.length ≤ (s.flatMap escapeChar).length := by
  induction s with
  | nil => simp
  | cons c s ih =>
    have hc : 0 < (escapeChar c).length := by
      unfold escapeChar
      split_ifs <;> simp
    rw [List.flatMap_cons, List.length_append, List.length_cons]
    omega

/-- A string is read back from its text. -/
theorem parseString_render (s : String) (rest : List Char) :
    parseString (s.toList.flatMap escapeChar ++ '\x22' :: rest) = some (s, rest) := by
  have hl := length_le_flatMap_escapeChar s.toList
  rw [parseString, parseChars_flatMap s.toList rest _ (by
    rw [List.length_append]
    omega)]
  simp

/-- A text that does not go on with a number. -/
def Stops (rest : List Char) : Prop :=
  ∀ c ∈ rest.head?, c.isDigit = false ∧ c ≠ '.' ∧ c ≠ 'e' ∧ c ≠ 'E'

theorem stops_nil : Stops [] := fun c hc => by cases hc

theorem stops_cons {c : Char} (h : c.isDigit = false ∧ c ≠ '.' ∧ c ≠ 'e' ∧ c ≠ 'E')
    (cs : List Char) : Stops (c :: cs) := fun d hd => by
  cases hd
  exact h

theorem toDigits_isDigit {n : ℕ} {c : Char} (h : c ∈ Nat.toDigits 10 n) : c.isDigit = true :=
  Nat.isDigit_of_mem_toDigits (by decide) (by decide) h

theorem takeDigits_toDigits {n : ℕ} {rest : List Char} (h : Stops rest) :
    takeDigits (Nat.toDigits 10 n ++ rest) = (Nat.toDigits 10 n, rest) := by
  have hd : ∀ c ∈ Nat.toDigits 10 n, Char.isDigit c = true := fun c hc => toDigits_isDigit hc
  rw [takeDigits, List.takeWhile_append_of_pos hd, List.dropWhile_append_of_pos hd]
  cases rest with
  | nil => simp
  | cons c cs => simp [(h c rfl).1]

/-- Only the number zero starts with the digit zero. -/
theorem head?_toDigits {n : ℕ} (h : (Nat.toDigits 10 n).head? = some '0') : n = 0 := by
  induction n using Nat.strongRecOn with
  | ind n ih =>
    by_cases hn : n < 10
    · rw [Nat.toDigits_of_lt_base hn] at h
      have : ∀ k : Fin 10, Nat.digitChar k = '0' → k.1 = 0 := by decide
      exact this ⟨n, hn⟩ (by simpa using h)
    · have hq : (Nat.toDigits 10 (n / 10)).head? = some '0' := by
        obtain ⟨c, cs, hc⟩ :=
          List.exists_cons_of_ne_nil (Nat.toDigits_ne_nil (n := n / 10) (b := 10))
        rw [Nat.toDigits_of_base_le (by decide) (by omega), hc, List.cons_append,
          List.head?_cons] at h
        rw [hc, List.head?_cons, h]
      have := ih (n / 10) (by omega) hq
      omega

theorem parseFraction_stops {rest : List Char} (h : Stops rest) :
    parseFraction rest = some (false, rest) := by
  rcases rest with _ | ⟨c, cs⟩
  · rfl
  · unfold parseFraction
    split
    · next heq => exact absurd (List.cons.inj heq).1 (h c rfl).2.1
    · rfl

theorem parseExponent_stops {rest : List Char} (h : Stops rest) :
    parseExponent rest = some (false, rest) := by
  rcases rest with _ | ⟨c, cs⟩
  · rfl
  · rw [parseExponent, if_neg (not_or.mpr (h c rfl).2.2)]

/-- Digits are read back, with or without a sign before them. -/
theorem parseUnsigned_toDigits (negative : Bool) (n : ℕ) {rest : List Char} (h : Stops rest) :
    parseUnsigned negative (Nat.toDigits 10 n ++ rest) =
      some (if negative then otherNumber else nat n, rest) := by
  have hzero : ¬ ((Nat.toDigits 10 n).head? = some '0' ∧ (Nat.toDigits 10 n).length ≠ 1) := by
    rintro ⟨hz, hl⟩
    rw [head?_toDigits hz, Nat.toDigits_zero] at hl
    exact hl rfl
  simp only [parseUnsigned, takeDigits_toDigits h]
  rw [if_neg (not_or.mpr ⟨Nat.toDigits_ne_nil, hzero⟩)]
  cases negative <;>
    simp [parseFraction_stops h, parseExponent_stops h, Nat.ofDigitChars_ten_toDigits]

/-- A natural number is read back from its digits. -/
theorem parseNumber_toDigits (n : ℕ) {rest : List Char} (h : Stops rest) :
    parseNumber (Nat.toDigits 10 n ++ rest) = some (nat n, rest) := by
  have hunsigned := parseUnsigned_toDigits false n h
  obtain ⟨c, cs, hc⟩ := List.exists_cons_of_ne_nil (Nat.toDigits_ne_nil (n := n) (b := 10))
  have hdigit : c.isDigit = true := toDigits_isDigit (hc ▸ List.mem_cons_self)
  rw [hc, List.cons_append] at hunsigned ⊢
  unfold parseNumber
  split
  · next heq =>
    rw [(List.cons.inj heq).1] at hdigit
    exact absurd hdigit (by decide)
  · exact hunsigned

/-! ### Values -/

theorem renderItems_cons_head (xs : List Json) :
    ∃ c cs, renderItems xs = c :: cs ∧ (c = ',' ∨ c = ']') := by
  cases xs with
  | nil => exact ⟨_, _, rfl, .inr rfl⟩
  | cons x xs => exact ⟨_, _, by rw [renderItems], .inl rfl⟩

theorem renderMembers_cons_head (ms : List (String × Json)) :
    ∃ c cs, renderMembers ms = c :: cs ∧ (c = ',' ∨ c = '\x7d') := by
  cases ms with
  | nil => exact ⟨_, _, rfl, .inr rfl⟩
  | cons m ms => exact ⟨_, _, by rw [renderMembers], .inl rfl⟩

theorem stops_renderItems (xs : List Json) (rest : List Char) : Stops (renderItems xs ++ rest) := by
  obtain ⟨c, cs, hc, rfl | rfl⟩ := renderItems_cons_head xs <;> rw [hc, List.cons_append]
  · exact stops_cons (by decide) _
  · exact stops_cons (by decide) _

theorem stops_renderMembers (ms : List (String × Json)) (rest : List Char) :
    Stops (renderMembers ms ++ rest) := by
  obtain ⟨c, cs, hc, rfl | rfl⟩ := renderMembers_cons_head ms <;> rw [hc, List.cons_append]
  · exact stops_cons (by decide) _
  · exact stops_cons (by decide) _

/-- A text of a value starts with neither a blank nor the end of an array. -/
theorem render_head (j : Json) :
    ∃ c cs, render j = c :: cs ∧ isBlank c = false ∧ c ≠ ']' := by
  cases j with
  | null => exact ⟨_, _, rfl, by decide, by decide⟩
  | bool b => cases b <;> exact ⟨_, _, rfl, by decide, by decide⟩
  | nat n =>
    obtain ⟨c, cs, hc⟩ := List.exists_cons_of_ne_nil (Nat.toDigits_ne_nil (n := n) (b := 10))
    have hd : c.isDigit = true := toDigits_isDigit (hc ▸ List.mem_cons_self)
    refine ⟨c, cs, hc, ?_, ?_⟩
    · by_contra hb
      simp only [isBlank, Bool.not_eq_false, Bool.or_eq_true, decide_eq_true_eq] at hb
      rcases hb with ((rfl | rfl) | rfl) | rfl <;> revert hd <;> decide
    · rintro rfl
      revert hd
      decide
  | otherNumber => exact ⟨_, _, rfl, by decide, by decide⟩
  | str s => exact ⟨_, _, rfl, by decide, by decide⟩
  | arr xs => cases xs <;> exact ⟨_, _, by rw [render], by decide, by decide⟩
  | obj ms =>
    rcases ms with _ | ⟨⟨k, v⟩, ms⟩ <;> exact ⟨_, _, by rw [render], by decide, by decide⟩

/-- A number is dispatched to the number parser: its first character opens nothing else. -/
theorem parseValue_number {c : Char} {cs : List Char} (hc : c.isDigit = true ∨ c = '-')
    (fuel : ℕ) : parseValue (fuel + 1) (c :: cs) = parseNumber (c :: cs) := by
  have hblank : isBlank c = false := by
    by_contra hb
    simp only [isBlank, Bool.not_eq_false, Bool.or_eq_true, decide_eq_true_eq] at hb
    rcases hb with ((rfl | rfl) | rfl) | rfl <;> revert hc <;> decide
  rw [parseValue, skipBlanks_cons hblank]
  split <;> first
    | rfl
    | next heq =>
      rw [(List.cons.inj heq).1] at hc
      exact absurd hc (by decide)

/-- The three parsers read back what the renderers write, on this fuel. -/
structure ReadsBack (fuel : ℕ) : Prop where
  value : ∀ j rest, (render j).length < fuel → Stops rest →
    parseValue fuel (render j ++ rest) = some (j, rest)
  items : ∀ x xs rest, (render x ++ renderItems xs).length < fuel →
    parseItems fuel (render x ++ renderItems xs ++ rest) = some (x :: xs, rest)
  members : ∀ k v ms rest, (renderString k ++ ':' :: (render v ++ renderMembers ms)).length < fuel →
    parseMembers fuel (renderString k ++ ':' :: (render v ++ renderMembers ms) ++ rest) =
      some ((k, v) :: ms, rest)

section readsBack

variable {fuel : ℕ}

theorem ReadsBack.array (h : ReadsBack fuel) (x : Json) (xs : List Json) (rest : List Char)
    (hl : (render (arr (x :: xs))).length < fuel + 1) :
    parseValue (fuel + 1) (render (arr (x :: xs)) ++ rest) = some (arr (x :: xs), rest) := by
  rw [render] at hl ⊢
  obtain ⟨c, cs, hc, hblank, hclose⟩ := render_head x
  -- the items are read on the fuel that is left
  have hitems := h.items x xs rest (by simpa using hl)
  rw [hc, List.cons_append, List.cons_append] at hitems
  rw [List.cons_append, parseValue, skipBlanks_cons (by decide), hc, List.cons_append,
    List.cons_append]
  simp only [skipBlanks_cons hblank]
  split
  · next heq => exact absurd (List.cons.inj heq).1 hclose
  · rw [hitems]
    rfl

theorem ReadsBack.object (h : ReadsBack fuel) (k : String) (v : Json) (ms : List (String × Json))
    (rest : List Char) (hl : (render (obj ((k, v) :: ms))).length < fuel + 1) :
    parseValue (fuel + 1) (render (obj ((k, v) :: ms)) ++ rest) = some (obj ((k, v) :: ms), rest) := by
  rw [render] at hl ⊢
  have hmembers := h.members k v ms rest (by simpa using hl)
  rw [renderString, List.cons_append, List.cons_append] at hmembers
  rw [List.cons_append, parseValue, skipBlanks_cons (by decide), renderString, List.cons_append,
    List.cons_append]
  simp only [skipBlanks_cons (c := '\x22') (by decide)]
  split
  · next heq => exact absurd (List.cons.inj heq).1 (by decide)
  · rw [hmembers]
    rfl

theorem ReadsBack.value_succ (h : ReadsBack fuel) (j : Json) (rest : List Char)
    (hl : (render j).length < fuel + 1) (hs : Stops rest) :
    parseValue (fuel + 1) (render j ++ rest) = some (j, rest) := by
  cases j with
  | null => rfl
  | bool b => cases b <;> rfl
  | nat n =>
    obtain ⟨c, cs, hc⟩ := List.exists_cons_of_ne_nil (Nat.toDigits_ne_nil (n := n) (b := 10))
    have hd : c.isDigit = true := toDigits_isDigit (hc ▸ List.mem_cons_self)
    rw [render, hc, List.cons_append, parseValue_number (.inl hd), ← List.cons_append, ← hc,
      parseNumber_toDigits n hs]
  | otherNumber =>
    rw [render, List.cons_append, parseValue_number (.inr rfl)]
    exact parseUnsigned_toDigits true 0 hs
  | str s =>
    rw [render, renderString, List.cons_append, List.append_assoc, List.singleton_append,
      parseValue, skipBlanks_cons (by decide)]
    simp [parseString_render]
  | arr xs =>
    rcases xs with _ | ⟨x, xs⟩
    · rfl
    · exact h.array x xs rest hl
  | obj ms =>
    rcases ms with _ | ⟨⟨k, v⟩, ms⟩
    · rfl
    · exact h.object k v ms rest hl

theorem ReadsBack.items_succ (h : ReadsBack fuel) (x : Json) (xs : List Json) (rest : List Char)
    (hl : (render x ++ renderItems xs).length < fuel + 1) :
    parseItems (fuel + 1) (render x ++ renderItems xs ++ rest) = some (x :: xs, rest) := by
  have hvalue := h.value x (renderItems xs ++ rest) (by
    obtain ⟨c, cs, hc, -⟩ := renderItems_cons_head xs
    simp only [List.length_append, hc, List.length_cons] at hl
    omega) (stops_renderItems xs rest)
  rw [List.append_assoc, parseItems, hvalue, Option.bind_some]
  rcases xs with _ | ⟨y, ys⟩
  · rfl
  · have hitems := h.items y ys rest (by
      rw [renderItems] at hl
      simp only [List.length_append, List.length_cons] at hl ⊢
      omega)
    simp only [renderItems, List.cons_append, skipBlanks_cons (c := ',') (by decide), hitems,
      Option.map_some]

theorem ReadsBack.members_succ (h : ReadsBack fuel) (k : String) (v : Json)
    (ms : List (String × Json)) (rest : List Char)
    (hl : (renderString k ++ ':' :: (render v ++ renderMembers ms)).length < fuel + 1) :
    parseMembers (fuel + 1) (renderString k ++ ':' :: (render v ++ renderMembers ms) ++ rest) =
      some ((k, v) :: ms, rest) := by
  have hvalue := h.value v (renderMembers ms ++ rest) (by
    obtain ⟨c, cs, hc, -⟩ := renderMembers_cons_head ms
    simp only [List.length_append, hc, List.length_cons] at hl
    omega) (stops_renderMembers ms rest)
  -- the key is a string, and the value follows the colon
  have htext : renderString k ++ ':' :: (render v ++ renderMembers ms) ++ rest =
      '\x22' :: (k.toList.flatMap escapeChar ++
        '\x22' :: ':' :: (render v ++ (renderMembers ms ++ rest))) := by
    simp [renderString]
  rw [htext, parseMembers, skipBlanks_cons (by decide)]
  simp only [parseString_render, Option.bind_some, skipBlanks_cons (c := ':') (by decide), hvalue]
  rcases ms with _ | ⟨⟨k', v'⟩, ms⟩
  · rfl
  · have hmembers := h.members k' v' ms rest (by
      rw [renderMembers] at hl
      simp only [List.length_append, List.length_cons] at hl ⊢
      omega)
    simp only [renderMembers, List.cons_append, skipBlanks_cons (c := ',') (by decide), hmembers,
      Option.map_some]

end readsBack

/-- The parsers read back, on any fuel. -/
theorem readsBack (fuel : ℕ) : ReadsBack fuel := by
  induction fuel with
  | zero => exact ⟨fun _ _ h => by omega, fun _ _ _ h => by omega, fun _ _ _ _ h => by omega⟩
  | succ fuel ih => exact ⟨ih.value_succ, ih.items_succ, ih.members_succ⟩

/-- **Every value is read back from its text.** -/
theorem parse_render (j : Json) : parse (render j) = some j := by
  have h := (readsBack ((render j).length + 1)).value j [] (by omega) stops_nil
  rw [List.append_nil] at h
  rw [parse, h, Option.bind_some]
  exact if_pos rfl

/-! ## The length of a sequence of numbers -/

theorem length_renderItems_nats (ns : List ℕ) :
    2 * ns.length + 1 ≤ (renderItems (ns.map nat)).length := by
  induction ns with
  | nil => exact Nat.le_refl _
  | cons n ns ih =>
    have hn : 0 < (Nat.toDigits 10 n).length := Nat.length_toDigits_pos
    rw [List.map_cons, renderItems, render, List.length_cons, List.length_cons, List.length_append]
    omega

/-- Each number of an array takes a digit and a separator, at least. -/
theorem length_render_nats (ns : List ℕ) :
    2 * ns.length + 1 ≤ (render (arr (ns.map nat))).length := by
  cases ns with
  | nil => exact Nat.le_succ 1
  | cons n ns =>
    have hn : 0 < (Nat.toDigits 10 n).length := Nat.length_toDigits_pos
    have hi := length_renderItems_nats ns
    rw [List.map_cons, render, render, List.length_cons, List.length_cons, List.length_append]
    omega

end Json

end Rust
