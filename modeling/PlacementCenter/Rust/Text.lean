import Mathlib.Algebra.Group.Nat.Defs
import Mathlib.Tactic.Common

/-!
# Texts

The decimal digits of a number, alone and before a separator, and the operations of `str`.

## Main definitions

* `trim`, `parseU64`, `splitOnce`: `str::trim`, `str::parse::<u64>` and `str::split_once`
* `removeChar`: `str::replace` of a character by the empty text
* `debugText`: the `Debug` of a `str`

## Main results

* `toDigits_inj`: a number is read back from its digits
* `toDigits_append_inj`: and from a text that goes on with a separator
* `trim_of_parseU64`: a text that is a number has nothing to trim
-/

namespace Rust

theorem toDigits_inj {a b : ℕ} : Nat.toDigits 10 a = Nat.toDigits 10 b ↔ a = b := by
  refine ⟨fun h => ?_, fun h => h ▸ rfl⟩
  rw [← Nat.ofDigitChars_ten_toDigits (n := a), h, Nat.ofDigitChars_ten_toDigits]

/-- The digits before a separator are those of the number. -/
theorem takeWhile_toDigits_append {c : Char} (hc : c.isDigit = false) (n : ℕ) (s : List Char) :
    (Nat.toDigits 10 n ++ c :: s).takeWhile Char.isDigit = Nat.toDigits 10 n := by
  have hd : ∀ d ∈ Nat.toDigits 10 n, d.isDigit = true := fun d =>
    Nat.isDigit_of_mem_toDigits (by decide) (by decide)
  rw [List.takeWhile_append_of_pos hd, List.takeWhile_cons_of_neg (by simp [hc]), List.append_nil]

/-- **A number is read back from a text** that goes on with a separator. -/
theorem toDigits_append_inj {a b : ℕ} {c : Char} {s t : List Char} (hc : c.isDigit = false) :
    Nat.toDigits 10 a ++ c :: s = Nat.toDigits 10 b ++ c :: t ↔ a = b ∧ s = t := by
  constructor
  · intro h
    have hdigits := congrArg (List.takeWhile Char.isDigit) h
    rw [takeWhile_toDigits_append hc, takeWhile_toDigits_append hc] at hdigits
    rw [hdigits, List.append_cancel_left_eq, List.cons_inj_right] at h
    exact ⟨toDigits_inj.mp hdigits, h⟩
  · rintro ⟨rfl, rfl⟩
    rfl

/-! ### Operations of `str` -/

/-- What the `Debug` of a `str` writes for a character. Characters that are not printable, other than
these, are written as they are. -/
def escapeDebug (c : Char) : List Char :=
  if c = '\x22' then ['\x5c', '\x22']
  else if c = '\x5c' then ['\x5c', '\x5c']
  else if c = '\n' then ['\x5c', 'n']
  else if c = '\r' then ['\x5c', 'r']
  else if c = '\t' then ['\x5c', 't']
  else if c = '\x00' then ['\x5c', '0']
  else [c]

/-- The `Debug` of a `str`. -/
def debugText (s : String) : String :=
  String.ofList ('\x22' :: (s.toList.flatMap escapeDebug ++ ['\x22']))

/-- `char::is_whitespace`. -/
def isWhitespace (c : Char) : Bool :=
  (9 ≤ c.toNat && c.toNat ≤ 13) || (0x2000 ≤ c.toNat && c.toNat ≤ 0x200A) ||
    [0x20, 0x85, 0xA0, 0x1680, 0x2028, 0x2029, 0x202F, 0x205F, 0x3000].contains c.toNat

/-- `str::trim`. -/
def trim (s : String) : String :=
  String.ofList ((s.toList.dropWhile isWhitespace).reverse.dropWhile isWhitespace).reverse

/-- The digits of a number, after its sign. -/
def digitsOf (s : String) : List Char :=
  if s.toList.head? = some '+' then s.toList.tail else s.toList

/-- `str::parse::<u64>`. -/
def parseU64 (s : String) : Option UInt64 :=
  let n := Nat.ofDigitChars 10 (digitsOf s) 0
  if digitsOf s ≠ [] ∧ (digitsOf s).all Char.isDigit ∧ n < 2 ^ 64 then some (UInt64.ofNat n)
  else none

/-- `str::split_once`, at a character. -/
def splitOnce (s : String) (c : Char) : Option (String × String) :=
  if c ∈ s.toList then
    some (String.ofList (s.toList.takeWhile (· ≠ c)),
      String.ofList (s.toList.dropWhile (· ≠ c)).tail)
  else none

/-- `str::replace` of a character by the empty text. -/
def removeChar (s : String) (c : Char) : String := String.ofList (s.toList.filter (· ≠ c))

theorem mem_digitsOf {s : String} {c : Char} (h : c ∈ s.toList) : c = '+' ∨ c ∈ digitsOf s := by
  rw [digitsOf]
  split_ifs with hsign
  · obtain ⟨cs, hcs⟩ := List.head?_eq_some_iff.mp hsign
    rw [hcs] at h ⊢
    exact List.mem_cons.mp h
  · exact .inr h

theorem isWhitespace_of_isDigit {c : Char} (h : c.isDigit = true) : isWhitespace c = false := by
  have hbounds : 48 ≤ c.toNat ∧ c.toNat ≤ 57 := Char.isDigit_iff_toNat.mp h
  simp [isWhitespace]
  omega

/-- **A text that is a number** has nothing to trim. -/
theorem trim_of_parseU64 {s : String} {n : UInt64} (h : parseU64 s = some n) : trim s = s := by
  have hdigits : (digitsOf s).all Char.isDigit = true := by
    unfold parseU64 at h
    dsimp only at h
    split_ifs at h with hcond
    exact hcond.2.1
  have hplain : ∀ c ∈ s.toList, isWhitespace c = false := by
    intro c hc
    rcases mem_digitsOf hc with rfl | hd
    · decide
    · exact isWhitespace_of_isDigit (List.all_eq_true.mp hdigits c hd)
  have hdrop : ∀ cs : List Char, (∀ c ∈ cs, isWhitespace c = false) →
      cs.dropWhile isWhitespace = cs := by
    intro cs hcs
    cases cs with
    | nil => rfl
    | cons c cs => exact List.dropWhile_cons_of_neg (by simp [hcs c List.mem_cons_self])
  have hback := hdrop s.toList.reverse fun c hc => hplain c (List.mem_reverse.mp hc)
  rw [trim, hdrop s.toList hplain, hback, List.reverse_reverse, String.ofList_toList]

end Rust
