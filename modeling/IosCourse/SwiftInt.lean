import Mathlib.Algebra.Order.Ring.Int
import Mathlib.Data.List.Basic

/-!
# Integers of Swift

`Int(_:)` reads a decimal number from a string: an optional sign and at least one
ASCII digit, nothing else, and a value that fits 64 bits. Any other string gives
nil. The operators `+`, `-`, `*` and `/` trap where the exact result does not exist
or does not fit.
-/

namespace SwiftInt

/-- The values of a signed integer with this number of bits. -/
def Fits (bits : ℕ) (n : ℤ) : Prop := -2 ^ (bits - 1) ≤ n ∧ n < 2 ^ (bits - 1)

instance (bits : ℕ) (n : ℤ) : Decidable (Fits bits n) := inferInstanceAs (Decidable (_ ∧ _))

def digit (c : Char) : Option ℕ :=
  if '0' ≤ c ∧ c ≤ '9' then some (c.toNat - '0'.toNat) else none

/-- One more digit at the right end. -/
def push (n : ℕ) (c : Char) : Option ℕ := (digit c).map fun d => 10 * n + d

def magnitude (digits : List Char) : Option ℕ :=
  if digits.isEmpty then none else digits.foldlM push 0

def signed : List Char → Option ℤ
  | '-' :: digits => (magnitude digits).map fun n => -(n : ℤ)
  | '+' :: digits => (magnitude digits).map fun n => (n : ℤ)
  | digits => (magnitude digits).map fun n => (n : ℤ)

/-- `Int(_:)` on a string. -/
def ofString (text : String) : Option ℤ := (signed text.toList).filter fun n => Fits 64 n

theorem fits_of_ofString {text : String} {n : ℤ} (h : ofString text = some n) : Fits 64 n := by
  simpa using (Option.filter_eq_some_iff.mp h).2

example : ofString "-1990" = some (-1990) := by decide

example : ofString "9223372036854775808" = none := by decide

/-- A value that does not fit traps. -/
def checked (bits : ℕ) (n : ℤ) : Option ℤ := if Fits bits n then some n else none

/-- The operators on integers of `bits` bits; `none` is a trap. -/
def add (bits : ℕ) (a b : ℤ) : Option ℤ := checked bits (a + b)

def sub (bits : ℕ) (a b : ℤ) : Option ℤ := checked bits (a - b)

def mul (bits : ℕ) (a b : ℤ) : Option ℤ := checked bits (a * b)

/-- The quotient is truncated towards zero. -/
def div (bits : ℕ) (a b : ℤ) : Option ℤ := if b = 0 then none else checked bits (a.tdiv b)

theorem checked_isSome {bits : ℕ} {n : ℤ} : (checked bits n).isSome ↔ Fits bits n := by
  simp [checked]

/-- The only quotient too large for its operands' type is that of the least value and -1. -/
theorem fits_tdiv_iff {bits : ℕ} {a b : ℤ} (fits : Fits bits a) (nonzero : b ≠ 0) :
    Fits bits (a.tdiv b) ↔ ¬ (a = -2 ^ (bits - 1) ∧ b = -1) := by
  obtain ⟨low, high⟩ := fits
  have size : (a.tdiv b).natAbs = a.natAbs / b.natAbs := Int.natAbs_tdiv a b
  have positive : (0 : ℤ) < 2 ^ (bits - 1) := pow_pos (by decide) _
  unfold Fits
  generalize (2 : ℤ) ^ (bits - 1) = bound at *
  by_cases unit : b.natAbs = 1
  · obtain rfl | rfl : b = 1 ∨ b = -1 := by omega
    · rw [Int.tdiv_one]
      omega
    · rw [Int.tdiv_neg, Int.tdiv_one]
      omega
  · have halved : a.natAbs / b.natAbs ≤ a.natAbs / 2 :=
      Nat.div_le_div_left (by omega) (by decide)
    omega

/-- At least one digit, and nothing else. -/
def IsDigits (digits : List Char) : Prop := digits ≠ [] ∧ ∀ c ∈ digits, c.isDigit = true

/-- The texts that are read as a number: an optional sign and digits. -/
inductive Numeral : List Char → ℤ → Prop where
  | unsigned {digits : List Char} (h : IsDigits digits) :
      Numeral digits (Nat.ofDigitChars 10 digits 0)
  | plus {digits : List Char} (h : IsDigits digits) :
      Numeral ('+' :: digits) (Nat.ofDigitChars 10 digits 0)
  | minus {digits : List Char} (h : IsDigits digits) :
      Numeral ('-' :: digits) (-(Nat.ofDigitChars 10 digits 0 : ℕ))

theorem digit_eq (c : Char) :
    digit c = if c.isDigit then some (c.toNat - '0'.toNat) else none := by
  have same : ('0' ≤ c ∧ c ≤ '9') ↔ c.isDigit = true := by
    simp [Char.isDigit, Char.le_def]
  by_cases h : c.isDigit = true
  · rw [digit, if_pos (same.mpr h), if_pos h]
  · rw [digit, if_neg (fun range => h (same.mp range)), if_neg h]

theorem foldlM_push (digits : List Char) (acc n : ℕ) :
    digits.foldlM push acc = some n ↔
      (∀ c ∈ digits, c.isDigit = true) ∧ Nat.ofDigitChars 10 digits acc = n := by
  induction digits generalizing acc with
  | nil => simp
  | cons c rest ih =>
    rw [List.foldlM_cons, push, digit_eq, Nat.ofDigitChars_cons, List.forall_mem_cons]
    by_cases h : c.isDigit = true
    · simp only [h, if_true, Option.map_some, Option.bind_eq_bind, Option.bind_some, true_and]
      exact ih _
    · simp [h]

theorem magnitude_eq_some {digits : List Char} {n : ℕ} :
    magnitude digits = some n ↔ IsDigits digits ∧ Nat.ofDigitChars 10 digits 0 = n := by
  cases digits with
  | nil => simp [magnitude, IsDigits]
  | cons c rest => simpa [magnitude, IsDigits] using foldlM_push (c :: rest) 0 n

theorem signed_minus (digits : List Char) :
    signed ('-' :: digits) = (magnitude digits).map fun n : ℕ => -(n : ℤ) := by
  rw [signed]
  cases magnitude digits <;> rfl

theorem signed_plus (digits : List Char) :
    signed ('+' :: digits) = (magnitude digits).map fun n : ℕ => (n : ℤ) := by
  rw [signed]
  cases magnitude digits <;> rfl

theorem signed_unsigned {text : List Char} (minus : ∀ digits, text ≠ '-' :: digits)
    (plus : ∀ digits, text ≠ '+' :: digits) :
    signed text = (magnitude text).map fun n : ℕ => (n : ℤ) := by
  rw [signed]
  · cases magnitude text <;> rfl
  · exact minus
  · exact plus

theorem numeral_of_magnitude {digits text : List Char} {sign : ℕ → ℤ} {n : ℤ}
    (numeral : IsDigits digits → Numeral text (sign (Nat.ofDigitChars 10 digits 0)))
    (read : (magnitude digits).map sign = some n) : Numeral text n := by
  obtain ⟨m, found, rfl⟩ := Option.map_eq_some_iff.mp read
  obtain ⟨h, rfl⟩ := magnitude_eq_some.mp found
  exact numeral h

theorem signed_eq_some {text : List Char} {n : ℤ} : signed text = some n ↔ Numeral text n := by
  constructor
  · intro read
    by_cases minus : ∃ digits, text = '-' :: digits
    · obtain ⟨digits, rfl⟩ := minus
      exact numeral_of_magnitude .minus ((signed_minus digits).symm.trans read)
    · by_cases plus : ∃ digits, text = '+' :: digits
      · obtain ⟨digits, rfl⟩ := plus
        exact numeral_of_magnitude .plus ((signed_plus digits).symm.trans read)
      · rw [signed_unsigned (fun d same => minus ⟨d, same⟩) fun d same => plus ⟨d, same⟩] at read
        exact numeral_of_magnitude .unsigned read
  · intro numeral
    cases numeral with
    | unsigned h =>
      -- a digit is no sign
      have unsigned : ∀ c rest, c.isDigit = false → text ≠ c :: rest := by
        rintro c rest sign rfl
        cases sign.symm.trans (h.2 c List.mem_cons_self)
      rw [signed_unsigned (fun _ => unsigned _ _ rfl) fun _ => unsigned _ _ rfl,
        magnitude_eq_some.mpr ⟨h, rfl⟩]
      rfl
    | plus h => rw [signed_plus, magnitude_eq_some.mpr ⟨h, rfl⟩]; rfl
    | minus h => rw [signed_minus, magnitude_eq_some.mpr ⟨h, rfl⟩]; rfl

/-- Exactly the numerals of 64-bit integers are read. -/
theorem ofString_eq_some {text : String} {n : ℤ} :
    ofString text = some n ↔ Numeral text.toList n ∧ Fits 64 n := by
  rw [ofString, Option.filter_eq_some_iff, signed_eq_some]
  simp

theorem numeral_toString (n : ℤ) : Numeral (toString n).toList n := by
  have digits : ∀ m : ℕ, IsDigits (Nat.toDigits 10 m) := fun m =>
    ⟨Nat.toDigits_ne_nil, fun c mem => Nat.isDigit_of_mem_toDigits (by decide) (by decide) mem⟩
  have value : ∀ m : ℕ, Nat.ofDigitChars 10 (Nat.toDigits 10 m) 0 = m :=
    fun m => Nat.ofDigitChars_ten_toDigits
  rw [Int.toString_eq_repr, Int.repr_eq_if]
  by_cases sign : 0 ≤ n
  · rw [if_pos sign, Nat.toList_repr]
    have read := Numeral.unsigned (digits n.toNat)
    rwa [value, Int.toNat_of_nonneg sign] at read
  · rw [if_neg sign, String.toList_append, Nat.toList_repr]
    have read := Numeral.minus (digits (-n).toNat)
    rwa [value, Int.toNat_of_nonneg (by omega), neg_neg] at read

/-- What `String(_:)` writes, `Int(_:)` reads. -/
theorem ofString_toString (n : ℤ) : ofString (toString n) = checked 64 n := by
  by_cases fits : Fits 64 n
  · rw [checked, if_pos fits, ofString_eq_some]
    exact ⟨numeral_toString n, fits⟩
  · rw [checked, if_neg fits, Option.eq_none_iff_forall_ne_some]
    intro m read
    have written := signed_eq_some.mpr (numeral_toString n)
    have same := signed_eq_some.mpr (ofString_eq_some.mp read).1
    obtain rfl : m = n := Option.some.inj (same.symm.trans written)
    exact fits (ofString_eq_some.mp read).2

end SwiftInt
