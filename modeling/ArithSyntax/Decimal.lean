import ArithSyntax.Text.Basic
/-!
# Decimal numerals

The decimal text of an integer, the value of a run of digits, and the limit on how long a numeral
may be written: `write` refuses a number of more than `maxDigits` digits, a sign not counted.

`length_digits_le_iff` ties the number of digits to the size of the number, and `value_digits` says
that the digits of a number read back as that number.
-/

namespace ArithSyntax.Decimal

/-- The decimal digits of a natural number, the most significant first and without leading zeros. -/
def digits (n : Nat) : Text := Nat.toDigits 10 n

/-- The number that a run of decimal digits stands for. -/
def value (t : Text) : Nat := Nat.ofDigitChars 10 t 0

/-- The decimal text of an integer, with `-` before the digits of a negative one. -/
def text : Int → Text
  | .ofNat n => digits n
  | .negSucc n => '-' :: digits (n + 1)

/-- The most digits that `write` writes. -/
def maxDigits : Nat := 4300

/-- The `k`-th power of ten; for a positive `k`, the least number with more than `k` digits. -/
def power (k : Nat) : Nat := Nat.pow 10 k

/-- The least natural number with more than `maxDigits` digits. -/
def ceiling : Nat := power maxDigits

/-- The refusal to write a number that has too many digits. -/
structure TooLong where
  /-- The number that was to be written. -/
  number : Int
deriving DecidableEq

/-- The decimal text of an integer of at most `maxDigits` digits. -/
def write (i : Int) : Except TooLong Text :=
  if i.natAbs < ceiling then .ok (text i) else .error ⟨i⟩

/-- No number is written without a digit. -/
theorem digits_ne_nil (n : Nat) : digits n ≠ [] := Nat.toDigits_ne_nil

/-- Numbers are written with digits only. -/
theorem isDigit_of_mem_digits {n : Nat} {c : Char} (h : c ∈ digits n) : c.isDigit :=
  Nat.isDigit_of_mem_toDigits (by decide) (by decide) h

/-- The digits of a number stand for it. -/
@[simp] theorem value_digits (n : Nat) : value (digits n) = n := Nat.ofDigitChars_ten_toDigits

/-- How many digits a number has tells how large it is. -/
theorem length_digits_le_iff {n k : Nat} (h : 0 < k) : (digits n).length ≤ k ↔ n < power k :=
  Nat.length_toDigits_le_iff (by decide) h

/-- A natural number is written without a sign. -/
@[simp] theorem text_natCast (n : Nat) : text n = digits n := rfl

/-- A number below the ceiling can be written. -/
theorem write_of_lt {i : Int} (h : i.natAbs < ceiling) : write i = .ok (text i) := if_pos h

/-- A number that reaches the ceiling, with or without a sign, is too long to be written. -/
theorem write_of_le {i : Int} (h : ceiling ≤ i.natAbs) : write i = .error ⟨i⟩ :=
  if_neg (Nat.not_lt.2 h)

example : text (-205) = ['-', '2', '0', '5'] := by decide

end ArithSyntax.Decimal
