import ArithSyntax.Symbol
import ArithSyntax.Rules
/-!
# Integer literals

A literal is `0`, or a nonzero digit and the digits after it, with or without the sign `-` directly
before. `Literal.scan` looks for a literal at the beginning of a text and takes as many digits as
there are; `Rules.admits` decides whether a literal is in range.

A literal that has more digits than the widest bound of the range is refused by its length alone, so
the value of a literal is never computed from more digits than the bounds have.
-/

namespace ArithSyntax

namespace Literal

/-- What was found where a literal was looked for. -/
inductive Scan where
  /-- A literal of the given length. -/
  | complete (length : Nat)
  /-- No literal: what is wrong stands `offset` characters from the beginning, and `passed`
  characters had been read when it was noticed. -/
  | malformed (offset passed : Nat)
deriving DecidableEq, Repr

/-- The number of characters that were read. -/
def Scan.passed : Scan → Nat
  | complete length => length
  | malformed _ passed => passed

/-- Whether a character is a decimal digit. -/
def isDigit (c : Char) : Bool := (Symbol.ofChar c).isDigit

/-- Looks for a nonzero digit and the digits after it behind a sign of length `sign`. -/
def scanNatural (sign : Nat) : Text → Scan
  | [] => .malformed sign sign
  | c :: t =>
    if Symbol.ofChar c = .nonzeroDigit then .complete (sign + 1 + (t.takeWhile isDigit).length)
    else .malformed sign sign

/-- Looks for a literal at the beginning of a text. -/
def scan : Text → Scan
  | [] => .malformed 0 0
  | c :: t =>
    if Symbol.ofChar c = .zero then
      if t.head?.any isDigit then .malformed 0 1 else .complete 1
    else if Symbol.ofChar c = .minus then scanNatural 1 t
    else scanNatural 0 (c :: t)

/-- The digits of a literal, without its sign. -/
def digits : Text → Text
  | [] => []
  | c :: t => if c = '-' then t else c :: t

/-- The integer that a literal stands for. -/
def value : Text → Int
  | [] => 0
  | c :: t => if c = '-' then -(Decimal.value t : Int) else Decimal.value (c :: t)

/-- A natural numeral that has been scanned has a digit at least and is within the text. -/
theorem pos_of_scanNatural_eq_complete {sign n : Nat} {t : Text}
    (h : scanNatural sign t = .complete n) : sign < n ∧ n ≤ sign + t.length := by
  unfold scanNatural at h
  split at h
  · contradiction
  · split at h
    · cases h
      have := (List.takeWhile_sublist isDigit (l := ‹_›)).length_le
      simp only [List.length_cons]
      omega
    · contradiction

/-- A literal that has been scanned has a character at least and is within the text. -/
theorem pos_of_scan_eq_complete {n : Nat} {t : Text} (h : scan t = .complete n) :
    0 < n ∧ n ≤ t.length := by
  unfold scan at h
  split at h
  · contradiction
  · split at h
    · split at h
      · contradiction
      · cases h
        simp
    · split at h
      · have := pos_of_scanNatural_eq_complete h
        simp only [List.length_cons]
        omega
      · have := pos_of_scanNatural_eq_complete h
        omega

example : scan ['-', '4', '0', 'x'] = .complete 3 := by decide

example : scan ['0', '1'] = .malformed 0 1 := by decide

end Literal

/-- Whether a literal is in range. Its length is looked at before its value. -/
def Rules.admits (rules : Rules) (l : Text) : Bool :=
  (Literal.digits l).length ≤ rules.width &&
    (rules.least ≤ Literal.value l && Literal.value l ≤ rules.greatest)

end ArithSyntax
