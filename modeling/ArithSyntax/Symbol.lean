import ArithSyntax.Text.Basic
/-!
# Symbols

The classes into which the characters of an expression fall. `Symbol.ofChar` gives every character
its class; each class but `nonzeroDigit` and `foreign` has one character or none, and
`Symbol.glyph` shows a class as a character.
-/

namespace ArithSyntax

/-- A class of characters. -/
inductive Symbol where
  /-- The character `+`. -/
  | plus
  /-- The character `-`, both the operator and the sign of a literal. -/
  | minus
  /-- The character `^`. -/
  | caret
  /-- The character `*`. -/
  | star
  /-- The character `/`. -/
  | slash
  /-- The character `(`. -/
  | opening
  /-- The character `)`. -/
  | closing
  /-- The space. -/
  | space
  /-- The tab. -/
  | tab
  /-- The digit `0`. -/
  | zero
  /-- The digits from `1` to `9`. -/
  | nonzeroDigit
  /-- The null character; also what stands past the last character of a text. -/
  | endOfText
  /-- Every other character. -/
  | foreign
deriving DecidableEq, Repr

namespace Symbol

/-- The class of a character. -/
def ofChar : Char → Symbol
  | '+' => plus
  | '-' => minus
  | '^' => caret
  | '*' => star
  | '/' => slash
  | '(' => opening
  | ')' => closing
  | ' ' => space
  | '\t' => tab
  | '0' => zero
  | '\x00' => endOfText
  | c => if c.isDigit then nonzeroDigit else foreign

/-- The class of a text that consists of a single character; any other text is foreign. -/
def ofText : Text → Symbol
  | [c] => ofChar c
  | _ => foreign

/-- The character that shows a class: operators, the space and zero show themselves, and the rest
is shown as `X`. -/
def glyph : Symbol → Char
  | plus => '+'
  | minus => '-'
  | caret => '^'
  | star => '*'
  | slash => '/'
  | space => ' '
  | zero => '0'
  | _ => 'X'

/-- The binary operators. -/
def operators : List Symbol := [plus, minus, caret, star, slash]

/-- The blanks, which may stand between any two lexemes. -/
def blanks : List Symbol := [space, tab]

/-- Whether the class is a binary operator. -/
def isOperator : Symbol → Bool
  | plus | minus | caret | star | slash => true
  | _ => false

/-- Whether the class is a blank. -/
def isBlank : Symbol → Bool
  | space | tab => true
  | _ => false

/-- Whether the class consists of decimal digits. -/
def isDigit : Symbol → Bool
  | zero | nonzeroDigit => true
  | _ => false

/-- Whether the characters of the class occur in no expression. -/
def isForeign : Symbol → Bool
  | endOfText | foreign => true
  | _ => false

/-- The characters of which expressions are written. -/
def alphabet : Text :=
  ['0', '1', '2', '3', '4', '5', '6', '7', '8', '9', '+', '-', '^', '*', '/', '(', ')', ' ', '\t']

/-- Whether a literal can begin with a character of the class. -/
def startsLiteral : Symbol → Bool
  | zero | minus | nonzeroDigit => true
  | _ => false

/-! ### The characters of a class -/

variable {c : Char}

/-- The classes of digits are those of the ten decimal digits. -/
theorem isDigit_ofChar : (ofChar c).isDigit = c.isDigit := by
  unfold ofChar
  cases hd : c.isDigit <;> split <;> simp_all [isDigit]

/-- The blanks are the space and the tab. -/
theorem isBlank_ofChar_iff : (ofChar c).isBlank ↔ c = ' ' ∨ c = '\t' := by
  unfold ofChar
  cases hd : c.isDigit <;> split <;> simp_all [isBlank]

/-- The operators are five characters. -/
theorem isOperator_ofChar_iff :
    (ofChar c).isOperator ↔ c = '+' ∨ c = '-' ∨ c = '^' ∨ c = '*' ∨ c = '/' := by
  unfold ofChar
  cases hd : c.isDigit <;> split <;> simp_all [isOperator]

/-- One character alone opens a group. -/
theorem ofChar_eq_opening_iff : ofChar c = opening ↔ c = '(' := by
  unfold ofChar
  cases hd : c.isDigit <;> split <;> simp_all

/-- One character alone closes a group. -/
theorem ofChar_eq_closing_iff : ofChar c = closing ↔ c = ')' := by
  unfold ofChar
  cases hd : c.isDigit <;> split <;> simp_all

/-- One character alone is a minus. -/
theorem ofChar_eq_minus_iff : ofChar c = minus ↔ c = '-' := by
  unfold ofChar
  cases hd : c.isDigit <;> split <;> simp_all

/-- One character alone is a zero. -/
theorem ofChar_eq_zero_iff : ofChar c = zero ↔ c = '0' := by
  unfold ofChar
  cases hd : c.isDigit <;> split <;> simp_all

/-- The other decimal digits have one class. -/
theorem ofChar_eq_nonzeroDigit_iff : ofChar c = nonzeroDigit ↔ c.isDigit ∧ c ≠ '0' := by
  unfold ofChar
  cases hd : c.isDigit <;> split <;> simp_all

/-- A digit is a character of expressions. -/
theorem mem_alphabet_of_isDigit (h : c.isDigit) : c ∈ alphabet := by
  have hall : ∀ n ∈ List.range 10, Char.ofNat (48 + n) ∈ alphabet := by decide
  obtain ⟨hzero, hnine⟩ := Char.isDigit_iff_toNat.1 h
  have hzero' : '0'.toNat = 48 := rfl
  have hnine' : '9'.toNat = 57 := rfl
  have hmem := hall (c.toNat - 48) (List.mem_range.2 (by omega))
  have hcode : 48 + (c.toNat - 48) = c.toNat := by omega
  rw [hcode, Char.ofNat_toNat] at hmem
  exact hmem

/-- The characters of foreign classes, the null character among them, are those outside the
alphabet. -/
theorem isForeign_ofChar_iff : (ofChar c).isForeign ↔ c ∉ alphabet := by
  constructor
  · intro h hc
    have hall : ∀ d ∈ alphabet, (ofChar d).isForeign = false := by
      simp [alphabet, ofChar, isForeign]
    rw [hall c hc] at h
    contradiction
  · intro h
    have hdigit : ¬ c.isDigit := fun hd => h (mem_alphabet_of_isDigit hd)
    unfold ofChar
    split
    all_goals first | exact absurd (by decide) h | simp [hdigit, isForeign]

end Symbol

end ArithSyntax
