import ArithSyntax.Proofs.LiteralFault

/-!
# Literals and integers

Every literal is the decimal text of the integer that it stands for (`Literal.text_value`), so an
integer has one literal. Whether a literal is in range is decided by its value; the test of its
length, which comes first, refuses none that is in range.

That test has another use. A conversion of text to an integer may refuse a text that has too many
digits (`Literal.convert`), but what passes the test is no longer than a bound of the range, and the
bounds can be written. So reading with such a conversion is reading without one
(`Reading.literal_eq_literalConverting`), and it never fails.
-/

namespace ArithSyntax

open Reading

/-! ### The numeral of a value -/

namespace Literal

variable {l t : Text} {c : Char}

/-- A digit is the one for its place after the zero. -/
theorem digitChar_of_isDigit (hc : c.isDigit) :
    c.toNat - '0'.toNat < 10 ∧ (c.toNat - '0'.toNat).digitChar = c := by
  obtain ⟨hzero, hnine⟩ := Char.isDigit_iff_toNat.1 hc
  change 48 ≤ c.toNat at hzero
  change c.toNat ≤ 57 at hnine
  have hlt : c.toNat - '0'.toNat < 10 := by
    change c.toNat - 48 < 10
    omega
  refine ⟨hlt, Char.toNat_inj.1 ?_⟩
  rw [Nat.toNat_digitChar_of_lt_ten hlt]
  change 48 + (c.toNat - 48) = c.toNat
  omega

/-- A natural numeral is written with the digits of its value. -/
theorem digits_value (h : l.NaturalNumeral) : Decimal.digits (Decimal.value l) = l := by
  induction l using List.reverseRecOn with
  | nil => exact h.elim
  | append_singleton t c ih =>
    have hc : c.isDigit := by
      have hdigit := isDigit_of_mem_naturalNumeral h c List.mem_concat_self
      rwa [isDigit, Symbol.isDigit_ofChar] at hdigit
    obtain ⟨hlt, hchar⟩ := digitChar_of_isDigit hc
    have hlast : Nat.toDigits 10 (c.toNat - '0'.toNat) = [c] := by
      rw [Nat.toDigits_of_lt_base hlt, hchar]
    have hvalue : Decimal.value (t ++ [c]) = 10 * Decimal.value t + (c.toNat - '0'.toNat) := by
      rw [Decimal.value, Nat.ofDigitChars_append, Nat.ofDigitChars_cons]
      rfl
    rw [hvalue, Decimal.digits]
    cases t with
    | nil =>
      have hzero : Decimal.value [] = 0 := rfl
      rw [hzero, Nat.mul_zero, Nat.zero_add]
      exact hlast
    | cons d t =>
      have hfront : Text.NaturalNumeral (d :: t) :=
        ⟨h.1, fun x hx => h.2 x (List.mem_append_left _ hx)⟩
      have hpos : 0 < Decimal.value (d :: t) :=
        Nat.lt_of_lt_of_le (Nat.pow_pos (by decide)) (power_le_value hfront)
      rw [← Nat.toDigits_append_toDigits (by decide) hpos hlt, hlast]
      exact congrArg (· ++ [c]) (ih hfront)

/-- A literal is the decimal text of its value. -/
theorem text_value (hl : l.IsLiteral) : Decimal.text (value l) = l := by
  rcases hl with _ | h | h
  · rfl
  · rw [(digits_of_naturalNumeral h).2, Decimal.text_natCast, digits_value h]
  · rename_i t
    have hpos : 0 < Decimal.value t := by
      cases t with
      | nil => exact h.elim
      | cons d t => exact Nat.lt_of_lt_of_le (Nat.pow_pos (by decide)) (power_le_value h)
    obtain ⟨m, hm⟩ := Nat.exists_eq_succ_of_ne_zero (Nat.ne_of_gt hpos)
    have hvalue : value ('-' :: t) = Int.negSucc m := by
      rw [value, if_pos rfl, hm]
      rfl
    rw [hvalue, Decimal.text, ← Nat.succ_eq_add_one, ← hm, digits_value h]

/-! ### Conversion -/

/-- The integer that a literal stands for, unless it has too many digits to be converted. -/
def convert (l : Text) : Option Int :=
  if (digits l).length ≤ Decimal.maxDigits then some (value l) else none

end Literal

/-- The bounds of the range can be written. -/
theorem Rules.width_le_maxDigits (rules : Rules) : rules.width ≤ Decimal.maxDigits := by
  rw [rules.width_eq, Decimal.length_digits_le_iff (by decide)]
  exact rules.bounds_lt_ceiling

/-- What is no longer than a bound is converted. -/
theorem Rules.convert_of_length_le (rules : Rules) {l : Text}
    (h : (Literal.digits l).length ≤ rules.width) : Literal.convert l = some (Literal.value l) :=
  if_pos (Nat.le_trans h rules.width_le_maxDigits)

namespace Reading

/-- Reads an integer literal with a conversion that may fail. A literal that is longer than the
bounds is out of range and is not converted, and one that cannot be converted is ill formed. -/
def literalConverting (r : Reading) (rules : Rules) : Outcome :=
  match Literal.scan r.cursor.ahead with
  | .malformed offset passed =>
    .error {
      fault := .illFormedInteger
      column := r.cursor.position + offset
      reading := r.forward passed }
  | .complete n =>
    let l := r.cursor.ahead.take n
    let rejected (f : Fault) : Outcome :=
      .error { fault := f, column := r.cursor.position, reading := r.forward n }
    if rules.width < (Literal.digits l).length then rejected .outOfRange
    else
      match Literal.convert l with
      | none => rejected .illFormedInteger
      | some i =>
        if rules.least ≤ i ∧ i ≤ rules.greatest then .ok (r.take .operand n)
        else rejected .outOfRange

/-- The conversion never fails. -/
theorem literal_eq_literalConverting (rules : Rules) (r : Reading) :
    r.literal rules = r.literalConverting rules := by
  unfold literal literalConverting
  cases hscan : Literal.scan r.cursor.ahead with
  | malformed offset passed => rfl
  | complete n =>
    dsimp only
    by_cases hlong : rules.width < (Literal.digits (r.cursor.ahead.take n)).length
    · have hrefused : ¬ rules.admits (r.cursor.ahead.take n) := by
        rw [Rules.admits, decide_eq_false (Nat.not_le.2 hlong), Bool.false_and]
        exact Bool.false_ne_true
      rw [if_neg hrefused, if_pos hlong]
    · have hshort := Nat.not_lt.1 hlong
      rw [if_neg hlong, rules.convert_of_length_le hshort]
      simp only [Rules.admits, decide_eq_true hshort, Bool.true_and, Bool.and_eq_true,
        decide_eq_true_eq]

end Reading

namespace Analysis

variable {rules : Rules} {stack : Stack} {t : Text} {i : Int} {k : Token}

/-! ### The texts of integers -/

/-- The literals among the tokens are literals. -/
theorem isLiteral_of_mem_tokens (hk : k ∈ (ofText rules t .operator stack).tokens)
    (hkind : k.kind = .operand) : k.value.IsLiteral := by
  obtain ⟨before, after, htokens⟩ := List.append_of_mem hk
  obtain ⟨q, hfits, -⟩ := exists_fits_of_tokens htokens
  exact hfits.isLiteral_of_operand hkind

/-- An integer in range is an expression. -/
theorem ofText_text_of_inRange (hi : rules.InRange i) :
    (ofText rules (Decimal.text i)).verdict = { status := .wellFormed } ∧
      (ofText rules (Decimal.text i)).tokens =
        [{ value := Decimal.text i, kind := .operand, position := 0 }] := by
  have hfits : Lexeme.Fits rules {} ⟨Decimal.text i, .operand⟩ := by
    refine .operand rfl (Literal.isLiteral_text i) ?_
    rwa [Literal.value_text]
  have hcompose : Lexeme.Compose rules (Layout.dense [⟨Decimal.text i, .operand⟩]).lexemes :=
    ⟨⟨hfits, trivial⟩, Bool.false_ne_true, rfl⟩
  have hlayout := isWellFormed_layout hcompose (Layout.spaced_dense _) Text.blank_nil
  rw [Layout.text_dense, List.map_singleton, List.flatten_singleton, List.append_nil] at hlayout
  exact ⟨isWellFormed_iff_verdict_eq.1 hlayout.1, hlayout.2⟩

/-- An integer out of range is reported at its beginning. -/
theorem ofText_text_of_not_inRange (hi : ¬ rules.InRange i) :
    (ofText rules (Decimal.text i)).verdict = { status := .faulty .outOfRange, column := 0 } ∧
      (ofText rules (Decimal.text i)).tokens = [] := by
  have hopens : Text.Opens [] := nofun
  have hempty : AwaitsTerm rules [] ∧ (ofText rules []).tokens = [] :=
    awaitsTerm_of_opens hopens (Nat.zero_le _)
  have hrejected : Literal.Rejected rules (Decimal.text i ++ []) .outOfRange 0 := by
    refine .outOfRange (Literal.isLiteral_text i) Text.firstNot_nil ?_
    rwa [Literal.value_text]
  rw [List.append_nil] at hrejected
  obtain ⟨htokens, hverdict⟩ := ofText_of_rejected (b := .operator) hempty.1 hrejected
  rw [if_pos hopens] at hverdict
  exact ⟨hverdict, htokens.trans hempty.2⟩

/-- The decimal text of an integer opens no groups, so every stack that has room for one numeral has
room for it. -/
theorem ofText_text_on (hstack : stack.holds (1 + Stack.callsOfNumeral)) :
    ofText rules (Decimal.text i) .operator stack = ofText rules (Decimal.text i) := by
  have hcount : (Decimal.text i).count '(' = 0 := by
    refine List.count_eq_zero.2 fun hmem => ?_
    rcases Literal.isDigit_or_eq_minus_of_mem (Literal.isLiteral_text i) _ hmem with h | h
    · exact Bool.false_ne_true h
    · exact absurd h (by decide)
  refine ofText_eq_of_not_isExhausted (not_isExhausted_of_holds ?_)
  rw [hcount, Nat.min_zero]
  exact hstack

/-- Literals are the numerals of integers, and those in range are admitted. A literal is refused
exactly if its value is out of range: one that is in range is no longer than the bounds, and one
that is no longer has few enough digits to be converted, so that reading with a conversion that may
fail is the same. Where there is room for a numeral at all, the decimal text of an integer in range
is an expression of one literal, and that of any other integer is out of range at its beginning.
Every literal among the tokens of a text is the decimal text of one integer in the range. -/
theorem literals_in_range (rules : Rules) :
    (∀ (t : Text) (n : Nat), Literal.scan t = .complete n →
      (¬ rules.admits (t.take n) ↔ Literal.value (t.take n) < rules.least ∨
          rules.greatest < Literal.value (t.take n)) ∧
        (rules.InRange (Literal.value (t.take n)) →
          (Literal.digits (t.take n)).length ≤ rules.width) ∧
        ((Literal.digits (t.take n)).length ≤ rules.width →
          (Literal.digits (t.take n)).length ≤ 4300 ∧
            Literal.convert (t.take n) = some (Literal.value (t.take n)))) ∧
      (∀ r : Reading, r.literal rules = r.literalConverting rules) ∧
      (∀ stack : Stack, stack.holds (1 + Stack.callsOfNumeral) → ∀ i : Int, rules.InRange i →
        (ofText rules (Decimal.text i) .operator stack).verdict = { status := .wellFormed } ∧
          (ofText rules (Decimal.text i) .operator stack).tokens =
            [{ value := Decimal.text i, kind := .operand, position := 0 }]) ∧
      (∀ stack : Stack, stack.holds (1 + Stack.callsOfNumeral) → ∀ i : Int, ¬ rules.InRange i →
        (ofText rules (Decimal.text i) .operator stack).verdict =
            { status := .faulty .outOfRange, column := 0 } ∧
          (ofText rules (Decimal.text i) .operator stack).tokens = []) ∧
      ∀ (stack : Stack) (t : Text) (k : Token), k ∈ (ofText rules t .operator stack).tokens →
        k.kind = .operand → ∃ i, rules.InRange i ∧ ∀ j, k.value = Decimal.text j ↔ j = i := by
  refine ⟨?_, literal_eq_literalConverting rules, ?_, ?_, ?_⟩
  · intro t n hscan
    obtain ⟨l, rest, rfl, hl, -, rfl⟩ := Literal.exists_of_scan_eq_complete hscan
    rw [List.take_left]
    refine ⟨?_, Rules.length_digits_le_width hl, fun h => ⟨?_, rules.convert_of_length_le h⟩⟩
    · rw [Rules.admits_iff_inRange hl, Rules.InRange, not_and_or, Int.not_le, Int.not_le]
    · exact Nat.le_trans h rules.width_le_maxDigits
  · intro stack hstack i hi
    rw [ofText_text_on hstack]
    exact ofText_text_of_inRange hi
  · intro stack hstack i hi
    rw [ofText_text_on hstack]
    exact ofText_text_of_not_inRange hi
  · intro stack t k hk hkind
    -- a literal is the decimal text of its value, and of no other integer
    have hl := isLiteral_of_mem_tokens hk hkind
    refine ⟨Literal.value k.value, inRange_tokens rules stack t k hk hkind, fun j => ⟨?_, ?_⟩⟩
    · intro hj
      rw [hj, Literal.value_text]
    · rintro rfl
      exact (Literal.text_value hl).symm

/-- The literals on both sides of a bound of the standard range, and one in an unfinished group. -/
theorem literals_in_standard_range :
    ¬ Rules.standard.admits ("2147483648)".toList.take 10) ∧
      (ofText .standard (Decimal.text (-2147483648)) .operator .standard).verdict =
        { status := .wellFormed } ∧
      (ofText .standard (Decimal.text (-2147483649)) .operator .standard).verdict =
        { status := .faulty .outOfRange, column := 0 } ∧
      ∃ i, Rules.standard.InRange i ∧ ∀ j, "20".toList = Decimal.text j ↔ j = i := by
  obtain ⟨hscan, -, hin, hout, htokens⟩ := literals_in_range .standard
  have hvalue : Rules.standard.greatest < Literal.value ("2147483648)".toList.take 10) := by
    decide +kernel
  have hoperand : (⟨⟨"20".toList, .operand⟩, 1⟩ : Token) ∈
      (ofText .standard "(20 + ".toList).tokens := by decide +kernel
  refine ⟨?_, (hin .standard rfl _ (by decide)).1, (hout .standard rfl _ (by decide)).1,
    htokens .unlimited _ _ hoperand rfl⟩
  exact (hscan "2147483648)".toList 10 (by decide)).1.2 (Or.inr hvalue)

end Analysis

end ArithSyntax
