import ArithSyntax.Proofs.Text

/-!
# Scanning literals

`Literal.scan` finds the longest literal at the beginning of a text: it succeeds on a literal that
is followed by no further digit (`scan_append`), and whenever it succeeds the text begins so
(`exists_of_scan_eq_complete`).

`Rules.admits` looks at the length of a literal before its value. The length never decides against
a literal in range, so the two tests together are the test of the value (`admits_iff_inRange`).
-/

namespace ArithSyntax

/-- An operator is no blank. -/
theorem Symbol.isBlank_eq_false_of_isOperator {s : Symbol} (h : s.isOperator) :
    s.isBlank = false := by
  cases s <;> simp_all [isOperator, isBlank]

/-- A digit is no blank. -/
theorem Symbol.isBlank_eq_false_of_isDigit {s : Symbol} (h : s.isDigit) : s.isBlank = false := by
  cases s <;> simp_all [isDigit, isBlank]

/-- Nothing that begins a literal is a blank. -/
theorem Symbol.isBlank_eq_false_of_startsLiteral {s : Symbol} (h : s.startsLiteral) :
    s.isBlank = false := by
  cases s <;> simp_all [startsLiteral, isBlank]

namespace Literal

variable {l t rest : Text} {n sign offset passed : Nat}

/-- An operator is no digit. -/
theorem isDigit_of_isOperator {c : Char} (h : (Symbol.ofChar c).isOperator) :
    isDigit c = false := by
  rw [isDigit]
  cases hs : Symbol.ofChar c <;> simp_all [Symbol.isOperator, Symbol.isDigit]

/-! ### The longest literal -/

/-- A natural numeral is scanned whole when no digit follows. -/
theorem scanNatural_append (sign : Nat) (hl : l.NaturalNumeral) (hrest : rest.NoDigitFirst) :
    scanNatural sign (l ++ rest) = .complete (sign + l.length) := by
  cases l with
  | nil => exact hl.elim
  | cons c l =>
    obtain ⟨hc, hdigits⟩ := hl
    have hrun : ((l ++ rest).takeWhile isDigit).length = l.length := by
      rw [List.takeWhile_append_of_pos hdigits, hrest.takeWhile_eq_nil, List.append_nil]
    simp only [List.cons_append, scanNatural, hc, if_true, hrun, List.length_cons]
    congr 1
    omega

/-- A literal is scanned whole when no digit follows. -/
theorem scan_append (hl : l.IsLiteral) (hrest : rest.NoDigitFirst) :
    scan (l ++ rest) = .complete l.length := by
  cases hl with
  | zero =>
    have hnext : rest.head?.any isDigit = false := by
      cases rest with
      | nil => rfl
      | cons c rest => simpa [Text.firstNot_cons] using hrest
    simp [scan, Symbol.ofChar, hnext]
  | positive h =>
    cases l with
    | nil => exact h.elim
    | cons c l =>
      have hscan := scanNatural_append 0 h hrest
      obtain ⟨hc, -⟩ := h
      simpa [scan, hc] using hscan
  | negative h =>
    have hscan := scanNatural_append 1 h hrest
    simpa [scan, Symbol.ofChar, Nat.add_comm] using hscan

/-- What has been scanned as a natural numeral is the longest one with which the text begins. -/
theorem exists_of_scanNatural_eq_complete (h : scanNatural sign t = .complete n) :
    ∃ l rest, t = l ++ rest ∧ l.NaturalNumeral ∧ rest.NoDigitFirst ∧ n = sign + l.length := by
  unfold scanNatural at h
  split at h
  · contradiction
  · rename_i c t
    split at h
    · rename_i hc
      cases h
      refine ⟨c :: t.takeWhile isDigit, t.dropWhile isDigit, ?_, ⟨hc, ?_⟩,
        Text.firstNot_dropWhile _ t, ?_⟩
      · rw [List.cons_append, List.takeWhile_append_dropWhile]
      · intro d hd
        exact List.mem_takeWhile_imp hd
      · rw [List.length_cons]
        omega
    · contradiction

/-- A successful scan has found a literal that no digit follows. -/
theorem exists_of_scan_eq_complete (h : scan t = .complete n) :
    ∃ l rest, t = l ++ rest ∧ l.IsLiteral ∧ rest.NoDigitFirst ∧ n = l.length := by
  unfold scan at h
  split at h
  · contradiction
  · rename_i c t
    split at h
    · rename_i hc
      split at h
      · contradiction
      · rename_i hnext
        cases h
        rw [Symbol.ofChar_eq_zero_iff.1 hc]
        refine ⟨['0'], t, rfl, .zero, ?_, rfl⟩
        intro d hd
        rw [Option.mem_def] at hd
        simpa [hd] using hnext
    · split at h
      · rename_i hc
        obtain ⟨l, rest, rfl, hl, hrest, rfl⟩ := exists_of_scanNatural_eq_complete h
        rw [Symbol.ofChar_eq_minus_iff.1 hc]
        exact ⟨'-' :: l, rest, rfl, .negative hl, hrest, Nat.add_comm _ _⟩
      · obtain ⟨l, rest, ht, hl, hrest, rfl⟩ := exists_of_scanNatural_eq_complete h
        exact ⟨l, rest, ht, .positive hl, hrest, Nat.zero_add _⟩

/-- A scan that fails blames the first character, or the one after a sign. -/
theorem offset_of_scan_eq_malformed (h : scan t = .malformed offset passed) :
    offset = 0 ∨ offset = 1 ∧ t.head? = some '-' := by
  have hnatural {sign : Nat} {u : Text} (hu : scanNatural sign u = .malformed offset passed) :
      offset = sign := by
    unfold scanNatural at hu
    split at hu
    · cases hu
      rfl
    · split at hu
      · contradiction
      · cases hu
        rfl
  unfold scan at h
  split at h
  · cases h
    exact Or.inl rfl
  · split at h
    · split at h
      · cases h
        exact Or.inl rfl
      · contradiction
    · split at h
      · rename_i hc
        rw [Symbol.ofChar_eq_minus_iff.1 hc]
        exact Or.inr ⟨hnatural h, rfl⟩
      · exact Or.inl (hnatural h)

/-! ### What a scan depends on -/

variable {v z z' : Text}

/-- A sign that has been passed stays passed. -/
theorem le_passed_scanNatural (sign : Nat) (t : Text) : sign ≤ (scanNatural sign t).passed := by
  unfold scanNatural
  split
  · exact Nat.le_refl _
  · split
    · rw [Scan.passed, Nat.add_assoc]
      exact Nat.le_add_right _ _
    · exact Nat.le_refl _

/-- A scan for a natural numeral depends on one character more than it reads. -/
theorem scanNatural_append_congr (h : (scanNatural sign (v ++ z)).passed < sign + v.length) :
    scanNatural sign (v ++ z') = scanNatural sign (v ++ z) := by
  cases v with
  | nil => exact absurd (le_passed_scanNatural sign z) (Nat.not_le_of_lt h)
  | cons c v =>
    simp only [List.cons_append, scanNatural] at h ⊢
    split
    · rename_i hc
      rw [if_pos hc, Scan.passed, List.length_cons] at h
      have hrun : (v ++ z').takeWhile isDigit = (v ++ z).takeWhile isDigit :=
        Text.takeWhile_append_congr (by omega)
      rw [hrun]
    · rfl

/-- A scan depends on one character more than it reads. -/
theorem scan_append_congr (h : (scan (v ++ z)).passed < v.length) :
    scan (v ++ z') = scan (v ++ z) := by
  cases v with
  | nil => exact absurd h (Nat.not_lt_zero _)
  | cons c v =>
    simp only [List.cons_append, scan] at h ⊢
    by_cases hzero : Symbol.ofChar c = .zero
    · -- the character after a zero is looked at, but not read
      simp only [hzero, if_true] at h ⊢
      cases v with
      | nil => split at h <;> simp [Scan.passed] at h
      | cons d v => rfl
    · simp only [hzero, if_false] at h ⊢
      by_cases hminus : Symbol.ofChar c = .minus
      · simp only [hminus, if_true] at h ⊢
        apply scanNatural_append_congr
        rw [List.length_cons] at h
        omega
      · simp only [hminus, if_false] at h ⊢
        apply scanNatural_append_congr (v := c :: v)
        rw [Nat.zero_add]
        exact h

/-- What is foreign to expressions has no part in a scan. -/
theorem scanNatural_append_of_foreignFirst (sign : Nat) (t : Text) (hz : z.ForeignFirst) :
    scanNatural sign (t ++ z) = scanNatural sign t := by
  cases t with
  | nil =>
    cases z with
    | nil => rfl
    | cons c z =>
      have hc := Text.firstNot_cons.1 hz
      cases hs : Symbol.ofChar c <;> simp_all [scanNatural, Symbol.isForeign]
  | cons c t =>
    rw [List.cons_append, scanNatural, scanNatural, hz.noDigitFirst.takeWhile_append]

/-- A foreign character behind a text ends the scan as the end of the text does. -/
theorem scan_append_of_foreignFirst (t : Text) (hz : z.ForeignFirst) :
    scan (t ++ z) = scan t := by
  cases t with
  | nil =>
    cases z with
    | nil => rfl
    | cons c z =>
      have hc := Text.firstNot_cons.1 hz
      cases hs : Symbol.ofChar c <;> simp_all [scan, scanNatural, Symbol.isForeign]
  | cons c t =>
    have hnext : (t ++ z).head?.any isDigit = t.head?.any isDigit := by
      cases t with
      | nil =>
        cases z with
        | nil => rfl
        | cons d z => exact Text.firstNot_cons.1 hz.noDigitFirst
      | cons d t => rfl
    have htail := scanNatural_append_of_foreignFirst 1 t hz
    have hall := scanNatural_append_of_foreignFirst 0 (c :: t) hz
    rw [List.cons_append] at hall
    rw [List.cons_append, scan, scan, hnext, htail, hall]

/-! ### The characters of a literal -/

/-- A literal begins with a digit or a sign. -/
theorem exists_cons_of_isLiteral (h : l.IsLiteral) :
    ∃ c t, l = c :: t ∧ (Symbol.ofChar c).startsLiteral := by
  cases h with
  | zero => exact ⟨_, _, rfl, rfl⟩
  | negative _ => exact ⟨_, _, rfl, rfl⟩
  | positive h =>
    cases l with
    | nil => exact h.elim
    | cons c t =>
      refine ⟨c, t, rfl, ?_⟩
      rw [h.1]
      rfl

/-- A natural numeral consists of digits. -/
theorem isDigit_of_mem_naturalNumeral (h : l.NaturalNumeral) : ∀ c ∈ l, isDigit c := by
  cases l with
  | nil => exact h.elim
  | cons c t =>
    intro d hd
    rcases List.mem_cons.1 hd with rfl | hd
    · rw [isDigit, h.1]
      rfl
    · exact h.2 d hd

/-- A literal consists of digits, but for a sign. -/
theorem isDigit_or_eq_minus_of_mem (h : l.IsLiteral) : ∀ c ∈ l, isDigit c ∨ c = '-' := by
  intro c hc
  cases h with
  | zero =>
    rw [List.mem_singleton.1 hc]
    exact Or.inl rfl
  | positive h => exact Or.inl (isDigit_of_mem_naturalNumeral h c hc)
  | negative h =>
    rcases List.mem_cons.1 hc with rfl | hc
    · exact Or.inr rfl
    · exact Or.inl (isDigit_of_mem_naturalNumeral h c hc)

/-- Zero is the only literal that begins with a zero. -/
theorem eq_zero_of_head? (h : l.IsLiteral) (hzero : l.head? = some '0') : l = ['0'] := by
  cases h with
  | zero => rfl
  | positive hnatural =>
    obtain ⟨t, rfl⟩ := List.head?_eq_some_iff.1 hzero
    cases hnatural.1
  | negative => cases hzero

/-- There is no blank in a literal. -/
theorem isBlank_eq_false_of_isLiteral (h : l.IsLiteral) :
    ∀ c ∈ l, (Symbol.ofChar c).isBlank = false := by
  intro c hc
  rcases isDigit_or_eq_minus_of_mem h c hc with hdigit | rfl
  · exact Symbol.isBlank_eq_false_of_isDigit hdigit
  · rfl

/-- The last character of a literal is a digit. -/
theorem isDigit_of_getLast?_eq_some {c : Char} (h : l.IsLiteral) (hc : l.getLast? = some c) :
    isDigit c := by
  cases h with
  | zero =>
    cases hc
    rfl
  | positive h => exact isDigit_of_mem_naturalNumeral h c (List.mem_of_getLast? hc)
  | @negative t h =>
    cases t with
    | nil => exact h.elim
    | cons d t =>
      rw [List.getLast?_cons_cons] at hc
      exact isDigit_of_mem_naturalNumeral h c (List.mem_of_getLast? hc)

/-- Where a scan succeeds, the text begins like a literal. -/
theorem startsLiteral_of_scan_eq_complete {c : Char} (h : scan (c :: t) = .complete n) :
    (Symbol.ofChar c).startsLiteral := by
  obtain ⟨l, rest, ht, hl, -, -⟩ := exists_of_scan_eq_complete h
  obtain ⟨d, u, rfl, hd⟩ := exists_cons_of_isLiteral hl
  rw [List.cons_append] at ht
  cases ht
  exact hd

/-! ### The length and the value of a literal -/

/-- A natural numeral has no sign. -/
theorem digits_of_naturalNumeral (h : l.NaturalNumeral) :
    digits l = l ∧ value l = Decimal.value l := by
  cases l with
  | nil => exact h.elim
  | cons c t =>
    have hc : c ≠ '-' := by
      rintro rfl
      exact absurd h.1 (by decide)
    exact ⟨if_neg hc, if_neg hc⟩

/-- A numeral that begins with a nonzero digit is at least the power of ten of its other digits. -/
theorem power_le_value {c : Char} (h : Text.NaturalNumeral (c :: t)) :
    Decimal.power t.length ≤ Decimal.value (c :: t) := by
  have hone : 1 ≤ c.toNat - '0'.toNat := by
    have hc := Symbol.ofChar_eq_nonzeroDigit_iff.1 h.1
    have hle : '0'.toNat ≤ c.toNat := (Char.isDigit_iff_toNat.1 hc.1).1
    have hne : c.toNat ≠ '0'.toNat := fun heq => hc.2 (Char.toNat_inj.1 heq)
    omega
  calc Decimal.power t.length = 10 ^ t.length * 1 := (Nat.mul_one _).symm
    _ ≤ 10 ^ t.length * (10 * 0 + (c.toNat - '0'.toNat)) := Nat.mul_le_mul_left _ (by omega)
    _ ≤ Decimal.value (c :: t) := by
      rw [Decimal.value, Nat.ofDigitChars_cons, Nat.ofDigitChars_eq_ofDigitChars_zero]
      exact Nat.le_add_right _ _

/-- A numeral has no more digits than any number that is at least its value. -/
theorem length_le_length_digits {m : Nat} (h : l.NaturalNumeral) (hm : Decimal.value l ≤ m) :
    l.length ≤ (Decimal.digits m).length := by
  cases l with
  | nil => exact h.elim
  | cons c t =>
    have hpos : 0 < (Decimal.digits m).length := List.length_pos_iff.2 (Decimal.digits_ne_nil m)
    have hlt : Decimal.power t.length < Decimal.power (Decimal.digits m).length :=
      calc Decimal.power t.length ≤ Decimal.value (c :: t) := power_le_value h
        _ ≤ m := hm
        _ < Decimal.power (Decimal.digits m).length :=
          (Decimal.length_digits_le_iff hpos).1 (Nat.le_refl _)
    exact (Nat.pow_lt_pow_iff_right (by decide)).1 hlt

/-! ### The numerals of integers -/

/-- A digit behind a natural numeral makes another one. -/
theorem naturalNumeral_append {c : Char} (h : l.NaturalNumeral) (hc : c.isDigit) :
    Text.NaturalNumeral (l ++ [c]) := by
  cases l with
  | nil => exact h.elim
  | cons d t =>
    refine ⟨h.1, ?_⟩
    intro x hx
    rcases List.mem_append.1 hx with hx | hx
    · exact h.2 x hx
    · rw [List.mem_singleton.1 hx, isDigit, Symbol.isDigit_ofChar]
      exact hc

/-- The digits of a positive number do not begin with a zero. -/
theorem naturalNumeral_digits {m : Nat} (h : 0 < m) : (Decimal.digits m).NaturalNumeral := by
  induction m using Nat.strong_induction_on with
  | _ m ih =>
    rcases Nat.lt_or_ge m 10 with hlt | hge
    · have hzero : ∀ k < 10, 0 < k → k.digitChar ≠ '0' := by decide
      rw [Decimal.digits, Nat.toDigits_of_lt_base hlt]
      refine ⟨Symbol.ofChar_eq_nonzeroDigit_iff.2 ⟨?_, hzero m hlt h⟩, fun _ hd => nomatch hd⟩
      rw [Nat.isDigit_digitChar]
      exact decide_eq_true hlt
    · rw [Decimal.digits, Nat.toDigits_of_base_le (by decide) hge]
      refine naturalNumeral_append (ih (m / 10) (by omega) (by omega)) ?_
      rw [Nat.isDigit_digitChar]
      exact decide_eq_true (Nat.mod_lt m (by decide))

/-- The decimal text of an integer is a literal. -/
theorem isLiteral_text (i : Int) : (Decimal.text i).IsLiteral := by
  cases i with
  | ofNat m =>
    rcases Nat.eq_zero_or_pos m with rfl | hpos
    · exact .zero
    · exact .positive (naturalNumeral_digits hpos)
  | negSucc m => exact .negative (naturalNumeral_digits m.succ_pos)

/-- The decimal text of an integer stands for it. -/
theorem value_text (i : Int) : value (Decimal.text i) = i := by
  cases i with
  | ofNat m =>
    cases hdigits : Decimal.digits m with
    | nil => exact absurd hdigits (Decimal.digits_ne_nil m)
    | cons c t =>
      have hc : c ≠ '-' := by
        rintro rfl
        have hmem : '-' ∈ Decimal.digits m := hdigits ▸ List.mem_cons_self
        exact absurd (Decimal.isDigit_of_mem_digits hmem) (by decide)
      rw [Decimal.text, hdigits, value, if_neg hc, ← hdigits, Decimal.value_digits]
      rfl
  | negSucc m =>
    rw [Decimal.text, value, if_pos rfl, Decimal.value_digits]
    rfl

end Literal

/-- Where a scan succeeds, a character comes next with which a literal begins. -/
theorem Cursor.startsLiteral_of_scan {c : Cursor} {n : Nat}
    (h : Literal.scan c.ahead = .complete n) : c.nextSatisfies Symbol.startsLiteral := by
  rw [nextSatisfies_iff]
  cases ht : c.ahead with
  | nil =>
    rw [ht] at h
    contradiction
  | cons x u =>
    rw [ht] at h
    exact ⟨x, u, rfl, Literal.startsLiteral_of_scan_eq_complete h⟩

/-- The length of a literal in range is within the width of the rules. -/
theorem Rules.length_digits_le_width {rules : Rules} {l : Text} (hl : l.IsLiteral)
    (hrange : rules.InRange (Literal.value l)) : (Literal.digits l).length ≤ rules.width := by
  have hbound : (Literal.value l).natAbs ≤ max rules.least.natAbs rules.greatest.natAbs := by
    obtain ⟨hleast, hgreatest⟩ := hrange
    omega
  rw [rules.width_eq]
  cases hl with
  | zero =>
    exact List.length_pos_iff.2 (Decimal.digits_ne_nil _)
  | positive h =>
    obtain ⟨hdigits, hvalue⟩ := Literal.digits_of_naturalNumeral h
    rw [hvalue, Int.natAbs_natCast] at hbound
    rw [hdigits]
    exact Literal.length_le_length_digits h hbound
  | negative h =>
    simp only [Literal.value, Literal.digits, if_true, Int.natAbs_neg, Int.natAbs_natCast]
      at hbound ⊢
    exact Literal.length_le_length_digits h hbound

/-- The test of the length changes nothing in the test of the value. -/
theorem Rules.admits_iff_inRange {rules : Rules} {l : Text} (hl : l.IsLiteral) :
    rules.admits l ↔ rules.InRange (Literal.value l) := by
  simp only [Rules.admits, Bool.and_eq_true, decide_eq_true_eq]
  constructor
  · intro h
    exact h.2
  · intro h
    exact ⟨length_digits_le_width hl h, h⟩

end ArithSyntax
