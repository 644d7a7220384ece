import ArithSyntax.Proofs.Journal
import ArithSyntax.Proofs.Unclosed

/-!
# What is left over

Something is left over after an expression where reading stops with a complete term and no open
group. The text up to there is an expression by itself (`Reading.Reaches.isWellFormed_of_ended`);
what comes next is neither a blank, as these have been passed, nor an operator, as reading would go
on, nor a digit directly after a literal, as it would belong to it (`Leftover`). Conversely, in
front of such a character an expression is read to its end and nothing more.
-/

namespace ArithSyntax

open Reading

namespace Analysis

variable {rules : Rules} {stack : Stack} {r : Reading} {t w : Text} {c : Nat}

/-- The text up to the column `c` is an expression that does not go on with what stands there. -/
structure Leftover (rules : Rules) (stack : Stack) (t : Text) (c : Nat) : Prop where
  /-- The column is not the first. -/
  pos : 0 < c
  /-- The column is in the text. -/
  lt : c < t.length
  /-- The text before it is an expression. -/
  inside : (ofText rules (t.take c) .operator stack).isWellFormed
  /-- What stands there is neither a blank nor an operator. -/
  other : ∀ x ∈ t[c]?, ¬ (Symbol.ofChar x).isBlank ∧ ¬ (Symbol.ofChar x).isOperator
  /-- No digit stands there directly after a digit. -/
  apart : ¬ ((∃ y ∈ t[c - 1]?, Literal.isDigit y) ∧ ∃ x ∈ t[c]?, Literal.isDigit x)

/-- The last character of the text up to a column. -/
theorem getLast?_take (hpos : 0 < c) (hlt : c < t.length) :
    (t.take c).getLast? = t[c - 1]? := by
  rw [List.getLast?_take, if_neg (Nat.ne_of_gt hpos)]
  have hlt' : c - 1 < t.length := by omega
  rw [List.getElem?_eq_getElem hlt']
  rfl

/-- Where a term has ended and no group is open, the text up to there is an expression. -/
theorem isWellFormed_of_ended (hgoes : Goes rules stack (start t) r)
    (hended : ¬ r.situation.wantsTerm) (hdepth : r.situation.depth = 0) (hw : w.Blank) :
    (ofText rules (r.cursor.behind.reverse ++ w) .operator stack).isWellFormed ∧
      (ofText rules (r.cursor.behind.reverse ++ w) .operator stack).tokens = r.tokens := by
  obtain ⟨ls, hspaced, hadmits, htext, -, htokens⟩ := hgoes.reaches.exists_layout_of_start
  have hbehind : r.cursor.behind.reverse = ls.text :=
    List.append_cancel_right (hgoes.reaches.eq_append.symm.trans htext)
  have hcalls : stack.holds (({} : Situation).calls ls.lexemes) := by
    rw [← Layout.toLexeme_tokens ls 0, ← htokens]
    exact hgoes.holds_calls
  rw [situation_eq_run htokens] at hended hdepth
  have hcompose : Lexeme.Compose rules ls.lexemes :=
    ⟨hadmits, hended, List.length_eq_zero_iff.1 hdepth⟩
  rw [hbehind, htokens]
  exact isWellFormed_layout_on hcompose hspaced hw hcalls

/-- Where something is reported to be left over, it is. -/
theorem leftover_of_extraneous
    (h : (ofText rules t .operator stack).verdict =
      { status := .faulty .extraneous, column := c }) :
    Leftover rules stack t c ∧ (ofText rules t .operator stack).tokens =
      (ofText rules (t.take c) .operator stack).tokens := by
  obtain ⟨h, hcalls⟩ := (verdict_on_iff (Or.inl rfl)).1 h
  rw [ofText_of_holds_calls (Or.inl rfl) h hcalls]
  obtain ⟨r, hreach, rfl, hlt, hstop⟩ := exists_stops_of_extraneous h
  rw [tokens_ofText hreach hstop] at hcalls
  obtain ⟨w, hw, hpasses⟩ := r.exists_passes_skipBlanks
  have htake := hreach.take_skipBlanks hpasses
  have hhead := hreach.getElem?_skipBlanks
  rw [tokens_ofText hreach hstop]
  cases hstop with
  | extraneous hended hdepth hend hoperator =>
    obtain ⟨hwell, htokens⟩ :=
      isWellFormed_of_ended (hreach.goes_start_iff.2 hcalls) hended hdepth hw
    rw [← htake] at hwell htokens
    -- the text up to the column is an expression, so it is not empty
    have hpos : 0 < r.skipBlanks.cursor.position := by
      rw [Nat.pos_iff_ne_zero]
      intro hzero
      rw [hzero] at hwell
      exact ne_nil_of_isWellFormed (isWellFormed_on_iff.1 hwell).1 rfl
    refine ⟨⟨hpos, hlt, hwell, ?_, ?_⟩, htokens.symm⟩
    · rw [hhead]
      intro x hx
      obtain ⟨u, hu⟩ := List.head?_eq_some_iff.1 hx
      refine ⟨Bool.eq_false_iff.1 (r.cursor.noBlankFirst_ahead_skipBlanks x hx), ?_⟩
      exact fun hx' => hoperator (Cursor.nextSatisfies_iff.2 ⟨x, u, hu, hx'⟩)
    · rintro ⟨⟨y, hy, hydigit⟩, x, hx, hxdigit⟩
      rw [hhead] at hx
      rw [← getLast?_take hpos hlt, htake] at hy
      exact not_digit_of_ahead hreach hw hpasses.ahead_eq x hx ⟨hxdigit, y, hy, hydigit⟩

/-- What is left over is reported. -/
theorem Leftover.verdict_eq (h : Leftover rules stack t c) :
    (ofText rules t .operator stack).verdict = { status := .faulty .extraneous, column := c } := by
  obtain ⟨hinside, hcalls⟩ := isWellFormed_on_iff.1 h.inside
  have hlt := h.lt
  have ht : t.take c ++ t.drop c = t := List.take_append_drop c t
  have hhead : (t.drop c).head? = some t[c] := by
    rw [List.head?_drop, List.getElem?_eq_getElem hlt]
  obtain ⟨hblank, hoperator⟩ := h.other t[c] (List.getElem?_eq_getElem hlt)
  have hfirst : Text.NoBlankFirst (t.drop c) := by
    intro x hx
    obtain rfl := Option.mem_unique hhead hx
    exact Bool.eq_false_iff.2 hblank
  have hdigit : (∃ y ∈ (t.take c).getLast?, Literal.isDigit y) → Text.NoDigitFirst (t.drop c) := by
    rintro ⟨y, hy, hydigit⟩ x hx
    rw [getLast?_take h.pos hlt] at hy
    rw [List.head?_drop] at hx
    exact Bool.eq_false_iff.2 fun hxdigit => h.apart ⟨⟨y, hy, hydigit⟩, x, hx, hxdigit⟩
  -- the expression is read to its end, in front of the same character as alone
  obtain ⟨r, hreach, hstop, hr⟩ := exists_run_of_isWellFormed hinside
  have hsettled : r.Settled [] (t.drop c) :=
    settled_of_getLast? (w := []) (ne_nil_of_isWellFormed hinside) hreach hdigit
  have hall : (start t).cursor.ahead = t.take c ++ t.drop c := ht.symm
  obtain ⟨r', hreach', hwithin, hahead⟩ := exists_within_of_append rfl hall hreach hsettled
  change Reaches rules (start t) r' at hreach'
  have hgoes : Goes rules stack (start t) r' := by
    refine hreach'.goes_start_iff.2 ?_
    rwa [hwithin.tokens_eq_of_start, ← hr]
  have hskip : r'.skipBlanks.cursor.ahead = t.drop c :=
    Cursor.ahead_skipBlanks_of_append hstop.blank_ahead hfirst hahead
  have hposition := hreach'.position_of_drop (Nat.le_of_lt hlt) hskip
  cases hstop with
  | complete hended hdepth _ =>
    have hended' : ¬ r'.situation.wantsTerm := hwithin.inside.wantsTerm_eq ▸ hended
    have hhalts : Halts rules stack r' (.error (r'.skipBlanks.reject .extraneous
        (some (.unconsumed r'.skipBlanks.cursor.ahead)))) := by
      refine .stops (hasRoom_of_not_wantsTerm hended') (.extraneous hended' ?_ ?_ ?_)
      · rw [hwithin.inside.depth_eq, hdepth]
        rfl
      · rw [Cursor.atEnd_iff_ahead, hskip]
        exact List.ne_nil_of_length_pos (by rw [List.length_drop]; omega)
      · intro hnext
        obtain ⟨x, u, hx, hxoperator⟩ := Cursor.nextSatisfies_iff.1 hnext
        rw [hskip] at hx
        rw [hx] at hhead
        obtain rfl := Option.some.inj hhead
        exact hoperator hxoperator
    rw [verdict_of_halts hgoes hhalts, reject, hposition]
    rfl

/-- Something is reported to be left over at a column exactly if the text up to there is an
expression, and what stands there is neither a blank nor an operator nor a digit directly after a
digit. The tokens are then those of the expression. It is so with any room to read them in. -/
theorem extraneous_iff_leftover (rules : Rules) (stack : Stack) (t : Text) (c : Nat) :
    ((ofText rules t .operator stack).verdict = { status := .faulty .extraneous, column := c } ↔
        Leftover rules stack t c) ∧
      (Leftover rules stack t c → (ofText rules t .operator stack).tokens =
        (ofText rules (t.take c) .operator stack).tokens) := by
  refine ⟨⟨fun h => (leftover_of_extraneous h).1, Leftover.verdict_eq⟩, ?_⟩
  intro h
  exact (leftover_of_extraneous h.verdict_eq).2

/-- A literal directly behind a group is left over with all that follows it. -/
theorem leftover_behind_group :
    Leftover .standard .unlimited "(1)2 + 3".toList 3 ∧
      (ofText .standard "(1)2 + 3".toList).verdict =
        { status := .faulty .extraneous, column := 3 } ∧
      (ofText .standard "(1)2 + 3".toList).tokens.map Token.position = [0, 1, 2] := by
  have hleftover : Leftover .standard .unlimited "(1)2 + 3".toList 3 :=
    { pos := by decide
      lt := by decide
      inside := by decide +kernel
      other := by
        intro x hx
        cases hx
        decide
      apart := by
        rintro ⟨⟨y, hy, hdigit⟩, -⟩
        cases hy
        exact absurd hdigit (by decide) }
  obtain ⟨hiff, htokens⟩ := extraneous_iff_leftover .standard .unlimited "(1)2 + 3".toList 3
  refine ⟨hleftover, hiff.2 hleftover, ?_⟩
  rw [htokens hleftover]
  decide +kernel

end Analysis

end ArithSyntax
