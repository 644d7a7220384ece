import ArithSyntax.Proofs.Embedding
import ArithSyntax.Proofs.Exhaustion

/-!
# Texts put together

What is known of a text alone decides what is found when it is put behind an expression and an
operator (`ofText_operator`), behind an opening parenthesis (`ofText_opening`), or in parentheses
(`isWellFormed_group`). Behind an operator every fault in the text is one of its right-hand term,
while what is left over after the text is left over in both cases. Behind a parenthesis the end of
the text, or what is left over after it, stands where the group should be closed.

In a group there is room for two calls less than around it. So what is found in parentheses is
decided by what is found of the text alone with so much less room (`isWellFormed_group_on`), and not
with the same: a text may be the last one for which there is room.
-/

namespace ArithSyntax

open Reading

/-- The verdict on an expression, an operator and a text, if the verdict on the text alone is `v`
and there are `k` characters before it. -/
def Verdict.afterOperator (v : Verdict) (k : Nat) : Verdict :=
  match v.status with
  | .wellFormed => { status := .wellFormed }
  | .faulty .extraneous => { status := .faulty .extraneous, column := v.column + k }
  | .faulty _ => { status := .faulty .missingTerm, column := v.column + k }

/-- The verdict on an opening parenthesis and a text of `n` characters, if the verdict on the text
alone is `v` and it is no closing parenthesis that is left over after it. -/
def Verdict.afterOpening (v : Verdict) (n : Nat) : Verdict :=
  match v.status with
  | .wellFormed => { status := .faulty .missingClosing, column := n + 1 }
  | .faulty .extraneous => { status := .faulty .missingClosing, column := v.column + 1 }
  | .faulty .unexpectedEnd => { status := .faulty .missingTerm, column := v.column + 1 }
  | .faulty f => { status := .faulty f, column := v.column + 1 }

/-- Behind an operator a fault is one of its term, unless it is what is left over. -/
theorem Verdict.afterOperator_faulty (f : Fault) (c : Int) (k : Nat) :
    afterOperator { status := .faulty f, column := c } k =
      { status := .faulty (f.within true), column := k + c } := by
  rw [Int.add_comm]
  cases f <;> rfl

/-- Behind an opening parenthesis a fault stays what it is, unless the text has ended too early. -/
theorem Verdict.afterOpening_faulty {f : Fault} (hf : f ≠ .extraneous) (c : Int) (n : Nat) :
    afterOpening { status := .faulty f, column := c } n =
      { status := .faulty (f.within false), column := 1 + c } := by
  rw [Int.add_comm]
  cases f with
  | extraneous => exact absurd rfl hf
  | _ => rfl

/-- Where tokens have been recorded the text does not begin. -/
theorem Reading.recorded_ne_nil_of_tokens {r : Reading} {ks : List Token} {k : Token}
    (h : r.tokens = ks ++ [k]) : r.recorded ≠ [] := by
  intro hnil
  rw [tokens, hnil] at h
  simp at h

/-- The text inside `n` parentheses and as many that close them. -/
def Text.nest (n : Nat) (t : Text) : Text := List.replicate n '(' ++ (t ++ List.replicate n ')')

theorem Text.nest_zero (t : Text) : t.nest 0 = t := List.append_nil t

/-- One group more is one around the others. -/
theorem Text.nest_succ (n : Nat) (t : Text) : t.nest (n + 1) = '(' :: (t.nest n ++ [')']) := by
  have hclosing : List.replicate (n + 1) ')' = List.replicate n ')' ++ [')'] :=
    List.replicate_succ'
  rw [nest, hclosing, nest, List.replicate_succ]
  simp only [List.cons_append, List.append_assoc]

namespace Analysis

variable {rules : Rules} {stack : Stack} {a t : Text} {c : Char} {r : Reading}

/-! ### Behind an operator -/

/-- Behind an expression an operator is read. -/
theorem exists_goes_operator (ha : (ofText rules a .operator stack).isWellFormed)
    (hc : (Symbol.ofChar c).isOperator) (t : Text) :
    ∃ base, Goes rules stack (.start (a ++ c :: t)) base ∧ base.cursor.ahead = t ∧
      base.cursor.position = a.length + 1 ∧
      base.tokens = (ofText rules a .operator stack).tokens ++
        [{ value := [c], kind := .operator, position := a.length }] ∧
      base.situation = { wantsTerm := true, chained := true } := by
  rw [ofText_eq_of_isWellFormed ha]
  obtain ⟨ha, hstack⟩ := isWellFormed_on_iff.1 ha
  obtain ⟨q, hreach, hstop, htokens⟩ := exists_run_of_isWellFormed ha
  have hblank := hstop.blank_ahead
  cases hstop with
  | complete hterm hdepth _ =>
    have hall : (Reading.start (a ++ c :: t)).cursor.ahead = a ++ c :: t := rfl
    have hdigit : Text.NoDigitFirst (c :: t) :=
      Text.firstNot_cons.2 (Literal.isDigit_of_isOperator hc)
    obtain ⟨q', hreach', hwithin, hahead⟩ :=
      exists_within_of_append rfl hall hreach (settled_of_noDigitFirst hdigit)
    have hmeets : q'.Meets rules q.cursor.ahead ⟨[c], .operator⟩ t :=
      ⟨hblank, .operator (hwithin.inside.wantsTerm_eq ▸ hterm) hc, hahead, fun h => nomatch h⟩
    have hgoes : Goes rules stack (start (a ++ c :: t)) q' := by
      refine (Reaches.goes_start_iff hreach').2 ?_
      rwa [hwithin.tokens_eq_of_start, ← htokens]
    have hroom : q'.HasRoom rules stack := by
      refine hasRoom_of_not_wantsTerm ?_
      rw [hwithin.inside.wantsTerm_eq]
      exact hterm
    have hposition : q'.cursor.position + q.cursor.ahead.length = a.length := by
      have htext : q'.cursor.text = a ++ c :: t := hreach'.text_eq
      have hlength := congrArg List.length htext
      rw [Cursor.length_text, hahead] at hlength
      simp only [List.length_append, List.length_cons] at hlength
      omega
    refine ⟨_, hgoes.tail ⟨hmeets.step, hroom⟩, hmeets.ahead_take, ?_, ?_, ?_⟩
    · rw [hmeets.passes.position_eq, List.length_append, ← Nat.add_assoc, hposition]
      rfl
    · refine hmeets.tokens_take.trans ?_
      rw [hposition, htokens, hwithin.tokens_eq_of_start]
    · have haround : q'.situation.around = [] := by
        rw [← List.length_eq_zero_iff]
        exact hwithin.inside.depth_eq.trans (by rw [hdepth]; rfl)
      rw [situation_take, situation_skipBlanks, Situation.next, haround]

/-- What an expression, an operator and a text are put together to. -/
theorem ofText_operator (ha : (ofText rules a .operator stack).isWellFormed)
    (hc : (Symbol.ofChar c).isOperator) (t : Text) :
    (ofText rules (a ++ c :: t) .operator stack).verdict =
        (ofText rules t .operator stack).verdict.afterOperator (a.length + 1) ∧
      (ofText rules (a ++ c :: t) .operator stack).tokens =
        (ofText rules a .operator stack).tokens ++
          { value := [c], kind := .operator, position := a.length } ::
            (ofText rules t .operator stack).tokens.map (Token.shift · (a.length + 1)) := by
  obtain ⟨base, hbase, hahead, hposition, htokens, hsituation⟩ := exists_goes_operator ha hc t
  have hterm : base.situation.wantsTerm := by rw [hsituation]
  have hdepth : base.situation.depth = 0 := by rw [hsituation]; rfl
  -- no group is open around the text, so it has all the room
  have hleft : stack.inside (2 * 0) = stack := stack.inside_zero
  obtain ⟨r, o, hgoes, hhalts, -⟩ := exists_halts .operator rules (stack.inside (2 * 0)) t
  cases o with
  | error e =>
    have hrecorded := recorded_ne_nil_of_tokens htokens
    obtain ⟨htokens', f, hf, hf'⟩ := ofText_of_ahead (n := 0) hbase hdepth hterm hahead hrecorded
      hgoes hhalts fun _ => rfl
    rw [htokens, hposition, hleft, List.append_assoc] at htokens'
    rw [hsituation, hposition] at hf'
    rw [hleft] at hf
    refine ⟨?_, htokens'⟩
    rw [hf, Verdict.afterOperator_faulty]
    exact hf'
  | ok s =>
    obtain ⟨r', hgoes', hwithin, hahead', -⟩ := exists_within_of_ahead hdepth hterm hahead hgoes
    have hrun := hbase.trans hgoes'
    have hhalts' : Halts rules stack r' (.ok r'.skipBlanks) := by
      cases hhalts with
      | stops _ hstop =>
        cases hstop with
        | complete hterm₀ hdepth₀ hend =>
          have hterm' : ¬ r'.situation.wantsTerm := hwithin.inside.wantsTerm_eq ▸ hterm₀
          refine .stops (hasRoom_of_not_wantsTerm hterm') (.complete hterm' ?_ ?_)
          · rw [hwithin.inside.depth_eq, hdepth₀, hdepth]
          · rwa [Cursor.atEnd_iff_ahead, hahead', ← Cursor.atEnd_iff_ahead]
    rw [hleft] at hgoes hhalts
    refine ⟨?_, ?_⟩
    · rw [verdict_of_halts_ok hrun hhalts', verdict_of_halts_ok hgoes hhalts]
      rfl
    · rw [tokens_of_halts hrun hhalts', hwithin.tokens_eq, htokens, hposition,
        tokens_of_halts hgoes hhalts, List.append_assoc]
      rfl

/-! ### Behind an opening parenthesis -/

/-- An opening parenthesis is read if one group more is allowed and there is room for it. -/
theorem exists_goes_opening (rules : Rules) (hstack : stack.holds (1 + Stack.callsOfTerm))
    (t : Text) :
    ∃ base, Goes (rules.deepen 1) stack (.start ('(' :: t)) base ∧ base.cursor.ahead = t ∧
      base.cursor.position = 1 ∧
      base.tokens = [] ++ [{ value := ['('], kind := .opening, position := (0 : Nat) }] ∧
      base.situation = { around := [false] } ∧ base.situation.wantsTerm ∧
      base.situation.depth = 1 := by
  have hmeets : (Reading.start ('(' :: t)).Meets (rules.deepen 1) [] ⟨['('], .opening⟩ t :=
    ⟨Text.blank_nil, .opening rfl (Nat.succ_pos _), rfl, fun h => nomatch h⟩
  have hroom := hmeets.hasRoom_iff.2 hstack
  exact ⟨_, .single ⟨hmeets.step, hroom⟩, hmeets.ahead_take, hmeets.passes.position_eq,
    hmeets.tokens_take, rfl, rfl, rfl⟩

/-- A group is not closed if what comes after an expression in it is neither an operator nor a
closing parenthesis. -/
theorem ofText_unclosed (hstack : stack.holds (1 + Stack.callsOfTerm))
    (hgoes : Goes rules (stack.inside 2) (.start t) r) (hterm : ¬ r.situation.wantsTerm)
    (hdepth : r.situation.depth = 0)
    (hoperator : ¬ r.skipBlanks.cursor.nextSatisfies Symbol.isOperator)
    (hclosing : ¬ r.skipBlanks.cursor.nextIs .closing) :
    (ofText (rules.deepen 1) ('(' :: t) .operator stack).verdict =
        { status := .faulty .missingClosing, column := 1 + (r.skipBlanks.cursor.position : Int) } ∧
      (ofText (rules.deepen 1) ('(' :: t) .operator stack).tokens =
        { value := ['('], kind := .opening, position := 0 } ::
          r.tokens.map (Token.shift · 1) := by
  obtain ⟨base, hbase, hahead, hposition, htokens, hsituation, hbaseTerm, hbaseDepth⟩ :=
    exists_goes_opening rules hstack t
  obtain ⟨r', hgoes', hwithin, hahead', hposition'⟩ :=
    exists_within_of_ahead hbaseDepth hbaseTerm hahead hgoes
  have hnext (p : Symbol → Bool) :
      r'.skipBlanks.cursor.nextSatisfies p = r.skipBlanks.cursor.nextSatisfies p := by
    rw [Cursor.nextSatisfies, Cursor.nextSatisfies, hahead']
  have hterm' : ¬ r'.situation.wantsTerm := hwithin.inside.wantsTerm_eq ▸ hterm
  have hstop : Stops (rules.deepen 1) r' (.error (r'.skipBlanks.reject .missingClosing)) := by
    refine .unclosed hterm' ?_ ?_ ?_
    · rw [hwithin.inside.depth_eq, hdepth, hbaseDepth]
      exact Nat.one_pos
    · rw [hnext]
      exact hoperator
    · rw [Cursor.nextIs, hnext]
      exact hclosing
  have hrun := hbase.trans hgoes'
  have hhalts : Halts (rules.deepen 1) stack r' _ :=
    .stops (hasRoom_of_not_wantsTerm hterm') hstop
  refine ⟨?_, ?_⟩
  · -- the operators that have been read are in the group that lacks its parenthesis
    have hblames : r'.situation.blames .missingClosing = false := by
      rw [Situation.blames, hwithin.inside.around_eq hdepth, hsituation]
      rfl
    rw [verdict_of_halts hrun hhalts]
    simp only [reject, hblames]
    rw [hposition', hposition]
    rfl
  · rw [tokens_of_halts hrun hhalts, hwithin.tokens_eq, htokens, hposition]
    rfl

/-- What an opening parenthesis and a text are put together to, if there is room for the
parenthesis. -/
theorem ofText_opening (rules : Rules) (hstack : stack.holds (1 + Stack.callsOfTerm)) (t : Text)
    (hclosing : ∀ k : Nat,
      (ofText rules t .operator (stack.inside 2)).verdict =
          { status := .faulty .extraneous, column := k } →
        t[k]? ≠ some ')') :
    (ofText (rules.deepen 1) ('(' :: t) .operator stack).verdict =
        (ofText rules t .operator (stack.inside 2)).verdict.afterOpening t.length ∧
      (ofText (rules.deepen 1) ('(' :: t) .operator stack).tokens =
        { value := ['('], kind := .opening, position := 0 } ::
          (ofText rules t .operator (stack.inside 2)).tokens.map (Token.shift · 1) := by
  obtain ⟨r, o, hgoes, hhalts, -⟩ := exists_halts .operator rules (stack.inside 2) t
  have hreach := hgoes.reaches
  have htokens := tokens_of_halts (b := .operator) hgoes hhalts
  cases o with
  | ok s =>
    have hverdict := verdict_of_halts_ok (b := .operator) hgoes hhalts
    rw [hverdict, htokens]
    cases hhalts with
    | stops _ hstop =>
      cases hstop with
      | complete hterm hdepth hend =>
        -- where the text ends well, its group is left open
        have hnone (p : Symbol → Bool) : ¬ r.skipBlanks.cursor.nextSatisfies p := by
          rw [Cursor.not_nextSatisfies_of_atEnd hend]
          exact Bool.false_ne_true
        obtain ⟨hverdict', htokens'⟩ :=
          ofText_unclosed hstack hgoes hterm hdepth (hnone _) (hnone _)
        refine ⟨?_, htokens'⟩
        rw [hverdict', hreach.position_of_atEnd hend, Int.add_comm]
        rfl
  | error e =>
    -- what comes after an expression is in parentheses no longer left over
    by_cases hfault : e.fault = .extraneous
    · have hverdict := verdict_of_halts (b := .operator) hgoes hhalts
      rw [htokens]
      obtain ⟨hterm, hdepth, hoperator, rfl⟩ := hhalts.of_extraneous hfault
      have hnext : ¬ r.skipBlanks.cursor.nextIs .closing := by
        intro hnext
        obtain ⟨c, u, hahead, hc⟩ := Cursor.nextIs_iff.1 hnext
        obtain rfl := Symbol.ofChar_eq_closing_iff.1 hc
        have hat := hreach.getElem?_skipBlanks
        rw [hahead] at hat
        exact hclosing _ hverdict hat
      obtain ⟨hverdict', htokens'⟩ := ofText_unclosed hstack hgoes hterm hdepth hoperator hnext
      refine ⟨?_, htokens'⟩
      rw [hverdict', hverdict, Int.add_comm]
      rfl
    · obtain ⟨base, hbase, hahead, hposition, hbaseTokens, hsituation, hbaseTerm, hbaseDepth⟩ :=
        exists_goes_opening rules hstack t
      obtain ⟨htokens', f, hf, hf'⟩ := ofText_of_ahead hbase hbaseDepth hbaseTerm hahead
        (recorded_ne_nil_of_tokens hbaseTokens) hgoes hhalts fun h => absurd h hfault
      rw [hbaseTokens, hposition] at htokens'
      rw [hsituation, hposition] at hf'
      refine ⟨?_, htokens'⟩
      change (ofText rules t .operator (stack.inside 2)).verdict = _ at hf
      rw [hf, Verdict.afterOpening_faulty]
      · exact hf'
      · rcases fault_of_halts hgoes hhalts hf with rfl | rfl
        · decide
        · exact hfault

/-- An expression in parentheses is an expression if one group more is allowed. -/
theorem isWellFormed_group (h : (ofText rules t).isWellFormed) :
    (ofText (rules.deepen 1) ('(' :: (t ++ [')']))).isWellFormed ∧
      (ofText (rules.deepen 1) ('(' :: (t ++ [')']))).tokens =
        { value := ['('], kind := .opening, position := 0 } ::
          (ofText rules t).tokens.map (Token.shift · 1) ++
            [{ value := [')'], kind := .closing, position := t.length + 1 }] := by
  obtain ⟨r, hreach, hstop, htokens⟩ := exists_run_of_isWellFormed h
  have hblank := hstop.blank_ahead
  obtain ⟨base, hbase, hahead, hposition, hbaseTokens, hsituation, hbaseTerm, hbaseDepth⟩ :=
    exists_goes_opening rules (Stack.holds_unlimited _) (t ++ [')'])
  have hdigit : Text.NoDigitFirst [')'] := Text.firstNot_cons.2 rfl
  obtain ⟨r', hreach', hwithin, hahead'⟩ :=
    exists_within_of_append hbaseTerm hahead hreach (settled_of_noDigitFirst hdigit)
  rw [hbaseDepth] at hreach'
  have hbefore := hbase.reaches.trans hreach'
  cases hstop with
  | complete hterm hdepth _ =>
    have haround : r'.situation.around = [false] := by
      rw [hwithin.inside.around_eq hdepth, hsituation]
    -- the blanks at the end of the text now stand before the closing parenthesis
    have hmeets : r'.Meets (rules.deepen 1) r.cursor.ahead ⟨[')'], .closing⟩ [] :=
      ⟨hblank, .closing (hwithin.inside.wantsTerm_eq ▸ hterm) (Situation.depth_pos haround),
        hahead', fun h => nomatch h⟩
    have hrun : Reaches (rules.deepen 1) _ _ := hbefore.tail hmeets.step
    have hend := Cursor.ahead_skipBlanks_of_append Text.blank_nil Text.firstNot_nil
      hmeets.ahead_take
    have hclosed : (r'.skipBlanks.take .closing 1).situation =
        { wantsTerm := false, chained := false, around := [] } := by
      rw [situation_take, situation_skipBlanks, Situation.next, haround]
      rfl
    have hstop' : Stops (rules.deepen 1) (r'.skipBlanks.take .closing 1)
        (.ok (r'.skipBlanks.take .closing 1).skipBlanks) := by
      refine .complete ?_ ?_ (Cursor.atEnd_iff_ahead.2 hend)
      · rw [hclosed]
        exact Bool.false_ne_true
      · rw [hclosed]
        rfl
    have hplace : r'.cursor.position + r.cursor.ahead.length = t.length + 1 := by
      have htext : r'.cursor.text = '(' :: (t ++ [')']) := Reaches.text_eq hbefore
      have hlength := congrArg List.length htext
      rw [Cursor.length_text, hahead'] at hlength
      simp only [List.length_append, List.length_cons, List.length_nil] at hlength
      omega
    refine ⟨isWellFormed_of_run hrun hstop', ?_⟩
    rw [tokens_ofText hrun hstop']
    refine hmeets.tokens_take.trans ?_
    rw [hplace, hwithin.tokens_eq, hbaseTokens, hposition, htokens]
    rfl

/-- An expression in parentheses takes two calls more. -/
theorem isWellFormed_group_on (h : (ofText rules t .operator (stack.inside 2)).isWellFormed) :
    (ofText (rules.deepen 1) ('(' :: (t ++ [')'])) .operator stack).isWellFormed ∧
      (ofText (rules.deepen 1) ('(' :: (t ++ [')'])) .operator stack).tokens =
        { value := ['('], kind := .opening, position := 0 } ::
          (ofText rules t .operator (stack.inside 2)).tokens.map (Token.shift · 1) ++
            [{ value := [')'], kind := .closing, position := t.length + 1 }] := by
  rw [ofText_eq_of_isWellFormed h]
  obtain ⟨hwell, hcalls⟩ := isWellFormed_on_iff.1 h
  obtain ⟨hgroup, htokens⟩ := isWellFormed_group hwell
  have hroom :
      stack.holds (Token.calls (ofText (rules.deepen 1) ('(' :: (t ++ [')']))).tokens) := by
    rw [htokens]
    exact (Token.holds_calls_group rfl rfl (admits_tokens rules t .operator .unlimited)
      (tokens_ne_nil_of_isWellFormed hwell)).2 hcalls
  have hstack := isWellFormed_on_iff.2 ⟨hgroup, hroom⟩
  rw [ofText_eq_of_isWellFormed hstack]
  exact ⟨hgroup, htokens⟩

/-- An expression inside `n` groups takes two calls more for each of them. -/
theorem isWellFormed_nest (n : Nat)
    (h : (ofText rules t .operator (stack.inside (2 * n))).isWellFormed) :
    (ofText (rules.deepen n) (t.nest n) .operator stack).isWellFormed := by
  induction n generalizing stack with
  | zero =>
    rw [Nat.mul_zero, Stack.inside_zero] at h
    rwa [Text.nest_zero]
  | succ n ih =>
    have hleft : (stack.inside 2).inside (2 * n) = stack.inside (2 * (n + 1)) := by
      rw [Stack.inside_inside, Nat.mul_add, Nat.add_comm]
    rw [Text.nest_succ]
    exact (isWellFormed_group_on (ih (hleft.symm ▸ h))).1

/-! ### The laws of composition -/

/-- The analysis of a text decides that of larger ones: of an expression, an operator and the text;
of a parenthesis and the text, with one group more allowed, unless a closing parenthesis is left
over after the text; and of the text in parentheses, if it is an expression. The texts in
parentheses are those for which there is room for two calls less, and the parenthesis itself takes
the calls of a term. Where the room is unlimited this is no restriction. -/
theorem analysis_of_composed_text (rules : Rules) (stack : Stack) (t : Text) :
    (∀ (a : Text) (c : Char), (ofText rules a .operator stack).isWellFormed →
      (Symbol.ofChar c).isOperator →
        (ofText rules (a ++ c :: t) .operator stack).verdict =
            (ofText rules t .operator stack).verdict.afterOperator (a.length + 1) ∧
          (ofText rules (a ++ c :: t) .operator stack).tokens =
            (ofText rules a .operator stack).tokens ++
              { value := [c], kind := .operator, position := a.length } ::
                (ofText rules t .operator stack).tokens.map (Token.shift · (a.length + 1))) ∧
      (stack.holds (1 + Stack.callsOfTerm) →
        (∀ k : Nat, (ofText rules t .operator (stack.inside 2)).verdict =
          { status := .faulty .extraneous, column := k } → t[k]? ≠ some ')') →
        (ofText (rules.deepen 1) ('(' :: t) .operator stack).verdict =
            (ofText rules t .operator (stack.inside 2)).verdict.afterOpening t.length ∧
          (ofText (rules.deepen 1) ('(' :: t) .operator stack).tokens =
            { value := ['('], kind := .opening, position := 0 } ::
              (ofText rules t .operator (stack.inside 2)).tokens.map (Token.shift · 1)) ∧
      ((ofText rules t .operator (stack.inside 2)).isWellFormed →
        (ofText (rules.deepen 1) ('(' :: (t ++ [')'])) .operator stack).isWellFormed ∧
          (ofText (rules.deepen 1) ('(' :: (t ++ [')'])) .operator stack).tokens =
            { value := ['('], kind := .opening, position := 0 } ::
              (ofText rules t .operator (stack.inside 2)).tokens.map (Token.shift · 1) ++
                [{ value := [')'], kind := .closing, position := t.length + 1 }]) :=
  ⟨fun _ _ ha hc => ofText_operator ha hc t, fun hstack => ofText_opening rules hstack t,
    isWellFormed_group_on⟩

/-- What is left over after a text is left over behind an operator, and lacks a parenthesis behind
an opening one; a sign is part of the expression in parentheses. -/
theorem analysis_behind_minus :
    (ofText .standard "1 -3 x".toList .operator .standard).verdict =
        { status := .faulty .extraneous, column := 5 } ∧
      (ofText (Rules.standard.deepen 1) "(3 x".toList .operator .standard).verdict =
        { status := .faulty .missingClosing, column := 3 } ∧
      (ofText (Rules.standard.deepen 1) "(-3 )".toList .operator .standard).isWellFormed := by
  have hverdict : (ofText .standard "3 x".toList .operator .standard).verdict =
      { status := .faulty .extraneous, column := 2 } := by decide +kernel
  have hverdict' : (ofText .standard "3 x".toList .operator (.limited 988)).verdict =
      { status := .faulty .extraneous, column := 2 } := by decide +kernel
  have hone : (ofText .standard "1 ".toList .operator .standard).isWellFormed := by
    decide +kernel
  have hthree : (ofText .standard "-3 ".toList .operator (.limited 988)).isWellFormed := by
    decide +kernel
  obtain ⟨hoperator, hopening, -⟩ := analysis_of_composed_text .standard .standard "3 x".toList
  obtain ⟨-, -, hgroup⟩ := analysis_of_composed_text .standard .standard "-3 ".toList
  refine ⟨?_, ?_, (hgroup hthree).1⟩
  · refine (hoperator "1 ".toList '-' hone rfl).1.trans ?_
    rw [hverdict]
    rfl
  · have hclosing (k : Nat) (hk : (ofText .standard "3 x".toList .operator (.limited 988)).verdict =
        { status := .faulty .extraneous, column := k }) : "3 x".toList[k]? ≠ some ')' := by
      rw [hverdict'] at hk
      obtain rfl : 2 = k := Int.ofNat.inj (congrArg Verdict.column hk)
      decide
    refine (hopening (by decide) hclosing).1.trans ?_
    exact congrArg (Verdict.afterOpening · _) hverdict'

/-- A number in 491 groups is the last for which there is room on the standard stack. In one group
more, which the rules allow, it is no expression. -/
theorem not_isWellFormed_in_parentheses :
    (ofText (Rules.standard.deepen 491) (Text.nest 491 ['1']) .operator .standard).isWellFormed ∧
      ¬ (ofText ((Rules.standard.deepen 491).deepen 1) ('(' :: (Text.nest 491 ['1'] ++ [')']))
        .operator .standard).isWellFormed := by
  have hone : (ofText .standard ['1'] .operator (.limited 8)).isWellFormed := by decide +kernel
  refine ⟨isWellFormed_nest 491 hone, ?_⟩
  rw [← Text.nest_succ]
  refine not_isWellFormed_of_isExhausted (isExhausted_of_openings (by decide) (by decide) ?_)
  exact Or.inr ⟨⟨'1', _, rfl, rfl⟩, by decide⟩

end Analysis

end ArithSyntax
