import ArithSyntax.Proofs.Lexeme

/-!
# What is derived is read

A phrase of the grammar is read lexeme by lexeme when nothing after it makes its last literal longer
(`Derives.completes_or_fails`). A phrase that keeps to the rules is read to its end; any other is
read until it breaks them, and there the run stops. No lexeme of the phrase is read otherwise than
the derivation has it, so the derivation decides the tokens.
-/

namespace ArithSyntax

namespace Reading

/-- A phrase `t` that begins at `start` is ahead of the reading, with `rest` after it. -/
structure Faces (r : Reading) (depth start : Nat) (t rest : Text) : Prop where
  /-- Only blanks stand before the phrase. -/
  ahead_eq : ∃ w : Text, w.Blank ∧ r.cursor.ahead = w ++ (t ++ rest) ∧
    r.cursor.position + w.length = start
  /-- The phrase may come next. -/
  wantsTerm : r.situation.wantsTerm
  /-- As many groups are open as are around the phrase. -/
  depth_eq : r.situation.depth = depth
  /-- The phrase ends where it seems to end. -/
  longest : rest.NoDigitFirst

/-- The reading `s` is where `r` gets to after a phrase with the tokens `ts`. -/
structure Completes (rules : Rules) (r : Reading) (rest : Text) (ts : List Token) (s : Reading) :
    Prop where
  /-- The lexemes of the phrase are read one by one. -/
  reaches : Reaches rules r s
  /-- The text after the phrase is left. -/
  ahead_eq : s.cursor.ahead = rest
  /-- The tokens of the phrase are recorded. -/
  recorded_eq : s.recorded = ts.reverse ++ r.recorded
  /-- A term has ended. -/
  not_wantsTerm : ¬ s.situation.wantsTerm
  /-- The same groups are open. -/
  around_eq : s.situation.around = r.situation.around

/-- The run from a reading stops with a fault. -/
def Fails (rules : Rules) (r : Reading) : Prop :=
  ∃ s e, Reaches rules r s ∧ Stops rules s (.error e)

variable {rules : Rules} {limits : Option Rules} {depth start : Nat} {t rest : Text}
  {ts : List Token} {r s : Reading}

/-- A reading fails if it gets to one that does. -/
theorem Fails.of_reaches (h : Reaches rules r s) (hs : s.Fails rules) : r.Fails rules := by
  obtain ⟨q, e, hreach, hstop⟩ := hs
  exact ⟨q, e, h.trans hreach, hstop⟩

/-- After the phrase the column is where the phrase ends. -/
theorem Completes.position_eq (h : r.Completes rules rest ts s) (hr : r.Faces depth start t rest) :
    s.cursor.position = start + t.length := by
  obtain ⟨w, -, hahead, rfl⟩ := hr.ahead_eq
  have hpasses : r.Passes s (w ++ t) := by
    refine ⟨h.reaches.text_eq, ?_⟩
    rw [hahead, h.ahead_eq, List.append_assoc]
  rw [hpasses.position_eq, List.length_append, Nat.add_assoc]

end Reading

open Reading

variable {rules : Rules} {limits : Option Rules} {p : Phrase} {depth start : Nat} {t rest : Text}
  {ts : List Token} {r s : Reading}

/-- No literal begins with a blank, whatever comes behind it. -/
theorem Literal.noBlankFirst_append {l : Text} (hl : l.IsLiteral) (rest : Text) :
    Text.NoBlankFirst (l ++ rest) := by
  obtain ⟨c, t, rfl, hc⟩ := exists_cons_of_isLiteral hl
  exact Text.firstNot_cons.2 (Symbol.isBlank_eq_false_of_startsLiteral hc)

/-- A literal that is ahead is read, or it is out of range. -/
theorem Reading.Faces.literal {l : Text} (hr : r.Faces depth start l rest) (hl : l.IsLiteral) :
    (∃ s, r.Completes rules rest [{ value := l, kind := .operand, position := start }] s) ∨
      ¬ rules.InRange (Literal.value l) ∧ r.Fails rules := by
  obtain ⟨w, hw, hahead, rfl⟩ := hr.ahead_eq
  by_cases hrange : rules.InRange (Literal.value l)
  · have hmeets : r.Meets rules w ⟨l, .operand⟩ rest :=
      ⟨hw, .operand hr.wantsTerm hl hrange, hahead, fun _ => hr.longest⟩
    refine Or.inl ⟨_, .single hmeets.step, hmeets.ahead_take, hmeets.recorded_take, ?_, rfl⟩
    exact Bool.false_ne_true
  · have hskip := Cursor.ahead_skipBlanks_of_append hw (Literal.noBlankFirst_append hl rest) hahead
    have hscan : Literal.scan r.skipBlanks.cursor.ahead = .complete l.length :=
      (congrArg Literal.scan hskip).trans (Literal.scan_append hl hr.longest)
    have hadmits : ¬ rules.admits (r.skipBlanks.cursor.ahead.take l.length) := by
      rw [show r.skipBlanks.cursor.ahead = l ++ rest from hskip, List.take_left,
        Rules.admits_iff_inRange hl]
      exact hrange
    exact Or.inr ⟨hrange, r, _, .refl, .outOfRange hr.wantsTerm hscan hadmits⟩

/-- The parenthesis that begins a group is read, or the group is too deep. -/
theorem Reading.Faces.opening {e : Text} (hr : r.Faces depth start ('(' :: e) rest) :
    (∃ s, Step rules r s ∧ s.cursor.ahead = e ++ rest ∧ s.cursor.position = start + 1 ∧
        s.recorded = { value := ['('], kind := .opening, position := start } :: r.recorded ∧
        s.situation = { around := r.situation.chained :: r.situation.around }) ∨
      ¬ depth < rules.maxDepth ∧ r.Fails rules := by
  obtain ⟨w, hw, hahead, rfl⟩ := hr.ahead_eq
  obtain rfl := hr.depth_eq
  by_cases hdepth : r.situation.depth < rules.maxDepth
  · have hmeets : r.Meets rules w ⟨['('], .opening⟩ (e ++ rest) :=
      ⟨hw, .opening hr.wantsTerm hdepth, hahead, fun h => nomatch h⟩
    refine Or.inl ⟨_, hmeets.step, hmeets.ahead_take, ?_, hmeets.recorded_take, rfl⟩
    rw [hmeets.passes.position_eq, List.length_append, List.length_singleton, Nat.add_assoc]
  · have hblank : Text.NoBlankFirst ('(' :: e ++ rest) := Text.firstNot_cons.2 rfl
    have hskip := Cursor.ahead_skipBlanks_of_append hw hblank hahead
    have hnext : r.skipBlanks.cursor.nextIs .opening := Cursor.nextIs_iff.2 ⟨_, _, hskip, rfl⟩
    exact Or.inr ⟨hdepth, r, _, .refl, .tooDeep hr.wantsTerm hnext (Nat.le_of_not_lt hdepth)⟩

/-- After the inside of a group its closing parenthesis is read. -/
theorem Reading.Completes.closing {w : Text} {c : Bool} {cs : List Bool}
    (hs : r.Completes rules (w ++ ([')'] ++ rest)) ts s) (hw : w.Blank)
    (haround : r.situation.around = c :: cs) :
    ∃ q, Reaches rules r q ∧ q.cursor.ahead = rest ∧
      q.recorded = { value := [')'], kind := .closing, position :=
        (s.cursor.position + w.length : Nat) } :: (ts.reverse ++ r.recorded) ∧
      q.situation = { wantsTerm := false, chained := c, around := cs } := by
  have haround' := hs.around_eq.trans haround
  have hmeets : s.Meets rules w ⟨[')'], .closing⟩ rest :=
    ⟨hw, .closing hs.not_wantsTerm (Situation.depth_pos haround'), hs.ahead_eq,
      fun h => nomatch h⟩
  refine ⟨_, hs.reaches.tail hmeets.step, hmeets.ahead_take, ?_, ?_⟩
  · rw [hmeets.recorded_take, hs.recorded_eq]
  · rw [situation_take, situation_skipBlanks, Situation.next, haround']
    rfl

/-- After an expression an operator is read. -/
theorem Reading.Completes.operator {w u : Text} {c : Char}
    (hs : r.Completes rules (w ++ c :: u) ts s) (hw : w.Blank)
    (hc : (Symbol.ofChar c).isOperator) :
    ∃ q, Step rules s q ∧ q.cursor.ahead = u ∧
      q.cursor.position = s.cursor.position + w.length + 1 ∧
      q.recorded = { value := [c], kind := .operator, position :=
        (s.cursor.position + w.length : Nat) } :: s.recorded ∧
      q.situation = { wantsTerm := true, chained := true, around := r.situation.around } := by
  have hmeets : s.Meets rules w ⟨[c], .operator⟩ u :=
    ⟨hw, .operator hs.not_wantsTerm hc, hs.ahead_eq, fun h => nomatch h⟩
  refine ⟨_, hmeets.step, hmeets.ahead_take, ?_, hmeets.recorded_take, ?_⟩
  · rw [hmeets.passes.position_eq, List.length_append, List.length_singleton, Nat.add_assoc]
  · rw [situation_take, situation_skipBlanks, Situation.next, hs.around_eq]

/-- A phrase that is ahead is read to its end, unless the rules are other than its limits and it
breaks them. -/
theorem Derives.completes_or_fails (h : Derives limits p depth start t ts)
    (hr : r.Faces depth start t rest) :
    (∃ s, r.Completes rules rest ts s) ∨ limits ≠ some rules ∧ r.Fails rules := by
  -- of the limits only the depth of a group and the range of a literal are in question
  induction h generalizing r rest with
  | @literal depth start l hl hrange =>
    rcases hr.literal hl with hdone | ⟨hout, hfails⟩
    · exact Or.inl hdone
    · refine Or.inr ⟨?_, hfails⟩
      rintro rfl
      exact hout (hrange rules rfl)
  | @group depth start e w ts hdepth _ hw ih =>
    rcases hr.opening with ⟨r₁, hstep, hahead, hposition, hrecorded, hsituation⟩ | ⟨hdeep, hfails⟩
    · have hfaces : r₁.Faces (depth + 1) (start + 1) e (w ++ ([')'] ++ rest)) := by
        refine ⟨⟨[], Text.blank_nil, ?_, hposition⟩, ?_, ?_, ?_⟩
        · simpa using hahead
        · rw [hsituation]
        · rw [hsituation, ← hr.depth_eq]
          rfl
        · exact Text.noDigitFirst_append_of_blank hw (Text.firstNot_cons.2 rfl)
      rcases ih hfaces with ⟨s, hs⟩ | ⟨hlimits, hfails⟩
      · obtain ⟨q, hreach, hq, hrecorded', hsituation'⟩ :=
          hs.closing hw (congrArg Situation.around hsituation)
        refine Or.inl ⟨q, hreach.head hstep, hq, ?_, ?_, ?_⟩
        · rw [hrecorded', hrecorded, hs.position_eq hfaces]
          simp [Nat.add_assoc]
        · rw [hsituation']
          exact Bool.false_ne_true
        · rw [hsituation']
      · exact Or.inr ⟨hlimits, hfails.of_reaches (.single hstep)⟩
    · refine Or.inr ⟨?_, hfails⟩
      rintro rfl
      exact hdeep (hdepth rules rfl)
  | @single depth start t w ts hw _ ih =>
    obtain ⟨v, hv, hahead, rfl⟩ := hr.ahead_eq
    -- blanks before the term are passed with those that stand before the expression
    refine ih ⟨⟨v ++ w, Text.blank_append.2 ⟨hv, hw⟩, ?_, ?_⟩, hr.wantsTerm, hr.depth_eq,
      hr.longest⟩
    · rw [hahead, List.append_assoc, List.append_assoc]
    · rw [List.length_append, Nat.add_assoc]
  | @chain depth start e w v t c ts us _ hw hc hv _ ihe iht =>
    obtain ⟨u, hu, hahead, hstart⟩ := hr.ahead_eq
    -- an operator is no digit, so no literal before it can go on
    have hfaces : r.Faces depth start e (w ++ c :: (v ++ (t ++ rest))) := by
      refine ⟨⟨u, hu, by simpa using hahead, hstart⟩, hr.wantsTerm, hr.depth_eq, ?_⟩
      exact Text.noDigitFirst_append_of_blank hw
        (Text.firstNot_cons.2 (Literal.isDigit_of_isOperator hc))
    rcases ihe hfaces with ⟨s, hs⟩ | hfails
    · obtain ⟨q, hstep, hq, hposition, hrecorded, hsituation⟩ := hs.operator hw hc
      have hfaces' : q.Faces depth (start + (e ++ w).length + 1 + v.length) t rest := by
        refine ⟨⟨v, hv, hq, ?_⟩, ?_, ?_, hr.longest⟩
        · rw [hposition, hs.position_eq hfaces, List.length_append, Nat.add_assoc start]
        · rw [hsituation]
        · rw [hsituation, ← hr.depth_eq]
          rfl
      rcases iht hfaces' with ⟨x, hx⟩ | ⟨hlimits, hfails⟩
      · refine Or.inl ⟨x, hs.reaches.trans (hx.reaches.head hstep), hx.ahead_eq, ?_,
          hx.not_wantsTerm, ?_⟩
        · rw [hx.recorded_eq, hrecorded, hs.recorded_eq, hs.position_eq hfaces]
          simp [Nat.add_assoc]
        · rw [hx.around_eq, hsituation]
      · exact Or.inr ⟨hlimits, hfails.of_reaches (hs.reaches.tail hstep)⟩
    · exact Or.inr hfails

/-- A sentence is read to its end, unless the rules are other than its limits and it breaks them. -/
theorem Sentence.completes_or_fails (h : Sentence limits t ts) :
    (∃ r, Reaches rules (.start t) r ∧ Stops rules r (.ok r.skipBlanks) ∧ r.tokens = ts) ∨
      limits ≠ some rules ∧ (Reading.start t).Fails rules := by
  obtain ⟨e, w, rfl, hw, hderives⟩ := h
  have hfaces : (Reading.start (e ++ w)).Faces 0 0 e w := by
    refine ⟨⟨[], Text.blank_nil, rfl, rfl⟩, rfl, rfl, ?_⟩
    simpa using Text.noDigitFirst_append_of_blank hw Text.firstNot_nil
  rcases hderives.completes_or_fails hfaces with ⟨s, hs⟩ | hfails
  · refine Or.inl ⟨s, hs.reaches, ?_, tokens_eq_of_recorded hs.recorded_eq⟩
    refine .complete hs.not_wantsTerm (congrArg List.length hs.around_eq) ?_
    refine Cursor.atEnd_iff_ahead.2 (Cursor.ahead_skipBlanks_of_append hw Text.firstNot_nil ?_)
    rw [hs.ahead_eq, List.append_nil]
  · exact Or.inr hfails

end ArithSyntax
