import ArithSyntax.Checker
import ArithSyntax.Proofs.Completion
import ArithSyntax.Proofs.Exhaustion
import ArithSyntax.Proofs.Quotation

/-!
# What a journal tells

Between the text and the verdict a journal has one message at most. It is about what is left over
after an expression, or about a group that lies too deep. The second is noticed deep inside the text
and the fault is reported of the whole, but nothing on the way changes its column; and the tokens
tell it from every other missing term (`remark_eq_tooDeep_iff`).

All this is told for want of nothing but an expression. A warning that there was no room to read on
is another matter, and with unlimited room there is none.
-/

namespace ArithSyntax

open Reading

namespace Analysis

variable {rules : Rules} {r : Reading} {e : Rejection} {o : Outcome} {t u : Text} {n i : Nat}

/-- At the column `i` a term is missing because a group that begins there would be too deep: as many
groups are open before it as the rules allow, and it stands where a term has to come. -/
structure TooDeep (rules : Rules) (t : Text) (i : Nat) : Prop where
  /-- The fault is at the column. -/
  faulty : ∃ f, (ofText rules t).verdict = { status := .faulty f, column := i }
  /-- An opening parenthesis stands there. -/
  opening : t[i]? = some '('
  /-- As many groups are open as the rules allow. -/
  balance_eq : Token.balance (ofText rules t).tokens = rules.maxDepth
  /-- The last token is an operator or an opening parenthesis, and only blanks come after it. -/
  last : ∃ k ∈ (ofText rules t).tokens.getLast?,
    (k.kind = .operator ∨ k.kind = .opening) ∧ (t.slice k.finish i).Blank

/-- A group that is noticed to be too deep is so. -/
theorem tooDeep_of_stops (hreach : Reaches rules (start t) r) (hs : Stops rules r (.error e))
    (he : e.remark? = some (.tooDeep n i)) : n = rules.maxDepth ∧ TooDeep rules t i := by
  have hverdict := verdict_ofText (b := .operator) hreach hs
  have htokens := tokens_ofText (b := .operator) hreach hs
  obtain ⟨hbalance, hdepth⟩ := hreach.balance_eq
  cases hs with
  | tooDeep hterm hopening hdeep =>
    cases he
    have hfull : Token.balance r.tokens = rules.maxDepth := by omega
    -- at least one group is allowed, so one that is too deep is not the first token
    have hsome : r.tokens ≠ [] := by
      intro hnone
      have hpos := rules.maxDepth_pos
      rw [hnone, Token.balance_nil] at hfull
      omega
    have hlast := List.getLast?_eq_some_getLast hsome
    obtain ⟨c, rest, hahead, hc⟩ := Cursor.nextIs_iff.1 hopening
    rw [Symbol.ofChar_eq_opening_iff.1 hc] at hahead
    obtain ⟨w, hw, hpasses⟩ := r.exists_passes_skipBlanks
    have hsplit := hpasses.ahead_eq
    rw [hahead] at hsplit
    refine ⟨rfl, ⟨_, hverdict⟩, ?_, ?_, r.tokens.getLast hsome, ?_, ?_, ?_⟩
    · rw [hpasses.position_eq, hreach.getElem?_of_ahead hsplit]
      rfl
    · rw [htokens]
      exact hfull
    · rw [htokens]
      exact hlast
    · exact wantsTerm_iff_getLast?.1 hterm _ hlast
    · rw [← Token.reach_of_getLast? hlast, hpasses.position_eq, hreach.slice_reach hsplit]
      exact hw
  | _ => cases he

/-- Where a group is too deep reading stops for that reason. -/
theorem TooDeep.exists_stops (h : TooDeep rules t i) :
    ∃ r, Reaches rules (start t) r ∧ r.skipBlanks.cursor.position = i ∧
      Stops rules r (.error (r.skipBlanks.reject .missingTerm
        (some (.tooDeep rules.maxDepth i)))) := by
  obtain ⟨⟨f, hf⟩, hparen, hbalance, k, hk, hkind, hblank⟩ := h
  obtain ⟨r, e, hreach, hs, hcolumn, -⟩ := exists_run_of_faulty hf
  rw [tokens_ofText hreach hs] at hbalance hk
  have hterm : r.situation.wantsTerm := by
    refine wantsTerm_iff_getLast?.2 fun j hj => ?_
    rw [Option.mem_unique hj hk]
    exact hkind
  have hdepth : rules.maxDepth ≤ r.situation.depth := by
    rw [hreach.balance_eq.1] at hbalance
    omega
  obtain ⟨w, v, rest, hw, hahead, hplace, hv⟩ := hs.exists_column
  -- no sign stands between the last token and the parenthesis
  have hnone : v = [] := by
    have hbetween := hreach.slice_reach hahead
    rw [← hplace, hcolumn, Token.reach_of_getLast? hk] at hbetween
    rw [hbetween, Text.blank_append] at hblank
    refine hv.resolve_right ?_
    rintro ⟨rfl, -⟩
    exact absurd hblank.2 (by decide)
  rw [hnone, List.append_nil] at hahead hplace
  rw [← hcolumn, hplace, hreach.getElem?_of_ahead hahead] at hparen
  obtain ⟨u, rfl⟩ := List.head?_eq_some_iff.1 hparen
  have hfirst : Text.NoBlankFirst ('(' :: u) := Text.firstNot_cons.2 rfl
  have hposition : r.skipBlanks.cursor.position = i :=
    (Cursor.position_skipBlanks_of_append hw hfirst hahead).trans (hplace.symm.trans hcolumn)
  have hopening : r.skipBlanks.cursor.nextIs .opening :=
    Cursor.nextIs_iff.2 ⟨_, _, Cursor.ahead_skipBlanks_of_append hw hfirst hahead, rfl⟩
  have hstop := Stops.tooDeep hterm hopening hdepth
  rw [hposition] at hstop
  exact ⟨r, hreach, hposition, hstop⟩

/-- A group is remarked on exactly if it is too deep. -/
theorem remark_eq_tooDeep_iff :
    (ofText rules t).remark? = some (.tooDeep n i) ↔ n = rules.maxDepth ∧ TooDeep rules t i := by
  constructor
  · intro hremark
    obtain ⟨r, o, hreach, hstop, -⟩ := exists_run .operator rules t
    cases o with
    | ok s =>
      rw [remark_ofText_of_ok hreach hstop] at hremark
      cases hremark
    | error e => exact tooDeep_of_stops hreach hstop (remark_ofText hreach hstop ▸ hremark)
  · rintro ⟨rfl, hdeep⟩
    obtain ⟨r, hreach, -, hstop⟩ := hdeep.exists_stops
    exact remark_ofText hreach hstop

/-- What is found wrong with a group that is too deep is that a term is missing. -/
theorem verdict_of_tooDeep (h : TooDeep rules t i) :
    (ofText rules t).verdict = { status := .faulty .missingTerm, column := i } := by
  obtain ⟨r, hreach, rfl, hstop⟩ := h.exists_stops
  rw [verdict_ofText hreach hstop, reject, Blame.fault, ite_self]

/-- Where something is left over reading stops before the end of the text. -/
theorem exists_stops_of_extraneous
    (h : (ofText rules t).verdict = { status := .faulty .extraneous, column := i }) :
    ∃ r, Reaches rules (start t) r ∧ r.skipBlanks.cursor.position = i ∧ i < t.length ∧
      Stops rules r (.error (r.skipBlanks.reject .extraneous
        (some (.unconsumed r.skipBlanks.cursor.ahead)))) := by
  obtain ⟨r, e, hreach, hs, rfl, hf⟩ := exists_run_of_faulty h
  have hfault : e.fault = .extraneous := by
    split at hf
    · cases hf
    · exact hf.symm
  cases hs with
  | extraneous hterm hdepth hend hoperator =>
    refine ⟨r, hreach, rfl, ?_, .extraneous hterm hdepth hend hoperator⟩
    have hle := r.skipBlanks.cursor.position_le_length_text
    rw [Cursor.atEnd_iff] at hend
    rw [hreach.text_skipBlanks] at hle hend
    exact Nat.lt_of_le_of_ne hle hend
  | _ => cases hfault

/-- What is left of a text is remarked on exactly if it is left over after an expression. -/
theorem remark_eq_unconsumed_iff :
    (ofText rules t).remark? = some (.unconsumed u) ↔
      ∃ i : Nat, (ofText rules t).verdict = { status := .faulty .extraneous, column := i } ∧
        i < t.length ∧ u = t.drop i := by
  have hdrop {r : Reading} (hreach : Reaches rules (start t) r) :
      t.drop r.skipBlanks.cursor.position = r.skipBlanks.cursor.ahead := by
    rw [← Cursor.drop_text_position, hreach.text_skipBlanks]
  constructor
  · intro hremark
    obtain ⟨r, o, hreach, hstop, -⟩ := exists_run .operator rules t
    cases o with
    | ok s =>
      rw [remark_ofText_of_ok hreach hstop] at hremark
      cases hremark
    | error e =>
      have hverdict := verdict_ofText (b := .operator) hreach hstop
      rw [remark_ofText hreach hstop] at hremark
      cases hstop with
      | extraneous =>
        obtain ⟨-, -, -, hlt, -⟩ := exists_stops_of_extraneous hverdict
        cases hremark
        exact ⟨_, hverdict, hlt, (hdrop hreach).symm⟩
      | _ => cases hremark
  · rintro ⟨i, hi, -, rfl⟩
    obtain ⟨r, hreach, rfl, -, hstop⟩ := exists_stops_of_extraneous hi
    rw [hdrop hreach]
    exact remark_ofText hreach hstop

/-- The verdict on a text can be put into words if the length of the text can be written. -/
theorem exists_describe (rules : Rules) (stack : Stack) (ht : t.length < Decimal.ceiling) :
    ∃ description,
      (ofText rules t .operator stack).verdict.describe = .ok description := by
  generalize ha : ofText rules t .operator stack = a
  cases hstatus : a.verdict.status with
  | wellFormed => exact ⟨_, by rw [Verdict.describe, hstatus]⟩
  | faulty f =>
    subst ha
    obtain ⟨c, hc, hverdict⟩ := exists_column_of_status hstatus
    rw [hverdict]
    exact ⟨_, Verdict.describe_of_lt rfl (Nat.lt_of_le_of_lt hc ht)⟩

/-- With unlimited room a remark is about a group or about what is left over. -/
theorem remark_cases {m : Remark} (h : (ofText rules t).remark? = some m) :
    (∃ i, m = .tooDeep rules.maxDepth i ∧ TooDeep rules t i) ∨
      ∃ i : Nat, m = .unconsumed (t.drop i) ∧ i < t.length ∧
        (ofText rules t).verdict = { status := .faulty .extraneous, column := i } := by
  cases m with
  | tooDeep n i =>
    obtain ⟨rfl, hdeep⟩ := remark_eq_tooDeep_iff.1 h
    exact Or.inl ⟨i, rfl, hdeep⟩
  | unconsumed u =>
    obtain ⟨i, hi, hlt, rfl⟩ := remark_eq_unconsumed_iff.1 h
    exact Or.inr ⟨i, rfl, hlt, hi⟩
  | exhausted n i =>
    refine absurd ?_ (not_isExhausted_unlimited rules t .operator)
    rw [isExhausted, h]

end Analysis

/-! ### Messages -/

/-- No two numbers have the same digits. -/
theorem Decimal.digits_injective : Function.Injective Decimal.digits :=
  Function.LeftInverse.injective Decimal.value_digits

/-- Where a text breaks off can be told from how the rest is quoted. -/
theorem Text.eq_of_quote_drop_eq {t : Text} {i j : Nat} (hj : j < t.length)
    (h : Text.quote (t.drop i) = Text.quote (t.drop j)) : i = j := by
  have hlength := congrArg List.length (quote_inj.1 h)
  rw [List.length_drop, List.length_drop] at hlength
  omega

/-- The two kinds of messages begin differently. -/
theorem Remark.words_tooDeep_ne (u v : Text) :
    "nesting deeper than ".toList ++ u ≠ "unconsumed input: ".toList ++ v := by
  intro h
  have hhead : 'n' = 'u' := List.head_eq_of_cons_eq h
  exact absurd hhead (by decide)

namespace Analysis

variable {rules : Rules} {t : Text} {i : Nat}

/-- What is told of what was noticed, if it can be written. -/
def noticed (a : Analysis) : Option Text := a.remark?.bind fun m => m.message.toOption

/-- The message about what is left over is there exactly if that is the fault. -/
theorem noticed_eq_unconsumed_iff :
    (ofText rules t).noticed = some ("unconsumed input: ".toList ++ Text.quote (t.drop i)) ↔
      (ofText rules t).verdict = { status := .faulty .extraneous, column := i } := by
  rw [noticed, Option.bind_eq_some_iff]
  constructor
  · rintro ⟨m, hm, hmessage⟩
    rcases remark_cases hm with ⟨j, rfl, -⟩ | ⟨j, rfl, hlt, hj⟩
    · have hwords := Option.some.inj hmessage
      rw [List.append_assoc, List.append_assoc] at hwords
      exact absurd hwords (Remark.words_tooDeep_ne _ _)
    · have hquote := List.append_cancel_left (Option.some.inj hmessage)
      rw [Text.eq_of_quote_drop_eq hlt hquote.symm]
      exact hj
  · intro h
    obtain ⟨-, -, -, hlt, -⟩ := exists_stops_of_extraneous h
    exact ⟨_, remark_eq_unconsumed_iff.2 ⟨i, h, hlt, rfl⟩, rfl⟩

/-- The message about a group is there exactly if the group is too deep. -/
theorem noticed_eq_tooDeep_iff :
    (ofText rules t).noticed = some ("nesting deeper than ".toList ++
        Decimal.digits rules.maxDepth ++ " at column ".toList ++ Decimal.digits i) ↔
      TooDeep rules t i := by
  rw [noticed, Option.bind_eq_some_iff]
  constructor
  · rintro ⟨m, hm, hmessage⟩
    rcases remark_cases hm with ⟨j, rfl, hdeep⟩ | ⟨j, rfl, -⟩
    · have hdigits := List.append_cancel_left (Option.some.inj hmessage)
      rw [← Decimal.digits_injective hdigits]
      exact hdeep
    · have hwords := Option.some.inj hmessage
      rw [List.append_assoc, List.append_assoc] at hwords
      exact absurd hwords.symm (Remark.words_tooDeep_ne _ _)
  · intro h
    exact ⟨_, remark_eq_tooDeep_iff.2 ⟨rfl, h⟩, rfl⟩

/-- There is no message if neither is the case. -/
theorem noticed_eq_none_iff :
    (ofText rules t).noticed = none ↔
      ∀ i : Nat, (ofText rules t).verdict ≠ { status := .faulty .extraneous, column := i } ∧
        ¬ TooDeep rules t i := by
  constructor
  · intro hnone i
    rw [Ne, ← noticed_eq_unconsumed_iff, ← noticed_eq_tooDeep_iff, hnone]
    exact ⟨nofun, nofun⟩
  · intro h
    rw [noticed, Option.bind_eq_none_iff]
    intro m hm
    rcases remark_cases hm with ⟨i, -, hdeep⟩ | ⟨i, -, -, hi⟩
    · exact absurd hdeep (h i).2
    · exact absurd hi (h i).1

/-- With unlimited room nothing is told that is more than of use for finding errors. -/
theorem entries_eq_noticed (rules : Rules) (t : Text) :
    ((ofText rules t).remark?.bind Remark.entry?).toList =
      (ofText rules t).noticed.toList.map fun message => { level := .debug, message } := by
  rw [noticed]
  cases hm : (ofText rules t).remark? with
  | none => rfl
  | some m => rcases remark_cases hm with ⟨i, rfl, -⟩ | ⟨i, rfl, -⟩ <;> rfl

end Analysis

namespace Checker

/-- The journal of a text whose length can be written, where the room is unlimited. It tells the
text and the verdict, and between them one thing at most: what is left over after an expression, or
the group that is too deep, which is then where a term is missing. -/
theorem journal_of_check (c : Checker) {t : Text} (ht : t.length < Decimal.ceiling) :
    ∃ (report : Report) (description : Text) (noticed : Option Text),
      (c.check t .unlimited).2 = .ok report ∧
      (Analysis.ofText c.rules t).verdict.describe = .ok description ∧
      report.journalFrom .debug =
        (("parsing ".toList ++ t.quote) :: noticed.toList ++
          ["result for ".toList ++ t.quote ++ ": ".toList ++ description]).map
            (fun message => { level := .debug, message }) ∧
      (∀ i : Nat, noticed = some ("unconsumed input: ".toList ++ Text.quote (t.drop i)) ↔
        (Analysis.ofText c.rules t).verdict = { status := .faulty .extraneous, column := i }) ∧
      (∀ i : Nat, noticed = some ("nesting deeper than ".toList ++
            Decimal.digits c.rules.maxDepth ++ " at column ".toList ++ Decimal.digits i) ↔
        Analysis.TooDeep c.rules t i) ∧
      (∀ i : Nat, Analysis.TooDeep c.rules t i →
        (Analysis.ofText c.rules t).verdict = { status := .faulty .missingTerm, column := i }) ∧
      (noticed = none ↔ ∀ i : Nat,
        (Analysis.ofText c.rules t).verdict ≠ { status := .faulty .extraneous, column := i } ∧
          ¬ Analysis.TooDeep c.rules t i) := by
  obtain ⟨description, hdescription⟩ := Analysis.exists_describe c.rules .unlimited ht
  have hreport : (c.check t .unlimited).2 = .ok ⟨t, .ofText c.rules t, description⟩ := by
    rw [check, Report.ofAnalysis, hdescription]
    rfl
  refine ⟨_, description, (Analysis.ofText c.rules t).noticed, hreport, hdescription, ?_,
    fun i => Analysis.noticed_eq_unconsumed_iff, fun i => Analysis.noticed_eq_tooDeep_iff,
    fun i => Analysis.verdict_of_tooDeep, Analysis.noticed_eq_none_iff⟩
  rw [Report.journalFrom_debug, Report.journal, Analysis.entries_eq_noticed, List.map_append,
    List.map_cons]
  rfl

/-- Where one group is allowed the journal tells of the second of two groups in one another, and the
fault is at the column that it tells. -/
theorem journal_of_deep_group :
    ∃ rules, Rules.ofSettings { maxDepth := 1 } = .ok rules ∧
      ∃ report, (check { rules } "1+ ((2))".toList .unlimited).2 = .ok report ∧
        report.journalFrom .debug =
          ["parsing '1+ ((2))'".toList, "nesting deeper than 1 at column 4".toList,
            "result for '1+ ((2))': Missing term at column 4".toList].map
              fun message => { level := .debug, message } := by
  let rules : Rules := { Rules.standard with maxDepth := 1, maxDepth_pos := Nat.one_pos }
  have hsettings : Rules.ofSettings { maxDepth := 1 } = .ok rules := by decide +kernel
  have htokens : (Analysis.ofText rules "1+ ((2))".toList).tokens =
      [⟨⟨['1'], .operand⟩, 0⟩, ⟨⟨['+'], .operator⟩, 1⟩, ⟨⟨['('], .opening⟩, 3⟩] := by
    decide +kernel
  have hfaulty : (Analysis.ofText rules "1+ ((2))".toList).verdict =
      { status := .faulty .missingTerm, column := 4 } := by decide +kernel
  have hdeep : Analysis.TooDeep rules "1+ ((2))".toList 4 := by
    refine ⟨⟨_, hfaulty⟩, by decide, ?_, ?_⟩
    · rw [htokens]
      decide
    · rw [htokens]
      exact ⟨_, rfl, Or.inr rfl, by decide⟩
  have hlength : "1+ ((2))".toList.length < Decimal.ceiling := by decide +kernel
  obtain ⟨report, description, noticed, hreport, hdescription, hjournal, -, hnoticed, -⟩ :=
    journal_of_check { rules } hlength
  have hwords : (Analysis.ofText rules "1+ ((2))".toList).verdict.describe =
      .ok "Missing term at column 4".toList := by
    rw [hfaulty]
    decide +kernel
  rw [hwords, Except.ok.injEq] at hdescription
  rw [← hdescription, (hnoticed 4).2 hdeep] at hjournal
  refine ⟨rules, hsettings, report, hreport, hjournal.trans ?_⟩
  decide +kernel

end Checker

end ArithSyntax
