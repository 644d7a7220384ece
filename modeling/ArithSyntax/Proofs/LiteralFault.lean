import ArithSyntax.Proofs.Unclosed

/-!
# Literals at fault

Where a term has to come, a character that begins a literal commits reading to one: a zero must not
be followed by a digit, a sign must be followed by a nonzero digit, and the value must be in range.
`Literal.Rejected` says what is wrong with a text in front of which this fails, and a reading that
wants a term there stops with that fault (`exists_stops_of_rejected`, `Stops.rejected`). Where that
is the case is told by the text up to there alone (`AwaitsTerm`).

The fault is reported as what it is only if no operator waits for the term. Behind anything but
opening parentheses one does, in the same group or in one around it, and what is reported is the
missing term (`ofText_of_rejected`). So the faults of literals are found by looking at the text
behind the blanks and opening parentheses that it begins with (`faulty_iff_of_literalFault`).
-/

namespace ArithSyntax

open Reading

/-! ### What is wrong with a literal -/

namespace Literal

/-- The text begins like a literal but not with one in range, and the fault `f` is found `n`
characters further on. -/
inductive Rejected (rules : Rules) : Text → (f : Fault) → (n : Nat) → Prop
  | outOfRange {l rest : Text} (hl : l.IsLiteral) (hrest : rest.NoDigitFirst)
      (hrange : ¬ rules.InRange (value l)) : Rejected rules (l ++ rest) .outOfRange 0
  | leadingZero {d : Char} {rest : Text} (hd : isDigit d) :
      Rejected rules ('0' :: d :: rest) .illFormedInteger 0
  | loneSign {rest : Text} (hrest : ∀ d ∈ rest.head?, Symbol.ofChar d ≠ .nonzeroDigit) :
      Rejected rules ('-' :: rest) .illFormedInteger 1

variable {rules : Rules} {v : Text} {f : Fault} {n offset passed : Nat} {c : Char}

/-- There are two faults of literals. -/
theorem Rejected.fault_eq (h : Rejected rules v f n) : f = .outOfRange ∨ f = .illFormedInteger := by
  rcases h with _ | _ | _
  · exact Or.inl rfl
  · exact Or.inr rfl
  · exact Or.inr rfl

/-- What is rejected begins like a literal. -/
theorem Rejected.exists_cons (h : Rejected rules v f n) :
    ∃ c u, v = c :: u ∧ (Symbol.ofChar c).startsLiteral := by
  rcases h with ⟨hl, -, -⟩ | _ | _
  · obtain ⟨c, t, rfl, hc⟩ := exists_cons_of_isLiteral hl
    exact ⟨c, _, rfl, hc⟩
  · exact ⟨_, _, rfl, rfl⟩
  · exact ⟨_, _, rfl, rfl⟩

/-- A literal is out of range if it is complete and its value is not admitted. -/
theorem rejected_outOfRange_iff :
    Rejected rules v .outOfRange n ↔ n = 0 ∧ ∃ l rest : Text, v = l ++ rest ∧ l.IsLiteral ∧
      rest.NoDigitFirst ∧ ¬ rules.InRange (value l) := by
  constructor
  · rintro ⟨hl, hrest, hrange⟩
    exact ⟨rfl, _, _, rfl, hl, hrest, hrange⟩
  · rintro ⟨rfl, l, rest, rfl, hl, hrest, hrange⟩
    exact .outOfRange hl hrest hrange

/-- A literal is ill formed if a digit follows its leading zero, or no nonzero digit its sign. -/
theorem rejected_illFormedInteger_iff :
    Rejected rules v .illFormedInteger n ↔
      n = 0 ∧ v[0]? = some '0' ∧ (∃ d ∈ v[1]?, isDigit d) ∨
        n = 1 ∧ v[0]? = some '-' ∧ ∀ d ∈ v[1]?, Symbol.ofChar d ≠ .nonzeroDigit := by
  constructor
  · rintro (_ | hd | hrest)
    · exact Or.inl ⟨rfl, rfl, _, rfl, hd⟩
    · refine Or.inr ⟨rfl, rfl, ?_⟩
      rwa [List.getElem?_cons_succ, ← List.head?_eq_getElem?]
  · rcases v with _ | ⟨c, v⟩
    · rintro (⟨-, hnone, -⟩ | ⟨-, hnone, -⟩) <;> cases hnone
    · have hnext : (c :: v)[1]? = v.head? := by
        rw [List.getElem?_cons_succ, List.head?_eq_getElem?]
      rw [hnext]
      rintro (⟨rfl, hc, d, hd, hdigit⟩ | ⟨rfl, hc, hrest⟩)
      · obtain rfl : c = '0' := Option.some.inj hc
        obtain ⟨rest, rfl⟩ := List.head?_eq_some_iff.1 hd
        exact .leadingZero hdigit
      · obtain rfl : c = '-' := Option.some.inj hc
        exact .loneSign hrest

/-- A scan that fails on a text that begins like a literal has found one of the two mistakes in
writing a literal. -/
theorem rejected_of_scan_eq_malformed (hc : (Symbol.ofChar c).startsLiteral)
    (h : scan (c :: v) = .malformed offset passed) :
    Rejected rules (c :: v) .illFormedInteger offset := by
  rw [scan] at h
  by_cases hzero : Symbol.ofChar c = .zero
  · rw [if_pos hzero] at h
    obtain rfl := Symbol.ofChar_eq_zero_iff.1 hzero
    split at h
    · rename_i hany
      cases h
      obtain ⟨d, hd, hdigit⟩ := (Option.any_eq_true _ _).1 hany
      obtain ⟨rest, rfl⟩ := List.head?_eq_some_iff.1 hd
      exact .leadingZero hdigit
    · contradiction
  rw [if_neg hzero] at h
  by_cases hminus : Symbol.ofChar c = .minus
  · rw [if_pos hminus] at h
    obtain rfl := Symbol.ofChar_eq_minus_iff.1 hminus
    unfold scanNatural at h
    split at h
    · cases h
      exact .loneSign fun d hd => absurd hd (Option.not_mem_none d)
    · rename_i d rest
      split at h
      · contradiction
      · rename_i hd
        cases h
        refine .loneSign fun x hx => ?_
        obtain rfl := Option.some.inj hx
        exact hd
  · -- the digits from 1 to 9 are left, and with one of them a scan succeeds
    have hdigit : Symbol.ofChar c = .nonzeroDigit := by
      unfold Symbol.startsLiteral at hc
      split at hc <;> first | contradiction | assumption
    rw [if_neg hminus, scanNatural, if_pos hdigit] at h
    contradiction

end Literal

namespace Reading

variable {rules : Rules} {r : Reading} {e : Rejection} {t : Text} {f : Fault} {n : Nat}

/-- Reading stops at a literal that is rejected. -/
theorem exists_stops_of_rejected (hterm : r.situation.wantsTerm)
    (h : Literal.Rejected rules r.skipBlanks.cursor.ahead f n) :
    ∃ e, Stops rules r (.error e) ∧ e.fault = f ∧
      e.column = r.skipBlanks.cursor.position + n := by
  generalize hahead : r.skipBlanks.cursor.ahead = v at h
  have hstart : r.skipBlanks.cursor.nextSatisfies Symbol.startsLiteral := by
    obtain ⟨c, u, rfl, hc⟩ := h.exists_cons
    exact Cursor.nextSatisfies_iff.2 ⟨c, u, hahead, hc⟩
  rcases h with ⟨hl, hrest, hrange⟩ | hd | hrest
  · rename_i l rest
    have hscan : Literal.scan r.skipBlanks.cursor.ahead = .complete l.length := by
      rw [hahead]
      exact Literal.scan_append hl hrest
    have hadmits : ¬ rules.admits (r.skipBlanks.cursor.ahead.take l.length) := by
      rw [hahead, List.take_left, Rules.admits_iff_inRange hl]
      exact hrange
    exact ⟨_, .outOfRange hterm hscan hadmits, rfl, rfl⟩
  · have hscan : Literal.scan r.skipBlanks.cursor.ahead = .malformed 0 1 := by
      rw [hahead]
      simp [Literal.scan, Symbol.ofChar, hd]
    exact ⟨_, .malformed hterm hstart hscan, rfl, rfl⟩
  · rename_i rest
    have hnatural : Literal.scanNatural 1 rest = .malformed 1 1 := by
      unfold Literal.scanNatural
      split
      · rfl
      · exact if_neg (hrest _ rfl)
    have hscan : Literal.scan r.skipBlanks.cursor.ahead = .malformed 1 1 := by
      rw [hahead]
      exact hnatural
    exact ⟨_, .malformed hterm hstart hscan, rfl, rfl⟩

/-- Where reading stops with the fault of a literal, one is rejected. -/
theorem Stops.rejected (h : Stops rules r (.error e))
    (hf : e.fault = .outOfRange ∨ e.fault = .illFormedInteger) :
    r.situation.wantsTerm ∧ ∃ n, Literal.Rejected rules r.skipBlanks.cursor.ahead e.fault n ∧
      e.column = r.skipBlanks.cursor.position + n := by
  cases h with
  | malformed hterm hstart hscan =>
    obtain ⟨c, u, hahead, hc⟩ := Cursor.nextSatisfies_iff.1 hstart
    rw [hahead] at hscan ⊢
    exact ⟨hterm, _, Literal.rejected_of_scan_eq_malformed hc hscan, rfl⟩
  | outOfRange hterm hscan hadmits =>
    obtain ⟨l, rest, hahead, hl, hrest, rfl⟩ := Literal.exists_of_scan_eq_complete hscan
    rw [hahead, List.take_left, Rules.admits_iff_inRange hl] at hadmits
    rw [hahead]
    exact ⟨hterm, 0, .outOfRange hl hrest hadmits, rfl⟩
  | _ => simp [reject] at hf

/-! ### Behind opening parentheses -/

/-- Only blanks and opening parentheses have been passed if and only if nothing but opening
parentheses has been read. -/
theorem Reaches.opens_behind_iff (h : Reaches rules (start t) r) :
    Text.Opens r.cursor.behind.reverse ↔ ∀ k ∈ r.tokens, k.kind = .opening := by
  refine ⟨?_, fun hall => (h.opens_behind hall).1⟩
  intro hopens
  induction h with
  | refl => exact fun _ hk => nomatch hk
  | tail _ hstep ih =>
    obtain ⟨w, l, rest, hmeets, rfl⟩ := hstep.exists_meets
    rw [hmeets.passes.behind_eq, List.reverse_append, List.reverse_reverse] at hopens
    have hbefore := ih fun c hc => hopens c (List.mem_append_left _ hc)
    rw [hmeets.tokens_take, List.forall_mem_append]
    refine ⟨hbefore, List.forall_mem_singleton.2 ?_⟩
    obtain ⟨c, u, hvalue, hblank, -⟩ := hmeets.fits.exists_cons
    have hmem : c ∈ w ++ l.value := by
      rw [hvalue]
      exact List.mem_append_cons_self
    have hc : c = '(' := by
      refine (hopens c (List.mem_append_right _ hmem)).resolve_left ?_
      rw [hblank]
      exact Bool.false_ne_true
    exact hmeets.fits.kind_eq_opening (hc ▸ hvalue)

end Reading

/-- The blanks and opening parentheses that a text begins with. -/
def Text.leadingOpenings (t : Text) : Text :=
  t.takeWhile fun c => (Symbol.ofChar c).isBlank || c = '('

/-- Blanks and opening parentheses in front of a literal are all that the text begins with. -/
theorem Text.leadingOpenings_append {u v : Text} {c : Char} (hu : u.Opens)
    (hc : (Symbol.ofChar c).startsLiteral) : (u ++ c :: v).leadingOpenings = u := by
  have hall : ∀ d ∈ u, ((Symbol.ofChar d).isBlank || d = '(') = true := by
    intro d hd
    rw [Bool.or_eq_true, decide_eq_true_eq]
    exact hu d hd
  have hblank := Symbol.isBlank_eq_false_of_startsLiteral hc
  have hne : c ≠ '(' := by
    rintro rfl
    contradiction
  have hfirst : Text.FirstNot (fun d => (Symbol.ofChar d).isBlank || d = '(') (c :: v) :=
    Text.firstNot_cons.2 (by rw [hblank, Bool.false_or, decide_eq_false hne])
  rw [leadingOpenings, List.takeWhile_append_of_pos hall, hfirst.takeWhile_eq_nil,
    List.append_nil]

/-- What a text begins with are blanks and opening parentheses. -/
theorem Text.opens_leadingOpenings (t : Text) : t.leadingOpenings.Opens := by
  intro c hc
  have hall := List.mem_takeWhile_imp hc
  rwa [Bool.or_eq_true, decide_eq_true_eq] at hall

/-- A text is what it begins with and the rest. -/
theorem Text.leadingOpenings_append_drop (t : Text) :
    t.leadingOpenings ++ t.drop t.leadingOpenings.length = t :=
  List.prefix_iff_eq_append.1 (List.takeWhile_prefix _)

/-- Blanks behind a text make no difference. -/
theorem Text.opens_append {u w : Text} (hw : w.Blank) : Opens (u ++ w) ↔ u.Opens := by
  constructor
  · intro h c hc
    exact h c (List.mem_append_left _ hc)
  · intro h c hc
    rcases List.mem_append.1 hc with hc | hc
    · exact h c hc
    · exact Or.inl (hw c hc)

namespace Analysis

variable {rules : Rules} {stack : Stack} {b : Blame} {r : Reading} {t u v : Text} {f : Fault}
  {c n : Nat}

/-! ### Where a term has to come -/

/-- At the end of the text a term has to come: the last token, if there is one, is an operator or an
opening parenthesis, and only blanks come after it. -/
structure AwaitsTerm (rules : Rules) (u : Text) : Prop where
  /-- Nothing has been read, or the last token is one behind which a term comes. -/
  last : ∀ k ∈ (ofText rules u).tokens.getLast?, k.kind = .operator ∨ k.kind = .opening
  /-- The text is blank behind its tokens. -/
  blank : (u.slice (Token.reach (ofText rules u).tokens) u.length).Blank

/-- The run of a text gets to where a term has to come at the end. -/
theorem AwaitsTerm.exists_reaches (h : AwaitsTerm rules u) :
    ∃ r, Reaches rules (start u) r ∧ r.situation.wantsTerm ∧ r.cursor.ahead.Blank ∧
      r.tokens = (ofText rules u).tokens := by
  obtain ⟨r, o, hreach, hstop, -⟩ := exists_run .operator rules u
  have htokens : (ofText rules u).tokens = r.tokens := tokens_ofText hreach hstop
  refine ⟨r, hreach, wantsTerm_iff_getLast?.2 (htokens ▸ h.last), ?_, htokens.symm⟩
  rw [← hreach.slice_reach_length, ← htokens]
  exact h.blank

/-- Where a term is wanted at the end of a text, one has to come there. -/
theorem awaitsTerm_of_blank (hreach : Reaches rules (start u) r) (hterm : r.situation.wantsTerm)
    (hblank : r.cursor.ahead.Blank) :
    AwaitsTerm rules u ∧ (ofText rules u).tokens = r.tokens := by
  have hnil : r.skipBlanks.cursor.ahead = [] :=
    Cursor.ahead_skipBlanks_of_append hblank Text.firstNot_nil (List.append_nil _).symm
  have hend := Cursor.atEnd_iff_ahead.2 hnil
  obtain ⟨e, hstop⟩ : ∃ e, Stops rules r (.error e) := by
    by_cases hrecorded : r.recorded = []
    · exact ⟨_, .empty hrecorded hend⟩
    · refine ⟨_, .noTerm hterm (fun h => absurd h hrecorded) ?_ ?_⟩
      · rw [Cursor.nextIs, Cursor.not_nextSatisfies_of_atEnd hend]
        exact Bool.false_ne_true
      · rw [Cursor.not_nextSatisfies_of_atEnd hend]
        exact Bool.false_ne_true
  have htokens : (ofText rules u).tokens = r.tokens := tokens_ofText hreach hstop
  refine ⟨⟨?_, ?_⟩, htokens⟩
  · rw [htokens]
    exact wantsTerm_iff_getLast?.1 hterm
  · rw [htokens, hreach.slice_reach_length]
    exact hblank

/-- Behind a text that awaits a term, another one is read from its beginning on. -/
theorem AwaitsTerm.exists_reaches_append (h : AwaitsTerm rules u) (hv : v.NoBlankFirst) :
    ∃ r, Reaches rules (start (u ++ v)) r ∧ r.situation.wantsTerm ∧
      r.skipBlanks.cursor.ahead = v ∧ r.skipBlanks.cursor.position = u.length ∧
      r.tokens = (ofText rules u).tokens ∧ (u.Opens ↔ ∀ k ∈ r.tokens, k.kind = .opening) := by
  obtain ⟨q, hq, hterm, hblank, htokens⟩ := h.exists_reaches
  -- the last token is no literal, so none can go on in the other text
  have hsettled : q.Settled [] v := by
    intro k hk hkind _
    have hlast := wantsTerm_iff_getLast?.1 hterm k (List.getLast?_reverse.trans hk)
    rw [hkind] at hlast
    rcases hlast with hlast | hlast <;> cases hlast
  have hall : (start (u ++ v)).cursor.ahead = u ++ v := rfl
  obtain ⟨r, hr, hwithin, hahead⟩ := exists_within_of_append rfl hall hq hsettled
  have htokens' := hwithin.tokens_eq_of_start
  have hskip := Cursor.ahead_skipBlanks_of_append hblank hv hahead
  refine ⟨r, hr, hwithin.inside.wantsTerm_eq.trans hterm, hskip, ?_, htokens'.trans htokens, ?_⟩
  · exact Reaches.position_of_append hr (congrArg (u ++ ·) hskip).symm
  · have hopens := Text.opens_append (u := q.cursor.behind.reverse) hblank
    rw [← hq.eq_append] at hopens
    rw [htokens', ← hq.opens_behind_iff, hopens]

/-- Where a term is wanted the text up to there awaits one. -/
theorem awaitsTerm_of_reaches (hreach : Reaches rules (start t) r)
    (hterm : r.situation.wantsTerm) :
    ∃ u, t = u ++ r.skipBlanks.cursor.ahead ∧ u.length = r.skipBlanks.cursor.position ∧
      AwaitsTerm rules u := by
  obtain ⟨w, hw, hpasses⟩ := r.exists_passes_skipBlanks
  have hahead := hpasses.ahead_eq
  have ht : t = r.cursor.behind.reverse ++ w ++ r.skipBlanks.cursor.ahead := by
    rw [List.append_assoc, ← hahead]
    exact hreach.eq_append
  refine ⟨r.cursor.behind.reverse ++ w, ht, (hreach.position_of_append ht).symm, ?_⟩
  generalize r.cursor.behind.reverse ++ w = u at ht
  generalize r.skipBlanks.cursor.ahead = v at ht hahead
  subst ht
  have hstart : (start u).Within v [] (start (u ++ v)) (start u) :=
    .start rfl (List.append_nil u).symm
  have hle : v.length ≤ r.unread := by
    rw [unread, hahead, List.length_append]
    exact Nat.le_add_left _ _
  obtain ⟨r', hr', hwithin⟩ :=
    hstart.exists_reaches hreach hle (settled_of_noDigitFirst Text.firstNot_nil)
  obtain ⟨x, hx, hx'⟩ := hwithin.ahead_eq
  rw [hahead, List.append_cancel_right_eq] at hx
  rw [List.append_nil, ← hx] at hx'
  exact (awaitsTerm_of_blank hr' (hwithin.inside.wantsTerm_eq.trans hterm) (hx' ▸ hw)).1

/-- Blanks and opening parentheses await a term if there is room for so many groups, and the
parentheses are their tokens. -/
theorem awaitsTerm_of_opens (hu : u.Opens) (hle : u.count '(' ≤ rules.maxDepth) :
    AwaitsTerm rules u ∧ (ofText rules u).tokens = Token.openings u 0 := by
  have hroom : (start u).situation.depth + u.count '(' ≤ rules.maxDepth := by
    rw [situation_start, Situation.depth, List.length_nil, Nat.zero_add]
    exact hle
  obtain ⟨r, w, hreach, hterm, hw, hahead, htokens⟩ :=
    exists_reaches_openings hu Text.blank_nil rfl hroom (List.append_nil u).symm
  rw [List.append_nil] at hahead
  obtain ⟨hawaits, hsame⟩ := awaitsTerm_of_blank hreach hterm (hahead ▸ hw)
  exact ⟨hawaits, hsame.trans htokens⟩

/-- Where a text of blanks and opening parentheses awaits a term there is room for its groups. -/
theorem AwaitsTerm.count_le (h : AwaitsTerm rules u) (hu : u.Opens) :
    u.count '(' ≤ rules.maxDepth := by
  obtain ⟨r, hreach, -, hblank, -⟩ := h.exists_reaches
  rw [hreach.eq_append, Text.opens_append hblank, hreach.opens_behind_iff] at hu
  have hcount := (hreach.opens_behind hu).2
  obtain ⟨hbalance, hdepth⟩ := hreach.balance_eq
  rw [Token.balance_eq_length hu] at hbalance
  rw [hreach.eq_append, List.count_append, hcount, Text.count_opening_of_blank hblank]
  omega

/-! ### The faults of literals -/

/-- What is found if a literal is rejected where a term has to come. -/
theorem ofText_of_rejected (hu : AwaitsTerm rules u) (h : Literal.Rejected rules v f n) :
    (ofText rules (u ++ v) b).tokens = (ofText rules u).tokens ∧
      (ofText rules (u ++ v) b).verdict = {
        status := .faulty (if u.Opens then f else b.fault f)
        column := (u.length + n : Nat) } := by
  have hv : v.NoBlankFirst := by
    obtain ⟨c, w, rfl, hc⟩ := h.exists_cons
    exact Text.firstNot_cons.2 (Symbol.isBlank_eq_false_of_startsLiteral hc)
  obtain ⟨r, hreach, hterm, hahead, hposition, htokens, hopens⟩ := hu.exists_reaches_append hv
  obtain ⟨e, hstop, rfl, hcolumn⟩ := exists_stops_of_rejected hterm (hahead.symm ▸ h)
  have hblames : r.situation.blames e.fault ↔ ¬ u.Opens := by
    rw [hopens, ← hreach.blames_outOfRange_iff hterm]
    rcases h.fault_eq with hf | hf
    · rw [hf]
    · rw [hf]
      rfl
  refine ⟨(tokens_ofText hreach hstop).trans htokens, ?_⟩
  rw [verdict_ofText hreach hstop, hcolumn, hposition]
  by_cases hopen : u.Opens
  · rw [if_pos hopen, if_neg (hblames.not.2 (not_not.2 hopen))]
  · rw [if_neg hopen, if_pos (hblames.2 hopen)]

/-- The fault of a literal is reported where one is rejected and a term has to come. -/
theorem exists_rejected_of_faulty (hf : f = .outOfRange ∨ f = .illFormedInteger)
    (h : (ofText rules t b).verdict = { status := .faulty f, column := c }) :
    ∃ u v n, t = u ++ v ∧ AwaitsTerm rules u ∧ Literal.Rejected rules v f n ∧
      c = u.length + n := by
  obtain ⟨r, o, hreach, hstop, -⟩ := exists_run b rules t
  cases o with
  | ok s =>
    rw [verdict_ofText_of_ok hreach hstop] at h
    cases h
  | error e =>
    rw [verdict_ofText hreach hstop, Verdict.mk.injEq, Status.faulty.injEq] at h
    obtain ⟨hfault, hcolumn⟩ := h
    have hsame : e.fault = f := by
      cases b with
      | operand => exact (ite_self _).symm.trans hfault
      | operator =>
        split at hfault
        · rw [← hfault] at hf
          rcases hf with hf | hf <;> cases hf
        · exact hfault
    subst hsame
    obtain ⟨hterm, n, hrejected, hn⟩ := hstop.rejected hf
    obtain ⟨u, ht, hlength, hu⟩ := awaitsTerm_of_reaches hreach hterm
    refine ⟨u, _, n, ht, hu, hrejected, ?_⟩
    rw [hlength, ← hn]
    exact (Int.ofNat.inj hcolumn).symm

/-- The fault of a literal is reported as such exactly if one is rejected behind the blanks and
opening parentheses that the text begins with, and there is room for so many groups. -/
theorem faulty_iff_of_literalFault (hf : f = .outOfRange ∨ f = .illFormedInteger) :
    (ofText rules t).verdict = { status := .faulty f, column := c } ↔
      t.leadingOpenings.count '(' ≤ rules.maxDepth ∧
        ∃ n, c = t.leadingOpenings.length + n ∧
          Literal.Rejected rules (t.drop t.leadingOpenings.length) f n := by
  constructor
  · intro h
    obtain ⟨u, v, n, rfl, hu, hrejected, rfl⟩ := exists_rejected_of_faulty hf h
    have hverdict := (ofText_of_rejected (b := .operator) hu hrejected).2
    have hopens : u.Opens := by
      by_contra hopens
      rw [h, if_neg hopens, Verdict.mk.injEq, Status.faulty.injEq] at hverdict
      rw [hverdict.1] at hf
      rcases hf with hf | hf <;> cases hf
    have hleading : (u ++ v).leadingOpenings = u := by
      obtain ⟨x, w, rfl, hx⟩ := hrejected.exists_cons
      exact Text.leadingOpenings_append hopens hx
    rw [hleading, List.drop_left]
    exact ⟨hu.count_le hopens, n, rfl, hrejected⟩
  · rintro ⟨hcount, n, rfl, hrejected⟩
    have hopens := t.opens_leadingOpenings
    obtain ⟨hu, -⟩ := awaitsTerm_of_opens hopens hcount
    have hverdict := (ofText_of_rejected (b := .operator) hu hrejected).2
    rwa [if_pos hopens, t.leadingOpenings_append_drop] at hverdict

/-- Nothing but opening parentheses has been read where the fault of a literal is reported. -/
theorem tokens_of_literalFault (hf : f = .outOfRange ∨ f = .illFormedInteger)
    (h : (ofText rules t).verdict = { status := .faulty f, column := c }) :
    (ofText rules t).tokens = Token.openings t.leadingOpenings 0 := by
  obtain ⟨hcount, n, -, hrejected⟩ := (faulty_iff_of_literalFault hf).1 h
  obtain ⟨hu, htokens⟩ := awaitsTerm_of_opens t.opens_leadingOpenings hcount
  have hsame := (ofText_of_rejected (b := .operator) hu hrejected).1
  rw [t.leadingOpenings_append_drop] at hsame
  exact hsame.trans htokens

/-! ### Room for a literal -/

/-- There is room for the literal that is rejected behind opening parentheses, and then for these,
if there is room for the calls of a literal that begins so inside the groups. -/
theorem not_isExhausted_iff_of_rejected (hu : u.Opens) (hle : u.count '(' ≤ rules.maxDepth)
    (h : Literal.Rejected rules v f n) :
    ¬ (ofText rules (u ++ v) b stack).isExhausted ↔
      stack.holds (Lexeme.calls (u.count '(') ⟨v, .operand⟩) := by
  obtain ⟨c, w, rfl, hc⟩ := h.exists_cons
  have hv : Text.NoBlankFirst (c :: w) :=
    Text.firstNot_cons.2 (Symbol.isBlank_eq_false_of_startsLiteral hc)
  obtain ⟨hawaits, hopenings⟩ := awaitsTerm_of_opens hu hle
  obtain ⟨r, hreach, hterm, hahead, -, htokens, -⟩ := hawaits.exists_reaches_append hv
  rw [hopenings] at htokens
  have hkind : ∀ k ∈ r.tokens, k.kind = .opening := by
    rw [htokens]
    exact Token.kind_of_mem_openings u 0
  have hlength : r.tokens.length = u.count '(' := by rw [htokens, Token.length_openings]
  have hdepth : r.situation.depth = u.count '(' := by
    have hbalance := hreach.balance_eq.1
    rw [Token.balance_eq_length hkind, hlength] at hbalance
    exact (Int.ofNat.inj hbalance).symm
  have hroom : r.HasRoom rules stack ↔
      stack.holds (Lexeme.calls (u.count '(') ⟨c :: w, .operand⟩) := by
    have hstart := Cursor.nextSatisfies_iff.2 ⟨c, w, hahead, hc⟩
    rw [hasRoom_iff_of_startsLiteral hterm hstart, hdepth, hahead]
  rw [← hroom]
  constructor
  · intro hnot
    by_contra hgives
    exact hnot (isExhausted_iff.2 ⟨r, hreach, hgives⟩)
  · intro hr
    -- the parentheses before the literal take no more room than it does
    have hcalls : Token.calls r.tokens ≤ Lexeme.calls (u.count '(') ⟨c :: w, .operand⟩ := by
      have hle : Token.calls r.tokens ≤ 2 * (0 + (r.tokens.map Token.toLexeme).length) + 4 :=
        Situation.calls_le_of_opening (List.forall_mem_map.2 hkind)
      rw [List.length_map, hlength] at hle
      refine hle.trans ?_
      simp only [Lexeme.calls]
      split
      · rw [Stack.callsOfTerm]
        omega
      · rw [Stack.callsOfNumeral]
        omega
    obtain ⟨e, hstop, -⟩ := exists_stops_of_rejected hterm (hahead.symm ▸ h)
    have hgoes := hreach.goes_start_iff.2 (Stack.holds_of_le (hroom.1 hr) hcalls)
    exact (ofText_of_stops hgoes hr hstop).1

/-- The fault of a literal is reported as such exactly if one is rejected behind the blanks and
opening parentheses that the text begins with, so many groups are allowed, and there is room for a
literal in them. -/
theorem faulty_on_iff_of_literalFault (hf : f = .outOfRange ∨ f = .illFormedInteger) :
    (ofText rules t .operator stack).verdict = { status := .faulty f, column := c } ↔
      t.leadingOpenings.count '(' ≤ rules.maxDepth ∧
        stack.holds (Lexeme.calls (t.leadingOpenings.count '(')
          ⟨t.drop t.leadingOpenings.length, .operand⟩) ∧
        ∃ n, c = t.leadingOpenings.length + n ∧
          Literal.Rejected rules (t.drop t.leadingOpenings.length) f n := by
  have hne : f ≠ .missingTerm := by rcases hf with rfl | rfl <;> decide
  rw [verdict_eq_faulty_iff hne, faulty_iff_of_literalFault hf, and_left_comm]
  refine and_congr_right fun hcount => and_congr_left ?_
  rintro ⟨n, -, hrejected⟩
  have hroom : ¬ (ofText rules (t.leadingOpenings ++ t.drop t.leadingOpenings.length)
      .operator stack).isExhausted ↔ _ :=
    not_isExhausted_iff_of_rejected t.opens_leadingOpenings hcount hrejected
  rwa [t.leadingOpenings_append_drop] at hroom

/-- Nothing but opening parentheses has been read where the fault of a literal is reported. -/
theorem tokens_on_of_literalFault (hf : f = .outOfRange ∨ f = .illFormedInteger)
    (h : (ofText rules t .operator stack).verdict.status = .faulty f) :
    (ofText rules t .operator stack).tokens = Token.openings t.leadingOpenings 0 := by
  have heq : ofText rules t .operator stack = ofText rules t := by
    refine ofText_eq_of_status ?_
    rw [h]
    rcases hf with rfl | rfl <;> exact nofun
  rw [heq] at h ⊢
  obtain ⟨c, -, hverdict⟩ := exists_column_of_status h
  exact tokens_of_literalFault hf hverdict

/-- What comes of the literals that are rejected. Behind the blanks and opening parentheses that a
text begins with, if so many groups are allowed and there is room for a literal in them, a literal
out of range is reported at its first character, a zero before a digit at the zero, and a sign
without a nonzero digit behind the sign; the tokens are the parentheses. A literal that is rejected
anywhere else is reported at the same column of it, but as a missing term; and where there is no
room for the text a missing term is reported as well. Literals are rejected where a term has to come
and nowhere else. -/
theorem faults_of_rejected_literals (rules : Rules) (stack : Stack) (t : Text) :
    (∀ c : Nat, (ofText rules t .operator stack).verdict =
        { status := .faulty .outOfRange, column := c } ↔
      t.leadingOpenings.count '(' ≤ rules.maxDepth ∧
        stack.holds (Lexeme.calls (t.leadingOpenings.count '(')
          ⟨t.drop t.leadingOpenings.length, .operand⟩) ∧
        c = t.leadingOpenings.length ∧
        ∃ l rest : Text, t.drop c = l ++ rest ∧ l.IsLiteral ∧ rest.NoDigitFirst ∧
          ¬ rules.InRange (Literal.value l)) ∧
      (∀ c : Nat, (ofText rules t .operator stack).verdict =
          { status := .faulty .illFormedInteger, column := c } ↔
        t.leadingOpenings.count '(' ≤ rules.maxDepth ∧
          stack.holds (Lexeme.calls (t.leadingOpenings.count '(')
            ⟨t.drop t.leadingOpenings.length, .operand⟩) ∧
          (c = t.leadingOpenings.length ∧ t[c]? = some '0' ∧
              (∃ d ∈ t[c + 1]?, Literal.isDigit d) ∨
            c = t.leadingOpenings.length + 1 ∧ t[c - 1]? = some '-' ∧
              ∀ d ∈ t[c]?, Symbol.ofChar d ≠ .nonzeroDigit)) ∧
      ((ofText rules t .operator stack).verdict.status = .faulty .outOfRange ∨
          (ofText rules t .operator stack).verdict.status = .faulty .illFormedInteger →
        (ofText rules t .operator stack).tokens = Token.openings t.leadingOpenings 0) ∧
      (∀ u v f n, t = u ++ v → AwaitsTerm rules u → Literal.Rejected rules v f n →
        ¬ (ofText rules t .operator stack).isExhausted →
          (ofText rules t .operator stack).tokens = (ofText rules u).tokens ∧
            (ofText rules t .operator stack).verdict = {
              status := .faulty (if u.Opens then f else .missingTerm)
              column := (u.length + n : Nat) }) ∧
      ((ofText rules t .operator stack).isExhausted →
        (ofText rules t .operator stack).verdict.status = .faulty .missingTerm) ∧
      ∀ (f : Fault) (c : Nat), f = .outOfRange ∨ f = .illFormedInteger →
        ((ofText rules t .operand stack).verdict = { status := .faulty f, column := c } ↔
          ¬ (ofText rules t .operand stack).isExhausted ∧
            ∃ u v n, t = u ++ v ∧ AwaitsTerm rules u ∧ Literal.Rejected rules v f n ∧
              c = u.length + n) := by
  refine ⟨fun c => ?_, fun c => ?_, ?_, ?_, status_of_isExhausted, fun f c hf => ?_⟩
  · rw [faulty_on_iff_of_literalFault (Or.inl rfl)]
    simp only [Literal.rejected_outOfRange_iff]
    constructor
    · rintro ⟨hcount, hstack, n, rfl, rfl, hliteral⟩
      exact ⟨hcount, hstack, rfl, hliteral⟩
    · rintro ⟨hcount, hstack, rfl, hliteral⟩
      exact ⟨hcount, hstack, 0, rfl, rfl, hliteral⟩
  · rw [faulty_on_iff_of_literalFault (Or.inr rfl)]
    simp only [Literal.rejected_illFormedInteger_iff, List.getElem?_drop]
    constructor
    · rintro ⟨hcount, hstack, n, rfl, ⟨rfl, hzero, hdigit⟩ | ⟨rfl, hminus, hother⟩⟩
      · exact ⟨hcount, hstack, Or.inl ⟨rfl, hzero, hdigit⟩⟩
      · exact ⟨hcount, hstack, Or.inr ⟨rfl, hminus, hother⟩⟩
    · rintro ⟨hcount, hstack, ⟨rfl, hzero, hdigit⟩ | ⟨rfl, hminus, hother⟩⟩
      · exact ⟨hcount, hstack, 0, rfl, Or.inl ⟨rfl, hzero, hdigit⟩⟩
      · exact ⟨hcount, hstack, 1, rfl, Or.inr ⟨rfl, hminus, hother⟩⟩
  · rintro (hstatus | hstatus)
    · exact tokens_on_of_literalFault (Or.inl rfl) hstatus
    · exact tokens_on_of_literalFault (Or.inr rfl) hstatus
  · rintro u v f n rfl hu hrejected hnot
    -- a text that is not given up is read as on an unlimited stack
    rw [ofText_eq_of_not_isExhausted hnot]
    exact ofText_of_rejected hu hrejected
  · have hne : f ≠ .missingTerm := by rcases hf with rfl | rfl <;> decide
    rw [verdict_eq_faulty_iff hne]
    refine and_congr_right fun _ => ⟨exists_rejected_of_faulty hf, ?_⟩
    rintro ⟨u, v, n, rfl, hu, hrejected, rfl⟩
    rw [(ofText_of_rejected hu hrejected).2, Blame.fault, ite_self]

/-- In parentheses each of the faults is reported at its column, and behind an operator a zero
before a digit is a missing term. -/
theorem faults_in_parentheses :
    (ofText .standard "(\t-2147483649".toList .operator .standard).verdict =
        { status := .faulty .outOfRange, column := 2 } ∧
      (ofText .standard "( (-)".toList .operator .standard).verdict =
        { status := .faulty .illFormedInteger, column := 4 } ∧
      (ofText .standard "( (-)".toList .operator .standard).tokens.map Token.position = [0, 2] ∧
      (ofText .standard "(1 + 012)".toList .operator .standard).verdict =
        { status := .faulty .missingTerm, column := 5 } := by
  obtain ⟨hrange, -⟩ := faults_of_rejected_literals .standard .standard "(\t-2147483649".toList
  obtain ⟨-, hsign, htokens, -⟩ := faults_of_rejected_literals .standard .standard "( (-)".toList
  obtain ⟨-, -, -, hrejected, -⟩ :=
    faults_of_rejected_literals .standard .standard "(1 + 012)".toList
  have hsigned : (ofText .standard "( (-)".toList .operator .standard).verdict =
      { status := .faulty .illFormedInteger, column := 4 } := by
    refine (hsign 4).2 ⟨by decide, by decide, Or.inr ⟨by decide, by decide, ?_⟩⟩
    intro d hd
    cases hd
    decide
  refine ⟨?_, hsigned, ?_, ?_⟩
  · refine (hrange 2).2 ⟨by decide, by decide, by decide, Decimal.text (-2147483649), [],
      by decide +kernel, Literal.isLiteral_text _, Text.firstNot_nil, ?_⟩
    rw [Literal.value_text]
    decide
  · rw [htokens (Or.inr (congrArg Verdict.status hsigned))]
    decide
  · have hread : (ofText .standard "(1 + ".toList).tokens =
        [⟨⟨['('], .opening⟩, 0⟩, ⟨⟨['1'], .operand⟩, 1⟩, ⟨⟨['+'], .operator⟩, 3⟩] := by
      decide +kernel
    have hawaits : AwaitsTerm .standard "(1 + ".toList := by
      refine ⟨?_, ?_⟩
      · rw [hread]
        intro k hk
        cases hk
        exact Or.inl rfl
      · rw [hread]
        decide
    have hzero : Literal.Rejected .standard "012)".toList .illFormedInteger 0 := .leadingZero rfl
    exact (hrejected _ _ _ _ rfl hawaits hzero (by decide +kernel)).2

/-- Behind more parentheses than there is room for, though not more than the rules allow, a literal
out of range is a missing term. -/
theorem outOfRange_without_room :
    Text.leadingOpenings (List.replicate 50000 '(' ++ "99999999999".toList) =
        List.replicate 50000 '(' ∧
      (List.replicate 50000 '(').count '(' ≤ (Rules.standard.deepen 99800).maxDepth ∧
      Literal.Rejected (Rules.standard.deepen 99800) "99999999999".toList .outOfRange 0 ∧
      (ofText (Rules.standard.deepen 99800) (List.replicate 50000 '(' ++ "99999999999".toList)
        .operator .standard).verdict.status = .faulty .missingTerm := by
  have hopens : Text.Opens (List.replicate 50000 '(') := by
    intro c hc
    exact Or.inr (List.eq_of_mem_replicate hc)
  have hrejected : Literal.Rejected (Rules.standard.deepen 99800)
      (Decimal.text 99999999999 ++ []) .outOfRange 0 := by
    refine .outOfRange (Literal.isLiteral_text _) Text.firstNot_nil ?_
    rw [Literal.value_text]
    decide
  refine ⟨Text.leadingOpenings_append hopens rfl, ?_, ?_, ?_⟩
  · rw [List.count_replicate_self]
    decide
  · rw [List.append_nil] at hrejected
    exact hrejected
  · refine status_of_isExhausted (isExhausted_of_openings (by decide) (by decide) ?_)
    exact Or.inl (by decide)

end Analysis

end ArithSyntax
