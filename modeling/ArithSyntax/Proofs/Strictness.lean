import ArithSyntax.Proofs.Completion
import ArithSyntax.Proofs.Embedding
import Mathlib.Data.List.Infix

/-!
# Stricter rules

Rules with a narrower range of literals or a lower limit on the groups refuse some lexemes that
other rules admit. As long as none is refused a text is read alike under both
(`Reaches.reaches_or_refused`), and the first one that is refused ends the reading: the fault is at
its column, and the tokens are those before it (`ofText_of_refused`). Where reading ends under the
wider rules it ends under the stricter ones too (`Stops.exists_of_stricter`). So the tokens that are
found under the wider rules tell the whole analysis under the stricter ones (`ofText_of_stricter`).

A literal out of range is reported as such only if there is nothing but opening parentheses before
it. Where a term is wanted behind anything else, an operator waits for it, in the same group or in
one around it (`Reaches.any_levels_of_wantsTerm`).
-/

namespace ArithSyntax

open Reading

/-! ### Lexemes that are refused -/

/-- Whatever `rules` admit is admitted by `rules'` as well. -/
structure Rules.Stricter (rules rules' : Rules) : Prop where
  /-- The range begins no earlier. -/
  least_le : rules'.least ≤ rules.least
  /-- The range ends no later. -/
  greatest_le : rules.greatest ≤ rules'.greatest
  /-- The groups that may enclose one another are no more. -/
  maxDepth_le : rules.maxDepth ≤ rules'.maxDepth

/-- The rules refuse the lexeme where `depth` groups are open: it begins a group that is too deep,
or it is a literal out of range. -/
def Lexeme.Refused (rules : Rules) (depth : Int) (l : Lexeme) : Prop :=
  l.kind = .opening ∧ rules.maxDepth ≤ depth ∨
    l.kind = .operand ∧ ¬ rules.InRange (Literal.value l.value)

/-- The fault that is reported if a lexeme is refused after some tokens. -/
def Lexeme.refusal (l : Lexeme) (before : List Token) : Fault :=
  if l.kind = .operand ∧ ∀ k ∈ before, k.kind = .opening then .outOfRange else .missingTerm

/-- Among the first of the tokens, however many, there are at most `n` opening parentheses more than
closing ones. -/
def Token.NestedWithin (n : Nat) (ks : List Token) : Prop := ∀ js, js <+: ks → balance js ≤ n

instance (n : Nat) (ks : List Token) : Decidable (Token.NestedWithin n ks) :=
  decidable_of_iff (∀ js ∈ ks.inits, Token.balance js ≤ n) <| by
    simp only [Token.NestedWithin, List.mem_inits]

/-- The literals among the tokens are in the range of the rules. -/
def Token.InRange (rules : Rules) (ks : List Token) : Prop :=
  ∀ k ∈ ks, k.kind = .operand → rules.InRange (Literal.value k.value)

instance (rules : Rules) (i : Int) : Decidable (rules.InRange i) :=
  inferInstanceAs (Decidable (rules.least ≤ i ∧ i ≤ rules.greatest))

instance (rules : Rules) (ks : List Token) : Decidable (Token.InRange rules ks) :=
  inferInstanceAs (Decidable (∀ k ∈ ks, k.kind = .operand → _))

/-- What is in the narrower range is in the wider one. -/
theorem Rules.Stricter.inRange {rules rules' : Rules} {i : Int} (h : rules.Stricter rules')
    (hi : rules.InRange i) : rules'.InRange i :=
  ⟨Int.le_trans h.least_le hi.1, Int.le_trans hi.2 h.greatest_le⟩

/-- Fewer groups make the rules stricter. -/
theorem Rules.stricter_deepen (rules : Rules) (n : Nat) : rules.Stricter (rules.deepen n) where
  least_le := Int.le_refl _
  greatest_le := Int.le_refl _
  maxDepth_le := Nat.le_add_right _ _

/-- A lexeme that fits under other rules fits if it is not refused. -/
theorem Lexeme.Fits.of_not_refused {rules rules' : Rules} {q : Situation} {l : Lexeme}
    (h : l.Fits rules' q) (hl : ¬ l.Refused rules q.depth) : l.Fits rules q := by
  cases h with
  | opening hterm _ =>
    have hdepth : ¬ (rules.maxDepth : Int) ≤ q.depth := fun hle => hl (Or.inl ⟨rfl, hle⟩)
    exact .opening hterm (by omega)
  | operand hterm hliteral _ =>
    have hrange := by_contra fun hout => hl (Or.inr ⟨rfl, hout⟩)
    exact .operand hterm hliteral hrange
  | operator hterm hc => exact .operator hterm hc
  | closing hterm hdepth => exact .closing hterm hdepth

/-- A lexeme that fits is not refused. -/
theorem Lexeme.Fits.not_refused {rules : Rules} {q : Situation} {l : Lexeme}
    (h : l.Fits rules q) : ¬ l.Refused rules q.depth := by
  rintro (⟨hkind, hdepth⟩ | ⟨hkind, hout⟩)
  · cases h with
    | opening _ hlt => omega
    | _ => cases hkind
  · cases h with
    | operand _ _ hrange => exact hout hrange
    | _ => cases hkind

namespace Reading

variable {rules rules' : Rules} {stack : Stack} {r s q : Reading} {e : Rejection}
  {t w rest : Text} {l : Lexeme}

/-! ### Where a term is wanted -/

/-- Opening parentheses alone leave no operator behind. -/
theorem any_levels_after_eq_false {ks : List Token} (h : ∀ k ∈ ks, k.kind = .opening) :
    (Situation.after ks).levels.any id = false := by
  induction ks with
  | nil => rfl
  | cons k ks ih =>
    have hrest := ih fun j hj => h j (List.mem_cons_of_mem _ hj)
    rw [Situation.after, h k List.mem_cons_self]
    exact hrest

/-- Where a term is wanted behind other tokens than opening parentheses, an operator has been read
in some open group or outside all of them. -/
theorem Reaches.any_levels_of_wantsTerm (h : Reaches rules (start t) r)
    (hterm : r.situation.wantsTerm) (hother : ∃ k ∈ r.tokens, k.kind ≠ .opening) :
    r.situation.levels.any id := by
  induction h with
  | refl =>
    obtain ⟨k, hk, -⟩ := hother
    cases hk
  | tail _ hstep ih =>
    obtain ⟨w, l, rest, hmeets, rfl⟩ := hstep.exists_meets
    rw [hmeets.tokens_take] at hother
    rw [situation_take, situation_skipBlanks] at hterm ⊢
    cases hmeets.fits with
    | operator => rfl
    | operand | closing => cases hterm
    | opening hterm' _ =>
      -- the parenthesis is not the other token, and its group has no operator yet
      obtain ⟨k, hk, hne⟩ := hother
      rcases List.mem_append.1 hk with hk | hk
      · exact ih hterm' ⟨k, hk, hne⟩
      · rw [List.mem_singleton.1 hk] at hne
        exact absurd rfl hne

/-- A literal out of range is reported as such if there are only opening parentheses before it. -/
theorem Reaches.blames_outOfRange_iff (h : Reaches rules (start t) r)
    (hterm : r.situation.wantsTerm) :
    r.situation.blames .outOfRange ↔ ¬ ∀ k ∈ r.tokens, k.kind = .opening := by
  change r.situation.levels.any id ↔ _
  constructor
  · intro hany hall
    have hnone := any_levels_after_eq_false fun k hk => hall k (List.mem_reverse.2 hk)
    exact absurd (hnone.symm.trans hany) Bool.false_ne_true
  · intro hother
    simp only [not_forall] at hother
    obtain ⟨k, hk, hne⟩ := hother
    exact h.any_levels_of_wantsTerm hterm ⟨k, hk, hne⟩

/-! ### Reading under stricter rules -/

/-- A run under other rules is one under these up to a lexeme that is refused. -/
theorem Reaches.reaches_or_refused (rules : Rules) (h : Reaches rules' r s) :
    Reaches rules r s ∨ ∃ q w l rest, Reaches rules r q ∧ q.Meets rules' w l rest ∧
      l.Refused rules q.situation.depth ∧
      Reaches rules' (q.skipBlanks.take l.kind l.value.length) s := by
  induction h with
  | refl => exact Or.inl .refl
  | @tail q s _ hstep ih =>
    rcases ih with hsame | ⟨p, w, l, rest, hp, hmeets, hl, hrest⟩
    · obtain ⟨w, l, rest, hmeets, rfl⟩ := hstep.exists_meets
      by_cases hl : l.Refused rules q.situation.depth
      · exact Or.inr ⟨q, w, l, rest, hsame, hmeets, hl, .refl⟩
      · have hmeets' : q.Meets rules w l rest :=
          ⟨hmeets.blank, hmeets.fits.of_not_refused hl, hmeets.ahead_eq, hmeets.longest⟩
        exact Or.inl (hsame.tail hmeets'.step)
    · exact Or.inr ⟨p, w, l, rest, hp, hmeets, hl, hrest.tail hstep⟩

/-- Reading stops at a lexeme that is refused. -/
theorem Meets.exists_stops (h : r.Meets rules' w l rest)
    (hl : l.Refused rules r.situation.depth) :
    r.situation.wantsTerm ∧ ∃ e, Stops rules r (.error e) ∧
      e.column = r.cursor.position + w.length ∧
      e.fault = if l.kind = .operand then .outOfRange else .missingTerm := by
  have hahead := h.ahead_skipBlanks
  have hposition := h.position_skipBlanks
  have hlongest := h.longest
  rcases hl with ⟨hkind, hdepth⟩ | ⟨hkind, hout⟩
  · cases h.fits with
    | opening hterm _ =>
      have hnext : r.skipBlanks.cursor.nextIs .opening := Cursor.nextIs_iff.2 ⟨_, _, hahead, rfl⟩
      exact ⟨hterm, _, .tooDeep hterm hnext (Int.ofNat_le.1 hdepth), hposition, rfl⟩
    | _ => cases hkind
  · cases h.fits with
    | @operand l hterm hliteral _ =>
      have hscan : Literal.scan r.skipBlanks.cursor.ahead = .complete l.length := by
        rw [hahead]
        exact Literal.scan_append hliteral (hlongest rfl)
      have hadmits : ¬ rules.admits (r.skipBlanks.cursor.ahead.take l.length) := by
        rw [hahead, List.take_left, Rules.admits_iff_inRange hliteral]
        exact hout
      exact ⟨hterm, _, .outOfRange hterm hscan hadmits, hposition, rfl⟩
    | _ => cases hkind

/-- A literal that is not admitted is admitted by no stricter rules. -/
theorem not_admits_of_stricter {n : Nat} (h : rules.Stricter rules')
    (hscan : Literal.scan t = .complete n) (hadmits : ¬ rules'.admits (t.take n)) :
    ¬ rules.admits (t.take n) := by
  obtain ⟨l, rest, rfl, hliteral, -, rfl⟩ := Literal.exists_of_scan_eq_complete hscan
  rw [List.take_left, Rules.admits_iff_inRange hliteral] at hadmits ⊢
  exact fun hrange => hadmits (h.inRange hrange)

/-- Where a text is complete it is complete under any rules. -/
theorem Stops.of_ok {s : Reading} (h : Stops rules' r (.ok s)) : Stops rules r (.ok s) := by
  cases h with
  | complete hterm hdepth hend => exact .complete hterm hdepth hend

/-- A fault under the wider rules is one under the stricter rules. -/
theorem Stops.exists_of_stricter (h : rules.Stricter rules') (hs : Stops rules' r (.error e)) :
    ∃ e', Stops rules r (.error e') ∧ e'.fault = e.fault ∧ e'.column = e.column := by
  cases hs with
  | extraneous hterm hdepth hend hoperator =>
    exact ⟨_, .extraneous hterm hdepth hend hoperator, rfl, rfl⟩
  | unclosed hterm hdepth hoperator hclosing =>
    exact ⟨_, .unclosed hterm hdepth hoperator hclosing, rfl, rfl⟩
  | empty hrecorded hend => exact ⟨_, .empty hrecorded hend, rfl, rfl⟩
  | tooDeep hterm hopening hdepth =>
    exact ⟨_, .tooDeep hterm hopening (Nat.le_trans h.maxDepth_le hdepth), rfl, rfl⟩
  | malformed hterm hstart hscan => exact ⟨_, .malformed hterm hstart hscan, rfl, rfl⟩
  | outOfRange hterm hscan hadmits =>
    exact ⟨_, .outOfRange hterm hscan (not_admits_of_stricter h hscan hadmits), rfl, rfl⟩
  | noTerm hterm hrecorded hopening hstart =>
    exact ⟨_, .noTerm hterm hrecorded hopening hstart, rfl, rfl⟩

/-- Under stricter rules no more room is needed. -/
theorem HasRoom.of_stricter (h : rules.Stricter rules') (hroom : r.HasRoom rules' stack) :
    r.HasRoom rules stack := by
  intro q hgives
  cases hgives with
  | term hterm hrecorded hdepth hstack =>
    exact hroom _ (.term hterm hrecorded
      (fun hopening => (hdepth hopening).trans_le h.maxDepth_le) hstack)
  | literal hterm hstart hstack hliteral =>
    exact hroom _ (.literal hterm hstart hstack hliteral)

/-- Where reading is given up under the wider rules it ends at the same place under the stricter
rules, if only for a group that is too deep. -/
theorem GivesUp.exists_halts_of_stricter (hgives : GivesUp rules' stack r q) :
    ∃ e, Halts rules stack r (.error e) ∧ e.fault = .missingTerm ∧
      e.column = q.cursor.position := by
  cases hgives with
  | term hterm hrecorded _ hstack =>
    by_cases hdeep : r.skipBlanks.cursor.nextIs .opening ∧ rules.maxDepth ≤ r.situation.depth
    · obtain ⟨hopening, hdepth⟩ := hdeep
      exact ⟨_, .stops (hasRoom_of_tooDeep hopening hdepth) (.tooDeep hterm hopening hdepth), rfl,
        rfl⟩
    · have hdepth (hopening : r.skipBlanks.cursor.nextIs .opening) :
          r.situation.depth < rules.maxDepth := not_le.1 fun hle => hdeep ⟨hopening, hle⟩
      exact ⟨_, .givesUp (.term hterm hrecorded hdepth hstack), rfl, rfl⟩
  | literal hterm hstart hstack hliteral =>
    exact ⟨_, .givesUp (.literal hterm hstart hstack hliteral), rfl, rfl⟩

/-- Where reading ends with a fault under the wider rules it does so under the stricter rules. -/
theorem Halts.exists_of_stricter (h : rules.Stricter rules')
    (hs : Halts rules' stack r (.error e)) :
    ∃ e', Halts rules stack r (.error e') ∧ e'.fault = e.fault ∧ e'.column = e.column := by
  cases hs with
  | stops hroom hstop =>
    obtain ⟨e', hstop', hsame⟩ := hstop.exists_of_stricter h
    exact ⟨e', .stops (hroom.of_stricter h) hstop', hsame⟩
  | givesUp hgives => exact hgives.exists_halts_of_stricter

end Reading

namespace Analysis

variable {rules rules' : Rules} {stack : Stack} {q r : Reading} {t w rest : Text} {l : Lexeme}
  {k : Token} {before after : List Token}

/-! ### Analyses under stricter rules -/

/-- Every token of an analysis fits what comes before it. -/
theorem exists_fits_of_tokens (h : (ofText rules t .operator stack).tokens = before ++ k :: after) :
    ∃ q : Situation, k.Fits rules q ∧ (q.depth : Int) = Token.balance before := by
  obtain ⟨r, o, hgoes, hhalts, -⟩ := exists_halts .operator rules stack t
  rw [tokens_of_halts hgoes hhalts] at h
  obtain ⟨q, w, l, rest, hq, rfl, hmeets, rfl, -⟩ :=
    hgoes.reaches.exists_meets_of_append List.nil_prefix h
  exact ⟨q.situation, hmeets.fits, hq.balance_eq.1.symm⟩

/-- No token of an analysis is refused by its rules. -/
theorem not_refused_of_tokens (h : (ofText rules t .operator stack).tokens = before ++ k :: after) :
    ¬ k.Refused rules (Token.balance before) := by
  obtain ⟨q, hfits, hdepth⟩ := exists_fits_of_tokens h
  rw [← hdepth]
  exact hfits.not_refused

/-- Among the first tokens of an analysis no more groups are closed than opened. -/
theorem balance_nonneg_of_prefix {ks : List Token} (h : ks <+: (ofText rules t).tokens) :
    0 ≤ Token.balance ks := by
  obtain ⟨r, o, hreach, hstop, -⟩ := exists_run .operator rules t
  rw [tokens_ofText hreach hstop] at h
  exact (hreach.balance_of_prefix h).1

/-- The groups of an analysis keep to the limit of its rules. -/
theorem nestedWithin_tokens (rules : Rules) (t : Text) :
    Token.NestedWithin rules.maxDepth (ofText rules t).tokens := by
  obtain ⟨r, o, hreach, hstop, -⟩ := exists_run .operator rules t
  rw [tokens_ofText hreach hstop]
  intro ks hks
  exact (hreach.balance_of_prefix hks).2

/-- The literals of an analysis are in the range of its rules. -/
theorem inRange_tokens (rules : Rules) (stack : Stack) (t : Text) :
    Token.InRange rules (ofText rules t .operator stack).tokens := by
  intro k hk hkind
  obtain ⟨before, after, htokens⟩ := List.append_of_mem hk
  by_contra hout
  exact not_refused_of_tokens htokens (Or.inr ⟨hkind, hout⟩)

/-- The analysis ends at the first lexeme that is refused, if there would be room for it. -/
theorem ofText_of_refused (hgoes : Goes rules stack (start t) q)
    (hmeets : q.Meets rules' w l rest) (hroom : q.HasRoom rules stack)
    (hl : l.Refused rules q.situation.depth) :
    (ofText rules t .operator stack).tokens = q.tokens ∧
      (ofText rules t .operator stack).verdict = {
        status := .faulty (l.refusal q.tokens)
        column := (q.cursor.position + w.length : Nat) } := by
  obtain ⟨hterm, e, hstop, hcolumn, hfault⟩ := hmeets.exists_stops hl
  have hhalts := Halts.stops hroom hstop
  refine ⟨tokens_of_halts hgoes hhalts, ?_⟩
  rw [verdict_of_halts hgoes hhalts, hcolumn, hfault, Lexeme.refusal]
  by_cases hkind : l.kind = .operand
  · have hblames := hgoes.reaches.blames_outOfRange_iff hterm
    rw [if_pos hkind]
    by_cases hall : ∀ k ∈ q.tokens, k.kind = .opening
    · rw [if_neg (hblames.not.2 (not_not.2 hall)), if_pos ⟨hkind, hall⟩]
    · rw [if_pos (hblames.2 hall), if_neg (fun h => hall h.2)]
      rfl
  · have hrefusal : ¬ (l.kind = .operand ∧ ∀ k ∈ q.tokens, k.kind = .opening) := fun h => hkind h.1
    rw [if_neg hkind, if_neg hrefusal, Blame.fault, ite_self]

/-- The analysis under the stricter rules is the one under the wider rules, or it ends at a token of
that one, the first that is refused. It is so with any room to read the text in. -/
theorem ofText_of_stricter (h : rules.Stricter rules') (stack : Stack) (t : Text) :
    (ofText rules t .operator stack).verdict = (ofText rules' t .operator stack).verdict ∧
        (ofText rules t .operator stack).tokens = (ofText rules' t .operator stack).tokens ∨
      ∃ before k after, (ofText rules' t .operator stack).tokens = before ++ k :: after ∧
        k.Refused rules (Token.balance before) ∧
        (ofText rules t .operator stack).verdict =
          { status := .faulty (k.refusal before), column := k.position } ∧
        (ofText rules t .operator stack).tokens = before := by
  obtain ⟨r, o, hgoes, hhalts, -⟩ := exists_halts .operator rules' stack t
  rw [tokens_of_halts hgoes hhalts]
  rcases hgoes.reaches.reaches_or_refused rules with
    hreach | ⟨q, w, l, rest, hq, hmeets, hl, hrest⟩
  · left
    have hgoes' : Goes rules stack (start t) r := hreach.goes_start_iff.2 hgoes.holds_calls
    cases o with
    | ok s =>
      have hhalts' : Halts rules stack r (.ok s) := by
        cases hhalts with
        | stops hroom hstop => exact .stops (hroom.of_stricter h) hstop.of_ok
      rw [verdict_of_halts_ok hgoes hhalts, verdict_of_halts_ok hgoes' hhalts']
      exact ⟨rfl, tokens_of_halts hgoes' hhalts'⟩
    | error e =>
      obtain ⟨e', hhalts', hfault, hcolumn⟩ := hhalts.exists_of_stricter h
      rw [verdict_of_halts hgoes hhalts, verdict_of_halts hgoes' hhalts', hfault, hcolumn]
      exact ⟨rfl, tokens_of_halts hgoes' hhalts'⟩
  · right
    obtain ⟨after, hafter⟩ := Reaches.prefix_tokens hrest
    -- under the wider rules the lexeme has been read, so there was room for it
    have hread := Token.holds_calls_of_prefix ⟨after, hafter⟩ hgoes.holds_calls
    rw [hmeets.tokens_take, Token.holds_calls_append] at hread
    have hgoes' := hq.goes_start_iff.2 hread.1
    have hroom : q.HasRoom rules' stack := by
      rw [hmeets.hasRoom_iff, hq.admits_tokens.2]
      exact (Stack.holds_max.1 hread.2).1
    obtain ⟨htokens, hverdict⟩ := ofText_of_refused hgoes' hmeets (hroom.of_stricter h) hl
    rw [hmeets.tokens_take, List.append_assoc] at hafter
    refine ⟨q.tokens, _, after, hafter.symm, ?_, hverdict, htokens⟩
    rw [hq.balance_eq.1]
    exact hl

/-! ### The limit on groups -/

/-- What a higher limit on groups changes. If the groups found with it keep to the lower limit,
there is no difference. Otherwise a group that is one too deep is begun among the tokens found, and
with the lower limit a term is missing at the first such place; the tokens are those before it. So
the texts that are well formed with the lower limit are those that are so with the higher one and
keep to it. -/
theorem analysis_with_less_room (rules : Rules) (n : Nat) (t : Text) :
    (Token.NestedWithin rules.maxDepth (ofText (rules.deepen n) t).tokens →
      (ofText rules t).verdict = (ofText (rules.deepen n) t).verdict ∧
        (ofText rules t).tokens = (ofText (rules.deepen n) t).tokens) ∧
      (¬ Token.NestedWithin rules.maxDepth (ofText (rules.deepen n) t).tokens →
        ∃ before k after, (ofText (rules.deepen n) t).tokens = before ++ k :: after ∧
          k.kind = .opening ∧ Token.NestedWithin rules.maxDepth before ∧
          Token.balance before = rules.maxDepth ∧
          (ofText rules t).verdict = { status := .faulty .missingTerm, column := k.position } ∧
          (ofText rules t).tokens = before) ∧
      ((ofText rules t).isWellFormed ↔ (ofText (rules.deepen n) t).isWellFormed ∧
        Token.NestedWithin rules.maxDepth (ofText (rules.deepen n) t).tokens) := by
  have hkeeps := nestedWithin_tokens rules t
  rcases ofText_of_stricter (rules.stricter_deepen n) .unlimited t with
    ⟨hverdict, htokens⟩ | ⟨before, k, after, htokens, hk, hverdict, hbefore⟩
  · rw [htokens] at hkeeps
    refine ⟨fun _ => ⟨hverdict, htokens⟩, fun hdeep => absurd hkeeps hdeep, ?_⟩
    rw [isWellFormed, isWellFormed, hverdict]
    exact (and_iff_left hkeeps).symm
  · rw [hbefore] at hkeeps
    rcases hk with ⟨hkind, hdepth⟩ | ⟨hkind, hout⟩
    · have hdeep : ¬ Token.NestedWithin rules.maxDepth (ofText (rules.deepen n) t).tokens := by
        intro hall
        have hle := hall (before ++ [k]) ⟨after, by rw [htokens, List.append_assoc]; rfl⟩
        rw [Token.balance_concat, hkind, Lexeme.Kind.weight] at hle
        omega
      have hfault : k.refusal before = .missingTerm := by
        rw [Lexeme.refusal, hkind]
        exact if_neg fun h => absurd h.1 (by decide)
      rw [hfault] at hverdict
      refine ⟨fun hall => absurd hall hdeep, fun _ => ?_, ?_⟩
      · exact ⟨before, k, after, htokens, hkind, hkeeps,
          Int.le_antisymm (hkeeps before List.prefix_rfl) hdepth, hverdict, hbefore⟩
      · rw [isWellFormed, hverdict]
        exact iff_of_false Bool.false_ne_true fun h => hdeep h.2
    · -- the range is the same with the higher limit
      have hmem : k ∈ (ofText (rules.deepen n) t).tokens := by
        rw [htokens]
        exact List.mem_append_cons_self
      exact absurd (inRange_tokens _ _ _ k hmem hkind) hout

/-- Where one group is allowed, groups that follow one another make no difference, and the second of
two groups in one another is a missing term. -/
theorem analysis_with_room_for_one :
    ∃ rules, Rules.ofSettings { maxDepth := 1 } = .ok rules ∧
      (ofText rules "(1)+(2)".toList).verdict = { status := .wellFormed } ∧
      (ofText rules "1+((2))".toList).verdict.status = .faulty .missingTerm := by
  let rules : Rules := { Rules.standard with maxDepth := 1, maxDepth_pos := Nat.one_pos }
  have hsettings : Rules.ofSettings { maxDepth := 1 } = .ok rules := by decide +kernel
  have hwell : (ofText (rules.deepen 1) "(1)+(2)".toList).verdict = { status := .wellFormed } := by
    decide +kernel
  have hflat : Token.NestedWithin 1 (ofText (rules.deepen 1) "(1)+(2)".toList).tokens := by
    decide +kernel
  have hdeep : ¬ Token.NestedWithin 1 (ofText (rules.deepen 1) "1+((2))".toList).tokens := by
    decide +kernel
  obtain ⟨hsame, -, -⟩ := analysis_with_less_room rules 1 "(1)+(2)".toList
  obtain ⟨-, hmissing, -⟩ := analysis_with_less_room rules 1 "1+((2))".toList
  obtain ⟨before, k, after, -, -, -, -, hverdict, -⟩ := hmissing hdeep
  exact ⟨rules, hsettings, (hsame hflat).1.trans hwell, congrArg Verdict.status hverdict⟩

/-! ### The range of literals -/

/-- What a wider range changes, when the limit on groups is the same. If all literals found with it
are in the narrower range, there is no difference. Otherwise with the narrower range the first
literal that is not in it is at fault, and the tokens are those before it; the literal is reported
as out of range if those are opening parentheses only, and else as a missing term.
It is so with any room to read the text in. -/
theorem analysis_with_narrower_range (h : rules.Stricter rules')
    (hdepth : rules.maxDepth = rules'.maxDepth) (stack : Stack) (t : Text) :
    (Token.InRange rules (ofText rules' t .operator stack).tokens →
      (ofText rules t .operator stack).verdict = (ofText rules' t .operator stack).verdict ∧
        (ofText rules t .operator stack).tokens = (ofText rules' t .operator stack).tokens) ∧
      (¬ Token.InRange rules (ofText rules' t .operator stack).tokens →
        ∃ before k after, (ofText rules' t .operator stack).tokens = before ++ k :: after ∧
          k.kind = .operand ∧ ¬ rules.InRange (Literal.value k.value) ∧
          Token.InRange rules before ∧
          (ofText rules t .operator stack).verdict = {
            status := .faulty
              (if ∀ j ∈ before, j.kind = .opening then .outOfRange else .missingTerm)
            column := k.position } ∧
          (ofText rules t .operator stack).tokens = before) := by
  have hrange := inRange_tokens rules stack t
  rcases ofText_of_stricter h stack t with
    ⟨hverdict, htokens⟩ | ⟨before, k, after, htokens, hk, hverdict, hbefore⟩
  · rw [htokens] at hrange
    exact ⟨fun _ => ⟨hverdict, htokens⟩, fun hout => absurd hrange hout⟩
  · rw [hbefore] at hrange
    rcases hk with ⟨hkind, hdeep⟩ | ⟨hkind, hout⟩
    · -- the limit on groups is the same in the wider range
      rw [hdepth] at hdeep
      exact absurd (Or.inl ⟨hkind, hdeep⟩) (not_refused_of_tokens htokens)
    · have hmem : k ∈ (ofText rules' t .operator stack).tokens := by
        rw [htokens]
        exact List.mem_append_cons_self
      have hfault : k.refusal before =
          if ∀ j ∈ before, j.kind = .opening then .outOfRange else .missingTerm := by
        simp only [Lexeme.refusal, hkind, true_and]
      rw [hfault] at hverdict
      refine ⟨fun hall => absurd (hall k hmem hkind) hout, fun _ => ?_⟩
      exact ⟨before, k, after, htokens, hkind, hout, hrange, hverdict, hbefore⟩

/-- A literal of two digits is out of a range of single digits: in parentheses it is reported as
such, and after an operator as a missing term. -/
theorem analysis_with_single_digits :
    ∃ rules, Rules.ofSettings { least := 0, greatest := 9 } = .ok rules ∧
      rules.Stricter .standard ∧
      (ofText rules "((10))".toList).verdict = { status := .faulty .outOfRange, column := 2 } ∧
      (ofText rules "1+10".toList).verdict = { status := .faulty .missingTerm, column := 2 } := by
  let rules : Rules := {
    least := 0
    greatest := 9
    maxDepth := 200
    least_le_greatest := by decide
    maxDepth_pos := by decide
    bounds_lt_ceiling := by decide +kernel }
  have hsettings : Rules.ofSettings { least := 0, greatest := 9 } = .ok rules := by decide +kernel
  have hstricter : rules.Stricter .standard := ⟨by decide, by decide, Nat.le_refl _⟩
  -- the only literal that is not in range stands at this column
  have hplace {t : Text} (ht : ∀ k ∈ (ofText .standard t).tokens, k.kind = .operand →
        ¬ rules.InRange (Literal.value k.value) → k.position = 2)
      (hout : ¬ Token.InRange rules (ofText .standard t).tokens) :
      (ofText rules t).verdict = {
        status := .faulty
          (if ∀ j ∈ (ofText rules t).tokens, j.kind = .opening then .outOfRange
            else .missingTerm)
        column := 2 } := by
    obtain ⟨before, k, after, htokens, hkind, hrange, -, hverdict, hbefore⟩ :=
      (analysis_with_narrower_range hstricter rfl .unlimited t).2 hout
    have hmem : k ∈ (ofText .standard t).tokens := by
      rw [htokens]
      exact List.mem_append_cons_self
    rw [hverdict, hbefore, ht k hmem hkind hrange]
  have hgroup := hplace (t := "((10))".toList) (by decide +kernel) (by decide +kernel)
  have hchain := hplace (t := "1+10".toList) (by decide +kernel) (by decide +kernel)
  refine ⟨rules, hsettings, hstricter, ?_, ?_⟩
  · rw [hgroup]
    decide +kernel
  · rw [hchain]
    decide +kernel

end Analysis

end ArithSyntax
