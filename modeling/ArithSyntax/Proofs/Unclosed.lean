import ArithSyntax.Proofs.Group

/-!
# Groups that are not closed

A parenthesis is reported as missing only if nothing but opening parentheses stands before the
expression in the innermost open group: behind an operator the group would be a term of it, and that
term would be missing. So up to the column of the fault the text consists of blanks and opening
parentheses, as many as are missing, and of an expression (`Unclosed`).

Every open group was begun at some place of the run, and what has been read in it since is told by
the tokens (`Reaches.exists_opened`). Conversely opening parentheses and an expression are read in
front of anything that no literal goes on with (`Reading.exists_reaches_openings`,
`exists_reaches_behind_openings`); that so many groups are allowed in the expression is known from
the text with the parentheses supplied.
-/

namespace ArithSyntax

open Reading

/-! ### Where a group was begun -/

namespace Reading

variable {rules : Rules} {q r m : Reading} {t u v w p rest : Text} {l : Lexeme} {ks : List Token}
  {n n' : Nat}

/-- At `q` the text began, or a group that is still open at `r`, and the tokens `ks` have been read
since. Of the groups that are open at `r` as many as `n` are among them. -/
structure Opened (rules : Rules) (t : Text) (n : Nat) (r q : Reading) (ks : List Token) :
    Prop where
  /-- The place is one of the run. -/
  before : Reaches rules (start t) q
  /-- The run goes on from there. -/
  after : Reaches rules q r
  /-- Nothing had been read in the group. -/
  situation_eq : q.situation = { around := r.situation.around.drop n }
  /-- These tokens have been read in it. -/
  tokens_eq : r.tokens = q.tokens ++ ks
  /-- The group has not been closed. -/
  nonneg : ∀ js, js <+: ks → 0 ≤ Token.balance js
  /-- So many groups are open in it. -/
  balance_eq : Token.balance ks = n

/-- Where nothing has been read in a group, it has just been opened. -/
theorem opened_self (h : Reaches rules (start t) r)
    (hsituation : r.situation = { around := r.situation.around }) : Opened rules t 0 r r [] where
  before := h
  after := .refl
  situation_eq := hsituation
  tokens_eq := (List.append_nil _).symm
  nonneg := by
    intro js hjs
    rw [List.prefix_nil.1 hjs]
    exact Int.le_refl 0
  balance_eq := rfl

/-- A group stays open unless it is closed. -/
theorem Opened.take (h : Opened rules t n r q ks) (hmeets : r.Meets rules w l rest)
    (hweight : n + l.kind.weight = n')
    (haround : (r.situation.next l.kind).around.drop n' = r.situation.around.drop n) :
    Opened rules t n' (r.skipBlanks.take l.kind l.value.length) q
      (ks ++ [⟨l, (r.cursor.position + w.length : Nat)⟩]) where
  before := h.before
  after := h.after.tail hmeets.step
  situation_eq := by
    rw [situation_take, situation_skipBlanks, haround]
    exact h.situation_eq
  tokens_eq := by rw [hmeets.tokens_take, h.tokens_eq, List.append_assoc]
  nonneg := by
    intro js hjs
    rcases List.prefix_concat_iff.1 hjs with rfl | hjs
    · rw [Token.balance_concat, h.balance_eq, hweight]
      exact Int.natCast_nonneg n'
    · exact h.nonneg js hjs
  balance_eq := by rw [Token.balance_concat, h.balance_eq, hweight]

/-- Every open group was opened somewhere. -/
theorem Reaches.exists_opened (h : Reaches rules (start t) r) (hn : n ≤ r.situation.depth) :
    ∃ q ks, Opened rules t n r q ks := by
  induction h generalizing n with
  | refl =>
    obtain rfl : n = 0 := Nat.le_zero.1 hn
    exact ⟨start t, [], opened_self .refl rfl⟩
  | @tail r s hreach hstep ih =>
    obtain ⟨w, l, rest, hmeets, rfl⟩ := hstep.exists_meets
    cases hmeets.fits with
    | operator | operand =>
      obtain ⟨q, ks, hopened⟩ := ih hn
      exact ⟨q, _, hopened.take hmeets (Int.add_zero _) rfl⟩
    | opening =>
      cases n with
      | zero => exact ⟨_, [], opened_self (hreach.tail hstep) rfl⟩
      | succ n =>
        obtain ⟨q, ks, hopened⟩ := ih (Nat.le_of_succ_le_succ hn)
        exact ⟨q, _, hopened.take hmeets rfl rfl⟩
    | closing _ hdepth =>
      have hnext := r.situation.depth_next .closing fun _ => hdepth
      rw [Lexeme.Kind.weight] at hnext
      change n ≤ (r.situation.next .closing).depth at hn
      obtain ⟨q, ks, hopened⟩ := ih (n := n + 1) (by omega)
      refine ⟨q, _, hopened.take hmeets ?_ List.drop_tail⟩
      rw [Lexeme.Kind.weight]
      omega

end Reading

/-! ### Opening parentheses -/

namespace Token

variable {ks : List Token} {p : Text} {start : Nat}

/-- The opening parentheses in a text that begins at the column `start`. -/
def openings : Text → (start : Nat) → List Token
  | [], _ => []
  | c :: p, start =>
    if c = '(' then
      { value := ['('], kind := .opening, position := start } :: openings p (start + 1)
    else openings p (start + 1)

/-- A parenthesis that comes first is the first token. -/
theorem openings_cons_opening (p : Text) (start : Nat) :
    openings ('(' :: p) start =
      { value := ['('], kind := .opening, position := start } :: openings p (start + 1) :=
  if_pos rfl

/-- Any other character that comes first is no token. -/
theorem openings_cons_of_ne {c : Char} (h : c ≠ '(') (p : Text) (start : Nat) :
    openings (c :: p) start = openings p (start + 1) :=
  if_neg h

/-- The tokens are opening parentheses, all of them. -/
theorem kind_of_mem_openings (p : Text) (start : Nat) :
    ∀ k ∈ openings p start, k.kind = .opening := by
  induction p generalizing start with
  | nil => exact fun _ h => nomatch h
  | cons c p ih =>
    by_cases hc : c = '('
    · subst hc
      rw [openings_cons_opening]
      exact List.forall_mem_cons.2 ⟨rfl, ih _⟩
    · rw [openings_cons_of_ne hc]
      exact ih _

/-- There is a token for each opening parenthesis. -/
theorem length_openings (p : Text) (start : Nat) : (openings p start).length = p.count '(' := by
  induction p generalizing start with
  | nil => rfl
  | cons c p ih =>
    by_cases hc : c = '('
    · subst hc
      rw [openings_cons_opening, List.length_cons, ih, List.count_cons_self]
    · rw [openings_cons_of_ne hc, ih, List.count_cons_of_ne hc]

/-- Opening parentheses alone are all left open. -/
theorem balance_eq_length (h : ∀ k ∈ ks, k.kind = .opening) : balance ks = ks.length := by
  induction ks with
  | nil => rfl
  | cons k ks ih =>
    obtain ⟨hk, hks⟩ := List.forall_mem_cons.1 h
    rw [balance_cons, hk, ih hks, List.length_cons, Lexeme.Kind.weight]
    omega

end Token

/-- The text consists of blanks and opening parentheses. -/
def Text.Opens (p : Text) : Prop := ∀ c ∈ p, (Symbol.ofChar c).isBlank ∨ c = '('

instance (p : Text) : Decidable p.Opens :=
  List.decidableBAll (fun c => (Symbol.ofChar c).isBlank ∨ c = '(') p

/-- There are no parentheses among blanks. -/
theorem Text.count_opening_of_blank {w : Text} (hw : w.Blank) : w.count '(' = 0 :=
  List.count_eq_zero_of_not_mem fun h => absurd (hw _ h) (by decide)

namespace Reading

variable {rules : Rules} {r m : Reading} {t v p rest : Text}

/-- Blanks and opening parentheses are read where a term is wanted and the rules allow so many
groups. -/
theorem exists_reaches_openings (hp : p.Opens) (hv : v.Blank) (hterm : m.situation.wantsTerm)
    (hroom : m.situation.depth + p.count '(' ≤ rules.maxDepth)
    (hahead : m.cursor.ahead = v ++ (p ++ rest)) :
    ∃ q w, Reaches rules m q ∧ q.situation.wantsTerm ∧ w.Blank ∧ q.cursor.ahead = w ++ rest ∧
      q.tokens = m.tokens ++ Token.openings p (m.cursor.position + v.length) := by
  -- the blanks before the next parenthesis are gathered in `v`
  induction p generalizing m v with
  | nil => exact ⟨m, v, .refl, hterm, hv, hahead, (List.append_nil _).symm⟩
  | cons c p ih =>
    obtain ⟨hc, hrest⟩ := List.forall_mem_cons.1 hp
    by_cases hopening : c = '('
    · subst hopening
      rw [List.count_cons_self] at hroom
      have hmeets : m.Meets rules v ⟨['('], .opening⟩ (p ++ rest) :=
        ⟨hv, .opening hterm (by omega), hahead, nofun⟩
      obtain ⟨m', hrecords, hahead'⟩ := hmeets.exists_records
      have hterm' : m'.situation.wantsTerm := by
        rw [hrecords.situation_eq]
        rfl
      have hroom' : m'.situation.depth + p.count '(' ≤ rules.maxDepth := by
        rw [hrecords.situation_eq]
        change m.situation.depth + 1 + p.count '(' ≤ rules.maxDepth
        omega
      obtain ⟨q, w, hq, hqterm, hw, hqahead, htokens⟩ :=
        ih hrest Text.blank_nil hterm' hroom' hahead'
      refine ⟨q, w, hq.head hrecords.step, hqterm, hw, hqahead, ?_⟩
      rw [htokens, hrecords.tokens_eq, hrecords.passes.position_eq, Token.openings_cons_opening,
        List.append_assoc, List.length_append]
      rfl
    · have hblank : (Symbol.ofChar c).isBlank := hc.resolve_right hopening
      rw [List.count_cons_of_ne hopening] at hroom
      have hvc : Text.Blank (v ++ [c]) :=
        Text.blank_append.2 ⟨hv, fun d hd => List.mem_singleton.1 hd ▸ hblank⟩
      obtain ⟨q, w, hq, hqterm, hw, hqahead, htokens⟩ :=
        ih hrest hvc hterm hroom (by rw [hahead, List.append_assoc]; rfl)
      refine ⟨q, w, hq, hqterm, hw, hqahead, ?_⟩
      rw [htokens, Token.openings_cons_of_ne hopening, List.length_append]
      rfl

/-- If nothing but opening parentheses has been read, nothing else but blanks has been passed. -/
theorem Reaches.opens_behind (h : Reaches rules (start t) r)
    (hall : ∀ k ∈ r.tokens, k.kind = .opening) :
    Text.Opens r.cursor.behind.reverse ∧ r.cursor.behind.reverse.count '(' = r.tokens.length := by
  induction h with
  | refl => exact ⟨nofun, rfl⟩
  | tail _ hstep ih =>
    obtain ⟨w, l, rest, hmeets, rfl⟩ := hstep.exists_meets
    rw [hmeets.tokens_take] at hall ⊢
    obtain ⟨hbefore, hl⟩ := List.forall_mem_append.1 hall
    obtain ⟨hopens, hcount⟩ := ih hbefore
    have hvalue := hmeets.fits.value_of_opening (hl _ List.mem_cons_self)
    rw [hmeets.passes.behind_eq, hvalue, List.reverse_append, List.reverse_reverse]
    constructor
    · intro c hc
      rcases List.mem_append.1 hc with hc | hc
      · exact hopens c hc
      rcases List.mem_append.1 hc with hc | hc
      · exact Or.inl (hmeets.blank c hc)
      · exact Or.inr (List.mem_singleton.1 hc)
    · rw [List.count_append, List.count_append, hcount, Text.count_opening_of_blank hmeets.blank,
        List.length_append]
      rfl

end Reading

namespace Analysis

variable {rules rules' : Rules} {stack : Stack} {q r : Reading} {t u e p w z : Text} {c k : Nat}

/-! ### Opening parentheses and an expression -/

/-- Blanks before an expression move its tokens. -/
theorem isWellFormed_blank_append (hw : w.Blank) (h : (ofText rules e).isWellFormed) :
    (ofText rules (w ++ e)).isWellFormed ∧
      (ofText rules (w ++ e)).tokens = (ofText rules e).tokens.map (Token.shift · w.length) := by
  obtain ⟨ls, v, rfl, hspaced, hv, hcompose, htokens⟩ := exists_layout_of_isWellFormed h
  have hne : ls ≠ [] := by
    rintro rfl
    exact hcompose.not_wantsTerm rfl
  have hindented : Lexeme.Compose rules (ls.indent w).lexemes := by
    rwa [Layout.lexemes_indent]
  obtain ⟨hwell, htokens'⟩ := isWellFormed_layout hindented (Layout.spaced_indent hw hspaced) hv
  rw [Layout.text_indent w hne, List.append_assoc] at hwell htokens'
  refine ⟨hwell, ?_⟩
  rw [htokens', htokens, Layout.tokens_indent, Layout.tokens_add]

/-- What has been read under other rules is read under these, if it is how the tokens of an analysis
under these begin. -/
theorem reaches_of_prefix_tokens (h : Reaches rules' (start t) r)
    (htokens : r.tokens <+: (ofText rules u).tokens) : Reaches rules (start t) r := by
  rcases h.reaches_or_refused rules with hsame | ⟨q, w, l, rest, hq, hmeets, hl, hrest⟩
  · exact hsame
  · have hprefix := (Reaches.prefix_tokens hrest).trans htokens
    rw [hmeets.tokens_take] at hprefix
    obtain ⟨after, hafter⟩ := hprefix
    rw [List.append_assoc] at hafter
    have hadmitted := not_refused_of_tokens hafter.symm
    rw [hq.balance_eq.1] at hadmitted
    exact absurd hl hadmitted

/-- An empty text is no expression. -/
theorem ne_nil_of_isWellFormed (h : (ofText rules e).isWellFormed) : e ≠ [] := by
  rintro rfl
  cases h

/-- A literal at the end of an expression ends with the expression. -/
theorem settled_of_getLast? (he : e ≠ []) (hreach : Reaches rules (start (w ++ e)) r)
    (hz : (∃ y ∈ e.getLast?, Literal.isDigit y) → z.NoDigitFirst) : r.Settled [] z := by
  intro k hk hkind hend
  have hbehind := hreach.eq_append
  rw [hend, List.append_nil] at hbehind
  obtain ⟨y, hy⟩ := Option.ne_none_iff_exists'.1 (mt List.getLast?_eq_none_iff.1 he)
  have hlast : r.cursor.behind.head? = some y := by
    rw [← List.getLast?_reverse, ← hbehind, List.getLast?_append, hy]
    rfl
  have hk' : r.tokens.getLast? = some k := List.getLast?_reverse.trans hk
  exact hz ⟨y, hy, (hreach.isDigit_behind_iff hlast).2 ⟨k, hk', hkind⟩⟩

/-- Opening parentheses and an expression in them are read, if the rules allow so many groups more
and no literal goes on behind them. -/
theorem exists_reaches_behind_openings (hp : p.Opens) (he : (ofText rules e).isWellFormed)
    (hz : (∃ y ∈ e.getLast?, Literal.isDigit y) → z.NoDigitFirst) :
    ∃ r v, Reaches (rules.deepen (p.count '(')) (start (p ++ (e ++ z))) r ∧
      r.tokens = Token.openings p 0 ++ (ofText rules e).tokens.map (Token.shift · p.length) ∧
      ¬ r.situation.wantsTerm ∧ r.situation.depth = p.count '(' ∧
      r.situation.around.any id = false ∧ v.Blank ∧ r.cursor.ahead = v ++ z := by
  have hroom : (start (p ++ (e ++ z))).situation.depth + p.count '(' ≤
      (rules.deepen (p.count '(')).maxDepth := by
    change 0 + p.count '(' ≤ rules.maxDepth + p.count '('
    omega
  obtain ⟨base, w, hbase, hterm, hw, hahead, htokens⟩ :=
    exists_reaches_openings hp Text.blank_nil rfl hroom rfl
  change base.tokens = Token.openings p 0 at htokens
  have hopenings : ∀ k ∈ base.tokens, k.kind = .opening := by
    rw [htokens]
    exact Token.kind_of_mem_openings p 0
  have hdepth : base.situation.depth = p.count '(' := by
    have hbalance := hbase.balance_eq.1
    rw [Token.balance_eq_length hopenings, htokens, Token.length_openings] at hbalance
    exact (Int.ofNat.inj hbalance).symm
  have hposition : w.length + base.cursor.position = p.length := by
    have hlength := base.cursor.length_text
    rw [hbase.text_eq, hahead] at hlength
    change (p ++ (e ++ z)).length = _ at hlength
    simp only [List.length_append] at hlength
    omega
  -- blanks at the end of the openings are read with the expression
  obtain ⟨hwell, hmoved⟩ := isWellFormed_blank_append hw he
  obtain ⟨r, hreach, hstop, hr⟩ := exists_run_of_isWellFormed hwell
  have hblank := hstop.blank_ahead
  have hsettled := settled_of_getLast? (ne_nil_of_isWellFormed he) hreach hz
  rw [← List.append_assoc] at hahead
  obtain ⟨r', hreach', hwithin, hahead'⟩ := exists_within_of_append hterm hahead hreach hsettled
  rw [hdepth] at hreach'
  cases hstop with
  | complete hended hdepth₀ _ =>
    refine ⟨r', r.cursor.ahead, hbase.trans hreach', ?_, ?_, ?_, ?_, hblank, hahead'⟩
    · rw [hwithin.tokens_eq, htokens, ← hr, hmoved, Token.map_shift_map_shift, ← Int.natCast_add,
        hposition]
    · rw [hwithin.inside.wantsTerm_eq]
      exact hended
    · rw [hwithin.inside.depth_eq, hdepth₀, hdepth, Nat.zero_add]
    · rw [hwithin.inside.around_eq hdepth₀]
      have hnone := any_levels_after_eq_false fun k hk => hopenings k (List.mem_reverse.2 hk)
      exact (Bool.or_eq_false_iff.1 hnone).2

/-! ### Unclosed groups -/

/-- At the column `c` as many as `k` groups are not closed. Up to there the text consists of blanks
and `k` opening parentheses, the text `p`, and of an expression `e`; with `k` closing parentheses
behind it, it is an expression itself. What comes next does not go on with the expression. -/
structure Unclosed (rules : Rules) (stack : Stack) (t : Text) (c k : Nat) (p e : Text) :
    Prop where
  /-- A group is open. -/
  pos : 0 < k
  /-- The text up to the column has two parts. -/
  take_eq : t.take c = p ++ e
  /-- The first part consists of blanks and opening parentheses. -/
  opens : p.Opens
  /-- There are so many of these. -/
  count_eq : p.count '(' = k
  /-- The second part is an expression. -/
  inside : (ofText rules e .operator stack).isWellFormed
  /-- Nothing else is missing. -/
  closed : (ofText rules (t.take c ++ List.replicate k ')') .operator stack).isWellFormed
  /-- The text ends at the column, or neither a blank, an operator or a closing parenthesis stands
  there nor a digit directly after a digit. -/
  ends : c = t.length ∨ ∃ x, t[c]? = some x ∧ ¬ (Symbol.ofChar x).isBlank ∧
    ¬ (Symbol.ofChar x).isOperator ∧ x ≠ ')' ∧
    ¬ (Literal.isDigit x ∧ ∃ y ∈ (t.take c).getLast?, Literal.isDigit y)

/-- What comes next in a text with unclosed groups. -/
theorem Unclosed.next (h : Unclosed rules stack t c k p e) :
    c ≤ t.length ∧ ∀ x ∈ (t.drop c).head?, ¬ (Symbol.ofChar x).isBlank ∧
      ¬ (Symbol.ofChar x).isOperator ∧ x ≠ ')' ∧
      ¬ (Literal.isDigit x ∧ ∃ y ∈ (t.take c).getLast?, Literal.isDigit y) := by
  rcases h.ends with rfl | ⟨x, hx, hends⟩
  · refine ⟨Nat.le_refl _, ?_⟩
    rw [List.drop_length]
    exact fun _ h => nomatch h
  · obtain ⟨hlt, -⟩ := List.getElem?_eq_some_iff.1 hx
    refine ⟨Nat.le_of_lt hlt, ?_⟩
    rw [List.head?_drop, hx]
    intro y hy
    obtain rfl := Option.some.inj hy
    exact hends

/-- The opening parentheses and the expression are read, and nothing else. -/
theorem Unclosed.exists_goes (h : Unclosed rules stack t c k p e) :
    ∃ r v, Goes rules stack (start t) r ∧
      r.tokens = Token.openings p 0 ++
        (ofText rules e .operator stack).tokens.map (Token.shift · p.length) ∧
      ¬ r.situation.wantsTerm ∧ r.situation.depth = k ∧ r.situation.around.any id = false ∧
      v.Blank ∧ r.cursor.ahead = v ++ t.drop c := by
  obtain ⟨-, hnext⟩ := h.next
  obtain ⟨hinside, -⟩ := isWellFormed_on_iff.1 h.inside
  obtain ⟨hclosed, hcalls⟩ := isWellFormed_on_iff.1 h.closed
  rw [ofText_eq_of_isWellFormed h.inside]
  have ht : p ++ (e ++ t.drop c) = t := by
    rw [← List.append_assoc, ← h.take_eq, List.take_append_drop]
  have hu : p ++ (e ++ List.replicate k ')') = t.take c ++ List.replicate k ')' := by
    rw [h.take_eq, List.append_assoc]
  have hdigit : (∃ y ∈ e.getLast?, Literal.isDigit y) → Text.NoDigitFirst (t.drop c) := by
    rintro ⟨y, hy, hydigit⟩ x hx
    rw [← Bool.not_eq_true]
    intro hxdigit
    refine (hnext x hx).2.2.2 ⟨hxdigit, y, ?_, hydigit⟩
    rw [h.take_eq, List.getLast?_append, hy]
    rfl
  have hclosing : Text.NoDigitFirst (List.replicate k ')') := by
    cases k with
    | zero => exact Text.firstNot_nil
    | succ k => exact Text.firstNot_cons.2 rfl
  obtain ⟨r, v, hreach, htokens, hended, hdepth, haround, hv, hahead⟩ :=
    exists_reaches_behind_openings h.opens hinside hdigit
  obtain ⟨r', -, hreach', htokens', -⟩ :=
    exists_reaches_behind_openings h.opens hinside fun _ => hclosing
  rw [ht] at hreach
  rw [hu] at hreach'
  -- with the parentheses supplied so many groups are allowed, and the tokens are the same
  have hsame : (ofText rules (t.take c ++ List.replicate k ')')).tokens =
      (ofText (rules.deepen (p.count '(')) (t.take c ++ List.replicate k ')')).tokens := by
    rcases ofText_of_stricter (rules.stricter_deepen (p.count '(')) .unlimited _ with
      ⟨-, hsame⟩ | ⟨_, _, _, -, -, hfault, -⟩
    · exact hsame
    · have hwell := isWellFormed_iff_verdict_eq.1 hclosed
      rw [hfault] at hwell
      cases hwell
  have hprefix : r.tokens <+: (ofText rules (t.take c ++ List.replicate k ')')).tokens := by
    rw [htokens, ← htokens', hsame]
    exact tokens_prefix_ofText hreach'
  have hgoes := (reaches_of_prefix_tokens hreach hprefix).goes_start_iff.2
    (Token.holds_calls_of_prefix hprefix hcalls)
  exact ⟨r, v, hgoes, htokens, hended, hdepth.trans h.count_eq, haround, hv, hahead⟩

/-- Groups that are not closed are reported. -/
theorem Unclosed.ofText_eq (h : Unclosed rules stack t c k p e) :
    (ofText rules t .operator stack).verdict =
        { status := .faulty .missingClosing, column := c } ∧
      (ofText rules t .operator stack).tokens = Token.openings p 0 ++
        (ofText rules e .operator stack).tokens.map (Token.shift · p.length) := by
  obtain ⟨hle, hnext⟩ := h.next
  obtain ⟨r, v, hgoes, htokens, hended, hdepth, haround, hv, hahead⟩ := h.exists_goes
  have hblank : Text.NoBlankFirst (t.drop c) := by
    intro x hx
    exact Bool.eq_false_iff.2 (hnext x hx).1
  have hskip : r.skipBlanks.cursor.ahead = t.drop c :=
    Cursor.ahead_skipBlanks_of_append hv hblank hahead
  have hposition := hgoes.reaches.position_of_drop hle hskip
  have hhalts : Halts rules stack r (.error (r.skipBlanks.reject .missingClosing)) := by
    refine .stops (hasRoom_of_not_wantsTerm hended) (.unclosed hended (hdepth ▸ h.pos) ?_ ?_)
    · intro hoperator
      obtain ⟨x, u, hx, hxoperator⟩ := Cursor.nextSatisfies_iff.1 hoperator
      rw [hskip] at hx
      exact (hnext x (by rw [hx]; rfl)).2.1 hxoperator
    · intro hclosing
      obtain ⟨x, u, hx, hxclosing⟩ := Cursor.nextIs_iff.1 hclosing
      rw [hskip] at hx
      exact (hnext x (by rw [hx]; rfl)).2.2.1 (Symbol.ofChar_eq_closing_iff.1 hxclosing)
  refine ⟨?_, (tokens_of_halts hgoes hhalts).trans htokens⟩
  rw [verdict_of_halts hgoes hhalts,
    if_neg (by rw [reject, Situation.blames, haround]; decide), reject, hposition]

/-- Behind an expression all open groups can be closed. -/
theorem isWellFormed_closings (hgoes : Goes rules stack (start t) r)
    (hended : ¬ r.situation.wantsTerm) (hdepth : 0 < r.situation.depth) (hw : w.Blank) :
    (ofText rules (r.cursor.behind.reverse ++ w ++
      List.replicate r.situation.depth ')') .operator stack).isWellFormed := by
  have hreach := hgoes.reaches
  -- what has been read is laid out, and the parentheses that complete it are put behind it
  obtain ⟨ls, hspaced, hadmits, htext, -, htokens⟩ := hreach.exists_layout_of_start
  have hbehind : r.cursor.behind.reverse = ls.text :=
    List.append_cancel_right (hreach.eq_append.symm.trans htext)
  have hcompletes := Situation.completes_closings rules hended
  rw [situation_eq_run htokens] at hcompletes
  have hcompose : Lexeme.Compose rules
      (Layout.lexemes (ls ++ (Layout.dense r.situation.closings).indent w)) := by
    rw [Layout.lexemes_append, Layout.lexemes_indent, Layout.lexemes_dense,
      situation_eq_run htokens]
    exact hcompletes.compose hadmits
  have hspaced' := Layout.spaced_append hspaced
    (Layout.spaced_indent hw (Layout.spaced_dense r.situation.closings))
  have hne : Layout.dense r.situation.closings ≠ [] := by
    rw [Layout.dense, Situation.closings, List.map_replicate]
    exact List.ne_nil_of_length_pos (by rwa [List.length_replicate])
  have hroom : stack.holds (({} : Situation).calls
      (Layout.lexemes (ls ++ (Layout.dense r.situation.closings).indent w))) := by
    rw [Layout.lexemes_append, Layout.lexemes_indent, Layout.lexemes_dense,
      Situation.calls_append, Situation.calls_eq_zero r.situation.kind_of_mem_closings,
      Nat.max_zero, ← Layout.toLexeme_tokens, ← htokens]
    exact hgoes.holds_calls
  obtain ⟨hwell, -⟩ := isWellFormed_layout_on hcompose hspaced' Text.blank_nil hroom
  rw [Layout.text_append, Layout.text_indent w hne, Layout.text_dense, Situation.closings,
    List.map_replicate, List.flatten_replicate_singleton, List.append_nil, ← List.append_assoc,
    ← hbehind] at hwell
  exact hwell

/-- Where a group is not closed the innermost one holds an expression, and only opening parentheses
stand before this if no operator is blamed. -/
theorem exists_openings_of_around (hgoes : Goes rules stack (start t) r)
    (hended : ¬ r.situation.wantsTerm) (haround : r.situation.around.any id = false)
    (hw : w.Blank) :
    ∃ p e : Text, r.cursor.behind.reverse ++ w = p ++ e ∧ p.Opens ∧
      p.count '(' = r.situation.depth ∧ (ofText rules e .operator stack).isWellFormed := by
  obtain ⟨q, ks, hopened⟩ := hgoes.reaches.exists_opened (Nat.zero_le _)
  have hsituation := hopened.situation_eq
  have hterm : q.situation.wantsTerm := by rw [hsituation]
  -- a term that ended before the innermost group has an operator behind it
  have hall : ∀ k ∈ q.tokens, k.kind = .opening := by
    by_contra hother
    simp only [not_forall] at hother
    obtain ⟨k, hk, hne⟩ := hother
    have hany := hopened.before.any_levels_of_wantsTerm hterm ⟨k, hk, hne⟩
    rw [hsituation] at hany
    exact absurd (haround.symm.trans hany) Bool.false_ne_true
  obtain ⟨ls, hspaced, hcompose, hpasses, hks, hsame⟩ := hopened.before.exists_compose
    hopened.after hterm hended hopened.tokens_eq ⟨hopened.nonneg, hopened.balance_eq⟩
  obtain ⟨hopens, hcount⟩ := hopened.before.opens_behind hall
  have hcalls : stack.holds (({} : Situation).calls ls.lexemes) := by
    have hadmits : ({} : Situation).Admits rules ((ls.tokens 0).map Token.toLexeme) := by
      rw [Layout.toLexeme_tokens]
      exact hcompose.admits
    have hread := hgoes.holds_calls
    rw [hopened.tokens_eq, hks] at hread
    rw [← Layout.toLexeme_tokens ls 0]
    exact Token.holds_calls_of_append hadmits hread
  refine ⟨q.cursor.behind.reverse, ls.text ++ w, ?_, hopens, ?_,
    (isWellFormed_layout_on hcompose hspaced hw hcalls).1⟩
  · rw [hpasses.behind_eq, List.reverse_append, List.reverse_reverse, List.append_assoc]
  · have hbalance := hopened.before.balance_eq.1
    rw [Token.balance_eq_length hall, ← hcount] at hbalance
    rw [Int.ofNat.inj hbalance, Situation.depth, Situation.depth, hsame]

/-- Behind what has been read and some blanks no digit comes directly after a digit. -/
theorem not_digit_of_ahead (hreach : Reaches rules (start t) r) (hw : w.Blank)
    (hahead : r.cursor.ahead = w ++ z) :
    ∀ x ∈ z.head?,
      ¬ (Literal.isDigit x ∧
        ∃ y ∈ (r.cursor.behind.reverse ++ w).getLast?, Literal.isDigit y) := by
  rintro x hx ⟨hxdigit, y, hy, hydigit⟩
  cases w using List.reverseRecOn with
  | nil =>
    rw [List.append_nil, List.getLast?_reverse] at hy
    have hfirst := hreach.noDigitFirst_ahead ((hreach.isDigit_behind_iff hy).1 hydigit)
    rw [hahead] at hfirst
    exact absurd hxdigit (Bool.eq_false_iff.1 (hfirst x hx))
  | append_singleton w c =>
    rw [← List.append_assoc, List.getLast?_concat] at hy
    obtain rfl := Option.some.inj hy
    have hblank := hw c List.mem_concat_self
    rw [Symbol.isBlank_eq_false_of_isDigit hydigit] at hblank
    exact absurd hblank Bool.false_ne_true

/-- Where a parenthesis is reported as missing, groups are not closed. -/
theorem exists_unclosed
    (h : (ofText rules t .operator stack).verdict =
      { status := .faulty .missingClosing, column := c }) :
    ∃ k p e, Unclosed rules stack t c k p e := by
  obtain ⟨h, hcalls⟩ := (verdict_on_iff (Or.inr rfl)).1 h
  obtain ⟨r, f, hreach, hstop, rfl, hf⟩ := exists_run_of_faulty h
  rw [tokens_ofText hreach hstop] at hcalls
  have hgoes := hreach.goes_start_iff.2 hcalls
  -- a fault that is blamed would be reported as a missing term
  have hblames : r.situation.blames f.fault = false := by
    by_contra hblames
    rw [if_pos (Bool.not_eq_false _ ▸ hblames)] at hf
    cases hf
  rw [if_neg (Bool.eq_false_iff.1 hblames)] at hf
  cases hstop with
  | unclosed hended hdepth hoperator hclosing =>
    have haround : r.situation.around.any id = false := hblames
    change ∃ k p e, Unclosed rules stack t r.skipBlanks.cursor.position k p e
    obtain ⟨w, hw, hpasses⟩ := r.exists_passes_skipBlanks
    have htake := hreach.take_skipBlanks hpasses
    obtain ⟨p, e, hsplit, hopens, hcount, hwell⟩ :=
      exists_openings_of_around hgoes hended haround hw
    refine ⟨_, p, e, hdepth, htake.trans hsplit, hopens, hcount, hwell, ?_, ?_⟩
    · rw [htake]
      exact isWellFormed_closings hgoes hended hdepth hw
    · rw [htake]
      by_cases hend : r.skipBlanks.cursor.atEnd
      · exact Or.inl (hreach.position_of_atEnd hend)
      · obtain ⟨x, u, hx⟩ := List.exists_cons_of_ne_nil (mt Cursor.atEnd_iff_ahead.2 hend)
        have hhead : r.skipBlanks.cursor.ahead.head? = some x := congrArg List.head? hx
        refine Or.inr ⟨x, ?_, ?_, ?_, ?_, not_digit_of_ahead hreach hw hpasses.ahead_eq x hhead⟩
        · rw [hreach.getElem?_skipBlanks, hhead]
        · exact Bool.eq_false_iff.1 (r.cursor.noBlankFirst_ahead_skipBlanks x hhead)
        · exact fun hx' => hoperator (Cursor.nextSatisfies_iff.2 ⟨x, u, hx, hx'⟩)
        · rintro rfl
          exact hclosing (Cursor.nextIs_iff.2 ⟨_, u, hx, rfl⟩)
  | _ => cases hf

/-- A closing parenthesis is reported as missing at a column exactly if groups are not closed there:
the text up to it consists of opening parentheses and an expression, as many closing ones make an
expression of it, and what comes next does not go on with it. The tokens are then the opening
parentheses and those of the expression at its place. It is so with any room to read them in. -/
theorem missingClosing_iff_unclosed (rules : Rules) (stack : Stack) (t : Text) (c : Nat) :
    ((ofText rules t .operator stack).verdict =
          { status := .faulty .missingClosing, column := c } ↔
        ∃ k p e, Unclosed rules stack t c k p e) ∧
      ∀ k p e, Unclosed rules stack t c k p e →
        (ofText rules t .operator stack).tokens = Token.openings p 0 ++
          (ofText rules e .operator stack).tokens.map (Token.shift · p.length) := by
  refine ⟨⟨exists_unclosed, ?_⟩, ?_⟩
  · rintro ⟨k, p, e, h⟩
    exact h.ofText_eq.1
  · intro k p e h
    exact h.ofText_eq.2

/-- A digit behind a group does not go on with it, so the group around it is not closed. -/
theorem unclosed_before_digit :
    Unclosed .standard .unlimited "( (2*3)4 )".toList 7 1 "( ".toList "(2*3)".toList ∧
      (ofText .standard "( (2*3)4 )".toList).verdict =
        { status := .faulty .missingClosing, column := 7 } ∧
      (ofText .standard "( (2*3)4 )".toList).tokens.map Token.position = [0, 2, 3, 4, 5, 6] := by
  have hdigit : ¬ (Literal.isDigit '4' ∧
      ∃ y ∈ ("( (2*3)4 )".toList.take 7).getLast?, Literal.isDigit y) := by
    rintro ⟨-, y, hy, hdigit⟩
    cases hy
    exact absurd hdigit (by decide)
  have hunclosed :
      Unclosed .standard .unlimited "( (2*3)4 )".toList 7 1 "( ".toList "(2*3)".toList :=
    { pos := Nat.one_pos
      take_eq := by decide
      opens := by decide
      count_eq := by decide
      inside := by decide +kernel
      closed := by decide +kernel
      ends := Or.inr ⟨'4', by decide, by decide, by decide, by decide, hdigit⟩ }
  obtain ⟨hiff, htokens⟩ := missingClosing_iff_unclosed .standard .unlimited "( (2*3)4 )".toList 7
  refine ⟨hunclosed, hiff.2 ⟨_, _, _, hunclosed⟩, ?_⟩
  rw [htokens _ _ _ hunclosed]
  decide +kernel

end Analysis

end ArithSyntax
