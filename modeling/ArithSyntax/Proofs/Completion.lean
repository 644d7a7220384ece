import ArithSyntax.Proofs.Coverage
import ArithSyntax.Proofs.Embedding
import ArithSyntax.Proofs.Spacing

/-!
# Completing what has been read

Wherever reading stops, nothing has been recorded that an expression could not begin with. No more
groups have been closed than opened, and no more are open at once than the rules allow
(`Reaches.balance_eq`). So what is missing to an expression can be put behind the last token
(`Situation.completion`): a literal if a term is wanted, for which zero or the least of the range
will do, and then a closing parenthesis for every open group.

No completion takes less room than that literal (`Situation.Completes.calls_le`). So on a stack the
tokens begin an expression exactly if a term has ended or there is room for the literal
(`BeginsExpression.holds_calls`).
-/

namespace ArithSyntax

open Reading

/-! ### Groups that are open -/

/-- By how much a lexeme of the role changes the number of open groups. -/
def Lexeme.Kind.weight : Lexeme.Kind → Int
  | opening => 1
  | closing => -1
  | operator | operand => 0

/-- How many groups more the tokens open than they close. -/
def Token.balance (ks : List Token) : Int :=
  ks.countP (fun k => k.kind = .opening) - ks.countP (fun k => k.kind = .closing)

/-- Tokens behind others open what they open by themselves. -/
theorem Token.balance_append (js ks : List Token) :
    balance (js ++ ks) = balance js + balance ks := by
  simp only [balance, List.countP_append, Int.natCast_add]
  omega

theorem Token.balance_nil : balance [] = 0 := rfl

/-- A single token opens a group, closes one, or does neither. -/
theorem Token.balance_singleton (k : Token) : balance [k] = k.kind.weight := by
  simp only [balance, List.countP_singleton]
  cases k.kind <;> rfl

/-- A token behind others adds its own weight. -/
theorem Token.balance_concat (ks : List Token) (k : Token) :
    balance (ks ++ [k]) = balance ks + k.kind.weight := by
  rw [balance_append, balance_singleton]

/-- A token before others adds its own weight. -/
theorem Token.balance_cons (k : Token) (ks : List Token) :
    balance (k :: ks) = k.kind.weight + balance ks := by
  rw [← List.singleton_append, balance_append, balance_singleton]

/-- Wherever the tokens stand, they open as many groups. -/
theorem Token.balance_map_shift (ks : List Token) (n : Int) :
    balance (ks.map (shift · n)) = balance ks := by
  rw [balance, List.countP_map, List.countP_map]
  rfl

/-- What one more lexeme does to the number of open groups. -/
theorem Situation.depth_next (q : Situation) (kind : Lexeme.Kind)
    (hclosing : kind = .closing → 0 < q.depth) :
    ((q.next kind).depth : Int) = q.depth + kind.weight := by
  have hlevels := congrArg List.length (q.levels_next kind hclosing)
  rw [length_levels] at hlevels
  cases kind with
  | operator | operand | opening => simp_all [Lexeme.Kind.weight, length_levels]
  | closing =>
    have hpos := hclosing rfl
    rw [List.length_tail, length_levels] at hlevels
    rw [Lexeme.Kind.weight]
    omega

namespace Reading

variable {rules : Rules} {r s : Reading} {t : Text} {ks : List Token}

/-- The tokens tell how many groups are open, and these are within the limit. -/
theorem Reaches.balance_eq (h : Reaches rules (start t) r) :
    Token.balance r.tokens = r.situation.depth ∧ r.situation.depth ≤ rules.maxDepth := by
  induction h with
  | refl => exact ⟨rfl, Nat.zero_le _⟩
  | tail _ hstep ih =>
    obtain ⟨hbalance, hdepth⟩ := ih
    obtain ⟨w, l, rest, hmeets, rfl⟩ := hstep.exists_meets
    have hnext := Situation.depth_next _ l.kind hmeets.fits.depth_pos
    rw [hmeets.tokens_take, Token.balance_concat, hbalance, situation_take, situation_skipBlanks]
    refine ⟨hnext.symm, ?_⟩
    cases hmeets.fits with
    | opening _ hlt => exact hlt
    | operand | operator => exact hdepth
    | closing =>
      simp only [Lexeme.Kind.weight] at hnext ⊢
      omega

/-- Between two places of a run there is one for every number of tokens between theirs. -/
theorem Reaches.exists_between (h : Reaches rules r s) (hr : r.tokens <+: ks)
    (hs : ks <+: s.tokens) : ∃ q, Reaches rules r q ∧ Reaches rules q s ∧ q.tokens = ks := by
  induction h with
  | refl => exact ⟨r, .refl, .refl, hr.eq_of_length_le hs.length_le⟩
  | tail hreach hstep ih =>
    obtain ⟨w, l, rest, hmeets, rfl⟩ := hstep.exists_meets
    rw [hmeets.tokens_take, List.prefix_concat_iff] at hs
    rcases hs with rfl | hs
    · exact ⟨_, hreach.tail hstep, .refl, hmeets.tokens_take⟩
    · obtain ⟨q, hq, hrest, htokens⟩ := ih hs
      exact ⟨q, hq, hrest.tail hstep, htokens⟩

/-- Every token read on the way is met where those before it have been read. -/
theorem Reaches.exists_meets_of_append {k : Token} {ls : List Token} (h : Reaches rules r s)
    (hr : r.tokens <+: ks) (hs : s.tokens = ks ++ k :: ls) :
    ∃ q w l rest, Reaches rules r q ∧ q.tokens = ks ∧ q.Meets rules w l rest ∧
      k = { toLexeme := l, position := (q.cursor.position + w.length : Nat) } ∧
      Reaches rules (q.skipBlanks.take l.kind l.value.length) s := by
  obtain ⟨q, hreach, hrest, rfl⟩ := h.exists_between hr (hs ▸ List.prefix_append _ _)
  rcases hrest.cases_head with rfl | ⟨p, hstep, hrest'⟩
  · simp at hs
  · obtain ⟨w, l, rest, hmeets, rfl⟩ := hstep.exists_meets
    refine ⟨q, w, l, rest, hreach, rfl, hmeets, ?_, hrest'⟩
    have hprefix := Reaches.prefix_tokens hrest'
    rw [hmeets.tokens_take, hs, List.prefix_append_right_inj, List.cons_prefix_cons] at hprefix
    exact hprefix.1.symm

/-- Any first tokens of those that have been read are all that had been read at some place. -/
theorem Reaches.exists_of_prefix (h : Reaches rules (start t) r) (hks : ks <+: r.tokens) :
    ∃ q, Reaches rules (start t) q ∧ q.tokens = ks := by
  obtain ⟨q, hreach, -, htokens⟩ := h.exists_between List.nil_prefix hks
  exact ⟨q, hreach, htokens⟩

/-- Nowhere are more groups closed than opened, or more left open than the rules allow. -/
theorem Reaches.balance_of_prefix (h : Reaches rules (start t) r) (hks : ks <+: r.tokens) :
    0 ≤ Token.balance ks ∧ Token.balance ks ≤ rules.maxDepth := by
  obtain ⟨q, hq, rfl⟩ := h.exists_of_prefix hks
  obtain ⟨hbalance, hdepth⟩ := hq.balance_eq
  rw [hbalance]
  exact ⟨Int.natCast_nonneg _, Int.ofNat_le.2 hdepth⟩

end Reading

/-! ### What is missing to an expression -/

namespace Situation

/-- The lexemes lead from the situation to the end of an expression. -/
structure Completes (rules : Rules) (q : Situation) (ks : List Lexeme) : Prop where
  /-- Each fits what comes before it. -/
  admits : q.Admits rules ks
  /-- A term has ended. -/
  not_wantsTerm : ¬ (q.run ks).wantsTerm
  /-- No group is open. -/
  around_eq : (q.run ks).around = []

/-- A literal in range that takes as little room as any: zero if it is in range, and the least of
the range otherwise. -/
def filler (rules : Rules) : Lexeme where
  value := Decimal.text (if rules.least ≤ 0 ∧ 0 ≤ rules.greatest then 0 else rules.least)
  kind := .operand

/-- A closing parenthesis for every open group. -/
def closings (q : Situation) : List Lexeme := List.replicate q.depth ⟨[')'], .closing⟩

/-- The groups that are open are closed by closing parentheses. -/
theorem kind_of_mem_closings (q : Situation) : ∀ l ∈ q.closings, l.kind = .closing := by
  intro l hl
  rw [List.eq_of_mem_replicate hl]

/-- A literal if a term is wanted, and a closing parenthesis for every open group. -/
def completion (rules : Rules) (q : Situation) : List Lexeme :=
  if q.wantsTerm then filler rules :: q.closings else q.closings

variable {rules : Rules} {stack : Stack} {q : Situation} {l : Lexeme} {ks ls : List Lexeme}

/-- A lexeme that fits comes before what completes the situation behind it. -/
theorem Completes.cons (hl : l.Fits rules q) (h : (q.next l.kind).Completes rules ks) :
    q.Completes rules (l :: ks) :=
  ⟨⟨hl, h.admits⟩, h.not_wantsTerm, h.around_eq⟩

/-- What completes the situation behind some lexemes makes an expression of them. -/
theorem Completes.compose (h : (({} : Situation).run ls).Completes rules ks)
    (hls : ({} : Situation).Admits rules ls) : Lexeme.Compose rules (ls ++ ks) where
  admits := hls.append h.admits
  not_wantsTerm := by
    rw [run_append]
    exact h.not_wantsTerm
  around_eq := by
    rw [run_append]
    exact h.around_eq

/-- Where a term has ended the open groups can be closed, one after the other. -/
theorem completes_closings (rules : Rules) (h : ¬ q.wantsTerm) :
    q.Completes rules q.closings := by
  obtain ⟨wantsTerm, chained, around⟩ := q
  induction around generalizing wantsTerm chained with
  | nil => exact ⟨trivial, h, rfl⟩
  | cons c cs ih => exact .cons (.closing h (Nat.succ_pos _)) (ih false c Bool.false_ne_true)

/-- The literal fits wherever a term is wanted. -/
theorem fits_filler (h : q.wantsTerm) : (filler rules).Fits rules q := by
  refine .operand h (Literal.isLiteral_text _) ?_
  rw [Literal.value_text]
  split
  · assumption
  · exact ⟨Int.le_refl _, rules.least_le_greatest⟩

/-- In every situation the expression can be completed. -/
theorem completes_completion (rules : Rules) (q : Situation) :
    q.Completes rules (q.completion rules) := by
  unfold completion
  split
  · rename_i hterm
    exact .cons (fits_filler hterm) (completes_closings rules Bool.false_ne_true)
  · rename_i hterm
    exact completes_closings rules hterm

/-! ### Room for what is missing -/

/-- No literal takes more calls than a numeral. -/
theorem calls_operand_le (depth : Nat) (v : Text) :
    Lexeme.calls depth ⟨v, .operand⟩ ≤ 2 * depth + 1 + Stack.callsOfNumeral := by
  refine Nat.add_le_add_left ?_ _
  split <;> decide

/-- No literal in range takes less room. -/
theorem calls_filler_le (depth : Nat) {v : Text} (hv : v.IsLiteral)
    (hrange : rules.InRange (Literal.value v)) :
    (filler rules).calls depth ≤ Lexeme.calls depth ⟨v, .operand⟩ := by
  by_cases hzero : v.head? = some '0'
  · obtain rfl := Literal.eq_zero_of_head? hv hzero
    have hinside : rules.least ≤ 0 ∧ 0 ≤ rules.greatest := hrange
    have hfiller : filler rules = ⟨['0'], .operand⟩ := by
      rw [filler, if_pos hinside]
      rfl
    rw [hfiller]
  · refine (calls_operand_le depth _).trans_eq ?_
    simp only [Lexeme.calls, if_neg hzero]

/-- Where a term is wanted no completion takes less room than the literal. -/
theorem Completes.calls_le (h : q.Completes rules ls) (hterm : q.wantsTerm) :
    (filler rules).calls q.depth ≤ q.calls ls := by
  cases ls with
  | nil => exact absurd hterm h.not_wantsTerm
  | cons l ls =>
    obtain ⟨hl, hls⟩ := h.admits
    cases hl with
    | opening =>
      -- in the group a term has to come, which takes as much as a numeral before it
      cases ls with
      | nil => exact absurd rfl h.not_wantsTerm
      | cons k ks =>
        have hk := hls.1.callsOfTerm_le rfl
        change 2 * (q.depth + 1) + 1 + Stack.callsOfTerm ≤ k.calls (q.next .opening).depth at hk
        have hle := calls_operand_le q.depth (filler rules).value
        simp only [Stack.callsOfTerm, Stack.callsOfNumeral] at hk hle
        refine (hle.trans (by omega)).trans (hk.trans ?_)
        exact (Nat.le_max_left _ _).trans (Nat.le_max_right _ _)
    | operand _ hliteral hrange =>
      exact (calls_filler_le q.depth hliteral hrange).trans (Nat.le_max_left _ _)
    | operator hterm' | closing hterm' => exact absurd hterm hterm'

/-- There is room for the completion if there is for the literal in it. -/
theorem holds_calls_completion :
    stack.holds (q.calls (q.completion rules)) ↔
      (q.wantsTerm → stack.holds ((filler rules).calls q.depth)) := by
  have hclosings (q' : Situation) : q'.calls q.closings = 0 := calls_eq_zero q.kind_of_mem_closings
  unfold completion
  split
  · rename_i hterm
    rw [calls, hclosings, Nat.max_zero]
    exact ⟨fun h _ => h, fun h => h hterm⟩
  · rename_i hterm
    rw [hclosings, Stack.holds_zero]
    exact iff_of_true rfl fun h => absurd h hterm

end Situation

namespace Analysis

variable {rules : Rules} {stack : Stack} {r : Reading} {t u : Text}

/-- The text `t` up to the end of the last of the tokens `ks`, with some other text behind it, is an
expression for which there is room, and its tokens begin with `ks`. -/
def BeginsExpression (rules : Rules) (stack : Stack) (t : Text) (ks : List Token) : Prop :=
  ∃ w, (ofText rules (t.slice 0 (Token.reach ks) ++ w) .operator stack).isWellFormed ∧
    ks <+: (ofText rules (t.slice 0 (Token.reach ks) ++ w) .operator stack).tokens

/-- What has been read is the beginning of an expression with the same tokens, if there is room for
a literal where a term is wanted. -/
theorem beginsExpression_tokens (hgoes : Goes rules stack (start t) r)
    (hroom : r.situation.wantsTerm →
      stack.holds ((Situation.filler rules).calls r.situation.depth)) :
    BeginsExpression rules stack t r.tokens := by
  obtain ⟨ls, hspaced, hadmits, htext, -, htokens⟩ := hgoes.reaches.exists_layout_of_start
  have hread : t.slice 0 (Token.reach r.tokens) = ls.text := by
    have hslice := Text.slice_append [] ls.text r.cursor.ahead
    rw [List.nil_append, List.length_nil, Nat.zero_add, ← htext] at hslice
    rw [htokens, Layout.reach_tokens]
    exact hslice
  let ms : Layout := Layout.dense (r.situation.completion rules)
  have hlexemes : Layout.lexemes (ls ++ ms) = ls.lexemes ++ r.situation.completion rules := by
    rw [Layout.lexemes_append, Layout.lexemes_dense]
  have hcompose : Lexeme.Compose rules (Layout.lexemes (ls ++ ms)) := by
    rw [hlexemes, situation_eq_run htokens]
    exact (Situation.completes_completion rules _).compose hadmits
  have hcalls : stack.holds (({} : Situation).calls (Layout.lexemes (ls ++ ms))) := by
    have hbefore := hgoes.holds_calls
    rw [htokens, Token.calls, Layout.toLexeme_tokens] at hbefore
    rw [hlexemes, Situation.calls_append, Stack.holds_max, ← situation_eq_run htokens]
    exact ⟨hbefore, Situation.holds_calls_completion.2 hroom⟩
  have hspaced' : Layout.Spaced (ls ++ ms) :=
    Layout.spaced_append hspaced (Layout.spaced_dense _)
  obtain ⟨hwell, htokens'⟩ := isWellFormed_layout_on hcompose hspaced' Text.blank_nil hcalls
  rw [List.append_nil, Layout.text_append] at hwell htokens'
  refine ⟨ms.text, ?_, ?_⟩
  · rw [hread]
    exact hwell
  · rw [hread, htokens', htokens, Layout.tokens_append]
    exact List.prefix_append _ _

/-- Where a term is wanted, tokens with which an expression begins leave room for a literal. -/
theorem BeginsExpression.holds_calls (h : BeginsExpression rules stack t r.tokens)
    (hreach : Reaches rules (start t) r) (hterm : r.situation.wantsTerm) :
    stack.holds ((Situation.filler rules).calls r.situation.depth) := by
  obtain ⟨w, hu, hbegins⟩ := h
  rw [ofText_eq_of_isWellFormed hu] at hbegins
  obtain ⟨hwell, hcalls⟩ := isWellFormed_on_iff.1 hu
  obtain ⟨-, hcompose⟩ := withoutBlanks_eq_of_isWellFormed hwell
  obtain ⟨ks, hks⟩ := hbegins
  rw [← hks, List.map_append] at hcompose
  rw [← hks, Token.holds_calls_append] at hcalls
  have hsituation := hreach.admits_tokens.2
  have hcompletes : r.situation.Completes rules (ks.map Token.toLexeme) := by
    rw [hsituation]
    refine ⟨hcompose.admits.of_append, ?_, ?_⟩
    · rw [← Situation.run_append]
      exact hcompose.not_wantsTerm
    · rw [← Situation.run_append]
      exact hcompose.around_eq
  rw [← hsituation] at hcalls
  exact Stack.holds_of_le hcalls.2 (hcompletes.calls_le hterm)

/-- Whatever the verdict on a text, among its first tokens, however many, there are no more closing
parentheses than opening ones, and of the latter no more without their counterpart than the rules
allow. The text up to the end of the last token can be completed to an expression that begins with
the same tokens, if there is no end to the room. On the stack on which they have been found it can
if a term has ended there, or there is room for a literal in the open groups, and not otherwise. -/
theorem tokens_begin_expression (rules : Rules) (stack : Stack) (t : Text) :
    (∀ ks, ks <+: (ofText rules t .operator stack).tokens →
        0 ≤ Token.balance ks ∧ Token.balance ks ≤ rules.maxDepth) ∧
      BeginsExpression rules .unlimited t (ofText rules t .operator stack).tokens ∧
      (BeginsExpression rules stack t (ofText rules t .operator stack).tokens ↔
        ((∀ k ∈ (ofText rules t .operator stack).tokens.getLast?,
            k.kind = .operator ∨ k.kind = .opening) →
          stack.holds ((Situation.filler rules).calls
            (Token.balance (ofText rules t .operator stack).tokens).toNat))) := by
  obtain ⟨r, o, hgoes, hhalts, -⟩ := exists_halts .operator rules stack t
  have hreach := hgoes.reaches
  rw [tokens_of_halts hgoes hhalts, hreach.balance_eq.1, Int.toNat_natCast,
    ← wantsTerm_iff_getLast?]
  refine ⟨?_, ?_, ?_, beginsExpression_tokens hgoes⟩
  · intro ks hks
    exact hreach.balance_of_prefix hks
  · exact beginsExpression_tokens hreach.goes_unlimited fun _ => Stack.holds_unlimited _
  · intro h hterm
    exact h.holds_calls hreach hterm

/-- A text that breaks off behind a sign is completed behind the operator before it, where two
groups are open. -/
theorem tokens_begin_group :
    (0 ≤ Token.balance (ofText .standard "(1 + (2 * -)".toList .operator .standard).tokens ∧
        Token.balance (ofText .standard "(1 + (2 * -)".toList .operator .standard).tokens ≤ 200) ∧
      ∃ w, (ofText .standard ("(1 + (2 *".toList ++ w) .operator .standard).isWellFormed ∧
        (ofText .standard "(1 + (2 * -)".toList .operator .standard).tokens <+:
          (ofText .standard ("(1 + (2 *".toList ++ w) .operator .standard).tokens := by
  have hslice : Text.slice "(1 + (2 * -)".toList 0
      (Token.reach (ofText .standard "(1 + (2 * -)".toList .operator .standard).tokens) =
        "(1 + (2 *".toList := by
    decide +kernel
  obtain ⟨hbalance, -, hbegins⟩ :=
    tokens_begin_expression .standard .standard "(1 + (2 * -)".toList
  rw [BeginsExpression, hslice] at hbegins
  exact ⟨hbalance _ List.prefix_rfl, hbegins.2 fun _ => by decide +kernel⟩

/-- The parentheses that are read of 600 on the standard stack, which the rules allow, begin no
expression for which there is room. -/
theorem openings_begin_no_expression :
    ¬ BeginsExpression (Rules.standard.deepen 400) .standard (List.replicate 600 '(')
      (ofText (Rules.standard.deepen 400) (List.replicate 600 '(') .operator .standard).tokens := by
  have hexhausted : (ofText (Rules.standard.deepen 400) (List.replicate 493 '(' ++
      List.replicate 107 '(') .operator .standard).isExhausted :=
    isExhausted_of_openings (by decide) (by decide) (Or.inl (by decide))
  rw [List.replicate_append_replicate] at hexhausted
  obtain ⟨r, q, hgoes, hgives⟩ := exists_givesUp_of_isExhausted hexhausted
  rw [tokens_of_halts hgoes (.givesUp hgives)]
  intro h
  have hliteral := h.holds_calls hgoes.reaches hgives.wantsTerm
  cases hgives with
  | term _ _ _ hstack =>
    rw [holds_forTerm _ _ (by decide)] at hstack
    exact hstack hliteral
  | literal _ hstart =>
    obtain ⟨c, u, hahead, hc⟩ := Cursor.nextSatisfies_iff.1 hstart
    have hat := hgoes.reaches.getElem?_skipBlanks
    rw [hahead] at hat
    obtain rfl : c = '(' := List.eq_of_mem_replicate (List.mem_of_getElem? hat)
    cases hc

end Analysis

end ArithSyntax
