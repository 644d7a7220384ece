import ArithSyntax.Proofs.Layout

/-!
# The room that a run takes

How many calls within one another a run takes is told by its tokens. Each literal and each opening
parenthesis takes some, inside two for every group around it, and operators and closing parentheses
take no more than these (`Lexeme.calls`). So a text is read up to some place on every stack that has
room for the greatest of these numbers (`Reading.Reaches.goes_iff`), and two texts with the same
lexemes take the same room. Inside `n` groups lexemes take `2 * n` calls more
(`Situation.holds_calls`).

Where the tokens end there may be no room for what comes next. Readings before the same character,
where a term is wanted or not in both and as much room is left, are given up alike
(`Reading.SameNeed`).
-/

namespace ArithSyntax

open Reading

/-! ### Calls for lexemes -/

/-- The calls within one another that a lexeme takes inside `depth` open groups, with those for the
groups. An operator or a closing parenthesis takes none but those made before. -/
def Lexeme.calls (depth : Nat) (l : Lexeme) : Nat :=
  match l.kind with
  | .opening => 2 * depth + 1 + Stack.callsOfTerm
  | .operand =>
    2 * depth + 1 + if l.value.head? = some '0' then Stack.callsOfTerm else Stack.callsOfNumeral
  | .operator | .closing => 0

/-- The calls that lexemes take, one after the other: the greatest number of them. -/
def Situation.calls : Situation → List Lexeme → Nat
  | _, [] => 0
  | q, l :: ls => max (l.calls q.depth) (calls (q.next l.kind) ls)

/-- The calls that the tokens of a text take. -/
def Token.calls (ks : List Token) : Nat := ({} : Situation).calls (ks.map Token.toLexeme)

variable {rules : Rules} {stack : Stack}

/-- A lexeme that begins a term takes the calls of a term at least. -/
theorem Lexeme.Fits.callsOfTerm_le {q : Situation} {l : Lexeme} (h : l.Fits rules q)
    (hterm : q.wantsTerm) : 2 * q.depth + 1 + Stack.callsOfTerm ≤ l.calls q.depth := by
  cases h with
  | opening => exact Nat.le_refl _
  | operand =>
    refine Nat.add_le_add_left ?_ _
    split <;> decide
  | operator hterm' | closing hterm' => exact absurd hterm hterm'

/-- Inside more groups a lexeme takes two calls more for each. -/
theorem Lexeme.holds_calls (l : Lexeme) (depth n : Nat) :
    stack.holds (l.calls (depth + n)) = (stack.inside (2 * n)).holds (l.calls depth) := by
  have hinside (m : Nat) (hm : 0 < m) :
      (stack.inside (2 * n)).holds (2 * depth + 1 + m) = stack.holds (2 * (depth + n) + 1 + m) := by
    rw [Stack.holds_inside (by omega)]
    congr 1
    omega
  unfold calls
  cases l.kind with
  | opening => exact (hinside _ (by decide)).symm
  | operand =>
    refine (hinside _ ?_).symm
    split <;> decide
  | operator | closing => rw [Stack.holds_zero, Stack.holds_zero]

namespace Situation

variable {q q' : Situation} {ks ls : List Lexeme} {n : Nat}

/-- Lexemes behind others take the calls that they take in the situation there. -/
theorem calls_append (q : Situation) (ks ls : List Lexeme) :
    q.calls (ks ++ ls) = max (q.calls ks) ((q.run ks).calls ls) := by
  induction ks generalizing q with
  | nil => exact (Nat.zero_max _).symm
  | cons k ks ih =>
    rw [List.cons_append, calls, calls, ih, Nat.max_assoc]
    rfl

/-- Closing parentheses take no room. -/
theorem calls_eq_zero (h : ∀ l ∈ ls, l.kind = .closing) : q.calls ls = 0 := by
  induction ls generalizing q with
  | nil => rfl
  | cons l ls ih =>
    obtain ⟨hl, hls⟩ := List.forall_mem_cons.1 h
    rw [calls, ih hls, Lexeme.calls, hl]
    rfl

/-- Opening parentheses take two calls for each but the last, and those of a term. -/
theorem calls_le_of_opening (h : ∀ l ∈ ls, l.kind = .opening) :
    q.calls ls ≤ 2 * (q.depth + ls.length) + 4 := by
  induction ls generalizing q with
  | nil => exact Nat.zero_le _
  | cons l ls ih =>
    obtain ⟨hl, hls⟩ := List.forall_mem_cons.1 h
    have hrest := ih (q := q.next l.kind) hls
    have hfirst : l.calls q.depth = 2 * q.depth + 6 := by
      rw [Lexeme.calls, hl]
      rfl
    have hdepth : (q.next l.kind).depth = q.depth + 1 := by
      rw [hl]
      rfl
    rw [hdepth] at hrest
    rw [calls, hfirst, List.length_cons]
    omega

/-- The same lexeme keeps two situations as far apart as they are. -/
theorem depth_next_eq_add {l : Lexeme} (h : q'.depth = q.depth + n) (hl : l.Fits rules q) :
    (q'.next l.kind).depth = (q.next l.kind).depth + n := by
  simp only [depth] at h ⊢
  cases hl with
  | opening =>
    simp only [next, List.length_cons]
    omega
  | operand | operator => exact h
  | closing _ hdepth =>
    simp only [next, depth, List.length_tail] at hdepth ⊢
    omega

/-- Inside more groups lexemes take two calls more for each. -/
theorem holds_calls (h : q'.depth = q.depth + n) (hls : q.Admits rules ls) :
    stack.holds (q'.calls ls) ↔ (stack.inside (2 * n)).holds (q.calls ls) := by
  induction ls generalizing q q' with
  | nil => rw [calls, calls, Stack.holds_zero, Stack.holds_zero]
  | cons l ls ih =>
    rw [calls, calls, Stack.holds_max, Stack.holds_max, h, l.holds_calls,
      ih (depth_next_eq_add h hls.1) hls.2]

end Situation

namespace Token

variable {ks ls before after : List Token}

/-- Tokens take the same room wherever they are. -/
@[simp] theorem map_toLexeme_shift (ks : List Token) (n : Int) :
    (ks.map (shift · n)).map toLexeme = ks.map toLexeme := by
  rw [List.map_map]
  rfl

/-- There is room for tokens if there is for those that come first and, behind them, for the
others. -/
theorem holds_calls_append :
    stack.holds (calls (ks ++ ls)) ↔ stack.holds (calls ks) ∧
      stack.holds ((({} : Situation).run (ks.map toLexeme)).calls (ls.map toLexeme)) := by
  rw [calls, List.map_append, Situation.calls_append, Stack.holds_max]
  exact Iff.rfl

/-- More tokens take no less room. -/
theorem holds_calls_of_prefix (h : ks <+: ls) (hls : stack.holds (calls ls)) :
    stack.holds (calls ks) := by
  obtain ⟨js, rfl⟩ := h
  exact (holds_calls_append.1 hls).1

/-- Tokens inside some groups take two calls more for each than alone. -/
theorem holds_calls_inside {q : Situation}
    (hadmits : ({} : Situation).Admits rules (ks.map toLexeme)) :
    stack.holds (q.calls (ks.map toLexeme)) ↔ (stack.inside (2 * q.depth)).holds (calls ks) :=
  Situation.holds_calls (Nat.zero_add _).symm hadmits

/-- Tokens alone take no more room than behind others. -/
theorem holds_calls_of_append {n : Int}
    (hadmits : ({} : Situation).Admits rules (ls.map toLexeme))
    (h : stack.holds (calls (ks ++ ls.map (shift · n)))) : stack.holds (calls ls) := by
  have hbehind := (holds_calls_append.1 h).2
  rw [map_toLexeme_shift, holds_calls_inside hadmits] at hbehind
  exact Stack.holds_of_inside hbehind

/-- What an expression begins with takes the calls of a term. -/
theorem callsOfTerm_le_calls (hadmits : ({} : Situation).Admits rules (ks.map toLexeme))
    (hne : ks ≠ []) : 1 + Stack.callsOfTerm ≤ calls ks := by
  obtain ⟨k, ks, rfl⟩ := List.exists_cons_of_ne_nil hne
  exact Nat.le_trans (hadmits.1.callsOfTerm_le rfl) (Nat.le_max_left _ _)

/-- There is room for an expression in parentheses if there is for the expression inside one group
more. -/
theorem holds_calls_group {q : Situation} {k l : Token} {n : Int} (hk : k.kind = .opening)
    (hl : l.kind = .closing) (hadmits : ({} : Situation).Admits rules (ks.map toLexeme))
    (hne : ks ≠ []) :
    stack.holds (q.calls ((k :: ks.map (shift · n) ++ [l]).map toLexeme)) ↔
      (stack.inside (2 * (q.depth + 1))).holds (calls ks) := by
  have hinner : stack.holds ((q.next .opening).calls (ks.map toLexeme)) ↔ _ :=
    holds_calls_inside hadmits
  have hopening : Lexeme.calls q.depth k.toLexeme = 2 * q.depth + 1 + Stack.callsOfTerm := by
    rw [Lexeme.calls, hk]
  have hclosing (m : Nat) : Lexeme.calls m l.toLexeme = 0 := by
    rw [Lexeme.calls, hl]
  rw [List.cons_append, List.map_cons, Situation.calls, List.map_append, map_toLexeme_shift,
    Situation.calls_append, hk, hopening, Stack.holds_max, Stack.holds_max, hinner]
  change _ ∧ _ ∧ stack.holds (max (Lexeme.calls _ l.toLexeme) 0) ↔ _
  rw [hclosing, Nat.max_zero, Stack.holds_zero]
  refine ⟨fun h => h.2.1, fun h => ⟨?_, h, rfl⟩⟩
  -- the expression begins with a term, which takes more room than the parenthesis
  have hterm := Stack.holds_of_le h (callsOfTerm_le_calls hadmits hne)
  rw [Stack.holds_inside (by decide)] at hterm
  exact Stack.holds_of_le hterm (by omega)

end Token

namespace Reading

variable {r s q : Reading} {t w rest : Text} {l : Lexeme} {o : Outcome}

/-- Inside some groups there is room for more calls if there is for those around as well. -/
theorem holds_forTerm (stack : Stack) (depth : Nat) {m : Nat} (hm : 0 < m) :
    (stack.forTerm depth).holds m = stack.holds (2 * depth + 1 + m) :=
  Stack.holds_inside hm

/-- There is room for what begins a literal, whether it is one or not, if there is for the calls of
one that begins so. -/
theorem hasRoom_iff_of_startsLiteral (hterm : r.situation.wantsTerm)
    (hstart : r.skipBlanks.cursor.nextSatisfies Symbol.startsLiteral) :
    r.HasRoom rules stack ↔ stack.holds
      (Lexeme.calls r.situation.depth ⟨r.skipBlanks.cursor.ahead, .operand⟩) := by
  have hend : ¬ r.skipBlanks.cursor.atEnd := by
    rw [Cursor.not_atEnd_of_nextSatisfies hstart]
    exact Bool.false_ne_true
  have hopening : ¬ r.skipBlanks.cursor.nextIs .opening := by
    rw [Cursor.not_nextIs_opening_of_startsLiteral hstart]
    exact Bool.false_ne_true
  have hterm' (hroom : r.HasRoom rules stack) :
      (stack.forTerm r.situation.depth).holds Stack.callsOfTerm := by
    by_contra hstack
    exact hroom _ (.term hterm (fun _ => hend) (absurd · hopening) hstack)
  have hzero : r.skipBlanks.cursor.nextIs .zero ↔
      r.skipBlanks.cursor.ahead.head? = some '0' := by
    rw [Cursor.nextIs_iff, List.head?_eq_some_iff]
    simp only [Symbol.ofChar_eq_zero_iff]
    constructor
    · rintro ⟨c, u, hahead, rfl⟩
      exact ⟨u, hahead⟩
    · rintro ⟨u, hahead⟩
      exact ⟨_, u, hahead, rfl⟩
  simp only [Lexeme.calls]
  -- a zero needs no more room than any term, and other literals as much as a numeral
  by_cases hnext : r.skipBlanks.cursor.nextIs .zero
  · rw [if_pos (hzero.1 hnext), ← holds_forTerm _ _ (by decide)]
    refine ⟨hterm', fun hstack => hasRoom_of_holds hstack fun _ => ?_⟩
    rw [fitsLiteral, hnext, Bool.true_or]
  · have hfits : r.skipBlanks.fitsLiteral (stack.forTerm r.situation.depth) =
        (stack.forTerm r.situation.depth).holds Stack.callsOfNumeral := by
      rw [fitsLiteral, Bool.eq_false_iff.2 hnext, Bool.false_or]
    rw [if_neg (mt hzero.2 hnext), ← holds_forTerm _ _ (by decide), ← hfits]
    constructor
    · intro hroom
      by_contra hliteral'
      exact hroom _ (.literal hterm hstart (hterm' hroom) hliteral')
    · intro hliteral'
      exact hasRoom_of_holds (Stack.holds_of_le (hfits ▸ hliteral') (by decide))
        fun _ => hliteral'

/-- There is room to read a lexeme if there is for the calls that it takes. -/
theorem Meets.hasRoom_iff (h : r.Meets rules w l rest) :
    r.HasRoom rules stack ↔ stack.holds (l.calls r.situation.depth) := by
  have hahead := h.ahead_skipBlanks
  obtain ⟨c, v, hvalue, -⟩ := h.fits.exists_cons
  have hend : ¬ r.skipBlanks.cursor.atEnd := by
    rw [Cursor.atEnd_iff_ahead, hahead, hvalue]
    exact List.cons_ne_nil _ _
  cases h.fits with
  | opening hterm hdepth =>
    rw [Lexeme.calls, ← holds_forTerm _ _ (by decide)]
    constructor
    · intro hroom
      by_contra hstack
      exact hroom _ (.term hterm (fun _ => hend) (fun _ => hdepth) hstack)
    · intro hstack
      -- a parenthesis begins no literal
      refine hasRoom_of_holds hstack fun hstart => ?_
      obtain ⟨c, u, hc, hclass⟩ := Cursor.nextSatisfies_iff.1 hstart
      obtain rfl : '(' = c := (List.cons.inj (hahead.symm.trans hc)).1
      cases hclass
  | @operand l hterm hliteral hrange =>
    obtain ⟨c, v, rfl, hclass⟩ := Literal.exists_cons_of_isLiteral hliteral
    have hstart : r.skipBlanks.cursor.nextSatisfies Symbol.startsLiteral :=
      Cursor.nextSatisfies_iff.2 ⟨c, v ++ rest, hahead, hclass⟩
    rw [hasRoom_iff_of_startsLiteral hterm hstart, hahead]
    rfl
  | operator hterm | closing hterm =>
    rw [Lexeme.calls, Stack.holds_zero]
    exact iff_of_true (hasRoom_of_not_wantsTerm hterm) rfl

/-- What has been read is read on every stack that has room for the tokens. -/
theorem Reaches.goes_iff {ks : List Token} (h : Reaches rules r s)
    (hs : s.tokens = r.tokens ++ ks) :
    Goes rules stack r s ↔ stack.holds (r.situation.calls (ks.map Token.toLexeme)) := by
  induction h using Relation.ReflTransGen.head_induction_on generalizing ks with
  | refl =>
    rw [List.self_eq_append_right.1 hs]
    exact iff_of_true .refl (Stack.holds_zero _)
  | @head r p hstep hrest ih =>
    obtain ⟨w, l, rest, hmeets, rfl⟩ := hstep.exists_meets
    obtain ⟨js, hjs⟩ := Reaches.prefix_tokens hrest
    have hks := hjs.trans hs
    rw [hmeets.tokens_take, List.append_assoc] at hks
    obtain rfl := List.append_cancel_left hks
    have hlater := ih hjs.symm
    rw [situation_take, situation_skipBlanks] at hlater
    rw [List.map_append, Situation.calls_append, Stack.holds_max]
    change _ ↔ stack.holds (max (l.calls r.situation.depth) 0) ∧ _
    rw [Nat.max_zero, ← hmeets.hasRoom_iff]
    refine Iff.trans ⟨?_, ?_⟩ (and_congr_right fun _ => hlater)
    · intro hgoes
      rcases hgoes.cases_head with rfl | ⟨p, ⟨hstep', hroom⟩, hgoes'⟩
      · -- one more token has been read by then
        simp at hs
      · exact ⟨hroom, hstep'.unique hstep ▸ hgoes'⟩
    · rintro ⟨hroom, hgoes⟩
      exact hgoes.head ⟨hstep, hroom⟩

/-- A text is read up to some place on every stack that has room for the tokens before it. -/
theorem Reaches.goes_start_iff (h : Reaches rules (start t) r) :
    Goes rules stack (start t) r ↔ stack.holds (Token.calls r.tokens) :=
  h.goes_iff rfl

/-- The lexemes of the tokens follow one another. -/
theorem Reaches.admits_tokens (h : Reaches rules (start t) r) :
    ({} : Situation).Admits rules (r.tokens.map Token.toLexeme) ∧
      r.situation = ({} : Situation).run (r.tokens.map Token.toLexeme) := by
  obtain ⟨ls, -, hadmits, -, -, htokens⟩ := h.exists_layout_of_start
  rw [situation_eq_run htokens, htokens, Layout.toLexeme_tokens]
  exact ⟨hadmits, rfl⟩

/-- There was room for the tokens that a run has read. -/
theorem Goes.holds_calls (h : Goes rules stack (start t) r) : stack.holds (Token.calls r.tokens) :=
  h.reaches.goes_start_iff.1 h

/-! ### Room for what comes next -/

variable {rules' : Rules} {stack' : Stack} {r' : Reading}

/-- Two readings need the same room for what comes next, each by its rules and on its stack. -/
structure SameNeed (rules rules' : Rules) (stack stack' : Stack) (r r' : Reading) : Prop where
  /-- A term is wanted in both or in neither. -/
  wantsTerm_eq : r'.situation.wantsTerm = r.situation.wantsTerm
  /-- Neither text consists of blanks unless both do. -/
  empty_iff : r'.recorded = [] ∧ r'.skipBlanks.cursor.atEnd ↔
    r.recorded = [] ∧ r.skipBlanks.cursor.atEnd
  /-- The next character that is no blank is of the same kind, if it is one of expressions. -/
  next_eq : ∀ p : Symbol → Bool, p .endOfText = false → p .foreign = false →
    r'.skipBlanks.cursor.nextSatisfies p = r.skipBlanks.cursor.nextSatisfies p
  /-- One more group is allowed in both or in neither. -/
  depth_iff : r'.situation.depth < rules'.maxDepth ↔ r.situation.depth < rules.maxDepth
  /-- As much room is left for a term. -/
  holds_eq : ∀ n > 0,
    (stack'.forTerm r'.situation.depth).holds n = (stack.forTerm r.situation.depth).holds n

/-- A reading needs what it needs itself. -/
theorem SameNeed.refl (rules : Rules) (stack : Stack) (r : Reading) :
    SameNeed rules rules stack stack r r where
  wantsTerm_eq := rfl
  empty_iff := Iff.rfl
  next_eq := fun _ _ _ => rfl
  depth_iff := Iff.rfl
  holds_eq := fun _ _ => rfl

/-- What two readings need is the same either way. -/
theorem SameNeed.symm (h : SameNeed rules rules' stack stack' r r') :
    SameNeed rules' rules stack' stack r' r where
  wantsTerm_eq := h.wantsTerm_eq.symm
  empty_iff := h.empty_iff.symm
  next_eq := fun p hend hforeign => (h.next_eq p hend hforeign).symm
  depth_iff := h.depth_iff.symm
  holds_eq := fun n hn => (h.holds_eq n hn).symm

/-- A sign that is passed is one character. -/
theorem position_passSign (r : Reading) :
    r.passSign.cursor.position = r.cursor.position + if r.cursor.nextIs .minus then 1 else 0 := by
  rw [passSign, Cursor.pass]
  by_cases hminus : r.cursor.nextIs .minus
  · have hone : 1 ≤ r.cursor.ahead.length := Cursor.length_ahead_pos_of_nextSatisfies hminus
    rw [if_pos hminus, if_pos hminus, Cursor.advance, Cursor.position_forward, Nat.min_eq_left hone]
  · rw [if_neg hminus, if_neg hminus, Nat.add_zero]

/-- Reading is given up behind the blanks. -/
theorem GivesUp.unread_le (h : GivesUp rules stack r q) : q.unread ≤ r.skipBlanks.unread := by
  cases h with
  | term => exact Nat.le_refl _
  | literal =>
    rw [unread, unread, passSign, Cursor.pass]
    split
    · dsimp only
      rw [Cursor.advance, Cursor.ahead_forward, List.length_drop]
      exact Nat.sub_le _ _
    · exact Nat.le_refl _

/-- No room is needed for a text that consists of blanks. -/
theorem GivesUp.not_atEnd (h : GivesUp rules stack r q) (hrecorded : r.recorded = []) :
    ¬ r.skipBlanks.cursor.atEnd := by
  cases h with
  | term _ hsome => exact hsome hrecorded
  | literal _ hstart =>
    rw [Cursor.not_atEnd_of_nextSatisfies hstart]
    exact Bool.false_ne_true

/-- Reading ends behind the blanks. -/
theorem Halts.unread_le {e : Rejection} (h : Halts rules stack r (.error e)) :
    e.reading.unread ≤ r.skipBlanks.unread := by
  cases h with
  | stops _ hs => exact hs.unread_le
  | givesUp hgives => exact hgives.unread_le

/-- A parenthesis is missing only where a group is open. -/
theorem Halts.depth_pos {e : Rejection} (h : Halts rules stack r (.error e))
    (hf : e.fault = .missingClosing) : 0 < r.situation.depth := by
  cases h with
  | stops _ hs => exact hs.depth_pos hf
  | givesUp => cases hf

/-- Something is left over where a term has ended, outside all groups. -/
theorem Halts.of_extraneous {e : Rejection} (h : Halts rules stack r (.error e))
    (hf : e.fault = .extraneous) :
    ¬ r.situation.wantsTerm ∧ r.situation.depth = 0 ∧
      ¬ r.skipBlanks.cursor.nextSatisfies Symbol.isOperator ∧
      e = r.skipBlanks.reject .extraneous (some (.unconsumed r.skipBlanks.cursor.ahead)) := by
  cases h with
  | givesUp => cases hf
  | stops _ hs =>
    cases hs with
    | extraneous hterm hdepth _ hoperator => exact ⟨hterm, hdepth, hoperator, rfl⟩
    | _ => cases hf

/-- Where one of them is given up the other one is, as far behind the blanks: right there, or behind
a sign. -/
theorem SameNeed.exists_givesUp (h : SameNeed rules rules' stack stack' r r')
    (hgives : GivesUp rules stack r q) :
    ∃ q' n, GivesUp rules' stack' r' q' ∧
      q.cursor.position = r.skipBlanks.cursor.position + n ∧
      q'.cursor.position = r'.skipBlanks.cursor.position + n ∧
      (n = 0 ∨ n = 1 ∧ r.skipBlanks.cursor.ahead.head? = some '-') := by
  have hempty : (r.recorded = [] → ¬ r.skipBlanks.cursor.atEnd) →
      (r'.recorded = [] → ¬ r'.skipBlanks.cursor.atEnd) := fun hsome hnil hend =>
    let ⟨hnil', hend'⟩ := h.empty_iff.1 ⟨hnil, hend⟩
    hsome hnil' hend'
  have hopening := h.next_eq (· == .opening) rfl rfl
  have hminus := h.next_eq (· == .minus) rfl rfl
  cases hgives with
  | term hterm hrecorded hdepth hstack =>
    refine ⟨_, 0, .term (h.wantsTerm_eq.trans hterm) (hempty hrecorded) ?_ ?_, rfl, rfl, Or.inl rfl⟩
    · rw [Cursor.nextIs, hopening, h.depth_iff]
      exact hdepth
    · rw [h.holds_eq _ (by decide)]
      exact hstack
  | literal hterm hstart hstack hliteral =>
    -- a numeral is given up behind its sign
    refine ⟨_, if r.skipBlanks.cursor.nextIs .minus then 1 else 0,
      .literal (h.wantsTerm_eq.trans hterm) ?_ ?_ ?_, r.skipBlanks.position_passSign, ?_, ?_⟩
    · rw [h.next_eq _ rfl rfl]
      exact hstart
    · rw [h.holds_eq _ (by decide)]
      exact hstack
    · rw [fitsLiteral, Cursor.nextIs, h.next_eq _ rfl rfl, h.holds_eq _ (by decide)]
      exact hliteral
    · rw [r'.skipBlanks.position_passSign, Cursor.nextIs, hminus]
      rfl
    · split
      · rename_i hnext
        obtain ⟨c, u, hahead, hc⟩ := Cursor.nextIs_iff.1 hnext
        rw [hahead, Symbol.ofChar_eq_minus_iff.1 hc]
        exact Or.inr ⟨rfl, rfl⟩
      · exact Or.inl rfl

/-- There is room in one of them if there is in the other. -/
theorem SameNeed.hasRoom (h : SameNeed rules rules' stack stack' r r')
    (hroom : r.HasRoom rules stack) : r'.HasRoom rules' stack' := by
  intro q hgives
  obtain ⟨q', n, hgives', -⟩ := h.symm.exists_givesUp hgives
  exact hroom q' hgives'

end Reading

end ArithSyntax
