import ArithSyntax.Proofs.Acceptance
import ArithSyntax.Proofs.Room

/-!
# The end of the room

On a stack that is not unlimited the run of a text may come to a term for which there is no room.
Either it does, and then the text is rejected there as though the term were missing, with the
tokens found so far (`Analysis.ofText_of_givesUp`), or there is room all along and the analysis is
that with unlimited room (`Analysis.ofText_eq_of_not_isExhausted`). Which of the two it is can be
told from the run with unlimited room (`Analysis.isExhausted_iff`).

A term needs two calls more for each group around it. So a stack is large enough for all texts that
open no more groups than half of it allows (`Analysis.not_isExhausted_of_holds`), and none but an
unlimited one is large enough for every text (`Analysis.isExhausted_of_openings`).
-/

namespace ArithSyntax

open Reading

namespace Reading

variable {rules : Rules} {stack : Stack} {r s q : Reading} {t : Text} {o : Outcome} {n : Nat}

/-- Wherever the run goes for which there is no room, reading has not got beyond. -/
theorem Goes.reaches_or_hasRoom (h : Goes rules stack r s) (h' : Reaches rules r q) :
    Reaches rules s q ∨ q.HasRoom rules stack := by
  induction h using Relation.ReflTransGen.head_induction_on with
  | refl => exact Or.inl h'
  | head hstep _ ih =>
    rcases h'.cases_head with rfl | ⟨p, hstep', hrest⟩
    · exact Or.inr hstep.2
    · rw [hstep'.unique hstep.1] at hrest
      exact ih hrest

/-- Where a run stops that had room for all of it, there was room everywhere before. -/
theorem Goes.hasRoom_of_stops (h : Goes rules stack r s) (hroom : s.HasRoom rules stack)
    (hs : Stops rules s o) (h' : Reaches rules r q) : q.HasRoom rules stack := by
  rcases h.reaches_or_hasRoom h' with hrest | hq
  · rcases hrest.cases_head with rfl | ⟨p, hstep, -⟩
    · exact hroom
    · exact absurd hstep hs.not_step
  · exact hq

/-- Eight calls are enough for any term of the text, and two more for each group around it. -/
theorem hasRoom_of_depth_le (hn : r.situation.depth ≤ n) (h : stack.holds (2 * n + 8)) :
    r.HasRoom rules stack := by
  have hnumeral : (stack.forTerm r.situation.depth).holds Stack.callsOfNumeral := by
    rw [Stack.forTerm, Stack.holds_inside (by decide)]
    refine Stack.holds_of_le h ?_
    rw [Stack.callsOfNumeral]
    omega
  refine hasRoom_of_holds (Stack.holds_of_le hnumeral (by decide)) fun _ => ?_
  rw [fitsLiteral, hnumeral, Bool.or_true]

/-- Without six calls, and two more for each group around it, there is no room for a term. Without
eight there is none for a numeral. -/
theorem not_hasRoom (hterm : r.situation.wantsTerm) (hrecorded : r.recorded ≠ [])
    (hdepth : r.situation.depth < rules.maxDepth)
    (h : ¬ stack.holds (2 * r.situation.depth + 6) ∨
      r.skipBlanks.cursor.nextIs .nonzeroDigit ∧ ¬ stack.holds (2 * r.situation.depth + 8)) :
    ¬ r.HasRoom rules stack := by
  intro hroom
  rcases h with h | ⟨hnext, h⟩
  · have hstack : ¬ (stack.forTerm r.situation.depth).holds Stack.callsOfTerm := by
      rw [holds_forTerm _ _ (by decide)]
      exact h
    exact hroom _ (.term hterm (absurd · hrecorded) (fun _ => hdepth) hstack)
  · obtain ⟨c, u, hahead, hc⟩ := Cursor.nextIs_iff.1 hnext
    have hstart : r.skipBlanks.cursor.nextSatisfies Symbol.startsLiteral :=
      Cursor.nextSatisfies_iff.2 ⟨c, u, hahead, by rw [hc]; rfl⟩
    have hzero : (c :: u).head? ≠ some '0' := by
      rintro ⟨⟩
      cases hc
    rw [hasRoom_iff_of_startsLiteral hterm hstart, hahead] at hroom
    simp only [Lexeme.calls, if_neg hzero] at hroom
    exact h hroom

/-- A group is open for every parenthesis that has been passed, at the most. -/
theorem Reaches.depth_add_count_le (h : Reaches rules (start t) r) :
    r.situation.depth + r.cursor.ahead.count '(' ≤ t.count '(' := by
  induction h with
  | refl => exact (Nat.zero_add _).le
  | tail _ hstep ih =>
    obtain ⟨w, l, rest, hmeets, rfl⟩ := hstep.exists_meets
    rw [hmeets.ahead_eq, List.count_append, List.count_append] at ih
    rw [hmeets.ahead_take, situation_take, situation_skipBlanks]
    cases hmeets.fits with
    | opening =>
      rw [List.count_singleton_self] at ih
      simp only [Situation.next, Situation.depth, List.length_cons] at ih ⊢
      omega
    | operand | operator =>
      simp only [Situation.next, Situation.depth] at ih ⊢
      omega
    | closing =>
      simp only [Situation.next, Situation.depth, List.length_tail] at ih ⊢
      omega

/-- Where a text begins with parentheses, they are read if so many groups are allowed. -/
theorem exists_reaches_replicate (hn : n ≤ rules.maxDepth) (rest : Text) :
    ∃ r, Reaches rules (start (List.replicate n '(' ++ rest)) r ∧ r.situation.wantsTerm ∧
      r.situation.depth = n ∧ r.cursor.ahead = rest := by
  induction n generalizing rest with
  | zero => exact ⟨start rest, .refl, rfl, rfl, rfl⟩
  | succ n ih =>
    obtain ⟨r, hreach, hterm, hdepth, hahead⟩ := ih (Nat.le_of_succ_le hn) ('(' :: rest)
    have hmeets : r.Meets rules [] ⟨['('], .opening⟩ rest :=
      ⟨Text.blank_nil, .opening hterm (by omega), hahead, nofun⟩
    refine ⟨r.skipBlanks.take .opening 1, ?_, rfl, congrArg Nat.succ hdepth, hmeets.ahead_take⟩
    rw [List.replicate_succ', List.append_assoc]
    exact hreach.tail hmeets.step

end Reading

namespace Analysis

variable {b : Blame} {rules : Rules} {stack : Stack} {t : Text} {r q : Reading} {o : Outcome}
  {n : Nat}

/-! ### With room and without -/

/-- A run that stops is not given up. -/
theorem not_isExhausted_conclude (h : Stops rules r o) :
    ¬ (ofOutcome (r.conclude b o)).isExhausted := by
  cases h with
  | complete => exact Bool.false_ne_true
  | _ =>
    rw [conclude]
    split <;> exact Bool.false_ne_true

/-- Where the run of a text is given up the text is rejected, as though a term were missing there.
The tokens found on the way are kept. -/
theorem ofText_of_givesUp (h : Goes rules stack (start t) r) (hgives : GivesUp rules stack r q) :
    ofText rules t b stack = {
      verdict := { status := .faulty .missingTerm, column := q.cursor.position }
      tokens := r.tokens
      cursor := q.cursor
      remark? := some (.exhausted rules.maxDepth q.cursor.position) } := by
  rw [ofText, wholeText_of_halts h (.givesUp hgives), conclude_exhaust, Reading.tokens,
    ← hgives.recorded_eq]
  rfl

/-- Where the run of a text stops with room for all of it the analysis is that with unlimited
room. -/
theorem ofText_of_stops (h : Goes rules stack (start t) r) (hroom : r.HasRoom rules stack)
    (hs : Stops rules r o) :
    ¬ (ofText rules t b stack).isExhausted ∧ ofText rules t b stack = ofText rules t b := by
  have houtcome := wholeText_of_halts (b := b) h (.stops hroom hs)
  refine ⟨?_, ?_⟩
  · rw [ofText, houtcome]
    exact not_isExhausted_conclude hs
  · rw [ofText, ofText, houtcome, wholeText_eq_conclude h.reaches hs]

/-- A text for which there is no room is rejected at the first place without. -/
theorem exists_givesUp_of_isExhausted (h : (ofText rules t b stack).isExhausted) :
    ∃ r q, Goes rules stack (start t) r ∧ GivesUp rules stack r q := by
  obtain ⟨r, o, hgoes, hhalts, -⟩ := exists_halts b rules stack t
  cases hhalts with
  | stops hroom hs => exact absurd h (ofText_of_stops hgoes hroom hs).1
  | givesUp hgives => exact ⟨r, _, hgoes, hgives⟩

/-- Reading that is not given up stops with room for all of it. -/
theorem exists_stops_of_not_isExhausted (h : ¬ (ofText rules t b stack).isExhausted) :
    ∃ r o, Goes rules stack (start t) r ∧ r.HasRoom rules stack ∧ Stops rules r o := by
  obtain ⟨r, o, hgoes, hhalts, -⟩ := exists_halts b rules stack t
  cases hhalts with
  | stops hroom hs => exact ⟨r, o, hgoes, hroom, hs⟩
  | givesUp hgives =>
    rw [ofText_of_givesUp hgoes hgives] at h
    exact absurd rfl h

/-- Reading that is not given up does not depend on how much room there is. -/
theorem ofText_eq_of_not_isExhausted (h : ¬ (ofText rules t b stack).isExhausted) :
    ofText rules t b stack = ofText rules t b := by
  obtain ⟨r, o, hgoes, hroom, hs⟩ := exists_stops_of_not_isExhausted h
  exact (ofText_of_stops hgoes hroom hs).2

/-- Reading is given up if the run comes to a place without room. -/
theorem isExhausted_iff :
    (ofText rules t b stack).isExhausted ↔
      ∃ r, Reaches rules (start t) r ∧ ¬ r.HasRoom rules stack := by
  constructor
  · intro h
    obtain ⟨r, q, hgoes, hgives⟩ := exists_givesUp_of_isExhausted h
    exact ⟨r, hgoes.reaches, fun hroom => hroom q hgives⟩
  · rintro ⟨q, hreach, hq⟩
    by_contra h
    obtain ⟨r, o, hgoes, hroom, hs⟩ := exists_stops_of_not_isExhausted h
    exact hq (hgoes.hasRoom_of_stops hroom hs hreach)

/-- A text that is given up lacks a term as far as its status tells. -/
theorem status_of_isExhausted (h : (ofText rules t b stack).isExhausted) :
    (ofText rules t b stack).verdict.status = .faulty .missingTerm := by
  obtain ⟨r, q, hgoes, hgives⟩ := exists_givesUp_of_isExhausted h
  rw [ofText_of_givesUp hgoes hgives]

/-- Any other status tells that there was room for the text. -/
theorem ofText_eq_of_status (h : (ofText rules t b stack).verdict.status ≠ .faulty .missingTerm) :
    ofText rules t b stack = ofText rules t b :=
  ofText_eq_of_not_isExhausted fun hexhausted => h (status_of_isExhausted hexhausted)

/-- A fault other than a missing term is found if there is room for the text and it is found with
unlimited room. -/
theorem verdict_eq_faulty_iff {f : Fault} {c : Int} (hf : f ≠ .missingTerm) :
    (ofText rules t b stack).verdict = { status := .faulty f, column := c } ↔
      ¬ (ofText rules t b stack).isExhausted ∧
        (ofText rules t b).verdict = { status := .faulty f, column := c } := by
  constructor
  · intro h
    have hnot : ¬ (ofText rules t b stack).isExhausted := by
      intro hexhausted
      have hstatus := status_of_isExhausted hexhausted
      rw [h] at hstatus
      exact hf (Status.faulty.inj hstatus)
    rw [ofText_eq_of_not_isExhausted hnot] at h
    exact ⟨hnot, h⟩
  · rintro ⟨hnot, h⟩
    rwa [ofText_eq_of_not_isExhausted hnot]

/-- A text that is given up is not well formed. -/
theorem not_isWellFormed_of_isExhausted (h : (ofText rules t b stack).isExhausted) :
    ¬ (ofText rules t b stack).isWellFormed := by
  rw [isWellFormed, Verdict.isWellFormed, status_of_isExhausted h]
  exact Bool.false_ne_true

/-- There was room for the tokens that have been found. -/
theorem holds_calls_tokens (rules : Rules) (t : Text) (b : Blame) (stack : Stack) :
    stack.holds (Token.calls (ofText rules t b stack).tokens) := by
  obtain ⟨r, o, hgoes, hhalts, -⟩ := exists_halts b rules stack t
  rw [tokens_of_halts hgoes hhalts]
  exact hgoes.holds_calls

/-- The lexemes of the tokens follow one another. -/
theorem admits_tokens (rules : Rules) (t : Text) (b : Blame) (stack : Stack) :
    ({} : Situation).Admits rules ((ofText rules t b stack).tokens.map Token.toLexeme) := by
  obtain ⟨r, o, hgoes, hhalts, -⟩ := exists_halts b rules stack t
  rw [tokens_of_halts hgoes hhalts]
  exact hgoes.reaches.admits_tokens.1

/-! ### Where a term has ended -/

/-- Where a term has ended there is room for what is found there. -/
theorem ofText_of_not_wantsTerm (hreach : Reaches rules (start t) r) (hs : Stops rules r o)
    (hterm : ¬ r.situation.wantsTerm) (hstack : stack.holds (Token.calls r.tokens)) :
    ofText rules t b stack = ofText rules t b :=
  (ofText_of_stops (hreach.goes_start_iff.2 hstack) (hasRoom_of_not_wantsTerm hterm) hs).2

/-- A well-formed text is read on every stack that has room for its tokens. -/
theorem isWellFormed_on_iff :
    (ofText rules t b stack).isWellFormed ↔
      (ofText rules t b).isWellFormed ∧ stack.holds (Token.calls (ofText rules t b).tokens) := by
  constructor
  · intro h
    have hnot : ¬ (ofText rules t b stack).isExhausted :=
      fun hexhausted => not_isWellFormed_of_isExhausted hexhausted h
    have hcalls := holds_calls_tokens rules t b stack
    rw [ofText_eq_of_not_isExhausted hnot] at h hcalls
    exact ⟨h, hcalls⟩
  · rintro ⟨h, hstack⟩
    obtain ⟨r, hreach, hstop, htokens⟩ := exists_run_of_isWellFormed h
    rw [htokens] at hstack
    rwa [ofText_of_not_wantsTerm hreach hstop hstop.not_wantsTerm_of_ok hstack]

/-- A text that is well formed with some room has the analysis that it has with unlimited room. -/
theorem ofText_eq_of_isWellFormed (h : (ofText rules t b stack).isWellFormed) :
    ofText rules t b stack = ofText rules t b := by
  obtain ⟨hwell, hstack⟩ := isWellFormed_on_iff.1 h
  obtain ⟨r, hreach, hstop, htokens⟩ := exists_run_of_isWellFormed hwell
  rw [htokens] at hstack
  exact ofText_of_not_wantsTerm hreach hstop hstop.not_wantsTerm_of_ok hstack

/-- A fault that is found where a term has ended is found on every stack that has room for the
tokens. -/
theorem ofText_of_holds_calls {f : Fault} {c : Nat} (hf : f = .extraneous ∨ f = .missingClosing)
    (h : (ofText rules t).verdict = { status := .faulty f, column := c })
    (hstack : stack.holds (Token.calls (ofText rules t).tokens)) :
    ofText rules t .operator stack = ofText rules t := by
  obtain ⟨r, e, hreach, hstop, -, -⟩ := exists_run_of_faulty h
  rw [tokens_ofText hreach hstop] at hstack
  refine ofText_of_not_wantsTerm hreach hstop (hstop.not_wantsTerm ?_) hstack
  rcases fault_of_verdict_eq hreach hstop h with hmissing | hfault
  · rcases hf with rfl | rfl <;> cases hmissing
  · rwa [← hfault]

/-- The room makes no other difference to such a fault. -/
theorem verdict_on_iff {f : Fault} {c : Nat} (hf : f = .extraneous ∨ f = .missingClosing) :
    (ofText rules t .operator stack).verdict = { status := .faulty f, column := c } ↔
      (ofText rules t).verdict = { status := .faulty f, column := c } ∧
        stack.holds (Token.calls (ofText rules t).tokens) := by
  constructor
  · intro h
    have heq : ofText rules t .operator stack = ofText rules t := by
      refine ofText_eq_of_status ?_
      rw [h]
      rcases hf with rfl | rfl <;> exact nofun
    have hcalls := holds_calls_tokens rules t .operator stack
    rw [heq] at h hcalls
    exact ⟨h, hcalls⟩
  · rintro ⟨h, hstack⟩
    rwa [ofText_of_holds_calls hf h hstack]

/-- There is always enough of an unlimited room. -/
theorem not_isExhausted_unlimited (rules : Rules) (t : Text) (b : Blame) :
    ¬ (ofText rules t b).isExhausted := by
  rw [isExhausted_iff]
  rintro ⟨r, -, hr⟩
  exact hr (hasRoom_unlimited rules r)

/-! ### How much room there has to be -/

/-- Eight calls are enough for a text, and two more for each group that it may open. These are no
more than the rules allow, nor than there are parentheses. -/
theorem not_isExhausted_of_holds
    (h : stack.holds (2 * min rules.maxDepth (t.count '(') + 8)) :
    ¬ (ofText rules t b stack).isExhausted := by
  rw [isExhausted_iff]
  rintro ⟨r, hreach, hr⟩
  have hcount := hreach.depth_add_count_le
  exact hr (hasRoom_of_depth_le (le_min hreach.depth_le (by omega)) h)

/-- Any room but an unlimited one ends in a text that opens groups enough, if the rules allow them.
It ends one group earlier if a numeral comes next. -/
theorem isExhausted_of_openings {rest : Text} (hn : 0 < n) (hdepth : n < rules.maxDepth)
    (h : ¬ stack.holds (2 * n + 6) ∨
      (∃ d u, rest = d :: u ∧ Symbol.ofChar d = .nonzeroDigit) ∧ ¬ stack.holds (2 * n + 8)) :
    (ofText rules (List.replicate n '(' ++ rest) b stack).isExhausted := by
  obtain ⟨r, hreach, hterm, hr, hahead⟩ := exists_reaches_replicate (Nat.le_of_lt hdepth) rest
  refine isExhausted_iff.2 ⟨r, hreach, not_hasRoom hterm ?_ (hr ▸ hdepth) ?_⟩
  · intro hnil
    rw [situation, hnil] at hr
    exact absurd hr (Nat.ne_of_lt hn)
  · rw [hr]
    rcases h with hshort | ⟨hdigit, hnumeral⟩
    · exact Or.inl hshort
    · obtain ⟨d, u, hrest, hd⟩ := hdigit
      have hskip : r.skipBlanks.cursor.ahead = [] ++ d :: u :=
        Cursor.ahead_skipBlanks_of_append Text.blank_nil
          (Text.firstNot_cons.2 (by rw [hd]; rfl)) (hahead.trans hrest)
      exact Or.inr ⟨Cursor.nextIs_iff.2 ⟨d, u, hskip, hd⟩, hnumeral⟩

end Analysis

end ArithSyntax
