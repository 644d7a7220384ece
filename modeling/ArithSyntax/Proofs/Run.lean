import ArithSyntax.Proofs.Evaluation
import ArithSyntax.Proofs.Step

/-!
# The run of a text

The recursive stages and the lexeme-by-lexeme steps read alike: `Reads.follows` turns the outcome
of a stage into a run of steps, with the open groups of the recursion as the `around` of the
situation. A fault that travels up through the stages becomes the operator's at the first right-hand
term that it leaves; which faults do is told by the situation in which the run stops. Where there
was no room for a term the run has come to a reading that gives up.

`exists_halts` and `wholeText_of_halts` state this for a whole text on any stack, and `exists_run`
and `wholeText_eq_conclude` for unlimited room. From here on the outcome of a text is got from its
run, without the recursion.
-/

namespace ArithSyntax

/-! ### From stages to steps -/

open Reading

variable {b : Blame} {rules : Rules} {stage : Stage} {depth : Nat} {stack left : Stack}
  {r s : Reading} {o : Outcome} {e : Rejection}

/-- Reading on from `r` ends with the rejection `e`. Either there was no room for a term, or the
fault has become the operator's if it was found in the right-hand term of an operator in the part
that was read, and `owed` says whether that part is itself in such a term. -/
def Reading.Rejects (b : Blame) (rules : Rules) (stack : Stack) (r : Reading) (owed : Bool)
    (e : Rejection) : Prop :=
  ∃ s, Goes rules stack r s ∧
    ((∃ q, GivesUp rules stack s q ∧ e = q.exhaust rules.maxDepth) ∨
      ∃ e₀ found, s.HasRoom rules stack ∧ Stops rules s (.error e₀) ∧
        e = (if found then e₀.blame b else e₀) ∧ s.situation.blames e₀.fault = (found || owed))

/-- The rejection at the place itself. -/
theorem Reading.Rejects.of_stops (hroom : r.HasRoom rules stack) (h : Stops rules r (.error e)) :
    Rejects b rules stack r (r.situation.blames e.fault) e :=
  ⟨r, .refl, Or.inr ⟨e, false, hroom, h, rfl, rfl⟩⟩

/-- Giving up at the place itself. -/
theorem Reading.Rejects.of_givesUp {owed : Bool} (h : GivesUp rules stack r s) :
    Rejects b rules stack r owed (s.exhaust rules.maxDepth) :=
  ⟨r, .refl, Or.inl ⟨s, h, rfl⟩⟩

/-- A rejection behind a run is one of the reading with which the run begins. -/
theorem Reading.Rejects.of_goes {owed : Bool} (h : Goes rules stack r s)
    (hs : Rejects b rules stack s owed e) : Rejects b rules stack r owed e := by
  obtain ⟨t, hgoes, ht⟩ := hs
  exact ⟨t, h.trans hgoes, ht⟩

/-- A rejection blamed on an operator stays so, whatever is around. -/
theorem Reading.Rejects.blame (owed : Bool) (h : Rejects b rules stack r true e) :
    Rejects b rules stack r owed (e.blame b) := by
  obtain ⟨s, hgoes, ⟨q, hgives, rfl⟩ | ⟨e₀, found, hroom, hstop, rfl, howed⟩⟩ := h
  · exact ⟨s, hgoes, Or.inl ⟨q, hgives, Rejection.blame_exhaust q rules.maxDepth b⟩⟩
  · refine ⟨s, hgoes, Or.inr ⟨e₀, true, hroom, hstop, ?_, ?_⟩⟩
    · cases found
      · rfl
      · cases b <;> rfl
    · rw [howed, Bool.or_true, Bool.true_or]

/-- The room that is left for a stage inside `depth` open groups, where it begins. -/
def Stage.room (stage : Stage) (stack : Stack) (depth : Nat) : Stack :=
  match stage with
  | term => stack.forTerm depth
  | _ => stack.inside (2 * depth)

/-- Where a stage can begin. -/
def Stage.Begins (stage : Stage) (depth : Nat) (r : Reading) : Prop :=
  r.situation.depth = depth ∧
    match stage with
    | term => r.situation.wantsTerm ∧ (r.recorded = [] → ¬ r.skipBlanks.cursor.atEnd)
    | operands => ¬ r.situation.wantsTerm
    | expression => r.situation.wantsTerm ∧ (r.recorded = [] → ¬ r.skipBlanks.cursor.atEnd) ∧
        r.situation.chained = false

/-- How a stage that begins at `r` is followed by steps to its outcome. -/
def Stage.Follows (b : Blame) (rules : Rules) (stack : Stack) (r : Reading) :
    Stage → Outcome → Prop
  | term, .ok s => Goes rules stack r s ∧ s.situation = { r.situation with wantsTerm := false }
  | term, .error e =>
    Rejects b rules stack r (r.situation.chained || r.situation.around.any id) e
  | _, .ok s => ∃ q, Goes rules stack r q ∧ s = q.skipBlanks ∧ ¬ q.situation.wantsTerm ∧
      q.situation.around = r.situation.around ∧ ¬ s.cursor.nextSatisfies Symbol.isOperator
  | _, .error e => Rejects b rules stack r (r.situation.around.any id) e

/-- What follows the operators after a term is the same before and after some steps that open and
close the same groups. -/
theorem Stage.Follows.of_goes (hstage : stage ≠ term) (h : Goes rules stack r s)
    (haround : s.situation.around = r.situation.around)
    (hs : operands.Follows b rules stack s o) : stage.Follows b rules stack r o := by
  have hoperands : operands.Follows b rules stack r o := by
    cases o with
    | error e =>
      simp only [Stage.Follows] at hs ⊢
      rw [← haround]
      exact hs.of_goes h
    | ok u =>
      obtain ⟨q, hgoes, hu, hterm, hq, hoperator⟩ := hs
      exact ⟨q, h.trans hgoes, hu, hterm, hq.trans haround, hoperator⟩
  cases stage with
  | term => exact absurd rfl hstage
  | operands => exact hoperands
  | expression => cases o <;> exact hoperands

/-- A group leaves the room for an expression in it that is left for one inside one more group. -/
theorem Stack.inside_forTerm (stack : Stack) (depth : Nat) :
    (stack.forTerm depth).inside 1 = stack.inside (2 * (depth + 1)) := by
  rw [forTerm, inside_inside]
  rfl

/-- An expression leaves the room for a term in it. -/
theorem Stack.inside_two_mul (stack : Stack) (depth : Nat) :
    (stack.inside (2 * depth)).inside 1 = stack.forTerm depth :=
  stack.inside_inside _ _

/-- A stage and the steps from where it begins read alike, with the room that is left for it. -/
theorem Reads.follows (h : Reads b rules stage depth left r o) (hr : stage.Begins depth r)
    (hroom : left = stage.room stack depth) : stage.Follows b rules stack r o := by
  induction h with
  | tooDeep hopening hdepth =>
    obtain ⟨rfl, hterm, -⟩ := hr
    exact .of_stops (hasRoom_of_tooDeep hopening hdepth) (.tooDeep hterm hopening hdepth)
  | exhausted hdepth hstack =>
    obtain ⟨rfl, hterm, hrecorded⟩ := hr
    subst hroom
    exact .of_givesUp (.term hterm hrecorded hdepth hstack)
  | @groupRejected depth _ r e hopening hdepth hstack _ ih =>
    -- the group is entered in one step, and the expression in it ends as its own stage does
    obtain ⟨rfl, hterm, -⟩ := hr
    subst hroom
    have hstep := goes_opening hterm hopening hdepth hstack
    have hinner := ih ⟨rfl, rfl, (absurd · (List.cons_ne_nil _ _)), rfl⟩ (stack.inside_forTerm _)
    exact Rejects.of_goes hstep hinner
  | @unclosed depth _ r s hopening hdepth hstack _ hclosing ih =>
    obtain ⟨rfl, hterm, -⟩ := hr
    subst hroom
    have hstep := goes_opening hterm hopening hdepth hstack
    obtain ⟨q, hgoes, rfl, hq, haround, hoperator⟩ :=
      ih ⟨rfl, rfl, (absurd · (List.cons_ne_nil _ _)), rfl⟩ (stack.inside_forTerm _)
    rw [q.skipBlanks_skipBlanks] at hclosing ⊢
    have hpos := Situation.depth_pos haround
    -- the operators that are blamed are those read before the group, not those in it
    have hrejects : Rejects b rules stack q (q.situation.around.any id)
        (q.skipBlanks.reject .missingClosing) :=
      .of_stops (hasRoom_of_not_wantsTerm hq) (.unclosed hq hpos hoperator hclosing)
    rw [haround] at hrejects
    exact (hrejects.of_goes hgoes).of_goes hstep
  | @group depth _ r s hopening hdepth hstack _ hclosing ih =>
    obtain ⟨rfl, hterm, -⟩ := hr
    subst hroom
    have hstep := goes_opening hterm hopening hdepth hstack
    obtain ⟨q, hgoes, rfl, hq, haround, hoperator⟩ :=
      ih ⟨rfl, rfl, (absurd · (List.cons_ne_nil _ _)), rfl⟩ (stack.inside_forTerm _)
    rw [q.skipBlanks_skipBlanks] at hclosing ⊢
    have hpos := Situation.depth_pos haround
    refine ⟨(hstep.trans hgoes).tail ⟨.closing hq hclosing hpos, hasRoom_of_not_wantsTerm hq⟩, ?_⟩
    rw [situation_take, situation_skipBlanks, Situation.next, haround]
    rfl
  | exhaustedLiteral _ hstack hstart hliteral =>
    obtain ⟨rfl, hterm, -⟩ := hr
    subst hroom
    exact .of_givesUp (.literal hterm hstart hstack hliteral)
  | malformed _ hstack hstart hliteral hscan =>
    obtain ⟨rfl, hterm, -⟩ := hr
    subst hroom
    exact .of_stops (hasRoom_of_holds hstack fun _ => hliteral) (.malformed hterm hstart hscan)
  | outOfRange _ hstack hliteral hscan hadmits =>
    obtain ⟨rfl, hterm, -⟩ := hr
    subst hroom
    exact .of_stops (hasRoom_of_holds hstack fun _ => hliteral) (.outOfRange hterm hscan hadmits)
  | literal _ hstack hliteral hscan hadmits =>
    obtain ⟨rfl, hterm, -⟩ := hr
    subst hroom
    have hstep := Step.operand hterm hscan hadmits
    exact ⟨.single ⟨hstep, hasRoom_of_holds hstack fun _ => hliteral⟩, rfl⟩
  | noTerm hopening hstack hstart =>
    obtain ⟨rfl, hterm, hrecorded⟩ := hr
    subst hroom
    exact .of_stops (hasRoom_of_holds hstack fun h => absurd h hstart)
      (.noTerm hterm hrecorded hopening hstart)
  | @noOperator depth _ r hoperator =>
    obtain ⟨rfl, hterm⟩ := hr
    exact ⟨r, .refl, rfl, hterm, rfl, hoperator⟩
  | @operandRejected depth _ r e hoperator _ ih =>
    -- the operator before the term takes over its fault
    obtain ⟨rfl, hterm⟩ := hr
    subst hroom
    have hinner := ih ⟨rfl, rfl, (absurd · (List.cons_ne_nil _ _))⟩ (stack.inside_two_mul _)
    exact (Rejects.blame _ hinner).of_goes (goes_operator hterm hoperator)
  | @operand depth _ r s o hoperator _ _ ihterm ihrest =>
    obtain ⟨rfl, hterm⟩ := hr
    subst hroom
    obtain ⟨hgoes, hs⟩ :=
      ihterm ⟨rfl, rfl, (absurd · (List.cons_ne_nil _ _))⟩ (stack.inside_two_mul _)
    -- the rest of the expression is inside the same groups as its first part
    have haround : s.situation.around = r.situation.around := by rw [hs]; rfl
    have hrest := ihrest ⟨congrArg List.length haround, by rw [hs]; exact Bool.false_ne_true⟩ rfl
    exact Stage.Follows.of_goes (by decide) ((goes_operator hterm hoperator).trans hgoes) haround
      hrest
  | firstRejected _ ih =>
    obtain ⟨rfl, hterm, hrecorded, hchained⟩ := hr
    subst hroom
    have hinner := ih ⟨rfl, hterm, hrecorded⟩ (stack.inside_two_mul _)
    simp only [Stage.Follows, hchained, Bool.false_or] at hinner
    exact hinner
  | @first depth _ r s o _ _ ihterm ihrest =>
    obtain ⟨rfl, hterm, hrecorded, -⟩ := hr
    subst hroom
    obtain ⟨hgoes, hs⟩ := ihterm ⟨rfl, hterm, hrecorded⟩ (stack.inside_two_mul _)
    have haround : s.situation.around = r.situation.around := by rw [hs]
    have hrest := ihrest ⟨congrArg List.length haround, by rw [hs]; exact Bool.false_ne_true⟩ rfl
    exact Stage.Follows.of_goes (by decide) hgoes haround hrest

/-! ### Whole texts -/

variable {t : Text}

/-- Giving up is no operator's fault. -/
theorem Reading.conclude_exhaust (b : Blame) (r q : Reading) (limit : Nat) :
    r.conclude b (.error (q.exhaust limit)) = .error (q.exhaust limit) := by
  rw [conclude, Rejection.blame_exhaust, ite_self]

/-- The outcome of a text is the one with which its run ends. -/
theorem exists_halts (b : Blame) (rules : Rules) (stack : Stack) (t : Text) :
    ∃ r o, Goes rules stack (start t) r ∧ Halts rules stack r o ∧
      wholeText b rules t stack = r.conclude b o := by
  unfold wholeText
  dsimp only
  split
  · rename_i hend
    exact ⟨start t, _, .refl, .stops (hasRoom_of_empty rfl hend) (.empty rfl hend), rfl⟩
  · rename_i hend
    rw [expression_skipBlanks]
    have hbegins : Stage.expression.Begins 0 (start t) := ⟨rfl, rfl, fun _ => hend, rfl⟩
    have hfollows := (reads_read b rules .expression 0 stack (start t)).follows hbegins
      (stack.inside_zero).symm
    simp only [Stage.read] at hfollows
    split
    · rename_i e he
      rw [he] at hfollows
      obtain ⟨s, hgoes, ⟨q, hgives, rfl⟩ | ⟨e₀, found, hroom, hstop, rfl, howed⟩⟩ := hfollows
      · exact ⟨s, _, hgoes, .givesUp hgives, (s.conclude_exhaust b q _).symm⟩
      · refine ⟨s, .error e₀, hgoes, .stops hroom hstop, ?_⟩
        rw [conclude, howed, situation_start, List.any_nil, Bool.or_false]
    · rename_i s hs
      -- every group that was begun has been closed, so the run can only end at what follows
      rw [hs] at hfollows
      obtain ⟨q, hgoes, rfl, hterm, haround, hoperator⟩ := hfollows
      have hdepth : q.situation.depth = 0 := congrArg List.length haround
      have hroom : q.HasRoom rules stack := hasRoom_of_not_wantsTerm hterm
      rw [q.skipBlanks_skipBlanks]
      split
      · rename_i hend'
        exact ⟨q, _, hgoes, .stops hroom (.complete hterm hdepth hend'), rfl⟩
      · rename_i hend'
        exact ⟨q, _, hgoes, .stops hroom (.extraneous hterm hdepth hend' hoperator), rfl⟩

/-- The run of a text decides its outcome. -/
theorem wholeText_of_halts (h : Goes rules stack (start t) r) (hs : Halts rules stack r o) :
    wholeText b rules t stack = r.conclude b o := by
  obtain ⟨r', o', h', hs', heq⟩ := exists_halts b rules stack t
  obtain ⟨rfl, rfl⟩ := h.unique hs h' hs'
  exact heq

/-- Where reading ends it has the tokens of the outcome. -/
theorem Reading.Halts.tokens_eq (h : Halts rules stack r o) :
    (Analysis.ofOutcome (r.conclude b o)).tokens = r.tokens := by
  have hblame (e : Rejection) (c : Bool) :
      (if c then e.blame b else e).reading = e.reading := by
    cases c <;> rfl
  cases h with
  | givesUp hgives =>
    rw [conclude_exhaust]
    exact congrArg List.reverse hgives.recorded_eq
  | stops _ hs =>
    cases o with
    | ok s =>
      cases hs
      rfl
    | error e =>
      simp only [conclude, Analysis.ofOutcome, hblame]
      cases hs <;> rfl

/-- The tokens of a text are those of the reading where its run ends. -/
theorem tokens_of_halts (h : Goes rules stack (start t) r) (hs : Halts rules stack r o) :
    (Analysis.ofText rules t b stack).tokens = r.tokens := by
  rw [Analysis.ofText, wholeText_of_halts h hs, hs.tokens_eq]

/-- The verdict on a text whose run is complete. -/
theorem verdict_of_halts_ok (h : Goes rules stack (start t) r)
    (hs : Halts rules stack r (.ok s)) :
    (Analysis.ofText rules t b stack).verdict = { status := .wellFormed } := by
  rw [Analysis.ofText, wholeText_of_halts h hs]
  rfl

/-- The verdict on a text whose run ends with a fault. -/
theorem verdict_of_halts (h : Goes rules stack (start t) r)
    (hs : Halts rules stack r (.error e)) :
    (Analysis.ofText rules t b stack).verdict = {
      status := .faulty (if r.situation.blames e.fault then b.fault e.fault else e.fault)
      column := e.column } := by
  rw [Analysis.ofText, wholeText_of_halts h hs, conclude]
  by_cases hblames : r.situation.blames e.fault
  · rw [if_pos hblames, if_pos hblames]
    rfl
  · rw [if_neg hblames, if_neg hblames]
    rfl

/-- The fault reported of a text is the one with which its run ends, or else a missing term. -/
theorem fault_of_halts {f : Fault} {c : Int} (h : Goes rules stack (start t) r)
    (hs : Halts rules stack r (.error e))
    (hverdict : (Analysis.ofText rules t b stack).verdict = { status := .faulty f, column := c }) :
    f = .missingTerm ∨ f = e.fault := by
  rw [verdict_of_halts h hs, Verdict.mk.injEq, Status.faulty.injEq] at hverdict
  rw [← hverdict.1]
  split
  · cases b
    · exact Or.inl rfl
    · exact Or.inr rfl
  · exact Or.inr rfl

/-- A text that is reported to end unexpectedly consists of blanks. -/
theorem empty_of_halts {c : Int} (h : Goes rules stack (start t) r)
    (hs : Halts rules stack r (.error e))
    (hverdict : (Analysis.ofText rules t b stack).verdict =
      { status := .faulty .unexpectedEnd, column := c }) :
    r.skipBlanks.cursor.atEnd ∧ e = r.skipBlanks.reject .unexpectedEnd := by
  rcases fault_of_halts h hs hverdict with hfault | hfault
  · cases hfault
  · cases hs with
    | stops _ hstop => exact hstop.of_unexpectedEnd hfault.symm
    | givesUp => cases hfault

/-! ### Unlimited room -/

/-- The outcome of a text is the one with which its run stops, where the room is unlimited. -/
theorem exists_run (b : Blame) (rules : Rules) (t : Text) :
    ∃ r o, Reaches rules (start t) r ∧ Stops rules r o ∧
      wholeText b rules t = r.conclude b o := by
  obtain ⟨r, o, hgoes, hhalts, houtcome⟩ := exists_halts b rules .unlimited t
  cases hhalts with
  | stops _ hstop => exact ⟨r, o, hgoes.reaches, hstop, houtcome⟩
  | givesUp hgives => exact absurd hgives (hasRoom_unlimited rules r _)

/-- With unlimited room the outcome of a text is that of the reading where its run stops. -/
theorem wholeText_eq_conclude (h : Reaches rules (start t) r) (hs : Stops rules r o) :
    wholeText b rules t = r.conclude b o :=
  wholeText_of_halts h.goes_unlimited hs.halts

/-- With unlimited room the tokens of a text are those of the reading where its run stops. -/
theorem tokens_ofText (h : Reaches rules (start t) r) (hs : Stops rules r o) :
    (Analysis.ofText rules t b).tokens = r.tokens :=
  tokens_of_halts h.goes_unlimited hs.halts

/-- The analysis ends where the run stops. -/
theorem cursor_ofText (h : Reaches rules (start t) r) (hs : Stops rules r (.error e)) :
    (Analysis.ofText rules t b).cursor = e.reading.cursor := by
  rw [Analysis.ofText, wholeText_eq_conclude h hs, conclude]
  split <;> rfl

/-- Nothing is remarked of a text whose run is complete. -/
theorem remark_ofText_of_ok (h : Reaches rules (start t) r) (hs : Stops rules r (.ok s)) :
    (Analysis.ofText rules t b).remark? = none := by
  rw [Analysis.ofText, wholeText_eq_conclude h hs]
  rfl

/-- Of a text is remarked what is remarked where its run stops. -/
theorem remark_ofText (h : Reaches rules (start t) r) (hs : Stops rules r (.error e)) :
    (Analysis.ofText rules t b).remark? = e.remark? := by
  rw [Analysis.ofText, wholeText_eq_conclude h hs, conclude]
  split <;> rfl

/-- What has been read on the way stays recorded. -/
theorem tokens_prefix_ofText (h : Reaches rules (start t) r) :
    r.tokens <+: (Analysis.ofText rules t b).tokens := by
  obtain ⟨s, o, hreach, hstop, -⟩ := exists_run b rules t
  rw [tokens_ofText hreach hstop]
  exact (h.reaches_of_stops hreach hstop).prefix_tokens

/-- With unlimited room a text whose run stops without a fault is well formed. -/
theorem verdict_ofText_of_ok (h : Reaches rules (start t) r) (hs : Stops rules r (.ok s)) :
    (Analysis.ofText rules t b).verdict = { status := .wellFormed } :=
  verdict_of_halts_ok h.goes_unlimited hs.halts

/-- The verdict on a text whose run stops at a fault. -/
theorem verdict_ofText (h : Reaches rules (start t) r) (hs : Stops rules r (.error e)) :
    (Analysis.ofText rules t b).verdict = {
      status := .faulty (if r.situation.blames e.fault then b.fault e.fault else e.fault)
      column := e.column } :=
  verdict_of_halts h.goes_unlimited hs.halts

/-- The fault reported of a text is the one at which its run stops, or else a missing term. -/
theorem fault_of_verdict_eq {f : Fault} {c : Int} (h : Reaches rules (start t) r)
    (hs : Stops rules r (.error e))
    (hverdict : (Analysis.ofText rules t).verdict = { status := .faulty f, column := c }) :
    f = .missingTerm ∨ f = e.fault :=
  fault_of_halts h.goes_unlimited hs.halts hverdict

/-- The run of a text with a fault stops at the column of the fault. -/
theorem exists_run_of_faulty {f : Fault} {c : Nat}
    (h : (Analysis.ofText rules t).verdict = { status := .faulty f, column := c }) :
    ∃ r e, Reaches rules (start t) r ∧ Stops rules r (.error e) ∧ e.column = c ∧
      f = if r.situation.blames e.fault then .missingTerm else e.fault := by
  obtain ⟨r, o, hreach, hstop, -⟩ := exists_run .operator rules t
  cases o with
  | ok s =>
    rw [verdict_ofText_of_ok hreach hstop] at h
    cases h
  | error e =>
    rw [verdict_ofText hreach hstop, Verdict.mk.injEq, Status.faulty.injEq] at h
    exact ⟨r, e, hreach, hstop, Int.ofNat.inj h.2, h.1.symm⟩

end ArithSyntax
