import ArithSyntax.Analysis
import ArithSyntax.Proofs.Literal

/-!
# Reading as a relation

`Reads` says, with one rule for each way in which a stage of reading can end, which outcome a stage
has with the room that it has. Every stage has the outcome that its function computes
(`reads_read`), so whatever is proved by induction over `Reads` holds of `term`, `operands` and
`expression`.
-/

namespace ArithSyntax

/-- The stages in which an expression is read. -/
inductive Stage where
  /-- A group or a literal. -/
  | term
  /-- Operators with a term after each. -/
  | operands
  /-- A term and what `operands` reads after it. -/
  | expression
deriving DecidableEq

/-- What a stage reads inside `depth` open groups. -/
def Stage.read (b : Blame) (rules : Rules) (stage : Stage) (depth : Nat) (r : Reading)
    (stack : Stack := .unlimited) : Outcome :=
  match stage with
  | term => ArithSyntax.term b rules depth r stack
  | operands => ArithSyntax.operands b rules depth r stack
  | expression => ArithSyntax.expression b rules depth r stack

/-- A stage that begins inside `depth` open groups at a given reading, with room for a given stack
of calls, has a given outcome. -/
inductive Reads (b : Blame) (rules : Rules) :
    Stage → (depth : Nat) → Stack → Reading → Outcome → Prop
  | tooDeep {depth : Nat} {stack : Stack} {r : Reading}
      (hopening : r.skipBlanks.cursor.nextIs .opening) (hdepth : rules.maxDepth ≤ depth) :
      Reads b rules .term depth stack r (.error (r.skipBlanks.reject .missingTerm
        (some (.tooDeep rules.maxDepth r.skipBlanks.cursor.position))))
  | exhausted {depth : Nat} {stack : Stack} {r : Reading}
      (hdepth : r.skipBlanks.cursor.nextIs .opening → depth < rules.maxDepth)
      (hstack : ¬ stack.holds Stack.callsOfTerm) :
      Reads b rules .term depth stack r (.error (r.skipBlanks.exhaust rules.maxDepth))
  | groupRejected {depth : Nat} {stack : Stack} {r : Reading} {e : Rejection}
      (hopening : r.skipBlanks.cursor.nextIs .opening) (hdepth : depth < rules.maxDepth)
      (hstack : stack.holds Stack.callsOfTerm)
      (hinner : Reads b rules .expression (depth + 1) (stack.inside 1)
        (r.skipBlanks.take .opening 1) (.error e)) :
      Reads b rules .term depth stack r (.error e)
  | unclosed {depth : Nat} {stack : Stack} {r s : Reading}
      (hopening : r.skipBlanks.cursor.nextIs .opening) (hdepth : depth < rules.maxDepth)
      (hstack : stack.holds Stack.callsOfTerm)
      (hinner : Reads b rules .expression (depth + 1) (stack.inside 1)
        (r.skipBlanks.take .opening 1) (.ok s))
      (hclosing : ¬ s.skipBlanks.cursor.nextIs .closing) :
      Reads b rules .term depth stack r (.error (s.skipBlanks.reject .missingClosing))
  | group {depth : Nat} {stack : Stack} {r s : Reading}
      (hopening : r.skipBlanks.cursor.nextIs .opening) (hdepth : depth < rules.maxDepth)
      (hstack : stack.holds Stack.callsOfTerm)
      (hinner : Reads b rules .expression (depth + 1) (stack.inside 1)
        (r.skipBlanks.take .opening 1) (.ok s))
      (hclosing : s.skipBlanks.cursor.nextIs .closing) :
      Reads b rules .term depth stack r (.ok (s.skipBlanks.take .closing 1))
  | exhaustedLiteral {depth : Nat} {stack : Stack} {r : Reading}
      (hopening : ¬ r.skipBlanks.cursor.nextIs .opening) (hstack : stack.holds Stack.callsOfTerm)
      (hstart : r.skipBlanks.cursor.nextSatisfies Symbol.startsLiteral)
      (hliteral : ¬ r.skipBlanks.fitsLiteral stack) :
      Reads b rules .term depth stack r (.error (r.skipBlanks.passSign.exhaust rules.maxDepth))
  | malformed {depth : Nat} {stack : Stack} {r : Reading} {offset passed : Nat}
      (hopening : ¬ r.skipBlanks.cursor.nextIs .opening) (hstack : stack.holds Stack.callsOfTerm)
      (hstart : r.skipBlanks.cursor.nextSatisfies Symbol.startsLiteral)
      (hliteral : r.skipBlanks.fitsLiteral stack)
      (hscan : Literal.scan r.skipBlanks.cursor.ahead = .malformed offset passed) :
      Reads b rules .term depth stack r (.error {
        fault := .illFormedInteger
        column := r.skipBlanks.cursor.position + offset
        reading := r.skipBlanks.forward passed })
  | outOfRange {depth : Nat} {stack : Stack} {r : Reading} {n : Nat}
      (hopening : ¬ r.skipBlanks.cursor.nextIs .opening) (hstack : stack.holds Stack.callsOfTerm)
      (hliteral : r.skipBlanks.fitsLiteral stack)
      (hscan : Literal.scan r.skipBlanks.cursor.ahead = .complete n)
      (hadmits : ¬ rules.admits (r.skipBlanks.cursor.ahead.take n)) :
      Reads b rules .term depth stack r (.error {
        fault := .outOfRange
        column := r.skipBlanks.cursor.position
        reading := r.skipBlanks.forward n })
  | literal {depth : Nat} {stack : Stack} {r : Reading} {n : Nat}
      (hopening : ¬ r.skipBlanks.cursor.nextIs .opening) (hstack : stack.holds Stack.callsOfTerm)
      (hliteral : r.skipBlanks.fitsLiteral stack)
      (hscan : Literal.scan r.skipBlanks.cursor.ahead = .complete n)
      (hadmits : rules.admits (r.skipBlanks.cursor.ahead.take n)) :
      Reads b rules .term depth stack r (.ok (r.skipBlanks.take .operand n))
  | noTerm {depth : Nat} {stack : Stack} {r : Reading}
      (hopening : ¬ r.skipBlanks.cursor.nextIs .opening) (hstack : stack.holds Stack.callsOfTerm)
      (hstart : ¬ r.skipBlanks.cursor.nextSatisfies Symbol.startsLiteral) :
      Reads b rules .term depth stack r (.error (r.skipBlanks.reject .missingTerm))
  | noOperator {depth : Nat} {stack : Stack} {r : Reading}
      (hoperator : ¬ r.skipBlanks.cursor.nextSatisfies Symbol.isOperator) :
      Reads b rules .operands depth stack r (.ok r.skipBlanks)
  | operandRejected {depth : Nat} {stack : Stack} {r : Reading} {e : Rejection}
      (hoperator : r.skipBlanks.cursor.nextSatisfies Symbol.isOperator)
      (hterm : Reads b rules .term depth (stack.inside 1) (r.skipBlanks.take .operator 1)
        (.error e)) :
      Reads b rules .operands depth stack r (.error (e.blame b))
  | operand {depth : Nat} {stack : Stack} {r s : Reading} {o : Outcome}
      (hoperator : r.skipBlanks.cursor.nextSatisfies Symbol.isOperator)
      (hterm : Reads b rules .term depth (stack.inside 1) (r.skipBlanks.take .operator 1) (.ok s))
      (hrest : Reads b rules .operands depth stack s o) : Reads b rules .operands depth stack r o
  | firstRejected {depth : Nat} {stack : Stack} {r : Reading} {e : Rejection}
      (hterm : Reads b rules .term depth (stack.inside 1) r (.error e)) :
      Reads b rules .expression depth stack r (.error e)
  | first {depth : Nat} {stack : Stack} {r s : Reading} {o : Outcome}
      (hterm : Reads b rules .term depth (stack.inside 1) r (.ok s))
      (hrest : Reads b rules .operands depth stack s o) :
      Reads b rules .expression depth stack r o

variable {b : Blame} {rules : Rules} {depth : Nat} {stack : Stack} {r s : Reading}
  {p : Symbol → Bool}

/-- A character is passed when it is taken as a token. -/
theorem Reading.unread_take_one_lt (kind : Lexeme.Kind)
    (h : r.skipBlanks.cursor.nextSatisfies p) : (r.skipBlanks.take kind 1).unread < r.unread := by
  have hpos : 0 < r.skipBlanks.unread := Reading.unread_pos_of_nextSatisfies h
  have hle : r.skipBlanks.unread ≤ r.unread := r.unread_skipBlanks_le
  rw [Reading.unread_take]
  omega

/-- An expression is read as its first term is read and then the rest. -/
theorem Reads.expression_of_term {o : Outcome}
    (hterm : Reads b rules .term depth (stack.inside 1) r o)
    (hrest : ∀ s, o = .ok s →
      Reads b rules .operands depth stack s (operands b rules depth s stack)) :
    Reads b rules .expression depth stack r
      (o.bind fun s => operands b rules depth s stack) := by
  cases o with
  | error e => exact .firstRejected hterm
  | ok s => exact .first hterm (hrest s rfl)

/-- Reading a literal where one begins has one of the four outcomes for literals. -/
theorem Reads.of_literal (hopening : ¬ r.skipBlanks.cursor.nextIs .opening)
    (hstack : stack.holds Stack.callsOfTerm)
    (hstart : r.skipBlanks.cursor.nextSatisfies Symbol.startsLiteral) :
    Reads b rules .term depth stack r (r.skipBlanks.literalOn stack rules) := by
  unfold Reading.literalOn
  split
  · rename_i hliteral
    unfold Reading.literal
    split
    · rename_i offset passed hscan
      exact .malformed hopening hstack hstart hliteral hscan
    · rename_i n hscan
      split
      · rename_i hadmits
        exact .literal hopening hstack hliteral hscan hadmits
      · rename_i hadmits
        exact .outOfRange hopening hstack hliteral hscan hadmits
  · rename_i hliteral
    exact .exhaustedLiteral hopening hstack hstart hliteral

/-- A term is read by one of its rules, if the inside of a group is. -/
theorem reads_term (hinner : r.skipBlanks.cursor.nextIs .opening →
      Reads b rules .expression (depth + 1) (stack.inside 1) (r.skipBlanks.take .opening 1)
        (expression b rules (depth + 1) (r.skipBlanks.take .opening 1) (stack.inside 1))) :
    Reads b rules .term depth stack r (term b rules depth r stack) := by
  rw [term_eq]
  by_cases hopening : r.skipBlanks.cursor.nextIs .opening
  · rw [if_pos hopening]
    split
    · rename_i hdepth
      exact .tooDeep hopening hdepth
    · rename_i hdepth
      split
      · rename_i hstack
        have hread := hinner hopening
        split
        · rename_i e he
          exact .groupRejected hopening (Nat.lt_of_not_le hdepth) hstack (he ▸ hread)
        · rename_i s hs
          split
          · rename_i hclosing
            exact .group hopening (Nat.lt_of_not_le hdepth) hstack (hs ▸ hread) hclosing
          · rename_i hclosing
            exact .unclosed hopening (Nat.lt_of_not_le hdepth) hstack (hs ▸ hread) hclosing
      · rename_i hstack
        exact .exhausted (fun _ => Nat.lt_of_not_le hdepth) hstack
  · rw [if_neg hopening]
    split
    · rename_i hstack
      split
      · rename_i hstart
        exact Reads.of_literal hopening hstack hstart
      · rename_i hstart
        exact .noTerm hopening hstack hstart
    · rename_i hstack
      exact .exhausted (fun h => absurd h hopening) hstack

/-- Operators are read by one of their rules, if the term after the first one and the rest are. -/
theorem reads_operands (hterm : r.skipBlanks.cursor.nextSatisfies Symbol.isOperator →
      Reads b rules .term depth (stack.inside 1) (r.skipBlanks.take .operator 1)
        (term b rules depth (r.skipBlanks.take .operator 1) (stack.inside 1)))
    (hrest : ∀ s, s.unread < r.unread →
      Reads b rules .operands depth stack s (operands b rules depth s stack)) :
    Reads b rules .operands depth stack r (operands b rules depth r stack) := by
  rw [operands_eq]
  split
  · rename_i hoperator
    have hread := hterm hoperator
    split
    · rename_i e he
      exact .operandRejected hoperator (he ▸ hread)
    · rename_i s hs
      have hlt := Nat.lt_trans (unread_lt_of_term_eq_ok hs)
        (Reading.unread_take_one_lt .operator hoperator)
      exact .operand hoperator (hs ▸ hread) (hrest s hlt)
  · rename_i hoperator
    exact .noOperator hoperator

/-- A term and the operators after it call one another with less left to read. -/
theorem reads_term_and_operands (b : Blame) (rules : Rules) (n : Nat) :
    ∀ depth stack r, r.unread = n →
      Reads b rules .term depth stack r (term b rules depth r stack) ∧
      Reads b rules .operands depth stack r (operands b rules depth r stack) := by
  -- before each of the calls a parenthesis, an operator or a term has been passed
  induction n using Nat.strongRecOn with
  | ind n ih =>
    intro depth stack r hr
    subst hr
    have hterm (depth : Nat) (stack : Stack) {s : Reading} (h : s.unread < r.unread) :
        Reads b rules .term depth stack s (term b rules depth s stack) :=
      (ih _ h depth stack s rfl).1
    have hrest (depth : Nat) (stack : Stack) {s : Reading} (h : s.unread < r.unread) :
        Reads b rules .operands depth stack s (operands b rules depth s stack) :=
      (ih _ h depth stack s rfl).2
    constructor
    · apply reads_term
      intro hopening
      have hlt := Reading.unread_take_one_lt .opening hopening
      rw [expression_eq]
      apply Reads.expression_of_term (hterm _ _ hlt)
      intro s hs
      exact hrest _ _ (Nat.lt_trans (unread_lt_of_term_eq_ok hs) hlt)
    · apply reads_operands
      · intro hoperator
        exact hterm _ _ (Reading.unread_take_one_lt .operator hoperator)
      · intro s hs
        exact hrest _ _ hs

/-- Every stage has the outcome that its function computes. -/
theorem reads_read (b : Blame) (rules : Rules) (stage : Stage) (depth : Nat) (stack : Stack)
    (r : Reading) : Reads b rules stage depth stack r (stage.read b rules depth r stack) := by
  have hboth (stack : Stack) (s : Reading) :=
    reads_term_and_operands b rules s.unread depth stack s rfl
  cases stage with
  | term => exact (hboth stack r).1
  | operands => exact (hboth stack r).2
  | expression =>
    rw [Stage.read, expression_eq]
    apply Reads.expression_of_term (hboth _ r).1
    intro s _
    exact (hboth stack s).2

/-- A stage has no other outcome. -/
theorem Reads.eq_read {stage : Stage} {o : Outcome} (h : Reads b rules stage depth stack r o) :
    o = stage.read b rules depth r stack := by
  -- the conditions of a rule say which branches its function takes
  induction h with
  | tooDeep hopening hdepth => rw [Stage.read, term_eq, if_pos hopening, if_pos hdepth]
  | @exhausted depth _ r hdepth hstack =>
    rw [Stage.read, term_eq]
    by_cases hopening : r.skipBlanks.cursor.nextIs .opening
    · rw [if_pos hopening, if_neg (Nat.not_le.2 (hdepth hopening)), if_neg hstack]
    · rw [if_neg hopening, if_neg hstack]
  | groupRejected hopening hdepth hstack _ ih =>
    rw [Stage.read] at ih
    rw [Stage.read, term_eq, if_pos hopening, if_neg (Nat.not_le.2 hdepth), if_pos hstack, ← ih]
  | unclosed hopening hdepth hstack _ hclosing ih =>
    rw [Stage.read] at ih
    rw [Stage.read, term_eq, if_pos hopening, if_neg (Nat.not_le.2 hdepth), if_pos hstack, ← ih]
    exact (if_neg hclosing).symm
  | group hopening hdepth hstack _ hclosing ih =>
    rw [Stage.read] at ih
    rw [Stage.read, term_eq, if_pos hopening, if_neg (Nat.not_le.2 hdepth), if_pos hstack, ← ih]
    exact (if_pos hclosing).symm
  | exhaustedLiteral hopening hstack hstart hliteral =>
    rw [Stage.read, term_eq, if_neg hopening, if_pos hstack, if_pos hstart, Reading.literalOn,
      if_neg hliteral]
  | malformed hopening hstack hstart hliteral hscan =>
    rw [Stage.read, term_eq, if_neg hopening, if_pos hstack, if_pos hstart, Reading.literalOn,
      if_pos hliteral, Reading.literal, hscan]
  | outOfRange hopening hstack hliteral hscan hadmits =>
    have hstart := Cursor.startsLiteral_of_scan hscan
    rw [Stage.read, term_eq, if_neg hopening, if_pos hstack, if_pos hstart, Reading.literalOn,
      if_pos hliteral, Reading.literal, hscan]
    exact (if_neg hadmits).symm
  | literal hopening hstack hliteral hscan hadmits =>
    have hstart := Cursor.startsLiteral_of_scan hscan
    rw [Stage.read, term_eq, if_neg hopening, if_pos hstack, if_pos hstart, Reading.literalOn,
      if_pos hliteral, Reading.literal, hscan]
    exact (if_pos hadmits).symm
  | noTerm hopening hstack hstart =>
    rw [Stage.read, term_eq, if_neg hopening, if_pos hstack, if_neg hstart]
  | noOperator hoperator => rw [Stage.read, operands_eq, if_neg hoperator]
  | operandRejected hoperator _ ih =>
    rw [Stage.read] at ih
    rw [Stage.read, operands_eq, if_pos hoperator, ← ih]
  | operand hoperator _ _ ihterm ihrest =>
    simp only [Stage.read] at ihterm ihrest
    rw [Stage.read, operands_eq, if_pos hoperator, ← ihterm]
    exact ihrest
  | firstRejected _ ih =>
    rw [Stage.read] at ih
    rw [Stage.read, expression_eq, ← ih]
    rfl
  | first _ _ ihterm ihrest =>
    simp only [Stage.read] at ihterm ihrest
    rw [Stage.read, expression_eq, ← ihterm]
    exact ihrest

/-- Blanks before an expression make no difference. -/
theorem expression_skipBlanks (b : Blame) (rules : Rules) (depth : Nat) (r : Reading)
    (stack : Stack) :
    expression b rules depth r.skipBlanks stack = expression b rules depth r stack := by
  rw [expression_eq, expression_eq, term_eq, term_eq b rules depth r, r.skipBlanks_skipBlanks]

end ArithSyntax
