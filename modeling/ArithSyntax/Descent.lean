import ArithSyntax.Literal
import ArithSyntax.Reading
import ArithSyntax.Stack
/-!
# Reading expressions

An expression is a term followed by operators with a term after each; a term is a group, which is an
expression in parentheses, or an integer literal. Blanks may stand before every lexeme. The text is
read from left to right and no choice is ever taken back: the next character that is no blank
decides how reading goes on.

`term` and `expression` read at a given depth, which is the number of groups that are open around
them. They are built from `termWithin`, which recurses on the groups that may still be opened, and
from `operandsAfter`, which repeats as long as operators follow. The latter ends because a term that
has been read leaves less to be read than before; the readers carry that fact in their type. The
equations `term_eq`, `expression_eq` and `operands_eq` state what is read without it.

When the term after an operator is rejected, the operator is left without an operand. `Blame` says
whether this or the fault of the term is reported.

The readers are calls within calls, for which a `Stack` has room. Where it does not hold the calls
that a term takes, reading is given up for good, with the tokens found so far. That is a rejection
which no reader on the way changes (`Rejection.blame_exhaust`). Unless a stack is given, the room is
unlimited.
-/

namespace ArithSyntax

/-- Which of two faults is reported when the term after an operator is rejected. -/
inductive Blame where
  /-- The operator lacks a term. -/
  | operator
  /-- The fault found in the term. -/
  | operand
deriving DecidableEq, Repr

/-- The fault reported for an operator whose term was rejected for the given fault. -/
def Blame.fault : Blame → Fault → Fault
  | operator, _ => .missingTerm
  | operand, f => f

/-- The rejection reported for an operator whose term was rejected. -/
def Rejection.blame (e : Rejection) (b : Blame) : Rejection := { e with fault := b.fault e.fault }

/-- Whoever is blamed, giving up for want of room stays what it is. -/
theorem Rejection.blame_exhaust (r : Reading) (limit : Nat) (b : Blame) :
    (r.exhaust limit).blame b = r.exhaust limit := by
  cases b <;> rfl

/-- Reads an integer literal. -/
def Reading.literal (r : Reading) (rules : Rules) : Outcome :=
  match Literal.scan r.cursor.ahead with
  | .malformed offset passed =>
    .error {
      fault := .illFormedInteger
      column := r.cursor.position + offset
      reading := r.forward passed }
  | .complete n =>
    if rules.admits (r.cursor.ahead.take n) then .ok (r.take .operand n)
    else
      .error {
        fault := .outOfRange
        column := r.cursor.position
        reading := r.forward n }

/-- Whether there is room for the calls that read the literal ahead. A zero takes no more of them
than the term that it is. -/
def Reading.fitsLiteral (r : Reading) (stack : Stack) : Bool :=
  r.cursor.nextIs .zero || stack.holds Stack.callsOfNumeral

/-- Passes a minus if one comes next. -/
def Reading.passSign (r : Reading) : Reading := { r with cursor := r.cursor.pass .minus }

/-- Reads an integer literal if there is room for the calls. A sign is passed before it turns out
that there is none. -/
def Reading.literalOn (stack : Stack) (r : Reading) (rules : Rules) : Outcome :=
  if r.fitsLiteral stack then r.literal rules
  else .error (r.passSign.exhaust rules.maxDepth)

/-- With unlimited room a literal is simply read. -/
@[simp] theorem Reading.literalOn_unlimited (r : Reading) (rules : Rules) :
    r.literalOn .unlimited rules = r.literal rules := by
  simp [literalOn, fitsLiteral]

/-- What has been read of a text gets longer by a literal. -/
theorem Reading.unread_lt_of_literal_eq_ok {r s : Reading} {rules : Rules}
    (h : r.literal rules = .ok s) : s.unread < r.unread := by
  unfold Reading.literal at h
  split at h
  · contradiction
  · rename_i n hn
    split at h
    · cases h
      have hpos := Literal.pos_of_scan_eq_complete hn
      rw [unread_take]
      unfold unread
      omega
    · contradiction

/-- A literal that is read with some room is the one that is read without an end to it. -/
theorem Reading.literal_eq_of_literalOn_eq_ok {stack : Stack} {r s : Reading} {rules : Rules}
    (h : r.literalOn stack rules = .ok s) : r.literal rules = .ok s := by
  unfold literalOn at h
  split at h
  · exact h
  · contradiction

/-- A reader of terms: after a term less is left to be read than before. -/
abbrev TermReader := (r : Reading) → { o : Outcome // ∀ s, o = .ok s → s.unread < r.unread }

/-- Reads operators, each with a term after it, as long as an operator comes next. -/
@[specialize]
def operandsAfter (b : Blame) (read : TermReader) (r : Reading) :
    { o : Outcome // ∀ s, o = .ok s → s.unread ≤ r.unread } :=
  let r₀ := r.skipBlanks
  have h₀ : r₀.unread ≤ r.unread := r.unread_skipBlanks_le
  if hop : r₀.cursor.nextSatisfies Symbol.isOperator then
    let r₁ := r₀.take .operator 1
    have h₁ : r₁.unread < r₀.unread := by
      have hpos := Reading.unread_pos_of_nextSatisfies hop
      have htake : r₁.unread = r₀.unread - 1 := r₀.unread_take .operator 1
      omega
    match read r₁ with
    | ⟨.error e, _⟩ => ⟨.error (e.blame b), fun _ h => nomatch h⟩
    | ⟨.ok r₂, hread⟩ =>
      have h₂ : r₂.unread < r₁.unread := hread r₂ rfl
      let rest := operandsAfter b read r₂
      ⟨rest.val, fun s h => by
        have := rest.property s h
        omega⟩
  else ⟨.ok r₀, fun s h => by cases h; exact h₀⟩
termination_by r.unread

/-- Reads a term, then operators with a term after each. -/
@[inline]
def expressionOf (b : Blame) (read : TermReader) (r : Reading) :
    { o : Outcome // ∀ s, o = .ok s → s.unread ≤ r.unread } :=
  match read r with
  | ⟨.error e, _⟩ => ⟨.error e, fun _ h => nomatch h⟩
  | ⟨.ok r₁, hread⟩ =>
    let rest := operandsAfter b read r₁
    ⟨rest.val, fun s h => by
      have := rest.property s h
      have := hread r₁ rfl
      omega⟩

/-- Reads a term in which at most `room` groups may enclose one another, on the given stack. -/
def termWithin (b : Blame) (rules : Rules) : (room : Nat) → Stack → TermReader
  | room, stack, r =>
    let r₀ := r.skipBlanks
    have h₀ : r₀.unread ≤ r.unread := r.unread_skipBlanks_le
    if hopening : r₀.cursor.nextIs .opening then
      match room with
      | 0 =>
        ⟨.error (r₀.reject .missingTerm (some (.tooDeep rules.maxDepth r₀.cursor.position))),
          fun _ h => nomatch h⟩
      | room + 1 =>
        if stack.holds Stack.callsOfTerm then
          let r₁ := r₀.take .opening 1
          have h₁ : r₁.unread < r₀.unread := by
            have hpos := Reading.unread_pos_of_nextSatisfies hopening
            have htake : r₁.unread = r₀.unread - 1 := r₀.unread_take .opening 1
            omega
          -- One call is made for the expression, and in it one for each term.
          match expressionOf b (termWithin b rules room ((stack.inside 1).inside 1)) r₁ with
          | ⟨.error e, _⟩ => ⟨.error e, fun _ h => nomatch h⟩
          | ⟨.ok r₂, hread⟩ =>
            have h₂ : r₂.unread ≤ r₁.unread := hread r₂ rfl
            let r₃ := r₂.skipBlanks
            have h₃ : r₃.unread ≤ r₂.unread := r₂.unread_skipBlanks_le
            if r₃.cursor.nextIs .closing then
              ⟨.ok (r₃.take .closing 1), fun s h => by
                have htake := r₃.unread_take .closing 1
                cases h
                omega⟩
            else ⟨.error (r₃.reject .missingClosing), fun _ h => nomatch h⟩
        else ⟨.error (r₀.exhaust rules.maxDepth), fun _ h => nomatch h⟩
    else if stack.holds Stack.callsOfTerm then
      if r₀.cursor.nextSatisfies Symbol.startsLiteral then
        ⟨r₀.literalOn stack rules, fun s h => by
          have hliteral := Reading.literal_eq_of_literalOn_eq_ok h
          have := Reading.unread_lt_of_literal_eq_ok hliteral
          omega⟩
      else ⟨.error (r₀.reject .missingTerm), fun _ h => nomatch h⟩
    else ⟨.error (r₀.exhaust rules.maxDepth), fun _ h => nomatch h⟩

/-! ### Reading at a depth -/

/-- Reads a term inside `depth` open groups. -/
def term (b : Blame) (rules : Rules) (depth : Nat) (r : Reading)
    (stack : Stack := .unlimited) : Outcome :=
  (termWithin b rules (rules.maxDepth - depth) stack r).val

/-- Reads operators, each with a term after it, inside `depth` open groups. -/
def operands (b : Blame) (rules : Rules) (depth : Nat) (r : Reading)
    (stack : Stack := .unlimited) : Outcome :=
  (operandsAfter b (termWithin b rules (rules.maxDepth - depth) (stack.inside 1)) r).val

/-- Reads an expression inside `depth` open groups. -/
def expression (b : Blame) (rules : Rules) (depth : Nat) (r : Reading)
    (stack : Stack := .unlimited) : Outcome :=
  (expressionOf b (termWithin b rules (rules.maxDepth - depth) (stack.inside 1)) r).val

variable {b : Blame} {rules : Rules} {depth : Nat} {stack : Stack} {r s : Reading}

/-- What has been read of a text gets longer by a term. -/
theorem unread_lt_of_term_eq_ok (h : term b rules depth r stack = .ok s) : s.unread < r.unread :=
  (termWithin b rules (rules.maxDepth - depth) stack r).property s h

/-- An expression is a term with operators after it, and the calls for terms are made in it. -/
theorem expression_eq (b : Blame) (rules : Rules) (depth : Nat) (r : Reading) (stack : Stack) :
    expression b rules depth r stack =
      (term b rules depth r (stack.inside 1)).bind fun s => operands b rules depth s stack := by
  unfold expression term operands expressionOf
  rcases termWithin b rules (rules.maxDepth - depth) (stack.inside 1) r with ⟨_ | s, h⟩ <;> rfl

/-- An operator has a term after it, and what is read then goes on in the same way. -/
theorem operands_eq (b : Blame) (rules : Rules) (depth : Nat) (r : Reading) (stack : Stack) :
    operands b rules depth r stack =
      if r.skipBlanks.cursor.nextSatisfies Symbol.isOperator then
        match term b rules depth (r.skipBlanks.take .operator 1) (stack.inside 1) with
        | .error e => .error (e.blame b)
        | .ok s => operands b rules depth s stack
      else .ok r.skipBlanks := by
  unfold operands term
  rw [operandsAfter]
  dsimp only
  split
  · rcases termWithin b rules (rules.maxDepth - depth) (stack.inside 1)
      (r.skipBlanks.take .operator 1) with ⟨_ | s, h⟩ <;> rfl
  · rfl

/-- The next character that is no blank decides what a term is. -/
theorem term_eq (b : Blame) (rules : Rules) (depth : Nat) (r : Reading) (stack : Stack) :
    term b rules depth r stack =
      if r.skipBlanks.cursor.nextIs .opening then
        if rules.maxDepth ≤ depth then
          .error (r.skipBlanks.reject .missingTerm
            (some (.tooDeep rules.maxDepth r.skipBlanks.cursor.position)))
        else if stack.holds Stack.callsOfTerm then
          match expression b rules (depth + 1) (r.skipBlanks.take .opening 1) (stack.inside 1) with
          | .error e => .error e
          | .ok s =>
            if s.skipBlanks.cursor.nextIs .closing then .ok (s.skipBlanks.take .closing 1)
            else .error (s.skipBlanks.reject .missingClosing)
        else .error (r.skipBlanks.exhaust rules.maxDepth)
      else if stack.holds Stack.callsOfTerm then
        if r.skipBlanks.cursor.nextSatisfies Symbol.startsLiteral then
          r.skipBlanks.literalOn stack rules
        else .error (r.skipBlanks.reject .missingTerm)
      else .error (r.skipBlanks.exhaust rules.maxDepth) := by
  unfold term expression
  by_cases hopening : r.skipBlanks.cursor.nextIs .opening
  · by_cases hdepth : rules.maxDepth ≤ depth
    · have hroom : rules.maxDepth - depth = 0 := by omega
      rw [hroom, termWithin]
      simp [hopening, hdepth]
    · have hroom : rules.maxDepth - depth = (rules.maxDepth - (depth + 1)) + 1 := by omega
      rw [hroom, termWithin]
      simp only [hopening, hdepth, if_true, if_false, dite_true]
      by_cases hstack : stack.holds Stack.callsOfTerm
      · simp only [hstack, if_true]
        rcases expressionOf b (termWithin b rules (rules.maxDepth - (depth + 1))
          ((stack.inside 1).inside 1)) (r.skipBlanks.take .opening 1) with ⟨_ | s, h⟩
        · rfl
        · dsimp only
          split <;> rfl
      · simp only [hstack, Bool.false_eq_true, if_false]
  · rw [termWithin.eq_def]
    simp only [hopening, Bool.false_eq_true, dite_false, if_false]
    by_cases hstack : stack.holds Stack.callsOfTerm
    · simp only [hstack, if_true]
      split <;> rfl
    · simp only [hstack, Bool.false_eq_true, if_false]

end ArithSyntax
