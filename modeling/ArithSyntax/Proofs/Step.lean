import ArithSyntax.Analysis
import ArithSyntax.Proofs.Literal
import Mathlib.Logic.Relation

/-!
# Reading lexeme by lexeme

A recursive reading goes through the text one lexeme at a time, and what it may do next depends on
the lexemes behind it only through a `Situation`: whether a term has to come next, and for every
open group whether an operator has been read in it. A situation is computed from the recorded
tokens, so no more than a `Reading` is needed to go on from any place.

`Step` takes a reading over the next lexeme and `Stops` says where no lexeme can follow. Either is
determined by the reading (`Step.next_eq`, `Stops.next_eq`), so a text has one run that stops
(`Reaches.unique`).

How much room the readers have left is determined by the situation too: there is a call for every
expression and every term around the place. `GivesUp` says where the room does not hold the next
term, and `Goes` reads on as long as it holds.
-/

namespace ArithSyntax

/-! ### Situations -/

/-- What the lexemes read so far mean for the next one. -/
structure Situation where
  /-- Whether a term has to come next; otherwise one has just ended. -/
  wantsTerm : Bool := true
  /-- Whether an operator has been read in the innermost open group, or in the text if no group is
  open. -/
  chained : Bool := false
  /-- The same for what is around that group, the innermost first and the text last. -/
  around : List Bool := []
deriving DecidableEq

namespace Situation

/-- The number of open groups. -/
def depth (q : Situation) : Nat := q.around.length

/-- Whether an operator has been read in each part of the text, from the innermost open group to the
text around all of them. -/
def levels (q : Situation) : List Bool := q.chained :: q.around

/-- The situation after one more lexeme. -/
def next (q : Situation) : Lexeme.Kind → Situation
  | .operator => { q with wantsTerm := true, chained := true }
  | .operand => { q with wantsTerm := false }
  | .opening => { around := q.chained :: q.around }
  | .closing => {
      wantsTerm := false
      chained := q.around.headD false
      around := q.around.tail }

/-- The situation after some tokens, the latest of them first. -/
def after : List Token → Situation
  | [] => {}
  | k :: ks => (after ks).next k.kind

/-- Whether a fault found in the situation lies in the right-hand term of an operator. A group that
is not closed does not count the operators in it. -/
def blames (q : Situation) : Fault → Bool
  | .unexpectedEnd | .extraneous => false
  | .missingClosing => q.around.any id
  | _ => q.chained || q.around.any id

/-- There is a level for each open group, and one outside all of them. -/
theorem length_levels (q : Situation) : q.levels.length = q.depth + 1 := rfl

/-- What one more lexeme does to the levels. -/
theorem levels_next (q : Situation) (kind : Lexeme.Kind)
    (hclosing : kind = .closing → 0 < q.depth) :
    (q.next kind).levels =
      match kind with
      | .operator => true :: q.levels.tail
      | .operand => q.levels
      | .opening => false :: q.levels
      | .closing => q.levels.tail := by
  cases kind with
  | operator | operand | opening => rfl
  | closing =>
    obtain ⟨c, cs, haround⟩ := List.exists_cons_of_length_pos (hclosing rfl)
    rw [levels, next, levels, List.tail_cons, haround]
    rfl

/-- Where there is something around a group is open. -/
theorem depth_pos {q : Situation} {c : Bool} {cs : List Bool} (h : q.around = c :: cs) :
    0 < q.depth := by
  rw [Situation.depth, h]
  exact Nat.succ_pos _

end Situation

/-- The room that is left of a stack for a term inside `depth` open groups. A call has been made for
the expression in which it is, and two for each group. -/
def Stack.forTerm (stack : Stack) (depth : Nat) : Stack := stack.inside (2 * depth + 1)

namespace Reading

/-- The situation that the recorded tokens amount to. -/
def situation (r : Reading) : Situation := .after r.recorded

variable {rules : Rules} {r s s' : Reading} {o o' : Outcome}

@[simp] theorem situation_start (t : Text) : (start t).situation = {} := rfl

@[simp] theorem situation_skipBlanks (r : Reading) : r.skipBlanks.situation = r.situation := rfl

/-- A token that is taken leads to the next situation. -/
@[simp] theorem situation_take (r : Reading) (kind : Lexeme.Kind) (n : Nat) :
    (r.take kind n).situation = r.situation.next kind := rfl

/-- Where nothing has been recorded a term has to come. -/
theorem wantsTerm_of_recorded_eq_nil (h : r.recorded = []) : r.situation.wantsTerm := by
  rw [situation, h]
  rfl

/-- A term has to come at the beginning, and after an operator or an opening parenthesis. -/
theorem wantsTerm_iff_getLast? :
    r.situation.wantsTerm ↔ ∀ k ∈ r.tokens.getLast?, k.kind = .operator ∨ k.kind = .opening := by
  rw [tokens, List.getLast?_reverse, situation]
  cases r.recorded with
  | nil => exact iff_of_true rfl fun k hk => absurd hk (Option.not_mem_none k)
  | cons k ks =>
    simp only [List.head?_cons, Option.mem_some_iff, forall_eq']
    rw [Situation.after]
    cases k.kind <;> simp [Situation.next]

/-! ### Steps -/

/-- The next lexeme is read and recorded. -/
inductive Step (rules : Rules) (r : Reading) : Reading → Prop
  | opening (hterm : r.situation.wantsTerm) (hnext : r.skipBlanks.cursor.nextIs .opening)
      (hdepth : r.situation.depth < rules.maxDepth) : Step rules r (r.skipBlanks.take .opening 1)
  | operand {n : Nat} (hterm : r.situation.wantsTerm)
      (hscan : Literal.scan r.skipBlanks.cursor.ahead = .complete n)
      (hadmits : rules.admits (r.skipBlanks.cursor.ahead.take n)) :
      Step rules r (r.skipBlanks.take .operand n)
  | operator (hterm : ¬ r.situation.wantsTerm)
      (hnext : r.skipBlanks.cursor.nextSatisfies Symbol.isOperator) :
      Step rules r (r.skipBlanks.take .operator 1)
  | closing (hterm : ¬ r.situation.wantsTerm) (hnext : r.skipBlanks.cursor.nextIs .closing)
      (hdepth : 0 < r.situation.depth) : Step rules r (r.skipBlanks.take .closing 1)

/-- No lexeme follows, with this outcome. A fault is the one found at the place itself; which fault
is reported is for `conclude` to say. -/
inductive Stops (rules : Rules) (r : Reading) : Outcome → Prop
  | complete (hterm : ¬ r.situation.wantsTerm) (hdepth : r.situation.depth = 0)
      (hend : r.skipBlanks.cursor.atEnd) : Stops rules r (.ok r.skipBlanks)
  | extraneous (hterm : ¬ r.situation.wantsTerm) (hdepth : r.situation.depth = 0)
      (hend : ¬ r.skipBlanks.cursor.atEnd)
      (hoperator : ¬ r.skipBlanks.cursor.nextSatisfies Symbol.isOperator) :
      Stops rules r (.error (r.skipBlanks.reject .extraneous
        (some (.unconsumed r.skipBlanks.cursor.ahead))))
  | unclosed (hterm : ¬ r.situation.wantsTerm) (hdepth : 0 < r.situation.depth)
      (hoperator : ¬ r.skipBlanks.cursor.nextSatisfies Symbol.isOperator)
      (hclosing : ¬ r.skipBlanks.cursor.nextIs .closing) :
      Stops rules r (.error (r.skipBlanks.reject .missingClosing))
  | empty (hrecorded : r.recorded = []) (hend : r.skipBlanks.cursor.atEnd) :
      Stops rules r (.error (r.skipBlanks.reject .unexpectedEnd))
  | tooDeep (hterm : r.situation.wantsTerm) (hopening : r.skipBlanks.cursor.nextIs .opening)
      (hdepth : rules.maxDepth ≤ r.situation.depth) :
      Stops rules r (.error (r.skipBlanks.reject .missingTerm
        (some (.tooDeep rules.maxDepth r.skipBlanks.cursor.position))))
  | malformed {offset passed : Nat} (hterm : r.situation.wantsTerm)
      (hstart : r.skipBlanks.cursor.nextSatisfies Symbol.startsLiteral)
      (hscan : Literal.scan r.skipBlanks.cursor.ahead = .malformed offset passed) :
      Stops rules r (.error {
        fault := .illFormedInteger
        column := r.skipBlanks.cursor.position + offset
        reading := r.skipBlanks.forward passed })
  | outOfRange {n : Nat} (hterm : r.situation.wantsTerm)
      (hscan : Literal.scan r.skipBlanks.cursor.ahead = .complete n)
      (hadmits : ¬ rules.admits (r.skipBlanks.cursor.ahead.take n)) :
      Stops rules r (.error {
        fault := .outOfRange
        column := r.skipBlanks.cursor.position
        reading := r.skipBlanks.forward n })
  | noTerm (hterm : r.situation.wantsTerm)
      (hrecorded : r.recorded = [] → ¬ r.skipBlanks.cursor.atEnd)
      (hopening : ¬ r.skipBlanks.cursor.nextIs .opening)
      (hstart : ¬ r.skipBlanks.cursor.nextSatisfies Symbol.startsLiteral) :
      Stops rules r (.error (r.skipBlanks.reject .missingTerm))

/-- The outcome of a text whose reading stops at `r`: a fault in the right-hand term of an operator
is the operator's, if operators are blamed. -/
def conclude (b : Blame) (r : Reading) : Outcome → Outcome
  | .ok s => .ok s
  | .error e => .error (if r.situation.blames e.fault then e.blame b else e)

/-- Some lexemes are read, one after the other. -/
def Reaches (rules : Rules) : Reading → Reading → Prop := Relation.ReflTransGen (Step rules)

/-! ### Runs are determined by the text -/

/-- The reading after the next lexeme, or the outcome if none follows. -/
def next (rules : Rules) (r : Reading) : Reading ⊕ Outcome :=
  let r₀ := r.skipBlanks
  if r.situation.wantsTerm then
    if r.recorded = [] ∧ r₀.cursor.atEnd then .inr (.error (r₀.reject .unexpectedEnd))
    else if r₀.cursor.nextIs .opening then
      if r.situation.depth < rules.maxDepth then .inl (r₀.take .opening 1)
      else .inr (.error (r₀.reject .missingTerm
        (some (.tooDeep rules.maxDepth r₀.cursor.position))))
    else if r₀.cursor.nextSatisfies Symbol.startsLiteral then
      match r₀.literal rules with
      | .ok s => .inl s
      | .error e => .inr (.error e)
    else .inr (.error (r₀.reject .missingTerm))
  else if r₀.cursor.nextSatisfies Symbol.isOperator then .inl (r₀.take .operator 1)
  else if r.situation.depth = 0 then
    if r₀.cursor.atEnd then .inr (.ok r₀)
    else .inr (.error (r₀.reject .extraneous (some (.unconsumed r₀.cursor.ahead))))
  else if r₀.cursor.nextIs .closing then .inl (r₀.take .closing 1)
  else .inr (.error (r₀.reject .missingClosing))

end Reading

namespace Cursor

variable {c : Cursor} {p q : Symbol → Bool}

/-- At the end no character comes next. -/
theorem not_nextSatisfies_of_atEnd (h : c.atEnd) : c.nextSatisfies p = false := by
  rw [atEnd_iff_ahead] at h
  simp [nextSatisfies, h]

/-- Where a character comes next the text has not ended. -/
theorem not_atEnd_of_nextSatisfies (h : c.nextSatisfies p) : c.atEnd = false := by
  by_contra hend
  rw [not_nextSatisfies_of_atEnd (Bool.not_eq_false _ ▸ hend)] at h
  contradiction

/-- What comes next is not of two kinds that exclude one another. -/
theorem not_nextSatisfies_of_nextSatisfies (h : c.nextSatisfies p)
    (hpq : ∀ s, p s → q s = false) : c.nextSatisfies q = false := by
  obtain ⟨x, u, hahead, hp⟩ := nextSatisfies_iff.1 h
  simp only [nextSatisfies, hahead]
  exact hpq _ hp

/-- Nothing that begins a literal opens a group. -/
theorem not_nextIs_opening_of_startsLiteral (h : c.nextSatisfies Symbol.startsLiteral) :
    c.nextIs .opening = false :=
  not_nextSatisfies_of_nextSatisfies h fun s hs => by cases s <;> simp_all [Symbol.startsLiteral]

/-- A closing parenthesis is no operator. -/
theorem not_nextSatisfies_isOperator_of_closing (h : c.nextIs .closing) :
    c.nextSatisfies Symbol.isOperator = false :=
  not_nextSatisfies_of_nextSatisfies h fun s hs => by cases s <;> simp_all [Symbol.isOperator]

end Cursor

namespace Reading

variable {rules : Rules} {r s s' : Reading} {o o' : Outcome}

/-- A step leads to the reading that the text determines. -/
theorem Step.next_eq (h : Step rules r s) : r.next rules = .inl s := by
  cases h with
  | opening hterm hnext hdepth =>
    have hend := Cursor.not_atEnd_of_nextSatisfies hnext
    simp [next, hterm, hnext, hdepth, hend]
  | @operand n hterm hscan hadmits =>
    have hstart := Cursor.startsLiteral_of_scan hscan
    have hopening := Cursor.not_nextIs_opening_of_startsLiteral hstart
    have hend := Cursor.not_atEnd_of_nextSatisfies hstart
    simp [next, hterm, hopening, hstart, hend, literal, hscan, hadmits]
  | operator hterm hnext => simp [next, hterm, hnext]
  | closing hterm hnext hdepth =>
    have hoperator := Cursor.not_nextSatisfies_isOperator_of_closing hnext
    simp [next, hterm, hnext, hoperator, Nat.pos_iff_ne_zero.1 hdepth]

/-- Where a reading stops, the text determines the outcome. -/
theorem Stops.next_eq (h : Stops rules r o) : r.next rules = .inr o := by
  cases h with
  | complete hterm hdepth hend =>
    have hoperator := Cursor.not_nextSatisfies_of_atEnd (p := Symbol.isOperator) hend
    simp [next, hterm, hdepth, hend, hoperator]
  | extraneous hterm hdepth hend hoperator => simp [next, hterm, hdepth, hend, hoperator]
  | unclosed hterm hdepth hoperator hclosing =>
    simp [next, hterm, hoperator, hclosing, Nat.pos_iff_ne_zero.1 hdepth]
  | empty hrecorded hend => simp [next, wantsTerm_of_recorded_eq_nil, hrecorded, hend]
  | tooDeep hterm hopening hdepth =>
    have hend := Cursor.not_atEnd_of_nextSatisfies hopening
    simp [next, hterm, hopening, hend, Nat.not_lt.2 hdepth]
  | malformed hterm hstart hscan =>
    have hopening := Cursor.not_nextIs_opening_of_startsLiteral hstart
    have hend := Cursor.not_atEnd_of_nextSatisfies hstart
    simp [next, hterm, hopening, hstart, hend, literal, hscan]
  | outOfRange hterm hscan hadmits =>
    have hstart := Cursor.startsLiteral_of_scan hscan
    have hopening := Cursor.not_nextIs_opening_of_startsLiteral hstart
    have hend := Cursor.not_atEnd_of_nextSatisfies hstart
    simp [next, hterm, hopening, hstart, hend, literal, hscan, hadmits]
  | noTerm hterm hrecorded hopening hstart =>
    have hempty : ¬ (r.recorded = [] ∧ r.skipBlanks.cursor.atEnd) := fun h => hrecorded h.1 h.2
    simp [next, hterm, hempty, hopening, hstart]

/-- A parenthesis is missing only where a group is open. -/
theorem Stops.depth_pos {e : Rejection} (h : Stops rules r (.error e))
    (hf : e.fault = .missingClosing) : 0 < r.situation.depth := by
  cases h with
  | unclosed _ hdepth => exact hdepth
  | _ => cases hf

/-- A text is complete only where a term has ended. -/
theorem Stops.not_wantsTerm_of_ok (h : Stops rules r (.ok s)) : ¬ r.situation.wantsTerm := by
  cases h with
  | complete hterm => exact hterm

/-- Something is left over, or a parenthesis is missing, only where a term has ended. -/
theorem Stops.not_wantsTerm {e : Rejection} (h : Stops rules r (.error e))
    (hf : e.fault = .extraneous ∨ e.fault = .missingClosing) : ¬ r.situation.wantsTerm := by
  cases h with
  | extraneous hterm | unclosed hterm => exact hterm
  | _ => rcases hf with hf | hf <;> cases hf

/-- A text ends unexpectedly only at its end. -/
theorem Stops.of_unexpectedEnd {e : Rejection} (h : Stops rules r (.error e))
    (hf : e.fault = .unexpectedEnd) :
    r.skipBlanks.cursor.atEnd ∧ e = r.skipBlanks.reject .unexpectedEnd := by
  cases h with
  | empty _ hend => exact ⟨hend, rfl⟩
  | _ => cases hf

/-- The place at which reading stops is one in the text. -/
theorem Stops.text_eq {e : Rejection} (h : Stops rules r (.error e)) :
    e.reading.cursor.text = r.cursor.text := by
  cases h with
  | malformed | outOfRange => exact (Cursor.text_forward _ _).trans r.cursor.text_skipBlanks
  | _ => exact r.cursor.text_skipBlanks

/-- Reading stops behind the blanks. -/
theorem Stops.unread_le {e : Rejection} (h : Stops rules r (.error e)) :
    e.reading.unread ≤ r.skipBlanks.unread := by
  cases h with
  | malformed | outOfRange =>
    rw [forward, unread, Cursor.ahead_forward, List.length_drop]
    exact Nat.sub_le _ _
  | _ => exact Nat.le_refl _

/-- A reading that stops takes no step. -/
theorem Stops.not_step (h : Stops rules r o) : ¬ Step rules r s := by
  intro hstep
  have heq := h.next_eq.symm.trans hstep.next_eq
  cases heq

/-- There is one step at the most. -/
theorem Step.unique (h : Step rules r s) (h' : Step rules r s') : s = s' := by
  have heq := h.next_eq.symm.trans h'.next_eq
  cases heq
  rfl

/-- Reading stops with one outcome only. -/
theorem Stops.unique (h : Stops rules r o) (h' : Stops rules r o') : o = o' := by
  have heq := h.next_eq.symm.trans h'.next_eq
  cases heq
  rfl

/-- A step records one more token. -/
theorem Step.prefix_tokens (h : Step rules r s) : r.tokens <+: s.tokens := by
  cases h <;> exact (tokens_take _ _ _).symm ▸ List.prefix_append _ _

/-- What has been recorded is not taken back. -/
theorem Reaches.prefix_tokens (h : Reaches rules r s) : r.tokens <+: s.tokens := by
  induction h with
  | refl => exact List.prefix_rfl
  | tail _ hstep ih => exact ih.trans hstep.prefix_tokens

/-- No more groups are opened than the rules allow. -/
theorem Reaches.depth_le {t : Text} (h : Reaches rules (start t) r) :
    r.situation.depth ≤ rules.maxDepth := by
  induction h with
  | refl => exact Nat.zero_le _
  | tail _ hstep ih =>
    cases hstep with
    | opening _ _ hdepth => exact hdepth
    | operand | operator => exact ih
    | closing =>
      rw [situation_take, situation_skipBlanks, Situation.depth, Situation.next, List.length_tail]
      exact (Nat.sub_le _ _).trans ih

/-! ### Room -/

variable {stack : Stack} {q q' : Reading}

/-- A term has to come for which there is no room. Reading is given up at the second place, which is
behind the blanks, or behind a sign as well. -/
inductive GivesUp (rules : Rules) (stack : Stack) (r : Reading) : Reading → Prop
  | term (hterm : r.situation.wantsTerm) (hrecorded : r.recorded = [] → ¬ r.skipBlanks.cursor.atEnd)
      (hdepth : r.skipBlanks.cursor.nextIs .opening → r.situation.depth < rules.maxDepth)
      (hstack : ¬ (stack.forTerm r.situation.depth).holds Stack.callsOfTerm) :
      GivesUp rules stack r r.skipBlanks
  | literal (hterm : r.situation.wantsTerm)
      (hstart : r.skipBlanks.cursor.nextSatisfies Symbol.startsLiteral)
      (hstack : (stack.forTerm r.situation.depth).holds Stack.callsOfTerm)
      (hliteral : ¬ r.skipBlanks.fitsLiteral (stack.forTerm r.situation.depth)) :
      GivesUp rules stack r r.skipBlanks.passSign

/-- Reading goes on from here for all the room there is. -/
def HasRoom (rules : Rules) (stack : Stack) (r : Reading) : Prop := ∀ q, ¬ GivesUp rules stack r q

/-- Some lexemes are read, one after the other, and there is room for each. -/
def Goes (rules : Rules) (stack : Stack) : Reading → Reading → Prop :=
  Relation.ReflTransGen fun r s => Step rules r s ∧ r.HasRoom rules stack

/-- Reading ends here: it stops, with room for what it has found, or it is given up for want of
room. -/
inductive Halts (rules : Rules) (stack : Stack) (r : Reading) : Outcome → Prop
  | stops {o : Outcome} (hroom : r.HasRoom rules stack) (hs : Stops rules r o) :
      Halts rules stack r o
  | givesUp {q : Reading} (hgives : GivesUp rules stack r q) :
      Halts rules stack r (.error (q.exhaust rules.maxDepth))

/-- Reading is given up at one place only. -/
theorem GivesUp.unique (h : GivesUp rules stack r q) (h' : GivesUp rules stack r q') : q = q' := by
  cases h with
  | term _ _ _ hstack =>
    cases h' with
    | term => rfl
    | literal _ _ hstack' => exact absurd hstack' hstack
  | literal _ _ hstack =>
    cases h' with
    | term _ _ _ hstack' => exact absurd hstack hstack'
    | literal => rfl

/-- Reading is given up only where a term is wanted. -/
theorem GivesUp.wantsTerm (h : GivesUp rules stack r q) : r.situation.wantsTerm := by
  cases h <;> assumption

/-- Nothing is recorded where reading is given up. -/
theorem GivesUp.recorded_eq (h : GivesUp rules stack r q) : q.recorded = r.recorded := by
  cases h <;> rfl

/-- Where no term has to come there is room. -/
theorem hasRoom_of_not_wantsTerm (h : ¬ r.situation.wantsTerm) : r.HasRoom rules stack :=
  fun _ hgives => h hgives.wantsTerm

/-- There is room for a term if its calls have room, and for a literal if those for it have. -/
theorem hasRoom_of_holds (hstack : (stack.forTerm r.situation.depth).holds Stack.callsOfTerm)
    (hliteral : r.skipBlanks.cursor.nextSatisfies Symbol.startsLiteral →
      r.skipBlanks.fitsLiteral (stack.forTerm r.situation.depth)) : r.HasRoom rules stack := by
  intro q h
  cases h with
  | term _ _ _ hnone => exact hnone hstack
  | literal _ hstart _ hnone => exact hnone (hliteral hstart)

/-- A group that is too deep is refused before room is needed. -/
theorem hasRoom_of_tooDeep (hopening : r.skipBlanks.cursor.nextIs .opening)
    (hdepth : rules.maxDepth ≤ r.situation.depth) : r.HasRoom rules stack := by
  intro q h
  cases h with
  | term _ _ hroom => exact Nat.not_lt.2 hdepth (hroom hopening)
  | literal _ hstart =>
    rw [Cursor.not_nextIs_opening_of_startsLiteral hstart] at hopening
    contradiction

/-- No room is needed to see that there is no text. -/
theorem hasRoom_of_empty (hrecorded : r.recorded = []) (hend : r.skipBlanks.cursor.atEnd) :
    r.HasRoom rules stack := by
  intro q h
  cases h with
  | term _ hsome => exact hsome hrecorded hend
  | literal _ hstart =>
    rw [Cursor.not_nextSatisfies_of_atEnd hend] at hstart
    contradiction

/-- Unlimited room is enough everywhere. -/
theorem hasRoom_unlimited (rules : Rules) (r : Reading) : r.HasRoom rules .unlimited :=
  hasRoom_of_holds (Stack.holds_unlimited _) fun _ => by
    rw [fitsLiteral, Stack.forTerm, Stack.inside_unlimited, Stack.holds_unlimited, Bool.or_true]

/-- A group is opened if there is room for the term that it is. -/
theorem goes_opening (hterm : r.situation.wantsTerm) (hnext : r.skipBlanks.cursor.nextIs .opening)
    (hdepth : r.situation.depth < rules.maxDepth)
    (hstack : (stack.forTerm r.situation.depth).holds Stack.callsOfTerm) :
    Goes rules stack r (r.skipBlanks.take .opening 1) := by
  refine .single ⟨.opening hterm hnext hdepth, hasRoom_of_holds hstack fun hstart => ?_⟩
  rw [Cursor.not_nextIs_opening_of_startsLiteral hstart] at hnext
  contradiction

/-- An operator is read in any room. -/
theorem goes_operator (hterm : ¬ r.situation.wantsTerm)
    (hnext : r.skipBlanks.cursor.nextSatisfies Symbol.isOperator) :
    Goes rules stack r (r.skipBlanks.take .operator 1) :=
  .single ⟨.operator hterm hnext, hasRoom_of_not_wantsTerm hterm⟩

/-- With room or without, the same lexemes are read. -/
theorem Goes.reaches (h : Goes rules stack r s) : Reaches rules r s := by
  induction h with
  | refl => exact .refl
  | tail _ hstep ih => exact ih.tail hstep.1

/-- With unlimited room every run can be made. -/
theorem Reaches.goes_unlimited (h : Reaches rules r s) : Goes rules .unlimited r s := by
  induction h with
  | refl => exact .refl
  | tail _ hstep ih => exact ih.tail ⟨hstep, hasRoom_unlimited rules _⟩

/-- In unlimited room reading ends where it stops. -/
theorem Stops.halts (h : Stops rules r o) : Halts rules .unlimited r o :=
  .stops (hasRoom_unlimited rules r) h

/-- Where reading ends no step is taken for which there is room. -/
theorem Halts.not_step (h : Halts rules stack r o) :
    ¬ (Step rules r s ∧ r.HasRoom rules stack) := by
  rintro ⟨hstep, hroom⟩
  cases h with
  | stops _ hs => exact hs.not_step hstep
  | givesUp hgives => exact hroom _ hgives

/-- Reading ends with one outcome only. -/
theorem Halts.unique (h : Halts rules stack r o) (h' : Halts rules stack r o') : o = o' := by
  cases h with
  | stops hroom hs =>
    cases h' with
    | stops _ hs' => exact hs.unique hs'
    | givesUp hgives => exact absurd hgives (hroom _)
  | givesUp hgives =>
    cases h' with
    | stops hroom => exact absurd hgives (hroom _)
    | givesUp hgives' => rw [hgives.unique hgives']

/-- A run that ends passes every place to which it goes. -/
theorem Goes.goes_of_halts (h : Goes rules stack r s) (h' : Goes rules stack r s')
    (hs' : Halts rules stack s' o') : Goes rules stack s s' := by
  have hunique : Relator.RightUnique fun r s => Step rules r s ∧ r.HasRoom rules stack :=
    fun _ _ _ hp hq => hp.1.unique hq.1
  rcases Relation.ReflTransGen.total_of_right_unique hunique h h' with hgoes | hgoes
  · exact hgoes
  · rcases hgoes.cases_head with rfl | ⟨q, hstep, -⟩
    · exact .refl
    · exact absurd hstep hs'.not_step

/-- A run ends at one place only, and with one outcome. -/
theorem Goes.unique (h : Goes rules stack r s) (hs : Halts rules stack s o)
    (h' : Goes rules stack r s') (hs' : Halts rules stack s' o') : s = s' ∧ o = o' := by
  rcases (h.goes_of_halts h' hs').cases_head with rfl | ⟨q, hstep, -⟩
  · exact ⟨rfl, hs.unique hs'⟩
  · exact absurd hstep hs.not_step

/-- Whatever has been read, the run goes on from there to where it stops. -/
theorem Reaches.reaches_of_stops (h : Reaches rules r s) (h' : Reaches rules r s')
    (hs' : Stops rules s' o') : Reaches rules s s' :=
  (h.goes_unlimited.goes_of_halts h'.goes_unlimited hs'.halts).reaches

/-- From one reading there is one run that stops. -/
theorem Reaches.unique (h : Reaches rules r s) (hs : Stops rules s o)
    (h' : Reaches rules r s') (hs' : Stops rules s' o') : s = s' ∧ o = o' :=
  h.goes_unlimited.unique hs.halts h'.goes_unlimited hs'.halts

end Reading

end ArithSyntax
