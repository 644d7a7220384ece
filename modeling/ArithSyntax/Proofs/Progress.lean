import ArithSyntax.Proofs.Soundness
import Mathlib.Data.List.Chain
import Mathlib.Logic.Function.Iterate
import Mathlib.Logic.Relation

/-!
# Progress

The stages of reading call one another, and `operands` calls itself for every round of its loop.
`Calls` says which calls are made by which, and `Call.answer` that nothing else decides the outcome
of a call (`Call.answer_eq_outcome`).

No stage goes back or leaves the text (`Reads.before`). A term takes a character at least, so a call
has fewer characters ahead than the one that makes it, unless an expression calls for its first term
(`Calls.rank_lt`); there are finitely many calls within one another, and the code that `Call.answer`
is needs to be unfolded a bounded number of times only (`Call.iterate_answer`). A call inside one
more group has passed one more parenthesis (`Calls.depth_add_count_le`), which bounds the depth.
-/

namespace ArithSyntax

variable {b : Blame} {rules : Rules} {stage : Stage} {depth : Nat} {stack : Stack}
  {r s q : Reading} {o : Outcome}

/-! ### Onward -/

/-- The place at which a stage stops, whatever its outcome. -/
def Outcome.reading : Outcome → Reading
  | .ok s => s
  | .error e => e.reading

namespace Reading

/-- Ends the reading of a text behind its expression: nothing but blanks may be left. -/
def finish (s : Reading) : Outcome :=
  if s.skipBlanks.cursor.atEnd then .ok s.skipBlanks
  else .error (s.skipBlanks.reject .extraneous (some (.unconsumed s.skipBlanks.cursor.ahead)))

/-- Both are places in one text, and `s` is not before `r`. -/
def Before (r s : Reading) : Prop := ∃ u, r.Passes s u

/-- A reading is before itself. -/
theorem Before.refl (r : Reading) : r.Before r := ⟨[], rfl, rfl⟩

/-- What is before a reading is before all that come behind that. -/
theorem Before.trans (h : r.Before s) (h' : s.Before q) : r.Before q := by
  obtain ⟨u, hu⟩ := h
  obtain ⟨v, hv⟩ := h'
  exact ⟨u ++ v, hu.trans hv⟩

/-- Skipping blanks goes onward. -/
theorem before_skipBlanks (r : Reading) : r.Before r.skipBlanks := by
  obtain ⟨w, -, hw⟩ := r.exists_passes_skipBlanks
  exact ⟨w, hw⟩

/-- Taking a token goes onward. -/
theorem before_take (r : Reading) (kind : Lexeme.Kind) (n : Nat) :
    r.Before (r.skipBlanks.take kind n) :=
  r.before_skipBlanks.trans ⟨_, r.skipBlanks.passes_take kind n⟩

/-- Passing characters goes onward. -/
theorem before_forward (r : Reading) (n : Nat) : r.Before (r.skipBlanks.forward n) :=
  r.before_skipBlanks.trans ⟨_, r.skipBlanks.passes_forward n⟩

/-- Passing a sign goes onward. -/
theorem before_passSign (r : Reading) : r.Before r.skipBlanks.passSign := by
  rw [passSign, Cursor.pass]
  split
  · exact r.before_forward 1
  · exact r.before_skipBlanks

/-- Onward is in the same text. -/
theorem Before.text_eq (h : r.Before s) : s.cursor.text = r.cursor.text := by
  obtain ⟨u, hu⟩ := h
  exact hu.text_eq

/-- In one text as many characters have been passed more as there are fewer ahead. -/
theorem Before.position_add_unread (h : r.Before s) :
    s.cursor.position + s.unread = r.cursor.position + r.unread := by
  rw [unread, unread, ← Cursor.length_text, ← Cursor.length_text, h.text_eq]

/-- Onward no more is left to be read. -/
theorem Before.unread_le (h : r.Before s) : s.unread ≤ r.unread := by
  obtain ⟨u, hu⟩ := h
  rw [unread, unread, hu.ahead_eq, List.length_append]
  exact Nat.le_add_left _ _

/-- Onward no place is further back. -/
theorem Before.position_le (h : r.Before s) : r.cursor.position ≤ s.cursor.position := by
  have hadd := h.position_add_unread
  have hle := h.unread_le
  omega

/-- What is ahead later is ahead before. -/
theorem Before.count_le (h : r.Before s) (c : Char) :
    s.cursor.ahead.count c ≤ r.cursor.ahead.count c := by
  obtain ⟨u, hu⟩ := h
  rw [hu.ahead_eq, List.count_append]
  exact Nat.le_add_left _ _

end Reading

/-- A stage stops in the same text, and not before it begins. -/
theorem Reads.before (h : Reads b rules stage depth stack r o) : r.Before (Outcome.reading o) := by
  induction h with
  | tooDeep | exhausted | noTerm | noOperator => exact Reading.before_skipBlanks _
  | exhaustedLiteral => exact Reading.before_passSign _
  | groupRejected _ _ _ _ ih => exact (Reading.before_take _ .opening 1).trans ih
  | unclosed _ _ _ _ _ ih =>
    exact ((Reading.before_take _ .opening 1).trans ih).trans (Reading.before_skipBlanks _)
  | group _ _ _ _ _ ih =>
    exact ((Reading.before_take _ .opening 1).trans ih).trans (Reading.before_take _ .closing 1)
  | malformed | outOfRange => exact Reading.before_forward _ _
  | literal => exact Reading.before_take _ .operand _
  | operandRejected _ _ ih => exact (Reading.before_take _ .operator 1).trans ih
  | operand _ _ _ ihterm ihrest =>
    exact ((Reading.before_take _ .operator 1).trans ihterm).trans ihrest
  | firstRejected _ ih => exact ih
  | first _ _ ihterm ihrest => exact ihterm.trans ihrest

/-- Reading a term goes onward. -/
theorem before_of_term_eq_ok (h : term b rules depth r stack = .ok s) : r.Before s := by
  have hbefore := (reads_read b rules .term depth stack r).before
  rw [Stage.read, h] at hbefore
  exact hbefore

/-- Reading a term passes a character at least. -/
theorem position_lt_of_term_eq_ok (h : term b rules depth r stack = .ok s) :
    r.cursor.position < s.cursor.position := by
  have hadd := (before_of_term_eq_ok h).position_add_unread
  have hlt := unread_lt_of_term_eq_ok h
  omega

/-- Where an expression or what follows a term has been read, neither a blank nor an operator
comes next. -/
theorem Reads.next_of_eq_ok (h : Reads b rules stage depth stack r o) (ho : o = .ok s)
    (hstage : stage ≠ .term) :
    ∀ c ∈ s.cursor.ahead.head?,
      (Symbol.ofChar c).isBlank = false ∧ (Symbol.ofChar c).isOperator = false := by
  induction h with
  | tooDeep | exhausted | groupRejected | unclosed | group | exhaustedLiteral | malformed |
    outOfRange | literal | noTerm => exact absurd rfl hstage
  | @noOperator _ _ r hoperator =>
    cases ho
    intro c hc
    obtain ⟨u, hahead⟩ := List.head?_eq_some_iff.1 hc
    refine ⟨r.cursor.noBlankFirst_ahead_skipBlanks c hc, eq_false_of_ne_true ?_⟩
    exact fun hop => hoperator (Cursor.nextSatisfies_iff.2 ⟨c, u, hahead, hop⟩)
  | operandRejected | firstRejected => cases ho
  | operand _ _ _ _ ihrest => exact ihrest ho (by decide)
  | first _ _ _ ihrest => exact ihrest ho (by decide)

/-! ### Calls -/

/-- A stage that begins inside `depth` open groups at a reading. -/
structure Call where
  /-- The stage. -/
  stage : Stage
  /-- The number of open groups. -/
  depth : Nat
  /-- The place at which it begins. -/
  reading : Reading

namespace Call

/-- The call with which a text is read. -/
def ofText (t : Text) : Call where
  stage := .expression
  depth := 0
  reading := (Reading.start t).skipBlanks

/-- What comes of a call. -/
def outcome (b : Blame) (rules : Rules) (c : Call) : Outcome :=
  c.stage.read b rules c.depth c.reading

/-- The place at which a call stops, whatever comes of it. -/
def stop (b : Blame) (rules : Rules) (c : Call) : Reading := Outcome.reading (c.outcome b rules)

/-- What a stage does with the outcomes of the calls it makes, for which it asks. -/
def answer (b : Blame) (rules : Rules) (ask : Call → Outcome) : Call → Outcome
  | ⟨.term, depth, r⟩ =>
    if r.skipBlanks.cursor.nextIs .opening then
      if rules.maxDepth ≤ depth then
        .error (r.skipBlanks.reject .missingTerm
          (some (.tooDeep rules.maxDepth r.skipBlanks.cursor.position)))
      else
        match ask ⟨.expression, depth + 1, r.skipBlanks.take .opening 1⟩ with
        | .error e => .error e
        | .ok s =>
          if s.skipBlanks.cursor.nextIs .closing then .ok (s.skipBlanks.take .closing 1)
          else .error (s.skipBlanks.reject .missingClosing)
    else if r.skipBlanks.cursor.nextSatisfies Symbol.startsLiteral then r.skipBlanks.literal rules
    else .error (r.skipBlanks.reject .missingTerm)
  | ⟨.operands, depth, r⟩ =>
    if r.skipBlanks.cursor.nextSatisfies Symbol.isOperator then
      match ask ⟨.term, depth, r.skipBlanks.take .operator 1⟩ with
      | .error e => .error (e.blame b)
      | .ok s => ask ⟨.operands, depth, s⟩
    else .ok r.skipBlanks
  | ⟨.expression, depth, r⟩ =>
    (ask ⟨.term, depth, r⟩).bind fun s => ask ⟨.operands, depth, s⟩

/-- Whether a call is one of a function. The operators and terms of an expression are read by a loop
in it, and `operands` is what is left of the loop. -/
def nests (c : Call) : Bool := c.stage != .operands

end Call

/-- The first call makes the second. -/
inductive Calls (b : Blame) (rules : Rules) : Call → Call → Prop
  /-- An expression begins with a term. -/
  | first {depth : Nat} {r : Reading} : Calls b rules ⟨.expression, depth, r⟩ ⟨.term, depth, r⟩
  /-- Behind its first term an expression enters the loop. -/
  | rest {depth : Nat} {r s : Reading} (hterm : term b rules depth r = .ok s) :
      Calls b rules ⟨.expression, depth, r⟩ ⟨.operands, depth, s⟩
  /-- An operator has a term after it. -/
  | operand {depth : Nat} {r : Reading}
      (hoperator : r.skipBlanks.cursor.nextSatisfies Symbol.isOperator) :
      Calls b rules ⟨.operands, depth, r⟩ ⟨.term, depth, r.skipBlanks.take .operator 1⟩
  /-- Behind that term the loop goes on. -/
  | next {depth : Nat} {r s : Reading}
      (hoperator : r.skipBlanks.cursor.nextSatisfies Symbol.isOperator)
      (hterm : term b rules depth (r.skipBlanks.take .operator 1) = .ok s) :
      Calls b rules ⟨.operands, depth, r⟩ ⟨.operands, depth, s⟩
  /-- In a group there is an expression. -/
  | inside {depth : Nat} {r : Reading} (hopening : r.skipBlanks.cursor.nextIs .opening)
      (hdepth : depth < rules.maxDepth) :
      Calls b rules ⟨.term, depth, r⟩ ⟨.expression, depth + 1, r.skipBlanks.take .opening 1⟩

namespace Call

/-- The calls that it makes decide the outcome of a call. -/
theorem answer_eq_outcome {ask : Call → Outcome} {c : Call}
    (h : ∀ c', Calls b rules c c' → ask c' = c'.outcome b rules) :
    c.answer b rules ask = c.outcome b rules := by
  obtain ⟨stage, depth, r⟩ := c
  cases stage with
  | term =>
    -- a literal makes no call, so only the group is in question
    rw [answer, outcome, Stage.read, term_eq]
    simp only [Stack.holds_unlimited, Stack.inside_unlimited, Reading.literalOn_unlimited, if_true]
    split
    · rename_i hopening
      split
      · rfl
      · rename_i hdepth
        rw [h _ (.inside hopening (Nat.lt_of_not_le hdepth))]
        rfl
    · rfl
  | operands =>
    rw [answer, outcome, Stage.read, operands_eq, Stack.inside_unlimited]
    split
    · rename_i hoperator
      rw [h _ (.operand hoperator), outcome, Stage.read]
      dsimp only
      -- the next round is called for only if the term is read
      cases hs : term b rules depth (r.skipBlanks.take .operator 1) with
      | error e => rfl
      | ok s => exact h _ (.next hoperator hs)
    · rfl
  | expression =>
    rw [answer, outcome, Stage.read, expression_eq, h _ .first, outcome, Stage.read,
      Stack.inside_unlimited]
    cases hs : term b rules depth r with
    | error e => rfl
    | ok s => exact h _ (.rest hs)

/-- The characters ahead, counted twice, and one more for an expression, which calls for its first
term before a character has been passed. -/
def rank : Call → Nat
  | ⟨.expression, _, r⟩ => 2 * r.unread + 1
  | ⟨_, _, r⟩ => 2 * r.unread

/-- How many functions can be within one another from the call on: a term and an expression for
every group that may still be opened, and the term or the expression itself. -/
def nesting (rules : Rules) : Call → Nat
  | ⟨.expression, depth, _⟩ => 2 * (rules.maxDepth - depth) + 2
  | ⟨_, depth, _⟩ => 2 * (rules.maxDepth - depth) + 1

end Call

variable {c c' : Call} {cs : List Call}

namespace Calls

/-- A call begins where the one that makes it has got to. -/
theorem before (h : Calls b rules c c') : c.reading.Before c'.reading := by
  cases h with
  | first => exact .refl _
  | rest hterm => exact before_of_term_eq_ok hterm
  | operand => exact Reading.before_take _ .operator 1
  | next _ hterm => exact (Reading.before_take _ .operator 1).trans (before_of_term_eq_ok hterm)
  | inside => exact Reading.before_take _ .opening 1

/-- A call has a lower rank than the one that makes it. -/
theorem rank_lt (h : Calls b rules c c') : c'.rank < c.rank := by
  cases h with
  | first => exact Nat.lt_succ_self _
  | rest hterm =>
    have hlt := unread_lt_of_term_eq_ok hterm
    simp only [Call.rank]
    omega
  | operand hoperator =>
    have hlt := Reading.unread_take_one_lt .operator hoperator
    simp only [Call.rank]
    omega
  | next hoperator hterm =>
    have hlt := Reading.unread_take_one_lt .operator hoperator
    have hlt' := unread_lt_of_term_eq_ok hterm
    simp only [Call.rank]
    omega
  | inside hopening =>
    have hlt := Reading.unread_take_one_lt .opening hopening
    simp only [Call.rank]
    omega

/-- The groups that may still be opened count for the calls within a call. -/
theorem nesting_add_le (h : Calls b rules c c') :
    c'.nesting rules + (if c.nests then 1 else 0) ≤ c.nesting rules := by
  cases h with
  | first | rest | operand | next => exact Nat.le_refl _
  | @inside depth _ _ hdepth =>
    change 2 * (rules.maxDepth - (depth + 1)) + 2 + 1 ≤ 2 * (rules.maxDepth - depth) + 1
    omega

/-- Two characters are passed at least in a round of the loop. -/
theorem position_add_two_le (h : Calls b rules c c') (hc : c.stage = .operands)
    (hc' : c'.stage = .operands) : c.reading.cursor.position + 2 ≤ c'.reading.cursor.position := by
  have hadd := h.before.position_add_unread
  cases h with
  | first | rest => cases hc
  | operand | inside => cases hc'
  | next hoperator hterm =>
    have hlt := Reading.unread_take_one_lt .operator hoperator
    have hlt' := unread_lt_of_term_eq_ok hterm
    dsimp only at hadd ⊢
    omega

/-- No call is made inside more groups than the limit allows. -/
theorem depth_le (h : Calls b rules c c') (hc : c.depth ≤ rules.maxDepth) :
    c'.depth ≤ rules.maxDepth := by
  cases h with
  | first | rest | operand | next => exact hc
  | inside _ hdepth => exact hdepth

/-- A parenthesis has been passed for every group inside which a call is made. -/
theorem depth_add_count_le (h : Calls b rules c c') :
    c'.depth + c'.reading.cursor.ahead.count '(' ≤ c.depth + c.reading.cursor.ahead.count '(' := by
  have hcount := h.before.count_le '('
  cases h with
  | first | rest | operand | next => exact Nat.add_le_add_left hcount _
  | inside hopening =>
    obtain ⟨w, x, -, hx, hpasses, -⟩ := Reading.exists_passes_take_one .opening hopening
    obtain rfl := Symbol.ofChar_eq_opening_iff.1 (beq_iff_eq.1 hx)
    dsimp only
    rw [hpasses.ahead_eq, List.count_append, List.count_append, List.count_singleton_self]
    omega

end Calls

/-- The calls within a call end: unfolded often enough, a stage never asks for an outcome. -/
theorem Call.iterate_answer (ask : Call → Outcome) {n : Nat} (hn : c.rank < n) :
    (answer b rules)^[n] ask c = c.outcome b rules := by
  induction n generalizing c with
  | zero => exact absurd hn (Nat.not_lt_zero _)
  | succ n ih =>
    rw [Function.iterate_succ_apply']
    apply answer_eq_outcome
    intro c' hcall
    exact ih (hcall.rank_lt.trans_le (Nat.le_of_lt_succ hn))

/-- There are no more calls of a kind within one another than a number allows that each of them
makes smaller. -/
theorem countP_le_of_isChain (p : Call → Bool) (bound : Call → Nat) (hpos : ∀ c, 0 < bound c)
    (hstep : ∀ c c', Calls b rules c c' → bound c' + (if p c then 1 else 0) ≤ bound c)
    (h : List.IsChain (Calls b rules) (c :: cs)) : (c :: cs).countP p ≤ bound c := by
  rw [List.countP_cons]
  induction cs generalizing c with
  | nil =>
    have hlast := hpos c
    rw [List.countP_nil]
    split
    · exact hlast
    · exact Nat.zero_le _
  | cons c' cs ih =>
    obtain ⟨hcall, hchain⟩ := List.isChain_cons_cons.1 h
    have hrest := ih hchain
    have hfirst := hstep c c' hcall
    rw [List.countP_cons]
    omega

/-- Calls within one another are no more than the rank of the outermost, and one. -/
theorem length_le_of_isChain (h : List.IsChain (Calls b rules) (c :: cs)) :
    (c :: cs).length ≤ c.rank + 1 := by
  rw [← List.countP_true]
  apply countP_le_of_isChain _ (fun c => c.rank + 1) (fun c => Nat.succ_pos _) ?_ h
  intro c c' hcall
  exact Nat.succ_le_succ hcall.rank_lt

/-- Calls within one another that are no rounds of loops are no more than the groups allow. -/
theorem countP_nests_le_of_isChain (h : List.IsChain (Calls b rules) (c :: cs)) :
    (c :: cs).countP Call.nests ≤ c.nesting rules := by
  apply countP_le_of_isChain _ _ ?_ (fun _ _ hcall => hcall.nesting_add_le) h
  rintro ⟨stage, depth, r⟩
  cases stage with
  | term | operands | expression => exact Nat.succ_pos _

/-- Every call on the way is made within the limit, and inside no more groups than there are
parentheses ahead, counted from the first call on. -/
theorem depth_le_of_calls (h : Relation.ReflTransGen (Calls b rules) c c')
    (hc : c.depth ≤ rules.maxDepth) :
    c'.depth ≤ rules.maxDepth ∧
      c'.depth + c'.reading.cursor.ahead.count '(' ≤
        c.depth + c.reading.cursor.ahead.count '(' := by
  induction h with
  | refl => exact ⟨hc, Nat.le_refl _⟩
  | tail _ hcall ih => exact ⟨hcall.depth_le ih.1, hcall.depth_add_count_le.trans ih.2⟩

/-! ### The whole -/

/-- The rank of a call is bounded by what is left to be read. -/
theorem Call.rank_le (c : Call) : c.rank ≤ 2 * c.reading.unread + 1 := by
  obtain ⟨stage, depth, r⟩ := c
  cases stage with
  | term | operands => exact Nat.le_succ _
  | expression => exact Nat.le_refl _

/-- The nesting of a call is bounded by the groups that may still be opened. -/
theorem Call.nesting_le (rules : Rules) (c : Call) :
    c.nesting rules ≤ 2 * (rules.maxDepth - c.depth) + 2 := by
  obtain ⟨stage, depth, r⟩ := c
  cases stage with
  | term | operands => exact Nat.le_succ _
  | expression => exact Nat.le_refl _

/-- What is known of a call: which calls decide it, how far it gets, and which calls there can be
within it. -/
structure Call.Progresses (b : Blame) (rules : Rules) (c : Call) : Prop where
  /-- Its outcome depends on the calls it makes, and on no others. -/
  answer_eq : ∀ ask : Call → Outcome, (∀ c', Calls b rules c c' → ask c' = c'.outcome b rules) →
    c.answer b rules ask = c.outcome b rules
  /-- It stops in the same text, and neither goes back nor gets past the end, whatever comes of
  it. -/
  onward : (c.stop b rules).cursor.text = c.reading.cursor.text ∧
    c.reading.cursor.position ≤ (c.stop b rules).cursor.position ∧
    (c.stop b rules).cursor.position ≤ c.reading.cursor.text.length
  /-- A term is a character at least. It is a phrase of the grammar, with blanks before it, and
  reading stops directly behind it. -/
  term_ok : c.stage = .term → ∀ s, c.outcome b rules = .ok s →
    c.reading.cursor.position < s.cursor.position ∧
      ∃ w t ts, Text.Blank w ∧ c.reading.Passes s (w ++ t) ∧
        Derives (some rules) .term c.depth (c.reading.cursor.position + w.length) t ts
  /-- In a round of the loop that goes on, two characters are passed at least. -/
  round : c.stage = .operands → ∀ c', Calls b rules c c' → c'.stage = .operands →
    c.reading.cursor.position + 2 ≤ c'.reading.cursor.position
  /-- Behind an expression the text ends, or neither a blank nor an operator comes next. -/
  expression_ok : c.stage = .expression → ∀ s, c.outcome b rules = .ok s →
    ∀ x ∈ s.cursor.ahead.head?, (Symbol.ofChar x).isBlank = false ∧
      (Symbol.ofChar x).isOperator = false
  /-- The calls within it are inside no more groups than the limit, and than there are parentheses
  ahead besides the groups that are open. -/
  depth_le : c.depth ≤ rules.maxDepth → ∀ c', Relation.ReflTransGen (Calls b rules) c c' →
    c'.depth ≤ min rules.maxDepth (c.depth + c.reading.cursor.ahead.count '(')
  /-- If the groups that are open have their parentheses behind, the calls within it are inside no
  more groups than the text has parentheses. Without that they may be: a call may begin at any
  depth, and a term at depth 5 in the text `1` is inside five groups, for none of which there is a
  parenthesis. -/
  depth_le_count : c.depth ≤ rules.maxDepth → c.depth ≤ c.reading.cursor.behind.count '(' →
    ∀ c', Relation.ReflTransGen (Calls b rules) c c' →
      c'.depth ≤ min rules.maxDepth (c.reading.cursor.text.count '(')
  /-- It ends: nothing is left to ask for when its code, and the code of the calls within it, has
  been unfolded as often as this. -/
  ends : ∀ (ask : Call → Outcome) (n : Nat), 2 * c.reading.unread + 2 ≤ n →
    (Call.answer b rules)^[n] ask c = c.outcome b rules
  /-- There are no more calls within one another than twice the characters ahead, and two more. -/
  length_le : ∀ cs, List.IsChain (Calls b rules) (c :: cs) →
    (c :: cs).length ≤ 2 * c.reading.unread + 2
  /-- Not counting the rounds of loops, there are two for every group that may be opened, and two
  more. -/
  nests_le : ∀ cs, List.IsChain (Calls b rules) (c :: cs) →
    (c :: cs).countP Call.nests ≤ 2 * (rules.maxDepth - c.depth) + 2

/-- Every call progresses. -/
theorem Call.progresses (b : Blame) (rules : Rules) (c : Call) : c.Progresses b rules where
  answer_eq _ h := answer_eq_outcome h
  onward := by
    have hbefore : c.reading.Before (c.stop b rules) :=
      (reads_read b rules c.stage c.depth .unlimited c.reading).before
    have hend := (c.stop b rules).cursor.position_le_length_text
    rw [hbefore.text_eq] at hend
    exact ⟨hbefore.text_eq, hbefore.position_le, hend⟩
  term_ok hstage s hs := by
    obtain ⟨stage, depth, r⟩ := c
    obtain rfl : stage = .term := hstage
    have hsound := (reads_read b rules .term depth .unlimited r).sound hs
    obtain ⟨w, t, ts, hw, hpasses, hderives, -⟩ := hsound
    exact ⟨position_lt_of_term_eq_ok hs, w, t, ts, hw, hpasses, hderives⟩
  round hstage _ hcall hstage' := hcall.position_add_two_le hstage hstage'
  expression_ok hstage s hs := by
    have hread := reads_read b rules c.stage c.depth .unlimited c.reading
    exact hread.next_of_eq_ok hs (by rw [hstage]; decide)
  depth_le hc c' h := by
    obtain ⟨hlimit, hcount⟩ := depth_le_of_calls h hc
    omega
  depth_le_count hc hopen c' h := by
    obtain ⟨hlimit, hcount⟩ := depth_le_of_calls h hc
    rw [Cursor.text, List.count_append, List.count_reverse]
    omega
  ends ask n hn := iterate_answer ask (Nat.lt_of_lt_of_le (Nat.lt_succ_of_le c.rank_le) hn)
  length_le cs h := (length_le_of_isChain h).trans (Nat.succ_le_succ c.rank_le)
  nests_le cs h := (countP_nests_le_of_isChain h).trans (c.nesting_le rules)

/-- A text with more than blanks in it is read by one call. -/
theorem wholeText_eq_bind {t : Text} (h : ¬ (Reading.start t).skipBlanks.cursor.atEnd) :
    wholeText b rules t = ((Call.ofText t).outcome b rules).bind Reading.finish := by
  have hexpression : (Call.ofText t).outcome b rules =
      expression b rules 0 (Reading.start t).skipBlanks := rfl
  rw [hexpression, wholeText]
  dsimp only
  rw [if_neg h]
  cases expression b rules 0 (Reading.start t).skipBlanks with
  | error e => rfl
  | ok s => rfl

/-- Every call progresses, whatever the rules, the text, the place in it, the tokens recorded and
the depth within the limit. A text is read by one call, if at all, which ends: the calls within one
another are finitely many, and inside no more groups than the limit and than the text has
parentheses. -/
theorem Calls.progress_and_end (b : Blame) (rules : Rules) :
    (∀ c : Call, c.Progresses b rules) ∧
      ∀ t : Text,
        (wholeText b rules t =
          if (Call.ofText t).reading.cursor.atEnd then
            .error ((Call.ofText t).reading.reject .unexpectedEnd)
          else ((Call.ofText t).outcome b rules).bind Reading.finish) ∧
        (∀ c, Relation.ReflTransGen (Calls b rules) (.ofText t) c →
          c.depth ≤ min rules.maxDepth (t.count '(')) ∧
        (∀ ask, (Call.answer b rules)^[2 * t.length + 2] ask (.ofText t) =
          (Call.ofText t).outcome b rules) ∧
        ∀ cs, List.IsChain (Calls b rules) (.ofText t :: cs) →
          (Call.ofText t :: cs).length ≤ 2 * t.length + 2 ∧
            (Call.ofText t :: cs).countP Call.nests ≤ 2 * rules.maxDepth + 2 := by
  refine ⟨Call.progresses b rules, fun t => ?_⟩
  have hprogresses := Call.progresses b rules (Call.ofText t)
  have hunread : (Call.ofText t).reading.unread ≤ t.length :=
    (Reading.start t).unread_skipBlanks_le
  refine ⟨?_, ?_, fun ask => hprogresses.ends ask _ (by omega), ?_⟩
  · split
    · rename_i hend
      exact if_pos hend
    · rename_i hend
      exact wholeText_eq_bind hend
  · have hdepth := hprogresses.depth_le_count (Nat.zero_le _) (Nat.zero_le _)
    have htext : (Call.ofText t).reading.cursor.text = t := Cursor.text_skipBlanks _
    rw [htext] at hdepth
    exact hdepth
  · intro cs hcs
    have hlength := hprogresses.length_le cs hcs
    exact ⟨by omega, hprogresses.nests_le cs hcs⟩

/-- Without blanks a round of the loop passes an operator and a digit, no less. In the one group of
a text a term is read at depth one, no more. -/
theorem Calls.progress_and_end_round :
    (∃ c', Calls .operator .standard ⟨.operands, 0, (Reading.start "7*8".toList).forward 1⟩ c' ∧
        c'.stage = .operands ∧ 1 + 2 ≤ c'.reading.cursor.position) ∧
      ∃ c, Relation.ReflTransGen (Calls .operator .standard) (Call.ofText "( 7".toList) c ∧
        c.stage = .term ∧ c.depth = 1 ∧ 1 ≤ min 200 1 := by
  obtain ⟨hcall, htext⟩ := Calls.progress_and_end .operator .standard
  constructor
  · let r := (Reading.start "7*8".toList).forward 1
    have hterm : term .operator .standard 0 (r.skipBlanks.take .operator 1) =
        .ok ((r.take .operator 1).take .operand 1) := by decide +kernel
    have hround : Calls .operator .standard ⟨.operands, 0, r⟩
        ⟨.operands, 0, (r.take .operator 1).take .operand 1⟩ := .next rfl hterm
    exact ⟨_, hround, rfl, (hcall ⟨.operands, 0, r⟩).round rfl _ hround rfl⟩
  · have hcalls : Relation.ReflTransGen (Calls .operator .standard) (Call.ofText "( 7".toList)
        ⟨.term, 1, (Call.ofText "( 7".toList).reading.skipBlanks.take .opening 1⟩ :=
      ((Relation.ReflTransGen.single .first).tail (.inside rfl (by decide))).tail .first
    obtain ⟨-, hdepth, -⟩ := htext "( 7".toList
    exact ⟨_, hcalls, rfl, rfl, hdepth _ hcalls⟩

end ArithSyntax
