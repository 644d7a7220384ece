import ArithSyntax.Proofs.Evaluation

/-!
# Reading is local

What a stage of reading does depends on what is ahead and on how many groups may still be opened,
and on nothing else: the text behind it is only where the columns begin, and the tokens recorded
before stay as they are.

`Reading.prepend` puts a text, with its tokens, before a reading. Blanks are skipped and lexemes
are taken alike with it and without it, so each rule of `Reads` holds with it if it holds without it
(`Reads.prepend`). A stage has one outcome, so the outcome with the text is the other one with the
text before it (`Stage.read_prepend`).
-/

namespace ArithSyntax

/-- Literals are admitted alike if the range is the same. -/
theorem Rules.admits_congr {rules rules' : Rules} (hleast : rules.least = rules'.least)
    (hgreatest : rules.greatest = rules'.greatest) (l : Text) :
    rules.admits l = rules'.admits l := by
  have hwidth : rules.width = rules'.width := by
    rw [rules.width_eq, rules'.width_eq, hleast, hgreatest]
  rw [admits, admits, hleast, hgreatest, hwidth]

/-! ### Another text before a reading -/

/-- The same place with the text `u` before the one in which it is. -/
def Cursor.prepend (u : Text) (c : Cursor) : Cursor where
  behind := c.behind ++ u.reverse
  ahead := c.ahead

/-- The same reading with the text `u` and the tokens `ts` before it. -/
def Reading.prepend (u : Text) (ts : List Token) (r : Reading) : Reading where
  cursor := r.cursor.prepend u
  recorded := r.recorded.map (Token.shift · u.length) ++ ts.reverse

/-- The same remark on a text with `n` characters before it, where `limit` groups may enclose one
another. -/
def Remark.prepend (n limit : Nat) : Remark → Remark
  | tooDeep _ column => tooDeep limit (n + column)
  | unconsumed rest => unconsumed rest
  | exhausted _ column => exhausted limit (n + column)

/-- The same rejection with the text `u` and the tokens `ts` before it. -/
def Rejection.prepend (u : Text) (ts : List Token) (limit : Nat) (e : Rejection) : Rejection where
  fault := e.fault
  column := u.length + e.column
  reading := e.reading.prepend u ts
  remark? := e.remark?.map (Remark.prepend u.length limit)

/-- The same outcome with the text `u` and the tokens `ts` before it. -/
@[simp] def Outcome.prepend (u : Text) (ts : List Token) (limit : Nat) : Outcome → Outcome
  | .ok r => .ok (r.prepend u ts)
  | .error e => .error (e.prepend u ts limit)

namespace Cursor

variable (u : Text) (c : Cursor) (p : Symbol → Bool) (s : Symbol) (n : Nat)

@[simp] theorem ahead_prepend : (c.prepend u).ahead = c.ahead := rfl

@[simp] theorem nextSatisfies_prepend : (c.prepend u).nextSatisfies p = c.nextSatisfies p := rfl

@[simp] theorem nextIs_prepend : (c.prepend u).nextIs s = c.nextIs s := rfl

/-- A place is further on by the length of the text before it. -/
@[simp] theorem position_prepend : (c.prepend u).position = u.length + c.position := by
  rw [(c.prepend u).position_eq, c.position_eq, prepend, List.length_append, List.length_reverse,
    Nat.add_comm]

/-- The other text is before the one in which the place is. -/
@[simp] theorem text_prepend : (c.prepend u).text = u ++ c.text := by
  rw [text, text, prepend, List.reverse_append, List.reverse_reverse, List.append_assoc]

/-- Moving on is moving on in what is ahead. -/
@[simp] theorem forward_prepend : (c.prepend u).forward n = (c.forward n).prepend u := by
  apply Cursor.ext
  · exact (List.append_assoc _ _ _).symm
  · rfl

/-- Blanks are skipped in what is ahead. -/
@[simp] theorem skipBlanks_prepend : (c.prepend u).skipBlanks = c.skipBlanks.prepend u :=
  c.forward_prepend u _

/-- A character is passed in what is ahead. -/
@[simp] theorem pass_prepend : (c.prepend u).pass s = (c.pass s).prepend u := by
  rw [pass, pass, nextIs_prepend]
  split
  · exact c.forward_prepend u 1
  · rfl

end Cursor

namespace Reading

variable (u : Text) (ts : List Token) (r : Reading) (kind : Lexeme.Kind) (n : Nat)

@[simp] theorem cursor_prepend : (r.prepend u ts).cursor = r.cursor.prepend u := rfl

/-- The tokens found come behind those before, as much further on as the text is long. -/
theorem tokens_prepend :
    (r.prepend u ts).tokens = ts ++ r.tokens.map (Token.shift · u.length) := by
  rw [tokens, tokens, prepend, List.reverse_append, List.reverse_reverse, List.map_reverse]

@[simp] theorem skipBlanks_prepend :
    (r.prepend u ts).skipBlanks = r.skipBlanks.prepend u ts := by
  rw [skipBlanks, skipBlanks, prepend, prepend, Cursor.skipBlanks_prepend]

@[simp] theorem forward_prepend : (r.prepend u ts).forward n = (r.forward n).prepend u ts := by
  rw [forward, forward, prepend, prepend, Cursor.forward_prepend]

/-- A token is taken from what is ahead, at a place that is further on. -/
@[simp] theorem take_prepend :
    (r.prepend u ts).take kind n = (r.take kind n).prepend u ts := by
  have hposition : ((r.cursor.prepend u).position : Int) = r.cursor.position + u.length := by
    rw [Cursor.position_prepend, Int.natCast_add, Int.add_comm]
  simp only [take, prepend, Cursor.forward_prepend, hposition, List.map_cons, List.cons_append]
  rfl

/-- A sign is passed in what is ahead. -/
@[simp] theorem passSign_prepend : (r.prepend u ts).passSign = r.passSign.prepend u ts := by
  rw [passSign, passSign, prepend, prepend, Cursor.pass_prepend]

@[simp] theorem fitsLiteral_prepend (stack : Stack) :
    (r.prepend u ts).fitsLiteral stack = r.fitsLiteral stack := rfl

/-- Reading is given up at a place that is further on, with the limit that counts there. -/
theorem exhaust_prepend (limit limit' : Nat) :
    (r.exhaust limit').prepend u ts limit = (r.prepend u ts).exhaust limit := by
  simp only [exhaust, reject, Rejection.prepend, cursor_prepend, Cursor.position_prepend]
  rfl

/-- A text is rejected at a place that is further on, with the remark about that place. -/
theorem reject_prepend (fault : Fault) (remark? : Option Remark) (limit : Nat) :
    (r.reject fault remark?).prepend u ts limit =
      (r.prepend u ts).reject fault (remark?.map (Remark.prepend u.length limit)) := by
  simp only [reject, Rejection.prepend, cursor_prepend, Cursor.position_prepend]

/-- A reading at the end of the text `u`, with the tokens `ts`, is the beginning of what is ahead
with them before it. -/
theorem eq_prepend_start {r : Reading} {u v : Text} {ts : List Token}
    (htext : r.cursor.text = u ++ v) (hposition : r.cursor.position = u.length)
    (htokens : r.tokens = ts) : r = (start v).prepend u ts := by
  obtain ⟨c, ks⟩ := r
  have hlength : c.behind.reverse.length = u.length := by
    rw [List.length_reverse, ← c.position_eq]
    exact hposition
  obtain ⟨hbehind, hahead⟩ := List.append_inj htext hlength
  have hcursor : c = (Cursor.start v).prepend u :=
    Cursor.ext (by rw [← c.behind.reverse_reverse, hbehind]; rfl) hahead
  have hrecorded : ks = ts.reverse := by
    rw [← htokens, tokens, List.reverse_reverse]
  rw [hcursor, hrecorded]
  rfl

end Reading

/-! ### Stages with another text before them -/

variable {b : Blame} {rules rules' : Rules} {stage : Stage} {depth depth' : Nat} {stack : Stack}
  {r : Reading} {o : Outcome}

/-- A stage ends alike with another text before it, if the range is the same, as many groups may
still be opened and there is room for as many calls. -/
theorem Reads.prepend (hleast : rules.least = rules'.least)
    (hgreatest : rules.greatest = rules'.greatest) (u : Text) (ts : List Token)
    (h : Reads b rules' stage depth' stack r o)
    (hroom : rules.maxDepth - depth = rules'.maxDepth - depth') :
    Reads b rules stage depth stack (r.prepend u ts) (Outcome.prepend u ts rules.maxDepth o) := by
  have hadmits_eq := Rules.admits_congr hleast hgreatest
  -- inside a group one less is left of either limit, so as many groups may be opened there as well
  induction h generalizing depth with
  | @tooDeep _ stack r hopening hdepth =>
    have hread : Reads b rules .term depth stack (r.prepend u ts) _ :=
      .tooDeep (by simpa using hopening) (by omega)
    simpa [Reading.reject_prepend, Remark.prepend] using hread
  | @exhausted _ stack r hdepth hstack =>
    have hread : Reads b rules .term depth stack (r.prepend u ts) _ :=
      .exhausted (fun hopening => by have := hdepth (by simpa using hopening); omega) hstack
    simpa [Reading.exhaust_prepend] using hread
  | groupRejected hopening hdepth hstack _ ih =>
    have hinner := @ih (depth + 1) (by omega)
    exact .groupRejected (by simpa using hopening) (by omega) hstack (by simpa using hinner)
  | @unclosed _ stack r s hopening hdepth hstack _ hclosing ih =>
    have hinner := @ih (depth + 1) (by omega)
    have hread : Reads b rules .term depth stack (r.prepend u ts) _ :=
      .unclosed (by simpa using hopening) (by omega) hstack (by simpa using hinner)
        (by simpa using hclosing)
    simpa [Reading.reject_prepend] using hread
  | @group _ stack r s hopening hdepth hstack _ hclosing ih =>
    have hinner := @ih (depth + 1) (by omega)
    have hread : Reads b rules .term depth stack (r.prepend u ts) _ :=
      .group (by simpa using hopening) (by omega) hstack (by simpa using hinner)
        (by simpa using hclosing)
    simpa using hread
  | @exhaustedLiteral _ stack r hopening hstack hstart hliteral =>
    have hread : Reads b rules .term depth stack (r.prepend u ts) _ :=
      .exhaustedLiteral (by simpa using hopening) hstack (by simpa using hstart)
        (by simpa using hliteral)
    simpa [Reading.exhaust_prepend] using hread
  | @malformed _ stack r offset passed hopening hstack hstart hliteral hscan =>
    have hread : Reads b rules .term depth stack (r.prepend u ts) _ :=
      .malformed (by simpa using hopening) hstack (by simpa using hstart)
        (by simpa using hliteral) (by simpa using hscan)
    simpa [Rejection.prepend, Nat.add_assoc] using hread
  | @outOfRange _ stack r n hopening hstack hliteral hscan hadmits =>
    have hread : Reads b rules .term depth stack (r.prepend u ts) _ :=
      .outOfRange (by simpa using hopening) hstack (by simpa using hliteral)
        (by simpa using hscan) (by simpa [hadmits_eq] using hadmits)
    simpa [Rejection.prepend] using hread
  | @literal _ stack r n hopening hstack hliteral hscan hadmits =>
    have hread : Reads b rules .term depth stack (r.prepend u ts) _ :=
      .literal (by simpa using hopening) hstack (by simpa using hliteral) (by simpa using hscan)
        (by simpa [hadmits_eq] using hadmits)
    simpa using hread
  | @noTerm _ stack r hopening hstack hstart =>
    have hread : Reads b rules .term depth stack (r.prepend u ts) _ :=
      .noTerm (by simpa using hopening) hstack (by simpa using hstart)
    simpa [Reading.reject_prepend] using hread
  | @noOperator _ stack r hoperator =>
    have hread : Reads b rules .operands depth stack (r.prepend u ts) _ :=
      .noOperator (by simpa using hoperator)
    simpa using hread
  | @operandRejected _ stack r e hoperator _ ih =>
    have hinner := ih hroom
    have hread : Reads b rules .operands depth stack (r.prepend u ts) _ :=
      .operandRejected (by simpa using hoperator) (by simpa using hinner)
    exact hread
  | operand hoperator _ _ ihterm ihrest =>
    have hterm := ihterm hroom
    exact .operand (by simpa using hoperator) (by simpa using hterm) (ihrest hroom)
  | firstRejected _ ih => exact .firstRejected (ih hroom)
  | first _ _ ihterm ihrest => exact .first (ihterm hroom) (ihrest hroom)

/-- The outcome of a stage with another text before it. -/
theorem Stage.read_prepend (hleast : rules.least = rules'.least)
    (hgreatest : rules.greatest = rules'.greatest)
    (hroom : rules.maxDepth - depth = rules'.maxDepth - depth') (b : Blame) (stage : Stage)
    (u : Text) (ts : List Token) (r : Reading) (stack : Stack) :
    stage.read b rules depth (r.prepend u ts) stack =
      Outcome.prepend u ts rules.maxDepth (stage.read b rules' depth' r stack) := by
  have hread := reads_read b rules' stage depth' stack r
  exact (hread.prepend hleast hgreatest u ts hroom).eq_read.symm

/-- The analysis `a` is the analysis `a'` with the text `u` and the tokens `ts` before it. -/
structure Analysis.Behind (u : Text) (ts : List Token) (a' a : Analysis) : Prop where
  /-- Both are well formed or have the same fault. -/
  status_eq : a.verdict.status = a'.verdict.status
  /-- The column of a fault is further on by the length of the text. -/
  column_eq : ¬ a'.isWellFormed → a.verdict.column = u.length + a'.verdict.column
  /-- There is no column where there is no fault. -/
  column_eq_zero : a'.isWellFormed → a.verdict.column = 0 ∧ a'.verdict.column = 0
  /-- The text before it is the only difference of the texts. -/
  text_eq : a.cursor.text = u ++ a'.cursor.text
  /-- Reading has stopped further on by the length of the text. -/
  position_eq : a.cursor.position = u.length + a'.cursor.position
  /-- The tokens before are kept, and those found come after them, as much further on. -/
  tokens_eq : a.tokens = ts ++ a'.tokens.map (Token.shift · u.length)

/-- What an outcome amounts to with a text before it is the analysis behind that text. -/
theorem Analysis.behind_prepend (u : Text) (ts : List Token) (limit : Nat) (o : Outcome) :
    (Analysis.ofOutcome o).Behind u ts (Analysis.ofOutcome (Outcome.prepend u ts limit o)) := by
  cases o with
  | ok r =>
    exact ⟨rfl, fun h => absurd rfl h, fun _ => ⟨rfl, rfl⟩, Cursor.text_prepend u _,
      Cursor.position_prepend u _, r.tokens_prepend u ts⟩
  | error e =>
    refine ⟨rfl, fun _ => ?_, fun h => ?_, Cursor.text_prepend u _, Cursor.position_prepend u _,
      e.reading.tokens_prepend u ts⟩
    · exact Int.natCast_add _ _
    · cases h

/-- A stage that begins at the end of the text `u`, with the tokens `ts`, has the outcome that it
has at the beginning of what is ahead, with `u` and `ts` before it, if the range is the same, as
many groups may still be opened and there is the same room for calls. At the limit, or beyond it,
no group may be opened. -/
theorem Stage.read_behind (hleast : rules.least = rules'.least)
    (hgreatest : rules.greatest = rules'.greatest)
    (hroom : rules.maxDepth - depth = rules'.maxDepth - depth') (b : Blame) (stage : Stage)
    (stack : Stack) {u v : Text} {ts : List Token} (htext : r.cursor.text = u ++ v)
    (hposition : r.cursor.position = u.length) (htokens : r.tokens = ts) :
    (Analysis.ofOutcome (stage.read b rules' depth' (.start v) stack)).Behind u ts
      (Analysis.ofOutcome (stage.read b rules depth r stack)) := by
  rw [Reading.eq_prepend_start htext hposition htokens,
    Stage.read_prepend hleast hgreatest hroom]
  exact Analysis.behind_prepend u ts rules.maxDepth _

/-- Where one group is left to open the second is refused, behind an operator as at the
beginning. -/
theorem Stage.read_behind_minus :
    ∃ a, a = Analysis.ofOutcome (expression.read .operator .standard 199
        ((Reading.start "((1".toList).prepend "7-".toList
          [⟨⟨['7'], .operand⟩, 0⟩, ⟨⟨['-'], .operator⟩, 1⟩])) ∧
      a.verdict.status = .faulty .missingTerm ∧ a.verdict.column = 3 ∧ a.cursor.position = 3 ∧
      a.tokens = [⟨⟨['7'], .operand⟩, 0⟩, ⟨⟨['-'], .operator⟩, 1⟩, ⟨⟨['('], .opening⟩, 2⟩] := by
  let shallow : Rules := {
    least := -2147483648
    greatest := 2147483647
    maxDepth := 1
    least_le_greatest := by decide
    maxDepth_pos := by decide
    bounds_lt_ceiling := by decide +kernel }
  let alone : Analysis := {
    verdict := { status := .faulty .missingTerm, column := 1 }
    tokens := [⟨⟨['('], .opening⟩, 0⟩]
    cursor := { behind := ['('], ahead := "(1".toList }
    remark? := some (.tooDeep 1 1) }
  have halone : Analysis.ofOutcome (expression.read .operator shallow 0 (.start "((1".toList)) =
      alone := by decide +kernel
  let r : Reading := (Reading.start "((1".toList).prepend "7-".toList
    [⟨⟨['7'], .operand⟩, 0⟩, ⟨⟨['-'], .operator⟩, 1⟩]
  have hroom : Rules.standard.maxDepth - 199 = shallow.maxDepth - 0 := by decide
  have htext : r.cursor.text = "7-".toList ++ "((1".toList := by decide
  have hposition : r.cursor.position = "7-".toList.length := by decide
  have hleast : Rules.standard.least = shallow.least := rfl
  have hgreatest : Rules.standard.greatest = shallow.greatest := rfl
  have hbehind := Stage.read_behind hleast hgreatest hroom .operator .expression .unlimited htext
    hposition rfl
  rw [halone] at hbehind
  exact ⟨_, rfl, hbehind.status_eq, hbehind.column_eq (by decide), hbehind.position_eq,
    hbehind.tokens_eq⟩

end ArithSyntax
