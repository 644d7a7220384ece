import ArithSyntax.Proofs.Evaluation

/-!
# What is read is derived

Each stage that ends well has passed a phrase of the grammar and recorded its tokens
(`Reads.sound`), so a text that is accepted is a sentence (`sentence_of_wholeText_eq_ok`). The
grammar groups the terms of an expression to the left and the reader goes through them from left to
right: what `operands` reads extends any expression that ends where it begins.
-/

namespace ArithSyntax

open Reading

variable {b : Blame} {rules : Rules} {stage : Stage} {depth : Nat} {stack : Stack} {r s : Reading}
  {o : Outcome}

/-- What a stage that begins at `r` and ends at `s` has passed and recorded. -/
def Stage.Sound (rules : Rules) (depth : Nat) (r : Reading) : Stage → Reading → Prop
  | term, s => ∃ w t ts, Text.Blank w ∧ r.Passes s (w ++ t) ∧
      Derives (some rules) .term depth (r.cursor.position + w.length) t ts ∧
      s.recorded = ts.reverse ++ r.recorded
  | operands, s => ∀ start e es, Derives (some rules) .expression depth start e es →
      start + e.length = r.cursor.position →
      ∃ f fs w, Text.Blank w ∧ r.Passes s (f ++ w) ∧
        Derives (some rules) .expression depth start (e ++ f) (es ++ fs) ∧
        s.recorded = fs.reverse ++ r.recorded
  | expression, s => ∃ t ts w, Text.Blank w ∧ r.Passes s (t ++ w) ∧
      Derives (some rules) .expression depth r.cursor.position t ts ∧
      s.recorded = ts.reverse ++ r.recorded

/-- A group whose inside is sound is a term. -/
theorem Stage.Sound.group (hopening : r.skipBlanks.cursor.nextIs .opening)
    (hdepth : depth < rules.maxDepth)
    (hinner : Stage.Sound rules (depth + 1) (r.skipBlanks.take .opening 1) .expression s)
    (hclosing : s.skipBlanks.cursor.nextIs .closing) :
    Stage.Sound rules depth r .term (s.skipBlanks.take .closing 1) := by
  obtain ⟨w, c, hw, hc, hopen, hrecorded⟩ := exists_passes_take_one .opening hopening
  obtain ⟨v, d, hv, hd, hclose, hrecorded'⟩ := exists_passes_take_one .closing hclosing
  obtain ⟨t, ts, u, hu, hpass, hderives, hts⟩ := hinner
  obtain rfl := Symbol.ofChar_eq_opening_iff.1 (beq_iff_eq.1 hc)
  obtain rfl := Symbol.ofChar_eq_closing_iff.1 (beq_iff_eq.1 hd)
  have hstart : (r.skipBlanks.take .opening 1).cursor.position =
      r.cursor.position + w.length + 1 := by
    rw [hopen.position_eq, List.length_append, List.length_singleton, Nat.add_assoc]
  rw [hstart] at hderives
  refine ⟨w, _, _, hw, ?_, .group (by simpa using hdepth) hderives (Text.blank_append.2 ⟨hu, hv⟩),
    ?_⟩
  · have hall := (hopen.trans hpass).trans hclose
    simpa only [List.append_assoc, List.cons_append, List.nil_append] using hall
  · have hend : s.cursor.position + v.length =
        r.cursor.position + w.length + 1 + (t ++ (u ++ v)).length := by
      rw [hpass.position_eq, hstart]
      simp only [List.length_append]
      omega
    rw [hrecorded', hts, hrecorded, hend]
    simp

/-- A literal in range is a term. -/
theorem Stage.Sound.literal {n : Nat}
    (hscan : Literal.scan r.skipBlanks.cursor.ahead = .complete n)
    (hadmits : rules.admits (r.skipBlanks.cursor.ahead.take n)) :
    Stage.Sound rules depth r .term (r.skipBlanks.take .operand n) := by
  obtain ⟨w, hw, hblank⟩ := r.exists_passes_skipBlanks
  obtain ⟨l, rest, hahead, hl, -, rfl⟩ := Literal.exists_of_scan_eq_complete hscan
  have hpass := r.skipBlanks.passes_take .operand l.length
  rw [hahead, List.take_left] at hpass hadmits
  refine ⟨w, l, _, hw, hblank.trans hpass, .literal hl ?_, ?_⟩
  · simpa using (Rules.admits_iff_inRange hl).1 hadmits
  · rw [take]
    dsimp only
    rw [hahead, List.take_left, hblank.position_eq]
    rfl

/-- An operator and a term after it extend an expression, and so does what follows them. -/
theorem Stage.Sound.operand {q : Reading}
    (hoperator : r.skipBlanks.cursor.nextSatisfies Symbol.isOperator)
    (hterm : Stage.Sound rules depth (r.skipBlanks.take .operator 1) .term q)
    (hrest : Stage.Sound rules depth q .operands s) :
    Stage.Sound rules depth r .operands s := by
  intro start e es hderives hstart
  obtain ⟨w, c, hw, hc, hop, hrecorded⟩ := exists_passes_take_one .operator hoperator
  obtain ⟨v, t, ts, hv, hpass, ht, hts⟩ := hterm
  have hposition : (r.skipBlanks.take .operator 1).cursor.position =
      start + (e ++ w).length + 1 := by
    rw [hop.position_eq, ← hstart]
    simp only [List.length_append, List.length_singleton]
    omega
  rw [hposition] at ht
  -- the expression so far is the left part of the chain, and what follows extends this
  have hchain := Derives.chain hderives hw hc hv ht
  have hend : start + (e ++ w ++ c :: (v ++ t)).length = q.cursor.position := by
    rw [hpass.position_eq, hposition]
    simp only [List.length_append, List.length_cons]
    omega
  obtain ⟨f, fs, u, hu, hpass', hf, hfs⟩ := hrest start _ _ hchain hend
  refine ⟨w ++ c :: (v ++ t) ++ f, { value := [c], kind := .operator, position :=
    (start + (e ++ w).length : Nat) } :: ts ++ fs, u, hu, ?_, ?_, ?_⟩
  · have hall := (hop.trans hpass).trans hpass'
    simpa only [List.append_assoc, List.cons_append, List.nil_append] using hall
  · simpa only [List.append_assoc, List.cons_append] using hf
  · have hplace : r.cursor.position + w.length = start + (e ++ w).length := by
      rw [← hstart, List.length_append, Nat.add_assoc]
    rw [hfs, hts, hrecorded, hplace]
    simp

/-- What a term and the operators after it pass is an expression. -/
theorem Stage.Sound.expression {q : Reading} (hterm : Stage.Sound rules depth r .term q)
    (hrest : Stage.Sound rules depth q .operands s) :
    Stage.Sound rules depth r .expression s := by
  obtain ⟨w, t, ts, hw, hpass, ht, hts⟩ := hterm
  have hend : r.cursor.position + (w ++ t).length = q.cursor.position := hpass.position_eq.symm
  obtain ⟨f, fs, u, hu, hpass', hf, hfs⟩ := hrest _ _ _ (.single hw ht) hend
  refine ⟨w ++ t ++ f, ts ++ fs, u, hu, ?_, hf, ?_⟩
  · simpa only [List.append_assoc] using hpass.trans hpass'
  · rw [hfs, hts, List.reverse_append, List.append_assoc]

/-- A stage that ends well has passed a phrase and recorded its tokens. -/
theorem Reads.sound (h : Reads b rules stage depth stack r o) (ho : o = .ok s) :
    stage.Sound rules depth r s := by
  induction h generalizing s with
  | tooDeep | exhausted | groupRejected | unclosed | exhaustedLiteral | malformed | outOfRange |
    noTerm | operandRejected | firstRejected => cases ho
  | group hopening hdepth _ _ hclosing ih =>
    cases ho
    exact .group hopening hdepth (ih rfl) hclosing
  | literal _ _ _ hscan hadmits =>
    cases ho
    exact .literal hscan hadmits
  | @noOperator depth _ r _ =>
    cases ho
    intro start e es hderives _
    obtain ⟨w, hw, hpass⟩ := r.exists_passes_skipBlanks
    exact ⟨[], [], w, hw, hpass, by simpa using hderives, rfl⟩
  | operand hoperator _ _ ihterm ihrest => exact .operand hoperator (ihterm rfl) (ihrest ho)
  | first _ _ ihterm ihrest => exact .expression (ihterm rfl) (ihrest ho)

/-- A text that is accepted is a sentence with the tokens recorded. -/
theorem sentence_of_wholeText_eq_ok {t : Text} (h : wholeText b rules t stack = .ok s) :
    Sentence (some rules) t s.tokens := by
  unfold wholeText at h
  dsimp only at h
  split at h
  · cases h
  · rw [expression_skipBlanks] at h
    split at h
    · cases h
    · rename_i q hq
      split at h
      · rename_i hend
        cases h
        have hreads := reads_read b rules .expression 0 stack (Reading.start t)
        obtain ⟨e, ts, w, hw, hpass, hderives, hts⟩ := hreads.sound hq
        obtain ⟨v, hv, hpass'⟩ := q.exists_passes_skipBlanks
        have hahead := (hpass.trans hpass').ahead_eq
        have hnil : q.skipBlanks.cursor.ahead = [] := Cursor.atEnd_iff_ahead.1 hend
        rw [hnil, List.append_nil, List.append_assoc] at hahead
        refine ⟨e, w ++ v, hahead, Text.blank_append.2 ⟨hw, hv⟩, ?_⟩
        rw [tokens_skipBlanks, tokens_eq_of_recorded hts]
        exact hderives
      · cases h

end ArithSyntax
