import ArithSyntax.Proofs.Coverage
import ArithSyntax.Proofs.Embedding

/-!
# Reading commits itself

Reading looks at one character more than it has passed and takes nothing back. So a fault that is
found before the end of a text is found, with the same tokens, in every text that begins alike up to
the character where reading stopped. And the tokens of a text are those with which any longer text
begins, but for a last literal that touches the end: more digits may follow it there
(`Reaches.exists_settled`).
-/

namespace ArithSyntax

open Reading

/-- The tokens without the last one if it is a literal that ends at the column `n`. -/
def Token.settled (n : Int) (ks : List Token) : List Token :=
  if ks.getLast?.any fun k => k.kind = .operand ∧ k.finish = n then ks.dropLast else ks

namespace Reading

variable {rules : Rules} {r : Reading} {t : Text}

/-- Among what has been read all but a literal at the end of the text can be relied on, whatever
comes next. -/
theorem Reaches.exists_settled (h : Reaches rules (start t) r) (z' : Text) :
    ∃ q, Reaches rules (start t) q ∧ q.tokens = Token.settled t.length r.tokens ∧
      q.Settled [] z' := by
  unfold Token.settled
  split
  · rename_i hlast
    -- the last step is taken back, and before it something is left to be read
    rcases h.cases_tail with rfl | ⟨q, hreach, hstep⟩
    · cases hlast
    · obtain ⟨w, l, rest, hmeets, rfl⟩ := hstep.exists_meets
      refine ⟨q, hreach, ?_, ?_⟩
      · rw [hmeets.tokens_take, List.dropLast_concat]
      · intro _ _ _ hahead
        have hlt := hstep.unread_lt
        rw [unread, unread, hahead] at hlt
        exact absurd hlt (Nat.not_lt_zero _)
  · rename_i hlast
    refine ⟨r, h, rfl, ?_⟩
    intro k hk hkind hahead
    have hk' : r.tokens.getLast? = some k := List.getLast?_reverse.trans hk
    have hfinish : k.finish = t.length := by
      have hreach := h.reach_tokens
      rw [Token.reach, hk', Option.map_some, Option.getD_some] at hreach
      rw [hreach, Cursor.atEnd_iff.1 (Cursor.atEnd_iff_ahead.2 hahead), h.text_eq]
      rfl
    rw [hk', Option.any_some, decide_eq_true_eq] at hlast
    exact absurd ⟨hkind, hfinish⟩ hlast

end Reading

namespace Analysis

variable {rules : Rules} {t : Text}

/-- The tokens of a text, but for a literal at its end, are those with which a longer text
begins. -/
theorem settled_prefix_tokens (rules : Rules) (t u : Text) :
    Token.settled t.length (ofText rules t).tokens <+: (ofText rules (t ++ u)).tokens := by
  obtain ⟨r, o, hreach, hstop, -⟩ := exists_run .operator rules t
  obtain ⟨q, hq, htokens, hsettled⟩ := hreach.exists_settled u
  have hahead : (start (t ++ u)).cursor.ahead = t ++ u := rfl
  obtain ⟨q', hq', hwithin, -⟩ := exists_within_of_append rfl hahead hq hsettled
  rw [tokens_ofText hreach hstop, ← htokens, ← hwithin.tokens_eq_of_start]
  exact tokens_prefix_ofText hq'

/-- A fault before the end of a text is found in every text that begins alike up to the character
at which reading stopped. -/
theorem ofText_of_take (u : Text) (h : ¬ (ofText rules t).isWellFormed)
    (hlt : (ofText rules t).cursor.position < t.length) :
    (ofText rules (t.take ((ofText rules t).cursor.position + 1) ++ u)).verdict =
        (ofText rules t).verdict ∧
      (ofText rules (t.take ((ofText rules t).cursor.position + 1) ++ u)).tokens =
        (ofText rules t).tokens := by
  obtain ⟨r, o, hreach, hstop, -⟩ := exists_run .operator rules t
  cases o with
  | ok s =>
    have hverdict := verdict_ofText_of_ok (b := .operator) hreach hstop
    exact absurd (isWellFormed_iff_verdict_eq.2 hverdict) h
  | error e =>
    rw [cursor_ofText hreach hstop] at hlt ⊢
    have hunread : e.reading.cursor.position + e.reading.unread = t.length := by
      rw [unread, ← Cursor.length_text, hstop.text_eq, hreach.text_eq]
      rfl
    have hsplit := List.take_append_drop (e.reading.cursor.position + 1) t
    -- the character at which reading stopped is kept, and no scan looks behind it
    have hind : e.reading.Indifferent (t.drop (e.reading.cursor.position + 1)) u := by
      left
      rw [List.length_drop]
      omega
    rw [← hsplit] at hreach
    obtain ⟨htokens, f, hf, hf'⟩ :=
      ofText_of_indifferent hreach.goes_unlimited hstop.halts hind fun _ => by omega
    rw [hsplit] at htokens hf hreach
    refine ⟨?_, htokens⟩
    -- a text of blanks is read to its end
    have hempty : f ≠ .unexpectedEnd := by
      rintro rfl
      obtain ⟨hend, rfl⟩ := empty_of_halts hreach.goes_unlimited hstop.halts hf
      have hnone : r.skipBlanks.unread = 0 := congrArg List.length (Cursor.atEnd_iff_ahead.1 hend)
      simp only [reject] at hunread hlt
      omega
    rw [hf, hf']
    cases f with
    | unexpectedEnd => exact absurd rfl hempty
    | _ => rfl

/-- Reading is committed to what it has found. A fault before the end of a text is decided by the
character at which reading stopped and those before it, and no text that begins with them is well
formed. Whatever the verdict on a text, its tokens but for a literal at its end are those with which
any longer text begins. -/
theorem analysis_commits (rules : Rules) (t u : Text) :
    (¬ (ofText rules t).isWellFormed → (ofText rules t).cursor.position < t.length →
      (ofText rules (t.take ((ofText rules t).cursor.position + 1) ++ u)).verdict =
          (ofText rules t).verdict ∧
        (ofText rules (t.take ((ofText rules t).cursor.position + 1) ++ u)).tokens =
          (ofText rules t).tokens ∧
        ¬ (ofText rules (t.take ((ofText rules t).cursor.position + 1) ++ u)).isWellFormed) ∧
      Token.settled t.length (ofText rules t).tokens <+: (ofText rules (t ++ u)).tokens := by
  refine ⟨?_, settled_prefix_tokens rules t u⟩
  intro h hlt
  obtain ⟨hverdict, htokens⟩ := ofText_of_take u h hlt
  refine ⟨hverdict, htokens, ?_⟩
  rw [isWellFormed, hverdict]
  exact h

/-- A digit after a zero is found at the digit, whatever comes after it; and a literal at the end
may get longer, while the tokens before it stay. -/
theorem analysis_commits_to_zero :
    (ofText .standard "(07) + 1".toList).verdict =
        { status := .faulty .illFormedInteger, column := 1 } ∧
      (ofText .standard "(07, 8)".toList).verdict =
        { status := .faulty .illFormedInteger, column := 1 } ∧
      ((ofText .standard "(7 + 12".toList).tokens.dropLast <+:
        (ofText .standard "(7 + 123)".toList).tokens) := by
  have hzero : (ofText .standard "(07) + 1".toList).verdict =
      { status := .faulty .illFormedInteger, column := 1 } := by decide +kernel
  have hplace : (ofText .standard "(07) + 1".toList).cursor.position = 2 := by decide +kernel
  have hlast : Token.settled 7 (ofText .standard "(7 + 12".toList).tokens =
      (ofText .standard "(7 + 12".toList).tokens.dropLast := by decide +kernel
  obtain ⟨hcommits, -⟩ := analysis_commits .standard "(07) + 1".toList ", 8)".toList
  obtain ⟨-, hprefix⟩ := analysis_commits .standard "(7 + 12".toList "3)".toList
  have hill : ¬ (ofText .standard "(07) + 1".toList).isWellFormed := by
    rw [isWellFormed, hzero]
    decide
  rw [hplace] at hcommits
  refine ⟨hzero, ?_, ?_⟩
  · exact (hcommits hill (by decide)).1.trans hzero
  · rw [← hlast]
    exact hprefix

end Analysis

end ArithSyntax
