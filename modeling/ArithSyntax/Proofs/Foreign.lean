import ArithSyntax.Proofs.Embedding
import ArithSyntax.Proofs.Exhaustion

/-!
# Characters that are foreign to expressions

Reading never gets past a character that is foreign to expressions, and it makes no difference which
one it is: the text before it is read as if it ended there, and only then it is noticed that it
does not (`ofText_foreign`). The null character is no exception, although its class is the one that
stands past the end of a text.
-/

namespace ArithSyntax

open Reading

/-- The verdict on a text in which a foreign character comes after `n` others, if the verdict on
those is `v`. -/
def Verdict.beforeForeign (v : Verdict) (n : Nat) : Verdict :=
  match v.status with
  | .wellFormed => { status := .faulty .extraneous, column := n }
  | .faulty .unexpectedEnd => { status := .faulty .missingTerm, column := n }
  | .faulty _ => v

/-- A text with a foreign character in it is not well formed, and it is not taken to end there. -/
theorem Verdict.status_beforeForeign (v : Verdict) (n : Nat) :
    (v.beforeForeign n).status ≠ .wellFormed ∧
      (v.beforeForeign n).status ≠ .faulty .unexpectedEnd := by
  obtain ⟨status, column⟩ := v
  cases status with
  | wellFormed => exact ⟨nofun, nofun⟩
  | faulty f => cases f <;> exact ⟨nofun, nofun⟩

namespace Analysis

variable {rules : Rules} {stack : Stack} {r s : Reading} {e : Rejection} {t v : Text}

/-- An expression with a foreign character behind it is complete before it. -/
theorem ofText_foreign_of_ok (hreach : Reaches rules (.start t) r)
    (hstop : Stops rules r (.ok s)) (hv : v.ForeignFirst) (hne : v ≠ []) :
    (ofText rules (t ++ v)).verdict = { status := .faulty .extraneous, column := t.length } ∧
      (ofText rules (t ++ v)).tokens = r.tokens := by
  have hind : r.skipBlanks.Indifferent [] v := Or.inr ⟨rfl, hv⟩
  have hahead : (start (t ++ v)).cursor.ahead = t ++ v := rfl
  obtain ⟨r', hreach', hwithin, -⟩ :=
    exists_within_of_append rfl hahead hreach (settled_of_noDigitFirst hv.noDigitFirst)
  obtain ⟨u, hu, hu', hposition, hnil⟩ := hwithin.exists_front hind
  cases hstop with
  | complete hterm hdepth hend =>
    have hnone : u = [] := by
      rwa [Cursor.atEnd_iff_ahead.1 hend, List.append_nil, eq_comm] at hu
    have hcolumn : r'.skipBlanks.cursor.position = t.length := by
      rw [hposition, hreach.position_of_atEnd hend]
      exact Nat.zero_add _
    have hstop' : Stops rules r' (.error (r'.skipBlanks.reject .extraneous
        (some (.unconsumed r'.skipBlanks.cursor.ahead)))) := by
      refine .extraneous (hwithin.inside.wantsTerm_eq ▸ hterm) ?_ ?_ ?_
      · rw [hwithin.inside.depth_eq, hdepth]
        rfl
      · rw [Cursor.atEnd_iff_ahead, hu', hnone]
        exact hne
      · rw [Cursor.nextSatisfies_congr hu hu' hnil rfl rfl, Cursor.not_nextSatisfies_of_atEnd hend]
        exact Bool.false_ne_true
    have hrun : Reaches rules (.start (t ++ v)) r' := hreach'
    refine ⟨?_, ?_⟩
    · rw [verdict_ofText hrun hstop', reject, hcolumn]
      rfl
    · rw [tokens_ofText hrun hstop', hwithin.tokens_eq_of_start]

/-- A fault in a text is the same with a foreign character behind it, which is no end. -/
theorem ofText_foreign_of_error (hgoes : Goes rules stack (.start t) r)
    (hhalts : Halts rules stack r (.error e)) (hv : v.ForeignFirst) (hne : v ≠ []) :
    (ofText rules (t ++ v) .operator stack).verdict =
        (ofText rules t .operator stack).verdict.beforeForeign t.length ∧
      (ofText rules (t ++ v) .operator stack).tokens = (ofText rules t .operator stack).tokens := by
  have hind : e.reading.Indifferent [] v := Or.inr ⟨rfl, hv⟩
  have hgoes' : Goes rules stack (.start (t ++ [])) r := by rwa [List.append_nil]
  obtain ⟨htokens, f, hf, hf'⟩ :=
    ofText_of_indifferent hgoes' hhalts hind fun hnil => absurd hnil hne
  rw [List.append_nil] at htokens hf
  refine ⟨?_, htokens⟩
  rw [hf, hf']
  cases f with
  | unexpectedEnd =>
    obtain ⟨hend, rfl⟩ := empty_of_halts hgoes hhalts hf
    rw [reject, hgoes.reaches.position_of_atEnd hend]
    rfl
  | _ => rfl

/-- A text is read up to the first foreign character, whichever it is and whatever comes after. -/
theorem ofText_foreign (rules : Rules) (stack : Stack) (t : Text) (hv : v.ForeignFirst)
    (hne : v ≠ []) :
    (ofText rules (t ++ v) .operator stack).verdict =
        (ofText rules t .operator stack).verdict.beforeForeign t.length ∧
      (ofText rules (t ++ v) .operator stack).tokens = (ofText rules t .operator stack).tokens := by
  obtain ⟨r, o, hgoes, hhalts, -⟩ := exists_halts .operator rules stack t
  cases o with
  | ok s =>
    cases hhalts with
    | stops hroom hstop =>
      obtain ⟨hverdict, htokens⟩ := ofText_foreign_of_ok hgoes.reaches hstop hv hne
      -- where the expression has ended no room is needed to see that something comes after it
      have heq : ofText rules (t ++ v) .operator stack = ofText rules (t ++ v) := by
        refine ofText_of_holds_calls (Or.inl rfl) hverdict ?_
        rw [htokens]
        exact hgoes.holds_calls
      rw [heq, (ofText_of_stops hgoes hroom hstop).2, verdict_ofText_of_ok hgoes.reaches hstop,
        tokens_ofText hgoes.reaches hstop]
      exact ⟨hverdict, htokens⟩
  | error e => exact ofText_foreign_of_error hgoes hhalts hv hne

/-- A character that is none of expressions stops reading where the text before it ends: it is left
over after an expression, a missing term where nothing has been read, and of no consequence behind
any other fault. What comes after it, and which character it is, does not matter; it never is taken
for the end of the text. It is so with any room to read them in. -/
theorem analysis_up_to_foreign (rules : Rules) (stack : Stack) (t v : Text) (x : Char)
    (hx : x ∉ Symbol.alphabet) :
    (ofText rules (t ++ x :: v) .operator stack).verdict =
        (ofText rules t .operator stack).verdict.beforeForeign t.length ∧
      (ofText rules (t ++ x :: v) .operator stack).tokens =
        (ofText rules t .operator stack).tokens ∧
      (∀ (y : Char) (w : Text), y ∉ Symbol.alphabet →
        (ofText rules (t ++ y :: w) .operator stack).verdict =
            (ofText rules (t ++ x :: v) .operator stack).verdict ∧
          (ofText rules (t ++ y :: w) .operator stack).tokens =
            (ofText rules (t ++ x :: v) .operator stack).tokens) ∧
      (ofText rules (t ++ x :: v) .operator stack).verdict.status ≠ .wellFormed ∧
      (ofText rules (t ++ x :: v) .operator stack).verdict.status ≠ .faulty .unexpectedEnd := by
  have hread (y : Char) (w : Text) (hy : y ∉ Symbol.alphabet) :=
    ofText_foreign rules stack t (Text.foreignFirst_cons.2 (Symbol.isForeign_ofChar_iff.2 hy))
      (List.cons_ne_nil y w)
  obtain ⟨hverdict, htokens⟩ := hread x v hx
  refine ⟨hverdict, htokens, ?_, ?_⟩
  · intro y w hy
    obtain ⟨hverdict', htokens'⟩ := hread y w hy
    exact ⟨hverdict'.trans hverdict.symm, htokens'.trans htokens.symm⟩
  · rw [hverdict]
    exact Verdict.status_beforeForeign _ _

/-- A null character does not end a text: not after an expression, not where nothing has been read,
and not after a sign that lacks its digits. -/
theorem analysis_up_to_null :
    (ofText .standard ("(1)".toList ++ '\x00' :: "+2".toList)).verdict =
        { status := .faulty .extraneous, column := 3 } ∧
      (ofText .standard ("  ".toList ++ '\x00' :: "+2".toList)).verdict =
        { status := .faulty .missingTerm, column := 2 } ∧
      (ofText .standard ("(-".toList ++ '\x00' :: "2)".toList)).verdict =
        { status := .faulty .illFormedInteger, column := 2 } := by
  have hnull : '\x00' ∉ Symbol.alphabet := by decide
  have hone : (ofText .standard "(1)".toList).verdict = { status := .wellFormed } := by
    decide +kernel
  have hblank : (ofText .standard "  ".toList).verdict =
      { status := .faulty .unexpectedEnd, column := 2 } := by decide +kernel
  have hsign : (ofText .standard "(-".toList).verdict =
      { status := .faulty .illFormedInteger, column := 2 } := by decide +kernel
  refine ⟨?_, ?_, ?_⟩
  · refine (analysis_up_to_foreign .standard .unlimited "(1)".toList _ _ hnull).1.trans ?_
    rw [hone]
    rfl
  · refine (analysis_up_to_foreign .standard .unlimited "  ".toList _ _ hnull).1.trans ?_
    rw [hblank]
    rfl
  · refine (analysis_up_to_foreign .standard .unlimited "(-".toList _ _ hnull).1.trans ?_
    rw [hsign]
    rfl

end Analysis

end ArithSyntax
