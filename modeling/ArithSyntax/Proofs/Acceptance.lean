import ArithSyntax.Proofs.Completeness
import ArithSyntax.Proofs.Run
import ArithSyntax.Proofs.Soundness

/-!
# The accepted texts

A text is well formed exactly if the grammar with the limits of the rules derives it
(`sentence_of_isWellFormed`, `isWellFormed_of_sentence`), and the tokens of a well-formed text are
those of any of its derivations, also of one that knows no limits (`tokens_eq_of_sentence`).
-/

namespace ArithSyntax

open Reading

variable {b : Blame} {rules : Rules} {limits : Option Rules} {p : Phrase} {depth start : Nat}
  {t : Text} {ts : List Token} {r : Reading}

/-- Without limits there are more phrases. -/
theorem Derives.unlimited (h : Derives limits p depth start t ts) :
    Derives none p depth start t ts := by
  induction h with
  | literal hl _ => exact .literal hl fun _ h => nomatch h
  | group _ _ hw ih => exact .group (fun _ h => nomatch h) ih hw
  | single hw _ ih => exact .single hw ih
  | chain _ hw hc hv _ ihe iht => exact .chain ihe hw hc hv iht

/-- A sentence within limits is one without them. -/
theorem Sentence.unlimited (h : Sentence limits t ts) : Sentence none t ts := by
  obtain ⟨e, w, ht, hw, hderives⟩ := h
  exact ⟨e, w, ht, hw, hderives.unlimited⟩

namespace Analysis

/-- A text is well formed if it is read to its end. -/
theorem isWellFormed_ofText_iff :
    (ofText rules t b).isWellFormed ↔ ∃ s, wholeText b rules t = .ok s := by
  rw [ofText, isWellFormed]
  cases wholeText b rules t with
  | ok s => simp [ofOutcome, Verdict.isWellFormed]
  | error e => simp [ofOutcome, Verdict.isWellFormed]

/-- The column of a well-formed text is zero. -/
theorem isWellFormed_iff_verdict_eq :
    (ofText rules t b).isWellFormed ↔
      (ofText rules t b).verdict = { status := .wellFormed, column := 0 } := by
  rw [ofText, isWellFormed]
  cases wholeText b rules t with
  | ok s => simp [ofOutcome, Verdict.isWellFormed]
  | error e => simp [ofOutcome, Verdict.isWellFormed]

/-- A text whose run is complete is well formed. -/
theorem isWellFormed_of_run (h : Reaches rules (.start t) r)
    (hs : Stops rules r (.ok r.skipBlanks)) : (ofText rules t b).isWellFormed := by
  rw [isWellFormed_ofText_iff, wholeText_eq_conclude h hs]
  exact ⟨_, rfl⟩

/-- The run of a well-formed text is complete. -/
theorem exists_run_of_isWellFormed (h : (ofText rules t b).isWellFormed) :
    ∃ r, Reaches rules (.start t) r ∧ Stops rules r (.ok r.skipBlanks) ∧
      (ofText rules t b).tokens = r.tokens := by
  obtain ⟨r, o, hreach, hstop, houtcome⟩ := exists_run b rules t
  obtain ⟨s, hs⟩ := isWellFormed_ofText_iff.1 h
  rw [hs] at houtcome
  have htokens := tokens_ofText (b := b) hreach hstop
  cases hstop with
  | complete hterm hdepth hend =>
    exact ⟨r, hreach, .complete hterm hdepth hend, htokens⟩
  | extraneous | unclosed | empty | tooDeep | malformed | outOfRange | noTerm => cases houtcome

/-- A well-formed text is a sentence that keeps to the rules. -/
theorem sentence_of_isWellFormed (h : (ofText rules t b).isWellFormed) :
    Sentence (some rules) t (ofText rules t b).tokens := by
  obtain ⟨s, hs⟩ := isWellFormed_ofText_iff.1 h
  have htokens : (ofText rules t b).tokens = s.tokens := by
    rw [ofText, hs]
    rfl
  rw [htokens]
  exact sentence_of_wholeText_eq_ok hs

/-- A well-formed text has a token at least. -/
theorem tokens_ne_nil_of_isWellFormed (h : (ofText rules t b).isWellFormed) :
    (ofText rules t b).tokens ≠ [] := by
  obtain ⟨e, w, -, -, hderives⟩ := sentence_of_isWellFormed h
  exact hderives.tokens_ne_nil

/-- A sentence that keeps to the rules is well formed. -/
theorem isWellFormed_of_sentence (h : Sentence (some rules) t ts) :
    (ofText rules t b).isWellFormed := by
  rcases h.completes_or_fails with ⟨r, hreach, hstop, -⟩ | ⟨hne, -⟩
  · exact isWellFormed_of_run hreach hstop
  · exact absurd rfl hne

/-- The tokens of a well-formed text are those of any derivation, whatever its limits. -/
theorem tokens_eq_of_sentence (h : (ofText rules t b).isWellFormed) (hts : Sentence limits t ts) :
    (ofText rules t b).tokens = ts := by
  obtain ⟨r, hreach, hstop, htokens⟩ := exists_run_of_isWellFormed h
  rcases hts.completes_or_fails with ⟨s, hreach', hstop', hs⟩ | ⟨-, s, e, hreach', hstop'⟩
  · obtain ⟨rfl, -⟩ := hreach.unique hstop hreach' hstop'
    exact htokens.trans hs
  · have heq := (hreach.unique hstop hreach' hstop').2
    cases heq

/-- A text is well formed, with column zero, exactly if it is derived: an expression inside no group
and blanks after it, where groups are nested no deeper than the rules allow and literals are in
their range. -/
theorem verdict_wellFormed_iff_sentence (rules : Rules) (t : Text) :
    (ofText rules t).verdict = { status := .wellFormed, column := 0 } ↔
      ∃ ts, Sentence (some rules) t ts := by
  rw [← isWellFormed_iff_verdict_eq]
  constructor
  · intro h
    exact ⟨_, sentence_of_isWellFormed h⟩
  · rintro ⟨ts, hts⟩
    exact isWellFormed_of_sentence hts

end Analysis

end ArithSyntax
