import ArithSyntax.Proofs.Run
import Mathlib.Logic.Function.Iterate

/-!
# The operator that is blamed

When operators are blamed for their right-hand terms, a fault is reported as a missing term if it
was found in such a term, however deep. Whether it was is told by the tokens alone: groups that have
been closed are behind, each group still open was begun in a term, and that term belongs to an
operator if one stands before the group (`any_drop_levels_iff`). Only the operators in a group that
lacks its closing parenthesis are not blamed for this (`blames_situation_iff`).

In the fault that is reported, and in nothing else, the two ways of reporting differ.
-/

namespace ArithSyntax

open Reading

/-! ### Groups in a list of tokens -/

namespace Token

/-- The tokens before the group that was opened last, when the latest token comes first. -/
def beforeGroup (ks : List Token) : List Token := (ks.dropWhile fun k => k.kind != .opening).tail

/-- The tokens without the groups that have been closed, the latest token first. -/
def outsideGroups (ts : List Token) : List Token :=
  ts.foldl (fun ks k => if k.kind = .closing then beforeGroup ks else k :: ks) []

/-- An operator is among the tokens. -/
def HasOperator (ks : List Token) : Prop := ∃ k ∈ ks, k.kind = .operator

instance (ks : List Token) : Decidable (HasOperator ks) :=
  inferInstanceAs (Decidable (∃ k ∈ ks, k.kind = .operator))

variable {k : Token} {ks ts : List Token}

/-- Among no tokens there is no operator. -/
theorem not_hasOperator_nil : ¬ HasOperator [] := by
  rintro ⟨k, hk, -⟩
  cases hk

/-- An operator is the first of the tokens or among the rest. -/
theorem hasOperator_cons : HasOperator (k :: ks) ↔ k.kind = .operator ∨ HasOperator ks := by
  simp [HasOperator]

/-- Where no group was opened nothing was before it. -/
theorem beforeGroup_nil : beforeGroup [] = [] := rfl

/-- The innermost group begins at the latest opening parenthesis. -/
theorem beforeGroup_cons_of_opening (h : k.kind = .opening) : beforeGroup (k :: ks) = ks := by
  simp [beforeGroup, h]

/-- Any other token belongs to the innermost group. -/
theorem beforeGroup_cons_of_ne_opening (h : k.kind ≠ .opening) :
    beforeGroup (k :: ks) = beforeGroup ks := by
  simp [beforeGroup, h]

/-- A closing parenthesis deletes its group. -/
theorem outsideGroups_append_of_closing (h : k.kind = .closing) :
    outsideGroups (ts ++ [k]) = beforeGroup (outsideGroups ts) := by
  simp [outsideGroups, h]

/-- Any other token is kept. -/
theorem outsideGroups_append_of_ne_closing (h : k.kind ≠ .closing) :
    outsideGroups (ts ++ [k]) = k :: outsideGroups ts := by
  simp [outsideGroups, h]

/-- A token that is no parenthesis makes no difference to what is before a group. -/
theorem iterate_beforeGroup_append (hopening : k.kind ≠ .opening) (hclosing : k.kind ≠ .closing)
    (n : Nat) :
    beforeGroup^[n + 1] (outsideGroups (ts ++ [k])) = beforeGroup^[n + 1] (outsideGroups ts) := by
  rw [outsideGroups_append_of_ne_closing hclosing, Function.iterate_succ_apply,
    beforeGroup_cons_of_ne_opening hopening, ← Function.iterate_succ_apply]

end Token

namespace Situation

/-- From some level outwards an operator has been read exactly if one is left when as many groups
are taken away from the tokens. -/
theorem any_drop_levels_iff (ks : List Token) (n : Nat) :
    ((after ks).levels.drop n).any id ↔
      Token.HasOperator (Token.beforeGroup^[n] (Token.outsideGroups ks.reverse)) := by
  -- a closing parenthesis takes the innermost level away, so it is proved for every level at once
  induction ks generalizing n with
  | nil =>
    have hfixed : Token.beforeGroup^[n] [] = [] := Function.iterate_fixed Token.beforeGroup_nil n
    have hnone : (([false] : List Bool).drop n).any id = false := by
      cases n <;> simp
    apply iff_of_false
    · exact Bool.eq_false_iff.1 hnone
    · rw [List.reverse_nil, Token.outsideGroups, List.foldl_nil, hfixed]
      exact Token.not_hasOperator_nil
  | cons k ks ih =>
    rw [List.reverse_cons, after]
    cases hkind : k.kind with
    | operator =>
      have hopening : k.kind ≠ .opening := by rw [hkind]; decide
      have hclosing : k.kind ≠ .closing := by rw [hkind]; decide
      cases n with
      | zero =>
        rw [Token.outsideGroups_append_of_ne_closing hclosing]
        exact iff_of_true rfl (Token.hasOperator_cons.2 (Or.inl hkind))
      | succ n =>
        rw [Token.iterate_beforeGroup_append hopening hclosing]
        exact ih (n + 1)
    | operand =>
      have hopening : k.kind ≠ .opening := by rw [hkind]; decide
      have hclosing : k.kind ≠ .closing := by rw [hkind]; decide
      cases n with
      | zero =>
        rw [Token.outsideGroups_append_of_ne_closing hclosing, Function.iterate_zero_apply,
          Token.hasOperator_cons, hkind]
        simpa [levels, next] using ih 0
      | succ n =>
        rw [Token.iterate_beforeGroup_append hopening hclosing]
        exact ih (n + 1)
    | opening =>
      rw [Token.outsideGroups_append_of_ne_closing (by rw [hkind]; decide)]
      cases n with
      | zero =>
        rw [Function.iterate_zero_apply, Token.hasOperator_cons, hkind]
        simpa [levels, next] using ih 0
      | succ n =>
        rw [Function.iterate_succ_apply, Token.beforeGroup_cons_of_opening hkind]
        exact ih n
    | closing =>
      rw [Token.outsideGroups_append_of_closing hkind, ← Function.iterate_succ_apply]
      refine Iff.trans ?_ (ih (n + 1))
      rw [levels, levels, next, List.drop_succ_cons]
      cases (after ks).around with
      | nil => cases n <;> simp
      | cons c cs => rfl

/-- A fault is blamed on an operator exactly if one is left outside the groups that have been
closed, and, if a closing parenthesis is missing, before the group that lacks it. -/
theorem blames_situation_iff (r : Reading) (f : Fault) :
    r.situation.blames f ∧ f ≠ .missingTerm ↔
      f = .missingClosing ∧
          Token.HasOperator (Token.beforeGroup (Token.outsideGroups r.tokens)) ∨
        (f = .illFormedInteger ∨ f = .outOfRange) ∧
          Token.HasOperator (Token.outsideGroups r.tokens) := by
  have hbefore : r.situation.around.any id ↔
      Token.HasOperator (Token.beforeGroup (Token.outsideGroups r.tokens)) :=
    any_drop_levels_iff r.recorded 1
  have hwithin : (r.situation.chained || r.situation.around.any id) ↔
      Token.HasOperator (Token.outsideGroups r.tokens) :=
    any_drop_levels_iff r.recorded 0
  cases f with
  | missingTerm | unexpectedEnd | extraneous => simp [blames]
  | missingClosing =>
    simp only [blames, hbefore]
    simp
  | illFormedInteger | outOfRange =>
    simp only [blames, hwithin]
    simp

end Situation

namespace Analysis

/-- A text is reported with the same tokens and column whether operators are blamed or not, and as
well formed in both ways or in neither. The faults reported differ exactly if without blame it is a
missing parenthesis or that of a literal, and an operator is left among the tokens outside the
groups that have been closed and, if a parenthesis is missing, before the group that lacks it; then
a missing term is reported with blame. -/
theorem reports_of_blame (rules : Rules) (t : Text) :
    (ofText rules t .operator).tokens = (ofText rules t .operand).tokens ∧
      (ofText rules t .operator).verdict.column = (ofText rules t .operand).verdict.column ∧
      ((ofText rules t .operator).isWellFormed ↔ (ofText rules t .operand).isWellFormed) ∧
      ((ofText rules t .operator).verdict.status ≠ (ofText rules t .operand).verdict.status ↔
        (ofText rules t .operand).verdict.status = .faulty .missingClosing ∧
            Token.HasOperator (Token.beforeGroup
              (Token.outsideGroups (ofText rules t .operand).tokens)) ∨
          ((ofText rules t .operand).verdict.status = .faulty .illFormedInteger ∨
              (ofText rules t .operand).verdict.status = .faulty .outOfRange) ∧
            Token.HasOperator (Token.outsideGroups (ofText rules t .operand).tokens)) ∧
      ((ofText rules t .operator).verdict.status ≠ (ofText rules t .operand).verdict.status →
        (ofText rules t .operator).verdict.status = .faulty .missingTerm) := by
  obtain ⟨r, o, hreach, hstop, -⟩ := exists_run .operator rules t
  cases o with
  | ok s =>
    have hsame (b : Blame) : ofText rules t b = ofOutcome (.ok s) := by
      rw [ofText, wholeText_eq_conclude hreach hstop]
      rfl
    rw [hsame, hsame]
    simp [ofOutcome]
  | error e =>
    have hoperator := verdict_ofText (b := .operator) hreach hstop
    have hoperand : (ofText rules t .operand).verdict =
        { status := .faulty e.fault, column := e.column } := by
      rw [verdict_ofText hreach hstop, Blame.fault, ite_self]
    have hblames := Situation.blames_situation_iff r e.fault
    rw [isWellFormed, isWellFormed, tokens_ofText hreach hstop, tokens_ofText hreach hstop,
      hoperator, hoperand]
    refine ⟨rfl, rfl, ?_, ?_, ?_⟩
    · simp [Verdict.isWellFormed]
    · simp only [Status.faulty.injEq, ne_eq]
      rw [← hblames]
      by_cases h : r.situation.blames e.fault
      · rw [if_pos h, Blame.fault]
        simp [h, eq_comm]
      · rw [if_neg h]
        simp [h]
    · intro hne
      by_cases h : r.situation.blames e.fault
      · rw [if_pos h, Blame.fault]
      · rw [if_neg h] at hne
        exact absurd rfl hne

/-- A group that is not closed is a missing term after an operator before it, and not after one in
it. -/
theorem reports_of_unclosed_group :
    (ofText .standard "1 + (2 * 3".toList .operator).verdict.status = .faulty .missingTerm ∧
      (ofText .standard "1 + (2 * 3".toList .operand).verdict.status = .faulty .missingClosing ∧
      (ofText .standard "(2 * 3".toList .operator).verdict.status = .faulty .missingClosing := by
  have hclosing : (ofText .standard "1 + (2 * 3".toList .operand).verdict.status =
      .faulty .missingClosing := by decide +kernel
  have hclosing' : (ofText .standard "(2 * 3".toList .operand).verdict.status =
      .faulty .missingClosing := by decide +kernel
  obtain ⟨-, -, -, hiff, hmissing⟩ := reports_of_blame .standard "1 + (2 * 3".toList
  obtain ⟨-, -, -, hiff', -⟩ := reports_of_blame .standard "(2 * 3".toList
  refine ⟨hmissing (hiff.2 (Or.inl ⟨hclosing, by decide +kernel⟩)), hclosing, ?_⟩
  by_contra hne
  rw [← hclosing', ← ne_eq, hiff', hclosing'] at hne
  exact absurd hne (by decide +kernel)

end Analysis

end ArithSyntax
