import ArithSyntax.Proofs.Substitution

/-!
# Operators in place of one another

No operator is special: any of them may take the place of each operator that has been found,
whatever the verdict on the text. The two texts are read side by side (`Reaches.exists_exchanged`),
since blanks and an operator are passed alike whichever operator it is, and what has been read up to
there does not depend on them. In particular a minus is as good as any other operator where a term
has ended; as the sign of a literal it is never found among the operators (`Token.Cover.apart`).
-/

namespace ArithSyntax

open Reading

/-- The token with the character that `f` chooses for it, if it is an operator. -/
def Token.withOperator (f : Token → Char) (k : Token) : Token :=
  if k.kind = .operator then { k with value := [f k] } else k

/-- The text with the character that `f` chooses at the place of each operator among the tokens. -/
def Text.withOperators (f : Token → Char) (t : Text) (ks : List Token) : Text :=
  ks.foldl (fun t k => if k.kind = .operator then t.set k.position.toNat (f k) else t) t

namespace Token

variable {f : Token → Char} {k : Token}

/-- An operator is exchanged. -/
theorem withOperator_of_operator (h : k.kind = .operator) :
    k.withOperator f = { k with value := [f k] } := if_pos h

/-- Any other token is kept. -/
theorem withOperator_of_ne (h : k.kind ≠ .operator) : k.withOperator f = k := if_neg h

/-- Exchanged or not, a token keeps its role. -/
@[simp] theorem kind_withOperator (f : Token → Char) (k : Token) :
    (k.withOperator f).kind = k.kind := by
  unfold withOperator
  split <;> rfl

/-- Exchanged or not, a token keeps its place. -/
@[simp] theorem position_withOperator (f : Token → Char) (k : Token) :
    (k.withOperator f).position = k.position := by
  unfold withOperator
  split <;> rfl

end Token

/-- A further operator is exchanged at its place. -/
theorem Text.withOperators_concat_of_operator {f : Token → Char} {k : Token}
    (h : k.kind = .operator) (t : Text) (ks : List Token) :
    t.withOperators f (ks ++ [k]) = (t.withOperators f ks).set k.position.toNat (f k) := by
  rw [withOperators, List.foldl_append]
  exact if_pos h

/-- A further token that is no operator changes nothing. -/
theorem Text.withOperators_concat_of_ne {f : Token → Char} {k : Token} (h : k.kind ≠ .operator)
    (t : Text) (ks : List Token) : t.withOperators f (ks ++ [k]) = t.withOperators f ks := by
  rw [withOperators, List.foldl_append]
  exact if_neg h

/-- One operator takes as much room as another. -/
theorem Situation.calls_withOperator (q : Situation) (ks : List Token) (f : Token → Char) :
    q.calls ((ks.map (Token.withOperator f)).map Token.toLexeme) =
      q.calls (ks.map Token.toLexeme) := by
  induction ks generalizing q with
  | nil => rfl
  | cons k ks ih =>
    have hk : Lexeme.calls q.depth (k.withOperator f).toLexeme =
        Lexeme.calls q.depth k.toLexeme := by
      by_cases hkind : k.kind = .operator
      · rw [Token.withOperator_of_operator hkind, Lexeme.calls, Lexeme.calls, hkind]
      · rw [Token.withOperator_of_ne hkind]
    simp only [List.map_cons, Situation.calls, hk, Token.kind_withOperator, ih]

namespace Reading

variable {rules : Rules} {stack : Stack} {r r' : Reading} {t w rest : Text} {l : Lexeme} {k : Token}
  {f : Token → Char}

/-- The same has been read, but for the operators that `f` chooses. -/
structure Exchanged (f : Token → Char) (r r' : Reading) : Prop where
  /-- The columns are the same. -/
  position_eq : r'.cursor.position = r.cursor.position
  /-- The same may come next. -/
  situation_eq : r'.situation = r.situation
  /-- The tokens are the same, with the operators that have been chosen. -/
  tokens_eq : r'.tokens = r.tokens.map (Token.withOperator f)

/-- Both have read one lexeme more, which differs in the operator only. -/
theorem Exchanged.take (h : r.Exchanged f r') (hmeets : r.Meets rules w l rest)
    (hk : k = { toLexeme := l, position := (r.cursor.position + w.length : Nat) })
    (hmeets' : r'.Meets rules w (k.withOperator f).toLexeme rest)
    (hlength : (k.withOperator f).value.length = l.value.length) :
    Exchanged f (r.skipBlanks.take l.kind l.value.length)
      (r'.skipBlanks.take (k.withOperator f).kind (k.withOperator f).value.length) where
  position_eq := by
    rw [hmeets.passes.position_eq, hmeets'.passes.position_eq, h.position_eq, List.length_append,
      List.length_append, hlength]
  situation_eq := by
    rw [situation_take, situation_take, situation_skipBlanks, situation_skipBlanks, h.situation_eq,
      Token.kind_withOperator, hk]
  tokens_eq := by
    have hposition : ((r'.cursor.position + w.length : Nat) : Int) =
        (k.withOperator f).position := by
      rw [Token.position_withOperator, hk, h.position_eq]
    rw [hmeets.tokens_take, hmeets'.tokens_take, h.tokens_eq, List.map_append, ← hk, hposition]
    rfl

/-- There is room for the one if there is for the other. -/
theorem Exchanged.holds_calls (h : r.Exchanged f r') (hgoes : Goes rules stack (start t) r) :
    stack.holds (Token.calls r'.tokens) := by
  rw [h.tokens_eq, Token.calls, Situation.calls_withOperator]
  exact hgoes.holds_calls

/-- In place of an operator another one is read. -/
theorem Exchanged.exists_operator (h : r.Exchanged f r') (hreach : Reaches rules (start t) r')
    (hahead : r'.cursor.ahead = r.cursor.ahead) (hmeets : r.Meets rules w l rest)
    (hk : k = { toLexeme := l, position := (r.cursor.position + w.length : Nat) })
    (hkind : k.kind = .operator) (hc : (Symbol.ofChar (f k)).isOperator) :
    ∃ s, Reaches rules (start (t.set k.position.toNat (f k))) s ∧ s.cursor.ahead = rest ∧
      Exchanged f (r.skipBlanks.take l.kind l.value.length) s := by
  obtain ⟨c, hl, hterm⟩ : ∃ c, l = ⟨[c], .operator⟩ ∧ ¬ r.situation.wantsTerm := by
    rw [hk] at hkind
    cases hmeets.fits with
    | @operator c hterm _ => exact ⟨c, rfl, hterm⟩
    | _ => cases hkind
  -- no literal before the operator can go on in it, whichever it is
  let z : Text := w ++ f k :: rest
  have hz : z.NoDigitFirst := Text.noDigitFirst_append_of_blank hmeets.blank
    (Text.firstNot_cons.2 (Literal.isDigit_of_isOperator hc))
  have hvalue : (k.withOperator f).toLexeme = ⟨[f k], .operator⟩ := by
    rw [Token.withOperator_of_operator hkind, hk, hl]
  have hmeets' : (r'.facing z).Meets rules w (k.withOperator f).toLexeme rest := by
    rw [hvalue]
    exact ⟨hmeets.blank, .operator (h.situation_eq ▸ hterm) hc, rfl, fun h => nomatch h⟩
  have htext : t.set k.position.toNat (f k) = r'.cursor.behind.reverse ++ z := by
    have hplace : k.position.toNat = (r'.cursor.behind.reverse ++ w).length := by
      rw [List.length_append, List.length_reverse, ← r'.cursor.position_eq, h.position_eq, hk]
      exact Int.toNat_natCast _
    rw [hreach.eq_append, hahead, hmeets.ahead_eq, hplace, hl]
    simp [z]
  have hfacing : r.Exchanged f (r'.facing z) := ⟨h.position_eq, h.situation_eq, h.tokens_eq⟩
  rw [htext]
  refine ⟨_, (hreach.facing hz).tail hmeets'.step, hmeets'.ahead_take,
    hfacing.take hmeets hk hmeets' ?_⟩
  rw [hvalue, hl]
  rfl

/-- The text with other operators is read side by side with the one from which they are taken. -/
theorem Reaches.exists_exchanged (h : Reaches rules (start t) r)
    (hf : ∀ k ∈ r.tokens, k.kind = .operator → (Symbol.ofChar (f k)).isOperator) :
    ∃ r', Reaches rules (start (t.withOperators f r.tokens)) r' ∧
      r'.cursor.ahead = r.cursor.ahead ∧ r.Exchanged f r' := by
  induction h with
  | refl => exact ⟨start t, .refl, rfl, rfl, rfl, rfl⟩
  | @tail q r _ hstep ih =>
    obtain ⟨w, l, rest, hmeets, rfl⟩ := hstep.exists_meets
    rw [hmeets.tokens_take] at hf ⊢
    obtain ⟨q', hreach, hahead, hsame⟩ := ih fun j hj => hf j (List.mem_append_left _ hj)
    generalize hk : Token.mk l (q.cursor.position + w.length : Nat) = k at hf ⊢
    rw [hmeets.ahead_take]
    by_cases hkind : k.kind = .operator
    · have hc := hf k (List.mem_append_right _ List.mem_cons_self) hkind
      rw [Text.withOperators_concat_of_operator hkind]
      exact hsame.exists_operator hreach hahead hmeets hk.symm hkind hc
    · have hvalue : (k.withOperator f).toLexeme = l := by
        rw [Token.withOperator_of_ne hkind, ← hk]
      have hmeets' : q'.Meets rules w (k.withOperator f).toLexeme rest := by
        rw [hvalue]
        exact ⟨hmeets.blank, hsame.situation_eq ▸ hmeets.fits, hahead.trans hmeets.ahead_eq,
          hmeets.longest⟩
      rw [Text.withOperators_concat_of_ne hkind]
      refine ⟨_, hreach.tail hmeets'.step, hmeets'.ahead_take,
        hsame.take hmeets hk.symm hmeets' ?_⟩
      rw [hvalue]

end Reading

namespace Analysis

variable {rules : Rules} {stack : Stack} {t : Text} {f : Token → Char}

/-- Other operators in place of those that have been found are found there, and nothing else
changes. -/
theorem ofText_withOperators (rules : Rules) (stack : Stack) (t : Text)
    (hf : ∀ k ∈ (ofText rules t .operator stack).tokens, k.kind = .operator →
      (Symbol.ofChar (f k)).isOperator) :
    (ofText rules (t.withOperators f (ofText rules t .operator stack).tokens)
        .operator stack).verdict = (ofText rules t .operator stack).verdict ∧
      (ofText rules (t.withOperators f (ofText rules t .operator stack).tokens)
        .operator stack).tokens =
          (ofText rules t .operator stack).tokens.map (Token.withOperator f) := by
  obtain ⟨r, o, hgoes, hhalts, -⟩ := exists_halts .operator rules stack t
  rw [tokens_of_halts hgoes hhalts] at hf ⊢
  obtain ⟨r', hreach', hahead, hsame⟩ := hgoes.reaches.exists_exchanged hf
  by_cases hnone : r.tokens = []
  · have htokens := tokens_of_halts (b := .operator) hgoes hhalts
    rw [hnone] at htokens ⊢
    exact ⟨rfl, htokens⟩
  · have hsome : r'.tokens ≠ [] := by
      rw [hsame.tokens_eq]
      exact fun h => hnone (List.map_eq_nil_iff.1 h)
    have hgoes' := hreach'.goes_start_iff.2 (hsame.holds_calls hgoes)
    obtain ⟨hverdict, ks, hks, hks'⟩ :=
      ofText_beyond hgoes hgoes' hnone hsome hahead hsame.situation_eq
    rw [tokens_of_halts hgoes hhalts] at hks
    have hlast : ks = [] := List.self_eq_append_right.1 hks
    rw [hlast] at hks'
    refine ⟨?_, ?_⟩
    · rw [hverdict, hsame.position_eq, Int.sub_self]
      exact Verdict.moved_zero _
    · rw [hks', List.map_nil, List.append_nil, hsame.tokens_eq]

/-- All operators are alike, whatever the verdict on a text. With any operators in place of those
among its tokens, each chosen by itself, the text has the same verdict, and its tokens are the same
but for the operators. The sign of a literal is not among these: an operator has no character in
common with a literal that has been read, and of one that is refused nothing stands before the end
of the last token. It is so with any room to read them in. -/
theorem analysis_with_other_operators (rules : Rules) (stack : Stack) (t : Text)
    (f : Token → Char)
    (hf : ∀ k ∈ (ofText rules t .operator stack).tokens, k.kind = .operator →
      (Symbol.ofChar (f k)).isOperator) :
    (ofText rules (t.withOperators f (ofText rules t .operator stack).tokens)
        .operator stack).verdict = (ofText rules t .operator stack).verdict ∧
      (ofText rules (t.withOperators f (ofText rules t .operator stack).tokens)
        .operator stack).tokens =
          (ofText rules t .operator stack).tokens.map (Token.withOperator f) ∧
      ∀ k ∈ (ofText rules t .operator stack).tokens, k.kind = .operator →
        (∀ l ∈ (ofText rules t .operator stack).tokens, l.kind = .operand → k.Apart l) ∧
        k.finish ≤ Token.reach (ofText rules t .operator stack).tokens := by
  obtain ⟨hverdict, htokens⟩ := ofText_withOperators rules stack t hf
  have hcover := cover_tokens rules t stack
  refine ⟨hverdict, htokens, ?_⟩
  intro k hk hkind
  refine ⟨?_, hcover.finish_le_reach hk⟩
  intro l hl hkind'
  refine hcover.apart hk hl ?_
  rintro rfl
  rw [hkind] at hkind'
  cases hkind'

/-- In a group that is not closed a slash takes the place of a minus before a sign, and a minus that
of a star. -/
theorem analysis_with_slash_before_sign :
    (ofText .standard "(3/-4 - 5".toList).verdict =
        { status := .faulty .missingClosing, column := 9 } ∧
      ((ofText .standard "(3/-4 - 5".toList).tokens.map fun k => (k.value, k.position)) =
        [(['('], 0), (['3'], 1), (['/'], 2), (['-', '4'], 3), (['-'], 6), (['5'], 8)] := by
  let f (k : Token) : Char := if k.position = 2 then '/' else '-'
  have hverdict : (ofText .standard "(3--4 * 5".toList).verdict =
      { status := .faulty .missingClosing, column := 9 } := by decide +kernel
  have htext :
      Text.withOperators f "(3--4 * 5".toList (ofText .standard "(3--4 * 5".toList).tokens =
        "(3/-4 - 5".toList := by decide +kernel
  obtain ⟨hsame, htokens, -⟩ :=
    analysis_with_other_operators .standard .unlimited "(3--4 * 5".toList f (by decide +kernel)
  rw [htext] at hsame htokens
  refine ⟨hsame.trans hverdict, ?_⟩
  rw [htokens]
  decide +kernel

end Analysis

end ArithSyntax
