import ArithSyntax.Proofs.Composition
import ArithSyntax.Proofs.Elasticity
import ArithSyntax.Proofs.Group

/-!
# Groups in place of terms

Whatever the verdict on a text, what stands in one of its groups is an expression by itself, and any
expression in parentheses may take the place of a term, a literal or a group, if so many groups are
allowed and there is room for the calls inside the groups around it. This changes neither the status
nor the other tokens, which only move.

Up to the term both texts are read alike (`Reading.Reaches.facing`). Behind it they are in the same
situation and the same is left to be read, so they go on side by side
(`Reading.Beyond.exists_reaches`) and stop at the same fault (`Analysis.ofText_beyond`).
-/

namespace ArithSyntax

open Reading

/-! ### Texts with another term -/

/-- The text with the expression `u` in parentheses in place of what stands from the column `i` up
to `j`. -/
def Text.graft (t : Text) (i j : Int) (u : Text) : Text :=
  t.slice 0 i ++ '(' :: u ++ ')' :: t.slice j t.length

/-- What stands between two parts of a text is what another expression takes the place of. -/
theorem Text.graft_append (a v b u : Text) :
    Text.graft (a ++ v ++ b) a.length (a ++ v).length u = a ++ '(' :: (u ++ ')' :: b) := by
  have hfront : Text.slice (a ++ v ++ b) 0 a.length = a := by
    have hslice := Text.slice_append [] a (v ++ b)
    simpa using hslice
  have hback : Text.slice (a ++ v ++ b) (a ++ v).length (a ++ v ++ b).length = b := by
    have hslice := Text.slice_append (a ++ v) b []
    rw [List.append_nil, ← List.length_append] at hslice
    exact hslice
  rw [graft, hfront, hback, List.append_assoc, List.cons_append]

/-- The verdict with a fault `n` columns further on. -/
def Verdict.moved (v : Verdict) (n : Int) : Verdict :=
  if v.isWellFormed then v else { v with column := v.column + n }

/-- A verdict that is moved by nothing stays what it is. -/
theorem Verdict.moved_zero (v : Verdict) : v.moved 0 = v := by
  rw [moved, Int.add_zero, ite_self]

namespace Reading

variable {rules : Rules} {stack : Stack} {m m' q r r' : Reading} {t : Text}

/-! ### What is before a term -/

/-- The same has been read, but `z` is ahead. -/
def facing (q : Reading) (z : Text) : Reading := { q with cursor := { q.cursor with ahead := z } }

@[simp] theorem position_facing (q : Reading) (z : Text) :
    (q.facing z).cursor.position = q.cursor.position := rfl

@[simp] theorem situation_facing (q : Reading) (z : Text) :
    (q.facing z).situation = q.situation := rfl

/-- What has been read is read alike before any text, unless a literal can go on there. -/
theorem Reaches.facing {z : Text} (h : Reaches rules (start t) q) (hz : z.NoDigitFirst) :
    Reaches rules (start (q.cursor.behind.reverse ++ z)) (q.facing z) := by
  obtain ⟨ls, hspaced, hadmits, htext, -, htokens⟩ := h.exists_layout_of_start
  have hls : q.cursor.behind.reverse = ls.text :=
    List.append_cancel_right (h.eq_append.symm.trans htext)
  obtain ⟨q', hreach, hahead, hrecorded⟩ :=
    exists_reaches_of_layout (r := start (q.cursor.behind.reverse ++ z)) hadmits hspaced
      (congrArg (· ++ z) hls) hz
  have heq : q' = q.facing z := by
    have hbehind := hreach.eq_append
    rw [hahead] at hbehind
    have hcursor : q'.cursor = (q.facing z).cursor :=
      Cursor.ext (List.reverse_injective (List.append_cancel_right hbehind).symm) hahead
    have hsame : q'.recorded = q.recorded :=
      List.reverse_injective ((tokens_eq_of_recorded hrecorded).trans htokens.symm)
    obtain ⟨c, ks⟩ := q'
    dsimp only at hcursor hsame
    rw [hcursor, hsame]
    rfl
  exact heq ▸ hreach

/-! ### What is behind a term -/

/-- From `m` to `r` in one text and from `m'` to `r'` in the other the same has been read, and the
same is left to be read. -/
structure Beyond (m m' r r' : Reading) : Prop where
  /-- The same is ahead. -/
  ahead_eq : r'.cursor.ahead = r.cursor.ahead
  /-- The columns differ by as much as at the beginning. -/
  position_eq : (r'.cursor.position : Int) =
    r.cursor.position + (m'.cursor.position - m.cursor.position)
  /-- The same may come next. -/
  situation_eq : r'.situation = r.situation
  /-- The tokens recorded since then differ in their places by as much. -/
  tokens_eq : ∃ ks, r.tokens = m.tokens ++ ks ∧
    r'.tokens = m'.tokens ++ ks.map (Token.shift · (m'.cursor.position - m.cursor.position))

/-- Both readings begin where the same is ahead in the same situation. -/
theorem Beyond.start (hahead : m'.cursor.ahead = m.cursor.ahead)
    (hsituation : m'.situation = m.situation) : m.Beyond m' m m' where
  ahead_eq := hahead
  position_eq := by omega
  situation_eq := hsituation
  tokens_eq := ⟨[], (List.append_nil _).symm, (List.append_nil _).symm⟩

/-- The same step is made in both texts. -/
theorem Beyond.exists_step {s : Reading} (h : m.Beyond m' r r') (hstep : Step rules r s) :
    ∃ s', Step rules r' s' ∧ m.Beyond m' s s' := by
  obtain ⟨w, l, rest, hmeets, rfl⟩ := hstep.exists_meets
  have hmeets' : r'.Meets rules w l rest :=
    ⟨hmeets.blank, h.situation_eq ▸ hmeets.fits, h.ahead_eq.trans hmeets.ahead_eq, hmeets.longest⟩
  have hposition := h.position_eq
  refine ⟨_, hmeets'.step, hmeets'.ahead_take.trans hmeets.ahead_take.symm, ?_, ?_, ?_⟩
  · rw [hmeets.passes.position_eq, hmeets'.passes.position_eq]
    omega
  · rw [situation_take, situation_take, situation_skipBlanks, situation_skipBlanks, h.situation_eq]
  · obtain ⟨ks, hks, hks'⟩ := h.tokens_eq
    rw [hmeets.tokens_take, hmeets'.tokens_take, hks, hks']
    refine ⟨_, List.append_assoc _ _ _, ?_⟩
    have hplace : ((r'.cursor.position + w.length : Nat) : Int) =
        (r.cursor.position + w.length : Nat) + (m'.cursor.position - m.cursor.position) := by
      omega
    rw [List.append_assoc, List.map_append, hplace]
    rfl

/-- Both texts are read on side by side. -/
theorem Beyond.exists_reaches (h : m.Beyond m' m m') (hreach : Reaches rules m r) :
    ∃ r', Reaches rules m' r' ∧ m.Beyond m' r r' := by
  induction hreach with
  | refl => exact ⟨m', .refl, h⟩
  | tail _ hstep ih =>
    obtain ⟨q', hreach', hbeyond⟩ := ih
    obtain ⟨r', hstep', hbeyond'⟩ := hbeyond.exists_step hstep
    exact ⟨r', hreach'.tail hstep', hbeyond'⟩

/-- The room that is needed is the same in both texts. -/
theorem Beyond.exists_goes (h : m.Beyond m' m m') (hgoes : Goes rules stack m r) :
    ∃ r', Goes rules stack m' r' ∧ m.Beyond m' r r' := by
  obtain ⟨r', hreach', hbeyond⟩ := h.exists_reaches hgoes.reaches
  obtain ⟨ks, hks, hks'⟩ := hbeyond.tokens_eq
  refine ⟨r', (hreach'.goes_iff hks').2 ?_, hbeyond⟩
  rw [Token.map_toLexeme_shift, h.situation_eq]
  exact (hgoes.reaches.goes_iff hks).1 hgoes

/-- Behind the blanks the columns still differ by as much. -/
theorem Beyond.position_skipBlanks (h : m.Beyond m' r r') :
    (r'.skipBlanks.cursor.position : Int) =
      r.skipBlanks.cursor.position + (m'.cursor.position - m.cursor.position) := by
  obtain ⟨w, hw, hahead, hposition⟩ := r.cursor.exists_blank_append
  have hposition' : r'.cursor.skipBlanks.position = r'.cursor.position + w.length :=
    Cursor.position_skipBlanks_of_append hw r.cursor.noBlankFirst_ahead_skipBlanks
      (h.ahead_eq.trans hahead)
  have hdiffer := h.position_eq
  rw [skipBlanks, skipBlanks, hposition, hposition']
  omega

/-- Nothing is recorded if there are no tokens. -/
theorem recorded_eq_nil_iff : r.recorded = [] ↔ r.tokens = [] := List.reverse_eq_nil_iff.symm

/-- Behind some tokens both texts go on alike. -/
theorem Beyond.alike (h : m.Beyond m' r r') (hm : m.tokens ≠ []) (hm' : m'.tokens ≠ []) :
    r.Alike r' where
  situation_eq := h.situation_eq
  recorded_iff := by
    obtain ⟨ks, hks, hks'⟩ := h.tokens_eq
    rw [recorded_eq_nil_iff, recorded_eq_nil_iff, hks, hks']
    simp [hm, hm']
  stretched := by
    rw [ahead_skipBlanks, ahead_skipBlanks, h.ahead_eq]
    exact .refl _

end Reading

namespace Analysis

variable {rules : Rules} {stack : Stack} {m m' : Reading} {t t' : Text}

/-- Behind places where the same is left to be read, and the same may come next, two texts have the
same tokens and the same verdict but for the columns. -/
theorem ofText_beyond (hm : Goes rules stack (start t) m) (hm' : Goes rules stack (start t') m')
    (htokens : m.tokens ≠ []) (htokens' : m'.tokens ≠ [])
    (hahead : m'.cursor.ahead = m.cursor.ahead) (hsituation : m'.situation = m.situation) :
    (ofText rules t' .operator stack).verdict =
        (ofText rules t .operator stack).verdict.moved
          (m'.cursor.position - m.cursor.position) ∧
      ∃ ks, (ofText rules t .operator stack).tokens = m.tokens ++ ks ∧
        (ofText rules t' .operator stack).tokens =
          m'.tokens ++ ks.map (Token.shift · (m'.cursor.position - m.cursor.position)) := by
  obtain ⟨r, o, hgoes, hhalts, -⟩ := exists_halts .operator rules stack t
  obtain ⟨r', hrest, hbeyond⟩ :=
    (Beyond.start hahead hsituation).exists_goes (hm.goes_of_halts hgoes hhalts)
  have hgoes' : Goes rules stack (start t') r' := hm'.trans hrest
  have halike := hbeyond.alike htokens htokens'
  cases o with
  | ok s =>
    have hhalts' := halike.halts_ok hhalts
    rw [tokens_of_halts hgoes hhalts, tokens_of_halts hgoes' hhalts',
      verdict_of_halts_ok hgoes hhalts, verdict_of_halts_ok hgoes' hhalts']
    exact ⟨rfl, hbeyond.tokens_eq⟩
  | error e =>
    obtain ⟨e', n, hhalts', hfault, hcolumn, hcolumn', -⟩ := halike.exists_halts hhalts
    rw [tokens_of_halts hgoes hhalts, tokens_of_halts hgoes' hhalts', verdict_of_halts hgoes hhalts,
      verdict_of_halts hgoes' hhalts', hfault, hbeyond.situation_eq]
    refine ⟨?_, hbeyond.tokens_eq⟩
    have hcolumns : (e'.column : Int) =
        e.column + (m'.cursor.position - m.cursor.position) := by
      have hdiffer := hbeyond.position_skipBlanks
      omega
    rw [hcolumns]
    rfl

/-- What stands in a group is an expression, with the tokens found in the group. -/
theorem ofText_of_matched {before inner after : List Token} {k l : Token}
    (htokens : (ofText rules t .operator stack).tokens = before ++ (k :: inner ++ [l]) ++ after)
    (hmatched : Token.Matched k inner l) :
    (ofText rules (t.slice (k.position + 1) l.position) .operator stack).isWellFormed ∧
      (ofText rules (t.slice (k.position + 1) l.position) .operator stack).tokens =
        inner.map (Token.shift · (-(k.position + 1))) := by
  obtain ⟨r, o, hgoes, hhalts, -⟩ := exists_halts .operator rules stack t
  rw [tokens_of_halts hgoes hhalts] at htokens
  obtain ⟨q, m, w, u, hq, -, hpasses, -, -, hk, hl, hwell, hinner⟩ :=
    hgoes.reaches.exists_group hmatched htokens
  have hslice : t.slice (k.position + 1) l.position = u := by
    have hsplit :=
      Text.slice_append (q.cursor.behind.reverse ++ w ++ ['(']) u (')' :: m.cursor.ahead)
    rw [hq.eq_append, hpasses.passes.ahead_eq, hl, hk, q.cursor.position_eq]
    simpa [Int.add_assoc] using hsplit
  have hcalls : stack.holds (Token.calls (ofText rules u).tokens) := by
    have hprefix : (before ++ [k]) ++ inner <+: r.tokens := by
      rw [htokens]
      exact ⟨l :: after, by simp⟩
    have hread := Token.holds_calls_of_prefix hprefix hgoes.holds_calls
    rw [hinner] at hread
    exact Token.holds_calls_of_append (admits_tokens rules u .operator .unlimited) hread
  have hwell' := isWellFormed_on_iff.2 ⟨hwell, hcalls⟩
  rw [hslice]
  refine ⟨hwell', ?_⟩
  rw [ofText_eq_of_isWellFormed hwell', hinner, Token.map_shift_neg]

/-- The text in which an expression takes the place of a term. -/
theorem graft_of_passesTerm {q : Reading} {w v : Text} (hq : Reaches rules (start t) q)
    (h : PassesTerm rules q w v m) (u : Text) :
    t.graft (q.cursor.position + w.length : Nat) m.cursor.position u =
      q.cursor.behind.reverse ++ (w ++ '(' :: (u ++ ')' :: m.cursor.ahead)) := by
  have hsplit := Text.graft_append (q.cursor.behind.reverse ++ w) v m.cursor.ahead u
  have hlength : (q.cursor.behind.reverse ++ w).length = q.cursor.position + w.length := by
    rw [q.cursor.position_eq, List.length_append, List.length_reverse]
  have hlength' : (q.cursor.behind.reverse ++ w ++ v).length = m.cursor.position := by
    rw [h.passes.position_eq, List.length_append, hlength, List.length_append, Nat.add_assoc]
  rw [hlength, hlength', List.append_assoc, List.append_assoc, List.append_assoc,
    ← List.append_assoc w, ← h.passes.ahead_eq, ← hq.eq_append] at hsplit
  exact hsplit

/-- A text that is as another one up to a place where a term is wanted is read up to there, and then
an expression in parentheses is, if so many groups are allowed and there is room for it. -/
theorem exists_goes_group {q : Reading} {w u : Text} {n : Nat} (hq : Goes rules stack (start t) q)
    (hterm : q.situation.wantsTerm) (hw : w.Blank)
    (hu : (ofText rules u .operator (stack.inside (2 * (q.situation.depth + 1)))).isWellFormed)
    (hnested : Token.NestedWithin n (ofText rules u).tokens)
    (hroom : q.situation.depth + 1 + n ≤ rules.maxDepth) (rest : Text) :
    ∃ m, Goes rules stack (start (q.cursor.behind.reverse ++ (w ++ '(' :: (u ++ ')' :: rest)))) m ∧
      m.cursor.ahead = rest ∧
      m.tokens = q.tokens ++ Token.grouped (q.cursor.position + w.length : Nat)
        (ofText rules u).tokens u.length ∧
      m.situation = q.situation.next .operand ∧
      m.cursor.position = q.cursor.position + w.length + u.length + 2 := by
  obtain ⟨hwell, hcalls⟩ := isWellFormed_on_iff.1 hu
  let z : Text := w ++ '(' :: (u ++ ')' :: rest)
  have hz : z.NoDigitFirst := Text.noDigitFirst_append_of_blank hw (Text.firstNot_cons.2 rfl)
  obtain ⟨m, hpasses, hahead, htokens⟩ := exists_passesTerm_of_group (q := q.facing z) hterm hw rfl
    hwell hnested hroom
  have hreach := (hq.reaches.facing hz).trans hpasses.reaches
  refine ⟨m, (Reaches.goes_start_iff hreach).2 ?_, hahead, htokens, hpasses.situation_eq, ?_⟩
  · rw [htokens, Token.holds_calls_append]
    refine ⟨hq.holds_calls, ?_⟩
    change stack.holds (Situation.calls
      (({} : Situation).run (q.tokens.map Token.toLexeme)) _)
    rw [← hq.reaches.admits_tokens.2]
    exact (Token.holds_calls_group rfl rfl (admits_tokens rules u .operator .unlimited)
      (tokens_ne_nil_of_isWellFormed hwell)).2 hcalls
  · rw [hpasses.passes.position_eq, position_facing]
    simp only [List.length_append, List.length_cons, List.length_nil]
    omega

/-- An expression in parentheses takes the place of a term, if there is room for it there. -/
theorem ofText_graft {before span after : List Token} {i j : Int} {u : Text} {n : Nat}
    (htokens : (ofText rules t .operator stack).tokens = before ++ span ++ after)
    (hspan : Token.Term i j span)
    (hu : (ofText rules u .operator
      (stack.inside (2 * (Token.balance before + 1).toNat))).isWellFormed)
    (hnested : Token.NestedWithin n (ofText rules u).tokens)
    (hroom : Token.balance before + 1 + n ≤ rules.maxDepth) :
    (ofText rules (t.graft i j u) .operator stack).verdict =
        (ofText rules t .operator stack).verdict.moved (u.length + 2 - (j - i)) ∧
      (ofText rules (t.graft i j u) .operator stack).tokens =
        before ++ Token.grouped i (ofText rules u).tokens u.length ++
          after.map (Token.shift · (u.length + 2 - (j - i))) := by
  obtain ⟨r, o, hgoes, hhalts, -⟩ := exists_halts .operator rules stack t
  have hrtokens := htokens
  rw [tokens_of_halts hgoes hhalts] at hrtokens
  obtain ⟨q, m, w, v, hq, rfl, hpasses, -, hmtokens, rfl, rfl⟩ :=
    hgoes.reaches.exists_term hspan hrtokens
  have hread (ks : List Token) (hks : ks <+: q.tokens ++ span) : stack.holds (Token.calls ks) := by
    refine Token.holds_calls_of_prefix (hks.trans ?_) hgoes.holds_calls
    rw [hrtokens]
    exact List.prefix_append _ _
  have hqgoes : Goes rules stack (start t) q := (Reaches.goes_start_iff hq).2 (hread _ ⟨span, rfl⟩)
  have hm : Goes rules stack (start t) m := by
    refine (Reaches.goes_start_iff (hq.trans hpasses.reaches)).2 (hread _ ?_)
    rw [hmtokens]
  -- the other text is read alike up to the term, and there the group is read
  have hleft : (Token.balance q.tokens + 1).toNat = q.situation.depth + 1 := by
    rw [hq.balance_eq.1]
    rfl
  rw [hleft] at hu
  rw [hq.balance_eq.1] at hroom
  obtain ⟨m', hm', hahead, hmtokens', hsituation, hposition⟩ := exists_goes_group hqgoes
    hpasses.wantsTerm hpasses.blank hu hnested (by omega) m.cursor.ahead
  have hne : m.tokens ≠ [] := by
    rw [hmtokens]
    exact List.append_ne_nil_of_right_ne_nil _ hspan.ne_nil
  have hne' : m'.tokens ≠ [] := by
    rw [hmtokens']
    exact List.append_ne_nil_of_right_ne_nil _ (List.cons_ne_nil _ _)
  obtain ⟨hverdict, ks, hks, hks'⟩ := ofText_beyond hm hm' hne hne' hahead
    (hsituation.trans hpasses.situation_eq.symm)
  have hafter : ks = after := by
    rw [htokens, hmtokens] at hks
    exact (List.append_cancel_left hks).symm
  have hoffset : (m'.cursor.position - m.cursor.position : Int) =
      u.length + 2 - (m.cursor.position - (q.cursor.position + w.length : Nat)) := by
    rw [hposition]
    omega
  rw [graft_of_passesTerm hq hpasses u, ← hoffset, ← hafter]
  rw [hmtokens'] at hks'
  exact ⟨hverdict, hks'⟩

/-- Whatever the verdict on a text, what stands between two parentheses that belong together is an
expression, with the tokens found between them. Any other expression in parentheses may take the
place of a literal or of a group, if so many groups are allowed and it is one with the room that is
left inside the groups around it and its own: the status is the same, a fault is as much further on
as the text gets longer, and the tokens of the expression and the two parentheses take the place of
those of the term, with the later ones as much further on. -/
theorem analysis_of_terms (rules : Rules) (stack : Stack) (t : Text) :
    (∀ before k inner l after,
      (ofText rules t .operator stack).tokens = before ++ (k :: inner ++ [l]) ++ after →
      Token.Matched k inner l →
      (ofText rules (t.slice (k.position + 1) l.position) .operator stack).isWellFormed ∧
        (ofText rules (t.slice (k.position + 1) l.position) .operator stack).tokens =
          inner.map (Token.shift · (-(k.position + 1)))) ∧
      ∀ before span after i j u n,
        (ofText rules t .operator stack).tokens = before ++ span ++ after →
        Token.Term i j span →
        (ofText rules u .operator
          (stack.inside (2 * (Token.balance before + 1).toNat))).isWellFormed →
        Token.NestedWithin n (ofText rules u).tokens →
        Token.balance before + 1 + n ≤ rules.maxDepth →
        (ofText rules (t.graft i j u) .operator stack).verdict =
            (ofText rules t .operator stack).verdict.moved (u.length + 2 - (j - i)) ∧
          (ofText rules (t.graft i j u) .operator stack).tokens =
            before ++ Token.grouped i (ofText rules u).tokens u.length ++
              after.map (Token.shift · (u.length + 2 - (j - i))) := by
  constructor
  · intro before k inner l after htokens hmatched
    exact ofText_of_matched htokens hmatched
  · intro before span after i j u n htokens hspan hu hnested hroom
    exact ofText_graft htokens hspan hu hnested hroom

/-- In a text that breaks off in a group, a negative literal in parentheses takes the place of a
smaller group. -/
theorem analysis_of_terms_unfinished :
    (ofText .standard "2*((-5)+".toList .operator .standard).verdict =
        { status := .faulty .missingTerm, column := 8 } ∧
      (ofText .standard (Text.slice "2*((3)+".toList 4 5) .operator .standard).isWellFormed := by
  let number : Token := { value := ['3'], kind := .operand, position := 4 }
  let opening : Token := { value := ['('], kind := .opening, position := 3 }
  let closing : Token := { value := [')'], kind := .closing, position := 5 }
  have htokens : (ofText .standard "2*((3)+".toList .operator .standard).tokens =
      [{ value := ['2'], kind := .operand, position := 0 },
        { value := ['*'], kind := .operator, position := 1 },
        { value := ['('], kind := .opening, position := 2 }] ++
        (opening :: [number] ++ [closing]) ++
        [{ value := ['+'], kind := .operator, position := 6 }] := by decide +kernel
  have hmatched : Token.Matched opening [number] closing := ⟨rfl, by decide, rfl⟩
  have hverdict : (ofText .standard "2*((3)+".toList .operator .standard).verdict =
      { status := .faulty .missingTerm, column := 7 } := by decide +kernel
  have hu : (ofText .standard "-5".toList .operator (.limited 986)).isWellFormed := by
    decide +kernel
  have hflat : Token.NestedWithin 0 (ofText .standard "-5".toList).tokens := by decide +kernel
  obtain ⟨hinner, hgraft⟩ := analysis_of_terms .standard .standard "2*((3)+".toList
  obtain ⟨hmoved, -⟩ := hgraft _ _ _ _ _ "-5".toList 0 htokens (.group hmatched) hu hflat
    (by decide)
  rw [hverdict] at hmoved
  exact ⟨hmoved, (hinner _ _ _ _ _ htokens hmatched).1⟩

/-- Inside `n` groups the tokens of an expression come behind `n` opening parentheses. -/
theorem exists_tokens_nest (h : (ofText rules t).isWellFormed) (n : Nat) :
    ∃ before after, (ofText (rules.deepen n) (t.nest n)).tokens =
        before ++ (ofText rules t).tokens.map (Token.shift · n) ++ after ∧
      Token.balance before = n := by
  induction n with
  | zero =>
    refine ⟨[], [], ?_, rfl⟩
    rw [Text.nest_zero, List.nil_append, List.append_nil]
    exact (Token.map_shift_zero _).symm
  | succ n ih =>
    obtain ⟨before, after, htokens, hbalance⟩ := ih
    have hnest : (ofText (rules.deepen n) (t.nest n)).isWellFormed := isWellFormed_nest n h
    let opening : Token := { value := ['('], kind := .opening, position := 0 }
    let closing : Token := { value := [')'], kind := .closing, position := (t.nest n).length + 1 }
    refine ⟨opening :: before.map (Token.shift · 1), after.map (Token.shift · 1) ++ [closing],
      ?_, ?_⟩
    · have hgroup := (isWellFormed_group hnest).2
      rw [Rules.deepen_deepen, ← Text.nest_succ, htokens] at hgroup
      rw [hgroup]
      simp only [List.map_append, Token.map_shift_map_shift, List.cons_append, List.append_assoc,
        Int.natCast_add]
      rfl
    · rw [Token.balance_cons, Token.balance_map_shift, hbalance]
      exact Int.add_comm 1 n

/-- A number in 400 groups is an expression on the standard stack, and has no more than 600 groups
within one another. In such an expression, in place of the number, it is inside 801 groups, and the
whole is none, though the rules allow 1200. -/
theorem not_isWellFormed_graft :
    ∃ before after,
      (ofText (Rules.standard.deepen 1000) (Text.nest 400 ['1']) .operator .standard).tokens =
          before ++ [{ value := ['1'], kind := .operand, position := 400 }] ++ after ∧
        (ofText (Rules.standard.deepen 1000) (Text.nest 400 ['1'])
          .operator .standard).isWellFormed ∧
        Token.NestedWithin 600 (ofText (Rules.standard.deepen 1000) (Text.nest 400 ['1'])).tokens ∧
        Token.balance before + 1 + 600 ≤ (Rules.standard.deepen 1000).maxDepth ∧
        ¬ (ofText (Rules.standard.deepen 1000)
          (Text.graft (Text.nest 400 ['1']) 400 401 (Text.nest 400 ['1']))
          .operator .standard).isWellFormed := by
  have hone : (ofText (Rules.standard.deepen 600) ['1'] .operator
      (Stack.standard.inside (2 * 400))).isWellFormed := by decide +kernel
  have hone' : (ofText Rules.standard ['1']).isWellFormed := by decide +kernel
  have htoken : (ofText (Rules.standard.deepen 600) ['1']).tokens =
      [{ value := ['1'], kind := .operand, position := 0 }] := by decide +kernel
  have hnest := isWellFormed_nest 400 hone
  obtain ⟨hwell, -⟩ := isWellFormed_on_iff.1 hnest
  have hwell' : (ofText (Rules.standard.deepen 400) (Text.nest 400 ['1'])).isWellFormed :=
    isWellFormed_nest 400 hone'
  obtain ⟨before, after, htokens, hbalance⟩ :=
    exists_tokens_nest (isWellFormed_on_iff.1 hone).1 400
  rw [htoken] at htokens
  rw [Rules.deepen_deepen] at hnest hwell htokens
  refine ⟨before, after, ?_, hnest, ?_, ?_, ?_⟩
  · rw [ofText_eq_of_isWellFormed hnest]
    exact htokens
  · -- so many groups are not needed, and the tokens are those with fewer allowed
    rw [tokens_eq_of_sentence hwell (sentence_of_isWellFormed hwell').unlimited]
    exact nestedWithin_tokens _ _
  · rw [hbalance]
    decide
  · -- the groups around the number, the new one and those of the second text are all open at once
    have hgraft : Text.graft (Text.nest 400 ['1']) 400 401 (Text.nest 400 ['1']) =
        List.replicate 400 '(' ++
          '(' :: (Text.nest 400 ['1'] ++ ')' :: List.replicate 400 ')') := by
      have hsplit := Text.graft_append (List.replicate 400 '(') ['1'] (List.replicate 400 ')')
        (Text.nest 400 ['1'])
      rwa [List.append_assoc, List.length_append, List.length_replicate] at hsplit
    have hopenings (v : Text) : List.replicate 400 '(' ++ '(' :: (List.replicate 400 '(' ++ v) =
        List.replicate 801 '(' ++ v := by
      rw [← List.cons_append, ← List.replicate_succ, ← List.append_assoc,
        List.replicate_append_replicate]
    refine not_isWellFormed_of_isExhausted ?_
    rw [hgraft, Text.nest, List.append_assoc, hopenings]
    exact isExhausted_of_openings (by decide) (by decide) (Or.inl (by decide))

end Analysis

end ArithSyntax
