import ArithSyntax.Proofs.Exhaustion

/-!
# Blanks between lexemes

Whether a text is well formed, and with which lexemes, depends on its lexemes alone
(`isWellFormed_layout`): they may be written with any blanks between them or with none, and they are
read back, because two lexemes that follow one another neither merge nor split in another way. Hence
texts that differ in blanks only have the same lexemes, and the lexemes of a well-formed text are
determined by its other characters (`eq_of_flatten_eq`).
-/

namespace ArithSyntax

open Reading

/-- The lexemes make up an expression: each fits, and at the end a term has ended and no group is
open. -/
structure Lexeme.Compose (rules : Rules) (ks : List Lexeme) : Prop where
  /-- Each fits what comes before it. -/
  admits : ({} : Situation).Admits rules ks
  /-- A term has ended. -/
  not_wantsTerm : ¬ (({} : Situation).run ks).wantsTerm
  /-- No group is open. -/
  around_eq : (({} : Situation).run ks).around = []

variable {rules : Rules} {t u w : Text} {ls : Layout} {ks : List Lexeme}

/-- The layout of some lexemes with nothing between them. -/
def Layout.dense (ks : List Lexeme) : Layout := ks.map fun l => ([], l)

/-- Lexemes laid out without blanks are the same lexemes. -/
theorem Layout.lexemes_dense (ks : List Lexeme) : (dense ks).lexemes = ks := by
  rw [lexemes, dense, List.map_map]
  exact List.map_id ks

/-- No blanks are blanks. -/
theorem Layout.spaced_dense (ks : List Lexeme) : (dense ks).Spaced := by
  intro p hp
  obtain ⟨l, -, rfl⟩ := List.mem_map.1 hp
  exact Text.blank_nil

/-- Lexemes laid out without blanks are written one after the other. -/
theorem Layout.text_dense (ks : List Lexeme) :
    (dense ks).text = (ks.map Lexeme.value).flatten := by
  induction ks with
  | nil => rfl
  | cons l ks ih =>
    rw [dense, List.map_cons, text]
    exact congrArg (l.value ++ ·) ih

namespace Analysis

/-- Lexemes that make up an expression are read from any layout with blanks between them. -/
theorem isWellFormed_layout (hcompose : Lexeme.Compose rules ls.lexemes) (hspaced : ls.Spaced)
    (hw : w.Blank) :
    (ofText rules (ls.text ++ w)).isWellFormed ∧
      (ofText rules (ls.text ++ w)).tokens = ls.tokens 0 := by
  have hrest : w.NoDigitFirst := by
    simpa using Text.noDigitFirst_append_of_blank hw Text.firstNot_nil
  obtain ⟨r, hreach, hahead, hrecorded⟩ := exists_reaches_of_layout
    (r := .start (ls.text ++ w)) hcompose.admits hspaced rfl hrest
  have hls : r.tokens = ls.tokens 0 := tokens_eq_of_recorded hrecorded
  have hsituation := situation_eq_run hls
  have hend : r.skipBlanks.cursor.atEnd := by
    refine Cursor.atEnd_iff_ahead.2 (Cursor.ahead_skipBlanks_of_append hw Text.firstNot_nil ?_)
    rw [hahead, List.append_nil]
  have hstop : Stops rules r (.ok r.skipBlanks) := by
    refine .complete ?_ ?_ hend
    · rw [hsituation]
      exact hcompose.not_wantsTerm
    · rw [hsituation]
      exact congrArg List.length hcompose.around_eq
  exact ⟨isWellFormed_of_run hreach hstop, (tokens_ofText hreach hstop).trans hls⟩

/-- A well-formed text is a layout of lexemes that make up an expression, with blanks after it. -/
theorem exists_layout_of_isWellFormed (h : (ofText rules t).isWellFormed) :
    ∃ (ls : Layout) (w : Text), t = ls.text ++ w ∧ ls.Spaced ∧ w.Blank ∧
      Lexeme.Compose rules ls.lexemes ∧ (ofText rules t).tokens = ls.tokens 0 := by
  obtain ⟨r, hreach, hstop, htokens⟩ := exists_run_of_isWellFormed h
  obtain ⟨ls, hspaced, hadmits, htext, -, hls⟩ := hreach.exists_layout_of_start
  refine ⟨ls, r.cursor.ahead, htext, hspaced, hstop.blank_ahead, ?_, htokens.trans hls⟩
  cases hstop with
  | complete hterm hdepth _ =>
    rw [situation_eq_run hls] at hterm hdepth
    exact ⟨hadmits, hterm, List.length_eq_zero_iff.1 hdepth⟩

/-- Without its blanks a well-formed text is the text of its lexemes. -/
theorem withoutBlanks_eq_of_isWellFormed (h : (ofText rules t).isWellFormed) :
    t.withoutBlanks = (((ofText rules t).tokens.map Token.toLexeme).map Lexeme.value).flatten ∧
      Lexeme.Compose rules ((ofText rules t).tokens.map Token.toLexeme) := by
  obtain ⟨ls, w, rfl, hspaced, hw, hcompose, htokens⟩ := exists_layout_of_isWellFormed h
  rw [htokens, Layout.toLexeme_tokens, Text.withoutBlanks_append, Text.withoutBlanks_of_blank hw,
    List.append_nil]
  exact ⟨Layout.withoutBlanks_text hspaced hcompose.admits.isBlank_eq_false, hcompose⟩

/-- The text that lexemes make up determines them. -/
theorem eq_of_flatten_eq {ks' : List Lexeme} (h : Lexeme.Compose rules ks)
    (h' : Lexeme.Compose rules ks')
    (heq : (ks.map Lexeme.value).flatten = (ks'.map Lexeme.value).flatten) : ks = ks' := by
  have hread (ks : List Lexeme) (h : Lexeme.Compose rules ks) :
      (ofText rules (ks.map Lexeme.value).flatten).tokens.map Token.toLexeme = ks := by
    have htext : (Layout.dense ks).text ++ [] = (ks.map Lexeme.value).flatten := by
      rw [Layout.text_dense, List.append_nil]
    have hdense : Lexeme.Compose rules (Layout.dense ks).lexemes := by
      rwa [Layout.lexemes_dense]
    have htokens := (isWellFormed_layout hdense (Layout.spaced_dense ks) Text.blank_nil).2
    rw [htext] at htokens
    rw [htokens, Layout.toLexeme_tokens, Layout.lexemes_dense]
  rw [← hread ks h, heq, hread ks' h']

/-- Lexemes for which there is room are read from any layout with blanks between them. -/
theorem isWellFormed_layout_on {stack : Stack} (hcompose : Lexeme.Compose rules ls.lexemes)
    (hspaced : ls.Spaced) (hw : w.Blank)
    (hstack : stack.holds (({} : Situation).calls ls.lexemes)) :
    (ofText rules (ls.text ++ w) .operator stack).isWellFormed ∧
      (ofText rules (ls.text ++ w) .operator stack).tokens = ls.tokens 0 := by
  obtain ⟨hwell, htokens⟩ := isWellFormed_layout hcompose hspaced hw
  have hroom : stack.holds (Token.calls (ofText rules (ls.text ++ w)).tokens) := by
    rwa [htokens, Token.calls, Layout.toLexeme_tokens]
  have hread := isWellFormed_on_iff.2 ⟨hwell, hroom⟩
  rw [ofText_eq_of_isWellFormed hread]
  exact ⟨hwell, htokens⟩

/-- The tokens of a well-formed text are those of each of its derivations in the grammar without
limits. Its lexemes are read back, at their new places, from any text that has blanks between them;
and well-formed texts have the same lexemes exactly if they are the same but for blanks. It is so
with any room to read them in. -/
theorem lexemes_free_of_spacing (rules : Rules) (stack : Stack) (t : Text)
    (h : (ofText rules t .operator stack).isWellFormed) :
    (∀ ts, Sentence none t ts ↔ ts = (ofText rules t .operator stack).tokens) ∧
      (∀ (ls : Layout) (w : Text),
        ls.lexemes = (ofText rules t .operator stack).tokens.map Token.toLexeme →
        ls.Spaced → w.Blank →
        (ofText rules (ls.text ++ w) .operator stack).isWellFormed ∧
          (ofText rules (ls.text ++ w) .operator stack).tokens = ls.tokens 0) ∧
      ∀ u, (ofText rules u .operator stack).isWellFormed →
        ((ofText rules t .operator stack).tokens.map Token.toLexeme =
            (ofText rules u .operator stack).tokens.map Token.toLexeme ↔
          t.withoutBlanks = u.withoutBlanks) := by
  rw [ofText_eq_of_isWellFormed h]
  obtain ⟨h, hcalls⟩ := isWellFormed_on_iff.1 h
  obtain ⟨htext, hcompose⟩ := withoutBlanks_eq_of_isWellFormed h
  refine ⟨?_, ?_, ?_⟩
  · intro ts
    constructor
    · intro hts
      exact (tokens_eq_of_sentence h hts).symm
    · rintro rfl
      exact (sentence_of_isWellFormed h).unlimited
  · intro ls w hlexemes hspaced hw
    refine isWellFormed_layout_on (hlexemes ▸ hcompose) hspaced hw ?_
    rw [hlexemes]
    exact hcalls
  · intro u hu
    rw [ofText_eq_of_isWellFormed hu]
    obtain ⟨htext', hcompose'⟩ := withoutBlanks_eq_of_isWellFormed (isWellFormed_on_iff.1 hu).1
    rw [htext, htext']
    constructor
    · intro heq
      rw [heq]
    · exact eq_of_flatten_eq hcompose hcompose'

/-- A minus after a minus and a digit after a sign are read alike with blanks and without. -/
theorem lexemes_of_minus_minus :
    (ofText .standard "(3 - -4)*50".toList).isWellFormed ∧
      (ofText .standard "(3--4)\t* 50 ".toList).isWellFormed ∧
      (ofText .standard "(3--4)\t* 50 ".toList).tokens.map Token.position =
        [0, 1, 2, 3, 5, 7, 9] ∧
      (ofText .standard "(3 - -4)*50".toList).tokens.map Token.toLexeme =
        (ofText .standard "(3--4)\t* 50 ".toList).tokens.map Token.toLexeme := by
  have h : (ofText .standard "(3 - -4)*50".toList).isWellFormed := by decide +kernel
  have hall := lexemes_free_of_spacing .standard .unlimited _ h
  let ls : Layout := [([], ⟨['('], .opening⟩), ([], ⟨['3'], .operand⟩), ([], ⟨['-'], .operator⟩),
    ([], ⟨['-', '4'], .operand⟩), ([], ⟨[')'], .closing⟩), (['\t'], ⟨['*'], .operator⟩),
    ([' '], ⟨['5', '0'], .operand⟩)]
  have hspaced : ls.Spaced := by decide
  have hend : Text.Blank [' '] := by decide
  obtain ⟨hwell, htokens⟩ := hall.2.1 ls [' '] (by decide +kernel) hspaced hend
  have hu : (ofText .standard "(3--4)\t* 50 ".toList).isWellFormed := hwell
  refine ⟨h, hu, ?_, (hall.2.2 _ hu).2 (by decide +kernel)⟩
  exact (congrArg (List.map Token.position) htokens).trans (by decide)

end Analysis

end ArithSyntax
