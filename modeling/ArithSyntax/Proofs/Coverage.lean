import ArithSyntax.Proofs.Exhaustion
import ArithSyntax.Proofs.Layout
import Mathlib.Data.List.Chain

/-!
# The text covered by the tokens

Every token stands in the text at its place, the tokens follow one another without overlapping, and
what is left between them is blank (`Token.Cover`). This holds of every outcome, because the tokens
are those of a run and so those of a layout of the part that has been read (`Layout.cover_tokens`).

After the last token the text is blank to its end if it is well formed. Otherwise a fault was found
behind these blanks, or behind a sign that follows them (`Reading.Stops.exists_column`), and where
the room ended it is the same (`Reading.GivesUp.exists_column`). So up to the end, or to the column
of the fault, the text is that of the tokens, blanks, and at most one minus.
-/

namespace ArithSyntax

open Reading

/-! ### Spans -/

namespace Token

/-- The column after the last character of a token. -/
def finish (k : Token) : Int := k.position + k.value.length

/-- The column after the last of the tokens, or zero if there is none. -/
def reach (ks : List Token) : Int := (ks.getLast?.map finish).getD 0

/-- One of the two tokens ends before the other one begins. -/
def Apart (k l : Token) : Prop := k.finish ≤ l.position ∨ l.finish ≤ k.position

instance : Std.Symm Apart := ⟨fun _ _ => Or.symm⟩

/-- The characters of the tokens, one token after the other. -/
def spelling (ks : List Token) : Text := (ks.map fun k => k.value).flatten

/-- The tokens stand in the text from the column `start` on, one behind the other, and there are
only blanks before and between them. -/
structure Cover (t : Text) (start : Int) (ks : List Token) : Prop where
  /-- A token takes up some part of the text from `start` on. -/
  inside : ∀ k ∈ ks, start ≤ k.position ∧ k.position < k.finish ∧ k.finish ≤ t.length
  /-- This part holds its characters. -/
  spells : ∀ k ∈ ks, t.slice k.position k.finish = k.value
  /-- Later tokens begin where earlier ones have ended. -/
  increasing : ks.Pairwise fun k l => k.position < l.position ∧ k.finish ≤ l.position
  /-- Only blanks stand before the first token. -/
  blank_before : ∀ k ∈ ks.head?, (t.slice start k.position).Blank
  /-- Only blanks stand between a token and the next one. -/
  blank_between : ks.IsChain fun k l => (t.slice k.finish l.position).Blank

variable {t : Text} {start : Int} {k : Token} {ks : List Token}

/-- The tokens reach as far as the last of them. -/
theorem reach_concat (ks : List Token) (k : Token) : reach (ks ++ [k]) = k.finish := by
  rw [reach, List.getLast?_concat]
  rfl

/-- If there is a last token the tokens reach as far as it does. -/
theorem reach_of_getLast? (h : ks.getLast? = some k) : reach ks = k.finish := by
  rw [reach, h]
  rfl

theorem cover_nil (t : Text) (start : Int) : Cover t start [] where
  inside := fun _ h => nomatch h
  spells := fun _ h => nomatch h
  increasing := .nil
  blank_before := fun _ h => nomatch h
  blank_between := .nil

/-- Tokens that begin where one ends can be put behind it. -/
theorem Cover.cons (h : Cover t k.finish ks)
    (hinside : start ≤ k.position ∧ k.position < k.finish ∧ k.finish ≤ t.length)
    (hspells : t.slice k.position k.finish = k.value)
    (hblank : (t.slice start k.position).Blank) : Cover t start (k :: ks) where
  inside := by
    intro l hl
    rcases List.mem_cons.1 hl with rfl | hl
    · exact hinside
    · obtain ⟨hstart, hlater⟩ := h.inside l hl
      exact ⟨by omega, hlater⟩
  spells := by
    intro l hl
    rcases List.mem_cons.1 hl with rfl | hl
    · exact hspells
    · exact h.spells l hl
  increasing := by
    refine List.pairwise_cons.2 ⟨?_, h.increasing⟩
    intro l hl
    have hstart := (h.inside l hl).1
    exact ⟨by omega, hstart⟩
  blank_before := by
    intro l hl
    obtain rfl := Option.some.inj hl
    exact hblank
  blank_between := List.isChain_cons.2 ⟨h.blank_before, h.blank_between⟩

/-- Any two tokens stand apart. -/
theorem Cover.apart {l : Token} (h : Cover t start ks) (hk : k ∈ ks) (hl : l ∈ ks) (hne : k ≠ l) :
    k.Apart l := by
  have hall : ks.Pairwise Apart := h.increasing.imp fun hkl => Or.inl hkl.2
  exact hall.forall hk hl hne

/-- The last token ends last. -/
theorem Cover.finish_le_reach (h : Cover t start ks) (hk : k ∈ ks) : k.finish ≤ reach ks := by
  obtain ⟨js, l, rfl⟩ := (List.eq_nil_or_concat' ks).resolve_left (List.ne_nil_of_mem hk)
  rw [reach_concat]
  rcases List.mem_append.1 hk with hk | hk
  · have hlast := (List.pairwise_append.1 h.increasing).2.2 k hk l List.mem_cons_self
    have hlength := (h.inside l (List.mem_append_right _ List.mem_cons_self)).2.1
    omega
  · obtain rfl := List.mem_singleton.1 hk
    exact Int.le_refl _

end Token

/-- A part of a text is cut out by the columns at which it begins and ends. -/
theorem Text.slice_append (u v w : Text) :
    Text.slice (u ++ v ++ w) (u.length : Nat) (u.length + v.length : Nat) = v := by
  rw [slice_natCast, ← List.length_append, List.take_left, List.drop_left]

namespace Layout

variable {rules : Rules} {q : Situation} {ls : Layout}

/-- A lexeme behind the text `w` ends where `w` and the lexeme do. -/
theorem finish_token (start : Nat) (w : Text) (l : Lexeme) :
    Token.finish { toLexeme := l, position := (start + w.length : Nat) } =
      (start + (w ++ l.value).length : Nat) := by
  rw [Token.finish, List.length_append]
  push_cast
  omega

/-- The tokens of a layout cover its text, wherever this stands. -/
theorem cover_tokens (before after : Text) (hspaced : ls.Spaced)
    (hadmits : q.Admits rules ls.lexemes) :
    Token.Cover (before ++ ls.text ++ after) before.length (ls.tokens before.length) := by
  -- what has been laid out already moves into `before`, where the next token begins
  induction ls generalizing q before with
  | nil => exact Token.cover_nil _ _
  | cons p ls ih =>
    obtain ⟨w, l⟩ := p
    obtain ⟨hw, hspaced⟩ := spaced_cons.1 hspaced
    have hlength : 0 < l.value.length := hadmits.1.length_pos
    have hrest := ih (before ++ (w ++ l.value)) hspaced hadmits.2
    have htext : before ++ (w ++ l.value) ++ Layout.text ls ++ after =
        before ++ Layout.text ((w, l) :: ls) ++ after := by
      rw [text]
      simp only [List.append_assoc]
    rw [htext, List.length_append] at hrest
    have hfinish := finish_token before.length w l
    rw [tokens]
    refine Token.Cover.cons (hfinish ▸ hrest) ⟨?_, ?_, ?_⟩ ?_ ?_
    · dsimp only
      omega
    · rw [hfinish, List.length_append]
      dsimp only
      omega
    · rw [hfinish, ← htext]
      simp only [List.length_append]
      omega
    · rw [hfinish, ← htext]
      have hslice := Text.slice_append (before ++ w) l.value (Layout.text ls ++ after)
      simpa [Nat.add_assoc] using hslice
    · rw [← htext]
      have hslice := Text.slice_append before w (l.value ++ Layout.text ls ++ after)
      simp only [List.append_assoc] at hslice ⊢
      rw [hslice]
      exact hw

/-- The tokens of a layout reach to the end of its text. -/
theorem reach_tokens (ls : Layout) : Token.reach (ls.tokens 0) = ls.text.length := by
  have hlast (start : Nat) : ((ls.tokens start).getLast?.map Token.finish).getD start =
      (start + ls.text.length : Nat) := by
    induction ls generalizing start with
    | nil => rfl
    | cons p ls ih =>
      obtain ⟨w, l⟩ := p
      rw [tokens, List.getLast?_cons, Option.map_some, Option.getD_some,
        ← Option.getD_map Token.finish, finish_token, ih, text, Nat.add_assoc, ← List.length_append]
  have h := hlast 0
  rw [Nat.zero_add] at h
  exact h

/-- What stands behind a layout stands behind its last token. -/
theorem slice_reach (ls : Layout) (u rest : Text) :
    Text.slice (ls.text ++ u ++ rest) (Token.reach (ls.tokens 0))
      (ls.text.length + u.length : Nat) = u := by
  rw [reach_tokens]
  exact Text.slice_append ls.text u rest

/-- The characters of the tokens of a layout are those of its text without the blanks. -/
theorem spelling_tokens (hspaced : ls.Spaced) (hadmits : q.Admits rules ls.lexemes) :
    Token.spelling (ls.tokens 0) = ls.text.withoutBlanks := by
  rw [withoutBlanks_text hspaced hadmits.isBlank_eq_false, ← toLexeme_tokens ls 0, List.map_map]
  rfl

/-- The tokens of a layout are written in the characters of expressions. -/
theorem mem_alphabet_of_mem_spelling (hadmits : q.Admits rules ls.lexemes) {x : Char}
    (hx : x ∈ Token.spelling (ls.tokens 0)) : x ∈ Symbol.alphabet := by
  obtain ⟨value, hvalue, hx⟩ := List.mem_flatten.1 hx
  obtain ⟨k, hk, rfl⟩ := List.mem_map.1 hvalue
  have hl : k.toLexeme ∈ ls.lexemes := by
    rw [← toLexeme_tokens ls 0]
    exact List.mem_map_of_mem hk
  obtain ⟨q', hfits⟩ := hadmits.exists_fits hl
  exact hfits.mem_alphabet x hx

/-- Up to some place behind a layout the text holds its tokens, blanks, and what else stands
there. -/
theorem withoutBlanks_slice (hspaced : ls.Spaced) (hadmits : q.Admits rules ls.lexemes)
    (u rest : Text) :
    (Text.slice (ls.text ++ u ++ rest) 0 (ls.text.length + u.length : Nat)).withoutBlanks =
      Token.spelling (ls.tokens 0) ++ u.withoutBlanks := by
  have hslice := Text.slice_append [] (ls.text ++ u) rest
  rw [List.nil_append, List.length_nil, Nat.zero_add, List.length_append] at hslice
  rw [spelling_tokens hspaced hadmits, ← Text.withoutBlanks_append]
  exact congrArg Text.withoutBlanks hslice

end Layout

/-! ### Where reading stops -/

namespace Reading

variable {rules : Rules} {stack : Stack} {r : Reading} {e : Rejection} {t : Text}

/-- A fault is found behind the blanks that come next, or behind a sign that follows them. -/
theorem Stops.exists_column (h : Stops rules r (.error e)) :
    ∃ w v rest : Text, w.Blank ∧ r.cursor.ahead = w ++ v ++ rest ∧
      e.column = r.cursor.position + (w ++ v).length ∧
      (v = [] ∨ v = ['-'] ∧ e.fault = .illFormedInteger) := by
  obtain ⟨w, hw, hpasses⟩ := r.exists_passes_skipBlanks
  have hhere (hcolumn : e.column = r.skipBlanks.cursor.position) :
      ∃ w v rest : Text, w.Blank ∧ r.cursor.ahead = w ++ v ++ rest ∧
        e.column = r.cursor.position + (w ++ v).length ∧
        (v = [] ∨ v = ['-'] ∧ e.fault = .illFormedInteger) := by
    refine ⟨w, [], r.skipBlanks.cursor.ahead, hw, ?_, ?_, Or.inl rfl⟩
    · rw [List.append_nil]
      exact hpasses.ahead_eq
    · rw [List.append_nil, hcolumn, hpasses.position_eq]
  cases h with
  | extraneous | unclosed | empty | tooDeep | outOfRange | noTerm => exact hhere rfl
  | malformed hterm hstart hscan =>
    rcases Literal.offset_of_scan_eq_malformed hscan with rfl | ⟨rfl, hminus⟩
    · exact hhere rfl
    · -- the sign has been passed, and the fault is what comes after it
      obtain ⟨rest, hrest⟩ := List.head?_eq_some_iff.1 hminus
      refine ⟨w, ['-'], rest, hw, ?_, ?_, Or.inr ⟨rfl, rfl⟩⟩
      · rw [hpasses.ahead_eq, hrest, List.append_assoc]
        rfl
      · rw [hpasses.position_eq, List.length_append, Nat.add_assoc]
        rfl

/-- Reading is given up behind the blanks that come next, or behind a sign that follows them. -/
theorem GivesUp.exists_column {q : Reading} (h : GivesUp rules stack r q) :
    ∃ w v rest : Text, w.Blank ∧ r.cursor.ahead = w ++ v ++ rest ∧
      q.cursor.position = r.cursor.position + (w ++ v).length ∧ (v = [] ∨ v = ['-']) := by
  obtain ⟨w, hw, hpasses⟩ := r.exists_passes_skipBlanks
  obtain ⟨q', n, hgives, -, hposition, hn⟩ := (SameNeed.refl rules stack r).exists_givesUp h
  obtain rfl := h.unique hgives
  rcases hn with rfl | ⟨rfl, hminus⟩
  · refine ⟨w, [], r.skipBlanks.cursor.ahead, hw, ?_, ?_, Or.inl rfl⟩
    · rw [List.append_nil]
      exact hpasses.ahead_eq
    · rw [List.append_nil, hposition, hpasses.position_eq, Nat.add_zero]
  · obtain ⟨rest, hrest⟩ := List.head?_eq_some_iff.1 hminus
    refine ⟨w, ['-'], rest, hw, ?_, ?_, Or.inr rfl⟩
    · rw [hpasses.ahead_eq, hrest, List.append_assoc]
      rfl
    · rw [hposition, hpasses.position_eq, List.length_append, Nat.add_assoc]
      rfl

/-- Wherever reading ends with a fault, it is behind the blanks that come next, or behind a sign
that follows them. -/
theorem Halts.exists_column (h : Halts rules stack r (.error e)) :
    ∃ w v rest : Text, w.Blank ∧ r.cursor.ahead = w ++ v ++ rest ∧
      e.column = r.cursor.position + (w ++ v).length ∧
      (v = [] ∨ v = ['-'] ∧ (e.fault = .illFormedInteger ∨ e.fault = .missingTerm)) := by
  cases h with
  | stops _ hstop =>
    obtain ⟨w, v, rest, hw, hahead, hcolumn, hv⟩ := hstop.exists_column
    exact ⟨w, v, rest, hw, hahead, hcolumn, hv.imp_right fun hv => ⟨hv.1, Or.inl hv.2⟩⟩
  | givesUp hgives =>
    obtain ⟨w, v, rest, hw, hahead, hcolumn, hv⟩ := hgives.exists_column
    exact ⟨w, v, rest, hw, hahead, hcolumn, hv.imp_right fun hv => ⟨hv, Or.inr rfl⟩⟩

/-- The column of a fault is in the text or at its end. -/
theorem Halts.column_le (h : Halts rules stack r (.error e)) (hreach : Reaches rules (start t) r) :
    e.column ≤ t.length := by
  obtain ⟨w, v, rest, -, hahead, hcolumn, -⟩ := h.exists_column
  have hlength := r.cursor.length_text
  rw [hreach.text_eq, hahead, List.length_append] at hlength
  rw [hcolumn]
  change t.length = _ at hlength
  omega

/-- Between the last token and the column of a fault there are blanks and perhaps a sign. -/
theorem Halts.exists_slice (h : Halts rules stack r (.error e))
    (hreach : Reaches rules (start t) r) :
    Token.reach r.tokens ≤ e.column ∧ e.column ≤ t.length ∧
      ∃ w v : Text, w.Blank ∧
        (v = [] ∨ v = ['-'] ∧ (e.fault = .illFormedInteger ∨ e.fault = .missingTerm)) ∧
        t.slice (Token.reach r.tokens) e.column = w ++ v ∧
        (t.slice 0 e.column).withoutBlanks = Token.spelling r.tokens ++ v.withoutBlanks := by
  obtain ⟨ls, hspaced, hadmits, htext, hposition, htokens⟩ := hreach.exists_layout_of_start
  obtain ⟨w, v, rest, hw, hahead, hcolumn, hv⟩ := h.exists_column
  rw [hahead, ← List.append_assoc] at htext
  rw [hposition] at hcolumn
  have hslice := Layout.slice_reach ls (w ++ v) rest
  have hprefix := Layout.withoutBlanks_slice hspaced hadmits (w ++ v) rest
  rw [← htext, ← hcolumn] at hslice hprefix
  rw [Text.withoutBlanks_append, Text.withoutBlanks_of_blank hw, List.nil_append] at hprefix
  rw [htokens]
  refine ⟨?_, ?_, w, v, hw, hv, hslice, hprefix⟩
  · rw [Layout.reach_tokens]
    omega
  · rw [htext, List.length_append, List.length_append]
    omega

/-- The tokens are written in the characters of expressions. -/
theorem Reaches.mem_alphabet_of_mem_spelling (h : Reaches rules (start t) r) {x : Char}
    (hx : x ∈ Token.spelling r.tokens) : x ∈ Symbol.alphabet := by
  obtain ⟨ls, -, hadmits, -, -, htokens⟩ := h.exists_layout_of_start
  rw [htokens] at hx
  exact Layout.mem_alphabet_of_mem_spelling hadmits hx

/-- The last token that has been read reaches to the place of reading. -/
theorem Reaches.reach_tokens (h : Reaches rules (start t) r) :
    Token.reach r.tokens = r.cursor.position := by
  obtain ⟨ls, -, -, -, hposition, htokens⟩ := h.exists_layout_of_start
  rw [htokens, Layout.reach_tokens, hposition]

/-- What is ahead stands behind the last token. -/
theorem Reaches.slice_reach (h : Reaches rules (start t) r) {w rest : Text}
    (hahead : r.cursor.ahead = w ++ rest) :
    t.slice (Token.reach r.tokens) (r.cursor.position + w.length : Nat) = w := by
  have hslice := Text.slice_append r.cursor.behind.reverse w rest
  rw [List.length_reverse, ← r.cursor.position_eq, List.append_assoc, ← hahead, ← h.eq_append]
    at hslice
  rw [h.reach_tokens]
  exact hslice

/-- What is ahead is all that stands behind the last token. -/
theorem Reaches.slice_reach_length (h : Reaches rules (start t) r) :
    t.slice (Token.reach r.tokens) t.length = r.cursor.ahead := by
  have hslice := h.slice_reach (List.append_nil r.cursor.ahead).symm
  have hlength : t.length = r.cursor.position + r.cursor.ahead.length :=
    (congrArg List.length h.text_eq).symm.trans r.cursor.length_text
  rwa [← hlength] at hslice

end Reading

namespace Analysis

/-- The fault of a text is at a column of it or at its end. -/
theorem exists_column_of_status {rules : Rules} {t : Text} {b : Blame} {stack : Stack} {f : Fault}
    (h : (ofText rules t b stack).verdict.status = .faulty f) :
    ∃ c : Nat, c ≤ t.length ∧
      (ofText rules t b stack).verdict = { status := .faulty f, column := c } := by
  obtain ⟨r, o, hgoes, hhalts, -⟩ := exists_halts b rules stack t
  cases o with
  | ok s =>
    rw [verdict_of_halts_ok hgoes hhalts] at h
    cases h
  | error e =>
    rw [verdict_of_halts hgoes hhalts] at h ⊢
    exact ⟨e.column, hhalts.column_le hgoes.reaches, congrArg (Verdict.mk · _) h⟩

/-- Every token stands in the text at its place, and what is left between them is blank. -/
theorem cover_tokens (rules : Rules) (t : Text) (stack : Stack) :
    Token.Cover t 0 (ofText rules t .operator stack).tokens := by
  obtain ⟨r, o, hgoes, hhalts, -⟩ := exists_halts .operator rules stack t
  obtain ⟨ls, hspaced, hadmits, htext, -, htokens⟩ := hgoes.reaches.exists_layout_of_start
  have hcover := Layout.cover_tokens [] r.cursor.ahead hspaced hadmits
  rw [List.nil_append, ← htext] at hcover
  rw [tokens_of_halts hgoes hhalts, htokens]
  exact hcover

/-- The tokens of a text cover it, whatever the outcome and however much room there is to read it:
each stands at its place, they do not overlap, and only blanks stand before and between them. Behind
them a well-formed text is blank to its end, and any other is blank to the column of its fault, but
for a sign that may stand right before that column if the fault is that of a literal or a missing
term. -/
theorem tokens_cover_text (rules : Rules) (t : Text) (stack : Stack) :
    Token.Cover t 0 (ofText rules t .operator stack).tokens ∧
      ((ofText rules t .operator stack).isWellFormed →
        (t.slice (Token.reach (ofText rules t .operator stack).tokens) t.length).Blank) ∧
      ∀ f c, (ofText rules t .operator stack).verdict = { status := .faulty f, column := c } →
        Token.reach (ofText rules t .operator stack).tokens ≤ c ∧ c ≤ t.length ∧
          ((t.slice (Token.reach (ofText rules t .operator stack).tokens) c).Blank ∧
              Token.spelling (ofText rules t .operator stack).tokens =
                (t.slice 0 c).withoutBlanks ∨
            (f = .illFormedInteger ∨ f = .missingTerm) ∧
              ∃ w : Text, w.Blank ∧
                t.slice (Token.reach (ofText rules t .operator stack).tokens) c = w ++ ['-'] ∧
                Token.spelling (ofText rules t .operator stack).tokens ++ ['-'] =
                  (t.slice 0 c).withoutBlanks) := by
  refine ⟨cover_tokens rules t stack, ?_⟩
  obtain ⟨r, o, hgoes, hhalts, -⟩ := exists_halts .operator rules stack t
  rw [tokens_of_halts hgoes hhalts]
  cases o with
  | ok s =>
    have hverdict := verdict_of_halts_ok (b := .operator) hgoes hhalts
    constructor
    · intro _
      cases hhalts with
      | stops _ hstop =>
        rw [hgoes.reaches.slice_reach_length]
        exact hstop.blank_ahead
    · intro f c hfault
      rw [hverdict] at hfault
      cases hfault
  | error e =>
    have hverdict := verdict_of_halts (b := .operator) hgoes hhalts
    constructor
    · intro hwell
      rw [isWellFormed, hverdict] at hwell
      cases hwell
    · intro f c hfault
      have hsame := fault_of_halts hgoes hhalts hfault
      obtain rfl : (e.column : Int) = c := congrArg Verdict.column (hverdict.symm.trans hfault)
      obtain ⟨hle, hlength, w, v, hw, hv, hslice, hprefix⟩ := hhalts.exists_slice hgoes.reaches
      refine ⟨hle, Int.ofNat_le.2 hlength, ?_⟩
      rw [hslice, hprefix]
      -- behind the last token there is nothing but blanks, or blanks and the sign of a literal
      rcases hv with rfl | ⟨rfl, hfault'⟩
      · left
        rw [List.append_nil]
        exact ⟨hw, (List.append_nil _).symm⟩
      · right
        refine ⟨?_, w, hw, rfl, rfl⟩
        rcases hsame with rfl | rfl
        · exact Or.inr rfl
        · exact hfault'

/-- A sign that no digit follows is passed without becoming a token. -/
theorem spelling_of_lone_sign :
    (ofText .standard "7 * (3 +\t-)".toList).verdict =
        { status := .faulty .missingTerm, column := 10 } ∧
      Token.reach (ofText .standard "7 * (3 +\t-)".toList).tokens = 8 ∧
      Token.spelling (ofText .standard "7 * (3 +\t-)".toList).tokens ++ ['-'] =
        "7*(3+-".toList := by
  have hverdict : (ofText .standard "7 * (3 +\t-)".toList).verdict =
      { status := .faulty .missingTerm, column := 10 } := by decide +kernel
  have hreach : Token.reach (ofText .standard "7 * (3 +\t-)".toList).tokens = 8 := by
    decide +kernel
  refine ⟨hverdict, hreach, ?_⟩
  obtain ⟨-, -, hfault⟩ := tokens_cover_text .standard "7 * (3 +\t-)".toList .unlimited
  obtain ⟨-, -, ⟨hblank, -⟩ | ⟨-, w, -, -, hspelling⟩⟩ := hfault _ _ hverdict
  · have hminus : '-' ∈ Text.slice "7 * (3 +\t-)".toList 8 10 := by decide
    rw [hreach] at hblank
    exact absurd (hblank _ hminus) (by decide)
  · rw [hspelling]
    decide

end Analysis

end ArithSyntax
