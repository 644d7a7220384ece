import ArithSyntax.Proofs.Step

/-!
# The lexeme of a step

`Step` is said in terms of what a cursor sees. Here it is said in terms of the text: a step passes
blanks and a lexeme that fits the situation, and a literal is passed only when no digit follows it
(`step_iff`). In this form steps are carried over from one text to another.
-/

namespace ArithSyntax

/-- A lexeme that may come next in a situation. -/
inductive Lexeme.Fits (rules : Rules) (q : Situation) : Lexeme → Prop
  | opening (hterm : q.wantsTerm) (hdepth : q.depth < rules.maxDepth) :
      Fits rules q { value := ['('], kind := .opening }
  | operand {l : Text} (hterm : q.wantsTerm) (hl : l.IsLiteral)
      (hrange : rules.InRange (Literal.value l)) : Fits rules q { value := l, kind := .operand }
  | operator {c : Char} (hterm : ¬ q.wantsTerm) (hc : (Symbol.ofChar c).isOperator) :
      Fits rules q { value := [c], kind := .operator }
  | closing (hterm : ¬ q.wantsTerm) (hdepth : 0 < q.depth) :
      Fits rules q { value := [')'], kind := .closing }

/-- After the blanks `w` the lexeme `l` comes next, and after it `rest`. -/
structure Reading.Meets (rules : Rules) (r : Reading) (w : Text) (l : Lexeme) (rest : Text) :
    Prop where
  /-- Only blanks stand before the lexeme. -/
  blank : w.Blank
  /-- The lexeme fits what has been read. -/
  fits : l.Fits rules r.situation
  /-- The text ahead begins with the blanks and the lexeme. -/
  ahead_eq : r.cursor.ahead = w ++ (l.value ++ rest)
  /-- A literal is not part of a longer one. -/
  longest : l.kind = .operand → rest.NoDigitFirst

namespace Lexeme.Fits

variable {rules : Rules} {q : Situation} {l : Lexeme}

/-- A lexeme begins with a character that is no blank, and with no digit unless a term comes. -/
theorem exists_cons (h : l.Fits rules q) :
    ∃ c t, l.value = c :: t ∧ (Symbol.ofChar c).isBlank = false ∧
      (¬ q.wantsTerm → Literal.isDigit c = false) := by
  cases h with
  | opening hterm _ => exact ⟨_, _, rfl, rfl, fun h => absurd hterm h⟩
  | operand hterm hl _ =>
    obtain ⟨c, t, rfl, hc⟩ := Literal.exists_cons_of_isLiteral hl
    exact ⟨c, t, rfl, Symbol.isBlank_eq_false_of_startsLiteral hc, fun h => absurd hterm h⟩
  | @operator c _ hc =>
    exact ⟨c, [], rfl, Symbol.isBlank_eq_false_of_isOperator hc,
      fun _ => Literal.isDigit_of_isOperator hc⟩
  | closing _ _ => exact ⟨_, _, rfl, rfl, fun _ => rfl⟩

/-- A lexeme that fits begins with no blank. -/
theorem noBlankFirst (h : l.Fits rules q) (rest : Text) :
    Text.NoBlankFirst (l.value ++ rest) := by
  obtain ⟨c, t, hvalue, hblank, -⟩ := h.exists_cons
  rw [hvalue]
  exact Text.firstNot_cons.2 hblank

/-- Where no term is wanted the next lexeme cannot make a literal longer. -/
theorem noDigitFirst (h : l.Fits rules q) (hterm : ¬ q.wantsTerm) (rest : Text) :
    Text.NoDigitFirst (l.value ++ rest) := by
  obtain ⟨c, t, hvalue, -, hdigit⟩ := h.exists_cons
  rw [hvalue]
  exact Text.firstNot_cons.2 (hdigit hterm)

/-- A lexeme that fits has a character at least. -/
theorem length_pos (h : l.Fits rules q) : 0 < l.value.length := by
  obtain ⟨c, t, hvalue, -, -⟩ := h.exists_cons
  rw [hvalue]
  exact Nat.succ_pos _

/-- Only an open group is closed. -/
theorem depth_pos (h : l.Fits rules q) (hkind : l.kind = .closing) : 0 < q.depth := by
  cases h with
  | closing _ hdepth => exact hdepth
  | opening | operand | operator => cases hkind

/-- A term begins with a parenthesis or is a literal. -/
theorem wantsTerm_iff (h : l.Fits rules q) :
    q.wantsTerm ↔ l.kind = .opening ∨ l.kind = .operand := by
  cases h with
  | opening hterm _ => exact iff_of_true hterm (Or.inl rfl)
  | operand hterm _ _ => exact iff_of_true hterm (Or.inr rfl)
  | operator hterm _ => exact iff_of_false hterm (by simp)
  | closing hterm _ => exact iff_of_false hterm (by simp)

/-- The only lexeme that opens a group is the opening parenthesis. -/
theorem value_of_opening (h : l.Fits rules q) (hkind : l.kind = .opening) : l.value = ['('] := by
  cases h with
  | opening => rfl
  | _ => cases hkind

/-- The only lexeme that closes a group is the closing parenthesis. -/
theorem value_of_closing (h : l.Fits rules q) (hkind : l.kind = .closing) : l.value = [')'] := by
  cases h with
  | closing => rfl
  | _ => cases hkind

/-- The operands that fit are literals. -/
theorem isLiteral_of_operand (h : l.Fits rules q) (hkind : l.kind = .operand) :
    l.value.IsLiteral := by
  rcases h with _ | ⟨-, hl, -⟩ | _ | _
  · cases hkind
  · exact hl
  · cases hkind
  · cases hkind

/-- Only a lexeme that begins a group begins with an opening parenthesis. -/
theorem kind_eq_opening {t : Text} (h : l.Fits rules q) (hvalue : l.value = '(' :: t) :
    l.kind = .opening := by
  rcases h with _ | ⟨-, hl, -⟩ | ⟨-, hc⟩ | _
  · rfl
  · obtain ⟨c, u, hcons, hc⟩ := Literal.exists_cons_of_isLiteral hl
    obtain rfl : c = '(' := (List.cons.inj (hcons.symm.trans hvalue)).1
    contradiction
  · obtain rfl := (List.cons.inj hvalue).1
    contradiction
  · have hparen : ')' = '(' := (List.cons.inj hvalue).1
    exact absurd hparen (by decide)

/-- There is no blank in a lexeme. -/
theorem isBlank_eq_false (h : l.Fits rules q) :
    ∀ c ∈ l.value, (Symbol.ofChar c).isBlank = false := by
  cases h with
  | opening => simp [Symbol.ofChar, Symbol.isBlank]
  | operand _ hl _ => exact Literal.isBlank_eq_false_of_isLiteral hl
  | operator _ hc =>
    intro d hd
    rw [List.mem_singleton.1 hd]
    exact Symbol.isBlank_eq_false_of_isOperator hc
  | closing => simp [Symbol.ofChar, Symbol.isBlank]

/-- Lexemes are written in the characters of expressions. -/
theorem mem_alphabet (h : l.Fits rules q) : ∀ c ∈ l.value, c ∈ Symbol.alphabet := by
  intro c hc
  cases h with
  | opening | closing =>
    rw [List.mem_singleton.1 hc]
    decide
  | operand _ hl _ =>
    rcases Literal.isDigit_or_eq_minus_of_mem hl c hc with hdigit | rfl
    · exact Symbol.mem_alphabet_of_isDigit (Symbol.isDigit_ofChar.symm.trans hdigit)
    · decide
  | operator _ hoperator =>
    rw [List.mem_singleton.1 hc]
    rcases Symbol.isOperator_ofChar_iff.1 hoperator with rfl | rfl | rfl | rfl | rfl <;> decide

/-- Only a literal ends with a digit. -/
theorem isDigit_getLast_iff (h : l.Fits rules q) {c : Char} (hc : l.value.getLast? = some c) :
    Literal.isDigit c ↔ l.kind = .operand := by
  cases h with
  | operand _ hl _ => exact iff_of_true (Literal.isDigit_of_getLast?_eq_some hl hc) rfl
  | @operator d _ hoperator =>
    obtain rfl : d = c := Option.some.inj hc
    refine iff_of_false ?_ nofun
    rw [Literal.isDigit_of_isOperator hoperator]
    exact Bool.false_ne_true
  | opening | closing =>
    cases hc
    exact iff_of_false Bool.false_ne_true nofun

end Lexeme.Fits

namespace Reading

variable {rules : Rules} {r s : Reading} {w rest : Text} {l : Lexeme}

/-! ### What a lexeme that is met leaves -/

/-- Behind the blanks the lexeme is ahead, and then the rest. -/
theorem Meets.ahead_skipBlanks (h : r.Meets rules w l rest) :
    r.skipBlanks.cursor.ahead = l.value ++ rest :=
  Cursor.ahead_skipBlanks_of_append h.blank (h.fits.noBlankFirst rest) h.ahead_eq

/-- The lexeme begins behind the blanks. -/
theorem Meets.position_skipBlanks (h : r.Meets rules w l rest) :
    r.skipBlanks.cursor.position = r.cursor.position + w.length :=
  Cursor.position_skipBlanks_of_append h.blank (h.fits.noBlankFirst rest) h.ahead_eq

/-- As many characters as the lexeme has are the lexeme. -/
theorem Meets.take_ahead (h : r.Meets rules w l rest) :
    r.skipBlanks.cursor.ahead.take l.value.length = l.value := by
  rw [h.ahead_skipBlanks, List.take_left]

/-- The rest is left to be read. -/
theorem Meets.ahead_take (h : r.Meets rules w l rest) :
    (r.skipBlanks.take l.kind l.value.length).cursor.ahead = rest := by
  rw [take, Cursor.ahead_forward, h.ahead_skipBlanks, List.drop_left]

/-- The lexeme is recorded at its place. -/
theorem Meets.recorded_take (h : r.Meets rules w l rest) :
    (r.skipBlanks.take l.kind l.value.length).recorded =
      { toLexeme := l, position := (r.cursor.position + w.length : Nat) } :: r.recorded := by
  rw [take]
  dsimp only
  rw [h.take_ahead, h.position_skipBlanks]
  rfl

/-- The lexeme becomes the last token, at its place. -/
theorem Meets.tokens_take (h : r.Meets rules w l rest) :
    (r.skipBlanks.take l.kind l.value.length).tokens =
      r.tokens ++ [{ toLexeme := l, position := (r.cursor.position + w.length : Nat) }] := by
  rw [tokens, h.recorded_take, List.reverse_cons]
  rfl

/-- The blanks and the lexeme are passed. -/
theorem Meets.passes (h : r.Meets rules w l rest) :
    r.Passes (r.skipBlanks.take l.kind l.value.length) (w ++ l.value) where
  text_eq := (Cursor.text_forward _ _).trans r.cursor.text_skipBlanks
  ahead_eq := by rw [h.ahead_take, h.ahead_eq, List.append_assoc]

/-- The last character passed is that of the lexeme. -/
theorem Meets.head?_behind (h : r.Meets rules w l rest) :
    (r.skipBlanks.take l.kind l.value.length).cursor.behind.head? = l.value.getLast? := by
  have hne : l.value ≠ [] := List.ne_nil_of_length_pos h.fits.length_pos
  rw [h.passes.behind_eq, List.head?_append, List.head?_reverse, List.getLast?_append,
    List.getLast?_eq_some_getLast hne]
  rfl

/-! ### Steps in terms of the text -/

/-- A lexeme of one character is met if it comes after the blanks. -/
theorem meets_of_nextSatisfies {p : Symbol → Bool} {kind : Lexeme.Kind}
    (h : r.skipBlanks.cursor.nextSatisfies p) (hkind : kind ≠ .operand)
    (hfits : ∀ c, p (Symbol.ofChar c) → Lexeme.Fits rules r.situation ⟨[c], kind⟩) :
    ∃ w c rest, r.Meets rules w ⟨[c], kind⟩ rest := by
  obtain ⟨c, rest, hahead, hc⟩ := Cursor.nextSatisfies_iff.1 h
  obtain ⟨w, hw, hsplit, -⟩ := r.cursor.exists_blank_append
  refine ⟨w, c, rest, hw, hfits c hc, ?_, fun h => absurd h hkind⟩
  rw [hsplit]
  exact congrArg (w ++ ·) hahead

/-- A step passes blanks and a lexeme that fits. -/
theorem Step.exists_meets (h : Step rules r s) :
    ∃ w l rest, r.Meets rules w l rest ∧ s = r.skipBlanks.take l.kind l.value.length := by
  cases h with
  | opening hterm hnext hdepth =>
    have hfits (c : Char) (hc : Symbol.ofChar c == .opening) :
        Lexeme.Fits rules r.situation ⟨[c], .opening⟩ := by
      obtain rfl := Symbol.ofChar_eq_opening_iff.1 (beq_iff_eq.1 hc)
      exact .opening hterm hdepth
    obtain ⟨w, c, rest, hmeets⟩ := meets_of_nextSatisfies hnext (by decide) hfits
    exact ⟨w, _, rest, hmeets, rfl⟩
  | @operand n hterm hscan hadmits =>
    obtain ⟨w, hw, hsplit, -⟩ := r.cursor.exists_blank_append
    obtain ⟨l, rest, hahead, hl, hrest, rfl⟩ := Literal.exists_of_scan_eq_complete hscan
    rw [hahead, List.take_left, Rules.admits_iff_inRange hl] at hadmits
    refine ⟨w, ⟨l, .operand⟩, rest, ⟨hw, .operand hterm hl hadmits, ?_, fun _ => hrest⟩, rfl⟩
    rw [hsplit]
    exact congrArg (w ++ ·) hahead
  | operator hterm hnext =>
    have hfits (c : Char) (hc : (Symbol.ofChar c).isOperator) :
        Lexeme.Fits rules r.situation ⟨[c], .operator⟩ := .operator hterm hc
    obtain ⟨w, c, rest, hmeets⟩ := meets_of_nextSatisfies hnext (by decide) hfits
    exact ⟨w, _, rest, hmeets, rfl⟩
  | closing hterm hnext hdepth =>
    have hfits (c : Char) (hc : Symbol.ofChar c == .closing) :
        Lexeme.Fits rules r.situation ⟨[c], .closing⟩ := by
      obtain rfl := Symbol.ofChar_eq_closing_iff.1 (beq_iff_eq.1 hc)
      exact .closing hterm hdepth
    obtain ⟨w, c, rest, hmeets⟩ := meets_of_nextSatisfies hnext (by decide) hfits
    exact ⟨w, _, rest, hmeets, rfl⟩

/-- A lexeme that is met is read. -/
theorem Meets.step (h : r.Meets rules w l rest) :
    Step rules r (r.skipBlanks.take l.kind l.value.length) := by
  have hahead := h.ahead_skipBlanks
  have hlongest := h.longest
  cases h.fits with
  | opening hterm hdepth =>
    exact .opening hterm (Cursor.nextIs_iff.2 ⟨_, _, hahead, rfl⟩) hdepth
  | @operand l hterm hl hrange =>
    have hscan : Literal.scan r.skipBlanks.cursor.ahead = .complete l.length := by
      rw [hahead]
      exact Literal.scan_append hl (hlongest rfl)
    refine .operand hterm hscan ?_
    rw [hahead, List.take_left]
    exact (Rules.admits_iff_inRange hl).2 hrange
  | @operator c hterm hc =>
    exact .operator hterm (Cursor.nextSatisfies_iff.2 ⟨c, _, hahead, hc⟩)
  | closing hterm hdepth =>
    exact .closing hterm (Cursor.nextIs_iff.2 ⟨_, _, hahead, rfl⟩) hdepth

/-- A step passes the blanks and the lexeme that the reading meets. -/
theorem step_iff :
    Step rules r s ↔
      ∃ w l rest, r.Meets rules w l rest ∧ s = r.skipBlanks.take l.kind l.value.length := by
  constructor
  · exact Step.exists_meets
  · rintro ⟨w, l, rest, hmeets, rfl⟩
    exact hmeets.step

/-- After a step less is left to be read. -/
theorem Step.unread_lt (h : Step rules r s) : s.unread < r.unread := by
  obtain ⟨w, l, rest, hmeets, rfl⟩ := h.exists_meets
  have hlength := hmeets.fits.length_pos
  rw [unread, unread, hmeets.ahead_take, hmeets.ahead_eq, List.length_append, List.length_append]
  omega

/-- Steps do not leave the text. -/
theorem Step.text_eq (h : Step rules r s) : s.cursor.text = r.cursor.text := by
  obtain ⟨w, l, rest, hmeets, rfl⟩ := h.exists_meets
  exact hmeets.passes.text_eq

/-- A run stays in its text. -/
theorem Reaches.text_eq (h : Reaches rules r s) : s.cursor.text = r.cursor.text := by
  induction h with
  | refl => rfl
  | tail _ hstep ih => exact hstep.text_eq.trans ih

/-- The last character passed is a digit if and only if the last lexeme read is a literal. -/
theorem Reaches.isDigit_behind_iff {t : Text} {c : Char} (h : Reaches rules (start t) r)
    (hc : r.cursor.behind.head? = some c) :
    Literal.isDigit c ↔ ∃ k ∈ r.tokens.getLast?, k.kind = .operand := by
  rcases h.cases_tail with rfl | ⟨q, -, hstep⟩
  · cases hc
  · obtain ⟨w, l, rest, hmeets, rfl⟩ := hstep.exists_meets
    rw [hmeets.head?_behind] at hc
    rw [hmeets.fits.isDigit_getLast_iff hc, hmeets.tokens_take, List.getLast?_concat]
    simp

/-- Behind a literal no digit comes. -/
theorem Reaches.noDigitFirst_ahead {t : Text} (h : Reaches rules (start t) r)
    (hlast : ∃ k ∈ r.tokens.getLast?, k.kind = .operand) : r.cursor.ahead.NoDigitFirst := by
  rcases h.cases_tail with rfl | ⟨q, -, hstep⟩
  · obtain ⟨k, hk, -⟩ := hlast
    cases hk
  · obtain ⟨w, l, rest, hmeets, rfl⟩ := hstep.exists_meets
    rw [hmeets.tokens_take, List.getLast?_concat] at hlast
    obtain ⟨k, hk, hkind⟩ := hlast
    cases hk
    rw [hmeets.ahead_take]
    exact hmeets.longest hkind

/-- A text consists of what has been read of it and what is ahead. -/
theorem Reaches.eq_append {t : Text} (h : Reaches rules (start t) r) :
    t = r.cursor.behind.reverse ++ r.cursor.ahead :=
  h.text_eq.symm

/-- A character ahead is found at its column. -/
theorem Reaches.getElem?_of_ahead {t : Text} (h : Reaches rules (start t) r)
    (hahead : r.cursor.ahead = w ++ rest) : t[r.cursor.position + w.length]? = rest.head? := by
  have hlength : r.cursor.position + w.length = (r.cursor.behind.reverse ++ w).length := by
    rw [List.length_append, List.length_reverse, r.cursor.position_eq]
  rw [h.eq_append, hahead, ← List.append_assoc, hlength,
    List.getElem?_append_right (Nat.le_refl _), Nat.sub_self, List.head?_eq_getElem?]

/-- The blanks behind what a run has read are in its text. -/
theorem Reaches.text_skipBlanks {t : Text} (h : Reaches rules (start t) r) :
    r.skipBlanks.cursor.text = t :=
  r.cursor.text_skipBlanks.trans h.text_eq

/-- At the end of a text the column is its length. -/
theorem Reaches.position_of_atEnd {t : Text} (h : Reaches rules (start t) r)
    (hend : r.skipBlanks.cursor.atEnd) : r.skipBlanks.cursor.position = t.length := by
  rw [Cursor.atEnd_iff.1 hend, h.text_skipBlanks]

/-! ### The place behind the blanks -/

variable {t u : Text} {n : Nat}

/-- The next character behind the blanks is found at its column. -/
theorem Reaches.getElem?_skipBlanks (h : Reaches rules (start t) r) :
    t[r.skipBlanks.cursor.position]? = r.skipBlanks.cursor.ahead.head? := by
  rw [← r.skipBlanks.cursor.getElem?_text_position, h.text_skipBlanks]

/-- Up to its column the text is what has been read and the blanks. -/
theorem Reaches.take_skipBlanks (h : Reaches rules (start t) r) (hw : r.Passes r.skipBlanks w) :
    t.take r.skipBlanks.cursor.position = r.cursor.behind.reverse ++ w := by
  have htake := r.skipBlanks.cursor.take_text_position
  rw [h.text_skipBlanks] at htake
  rw [htake, hw.behind_eq, List.reverse_append, List.reverse_reverse]

/-- Its column is the length of what stands before it. -/
theorem Reaches.position_of_append (h : Reaches rules (start t) r)
    (ht : t = u ++ r.skipBlanks.cursor.ahead) : r.skipBlanks.cursor.position = u.length := by
  have hlength := r.skipBlanks.cursor.length_text
  rw [h.text_skipBlanks] at hlength
  have hsum := congrArg List.length ht
  rw [List.length_append] at hsum
  omega

/-- What is ahead behind the blanks tells the column. -/
theorem Reaches.position_of_drop (h : Reaches rules (start t) r) (hn : n ≤ t.length)
    (hahead : r.skipBlanks.cursor.ahead = t.drop n) : r.skipBlanks.cursor.position = n := by
  have ht : t = t.take n ++ r.skipBlanks.cursor.ahead := by
    rw [hahead, List.take_append_drop]
  rw [h.position_of_append ht, List.length_take, Nat.min_eq_left hn]

end Reading

end ArithSyntax
