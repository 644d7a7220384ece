import ArithSyntax.Proofs.Coverage

/-!
# Elastic runs of blanks

Where blanks stand it does not matter how many there are or of which kind, and before the first
character that is no blank they may be missing. Texts that differ in this only (`Text.Respaced`) are
read side by side: readings with the same situation and the same characters ahead, but for the
lengths of the runs, are `Alike`, and they stay so from lexeme to lexeme (`Alike.exists_meets`) up
to the place where both stop (`Alike.exists_stops`).

Columns move along with what stands at them. Behind the same characters, blanks not counted, the two
texts go on with the same character or both end; only a fault behind a sign can be found at a blank
(`Text.Counterpart`).
-/

namespace ArithSyntax

open Reading

/-- A blank is no digit. -/
theorem Literal.isDigit_eq_false_of_isBlank {c : Char} (h : (Symbol.ofChar c).isBlank) :
    Literal.isDigit c = false := by
  rw [isDigit]
  cases hs : Symbol.ofChar c <;> simp_all [Symbol.isBlank, Symbol.isDigit]

namespace Text

variable {t t' u v : Text} {p : Char → Bool}

/-! ### Texts with other blanks -/

/-- In place of every run of blanks in the one text there is a run of blanks in the other one. -/
inductive Stretched : Text → Text → Prop
  | nil : Stretched [] []
  | char {c : Char} {t t' : Text} (hc : (Symbol.ofChar c).isBlank = false)
      (h : Stretched t t') : Stretched (c :: t) (c :: t')
  | run {w w' t t' : Text} (hw : w.Blank) (hne : w ≠ []) (hw' : w'.Blank) (hne' : w' ≠ [])
      (ht : t.NoBlankFirst) (h : Stretched t t') : Stretched (w ++ t) (w' ++ t')

/-- The texts differ in the lengths and kinds of their runs of blanks, and one of them may begin
with blanks where the other does not. -/
inductive Respaced : Text → Text → Prop
  | intro {w w' t t' : Text} (hw : w.Blank) (hw' : w'.Blank) (ht : t.NoBlankFirst)
      (h : Stretched t t') : Respaced (w ++ t) (w' ++ t')

/-- The same character, which is no blank, stands at the two columns: it comes after the same
others, blanks not counted. -/
inductive SameCharacter (t t' : Text) : Int → Int → Prop
  | intro {a a' b b' : Text} {c : Char} (ht : t = a ++ c :: b) (ht' : t' = a' ++ c :: b')
      (ha : a'.withoutBlanks = a.withoutBlanks) (hc : (Symbol.ofChar c).isBlank = false) :
      SameCharacter t t' a.length a'.length

/-- The columns point at the same: a character that is no blank, the end of the text, or the blanks
directly after a minus. -/
inductive Counterpart (t t' : Text) : Int → Int → Prop
  | character {i j : Int} (h : SameCharacter t t' i j) : Counterpart t t' i j
  | finish : Counterpart t t' t.length t'.length
  | blank {a a' b b' : Text} {c c' : Char} (ht : t = a ++ '-' :: c :: b)
      (ht' : t' = a' ++ '-' :: c' :: b') (ha : a'.withoutBlanks = a.withoutBlanks)
      (hc : (Symbol.ofChar c).isBlank) (hc' : (Symbol.ofChar c').isBlank) :
      Counterpart t t' (a.length + 1 : Nat) (a'.length + 1 : Nat)

/-- A text is one with the same runs of blanks. -/
theorem Stretched.refl (t : Text) : Stretched t t := by
  induction hn : t.length using Nat.strongRecOn generalizing t with
  | ind n ih =>
    cases t with
    | nil => exact .nil
    | cons c t =>
      rw [List.length_cons] at hn
      by_cases hc : (Symbol.ofChar c).isBlank
      · let p : Char → Bool := fun d => (Symbol.ofChar d).isBlank
        have hsplit : c :: t = c :: t.takeWhile p ++ t.dropWhile p := by
          rw [List.cons_append, List.takeWhile_append_dropWhile]
        have hw : Text.Blank (c :: t.takeWhile p) := by
          intro d hd
          rcases List.mem_cons.1 hd with rfl | hd
          · exact hc
          · exact List.mem_takeWhile_imp (p := p) hd
        have hlt : (t.dropWhile p).length < n := by
          have hle := (List.dropWhile_sublist p (l := t)).length_le
          omega
        rw [hsplit]
        exact .run hw (List.cons_ne_nil _ _) hw (List.cons_ne_nil _ _) (firstNot_dropWhile _ _)
          (ih _ hlt _ rfl)
      · exact .char (Bool.not_eq_true _ ▸ hc) (ih t.length (by omega) t rfl)

/-- Texts that begin with no blank begin with the same character, or both are empty. -/
theorem Stretched.cases_of_noBlankFirst (h : Stretched t t') (ht : t.NoBlankFirst) :
    t = [] ∧ t' = [] ∨
      ∃ c u u', (Symbol.ofChar c).isBlank = false ∧ Stretched u u' ∧ t = c :: u ∧ t' = c :: u' := by
  cases h with
  | nil => exact Or.inl ⟨rfl, rfl⟩
  | char hc h => exact Or.inr ⟨_, _, _, hc, h, rfl, rfl⟩
  | @run w _ _ _ hw hne _ _ _ _ =>
    cases w with
    | nil => exact absurd rfl hne
    | cons c w =>
      have hblank := hw c List.mem_cons_self
      rw [firstNot_cons.1 ht] at hblank
      cases hblank

/-- A text that begins with no blank begins with none when its runs are stretched. -/
theorem Stretched.noBlankFirst (h : Stretched t t') (ht : t.NoBlankFirst) : t'.NoBlankFirst := by
  rcases h.cases_of_noBlankFirst ht with ⟨-, rfl⟩ | ⟨c, u, u', hc, -, -, rfl⟩
  · exact firstNot_nil
  · exact firstNot_cons.2 hc

/-- The first blanks may be skipped in both texts. -/
theorem Stretched.dropWhile (h : Stretched t t') :
    Stretched (t.dropWhile fun c => (Symbol.ofChar c).isBlank)
      (t'.dropWhile fun c => (Symbol.ofChar c).isBlank) := by
  cases h with
  | nil => exact .nil
  | char hc h => simpa [hc] using Stretched.char hc h
  | run hw _ hw' _ ht h =>
    rw [dropWhile_append_of_blank hw ht, dropWhile_append_of_blank hw' (h.noBlankFirst ht)]
    exact h

/-- A property that no blank has holds of the first characters of both texts or of neither. -/
theorem Stretched.any_head?_eq (h : Stretched t t')
    (hp : ∀ c, (Symbol.ofChar c).isBlank → p c = false) : t'.head?.any p = t.head?.any p := by
  cases h with
  | nil => rfl
  | char => rfl
  | @run w w' _ _ hw hne hw' hne' _ _ =>
    obtain ⟨c, v, rfl⟩ := List.exists_cons_of_ne_nil hne
    obtain ⟨c', v', rfl⟩ := List.exists_cons_of_ne_nil hne'
    simp [hp c (hw c List.mem_cons_self), hp c' (hw' c' List.mem_cons_self)]

/-- A text that begins with no digit begins with none when its runs are stretched. -/
theorem Stretched.noDigitFirst (h : Stretched t t') (ht : t.NoDigitFirst) : t'.NoDigitFirst := by
  have heq := h.any_head?_eq fun c => Literal.isDigit_eq_false_of_isBlank
  have hnone : t.head?.any Literal.isDigit = false := by
    cases t with
    | nil => rfl
    | cons c t => exact firstNot_cons.1 ht
  intro c hc
  rw [Option.mem_def] at hc
  rw [hnone, hc] at heq
  exact heq

/-- Both texts begin with the same digits. -/
theorem Stretched.takeWhile_isDigit_eq (h : Stretched t t') :
    t'.takeWhile Literal.isDigit = t.takeWhile Literal.isDigit := by
  induction h with
  | nil => rfl
  | char _ _ ih => rw [List.takeWhile_cons, List.takeWhile_cons, ih]
  | @run w w' _ _ hw hne hw' hne' _ _ _ =>
    obtain ⟨c, v, rfl⟩ := List.exists_cons_of_ne_nil hne
    obtain ⟨c', v', rfl⟩ := List.exists_cons_of_ne_nil hne'
    simp [Literal.isDigit_eq_false_of_isBlank (hw c List.mem_cons_self),
      Literal.isDigit_eq_false_of_isBlank (hw' c' List.mem_cons_self)]

/-- Both texts begin with the same characters as far as these are no blanks. -/
theorem Stretched.exists_append (h : Stretched (v ++ u) t')
    (hv : ∀ c ∈ v, (Symbol.ofChar c).isBlank = false) :
    ∃ u', t' = v ++ u' ∧ Stretched u u' := by
  induction v generalizing t' with
  | nil => exact ⟨t', rfl, h⟩
  | cons c v ih =>
    have hfirst : NoBlankFirst (c :: v ++ u) := firstNot_cons.2 (hv c List.mem_cons_self)
    rcases h.cases_of_noBlankFirst hfirst with ⟨hnil, -⟩ | ⟨d, x, x', -, hrest, heq, rfl⟩
    · cases hnil
    · cases heq
      obtain ⟨u', rfl, hu⟩ := ih hrest fun e he => hv e (List.mem_cons_of_mem _ he)
      exact ⟨u', rfl, hu⟩

/-! ### Columns of the same -/

variable {a a' u' v' : Text}

/-- Behind the same characters the texts go on with the same, if not with a blank. -/
theorem Counterpart.of_stretched (ht : t = a ++ u) (ht' : t' = a' ++ u')
    (ha : a'.withoutBlanks = a.withoutBlanks) (h : Stretched u u') (hu : u.NoBlankFirst) :
    Counterpart t t' a.length a'.length := by
  rcases h.cases_of_noBlankFirst hu with ⟨rfl, rfl⟩ | ⟨c, v, v', hc, -, rfl, rfl⟩
  · rw [List.append_nil] at ht ht'
    rw [← ht, ← ht']
    exact .finish
  · exact .character (.intro ht ht' ha hc)

/-- Behind the same characters and a minus the texts go on with the same or with blanks. -/
theorem Counterpart.of_minus (ht : t = a ++ '-' :: v) (ht' : t' = a' ++ '-' :: v')
    (ha : a'.withoutBlanks = a.withoutBlanks) (h : Stretched v v') :
    Counterpart t t' (a.length + 1 : Nat) (a'.length + 1 : Nat) := by
  by_cases hv : v.NoBlankFirst
  · have ha' : withoutBlanks (a' ++ ['-']) = withoutBlanks (a ++ ['-']) := by
      rw [withoutBlanks_append, withoutBlanks_append, ha]
    have hall := Counterpart.of_stretched (ht.trans (List.append_cons _ _ _))
      (ht'.trans (List.append_cons _ _ _)) ha' h hv
    simpa using hall
  · cases h with
    | nil => exact absurd firstNot_nil hv
    | char hc _ => exact absurd (firstNot_cons.2 hc) hv
    | run hw hne hw' hne' _ _ =>
      obtain ⟨c, w, rfl⟩ := List.exists_cons_of_ne_nil hne
      obtain ⟨c', w', rfl⟩ := List.exists_cons_of_ne_nil hne'
      exact .blank ht ht' ha (hw c List.mem_cons_self) (hw' c' List.mem_cons_self)

end Text

namespace Literal

variable {t t' : Text}

/-- Scanning for a natural numeral ends before the first blank, however many follow. -/
theorem scanNatural_of_stretched (sign : Nat) (h : Text.Stretched t t') :
    scanNatural sign t' = scanNatural sign t := by
  cases h with
  | nil => rfl
  | char _ h => rw [scanNatural, scanNatural, h.takeWhile_isDigit_eq]
  | @run w w' _ _ hw hne hw' hne' _ _ =>
    -- a blank is no digit, whichever blank it is
    have hblank {c : Char} (hc : (Symbol.ofChar c).isBlank) : Symbol.ofChar c ≠ .nonzeroDigit := by
      intro heq
      rw [heq] at hc
      cases hc
    obtain ⟨c, v, rfl⟩ := List.exists_cons_of_ne_nil hne
    obtain ⟨c', v', rfl⟩ := List.exists_cons_of_ne_nil hne'
    rw [List.cons_append, List.cons_append, scanNatural, scanNatural,
      if_neg (hblank (hw c List.mem_cons_self)), if_neg (hblank (hw' c' List.mem_cons_self))]

/-- How long a run of blanks is makes no difference to a scan before it. -/
theorem scan_of_stretched (h : Text.Stretched t t') (ht : t.NoBlankFirst) : scan t' = scan t := by
  rcases h.cases_of_noBlankFirst ht with ⟨rfl, rfl⟩ | ⟨c, u, u', hc, hu, rfl, rfl⟩
  · rfl
  · rw [scan, scan, hu.any_head?_eq fun c => isDigit_eq_false_of_isBlank,
      scanNatural_of_stretched 1 hu, scanNatural_of_stretched 0 (.char hc hu)]

end Literal

namespace Reading

variable {rules : Rules} {stack : Stack} {r r' : Reading} {e : Rejection} {t w rest : Text}
  {l : Lexeme}

/-! ### Readings that go on alike -/

/-- Behind the blanks the rest is ahead. -/
theorem ahead_skipBlanks (r : Reading) :
    r.skipBlanks.cursor.ahead = r.cursor.ahead.dropWhile fun c => (Symbol.ofChar c).isBlank :=
  r.cursor.ahead_skipBlanks

/-- The readings have got to the same situation, and behind the blanks the same is ahead of them,
but for the lengths of the runs of blanks. -/
structure Alike (r r' : Reading) : Prop where
  /-- The same may come next. -/
  situation_eq : r'.situation = r.situation
  /-- Nothing has been recorded in the one if nothing has been in the other. -/
  recorded_iff : r'.recorded = [] ↔ r.recorded = []
  /-- The texts that are ahead differ in runs of blanks only. -/
  stretched : Text.Stretched r.skipBlanks.cursor.ahead r'.skipBlanks.cursor.ahead

/-- Behind the blanks both texts have ended, or they go on with the same character. -/
theorem Alike.cases_ahead (h : Alike r r') :
    r.skipBlanks.cursor.ahead = [] ∧ r'.skipBlanks.cursor.ahead = [] ∨
      ∃ c u u', (Symbol.ofChar c).isBlank = false ∧ Text.Stretched u u' ∧
        r.skipBlanks.cursor.ahead = c :: u ∧ r'.skipBlanks.cursor.ahead = c :: u' :=
  h.stretched.cases_of_noBlankFirst r.cursor.noBlankFirst_ahead_skipBlanks

/-- The same character comes next in both. -/
theorem Alike.nextSatisfies_eq (h : Alike r r') (p : Symbol → Bool) :
    r'.skipBlanks.cursor.nextSatisfies p = r.skipBlanks.cursor.nextSatisfies p := by
  rw [Cursor.nextSatisfies, Cursor.nextSatisfies]
  rcases h.cases_ahead with ⟨hnil, hnil'⟩ | ⟨c, u, u', -, -, hcons, hcons'⟩
  · rw [hnil, hnil']
  · rw [hcons, hcons']

/-- Both texts end behind the blanks, or neither. -/
theorem Alike.atEnd_eq (h : Alike r r') :
    r'.skipBlanks.cursor.atEnd = r.skipBlanks.cursor.atEnd := by
  rw [Cursor.atEnd, Cursor.atEnd]
  rcases h.cases_ahead with ⟨hnil, hnil'⟩ | ⟨c, u, u', -, -, hcons, hcons'⟩
  · rw [hnil, hnil']
  · rw [hcons, hcons']
    rfl

/-- A literal is scanned alike in both. -/
theorem Alike.scan_eq (h : Alike r r') :
    Literal.scan r'.skipBlanks.cursor.ahead = Literal.scan r.skipBlanks.cursor.ahead :=
  Literal.scan_of_stretched h.stretched r.cursor.noBlankFirst_ahead_skipBlanks

/-- What a reading meets the other one meets, with other blanks before it and after it. -/
theorem Alike.exists_meets (h : Alike r r') (hmeets : r.Meets rules w l rest) :
    ∃ w' rest', r'.Meets rules w' l rest' ∧ Text.Stretched rest rest' := by
  have hahead := h.stretched
  rw [hmeets.ahead_skipBlanks] at hahead
  obtain ⟨rest', hahead', hrest⟩ := hahead.exists_append hmeets.fits.isBlank_eq_false
  obtain ⟨w', hw', hsplit, -⟩ := r'.cursor.exists_blank_append
  refine ⟨w', rest', ⟨hw', h.situation_eq ▸ hmeets.fits, ?_, ?_⟩, hrest⟩
  · rw [hsplit]
    exact congrArg (w' ++ ·) hahead'
  · intro hkind
    exact hrest.noDigitFirst (hmeets.longest hkind)

/-- Readings that go on alike do so when both have read the next lexeme. -/
theorem Alike.take {w' rest' : Text} (h : Alike r r') (hmeets : r.Meets rules w l rest)
    (hmeets' : r'.Meets rules w' l rest') (hrest : Text.Stretched rest rest') :
    Alike (r.skipBlanks.take l.kind l.value.length)
      (r'.skipBlanks.take l.kind l.value.length) where
  situation_eq := by
    rw [situation_take, situation_take, situation_skipBlanks, situation_skipBlanks, h.situation_eq]
  recorded_iff := iff_of_false (List.cons_ne_nil _ _) (List.cons_ne_nil _ _)
  stretched := by
    rw [ahead_skipBlanks, ahead_skipBlanks, hmeets.ahead_take, hmeets'.ahead_take]
    exact hrest.dropWhile

/-- A scan that succeeds has passed the same characters in both texts. -/
theorem Alike.take_ahead_eq {n : Nat} (h : Alike r r')
    (hscan : Literal.scan r.skipBlanks.cursor.ahead = .complete n) :
    r'.skipBlanks.cursor.ahead.take n = r.skipBlanks.cursor.ahead.take n := by
  have hahead := h.stretched
  obtain ⟨l, rest, hsplit, hl, -, rfl⟩ := Literal.exists_of_scan_eq_complete hscan
  rw [hsplit] at hahead
  obtain ⟨rest', hsplit', -⟩ := hahead.exists_append (Literal.isBlank_eq_false_of_isLiteral hl)
  rw [hsplit, hsplit', List.take_left, List.take_left]

/-- Where a text is complete the other one is. -/
theorem Alike.stops_ok {s : Reading} (h : Alike r r') (hs : Stops rules r (.ok s)) :
    Stops rules r' (.ok r'.skipBlanks) := by
  cases hs with
  | complete hterm hdepth hend =>
    rw [← h.situation_eq] at hterm hdepth
    exact .complete hterm hdepth (h.atEnd_eq ▸ hend)

/-- The same fault is found in both texts, as far behind the blanks: right there, or behind a
sign. -/
theorem Alike.exists_stops (h : Alike r r') (hs : Stops rules r (.error e)) :
    ∃ e' n, Stops rules r' (.error e') ∧ e'.fault = e.fault ∧
      e.column = r.skipBlanks.cursor.position + n ∧
      e'.column = r'.skipBlanks.cursor.position + n ∧
      (n = 0 ∨ n = 1 ∧ r.skipBlanks.cursor.ahead.head? = some '-') := by
  have hnext := h.nextSatisfies_eq
  have hsituation := h.situation_eq
  cases hs with
  | extraneous hterm hdepth hend hoperator =>
    rw [← hsituation] at hterm hdepth
    rw [← h.atEnd_eq] at hend
    rw [← hnext] at hoperator
    exact ⟨_, 0, .extraneous hterm hdepth hend hoperator, rfl, rfl, rfl, Or.inl rfl⟩
  | unclosed hterm hdepth hoperator hclosing =>
    rw [← hsituation] at hterm hdepth
    rw [← hnext] at hoperator
    rw [Cursor.nextIs, ← hnext] at hclosing
    exact ⟨_, 0, .unclosed hterm hdepth hoperator hclosing, rfl, rfl, rfl, Or.inl rfl⟩
  | empty hrecorded hend =>
    rw [← h.recorded_iff] at hrecorded
    rw [← h.atEnd_eq] at hend
    exact ⟨_, 0, .empty hrecorded hend, rfl, rfl, rfl, Or.inl rfl⟩
  | tooDeep hterm hopening hdepth =>
    rw [← hsituation] at hterm hdepth
    rw [Cursor.nextIs, ← hnext] at hopening
    exact ⟨_, 0, .tooDeep hterm hopening hdepth, rfl, rfl, rfl, Or.inl rfl⟩
  | @malformed offset passed hterm hstart hscan =>
    have hoffset := Literal.offset_of_scan_eq_malformed hscan
    rw [← hsituation] at hterm
    rw [← hnext] at hstart
    rw [← h.scan_eq] at hscan
    exact ⟨_, offset, .malformed hterm hstart hscan, rfl, rfl, rfl, hoffset⟩
  | outOfRange hterm hscan hadmits =>
    rw [← hsituation] at hterm
    rw [← h.take_ahead_eq hscan] at hadmits
    rw [← h.scan_eq] at hscan
    exact ⟨_, 0, .outOfRange hterm hscan hadmits, rfl, rfl, rfl, Or.inl rfl⟩
  | noTerm hterm hrecorded hopening hstart =>
    rw [← hsituation] at hterm
    rw [← h.recorded_iff, ← h.atEnd_eq] at hrecorded
    rw [Cursor.nextIs, ← hnext] at hopening
    rw [← hnext] at hstart
    exact ⟨_, 0, .noTerm hterm hrecorded hopening hstart, rfl, rfl, rfl, Or.inl rfl⟩

/-- Readings that go on alike need the same room. -/
theorem Alike.sameNeed (h : Alike r r') : SameNeed rules rules stack stack r r' where
  wantsTerm_eq := congrArg Situation.wantsTerm h.situation_eq
  empty_iff := by rw [h.recorded_iff, h.atEnd_eq]
  next_eq := fun p _ _ => h.nextSatisfies_eq p
  depth_iff := by rw [h.situation_eq]
  holds_eq := fun _ _ => by rw [h.situation_eq]

/-- Where the one ends with a fault the other one does, as far behind the blanks. -/
theorem Alike.exists_halts (h : Alike r r') (hs : Halts rules stack r (.error e)) :
    ∃ e' n, Halts rules stack r' (.error e') ∧ e'.fault = e.fault ∧
      e.column = r.skipBlanks.cursor.position + n ∧
      e'.column = r'.skipBlanks.cursor.position + n ∧
      (n = 0 ∨ n = 1 ∧ r.skipBlanks.cursor.ahead.head? = some '-') := by
  cases hs with
  | stops hroom hstop =>
    obtain ⟨e', n, hstop', hrest⟩ := h.exists_stops hstop
    exact ⟨e', n, .stops (h.sameNeed.hasRoom hroom) hstop', hrest⟩
  | givesUp hgives =>
    obtain ⟨q', n, hgives', hcolumn, hcolumn', hn⟩ := h.sameNeed.exists_givesUp hgives
    exact ⟨_, n, .givesUp hgives', rfl, hcolumn, hcolumn', hn⟩

/-- Where the one ends with a complete text the other one does. -/
theorem Alike.halts_ok {s : Reading} (h : Alike r r') (hs : Halts rules stack r (.ok s)) :
    Halts rules stack r' (.ok r'.skipBlanks) := by
  cases hs with
  | stops hroom hstop => exact .stops (h.sameNeed.hasRoom hroom) (h.stops_ok hstop)

end Reading

/-! ### Analyses of texts with other blanks -/

/-- The tokens are the same lexeme at the place of the same character. -/
def Token.Moves (t t' : Text) (k k' : Token) : Prop :=
  k'.toLexeme = k.toLexeme ∧ Text.SameCharacter t t' k.position k'.position

/-- Tokens that have moved are the same lexemes. -/
theorem Token.toLexeme_eq_of_moves {t t' : Text} {ks ks' : List Token}
    (h : List.Forall₂ (Token.Moves t t') ks ks') :
    ks'.map Token.toLexeme = ks.map Token.toLexeme := by
  induction h with
  | nil => rfl
  | cons hk _ ih => rw [List.map_cons, List.map_cons, hk.1, ih]

/-- Tokens that have only moved have the same characters. -/
theorem Token.spelling_eq_of_moves {t t' : Text} {ks ks' : List Token}
    (h : List.Forall₂ (Token.Moves t t') ks ks') : spelling ks' = spelling ks := by
  have hvalues (ls : List Token) :
      (ls.map fun k => k.value) = (ls.map Token.toLexeme).map Lexeme.value := by
    rw [List.map_map]
    rfl
  rw [spelling, spelling, hvalues, hvalues, toLexeme_eq_of_moves h]

namespace Reading

variable {rules : Rules} {stack : Stack} {r : Reading} {t t' : Text}

/-- Up to the next lexeme a text holds what has been read and blanks. -/
theorem Reaches.exists_passed (h : Reaches rules (start t) r) :
    ∃ a : Text, t = a ++ r.skipBlanks.cursor.ahead ∧ r.skipBlanks.cursor.position = a.length ∧
      a.withoutBlanks = Token.spelling r.tokens := by
  obtain ⟨ls, hspaced, hadmits, htext, hposition, htokens⟩ := h.exists_layout_of_start
  obtain ⟨w, hw, hpasses⟩ := r.exists_passes_skipBlanks
  refine ⟨ls.text ++ w, ?_, ?_, ?_⟩
  · rw [List.append_assoc, ← hpasses.ahead_eq]
    exact htext
  · rw [hpasses.position_eq, hposition, List.length_append]
  · rw [Text.withoutBlanks_append, Text.withoutBlanks_of_blank hw, List.append_nil, htokens,
      Layout.spelling_tokens hspaced hadmits]

/-- Respaced texts are alike from the beginning. -/
theorem alike_start (h : Text.Respaced t t') : Alike (start t) (start t') where
  situation_eq := rfl
  recorded_iff := Iff.rfl
  stretched := by
    obtain ⟨hw, hw', hu, hstretched⟩ := h
    rw [ahead_skipBlanks, ahead_skipBlanks]
    change Text.Stretched (List.dropWhile _ (_ ++ _)) (List.dropWhile _ (_ ++ _))
    rw [Text.dropWhile_append_of_blank hw hu,
      Text.dropWhile_append_of_blank hw' (hstretched.noBlankFirst hu)]
    exact hstretched

/-- Both texts are read side by side. -/
theorem Reaches.exists_alike (h : Text.Respaced t t') (hreach : Reaches rules (start t) r) :
    ∃ r', Reaches rules (start t') r' ∧ Alike r r' ∧
      List.Forall₂ (Token.Moves t t') r.tokens r'.tokens := by
  induction hreach with
  | refl => exact ⟨start t', .refl, alike_start h, .nil⟩
  | @tail q r hreach hstep ih =>
    obtain ⟨q', hreach', halike, hmoves⟩ := ih
    obtain ⟨w, l, rest, hmeets, rfl⟩ := hstep.exists_meets
    obtain ⟨w', rest', hmeets', hrest⟩ := halike.exists_meets hmeets
    refine ⟨_, hreach'.tail hmeets'.step, halike.take hmeets hmeets' hrest, ?_⟩
    obtain ⟨a, hpassed, hposition, ha⟩ := Reaches.exists_passed hreach
    obtain ⟨a', hpassed', hposition', ha'⟩ := Reaches.exists_passed hreach'
    obtain ⟨c, v, hvalue, hc, -⟩ := hmeets.fits.exists_cons
    rw [hmeets.ahead_skipBlanks, hvalue] at hpassed
    rw [hmeets'.ahead_skipBlanks, hvalue] at hpassed'
    rw [hmeets.position_skipBlanks] at hposition
    rw [hmeets'.position_skipBlanks] at hposition'
    rw [hmeets.tokens_take, hmeets'.tokens_take, hposition, hposition']
    refine List.rel_append hmoves (.cons ⟨rfl, .intro hpassed hpassed' ?_ hc⟩ .nil)
    rw [ha, ha', Token.spelling_eq_of_moves hmoves]

/-- Both are read side by side on every stack. -/
theorem Goes.exists_alike (h : Text.Respaced t t') (hgoes : Goes rules stack (start t) r) :
    ∃ r', Goes rules stack (start t') r' ∧ Alike r r' ∧
      List.Forall₂ (Token.Moves t t') r.tokens r'.tokens := by
  obtain ⟨r', hreach', halike, hmoves⟩ := hgoes.reaches.exists_alike h
  refine ⟨r', hreach'.goes_start_iff.2 ?_, halike, hmoves⟩
  rw [Token.calls, Token.toLexeme_eq_of_moves hmoves]
  exact hgoes.holds_calls

end Reading

namespace Analysis

variable {t t' : Text}

/-- A text with other blanks where there are some, and with blanks before it or without, has the
same status and the same lexemes, each at the new place of its first character. The column of a
fault moves with what it points at. It is so with any room to read them in. -/
theorem analysis_of_respaced (rules : Rules) (stack : Stack) (h : Text.Respaced t t') :
    (ofText rules t' .operator stack).verdict.status =
        (ofText rules t .operator stack).verdict.status ∧
      List.Forall₂ (Token.Moves t t') (ofText rules t .operator stack).tokens
        (ofText rules t' .operator stack).tokens ∧
      (¬ (ofText rules t .operator stack).isWellFormed →
        Text.Counterpart t t' (ofText rules t .operator stack).verdict.column
          (ofText rules t' .operator stack).verdict.column) := by
  obtain ⟨r, o, hgoes, hhalts, -⟩ := exists_halts .operator rules stack t
  obtain ⟨r', hgoes', halike, hmoves⟩ := hgoes.exists_alike h
  cases o with
  | ok s =>
    have hhalts' := halike.halts_ok hhalts
    have hwell := verdict_of_halts_ok (b := .operator) hgoes hhalts
    rw [tokens_of_halts hgoes hhalts, tokens_of_halts hgoes' hhalts', isWellFormed,
      verdict_of_halts_ok hgoes' hhalts', hwell]
    exact ⟨rfl, hmoves, fun hne => absurd rfl hne⟩
  | error e =>
    obtain ⟨e', n, hhalts', hfault, hcolumn, hcolumn', hn⟩ := halike.exists_halts hhalts
    rw [tokens_of_halts hgoes hhalts, tokens_of_halts hgoes' hhalts', verdict_of_halts hgoes hhalts,
      verdict_of_halts hgoes' hhalts', halike.situation_eq, hfault]
    refine ⟨rfl, hmoves, fun _ => ?_⟩
    -- the columns correspond because the same characters but for blanks are before them
    obtain ⟨a, hpassed, hposition, ha⟩ := hgoes.reaches.exists_passed
    obtain ⟨a', hpassed', hposition', ha'⟩ := hgoes'.reaches.exists_passed
    have hsame : a'.withoutBlanks = a.withoutBlanks := by
      rw [ha, ha', Token.spelling_eq_of_moves hmoves]
    have hfirst := r.cursor.noBlankFirst_ahead_skipBlanks
    have hstretched := halike.stretched
    dsimp only
    rw [hcolumn, hcolumn', hposition, hposition']
    rcases hn with rfl | ⟨rfl, hminus⟩
    · exact .of_stretched hpassed hpassed' hsame hstretched hfirst
    · -- behind a sign there may be blanks, and the column is that of the first one
      obtain ⟨v, hv⟩ := List.head?_eq_some_iff.1 hminus
      rw [hv] at hpassed hstretched
      have hsign : ∀ c ∈ ['-'], (Symbol.ofChar c).isBlank = false := by
        intro c hc
        rw [List.mem_singleton.1 hc]
        rfl
      obtain ⟨v', hv', hrest⟩ := hstretched.exists_append (v := ['-']) hsign
      rw [hv'] at hpassed'
      exact .of_minus hpassed hpassed' hsame hrest

/-- A sign with blanks behind it lacks its digits, however many blanks there are. The fault is at
the first of them. -/
theorem analysis_of_respaced_sign :
    Text.Respaced "3 *- 1".toList "\t3  *-\t1".toList ∧
      (ofText .standard "\t3  *-\t1".toList).verdict.status = .faulty .missingTerm ∧
      Text.Counterpart "3 *- 1".toList "\t3  *-\t1".toList 4
        (ofText .standard "\t3  *-\t1".toList).verdict.column := by
  have hsign : Text.Stretched ([' '] ++ ['1']) (['\t'] ++ ['1']) :=
    .run (by decide) (by decide) (by decide) (by decide) (Text.firstNot_cons.2 rfl)
      (.refl ['1'])
  have hoperator : Text.Stretched ([' '] ++ "*- 1".toList) ([' ', ' '] ++ "*-\t1".toList) :=
    .run (by decide) (by decide) (by decide) (by decide) (Text.firstNot_cons.2 rfl)
      (.char rfl (.char rfl hsign))
  have hrespaced : Text.Respaced ([] ++ "3 *- 1".toList) (['\t'] ++ "3  *-\t1".toList) :=
    .intro Text.blank_nil (by decide) (Text.firstNot_cons.2 rfl) (.char rfl hoperator)
  have hverdict : (ofText .standard "3 *- 1".toList).verdict =
      { status := .faulty .missingTerm, column := 4 } := by decide +kernel
  obtain ⟨hstatus, -, hcolumn⟩ := analysis_of_respaced .standard .unlimited hrespaced
  rw [isWellFormed, List.nil_append, hverdict] at hcolumn
  rw [List.nil_append, hverdict] at hstatus
  exact ⟨hrespaced, hstatus, hcolumn Bool.false_ne_true⟩

end Analysis

end ArithSyntax
