import ArithSyntax.Proofs.Run
import ArithSyntax.Proofs.Lexeme

/-!
# Layouts

A layout is a list of lexemes, each with the text before it. It spells a text and gives every lexeme
a place. The tokens that a run records are the lexemes of a layout of the text passed
(`Reaches.exists_layout`), with blanks before each, and each fitting the situation after those
before it. Conversely any such layout is read (`exists_reaches_of_layout`): where the lexemes stand
is of no consequence.
-/

namespace ArithSyntax

/-- Lexemes in order, each with the text that stands before it. -/
abbrev Layout := List (Text × Lexeme)

namespace Layout

/-- The text that is laid out. -/
def text : Layout → Text
  | [] => []
  | (w, l) :: ls => w ++ l.value ++ text ls

/-- The lexemes at their places, when the text begins at the column `start`. -/
def tokens : Layout → (start : Nat) → List Token
  | [], _ => []
  | (w, l) :: ls, start =>
    { toLexeme := l, position := (start + w.length : Nat) } ::
      tokens ls (start + (w ++ l.value).length)

/-- The lexemes in order. -/
def lexemes (ls : Layout) : List Lexeme := ls.map Prod.snd

/-- Nothing but blanks stands before the lexemes. -/
def Spaced (ls : Layout) : Prop := ∀ p ∈ ls, p.1.Blank

instance (ls : Layout) : Decidable ls.Spaced :=
  List.decidableBAll (fun p : Text × Lexeme => p.1.Blank) ls

variable {ls : Layout} {w : Text} {l : Lexeme}

theorem spaced_nil : Spaced [] := by
  intro p hp
  cases hp

/-- What stands before each lexeme is blank if it is before the first and before the rest. -/
theorem spaced_cons : Spaced ((w, l) :: ls) ↔ w.Blank ∧ ls.Spaced := by
  simp [Spaced]

/-- Two layouts with blanks before their lexemes make one. -/
theorem spaced_append {ms : Layout} (h : ls.Spaced) (h' : ms.Spaced) : Spaced (ls ++ ms) := by
  intro p hp
  rcases List.mem_append.1 hp with hp | hp
  · exact h p hp
  · exact h' p hp

/-- The lexemes of two layouts come one after the other. -/
theorem lexemes_append (ls ms : Layout) : lexemes (ls ++ ms) = ls.lexemes ++ ms.lexemes :=
  List.map_append

/-- The texts of two layouts come one after the other. -/
theorem text_append (ls ms : Layout) : text (ls ++ ms) = ls.text ++ ms.text := by
  induction ls with
  | nil => rfl
  | cons p ls ih =>
    obtain ⟨w, l⟩ := p
    rw [List.cons_append, text, text, ih]
    exact (List.append_assoc _ _ _).symm

/-- What is laid out behind a layout begins where this ends. -/
theorem tokens_append (ls ms : Layout) (start : Nat) :
    tokens (ls ++ ms) start = ls.tokens start ++ ms.tokens (start + ls.text.length) := by
  induction ls generalizing start with
  | nil => rfl
  | cons p ls ih =>
    obtain ⟨w, l⟩ := p
    have hlength : (text ((w, l) :: ls)).length = (w ++ l.value).length + (text ls).length :=
      List.length_append
    rw [List.cons_append, tokens, tokens, ih, hlength, List.cons_append, Nat.add_assoc]

/-- A layout further on has its tokens further on. -/
theorem tokens_add (ls : Layout) (start n : Nat) :
    ls.tokens (start + n) = (ls.tokens start).map (Token.shift · n) := by
  induction ls generalizing start with
  | nil => rfl
  | cons p ls ih =>
    obtain ⟨w, l⟩ := p
    have hstart : start + n + (w ++ l.value).length = start + (w ++ l.value).length + n := by omega
    have hplace : ((start + n + w.length : Nat) : Int) = (start + w.length : Nat) + (n : Int) := by
      omega
    rw [tokens, tokens, List.map_cons, hstart, ih, hplace]
    rfl

/-- The layout with the text `w` before it. -/
def indent (w : Text) : Layout → Layout
  | [] => []
  | (v, l) :: ls => (w ++ v, l) :: ls

/-- An indented layout has the indent before its text. -/
theorem text_indent (w : Text) (h : ls ≠ []) : (ls.indent w).text = w ++ ls.text := by
  cases ls with
  | nil => exact absurd rfl h
  | cons p ls =>
    obtain ⟨v, l⟩ := p
    simp only [indent, text, List.append_assoc]

/-- An indented layout has the same lexemes. -/
@[simp] theorem lexemes_indent (w : Text) (ls : Layout) : (ls.indent w).lexemes = ls.lexemes := by
  cases ls <;> rfl

/-- An indent of blanks keeps a layout spaced. -/
theorem spaced_indent (hw : w.Blank) (h : ls.Spaced) : (ls.indent w).Spaced := by
  cases ls with
  | nil => exact h
  | cons p ls =>
    obtain ⟨v, l⟩ := p
    obtain ⟨hv, hls⟩ := spaced_cons.1 h
    exact spaced_cons.2 ⟨Text.blank_append.2 ⟨hw, hv⟩, hls⟩

/-- The text before a layout moves its tokens. -/
theorem tokens_indent (w : Text) (ls : Layout) (start : Nat) :
    (ls.indent w).tokens start = ls.tokens (start + w.length) := by
  cases ls with
  | nil => rfl
  | cons p ls =>
    obtain ⟨v, l⟩ := p
    simp only [indent, tokens, List.length_append, Nat.add_assoc]

/-- The tokens of a layout are its lexemes, each with a place. -/
@[simp] theorem toLexeme_tokens (ls : Layout) (start : Nat) :
    (ls.tokens start).map Token.toLexeme = ls.lexemes := by
  induction ls generalizing start with
  | nil => rfl
  | cons p ls ih =>
    obtain ⟨w, l⟩ := p
    rw [tokens, List.map_cons, ih]
    rfl

/-- Of a layout with blanks between the lexemes only the lexemes are left without the blanks. -/
theorem withoutBlanks_text (hspaced : ls.Spaced)
    (hlexemes : ∀ l ∈ ls.lexemes, ∀ c ∈ l.value, (Symbol.ofChar c).isBlank = false) :
    ls.text.withoutBlanks = (ls.lexemes.map Lexeme.value).flatten := by
  induction ls with
  | nil => rfl
  | cons p ls ih =>
    obtain ⟨w, l⟩ := p
    obtain ⟨hw, hspaced⟩ := spaced_cons.1 hspaced
    have hvalue := Text.withoutBlanks_eq_self (hlexemes l List.mem_cons_self)
    have hrest := ih hspaced fun k hk => hlexemes k (List.mem_cons_of_mem _ hk)
    rw [text, Text.withoutBlanks_append, Text.withoutBlanks_append, Text.withoutBlanks_of_blank hw,
      hvalue, hrest]
    rfl

end Layout

/-! ### Lexemes that follow one another -/

namespace Situation

/-- The situation after some lexemes in order. -/
def run (q : Situation) (ls : List Lexeme) : Situation := ls.foldl (fun q l => q.next l.kind) q

/-- Each of the lexemes fits the situation after those before it. -/
def Admits (rules : Rules) : Situation → List Lexeme → Prop
  | _, [] => True
  | q, l :: ls => l.Fits rules q ∧ Admits rules (q.next l.kind) ls

/-- Lexemes lead from a situation to another, one part after the other. -/
theorem run_append (q : Situation) (ks ls : List Lexeme) :
    q.run (ks ++ ls) = (q.run ks).run ls :=
  List.foldl_append

/-- Lexemes that fit are followed by those that fit behind them. -/
theorem Admits.append {rules : Rules} {q : Situation} {ks ls : List Lexeme}
    (h : q.Admits rules ks) (h' : (q.run ks).Admits rules ls) : q.Admits rules (ks ++ ls) := by
  induction ks generalizing q with
  | nil => exact h'
  | cons k ks ih => exact ⟨h.1, ih h.2 h'⟩

/-- Lexemes that follow one another do so behind any first ones of them. -/
theorem Admits.of_append {rules : Rules} {q : Situation} {ks ls : List Lexeme}
    (h : q.Admits rules (ks ++ ls)) : (q.run ks).Admits rules ls := by
  induction ks generalizing q with
  | nil => exact h
  | cons k ks ih => exact ih h.2

/-- The situation after some tokens and those before them. -/
theorem after_reverse_append (ts ks : List Token) :
    after (ts.reverse ++ ks) = (after ks).run (ts.map Token.toLexeme) := by
  induction ts generalizing ks with
  | nil => rfl
  | cons t ts ih =>
    rw [List.reverse_cons, List.append_assoc, List.singleton_append, ih]
    rfl

/-- Each lexeme of those that follow one another fits where it stands. -/
theorem Admits.exists_fits {rules : Rules} {q : Situation} {ls : List Lexeme} {l : Lexeme}
    (h : q.Admits rules ls) (hl : l ∈ ls) : ∃ q', l.Fits rules q' := by
  induction ls generalizing q with
  | nil => cases hl
  | cons k ls ih =>
    rcases List.mem_cons.1 hl with rfl | hl
    · exact ⟨q, h.1⟩
    · exact ih h.2 hl

/-- In lexemes that follow one another no blank occurs. -/
theorem Admits.isBlank_eq_false {rules : Rules} {q : Situation} {ls : List Lexeme}
    (h : q.Admits rules ls) : ∀ l ∈ ls, ∀ c ∈ l.value, (Symbol.ofChar c).isBlank = false := by
  intro l hl
  obtain ⟨q', hfits⟩ := h.exists_fits hl
  exact hfits.isBlank_eq_false

end Situation

namespace Reading

variable {rules : Rules} {r s : Reading} {t w rest : Text} {ls : Layout}

/-- After lexemes of which the last cannot go on in `rest`, the text goes on with the lexemes of a
layout or with `rest`; in neither case a literal before it gets longer. -/
theorem noDigitFirst_layout {q : Situation} (hterm : ¬ q.wantsTerm)
    (hadmits : q.Admits rules ls.lexemes) (hspaced : ls.Spaced) (hrest : rest.NoDigitFirst) :
    Text.NoDigitFirst (ls.text ++ rest) := by
  cases ls with
  | nil => exact hrest
  | cons p ls =>
    obtain ⟨w, l⟩ := p
    rw [Layout.text, List.append_assoc, List.append_assoc]
    exact Text.noDigitFirst_append_of_blank (Layout.spaced_cons.1 hspaced).1
      (hadmits.1.noDigitFirst hterm _)

/-- A run passes lexemes that follow one another, with blanks before each. -/
theorem Reaches.exists_layout (h : Reaches rules r s) :
    ∃ ls : Layout, ls.Spaced ∧ r.situation.Admits rules ls.lexemes ∧
      r.Passes s ls.text ∧ s.recorded = (ls.tokens r.cursor.position).reverse ++ r.recorded := by
  induction h using Relation.ReflTransGen.head_induction_on with
  | refl => exact ⟨[], Layout.spaced_nil, trivial, ⟨rfl, rfl⟩, rfl⟩
  | head hstep _ ih =>
    obtain ⟨w, l, rest, hmeets, rfl⟩ := hstep.exists_meets
    obtain ⟨ls, hspaced, hadmits, hpasses, hrecorded⟩ := ih
    refine ⟨(w, l) :: ls, Layout.spaced_cons.2 ⟨hmeets.blank, hspaced⟩, ⟨hmeets.fits, hadmits⟩,
      hmeets.passes.trans hpasses, ?_⟩
    rw [hrecorded, hmeets.passes.position_eq, hmeets.recorded_take]
    simp [Layout.tokens]

/-- The lexemes of the tokens recorded on the way lead from one situation to the other. -/
theorem situation_eq_run_of_recorded {start : Nat}
    (h : s.recorded = (ls.tokens start).reverse ++ r.recorded) :
    s.situation = r.situation.run ls.lexemes := by
  rw [situation, h, Situation.after_reverse_append, Layout.toLexeme_tokens]
  rfl

/-- The situation is told by the lexemes of the recorded tokens. -/
theorem situation_eq_run (h : r.tokens = ls.tokens 0) :
    r.situation = ({} : Situation).run ls.lexemes := by
  have hrecorded : r.recorded = (ls.tokens 0).reverse ++ (Reading.start []).recorded := by
    rw [← h, tokens, List.reverse_reverse]
    exact (List.append_nil _).symm
  exact situation_eq_run_of_recorded hrecorded

/-- Where a text is complete only blanks are left. -/
theorem Stops.blank_ahead (h : Stops rules r (.ok s)) : r.cursor.ahead.Blank := by
  obtain ⟨w, hw, hpasses⟩ := r.exists_passes_skipBlanks
  cases h with
  | complete _ _ hend =>
    rw [hpasses.ahead_eq, Cursor.atEnd_iff_ahead.1 hend, List.append_nil]
    exact hw

/-- The tokens of a text are those of a layout of the part that its run has passed. -/
theorem Reaches.exists_layout_of_start (h : Reaches rules (start t) r) :
    ∃ ls : Layout, ls.Spaced ∧ ({} : Situation).Admits rules ls.lexemes ∧
      t = ls.text ++ r.cursor.ahead ∧ r.cursor.position = ls.text.length ∧
      r.tokens = ls.tokens 0 := by
  obtain ⟨ls, hspaced, hadmits, hpasses, hrecorded⟩ := h.exists_layout
  refine ⟨ls, hspaced, hadmits, hpasses.ahead_eq, ?_, tokens_eq_of_recorded hrecorded⟩
  rw [hpasses.position_eq]
  exact Nat.zero_add _

/-- Lexemes that follow one another are read wherever there are only blanks before them. -/
theorem exists_reaches_of_layout (hadmits : r.situation.Admits rules ls.lexemes)
    (hspaced : ls.Spaced) (hahead : r.cursor.ahead = ls.text ++ rest)
    (hrest : rest.NoDigitFirst) :
    ∃ s, Reaches rules r s ∧ s.cursor.ahead = rest ∧
      s.recorded = (ls.tokens r.cursor.position).reverse ++ r.recorded := by
  induction ls generalizing r with
  | nil => exact ⟨r, .refl, hahead, rfl⟩
  | cons p ls ih =>
    obtain ⟨w, l⟩ := p
    obtain ⟨hw, hspaced⟩ := Layout.spaced_cons.1 hspaced
    rw [Layout.text, List.append_assoc, List.append_assoc] at hahead
    have hlongest : l.kind = .operand → Text.NoDigitFirst (Layout.text ls ++ rest) := by
      intro hkind
      refine noDigitFirst_layout ?_ hadmits.2 hspaced hrest
      rw [hkind]
      exact Bool.false_ne_true
    have hmeets : r.Meets rules w l (Layout.text ls ++ rest) := ⟨hw, hadmits.1, hahead, hlongest⟩
    obtain ⟨s, hreach, hs, hrecorded⟩ :=
      ih (r := r.skipBlanks.take l.kind l.value.length) hadmits.2 hspaced hmeets.ahead_take
    refine ⟨s, hreach.head hmeets.step, hs, ?_⟩
    rw [hrecorded, hmeets.passes.position_eq, hmeets.recorded_take]
    simp [Layout.tokens]

end Reading

end ArithSyntax
