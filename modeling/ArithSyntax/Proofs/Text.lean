import ArithSyntax.Grammar
import ArithSyntax.Reading
import Mathlib.Data.List.TakeWhile

/-!
# Runs of characters

Digits and blanks are read in runs, and a run ends where the text has no such character in front:
`FirstNot` names this condition. It pins down what `skipBlanks` does to a cursor: the blanks in
front are passed and nothing else (`exists_blank_append`, `ahead_skipBlanks_of_append`). What a
reading passes on its way is told by `Passes`.
-/

namespace ArithSyntax

namespace Text

/-- No character with the property stands at the beginning of the text. -/
def FirstNot (p : Char → Bool) (t : Text) : Prop := ∀ c ∈ t.head?, p c = false

variable {p : Char → Bool} {c : Char} {t u w : Text}

/-- Nothing comes first in an empty text. -/
theorem firstNot_nil : FirstNot p [] := by
  intro c hc
  cases hc

/-- What comes first in a text is its first character. -/
theorem firstNot_cons : FirstNot p (c :: t) ↔ p c = false := by
  simp [FirstNot]

/-- Nothing is taken of a text that begins otherwise. -/
theorem FirstNot.takeWhile_eq_nil (h : FirstNot p t) : t.takeWhile p = [] := by
  cases t with
  | nil => rfl
  | cons c t =>
    rw [firstNot_cons] at h
    simp [h]

/-- Nothing is dropped of a text that begins otherwise. -/
theorem FirstNot.dropWhile_eq_self (h : FirstNot p t) : t.dropWhile p = t := by
  cases t with
  | nil => rfl
  | cons c t =>
    rw [firstNot_cons] at h
    simp [h]

/-- A run of characters with the property ends where there is none in front. -/
theorem firstNot_dropWhile (p : Char → Bool) (t : Text) : FirstNot p (t.dropWhile p) := by
  intro c hc
  have hne : t.dropWhile p ≠ [] := by
    intro hnil
    rw [hnil] at hc
    cases hc
  have hhead := List.head_dropWhile_not p hne
  rw [List.head?_eq_some_head hne] at hc
  cases hc
  exact hhead

/-- A run that has ended does not go on in what is put behind it. -/
theorem FirstNot.takeWhile_append (h : FirstNot p u) : (t ++ u).takeWhile p = t.takeWhile p := by
  rw [List.takeWhile_append, h.takeWhile_eq_nil, List.append_nil]
  split
  · rename_i heq
    exact ((List.takeWhile_prefix p).eq_of_length heq).symm
  · rfl

/-- A run that ends before `u` does not depend on it. -/
theorem takeWhile_append_congr (h : ((t ++ u).takeWhile p).length < t.length) :
    (t ++ w).takeWhile p = (t ++ u).takeWhile p := by
  have hne : (t.takeWhile p).length ≠ t.length := by
    intro heq
    rw [List.takeWhile_append, if_pos heq, List.length_append] at h
    omega
  rw [List.takeWhile_append, List.takeWhile_append, if_neg hne, if_neg hne]

/-- No digit stands at the beginning of the text. -/
abbrev NoDigitFirst (t : Text) : Prop := t.FirstNot Literal.isDigit

/-- No blank stands at the beginning of the text. -/
abbrev NoBlankFirst (t : Text) : Prop := t.FirstNot fun c => (Symbol.ofChar c).isBlank

/-- No character of expressions stands at the beginning of the text. -/
abbrev ForeignFirst (t : Text) : Prop := t.FirstNot fun c => !(Symbol.ofChar c).isForeign

/-- A text begins with a foreign character if its first one is foreign. -/
theorem foreignFirst_cons : ForeignFirst (c :: t) ↔ (Symbol.ofChar c).isForeign := by
  simp [ForeignFirst, firstNot_cons]

/-- A foreign character is no digit. -/
theorem ForeignFirst.noDigitFirst (h : t.ForeignFirst) : t.NoDigitFirst := by
  intro c hc
  have hforeign := h c hc
  rw [Literal.isDigit]
  cases hs : Symbol.ofChar c <;> simp_all [Symbol.isDigit, Symbol.isForeign]

/-- A foreign character is no blank. -/
theorem ForeignFirst.noBlankFirst (h : t.ForeignFirst) : t.NoBlankFirst := by
  intro c hc
  have hforeign := h c hc
  cases hs : Symbol.ofChar c <;> simp_all [Symbol.isBlank, Symbol.isForeign]

/-! ### Blanks -/

theorem blank_nil : Blank [] := by
  intro c hc
  cases hc

/-- Two texts make a blank one if both are blank. -/
theorem blank_append : Blank (t ++ u) ↔ t.Blank ∧ u.Blank := by
  simp only [Blank, List.mem_append]
  constructor
  · intro h
    exact ⟨fun c hc => h c (Or.inl hc), fun c hc => h c (Or.inr hc)⟩
  · rintro ⟨ht, hu⟩ c (hc | hc)
    · exact ht c hc
    · exact hu c hc

/-- A blank is no digit. -/
theorem noDigitFirst_append_of_blank (hw : w.Blank) (hu : u.NoDigitFirst) :
    Text.NoDigitFirst (w ++ u) := by
  cases w with
  | nil => exact hu
  | cons c w =>
    have hc := hw c List.mem_cons_self
    refine firstNot_cons.2 ?_
    rw [Literal.isDigit]
    cases hs : Symbol.ofChar c <;> simp_all [Symbol.isBlank, Symbol.isDigit]

/-- Blanks in front of a text that begins with none are all that is dropped. -/
theorem dropWhile_append_of_blank (hw : w.Blank) (hu : u.NoBlankFirst) :
    (w ++ u).dropWhile (fun c => (Symbol.ofChar c).isBlank) = u := by
  rw [List.dropWhile_append_of_pos hw, hu.dropWhile_eq_self]

/-- The text without its blanks. -/
def withoutBlanks (t : Text) : Text := t.filter fun c => !(Symbol.ofChar c).isBlank

/-- The blanks of two texts are left out of each. -/
theorem withoutBlanks_append (t u : Text) :
    withoutBlanks (t ++ u) = t.withoutBlanks ++ u.withoutBlanks :=
  List.filter_append ..

/-- Nothing is left of a blank text. -/
theorem withoutBlanks_of_blank (h : w.Blank) : w.withoutBlanks = [] := by
  apply List.filter_eq_nil_iff.2
  intro c hc
  rw [h c hc]
  decide

/-- Nothing is deleted where there are no blanks. -/
theorem withoutBlanks_eq_self (h : ∀ c ∈ t, (Symbol.ofChar c).isBlank = false) :
    t.withoutBlanks = t := by
  apply List.filter_eq_self.2
  intro c hc
  rw [h c hc]
  rfl

end Text

namespace Cursor

variable {c d : Cursor} {p : Symbol → Bool} {s : Symbol} {t u w : Text}

/-- What comes next is the first of the characters ahead. -/
theorem nextSatisfies_iff :
    c.nextSatisfies p ↔ ∃ x u, c.ahead = x :: u ∧ p (.ofChar x) := by
  unfold nextSatisfies
  cases c.ahead with
  | nil => simp
  | cons x u => simp

/-- A class comes next if the first of the characters ahead is of it. -/
theorem nextIs_iff : c.nextIs s ↔ ∃ x u, c.ahead = x :: u ∧ Symbol.ofChar x = s := by
  rw [nextIs, nextSatisfies_iff]
  simp only [beq_iff_eq]

/-- What two cursors have in front of them decides which kind of character comes next, if behind it
the one text ends and the other goes on with no character of expressions. -/
theorem nextSatisfies_congr (hc : c.ahead = t ++ u) (hd : d.ahead = t ++ w)
    (ht : t = [] → u = [] ∧ w.ForeignFirst) (hend : p .endOfText = false)
    (hforeign : p .foreign = false) : d.nextSatisfies p = c.nextSatisfies p := by
  cases t with
  | cons x t => simp [nextSatisfies, hc, hd]
  | nil =>
    obtain ⟨rfl, hw⟩ := ht rfl
    cases w with
    | nil => simp [nextSatisfies, hc, hd]
    | cons x w =>
      have hx := Text.foreignFirst_cons.1 hw
      cases hs : Symbol.ofChar x <;> simp_all [nextSatisfies, Symbol.isForeign]

/-- A cursor is at the end if nothing is ahead. -/
theorem atEnd_iff_ahead : c.atEnd ↔ c.ahead = [] := by
  rw [atEnd, List.isEmpty_iff]

/-- The character at the column of a cursor is the next one. -/
theorem getElem?_text_position (c : Cursor) : c.text[c.position]? = c.ahead.head? := by
  have hposition : c.position = c.behind.reverse.length := by
    rw [c.position_eq, List.length_reverse]
  rw [text, hposition, List.getElem?_append_right (Nat.le_refl _), Nat.sub_self,
    List.head?_eq_getElem?]

/-- Behind the column of a cursor the text is what is ahead. -/
theorem drop_text_position (c : Cursor) : c.text.drop c.position = c.ahead := by
  have hposition : c.position = c.behind.reverse.length := by
    rw [c.position_eq, List.length_reverse]
  rw [text, hposition, List.drop_left]

/-- Up to the column of a cursor the text is what has been passed. -/
theorem take_text_position (c : Cursor) : c.text.take c.position = c.behind.reverse := by
  have hposition : c.position = c.behind.reverse.length := by
    rw [c.position_eq, List.length_reverse]
  rw [text, hposition, List.take_left]

/-- In one text a cursor is further on by as many characters as fewer are ahead of it. -/
theorem position_eq_of_ahead (htext : d.text = c.text) (h : c.ahead = w ++ d.ahead) :
    d.position = c.position + w.length := by
  have hlength := congrArg List.length htext
  rw [length_text, length_text, h, List.length_append] at hlength
  omega

/-- The blanks in front are passed. -/
theorem exists_blank_append (c : Cursor) :
    ∃ w : Text, w.Blank ∧ c.ahead = w ++ c.skipBlanks.ahead ∧
      c.skipBlanks.position = c.position + w.length := by
  have hsplit : c.ahead = leadingBlanks c.ahead ++ c.skipBlanks.ahead := by
    rw [ahead_skipBlanks, leadingBlanks, List.takeWhile_append_dropWhile]
  refine ⟨leadingBlanks c.ahead, ?_, hsplit, position_eq_of_ahead c.text_skipBlanks hsplit⟩
  intro x hx
  exact List.mem_takeWhile_imp (p := fun x => (Symbol.ofChar x).isBlank) hx

/-- Behind the blanks no blank comes next. -/
theorem noBlankFirst_ahead_skipBlanks (c : Cursor) : c.skipBlanks.ahead.NoBlankFirst := by
  rw [ahead_skipBlanks]
  exact Text.firstNot_dropWhile _ _

/-- Nothing but the blanks in front is passed. -/
theorem ahead_skipBlanks_of_append (hw : w.Blank) (hu : u.NoBlankFirst) (h : c.ahead = w ++ u) :
    c.skipBlanks.ahead = u := by
  rw [ahead_skipBlanks, h, Text.dropWhile_append_of_blank hw hu]

/-- Blanks are skipped up to the first character that is none. -/
theorem position_skipBlanks_of_append (hw : w.Blank) (hu : u.NoBlankFirst)
    (h : c.ahead = w ++ u) : c.skipBlanks.position = c.position + w.length := by
  refine position_eq_of_ahead c.text_skipBlanks ?_
  rw [ahead_skipBlanks_of_append hw hu h, h]

theorem forward_zero (c : Cursor) : c.forward 0 = c := by
  apply Cursor.ext
  · rfl
  · rfl

/-- Blanks that have been skipped need not be skipped again. -/
theorem skipBlanks_skipBlanks (c : Cursor) : c.skipBlanks.skipBlanks = c.skipBlanks := by
  have hnone : leadingBlanks c.skipBlanks.ahead = [] :=
    c.noBlankFirst_ahead_skipBlanks.takeWhile_eq_nil
  rw [skipBlanks, hnone]
  exact c.skipBlanks.forward_zero

end Cursor

/-- A reading behind the blanks has no more to skip. -/
theorem Reading.skipBlanks_skipBlanks (r : Reading) : r.skipBlanks.skipBlanks = r.skipBlanks := by
  simp only [Reading.skipBlanks, Cursor.skipBlanks_skipBlanks]

/-! ### Passages -/

namespace Reading

variable {r s q : Reading} {u v : Text} {p : Symbol → Bool} {kind : Lexeme.Kind}

/-- From `r` to `s` the characters `u` are passed. -/
structure Passes (r s : Reading) (u : Text) : Prop where
  /-- Both are places in one text. -/
  text_eq : s.cursor.text = r.cursor.text
  /-- The characters between the two. -/
  ahead_eq : r.cursor.ahead = u ++ s.cursor.ahead

/-- Passing one text and then another is passing both. -/
theorem Passes.trans (h : r.Passes s u) (h' : s.Passes q v) : r.Passes q (u ++ v) where
  text_eq := h'.text_eq.trans h.text_eq
  ahead_eq := by rw [h.ahead_eq, h'.ahead_eq, List.append_assoc]

/-- The column grows by the number of characters passed. -/
theorem Passes.position_eq (h : r.Passes s u) :
    s.cursor.position = r.cursor.position + u.length :=
  Cursor.position_eq_of_ahead h.text_eq h.ahead_eq

/-- The characters passed come behind. -/
theorem Passes.behind_eq (h : r.Passes s u) : s.cursor.behind = u.reverse ++ r.cursor.behind := by
  have htext := h.text_eq
  rw [Cursor.text, Cursor.text, h.ahead_eq, ← List.append_assoc, List.append_cancel_right_eq]
    at htext
  rw [← List.reverse_inj, htext, List.reverse_append, List.reverse_reverse]

/-- What is passed in skipping blanks is blank. -/
theorem exists_passes_skipBlanks (r : Reading) :
    ∃ w : Text, w.Blank ∧ r.Passes r.skipBlanks w := by
  obtain ⟨w, hw, hahead, -⟩ := r.cursor.exists_blank_append
  exact ⟨w, hw, r.cursor.text_skipBlanks, hahead⟩

/-- Moving on passes the characters that come next. -/
theorem passes_forward (r : Reading) (n : Nat) :
    r.Passes (r.forward n) (r.cursor.ahead.take n) where
  text_eq := r.cursor.text_forward n
  ahead_eq := (List.take_append_drop n r.cursor.ahead).symm

/-- Taking a token passes its characters. -/
theorem passes_take (r : Reading) (kind : Lexeme.Kind) (n : Nat) :
    r.Passes (r.take kind n) (r.cursor.ahead.take n) where
  text_eq := Cursor.text_forward _ _
  ahead_eq := (List.take_append_drop n r.cursor.ahead).symm

/-- What is recorded on the way comes behind the tokens so far. -/
theorem tokens_eq_append_of_recorded {ts : List Token} (h : s.recorded = ts.reverse ++ r.recorded) :
    s.tokens = r.tokens ++ ts := by
  rw [tokens, h, List.reverse_append, List.reverse_reverse]
  rfl

/-- What has been recorded since the beginning of a text are its tokens. -/
theorem tokens_eq_of_recorded {t : Text} {ts : List Token}
    (h : s.recorded = ts.reverse ++ (start t).recorded) : s.tokens = ts :=
  tokens_eq_append_of_recorded h

/-- Blanks and one character are passed, and the character is recorded. -/
theorem exists_passes_take_one (kind : Lexeme.Kind) (h : r.skipBlanks.cursor.nextSatisfies p) :
    ∃ w c, Text.Blank w ∧ p (Symbol.ofChar c) ∧
      r.Passes (r.skipBlanks.take kind 1) (w ++ [c]) ∧
      (r.skipBlanks.take kind 1).recorded =
        { value := [c], kind, position := (r.cursor.position + w.length : Nat) } :: r.recorded := by
  obtain ⟨w, hw, hblank⟩ := r.exists_passes_skipBlanks
  obtain ⟨c, t, hahead, hc⟩ := Cursor.nextSatisfies_iff.1 h
  have hpasses := r.skipBlanks.passes_take kind 1
  rw [hahead, List.take_succ_cons, List.take_zero] at hpasses
  refine ⟨w, c, hw, hc, hblank.trans hpasses, ?_⟩
  rw [take]
  dsimp only
  rw [hahead, hblank.position_eq, List.take_succ_cons, List.take_zero]
  rfl

end Reading

end ArithSyntax
