import ArithSyntax.Symbol
/-!
# Cursors

A cursor is a place in a text. It holds the characters already passed, the nearest first, and those
still ahead, so that looking and moving are local; the number of characters passed is kept beside
them. Every move is a `forward`, which never changes the text and never leaves it
(`text_forward`, `position_le_length_text`).
-/

namespace ArithSyntax

/-- A place in a text. -/
structure Cursor where
  /-- The characters passed, the nearest first. -/
  behind : Text
  /-- The characters still to be read. -/
  ahead : Text
  /-- The column of the next character. -/
  position : Nat := behind.length
  /-- The column is the number of characters passed. -/
  position_eq : position = behind.length := by rfl
deriving DecidableEq

namespace Cursor

/-- The cursor before the first character of a text. -/
def start (t : Text) : Cursor where
  behind := []
  ahead := t

/-- The text in which the cursor stands. -/
def text (c : Cursor) : Text := c.behind.reverse ++ c.ahead

/-- Whether the whole text has been passed. -/
def atEnd (c : Cursor) : Bool := c.ahead.isEmpty

/-- The class of the next character, or `endOfText` at the end. -/
def lookahead (c : Cursor) : Symbol :=
  match c.ahead with
  | [] => .endOfText
  | x :: _ => .ofChar x

/-- Whether there is a next character and its class satisfies `p`. -/
def nextSatisfies (c : Cursor) (p : Symbol → Bool) : Bool :=
  match c.ahead with
  | [] => false
  | x :: _ => p (.ofChar x)

/-- Whether there is a next character and it is of the class `s`. -/
def nextIs (c : Cursor) (s : Symbol) : Bool := c.nextSatisfies (· == s)

/-- Passes `n` characters, or all that are left if there are fewer. -/
def forward (c : Cursor) (n : Nat) : Cursor where
  behind := (c.ahead.take n).reverse ++ c.behind
  ahead := c.ahead.drop n
  position := c.position + (c.ahead.take n).length
  position_eq := by simp only [c.position_eq, List.length_append, List.length_reverse]; omega

/-- Passes the next character, if there is one. -/
def advance (c : Cursor) : Cursor := c.forward 1

/-- Passes the next character if it is of the class `s`, and stays otherwise. -/
def pass (c : Cursor) (s : Symbol) : Cursor :=
  if c.nextIs s then c.advance else c

/-- The blanks that a text begins with. -/
def leadingBlanks (t : Text) : Text := t.takeWhile fun x => (Symbol.ofChar x).isBlank

/-- Passes the blanks up to the next character that is none. -/
def skipBlanks (c : Cursor) : Cursor := c.forward (leadingBlanks c.ahead).length

/-- The text between a signed bound and the cursor. -/
def since (c : Cursor) (start : Int) : Text := c.text.slice start c.position

variable {c d : Cursor} {n : Nat}

/-- Two cursors with the same characters on both sides are equal. -/
@[ext] theorem ext (hb : c.behind = d.behind) (ha : c.ahead = d.ahead) : c = d := by
  cases c with | mk b a p hp => cases d with | mk b' a' p' hp' =>
  simp only at hb ha
  subst hb ha hp hp'
  rfl

/-! ### What a move does to the text and to the column -/

/-- A cursor is in the text for which it was made. -/
@[simp] theorem text_start (t : Text) : (start t).text = t := rfl

@[simp] theorem position_start (t : Text) : (start t).position = 0 := rfl

/-- A cursor that is moved stays in its text. -/
@[simp] theorem text_forward (c : Cursor) (n : Nat) : (c.forward n).text = c.text := by
  simp [text, forward]

/-- What is passed is no longer ahead. -/
@[simp] theorem ahead_forward (c : Cursor) (n : Nat) : (c.forward n).ahead = c.ahead.drop n := rfl

/-- A cursor goes on as far as it is told, but not beyond the end. -/
theorem position_forward (c : Cursor) (n : Nat) :
    (c.forward n).position = c.position + min n c.ahead.length := by
  simp [forward]

@[simp] theorem text_advance (c : Cursor) : c.advance.text = c.text := c.text_forward 1

/-- Skipping blanks, the cursor stays in its text. -/
@[simp] theorem text_skipBlanks (c : Cursor) : c.skipBlanks.text = c.text := c.text_forward _

@[simp] theorem text_pass (c : Cursor) (s : Symbol) : (c.pass s).text = c.text := by
  unfold pass
  split
  · exact c.text_advance
  · rfl

/-- Skipping blanks leaves what comes after the leading ones. -/
theorem ahead_skipBlanks (c : Cursor) :
    c.skipBlanks.ahead = c.ahead.dropWhile fun x => (Symbol.ofChar x).isBlank := by
  unfold skipBlanks leadingBlanks
  rw [ahead_forward]
  conv =>
    lhs
    arg 2
    rw [← List.takeWhile_append_dropWhile (l := c.ahead)
      (p := fun x => (Symbol.ofChar x).isBlank)]
  exact List.drop_left

/-- The characters of the text are those passed and those ahead. -/
theorem length_text (c : Cursor) : c.text.length = c.position + c.ahead.length := by
  simp [text, c.position_eq]

/-- A cursor is never beyond the end of its text. -/
theorem position_le_length_text (c : Cursor) : c.position ≤ c.text.length := by
  rw [c.length_text]
  omega

/-- A cursor is at the end if it has passed every character. -/
theorem atEnd_iff : c.atEnd ↔ c.position = c.text.length := by
  rw [c.length_text, atEnd, List.isEmpty_iff_length_eq_zero]
  omega

/-- Where a character comes next there is one ahead. -/
theorem length_ahead_pos_of_nextSatisfies {p : Symbol → Bool} (h : c.nextSatisfies p) :
    0 < c.ahead.length := by
  unfold nextSatisfies at h
  split at h
  · contradiction
  · simp [*]

end Cursor

end ArithSyntax
