import ArithSyntax.Cursor.Basic
/-!
# Commands to a cursor

The questions and moves that a cursor takes one at a time, and what it replies. `Cursor.step`
carries out one command and `Cursor.run` a list of them.
-/

namespace ArithSyntax.Cursor

/-- A question to a cursor or a move of it. -/
inductive Command where
  /-- Begin at the first character of another text. -/
  | restart (t : Text)
  /-- Is the next character of this class? -/
  | nextIs (s : Symbol)
  /-- Pass the next character if it is of this class. -/
  | pass (s : Symbol)
  /-- Skip blanks, then pass the next character if it is of this class. -/
  | passAfterBlanks (s : Symbol)
  /-- Pass the next character. -/
  | advance
  /-- Pass the blanks that come next. -/
  | skipBlanks
  /-- Has the whole text been passed? -/
  | atEnd
  /-- Of which class is the next character? -/
  | lookahead
  /-- Which characters lie between this bound and the cursor? -/
  | since (start : Int)
  /-- Which characters are left? -/
  | ahead
  /-- In which text does the cursor stand? -/
  | text
  /-- At which column does the cursor stand? -/
  | position
deriving DecidableEq

/-- What a cursor replies to a command. -/
inductive Reply where
  /-- The command asked nothing. -/
  | done
  /-- Whether the question has the answer yes, or the move was made. -/
  | flag (b : Bool)
  /-- A class of characters. -/
  | symbol (s : Symbol)
  /-- Some characters of the text. -/
  | text (t : Text)
  /-- A column of the text. -/
  | column (n : Nat)
deriving DecidableEq

/-- Carries out one command. -/
def step (c : Cursor) : Command → Cursor × Reply
  | .restart t => (start t, .done)
  | .nextIs s => (c, .flag (c.nextIs s))
  | .pass s => (c.pass s, .flag (c.nextIs s))
  | .passAfterBlanks s => (c.skipBlanks.pass s, .flag (c.skipBlanks.nextIs s))
  | .advance => (c.advance, .done)
  | .skipBlanks => (c.skipBlanks, .done)
  | .atEnd => (c, .flag c.atEnd)
  | .lookahead => (c, .symbol c.lookahead)
  | .since i => (c, .text (c.since i))
  | .ahead => (c, .text c.ahead)
  | .text => (c, .text c.text)
  | .position => (c, .column c.position)

/-- The cursor and its reply after each of the commands, carried out in turn. -/
def run (c : Cursor) : List Command → List (Cursor × Reply)
  | [] => []
  | m :: ms => c.step m :: (c.step m).1.run ms

/-- Every command has an answer. -/
@[simp] theorem length_run (c : Cursor) (ms : List Command) : (c.run ms).length = ms.length := by
  induction ms generalizing c with
  | nil => rfl
  | cons m ms ih => simp [run, ih]

end ArithSyntax.Cursor
