import ArithSyntax.Cursor.Basic
import ArithSyntax.Token
import ArithSyntax.Verdict
/-!
# Readings

A reading is a text read up to some place, with the tokens recorded on the way. The steps of reading
an expression take a reading and yield an `Outcome`: a reading that has got further, or a rejection
with the place at which reading stopped.

`unread` counts the characters that are left; it is what shrinks from step to step.
-/

namespace ArithSyntax

/-- A text read up to some place. -/
structure Reading where
  /-- The place. -/
  cursor : Cursor
  /-- The tokens found so far, the latest first. -/
  recorded : List Token := []
deriving DecidableEq

/-- What reading a text brought to notice besides a fault. -/
inductive Remark where
  /-- The group at this column lies deeper than the limit. -/
  | tooDeep (limit column : Nat)
  /-- These characters are left after an expression. -/
  | unconsumed (rest : Text)
  /-- There was no room for the calls that read what comes at this column, where so many groups may
  enclose one another. -/
  | exhausted (limit column : Nat)
deriving DecidableEq, Repr

/-- Why a text is rejected and how far it was read. -/
structure Rejection where
  /-- The fault. -/
  fault : Fault
  /-- The column of the fault. -/
  column : Nat
  /-- The place at which reading stopped. -/
  reading : Reading
  /-- What was noticed besides. -/
  remark? : Option Remark := none
deriving DecidableEq

/-- The result of a step of reading. -/
abbrev Outcome := Except Rejection Reading

namespace Reading

/-- The reading before the first character of a text. -/
def start (t : Text) : Reading where
  cursor := .start t

/-- The tokens found so far, in the order of the text. -/
def tokens (r : Reading) : List Token := r.recorded.reverse

/-- The number of characters still to be read. -/
def unread (r : Reading) : Nat := r.cursor.ahead.length

/-- Passes `n` characters. -/
def forward (r : Reading) (n : Nat) : Reading := { r with cursor := r.cursor.forward n }

/-- Passes the blanks that come next. -/
def skipBlanks (r : Reading) : Reading := { r with cursor := r.cursor.skipBlanks }

/-- Passes `n` characters and records them as a token. -/
def take (r : Reading) (kind : Lexeme.Kind) (n : Nat) : Reading where
  cursor := r.cursor.forward n
  recorded := { value := r.cursor.ahead.take n, kind, position := r.cursor.position } :: r.recorded

/-- Rejects the text for a fault at the place reached. -/
def reject (r : Reading) (fault : Fault) (remark? : Option Remark := none) : Rejection where
  fault
  column := r.cursor.position
  reading := r
  remark?

/-- Gives up at the place reached for want of room, where `limit` groups may enclose one another. It
counts as a missing term. -/
def exhaust (r : Reading) (limit : Nat) : Rejection :=
  r.reject .missingTerm (some (.exhausted limit r.cursor.position))

variable {r : Reading} {kind : Lexeme.Kind} {n : Nat}

@[simp] theorem tokens_start (t : Text) : (start t).tokens = [] := rfl

@[simp] theorem tokens_skipBlanks (r : Reading) : r.skipBlanks.tokens = r.tokens := rfl

/-- What is taken becomes the last token. -/
@[simp] theorem tokens_take (r : Reading) (kind : Lexeme.Kind) (n : Nat) :
    (r.take kind n).tokens = r.tokens ++
      [{ value := r.cursor.ahead.take n, kind, position := r.cursor.position }] := by
  simp [tokens, take]

/-- Behind blanks no more is left to be read. -/
theorem unread_skipBlanks_le (r : Reading) : r.skipBlanks.unread ≤ r.unread := by
  simp [unread, skipBlanks, Cursor.skipBlanks]

/-- What is taken is no longer left to be read. -/
theorem unread_take (r : Reading) (kind : Lexeme.Kind) (n : Nat) :
    (r.take kind n).unread = r.unread - n := by
  simp [unread, take]

/-- Where a character comes next something is left to be read. -/
theorem unread_pos_of_nextSatisfies {p : Symbol → Bool} (h : r.cursor.nextSatisfies p) :
    0 < r.unread :=
  Cursor.length_ahead_pos_of_nextSatisfies h

end Reading

end ArithSyntax
