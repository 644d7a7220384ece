import ArithSyntax.Descent
/-!
# Analyses

The analysis of a text reads it as one expression with blanks around it. It holds the verdict, the
tokens found, the place at which reading stopped and what was noticed on the way. A rejected text
keeps the tokens found before the fault.

Reading may end for want of room. The text is then rejected where it was given up, as though a term
were missing there, and the remark tells the difference (`Analysis.isExhausted`). Unless a stack is
given, the room is unlimited.
-/

namespace ArithSyntax

/-- What is known of a text after it has been read as an expression. -/
structure Analysis where
  /-- Whether the text is well formed, and if not, what is wrong at which column. -/
  verdict : Verdict
  /-- The tokens found, in the order of the text. -/
  tokens : List Token
  /-- The place at which reading stopped. -/
  cursor : Cursor
  /-- What was noticed besides a fault. -/
  remark? : Option Remark := none
deriving DecidableEq

/-- Reads a text as one expression with blanks around it. -/
def wholeText (b : Blame) (rules : Rules) (t : Text) (stack : Stack := .unlimited) : Outcome :=
  let r := (Reading.start t).skipBlanks
  if r.cursor.atEnd then .error (r.reject .unexpectedEnd)
  else
    match expression b rules 0 r stack with
    | .error e => .error e
    | .ok s =>
      let s := s.skipBlanks
      if s.cursor.atEnd then .ok s
      else .error (s.reject .extraneous (some (.unconsumed s.cursor.ahead)))

namespace Analysis

/-- The analysis that the outcome of reading a whole text amounts to. -/
def ofOutcome : Outcome → Analysis
  | .ok r => {
      verdict := { status := .wellFormed }
      tokens := r.tokens
      cursor := r.cursor }
  | .error e => {
      verdict := { status := .faulty e.fault, column := e.column }
      tokens := e.reading.tokens
      cursor := e.reading.cursor
      remark? := e.remark? }

/-- The analysis of a text. The rejected term of an operator is reported as missing unless `b` says
otherwise. -/
def ofText (rules : Rules) (t : Text) (b : Blame := .operator) (stack : Stack := .unlimited) :
    Analysis :=
  ofOutcome (wholeText b rules t stack)

/-- Whether the text is well formed. -/
def isWellFormed (a : Analysis) : Bool := a.verdict.isWellFormed

/-- Whether reading was given up for want of room. -/
def isExhausted (a : Analysis) : Bool :=
  match a.remark? with
  | some (.exhausted _ _) => true
  | _ => false

end Analysis

end ArithSyntax
