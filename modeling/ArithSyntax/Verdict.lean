import ArithSyntax.Decimal
/-!
# Verdicts

The outcome of examining a text: it is a well-formed expression, or one of six faults was found at
a column of it.
-/

namespace ArithSyntax

/-- Why a text is not a well-formed expression. -/
inductive Fault where
  /-- No term stands where one is needed. -/
  | missingTerm
  /-- A group is not closed. -/
  | missingClosing
  /-- An integer literal is outside the range of the rules. -/
  | outOfRange
  /-- A zero is followed by a digit, or a sign is not followed by a nonzero digit. -/
  | illFormedInteger
  /-- The text holds nothing but blanks. -/
  | unexpectedEnd
  /-- A complete expression is followed by something else. -/
  | extraneous
deriving DecidableEq, Repr

/-- Whether a text is well formed. -/
inductive Status where
  /-- The text is a well-formed expression. -/
  | wellFormed
  /-- The text has a fault. -/
  | faulty (f : Fault)
deriving DecidableEq, Repr

/-- The outcome of examining a text. -/
structure Verdict where
  /-- Whether the text is well formed. -/
  status : Status
  /-- The column where the fault was found; it has no meaning for a well-formed text. -/
  column : Int := 0
deriving DecidableEq, Repr

/-- The name under which a fault is shown. -/
def Fault.label : Fault → String
  | missingTerm => "MISSING_TERM"
  | missingClosing => "MISSING_CLOSING_PARENTHESIS"
  | outOfRange => "INTEGER_OUT_OF_RANGE"
  | illFormedInteger => "ILL_FORMED_INTEGER"
  | unexpectedEnd => "UNEXPECTED_END_OF_EXPRESSION"
  | extraneous => "EXTRANEOUS_SYMBOL"

/-- A fault in words, without its place. -/
def Fault.description : Fault → String
  | missingTerm => "Missing term"
  | missingClosing => "Missing closing parenthesis"
  | outOfRange => "Integer constant out of range"
  | illFormedInteger => "Ill formed integer"
  | unexpectedEnd => "Unexpected end of expression"
  | extraneous => "Extraneous symbol after valid expression"

/-- The name under which a status is shown. -/
def Status.label : Status → String
  | wellFormed => "OK"
  | faulty f => f.label

namespace Verdict

/-- Whether the text is well formed. -/
def isWellFormed (v : Verdict) : Bool := v.status == .wellFormed

/-- The verdict in one line. A fault comes with its column, which may have too many digits. -/
def describe (v : Verdict) : Except Decimal.TooLong Text :=
  match v.status with
  | .wellFormed => .ok "Expression is well formed".toList
  | .faulty f => do
    let column ← Decimal.write v.column
    return f.description.toList ++ " at column ".toList ++ column

/-- The verdict with both of its parts, unless its column has too many digits. -/
def display (v : Verdict) : Except Decimal.TooLong Text := do
  let column ← Decimal.write v.column
  return "ExprParserResult(type=<ExprResultType.".toList ++ v.status.label.toList ++ ": '".toList ++
    v.status.label.toList ++ "'>, column=".toList ++ column ++ ")".toList

/-- A fault whose column can be written is described with it. -/
theorem describe_of_lt {v : Verdict} {f : Fault} (hs : v.status = .faulty f)
    (hc : v.column.natAbs < Decimal.ceiling) :
    v.describe =
      .ok (f.description.toList ++ " at column ".toList ++ Decimal.text v.column) := by
  simp only [describe, hs, Decimal.write_of_lt hc]
  rfl

end Verdict

end ArithSyntax
