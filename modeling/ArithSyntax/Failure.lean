import ArithSyntax.Complaint
import ArithSyntax.Token
import ArithSyntax.Verdict
/-!
# Failures

A failure is a fault at a column of an expression, told to people as a complaint: the expression
with a caret under the column, the characters found there, and what to do. Columns are signed and
may lie outside the expression, which may be empty; slices say what is shown then.
-/

namespace ArithSyntax

/-- What should stand at the place of a fault. -/
def Fault.expected : Fault → String
  | missingTerm => "An integer or a parenthesized expression"
  | missingClosing => "Closing parenthesis )"
  | outOfRange => "An integer within the supported range"
  | illFormedInteger => "A nonzero leading digit"
  | unexpectedEnd => "An expression"
  | extraneous => "End of expression"

/-- What to do about a fault. -/
def Fault.suggestion : Fault → String
  | missingTerm =>
    "Add a term after the operator, fill in the empty parentheses, or reduce the nesting"
  | missingClosing => "Close every ( with a matching )"
  | outOfRange => "Use a smaller integer constant"
  | illFormedInteger => "Remove leading zeros and write the digits directly after a unary minus"
  | unexpectedEnd => "Provide a non-empty expression"
  | extraneous => "Remove the characters after the expression, or join them with an operator"

/-- A fault at a column of an expression. -/
structure Failure where
  /-- The fault. -/
  fault : Fault
  /-- Its column. -/
  column : Int
  /-- The expression. -/
  expression : Text := []
deriving DecidableEq

/-- Why a verdict on an expression is no failure. -/
inductive Failure.Refusal where
  /-- The expression is well formed. -/
  | noFault
deriving DecidableEq

/-- The refusal in words. -/
def Failure.Refusal.message : Failure.Refusal → String
  | noFault => "Cannot build a parse error from a successful result"

namespace Failure

/-- The failure on which a verdict on an expression rests. -/
def ofVerdict (v : Verdict) (expression : Text := []) : Except Refusal Failure :=
  match v.status with
  | .wellFormed => .error .noFault
  | .faulty fault => .ok { fault, column := v.column, expression }

/-- The verdict that the failure stands for. -/
def verdict (f : Failure) : Verdict where
  status := .faulty f.fault
  column := f.column

/-- The most characters of the expression that are quoted. -/
def quotedLength : Int := 10

/-- What was found at the column: the characters there, quoted, or the end of the expression. There
is nothing to tell of an empty expression, unless its column is negative. -/
def received? (f : Failure) : Option Text :=
  if f.column < f.expression.length then
    some (f.expression.slice f.column (f.column + quotedLength)).quote
  else if f.expression.isEmpty then none
  else some "End of expression".toList

/-- Blanks as wide as the part of the expression before the column. Tabs stay tabs, so that the
caret after them stands under the column. -/
def pointer (f : Failure) : Text :=
  (f.expression.slice 0 f.column).map fun c => if c = '\t' then '\t' else ' '

/-- The expression and below it a caret under the column, both indented. -/
def excerpt (f : Failure) : List Text :=
  if f.expression.isEmpty then []
  else [' ' :: ' ' :: f.expression, ' ' :: ' ' :: (f.pointer ++ ['^'])]

/-- The failure as a complaint, unless its column has too many digits. -/
def complaint (f : Failure) : Except Decimal.TooLong Complaint := do
  let summary ← f.verdict.describe
  return {
    summary
    excerpt := f.excerpt
    received? := f.received?
    expected? := some f.fault.expected.toList
    suggestion? := some f.fault.suggestion.toList }

/-- A failure stands for the verdict on which it rests. -/
@[simp] theorem verdict_ofVerdict {v : Verdict} {t : Text} {f : Failure}
    (h : ofVerdict v t = .ok f) : f.verdict = v := by
  unfold ofVerdict at h
  split at h
  · contradiction
  · rename_i hs
    cases h
    cases v
    simp_all [verdict]

/-- The blanks before a caret are as many as the characters before the column, if the text has so
many. -/
@[simp] theorem length_pointer_natCast (fault : Fault) (n : Nat) (t : Text) :
    (pointer ⟨fault, n, t⟩).length = min n t.length := by
  have hslice : t.slice 0 n = (t.take n).drop 0 := Text.slice_natCast t 0 n
  simp [pointer, hslice]

end Failure

end ArithSyntax
