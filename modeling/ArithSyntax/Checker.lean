import ArithSyntax.Failure
import ArithSyntax.Report
/-!
# Checkers

A checker has rules and remembers the verdict and the tokens of the text that it examined last.
`check` reports on a text whatever its verdict; `demand` insists on a well-formed one and yields its
tokens. Both leave the same checker behind.

A text is read on the standard stack, unless another one is given.
-/

namespace ArithSyntax

/-- Rules with the verdict and the tokens of the text examined last. -/
structure Checker where
  /-- The rules by which texts are examined. -/
  rules : Rules
  /-- The verdict on the text examined last. -/
  verdict : Verdict := { status := .wellFormed }
  /-- The tokens of the text examined last. -/
  tokens : List Token := []
deriving DecidableEq

/-- Why a text does not meet the demand to be well formed. -/
inductive Demand.Error where
  /-- The text has a fault. -/
  | failed (f : Failure)
  /-- The verdict cannot be put into words. -/
  | tooLong (e : Decimal.TooLong)
deriving DecidableEq

namespace Checker

/-- The checker with an analysis as the last one made. -/
def remember (c : Checker) (a : Analysis) : Checker where
  rules := c.rules
  verdict := a.verdict
  tokens := a.tokens

/-- The checker after it has examined a text. -/
def after (c : Checker) (t : Text) (stack : Stack := .standard) : Checker :=
  c.remember (.ofText c.rules t .operator stack)

/-- Examines a text and reports on it. -/
def check (c : Checker) (t : Text) (stack : Stack := .standard) :
    Checker × Except Decimal.TooLong Report :=
  let analysis := Analysis.ofText c.rules t .operator stack
  (c.remember analysis, Report.ofAnalysis t analysis)

/-- Examines a text that should be well formed and yields its tokens. -/
def demand (c : Checker) (t : Text) (stack : Stack := .standard) :
    Checker × Except Demand.Error (List Token) :=
  let (d, report) := c.check t stack
  match report with
  | .error e => (d, .error (.tooLong e))
  | .ok report =>
    match Failure.ofVerdict report.analysis.verdict t with
    | .error .noFault => (d, .ok d.tokens)
    | .ok f => (d, .error (.failed f))

/-- A checker keeps its rules whatever it reads. -/
@[simp] theorem rules_after (c : Checker) (t : Text) (stack : Stack) :
    (c.after t stack).rules = c.rules := rfl

/-- A check leaves the checker that has read the text. -/
@[simp] theorem fst_check (c : Checker) (t : Text) (stack : Stack) :
    (c.check t stack).1 = c.after t stack := rfl

/-- A demand leaves the same checker as a check, whether it is met or fails. -/
@[simp] theorem fst_demand (c : Checker) (t : Text) (stack : Stack) :
    (c.demand t stack).1 = c.after t stack := by
  unfold demand
  dsimp only
  split
  · rfl
  · split <;> rfl

end Checker

end ArithSyntax
