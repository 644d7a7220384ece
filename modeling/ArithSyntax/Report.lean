import ArithSyntax.Analysis
/-!
# Reports and journals

A report is the analysis of a text with the verdict in words. Its journal tells what was done, in
order: the text, what was noticed, the verdict. That there was no room to read on is a warning. The
rest is of use only for finding errors, so an observer who asks for anything more severe sees none
of it.
-/

namespace ArithSyntax

/-- How severe a journal entry is. -/
inductive Level where
  /-- Of use for finding errors. -/
  | debug
  /-- Worth knowing. -/
  | info
  /-- Perhaps a mistake. -/
  | warning
  /-- A mistake. -/
  | error
deriving DecidableEq, Repr

/-- The name under which a level is shown. -/
def Level.label : Level → String
  | debug => "DEBUG"
  | info => "INFO"
  | warning => "WARNING"
  | error => "ERROR"

/-- The place of a level in the order of severity. -/
def Level.severity : Level → Nat
  | debug => 0
  | info => 1
  | warning => 2
  | error => 3

/-- A line of a journal. -/
structure Entry where
  /-- How severe it is. -/
  level : Level
  /-- What it says. -/
  message : Text
deriving DecidableEq

namespace Remark

/-- How severe it is that something was noticed. -/
def level : Remark → Level
  | tooDeep _ _ | unconsumed _ => .debug
  | exhausted _ _ => .warning

/-- What a remark says. A group that is too deep stands behind as many parentheses as the limit
says, so both numbers are those of characters. A limit that is never reached may have too many
digits. -/
def message : Remark → Except Decimal.TooLong Text
  | tooDeep limit column =>
    .ok ("nesting deeper than ".toList ++ Decimal.digits limit ++ " at column ".toList ++
      Decimal.digits column)
  | unconsumed rest => .ok ("unconsumed input: ".toList ++ rest.quote)
  | exhausted limit column => do
    let place ← Decimal.write column
    let bound ← Decimal.write limit
    return "recursion limit reached at column ".toList ++ place ++ " (max_depth=".toList ++ bound ++
      ")".toList

/-- The entry about a remark. One that cannot be written is lost, and nobody is told. -/
def entry? (m : Remark) : Option Entry :=
  m.message.toOption.map fun message => { level := m.level, message }

end Remark

/-- The analysis of a text, with the verdict in words. -/
structure Report where
  /-- The text. -/
  text : Text
  /-- Its analysis. -/
  analysis : Analysis
  /-- The verdict in words. -/
  description : Text
deriving DecidableEq

namespace Report

/-- Reports on a text that has been analysed, unless the column of the fault has too many digits. -/
def ofAnalysis (text : Text) (analysis : Analysis) : Except Decimal.TooLong Report := do
  let description ← analysis.verdict.describe
  return { text, analysis, description }

/-- What was done to reach the verdict. -/
def journal (r : Report) : List Entry :=
  { level := .debug, message := "parsing ".toList ++ r.text.quote } ::
    (r.analysis.remark?.bind Remark.entry?).toList ++
      [{ level := .debug
         message := "result for ".toList ++ r.text.quote ++ ": ".toList ++ r.description }]

/-- The part of the journal for an observer who asks for entries of a level or above. -/
def journalFrom (r : Report) (threshold : Level) : List Entry :=
  r.journal.filter fun e => threshold.severity ≤ e.level.severity

/-- An observer who asks for everything sees the whole journal. -/
@[simp] theorem journalFrom_debug (r : Report) : r.journalFrom .debug = r.journal := by
  simp [journalFrom, Level.severity]

end Report

end ArithSyntax
