import ArithSyntax.Text.Basic
/-!
# Complaints

A complaint tells people what is wrong: a summary, perhaps an excerpt of what it is about, and up to
three details, each on a line of its own. A detail that is absent or empty has no line.
-/

namespace ArithSyntax

/-- What is wrong, in words. -/
structure Complaint where
  /-- What is wrong, in one line. -/
  summary : Text
  /-- Lines that show the place. -/
  excerpt : List Text := []
  /-- What was found. -/
  received? : Option Text := none
  /-- What should have been there. -/
  expected? : Option Text := none
  /-- What to do about it. -/
  suggestion? : Option Text := none
deriving DecidableEq

namespace Complaint

/-- The line of a detail under its heading, or no line if there is nothing to tell. -/
def detailLine (heading : String) : Option Text → List Text
  | none => []
  | some [] => []
  | some t => [heading.toList ++ ": ".toList ++ t]

/-- The parts of a complaint, from top to bottom. -/
def lines (c : Complaint) : List Text :=
  ("Error: ".toList ++ c.summary) :: c.excerpt ++ detailLine "Received" c.received? ++
    detailLine "Expected" c.expected? ++ detailLine "Suggestion" c.suggestion?

/-- The complaint as one text, its parts separated by line feeds. -/
def render (c : Complaint) : Text := ['\n'].intercalate c.lines

end Complaint

end ArithSyntax
