import ArithSyntax.Checker
import Std.Data.HashMap
/-!
# Sessions

A session keeps checkers under names. A name that was never given rules stands for a checker with
the standard ones, and settings that make no rules leave the checker under the name as it was.
-/

namespace ArithSyntax

/-- Checkers under names. -/
structure Session where
  /-- The checkers that were changed since the session began. -/
  checkers : Std.HashMap String Checker := ∅

namespace Session

/-- What a session can be asked to do with the checker under a name. -/
inductive Request where
  /-- Begin anew with the rules for these settings. -/
  | configure (s : Settings)
  /-- Examine a text, with the room that there is. -/
  | check (t : Text) (stack : Stack := .standard)
  /-- Examine a text that should be well formed, with the room that there is. -/
  | demand (t : Text) (stack : Stack := .standard)
  /-- Tell the tokens of the text examined last. -/
  | tokens
  /-- Tell the verdict on the text examined last. -/
  | verdict
deriving DecidableEq

/-- What a session answers to a request. -/
inductive Answer where
  /-- A checker with these rules took the place of the one before. -/
  | configured (r : Rules)
  /-- The settings make no rules. -/
  | refused (e : SettingsError)
  /-- The report on a text. -/
  | checked (r : Except Decimal.TooLong Report)
  /-- The tokens of a well-formed text, or why there are none. -/
  | demanded (r : Except Demand.Error (List Token))
  /-- The tokens of the text examined last. -/
  | tokens (ts : List Token)
  /-- The verdict on the text examined last. -/
  | verdict (v : Verdict)

/-- The checker under a name. -/
def checker (s : Session) (name : String) : Checker :=
  s.checkers.getD name { rules := .standard }

/-- The session with another checker under a name. -/
def put (s : Session) (name : String) (c : Checker) : Session where
  checkers := s.checkers.insert name c

/-- Carries out a request on the checker under a name. -/
def handle (s : Session) (name : String) : Request → Session × Answer
  | .configure settings =>
    match Rules.ofSettings settings with
    | .ok rules => (s.put name { rules }, .configured rules)
    | .error e => (s, .refused e)
  | .check t stack =>
    let (c, report) := (s.checker name).check t stack
    (s.put name c, .checked report)
  | .demand t stack =>
    let (c, tokens) := (s.checker name).demand t stack
    (s.put name c, .demanded tokens)
  | .tokens => (s, .tokens (s.checker name).tokens)
  | .verdict => (s, .verdict (s.checker name).verdict)

/-- The answers to requests carried out in turn. -/
def run (s : Session) : List (String × Request) → List Answer
  | [] => []
  | (name, q) :: qs => (s.handle name q).2 :: (s.handle name q).1.run qs

/-- A checker that nobody has made has the standard rules and has read nothing. -/
@[simp] theorem checker_empty (name : String) :
    ({} : Session).checker name = { rules := .standard } := by
  simp [checker]

/-- The checker under a name is the one put there last. -/
@[simp] theorem checker_put_self (s : Session) (name : String) (c : Checker) :
    (s.put name c).checker name = c := by
  simp [checker, put]

/-- A checker that is put under one name leaves those under other names as they are. -/
theorem checker_put_of_ne (s : Session) (c : Checker) {name other : String} (h : name ≠ other) :
    (s.put name c).checker other = s.checker other := by
  simp [checker, put, Std.HashMap.getD_insert, h]

end Session

end ArithSyntax
