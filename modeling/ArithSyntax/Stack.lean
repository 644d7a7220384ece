/-!
# Stacks

Groups are read by calls within calls, and there is room for so many of them only. A `Stack` is the
room that is left for calls within one another; where it does not hold the calls that the next step
takes, reading is given up.

The calls are those of a recursive descent: one for an expression, one for a term in it. A term is
begun by four more within one another, which look for a parenthesis behind the blanks, try to pass
it, compare the next character and ask for the end of the text (`Stack.callsOfTerm`). A literal that
is no zero is begun by six: for the integer, for its digits, for the first of them, and the last
three of the four (`Stack.callsOfNumeral`). Blanks, operators and closing parentheses take no more
calls than the term before them has taken in the same place. Keeping a journal takes none.
-/

namespace ArithSyntax

/-- The room that is left for calls within one another. -/
inductive Stack where
  /-- There is no end to it. -/
  | unlimited
  /-- There is room for so many calls. -/
  | limited (calls : Nat)
deriving DecidableEq, Repr

namespace Stack

/-- Whether there is room for `n` calls within one another. -/
def holds : Stack → Nat → Bool
  | unlimited, _ => true
  | limited calls, n => n ≤ calls

/-- The room that is left inside `n` calls within one another. -/
def inside : Stack → Nat → Stack
  | unlimited, _ => unlimited
  | limited calls, n => limited (calls - n)

/-- The room of an interpreter that allows 1000 calls, of which ten are around the one that reads a
text or are that one. -/
def standard : Stack := limited 990

/-- The calls within one another at the beginning of a term, the one for the term among them. -/
def callsOfTerm : Nat := 5

/-- The calls within one another at the first digit of a literal that is no zero, the one for the
term among them. -/
def callsOfNumeral : Nat := 7

variable {stack : Stack} {m n : Nat}

/-- There is unlimited room for any number of calls. -/
@[simp] theorem holds_unlimited (n : Nat) : unlimited.holds n = true := rfl

/-- Where no call is made there is room. -/
@[simp] theorem holds_zero (stack : Stack) : stack.holds 0 = true := by
  cases stack with
  | unlimited => rfl
  | limited calls => exact decide_eq_true (Nat.zero_le calls)

/-- Inside calls the room is still unlimited. -/
@[simp] theorem inside_unlimited (n : Nat) : unlimited.inside n = unlimited := rfl

/-- Where no call has been made all of the room is left. -/
@[simp] theorem inside_zero (stack : Stack) : stack.inside 0 = stack := by
  cases stack <;> rfl

/-- Calls inside calls leave the room that all of them together leave. -/
theorem inside_inside (stack : Stack) (m n : Nat) :
    (stack.inside m).inside n = stack.inside (m + n) := by
  cases stack with
  | unlimited => rfl
  | limited calls => exact congrArg limited (Nat.sub_sub calls m n)

/-- There is room for some calls inside others if there is room for all of them. -/
theorem holds_inside (hn : 0 < n) : (stack.inside m).holds n = stack.holds (m + n) := by
  cases stack with
  | unlimited => rfl
  | limited calls =>
    rw [inside, holds, holds, decide_eq_decide]
    omega

/-- Inside calls there is no more room than around them. -/
theorem holds_of_inside (h : (stack.inside m).holds n) : stack.holds n := by
  cases stack with
  | unlimited => rfl
  | limited calls => exact decide_eq_true (Nat.le_trans (of_decide_eq_true h) (Nat.sub_le calls m))

/-- Where there is room for some calls there is room for fewer. -/
theorem holds_of_le (h : stack.holds n) (hmn : m ≤ n) : stack.holds m := by
  cases stack with
  | unlimited => rfl
  | limited calls => exact decide_eq_true (Nat.le_trans hmn (of_decide_eq_true h))

/-- There is room for the greater of two numbers of calls if there is room for each. -/
theorem holds_max : stack.holds (max m n) ↔ stack.holds m ∧ stack.holds n := by
  constructor
  · intro h
    exact ⟨holds_of_le h (Nat.le_max_left m n), holds_of_le h (Nat.le_max_right m n)⟩
  · rintro ⟨hm, hn⟩
    rcases Nat.le_total m n with hle | hle
    · rwa [Nat.max_eq_right hle]
    · rwa [Nat.max_eq_left hle]

end Stack

end ArithSyntax
