import ArithSyntax.Decimal
import ArithSyntax.Complaint
/-!
# Rules

Settings are what a user asks for: the range of the integer literals and the limit on the nesting of
groups. Rules are settings that make sense. `Rules.ofSettings` turns the first into the second, and
a `SettingsError` says why it cannot; the checks are made in the order of its constructors.
-/

namespace ArithSyntax

/-- The range of literals and the nesting limit as they are asked for. -/
structure Settings where
  /-- The least literal. -/
  least : Int := -2147483648
  /-- The greatest literal. -/
  greatest : Int := 2147483647
  /-- How many groups may enclose one another. -/
  maxDepth : Int := 200
deriving DecidableEq, Repr

/-- A range of literals that is not empty and a nesting limit that allows groups. -/
structure Rules where
  /-- The least literal. -/
  least : Int
  /-- The greatest literal. -/
  greatest : Int
  /-- How many groups may enclose one another. -/
  maxDepth : Nat
  /-- The number of digits of the widest bound. -/
  width : Nat := (Decimal.digits (max least.natAbs greatest.natAbs)).length
  /-- Some integer is in range. -/
  least_le_greatest : least ≤ greatest
  /-- A group is allowed. -/
  maxDepth_pos : 0 < maxDepth
  /-- The bounds can be written. -/
  bounds_lt_ceiling : max least.natAbs greatest.natAbs < Decimal.ceiling
  /-- No bound has more digits than the widest. -/
  width_eq : width = (Decimal.digits (max least.natAbs greatest.natAbs)).length := by rfl
deriving DecidableEq

/-- Why settings make no rules. -/
inductive SettingsError where
  /-- The range of literals is empty. -/
  | emptyRange (least greatest : Int)
  /-- The nesting limit allows no group. -/
  | noNesting (maxDepth : Int)
  /-- A bound has too many digits. -/
  | boundTooLong (e : Decimal.TooLong)
deriving DecidableEq

/-- The complaint about settings that make no rules, unless a number in it has too many digits. -/
def SettingsError.complaint : SettingsError → Except Decimal.TooLong Complaint
  | emptyRange least greatest => do
    let lo ← Decimal.write least
    let hi ← Decimal.write greatest
    return {
      summary := "Invalid integer range".toList
      received? := some ("required_int_min=".toList ++ lo ++ ", required_int_max=".toList ++ hi)
      expected? := some "required_int_min <= required_int_max".toList }
  | noNesting maxDepth => do
    let limit ← Decimal.write maxDepth
    return {
      summary := "Invalid nesting depth limit".toList
      received? := some ("max_depth=".toList ++ limit)
      expected? := some "max_depth >= 1".toList }
  | boundTooLong e => .error e

namespace Rules

/-- The rules for given settings. -/
def ofSettings (s : Settings) : Except SettingsError Rules :=
  if hrange : s.least ≤ s.greatest then
    if hdepth : 0 < s.maxDepth then
      let bound := max s.least.natAbs s.greatest.natAbs
      if hbound : bound < Decimal.ceiling then
        .ok {
          least := s.least
          greatest := s.greatest
          maxDepth := s.maxDepth.toNat
          least_le_greatest := hrange
          maxDepth_pos := by omega
          bounds_lt_ceiling := hbound }
      else .error (.boundTooLong ⟨bound⟩)
    else .error (.noNesting s.maxDepth)
  else .error (.emptyRange s.least s.greatest)

/-- The rules for the settings that nobody changed: integers of 32 bits and 200 groups. -/
def standard : Rules where
  least := -2147483648
  greatest := 2147483647
  maxDepth := 200
  least_le_greatest := by decide
  maxDepth_pos := by decide
  bounds_lt_ceiling := by decide +kernel

instance : Inhabited Rules := ⟨standard⟩

end Rules

end ArithSyntax
