/-!
# Texts

A text is a list of characters and a column is an index into that list, so every length, column
and position of this library counts characters. A character is a Unicode scalar value: a text that
holds one half of a surrogate pair without the other, as a sequence of code points may, is not among
those considered. To a reader of expressions it would be one more foreign character.

Slices take signed bounds: a negative bound counts from the end of the text, and a bound that falls
outside the text is brought to its nearest end. For bounds that are not negative a slice is a `take`
followed by a `drop` (`slice_natCast`).
-/

namespace ArithSyntax

/-- A sequence of characters. -/
abbrev Text := List Char

namespace Text

/-- The index that a signed bound stands for. -/
def resolve (t : Text) (i : Int) : Nat :=
  if 0 ≤ i then min i.toNat t.length else (i + t.length).toNat

/-- The characters from the bound `start` up to, and without, the bound `stop`. -/
def slice (t : Text) (start stop : Int) : Text :=
  (t.take (t.resolve stop)).drop (t.resolve start)

/-- A bound that is not negative stands for itself, or for the end of the text. -/
@[simp] theorem resolve_natCast (t : Text) (n : Nat) : t.resolve n = min n t.length := by
  simp [resolve]

/-- Between bounds that are not negative a slice is what one bound drops of what the other
takes. -/
theorem slice_natCast (t : Text) (m n : Nat) : t.slice m n = (t.take n).drop m := by
  have htake : t.take (min n t.length) = t.take n := by
    rcases Nat.le_total n t.length with h | h
    · rw [Nat.min_eq_left h]
    · rw [Nat.min_eq_right h, List.take_length, List.take_of_length_le h]
  simp only [slice, resolve_natCast, htake]
  rcases Nat.le_total m t.length with h | h
  · rw [Nat.min_eq_left h]
  · rw [Nat.min_eq_right h, List.drop_of_length_le, List.drop_of_length_le]
    · simp only [List.length_take]; omega
    · simp only [List.length_take]; omega

example : Text.slice ['a', 'b', 'c', 'd'] (-2) 4 = ['c', 'd'] := by decide

end Text

end ArithSyntax
