import ArithSyntax.Text.Printable
/-!
# Quoted texts

A text is quoted by a delimiter at both ends and an escape for every character that cannot stand for
itself: the delimiter, the backslash, and the characters that are not printable. The delimiter is
the single quote, unless the text holds a single quote and no double quote.
-/

namespace ArithSyntax.Text

/-- The character `'`. -/
def singleQuote : Char := '\x27'

/-- The character `"`. -/
def doubleQuote : Char := '\x22'

/-- The delimiter with which a text is quoted. -/
def delimiter (t : Text) : Char :=
  if singleQuote ∈ t ∧ doubleQuote ∉ t then doubleQuote else singleQuote

/-- The code point of a character as `width` or more hexadecimal digits in lower case. -/
def hexCode (width : Nat) (c : Char) : Text := (Nat.toDigits 16 c.toNat).leftpad width '0'

/-- The form of a character inside quotes with the delimiter `q`. -/
def escape (q c : Char) : Text :=
  if c = q ∨ c = '\\' then ['\\', c]
  else if c = '\t' then ['\\', 't']
  else if c = '\n' then ['\\', 'n']
  else if c = '\r' then ['\\', 'r']
  else if isPrintable c then [c]
  else if c.toNat < 0x100 then '\\' :: 'x' :: hexCode 2 c
  else if c.toNat < 0x10000 then '\\' :: 'u' :: hexCode 4 c
  else '\\' :: 'U' :: hexCode 8 c

/-- A text between delimiters, with escapes. -/
def quote (t : Text) : Text :=
  t.delimiter :: (t.flatMap (escape t.delimiter) ++ [t.delimiter])

example : quote ['a', '\t', '\\'] = ['\x27', 'a', '\\', 't', '\\', '\\', '\x27'] := by decide

end ArithSyntax.Text
