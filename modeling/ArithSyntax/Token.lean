import ArithSyntax.Decimal
import ArithSyntax.Text.Quoted
/-!
# Tokens

A lexeme is a run of characters with the role it plays in an expression, and a token is a lexeme at
a place of a text. Two tokens are the same lexeme when they differ in their places at most;
`Token.distinct` keeps the first token of each lexeme.
-/

namespace ArithSyntax

/-- The role that a run of characters plays in an expression. -/
inductive Lexeme.Kind where
  /-- A binary operator. -/
  | operator
  /-- An integer literal. -/
  | operand
  /-- The parenthesis that begins a group. -/
  | opening
  /-- The parenthesis that ends a group. -/
  | closing
deriving DecidableEq, Repr

/-- A run of characters with its role. -/
structure Lexeme where
  /-- The characters. -/
  value : Text
  /-- Their role. -/
  kind : Lexeme.Kind
deriving DecidableEq

/-- A lexeme at a place of a text. -/
structure Token extends Lexeme where
  /-- The column of the first character. -/
  position : Int := 0
deriving DecidableEq

/-- The name under which a role is shown. -/
def Lexeme.Kind.label : Lexeme.Kind → String
  | operator => "OPERATOR"
  | operand => "OPERAND"
  | opening => "OPENING_SCOPE"
  | closing => "CLOSING_SCOPE"

namespace Token

/-- The token as it is shown to people, unless its position has too many digits. -/
def display (t : Token) : Except Decimal.TooLong Text := do
  let position ← Decimal.write t.position
  return "ExprToken(".toList ++ t.value.quote ++ ", ".toList ++ t.kind.label.toList ++
    ", pos=".toList ++ position ++ ")".toList

/-- The tokens without those whose lexeme has occurred before. -/
def distinct (ts : List Token) : List Token :=
  ts.eraseDupsBy fun a b => a.toLexeme == b.toLexeme

/-- The token `n` columns further on. -/
def shift (t : Token) (n : Int) : Token := { t with position := t.position + n }

/-- A token that is moved is the same lexeme. -/
@[simp] theorem toLexeme_shift (t : Token) (n : Int) : (t.shift n).toLexeme = t.toLexeme := rfl

/-- A token that is moved by nothing stays where it is. -/
@[simp] theorem shift_zero (t : Token) : t.shift 0 = t := by
  rw [shift, Int.add_zero]

@[simp] theorem position_shift (t : Token) (n : Int) : (t.shift n).position = t.position + n := rfl

end Token

end ArithSyntax
