import ArithSyntax.Literal
import ArithSyntax.Token
/-!
# The grammar of expressions

Which texts are terms and expressions, said without reading them from left to right:

* a term is a literal, or an expression in parentheses with blanks before the closing one;
* an expression is a term, or an expression, an operator and a term; blanks may stand before each of
  the parts;
* a sentence is an expression with blanks after it.

`Derives` relates a text to the tokens it consists of. The depth is the number of groups around the
text and the start is the column at which the text begins. Rules, where there are any, limit the
values of the literals and the depth of the groups; the grammar without rules has the same phrases
and no limits.
-/

namespace ArithSyntax

/-- A text is blank if it consists of spaces and tabs. -/
def Text.Blank (t : Text) : Prop := ∀ c ∈ t, (Symbol.ofChar c).isBlank

instance (t : Text) : Decidable t.Blank := List.decidableBAll (fun c => (Symbol.ofChar c).isBlank) t

/-- A text is a natural numeral if it begins with a nonzero digit and consists of digits. -/
def Text.NaturalNumeral : Text → Prop
  | [] => False
  | c :: t => Symbol.ofChar c = .nonzeroDigit ∧ ∀ d ∈ t, Literal.isDigit d

/-- A text is a literal if it is `0` or a natural numeral, with or without a sign before it. -/
inductive Text.IsLiteral : Text → Prop
  | zero : Text.IsLiteral ['0']
  | positive {t : Text} (h : t.NaturalNumeral) : Text.IsLiteral t
  | negative {t : Text} (h : t.NaturalNumeral) : Text.IsLiteral ('-' :: t)

/-- The kinds of phrase that the grammar knows. -/
inductive Phrase where
  /-- What stands on either side of an operator. -/
  | term
  /-- Terms with operators between them. -/
  | expression
deriving DecidableEq, Repr

/-- The integers that the rules admit as operands. -/
def Rules.InRange (rules : Rules) (i : Int) : Prop := rules.least ≤ i ∧ i ≤ rules.greatest

/-- A text is a phrase with the given tokens when it begins at `start` and `depth` groups enclose
it. The limits are those of the rules, if there are any. -/
inductive Derives (limits : Option Rules) :
    Phrase → (depth start : Nat) → Text → List Token → Prop
  | literal {depth start : Nat} {l : Text} (hl : l.IsLiteral)
      (hrange : ∀ rules ∈ limits, rules.InRange (Literal.value l)) :
      Derives limits .term depth start l [{ value := l, kind := .operand, position := start }]
  | group {depth start : Nat} {e w : Text} {ts : List Token}
      (hdepth : ∀ rules ∈ limits, depth < rules.maxDepth)
      (he : Derives limits .expression (depth + 1) (start + 1) e ts) (hw : w.Blank) :
      Derives limits .term depth start ('(' :: (e ++ w ++ [')']))
        ({ value := ['('], kind := .opening, position := start } :: ts ++
          [{ value := [')'], kind := .closing, position := (start + 1 + (e ++ w).length : Nat) }])
  | single {depth start : Nat} {t w : Text} {ts : List Token} (hw : w.Blank)
      (ht : Derives limits .term depth (start + w.length) t ts) :
      Derives limits .expression depth start (w ++ t) ts
  | chain {depth start : Nat} {e w v t : Text} {c : Char} {ts us : List Token}
      (he : Derives limits .expression depth start e ts) (hw : w.Blank)
      (hc : (Symbol.ofChar c).isOperator) (hv : v.Blank)
      (ht : Derives limits .term depth (start + (e ++ w).length + 1 + v.length) t us) :
      Derives limits .expression depth start (e ++ w ++ c :: (v ++ t))
        (ts ++ { value := [c], kind := .operator, position := (start + (e ++ w).length : Nat) } ::
          us)

/-- A text is a sentence with the given tokens if it is an expression with blanks after it. -/
def Sentence (limits : Option Rules) (t : Text) (ts : List Token) : Prop :=
  ∃ e w, t = e ++ w ∧ w.Blank ∧ Derives limits .expression 0 0 e ts

variable {limits : Option Rules} {p : Phrase} {depth start : Nat} {t : Text} {ts : List Token}

/-- A phrase has a token at least. -/
theorem Derives.tokens_ne_nil (h : Derives limits p depth start t ts) : ts ≠ [] := by
  induction h with
  | literal => simp
  | group => simp
  | single _ _ ih => exact ih
  | chain => simp

end ArithSyntax
