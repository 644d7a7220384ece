import ArithSyntax.Descent
import ArithSyntax.Proofs.Command
import ArithSyntax.Proofs.Literal

/-!
# The longest literal

A literal can be read character by character: a zero has to stand alone; otherwise a sign may come,
then a nonzero digit has to, and the digits after it are passed as long as there are any.
`Reading.integer` does this with the moves of a cursor. It stops where `Literal.scan` says
(`Reading.integer_eq_scanned`). Reading a literal is to do this first and then to look at the value
of what has been passed (`Reading.literal_eq_bind`).

So it is enough to know when a scan succeeds (`Literal.exists_scan_eq_complete_iff`) and where one
fails (`Literal.exists_of_scan_eq_malformed`). A literal with no digit behind it is the longest one
in front of the text, since every character of a longer one would be a digit there
(`Literal.prefix_of_isLiteral`).
-/

namespace ArithSyntax

/-! ### Scans -/

/-- A zero that no digit follows comes first, or a nonzero digit that may have a sign before it. -/
def Text.LiteralFirst (t : Text) : Prop :=
  (∃ u : Text, t = '0' :: u ∧ u.NoDigitFirst) ∨
    ∃ sign d u, (sign = [] ∨ sign = ['-']) ∧ t = sign ++ d :: u ∧ d.isDigit ∧ d ≠ '0'

namespace Literal

variable {l l' t rest : Text} {c : Char} {sign offset passed : Nat}

/-- What follows the first characters of a literal in it is a digit. -/
theorem isDigit_of_isLiteral_append (h : (l ++ c :: t).IsLiteral) (hl : l ≠ []) : isDigit c := by
  generalize hall : l ++ c :: t = u at h
  have hmem : c ∈ u.tail := by
    obtain ⟨d, l, rfl⟩ := List.exists_cons_of_ne_nil hl
    rw [← hall]
    exact List.mem_append_cons_self
  cases h with
  | zero => cases hmem
  | positive h => exact isDigit_of_mem_naturalNumeral h c (List.mem_of_mem_tail hmem)
  | negative h => exact isDigit_of_mem_naturalNumeral h c hmem

/-- A literal that no digit follows is the longest one with which the text begins. -/
theorem prefix_of_isLiteral (hl : l.IsLiteral) (hrest : rest.NoDigitFirst)
    (hl' : l'.IsLiteral) (h : l' <+: l ++ rest) : l' <+: l := by
  rcases List.prefix_or_prefix_of_prefix h (List.prefix_append l rest) with hprefix | ⟨u, rfl⟩
  · exact hprefix
  · cases u with
    | nil => exact (List.append_nil l).symm ▸ List.prefix_rfl
    | cons c u =>
      obtain ⟨d, t, rfl, -⟩ := exists_cons_of_isLiteral hl
      obtain ⟨v, hv⟩ := (List.prefix_append_right_inj _).1 h
      have hdigit := isDigit_of_isLiteral_append hl' (List.cons_ne_nil d t)
      rw [← hv] at hrest
      rw [Text.firstNot_cons.1 hrest] at hdigit
      contradiction

/-- A scan succeeds exactly where a literal comes first. -/
theorem exists_scan_eq_complete_iff : (∃ n, scan t = .complete n) ↔ t.LiteralFirst := by
  constructor
  · rintro ⟨n, hn⟩
    obtain ⟨l, rest, rfl, hl, hrest, -⟩ := exists_of_scan_eq_complete hn
    have hnatural {l : Text} (h : l.NaturalNumeral) :
        ∃ d u, l = d :: u ∧ d.isDigit ∧ d ≠ '0' := by
      cases l with
      | nil => exact h.elim
      | cons d u => exact ⟨d, u, rfl, Symbol.ofChar_eq_nonzeroDigit_iff.1 h.1⟩
    cases hl with
    | zero => exact Or.inl ⟨rest, rfl, hrest⟩
    | positive h =>
      obtain ⟨d, u, rfl, hd⟩ := hnatural h
      exact Or.inr ⟨[], d, u ++ rest, Or.inl rfl, rfl, hd⟩
    | negative h =>
      obtain ⟨d, u, rfl, hd⟩ := hnatural h
      exact Or.inr ⟨['-'], d, u ++ rest, Or.inr rfl, rfl, hd⟩
  · rintro (⟨u, rfl, hu⟩ | ⟨sign, d, u, hsign, rfl, hd⟩)
    · exact ⟨_, scan_append .zero hu⟩
    · have hnatural : Text.NaturalNumeral (d :: u.takeWhile isDigit) :=
        ⟨Symbol.ofChar_eq_nonzeroDigit_iff.2 hd, fun _ hx => List.mem_takeWhile_imp hx⟩
      have hliteral : Text.IsLiteral (sign ++ d :: u.takeWhile isDigit) := by
        rcases hsign with rfl | rfl
        · exact .positive hnatural
        · exact .negative hnatural
      have hscan := scan_append hliteral (Text.firstNot_dropWhile isDigit u)
      rw [List.append_assoc, List.cons_append, List.takeWhile_append_dropWhile] at hscan
      exact ⟨_, hscan⟩

/-- A scan for a natural numeral fails where no nonzero digit comes. -/
theorem of_scanNatural_eq_malformed (h : scanNatural sign t = .malformed offset passed) :
    (∀ d ∈ t.head?, Symbol.ofChar d ≠ .nonzeroDigit) ∧ offset = sign ∧ passed = sign := by
  cases t with
  | nil =>
    cases h
    exact ⟨fun d hd => absurd hd (Option.not_mem_none d), rfl, rfl⟩
  | cons d t =>
    rw [scanNatural] at h
    split at h
    · contradiction
    · rename_i hd
      cases h
      refine ⟨fun x hx => ?_, rfl, rfl⟩
      obtain rfl := Option.some.inj hx
      exact hd

/-- A scan fails behind a zero that a digit follows, or behind the sign if there is one. -/
theorem exists_of_scan_eq_malformed (h : scan t = .malformed offset passed) :
    (∃ d u, t = '0' :: d :: u ∧ isDigit d ∧ offset = 0 ∧ passed = 1) ∨
      ∃ sign u, (sign = ['-'] ∨ sign = [] ∧ t.head? ≠ some '-' ∧ t.head? ≠ some '0') ∧
        t = sign ++ u ∧ (∀ d ∈ u.head?, Symbol.ofChar d ≠ .nonzeroDigit) ∧
        offset = sign.length ∧ passed = sign.length := by
  cases t with
  | nil =>
    cases h
    refine Or.inr ⟨[], [], Or.inr ⟨rfl, ?_, ?_⟩, rfl, ?_, rfl, rfl⟩
    · exact (Option.some_ne_none _).symm
    · exact (Option.some_ne_none _).symm
    · exact fun d hd => absurd hd (Option.not_mem_none d)
  | cons c t =>
    rw [scan] at h
    by_cases hzero : Symbol.ofChar c = .zero
    · rw [if_pos hzero] at h
      obtain rfl := Symbol.ofChar_eq_zero_iff.1 hzero
      split at h
      · rename_i hany
        cases h
        obtain ⟨d, hd, hdigit⟩ := (Option.any_eq_true _ _).1 hany
        obtain ⟨u, rfl⟩ := List.head?_eq_some_iff.1 hd
        exact Or.inl ⟨d, u, rfl, hdigit, rfl, rfl⟩
      · contradiction
    rw [if_neg hzero] at h
    -- behind a sign, and without one, a natural numeral is scanned for
    by_cases hminus : Symbol.ofChar c = .minus
    · rw [if_pos hminus] at h
      obtain rfl := Symbol.ofChar_eq_minus_iff.1 hminus
      exact Or.inr ⟨['-'], t, Or.inl rfl, rfl, of_scanNatural_eq_malformed h⟩
    · rw [if_neg hminus] at h
      have hne : c ≠ '-' ∧ c ≠ '0' :=
        ⟨mt Symbol.ofChar_eq_minus_iff.2 hminus, mt Symbol.ofChar_eq_zero_iff.2 hzero⟩
      refine Or.inr ⟨[], c :: t, Or.inr ⟨rfl, ?_⟩, rfl, of_scanNatural_eq_malformed h⟩
      simpa using hne

end Literal

/-! ### Character by character -/

namespace Cursor

variable (c : Cursor)

/-- Two moves are one by as much as both. -/
theorem forward_forward (m n : Nat) : (c.forward m).forward n = c.forward (m + n) := by
  apply Cursor.ext
  · simp only [forward, List.take_add, List.reverse_append, List.append_assoc]
  · rw [ahead_forward, ahead_forward, ahead_forward, List.drop_drop]

/-- What has been passed is what lies between the two places. -/
theorem since_forward (n : Nat) : (c.forward n).since c.position = c.ahead.take n := by
  have hle : c.position ≤ (c.forward n).position := by
    rw [position_forward]
    exact Nat.le_add_right _ _
  have hboth := (c.forward n).since_append_ahead hle
  rw [text_forward, drop_text_position, ahead_forward] at hboth
  exact List.append_cancel_right (hboth.trans (List.take_append_drop n c.ahead).symm)

/-- A digit comes next if a zero does or another one. -/
theorem nextIs_or_nextIs :
    (c.nextIs .zero || c.nextIs .nonzeroDigit) = c.ahead.head?.any Literal.isDigit := by
  unfold nextIs nextSatisfies
  cases c.ahead with
  | nil => rfl
  | cons x u =>
    simp only [List.head?_cons, Option.any_some, Literal.isDigit]
    cases Symbol.ofChar x <;> rfl

/-- An advance past a character leaves less ahead. -/
theorem length_ahead_advance_lt {p : Symbol → Bool} (h : c.nextSatisfies p) :
    c.advance.ahead.length < c.ahead.length := by
  have hpos := length_ahead_pos_of_nextSatisfies h
  rw [advance, ahead_forward, List.length_drop]
  omega

/-- Passes digits, one after the other, as long as one comes next. -/
def passDigits (c : Cursor) : Cursor :=
  if _ : c.nextIs .zero || c.nextIs .nonzeroDigit then c.advance.passDigits else c
termination_by c.ahead.length
decreasing_by
  rename_i h
  rcases Bool.or_eq_true_iff.1 h with h | h
  · exact c.length_ahead_advance_lt h
  · exact c.length_ahead_advance_lt h

/-- All digits in front are passed. -/
theorem passDigits_eq :
    c.passDigits = c.forward (c.ahead.takeWhile Literal.isDigit).length := by
  induction c using passDigits.induct with
  | case1 c h ih =>
    rw [nextIs_or_nextIs] at h
    obtain ⟨x, hx, hdigit⟩ := (Option.any_eq_true _ _).1 h
    obtain ⟨u, hahead⟩ := List.head?_eq_some_iff.1 hx
    rw [passDigits, dif_pos (by rwa [nextIs_or_nextIs]), ih, advance, forward_forward,
      ahead_forward, hahead, List.drop_one, List.tail_cons, List.takeWhile_cons_of_pos hdigit,
      List.length_cons, Nat.add_comm]
  | case2 c h =>
    have hnone : c.ahead.NoDigitFirst := by
      intro x hx
      rw [nextIs_or_nextIs, hx] at h
      exact Bool.eq_false_of_not_eq_true h
    rw [passDigits, dif_neg h, hnone.takeWhile_eq_nil]
    exact c.forward_zero.symm

end Cursor

namespace Reading

variable {r s : Reading} {rules : Rules} {e : Rejection}

/-- Passes a nonzero digit, which has to come next, and the digits after it. -/
def natural (r : Reading) : Outcome :=
  if r.cursor.nextIs .nonzeroDigit then .ok { r with cursor := r.cursor.advance.passDigits }
  else .error (r.reject .illFormedInteger)

/-- Passes a zero, which no digit may follow; otherwise a sign, if there is one, and then a nonzero
digit with the digits after it. -/
def integer (r : Reading) : Outcome :=
  if r.cursor.nextIs .zero then
    let s := r.forward 1
    if s.cursor.nextIs .zero || s.cursor.nextIs .nonzeroDigit then
      .error { s.reject .illFormedInteger with column := r.cursor.position }
    else .ok s
  else { r with cursor := r.cursor.pass .minus }.natural

/-- Records what has been passed since `r` as an operand if it is in range. -/
def judge (rules : Rules) (r s : Reading) : Outcome :=
  let l := s.cursor.since r.cursor.position
  if rules.admits l then
    .ok { s with
      recorded := { value := l, kind := .operand, position := r.cursor.position } :: s.recorded }
  else .error { s.reject .outOfRange with column := r.cursor.position }

/-- The outcome that a scan of what is ahead amounts to. -/
def scanned (r : Reading) : Literal.Scan → Outcome
  | .complete n => .ok (r.forward n)
  | .malformed offset passed =>
    .error {
      fault := .illFormedInteger
      column := r.cursor.position + offset
      reading := r.forward passed }

/-- A natural numeral is passed as it is scanned. -/
theorem natural_forward (r : Reading) {k : Nat} (hk : k ≤ r.cursor.ahead.length) :
    (r.forward k).natural = r.scanned (Literal.scanNatural k (r.cursor.ahead.drop k)) := by
  have hposition : (r.forward k).cursor.position = r.cursor.position + k := by
    rw [forward, Cursor.position_forward, Nat.min_eq_left hk]
  have hnext : (r.forward k).cursor.nextIs .nonzeroDigit ↔
      ∃ d u, r.cursor.ahead.drop k = d :: u ∧ Symbol.ofChar d = .nonzeroDigit :=
    Cursor.nextIs_iff
  rw [natural]
  split
  · rename_i h
    obtain ⟨d, u, hdrop, hd⟩ := hnext.1 h
    have hrest : ((r.cursor.forward k).forward 1).ahead = u := by
      rw [Cursor.ahead_forward, Cursor.ahead_forward, hdrop, List.drop_one, List.tail_cons]
    rw [hdrop, Literal.scanNatural, if_pos hd, scanned, Cursor.passDigits_eq, forward, forward,
      Cursor.advance, hrest, Cursor.forward_forward, Cursor.forward_forward, Nat.add_assoc]
  · rename_i h
    have hscan : Literal.scanNatural k (r.cursor.ahead.drop k) = .malformed k k := by
      cases hdrop : r.cursor.ahead.drop k with
      | nil => rfl
      | cons d u => exact if_neg fun hd => h (hnext.2 ⟨d, u, hdrop, hd⟩)
    rw [hscan, scanned, reject, hposition]

/-- A literal is passed as it is scanned. -/
theorem integer_eq_scanned (r : Reading) :
    r.integer = r.scanned (Literal.scan r.cursor.ahead) := by
  rw [integer]
  by_cases hzero : r.cursor.nextIs .zero
  · obtain ⟨x, u, hahead, hx⟩ := Cursor.nextIs_iff.1 hzero
    have hrest : (r.forward 1).cursor.ahead = u := by
      rw [forward, Cursor.ahead_forward, hahead, List.drop_one, List.tail_cons]
    rw [if_pos hzero, hahead, Literal.scan, if_pos hx]
    dsimp only
    rw [Cursor.nextIs_or_nextIs, hrest]
    split
    · rfl
    · rfl
  rw [if_neg hzero]
  by_cases hminus : r.cursor.nextIs .minus
  · obtain ⟨x, u, hahead, hx⟩ := Cursor.nextIs_iff.1 hminus
    have hnatural := r.natural_forward (k := 1) (by rw [hahead]; exact Nat.succ_pos _)
    rw [hahead] at hnatural
    rw [Cursor.pass, if_pos hminus, hahead, Literal.scan, hx]
    exact hnatural
  · -- without a sign no character has been passed
    have hnatural := r.natural_forward (Nat.zero_le _)
    have hscan : Literal.scan r.cursor.ahead = Literal.scanNatural 0 r.cursor.ahead := by
      cases hahead : r.cursor.ahead with
      | nil => rfl
      | cons x u =>
        rw [Literal.scan, if_neg fun hx => hzero (Cursor.nextIs_iff.2 ⟨x, u, hahead, hx⟩),
          if_neg fun hx => hminus (Cursor.nextIs_iff.2 ⟨x, u, hahead, hx⟩)]
    rw [Cursor.pass_of_not_nextIs hminus, hscan]
    rw [forward, Cursor.forward_zero] at hnatural
    exact hnatural

/-- A literal is read by passing it and looking at its value then. -/
theorem literal_eq_bind (rules : Rules) (r : Reading) :
    r.literal rules = r.integer.bind (r.judge rules) := by
  rw [integer_eq_scanned, literal]
  cases Literal.scan r.cursor.ahead with
  | malformed offset passed => rfl
  | complete n =>
    have hsince := r.cursor.since_forward n
    simp only [scanned, Except.bind, judge, forward, hsince]
    rfl

/-! ### Where it stops -/

/-- From `r` to `s` the longest literal in front is passed: `l`, up to where no digit follows.
Nothing is recorded. -/
structure PassesLongest (r s : Reading) (l : Text) : Prop where
  /-- What is passed is a literal. -/
  isLiteral : l.IsLiteral
  /-- So no blank is passed. -/
  noBlank : ∀ c ∈ l, (Symbol.ofChar c).isBlank = false
  /-- Nothing else is passed. -/
  passes : r.Passes s l
  /-- Every literal in front is a beginning of it. -/
  longest : ∀ l' : Text, l'.IsLiteral → l' <+: r.cursor.ahead → l' <+: l
  /-- No digit follows. -/
  noDigitFirst : s.cursor.ahead.NoDigitFirst
  /-- The tokens stay as they are. -/
  recorded_eq : s.recorded = r.recorded

/-- The rejections where no literal comes first. Nothing is recorded. -/
inductive FindsNoLiteral (r : Reading) : Rejection → Prop
  /-- A digit follows a zero. The zero has been passed, and the fault is there. -/
  | afterZero {s : Reading} {d : Char} {u : Text} (hahead : r.cursor.ahead = '0' :: d :: u)
      (hd : d.isDigit) (hpasses : r.Passes s ['0']) (hrecorded : s.recorded = r.recorded) :
      FindsNoLiteral r {
        fault := .illFormedInteger
        column := r.cursor.position
        reading := s }
  /-- No nonzero digit comes where one has to. A sign has been passed if there is one, but no digit,
  and the fault is behind it. -/
  | noDigit {s : Reading} {sign : Text}
      (hsign : sign = ['-'] ∨
        sign = [] ∧ r.cursor.ahead.head? ≠ some '-' ∧ r.cursor.ahead.head? ≠ some '0')
      (hpasses : r.Passes s sign) (hnext : ∀ d ∈ s.cursor.ahead.head?, ¬ (d.isDigit ∧ d ≠ '0'))
      (hrecorded : s.recorded = r.recorded) :
      FindsNoLiteral r {
        fault := .illFormedInteger
        column := s.cursor.position
        reading := s }

/-- An integer that is read is a complete scan, and reading goes on behind it. -/
theorem exists_of_integer_eq_ok (h : r.integer = .ok s) :
    ∃ n, Literal.scan r.cursor.ahead = .complete n ∧ s = r.forward n := by
  rw [integer_eq_scanned] at h
  cases hscan : Literal.scan r.cursor.ahead with
  | complete n =>
    rw [hscan] at h
    cases h
    exact ⟨n, rfl, rfl⟩
  | malformed offset passed =>
    rw [hscan] at h
    cases h

/-- An integer that is not read is a malformed scan, and the fault is where the scan found it. -/
theorem exists_of_integer_eq_error (h : r.integer = .error e) :
    ∃ offset passed, Literal.scan r.cursor.ahead = .malformed offset passed ∧
      e = {
        fault := .illFormedInteger
        column := r.cursor.position + offset
        reading := r.forward passed } := by
  rw [integer_eq_scanned] at h
  cases hscan : Literal.scan r.cursor.ahead with
  | complete n =>
    rw [hscan] at h
    cases h
  | malformed offset passed =>
    rw [hscan] at h
    cases h
    exact ⟨offset, passed, rfl, rfl⟩

/-- An integer is read if what is ahead begins with a literal. -/
theorem exists_integer_eq_ok_iff : (∃ s, r.integer = .ok s) ↔ r.cursor.ahead.LiteralFirst := by
  rw [← Literal.exists_scan_eq_complete_iff]
  constructor
  · rintro ⟨s, hs⟩
    obtain ⟨n, hn, -⟩ := exists_of_integer_eq_ok hs
    exact ⟨n, hn⟩
  · rintro ⟨n, hn⟩
    refine ⟨r.forward n, ?_⟩
    rw [integer_eq_scanned, hn, scanned]

/-- An integer that is read is the longest literal with which what is ahead begins. -/
theorem exists_passesLongest_of_integer (h : r.integer = .ok s) : ∃ l, r.PassesLongest s l := by
  obtain ⟨n, hscan, rfl⟩ := exists_of_integer_eq_ok h
  obtain ⟨l, rest, hahead, hl, hrest, rfl⟩ := Literal.exists_of_scan_eq_complete hscan
  have hpasses := r.passes_forward l.length
  rw [hahead, List.take_left] at hpasses
  refine ⟨l, hl, Literal.isBlank_eq_false_of_isLiteral hl, hpasses, ?_, ?_, rfl⟩
  · intro l' hl' hprefix
    rw [hahead] at hprefix
    exact Literal.prefix_of_isLiteral hl hrest hl' hprefix
  · rw [forward, Cursor.ahead_forward, hahead, List.drop_left]
    exact hrest

/-- Where no integer is read what is ahead begins with no literal. -/
theorem findsNoLiteral_of_integer (h : r.integer = .error e) : r.FindsNoLiteral e := by
  obtain ⟨offset, passed, hscan, rfl⟩ := exists_of_integer_eq_error h
  rcases Literal.exists_of_scan_eq_malformed hscan with
    ⟨d, u, hahead, hd, rfl, rfl⟩ | ⟨sign, u, hsign, hahead, hfirst, rfl, rfl⟩
  · have hpasses := r.passes_forward 1
    rw [hahead, List.take_succ_cons, List.take_zero] at hpasses
    rw [Literal.isDigit, Symbol.isDigit_ofChar] at hd
    exact .afterZero hahead hd hpasses rfl
  · have hpasses := r.passes_forward sign.length
    rw [hahead, List.take_left] at hpasses
    have hu : (r.forward sign.length).cursor.ahead = u := by
      rw [forward, Cursor.ahead_forward, hahead, List.drop_left]
    have hnext : ∀ d ∈ (r.forward sign.length).cursor.ahead.head?,
        ¬ (d.isDigit ∧ d ≠ '0') := by
      rw [hu]
      exact fun d hd => mt Symbol.ofChar_eq_nonzeroDigit_iff.2 (hfirst d hd)
    rw [← hpasses.position_eq]
    exact .noDigit hsign hpasses hnext rfl

/-- Reading a literal is to pass it character by character and to look at its value then. Whatever
the rest of the text, it is passed exactly where one comes first, it is the longest one in front,
and where none comes first no more than a zero or a sign is passed. -/
theorem integer_passes_longest (r : Reading) :
    (∀ rules, r.literal rules = r.integer.bind (r.judge rules)) ∧
      ((∃ s, r.integer = .ok s) ↔ r.cursor.ahead.LiteralFirst) ∧
      (∀ s, r.integer = .ok s → ∃ l, r.PassesLongest s l) ∧
      ∀ e, r.integer = .error e → r.FindsNoLiteral e :=
  ⟨fun rules => r.literal_eq_bind rules, exists_integer_eq_ok_iff,
    fun _ => exists_passesLongest_of_integer, fun _ => findsNoLiteral_of_integer⟩

/-- The sign and three digits are passed in one text. A zero after the sign is not passed in the
other. -/
theorem integer_passes_minus :
    (∃ s l, ((start "2*-407 1".toList).forward 2).integer = .ok s ∧
        ((start "2*-407 1".toList).forward 2).PassesLongest s l ∧ s.cursor.position = 6) ∧
      ∃ e, (start "-07".toList).integer = .error e ∧ (start "-07".toList).FindsNoLiteral e ∧
        e.column = 1 ∧ e.reading.cursor.position = 1 := by
  have hok : ((start "2*-407 1".toList).forward 2).integer =
      .ok (((start "2*-407 1".toList).forward 2).forward 4) := by
    rw [integer_eq_scanned]
    rfl
  have herror : (start "-07".toList).integer = .error {
      fault := .illFormedInteger
      column := 1
      reading := (start "-07".toList).forward 1 } := by
    rw [integer_eq_scanned]
    rfl
  obtain ⟨-, -, hpasses, -⟩ := integer_passes_longest ((start "2*-407 1".toList).forward 2)
  obtain ⟨-, -, -, hfinds⟩ := integer_passes_longest (start "-07".toList)
  obtain ⟨l, hl⟩ := hpasses _ hok
  exact ⟨⟨_, l, hok, hl, rfl⟩, _, herror, hfinds _ herror, rfl, rfl⟩

end Reading

end ArithSyntax
