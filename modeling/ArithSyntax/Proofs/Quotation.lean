import ArithSyntax.Text.Quoted

/-!
# Reading quoted texts back

A quoted text tells the text. The escapes are told apart by the character after the backslash, and
those that give a code point have a fixed number of digits, so the first character of a text can be
read off its escaped form, whatever follows (`Text.unescape_escape_append`). No escaped form begins
with the delimiter, which therefore ends the text, and the delimiter itself stands in front. So what
is put behind a quoted text cannot be taken for a part of it (`Text.quote_append_inj`).

What is not printable has been escaped, and escapes are printable (`Text.printable_quote`).
-/

namespace ArithSyntax

namespace Text

variable {q c d : Char} {t u x y : Text} {n width : Nat}

/-! ### Code points -/

/-- The value of a hexadecimal digit in lower case. -/
def hexDigitValue (c : Char) : Nat :=
  if c.isDigit then c.toNat - '0'.toNat else c.toNat - 'a'.toNat + 10

/-- The number that a run of hexadecimal digits stands for. -/
def hexValue (t : Text) : Nat := t.foldl (fun n c => 16 * n + hexDigitValue c) 0

/-- A hexadecimal digit is read back. -/
theorem hexDigitValue_digitChar : ∀ n < 16, hexDigitValue n.digitChar = n := by decide

/-- A further hexadecimal digit is worth itself, and the others sixteen times as much. -/
theorem hexValue_concat (t : Text) (c : Char) :
    hexValue (t ++ [c]) = 16 * hexValue t + hexDigitValue c := by
  rw [hexValue, List.foldl_append]
  rfl

/-- Zeros in front do not count. -/
theorem hexValue_replicate_append (n : Nat) (t : Text) :
    hexValue (List.replicate n '0' ++ t) = hexValue t := by
  induction n with
  | zero => rfl
  | succ n ih => exact ih

/-- The digits of a number read back as that number. -/
theorem hexValue_toDigits (n : Nat) : hexValue (Nat.toDigits 16 n) = n := by
  induction n using Nat.base_induction 16 (by decide) with
  | single m hm =>
    rw [Nat.toDigits_of_lt_base hm, ← List.nil_append [m.digitChar], hexValue_concat,
      hexDigitValue_digitChar m hm]
    exact Nat.zero_add m
  | digit m k hk hm ih =>
    rw [← Nat.toDigits_append_toDigits (by decide) hm hk, Nat.toDigits_of_lt_base hk,
      hexValue_concat, ih, hexDigitValue_digitChar k hk]

/-- The digits of a code point read back as the code point. -/
theorem hexValue_hexCode (width : Nat) (c : Char) : hexValue (hexCode width c) = c.toNat := by
  rw [hexCode, List.leftpad, hexValue_replicate_append, hexValue_toDigits]

/-- A code point that is small enough has as many digits as it should have. -/
theorem length_hexCode (hwidth : 0 < width) (hc : c.toNat < Nat.pow 16 width) :
    (hexCode width c).length = width := by
  have hlength := (Nat.length_toDigits_le_iff (by decide) hwidth).2 hc
  rw [hexCode, List.length_leftpad]
  exact Nat.max_eq_left hlength

/-- The digits of a number are hexadecimal digits. -/
theorem exists_digitChar_of_mem_toDigits (h : c ∈ Nat.toDigits 16 n) :
    ∃ k < 16, k.digitChar = c := by
  induction n using Nat.base_induction 16 (by decide) with
  | single m hm =>
    rw [Nat.toDigits_of_lt_base hm, List.mem_singleton] at h
    exact ⟨m, hm, h.symm⟩
  | digit m k hk hm ih =>
    rw [← Nat.toDigits_append_toDigits (by decide) hm hk, Nat.toDigits_of_lt_base hk] at h
    rcases List.mem_append.1 h with h | h
    · exact ih h
    · exact ⟨k, hk, (List.mem_singleton.1 h).symm⟩

/-! ### Escapes -/

/-- The first character of a text of which the escaped form is given, and the escaped form of the
rest. -/
def unescape : Text → Option (Char × Text)
  | [] => none
  | '\\' :: 't' :: x => some ('\t', x)
  | '\\' :: 'n' :: x => some ('\n', x)
  | '\\' :: 'r' :: x => some ('\r', x)
  | '\\' :: 'x' :: x => some (.ofNat (hexValue (x.take 2)), x.drop 2)
  | '\\' :: 'u' :: x => some (.ofNat (hexValue (x.take 4)), x.drop 4)
  | '\\' :: 'U' :: x => some (.ofNat (hexValue (x.take 8)), x.drop 8)
  | '\\' :: c :: x => some (c, x)
  | c :: x => some (c, x)

/-- What is not escaped is read as it is. -/
theorem unescape_cons (hc : c ≠ '\\') (x : Text) : unescape (c :: x) = some (c, x) := by
  unfold unescape
  split <;> simp_all

/-- A code point is read back, whatever follows. -/
theorem read_hexCode (hwidth : 0 < width) (hc : c.toNat < Nat.pow 16 width) (x : Text) :
    some (Char.ofNat (hexValue ((hexCode width c ++ x).take width)),
      (hexCode width c ++ x).drop width) = some (c, x) := by
  have hlength := length_hexCode hwidth hc
  rw [List.take_left' hlength, List.drop_left' hlength, hexValue_hexCode, Char.ofNat_toNat]

/-- A character is read back from its escaped form, whatever follows. -/
theorem unescape_escape_append (hq : q = singleQuote ∨ q = doubleQuote) (c : Char) (x : Text) :
    unescape (escape q c ++ x) = some (c, x) := by
  unfold escape
  split
  · rename_i hself
    rcases hself with rfl | rfl
    · rcases hq with rfl | rfl <;> rfl
    · rfl
  rename_i hself
  have hbackslash : c ≠ '\\' := fun hc => hself (Or.inr hc)
  split
  · subst c
    rfl
  split
  · subst c
    rfl
  split
  · subst c
    rfl
  split
  · exact unescape_cons hbackslash x
  split
  · exact read_hexCode (by decide) ‹c.toNat < 0x100› x
  split
  · exact read_hexCode (by decide) ‹c.toNat < 0x10000› x
  · have hc : c.toNat < Nat.pow 16 8 := Nat.lt_of_lt_of_le c.val.toNat_lt (by decide)
    exact read_hexCode (by decide) hc x

/-- A character that is not escaped is not the delimiter. -/
theorem escape_cases (q c : Char) :
    (∃ r, escape q c = '\\' :: r) ∨ c ≠ q ∧ c ≠ '\\' ∧ escape q c = [c] := by
  by_cases hself : c = q ∨ c = '\\'
  · exact Or.inl ⟨[c], if_pos hself⟩
  · obtain ⟨hq, hbackslash⟩ := not_or.1 hself
    unfold escape
    rw [if_neg hself]
    repeat' split
    all_goals first | exact Or.inl ⟨_, rfl⟩ | exact Or.inr ⟨hq, hbackslash, rfl⟩

/-- No escaped form begins with the delimiter. -/
theorem escape_append_ne (hq : q = singleQuote ∨ q = doubleQuote) (c : Char) (x y : Text) :
    escape q c ++ x ≠ q :: y := by
  intro h
  rcases escape_cases q c with ⟨r, hr⟩ | ⟨hne, -, hc⟩
  · rw [hr] at h
    have hbackslash : '\\' = q := List.head_eq_of_cons_eq h
    subst hbackslash
    rcases hq with hq | hq <;> exact absurd hq (by decide)
  · rw [hc] at h
    exact hne (List.head_eq_of_cons_eq h)

/-- The delimiter ends a text, whatever follows. -/
theorem flatMap_escape_append_inj (hq : q = singleQuote ∨ q = doubleQuote)
    (h : t.flatMap (escape q) ++ q :: x = u.flatMap (escape q) ++ q :: y) : t = u ∧ x = y := by
  induction t generalizing u with
  | nil =>
    cases u with
    | nil => exact ⟨rfl, List.tail_eq_of_cons_eq h⟩
    | cons d u =>
      rw [List.flatMap_cons, List.append_assoc] at h
      exact absurd h.symm (escape_append_ne hq d _ x)
  | cons c t ih =>
    rw [List.flatMap_cons, List.append_assoc] at h
    cases u with
    | nil => exact absurd h (escape_append_ne hq c _ y)
    | cons d u =>
      rw [List.flatMap_cons, List.append_assoc] at h
      have hread := congrArg unescape h
      rw [unescape_escape_append hq, unescape_escape_append hq] at hread
      obtain ⟨rfl, hrest⟩ := Prod.mk.inj (Option.some.inj hread)
      obtain ⟨rfl, hxy⟩ := ih hrest
      exact ⟨rfl, hxy⟩

/-! ### Quoted texts -/

/-- There are two delimiters. -/
theorem delimiter_cases (t : Text) : t.delimiter = singleQuote ∨ t.delimiter = doubleQuote := by
  unfold delimiter
  split
  · exact Or.inr rfl
  · exact Or.inl rfl

/-- A quoted text tells where it ends and which text it is. -/
theorem quote_append_inj : t.quote ++ x = u.quote ++ y ↔ t = u ∧ x = y := by
  constructor
  · intro h
    simp only [quote, List.cons_append, List.append_assoc, List.cons.injEq] at h
    obtain ⟨hdelimiter, hrest⟩ := h
    rw [← hdelimiter] at hrest
    exact flatMap_escape_append_inj t.delimiter_cases hrest
  · rintro ⟨rfl, rfl⟩
    rfl

/-- No two texts are quoted alike. -/
theorem quote_inj : t.quote = u.quote ↔ t = u := by
  have h := quote_append_inj (t := t) (u := u) (x := []) (y := [])
  rwa [List.append_nil, List.append_nil, and_iff_left rfl] at h

/-! ### Printable characters -/

/-- A text of printable characters. -/
def Printable (t : Text) : Prop := ∀ c ∈ t, isPrintable c

instance (t : Text) : Decidable t.Printable :=
  decidable_of_iff (t.all isPrintable) List.all_eq_true

/-- Two texts make a printable one if both are printable. -/
theorem printable_append : Printable (t ++ u) ↔ t.Printable ∧ u.Printable := List.forall_mem_append

/-- A text is printable if its first character is and the rest is. -/
theorem printable_cons : Printable (c :: t) ↔ isPrintable c ∧ t.Printable := List.forall_mem_cons

/-- Code points are written with printable characters. -/
theorem printable_hexCode (width : Nat) (c : Char) : (hexCode width c).Printable := by
  intro d hd
  rcases List.mem_append.1 hd with hd | hd
  · obtain rfl := List.eq_of_mem_replicate hd
    rfl
  · obtain ⟨k, hk, rfl⟩ := exists_digitChar_of_mem_toDigits hd
    have hall : ∀ k < 16, isPrintable k.digitChar := by decide
    exact hall k hk

/-- An escaped form is printable, of whichever character it is. -/
theorem printable_escape (hq : isPrintable q) (c : Char) : (escape q c).Printable := by
  have hescaped (b : Char) (hb : isPrintable b) (v : Text) (hv : v.Printable) :
      Printable ('\\' :: b :: v) := printable_cons.2 ⟨rfl, printable_cons.2 ⟨hb, hv⟩⟩
  unfold escape
  split
  · rename_i hself
    refine hescaped c ?_ [] nofun
    rcases hself with rfl | rfl
    · exact hq
    · rfl
  repeat' split
  · exact hescaped 't' rfl [] nofun
  · exact hescaped 'n' rfl [] nofun
  · exact hescaped 'r' rfl [] nofun
  · exact printable_cons.2 ⟨‹_›, nofun⟩
  · exact hescaped 'x' rfl _ (printable_hexCode 2 c)
  · exact hescaped 'u' rfl _ (printable_hexCode 4 c)
  · exact hescaped 'U' rfl _ (printable_hexCode 8 c)

/-- A quoted text is printable, whatever the text holds. -/
theorem printable_quote (t : Text) : t.quote.Printable := by
  have hq : isPrintable t.delimiter := by
    rcases t.delimiter_cases with hq | hq <;> rw [hq] <;> rfl
  refine printable_cons.2 ⟨hq, printable_append.2 ⟨?_, printable_cons.2 ⟨hq, nofun⟩⟩⟩
  intro d hd
  obtain ⟨c, -, hc⟩ := List.mem_flatMap.1 hd
  exact printable_escape hq c d hc

/-- The characters at which lines end. -/
def lineBreaks : Text :=
  ['\n', '\x0b', '\x0c', '\r', '\x1c', '\x1d', '\x1e', '\u0085', '\u2028', '\u2029']

/-- A printable text is one line. -/
theorem Printable.notMem_of_mem_lineBreaks (h : t.Printable) (hc : c ∈ lineBreaks) : c ∉ t := by
  have hall : lineBreaks.all fun x => !isPrintable x := by decide +kernel
  have hbreak := List.all_eq_true.1 hall c hc
  intro hmem
  rw [h c hmem] at hbreak
  cases hbreak

end Text

end ArithSyntax
