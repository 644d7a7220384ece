import ArithSyntax.Proofs.Journal
import ArithSyntax.Proofs.Quotation

/-!
# Displays and messages

A token is shown with its quoted characters, its role and its column. None of the three can be taken
for a part of another: the quoted text tells where it ends, no role begins like another one and
goes on like it (`Lexeme.Kind.label_append_inj`), and the column comes last. So tokens that are
shown alike agree in all three.

The messages about a text quote it, and besides hold fixed words and decimal numbers. So they
consist of printable characters, whatever the text holds, and each of them is one line.
-/

namespace ArithSyntax

/-! ### Tokens -/

namespace Decimal

variable {i : Int} {w : Text}

/-- No two integers have the same decimal text. -/
theorem text_injective : Function.Injective text :=
  Function.LeftInverse.injective Literal.value_text

/-- What is written of an integer is its decimal text. -/
theorem eq_text_of_write (h : write i = .ok w) : w = text i := by
  rcases Nat.lt_or_ge i.natAbs ceiling with hi | hi
  · rw [write_of_lt hi] at h
    exact (Except.ok.inj h).symm
  · rw [write_of_le hi] at h
    cases h

end Decimal

/-- A role is told by its name, if a comma follows. -/
theorem Lexeme.Kind.label_append_inj {k l : Lexeme.Kind} {x y : Text} :
    k.label.toList ++ ',' :: x = l.label.toList ++ ',' :: y ↔ k = l ∧ x = y := by
  cases k <;> cases l <;> simp [label]

namespace Token

variable {a b : Token}

/-- A token whose position can be written is displayed with its value, its role and its
position. -/
theorem display_of_lt (h : a.position.natAbs < Decimal.ceiling) :
    a.display = .ok ("ExprToken(".toList ++ a.value.quote ++ ", ".toList ++ a.kind.label.toList ++
      ", pos=".toList ++ Decimal.text a.position ++ ")".toList) := by
  rw [display, Decimal.write_of_lt h]
  rfl

/-- Tokens that are shown alike have the same characters, the same role and the same column. -/
theorem display_inj (ha : a.position.natAbs < Decimal.ceiling)
    (hb : b.position.natAbs < Decimal.ceiling) :
    a.display = b.display ↔ a.value = b.value ∧ a.kind = b.kind ∧ a.position = b.position := by
  rw [display_of_lt ha, display_of_lt hb, Except.ok.injEq]
  constructor
  · intro h
    simp only [List.append_assoc, List.append_cancel_left_eq] at h
    obtain ⟨hvalue, hrest⟩ := Text.quote_append_inj.1 h
    obtain ⟨hkind, hrest⟩ := Lexeme.Kind.label_append_inj.1 (List.append_cancel_left hrest)
    refine ⟨hvalue, hkind, Decimal.text_injective ?_⟩
    exact List.append_cancel_right (List.append_cancel_left hrest)
  · rintro ⟨hvalue, hkind, hposition⟩
    rw [hvalue, hkind, hposition]

end Token

/-! ### Messages -/

namespace Decimal

/-- The digits of a number are printable. -/
theorem printable_digits (n : Nat) : (digits n).Printable := by
  intro c hc
  obtain ⟨hzero, hnine⟩ := Char.isDigit_iff_toNat.1 (isDigit_of_mem_digits hc)
  change 48 ≤ c.toNat at hzero
  change c.toNat ≤ 57 at hnine
  exact Text.isPrintable_of_ascii (by omega) (by omega)

/-- The decimal text of an integer is printable. -/
theorem printable_text (i : Int) : (text i).Printable := by
  cases i with
  | ofNat n => exact printable_digits n
  | negSucc n => exact Text.printable_cons.2 ⟨rfl, printable_digits (n + 1)⟩

end Decimal

/-- What is said of a fault is printable. -/
theorem Fault.printable_description (f : Fault) : Text.Printable f.description.toList := by
  cases f <;> decide

/-- What is said of a verdict is printable. -/
theorem Verdict.printable_describe {v : Verdict} {description : Text}
    (h : v.describe = .ok description) : description.Printable := by
  unfold describe at h
  split at h
  · cases h
    decide
  · rename_i f hfaulty
    cases hcolumn : Decimal.write v.column with
    | error e =>
      rw [hcolumn] at h
      cases h
    | ok column =>
      rw [hcolumn] at h
      cases h
      rw [Decimal.eq_text_of_write hcolumn]
      simp only [Text.printable_append]
      exact ⟨⟨f.printable_description, by decide⟩, Decimal.printable_text _⟩

/-- What a remark says is printable, whatever characters it quotes. -/
theorem Remark.printable_message {m : Remark} {message : Text} (h : m.message = .ok message) :
    message.Printable := by
  cases m with
  | tooDeep limit column =>
    cases h
    simp only [Text.printable_append]
    exact ⟨⟨⟨by decide, Decimal.printable_digits limit⟩, by decide⟩,
      Decimal.printable_digits column⟩
  | unconsumed rest =>
    cases h
    exact Text.printable_append.2 ⟨by decide, Text.printable_quote rest⟩
  | exhausted limit column =>
    cases hplace : Decimal.write column with
    | error e =>
      simp only [Remark.message, hplace] at h
      cases h
    | ok place =>
      cases hbound : Decimal.write limit with
      | error e =>
        simp only [Remark.message, hplace, hbound] at h
        cases h
      | ok bound =>
        simp only [Remark.message, hplace, hbound] at h
        cases h
        rw [Decimal.eq_text_of_write hplace, Decimal.eq_text_of_write hbound]
        simp only [Text.printable_append]
        exact ⟨⟨⟨⟨by decide, Decimal.printable_text _⟩, by decide⟩, Decimal.printable_text _⟩,
          by decide⟩

/-- An entry about a remark says what is to be said of it, at its level. -/
theorem Remark.of_mem_entry? {m : Remark} {e : Entry} (h : e ∈ m.entry?) :
    m.message = .ok e.message ∧ e.level = m.level := by
  unfold entry? at h
  cases hmessage : m.message with
  | error long =>
    rw [hmessage] at h
    cases h
  | ok message =>
    rw [hmessage] at h
    cases h
    exact ⟨rfl, rfl⟩

namespace Checker

variable {c : Checker} {t u : Text} {stack : Stack} {report : Report} {e : Entry}

/-- What is told of the examination of a text, in order, also where no report is made of it: then
the verdict, which cannot be put into words, is left out. -/
def entries (c : Checker) (t : Text) (stack : Stack := .standard) : List Entry :=
  let analysis := Analysis.ofText c.rules t .operator stack
  { level := .debug, message := "parsing ".toList ++ t.quote } ::
    (analysis.remark?.bind Remark.entry?).toList ++
      match analysis.verdict.describe with
      | .ok description =>
        [{ level := .debug
           message := "result for ".toList ++ t.quote ++ ": ".toList ++ description }]
      | .error _ => []

/-- The journal of a report tells all of it. -/
theorem journal_eq_entries (h : (c.check t stack).2 = .ok report) :
    report.journal = c.entries t stack := by
  rw [check, Report.ofAnalysis] at h
  unfold entries
  dsimp only at h ⊢
  cases hdescription : (Analysis.ofText c.rules t .operator stack).verdict.describe with
  | error e =>
    rw [hdescription] at h
    cases h
  | ok description =>
    rw [hdescription] at h
    cases h
    rfl

/-- What is told of a text is printable, whatever it holds. -/
theorem printable_of_mem_entries (h : e ∈ c.entries t stack) : e.message.Printable := by
  have hquote := t.printable_quote
  rcases List.mem_append.1 h with h | h
  · rcases List.mem_cons.1 h with rfl | h
    · exact Text.printable_append.2 ⟨by decide, hquote⟩
    · obtain ⟨remark, -, hremark⟩ := Option.bind_eq_some_iff.1 (Option.mem_toList.1 h)
      exact Remark.printable_message (Remark.of_mem_entry? hremark).1
  · split at h
    · rename_i description hdescription
      obtain rfl := List.mem_singleton.1 h
      simp only [Text.printable_append]
      exact ⟨⟨⟨by decide, hquote⟩, by decide⟩, Verdict.printable_describe hdescription⟩
    · cases h

end Checker

/-- A token whose column can be written is told by how it is shown: tokens are shown alike exactly
if they agree in their characters, their role and their column. A text is told by the first message
about it. And all that is told of a text is printable, at whatever level, whatever the text holds
and however much room there is to read it, so that each message is one line. -/
theorem displays_and_messages_tell_apart :
    (∀ a b : Token, a.position.natAbs < Decimal.ceiling → b.position.natAbs < Decimal.ceiling →
      (∃ w, a.display = .ok w) ∧
        (a.display = b.display ↔
          a.value = b.value ∧ a.kind = b.kind ∧ a.position = b.position)) ∧
      (∀ t u : Text, "parsing ".toList ++ t.quote = "parsing ".toList ++ u.quote ↔ t = u) ∧
      ∀ (c : Checker) (t : Text) (stack : Stack),
        (c.entries t stack).head? =
          some { level := .debug, message := "parsing ".toList ++ t.quote } ∧
        (∀ report, (c.check t stack).2 = .ok report →
          report.journalFrom .debug = c.entries t stack) ∧
        ∀ e ∈ c.entries t stack,
          e.message.Printable ∧ ∀ x ∈ Text.lineBreaks, x ∉ e.message := by
  refine ⟨?_, ?_, ?_⟩
  · intro a b ha hb
    exact ⟨⟨_, Token.display_of_lt ha⟩, Token.display_inj ha hb⟩
  · intro t u
    rw [List.append_right_inj, Text.quote_inj]
  · intro c t stack
    refine ⟨rfl, ?_, ?_⟩
    · intro report hreport
      rw [Report.journalFrom_debug, Checker.journal_eq_entries hreport]
    · intro e he
      have hprintable := Checker.printable_of_mem_entries he
      exact ⟨hprintable, fun x => hprintable.notMem_of_mem_lineBreaks⟩

/-- A line feed is not shown like a backslash and an `n`, nor a quote that ends the characters like
one among them; and a line feed in a text makes no second line of what is told of it. -/
theorem displays_of_line_feed :
    Token.display ⟨⟨['\n'], .operand⟩, 3⟩ ≠ Token.display ⟨⟨['\\', 'n'], .operand⟩, 3⟩ ∧
      Token.display ⟨⟨['\x27', ',', ' '], .operator⟩, 3⟩ ≠ Token.display ⟨⟨[], .operator⟩, 3⟩ ∧
      ∀ e ∈ Checker.entries { rules := .standard } "1\n result for \u2028".toList,
        e.message.Printable ∧ '\n' ∉ e.message ∧ '\u2028' ∉ e.message := by
  obtain ⟨htokens, -, hmessages⟩ := displays_and_messages_tell_apart
  have hshort : (3 : Int).natAbs < Decimal.ceiling := by decide +kernel
  have hfeed := (htokens ⟨⟨['\n'], .operand⟩, 3⟩ ⟨⟨['\\', 'n'], .operand⟩, 3⟩ hshort hshort).2
  have hquote :=
    (htokens ⟨⟨['\x27', ',', ' '], .operator⟩, 3⟩ ⟨⟨[], .operator⟩, 3⟩ hshort hshort).2
  refine ⟨fun h => absurd (hfeed.1 h).1 (by decide), fun h => absurd (hquote.1 h).1 (by decide), ?_⟩
  intro e he
  obtain ⟨-, -, hprintable⟩ :=
    hmessages { rules := .standard } "1\n result for \u2028".toList .standard
  obtain ⟨hm, hlines⟩ := hprintable e he
  exact ⟨hm, hlines _ (by decide), hlines _ (by decide)⟩

end ArithSyntax
