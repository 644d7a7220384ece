import ArithSyntax.Proofs.Display
import ArithSyntax.Proofs.Excerpt

/-!
# The line with the caret

A complaint shows the text as it is, and below it the line with the caret. If the text has line
feeds, so has what is shown of it, and the message has as many lines more. No line ends before the
column of a fault, so the column is on the first of these lines; but the line with the caret comes
after the last of them. The caret is on the line below the column exactly if the text has no line
feed (`Checker.caret_on_next_line_iff`).
-/

namespace ArithSyntax

/-! ### Lines -/

namespace Text

variable {t u : Text} {i : Nat}

/-- The number of the line, from zero, on which a column of a text stands if the text is split at
line feeds. A line feed stands on the line that it ends. -/
def lineOf (t : Text) (i : Nat) : Nat := (t.take i).count '\n'

/-- The characters that a text begins with, up to the first line feed. -/
def firstLine (t : Text) : Text := t.takeWhile fun c => c != '\n'

/-- A text without a line feed is one line. -/
theorem firstLine_of_notMem (ht : '\n' ∉ t) : firstLine t = t := by
  refine List.takeWhile_eq_self_iff.2 fun c hc => ?_
  rw [bne_iff_ne]
  rintro rfl
  exact ht hc

/-- A line goes on to its line feed, and no further. -/
theorem firstLine_append (hu : u.FirstNot fun c => c != '\n') :
    firstLine (t ++ u) = firstLine t :=
  hu.takeWhile_append

/-- There is one line more than there are line feeds. -/
theorem length_splitOn (t : Text) : (t.splitOn '\n').length = t.count '\n' + 1 := by
  induction t with
  | nil => rfl
  | cons c t ih =>
    rw [List.splitOn_cons_eq_if_modifyHead, List.count_cons]
    split
    · rw [List.length_cons, ih]
    · rw [List.length_modifyHead, ih]

/-- The first of the pieces between line feeds is the first line. -/
theorem head?_splitOn (t : Text) : (t.splitOn '\n').head? = some (firstLine t) := by
  induction t with
  | nil => rfl
  | cons c t ih =>
    rw [List.splitOn_cons_eq_if_modifyHead, firstLine, List.takeWhile_cons]
    by_cases hc : c = '\n'
    · subst hc
      rfl
    · have hne : ¬ (c == '\n') := by rwa [beq_iff_eq]
      rw [if_neg hne, if_pos (bne_iff_ne.2 hc), List.head?_modifyHead, ih]
      rfl

/-- Behind a line feed the next line begins. -/
theorem getElem?_splitOn (t u : Text) :
    ((t ++ '\n' :: u).splitOn '\n')[t.count '\n' + 1]? = some (firstLine u) := by
  rw [List.splitOn_append_cons_self, ← length_splitOn, List.getElem?_append_right (Nat.le_refl _),
    Nat.sub_self, ← List.head?_eq_getElem?, head?_splitOn]

end Text

/-! ### The lines of a complaint -/

namespace Complaint

/-- The first line of a complaint. -/
def headline (c : Complaint) : Text := "Error: ".toList ++ c.summary

/-- The column of the message at which the column `i` of the expression is shown: it comes after the
first line with its line feed and after an indent. -/
def shownAt (c : Complaint) (i : Nat) : Nat := c.headline.length + 3 + i

/-- The column of the message at which the caret is shown: it comes after the expression `t` with a
line feed behind it, after an indent, and after `i` blanks. -/
def caretAt (c : Complaint) (t : Text) (i : Nat) : Nat := c.shownAt t.length + 3 + i

/-- The line with the caret comes directly after the line that shows the column `i` of the
expression `t`. -/
def CaretFollows (c : Complaint) (t : Text) (i : Nat) : Prop :=
  c.render.lineOf (c.caretAt t i) = c.render.lineOf (c.shownAt i) + 1

instance (c : Complaint) (t : Text) (i : Nat) : Decidable (c.CaretFollows t i) :=
  inferInstanceAs (Decidable (_ = _))

/-- What a complaint shows of the column `i` of the expression `t`: the expression and the caret,
each behind an indent, with no line feed up to either but the one that ends the first line and those
of the expression. -/
structure Shows (c : Complaint) (t : Text) (i : Nat) : Prop where
  /-- The expression is shown, and below it the caret. -/
  excerpt_eq : c.excerpt = [Text.indented t, Text.indented (Text.padding (t.take i) ++ ['^'])]
  /-- The column is one of the expression. -/
  le_length : i ≤ t.length
  /-- The first line is one line. -/
  headline : '\n' ∉ c.headline
  /-- The column is on the first line of the expression. -/
  before : '\n' ∉ t.take i

variable {c : Complaint} {t : Text} {i : Nat}

/-- The message with its parts. -/
theorem Shows.exists_render (h : c.Shows t i) :
    ∃ details : Text, (details.FirstNot fun c => c != '\n') ∧
      c.render = c.headline ++ '\n' :: (Text.indented t ++ '\n' ::
        (Text.indented (Text.padding (t.take i) ++ ['^']) ++ details)) := by
  obtain ⟨details, hdetails⟩ : ∃ details, c.lines = c.headline :: Text.indented t ::
      Text.indented (Text.padding (t.take i) ++ ['^']) :: details := by
    rw [lines, h.excerpt_eq]
    exact ⟨_, rfl⟩
  rw [render, hdetails]
  cases details with
  | nil =>
    refine ⟨[], nofun, ?_⟩
    simp only [List.intercalate_cons_cons, List.intercalate_singleton, List.append_assoc,
      List.append_nil, List.singleton_append]
  | cons line rest =>
    refine ⟨'\n' :: ['\n'].intercalate (line :: rest), ?_, ?_⟩
    · exact Text.firstNot_cons.2 rfl
    · simp only [List.intercalate_cons_cons, List.append_assoc, List.singleton_append]

/-- The message up to the column of the expression. -/
theorem Shows.take_shownAt (h : c.Shows t i) :
    c.render.take (c.shownAt i) = c.headline ++ '\n' :: Text.indented (t.take i) ∧
      t.drop i <+: c.render.drop (c.shownAt i) := by
  obtain ⟨details, -, hrender⟩ := h.exists_render
  have hlength : (c.headline ++ '\n' :: Text.indented (t.take i)).length = c.shownAt i := by
    simp only [Text.indented, shownAt, List.length_append, List.length_cons, List.length_take,
      Nat.min_eq_left h.le_length]
    omega
  have hsplit : Text.indented t = Text.indented (t.take i) ++ t.drop i :=
    (congrArg Text.indented (List.take_append_drop i t)).symm
  have hrest : c.render = (c.headline ++ '\n' :: Text.indented (t.take i)) ++ (t.drop i ++
      '\n' :: (Text.indented (Text.padding (t.take i) ++ ['^']) ++ details)) := by
    rw [hrender, hsplit]
    simp only [List.append_assoc, List.cons_append]
  rw [hrest, ← hlength, List.take_left, List.drop_left]
  exact ⟨rfl, List.prefix_append _ _⟩

/-- The message up to the caret. -/
theorem Shows.take_caretAt (h : c.Shows t i) :
    c.render.take (c.caretAt t i) = c.headline ++ '\n' :: (Text.indented t ++ '\n' ::
        Text.indented (Text.padding (t.take i))) ∧
      c.render[c.caretAt t i]? = some '^' := by
  obtain ⟨details, -, hrender⟩ := h.exists_render
  have hlength : (c.headline ++ '\n' :: (Text.indented t ++ '\n' ::
      Text.indented (Text.padding (t.take i)))).length = c.caretAt t i := by
    simp only [Text.indented, Text.padding, shownAt, caretAt, List.length_append, List.length_cons,
      List.length_map, List.length_take, Nat.min_eq_left h.le_length]
    omega
  have hrest : c.render = (c.headline ++ '\n' :: (Text.indented t ++ '\n' ::
      Text.indented (Text.padding (t.take i)))) ++ '^' :: details := by
    rw [hrender]
    simp only [Text.indented, List.append_assoc, List.cons_append, List.nil_append]
  rw [hrest, ← hlength, List.take_left, List.getElem?_append_right (Nat.le_refl _), Nat.sub_self]
  exact ⟨rfl, rfl⟩

/-- The first line comes before the line of the column. -/
theorem Shows.lineOf_shownAt (h : c.Shows t i) : c.render.lineOf (c.shownAt i) = 1 := by
  have hheadline := List.count_eq_zero.2 h.headline
  have hbefore := List.count_eq_zero.2 h.before
  rw [Text.lineOf, h.take_shownAt.1]
  simp [Text.indented, List.count_append, hheadline, hbefore]

/-- The first line and those of the expression come before the line of the caret. -/
theorem Shows.lineOf_caretAt (h : c.Shows t i) :
    c.render.lineOf (c.caretAt t i) = t.count '\n' + 2 := by
  have hheadline := List.count_eq_zero.2 h.headline
  have hpadding := List.count_eq_zero.2 (Text.unbroken_padding (t.take i)).1
  rw [Text.lineOf, h.take_caretAt.1]
  simp [Text.indented, List.count_append, hheadline, hpadding]

/-- The line of the column shows the expression up to its first line feed. -/
theorem Shows.getElem?_splitOn_shownAt (h : c.Shows t i) :
    (c.render.splitOn '\n')[c.render.lineOf (c.shownAt i)]? =
      some (Text.indented t.firstLine) := by
  obtain ⟨details, -, hrender⟩ := h.exists_render
  have hcount : c.headline.count '\n' + 1 = 1 := by rw [List.count_eq_zero.2 h.headline]
  rw [h.lineOf_shownAt, hrender, ← hcount, Text.getElem?_splitOn,
    Text.firstLine_append (Text.firstNot_cons.2 rfl)]
  rfl

/-- The line of the caret shows the caret behind blanks, and nothing else. -/
theorem Shows.getElem?_splitOn_caretAt (h : c.Shows t i) :
    (c.render.splitOn '\n')[c.render.lineOf (c.caretAt t i)]? =
      some (Text.indented (Text.padding (t.take i) ++ ['^'])) := by
  obtain ⟨details, hdetails, hrender⟩ := h.exists_render
  have hassoc : c.render = (c.headline ++ '\n' :: Text.indented t) ++ '\n' ::
      (Text.indented (Text.padding (t.take i) ++ ['^']) ++ details) := by
    rw [hrender, List.append_assoc, List.cons_append]
  have hcount : (c.headline ++ '\n' :: Text.indented t).count '\n' + 1 = t.count '\n' + 2 := by
    simp [Text.indented, List.count_append, List.count_eq_zero.2 h.headline]
  have hline : '\n' ∉ Text.indented (Text.padding (t.take i) ++ ['^']) := by
    have hpadding := (Text.unbroken_padding (t.take i)).1
    simp [Text.indented, hpadding]
  rw [h.lineOf_caretAt, ← hcount, hassoc, Text.getElem?_splitOn, Text.firstLine_append hdetails,
    Text.firstLine_of_notMem hline]

/-- Each line feed of the expression is a line between the column and the caret. -/
theorem Shows.caretFollows_iff (h : c.Shows t i) : c.CaretFollows t i ↔ '\n' ∉ t := by
  rw [CaretFollows, h.lineOf_shownAt, h.lineOf_caretAt, ← List.count_eq_zero]
  omega

end Complaint

/-! ### The complaint about a text -/

namespace Checker

variable {t : Text} {f : Failure}

/-- The complaint about a text that is not well formed shows the column of the fault, on a line that
ends with the first line feed of the text, and the caret, on a line of its own. The caret is on the
next line exactly if there is no line feed in the text: each one makes a line between. -/
theorem caret_on_next_line_iff (c : Checker) (stack : Stack) (ht : t ≠ [])
    (h : (c.demand t stack).2 = .error (.failed f)) :
    ∃ (i : Nat) (complaint : Complaint), f.complaint = .ok complaint ∧
      f.column = i ∧ f.expression = t ∧ i ≤ t.length ∧ '\n' ∉ t.take i ∧
      t.drop i <+: complaint.render.drop (complaint.shownAt i) ∧
      complaint.render[complaint.caretAt t i]? = some '^' ∧
      (complaint.render.splitOn '\n')[complaint.render.lineOf (complaint.shownAt i)]? =
        some (Text.indented t.firstLine) ∧
      (complaint.render.splitOn '\n')[complaint.render.lineOf (complaint.caretAt t i)]? =
        some (Text.indented (Text.padding (t.take i) ++ ['^'])) ∧
      complaint.render.lineOf (complaint.caretAt t i) =
        complaint.render.lineOf (complaint.shownAt i) + t.count '\n' + 1 ∧
      (complaint.CaretFollows t i ↔ '\n' ∉ t) := by
  obtain ⟨fault, i, description, hi, hverdict, rfl, hdescription⟩ := exists_column_of_demand h
  have hcomplaint := Failure.complaint_of_describe hdescription
  generalize hc : Complaint.mk _ _ _ _ _ = complaint at hcomplaint
  have hshows : complaint.Shows t i := by
    constructor
    · rw [← hc]
      exact Failure.excerpt_of_ne_nil ht
    · exact hi
    · -- the headline is printable, so it is one line
      have hprintable : complaint.headline.Printable := by
        rw [← hc]
        exact Text.printable_append.2 ⟨by decide, Verdict.printable_describe hdescription⟩
      exact hprintable.notMem_of_mem_lineBreaks (by decide)
    · exact Analysis.notMem_take_of_mem_lineBreaks hverdict (by decide)
  have hlines : complaint.render.lineOf (complaint.caretAt t i) =
      complaint.render.lineOf (complaint.shownAt i) + t.count '\n' + 1 := by
    rw [hshows.lineOf_caretAt, hshows.lineOf_shownAt]
    omega
  exact ⟨i, complaint, hcomplaint, rfl, rfl, hi, hshows.before, hshows.take_shownAt.2,
    hshows.take_caretAt.2, hshows.getElem?_splitOn_shownAt, hshows.getElem?_splitOn_caretAt, hlines,
    hshows.caretFollows_iff⟩

/-- In a text without a line feed the caret is on the line below the fault. -/
theorem caret_below_foreign_character :
    "(\t3 x".toList ≠ [] ∧
      (demand { rules := .standard } "(\t3 x".toList).2 =
        .error (.failed ⟨.missingClosing, 4, "(\t3 x".toList⟩) ∧
      ∃ complaint : Complaint,
        Failure.complaint ⟨.missingClosing, 4, "(\t3 x".toList⟩ = .ok complaint ∧
        complaint.CaretFollows "(\t3 x".toList 4 := by
  have hne : "(\t3 x".toList ≠ [] := by decide
  have hdemand : (demand { rules := .standard } "(\t3 x".toList).2 =
      .error (.failed ⟨.missingClosing, 4, "(\t3 x".toList⟩) := by decide +kernel
  obtain ⟨i, complaint, hcomplaint, hcolumn, -, -, -, -, -, -, -, -, hfollows⟩ :=
    caret_on_next_line_iff { rules := .standard } .standard hne hdemand
  obtain rfl : 4 = i := Int.ofNat.inj hcolumn
  exact ⟨hne, hdemand, complaint, hcomplaint, hfollows.2 (by decide)⟩

/-- The text goes on behind the fault with a line feed. What comes after it is on the line below the
fault, and the caret is on the line below that. -/
theorem caret_below_further_line :
    (demand { rules := .standard } "1 x\n2".toList).2 =
        .error (.failed ⟨.extraneous, 2, "1 x\n2".toList⟩) ∧
      ∃ complaint : Complaint,
        Failure.complaint ⟨.extraneous, 2, "1 x\n2".toList⟩ = .ok complaint ∧
        (complaint.render.splitOn '\n').take 4 = [
          "Error: Extraneous symbol after valid expression at column 2".toList,
          "  1 x".toList,
          "2".toList,
          "    ^".toList] ∧
        complaint.render.lineOf (complaint.shownAt 2) = 1 ∧
        complaint.render.lineOf (complaint.caretAt "1 x\n2".toList 2) = 3 ∧
        ¬ complaint.CaretFollows "1 x\n2".toList 2 := by
  have hdescription : (Failure.verdict ⟨.extraneous, 2, "1 x\n2".toList⟩).describe =
      .ok "Extraneous symbol after valid expression at column 2".toList := by decide +kernel
  refine ⟨by decide +kernel, _, Failure.complaint_of_describe hdescription, ?_, ?_, ?_, ?_⟩
  all_goals decide +kernel

end Checker

end ArithSyntax
