import ArithSyntax.Proofs.DigitLimit
import ArithSyntax.Proofs.Quotation

/-!
# The place that a complaint shows

Up to the column of a fault nothing has been passed but tokens, blanks and perhaps a sign, so the
text before it is made of the characters of expressions only (`Analysis.mem_alphabet_of_mem_take`),
however much room there was to read it. Among these there is no line break, and of all of them the
tab alone is wider than one column. That is why a caret stands under the column of a fault if it
comes after as many blanks, with the tabs kept: however far apart the tab stops are, the two lines
are equally long up to there (`Text.expandTabsFrom_padding`).
-/

namespace ArithSyntax

/-! ### Before the column of a fault -/

namespace Analysis

variable {rules : Rules} {t : Text} {b : Blame} {stack : Stack} {f : Fault} {i : Nat}

/-- Reading that ends with a fault has passed tokens, blanks and perhaps a sign, and so nothing but
characters of expressions. -/
theorem mem_alphabet_of_mem_take {x : Char}
    (h : (ofText rules t b stack).verdict = { status := .faulty f, column := i })
    (hx : x ∈ t.take i) : x ∈ Symbol.alphabet := by
  obtain ⟨r, o, hgoes, hhalts, -⟩ := exists_halts b rules stack t
  cases o with
  | ok s =>
    rw [verdict_of_halts_ok hgoes hhalts] at h
    cases h
  | error e =>
    obtain ⟨-, -, w, v, -, hv, -, hread⟩ := hhalts.exists_slice hgoes.reaches
    have hcolumn : (e.column : Int) = i :=
      congrArg Verdict.column ((verdict_of_halts hgoes hhalts).symm.trans h)
    have hslice : t.slice 0 i = (t.take i).drop 0 := Text.slice_natCast t 0 i
    rw [hcolumn, hslice, List.drop_zero] at hread
    by_cases hblank : (Symbol.ofChar x).isBlank
    · rcases Symbol.isBlank_ofChar_iff.1 hblank with rfl | rfl <;> decide
    · have hmem : x ∈ Text.withoutBlanks (t.take i) := List.mem_filter.2 ⟨hx, by simpa using hblank⟩
      rw [hread] at hmem
      rcases List.mem_append.1 hmem with hmem | hmem
      · exact hgoes.reaches.mem_alphabet_of_mem_spelling hmem
      · rcases hv with rfl | ⟨rfl, -⟩
        · cases hmem
        · rw [List.mem_singleton.1 hmem]
          decide

/-- No line ends before the column of a fault. -/
theorem notMem_take_of_mem_lineBreaks {x : Char}
    (h : (ofText rules t b stack).verdict = { status := .faulty f, column := i })
    (hx : x ∈ Text.lineBreaks) : x ∉ t.take i := by
  intro hmem
  have hapart : Symbol.alphabet.all fun x => !Text.lineBreaks.contains x := by decide
  have hbreak := List.all_eq_true.1 hapart x (mem_alphabet_of_mem_take h hmem)
  rw [List.contains_iff_mem.2 hx] at hbreak
  cases hbreak

end Analysis

/-! ### Tabs -/

namespace Text

variable {w n : Nat} {t : Text}

/-- The text with spaces for its tabs, each up to the next column that is a multiple of `w`, where
the text begins at column `n` of its line. -/
def expandTabsFrom (w : Nat) : Nat → Text → Text
  | _, [] => []
  | n, c :: t =>
    if c = '\t' then List.replicate (w - n % w) ' ' ++ expandTabsFrom w (n + (w - n % w)) t
    else c :: expandTabsFrom w (if c = '\n' ∨ c = '\r' then 0 else n + 1) t

/-- The text with spaces for its tabs, where the tab stops are `w` columns apart. -/
def expandTabs (w : Nat) (t : Text) : Text := t.expandTabsFrom w 0

/-- No line ends in the text. -/
def Unbroken (t : Text) : Prop := '\n' ∉ t ∧ '\r' ∉ t

/-- A tab is as wide as the way to the next tab stop. -/
theorem expandTabsFrom_tab (w n : Nat) (t : Text) :
    expandTabsFrom w n ('\t' :: t) =
      List.replicate (w - n % w) ' ' ++ expandTabsFrom w (n + (w - n % w)) t :=
  if_pos rfl

/-- A character that is neither a tab nor the end of a line is one column wide. -/
theorem expandTabsFrom_cons {c : Char} (htab : c ≠ '\t') (hc : ¬ (c = '\n' ∨ c = '\r')) :
    expandTabsFrom w n (c :: t) = c :: expandTabsFrom w (n + 1) t := by
  rw [expandTabsFrom, if_neg htab, if_neg hc]

/-- No line ends in a text if none ends at its first character and none in the rest. -/
theorem unbroken_cons {c : Char} :
    Unbroken (c :: t) ↔ ¬ (c = '\n' ∨ c = '\r') ∧ t.Unbroken := by
  simp only [Unbroken, List.mem_cons, not_or]
  constructor
  · rintro ⟨⟨hn, htn⟩, hr, htr⟩
    exact ⟨⟨Ne.symm hn, Ne.symm hr⟩, htn, htr⟩
  · rintro ⟨⟨hn, hr⟩, htn, htr⟩
    exact ⟨⟨Ne.symm hn, htn⟩, Ne.symm hr, htr⟩

/-- What comes behind a text in its line is expanded from the column that the text reaches. -/
theorem expandTabsFrom_append {u : Text} (ht : t.Unbroken) :
    expandTabsFrom w n (t ++ u) =
      expandTabsFrom w n t ++ expandTabsFrom w (n + (expandTabsFrom w n t).length) u := by
  induction t generalizing n with
  | nil => rfl
  | cons c t ih =>
    obtain ⟨hc, ht'⟩ := unbroken_cons.1 ht
    by_cases htab : c = '\t'
    · subst htab
      rw [List.cons_append, expandTabsFrom_tab, expandTabsFrom_tab, ih ht', List.append_assoc,
        List.length_append, List.length_replicate, Nat.add_assoc]
    · rw [List.cons_append, expandTabsFrom_cons htab hc, expandTabsFrom_cons htab hc, ih ht',
        List.cons_append, List.length_cons, Nat.add_assoc, Nat.add_comm 1]

/-- Blanks as wide as a text: its tabs, and a space for every other character. -/
def padding (t : Text) : Text := t.map fun c => if c = '\t' then '\t' else ' '

/-- Blanks as wide as a text reach as far as the text, wherever the tab stops are. -/
theorem expandTabsFrom_padding (ht : t.Unbroken) :
    expandTabsFrom w n t.padding = List.replicate (expandTabsFrom w n t).length ' ' := by
  induction t generalizing n with
  | nil => rfl
  | cons c t ih =>
    obtain ⟨hc, ht'⟩ := unbroken_cons.1 ht
    by_cases htab : c = '\t'
    · subst htab
      have hhead : padding ('\t' :: t) = '\t' :: padding t := rfl
      rw [hhead, expandTabsFrom_tab, expandTabsFrom_tab, ih ht', List.replicate_append_replicate,
        List.length_append, List.length_replicate]
    · have hhead : padding (c :: t) = ' ' :: padding t := by
        rw [padding, List.map_cons, if_neg htab]
        rfl
      rw [hhead, expandTabsFrom_cons (by decide) (by decide), expandTabsFrom_cons htab hc, ih ht']
      rfl

/-- What is as wide as a text consists of spaces and tabs. -/
theorem blank_of_mem_padding {x : Char} (hx : x ∈ padding t) : x = ' ' ∨ x = '\t' := by
  obtain ⟨c, -, rfl⟩ := List.mem_map.1 hx
  split
  · exact Or.inr rfl
  · exact Or.inl rfl

/-- What is as wide as a text has no end of a line. -/
theorem unbroken_padding (t : Text) : Unbroken (padding t) := by
  constructor
  · intro hx
    rcases blank_of_mem_padding hx with h | h <;> exact absurd h (by decide)
  · intro hx
    rcases blank_of_mem_padding hx with h | h <;> exact absurd h (by decide)

/-- The tabs are where the text has them. -/
theorem getElem?_padding_eq_tab_iff {j : Nat} :
    (padding t)[j]? = some '\t' ↔ t[j]? = some '\t' := by
  rw [padding, List.getElem?_map, Option.map_eq_some_iff]
  constructor
  · rintro ⟨c, hc, htab⟩
    split at htab
    · rwa [← ‹c = '\t'›]
    · exact absurd htab (by decide)
  · exact fun h => ⟨'\t', h, rfl⟩

/-- The first character of a text is the first of the expanded text, or a space if it is a tab. -/
theorem head?_expandTabsFrom (hw : 0 < w) :
    (expandTabsFrom w n t).head? = t.head?.map fun x => if x = '\t' then ' ' else x := by
  cases t with
  | nil => rfl
  | cons c t =>
    by_cases htab : c = '\t'
    · subst htab
      have hmod : n % w < w := Nat.mod_lt n hw
      obtain ⟨k, hk⟩ := Nat.exists_eq_succ_of_ne_zero (Nat.sub_ne_zero_of_lt hmod)
      rw [expandTabsFrom_tab, hk]
      rfl
    · rw [expandTabsFrom, if_neg htab, List.head?_cons, List.head?_cons, Option.map_some,
        if_neg htab]

/-- The text behind two spaces. -/
def indented (t : Text) : Text := ' ' :: ' ' :: t

/-- Two spaces do not end a line. -/
theorem Unbroken.indented (ht : t.Unbroken) : (Text.indented t).Unbroken :=
  unbroken_cons.2 ⟨by decide, unbroken_cons.2 ⟨by decide, ht⟩⟩

/-- A caret behind blanks as wide as the beginning of a text stands under the character that comes
next in the text, or behind the text if none does, if both lines are indented. -/
theorem expandTabs_caret {i : Nat} (hw : 0 < w) (ht : Unbroken (t.take i)) :
    expandTabs w (indented (padding (t.take i) ++ ['^'])) =
        List.replicate (expandTabs w (indented (t.take i))).length ' ' ++ ['^'] ∧
      (expandTabs w (indented t))[(expandTabs w (indented (t.take i))).length]? =
        t[i]?.map fun x => if x = '\t' then ' ' else x := by
  constructor
  · have hpadding : indented (padding (t.take i) ++ ['^']) =
        padding (indented (t.take i)) ++ ['^'] := rfl
    rw [hpadding, expandTabs, expandTabsFrom_append (unbroken_padding _),
      expandTabsFrom_padding ht.indented, expandTabsFrom_cons (by decide) (by decide)]
    rfl
  · have hsplit : indented t = indented (t.take i) ++ t.drop i := by
      rw [indented, indented, List.cons_append, List.cons_append, List.take_append_drop]
    rw [hsplit, expandTabs, expandTabs, expandTabsFrom_append ht.indented,
      List.getElem?_append_right (Nat.le_refl _), Nat.sub_self, ← List.head?_eq_getElem?,
      head?_expandTabsFrom hw, List.head?_drop]

end Text

/-! ### What a complaint shows -/

namespace Failure

variable {fault : Fault} {t : Text} {i : Nat}

/-- The blanks before a caret are as wide as the text before the column. -/
theorem pointer_natCast : pointer ⟨fault, i, t⟩ = Text.padding (t.take i) := by
  have hslice : t.slice 0 i = (t.take i).drop 0 := Text.slice_natCast t 0 i
  rw [pointer, hslice]
  rfl

/-- A text that is not empty is shown with the caret below it. -/
theorem excerpt_of_ne_nil (ht : t ≠ []) :
    excerpt ⟨fault, i, t⟩ =
      [Text.indented t, Text.indented (Text.padding (t.take i) ++ ['^'])] := by
  have hempty : ¬ t.isEmpty := by rwa [List.isEmpty_iff]
  rw [excerpt, if_neg hempty, pointer_natCast]
  rfl

/-- Ten characters at most are quoted, from the column on. -/
theorem received?_of_lt (hi : i < t.length) :
    received? ⟨fault, i, t⟩ = some (Text.quote ((t.drop i).take 10)) := by
  have hlt : (i : Int) < t.length := Int.ofNat_lt.2 hi
  have hslice : t.slice i (i + quotedLength) = (t.take (i + 10)).drop i :=
    Text.slice_natCast t i (i + 10)
  rw [received?, if_pos hlt, hslice, List.drop_take, Nat.add_sub_cancel_left]

/-- At the end of the expression nothing is quoted. -/
theorem received?_of_length :
    received? ⟨fault, t.length, t⟩ =
      if t = [] then none else some "End of expression".toList := by
  rw [received?, if_neg (Int.lt_irrefl _)]
  simp only [List.isEmpty_iff]

/-- Nothing is said of an empty text only. -/
theorem received?_eq_none_iff (hi : i ≤ t.length) :
    received? ⟨fault, i, t⟩ = none ↔ t = [] := by
  rcases Nat.lt_or_eq_of_le hi with hlt | rfl
  · rw [received?_of_lt hlt]
    exact iff_of_false nofun (List.ne_nil_of_length_pos (Nat.zero_lt_of_lt hlt))
  · rw [received?_of_length]
    by_cases h : t = []
    · rw [if_pos h]
      exact iff_of_true rfl h
    · rw [if_neg h]
      exact iff_of_false nofun h

/-- The end of the expression is told apart from a quoted text. -/
theorem received?_eq_end_iff (hi : i ≤ t.length) :
    received? ⟨fault, i, t⟩ = some "End of expression".toList ↔ t ≠ [] ∧ i = t.length := by
  rcases Nat.lt_or_eq_of_le hi with hlt | rfl
  · rw [received?_of_lt hlt, Option.some.injEq]
    refine iff_of_false ?_ fun h => Nat.ne_of_lt hlt h.2
    intro h
    have hhead : Text.delimiter _ = 'E' := List.head_eq_of_cons_eq h
    rcases Text.delimiter_cases ((t.drop i).take 10) with hq | hq
    all_goals exact absurd (hq.symm.trans hhead) (by decide)
  · rw [received?_of_length]
    by_cases h : t = []
    · rw [if_pos h]
      exact iff_of_false nofun fun h' => h'.1 h
    · rw [if_neg h]
      exact iff_of_true rfl ⟨h, rfl⟩

/-- The quoted characters are those from the column on. -/
theorem exists_quoted_of_lt (hi : i < t.length) :
    ∃ u : Text, received? ⟨fault, i, t⟩ = some u.quote ∧ u ≠ [] ∧ u.length ≤ 10 ∧
      u.head? = t[i]? ∧ u <+: t.drop i := by
  have hhead : ((t.drop i).take 10).head? = t[i]? := by
    rw [List.head?_take, if_neg (by decide), List.head?_drop]
  refine ⟨_, received?_of_lt hi, ?_, List.length_take_le _ _, hhead, List.take_prefix _ _⟩
  intro hnil
  rw [hnil, List.getElem?_eq_getElem hi] at hhead
  cases hhead

/-- What a complaint says, if the verdict can be put into words. -/
theorem complaint_of_describe {f : Failure} {description : Text}
    (h : f.verdict.describe = .ok description) :
    f.complaint = .ok {
      summary := description
      excerpt := f.excerpt
      received? := f.received?
      expected? := some f.fault.expected.toList
      suggestion? := some f.fault.suggestion.toList } := by
  rw [complaint, h]
  rfl

end Failure

namespace Checker

variable {c : Checker} {t : Text} {stack : Stack} {f : Failure}

/-- The failure of a text is its fault at the column where it was found. -/
theorem exists_column_of_demand (h : (c.demand t stack).2 = .error (.failed f)) :
    ∃ (fault : Fault) (i : Nat) (description : Text), i ≤ t.length ∧
      (Analysis.ofText c.rules t .operator stack).verdict =
          { status := .faulty fault, column := i } ∧
      f = ⟨fault, i, t⟩ ∧ f.verdict.describe = .ok description := by
  simp only [demand, check, Report.ofAnalysis] at h
  cases hdescription : (Analysis.ofText c.rules t .operator stack).verdict.describe with
  | error e =>
    rw [hdescription] at h
    cases h
  | ok description =>
    rw [hdescription] at h
    cases hstatus : (Analysis.ofText c.rules t .operator stack).verdict.status with
    | wellFormed =>
      have hrefused : Failure.ofVerdict (Analysis.ofText c.rules t .operator stack).verdict t =
          .error .noFault := by
        rw [Failure.ofVerdict, hstatus]
      simp [hrefused] at h
    | faulty fault =>
      obtain ⟨i, hi, hverdict⟩ := Analysis.exists_column_of_status hstatus
      have hfailure : Failure.ofVerdict (Analysis.ofText c.rules t .operator stack).verdict t =
          .ok ⟨fault, i, t⟩ := by
        rw [hverdict]
        rfl
      simp [hfailure] at h
      obtain rfl := h
      rw [hverdict] at hdescription
      exact ⟨fault, i, description, hi, hverdict, rfl, hdescription⟩

/-- The complaint about a text that is not well formed is about its fault. Up to the column of the
fault the text consists of characters of expressions, and no line ends in it. The complaint quotes
at most ten characters from the column on, or says that the text ends there, or, if there is no
text, says nothing. Below the text it shows a caret behind as many blanks as there are characters
before the column, with the tabs where the text has them; so with tab stops at any distance the
caret stands under the character at the column, or behind the text. -/
theorem complaint_points_at_fault (c : Checker) {t : Text} (stack : Stack)
    (ht : t.length < Decimal.ceiling)
    (hfaulty : ¬ (Analysis.ofText c.rules t .operator stack).isWellFormed) :
    ∃ (f : Failure) (i : Nat) (complaint : Complaint),
      (c.demand t stack).2 = .error (.failed f) ∧ f.complaint = .ok complaint ∧
      f.verdict = (Analysis.ofText c.rules t .operator stack).verdict ∧ f.column = i ∧
      f.expression = t ∧ i ≤ t.length ∧
      (∀ x ∈ t.take i, x ∈ Symbol.alphabet ∧ x ∉ Text.lineBreaks) ∧
      (complaint.received? = none ↔ t = []) ∧
      (complaint.received? = some "End of expression".toList ↔ t ≠ [] ∧ i = t.length) ∧
      (i < t.length → ∃ u : Text, complaint.received? = some u.quote ∧
        u ≠ [] ∧ u.length ≤ 10 ∧ u.head? = t[i]? ∧ u <+: t.drop i) ∧
      (t ≠ [] → ∃ blanks : Text,
        complaint.excerpt = [Text.indented t, Text.indented (blanks ++ ['^'])] ∧
        blanks.length = i ∧ (∀ x ∈ blanks, x = ' ' ∨ x = '\t') ∧
        (∀ j < i, blanks[j]? = some '\t' ↔ t[j]? = some '\t') ∧
        ∀ w > 0, ∃ k,
          Text.expandTabs w (Text.indented (blanks ++ ['^'])) = List.replicate k ' ' ++ ['^'] ∧
          k = (Text.expandTabs w (Text.indented (t.take i))).length ∧
          (Text.expandTabs w (Text.indented t))[k]? =
            t[i]?.map fun x => if x = '\t' then ' ' else x) := by
  obtain ⟨d, hd⟩ := Analysis.exists_describe c.rules stack ht
  obtain ⟨f, hdemand, -⟩ := exists_failed_of_describe hfaulty hd
  obtain ⟨fault, i, description, hi, hverdict, rfl, hdescription⟩ := exists_column_of_demand hdemand
  have hbefore (x : Char) (hx : x ∈ t.take i) : x ∈ Symbol.alphabet ∧ x ∉ Text.lineBreaks :=
    ⟨Analysis.mem_alphabet_of_mem_take hverdict hx,
      fun hbreak => Analysis.notMem_take_of_mem_lineBreaks hverdict hbreak hx⟩
  -- a line break before the column would set the tab stops anew
  have hunbroken : Text.Unbroken (t.take i) :=
    ⟨fun h => (hbefore _ h).2 (by decide), fun h => (hbefore _ h).2 (by decide)⟩
  refine ⟨_, i, _, hdemand, Failure.complaint_of_describe hdescription, hverdict.symm, rfl, rfl, hi,
    hbefore, Failure.received?_eq_none_iff hi, Failure.received?_eq_end_iff hi,
    Failure.exists_quoted_of_lt, ?_⟩
  intro hne
  refine ⟨Text.padding (t.take i), Failure.excerpt_of_ne_nil hne, ?_,
    fun x => Text.blank_of_mem_padding, ?_, ?_⟩
  · rw [Text.padding, List.length_map, List.length_take, Nat.min_eq_left hi]
  · intro j hj
    rw [Text.getElem?_padding_eq_tab_iff, List.getElem?_take_of_lt hj]
  · intro w hw
    obtain ⟨hcaret, hchar⟩ := Text.expandTabs_caret hw hunbroken
    exact ⟨_, hcaret, rfl, hchar⟩

/-- Two tabs stand before a character that is no term. With tab stops eight columns apart both lines
reach sixteen columns up to it, and with tab stops three apart nine. -/
theorem complaint_behind_tabs :
    ∃ (f : Failure) (complaint : Complaint) (blanks u : Text),
      (demand { rules := .standard } "\t12 *\tx + 3456789012".toList).2 = .error (.failed f) ∧
      f.column = 6 ∧ f.complaint = .ok complaint ∧
      complaint.received? = some u.quote ∧ u.head? = some 'x' ∧
      complaint.excerpt =
        [Text.indented "\t12 *\tx + 3456789012".toList, Text.indented (blanks ++ ['^'])] ∧
      Text.expandTabs 8 (Text.indented (blanks ++ ['^'])) = List.replicate 16 ' ' ++ ['^'] ∧
      (Text.expandTabs 8 (Text.indented "\t12 *\tx + 3456789012".toList))[16]? = some 'x' ∧
      Text.expandTabs 3 (Text.indented (blanks ++ ['^'])) = List.replicate 9 ' ' ++ ['^'] := by
  have hlength : "\t12 *\tx + 3456789012".toList.length < Decimal.ceiling := by decide +kernel
  have hverdict :
      (Analysis.ofText .standard "\t12 *\tx + 3456789012".toList .operator .standard).verdict =
        { status := .faulty .missingTerm, column := 6 } := by decide +kernel
  have hfaulty : ¬ (Analysis.ofText .standard "\t12 *\tx + 3456789012".toList .operator
      .standard).isWellFormed := by
    rw [Analysis.isWellFormed, hverdict]
    exact Bool.false_ne_true
  obtain ⟨f, i, complaint, hdemand, hcomplaint, hf, hcolumn, -, -, -, -, -, hquoted, hexcerpt⟩ :=
    complaint_points_at_fault { rules := .standard } .standard hlength hfaulty
  rw [hverdict] at hf
  have hsix : f.column = 6 := congrArg Verdict.column hf
  obtain rfl : i = 6 := by omega
  obtain ⟨u, hu, -, -, hhead, -⟩ := hquoted (by decide)
  obtain ⟨blanks, hlines, -, -, -, hcaret⟩ := hexcerpt (by decide)
  obtain ⟨k, hwide, rfl, hchar⟩ := hcaret 8 (by decide)
  obtain ⟨l, hnarrow, rfl, -⟩ := hcaret 3 (by decide)
  exact ⟨f, complaint, blanks, u, hdemand, hsix, hcomplaint, hu, hhead, hlines, hwide, hchar,
    hnarrow⟩

end Checker

end ArithSyntax
