import ArithSyntax.Cursor.Command
import ArithSyntax.Proofs.Text
import Mathlib.Order.Bounds.Basic

/-!
# What commands do to a cursor

A cursor is known by the text in which it stands and by its column. What each command does is told
in these terms (`Command.Effect`, `Cursor.effect_step`): no command but a restart changes the text
or goes back, and a question or a refused move changes nothing. So in a list of commands the column
never leaves the text, and between two restarts it only grows (`Cursor.follow_onward`).
-/

namespace ArithSyntax

/-! ### Columns of a text -/

namespace Text

/-- The class of the character at a column, if there is one. -/
def classAt (t : Text) (k : Nat) : Option Symbol := t[k]?.map Symbol.ofChar

/-- The blanks that stand in a text from column `n` on end at column `k`: that is the first column
from `n` on with a character that is no blank, or with none. -/
def BlanksEndAt (t : Text) (n k : Nat) : Prop :=
  IsLeast {k | n ≤ k ∧ (k = t.length ∨ ∃ s, t.classAt k = some s ∧ ¬ s.isBlank)} k

end Text

namespace Cursor

variable {c : Cursor} {s : Symbol} {m : Command} {ms : List Command}

/-- The characters ahead are those of the text from the position on. -/
theorem getElem?_text_position_add (c : Cursor) (k : Nat) :
    c.text[c.position + k]? = c.ahead[k]? := by
  rw [← List.getElem?_drop, drop_text_position]

/-- The class at the position is that of the next character. -/
theorem classAt_position (c : Cursor) :
    c.text.classAt c.position = c.ahead.head?.map Symbol.ofChar := by
  rw [Text.classAt, getElem?_text_position]

/-- Looking ahead shows the class at the position, or the end of the text. -/
theorem lookahead_eq_getD (c : Cursor) :
    c.lookahead = (c.text.classAt c.position).getD .endOfText := by
  rw [classAt_position, lookahead]
  cases c.ahead with
  | nil => rfl
  | cons x u => rfl

/-- A class comes next if it is the one at the position. -/
theorem nextIs_iff_classAt : c.nextIs s ↔ c.text.classAt c.position = some s := by
  rw [classAt_position, nextIs_iff, Option.map_eq_some_iff]
  simp only [List.head?_eq_some_iff, exists_and_right]

/-- The class of the null character is also what stands past the last character. Whether a character
of it comes next is decided by the column. -/
theorem nextIs_iff_lookahead : c.nextIs s ↔ c.position < c.text.length ∧ c.lookahead = s := by
  constructor
  · intro h
    obtain ⟨x, u, hahead, rfl⟩ := nextIs_iff.1 h
    rw [length_text, lookahead, hahead, List.length_cons]
    exact ⟨Nat.lt_add_of_pos_right (Nat.succ_pos _), rfl⟩
  · rintro ⟨hlt, rfl⟩
    rw [length_text] at hlt
    cases hahead : c.ahead with
    | nil =>
      rw [hahead] at hlt
      exact absurd hlt (Nat.lt_irrefl _)
    | cons x u => exact nextIs_iff.2 ⟨x, u, hahead, by rw [lookahead, hahead]⟩

/-! ### Moves -/

/-- An advance is by one character, and by none at the end. -/
theorem position_advance (c : Cursor) :
    c.advance.position = min (c.position + 1) c.text.length := by
  rw [advance, position_forward, length_text]
  omega

/-- A class that does not come next is not passed. -/
theorem pass_of_not_nextIs (h : ¬ c.nextIs s) : c.pass s = c := if_neg h

/-- Passing a class is by one character if it comes next. -/
theorem position_pass (c : Cursor) (s : Symbol) :
    (c.pass s).position = c.position + (c.nextIs s).toNat := by
  by_cases h : c.nextIs s
  · have hlt := (nextIs_iff_lookahead.1 h).1
    rw [pass, if_pos h, position_advance, h, Bool.toNat_true, Nat.min_eq_left hlt]
  · rw [pass_of_not_nextIs h, Bool.eq_false_of_not_eq_true h]
    rfl

/-- Skipping blanks leads to where they end. -/
theorem blanksEndAt_skipBlanks (c : Cursor) :
    c.text.BlanksEndAt c.position c.skipBlanks.position := by
  obtain ⟨w, hw, hahead, hposition⟩ := c.exists_blank_append
  refine ⟨⟨by omega, ?_⟩, ?_⟩
  · have hclass := c.skipBlanks.classAt_position
    have hlength := c.skipBlanks.length_text
    have hfirst := c.noBlankFirst_ahead_skipBlanks
    rw [text_skipBlanks] at hclass hlength
    cases hrest : c.skipBlanks.ahead with
    | nil =>
      rw [hrest] at hlength
      exact Or.inl hlength.symm
    | cons x u =>
      rw [hrest] at hclass hfirst
      refine Or.inr ⟨_, hclass, ?_⟩
      rw [Text.firstNot_cons.1 hfirst]
      exact Bool.false_ne_true
  · rintro k ⟨hk, hend⟩
    by_contra hlt
    -- before that column there are blanks only
    obtain ⟨j, rfl⟩ := Nat.exists_eq_add_of_le hk
    have hj : j < w.length := by omega
    rcases hend with hend | ⟨s, hs, hblank⟩
    · rw [length_text, hahead, List.length_append] at hend
      omega
    · rw [Text.classAt, getElem?_text_position_add, hahead, List.getElem?_append_left hj,
        List.getElem?_eq_getElem hj] at hs
      cases hs
      exact hblank (hw _ (List.getElem_mem hj))

/-- No blank comes after the blanks. -/
theorem not_nextIs_skipBlanks (hs : s.isBlank) : ¬ c.skipBlanks.nextIs s := by
  intro h
  obtain ⟨x, u, hahead, rfl⟩ := nextIs_iff.1 h
  have hfirst := c.noBlankFirst_ahead_skipBlanks
  rw [hahead] at hfirst
  exact Bool.false_ne_true ((Text.firstNot_cons.1 hfirst).symm.trans hs)

/-- What lies between a column that has been passed and the cursor goes on with what is ahead. -/
theorem since_append_ahead {k : Nat} (hk : k ≤ c.position) :
    c.since k ++ c.ahead = c.text.drop k := by
  have hslice : c.since k = (c.text.take c.position).drop k := Text.slice_natCast _ _ _
  have hlength : k ≤ (c.text.take c.position).length := by
    rw [List.length_take, Nat.min_eq_left c.position_le_length_text]
    exact hk
  rw [hslice, ← drop_text_position, ← List.drop_append_of_le_length hlength,
    List.take_append_drop]

/-! ### Commands -/

/-- Whether the command begins another text. -/
def Command.restarts : Command → Bool
  | .restart _ => true
  | _ => false

/-- Whether the command asks only. -/
def Command.asks : Command → Bool
  | .nextIs _ | .atEnd | .lookahead | .since _ | .ahead | .text | .position => true
  | .restart _ | .pass _ | .passAfterBlanks _ | .advance | .skipBlanks => false

/-- What comes of a command: from the cursor `c` it leads to `d` with the reply `r`. -/
def Command.Effect (c d : Cursor) (r : Reply) : Command → Prop
  | .restart t => d.text = t ∧ d.position = 0 ∧ r = .done
  | .nextIs s => ∃ b : Bool, r = .flag b ∧ (b ↔ c.position < c.text.length ∧ c.lookahead = s)
  | .pass s => ∃ b : Bool, r = .flag b ∧ (b ↔ c.text.classAt c.position = some s) ∧
      d.position = c.position + b.toNat ∧ (¬ b → d = c)
  | .passAfterBlanks s => ∃ (b : Bool) (k : Nat), r = .flag b ∧ c.text.BlanksEndAt c.position k ∧
      (b ↔ c.text.classAt k = some s) ∧ d.position = k + b.toNat ∧ (s.isBlank → ¬ b)
  | .advance => d.position = min (c.position + 1) c.text.length ∧ r = .done
  | .skipBlanks => c.text.BlanksEndAt c.position d.position ∧ r = .done
  | .atEnd => ∃ b : Bool, r = .flag b ∧ (b ↔ c.position = c.text.length)
  | .lookahead => r = .symbol ((c.text.classAt c.position).getD .endOfText)
  | .since i => ∃ u : Text, r = .text u ∧
      ∀ k : Nat, i = k → k ≤ c.position → u ++ c.text.drop c.position = c.text.drop k
  | .ahead => r = .text (c.text.drop c.position)
  | .text => r = .text c.text
  | .position => r = .column c.position

/-- Every command does what its effect tells. -/
theorem effect_step (c : Cursor) (m : Command) : m.Effect c (c.step m).1 (c.step m).2 := by
  cases m with
  | restart t => exact ⟨text_start t, rfl, rfl⟩
  | nextIs s => exact ⟨_, rfl, nextIs_iff_lookahead⟩
  | pass s => exact ⟨_, rfl, nextIs_iff_classAt, c.position_pass s, pass_of_not_nextIs⟩
  | passAfterBlanks s =>
    have hclass : c.skipBlanks.nextIs s ↔ c.text.classAt c.skipBlanks.position = some s := by
      rw [nextIs_iff_classAt, text_skipBlanks]
    exact ⟨_, _, rfl, c.blanksEndAt_skipBlanks, hclass, c.skipBlanks.position_pass s,
      not_nextIs_skipBlanks⟩
  | advance => exact ⟨c.position_advance, rfl⟩
  | skipBlanks => exact ⟨c.blanksEndAt_skipBlanks, rfl⟩
  | atEnd => exact ⟨_, rfl, atEnd_iff⟩
  | lookahead => exact congrArg Reply.symbol c.lookahead_eq_getD
  | since i =>
    refine ⟨_, rfl, ?_⟩
    rintro k rfl hk
    rw [drop_text_position, since_append_ahead hk]
  | ahead => exact congrArg Reply.text c.drop_text_position.symm
  | text | position => rfl

/-- A question changes nothing. -/
theorem step_of_asks (hm : m.asks) : (c.step m).1 = c := by
  cases m with
  | nextIs | atEnd | lookahead | since | ahead | text | position => rfl
  | restart | pass | passAfterBlanks | advance | skipBlanks => cases hm

/-- No command but a restart changes the text or goes back. -/
theorem step_onward (hm : ¬ m.restarts) :
    (c.step m).1.text = c.text ∧ c.position ≤ (c.step m).1.position := by
  cases m with
  | restart => exact absurd rfl hm
  | pass s =>
    refine ⟨c.text_pass s, ?_⟩
    have hposition := c.position_pass s
    simp only [step]
    omega
  | passAfterBlanks s =>
    refine ⟨(c.skipBlanks.text_pass s).trans c.text_skipBlanks, ?_⟩
    have hposition := c.skipBlanks.position_pass s
    have hskip := c.blanksEndAt_skipBlanks.1.1
    simp only [step]
    omega
  | advance =>
    refine ⟨c.text_advance, ?_⟩
    have hposition := c.position_advance
    have hle := c.position_le_length_text
    simp only [step]
    omega
  | skipBlanks => exact ⟨c.text_skipBlanks, c.blanksEndAt_skipBlanks.1.1⟩
  | nextIs | atEnd | lookahead | since | ahead | text | position => exact ⟨rfl, Nat.le_refl _⟩

/-! ### Lists of commands -/

/-- The cursor after all of the commands. -/
def follow (c : Cursor) (ms : List Command) : Cursor := ms.foldl (fun c m => (c.step m).1) c

/-- Commands are followed one part after the other. -/
theorem follow_append (c : Cursor) (ms ns : List Command) :
    c.follow (ms ++ ns) = (c.follow ms).follow ns :=
  List.foldl_append

/-- Each command is carried out on the cursor that those before it have left. -/
theorem getElem?_run (c : Cursor) (ms : List Command) (i : Nat) :
    (c.run ms)[i]? = ms[i]?.map (c.follow (ms.take i)).step := by
  induction ms generalizing c i with
  | nil => rfl
  | cons m ms ih =>
    cases i with
    | zero => rfl
    | succ i => exact ih (c.step m).1 i

/-- Without a restart the text stays and the column only grows. -/
theorem follow_onward (hms : ∀ m ∈ ms, ¬ m.restarts) :
    (c.follow ms).text = c.text ∧ c.position ≤ (c.follow ms).position := by
  induction ms generalizing c with
  | nil => exact ⟨rfl, Nat.le_refl _⟩
  | cons m ms ih =>
    obtain ⟨hm, hms⟩ := List.forall_mem_cons.1 hms
    obtain ⟨htext, hposition⟩ := step_onward (c := c) hm
    obtain ⟨htext', hposition'⟩ := ih (c := (c.step m).1) hms
    exact ⟨htext'.trans htext, hposition.trans hposition'⟩

/-- In every text, commands in any order leave the cursor within a text after each of them. Each
does what its effect tells, and a question changes nothing. As long as there is no restart the text
stays and the column only grows. -/
theorem effects_of_commands (t : Text) (ms : List Command) :
    (∀ (i : Nat) (m : Command), ms[i]? = some m →
      ∃ (c d : Cursor) (r : Reply), c = (start t).follow (ms.take i) ∧
        d = (start t).follow (ms.take (i + 1)) ∧ ((start t).run ms)[i]? = some (d, r) ∧
        d.position ≤ d.text.length ∧ m.Effect c d r ∧ (m.asks → d = c)) ∧
      ∀ i j : Nat, i ≤ j → (∀ m ∈ (ms.take j).drop i, ¬ m.restarts) →
        ((start t).follow (ms.take j)).text = ((start t).follow (ms.take i)).text ∧
          ((start t).follow (ms.take i)).position ≤ ((start t).follow (ms.take j)).position := by
  constructor
  · intro i m hm
    have hfollow : ((start t).follow (ms.take i)).step m =
        ((start t).follow (ms.take (i + 1)), (((start t).follow (ms.take i)).step m).2) := by
      rw [List.take_add_one, hm, follow_append]
      rfl
    have hrun := (start t).getElem?_run ms i
    have heffect := ((start t).follow (ms.take i)).effect_step m
    have hasks := step_of_asks (c := (start t).follow (ms.take i)) (m := m)
    rw [hm, Option.map_some] at hrun
    rw [hfollow] at hrun heffect hasks
    exact ⟨_, _, _, rfl, rfl, hrun, position_le_length_text _, heffect, hasks⟩
  · intro i j hij hms
    have hsplit : (start t).follow (ms.take j) =
        ((start t).follow (ms.take i)).follow ((ms.take j).drop i) := by
      have htake : ms.take i = (ms.take j).take i := by rw [List.take_take, Nat.min_eq_left hij]
      rw [htake, ← follow_append, List.take_append_drop]
    rw [hsplit]
    exact follow_onward hms

/-- Blanks are skipped before a blank is looked for, so none is found. A null character is of the
class that stands at the end, but the end is no character of it. -/
theorem effects_at_null :
    ∃ d : Cursor,
      ((start "1\t \x00".toList).run
        [.advance, .passAfterBlanks .tab, .pass .endOfText, .pass .endOfText])[1]? =
          some (d, .flag false) ∧
      d.position = 3 ∧ d.text = "1\t \x00".toList ∧
      ((start "1\t \x00".toList).run
        [.advance, .passAfterBlanks .tab, .pass .endOfText, .pass .endOfText]).map Prod.snd =
          [.done, .flag false, .flag true, .flag false] := by
  obtain ⟨heffects, honward⟩ := effects_of_commands "1\t \x00".toList
    [.advance, .passAfterBlanks .tab, .pass .endOfText, .pass .endOfText]
  obtain ⟨c, d, r, -, rfl, hrun, -, ⟨b, k, rfl, -, -, -, hnone⟩, -⟩ := heffects 1 _ rfl
  have htext := (honward 0 2 (by decide) (by decide)).1
  rw [Bool.eq_false_of_not_eq_true (hnone rfl)] at hrun
  exact ⟨_, hrun, by decide, htext, by decide⟩

end Cursor

end ArithSyntax
