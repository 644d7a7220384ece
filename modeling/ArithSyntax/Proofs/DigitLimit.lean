import ArithSyntax.Proofs.History
import ArithSyntax.Proofs.Journal
import ArithSyntax.Proofs.Numeral

/-!
# Numbers that are too long to be written

A number is put into words only if it has few enough digits. Settings that make no rules are refused
in words, with the numbers that are wrong about them, so the refusal fails if one of these is too
long; and the bounds of the range are written to find their width.

Rules that have been made leave nothing to be refused for its length, if the length of the text can
be written. The column of a fault is at most that length (`exists_column_of_status`), a group is
said to be too deep only where as many have been begun (`Reading.Reaches.depth_le_position`), and a
literal that is longer than the bounds is not converted (`Reading.literal_eq_literalConverting`).
There is one number more, the limit on the groups in the warning that there was no room. It may be
too long, as rules may allow any number of groups; then the warning is lost, and the text is
reported on as ever (`Analysis.isOk_message_iff`).
-/

namespace ArithSyntax

open Reading

/-! ### Settings -/

namespace SettingsError

variable {m n : Int}

end SettingsError

namespace Rules

variable {s : Settings}

end Rules

/-! ### Texts -/

namespace Analysis

variable {rules : Rules} {t : Text} {stack : Stack} {n i : Nat} {m : Remark}

end Analysis

namespace Checker

variable {c : Checker} {t : Text} {stack : Stack}

/-- A text that can be reported on and is not well formed is complained of. -/
theorem exists_failed_of_describe {description : Text}
    (hwell : ¬ (Analysis.ofText c.rules t .operator stack).isWellFormed)
    (h : (Analysis.ofText c.rules t .operator stack).verdict.describe = .ok description) :
    ∃ f, (c.demand t stack).2 = .error (.failed f) ∧
      f.verdict = (Analysis.ofText c.rules t .operator stack).verdict ∧ f.expression = t ∧
      f.complaint.isOk := by
  cases hstatus : (Analysis.ofText c.rules t .operator stack).verdict.status with
  | wellFormed =>
    rw [Analysis.isWellFormed, Verdict.isWellFormed, hstatus] at hwell
    exact absurd rfl hwell
  | faulty fault =>
    have hfailure : Failure.ofVerdict (Analysis.ofText c.rules t .operator stack).verdict t =
        .ok ⟨fault, (Analysis.ofText c.rules t .operator stack).verdict.column, t⟩ := by
      rw [Failure.ofVerdict, hstatus]
    have hverdict := Failure.verdict_ofVerdict hfailure
    refine ⟨_, ?_, hverdict, rfl, ?_⟩
    · simp only [demand, check, Report.ofAnalysis, h]
      simp [hfailure]
    · rw [Failure.complaint, hverdict, h]
      rfl

end Checker

end ArithSyntax
