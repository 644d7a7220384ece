import ArithSyntax.Session
import Mathlib.Data.List.Induction

/-!
# The history of a session

A session carries out requests on many checkers, in any order. What becomes of the checker under a
name is told by the requests under that name (`Session.checker_exec`). Of these only the last one
that had a text examined has left a trace (`Checker.foldl_obey`), because examining a text replaces
all that is remembered of the one before; the rules stay as they are. What has been answered is a
value, so it does not matter what becomes of it.
-/

namespace ArithSyntax

/-! ### One checker -/

namespace Session.Request

/-- Whether the request is one to have a text examined. -/
def examines : Request → Bool
  | check _ _ | demand _ _ => true
  | configure _ | tokens | verdict => false

/-- Whether the request leaves the rules alone. -/
def keepsRules : Request → Bool
  | configure _ => false
  | check _ _ | demand _ _ | tokens | verdict => true

end Session.Request

namespace Checker

open Session

/-- The checker after a request has been carried out on it. -/
def obey (c : Checker) : Request → Checker
  | .configure settings =>
    match Rules.ofSettings settings with
    | .ok rules => { rules }
    | .error _ => c
  | .check t stack => (c.check t stack).1
  | .demand t stack => (c.demand t stack).1
  | .tokens | .verdict => c

variable {c d : Checker} {q : Request} {qs : List Request} {t : Text} {stack : Stack}

/-- A request that keeps the rules leaves those of the checker. -/
theorem rules_obey (hq : q.keepsRules) : (c.obey q).rules = c.rules := by
  cases q with
  | configure => cases hq
  | check t stack => rw [obey, fst_check, rules_after]
  | demand t stack => rw [obey, fst_demand, rules_after]
  | tokens | verdict => rfl

/-- A request that has no text examined and leaves the rules alone only asks. -/
theorem obey_eq_self (hq : q.keepsRules) (hnone : ¬ q.examines) : c.obey q = c := by
  cases q with
  | configure => cases hq
  | check | demand => exact absurd rfl hnone
  | tokens | verdict => rfl

/-- What a checker remembers of a text depends on its rules, and on nothing else in it. -/
theorem obey_congr (hq : q.examines) (hrules : c.rules = d.rules) : c.obey q = d.obey q := by
  have hafter (t : Text) (stack : Stack) : c.after t stack = d.after t stack := by
    rw [after, after, remember, remember, hrules]
  cases q with
  | check t stack => rw [obey, obey, fst_check, fst_check, hafter]
  | demand t stack => rw [obey, obey, fst_demand, fst_demand, hafter]
  | configure | tokens | verdict => cases hq

/-- Requests that keep the rules leave those of the checker, however many they are. -/
theorem rules_foldl_obey (c : Checker) (hqs : ∀ q ∈ qs, q.keepsRules) :
    (qs.foldl obey c).rules = c.rules := by
  induction qs generalizing c with
  | nil => rfl
  | cons q qs ih =>
    obtain ⟨hq, hqs⟩ := List.forall_mem_cons.1 hqs
    rw [List.foldl_cons, ih _ hqs, rules_obey hq]

/-- Of the requests carried out on a checker the last that had a text examined is the only one of
which anything is left. -/
theorem foldl_obey (c : Checker) (hqs : ∀ q ∈ qs, q.keepsRules) :
    qs.foldl obey c = (qs.filter Request.examines).getLast?.elim c c.obey := by
  induction qs using List.reverseRecOn with
  | nil => rfl
  | append_singleton qs q ih =>
    have hinit : ∀ p ∈ qs, p.keepsRules := fun p hp => hqs p (List.mem_append_left _ hp)
    have hq : q.keepsRules := hqs q List.mem_concat_self
    rw [List.foldl_append, List.foldl_cons, List.foldl_nil, List.filter_append]
    by_cases hexamines : q.examines
    · rw [List.filter_cons_of_pos hexamines, List.filter_nil, List.getLast?_concat]
      exact obey_congr hexamines (rules_foldl_obey c hinit)
    · rw [List.filter_cons_of_neg hexamines, List.filter_nil, List.append_nil,
        obey_eq_self hq hexamines]
      exact ih hinit

/-- What a checker with these rules remembers if at most one request has been carried out on it: no
tokens, and a well-formed verdict with column zero, if there was none. -/
def afterOnly (rules : Rules) (q? : Option Request) : Checker :=
  q?.elim { rules } ({ rules } : Checker).obey

/-! ### Demands -/

/-- A well-formed text meets the demand. -/
theorem demand_of_wellFormed (h : (c.after t stack).verdict.status = .wellFormed) :
    (c.demand t stack).2 = .ok (c.after t stack).tokens := by
  have hstatus : (Analysis.ofText c.rules t .operator stack).verdict.status = .wellFormed := h
  simp only [demand, check, Report.ofAnalysis, Verdict.describe, hstatus]
  simp [Failure.ofVerdict, hstatus, after]

/-- A text with a fault does not. -/
theorem demand_of_faulty {f : Fault} (h : (c.after t stack).verdict.status = .faulty f) :
    ∃ e, (c.demand t stack).2 = .error e := by
  have hstatus : (Analysis.ofText c.rules t .operator stack).verdict.status = .faulty f := h
  simp only [demand, check, Report.ofAnalysis, Verdict.describe, hstatus]
  rcases Decimal.write (Analysis.ofText c.rules t .operator stack).verdict.column with e | column
  · exact ⟨_, rfl⟩
  · simp [Failure.ofVerdict, hstatus]

/-- A demand is refused exactly if the text is not well formed. -/
theorem exists_demand_eq_error_iff :
    (∃ e, (c.demand t stack).2 = .error e) ↔ ¬ (c.after t stack).verdict.isWellFormed := by
  rw [Verdict.isWellFormed, beq_iff_eq]
  cases hstatus : (c.after t stack).verdict.status with
  | wellFormed =>
    rw [demand_of_wellFormed hstatus]
    exact iff_of_false nofun fun h => h rfl
  | faulty f => exact iff_of_true (demand_of_faulty hstatus) nofun

/-- What a demand yields are the tokens of the text. -/
theorem eq_tokens_of_demand {ts : List Token} (h : (c.demand t stack).2 = .ok ts) :
    ts = (c.after t stack).tokens := by
  cases hstatus : (c.after t stack).verdict.status with
  | wellFormed =>
    rw [demand_of_wellFormed hstatus] at h
    exact (Except.ok.inj h).symm
  | faulty f =>
    obtain ⟨e, he⟩ := demand_of_faulty hstatus
    rw [he] at h
    cases h

end Checker

/-! ### Many checkers -/

namespace Session

open Checker

/-- The session after requests carried out in turn. -/
def exec (s : Session) (qs : List (String × Request)) : Session :=
  qs.foldl (fun s q => (s.handle q.1 q.2).1) s

/-- The requests under a name, in order. -/
def requestsTo (name : String) (qs : List (String × Request)) : List Request :=
  (qs.filter fun q => q.1 = name).map Prod.snd

/-- The last request under a name to have a text examined. -/
def latest? (name : String) (qs : List (String × Request)) : Option Request :=
  ((requestsTo name qs).filter Request.examines).getLast?

/-- No checker has examined a text. -/
def Fresh (s : Session) : Prop := ∀ name, s.checker name = { rules := (s.checker name).rules }

variable {s : Session} {name other : String} {q : Request} {qs rs : List (String × Request)}
  {t : Text}

/-- A request to a name is the first of those to it. -/
theorem requestsTo_cons_self (name : String) (q : Request) (qs : List (String × Request)) :
    requestsTo name ((name, q) :: qs) = q :: requestsTo name qs := by
  simp [requestsTo]

/-- A request to another name is none of those to this one. -/
theorem requestsTo_cons_of_ne (h : other ≠ name) (q : Request) (qs : List (String × Request)) :
    requestsTo name ((other, q) :: qs) = requestsTo name qs := by
  simp [requestsTo, h]

/-- If all requests keep the rules, those to one name do. -/
theorem keepsRules_of_mem_requestsTo (hqs : ∀ q ∈ qs, q.2.keepsRules) :
    ∀ q ∈ requestsTo name qs, q.keepsRules := by
  intro q hq
  obtain ⟨p, hp, rfl⟩ := List.mem_map.1 hq
  exact hqs p (List.mem_filter.1 hp).1

/-- Requests are handled one after the other, from the first on. -/
theorem exec_cons (s : Session) (name : String) (q : Request) (qs : List (String × Request)) :
    s.exec ((name, q) :: qs) = (s.handle name q).1.exec qs := rfl

/-- Requests are handled one part after the other. -/
theorem exec_append (s : Session) (qs rs : List (String × Request)) :
    s.exec (qs ++ rs) = (s.exec qs).exec rs :=
  List.foldl_append

/-- What is answered to later requests depends on earlier ones only by what they left behind. -/
theorem run_append (s : Session) (qs rs : List (String × Request)) :
    s.run (qs ++ rs) = s.run qs ++ (s.exec qs).run rs := by
  induction qs generalizing s with
  | nil => rfl
  | cons q qs ih =>
    obtain ⟨name, q⟩ := q
    rw [List.cons_append, run, run, ih]
    rfl

/-- A request is carried out on the checker under its name. -/
theorem checker_handle_self (s : Session) (name : String) (q : Request) :
    (s.handle name q).1.checker name = (s.checker name).obey q := by
  cases q with
  | configure settings =>
    rw [handle, obey]
    cases Rules.ofSettings settings with
    | ok rules => exact checker_put_self _ _ _
    | error e => rfl
  | check t stack | demand t stack => exact checker_put_self _ _ _
  | tokens | verdict => rfl

/-- A request leaves the checkers under other names alone. -/
theorem checker_handle_of_ne (s : Session) (q : Request) (h : name ≠ other) :
    (s.handle name q).1.checker other = s.checker other := by
  cases q with
  | configure settings =>
    rw [handle]
    cases Rules.ofSettings settings with
    | ok rules => exact checker_put_of_ne _ _ h
    | error e => rfl
  | check t stack | demand t stack => exact checker_put_of_ne _ _ h
  | tokens | verdict => rfl

/-- Only the requests under its name are carried out on a checker. -/
theorem checker_exec (s : Session) (qs : List (String × Request)) (name : String) :
    (s.exec qs).checker name = (requestsTo name qs).foldl obey (s.checker name) := by
  induction qs generalizing s with
  | nil => rfl
  | cons q qs ih =>
    obtain ⟨other, q⟩ := q
    rw [exec_cons, ih]
    by_cases h : other = name
    · subst h
      rw [checker_handle_self, requestsTo_cons_self, List.foldl_cons]
    · rw [checker_handle_of_ne s q h, requestsTo_cons_of_ne h]

/-- The rules under a name stay as they are, if no request changes any. -/
theorem rules_checker_exec (s : Session) (hqs : ∀ q ∈ qs, q.2.keepsRules) (name : String) :
    ((s.exec qs).checker name).rules = (s.checker name).rules := by
  rw [checker_exec, rules_foldl_obey _ (keepsRules_of_mem_requestsTo hqs)]

/-- A checker that had no text examined when the session began is, after requests that leave the
rules alone, as if only the last text under its name had been examined. -/
theorem checker_exec_of_fresh (hs : s.Fresh) (hqs : ∀ q ∈ qs, q.2.keepsRules) (name : String) :
    (s.exec qs).checker name = afterOnly (s.checker name).rules (latest? name qs) := by
  rw [checker_exec, foldl_obey _ (keepsRules_of_mem_requestsTo hqs), afterOnly, ← hs name]
  rfl

/-- At the beginning no checker has examined a text. -/
theorem fresh_empty : ({} : Session).Fresh := by
  intro name
  rw [checker_empty]

/-- A checker that is configured anew has examined no text. -/
theorem Fresh.configure (hs : s.Fresh) (name : String) (settings : Settings) :
    (s.handle name (.configure settings)).1.Fresh := by
  intro other
  by_cases h : name = other
  · subst h
    rw [checker_handle_self, obey]
    cases Rules.ofSettings settings with
    | ok rules => rfl
    | error e => exact hs name
  · rw [checker_handle_of_ne s _ h]
    exact hs other

/-- Either request to have a text examined leaves the checker that has examined it. -/
theorem checker_exec_check (s : Session) (qs : List (String × Request)) (name : String) (t : Text)
    (stack : Stack) :
    (s.exec (qs ++ [(name, .check t stack)])).checker name =
      ((s.exec qs).checker name).after t stack := by
  rw [exec_append]
  exact checker_handle_self (s.exec qs) name (.check t stack)

/-- A demand for a text and a check of it leave the same session. -/
theorem handle_demand (s : Session) (name : String) (t : Text) (stack : Stack) :
    (s.handle name (.demand t stack)).1 = (s.handle name (.check t stack)).1 := by
  have hdemand : (s.handle name (.demand t stack)).1 =
      s.put name ((s.checker name).demand t stack).1 := rfl
  rw [hdemand, fst_demand]
  rfl

/-- The tokens told after a demand are those of the text. -/
theorem run_demand_tokens (s : Session) (name : String) (t : Text) (stack : Stack) :
    s.run [(name, .demand t stack), (name, .tokens)] =
      [.demanded ((s.checker name).demand t stack).2,
        .tokens ((s.checker name).after t stack).tokens] := by
  have hafter : (s.handle name (.demand t stack)).1.checker name =
      (s.checker name).after t stack := by
    rw [checker_handle_self, obey, fst_demand]
  rw [← hafter]
  rfl

/-- In a session that begins with checkers that have examined no text, whatever requests are carried
out, in any order, under any names and with any room, as long as they leave the rules alone: the
rules under a name are those of the beginning, and the tokens and the verdict told are those of a
checker with these rules that has been asked nothing but the last request under that name to have a
text examined. A demand leaves the session that a check leaves. It is refused exactly if the text is
not well formed, and yields the tokens that are told afterwards if it is not refused. -/
theorem answers_of_latest (hs : s.Fresh) (hqs : ∀ q ∈ qs, q.2.keepsRules) (name : String) :
    ((s.exec qs).checker name).rules = (s.checker name).rules ∧
      s.run (qs ++ [(name, Request.tokens), (name, Request.verdict)]) =
        s.run qs ++ [Answer.tokens (afterOnly (s.checker name).rules (latest? name qs)).tokens,
          .verdict (afterOnly (s.checker name).rules (latest? name qs)).verdict] ∧
      ∀ t stack,
        s.exec (qs ++ [(name, Request.demand t stack)]) =
            s.exec (qs ++ [(name, Request.check t stack)]) ∧
          ∃ answer ts,
            s.run (qs ++ [(name, Request.demand t stack), (name, Request.tokens)]) =
              s.run qs ++ [Answer.demanded answer, .tokens ts] ∧
            ((∃ e, answer = .error e) ↔
              ¬ ((s.exec (qs ++ [(name, Request.check t stack)])).checker
                name).verdict.isWellFormed) ∧
            ∀ ts', answer = .ok ts' → ts' = ts := by
  refine ⟨rules_checker_exec s hqs name, ?_, ?_⟩
  · rw [run_append, ← checker_exec_of_fresh hs hqs name]
    rfl
  · intro t stack
    rw [checker_exec_check, exec_append, exec_append, run_append]
    exact ⟨handle_demand _ _ _ _, _, _, congrArg _ (run_demand_tokens _ _ _ _),
      exists_demand_eq_error_iff, fun _ => eq_tokens_of_demand⟩

/-- Two checkers with rules of their own: what the one was asked in between leaves no trace in the
other, and neither does what this was asked before. -/
theorem answers_of_two_checkers :
    ∃ (s : Session) (qs : List (String × Request)),
      s.Fresh ∧ (s.checker "narrow").rules ≠ (s.checker "flat").rules ∧
      qs = [("flat", .check "1 +".toList), ("flat", .demand "((1))".toList),
        ("narrow", .check "10".toList), ("narrow", .tokens)] ∧
      s.run (qs ++ [("flat", .tokens), ("flat", .verdict)]) =
        s.run qs ++ [.tokens [⟨⟨['('], .opening⟩, 0⟩],
          .verdict { status := .faulty .missingTerm, column := 1 }] := by
  let s₀ : Session := (handle {} "narrow" (.configure { least := 0, greatest := 9 })).1
  let s : Session := (s₀.handle "flat" (.configure { maxDepth := 1 })).1
  let qs : List (String × Request) :=
    [("flat", .check "1 +".toList), ("flat", .demand "((1))".toList),
      ("narrow", .check "10".toList), ("narrow", .tokens)]
  let flat : Rules := { Rules.standard with maxDepth := 1, maxDepth_pos := Nat.one_pos }
  have hfresh : s.Fresh := (fresh_empty.configure _ _).configure _ _
  have hnarrow : (s.checker "narrow").rules.maxDepth = 200 := by
    rw [checker_handle_of_ne _ _ (by decide), checker_handle_self, checker_empty]
    decide +kernel
  have hflat : s.checker "flat" = { rules := flat } := by
    rw [checker_handle_self, checker_handle_of_ne _ _ (by decide), checker_empty]
    decide +kernel
  have hlatest : latest? "flat" qs = some (.demand "((1))".toList) := by decide +kernel
  have hafter : (afterOnly flat (some (.demand "((1))".toList))).tokens =
        [⟨⟨['('], .opening⟩, 0⟩] ∧
      (afterOnly flat (some (.demand "((1))".toList))).verdict =
        { status := .faulty .missingTerm, column := 1 } := by decide +kernel
  have hkeeps : ∀ q ∈ qs, q.2.keepsRules := by decide
  obtain ⟨-, hrun, -⟩ := answers_of_latest hfresh hkeeps "flat"
  rw [hlatest, hflat, hafter.1, hafter.2] at hrun
  refine ⟨s, qs, hfresh, ?_, rfl, hrun⟩
  intro hsame
  rw [hsame, hflat] at hnarrow
  exact absurd hnarrow (by decide)

end Session

end ArithSyntax
