import ArithSyntax.Proofs.Strictness

/-!
# Groups

Which parentheses belong together is told by the tokens between them: the groups there begin and end
there (`Token.Matched`).

In a group lexemes follow one another as they do alone (`Situation.Inside.admits_iff`): what is
around the group counts for the limit on groups only. So a group that has been read is an expression
alone (`Reading.Reaches.exists_group`), and an expression is read as a group wherever a term is
wanted (`Reading.exists_passesTerm_of_group`). In either case the situation behind it is the one
behind a literal (`Reading.PassesTerm`).
-/

namespace ArithSyntax

open Reading

/-! ### Terms among tokens -/

namespace Token

/-- The groups among the tokens are begun and ended there. -/
structure Balanced (ks : List Token) : Prop where
  /-- Nowhere more groups are closed than opened. -/
  nonneg : ∀ js, js <+: ks → 0 ≤ balance js
  /-- In the end as many are closed as opened. -/
  eq_zero : balance ks = 0

instance (ks : List Token) : Decidable (Balanced ks) :=
  decidable_of_iff ((∀ js ∈ ks.inits, 0 ≤ balance js) ∧ balance ks = 0) <| by
    simp only [List.mem_inits]
    constructor
    · rintro ⟨hnonneg, hzero⟩
      exact ⟨hnonneg, hzero⟩
    · intro h
      exact ⟨h.nonneg, h.eq_zero⟩

/-- The parentheses `k` and `l` belong together, with the tokens `inner` between them. -/
structure Matched (k : Token) (inner : List Token) (l : Token) : Prop where
  /-- The first one begins a group. -/
  opening : k.kind = .opening
  /-- No other group is left open, and none is closed that was begun before. -/
  balanced : Balanced inner
  /-- The last one ends a group. -/
  closing : l.kind = .closing

/-- The tokens are a literal or a group, and take up the columns from `i` up to, and without, `j`.
-/
inductive Term : (i j : Int) → List Token → Prop
  | operand {k : Token} (hk : k.kind = .operand) : Term k.position k.finish [k]
  | group {k l : Token} {inner : List Token} (h : Matched k inner l) :
      Term k.position l.finish (k :: inner ++ [l])

/-- The tokens of a group that begins at the column `i`, if those of the expression in it, which has
`n` characters, are `us` by themselves. -/
def grouped (i : Int) (us : List Token) (n : Nat) : List Token :=
  { value := ['('], kind := .opening, position := i } :: us.map (shift · (i + 1)) ++
    [{ value := [')'], kind := .closing, position := i + 1 + n }]

/-- Tokens that have been moved are moved on. -/
theorem map_shift_map_shift (ks : List Token) (m n : Int) :
    (ks.map (shift · m)).map (shift · n) = ks.map (shift · (m + n)) := by
  rw [List.map_map]
  refine List.map_congr_left fun k _ => ?_
  change { k with position := k.position + m + n } = { k with position := k.position + (m + n) }
  rw [Int.add_assoc]

/-- Tokens that are moved by nothing stay where they are. -/
theorem map_shift_zero (ks : List Token) : ks.map (shift · 0) = ks := by
  simp only [shift_zero, List.map_id']

/-- Tokens that have been moved are moved back. -/
theorem map_shift_neg (ks : List Token) (n : Int) :
    (ks.map (shift · n)).map (shift · (-n)) = ks := by
  rw [map_shift_map_shift, Int.add_right_neg, map_shift_zero]

/-- Only a literal or a parenthesis begins a term. -/
theorem Term.ne_nil {i j : Int} {ks : List Token} (h : Term i j ks) : ks ≠ [] := by
  cases h <;> exact List.cons_ne_nil _ _

end Token

/-! ### Lexemes in a group -/

namespace Situation

variable {outer q q' : Situation} {rules : Rules} {l : Lexeme} {ks : List Token}

/-- What fits in a group fits alone and conversely, if it closes no group around it and there is
room for the groups in it. -/
theorem Inside.fits_iff (h : outer.Inside q q') (hclosing : l.kind = .closing → 0 < q.depth)
    (hopening : l.kind = .opening → q.depth + outer.depth < rules.maxDepth) :
    l.Fits rules q' ↔ l.Fits rules q := by
  have hterm := h.wantsTerm_eq
  have hdepth := h.depth_eq
  constructor
  · intro hl
    cases hl with
    | opening hwants _ =>
      exact .opening (hterm ▸ hwants) (Nat.lt_of_le_of_lt (Nat.le_add_right _ _) (hopening rfl))
    | operand hwants hliteral hrange => exact .operand (hterm ▸ hwants) hliteral hrange
    | operator hwants hc => exact .operator (hterm ▸ hwants) hc
    | closing hwants _ => exact .closing (hterm ▸ hwants) (hclosing rfl)
  · intro hl
    refine (h.fits hl).of_not_refused ?_
    rintro (⟨hkind, hle⟩ | ⟨hkind, hout⟩)
    · have hlt := hopening hkind
      omega
    · exact hl.not_refused (Or.inr ⟨hkind, hout⟩)

/-- Only a group that is open in `q` is closed, if no more are closed than opened. -/
theorem depth_pos_of_balance {k : Token} (hnonneg : 0 ≤ q.depth + Token.balance [k])
    (hkind : k.kind = .closing) : 0 < q.depth := by
  rw [Token.balance_singleton, hkind, Lexeme.Kind.weight] at hnonneg
  omega

/-- What some tokens leave open behind one more token. -/
theorem depth_next_add (q : Situation) (k : Token) (js : List Token)
    (hclosing : k.kind = .closing → 0 < q.depth) :
    ((q.next k.kind).depth : Int) + Token.balance js = q.depth + Token.balance (k :: js) := by
  rw [q.depth_next k.kind hclosing, Token.balance_cons, Int.add_assoc]

/-- Lexemes that follow one another in a group do so alone and conversely, if they close no group
around them and there is room for those that they open. -/
theorem Inside.admits_iff (h : outer.Inside q q')
    (hnonneg : ∀ js, js <+: ks → 0 ≤ q.depth + Token.balance js)
    (hroom : ∀ js, js <+: ks → q.depth + Token.balance js + outer.depth ≤ rules.maxDepth) :
    q'.Admits rules (ks.map Token.toLexeme) ↔ q.Admits rules (ks.map Token.toLexeme) := by
  induction ks generalizing q q' with
  | nil => exact Iff.rfl
  | cons k ks ih =>
    have hfirst : [k] <+: k :: ks := List.prefix_append [k] ks
    have hclosing := depth_pos_of_balance (hnonneg [k] hfirst)
    have hopening : k.kind = .opening → q.depth + outer.depth < rules.maxDepth := by
      intro hkind
      have hle := hroom [k] hfirst
      rw [Token.balance_singleton, hkind, Lexeme.Kind.weight] at hle
      omega
    have hlater {js : List Token} (hjs : js <+: ks) : k :: js <+: k :: ks :=
      List.cons_prefix_cons.2 ⟨rfl, hjs⟩
    refine and_congr (h.fits_iff hclosing hopening) (ih (h.next hclosing) ?_ ?_)
    · intro js hjs
      rw [depth_next_add q k js hclosing]
      exact hnonneg _ (hlater hjs)
    · intro js hjs
      rw [depth_next_add q k js hclosing]
      exact hroom _ (hlater hjs)

/-- Lexemes that close no group around them leave what is around as it is. -/
theorem Inside.run (h : outer.Inside q q')
    (hnonneg : ∀ js, js <+: ks → 0 ≤ q.depth + Token.balance js) :
    outer.Inside (q.run (ks.map Token.toLexeme)) (q'.run (ks.map Token.toLexeme)) := by
  induction ks generalizing q q' with
  | nil => exact h
  | cons k ks ih =>
    have hclosing := depth_pos_of_balance (hnonneg [k] (List.prefix_append [k] ks))
    refine ih (h.next hclosing) ?_
    intro js hjs
    rw [depth_next_add q k js hclosing]
    exact hnonneg _ (List.cons_prefix_cons.2 ⟨rfl, hjs⟩)

/-- Lexemes that follow one another where a term is wanted do so alone and conversely. What is open
before them stays open. -/
theorem admits_iff_of_wantsTerm (hterm : outer.wantsTerm)
    (hnonneg : ∀ js, js <+: ks → 0 ≤ Token.balance js)
    (hroom : ∀ js, js <+: ks → Token.balance js + outer.depth ≤ rules.maxDepth) :
    (outer.Admits rules (ks.map Token.toLexeme) ↔
        ({} : Situation).Admits rules (ks.map Token.toLexeme)) ∧
      outer.Inside (({} : Situation).run (ks.map Token.toLexeme))
        (outer.run (ks.map Token.toLexeme)) := by
  have hzero (x : Int) : (({} : Situation).depth : Int) + x = x := Int.zero_add x
  have hstart := Inside.start hterm
  have hnonneg' : ∀ js, js <+: ks → 0 ≤ (({} : Situation).depth : Int) + Token.balance js := by
    intro js hjs
    rw [hzero]
    exact hnonneg js hjs
  refine ⟨hstart.admits_iff hnonneg' ?_, hstart.run hnonneg'⟩
  intro js hjs
  rw [hzero]
  exact hroom js hjs

/-- Behind a group the situation is the one behind a literal. -/
theorem next_closing_of_around_eq (h : q'.around = (outer.next .opening).around) :
    q'.next .closing = outer.next .operand := by
  change Situation.mk false (q'.around.headD false) q'.around.tail = _
  rw [h]
  rfl

end Situation

/-! ### Groups in a text -/

namespace Reading

variable {rules : Rules} {q m m' p r r' : Reading} {t u w rest : Text} {l : Lexeme}
  {before inner span after ks : List Token} {i j : Int} {n : Nat}

/-- Tokens that have been read behind some others, without closing a group that was open before
them, are read alike alone. -/
theorem Reaches.exists_layout_inside (hm : Reaches rules (start t) m) (h : Reaches rules m p)
    (hterm : m.situation.wantsTerm) (htokens : p.tokens = m.tokens ++ ks)
    (hnonneg : ∀ js, js <+: ks → 0 ≤ Token.balance js) :
    ∃ ls : Layout, ls.Spaced ∧ ({} : Situation).Admits rules ls.lexemes ∧ m.Passes p ls.text ∧
      ks = (ls.tokens 0).map (Token.shift · m.cursor.position) ∧
      m.situation.Inside (({} : Situation).run ls.lexemes) p.situation := by
  obtain ⟨ls, hspaced, hadmits, hpasses, hrecorded⟩ := h.exists_layout
  have hks : ks = ls.tokens m.cursor.position := by
    rw [tokens_eq_append_of_recorded hrecorded] at htokens
    exact (List.append_cancel_left htokens).symm
  have hroom : ∀ js, js <+: ks → Token.balance js + m.situation.depth ≤ rules.maxDepth := by
    intro js hjs
    have hprefix : m.tokens ++ js <+: p.tokens := by
      rw [htokens]
      exact (List.prefix_append_right_inj _).2 hjs
    have hle := (Reaches.balance_of_prefix (hm.trans h) hprefix).2
    rw [Token.balance_append, hm.balance_eq.1, Int.add_comm] at hle
    exact hle
  obtain ⟨hiff, hinside⟩ := Situation.admits_iff_of_wantsTerm hterm hnonneg hroom
  rw [hks, Layout.toLexeme_tokens] at hiff hinside
  rw [← situation_eq_run_of_recorded hrecorded] at hinside
  refine ⟨ls, hspaced, hiff.1 hadmits, hpasses, ?_, hinside⟩
  rw [hks, ← Layout.tokens_add, Nat.zero_add]

/-- What has been read from a place on is an expression alone, if it closes the groups that it opens
and no others, and a term has ended behind it. -/
theorem Reaches.exists_compose (hm : Reaches rules (start t) m) (h : Reaches rules m p)
    (hterm : m.situation.wantsTerm) (hended : ¬ p.situation.wantsTerm)
    (htokens : p.tokens = m.tokens ++ ks) (hbalanced : Token.Balanced ks) :
    ∃ ls : Layout, ls.Spaced ∧ Lexeme.Compose rules ls.lexemes ∧ m.Passes p ls.text ∧
      ks = (ls.tokens 0).map (Token.shift · m.cursor.position) ∧
      p.situation.around = m.situation.around := by
  obtain ⟨ls, hspaced, hadmits, hpasses, hks, hinside⟩ :=
    hm.exists_layout_inside h hterm htokens hbalanced.nonneg
  have hdepth : (({} : Situation).run ls.lexemes).depth = 0 := by
    have houter := hinside.depth_eq
    have hbalance := (Reaches.balance_eq (hm.trans h)).1
    rw [htokens, Token.balance_append, hm.balance_eq.1, hbalanced.eq_zero] at hbalance
    omega
  have hcompose : Lexeme.Compose rules ls.lexemes :=
    ⟨hadmits, hinside.wantsTerm_eq ▸ hended, List.length_eq_zero_iff.1 hdepth⟩
  exact ⟨ls, hspaced, hcompose, hpasses, hks, hinside.around_eq hdepth⟩

/-- An expression is read wherever a term is wanted, if there is room for its groups and no literal
can go on behind it. -/
theorem exists_reaches_of_compose {ls : Layout} (hterm : m.situation.wantsTerm)
    (hcompose : Lexeme.Compose rules ls.lexemes) (hspaced : ls.Spaced)
    (hnonneg : ∀ js, js <+: ls.tokens 0 → 0 ≤ Token.balance js)
    (hroom : ∀ js, js <+: ls.tokens 0 → Token.balance js + m.situation.depth ≤ rules.maxDepth)
    (hahead : m.cursor.ahead = ls.text ++ rest) (hrest : rest.NoDigitFirst) :
    ∃ p, Reaches rules m p ∧ m.Passes p ls.text ∧ p.cursor.ahead = rest ∧
      p.tokens = m.tokens ++ (ls.tokens 0).map (Token.shift · m.cursor.position) ∧
      ¬ p.situation.wantsTerm ∧ p.situation.around = m.situation.around := by
  obtain ⟨hiff, hinside⟩ := Situation.admits_iff_of_wantsTerm hterm hnonneg hroom
  rw [Layout.toLexeme_tokens] at hiff hinside
  obtain ⟨p, hp, hpahead, hrecorded⟩ :=
    exists_reaches_of_layout (hiff.2 hcompose.admits) hspaced hahead hrest
  rw [← situation_eq_run_of_recorded hrecorded] at hinside
  have hdepth : (({} : Situation).run ls.lexemes).depth = 0 :=
    congrArg List.length hcompose.around_eq
  refine ⟨p, hp, ⟨hp.text_eq, hpahead ▸ hahead⟩, hpahead, ?_, ?_, hinside.around_eq hdepth⟩
  · rw [tokens_eq_append_of_recorded hrecorded, ← Layout.tokens_add, Nat.zero_add]
  · rw [hinside.wantsTerm_eq]
    exact hcompose.not_wantsTerm

/-- From `q` to `m` blanks `w` and the token `k` are passed. -/
structure Records (rules : Rules) (q : Reading) (w : Text) (k : Token) (m : Reading) : Prop where
  /-- The token is read at once. -/
  step : Step rules q m
  /-- Only blanks stand before the token. -/
  blank : w.Blank
  /-- The token fits what has been read. -/
  fits : k.Fits rules q.situation
  /-- The blanks and the token are passed. -/
  passes : q.Passes m (w ++ k.value)
  /-- The token stands behind the blanks. -/
  position_eq : k.position = (q.cursor.position + w.length : Nat)
  /-- The token is recorded. -/
  tokens_eq : m.tokens = q.tokens ++ [k]
  /-- The situation is the one behind its lexeme. -/
  situation_eq : m.situation = q.situation.next k.kind

/-- A lexeme that is met is recorded at its place. -/
theorem Meets.records (h : q.Meets rules w l rest) :
    Records rules q w { toLexeme := l, position := (q.cursor.position + w.length : Nat) }
      (q.skipBlanks.take l.kind l.value.length) where
  step := h.step
  blank := h.blank
  fits := h.fits
  passes := h.passes
  position_eq := rfl
  tokens_eq := h.tokens_take
  situation_eq := rfl

/-- A lexeme that is met is recorded as a token. -/
theorem Meets.exists_records (h : q.Meets rules w l rest) :
    ∃ m, Records rules q w { toLexeme := l, position := (q.cursor.position + w.length : Nat) } m ∧
      m.cursor.ahead = rest :=
  ⟨_, h.records, h.ahead_take⟩

/-- Every token read on the way is recorded where those before it have been read. -/
theorem Reaches.exists_records {s : Reading} {k : Token} {ls : List Token} (h : Reaches rules r s)
    (hr : r.tokens <+: ks) (hs : s.tokens = ks ++ k :: ls) :
    ∃ q m w, Reaches rules r q ∧ q.tokens = ks ∧ Records rules q w k m ∧ Reaches rules m s := by
  obtain ⟨q, w, l, rest, hq, htokens, hmeets, rfl, hrest⟩ := h.exists_meets_of_append hr hs
  exact ⟨q, _, w, hq, htokens, hmeets.records, hrest⟩

/-- A group begins where a term is wanted. -/
theorem Records.of_opening {k : Token} (h : Records rules q w k m) (hk : k.kind = .opening) :
    q.situation.wantsTerm ∧ q.Passes m (w ++ ['(']) ∧
      m.situation = q.situation.next .opening := by
  have hpasses := h.passes
  have hsituation := h.situation_eq
  rw [h.fits.value_of_opening hk] at hpasses
  rw [hk] at hsituation
  exact ⟨h.fits.wantsTerm_iff.2 (Or.inl hk), hpasses, hsituation⟩

/-- A group ends where a term has ended. -/
theorem Records.of_closing {k : Token} (h : Records rules q w k m) (hk : k.kind = .closing) :
    ¬ q.situation.wantsTerm ∧ q.Passes m (w ++ [')']) ∧
      m.situation = q.situation.next .closing := by
  have hpasses := h.passes
  have hsituation := h.situation_eq
  have hterm := h.fits.wantsTerm_iff
  rw [h.fits.value_of_closing hk] at hpasses
  rw [hk] at hsituation hterm
  exact ⟨hterm.not.2 (by simp), hpasses, hsituation⟩

/-- From `q` to `m` blanks `w` and the term `v` are passed. -/
structure PassesTerm (rules : Rules) (q : Reading) (w v : Text) (m : Reading) : Prop where
  /-- The term is read. -/
  reaches : Reaches rules q m
  /-- A term is wanted. -/
  wantsTerm : q.situation.wantsTerm
  /-- Only blanks stand before the term. -/
  blank : w.Blank
  /-- The blanks and the term are passed. -/
  passes : q.Passes m (w ++ v)
  /-- A term has ended. -/
  situation_eq : m.situation = q.situation.next .operand

/-- A group that has been read is an expression alone. -/
theorem Reaches.exists_group {k l : Token} (h : Reaches rules (start t) r)
    (hmatched : Token.Matched k inner l)
    (htokens : r.tokens = before ++ (k :: inner ++ [l]) ++ after) :
    ∃ q m w u, Reaches rules (start t) q ∧ q.tokens = before ∧
      PassesTerm rules q w ('(' :: (u ++ [')'])) m ∧ Reaches rules m r ∧
      m.tokens = before ++ (k :: inner ++ [l]) ∧
      k.position = (q.cursor.position + w.length : Nat) ∧ l.position = k.position + 1 + u.length ∧
      (Analysis.ofText rules u).isWellFormed ∧
      inner = (Analysis.ofText rules u).tokens.map (Token.shift · (k.position + 1)) := by
  have hfirst : r.tokens = before ++ k :: (inner ++ l :: after) := by
    rw [htokens]
    simp
  obtain ⟨q, m, w, hq, rfl, hopen, hrest⟩ := h.exists_records List.nil_prefix hfirst
  -- the run is taken apart at the two parentheses; what is between them is a run as well
  have hlast : r.tokens = m.tokens ++ inner ++ l :: after := by
    rw [hfirst, hopen.tokens_eq]
    simp
  obtain ⟨p, m', v, hp, hptokens, hclose, hrest'⟩ :=
    hrest.exists_records (List.prefix_append _ _) hlast
  obtain ⟨hterm, hpasses, hsituation⟩ := hopen.of_opening hmatched.opening
  obtain ⟨hended, hpasses', hsituation'⟩ := hclose.of_closing hmatched.closing
  have hwants : m.situation.wantsTerm := by
    rw [hsituation]
    rfl
  obtain ⟨ls, hspaced, hcompose, hbetween, hinner, haround⟩ :=
    Reaches.exists_compose (hq.tail hopen.step) hp hwants hended hptokens hmatched.balanced
  obtain ⟨hwell, hu⟩ := Analysis.isWellFormed_layout hcompose hspaced hclose.blank
  have hreach : Reaches rules q m' :=
    ((Relation.ReflTransGen.single hopen.step).trans hp).tail hclose.step
  have hgroup : PassesTerm rules q w ('(' :: (ls.text ++ v ++ [')'])) m' := by
    refine ⟨hreach, hterm, hopen.blank, ?_, ?_⟩
    · have hall := (hpasses.trans hbetween).trans hpasses'
      simpa using hall
    · rw [hsituation']
      exact Situation.next_closing_of_around_eq (hsituation ▸ haround)
  have hposition : (m.cursor.position : Int) = k.position + 1 := by
    rw [hpasses.position_eq, hopen.position_eq, List.length_append]
    rfl
  refine ⟨q, m', w, ls.text ++ v, hq, rfl, hgroup, hrest', ?_, hopen.position_eq, ?_, hwell, ?_⟩
  · rw [hclose.tokens_eq, hptokens, hopen.tokens_eq]
    simp
  · rw [hclose.position_eq, hbetween.position_eq, List.length_append]
    omega
  · rw [hinner, hu, hposition]

/-- Behind a term that has been read the situation is the one behind a literal. -/
theorem Reaches.exists_term (h : Reaches rules (start t) r) (hspan : Token.Term i j span)
    (htokens : r.tokens = before ++ span ++ after) :
    ∃ q m w v, Reaches rules (start t) q ∧ q.tokens = before ∧ PassesTerm rules q w v m ∧
      Reaches rules m r ∧ m.tokens = before ++ span ∧ i = (q.cursor.position + w.length : Nat) ∧
      j = m.cursor.position := by
  cases hspan with
  | @operand k hk =>
    rw [List.append_assoc] at htokens
    obtain ⟨q, m, w, hq, rfl, hrecords, hrest⟩ := h.exists_records List.nil_prefix htokens
    have hm : Reaches rules (start t) m := hq.tail hrecords.step
    have hterm := hrecords.fits.wantsTerm_iff.2 (Or.inr hk)
    have hsituation := hrecords.situation_eq
    rw [hk] at hsituation
    refine ⟨q, m, w, k.value, hq, rfl, ?_, hrest, hrecords.tokens_eq, hrecords.position_eq, ?_⟩
    · exact ⟨.single hrecords.step, hterm, hrecords.blank, hrecords.passes, hsituation⟩
    · rw [← hm.reach_tokens, hrecords.tokens_eq, Token.reach_concat]
  | @group k l inner hmatched =>
    obtain ⟨q, m, w, u, hq, rfl, hpasses, hrest, hmtokens, hposition, -, -, -⟩ :=
      h.exists_group hmatched htokens
    have hm : Reaches rules (start t) m := hq.trans hpasses.reaches
    refine ⟨q, m, w, _, hq, rfl, hpasses, hrest, hmtokens, hposition, ?_⟩
    rw [← hm.reach_tokens, hmtokens, ← List.append_assoc, Token.reach_concat]

/-- An expression in parentheses is read wherever a term is wanted, if so many groups are
allowed. -/
theorem exists_passesTerm_of_group (hterm : q.situation.wantsTerm) (hw : w.Blank)
    (hahead : q.cursor.ahead = w ++ '(' :: (u ++ ')' :: rest))
    (hu : (Analysis.ofText rules u).isWellFormed)
    (hnested : Token.NestedWithin n (Analysis.ofText rules u).tokens)
    (hroom : q.situation.depth + 1 + n ≤ rules.maxDepth) :
    ∃ m, PassesTerm rules q w ('(' :: (u ++ [')'])) m ∧ m.cursor.ahead = rest ∧
      m.tokens = q.tokens ++ Token.grouped (q.cursor.position + w.length : Nat)
        (Analysis.ofText rules u).tokens u.length := by
  have hnonneg : ∀ js, js <+: (Analysis.ofText rules u).tokens → 0 ≤ Token.balance js := by
    intro js hjs
    exact Analysis.balance_nonneg_of_prefix hjs
  obtain ⟨ls, v, rfl, hspaced, hv, hcompose, htokens⟩ := Analysis.exists_layout_of_isWellFormed hu
  rw [htokens] at hnested hnonneg ⊢
  have hopen : q.Meets rules w ⟨['('], .opening⟩ (ls.text ++ (v ++ ')' :: rest)) := by
    refine ⟨hw, .opening hterm (by omega), ?_, (absurd · (by decide))⟩
    rw [hahead, List.append_assoc]
    rfl
  obtain ⟨m, hrecords, hmahead⟩ := hopen.exists_records
  obtain ⟨-, hpasses, hsituation⟩ := hrecords.of_opening rfl
  have hwants : m.situation.wantsTerm := by
    rw [hsituation]
    rfl
  have hdeeper : m.situation.depth = q.situation.depth + 1 := by
    rw [hsituation]
    rfl
  -- one more group is open, and the tokens in it keep to what is left of the limit
  have hinner : ∀ js, js <+: ls.tokens 0 →
      Token.balance js + m.situation.depth ≤ rules.maxDepth := by
    intro js hjs
    have hle := hnested js hjs
    omega
  obtain ⟨p, hp, hbetween, hpahead, hptokens, hended, haround⟩ :=
    exists_reaches_of_compose hwants hcompose hspaced hnonneg hinner hmahead
      (Text.noDigitFirst_append_of_blank hv (Text.firstNot_cons.2 rfl))
  -- behind the expression the group that holds it is still open
  have hopened : 0 < p.situation.depth := by
    rw [Situation.depth, haround, hsituation]
    exact Nat.succ_pos _
  have hclose : p.Meets rules v ⟨[')'], .closing⟩ rest :=
    ⟨hv, .closing hended hopened, hpahead, (absurd · (by decide))⟩
  obtain ⟨m', hrecords', hahead'⟩ := hclose.exists_records
  obtain ⟨-, hpasses', hsituation'⟩ := hrecords'.of_closing rfl
  have hreach : Reaches rules q m' :=
    ((Relation.ReflTransGen.single hrecords.step).trans hp).tail hrecords'.step
  refine ⟨m', ⟨hreach, hterm, hw, ?_, ?_⟩, hahead', ?_⟩
  · have hall := (hpasses.trans hbetween).trans hpasses'
    simpa using hall
  · rw [hsituation']
    exact Situation.next_closing_of_around_eq (hsituation ▸ haround)
  · have hposition : m.cursor.position = q.cursor.position + w.length + 1 := by
      rw [hpasses.position_eq, List.length_append, Nat.add_assoc]
      rfl
    have hend : ((p.cursor.position + v.length : Nat) : Int) =
        (q.cursor.position + w.length : Nat) + 1 + (ls.text ++ v).length := by
      rw [hbetween.position_eq, hposition, List.length_append]
      omega
    rw [hrecords'.tokens_eq, hptokens, hrecords.tokens_eq, Token.grouped, hend, hposition]
    simp only [List.append_assoc, List.cons_append]
    rfl

end Reading

end ArithSyntax
