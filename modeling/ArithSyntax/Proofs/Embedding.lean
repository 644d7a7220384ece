import ArithSyntax.Proofs.Room

/-!
# A text inside another

A text is read alike wherever it stands: alone, behind other lexemes, or in a group. What has been
read before it moves the columns, opens groups around it, and may leave an operator waiting for its
term; and what comes behind it matters only if a lexeme can go on there.

`Reading.Within` relates the reading of a text alone to the reading of it in its place in another
text. Steps keep this relation (`Within.exists_step`) and so do runs (`Within.exists_reaches`).
Where the run of the text alone stops at a fault, so does the other at the same place
(`Within.exists_stops`), and the fault reported there is told by the one reported here and by
whether an operator waits (`Analysis.ofText_within`).
-/

namespace ArithSyntax

/-- The same range of literals, and `n` more groups allowed. -/
def Rules.deepen (rules : Rules) (n : Nat) : Rules where
  least := rules.least
  greatest := rules.greatest
  maxDepth := rules.maxDepth + n
  width := rules.width
  least_le_greatest := rules.least_le_greatest
  maxDepth_pos := Nat.add_pos_left rules.maxDepth_pos n
  bounds_lt_ceiling := rules.bounds_lt_ceiling
  width_eq := rules.width_eq

/-- Groups that are allowed in addition add up. -/
theorem Rules.deepen_deepen (rules : Rules) (m n : Nat) :
    (rules.deepen m).deepen n = rules.deepen (m + n) := by
  simp only [deepen, Nat.add_assoc]

/-- The fault found in a larger text where one is found in a part of it. The end of the part is not
the end of the text. -/
def Fault.inside : Fault → Fault
  | .unexpectedEnd => .missingTerm
  | f => f

/-- The fault reported of a larger text where one is reported of a part of it, if `owed` says
whether an operator before the part waits for its term. -/
def Fault.within (owed : Bool) : Fault → Fault
  | .extraneous => .extraneous
  | .unexpectedEnd => .missingTerm
  | f => if owed then .missingTerm else f

/-! ### Situations around one another -/

namespace Situation

/-- The situation `q'` is the situation `q` of a text that stands in `outer`. Operators of the text
outside its groups are operators of the innermost group that `outer` leaves open. -/
structure Inside (outer q q' : Situation) : Prop where
  /-- A term is wanted in both or in neither. -/
  wantsTerm_eq : q'.wantsTerm = q.wantsTerm
  /-- The groups of the text are open, and around them those of `outer`. -/
  levels_eq : ∃ inner c, q.levels = inner ++ [c] ∧
    q'.levels = inner ++ (c || outer.chained) :: outer.around

variable {outer q q' : Situation} {rules : Rules} {l : Lexeme} {kind : Lexeme.Kind} {f : Fault}

/-- The situation before anything has been read is inside any one in which a term is wanted. -/
theorem Inside.start (h : outer.wantsTerm) : outer.Inside {} outer := ⟨h, [], false, rfl, rfl⟩

/-- The groups that are open around the text are open as well. -/
theorem Inside.depth_eq (h : outer.Inside q q') : q'.depth = q.depth + outer.depth := by
  obtain ⟨inner, c, hq, hq'⟩ := h.levels_eq
  have hlength := q.length_levels
  have hlength' := q'.length_levels
  have houter := outer.length_levels
  rw [hq, List.length_append, List.length_singleton] at hlength
  rw [hq', List.length_append, List.length_cons] at hlength'
  rw [levels, List.length_cons] at houter
  omega

/-- Outside the groups of the text the groups around it are those of `outer`. -/
theorem Inside.around_eq (h : outer.Inside q q') (hdepth : q.depth = 0) :
    q'.around = outer.around := by
  obtain ⟨inner, c, hq, hq'⟩ := h.levels_eq
  have hlength := q.length_levels
  rw [hq, List.length_append, List.length_singleton, hdepth] at hlength
  have hinner : inner = [] := List.length_eq_zero_iff.1 (by omega)
  rw [hinner] at hq'
  exact (List.cons.inj hq').2

/-- The same lexeme leads from one situation inside `outer` to another one. -/
theorem Inside.next (h : outer.Inside q q') (hclosing : kind = .closing → 0 < q.depth) :
    outer.Inside (q.next kind) (q'.next kind) := by
  have hclosing' : kind = .closing → 0 < q'.depth := by
    intro hkind
    rw [h.depth_eq]
    exact Nat.add_pos_left (hclosing hkind) _
  have hterm : (q'.next kind).wantsTerm = (q.next kind).wantsTerm := by
    cases kind <;> rfl
  obtain ⟨inner, c, hq, hq'⟩ := h.levels_eq
  refine ⟨hterm, ?_⟩
  rw [levels_next q kind hclosing, levels_next q' kind hclosing', hq, hq']
  cases kind with
  | operand => exact ⟨inner, c, rfl, rfl⟩
  | opening => exact ⟨false :: inner, c, rfl, rfl⟩
  | operator =>
    cases inner with
    | nil => exact ⟨[], true, rfl, rfl⟩
    | cons x inner => exact ⟨true :: inner, c, rfl, rfl⟩
  | closing =>
    cases inner with
    | nil =>
      have hlength := q.length_levels
      rw [hq, List.nil_append, List.length_singleton] at hlength
      exact absurd (hclosing rfl) (by omega)
    | cons x inner => exact ⟨inner, c, rfl, rfl⟩

/-- What fits the text alone fits it in its place, if the groups around it are allowed as well. -/
theorem Inside.fits (h : outer.Inside q q') (hl : l.Fits rules q) :
    l.Fits (rules.deepen outer.depth) q' := by
  cases hl with
  | opening hterm hdepth =>
    refine .opening (h.wantsTerm_eq.trans hterm) ?_
    rw [h.depth_eq]
    exact Nat.add_lt_add_right hdepth _
  | operand hterm hl hrange => exact .operand (h.wantsTerm_eq.trans hterm) hl hrange
  | operator hterm hc => exact .operator (h.wantsTerm_eq ▸ hterm) hc
  | closing hterm hdepth =>
    refine .closing (h.wantsTerm_eq ▸ hterm) ?_
    rw [h.depth_eq]
    exact Nat.add_pos_left hdepth _

/-- A fault is blamed on an operator of the text or on one that waits before it. -/
theorem Inside.blames_eq (h : outer.Inside q q') (hempty : f ≠ .unexpectedEnd)
    (hextraneous : f ≠ .extraneous) (hclosing : f = .missingClosing → 0 < q.depth) :
    q'.blames f = (q.blames f || outer.levels.any id) := by
  obtain ⟨inner, c, hq, hq'⟩ := h.levels_eq
  have hlength := q.length_levels
  rw [hq, List.length_append, List.length_singleton] at hlength
  have hany (n : Nat) (hn : n ≤ q.depth) :
      (q'.levels.drop n).any id = ((q.levels.drop n).any id || outer.levels.any id) := by
    have hinner : n ≤ inner.length := by omega
    rw [hq, hq', List.drop_append_of_le_length hinner, List.drop_append_of_le_length hinner]
    simp [levels, Bool.or_assoc]
  cases f with
  | unexpectedEnd => exact absurd rfl hempty
  | extraneous => exact absurd rfl hextraneous
  | missingClosing => exact hany 1 (hclosing rfl)
  | missingTerm | illFormedInteger | outOfRange => exact hany 0 (Nat.zero_le _)

/-- The fault reported in the place of the text is told by the one reported of it alone. -/
theorem Inside.fault_eq (h : outer.Inside q q') (hclosing : f = .missingClosing → 0 < q.depth) :
    (if q'.blames f.inside then Blame.operator.fault f.inside else f.inside) =
      (if q.blames f then Blame.operator.fault f else f).within (outer.levels.any id) := by
  simp only [Blame.fault]
  by_cases hempty : f = .unexpectedEnd
  · rw [hempty]
    simp [Fault.inside, Fault.within, blames]
  by_cases hextraneous : f = .extraneous
  · rw [hextraneous]
    rfl
  have hinside : f.inside = f := by
    cases f <;> first | rfl | exact absurd rfl hempty
  rw [hinside, h.blames_eq hempty hextraneous hclosing]
  cases q.blames f
  · cases f <;> simp_all [Fault.within]
  · simp [Fault.within]

end Situation

/-! ### Readings inside one another -/

namespace Reading

/-- A text is read alone up to `r`, and in another text, from `base` on, up to `r'`. The same is
ahead in both, up to where the one has `z` and the other `z'`. -/
structure Within (base : Reading) (z z' : Text) (r r' : Reading) : Prop where
  /-- The same is ahead, up to `z` and `z'`. -/
  ahead_eq : ∃ v, r.cursor.ahead = v ++ z ∧ r'.cursor.ahead = v ++ z'
  /-- The columns differ by that of `base`. -/
  position_eq : r'.cursor.position = base.cursor.position + r.cursor.position
  /-- The same tokens have been recorded, each as much further on. -/
  recorded_eq : r'.recorded =
    r.recorded.map (Token.shift · base.cursor.position) ++ base.recorded
  /-- The situation is the same but for what `base` has around it. -/
  inside : base.situation.Inside r.situation r'.situation

/-- The literal read last, if one has been, cannot go on in `z'`. -/
def Settled (r : Reading) (z z' : Text) : Prop :=
  ∀ k ∈ r.recorded.head?, k.kind = .operand → r.cursor.ahead = z → z'.NoDigitFirst

/-- Up to `r` it cannot be told whether `z` or `z'` is at the end of what is ahead: a character
before it is unread, or the text ends in place of `z` and `z'` begins with no character of
expressions. -/
def Indifferent (r : Reading) (z z' : Text) : Prop :=
  z.length < r.unread ∨ z = [] ∧ z'.ForeignFirst

variable {base r r' s : Reading} {rules : Rules} {z z' v w : Text} {l : Lexeme} {e : Rejection}

/-- The beginning of a text is within the place where the text stands. -/
theorem Within.start (hterm : base.situation.wantsTerm) (hbase : base.cursor.ahead = v ++ z') :
    base.Within z z' (start (v ++ z)) base where
  ahead_eq := ⟨v, rfl, hbase⟩
  position_eq := rfl
  recorded_eq := rfl
  inside := .start hterm

/-- Behind the tokens before it those of the text stand as much further on. -/
theorem Within.tokens_eq (h : base.Within z z' r r') :
    r'.tokens = base.tokens ++ r.tokens.map (Token.shift · base.cursor.position) := by
  rw [tokens, h.recorded_eq, List.reverse_append, ← List.map_reverse]
  rfl

/-- Behind the beginning of a text tokens are not moved. -/
theorem tokens_start_append (t : Text) (ks : List Token) :
    (Reading.start t).tokens ++ ks.map (Token.shift · (Reading.start t).cursor.position) = ks := by
  change [] ++ ks.map (Token.shift · 0) = ks
  simp

/-- A text at the beginning of another one has its tokens where they are in that one. -/
theorem Within.tokens_eq_of_start {t : Text} (h : (Reading.start t).Within z z' r r') :
    r'.tokens = r.tokens :=
  h.tokens_eq.trans (tokens_start_append t r.tokens)

/-- A lexeme is met in both texts if it stands in both of them before `z` and `z'`. -/
theorem Within.meets (h : base.Within z z' r r') (hmeets : r.Meets rules w l (v ++ z))
    (hlongest : l.kind = .operand → Text.NoDigitFirst (v ++ z')) :
    r'.Meets (rules.deepen base.situation.depth) w l (v ++ z') where
  blank := hmeets.blank
  fits := h.inside.fits hmeets.fits
  ahead_eq := by
    obtain ⟨u, hu, hu'⟩ := h.ahead_eq
    have hsplit : w ++ (l.value ++ v) ++ z = u ++ z := by
      rw [← hu, hmeets.ahead_eq]
      simp only [List.append_assoc]
    rw [hu', ← List.append_cancel_right hsplit]
    simp only [List.append_assoc]
  longest := hlongest

/-- A step is made in both texts if it does not go into `z`. -/
theorem Within.exists_step (h : base.Within z z' r r') (hstep : Step rules r s)
    (hz : z.length ≤ s.unread) (hsettled : s.Settled z z') :
    ∃ s', Step (rules.deepen base.situation.depth) r' s' ∧ base.Within z z' s s' := by
  obtain ⟨w, l, rest, hmeets, rfl⟩ := hstep.exists_meets
  rw [unread, hmeets.ahead_take] at hz
  obtain ⟨v, rfl⟩ : z <:+ rest := by
    obtain ⟨u, hu, -⟩ := h.ahead_eq
    refine List.suffix_of_suffix_length_le ⟨u, rfl⟩ ⟨w ++ l.value, ?_⟩ hz
    rw [← hu, hmeets.ahead_eq, List.append_assoc]
  have hlongest : l.kind = .operand → Text.NoDigitFirst (v ++ z') := by
    intro hkind
    cases v with
    | nil =>
      refine hsettled ⟨l, (r.cursor.position + w.length : Nat)⟩ ?_ hkind hmeets.ahead_take
      rw [hmeets.recorded_take]
      rfl
    | cons c v => exact Text.firstNot_cons.2 (Text.firstNot_cons.1 (hmeets.longest hkind))
  have hmeets' := h.meets hmeets hlongest
  refine ⟨_, hmeets'.step, ⟨v, hmeets.ahead_take, hmeets'.ahead_take⟩, ?_, ?_, ?_⟩
  · rw [hmeets'.passes.position_eq, hmeets.passes.position_eq, h.position_eq, Nat.add_assoc]
  · rw [hmeets'.recorded_take, hmeets.recorded_take, h.recorded_eq, h.position_eq]
    simp [Token.shift]
    omega
  · rw [situation_take, situation_take, situation_skipBlanks, situation_skipBlanks]
    exact h.inside.next hmeets.fits.depth_pos

/-- A run is followed in both texts if it does not go into `z`. -/
theorem Within.exists_reaches (h : base.Within z z' s base) (hreach : Reaches rules s r)
    (hz : z.length ≤ r.unread) (hsettled : r.Settled z z') :
    ∃ r', Reaches (rules.deepen base.situation.depth) base r' ∧ base.Within z z' r r' := by
  induction hreach with
  | refl => exact ⟨base, .refl, h⟩
  | @tail q r _ hstep ih =>
    -- before the last step more is left, so no literal read until then touches the end
    have hlt : r.unread < q.unread := hstep.unread_lt
    have hq : q.Settled z z' := by
      intro k _ _ hahead
      have hlength : q.unread = z.length := congrArg List.length hahead
      omega
    obtain ⟨q', hreach', hwithin⟩ := ih (by omega) hq
    obtain ⟨r', hstep', hwithin'⟩ := hwithin.exists_step hstep hz hsettled
    exact ⟨r', hreach'.tail hstep', hwithin'⟩

/-- A text with `z'` behind it is read as it is alone, if its last literal cannot go on. -/
theorem exists_within_of_append {t : Text} (hterm : base.situation.wantsTerm)
    (hahead : base.cursor.ahead = t ++ z') (hreach : Reaches rules (.start t) r)
    (hsettled : r.Settled [] z') :
    ∃ r', Reaches (rules.deepen base.situation.depth) base r' ∧ base.Within [] z' r r' ∧
      r'.cursor.ahead = r.cursor.ahead ++ z' := by
  have hstart : base.Within [] z' (.start (t ++ [])) base := .start hterm hahead
  rw [List.append_nil] at hstart
  obtain ⟨r', hreach', hwithin⟩ := hstart.exists_reaches hreach (Nat.zero_le _) hsettled
  obtain ⟨v, hv, hv'⟩ := hwithin.ahead_eq
  rw [List.append_nil] at hv
  exact ⟨r', hreach', hwithin, hv ▸ hv'⟩

/-- No literal goes on where no digit comes first. -/
theorem settled_of_noDigitFirst (hz : z'.NoDigitFirst) : r.Settled z z' := fun _ _ _ _ => hz

/-! ### Faults inside one another -/

/-- What cannot be told at a place could not be told before. -/
theorem Indifferent.of_unread_le (h : s.Indifferent z z') (hle : s.unread ≤ r.unread) :
    r.Indifferent z z' := by
  rcases h with hlt | hend
  · exact Or.inl (Nat.lt_of_lt_of_le hlt hle)
  · exact Or.inr hend

/-- What is at the end has not been passed. -/
theorem Indifferent.length_le (h : r.Indifferent z z') : z.length ≤ r.unread := by
  rcases h with hlt | ⟨rfl, -⟩
  · exact Nat.le_of_lt hlt
  · exact Nat.zero_le _

/-- While it cannot be told what is at the end, the literal read last has ended. -/
theorem Indifferent.settled (h : r.Indifferent z z') : r.Settled z z' := by
  intro k _ _ hahead
  rcases h with hlt | ⟨-, hforeign⟩
  · rw [unread, hahead] at hlt
    exact absurd hlt (Nat.lt_irrefl _)
  · exact hforeign.noDigitFirst

/-- A scan that ends where the texts cannot be told apart is the same in both. -/
theorem Indifferent.scan_eq (hahead : r.cursor.ahead = v ++ z)
    (h : (r.forward (Literal.scan (v ++ z)).passed).Indifferent z z') :
    Literal.scan (v ++ z') = Literal.scan (v ++ z) := by
  rcases h with hlt | ⟨rfl, hforeign⟩
  · apply Literal.scan_append_congr
    rw [unread, forward, Cursor.ahead_forward, hahead, List.length_drop, List.length_append] at hlt
    omega
  · rw [List.append_nil]
    exact Literal.scan_append_of_foreignFirst v hforeign

/-- What has been passed where the texts cannot be told apart is the same in both. -/
theorem Indifferent.take_eq {n : Nat} (hahead : r.cursor.ahead = v ++ z)
    (h : (r.forward n).Indifferent z z') (hn : n ≤ (v ++ z).length) :
    (v ++ z').take n = (v ++ z).take n := by
  have hle : n ≤ v.length := by
    rcases h with hlt | ⟨rfl, -⟩
    · rw [unread, forward, Cursor.ahead_forward, hahead, List.length_drop, List.length_append]
        at hlt
      omega
    · simpa using hn
  rw [List.take_append_of_le_length hle, List.take_append_of_le_length hle]

/-- Behind the blanks the same is ahead in both texts. -/
theorem Within.exists_front (h : base.Within z z' r r') (hind : r.skipBlanks.Indifferent z z') :
    ∃ v, r.skipBlanks.cursor.ahead = v ++ z ∧ r'.skipBlanks.cursor.ahead = v ++ z' ∧
      r'.skipBlanks.cursor.position = base.cursor.position + r.skipBlanks.cursor.position ∧
      (v = [] → z = [] ∧ z'.ForeignFirst) := by
  obtain ⟨w, hw, hsplit, hposition⟩ := r.cursor.exists_blank_append
  obtain ⟨u, hu, hu'⟩ := h.ahead_eq
  obtain ⟨v, hv⟩ : z <:+ r.cursor.skipBlanks.ahead :=
    List.suffix_of_suffix_length_le ⟨u, hu.symm⟩ ⟨w, hsplit.symm⟩ hind.length_le
  have hnil : v = [] → z = [] ∧ z'.ForeignFirst := by
    rintro rfl
    refine hind.resolve_left ?_
    rw [List.nil_append] at hv
    rw [unread, skipBlanks, ← hv]
    exact Nat.lt_irrefl _
  have hwv : w ++ v = u := by
    have hall : w ++ v ++ z = u ++ z := by
      rw [List.append_assoc, hv, ← hu]
      exact hsplit.symm
    exact List.append_cancel_right hall
  have hahead : r'.cursor.ahead = w ++ (v ++ z') := by
    rw [hu', ← hwv, List.append_assoc]
  have hblank : Text.NoBlankFirst (v ++ z') := by
    cases v with
    | nil => exact (hnil rfl).2.noBlankFirst
    | cons c v =>
      have hfirst := r.cursor.noBlankFirst_ahead_skipBlanks
      rw [← hv] at hfirst
      exact Text.firstNot_cons.2 (Text.firstNot_cons.1 hfirst)
  refine ⟨v, hv.symm, Cursor.ahead_skipBlanks_of_append hw hblank hahead, ?_, hnil⟩
  rw [skipBlanks, skipBlanks, Cursor.position_skipBlanks_of_append hw hblank hahead, hposition,
    h.position_eq, Nat.add_assoc]

/-- A fault is found in both texts at the same place of what they share. -/
theorem Within.exists_stops (h : base.Within z z' r r') (hs : Stops rules r (.error e))
    (hind : e.reading.Indifferent z z')
    (hstart : z' = [] → e.reading.unread = 0 → base.recorded ≠ [])
    (hdepth : e.fault = .extraneous → base.situation.depth = 0) :
    ∃ e', Stops (rules.deepen base.situation.depth) r' (.error e') ∧ e'.fault = e.fault.inside ∧
      e'.column = base.cursor.position + e.column := by
  obtain ⟨v, hv, hv', hposition, hnil⟩ := h.exists_front (hind.of_unread_le hs.unread_le)
  have hnext {p : Symbol → Bool} (hend : p .endOfText = false) (hforeign : p .foreign = false) :=
    Cursor.nextSatisfies_congr hv hv' hnil hend hforeign
  have hterm := h.inside.wantsTerm_eq
  have hdeep := h.inside.depth_eq
  have hend (h₀ : ¬ r.skipBlanks.cursor.atEnd) : ¬ r'.skipBlanks.cursor.atEnd := by
    rw [Cursor.atEnd_iff_ahead, hv] at h₀
    rw [Cursor.atEnd_iff_ahead, hv', List.append_eq_nil_iff]
    rintro ⟨rfl, -⟩
    rw [(hnil rfl).1] at h₀
    exact h₀ rfl
  cases hs with
  | extraneous hterm₀ hdepth₀ hend₀ hoperator =>
    refine ⟨_, .extraneous (hterm ▸ hterm₀) ?_ (hend hend₀) ?_, rfl, hposition⟩
    · rw [hdeep, hdepth₀, hdepth rfl]
    · rw [hnext rfl rfl]
      exact hoperator
  | unclosed hterm₀ hdepth₀ hoperator hclosing =>
    refine ⟨_, .unclosed (hterm ▸ hterm₀) ?_ ?_ ?_, rfl, hposition⟩
    · rw [hdeep]
      exact Nat.add_pos_left hdepth₀ _
    · rw [hnext rfl rfl]
      exact hoperator
    · rw [Cursor.nextIs, hnext rfl rfl]
      exact hclosing
  | empty hrecorded hend₀ =>
    -- the larger text does not consist of blanks, so what is missing there is a term
    have hterm₀ := wantsTerm_of_recorded_eq_nil hrecorded
    refine ⟨_, .noTerm (hterm.trans hterm₀) ?_ ?_ ?_, rfl, hposition⟩
    · intro hnone hend'
      rw [h.recorded_eq, List.append_eq_nil_iff] at hnone
      rw [Cursor.atEnd_iff_ahead, hv', List.append_eq_nil_iff] at hend'
      refine hstart hend'.2 ?_ hnone.2
      exact congrArg List.length (Cursor.atEnd_iff_ahead.1 hend₀)
    · rw [Cursor.nextIs, hnext rfl rfl, Cursor.not_nextSatisfies_of_atEnd hend₀]
      exact Bool.false_ne_true
    · rw [hnext rfl rfl, Cursor.not_nextSatisfies_of_atEnd hend₀]
      exact Bool.false_ne_true
  | tooDeep hterm₀ hopening hdepth₀ =>
    refine ⟨_, .tooDeep (hterm.trans hterm₀) ?_ ?_, rfl, hposition⟩
    · rw [Cursor.nextIs, hnext rfl rfl]
      exact hopening
    · rw [hdeep]
      exact Nat.add_le_add_right hdepth₀ _
  | @malformed offset passed hterm₀ hstart₀ hscan =>
    have hscan' : Literal.scan r'.skipBlanks.cursor.ahead = .malformed offset passed := by
      rw [hv', Indifferent.scan_eq hv, ← hv, hscan]
      rw [← hv, hscan]
      exact hind
    refine ⟨_, .malformed (hterm.trans hterm₀) ?_ hscan', rfl, ?_⟩
    · rw [hnext rfl rfl]
      exact hstart₀
    · rw [hposition, Nat.add_assoc]
  | @outOfRange n hterm₀ hscan hadmits =>
    have hscan' : Literal.scan r'.skipBlanks.cursor.ahead = .complete n := by
      rw [hv', Indifferent.scan_eq hv, ← hv, hscan]
      rw [← hv, hscan]
      exact hind
    refine ⟨_, .outOfRange (hterm.trans hterm₀) hscan' ?_, rfl, hposition⟩
    have hle := (Literal.pos_of_scan_eq_complete hscan).2
    rw [hv] at hle
    rw [hv', Indifferent.take_eq hv hind hle, ← hv]
    exact hadmits
  | noTerm hterm₀ hrecorded hopening hstart₀ =>
    refine ⟨_, .noTerm (hterm.trans hterm₀) ?_ ?_ ?_, rfl, hposition⟩
    · intro hnone
      rw [h.recorded_eq, List.append_eq_nil_iff, List.map_eq_nil_iff] at hnone
      exact hend (hrecorded hnone.1)
    · rw [Cursor.nextIs, hnext rfl rfl]
      exact hopening
    · rw [hnext rfl rfl]
      exact hstart₀

/-! ### Room inside one another -/

variable {stack : Stack} {t : Text}

/-- A text that is read alone with the room that the groups around it leave is read in its place. -/
theorem Within.goes (h : base.Within z z' r r')
    (hreach : Reaches (rules.deepen base.situation.depth) base r')
    (hgoes : Goes rules (stack.inside (2 * base.situation.depth)) (.start t) r) :
    Goes (rules.deepen base.situation.depth) stack base r' := by
  refine (hreach.goes_iff h.tokens_eq).2 ?_
  rw [Token.map_toLexeme_shift, Token.holds_calls_inside hgoes.reaches.admits_tokens.1]
  exact hgoes.holds_calls

/-- A text at the end of another one is read there as it is alone, with the room that the groups
around it leave. -/
theorem exists_within_of_ahead {n : Nat} (hn : base.situation.depth = n)
    (hterm : base.situation.wantsTerm) (hahead : base.cursor.ahead = t)
    (hgoes : Goes rules (stack.inside (2 * n)) (.start t) r) :
    ∃ r', Goes (rules.deepen n) stack base r' ∧ base.Within [] [] r r' ∧
      r'.skipBlanks.cursor.ahead = r.skipBlanks.cursor.ahead ∧
      r'.skipBlanks.cursor.position = base.cursor.position + r.skipBlanks.cursor.position := by
  subst hn
  obtain ⟨r', hreach', hwithin, -⟩ := exists_within_of_append hterm
    (hahead.trans t.append_nil.symm) hgoes.reaches (settled_of_noDigitFirst Text.firstNot_nil)
  obtain ⟨v, hv, hv', hposition, -⟩ := hwithin.exists_front (Or.inr ⟨rfl, Text.firstNot_nil⟩)
  exact ⟨r', hwithin.goes hreach' hgoes, hwithin, hv'.trans hv.symm, hposition⟩

/-- With the room that the groups around it leave, the text alone needs what it needs in its place,
unless it consists of blanks. -/
theorem Within.sameNeed (h : base.Within z z' r r') (hind : r.skipBlanks.Indifferent z z')
    (hsome : r.recorded = [] → ¬ r.skipBlanks.cursor.atEnd) :
    SameNeed rules (rules.deepen base.situation.depth) (stack.inside (2 * base.situation.depth))
      stack r r' := by
  obtain ⟨v, hv, hv', -, hnil⟩ := h.exists_front hind
  have hdeep := h.inside.depth_eq
  refine ⟨h.inside.wantsTerm_eq, iff_of_false ?_ fun hblank => hsome hblank.1 hblank.2, ?_, ?_, ?_⟩
  · rintro ⟨hnone, hend⟩
    rw [h.recorded_eq, List.append_eq_nil_iff, List.map_eq_nil_iff] at hnone
    rw [Cursor.atEnd_iff_ahead, hv', List.append_eq_nil_iff] at hend
    refine hsome hnone.1 (Cursor.atEnd_iff_ahead.2 ?_)
    rw [hv, hend.1, (hnil hend.1).1]
    rfl
  · exact fun _ hend hforeign => Cursor.nextSatisfies_congr hv hv' hnil hend hforeign
  · rw [hdeep]
    exact Nat.add_lt_add_iff_right
  · intro n hn
    rw [hdeep, Stack.forTerm, Stack.forTerm, Stack.inside_inside, Stack.holds_inside hn,
      Stack.holds_inside hn]
    congr 1
    omega

/-- Where the text alone ends with a fault, with the room that the groups around it leave, it does
so in its place. -/
theorem Within.exists_halts (h : base.Within z z' r r')
    (hs : Halts rules (stack.inside (2 * base.situation.depth)) r (.error e))
    (hind : e.reading.Indifferent z z')
    (hstart : z' = [] → e.reading.unread = 0 → base.recorded ≠ [])
    (hdepth : e.fault = .extraneous → base.situation.depth = 0) :
    ∃ e', Halts (rules.deepen base.situation.depth) stack r' (.error e') ∧
      e'.fault = e.fault.inside ∧ e'.column = base.cursor.position + e.column := by
  cases hs with
  | @givesUp q hgives =>
    have hind' : r.skipBlanks.Indifferent z z' := hind.of_unread_le hgives.unread_le
    obtain ⟨-, -, -, hposition, -⟩ := h.exists_front hind'
    obtain ⟨q', n, hgives', hcolumn, hcolumn', -⟩ :=
      (h.sameNeed hind' hgives.not_atEnd).exists_givesUp hgives
    refine ⟨_, .givesUp hgives', rfl, ?_⟩
    change q'.cursor.position = base.cursor.position + q.cursor.position
    omega
  | stops hroom hstop =>
    have hind' := hind.of_unread_le hstop.unread_le
    obtain ⟨v, hv, hv', hposition, hnil⟩ := h.exists_front hind'
    obtain ⟨e', hstop', hfault, hcolumn⟩ := h.exists_stops hstop hind hstart hdepth
    by_cases hroom' : r'.HasRoom (rules.deepen base.situation.depth) stack
    · exact ⟨e', .stops hroom' hstop', hfault, hcolumn⟩
    -- there was room for the text alone, so it consists of blanks and needs none
    rw [HasRoom, not_forall_not] at hroom'
    obtain ⟨q', hgives⟩ := hroom'
    have hblank : r.recorded = [] ∧ r.skipBlanks.cursor.atEnd := by
      by_contra hsome
      obtain ⟨q, n, hq, -⟩ := (h.sameNeed hind' (not_and.1 hsome)).symm.exists_givesUp hgives
      exact hroom q hq
    obtain rfl : e = r.skipBlanks.reject .unexpectedEnd := by
      have heq := hstop.unique (.empty hblank.1 hblank.2)
      exact Except.error.inj heq
    cases hgives with
    | term hterm hrecorded hdepth' hstack =>
      exact ⟨_, .givesUp (.term hterm hrecorded hdepth' hstack), rfl, hposition⟩
    | literal _ hliteral =>
      rw [Cursor.nextSatisfies_congr hv hv' hnil rfl rfl,
        Cursor.not_nextSatisfies_of_atEnd hblank.2] at hliteral
      exact absurd hliteral Bool.false_ne_true

end Reading

namespace Analysis

open Reading

variable {rules : Rules} {stack : Stack} {n : Nat} {base r : Reading} {t v z z' : Text}
  {e : Rejection}

/-- A text that stands in another, from `base` on, brings its tokens and its fault with it. Alone it
is read with the room that the groups around it leave. -/
theorem ofText_within (hbase : Goes (rules.deepen n) stack (.start t) base)
    (hn : base.situation.depth = n) (hterm : base.situation.wantsTerm)
    (hahead : base.cursor.ahead = v ++ z')
    (hgoes : Goes rules (stack.inside (2 * n)) (.start (v ++ z)) r)
    (hs : Halts rules (stack.inside (2 * n)) r (.error e)) (hind : e.reading.Indifferent z z')
    (hstart : z' = [] → e.reading.unread = 0 → base.recorded ≠ [])
    (hdepth : e.fault = .extraneous → n = 0) :
    (ofText (rules.deepen n) t .operator stack).tokens = base.tokens ++
        (ofText rules (v ++ z) .operator (stack.inside (2 * n))).tokens.map
          (Token.shift · base.cursor.position) ∧
      ∃ f, (ofText rules (v ++ z) .operator (stack.inside (2 * n))).verdict =
          { status := .faulty f, column := e.column } ∧
        (ofText (rules.deepen n) t .operator stack).verdict = {
          status := .faulty (f.within (base.situation.levels.any id))
          column := base.cursor.position + e.column } := by
  subst hn
  have hindr : r.Indifferent z z' :=
    hind.of_unread_le (Nat.le_trans hs.unread_le r.unread_skipBlanks_le)
  obtain ⟨r', hreach', hwithin⟩ :=
    (Within.start hterm hahead).exists_reaches hgoes.reaches hindr.length_le hindr.settled
  obtain ⟨e', hs', hfault, hcolumn⟩ := hwithin.exists_halts hs hind hstart hdepth
  have hrun := hbase.trans (hwithin.goes hreach' hgoes)
  refine ⟨?_, _, verdict_of_halts hgoes hs, ?_⟩
  · rw [tokens_of_halts hrun hs', tokens_of_halts hgoes hs, hwithin.tokens_eq]
  · have hsame := hwithin.inside.fault_eq (f := e.fault) hs.depth_pos
    rw [verdict_of_halts hrun hs', hfault, hcolumn, hsame, Int.natCast_add]

/-- A text at the end of another one, behind some tokens, brings its tokens and its fault with
it. -/
theorem ofText_of_ahead (hbase : Goes (rules.deepen n) stack (.start t) base)
    (hn : base.situation.depth = n) (hterm : base.situation.wantsTerm)
    (hahead : base.cursor.ahead = v) (hrecorded : base.recorded ≠ [])
    (hgoes : Goes rules (stack.inside (2 * n)) (.start v) r)
    (hs : Halts rules (stack.inside (2 * n)) r (.error e))
    (hdepth : e.fault = .extraneous → n = 0) :
    (ofText (rules.deepen n) t .operator stack).tokens = base.tokens ++
        (ofText rules v .operator (stack.inside (2 * n))).tokens.map
          (Token.shift · base.cursor.position) ∧
      ∃ f, (ofText rules v .operator (stack.inside (2 * n))).verdict =
          { status := .faulty f, column := e.column } ∧
        (ofText (rules.deepen n) t .operator stack).verdict = {
          status := .faulty (f.within (base.situation.levels.any id))
          column := base.cursor.position + e.column } := by
  have hahead' : base.cursor.ahead = v ++ [] := hahead.trans v.append_nil.symm
  have hgoes' : Goes rules (stack.inside (2 * n)) (.start (v ++ [])) r := by
    rwa [List.append_nil]
  have hind : e.reading.Indifferent [] [] := Or.inr ⟨rfl, Text.firstNot_nil⟩
  have hall := ofText_within hbase hn hterm hahead' hgoes' hs hind (fun _ _ => hrecorded) hdepth
  rwa [List.append_nil] at hall

/-- What follows a text that ends with a fault before it is of no consequence, but that the text may
end there. -/
theorem ofText_of_indifferent (hgoes : Goes rules stack (.start (v ++ z)) r)
    (hs : Halts rules stack r (.error e)) (hind : e.reading.Indifferent z z')
    (hstart : z' = [] → e.reading.unread ≠ 0) :
    (ofText rules (v ++ z') .operator stack).tokens =
        (ofText rules (v ++ z) .operator stack).tokens ∧
      ∃ f, (ofText rules (v ++ z) .operator stack).verdict =
          { status := .faulty f, column := e.column } ∧
        (ofText rules (v ++ z') .operator stack).verdict =
          { status := .faulty (f.within false), column := e.column } := by
  have hzero : stack.inside (2 * 0) = stack := stack.inside_zero
  have hgoes' : Goes rules (stack.inside (2 * 0)) (.start (v ++ z)) r := by rwa [hzero]
  have hs' : Halts rules (stack.inside (2 * 0)) r (.error e) := by rwa [hzero]
  obtain ⟨htokens, f, hf, hf'⟩ := ofText_within (n := 0) .refl rfl rfl rfl hgoes' hs' hind
    (fun hz hunread => absurd hunread (hstart hz)) fun _ => rfl
  rw [hzero] at htokens hf
  exact ⟨htokens.trans (tokens_start_append _ _), f, hf,
    hf'.trans (congrArg (Verdict.mk _) (Int.zero_add _))⟩

end Analysis

end ArithSyntax
