-- The grammar of path expressions, and the law of the compiler: it accepts the
-- expressions that the grammar derives, and gives the steps that they denote.
import FieldGate.Check
import FieldGate.Proofs.Correspondence
import FieldGate.Proofs.DoubleRange
import FieldGate.Proofs.Literals

namespace FieldGate

/-! ## The grammar -/

/-- The double is this natural number. -/
def Double.IsNat (d : Double) (n : Nat) : Prop :=
  ∃ m s fits, d = .finite false m s fits ∧ sizeInUnits m s = n * unitsPerOne

/-- A token inside brackets and the step that it stands for: a quoted literal,
digits with their decimal value, or any other numeral whose double value is a
whole number. -/
inductive StepOf : Lexeme → Step → Prop
  | name {w t : Text} : LiteralOf w t → StepOf (.literal, w) (.name t)
  | digits {w : Text} {vs : List Nat} : w ≠ [] → DigitsOf w vs →
      StepOf (.number, w) (.index (numberOfDigits vs))
  | double {w : Text} {n : Numeral} {k : Nat} : NumeralOf w n → (∃ p ∈ w, p.isDigit = false) →
      (n.toDouble false).IsNat k → StepOf (.number, w) (.index k)

/-- The accesses after the first, and their steps: a dot and a name, or one
literal in brackets. -/
inductive AccessorsOf : List Lexeme → List Step → Prop
  | nil : AccessorsOf [] []
  | dot {mark name : Text} {ls : List Lexeme} {steps : List Step} : AccessorsOf ls steps →
      AccessorsOf ((.dot, mark) :: (.name, name) :: ls) (.name name :: steps)
  | bracket {opener closer : Text} {l : Lexeme} {step : Step} {ls : List Lexeme}
      {steps : List Step} : StepOf l step → AccessorsOf ls steps →
      AccessorsOf ((.openBracket, opener) :: l :: (.closeBracket, closer) :: ls) (step :: steps)

/-- The tokens of a path and its steps: a name or a shorthand with one element,
which one comma may follow, and then the accesses after it. -/
inductive PathOf : List Lexeme → List Step → Prop
  | name {name : Text} {ls : List Lexeme} {steps : List Step} : AccessorsOf ls steps →
      PathOf ((.name, name) :: ls) (.name name :: steps)
  | bracket {opener closer : Text} {l : Lexeme} {step : Step} {ls : List Lexeme}
      {steps : List Step} : StepOf l step → AccessorsOf ls steps →
      PathOf ((.openBracket, opener) :: l :: (.closeBracket, closer) :: ls) (step :: steps)
  | comma {opener mark closer : Text} {l : Lexeme} {step : Step} {ls : List Lexeme}
      {steps : List Step} : StepOf l step → AccessorsOf ls steps →
      PathOf ((.openBracket, opener) :: l :: (.comma, mark) :: (.closeBracket, closer) :: ls)
        (step :: steps)

theorem PathOf.ne_nil {ls : List Lexeme} {steps : List Step} (h : PathOf ls steps) :
    steps ≠ [] := by
  cases h with
  | name _ | bracket _ _ | comma _ _ => exact List.cons_ne_nil _ _

/-- No index that is written in digits alone is too long to be read. -/
def ShortIndices (ls : List Lexeme) : Prop :=
  ∀ l ∈ ls, ∀ vs, l.1 = .number → DigitsOf l.2 vs → l.2.length ≤ longestNumeral

/-! ## Literals inside brackets -/

/-- A token as the lexer makes it, with no index too long to be read. -/
structure Token.Readable (t : Token) : Prop where
  text : TokenText t.kind t.text
  short : ∀ vs, t.kind = .number → DigitsOf t.text vs → t.text.length ≤ longestNumeral

/-- A numeral is digits alone, or the reader of digits stops inside it. -/
theorem numeralOf_split {w : Text} {n : Numeral} (h : NumeralOf w n) :
    DigitsOf w n.whole ∨ (∃ p ∈ w, p.isDigit = false)
      ∧ ∃ p rest, splitDigits w = (n.whole, p :: rest) := by
  obtain ⟨hne, hwhole, hfraction, hexponent⟩ := h
  rename_i whole fraction exponent ws fs e
  cases hfraction with
  | none =>
    rcases exponentOf_head hexponent with rfl | ⟨mark, more, rfl, hmark⟩
    · exact .inl (by simpa using hwhole)
    · have hstop := not_isDigit_mark hmark
      refine .inr ⟨⟨mark, by simp, hstop⟩, mark, more, ?_⟩
      exact splitDigits_append _ hwhole (by simp [hstop])
  | @digits ds _ _ _ =>
    refine .inr ⟨⟨'.', by simp, not_isDigit_dot⟩, '.', ds ++ exponent, ?_⟩
    exact splitDigits_append _ hwhole (by simp [not_isDigit_dot])

theorem not_digitsOf {w : Text} {vs : List Nat} (h : ∃ p ∈ w, p.isDigit = false) :
    ¬DigitsOf w vs := by
  obtain ⟨p, hp, hdigit⟩ := h
  intro hds
  rw [hds.isDigit p hp] at hdigit
  cases hdigit

/-- A double without a minus is a natural number, or it is not whole. -/
theorem isNat_or_not_whole {d : Double} (hd : d.HasSign false) :
    (∃ k : Nat, d.IsNat k ∧ d.isWhole = true ∧ d.wholePart? = some (k : Int))
      ∨ d.isWhole = false ∧ ∀ k, ¬d.IsNat k := by
  cases d with
  | nan => cases hd
  | infinite negative => exact .inr ⟨rfl, by simp [Double.IsNat]⟩
  | finite negative m s fits =>
    obtain rfl : negative = false := hd
    by_cases hmod : sizeInUnits m s % unitsPerOne = 0
    · refine .inl ⟨sizeInUnits m s / unitsPerOne, ⟨m, s, fits, rfl, ?_⟩, ?_, rfl⟩
      · exact (Nat.div_mul_cancel (Nat.dvd_of_mod_eq_zero hmod)).symm
      · simp [Double.isWhole, hmod]
    · refine .inr ⟨by simp [Double.isWhole, hmod], ?_⟩
      rintro k ⟨m', s', fits', heq, hvalue⟩
      obtain ⟨_, rfl, rfl⟩ := Double.finite.inj heq
      exact hmod (hvalue ▸ Nat.mul_mod_left k unitsPerOne)

theorem integerOfDigits_short {vs : List Nat} (h : vs.length ≤ longestNumeral) :
    integerOfDigits vs = .ok (numberOfDigits vs) := by
  rw [integerOfDigits, if_neg (by omega)]

theorem indexStep_digits {t : Token} {vs : List Nat} (hds : DigitsOf t.text vs)
    (hshort : t.text.length ≤ longestNumeral) :
    indexStep t = .ok (.index (numberOfDigits vs)) := by
  unfold indexStep
  rw [splitDigits_digits hds]
  simp only [integerOfDigits_short (hds.length_eq ▸ hshort)]
  rfl

/-- A numeral with a fraction or an exponent is judged by its double value. -/
theorem indexStep_double {t : Token} {n : Numeral} (hn : NumeralOf t.text n)
    (hmark : ∃ p ∈ t.text, p.isDigit = false) :
    (∃ k, (n.toDouble false).IsNat k ∧ indexStep t = .ok (.index k))
      ∨ (∀ k, ¬(n.toDouble false).IsNat k) ∧ indexStep t = faultAt t (.notWhole t.text) := by
  obtain hds | ⟨_, p, rest, hsplit⟩ := numeralOf_split hn
  · exact absurd hds (not_digitsOf hmark)
  · have hsign := ofDecimal_hasSign false n.coefficient n.scale
    unfold indexStep
    rw [hsplit]
    simp only [read?_numeral hn, Option.map_some]
    rcases isNat_or_not_whole hsign with ⟨k, hk, hwhole, hpart⟩ | ⟨hwhole, hnone⟩
    · refine .inl ⟨k, hk, ?_⟩
      unfold Numeral.toDouble
      simp only [hwhole, hpart, Int.toNat_natCast]
    · refine .inr ⟨hnone, ?_⟩
      unfold Numeral.toDouble
      simp only [hwhole]

theorem Double.IsNat.unique {d : Double} {j k : Nat} (hj : d.IsNat j) (hk : d.IsNat k) :
    j = k := by
  obtain ⟨m, s, fits, rfl, hm⟩ := hj
  obtain ⟨m', s', fits', heq, hm'⟩ := hk
  obtain ⟨_, rfl, rfl⟩ := Double.finite.inj heq
  exact Nat.eq_of_mul_eq_mul_right unitsPerOne_pos (hm.symm.trans hm')

/-- A readable token inside brackets gives the step that it stands for, or is
refused for what it is; it is never too long. -/
theorem literalStep_spec {t : Token} (ht : t.Readable) :
    (∃ step, literalStep t = .ok step ∧ StepOf t.lexeme step)
      ∨ (∃ fault, literalStep t = .error (.grammar fault t.position))
        ∧ ∀ step, ¬StepOf t.lexeme step := by
  obtain ⟨kind, w, position⟩ := t
  obtain ⟨htext, hshort⟩ := ht
  simp only at htext hshort
  cases kind with
  | literal =>
    unfold literalStep
    cases hunquote : unquote w with
    | ok name => exact .inl ⟨_, rfl, .name ((unquote_ok_iff htext).mp hunquote)⟩
    | error fault =>
      refine .inr ⟨⟨_, rfl⟩, ?_⟩
      rintro step ⟨hliteral⟩
      rw [(unquote_ok_iff htext).mpr hliteral] at hunquote
      cases hunquote
  | number =>
    unfold literalStep
    cases htext with
    | @number _ n hn =>
      obtain ⟨p, rest, rfl, _⟩ := numeralOf_head hn
      rcases numeralOf_split hn with hds | ⟨hmark, _⟩
      · left
        have hstep := indexStep_digits (t := ⟨.number, p :: rest, position⟩) hds (hshort _ rfl hds)
        exact ⟨_, hstep, .digits (List.cons_ne_nil p rest) hds⟩
      · rcases indexStep_double (t := ⟨.number, p :: rest, position⟩) hn hmark with
          ⟨k, hk, hstep⟩ | ⟨hnone, hstep⟩
        · exact .inl ⟨_, hstep, .double hn hmark hk⟩
        · refine .inr ⟨⟨_, hstep⟩, ?_⟩
          intro step hstepOf
          cases hstepOf with
          | digits _ hds => exact not_digitsOf hmark hds
          | double hn' _ hk =>
            obtain rfl := hn.unique hn'
            exact hnone _ hk
  | name | dot | openBracket | closeBracket | comma =>
    refine .inr ⟨⟨_, rfl⟩, ?_⟩
    intro step hstepOf
    cases hstepOf

/-- A token stands for at most one step. -/
theorem StepOf.unique {l : Lexeme} {a b : Step} (htext : TokenText l.1 l.2) (ha : StepOf l a)
    (hb : StepOf l b) : a = b := by
  cases ha with
  | name ha =>
    cases hb with
    | name hb =>
      rw [← unquote_ok_iff htext] at ha hb
      rw [Except.ok.inj (ha.symm.trans hb)]
  | digits _ ha =>
    cases hb with
    | digits _ hb => rw [ha.unique hb]
    | double _ hmark _ => exact absurd ha (not_digitsOf hmark)
  | double ha hmark hj =>
    cases hb with
    | digits _ hb => exact absurd hb (not_digitsOf hmark)
    | double hb _ hk =>
      obtain rfl := ha.unique hb
      rw [hj.unique hk]

theorem literalStep_ok_iff {t : Token} {step : Step} (ht : t.Readable) :
    literalStep t = .ok step ↔ StepOf t.lexeme step := by
  rcases literalStep_spec ht with ⟨step', hok, hstep'⟩ | ⟨⟨fault, herror⟩, hnone⟩
  · rw [hok, Except.ok.injEq]
    constructor
    · rintro rfl
      exact hstep'
    · exact fun hstep => hstep'.unique ht.text hstep
  · rw [herror]
    constructor
    · intro h
      cases h
    · exact fun hstep => absurd hstep (hnone step)

/-- The run ends with steps, or with a fault of the grammar; no index in it is
too long to be read. -/
def EndsInGrammar {α : Type} (x : Except PathError α) : Prop :=
  ∀ e, x = .error e → ∃ fault position, e = .grammar fault position

theorem endsInGrammar_literalStep {t : Token} (ht : t.Readable) :
    EndsInGrammar (literalStep t) := by
  intro e he
  rcases literalStep_spec ht with ⟨step, hok, _⟩ | ⟨⟨fault, herror⟩, _⟩
  · rw [hok] at he
    cases he
  · rw [herror] at he
    exact ⟨fault, t.position, (Except.error.inj he).symm⟩

/-- A readable token corresponds to itself: all errors at it are faults of the
grammar. -/
theorem Token.Readable.corresponds {t : Token} (ht : t.Readable) :
    t.Corresponds (fun e _ => ∃ fault position, e = .grammar fault position) t where
  kind := rfl
  text := rfl
  fault := fun fault => ⟨fault, t.position, rfl⟩
  literal := by
    have hends := endsInGrammar_literalStep ht
    cases hstep : literalStep t with
    | ok step => exact .ok rfl
    | error e => exact .error (hends e hstep)

/-! ## Accesses -/

theorem lexeme_of_kind {t : Token} {kind : TokenKind} (h : t.kind = kind) :
    t.lexeme = (kind, t.text) := by
  rw [← h]
  rfl

/-- Accesses that the compiler takes are derived by the grammar. -/
theorem accessorsOf_of_accessors {ts : List Token} {steps : List Step}
    (hts : ∀ t ∈ ts, t.Readable) (h : accessors ts = .ok steps) :
    AccessorsOf (ts.map Token.lexeme) steps := by
  fun_induction accessors ts generalizing steps with
  | case1 =>
    obtain rfl := Except.ok.inj h
    exact .nil
  | case2 | case4 | case5 | case7 => cases h
  | case3 dot hdot name more hname ih =>
    obtain ⟨rest, hrest, rfl⟩ := map_eq_ok.mp h
    have hmore := ih (fun t ht => hts t (by simp [ht])) hrest
    simp only [List.map_cons, lexeme_of_kind hdot, lexeme_of_kind hname]
    exact .dot hmore
  | case6 opener hopener element after ih =>
    obtain ⟨step, hstep, h⟩ := bind_eq_ok.mp h
    have helement := (literalStep_ok_iff (hts element (by simp))).mp hstep
    cases after with
    | nil => cases h
    | cons closer more =>
      dsimp only at h ih
      split at h
      · rename_i hcloser
        obtain ⟨rest, hrest, hcons⟩ := bind_eq_ok.mp h
        obtain rfl := Except.ok.inj hcons
        have hmore := ih (fun t ht => hts t (by simp [ht])) hrest
        simp only [List.map_cons, lexeme_of_kind hopener, lexeme_of_kind hcloser]
        exact .bracket helement hmore
      · cases h

theorem accessors_dot {dot name : Token} (more : List Token) (hdot : dot.kind = .dot)
    (hname : name.kind = .name) :
    accessors (dot :: name :: more) = (accessors more).map (.name name.text :: ·) := by
  rw [accessors.eq_def]
  simp only [hdot, hname, if_true]

theorem accessors_bracket {opener element closer : Token} {step : Step} (more : List Token)
    (hopener : opener.kind = .openBracket) (hstep : literalStep element = .ok step)
    (hcloser : closer.kind = .closeBracket) :
    accessors (opener :: element :: closer :: more) = (accessors more).map (step :: ·) := by
  rw [accessors.eq_def]
  simp only [hopener, hstep, hcloser, ok_bind, if_true]
  rfl

/-- Accesses that the grammar derives are taken by the compiler. -/
theorem accessors_of_accessorsOf {ls : List Lexeme} {steps : List Step} (h : AccessorsOf ls steps)
    {ts : List Token} (hts : ∀ t ∈ ts, t.Readable) (hls : ts.map Token.lexeme = ls) :
    accessors ts = .ok steps := by
  induction h generalizing ts with
  | nil =>
    obtain rfl := List.map_eq_nil_iff.mp hls
    rfl
  | dot _ ih =>
    obtain ⟨dot, tail, rfl, hdot, htail⟩ := List.map_eq_cons_iff.mp hls
    obtain ⟨name, more, rfl, hname, hmore⟩ := List.map_eq_cons_iff.mp htail
    obtain ⟨hkind, rfl⟩ := Prod.mk.inj hname
    rw [accessors_dot more (Prod.mk.inj hdot).1 hkind,
      ih (fun t ht => hts t (by simp [ht])) hmore]
    rfl
  | bracket hstep _ ih =>
    obtain ⟨opener, rest, rfl, hopener, hrest⟩ := List.map_eq_cons_iff.mp hls
    obtain ⟨element, tail, rfl, rfl, htail⟩ := List.map_eq_cons_iff.mp hrest
    obtain ⟨closer, more, rfl, hcloser, hmore⟩ := List.map_eq_cons_iff.mp htail
    have hok := (literalStep_ok_iff (hts element (by simp))).mpr hstep
    rw [accessors_bracket more (Prod.mk.inj hopener).1 hok (Prod.mk.inj hcloser).1,
      ih (fun t ht => hts t (by simp [ht])) hmore]
    rfl

/-! ## The shorthand -/

theorem startsClosed_iff {ts : List Token} :
    startsClosed ts = true ↔ ∃ closer more, ts = closer :: more ∧ closer.kind = .closeBracket := by
  cases ts with
  | nil => simp [startsClosed]
  | cons t ts => simp [startsClosed]

/-- The elements of a shorthand start with a literal; after it comes the closing
bracket, perhaps behind a comma, or a comma and further elements. -/
theorem shorthandElements_cases {opener : Token} {ts left : List Token} {steps : List Step}
    (h : shorthandElements opener ts = .ok (steps, left)) :
    ∃ element mark more step, ts = element :: mark :: more ∧ literalStep element = .ok step
      ∧ (mark.kind = .closeBracket ∧ steps = [step] ∧ left = more
        ∨ mark.kind = .comma ∧ steps = [step]
          ∧ (∃ closer, closer.kind = .closeBracket ∧ more = closer :: left)
        ∨ ∃ others, shorthandElements opener more = .ok (others, left)
          ∧ steps = step :: others) := by
  cases ts with
  | nil => cases h
  | cons element rest =>
    rw [shorthandElements.eq_def] at h
    obtain ⟨step, hstep, h⟩ := bind_eq_ok.mp h
    cases rest with
    | nil => cases h
    | cons mark more =>
      refine ⟨element, mark, more, step, rfl, hstep, ?_⟩
      dsimp only at h
      split_ifs at h with hclose hcomma hended
      · obtain ⟨rfl, rfl⟩ := Prod.mk.inj (Except.ok.inj h)
        exact .inl ⟨hclose, rfl, rfl⟩
      · obtain ⟨closer, rest, rfl, hcloser⟩ := startsClosed_iff.mp hended
        obtain ⟨rfl, rfl⟩ := Prod.mk.inj (Except.ok.inj h)
        exact .inr (.inl ⟨hcomma, rfl, closer, hcloser, rfl⟩)
      · obtain ⟨⟨others, left'⟩, hothers, hcons⟩ := bind_eq_ok.mp h
        obtain ⟨rfl, rfl⟩ := Prod.mk.inj (Except.ok.inj hcons)
        exact .inr (.inr ⟨others, hothers, rfl⟩)
      · cases h

theorem shorthandElements_ne_nil {opener : Token} {ts left : List Token} {steps : List Step}
    (h : shorthandElements opener ts = .ok (steps, left)) : steps ≠ [] := by
  obtain ⟨_, _, _, _, _, _, hcases⟩ := shorthandElements_cases h
  rcases hcases with ⟨_, rfl, _⟩ | ⟨_, rfl, _⟩ | ⟨_, _, rfl⟩ <;> exact List.cons_ne_nil _ _

/-- A shorthand with one element is a literal between brackets, with or without
a comma behind it. -/
theorem shorthand_one {opener : Token} {ts left : List Token} {step : Step}
    (h : shorthand opener ts = .ok ([step], left)) :
    ∃ element, literalStep element = .ok step
      ∧ ((∃ closer, closer.kind = .closeBracket ∧ ts = element :: closer :: left)
        ∨ ∃ mark closer, mark.kind = .comma ∧ closer.kind = .closeBracket
          ∧ ts = element :: mark :: closer :: left) := by
  unfold shorthand at h
  split_ifs at h
  · cases h
  · obtain ⟨element, mark, more, step', rfl, hstep, hcases⟩ := shorthandElements_cases h
    rcases hcases with ⟨hclose, hsteps, rfl⟩ | ⟨hcomma, hsteps, closer, hcloser, rfl⟩ |
        ⟨others, hothers, hsteps⟩
    · obtain ⟨rfl, _⟩ := List.cons.inj hsteps
      exact ⟨element, hstep, .inl ⟨mark, hclose, rfl⟩⟩
    · obtain ⟨rfl, _⟩ := List.cons.inj hsteps
      exact ⟨element, hstep, .inr ⟨mark, closer, hcomma, hcloser, rfl⟩⟩
    · obtain ⟨_, hnil⟩ := List.cons.inj hsteps
      exact absurd hnil.symm (shorthandElements_ne_nil hothers)

theorem literalStep_closed {t : Token} (h : t.kind = .closeBracket) (step : Step) :
    literalStep t ≠ .ok step := by
  unfold literalStep
  rw [h]
  intro hok
  cases hok

theorem shorthand_bracket {opener element closer : Token} {step : Step} (more : List Token)
    (hstep : literalStep element = .ok step) (hcloser : closer.kind = .closeBracket) :
    shorthand opener (element :: closer :: more) = .ok ([step], more) := by
  have hopen : element.kind ≠ .closeBracket := fun h => literalStep_closed h step hstep
  rw [shorthand, if_neg (by simp [startsClosed, hopen]), shorthandElements.eq_def]
  simp only [hstep, hcloser, ok_bind, if_true]
  rfl

theorem shorthand_comma {opener element mark closer : Token} {step : Step} (more : List Token)
    (hstep : literalStep element = .ok step) (hmark : mark.kind = .comma)
    (hcloser : closer.kind = .closeBracket) :
    shorthand opener (element :: mark :: closer :: more) = .ok ([step], more) := by
  have hopen : element.kind ≠ .closeBracket := fun h => literalStep_closed h step hstep
  rw [shorthand, if_neg (by simp [startsClosed, hopen]), shorthandElements.eq_def]
  simp [hstep, hmark, startsClosed, hcloser]

/-! ## The whole of an expression -/

theorem shorthand_left {opener : Token} {ts left : List Token} {step : Step}
    (h : shorthand opener ts = .ok ([step], left)) : ∀ t ∈ left, t ∈ ts := by
  obtain ⟨element, _, ⟨closer, _, rfl⟩ | ⟨mark, closer, _, _, rfl⟩⟩ := shorthand_one h
  · exact fun t ht => by simp [ht]
  · exact fun t ht => by simp [ht]

/-- The tokens that the compiler takes are derived by the grammar. -/
theorem pathOf_of_stepsOf {ts : List Token} {steps : List Step} (hts : ∀ t ∈ ts, t.Readable)
    (h : stepsOf ts = .ok steps) : PathOf (ts.map Token.lexeme) steps := by
  cases ts with
  | nil => cases h
  | cons t rest =>
    have hrest : ∀ u ∈ rest, u.Readable := fun u hu => hts u (List.mem_cons_of_mem t hu)
    rw [stepsOf.eq_def] at h
    dsimp only at h
    split at h
    · rename_i hname
      obtain ⟨others, hothers, rfl⟩ := map_eq_ok.mp h
      rw [List.map_cons, lexeme_of_kind hname]
      exact .name (accessorsOf_of_accessors hrest hothers)
    · rename_i hopener
      obtain ⟨⟨elements, left⟩, hshorthand, h⟩ := bind_eq_ok.mp h
      dsimp only at h
      split at h
      · rename_i step
        obtain ⟨others, hothers, hcons⟩ := bind_eq_ok.mp h
        obtain rfl := Except.ok.inj hcons
        have hleft := accessorsOf_of_accessors
          (fun u hu => hrest u (shorthand_left hshorthand u hu)) hothers
        rw [List.map_cons, lexeme_of_kind hopener]
        obtain ⟨element, hstep, ⟨closer, hcloser, rfl⟩ | ⟨mark, closer, hmark, hcloser, rfl⟩⟩ :=
          shorthand_one hshorthand
        · rw [literalStep_ok_iff (hrest element (by simp))] at hstep
          simp only [List.map_cons, lexeme_of_kind hcloser]
          exact .bracket hstep hleft
        · rw [literalStep_ok_iff (hrest element (by simp))] at hstep
          simp only [List.map_cons, lexeme_of_kind hcloser, lexeme_of_kind hmark]
          exact .comma hstep hleft
      · cases h
    · cases h

theorem stepsOf_name {t : Token} (rest : List Token) (h : t.kind = .name) :
    stepsOf (t :: rest) = (accessors rest).map (.name t.text :: ·) := by
  rw [stepsOf.eq_def]
  simp only [h]

theorem stepsOf_shorthand {t : Token} {rest left : List Token} {step : Step}
    (h : t.kind = .openBracket) (hshorthand : shorthand t rest = .ok ([step], left)) :
    stepsOf (t :: rest) = (accessors left).map (step :: ·) := by
  rw [stepsOf.eq_def]
  simp only [h, hshorthand, ok_bind]
  rfl

/-- The tokens that the grammar derives are taken by the compiler. -/
theorem stepsOf_of_pathOf {ts : List Token} {steps : List Step} (hts : ∀ t ∈ ts, t.Readable)
    (h : PathOf (ts.map Token.lexeme) steps) : stepsOf ts = .ok steps := by
  generalize hls : ts.map Token.lexeme = ls at h
  cases h with
  | name haccessors =>
    obtain ⟨name, rest, rfl, hname, rfl⟩ := List.map_eq_cons_iff.mp hls
    obtain ⟨hkind, rfl⟩ := Prod.mk.inj hname
    rw [stepsOf_name rest hkind,
      accessors_of_accessorsOf haccessors (fun t ht => hts t (by simp [ht])) rfl]
    rfl
  | bracket hstep haccessors =>
    obtain ⟨opener, rest, rfl, hopener, hrest⟩ := List.map_eq_cons_iff.mp hls
    obtain ⟨element, tail, rfl, rfl, htail⟩ := List.map_eq_cons_iff.mp hrest
    obtain ⟨closer, more, rfl, hcloser, rfl⟩ := List.map_eq_cons_iff.mp htail
    have hok := (literalStep_ok_iff (hts element (by simp))).mpr hstep
    rw [stepsOf_shorthand (Prod.mk.inj hopener).1
        (shorthand_bracket more hok (Prod.mk.inj hcloser).1),
      accessors_of_accessorsOf haccessors (fun t ht => hts t (by simp [ht])) rfl]
    rfl
  | comma hstep haccessors =>
    obtain ⟨opener, rest, rfl, hopener, hrest⟩ := List.map_eq_cons_iff.mp hls
    obtain ⟨element, tail, rfl, rfl, htail⟩ := List.map_eq_cons_iff.mp hrest
    obtain ⟨mark, tail', rfl, hmark, htail'⟩ := List.map_eq_cons_iff.mp htail
    obtain ⟨closer, more, rfl, hcloser, rfl⟩ := List.map_eq_cons_iff.mp htail'
    have hok := (literalStep_ok_iff (hts element (by simp))).mpr hstep
    rw [stepsOf_shorthand (Prod.mk.inj hopener).1
        (shorthand_comma more hok (Prod.mk.inj hmark).1 (Prod.mk.inj hcloser).1),
      accessors_of_accessorsOf haccessors (fun t ht => hts t (by simp [ht])) rfl]
    rfl

theorem stepsOf_error {ts : List Token} {e : PathError} (hts : ∀ t ∈ ts, t.Readable)
    (h : stepsOf ts = .error e) : ∀ m, e ≠ .unreadable m := by
  cases ts with
  | nil =>
    obtain rfl := Except.error.inj h
    simp
  | cons t rest =>
    have hrest : ∀ u ∈ rest, u.Corresponds _ u :=
      fun u hu => (hts u (List.mem_cons_of_mem t hu)).corresponds
    have hends := stepsOf_corresponds (hts t (by simp)).corresponds (List.forall₂_same.mpr hrest)
    obtain ⟨fault, position, rfl⟩ := hends.error_of_eq h
    simp

/-! ## Blank expressions -/

theorem strip_eq_nil_iff {t : Text} : t.strip = [] ↔ ∀ p ∈ t, p.isBlank = true := by
  unfold Text.strip Text.trimmed
  rw [List.reverse_eq_nil_iff, List.dropWhile_eq_nil_iff]
  simp only [List.mem_reverse]
  constructor
  · intro h
    have hnil : t.dropWhile Point.isBlank = [] := by
      cases hdrop : t.dropWhile Point.isBlank with
      | nil => rfl
      | cons p rest =>
        have hhead := List.head?_dropWhile_not Point.isBlank t
        rw [hdrop] at hhead
        simp [h p (by simp [hdrop])] at hhead
    exact List.dropWhile_eq_nil_iff.mp hnil
  · intro h
    rw [List.dropWhile_eq_nil_iff.mpr h]
    simp

theorem Splits.gap_append {gap e : Text} {ls : List Lexeme} (h : Splits e ls)
    (hgap : ∀ p ∈ gap, p.isBlank = true) : Splits (gap ++ e) ls := by
  induction gap with
  | nil => exact h
  | cons p gap ih =>
    exact .blank (hgap p List.mem_cons_self) (ih fun q hq => hgap q (List.mem_cons_of_mem p hq))

theorem splits_blank {t : Text} (h : ∀ p ∈ t, p.isBlank = true) : Splits t [] := by
  simpa using Splits.nil.gap_append h

theorem tokens_of_strip {e : Text} (h : e.strip.isEmpty = true) : tokens e = .ok [] := by
  have hblank := splits_blank (strip_eq_nil_iff.mp (List.isEmpty_iff.mp h))
  obtain ⟨ts, hts, hnil⟩ := tokens_of_splits hblank
  rw [hts, List.map_eq_nil_iff.mp hnil]

/-! ## The compiler -/

/-- The compiler orders the tokens of the lexer; it asks whether there are any before. -/
theorem compile_of_tokens {e : Text} {ts : List Token} (h : tokens e = .ok ts) :
    Path.compile e = (stepsOf ts).map (⟨e, ·⟩) := by
  unfold Path.compile
  split
  · rename_i hblank
    rw [tokens_of_strip hblank] at h
    obtain rfl := Except.ok.inj h
    rfl
  · rw [h]

theorem compile_of_stray {e : Text} {s : StrayPoint} (h : tokens e = .error s) :
    Path.compile e = .error (.stray s) := by
  unfold Path.compile
  split
  · rename_i hblank
    rw [tokens_of_strip hblank] at h
    cases h
  · rw [h]

/-- The tokens of an expression are readable when none of its indices is too
long. -/
theorem readable_of_tokens {e : Text} {ts : List Token} (h : tokens e = .ok ts)
    (short : ∀ ls, Splits e ls → ShortIndices ls) : ∀ t ∈ ts, t.Readable := by
  intro t ht
  have hsplits := splits_of_tokens h
  have hmem : t.lexeme ∈ ts.map Token.lexeme := List.mem_map_of_mem ht
  exact ⟨hsplits.text _ hmem, fun vs hkind hds => short _ hsplits _ hmem vs hkind hds⟩

/-- A short expression holds no long index. -/
theorem shortIndices_of_length_le {e : Text} (h : e.length ≤ longestNumeral) :
    ∀ ls, Splits e ls → ShortIndices ls :=
  fun _ hls l hl _ _ _ => (hls.length_le l hl).trans h

/-- The compiler gives steps that the grammar derives, or an error that is no
unreadable index. -/
theorem compile_spec (e : Text) (short : ∀ ls, Splits e ls → ShortIndices ls) :
    (∃ ls steps, Path.compile e = .ok ⟨e, steps⟩ ∧ Splits e ls ∧ PathOf ls steps)
      ∨ (∃ err, Path.compile e = .error err ∧ ∀ m, err ≠ .unreadable m)
        ∧ ∀ ls steps, Splits e ls → ¬PathOf ls steps := by
  cases htokens : tokens e with
  | error s =>
    refine .inr ⟨⟨.stray s, compile_of_stray htokens, by simp⟩, ?_⟩
    intro ls steps hls
    obtain ⟨ts, hts, _⟩ := tokens_of_splits hls
    rw [htokens] at hts
    cases hts
  | ok ts =>
    have hreadable := readable_of_tokens htokens short
    have hsplits := splits_of_tokens htokens
    rw [compile_of_tokens htokens]
    cases hsteps : stepsOf ts with
    | ok steps => exact .inl ⟨_, steps, rfl, hsplits, pathOf_of_stepsOf hreadable hsteps⟩
    | error err =>
      refine .inr ⟨⟨err, rfl, stepsOf_error hreadable hsteps⟩, ?_⟩
      intro ls steps hls hpath
      obtain rfl := hsplits.unique hls
      rw [stepsOf_of_pathOf hreadable hpath] at hsteps
      cases hsteps

theorem PathOf.unique {e : Text} {ls : List Lexeme} {steps others : List Step}
    (short : ∀ ls, Splits e ls → ShortIndices ls) (hls : Splits e ls) (h : PathOf ls steps)
    (h' : PathOf ls others) : steps = others := by
  obtain ⟨ts, hts, rfl⟩ := tokens_of_splits hls
  have hreadable := readable_of_tokens hts short
  exact Except.ok.inj ((stepsOf_of_pathOf hreadable h).symm.trans (stepsOf_of_pathOf hreadable h'))

theorem compile_ok_spec {e : Text} {p : Path} (h : Path.compile e = .ok p) :
    ∃ ts, tokens e = .ok ts ∧ stepsOf ts = .ok p.steps ∧ p.expression = e := by
  cases htokens : tokens e with
  | error s =>
    rw [compile_of_stray htokens] at h
    cases h
  | ok ts =>
    rw [compile_of_tokens htokens] at h
    obtain ⟨steps, hsteps, rfl⟩ := map_eq_ok.mp h
    exact ⟨ts, rfl, hsteps, rfl⟩

theorem compilePath_ok_iff {e : Text} {p : Path} :
    compilePath (.text e) = .ok p ↔ Path.compile e = .ok p :=
  mapError_eq_ok

/-- The fault says that an expression is no path. -/
def Fault.RefusesPath (e : Text) (f : Fault) : Prop :=
  ∃ message position circumstances,
    f = .report (.malformedPath message (.text e) position circumstances none)

theorem refusesPath_of_error {e : Text} {err : PathError} (h : ∀ m, err ≠ .unreadable m) :
    (Fault.ofPathError (.text e) e err).RefusesPath e := by
  cases err with
  | unreadable m => exact absurd rfl (h m)
  | blank | notText _ | stray _ | grammar _ _ => exact ⟨_, _, _, rfl⟩

/-- The compiler accepts an expression just when it splits into tokens that the
grammar derives, and then gives the steps that the tokens denote, of which there
is at least one. Every other expression is refused as one that is no path. -/
theorem a_path_compiles_just_when_the_grammar_derives_it (e : Text)
    (short : ∀ ls, Splits e ls → ShortIndices ls) :
    (∀ p : Path, compilePath (.text e) = .ok p ↔
        p.expression = e ∧ ∃ ls, Splits e ls ∧ PathOf ls p.steps)
      ∧ (∀ p, compilePath (.text e) = .ok p → p.steps ≠ [])
      ∧ ((∀ ls steps, Splits e ls → ¬PathOf ls steps) →
        ∃ f, compilePath (.text e) = .error f ∧ f.RefusesPath e) := by
  have hiff (p : Path) : compilePath (.text e) = .ok p ↔
      p.expression = e ∧ ∃ ls, Splits e ls ∧ PathOf ls p.steps := by
    rw [compilePath_ok_iff]
    rcases compile_spec e short with ⟨ls, steps, hok, hls, hpath⟩ | ⟨⟨err, herror, _⟩, hnone⟩
    · rw [hok, Except.ok.injEq]
      constructor
      · rintro rfl
        exact ⟨rfl, ls, hls, hpath⟩
      · rintro ⟨rfl, ms, hms, hpath'⟩
        obtain rfl := hls.unique hms
        rw [PathOf.unique short hls hpath hpath']
    · rw [herror]
      constructor
      · intro h
        cases h
      · rintro ⟨_, ls, hls, hpath⟩
        exact absurd hpath (hnone ls _ hls)
  refine ⟨hiff, ?_, ?_⟩
  · intro p hp
    obtain ⟨_, ls, _, hpath⟩ := (hiff p).mp hp
    exact hpath.ne_nil
  · intro hnone
    rcases compile_spec e short with ⟨ls, steps, _, hls, hpath⟩ | ⟨⟨err, herror, hreadable⟩, _⟩
    · exact absurd hpath (hnone ls steps hls)
    · refine ⟨Fault.ofPathError (.text e) e err, ?_, refusesPath_of_error hreadable⟩
      rw [compilePath, herror]
      rfl

theorem a_shorthand_with_an_escape_compiles :
    (∀ ls, Splits "['a\\u0062',].x [1e2]" ls → ShortIndices ls)
      ∧ ∃ ls, Splits "['a\\u0062',].x [1e2]" ls
        ∧ PathOf ls [.name "ab", .name "x", .index 100] := by
  have short := shortIndices_of_length_le (e := "['a\\u0062',].x [1e2]") (by decide)
  refine ⟨short, ?_⟩
  have hiff := (a_path_compiles_just_when_the_grammar_derives_it _ short).1
  have hcompile : Path.compile "['a\\u0062',].x [1e2]"
      = .ok ⟨"['a\\u0062',].x [1e2]", [.name "ab", .name "x", .index 100]⟩ := by
    decide +kernel
  exact ((hiff _).mp (compilePath_ok_iff.mpr hcompile)).2

end FieldGate
