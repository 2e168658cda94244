-- The numbers that settings write, read both ways: an integer is its digits, and a double is
-- a numeral, an infinity or NaN. A sign may stand in front and white space around, and single
-- underscores may stand between digits.
import FieldGate.Proofs.NumericTexts
import FieldGate.Proofs.Outcomes
import FieldGate.Proofs.Spacing

namespace FieldGate

/-! ## The grammar -/

/-- A text whose underscores stand between two digits each, and the text without them. -/
inductive Grouped : Text → Text → Prop
  | nil : Grouped [] []
  | point {p : Point} {t u : Text} : p ≠ '_' → Grouped t u → Grouped (p :: t) (p :: u)
  | digits {p q : Point} {t u : Text} : p.isDigit = true → q.isDigit = true →
      Grouped (q :: t) u → Grouped (p :: '_' :: q :: t) (p :: u)

/-- A body behind an optional sign, with white space around the two; whether the sign is a
minus, and the body. -/
inductive SignedBody : Text → Bool → Text → Prop
  | parts {before sign body after : Text} {negative : Bool} :
      (∀ p ∈ before, p.isNumeralBlank = true) → SignOf sign negative →
      (∀ p ∈ after, p.isNumeralBlank = true) →
      SignedBody (before ++ (sign ++ body ++ after)) negative body

/-- A text that is an integer: digits of any script, not too many of them. -/
inductive IntegerText : Text → Int → Prop
  | digits {t body ds : Text} {negative : Bool} {vs : List Nat} : SignedBody t negative body →
      Grouped body ds → ds ≠ [] → DigitsOf ds vs → vs.length ≤ longestNumeral →
      IntegerText t (signed negative (numberOfDigits vs))

/-- A text that is a double: a numeral, or a word for an infinity or for NaN, in ASCII letters
of either case. -/
inductive DoubleText : Text → Double → Prop
  | numeral {t body plain : Text} {negative : Bool} {n : Numeral} : SignedBody t negative body →
      Grouped body plain → ReadableNumeral plain n → DoubleText t (n.toDouble negative)
  | infinity {t body : Text} {negative : Bool} : SignedBody t negative body →
      body.map Point.asciiLower = "inf" ∨ body.map Point.asciiLower = "infinity" →
      DoubleText t (.infinite negative)
  | nan {t body : Text} {negative : Bool} : SignedBody t negative body →
      body.map Point.asciiLower = "nan" → DoubleText t .nan

/-! ## Underscores -/

theorem ne_line_of_isDigit {p : Point} (h : p.isDigit = true) : p ≠ '_' := by
  rintro rfl
  revert h
  decide +kernel

section Grouped

variable {t u : Text}

theorem Grouped.mem_iff {p : Point} (h : Grouped t u) : p ∈ u ↔ p ∈ t ∧ p ≠ '_' := by
  induction h with
  | nil => simp
  | point hq _ ih =>
    simp only [List.mem_cons, ih]
    constructor
    · rintro (rfl | ⟨hmem, hp⟩)
      · exact ⟨.inl rfl, hq⟩
      · exact ⟨.inr hmem, hp⟩
    · rintro ⟨rfl | hmem, hp⟩
      · exact .inl rfl
      · exact .inr ⟨hmem, hp⟩
  | @digits q _ _ _ hq _ _ ih =>
    have hline := ne_line_of_isDigit hq
    simp only [List.mem_cons] at ih ⊢
    rw [ih]
    constructor
    · rintro (rfl | ⟨hmem, hp⟩)
      · exact ⟨.inl rfl, hline⟩
      · exact ⟨.inr (.inr hmem), hp⟩
    · rintro ⟨rfl | rfl | hmem, hp⟩
      · exact .inl rfl
      · exact absurd rfl hp
      · exact .inr ⟨hmem, hp⟩

theorem Grouped.head?_eq (h : Grouped t u) : t.head? = u.head? := by
  cases h <;> rfl

theorem dropUnderscores?_grouped (h : Grouped t u) (afterDigit : Bool) :
    dropUnderscores? afterDigit t = some u := by
  induction h generalizing afterDigit with
  | nil => rfl
  | point hp _ ih => rw [dropUnderscores?, if_neg hp, ih, Option.map_some]
  | @digits p q t u hp hq _ ih =>
    have hfollows : (true && (q :: t).head?.any Point.isDigit) = true := by simp [hq]
    rw [dropUnderscores?, if_neg (ne_line_of_isDigit hp), hp, dropUnderscores?, if_pos rfl,
      if_pos hfollows, ih, Option.map_some]

/-- What is left when underscores are dropped. Behind a digit the text may itself start with
an underscore; the induction is on the text. -/
theorem grouped_of_dropUnderscores? {afterDigit : Bool}
    (h : dropUnderscores? afterDigit t = some u) :
    Grouped t u ∨ afterDigit = true
      ∧ ∃ q rest, t = ('_' :: q :: rest : Text) ∧ q.isDigit = true
        ∧ Grouped (q :: rest) u := by
  induction t generalizing afterDigit u with
  | nil =>
    obtain rfl := Option.some.inj h
    exact .inl .nil
  | cons p rest ih =>
    rw [dropUnderscores?] at h
    by_cases hp : p = '_'
    · rw [if_pos hp] at h
      split_ifs at h with hbetween
      subst hp
      cases rest with
      | nil => simp at hbetween
      | cons q rest =>
        simp only [List.head?_cons, Option.any_some, Bool.and_eq_true] at hbetween
        rcases ih h with hrest | ⟨hfalse, -⟩
        · exact .inr ⟨hbetween.1, q, rest, rfl, hbetween.2, hrest⟩
        · cases hfalse
    · rw [if_neg hp] at h
      obtain ⟨v, hv, rfl⟩ := Option.map_eq_some_iff.mp h
      rcases ih hv with hrest | ⟨hdigit, q, more, rfl, hq, hrest⟩
      · exact .inl (.point hp hrest)
      · exact .inl (.digits hdigit hq hrest)

theorem dropUnderscores?_iff : dropUnderscores? false t = some u ↔ Grouped t u := by
  constructor
  · intro h
    rcases grouped_of_dropUnderscores? h with hgrouped | ⟨hfalse, -⟩
    · exact hgrouped
    · cases hfalse
  · exact fun h => dropUnderscores?_grouped h false

end Grouped

/-! ## Signs and white space -/

theorem isNumeralBlank_of_isBlank {p : Point} (h : p.isBlank = false) :
    p.isNumeralBlank = false := by
  simp [Point.isNumeralBlank, h]

theorem SignOf.no_blank {sign : Text} {negative : Bool} (h : SignOf sign negative) :
    ∀ p ∈ sign, p.isBlank = false := by
  cases h with
  | none => simp
  | plus | minus => exact List.forall_mem_cons.mpr ⟨by decide +kernel, by simp⟩

theorem signedBody_of_split {t body : Text} {negative : Bool}
    (h : splitSign (Text.trimmed Point.isNumeralBlank t) = (negative, body)) :
    SignedBody t negative body := by
  obtain ⟨before, after, ht, hbefore, hafter⟩ := trimmed_spec Point.isNumeralBlank t
  obtain ⟨sign, hsign, htrimmed⟩ := splitSign_spec (Text.trimmed Point.isNumeralBlank t)
  rw [h] at hsign htrimmed
  rw [ht, htrimmed]
  exact .parts hbefore hsign hafter

/-- The body is found again when there is no white space in it, and no second sign in front. -/
theorem SignedBody.split {t body : Text} {negative : Bool} (h : SignedBody t negative body)
    (hblank : ∀ p ∈ body, p.isBlank = false) (hhead : ∀ p ∈ body.head?, p ≠ '-' ∧ p ≠ '+') :
    splitSign (Text.trimmed Point.isNumeralBlank t) = (negative, body) := by
  cases h with
  | @parts before sign _ after _ hbefore hsign hafter =>
    have hcore : ∀ p ∈ sign ++ body, p.isNumeralBlank = false := by
      intro p hp
      apply isNumeralBlank_of_isBlank
      rcases List.mem_append.mp hp with hp | hp
      · exact hsign.no_blank p hp
      · exact hblank p hp
    rw [trimmed_append hbefore hcore hafter]
    exact splitSign_append hsign hhead

/-! ## Integers -/

theorem isBlank_line : Point.isBlank '_' = false := by decide +kernel

theorem Grouped.no_blank {t u : Text} (h : Grouped t u) (hu : ∀ p ∈ u, p.isBlank = false) :
    ∀ p ∈ t, p.isBlank = false := by
  intro p hp
  by_cases hline : p = '_'
  · rw [hline]
    exact isBlank_line
  · exact hu p (h.mem_iff.mpr ⟨hp, hline⟩)

/-- An integer is read just when the text is one, and it is read as what it is. -/
theorem readInteger_ok_iff {shown t : Text} {n : Int} :
    readInteger shown t = .ok n ↔ IntegerText t n := by
  constructor
  · intro h
    unfold readInteger at h
    generalize hsplit : splitSign (Text.trimmed Point.isNumeralBlank t) = split at h
    obtain ⟨negative, body⟩ := split
    dsimp only at h
    split at h
    · cases h
    · cases h
    · rename_i digits hne hdigits
      obtain ⟨k, hk, h⟩ := bind_eq_ok.mp h
      split_ifs at h with hshort
      obtain rfl := Except.ok.inj h
      have hrun := (List.takeWhile_prefix _).eq_of_length_le (Nat.le_of_not_lt hshort)
      rw [hrun, dropUnderscores?_iff] at hdigits
      have hall : ∀ p ∈ digits, p.isDigit = true := by
        intro p hp
        obtain ⟨hmem, hline⟩ := hdigits.mem_iff.mp hp
        rw [← hrun] at hmem
        simpa [hline] using List.mem_takeWhile_imp hmem
      obtain ⟨vs, hvs⟩ := exists_digitsOf hall
      rw [splitDigits_digits hvs, integerOfDigits] at hk
      split_ifs at hk with hlong
      obtain rfl := Except.ok.inj hk
      exact .digits (signedBody_of_split hsplit) hdigits hne hvs (Nat.le_of_not_lt hlong)
  · intro h
    cases h with
    | @digits body ds negative vs hbody hgrouped hne hds hlength =>
      have hhead : ∀ p ∈ body.head?, p ≠ '-' ∧ p ≠ '+' := by
        intro p hp
        rw [hgrouped.head?_eq] at hp
        exact ne_sign_of_head (.inl (hds.isDigit p (List.mem_of_mem_head? hp)))
      have hsplit := hbody.split (hgrouped.no_blank hds.no_blank) hhead
      have hrun : body.takeWhile (fun p : Point => p.isDigit || p = '_') = body := by
        rw [List.takeWhile_eq_self_iff]
        intro p hp
        by_cases hline : p = '_'
        · simp [hline]
        · simp [hds.isDigit p (hgrouped.mem_iff.mpr ⟨hp, hline⟩)]
      obtain ⟨d, more, rfl⟩ := List.exists_cons_of_ne_nil hne
      unfold readInteger
      rw [hsplit]
      dsimp only
      rw [hrun, dropUnderscores?_iff.mpr hgrouped]
      dsimp only
      rw [splitDigits_digits hds, integerOfDigits, if_neg (Nat.not_lt.mpr hlength), ok_bind,
        if_neg (Nat.lt_irrefl _)]
      rfl

/-- An underscore stands between two digits, and never beside another one. -/
example : readInteger [] "\t-1_000 " = .ok (-1000)
    ∧ readInteger [] "1__0" = .error (.notInteger []) := by decide +kernel

/-! ## Doubles -/

theorem not_blank_of_lower {p : Point} (h : p.asciiLower.isBlank = false) : p.isBlank = false := by
  unfold Point.asciiLower at h
  split_ifs at h with hupper
  · simp only [Point.within, List.any_cons, List.any_nil, Bool.or_false, Bool.and_eq_true,
      decide_eq_true_eq] at hupper
    simp only [Point.isBlank, Point.within, List.any_cons, List.any_nil, Bool.or_false,
      Bool.or_eq_false_iff, Bool.and_eq_false_iff, decide_eq_false_iff_not]
    omega
  · exact h

/-- Only a letter has a letter for its lower-case form. -/
theorem startsName_of_lower {p : Point} (h : p.asciiLower.isAsciiLetter = true) :
    p.startsName = true := by
  have hletter : p.isAsciiLetter = true := by
    unfold Point.asciiLower at h
    split_ifs at h with hupper
    · simp only [Point.within, List.any_cons, List.any_nil, Bool.or_false, Bool.and_eq_true,
        decide_eq_true_eq] at hupper
      simp [Point.isAsciiLetter, Point.within, hupper]
    · exact h
  simp [Point.startsName, hletter]

/-- The words for the doubles that no numeral stands for. -/
def doubleWords : List Text := ["inf", "infinity", "nan"]

theorem letters_of_doubleWord {body : Text} (h : body.map Point.asciiLower ∈ doubleWords) :
    ∀ p ∈ body, p.startsName = true := by
  have hwords : ∀ word ∈ doubleWords, word.all Point.isAsciiLetter = true := by decide +kernel
  intro p hp
  apply startsName_of_lower
  exact List.all_eq_true.mp (hwords _ h) _ (List.mem_map_of_mem hp)

theorem isBlank_dot : Point.isBlank '.' = false := by decide +kernel

theorem PointedOf.no_blank {t : Text} {vs : List Nat} (h : PointedOf t vs) :
    ∀ p ∈ t, p.isBlank = false := by
  cases h with
  | none => simp
  | point hds => exact List.forall_mem_cons.mpr ⟨isBlank_dot, hds.no_blank⟩

theorem ReadableNumeral.no_blank {t : Text} {n : Numeral} (h : ReadableNumeral t n) :
    ∀ p ∈ t, p.isBlank = false := by
  cases h with
  | whole _ hwhole hfraction hexponent =>
    simp only [List.forall_mem_append]
    exact ⟨hwhole.no_blank, hfraction.no_blank, hexponent.no_blank⟩
  | fraction _ hds hexponent =>
    simp only [List.forall_mem_cons, List.forall_mem_append]
    exact ⟨isBlank_dot, hds.no_blank, hexponent.no_blank⟩

/-- A numeral is none of the words. -/
theorem not_doubleWord {body plain : Text} {n : Numeral} (hgrouped : Grouped body plain)
    (h : ReadableNumeral plain n) : body.map Point.asciiLower ∉ doubleWords := by
  intro hword
  have hletters := letters_of_doubleWord hword
  obtain ⟨p, rest, rfl, hp⟩ := h.head
  have hmem : p ∈ body := (hgrouped.mem_iff.mp List.mem_cons_self).1
  rcases hp with hdigit | rfl
  · simpa [startsName_of_isDigit hdigit] using hletters p hmem
  · exact absurd (hletters _ hmem) (by decide +kernel)

section Reading

variable {t body : Text} {negative : Bool}

/-- A word behind a sign is split from it. -/
theorem SignedBody.split_word (h : SignedBody t negative body)
    (hword : body.map Point.asciiLower ∈ doubleWords) :
    splitSign (Text.trimmed Point.isNumeralBlank t) = (negative, body) := by
  have hletters := letters_of_doubleWord hword
  apply h.split
  · exact fun p hp => isBlank_of_startsName (hletters p hp)
  · intro p hp
    have hp := hletters p (List.mem_of_mem_head? hp)
    constructor
    · rintro rfl
      exact absurd hp (by decide +kernel)
    · rintro rfl
      exact absurd hp (by decide +kernel)

theorem SignedBody.split_numeral {plain : Text} {n : Numeral} (h : SignedBody t negative body)
    (hgrouped : Grouped body plain) (hplain : ReadableNumeral plain n) :
    splitSign (Text.trimmed Point.isNumeralBlank t) = (negative, body) := by
  apply h.split (hgrouped.no_blank hplain.no_blank)
  intro p hp
  obtain ⟨q, rest, rfl, hq⟩ := hplain.head
  rw [hgrouped.head?_eq] at hp
  obtain rfl := Option.some.inj hp
  exact ne_sign_of_head hq

end Reading

/-- A double is read just when the text is one, and it is read as what it is. -/
theorem readDouble?_eq_some_iff {t : Text} {d : Double} :
    readDouble? t = some d ↔ DoubleText t d := by
  constructor
  · intro h
    unfold readDouble? at h
    generalize hsplit : splitSign (Text.trimmed Point.isNumeralBlank t) = split at h
    obtain ⟨negative, body⟩ := split
    have hbody := signedBody_of_split hsplit
    dsimp only at h
    split_ifs at h with hinfinity hnan
    · obtain rfl := Option.some.inj h
      exact .infinity hbody (by simpa using hinfinity)
    · obtain rfl := Option.some.inj h
      exact .nan hbody hnan
    · obtain ⟨plain, hplain, h⟩ := Option.bind_eq_some_iff.mp h
      obtain ⟨n, hn, h⟩ := Option.bind_eq_some_iff.mp h
      obtain rfl := Option.some.inj h
      exact .numeral hbody (dropUnderscores?_iff.mp hplain) (readable_of_read? hn)
  · intro h
    unfold readDouble?
    cases h with
    | numeral hbody hgrouped hplain =>
      have hword := not_doubleWord hgrouped hplain
      simp only [doubleWords, List.mem_cons, List.not_mem_nil, or_false, not_or] at hword
      rw [hbody.split_numeral hgrouped hplain]
      dsimp only
      rw [if_neg (by simp [hword]), if_neg hword.2.2, dropUnderscores?_iff.mpr hgrouped,
        Option.bind_eq_bind, Option.bind_some, read?_readable hplain]
      rfl
    | infinity hbody hword =>
      rw [hbody.split_word (by simp [doubleWords, ← or_assoc, hword])]
      dsimp only
      rw [if_pos (by simpa using hword)]
    | nan hbody hword =>
      rw [hbody.split_word (by simp [doubleWords, hword])]
      dsimp only
      rw [hword]
      rfl

end FieldGate
