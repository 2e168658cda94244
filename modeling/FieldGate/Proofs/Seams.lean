-- Seams: what may be put behind a text without a change to its tokens, because none of
-- them goes on with it.
import FieldGate.Proofs.Tokens

namespace FieldGate

/-! ## What no token reaches into -/

/-- What a token never reaches into: neither a name nor a numeral goes on with its
first point, and a dot at its start has no digit behind it. -/
structure Seam (more : Text) : Prop where
  name : ∀ p ∈ more.head?, p.continuesName = false
  digit : ∀ p ∈ more.head?, p.isDigit = false
  sign : ∀ p ∈ more.head?, p ≠ '+' ∧ p ≠ '-'
  fraction : fractionLength more = 0

theorem takeWhile_append_stop {test : Point → Bool} {more : Text} (t : Text)
    (h : ∀ p ∈ more.head?, test p = false) : (t ++ more).takeWhile test = t.takeWhile test := by
  have hmore : more.takeWhile test = [] := by
    cases more with
    | nil => rfl
    | cons p rest => rw [List.takeWhile_cons_of_neg (by simp [h p rfl])]
  rw [List.takeWhile_append, hmore, List.append_nil]
  split
  · rename_i hwhole
    exact ((List.takeWhile_prefix test).eq_of_length hwhole).symm
  · rfl

section Seam

variable {more : Text} (h : Seam more)
include h

theorem Seam.digitRun (t : Text) : FieldGate.digitRun (t ++ more) = FieldGate.digitRun t :=
  congrArg List.length (takeWhile_append_stop t h.digit)

theorem Seam.fractionLength (t : Text) :
    FieldGate.fractionLength (t ++ more) = FieldGate.fractionLength t := by
  cases t with
  | nil => exact h.fraction
  | cons p rest => simp only [List.cons_append, FieldGate.fractionLength, h.digitRun]

theorem Seam.exponentLength (t : Text) :
    FieldGate.exponentLength (t ++ more) = FieldGate.exponentLength t := by
  have hnone : FieldGate.exponentLength more = 0 := by
    cases more with
    | nil => rfl
    | cons p rest =>
      have hp := h.name p rfl
      rw [FieldGate.exponentLength.eq_def]
      dsimp only
      rw [if_neg]
      rintro hmark
      rcases (by simpa using hmark : p = 'e' ∨ p = 'E') with rfl | rfl
      · exact absurd hp (by decide)
      · exact absurd hp (by decide)
  cases t with
  | nil => exact hnone
  | cons mark rest =>
    cases rest with
    | nil =>
      have hempty : FieldGate.digitRun [] = 0 := rfl
      have hstop : FieldGate.digitRun more = 0 := h.digitRun []
      cases more with
      | nil => rfl
      | cons p rest =>
        obtain ⟨hplus, hminus⟩ := h.sign p rfl
        simp [FieldGate.exponentLength, hempty, hstop, hplus, hminus]
    | cons sign tail =>
      have hrun := h.digitRun (sign :: tail)
      rw [List.cons_append] at hrun
      simp only [List.cons_append, FieldGate.exponentLength, hrun, h.digitRun]

theorem Seam.numeralLength (t : Text) :
    FieldGate.numeralLength (t ++ more) = FieldGate.numeralLength t := by
  have hwhole := digitRun_le t
  have hfraction := fractionLength_le (t.drop (FieldGate.digitRun t))
  rw [List.length_drop] at hfraction
  simp only [FieldGate.numeralLength, h.digitRun]
  rw [List.drop_append_of_le_length hwhole, h.fractionLength,
    List.drop_append_of_le_length (by omega), h.exponentLength]

/-- A token stays as long as it was when something is put behind a seam. -/
theorem Seam.tokenAt {p : Point} {rest : Text} {kind : TokenKind} {n : Nat}
    (htoken : FieldGate.tokenAt p rest = some (kind, n)) :
    FieldGate.tokenAt p (rest ++ more) = some (kind, n) := by
  unfold FieldGate.tokenAt at htoken ⊢
  split_ifs at htoken ⊢ with hname hdigit hquote
  · rwa [takeWhile_append_stop rest h.name]
  · rwa [← List.cons_append, h.numeralLength]
  · obtain ⟨length, hlength, hpair⟩ := Option.map_eq_some_iff.mp htoken
    obtain ⟨body, tail, hbody, rfl, rfl⟩ := literalLength?_some hlength
    have hq : IsQuote p := by simpa [IsQuote] using hquote
    rw [List.append_assoc, List.cons_append, literalLength?_body _ hq hbody, Option.map_some, hpair]
  all_goals exact htoken

theorem Longest.append {kind : TokenKind} {w rest : Text} (hlongest : Longest kind w rest) :
    Longest kind w (rest ++ more) := by
  obtain ⟨p, tail, rfl, -⟩ := hlongest.text.head
  have htoken := h.tokenAt (tokenAt_longest hlongest)
  rw [List.append_assoc] at htoken
  obtain ⟨w', tail', hsplit, hlength, hlongest'⟩ := longest_of_tokenAt htoken
  obtain ⟨rfl, rfl⟩ := List.append_inj hsplit hlength.symm
  exact hlongest'

/-- The tokens of two texts with a seam between them are those of the first and then
those of the second. -/
theorem Splits.append {e : Text} {ls ms : List Lexeme} (he : Splits e ls)
    (hmore : Splits more ms) : Splits (e ++ more) (ls ++ ms) := by
  induction he with
  | nil => exact hmore
  | blank hblank _ ih => exact .blank hblank ih
  | token hlongest _ ih =>
    rw [List.append_assoc, List.cons_append]
    exact .token (hlongest.append h) ih

end Seam

/-! ## Some seams -/

theorem seam_blank {p : Point} (rest : Text) (h : p.isBlank = true) : Seam (p :: rest) := by
  have hne {q : Point} (hq : q.isBlank = false) : p ≠ q := by
    rintro rfl
    rw [h] at hq
    cases hq
  refine ⟨?name, ?digit, ?sign, ?fraction⟩
  case name =>
    rintro q ⟨⟩
    by_contra hname
    exact hne (isBlank_of_continuesName (by simpa using hname)) rfl
  case digit =>
    rintro q ⟨⟩
    by_contra hdigit
    exact hne (isBlank_of_isDigit (by simpa using hdigit)) rfl
  case sign =>
    rintro q ⟨⟩
    exact ⟨hne (by decide +kernel), hne (by decide +kernel)⟩
  case fraction =>
    have hdot : p ≠ '.' := hne (by decide +kernel)
    simp [fractionLength, hdot]

/-- Nothing goes on with a bracket. -/
theorem seam_mark {p : Point} (rest : Text) (h : p = '[' ∨ p = ']') : Seam (p :: rest) := by
  have hdot : p ≠ '.' := by rcases h with rfl | rfl <;> decide
  refine ⟨?name, ?digit, ?sign, by simp [fractionLength, hdot]⟩
  all_goals
    rintro q ⟨⟩
    rcases h with rfl | rfl <;> decide +kernel

/-- A token in front of a bracket ends there. -/
theorem TokenText.longest_bracket {kind : TokenKind} {w : Text} (h : TokenText kind w)
    (rest : Text) : Longest kind w (Point.ofChar ']' :: rest) :=
  Longest.append (seam_mark rest (.inr rfl)) h.longest_alone

end FieldGate
