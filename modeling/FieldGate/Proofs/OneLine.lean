-- The law of one line: numbers, quoted texts and JSON strings hold no point that breaks a
-- line, so that what is shown of a text is never more than one.
import FieldGate.Proofs.Decimals
import FieldGate.Value.Json

namespace FieldGate

/-! ## Points that break a line -/

/-- The two blocks of controls, the separators of lines and of paragraphs, and the
surrogates, which no encoding has. -/
def breakingRanges : List (Nat × Nat) :=
  [(0x00, 0x1F), (0x80, 0x9F), (0x2028, 0x2029), (0xD800, 0xDFFF)]

/-- The point breaks a line, or cannot be encoded. -/
def Point.breaks (p : Point) : Bool := p.within breakingRanges

/-- No point of the text breaks the line. -/
def Text.IsOneLine (t : Text) : Prop := ∀ p ∈ t, p.breaks = false

instance (t : Text) : Decidable t.IsOneLine := List.decidableBAll _ t

theorem breaks_of_ascii {p : Point} (hlow : 0x20 ≤ p.val) (hhigh : p.val ≤ 0x7E) :
    p.breaks = false := by
  simp [Point.breaks, Point.within, breakingRanges]
  omega

theorem within_of_covered {ranges others : List (Nat × Nat)} {p : Point}
    (hcovered : ranges.all (fun r => others.any fun s => s.1 ≤ r.1 && r.2 ≤ s.2) = true)
    (h : p.within ranges = true) : p.within others = true := by
  unfold Point.within at h ⊢
  obtain ⟨r, hr, hp⟩ := List.any_eq_true.mp h
  obtain ⟨s, hs, hrs⟩ := List.any_eq_true.mp (List.all_eq_true.mp hcovered r hr)
  simp only [Bool.and_eq_true, decide_eq_true_eq] at hp hrs
  refine List.any_eq_true.mpr ⟨s, hs, ?_⟩
  simp only [Bool.and_eq_true, decide_eq_true_eq]
  omega

/-- What breaks a line is not printed as itself. -/
theorem breaks_of_isPrintable {p : Point} (h : p.isPrintable = true) : p.breaks = false := by
  have hcovered : breakingRanges.all
      (fun r => unprintableRanges.any fun s => s.1 ≤ r.1 && r.2 ≤ s.2) = true := by decide +kernel
  by_contra hbreaks
  rw [Bool.not_eq_false] at hbreaks
  rw [Point.isPrintable, within_of_covered hcovered hbreaks] at h
  cases h

theorem breaks_ofDigit : ∀ d < 10, (Point.ofDigit d).breaks = false := by
  decide +kernel

theorem breaks_ofHexDigit : ∀ d < 16, (Point.ofHexDigit d).breaks = false := by
  decide +kernel

/-! ## Texts of parts -/

namespace Text

@[simp] theorem isOneLine_nil : IsOneLine [] := by
  simp [IsOneLine]

@[simp] theorem isOneLine_cons {p : Point} {t : Text} :
    IsOneLine (p :: t) ↔ p.breaks = false ∧ t.IsOneLine := by
  simp [IsOneLine]

@[simp] theorem isOneLine_append {s t : Text} :
    IsOneLine (s ++ t) ↔ s.IsOneLine ∧ t.IsOneLine := by
  simp [IsOneLine, or_imp, forall_and]

theorem IsOneLine.of_subset {s t : Text} (h : t.IsOneLine) (hsub : s ⊆ t) : s.IsOneLine :=
  fun p hp => h p (hsub hp)

theorem isOneLine_flatMap {t : Text} {f : Point → Text} (h : ∀ p, (f p).IsOneLine) :
    IsOneLine (t.flatMap f) := by
  intro q hq
  obtain ⟨p, -, hp⟩ := List.mem_flatMap.mp hq
  exact h p q hp

theorem isOneLine_joined {separator : Text} {parts : List Text} (hseparator : separator.IsOneLine)
    (h : ∀ part ∈ parts, part.IsOneLine) : (joined separator parts).IsOneLine := by
  fun_induction joined separator parts with
  | case1 => exact isOneLine_nil
  | case2 t => exact h t (by simp)
  | case3 t u rest ih =>
    simp only [isOneLine_append]
    exact ⟨⟨h t (by simp), hseparator⟩, ih fun part hpart => h part (by simp [hpart])⟩

/-! ## Numbers -/

theorem isOneLine_digits {ds : List Nat} (h : ∀ d ∈ ds, d < 10) :
    IsOneLine (ds.map Point.ofDigit) := by
  intro p hp
  obtain ⟨d, hd, rfl⟩ := List.mem_map.mp hp
  exact breaks_ofDigit d (h d hd)

theorem isOneLine_decimal (n : Nat) : IsOneLine (decimal n) :=
  isOneLine_digits (digitsWithin_lt (n + 1) n)

theorem isOneLine_signedDecimal (n : Int) : IsOneLine (signedDecimal n) := by
  unfold signedDecimal
  split
  · exact isOneLine_append.mpr ⟨by decide, isOneLine_decimal _⟩
  · exact isOneLine_decimal _

theorem isOneLine_integerText {n : Int} {t : Text} (h : integerText n = .ok t) :
    t.IsOneLine := by
  unfold integerText at h
  split_ifs at h
  obtain rfl := Except.ok.inj h
  exact isOneLine_signedDecimal n

theorem isOneLine_hex (width n : Nat) : IsOneLine (hex width n) := by
  induction width generalizing n with
  | zero => exact isOneLine_nil
  | succ width ih =>
    simp only [hex, isOneLine_append, isOneLine_cons, isOneLine_nil, and_true]
    exact ⟨ih (n / 16), breaks_ofHexDigit _ (Nat.mod_lt n (by decide))⟩

theorem isOneLine_zeros (n : Nat) : IsOneLine (zeros n) := by
  intro p hp
  obtain rfl := List.eq_of_mem_replicate hp
  decide

theorem isOneLine_exponentPart (e : Int) : IsOneLine (exponentPart e) := by
  unfold exponentPart
  simp only [isOneLine_append]
  refine ⟨⟨?_, isOneLine_zeros _⟩, isOneLine_decimal _⟩
  split <;> decide

theorem isOneLine_layOut {digits : Text} (e : Int) (h : digits.IsOneLine) :
    IsOneLine (layOut digits e) := by
  have htake (n : Nat) : IsOneLine (digits.take n) := h.of_subset (List.take_subset n digits)
  have hdrop (n : Nat) : IsOneLine (digits.drop n) := h.of_subset (List.drop_subset n digits)
  unfold layOut
  dsimp only
  split
  · split
    · simp only [isOneLine_append]
      exact ⟨⟨by decide, isOneLine_zeros _⟩, h⟩
    · simp only [isOneLine_append]
      refine ⟨⟨⟨htake _, isOneLine_zeros _⟩, by decide⟩, ?_⟩
      split
      · exact isOneLine_zeros 1
      · exact hdrop _
  · simp only [isOneLine_append]
    refine ⟨⟨htake 1, ?_⟩, isOneLine_exponentPart e⟩
    split
    · exact isOneLine_nil
    · exact isOneLine_append.mpr ⟨by decide, hdrop 1⟩

theorem isOneLine_sizeText (mantissa shift : Nat) : IsOneLine (sizeText mantissa shift) := by
  unfold sizeText
  split
  · decide
  · apply isOneLine_layOut
    apply isOneLine_digits
    intro d hd
    unfold withoutTrailingZeros at hd
    rw [List.mem_reverse] at hd
    exact digitsWithin_lt _ _ d (List.mem_reverse.mp (List.dropWhile_subset _ hd))

/-- A double takes one line in a style whose words do. -/
theorem isOneLine_spelled {style : DoubleStyle} (hnan : style.nan.IsOneLine)
    (hinfinity : style.infinity.IsOneLine) (d : Double) : IsOneLine (d.spelled style) := by
  have hsign (negative : Bool) : IsOneLine (ofString (if negative then "-" else "")) := by
    cases negative <;> decide
  cases d with
  | nan => exact hnan
  | infinite negative => exact isOneLine_append.mpr ⟨hsign negative, hinfinity⟩
  | finite negative m s _ =>
    simp only [Double.spelled]
    split
    · exact isOneLine_signedDecimal _
    · exact isOneLine_append.mpr ⟨hsign negative, isOneLine_sizeText m s⟩

/-! ## Texts between quotes -/

theorem breaks_quoteFor (t : Text) : (quoteFor t).breaks = false := by
  unfold quoteFor
  split <;> decide

theorem isOneLine_shortEscape? {quote p : Point} {escape : Text} (hquote : quote.breaks = false)
    (h : Point.shortEscape? quote p = some escape) : escape.IsOneLine := by
  have hbackslash : (Point.ofChar '\\').breaks = false := by decide
  unfold Point.shortEscape? at h
  split_ifs at h with hself
  · obtain rfl := Option.some.inj h
    have hp : p.breaks = false := by
      simp only [Bool.or_eq_true, decide_eq_true_eq] at hself
      rcases hself with rfl | rfl
      · exact hquote
      · exact hbackslash
    simp [hp, hbackslash]
  all_goals
    obtain rfl := Option.some.inj h
    decide

theorem isOneLine_numericEscape (p : Point) : IsOneLine p.numericEscape := by
  unfold Point.numericEscape
  split_ifs
  all_goals exact isOneLine_append.mpr ⟨by decide, isOneLine_hex _ _⟩

/-- Inside quotes a point is escaped, or printed as itself. -/
theorem isOneLine_escaped {quote p : Point} {plain : Bool} (hquote : quote.breaks = false)
    (hplain : plain = true → p.isPrintable = true) :
    IsOneLine (match Point.shortEscape? quote p with
      | some escape => escape
      | none => if plain then [p] else p.numericEscape) := by
  split
  · rename_i escape hescape
    exact isOneLine_shortEscape? hquote hescape
  · split
    · rename_i htrue
      simpa using breaks_of_isPrintable (hplain htrue)
    · exact isOneLine_numericEscape p

theorem isOneLine_quotedWith {quote : Point} (hquote : quote.breaks = false) (p : Point) :
    IsOneLine (Point.quotedWith quote p) :=
  isOneLine_escaped hquote id

theorem isOneLine_quotedByteWith {quote : Point} (hquote : quote.breaks = false) (p : Point) :
    IsOneLine (Point.quotedByteWith quote p) := by
  apply isOneLine_escaped hquote
  intro hplain
  rw [Bool.and_eq_true] at hplain
  exact hplain.2

theorem isOneLine_quoted (t : Text) : IsOneLine t.quoted := by
  have hquote := breaks_quoteFor t
  simp only [quoted, isOneLine_append, isOneLine_cons, isOneLine_nil, hquote, and_true, true_and]
  exact isOneLine_flatMap (isOneLine_quotedWith hquote)

theorem isOneLine_quotedBytes (t : Text) : IsOneLine t.quotedBytes := by
  have hquote := breaks_quoteFor t
  simp only [quotedBytes, isOneLine_append, isOneLine_cons, isOneLine_nil, hquote, and_true]
  exact ⟨by decide, isOneLine_flatMap (isOneLine_quotedByteWith hquote)⟩

theorem isOneLine_jsonSpelled (p : Point) : IsOneLine p.jsonSpelled := by
  unfold Point.jsonSpelled
  split
  · rename_i escape hescape
    unfold Point.jsonEscape? at hescape
    split_ifs at hescape
    all_goals
      obtain rfl := Option.some.inj hescape
      decide
  · split
    · rename_i hascii
      simp only [Bool.and_eq_true, decide_eq_true_eq] at hascii
      simpa using breaks_of_ascii hascii.1 hascii.2
    · intro q hq
      obtain ⟨u, -, hu⟩ := List.mem_flatMap.mp hq
      have hunit : IsOneLine (("\\u" : Text) ++ hex 4 u) :=
        isOneLine_append.mpr ⟨by decide, isOneLine_hex 4 u⟩
      exact hunit q hu

/-- A JSON string takes one line, whatever the text is. -/
theorem isOneLine_json (t : Text) : IsOneLine t.json := by
  unfold json
  simp only [isOneLine_append]
  exact ⟨⟨by decide, isOneLine_flatMap isOneLine_jsonSpelled⟩, by decide⟩

end Text

end FieldGate
