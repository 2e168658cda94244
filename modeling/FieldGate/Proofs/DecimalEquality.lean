-- Equality of an integer with the decimal text of another one: the text is read as
-- the nearest double, and the integer is compared with that by its exact value.
import FieldGate.Proofs.Comparisons
import FieldGate.Proofs.NearestDouble
import FieldGate.Proofs.Tokens

namespace FieldGate

/-! ## The number of a decimal text -/

/-- The point can stand in the decimal text of an integer. -/
def InDecimal (p : Point) : Prop := p.isDigit = true ∨ p = '-'

theorem inDecimal_signedDecimal (m : Int) : ∀ p ∈ signedDecimal m, InDecimal p := by
  have hdigits : ∀ p ∈ decimal m.natAbs, InDecimal p :=
    fun p hp => .inl ((digitsOf_decimal m.natAbs).isDigit p hp)
  unfold signedDecimal
  split_ifs
  · intro p hp
    rcases List.mem_cons.mp hp with rfl | hp
    · exact .inr rfl
    · exact hdigits p hp
  · exact hdigits

theorem InDecimal.not_blank {p : Point} (h : InDecimal p) : p.isBlank = false := by
  rcases h with hdigit | rfl
  · exact isBlank_of_isDigit hdigit
  · decide +kernel

/-- The letters of the other numerals: those that announce a base, and the one that
an infinity is spelled with. -/
def otherLetters : Text := "xXoObBI"

theorem InDecimal.ne_letter {p : Point} (h : InDecimal p) : ∀ q ∈ otherLetters, p ≠ q := by
  have hletters : otherLetters.any (fun q => q.isDigit || q == '-') = false := by
    decide +kernel
  rintro q hq rfl
  have hp := List.any_eq_false.mp hletters p hq
  rw [Bool.or_eq_true, beq_iff_eq] at hp
  exact hp h

theorem InDecimal.no_base {p : Point} (h : InDecimal p) : baseOfLetter? p = none := by
  have hne := h.ne_letter
  unfold baseOfLetter?
  simp [hne 'x' (by decide), hne 'X' (by decide), hne 'o' (by decide), hne 'O' (by decide),
    hne 'b' (by decide), hne 'B' (by decide)]

theorem radixNumber?_eq_none {t : Text} (h : ∀ p ∈ t, InDecimal p) : radixNumber? t = none := by
  rcases t with _ | ⟨zero, _ | ⟨letter, digits⟩⟩
  · rfl
  · rfl
  · have hletter : baseOfLetter? letter = none := (h letter (by simp)).no_base
    simp only [radixNumber?, hletter, Option.bind_none, ite_self]

theorem ne_infinity {t : Text} (h : ∀ p ∈ t, InDecimal p) (word : Text)
    (hword : Point.ofChar 'I' ∈ word) : t ≠ word := by
  rintro rfl
  exact (h _ hword).ne_letter 'I' (by decide) rfl

theorem splitSign_signedDecimal (m : Int) :
    splitSign (signedDecimal m) = (decide (m < 0), decimal m.natAbs) := by
  unfold signedDecimal
  split_ifs with hnegative
  · rw [decide_eq_true hnegative]
    rfl
  · rw [decide_eq_false hnegative]
    apply splitSign_eq
    intro p hp
    have hdigit := (digitsOf_decimal m.natAbs).isDigit p hp
    constructor
    · rintro rfl
      simp [not_isDigit_minus] at hdigit
    · rintro rfl
      simp [not_isDigit_plus] at hdigit

theorem signedDecimal_ne_nil (m : Int) : signedDecimal m ≠ [] := by
  unfold signedDecimal
  split_ifs
  · exact List.cons_ne_nil _ _
  · exact decimal_ne_nil _

theorem read?_decimal (n : Nat) : Numeral.read? (decimal n) = some ⟨decimalDigits n, [], 0⟩ :=
  read?_numeral (numeralOf_digits (decimal_ne_nil n) (digitsOf_decimal n))

theorem toDouble_decimalDigits (negative : Bool) (n : Nat) :
    Numeral.toDouble negative ⟨decimalDigits n, [], 0⟩ = Double.ofRatio negative n 1 := by
  have hcoefficient : Numeral.coefficient ⟨decimalDigits n, [], 0⟩ = n := by
    rw [Numeral.coefficient, List.append_nil, numberOfDigits_decimalDigits]
  rw [Numeral.toDouble, hcoefficient]
  exact ofDecimal_integer negative n

/-- The decimal text of an integer is read as the double of that integer. -/
theorem numberOfText_signedDecimal (m : Int) :
    numberOfText (signedDecimal m) = numberOfDouble (Double.ofRatio (m < 0) m.natAbs 1) := by
  have hpoints := inDecimal_signedDecimal m
  have hstrip : (signedDecimal m).strip = signedDecimal m :=
    trimmed_eq fun p hp => (hpoints p hp).not_blank
  have hpositive : ¬(signedDecimal m = ("Infinity" : Text)
      || signedDecimal m = ("+Infinity" : Text)) = true := by
    simp [ne_infinity hpoints "Infinity" (by decide), ne_infinity hpoints "+Infinity" (by decide)]
  unfold numberOfText
  dsimp only
  rw [hstrip, if_neg (by simpa using signedDecimal_ne_nil m), if_neg hpositive,
    if_neg (ne_infinity hpoints _ (by decide)), radixNumber?_eq_none hpoints]
  simp only [splitSign_signedDecimal, read?_decimal, toDouble_decimalDigits]

/-! ## Equality by place -/

/-- An integer that stands for a whole double has its place. -/
theorem place?_numberOfDouble (d : Double) : (numberOfDouble d).place? = d.place? := by
  cases d with
  | nan | infinite _ => rfl
  | finite negative m s fits =>
    unfold numberOfDouble
    split
    · rename_i n hwhole hn
      split_ifs
      · obtain rfl := Option.some.inj hn
        have hmultiple : sizeInUnits m s / unitsPerOne * unitsPerOne = sizeInUnits m s :=
          Nat.div_mul_cancel (Nat.dvd_of_mod_eq_zero (by simpa [Double.isWhole] using hwhole))
        rw [Number.place?, Double.place?, ← signed_mul, hmultiple]
      · rfl
    · rfl

theorem integer_equals_iff {n : Int} {k : Number} :
    (Number.integer n).equals k = true ↔ k.place? = some (.units (n * unitsPerOne)) := by
  have hplace : (Number.integer n).place? = some (.units (n * unitsPerOne)) := rfl
  unfold Number.equals Number.compare?
  rw [hplace]
  generalize Place.units (n * unitsPerOne) = p
  cases k.place? with
  | none => simp
  | some q =>
    rw [Option.some.injEq, eq_comm (a := q), ← place_compare_eq_iff]
    simp

theorem units_eq_roundedPlace_iff {n : Int} {negative : Bool} {k : Nat} :
    roundedPlace negative k = .units (n * unitsPerOne)
      ↔ k < rangeOfDoubles ∧ n = signed negative (roundedToBits k) := by
  have hne : (unitsPerOne : Int) ≠ 0 := Int.natCast_ne_zero.mpr unitsPerOne_pos.ne'
  unfold roundedPlace
  split_ifs with hrange hsign
  · rw [Place.units.injEq, signed_mul, Int.mul_eq_mul_right_iff hne, eq_comm]
    simp [hrange]
  · simp [hrange]
  · simp [hrange]

/-! ## Identifiers -/

/-- A declared decimal text of `m` passes for the integer `n`. -/
def PassesAsDecimal (strict : Bool) (n m : Int) : Prop :=
  OperatorKind.equal.passes strict (.int n) (.text (signedDecimal m)) = .ok true

/-- The integer is the value of a double. -/
def IsDouble (m : Int) : Prop := m.natAbs < rangeOfDoubles ∧ HasFewBits m.natAbs

theorem passes_decimal (strict : Bool) (n m : Int) :
    OperatorKind.equal.passes strict (.int n) (.text (signedDecimal m))
      = .ok ((Number.integer n).equals (numberOfText (signedDecimal m))) :=
  looseEquals_number false (signedDecimal m) rfl

theorem passesAsDecimal_iff {strict : Bool} {n m : Int} :
    PassesAsDecimal strict n m
      ↔ m.natAbs < rangeOfDoubles ∧ n = signed (m < 0) (roundedToBits m.natAbs) := by
  unfold PassesAsDecimal
  rw [passes_decimal, Except.ok.injEq, integer_equals_iff, numberOfText_signedDecimal,
    place?_numberOfDouble, place?_ofRatio, Option.some.injEq, units_eq_roundedPlace_iff]

/-- An integer is its own rounding when 53 bits suffice for it. -/
theorem eq_signed_rounded_iff {m : Int} :
    m = signed (m < 0) (roundedToBits m.natAbs) ↔ HasFewBits m.natAbs := by
  rw [← roundedToBits_eq_self_iff]
  constructor
  · intro h
    have habs := congrArg Int.natAbs h
    rwa [natAbs_signed, eq_comm] at habs
  · intro h
    rw [h, signed_natAbs]

theorem passesAsDecimal_self_iff {strict : Bool} {m : Int} :
    PassesAsDecimal strict m m ↔ IsDouble m := by
  rw [passesAsDecimal_iff, eq_signed_rounded_iff]
  rfl

theorem isDouble_of_le {m : Int} (h : m.natAbs ≤ 2 ^ 53) : IsDouble m := by
  have hrange : 2 ^ 53 < rangeOfDoubles := by decide +kernel
  exact ⟨h.trans_lt hrange, hasFewBits_of_le h⟩

/-- Equality of an integer with a decimal text always answers, and it passes for one
integer at most: the one among the integers of 53 significant bits to which the text
is nearest. The integer that is written out passes just when it is the value of a
double, as all integers up to 2^53 are, and any other one in the range of the doubles
passes for an integer that it is not. -/
theorem a_decimal_text_passes_for_the_integer_that_it_rounds_to (strict : Bool) (m : Int) :
    (∀ n : Int, ∃ b,
        OperatorKind.equal.passes strict (.int n) (.text (signedDecimal m)) = .ok b)
      ∧ (∀ n : Int, PassesAsDecimal strict n m
          ↔ m.natAbs < rangeOfDoubles ∧ n = signed (m < 0) (roundedToBits m.natAbs))
      ∧ (∀ n : Int, PassesAsDecimal strict n m → ∀ k, HasFewBits k →
          Nat.dist n.natAbs m.natAbs ≤ Nat.dist k m.natAbs)
      ∧ (PassesAsDecimal strict m m ↔ IsDouble m)
      ∧ ((∃ n ≠ m, PassesAsDecimal strict n m)
          ↔ m.natAbs < rangeOfDoubles ∧ ¬IsDouble m)
      ∧ (m.natAbs ≤ 2 ^ 53 → ∀ n : Int, PassesAsDecimal strict n m ↔ n = m) := by
  refine ⟨fun n => ⟨_, passes_decimal strict n m⟩, fun n => passesAsDecimal_iff, ?_,
    passesAsDecimal_self_iff, ?_, ?_⟩
  · intro n hpasses k hk
    obtain ⟨-, rfl⟩ := passesAsDecimal_iff.mp hpasses
    rw [natAbs_signed]
    exact roundedToBits_nearest m.natAbs hk
  · constructor
    · rintro ⟨n, hne, hpasses⟩
      obtain ⟨hrange, hrounded⟩ := passesAsDecimal_iff.mp hpasses
      refine ⟨hrange, fun hdouble => hne ?_⟩
      rw [hrounded, ← eq_signed_rounded_iff.mpr hdouble.2]
    · rintro ⟨hrange, hdouble⟩
      refine ⟨_, fun hself => hdouble ⟨hrange, ?_⟩, passesAsDecimal_iff.mpr ⟨hrange, rfl⟩⟩
      exact eq_signed_rounded_iff.mp hself.symm
  · intro hsmall n
    have hdouble := isDouble_of_le hsmall
    rw [passesAsDecimal_iff, ← eq_signed_rounded_iff.mpr hdouble.2]
    simp [hdouble.1]

theorem a_long_identifier_passes_for_its_neighbour_alone :
    OperatorKind.equal.passes true (.int 9007199254740993) (.text (signedDecimal 9007199254740993))
        = .ok false
      ∧ OperatorKind.equal.passes true (.int 9007199254740992)
          (.text (signedDecimal 9007199254740993)) = .ok true := by
  decide +kernel

end FieldGate
