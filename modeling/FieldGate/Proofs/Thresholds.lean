-- Thresholds on integers: an integer is compared with a written integer exactly,
-- whichever of its spellings the threshold has. The detour of a decimal numeral over a
-- double does not show, for the double is exact below 2^53.
import FieldGate.Proofs.NearestDouble
import FieldGate.Proofs.NumericTexts
import FieldGate.Proofs.ValueOrder

namespace FieldGate

/-! ## Written integers -/

/-- The exact value of a numeral, without its sign. -/
def Numeral.value (n : Numeral) : ℚ := n.coefficient * 10 ^ n.scale

/-- The text is a numeral of the integer, without white space around it: a decimal one
with exactly that value, if it lies below 2^53, or one that announces its base, if it
lies below 2^1023. -/
inductive ThresholdOf : Text → Int → Prop
  | decimal {sign body : Text} {negative : Bool} {numeral : Numeral} {m : Int} :
      SignOf sign negative → ReadableNumeral body numeral →
      (if negative then -numeral.value else numeral.value) = m → m.natAbs < 2 ^ 53 →
      ThresholdOf (sign ++ body) m
  | announced {t : Text} {n : Nat} : AnnouncedOf t n → n < 2 ^ 1023 → ThresholdOf t n

theorem Numeral.value_nonneg (n : Numeral) : 0 ≤ n.value :=
  mul_nonneg (Nat.cast_nonneg _) (zpow_nonneg (by norm_num) _)

/-- A whole value with its sign is the integer of that sign and size. -/
theorem value_eq_natAbs {n : Numeral} {negative : Bool} {m : Int}
    (h : (if negative then -n.value else n.value) = m) :
    n.value = m.natAbs ∧ signed negative m.natAbs = m := by
  have hvalue := n.value_nonneg
  have habs : (m.natAbs : ℚ) = |(m : ℚ)| := by rw [Nat.cast_natAbs, Int.cast_abs]
  constructor
  · rw [habs, ← h]
    split_ifs
    · rw [abs_neg, abs_of_nonneg hvalue]
    · rw [abs_of_nonneg hvalue]
  · unfold signed
    split_ifs at h ⊢
    · have hm : (m : ℚ) ≤ 0 := by linarith
      rw [Int.ofNat_natAbs_of_nonpos (by exact_mod_cast hm), Int.neg_neg]
    · have hm : (0 : ℚ) ≤ m := by linarith
      exact Int.natAbs_of_nonneg (by exact_mod_cast hm)

/-! ## The number of a threshold -/

/-- A double that stands at a small integer is taken as that integer. -/
theorem numberOfDouble_whole {d : Double} {n : Int}
    (h : d.place? = some (.units (n * unitsPerOne))) (hn : n.natAbs < 2 ^ 53) :
    numberOfDouble d = .integer n := by
  cases d with
  | nan => cases h
  | infinite negative => cases negative <;> cases h
  | finite negative m s fits =>
    have hunits : signed negative (sizeInUnits m s) = n * unitsPerOne :=
      Place.units.inj (Option.some.inj h)
    have hsize : sizeInUnits m s = n.natAbs * unitsPerOne := by
      rw [← natAbs_signed negative (sizeInUnits m s), hunits, Int.natAbs_mul, Int.natAbs_natCast]
    have hwhole : (Double.finite negative m s fits).isWhole = true := by
      rw [Double.isWhole, hsize, Nat.mul_mod_left]
      rfl
    have hpart : (Double.finite negative m s fits).wholePart? = some n := by
      have hne : (unitsPerOne : Int) ≠ 0 := Int.natCast_ne_zero.mpr unitsPerOne_pos.ne'
      rw [hsize, signed_mul, Int.mul_eq_mul_right_iff hne] at hunits
      rw [Double.wholePart?, hsize, Nat.mul_div_cancel _ unitsPerOne_pos, hunits]
    unfold numberOfDouble
    rw [hwhole, hpart]
    exact if_pos hn

/-- A decimal numeral of a small integer is read as that integer. -/
theorem numberOfDouble_numeral {n : Numeral} {negative : Bool} {m : Int}
    (h : (if negative then -n.value else n.value) = m) (hm : m.natAbs < 2 ^ 53) :
    numberOfDouble (n.toDouble negative) = .integer m := by
  obtain ⟨hvalue, hsigned⟩ := value_eq_natAbs h
  have hrange : m.natAbs < rangeOfDoubles := hm.trans (by decide +kernel)
  have hexact : roundedToBits m.natAbs = m.natAbs :=
    roundedToBits_eq_self_iff.mpr (hasFewBits_of_lt hm)
  refine numberOfDouble_whole ?_ hm
  unfold Numeral.toDouble
  rw [ofDecimal_whole negative hvalue, place?_ofRatio, roundedPlace, if_pos hrange, hexact,
    signed_mul, hsigned]

theorem numberOfText_threshold {t : Text} {m : Int} (h : ThresholdOf t.strip m) :
    numberOfText t = .integer m := by
  generalize hs : t.strip = s at h
  cases h with
  | decimal hsign hbody hvalue hm =>
    have hnumber := NumberOf.decimal hsign hbody
    rw [← hs] at hnumber
    rw [numberOfText_of_numberOf hnumber, numberOfDouble_numeral hvalue hm]
  | announced hn _ =>
    have hnumber := NumberOf.announced hn
    rw [← hs] at hnumber
    exact numberOfText_of_numberOf hnumber

theorem two_pow_lt_range : 2 ^ 1023 < rangeOfDoubles := by decide +kernel

theorem threshold_inRange {t : Text} {m : Int} (h : ThresholdOf t m) :
    m.natAbs < rangeOfDoubles := by
  cases h with
  | decimal _ _ _ hm => exact hm.trans (by decide +kernel)
  | announced _ hn => exact lt_trans hn two_pow_lt_range

/-! ## The six comparisons -/

theorem place_compare_integers (n m : Int) :
    (Place.units (n * unitsPerOne)).compare (.units (m * unitsPerOne)) = compare n m := by
  have hpos : (0 : Int) < unitsPerOne := Int.natCast_pos.mpr unitsPerOne_pos
  rw [Place.compare]
  rcases lt_trichotomy n m with hlt | rfl | hgt
  · rw [compare_lt_iff_lt.mpr hlt, compare_lt_iff_lt.mpr (Int.mul_lt_mul_of_pos_right hlt hpos)]
  · rw [compare_eq_iff_eq.mpr rfl, compare_eq_iff_eq.mpr rfl]
  · rw [compare_gt_iff_gt.mpr hgt, compare_gt_iff_gt.mpr (Int.mul_lt_mul_of_pos_right hgt hpos)]

/-- Integers in the range of the doubles are ordered as integers. -/
theorem compareNumbers_integers {n m : Int} (hn : n.natAbs < rangeOfDoubles)
    (hm : m.natAbs < rangeOfDoubles) :
    Value.compareNumbers (.integer n) (.integer m) = .ok (some (compare n m)) := by
  have hstands {k : Int} (hk : k.natAbs < rangeOfDoubles) :
      (Number.integer k).StandsAt (.units (k * unitsPerOne)) := ⟨rfl, Nat.not_le.mpr hk⟩
  rw [compareNumbers_of_standsAt (hstands hn) (hstands hm), place_compare_integers]

/-- An integer is compared with a written integer as the two integers are, whichever
numeral the integer is written as. -/
theorem thresholds_on_integers_are_exact (strict : Bool) (n m : Int) (t : Text)
    (hn : n.natAbs < 2 ^ 1023) (hm : ThresholdOf t.strip m) :
    OperatorKind.lessThan.passes strict (.int n) (.text t) = .ok (decide (n < m))
      ∧ OperatorKind.lessThanEqual.passes strict (.int n) (.text t) = .ok (decide (n ≤ m))
      ∧ OperatorKind.equal.passes strict (.int n) (.text t) = .ok (decide (n = m))
      ∧ OperatorKind.notEqual.passes strict (.int n) (.text t) = .ok (decide (n ≠ m))
      ∧ OperatorKind.greaterThanEqual.passes strict (.int n) (.text t) = .ok (decide (m ≤ n))
      ∧ OperatorKind.greaterThan.passes true (.int n) (.text t) = .ok (decide (m < n)) := by
  have horder : (Value.int n).compare? (.text t) = .ok (some (compare n m)) := by
    rw [compare?_number t rfl, numberOfText_threshold hm]
    exact compareNumbers_integers (hn.trans two_pow_lt_range) (threshold_inRange hm)
  have hpasses (strict : Bool) (kind : OperatorKind) (hkind : kind.isComparison = true) :=
    passes_of_compare? strict hkind horder
  rw [hpasses strict .lessThan rfl, hpasses strict .lessThanEqual rfl, hpasses strict .equal rfl,
    hpasses strict .notEqual rfl, hpasses strict .greaterThanEqual rfl,
    hpasses true .greaterThan rfl]
  rcases lt_trichotomy n m with hlt | rfl | hgt
  · rw [compare_lt_iff_lt.mpr hlt]
    simp [OperatorKind.passesOn, hlt, hlt.le, hlt.ne, hlt.not_ge, hlt.not_gt]
  · rw [compare_eq_iff_eq.mpr rfl]
    simp [OperatorKind.passesOn]
  · rw [compare_gt_iff_gt.mpr hgt]
    simp [OperatorKind.passesOn, hgt, hgt.le, hgt.ne', hgt.not_ge, hgt.not_gt]

theorem nineteen_is_past_a_padded_eighteen :
    (19 : Int).natAbs < 2 ^ 1023
      ∧ ThresholdOf (Text.strip " +0018.0 ") 18
      ∧ OperatorKind.greaterThanEqual.passes true (.int 19) (.text " +0018.0 ") = .ok true
      ∧ OperatorKind.lessThan.passes true (.int 19) (.text " +0018.0 ") = .ok false := by
  have hn : (19 : Int).natAbs < 2 ^ 1023 := by decide +kernel
  have hvalue : Numeral.value ⟨[0, 0, 1, 8], [0], 0⟩ = 18 := by
    norm_num [Numeral.value, Numeral.coefficient, Numeral.scale, numberOfDigits]
  have hbody : ReadableNumeral "0018.0" ⟨[0, 0, 1, 8], [0], 0⟩ :=
    readable_of_read? (by decide +kernel)
  have hstrip : Text.strip " +0018.0 " = ("+" : Text) ++ ("0018.0" : Text) := by decide +kernel
  have hm : ThresholdOf (Text.strip " +0018.0 ") 18 := by
    rw [hstrip]
    exact .decimal .plus hbody (by simp [hvalue]) (by decide)
  obtain ⟨hless, -, -, -, hleast, -⟩ :=
    thresholds_on_integers_are_exact true 19 18 " +0018.0 " hn hm
  exact ⟨hn, hm, hleast, hless⟩

end FieldGate
