-- The double of an integer: the nearest of the numbers with 53 significant bits,
-- which are all integers up to 2^53 and ever fewer behind them.
import FieldGate.Number
import FieldGate.Proofs.Decimals
import FieldGate.Proofs.DoubleRange

namespace FieldGate

/-! ## Numbers of 53 bits -/

/-- The number has at most 53 significant bits, with zeros behind them. -/
def HasFewBits (n : Nat) : Prop := ∃ mantissa shift, mantissa < 2 ^ 53 ∧ n = mantissa * 2 ^ shift

/-- The number of at most 53 significant bits that rounding gives; a tie goes to the
even mantissa. -/
def roundedToBits (n : Nat) : Nat :=
  roundHalfEven n (2 ^ Double.shiftFor n) * 2 ^ Double.shiftFor n

theorem hasFewBits_of_lt {n : Nat} (h : n < 2 ^ 53) : HasFewBits n :=
  ⟨n, 0, h, by rw [pow_zero, Nat.mul_one]⟩

theorem HasFewBits.mul_two_pow {n : Nat} (h : HasFewBits n) (j : Nat) :
    HasFewBits (n * 2 ^ j) := by
  obtain ⟨m, s, hm, rfl⟩ := h
  exact ⟨m, s + j, hm, by rw [pow_add, Nat.mul_assoc]⟩

theorem carry_eq (s : Nat) : 2 ^ 53 * 2 ^ s = 2 ^ 52 * 2 ^ (s + 1) := by
  rw [pow_succ' 2 s, ← Nat.mul_assoc, ← pow_succ]

/-- A mantissa may reach 2^53: the next shift has room for it. -/
theorem hasFewBits_mul {m : Nat} (h : m ≤ 2 ^ 53) (s : Nat) : HasFewBits (m * 2 ^ s) := by
  rcases Nat.lt_or_eq_of_le h with hlt | rfl
  · exact (hasFewBits_of_lt hlt).mul_two_pow s
  · exact ⟨2 ^ 52, s + 1, by decide, carry_eq s⟩

theorem hasFewBits_of_le {n : Nat} (h : n ≤ 2 ^ 53) : HasFewBits n := by
  simpa using hasFewBits_mul h 0

/-! ## The nearest of them -/

theorem roundHalfEven_cases (s d : Nat) :
    roundHalfEven s d = s / d ∧ 2 * (s % d) ≤ d
      ∨ roundHalfEven s d = s / d + 1 ∧ d ≤ 2 * (s % d) := by
  unfold roundHalfEven
  dsimp only
  split_ifs <;> omega

/-- No multiple of the divisor is nearer than the one that rounding gives. -/
theorem roundHalfEven_nearest {s d : Nat} (hd : 0 < d) (k : Nat) :
    Nat.dist (roundHalfEven s d * d) s ≤ Nat.dist (k * d) s := by
  have hdivision := Nat.div_add_mod' s d
  have hrest := Nat.mod_lt s hd
  have hside : k * d ≤ s / d * d ∨ s / d * d + d ≤ k * d := by
    rcases Nat.lt_or_ge (s / d) k with hk | hk
    · exact .inr ((Nat.succ_mul _ d).symm.trans_le (Nat.mul_le_mul_right d hk))
    · exact .inl (Nat.mul_le_mul_right d hk)
  unfold Nat.dist
  rcases roundHalfEven_cases s d with ⟨hround, htie⟩ | ⟨hround, htie⟩
  · rw [hround]
    omega
  · rw [hround, Nat.succ_mul]
    omega

theorem roundHalfEven_scale {c : Nat} (hc : 0 < c) (s d : Nat) :
    roundHalfEven (s * c) (d * c) = roundHalfEven s d := by
  have hrest : 2 * (s % d * c) = 2 * (s % d) * c := (Nat.mul_assoc ..).symm
  unfold roundHalfEven
  simp only [Nat.mul_div_mul_right s d hc, Nat.mul_mod_mul_right, hrest, Nat.mul_lt_mul_right hc]

theorem roundedToBits_small {n : Nat} (h : n < 2 ^ 52) : roundedToBits n = n := by
  have hone : roundHalfEven n 1 = n := by
    rcases roundHalfEven_cases n 1 with ⟨hround, -⟩ | ⟨-, htie⟩ <;> omega
  rw [roundedToBits, shiftFor_small h, pow_zero, hone, Nat.mul_one]

theorem hasFewBits_roundedToBits (n : Nat) : HasFewBits (roundedToBits n) := by
  have hmost := (rounded_mantissa (n := n) Nat.one_pos).1
  rw [Nat.div_one, Nat.one_mul] at hmost
  exact hasFewBits_mul hmost _

/-- No number of at most 53 significant bits is nearer than the one that rounding
gives. -/
theorem roundedToBits_nearest {k : Nat} (n : Nat) (h : HasFewBits k) :
    Nat.dist (roundedToBits n) n ≤ Nat.dist k n := by
  rcases Nat.lt_or_ge n (2 ^ 52) with hsmall | hlarge
  · rw [roundedToBits_small hsmall, Nat.dist_self]
    exact Nat.zero_le _
  · obtain ⟨hlow, -⟩ := shiftFor_spec hlarge
    obtain ⟨m, s, hm, rfl⟩ := h
    have hpos := Nat.two_pow_pos (Double.shiftFor n)
    rcases Nat.lt_or_ge s (Double.shiftFor n) with hs | hs
    · -- A finer number lies below the power of two that starts the row of multiples.
      have hstart := roundHalfEven_nearest (s := n) hpos (2 ^ 52)
      have hbelow : m * 2 ^ s ≤ 2 ^ 52 * 2 ^ Double.shiftFor n :=
        calc m * 2 ^ s ≤ 2 ^ 53 * 2 ^ s := Nat.mul_le_mul_right _ hm.le
          _ = 2 ^ 52 * 2 ^ (s + 1) := carry_eq s
          _ ≤ 2 ^ 52 * 2 ^ Double.shiftFor n :=
            Nat.mul_le_mul_left _ (Nat.pow_le_pow_right (by decide) hs)
      rw [pow_add] at hlow
      unfold roundedToBits
      unfold Nat.dist at *
      omega
    · have hmultiple : m * 2 ^ s = m * 2 ^ (s - Double.shiftFor n) * 2 ^ Double.shiftFor n := by
        rw [Nat.mul_assoc, ← pow_add, Nat.sub_add_cancel hs]
      rw [hmultiple]
      exact roundHalfEven_nearest hpos _

theorem roundedToBits_eq_self_iff {n : Nat} : roundedToBits n = n ↔ HasFewBits n := by
  constructor
  · intro h
    rw [← h]
    exact hasFewBits_roundedToBits n
  · intro h
    have hnearest := roundedToBits_nearest n h
    rw [Nat.dist_self] at hnearest
    exact Nat.eq_of_dist_eq_zero (Nat.le_zero.mp hnearest)

theorem log2_mul_two_pow {n : Nat} (hne : n ≠ 0) (j : Nat) : (n * 2 ^ j).log2 = n.log2 + j := by
  have hpos := Nat.two_pow_pos j
  have hsum : n.log2 + j + 1 = n.log2 + 1 + j := by omega
  rw [Nat.log2_eq_iff (Nat.mul_ne_zero hne hpos.ne'), hsum, pow_add, pow_add 2 (n.log2 + 1)]
  exact ⟨Nat.mul_le_mul_right _ (Nat.log2_self_le hne),
    Nat.mul_lt_mul_of_pos_right Nat.lt_log2_self hpos⟩

/-- Zeros behind a number do not change how it is rounded. -/
theorem roundedToBits_mul_two_pow (n j : Nat) :
    roundedToBits (n * 2 ^ j) = roundedToBits n * 2 ^ j := by
  rcases Nat.lt_or_ge n (2 ^ 52) with hsmall | hlarge
  · have hbits : HasFewBits n := hasFewBits_of_lt (by omega)
    rw [roundedToBits_small hsmall, roundedToBits_eq_self_iff]
    exact hbits.mul_two_pow j
  · have hne : n ≠ 0 := by omega
    have hlog : 52 ≤ n.log2 := (Nat.le_log2 hne).mpr hlarge
    have hshift : Double.shiftFor (n * 2 ^ j) = Double.shiftFor n + j := by
      unfold Double.shiftFor
      rw [log2_mul_two_pow hne]
      omega
    rw [roundedToBits, hshift, pow_add, roundHalfEven_scale (Nat.two_pow_pos j), ← Nat.mul_assoc]
    rfl

/-! ## Where the double of an integer stands -/

/-- The place of an integer as a double: that of the nearest number of 53 bits, or
an end of the line from the range of the doubles on. -/
def roundedPlace (negative : Bool) (n : Nat) : Place :=
  if n < rangeOfDoubles then .units (signed negative (roundedToBits n * unitsPerOne))
  else if negative then .bottom
  else .top

theorem place?_ofSize {negative : Bool} {m s : Nat}
    (h : Double.ofSize negative m s ≠ .infinite negative) :
    (Double.ofSize negative m s).place? = some (.units (signed negative (m * 2 ^ s))) := by
  have hfits := not_not.mp fun hfits => h (ofSize_infinite_iff.mpr hfits)
  unfold Double.ofSize
  rw [dif_pos hfits]
  rfl

theorem place?_ofRatio (negative : Bool) (n : Nat) :
    (Double.ofRatio negative n 1).place? = some (roundedPlace negative n) := by
  unfold roundedPlace
  split_ifs with hrange hsign
  · have hpow (k : Nat) : Nat.pow 2 k = 2 ^ k := rfl
    have hfinite : Double.ofRatio negative n 1 ≠ .infinite negative := by
      rw [Ne, ofRatio_infinite_iff]
      exact Nat.not_le.mpr hrange
    have hsize : roundedToBits n * unitsPerOne = roundedToBits (n * unitsPerOne) := by
      rw [unitsPerOne_eq, roundedToBits_mul_two_pow]
    rw [hsize]
    unfold Double.ofRatio at hfinite ⊢
    dsimp only at hfinite ⊢
    rw [Nat.div_one, Nat.one_mul, hpow (Double.shiftFor _)] at hfinite ⊢
    unfold roundedToBits
    generalize Double.shiftFor (n * unitsPerOne) = k at *
    split_ifs at hfinite ⊢ with hcarry
    · -- The mantissa 2^53 is stored as 2^52 behind one more bit of shift.
      rw [place?_ofSize hfinite, hcarry, hpow 52, hpow 53, carry_eq]
    · rw [place?_ofSize hfinite]
  · rw [(ofRatio_infinite_iff negative n).mpr (Nat.le_of_not_lt hrange), hsign]
    rfl
  · rw [(ofRatio_infinite_iff negative n).mpr (Nat.le_of_not_lt hrange)]
    simp [Double.place?, hsign]

theorem ofRatio_zero (negative : Bool) : Double.ofRatio negative 0 1 = .zero negative := by
  unfold Double.ofRatio
  dsimp only
  rw [Nat.zero_mul, Nat.zero_div, shiftFor_small (by decide), roundHalfEven_zero,
    if_neg (by decide)]
  rfl

theorem rangeOfDoubles_le : rangeOfDoubles ≤ 10 ^ (399 + 1) := by
  decide +kernel

/-- A ratio may be reduced before it is rounded. -/
theorem ofRatio_scale (negative : Bool) (n d : Nat) {c : Nat} (hc : 0 < c) :
    Double.ofRatio negative (n * c) (d * c) = Double.ofRatio negative n d := by
  have hscaled : n * c * unitsPerOne = n * unitsPerOne * c := Nat.mul_right_comm ..
  have hdivisor (k : Nat) : d * c * k = d * k * c := Nat.mul_right_comm ..
  unfold Double.ofRatio
  simp only [hscaled, Nat.mul_div_mul_right _ _ hc, hdivisor, roundHalfEven_scale hc]

theorem zpow_mul_ten_pow (e : Int) : (10 : ℚ) ^ e * 10 ^ (-e).toNat = 10 ^ e.toNat := by
  have hsum : e + ((-e).toNat : Int) = (e.toNat : Int) := by omega
  rw [← zpow_natCast, ← zpow_natCast, ← zpow_add₀ (by norm_num), hsum]

/-- A decimal number reaches the power of ten that its leading digit stands at. -/
theorem ten_pow_le_decimal {c : Nat} {e j : Int} (hc : c ≠ 0)
    (hj : j < e + (decimalDigits c).length) : (10 : ℚ) ^ j ≤ c * 10 ^ e := by
  have hpos := List.length_pos_of_ne_nil (decimalDigits_ne_nil c)
  have hleast : (10 : ℚ) ^ ((decimalDigits c).length - 1) ≤ c := by exact_mod_cast ten_pow_le hc
  calc (10 : ℚ) ^ j ≤ 10 ^ (((decimalDigits c).length - 1 : Nat) + e) :=
        zpow_le_zpow_right₀ (by norm_num) (by omega)
    _ = 10 ^ ((decimalDigits c).length - 1) * 10 ^ e := by
      rw [zpow_add₀ (by norm_num), zpow_natCast]
    _ ≤ c * 10 ^ e := mul_le_mul_of_nonneg_right hleast (zpow_nonneg (by norm_num) e)

/-- A decimal number stays below the next power of ten. -/
theorem decimal_lt_ten_pow {c : Nat} {e j : Int} (hj : e + (decimalDigits c).length ≤ j) :
    (c : ℚ) * 10 ^ e < 10 ^ j := by
  have hten : (0 : ℚ) < 10 ^ e := zpow_pos (by norm_num) e
  have hmost : (c : ℚ) < 10 ^ (decimalDigits c).length := by exact_mod_cast lt_ten_pow_length c
  calc (c : ℚ) * 10 ^ e < 10 ^ (decimalDigits c).length * 10 ^ e :=
        mul_lt_mul_of_pos_right hmost hten
    _ = 10 ^ (((decimalDigits c).length : Int) + e) := by
      rw [zpow_add₀ (by norm_num), zpow_natCast]
    _ ≤ 10 ^ j := zpow_le_zpow_right₀ (by norm_num) (by omega)

section Whole

variable {c k : Nat} {e : Int}

/-- A whole decimal number reaches the power of ten that its leading digit stands at. -/
theorem ten_pow_le_whole {j : Nat} (h : (c : ℚ) * 10 ^ e = k) (hc : c ≠ 0)
    (hj : (j : Int) < e + (decimalDigits c).length) : 10 ^ j ≤ k := by
  have hreach := ten_pow_le_decimal hc hj
  rw [h, zpow_natCast] at hreach
  exact_mod_cast hreach

/-- The leading digit of a whole decimal number other than zero stands left of the point. -/
theorem length_pos_of_whole (h : (c : ℚ) * 10 ^ e = k) (hc : c ≠ 0) :
    0 < e + (decimalDigits c).length := by
  have hk : 0 < k := by
    have hcpos : (0 : ℚ) < c := by exact_mod_cast Nat.pos_of_ne_zero hc
    have hkpos : (0 : ℚ) < k := h ▸ mul_pos hcpos (zpow_pos (by norm_num) e)
    exact_mod_cast hkpos
  by_contra hshort
  have hsmall := decimal_lt_ten_pow (Int.not_lt.mp hshort)
  rw [h, zpow_zero] at hsmall
  have hlt : k < 1 := by exact_mod_cast hsmall
  omega

/-- A decimal number that is whole stands for the double of that whole number, however
many digits it has and whatever its exponent is. -/
theorem ofDecimal_whole (negative : Bool) (h : (c : ℚ) * 10 ^ e = k) :
    Double.ofDecimal negative c e = Double.ofRatio negative k 1 := by
  unfold Double.ofDecimal Double.exponentBound
  dsimp only
  split_ifs with hzero hlong hshort
  · obtain rfl : k = 0 := by
      rw [hzero, Nat.cast_zero, zero_mul] at h
      exact_mod_cast h.symm
    rw [ofRatio_zero]
  · have hlarge : 10 ^ (399 + 1) ≤ k := ten_pow_le_whole h hzero (by omega)
    exact ((ofRatio_infinite_iff negative k).mpr (rangeOfDoubles_le.trans hlarge)).symm
  · have := length_pos_of_whole h hzero
    omega
  · have hnat : c * 10 ^ e.toNat = k * 10 ^ (-e).toNat := by
      have hmul : (c : ℚ) * 10 ^ e.toNat = k * 10 ^ (-e).toNat := by
        rw [← zpow_mul_ten_pow, ← mul_assoc, h]
      exact_mod_cast hmul
    have hpow (i : Nat) : Nat.pow 10 i = 10 ^ i := rfl
    have hscale := ofRatio_scale negative k 1 (c := 10 ^ (-e).toNat) (by positivity)
    rw [Nat.one_mul] at hscale
    rw [hpow, hpow, hnat, hscale]

end Whole

/-- Digits without an exponent stand for the double of their integer, however many
they are. -/
theorem ofDecimal_integer (negative : Bool) (n : Nat) :
    Double.ofDecimal negative n 0 = Double.ofRatio negative n 1 :=
  ofDecimal_whole negative (by rw [zpow_zero, mul_one])

end FieldGate
