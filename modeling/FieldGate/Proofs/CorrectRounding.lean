-- The reader of decimal numbers rounds correctly: its double is the nearest to the
-- exact value, with an even mantissa where two are as near, and no other is. Only from
-- the range of the doubles on it is infinite.
import FieldGate.Proofs.NearestDouble

namespace FieldGate

/-! ## The nearest double -/

/-- The size of a finite double. -/
def doubleSize (m s : Nat) : ℚ := sizeInUnits m s / unitsPerOne

/-- These are the mantissa and the shift of the double nearest to a number: no double
is nearer, and where another one is as near, the mantissa is even. -/
structure IsNearestDouble (x : ℚ) (m s : Nat) : Prop where
  fits : FitsDouble m s
  nearest : ∀ m' s', FitsDouble m' s' → |doubleSize m s - x| ≤ |doubleSize m' s' - x|
  even : ∀ m' s', FitsDouble m' s' → |doubleSize m' s' - x| = |doubleSize m s - x| →
    doubleSize m' s' = doubleSize m s ∨ m % 2 = 0

theorem unitsPerOne_cast_pos : (0 : ℚ) < unitsPerOne := Nat.cast_pos.mpr unitsPerOne_pos

theorem doubleSize_lt_iff {m s m' s' : Nat} :
    doubleSize m s < doubleSize m' s' ↔ sizeInUnits m s < sizeInUnits m' s' := by
  unfold doubleSize
  rw [div_lt_div_iff_of_pos_right unitsPerOne_cast_pos, Nat.cast_lt]

/-- A double is a whole number when its units make up whole ones. -/
theorem doubleSize_eq_natCast_iff {m s k : Nat} :
    doubleSize m s = k ↔ sizeInUnits m s = k * unitsPerOne := by
  unfold doubleSize
  rw [div_eq_iff unitsPerOne_cast_pos.ne', ← Nat.cast_mul, Nat.cast_inj]

/-! ## Only one double is nearest -/

theorem sizeInUnits_eq (m s : Nat) : sizeInUnits m s = m * 2 ^ s := rfl

/-- Between a double and the next mantissa with its shift there is no other. -/
theorem next_le_of_lt {m s m' s' : Nat} (h : FitsDouble m s) (h' : FitsDouble m' s')
    (hlt : sizeInUnits m s < sizeInUnits m' s') :
    s ≤ s' ∧ sizeInUnits (m + 1) s ≤ sizeInUnits m' s' := by
  rw [fitsDouble_iff] at h h'
  simp only [sizeInUnits_eq] at hlt ⊢
  rcases Nat.lt_or_ge s' s with hs | hs
  · have hbelow : m' * 2 ^ s' ≤ m * 2 ^ s :=
      calc m' * 2 ^ s' ≤ 2 ^ 53 * 2 ^ s' := Nat.mul_le_mul_right _ h'.1.le
        _ = 2 ^ 52 * 2 ^ (s' + 1) := carry_eq s'
        _ ≤ 2 ^ 52 * 2 ^ s := Nat.mul_le_mul_left _ (Nat.pow_le_pow_right (by decide) hs)
        _ ≤ m * 2 ^ s := Nat.mul_le_mul_right _ (h.2.2.resolve_left (by omega))
    omega
  · refine ⟨hs, ?_⟩
    obtain ⟨i, rfl⟩ := Nat.exists_eq_add_of_le hs
    rw [pow_add, Nat.mul_comm (2 ^ s), ← Nat.mul_assoc] at hlt ⊢
    exact Nat.mul_le_mul_right _ (Nat.lt_of_mul_lt_mul_right hlt)

theorem IsNearestDouble.not_lt {x : ℚ} {m s m' s' : Nat} (h : IsNearestDouble x m s)
    (h' : IsNearestDouble x m' s') : ¬doubleSize m s < doubleSize m' s' := by
  intro hlt
  have htie : |doubleSize m' s' - x| = |doubleSize m s - x| :=
    le_antisymm (h'.nearest m s h.fits) (h.nearest m' s' h'.fits)
  have heven : m % 2 = 0 := (h.even m' s' h'.fits htie).resolve_left hlt.ne'
  have heven' : m' % 2 = 0 := (h'.even m s h.fits htie.symm).resolve_left hlt.ne
  obtain ⟨hs, hnext⟩ := next_le_of_lt h.fits h'.fits (doubleSize_lt_iff.mp hlt)
  have hmiddle : doubleSize m' s' - x = x - doubleSize m s := by
    rcases abs_eq_abs.mp htie with hsame | hopposite <;> linarith
  rcases Nat.lt_or_eq_of_le hnext with hbetween | hadjacent
  · -- The next mantissa is a double too, and it lies nearer to the middle.
    have hfits := fitsDouble_iff.mp h.fits
    have hinside : FitsDouble (m + 1) s := fitsDouble_iff.mpr (by omega)
    have hfar := h.nearest (m + 1) s hinside
    have hbefore : doubleSize m s < doubleSize (m + 1) s := by
      rw [doubleSize_lt_iff, sizeInUnits_eq, sizeInUnits_eq]
      exact Nat.mul_lt_mul_of_pos_right (Nat.lt_succ_self m) (Nat.two_pow_pos s)
    have hbehind := doubleSize_lt_iff.mpr hbetween
    have hnear : |doubleSize (m + 1) s - x| < x - doubleSize m s :=
      abs_lt.mpr ⟨by linarith, by linarith⟩
    have hdistance : x - doubleSize m s ≤ |doubleSize m s - x| := by
      rw [abs_sub_comm]
      exact le_abs_self _
    linarith
  · -- Neighbours do not both have even mantissas.
    obtain ⟨i, rfl⟩ := Nat.exists_eq_add_of_le hs
    rw [sizeInUnits_eq, sizeInUnits_eq, pow_add, Nat.mul_comm (2 ^ s), ← Nat.mul_assoc] at hadjacent
    have hmantissa := Nat.eq_of_mul_eq_mul_right (Nat.two_pow_pos s) hadjacent
    have hproduct : m' * 2 ^ i % 2 = 0 := by rw [Nat.mul_mod, heven', Nat.zero_mul, Nat.zero_mod]
    omega

/-- There is at most one nearest double. -/
theorem IsNearestDouble.unique {x : ℚ} {m s m' s' : Nat} (h : IsNearestDouble x m s)
    (h' : IsNearestDouble x m' s') : doubleSize m s = doubleSize m' s' :=
  le_antisymm (le_of_not_gt (h'.not_lt h)) (le_of_not_gt (h.not_lt h'))

/-! ## Rounding a ratio -/

/-- A multiple of the divisor that is as near as the rounded one is that one, or the
rounded one is even. -/
theorem roundHalfEven_tie {n d k : Nat} (hd : 0 < d)
    (h : Nat.dist (k * d) n = Nat.dist (roundHalfEven n d * d) n) :
    k = roundHalfEven n d ∨ roundHalfEven n d % 2 = 0 := by
  have hdivision := Nat.div_add_mod' n d
  have hrest := Nat.mod_lt n hd
  have hside : k = n / d ∨ k = n / d + 1 ∨ k * d + d ≤ n / d * d
      ∨ n / d * d + d + d ≤ k * d := by
    rcases Nat.lt_trichotomy k (n / d) with hk | hk | hk
    · have := Nat.mul_le_mul_right d hk
      rw [Nat.succ_mul] at this
      omega
    · exact .inl hk
    · rcases Nat.lt_or_eq_of_le hk with hk | hk
      · have := Nat.mul_le_mul_right d hk
        rw [Nat.succ_mul, Nat.succ_mul] at this
        omega
      · exact .inr (.inl hk.symm)
  have hnext : (n / d + 1) * d = n / d * d + d := Nat.succ_mul _ _
  unfold roundHalfEven at h ⊢
  unfold Nat.dist at h
  dsimp only at h ⊢
  split_ifs at h ⊢ with hbelow habove heven
  · rcases hside with rfl | rfl | hside | hside
    · exact .inl rfl
    all_goals omega
  · rcases hside with rfl | rfl | hside | hside
    · omega
    · exact .inl rfl
    all_goals omega
  · exact .inr heven
  · omega

section Ratio

variable {n d : Nat} (hd : 0 < d)
include hd

/-- No double is nearer to a ratio than the rounded one, and if another one is as near,
the rounded mantissa is even. Everything is counted in parts of a unit, as many as the
divisor says. -/
theorem rounded_nearest {k r m : Nat} (hk : Double.shiftFor (n / d) = k)
    (hr : roundHalfEven n (d * 2 ^ k) = r) (s : Nat) (hm : m < 2 ^ 53) :
    Nat.dist (r * (d * 2 ^ k)) n ≤ Nat.dist (m * 2 ^ s * d) n
      ∧ (Nat.dist (m * 2 ^ s * d) n = Nat.dist (r * (d * 2 ^ k)) n →
        m * 2 ^ s * d = r * (d * 2 ^ k) ∨ r % 2 = 0) := by
  subst hr
  have hpos : 0 < d * 2 ^ k := Nat.mul_pos hd (Nat.two_pow_pos k)
  rcases Nat.lt_or_ge s k with hs | hs
  · -- A finer number lies below the power of two that starts the row of multiples.
    have hlarge : 2 ^ 52 ≤ n / d := by
      by_contra hsmall
      rw [shiftFor_small (Nat.lt_of_not_le hsmall)] at hk
      omega
    obtain ⟨hlow, -⟩ := shiftFor_ratio hd hlarge
    have hstart := roundHalfEven_nearest (s := n) hpos (2 ^ 52)
    have hreached : 2 ^ 52 * (d * 2 ^ k) ≤ n := by
      rw [Nat.mul_comm d, ← Nat.mul_assoc, ← pow_add, ← hk]
      exact hlow
    have hbelow : m * 2 ^ s * d < 2 ^ 52 * (d * 2 ^ k) :=
      calc m * 2 ^ s * d < 2 ^ 53 * 2 ^ s * d :=
            Nat.mul_lt_mul_of_pos_right (Nat.mul_lt_mul_of_pos_right hm (Nat.two_pow_pos s)) hd
        _ = 2 ^ 52 * 2 ^ (s + 1) * d := by rw [carry_eq]
        _ ≤ 2 ^ 52 * 2 ^ k * d :=
            Nat.mul_le_mul_right d (Nat.mul_le_mul_left _ (Nat.pow_le_pow_right (by decide) hs))
        _ = 2 ^ 52 * (d * 2 ^ k) := by rw [Nat.mul_assoc, Nat.mul_comm d]
    unfold Nat.dist at *
    omega
  · obtain ⟨i, rfl⟩ := Nat.exists_eq_add_of_le hs
    have hmultiple : m * 2 ^ (k + i) * d = m * 2 ^ i * (d * 2 ^ k) := by
      rw [pow_add]
      ring
    rw [hmultiple]
    refine ⟨roundHalfEven_nearest hpos _, fun htie => ?_⟩
    rcases roundHalfEven_tie hpos htie with heq | heven
    · exact .inl (by rw [heq])
    · exact .inr heven

/-- A distance from a ratio, in parts of a unit. -/
theorem abs_doubleSize_sub (m s : Nat) :
    |doubleSize m s - (n : ℚ) / d|
      = (Nat.dist (m * 2 ^ s * d) (n * unitsPerOne) : ℚ) / (unitsPerOne * d) := by
  have hdpos : (0 : ℚ) < d := Nat.cast_pos.mpr hd
  have hpos : (0 : ℚ) < unitsPerOne * d := mul_pos unitsPerOne_cast_pos hdpos
  have hdist (a b : Nat) : (Nat.dist a b : ℚ) = |(a : ℚ) - b| := by
    rcases Nat.le_total a b with hab | hab
    · rw [Nat.dist_eq_sub_of_le hab, Nat.cast_sub hab, abs_sub_comm]
      exact (abs_of_nonneg (sub_nonneg.mpr (Nat.cast_le.mpr hab))).symm
    · rw [Nat.dist_eq_sub_of_le_right hab, Nat.cast_sub hab]
      exact (abs_of_nonneg (sub_nonneg.mpr (Nat.cast_le.mpr hab))).symm
  have hdifference : doubleSize m s - (n : ℚ) / d
      = ((m * 2 ^ s * d : Nat) - (n * unitsPerOne : Nat)) / (unitsPerOne * d) := by
    rw [doubleSize, sizeInUnits_eq, div_sub_div _ _ unitsPerOne_cast_pos.ne' hdpos.ne']
    push_cast
    ring
  rw [hdifference, abs_div, abs_of_pos hpos, hdist]

/-- A size that rounding gives, with the mantissa and shift of a double. -/
theorem isNearestDouble_of_rounded {k r m s : Nat}
    (hk : Double.shiftFor (n * unitsPerOne / d) = k)
    (hr : roundHalfEven (n * unitsPerOne) (d * 2 ^ k) = r) (hfits : FitsDouble m s)
    (hsize : m * 2 ^ s = r * 2 ^ k) (heven : r % 2 = 0 → m % 2 = 0) :
    IsNearestDouble ((n : ℚ) / d) m s := by
  have hdpos : (0 : ℚ) < d := Nat.cast_pos.mpr hd
  have hpos : (0 : ℚ) < unitsPerOne * d := mul_pos unitsPerOne_cast_pos hdpos
  have hrounded : r * (d * 2 ^ k) = m * 2 ^ s * d := by
    rw [hsize]
    ring
  refine ⟨hfits, ?nearest, ?even⟩
  case nearest =>
    intro m' s' hfits'
    have hnearest := (rounded_nearest hd hk hr s' hfits'.1).1
    rw [hrounded] at hnearest
    rw [abs_doubleSize_sub hd, abs_doubleSize_sub hd, div_le_div_iff_of_pos_right hpos, Nat.cast_le]
    exact hnearest
  case even =>
    intro m' s' hfits' htie
    have htie' := (rounded_nearest hd hk hr s' hfits'.1).2
    rw [hrounded] at htie'
    rw [abs_doubleSize_sub hd, abs_doubleSize_sub hd, div_left_inj' hpos.ne', Nat.cast_inj] at htie
    rcases htie' htie with hsame | hr2
    · left
      rw [doubleSize, doubleSize, sizeInUnits_eq, sizeInUnits_eq,
        Nat.eq_of_mul_eq_mul_right hd hsame]
    · exact .inr (heven hr2)

/-- The double of a ratio in the range of the doubles is finite, and the nearest. -/
theorem ofRatio_nearest (negative : Bool) (h : n < rangeOfDoubles * d) :
    ∃ m s fits, Double.ofRatio negative n d = .finite negative m s fits
      ∧ IsNearestDouble ((n : ℚ) / d) m s := by
  have hpow (i : Nat) : Nat.pow 2 i = 2 ^ i := rfl
  have hfinite : Double.ofRatio negative n d ≠ .infinite negative := by
    rw [Ne, ofRatio_overflows_iff negative hd]
    exact Nat.not_le.mpr h
  have hnearest {m s : Nat} := isNearestDouble_of_rounded (m := m) (s := s) hd (n := n) rfl rfl
  unfold Double.ofRatio at hfinite ⊢
  dsimp only at hfinite ⊢
  rw [hpow (Double.shiftFor _)] at hfinite ⊢
  split_ifs at hfinite ⊢ with hcarry
  · have hfits := not_not.mp fun hfits => hfinite (ofSize_infinite_iff.mpr hfits)
    refine ⟨_, _, hfits, dif_pos hfits, hnearest hfits ?_ fun _ => by decide⟩
    rw [hcarry, hpow, hpow, carry_eq]
  · have hfits := not_not.mp fun hfits => hfinite (ofSize_infinite_iff.mpr hfits)
    exact ⟨_, _, hfits, dif_pos hfits, hnearest hfits rfl id⟩

end Ratio

/-! ## Reading a decimal number -/

/-- Zero is nearest to what lies below half a unit. -/
theorem isNearestDouble_zero {x : ℚ} (hx : 0 ≤ x) (hsmall : 2 * x * unitsPerOne < 1) :
    IsNearestDouble x 0 0 := by
  have hzero : doubleSize 0 0 = 0 := by
    rw [doubleSize, sizeInUnits_eq, Nat.zero_mul, Nat.cast_zero, zero_div]
  refine ⟨by decide, ?_, fun _ _ _ _ => .inr rfl⟩
  intro m s _
  rw [hzero, zero_sub, abs_neg, abs_of_nonneg hx]
  by_cases hsize : sizeInUnits m s = 0
  · rw [doubleSize, hsize, Nat.cast_zero, zero_div, zero_sub, abs_neg, abs_of_nonneg hx]
  · have hunit : 2 * x < doubleSize m s := by
      have hone : (1 : ℚ) ≤ sizeInUnits m s := by exact_mod_cast Nat.pos_of_ne_zero hsize
      rw [doubleSize, lt_div_iff₀ unitsPerOne_cast_pos]
      exact hsmall.trans_le hone
    exact le_trans (by linarith) (le_abs_self _)

theorem two_units_lt : 2 * unitsPerOne < 10 ^ (399 + 1) := by
  decide +kernel

/-- What the reader takes for zero lies below half a unit. -/
theorem half_unit_above : (2 : ℚ) * 10 ^ (-((399 + 1 : Nat) : Int)) * unitsPerOne < 1 := by
  have hunits : (2 : ℚ) * unitsPerOne < 10 ^ (399 + 1) := by exact_mod_cast two_units_lt
  rw [zpow_neg, zpow_natCast, mul_right_comm, ← div_eq_mul_inv]
  exact (div_lt_one (by positivity)).mpr hunits

/-- A decimal number is read as the double nearest to its exact value, however many
digits it has and whatever its exponent is; from the range of the doubles on, as an
infinity. -/
theorem ofDecimal_nearest (negative : Bool) (c : Nat) (e : Int) :
    (c * 10 ^ e < (rangeOfDoubles : ℚ) ∧ ∃ m s fits,
        Double.ofDecimal negative c e = .finite negative m s fits
          ∧ IsNearestDouble (c * 10 ^ e) m s)
      ∨ (rangeOfDoubles : ℚ) ≤ c * 10 ^ e ∧ Double.ofDecimal negative c e = .infinite negative := by
  have hvalue : (0 : ℚ) ≤ c * 10 ^ e := mul_nonneg (Nat.cast_nonneg c) (zpow_nonneg (by norm_num) e)
  have hrange : (1 : ℚ) ≤ rangeOfDoubles := by
    have : 1 ≤ rangeOfDoubles := by decide +kernel
    exact_mod_cast this
  unfold Double.ofDecimal Double.exponentBound
  dsimp only
  split_ifs with hzero hlong hshort
  · subst hzero
    rw [Nat.cast_zero, zero_mul]
    have hhalf : 2 * 0 * (unitsPerOne : ℚ) < 1 := by simp only [mul_zero, zero_mul, one_pos]
    have hnearest := isNearestDouble_zero le_rfl hhalf
    exact .inl ⟨by linarith, 0, 0, hnearest.fits, rfl, hnearest⟩
  · have hreach := ten_pow_le_decimal (j := (399 + 1 : Nat)) hzero hlong
    have hmost : (rangeOfDoubles : ℚ) ≤ 10 ^ (399 + 1) := by exact_mod_cast rangeOfDoubles_le
    rw [zpow_natCast] at hreach
    exact .inr ⟨hmost.trans hreach, rfl⟩
  · have hsmall := decimal_lt_ten_pow (j := -((399 + 1 : Nat) : Int)) hshort.le
    have hhalf : 2 * (c * 10 ^ e) * unitsPerOne < (1 : ℚ) := by
      refine lt_trans ?_ half_unit_above
      exact mul_lt_mul_of_pos_right (by linarith) unitsPerOne_cast_pos
    have hone : (10 : ℚ) ^ (-((399 + 1 : Nat) : Int)) ≤ 1 :=
      zpow_le_one_of_nonpos₀ (by norm_num) (by omega)
    have hnearest := isNearestDouble_zero hvalue hhalf
    exact .inl ⟨by linarith, 0, 0, hnearest.fits, rfl, hnearest⟩
  · have hpow (i : Nat) : Nat.pow 10 i = 10 ^ i := rfl
    have hd : 0 < 10 ^ (-e).toNat := by positivity
    have hratio : (c : ℚ) * 10 ^ e = (c * 10 ^ e.toNat : Nat) / (10 ^ (-e).toNat : Nat) := by
      rw [eq_div_iff (by positivity)]
      push_cast
      rw [mul_assoc, zpow_mul_ten_pow]
    have hdpos : (0 : ℚ) < (10 ^ (-e).toNat : Nat) := Nat.cast_pos.mpr hd
    rw [hpow, hpow, hratio]
    rcases Nat.lt_or_ge (c * 10 ^ e.toNat) (rangeOfDoubles * 10 ^ (-e).toNat) with hlt | hge
    · refine .inl ⟨?_, ofRatio_nearest hd negative hlt⟩
      rw [div_lt_iff₀ hdpos]
      exact_mod_cast hlt
    · refine .inr ⟨?_, (ofRatio_overflows_iff negative hd).mpr hge⟩
      rw [le_div_iff₀ hdpos]
      exact_mod_cast hge

end FieldGate
