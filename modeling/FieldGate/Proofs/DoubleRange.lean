-- The range of the doubles: an integer rounds to a double just when it lies
-- below the middle between the largest double and the next power of two.
import Mathlib
import FieldGate.Number.Rounding

namespace FieldGate

/-- The least size of an integer that rounds to an infinity: the middle between
the largest double, `2^1024 - 2^971`, and `2^1024`. -/
def rangeOfDoubles : Nat := (2 ^ 54 - 1) * 2 ^ 970

theorem unitsPerOne_eq : unitsPerOne = 2 ^ 1074 := by
  unfold unitsPerOne
  generalize 1074 = k
  rfl

theorem le_unitsPerOne : 2 ^ 52 ≤ unitsPerOne := by
  unfold unitsPerOne
  generalize hk : 1074 = k
  exact Nat.pow_le_pow_right (by decide) (by omega)

theorem unitsPerOne_pos : 0 < unitsPerOne := le_unitsPerOne.trans_lt' (by decide)

/-! ## Rounding to a whole number -/

theorem roundHalfEven_le (s d : Nat) : roundHalfEven s d ≤ s / d + 1 := by
  unfold roundHalfEven
  dsimp only
  split_ifs <;> omega

theorem le_roundHalfEven (s d : Nat) : s / d ≤ roundHalfEven s d := by
  unfold roundHalfEven
  dsimp only
  split_ifs <;> omega

/-- Below an even number, rounding reaches it from the middle on. -/
theorem roundHalfEven_eq_iff {s d k : Nat} (hd : 0 < d) (heven : (k + 1) % 2 = 0)
    (hs : s < (k + 1) * d) : roundHalfEven s d = k + 1 ↔ (2 * k + 1) * d ≤ 2 * s := by
  have hdivision := Nat.div_add_mod s d
  have hrest := Nat.mod_lt s hd
  have hle : s / d ≤ k := Nat.lt_succ_iff.mp (Nat.div_lt_of_lt_mul (by rwa [Nat.mul_comm]))
  -- Only the last quotient below `k + 1` can round up to it, and a tie there goes up.
  by_cases hlast : s / d = k
  · have hmiddle : (2 * k + 1) * d ≤ 2 * s ↔ d ≤ 2 * (s % d) := by
      rw [hlast] at hdivision
      have hsum : 2 * s = 2 * k * d + 2 * (s % d) := by linarith
      rw [hsum, Nat.add_mul, Nat.one_mul]
      omega
    rw [hmiddle]
    unfold roundHalfEven
    dsimp only
    rw [hlast]
    split_ifs <;> omega
  · have hbelow : roundHalfEven s d ≤ k := (roundHalfEven_le s d).trans (by omega)
    have hfar : 2 * s < (2 * k + 1) * d := by
      have hstep : (s / d + 1) * d ≤ k * d := Nat.mul_le_mul_right d (by omega)
      linarith
    omega

/-! ## Rounding an integer -/

theorem fitsDouble_iff {m s : Nat} :
    FitsDouble m s ↔ m < 2 ^ 53 ∧ s ≤ 2045 ∧ (s = 0 ∨ 2 ^ 52 ≤ m) := Iff.rfl

theorem ofSize_infinite_iff {negative : Bool} {m s : Nat} :
    Double.ofSize negative m s = .infinite negative ↔ ¬FitsDouble m s := by
  unfold Double.ofSize
  split <;> simp [*]

/-- The shift of a size leaves 53 bits of it. -/
theorem shiftFor_spec {s : Nat} (h : 2 ^ 52 ≤ s) :
    2 ^ (52 + Double.shiftFor s) ≤ s ∧ s < 2 ^ (53 + Double.shiftFor s) := by
  have hne : s ≠ 0 := by
    rintro rfl
    simp at h
  have hlog : 52 ≤ s.log2 := (Nat.le_log2 hne).mpr h
  have hlow : 52 + Double.shiftFor s = s.log2 := by
    unfold Double.shiftFor
    omega
  have hhigh : 53 + Double.shiftFor s = s.log2 + 1 := by omega
  rw [hlow, hhigh]
  exact ⟨Nat.log2_self_le hne, Nat.lt_log2_self⟩

theorem shiftFor_small {n : Nat} (h : n < 2 ^ 52) : Double.shiftFor n = 0 := by
  unfold Double.shiftFor
  by_cases hzero : n = 0
  · subst hzero
    rw [Nat.log2_zero]
  · have := (Nat.log2_lt hzero).mpr h
    omega

section Ratio

variable {n d k : Nat} (hd : 0 < d)
include hd

/-- The shift of a ratio leaves 53 bits of its whole part. -/
theorem shiftFor_ratio (h : 2 ^ 52 ≤ n / d) :
    2 ^ (52 + Double.shiftFor (n / d)) * d ≤ n ∧ n < 2 ^ (53 + Double.shiftFor (n / d)) * d := by
  obtain ⟨hlow, hhigh⟩ := shiftFor_spec h
  exact ⟨(Nat.le_div_iff_mul_le hd).mp hlow, (Nat.div_lt_iff_lt_mul hd).mp hhigh⟩

theorem mantissa_bounds (hlow : 2 ^ (52 + k) * d ≤ n) (hhigh : n < 2 ^ (53 + k) * d) :
    2 ^ 52 ≤ roundHalfEven n (d * 2 ^ k) ∧ roundHalfEven n (d * 2 ^ k) ≤ 2 ^ 53 := by
  have hpos : 0 < d * 2 ^ k := Nat.mul_pos hd (Nat.two_pow_pos k)
  have hsplit (i : Nat) : 2 ^ i * (d * 2 ^ k) = 2 ^ (i + k) * d := by
    rw [pow_add, Nat.mul_comm d, Nat.mul_assoc]
  have hleast : 2 ^ 52 ≤ n / (d * 2 ^ k) := by
    rwa [Nat.le_div_iff_mul_le hpos, hsplit]
  have hmost : n / (d * 2 ^ k) < 2 ^ 53 := by
    rwa [Nat.div_lt_iff_lt_mul hpos, hsplit]
  exact ⟨hleast.trans (le_roundHalfEven n _), (roundHalfEven_le n _).trans hmost⟩

/-- A mantissa uses all its bits, unless the shift is zero; rounding may carry. -/
theorem rounded_mantissa :
    roundHalfEven n (d * 2 ^ Double.shiftFor (n / d)) ≤ 2 ^ 53
      ∧ (Double.shiftFor (n / d) = 0
        ∨ 2 ^ 52 ≤ roundHalfEven n (d * 2 ^ Double.shiftFor (n / d))) := by
  rcases Nat.lt_or_ge (n / d) (2 ^ 52) with hsmall | hlarge
  · have hround := roundHalfEven_le n d
    rw [shiftFor_small hsmall, pow_zero, Nat.mul_one]
    exact ⟨by omega, .inl rfl⟩
  · obtain ⟨hlow, hhigh⟩ := shiftFor_ratio hd hlarge
    obtain ⟨hleast, hmost⟩ := mantissa_bounds hd hlow hhigh
    exact ⟨hmost, .inr hleast⟩

/-- A size overflows the shift `e + 1` from half a unit above its last mantissa
on. -/
theorem overflow_iff {e : Nat} (hlow : 2 ^ (52 + k) * d ≤ n) (hhigh : n < 2 ^ (53 + k) * d) :
    e + 1 < k ∨ k = e + 1 ∧ roundHalfEven n (d * 2 ^ k) = 2 ^ 53
      ↔ (2 ^ 54 - 1) * (2 ^ e * d) ≤ n := by
  have hlast : 2 ^ (53 + e) * d = 2 ^ 53 * (2 ^ e * d) := by rw [pow_add, Nat.mul_assoc]
  have htop : 2 ^ (54 + e) * d = 2 ^ 54 * (2 ^ e * d) := by rw [pow_add, Nat.mul_assoc]
  rcases Nat.lt_trichotomy k (e + 1) with hk | rfl | hk
  · have hbelow : n < 2 ^ 53 * (2 ^ e * d) :=
      hhigh.trans_le ((Nat.mul_le_mul_right d
        (Nat.pow_le_pow_right (by decide) (by omega))).trans_eq hlast)
    omega
  · have hdouble : d * 2 ^ (e + 1) = 2 * (2 ^ e * d) := by
      rw [pow_succ', Nat.mul_comm d, Nat.mul_assoc]
    have hhigh' : n < (2 ^ 53 - 1 + 1) * (d * 2 ^ (e + 1)) := by
      rw [pow_add, Nat.mul_assoc, Nat.mul_comm _ d] at hhigh
      exact hhigh
    have hround := roundHalfEven_eq_iff (Nat.mul_pos hd (Nat.two_pow_pos (e + 1))) (by decide)
      hhigh'
    rw [hdouble] at hround ⊢
    omega
  · have habove : 2 ^ 54 * (2 ^ e * d) ≤ n :=
      htop.symm.trans_le ((Nat.mul_le_mul_right d
        (Nat.pow_le_pow_right (by decide) (by omega))).trans hlow)
    omega

end Ratio

/-- A rounded mantissa overflows behind the last shift, or when it carries there. -/
theorem ofMantissa_infinite_iff {negative : Bool} {m k : Nat} (hm : m ≤ 2 ^ 53)
    (hfull : k = 0 ∨ 2 ^ 52 ≤ m) :
    (if m = Nat.pow 2 53 then Double.ofSize negative (Nat.pow 2 52) (k + 1)
        else Double.ofSize negative m k) = .infinite negative
      ↔ 2045 < k ∨ k = 2045 ∧ m = 2 ^ 53 := by
  have hpow : Nat.pow 2 53 = 2 ^ 53 := rfl
  rw [hpow]
  split
  · rename_i hcarry
    have hpow' : Nat.pow 2 52 = 2 ^ 52 := rfl
    rw [ofSize_infinite_iff, fitsDouble_iff, hpow']
    omega
  · rename_i hcarry
    rw [ofSize_infinite_iff, fitsDouble_iff]
    omega

theorem roundHalfEven_zero (d : Nat) : roundHalfEven 0 d = 0 := by
  unfold roundHalfEven
  dsimp only
  rw [Nat.zero_div, Nat.zero_mod]
  split_ifs <;> omega

/-- Half a unit above the largest double, in units of 2^-1074. -/
theorem rangeOfDoubles_mul : rangeOfDoubles * unitsPerOne = (2 ^ 54 - 1) * 2 ^ 2044 := by
  rw [rangeOfDoubles, unitsPerOne_eq, Nat.mul_assoc, ← pow_add]

theorem two_pow_le_range : 2 ^ 52 ≤ rangeOfDoubles * unitsPerOne :=
  le_unitsPerOne.trans (Nat.le_mul_of_pos_left _ (by unfold rangeOfDoubles; positivity))

/-- The double of a ratio is infinite from the range of the doubles on. -/
theorem ofRatio_overflows_iff (negative : Bool) {n d : Nat} (hd : 0 < d) :
    Double.ofRatio negative n d = .infinite negative ↔ rangeOfDoubles * d ≤ n := by
  have hpow (k : Nat) : Nat.pow 2 k = 2 ^ k := rfl
  have hunits : rangeOfDoubles * d ≤ n ↔ rangeOfDoubles * unitsPerOne * d ≤ n * unitsPerOne := by
    rw [Nat.mul_right_comm, Nat.mul_le_mul_right_iff unitsPerOne_pos]
  obtain ⟨hmost, hfull⟩ := rounded_mantissa (n := n * unitsPerOne) hd
  unfold Double.ofRatio
  dsimp only
  rw [hpow (Double.shiftFor _), ofMantissa_infinite_iff hmost hfull, hunits]
  rcases Nat.lt_or_ge (n * unitsPerOne / d) (2 ^ 52) with hsmall | hlarge
  · -- A size without 53 bits before its point has the shift zero.
    have hbelow : n * unitsPerOne < rangeOfDoubles * unitsPerOne * d :=
      ((Nat.div_lt_iff_lt_mul hd).mp hsmall).trans_le (Nat.mul_le_mul_right d two_pow_le_range)
    rw [shiftFor_small hsmall]
    omega
  · obtain ⟨hlow, hhigh⟩ := shiftFor_ratio hd hlarge
    rw [overflow_iff (e := 2044) hd hlow hhigh, rangeOfDoubles_mul, Nat.mul_assoc]

/-- The double of an integer is infinite from the range of the doubles on. -/
theorem ofRatio_infinite_iff (negative : Bool) (n : Nat) :
    Double.ofRatio negative n 1 = .infinite negative ↔ rangeOfDoubles ≤ n := by
  rw [ofRatio_overflows_iff negative Nat.one_pos, Nat.mul_one]

/-! ## The sign -/

/-- The double is a number with this sign in front. -/
def Double.HasSign (negative : Bool) : Double → Prop
  | nan => False
  | infinite sign => sign = negative
  | finite sign _ _ _ => sign = negative

theorem ofSize_hasSign (negative : Bool) (m k : Nat) :
    (Double.ofSize negative m k).HasSign negative := by
  unfold Double.ofSize
  split <;> exact rfl

theorem ofRatio_hasSign (negative : Bool) (n d : Nat) :
    (Double.ofRatio negative n d).HasSign negative := by
  unfold Double.ofRatio
  dsimp only
  split_ifs
  · exact ofSize_hasSign _ _ _
  · exact ofSize_hasSign _ _ _

theorem ofDecimal_hasSign (negative : Bool) (c : Nat) (e : Int) :
    (Double.ofDecimal negative c e).HasSign negative := by
  unfold Double.ofDecimal
  dsimp only
  split_ifs
  · exact rfl
  · exact rfl
  · exact rfl
  · exact ofRatio_hasSign _ _ _

/-! ## Integers as doubles -/

/-- An integer becomes a double, or is refused for its size. -/
theorem ofInteger_cases (n : Int) :
    n.natAbs < rangeOfDoubles ∧ (∃ d, Double.ofInteger n = .ok d)
      ∨ rangeOfDoubles ≤ n.natAbs ∧ Double.ofInteger n = .error .integerTooLarge := by
  have hiff := ofRatio_infinite_iff (n < 0) n.natAbs
  unfold Double.ofInteger
  cases hd : Double.ofRatio (n < 0) n.natAbs 1 with
  | infinite negative =>
    have hsign := ofRatio_hasSign (n < 0) n.natAbs 1
    rw [hd] at hsign
    obtain rfl : negative = decide (n < 0) := hsign
    exact .inr ⟨hiff.mp hd, rfl⟩
  | nan | finite _ _ _ _ =>
    refine .inl ⟨?_, _, rfl⟩
    rw [← Nat.not_le, ← hiff, hd]
    simp

end FieldGate
