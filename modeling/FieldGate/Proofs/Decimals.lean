-- The laws of decimal notation: the digits of a number have it as their value,
-- and they are as many as the powers of ten that it reaches.
import FieldGate.Number.Decimal
import FieldGate.Proofs.Numerals

namespace FieldGate

/-! ## The digits of a number -/

theorem numberOfDigits_append_one (ds : List Nat) (d : Nat) :
    numberOfDigits (ds ++ [d]) = 10 * numberOfDigits ds + d := by
  simp [numberOfDigits, List.foldl_append]

/-- A row of digits stays below the power of ten that its length names. -/
theorem numberOfDigits_lt {vs : List Nat} (h : ∀ v ∈ vs, v < 10) :
    numberOfDigits vs < 10 ^ vs.length := by
  induction vs using List.reverseRecOn with
  | nil => simp [numberOfDigits]
  | append_singleton vs v ih =>
    have hvs := ih fun w hw => h w (List.mem_append_left _ hw)
    have hv := h v (by simp)
    rw [numberOfDigits_append_one, List.length_append, List.length_singleton, pow_succ]
    omega

theorem numberOfDigits_digitsWithin {fuel n : Nat} (h : n < 10 ^ fuel) :
    numberOfDigits (digitsWithin fuel n) = n := by
  induction fuel generalizing n with
  | zero =>
    obtain rfl : n = 0 := by simpa using h
    rfl
  | succ fuel ih =>
    unfold digitsWithin
    split
    · simp [numberOfDigits]
    · have hrest : n / 10 < 10 ^ fuel := by
        rw [pow_succ] at h
        omega
      rw [numberOfDigits_append_one, ih hrest]
      omega

theorem digitsWithin_lt (fuel n : Nat) : ∀ d ∈ digitsWithin fuel n, d < 10 := by
  induction fuel generalizing n with
  | zero => simp [digitsWithin]
  | succ fuel ih =>
    unfold digitsWithin
    split
    · simpa
    · intro d hd
      rcases List.mem_append.mp hd with hd | hd
      · exact ih _ d hd
      · have := List.mem_singleton.mp hd
        omega

theorem digitsWithin_ne_nil (fuel n : Nat) : digitsWithin (fuel + 1) n ≠ [] := by
  unfold digitsWithin
  split <;> simp

theorem digitsWithin_length_le_iff {fuel n k : Nat} (h : n < 10 ^ (fuel + 1)) :
    (digitsWithin (fuel + 1) n).length ≤ k + 1 ↔ n < 10 ^ (k + 1) := by
  induction fuel generalizing n k with
  | zero =>
    have hten : n < 10 := by simpa using h
    have hpow : 10 ≤ 10 ^ (k + 1) := Nat.le_self_pow (by omega) 10
    simp only [digitsWithin, if_pos hten, List.length_singleton]
    omega
  | succ fuel ih =>
    unfold digitsWithin
    split
    · have hpow : 10 ≤ 10 ^ (k + 1) := Nat.le_self_pow (by omega) 10
      simp only [List.length_singleton]
      omega
    · rename_i hlarge
      have hrest : n / 10 < 10 ^ (fuel + 1) := by
        rw [pow_succ] at h
        omega
      rw [List.length_append, List.length_singleton]
      cases k with
      | zero =>
        have hpos := List.length_pos_of_ne_nil (digitsWithin_ne_nil fuel (n / 10))
        simp only [zero_add, pow_one]
        omega
      | succ k =>
        rw [Nat.add_le_add_iff_right, ih hrest, pow_succ 10 (k + 1)]
        omega

theorem lt_ten_pow_succ (n : Nat) : n < 10 ^ (n + 1) :=
  (Nat.lt_pow_self (by decide)).trans (Nat.pow_lt_pow_right (by decide) (Nat.lt_succ_self n))

theorem numberOfDigits_decimalDigits (n : Nat) : numberOfDigits (decimalDigits n) = n :=
  numberOfDigits_digitsWithin (lt_ten_pow_succ n)

theorem decimalDigits_ne_nil (n : Nat) : decimalDigits n ≠ [] :=
  digitsWithin_ne_nil n n

/-- A number has at most so many digits when it lies below that power of ten. -/
theorem decimalDigits_length_le_iff {n k : Nat} :
    (decimalDigits n).length ≤ k + 1 ↔ n < 10 ^ (k + 1) :=
  digitsWithin_length_le_iff (lt_ten_pow_succ n)

theorem lt_ten_pow_length (n : Nat) : n < 10 ^ (decimalDigits n).length := by
  have hpos := List.length_pos_of_ne_nil (decimalDigits_ne_nil n)
  have hlength : (decimalDigits n).length - 1 + 1 = (decimalDigits n).length := by omega
  have hiff := decimalDigits_length_le_iff (n := n) (k := (decimalDigits n).length - 1)
  rw [hlength] at hiff
  exact hiff.mp (Nat.le_refl _)

/-- The leading digit of a number other than zero is not zero. -/
theorem ten_pow_le {n : Nat} (h : n ≠ 0) : 10 ^ ((decimalDigits n).length - 1) ≤ n := by
  by_cases hone : (decimalDigits n).length ≤ 1
  · have hzero : (decimalDigits n).length - 1 = 0 := by omega
    rw [hzero]
    exact Nat.pos_of_ne_zero h
  · obtain ⟨k, hk⟩ : ∃ k, (decimalDigits n).length = k + 1 + 1 :=
      ⟨(decimalDigits n).length - 2, by omega⟩
    have hmany : ¬(decimalDigits n).length ≤ k + 1 := by omega
    rw [decimalDigits_length_le_iff, Nat.not_lt] at hmany
    rw [hk]
    exact hmany

/-- An integer that is read from digits can be written out again. -/
theorem integerOfDigits_lt {digits : List Nat} {n : Nat} (hdigits : ∀ d ∈ digits, d < 10)
    (h : integerOfDigits digits = .ok n) : n < 10 ^ longestNumeral := by
  unfold integerOfDigits at h
  split_ifs at h with hlong
  obtain rfl := Except.ok.inj h
  exact (numberOfDigits_lt hdigits).trans_le
    (Nat.pow_le_pow_right (by decide) (Nat.le_of_not_lt hlong))

/-! ## The numeral of a number -/

theorem natAbs_signed (negative : Bool) (n : Nat) : (signed negative n).natAbs = n := by
  unfold signed
  split
  · rw [Int.natAbs_neg, Int.natAbs_natCast]
  · rw [Int.natAbs_natCast]

theorem signed_natAbs (n : Int) : signed (n < 0) n.natAbs = n := by
  by_cases h : n < 0
  · rw [signed, decide_eq_true h, if_pos rfl, Int.ofNat_natAbs_of_nonpos h.le, Int.neg_neg]
  · rw [signed, decide_eq_false h, if_neg Bool.false_ne_true, Int.natAbs_of_nonneg (not_lt.mp h)]

theorem signed_mul (negative : Bool) (n k : Nat) :
    signed negative (n * k) = signed negative n * k := by
  unfold signed
  split_ifs
  · rw [Int.natCast_mul, Int.neg_mul]
  · rw [Int.natCast_mul]

theorem digit?_ofDigit : ∀ d < 10, (Point.ofDigit d).digit? = some d := by
  decide +kernel

theorem digitsOf_ofDigit {ds : List Nat} (h : ∀ d ∈ ds, d < 10) :
    DigitsOf (ds.map Point.ofDigit) ds := by
  induction ds with
  | nil => exact digitsOf_nil
  | cons d ds ih =>
    exact digitsOf_cons (digit?_ofDigit d (h d List.mem_cons_self))
      (ih fun e he => h e (List.mem_cons_of_mem d he))

theorem digitsOf_decimal (n : Nat) : DigitsOf (decimal n) (decimalDigits n) :=
  digitsOf_ofDigit (digitsWithin_lt (n + 1) n)

theorem decimal_ne_nil (n : Nat) : decimal n ≠ [] := by
  unfold decimal
  simpa using decimalDigits_ne_nil n

end FieldGate
