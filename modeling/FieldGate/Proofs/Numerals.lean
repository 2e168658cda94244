-- The laws of numerals as an expression writes them: the lexer takes the
-- longest numeral that a text starts with, and the reader gives the digits and
-- the exponent of the whole of it.
import Mathlib
import FieldGate.Number.Numeral
import FieldGate.Path.Token

namespace FieldGate

/-! ## White space and signs -/

section Trimmed

variable {test : Point → Bool} {t : Text}

theorem dropWhile_eq (h : ∀ p ∈ t, test p = false) : t.dropWhile test = t := by
  cases t with
  | nil => rfl
  | cons p t => rw [List.dropWhile_cons_of_neg (by simp [h p])]

theorem dropWhile_reverse_eq (h : ∀ p ∈ t, test p = false) :
    t.reverse.dropWhile test = t.reverse :=
  dropWhile_eq fun p hp => h p (List.mem_reverse.mp hp)

theorem trimmed_eq (h : ∀ p ∈ t, test p = false) : Text.trimmed test t = t := by
  rw [Text.trimmed, dropWhile_eq h, dropWhile_reverse_eq h, List.reverse_reverse]

/-- What satisfies the test goes at both ends. -/
theorem trimmed_append {before after : Text} (hbefore : ∀ p ∈ before, test p = true)
    (h : ∀ p ∈ t, test p = false) (hafter : ∀ p ∈ after, test p = true) :
    Text.trimmed test (before ++ (t ++ after)) = t := by
  rw [Text.trimmed, List.dropWhile_append_of_pos hbefore]
  cases t with
  | nil =>
    rw [List.nil_append, List.dropWhile_eq_nil_iff.mpr hafter]
    rfl
  | cons p t =>
    have hfirst : test p = false := h p List.mem_cons_self
    rw [List.cons_append, List.dropWhile_cons_of_neg (by simp [hfirst]), ← List.cons_append,
      List.reverse_append, List.dropWhile_append_of_pos, dropWhile_reverse_eq h,
      List.reverse_reverse]
    intro q hq
    exact hafter q (List.mem_reverse.mp hq)

/-- A text is what is trimmed from its two ends, and the rest between. -/
theorem trimmed_spec (test : Point → Bool) (t : Text) : ∃ before after,
    t = before ++ (Text.trimmed test t ++ after) ∧ (∀ p ∈ before, test p = true)
      ∧ ∀ p ∈ after, test p = true := by
  refine ⟨t.takeWhile test, ((t.dropWhile test).reverse.takeWhile test).reverse, ?_, ?_, ?_⟩
  · rw [Text.trimmed, ← List.reverse_append, List.takeWhile_append_dropWhile,
      List.reverse_reverse, List.takeWhile_append_dropWhile]
  · exact fun p hp => List.mem_takeWhile_imp hp
  · exact fun p hp => List.mem_takeWhile_imp (List.mem_reverse.mp hp)

end Trimmed

theorem splitSign_eq {t : Text} (h : ∀ p ∈ t, p ≠ '-' ∧ p ≠ '+') : splitSign t = (false, t) := by
  cases t with
  | nil => rfl
  | cons p t =>
    obtain ⟨hminus, hplus⟩ := h p List.mem_cons_self
    rw [splitSign, if_neg hminus, if_neg hplus]

/-! ## Digits -/

/-- The points are decimal digits, and these are their values. -/
def DigitsOf (ds : Text) (vs : List Nat) : Prop := ds.map Point.digit? = vs.map some

theorem digitsOf_nil : DigitsOf [] [] := rfl

theorem digitsOf_cons {p : Point} {v : Nat} {ds : Text} {vs : List Nat} (hp : p.digit? = some v)
    (h : DigitsOf ds vs) : DigitsOf (p :: ds) (v :: vs) := by
  unfold DigitsOf at *
  rw [List.map_cons, List.map_cons, hp, h]

theorem DigitsOf.isDigit {ds : Text} {vs : List Nat} (h : DigitsOf ds vs) :
    ∀ p ∈ ds, p.isDigit = true := by
  intro p hp
  have hmem : p.digit? ∈ vs.map some := h ▸ List.mem_map_of_mem hp
  obtain ⟨v, _, hv⟩ := List.mem_map.mp hmem
  simp [Point.isDigit, ← hv]

theorem DigitsOf.length_eq {ds : Text} {vs : List Nat} (h : DigitsOf ds vs) :
    vs.length = ds.length := by
  simpa using (congrArg List.length h).symm

theorem DigitsOf.eq_nil_iff {ds : Text} {vs : List Nat} (h : DigitsOf ds vs) :
    vs = [] ↔ ds = [] := by
  rw [← List.length_eq_zero_iff, h.length_eq, List.length_eq_zero_iff]

theorem DigitsOf.unique {ds : Text} {vs ws : List Nat} (h : DigitsOf ds vs)
    (h' : DigitsOf ds ws) : vs = ws :=
  List.map_injective_iff.mpr (Option.some_injective Nat) (h.symm.trans h')

/-- A row of digits has values. -/
theorem exists_digitsOf {ds : Text} (h : ∀ p ∈ ds, p.isDigit = true) : ∃ vs, DigitsOf ds vs := by
  induction ds with
  | nil => exact ⟨[], digitsOf_nil⟩
  | cons p ds ih =>
    obtain ⟨vs, hvs⟩ := ih fun q hq => h q (List.mem_cons_of_mem p hq)
    obtain ⟨v, hv⟩ := Option.isSome_iff_exists.mp (h p List.mem_cons_self)
    exact ⟨v :: vs, digitsOf_cons hv hvs⟩

/-! ## The shape of a numeral -/

/-- A fraction and the values of its digits: nothing, or a point and digits. -/
inductive FractionOf : Text → List Nat → Prop
  | none : FractionOf [] []
  | digits {ds : Text} {vs : List Nat} : ds ≠ [] → DigitsOf ds vs → FractionOf ('.' :: ds) vs

/-- The letter in front of an exponent. -/
def IsExponentMark (p : Point) : Prop := p = 'e' ∨ p = 'E'

/-- An exponent and its value: nothing, or a letter, an optional sign and digits. -/
inductive ExponentOf : Text → Int → Prop
  | none : ExponentOf [] 0
  | bare {mark : Point} {ds : Text} {vs : List Nat} : IsExponentMark mark → ds ≠ [] →
      DigitsOf ds vs → ExponentOf (mark :: ds) (numberOfDigits vs)
  | plus {mark : Point} {ds : Text} {vs : List Nat} : IsExponentMark mark → ds ≠ [] →
      DigitsOf ds vs → ExponentOf (mark :: '+' :: ds) (numberOfDigits vs)
  | minus {mark : Point} {ds : Text} {vs : List Nat} : IsExponentMark mark → ds ≠ [] →
      DigitsOf ds vs → ExponentOf (mark :: '-' :: ds) (-(numberOfDigits vs : Int))

/-- A text and the numeral that it is: digits, then a fraction, then an exponent. -/
inductive NumeralOf : Text → Numeral → Prop
  | parts {whole fraction exponent : Text} {ws fs : List Nat} {e : Int} : whole ≠ [] →
      DigitsOf whole ws → FractionOf fraction fs → ExponentOf exponent e →
      NumeralOf (whole ++ (fraction ++ exponent)) ⟨ws, fs, e⟩

theorem numeralOf_digits {w : Text} {vs : List Nat} (hne : w ≠ []) (hds : DigitsOf w vs) :
    NumeralOf w ⟨vs, [], 0⟩ := by
  simpa using NumeralOf.parts hne hds .none .none

/-- What stands behind a whole part, and the values of its digits: nothing, or a point
and any digits. -/
inductive PointedOf : Text → List Nat → Prop
  | none : PointedOf [] []
  | point {ds : Text} {vs : List Nat} : DigitsOf ds vs → PointedOf ('.' :: ds) vs

/-- A text and the numeral that the reader takes it for: digits with an optional point
and fraction, or a point and digits; then an exponent. An expression writes no numeral
that ends or begins with its point. -/
inductive ReadableNumeral : Text → Numeral → Prop
  | whole {whole fraction exponent : Text} {ws fs : List Nat} {e : Int} : whole ≠ [] →
      DigitsOf whole ws → PointedOf fraction fs → ExponentOf exponent e →
      ReadableNumeral (whole ++ (fraction ++ exponent)) ⟨ws, fs, e⟩
  | fraction {ds exponent : Text} {fs : List Nat} {e : Int} : ds ≠ [] → DigitsOf ds fs →
      ExponentOf exponent e → ReadableNumeral ('.' :: (ds ++ exponent)) ⟨[], fs, e⟩

/-! ## Runs of digits -/

theorem not_isDigit_mark {p : Point} (h : IsExponentMark p) : p.isDigit = false := by
  rcases h with rfl | rfl <;> decide +kernel

theorem not_isDigit_dot : Point.isDigit '.' = false := by decide +kernel

theorem not_isDigit_plus : Point.isDigit '+' = false := by decide +kernel

theorem not_isDigit_minus : Point.isDigit '-' = false := by decide +kernel

theorem isMark_test {p : Point} (h : IsExponentMark p) :
    (decide (p = 'e') || decide (p = 'E')) = true := by
  simpa [IsExponentMark] using h

theorem mark_ne_dot {p : Point} (h : IsExponentMark p) : p ≠ '.' := by
  rcases h with rfl | rfl <;> decide

theorem digitRun_le (t : Text) : digitRun t ≤ t.length :=
  (List.takeWhile_prefix Point.isDigit).length_le

theorem digitRun_append_ge {ds : Text} (rest : Text) (h : ∀ p ∈ ds, p.isDigit = true) :
    ds.length ≤ digitRun (ds ++ rest) := by
  unfold digitRun
  rw [List.takeWhile_append_of_pos h, List.length_append]
  omega

/-- A run of digits ends at the first point that is no digit. -/
theorem digitRun_append_stop {ds : Text} {p : Point} (rest : Text)
    (h : ∀ q ∈ ds, q.isDigit = true) (hp : p.isDigit = false) :
    digitRun (ds ++ p :: rest) = ds.length := by
  unfold digitRun
  rw [List.takeWhile_append_of_pos h, List.takeWhile_cons_of_neg (by simp [hp]), List.append_nil]

theorem digitRun_stop {p : Point} (rest : Text) (hp : p.isDigit = false) :
    digitRun (p :: rest) = 0 := by
  rw [digitRun, List.takeWhile_cons_of_neg (by simp [hp]), List.length_nil]

/-- The digits that a text starts with have values. -/
theorem take_digitRun (t : Text) : ∃ vs, DigitsOf (t.take (digitRun t)) vs := by
  apply exists_digitsOf
  intro p hp
  have htake : t.take (digitRun t) = t.takeWhile Point.isDigit :=
    List.prefix_iff_eq_take.mp (List.takeWhile_prefix Point.isDigit) |>.symm
  rw [htake] at hp
  exact List.mem_takeWhile_imp hp

theorem take_digitRun_ne_nil {t : Text} (h : 0 < digitRun t) : t.take (digitRun t) ≠ [] := by
  have := digitRun_le t
  intro hnil
  have hlen := congrArg List.length hnil
  rw [List.length_take, List.length_nil] at hlen
  omega

/-! ## The numeral that a text starts with -/

theorem fractionLength_le (t : Text) : fractionLength t ≤ t.length := by
  cases t with
  | nil => simp [fractionLength]
  | cons p rest =>
    have := digitRun_le rest
    simp only [fractionLength, List.length_cons]
    split <;> omega

theorem exponentLength_le (t : Text) : exponentLength t ≤ t.length := by
  cases t with
  | nil => simp [exponentLength]
  | cons mark rest =>
    have hrest := digitRun_le rest
    simp only [exponentLength, List.length_cons]
    split_ifs with hmark hrun
    · omega
    · cases rest with
      | nil => simp
      | cons sign more =>
        have := digitRun_le more
        simp only [List.length_cons]
        split <;> omega
    · omega

theorem numeralLength_le (t : Text) : numeralLength t ≤ t.length := by
  have hwhole := digitRun_le t
  have hfraction := fractionLength_le (t.drop (digitRun t))
  have hexponent :=
    exponentLength_le (t.drop (digitRun t + fractionLength (t.drop (digitRun t))))
  simp only [List.length_drop] at hfraction hexponent
  simp only [numeralLength]
  omega

theorem fractionOf_take (t : Text) : ∃ vs, FractionOf (t.take (fractionLength t)) vs := by
  cases t with
  | nil => exact ⟨[], by simpa using FractionOf.none⟩
  | cons p rest =>
    simp only [fractionLength]
    split
    · rename_i h
      simp only [Bool.and_eq_true, decide_eq_true_eq] at h
      obtain ⟨vs, hvs⟩ := take_digitRun rest
      refine ⟨vs, ?_⟩
      rw [Nat.add_comm, List.take_succ_cons, h.1]
      exact .digits (take_digitRun_ne_nil h.2) hvs
    · exact ⟨[], by simpa using FractionOf.none⟩

theorem exponentOf_take (t : Text) : ∃ e, ExponentOf (t.take (exponentLength t)) e := by
  cases t with
  | nil => exact ⟨0, by simpa using ExponentOf.none⟩
  | cons mark rest =>
    simp only [exponentLength]
    split_ifs with hmark hrun
    · have hmark' : IsExponentMark mark := by simpa [IsExponentMark] using hmark
      obtain ⟨vs, hvs⟩ := take_digitRun rest
      rw [Nat.add_comm, List.take_succ_cons]
      exact ⟨_, .bare hmark' (take_digitRun_ne_nil hrun) hvs⟩
    · have hmark' : IsExponentMark mark := by simpa [IsExponentMark] using hmark
      cases rest with
      | nil => exact ⟨0, by simpa using ExponentOf.none⟩
      | cons sign more =>
        dsimp only
        split
        · rename_i h
          simp only [Bool.and_eq_true, Bool.or_eq_true, decide_eq_true_eq] at h
          obtain ⟨vs, hvs⟩ := take_digitRun more
          have hne := take_digitRun_ne_nil h.2
          rw [Nat.add_comm, List.take_succ_cons, List.take_succ_cons]
          rcases h.1 with rfl | rfl
          · exact ⟨_, .plus hmark' hne hvs⟩
          · exact ⟨_, .minus hmark' hne hvs⟩
        · exact ⟨0, by simpa using ExponentOf.none⟩
    · exact ⟨0, by simpa using ExponentOf.none⟩

/-- What the lexer takes of a text that starts with a digit is a numeral. -/
theorem numeralOf_take {t : Text} (h : 0 < digitRun t) :
    ∃ n, NumeralOf (t.take (numeralLength t)) n := by
  obtain ⟨ws, hws⟩ := take_digitRun t
  obtain ⟨fs, hfs⟩ := fractionOf_take (t.drop (digitRun t))
  obtain ⟨e, he⟩ :=
    exponentOf_take (t.drop (digitRun t + fractionLength (t.drop (digitRun t))))
  refine ⟨⟨ws, fs, e⟩, ?_⟩
  have hsplit := NumeralOf.parts (take_digitRun_ne_nil h) hws hfs he
  unfold numeralLength
  rw [List.take_add, List.take_add, List.append_assoc, ← List.drop_drop]
  rwa [← List.drop_drop] at hsplit

theorem exponentLength_append_ge {exponent : Text} {e : Int} (rest : Text)
    (h : ExponentOf exponent e) :
    exponent.length ≤ exponentLength (exponent ++ rest) := by
  cases h with
  | none => exact Nat.zero_le _
  | @bare mark ds vs hmark hne hds =>
    have hrun := digitRun_append_ge rest hds.isDigit
    have hpos := List.length_pos_of_ne_nil hne
    simp only [List.cons_append, exponentLength, isMark_test hmark, if_true, List.length_cons]
    rw [if_pos (by omega)]
    omega
  | @plus mark ds vs hmark hne hds | @minus mark ds vs hmark hne hds =>
    have hrun := digitRun_append_ge rest hds.isDigit
    have hpos := List.length_pos_of_ne_nil hne
    simp only [List.cons_append, exponentLength, isMark_test hmark, if_true, List.length_cons]
    rw [digitRun_stop _ (by decide +kernel), if_neg (by omega), if_pos (by simp; omega)]
    omega

theorem exponentOf_head {exponent : Text} {e : Int} (h : ExponentOf exponent e) :
    exponent = [] ∨ ∃ mark more, exponent = mark :: more ∧ IsExponentMark mark := by
  cases h with
  | none => exact .inl rfl
  | bare hmark | plus hmark | minus hmark => exact .inr ⟨_, _, rfl, hmark⟩

/-- No numeral that a text starts with is longer than the one that the lexer
takes. -/
theorem numeralLength_append_ge {w : Text} {n : Numeral} (rest : Text) (h : NumeralOf w n) :
    w.length ≤ numeralLength (w ++ rest) := by
  obtain ⟨hne, hwhole, hfraction, hexponent⟩ := h
  rename_i whole fraction exponent ws fs e
  simp only [numeralLength, List.append_assoc, List.length_append]
  cases hfraction with
  | none =>
    rcases exponentOf_head hexponent with rfl | ⟨mark, more, rfl, hmark⟩
    · have := digitRun_append_ge rest hwhole.isDigit
      simp only [List.nil_append, List.length_nil]
      omega
    · have hlength := exponentLength_append_ge rest hexponent
      have hfraction : fractionLength (mark :: (more ++ rest)) = 0 := by
        simp [fractionLength, mark_ne_dot hmark]
      simp only [List.nil_append, List.cons_append, List.length_nil] at hlength ⊢
      rw [digitRun_append_stop _ hwhole.isDigit (not_isDigit_mark hmark), List.drop_left, hfraction,
        Nat.add_zero, List.drop_left]
      omega
  | @digits ds _ hds hvs =>
    have hpos := List.length_pos_of_ne_nil hds
    have hdigits := digitRun_append_ge (exponent ++ rest) hvs.isDigit
    have hfraction : fractionLength ('.' :: (ds ++ (exponent ++ rest)))
        = 1 + digitRun (ds ++ (exponent ++ rest)) := by
      simp only [fractionLength]
      rw [if_pos (by simp; omega)]
    simp only [List.cons_append, List.length_cons]
    rw [digitRun_append_stop _ hwhole.isDigit not_isDigit_dot, List.drop_left, hfraction]
    rcases exponentOf_head hexponent with rfl | ⟨mark, more, rfl, hmark⟩
    · simp only [List.length_nil]
      omega
    · have hlength := exponentLength_append_ge rest hexponent
      have hrun := digitRun_append_stop (more ++ rest) hvs.isDigit (not_isDigit_mark hmark)
      simp only [List.cons_append] at hlength ⊢
      rw [hrun, ← List.drop_drop, List.drop_left, Nat.add_comm 1, List.drop_succ_cons,
        List.drop_left]
      omega

/-! ## Reading a numeral -/

theorem splitDigits_append {ds : Text} {vs : List Nat} (rest : Text) (h : DigitsOf ds vs)
    (hrest : ∀ p ∈ rest.head?, p.isDigit = false) : splitDigits (ds ++ rest) = (vs, rest) := by
  induction ds generalizing vs with
  | nil =>
    obtain rfl : vs = [] := by simpa using h.length_eq
    cases rest with
    | nil => rfl
    | cons p rest =>
      have hp : p.digit? = none := by simpa [Point.isDigit] using hrest p rfl
      simp [splitDigits, hp]
  | cons p ds ih =>
    cases vs with
    | nil => simpa using h.length_eq
    | cons v vs =>
      unfold DigitsOf at h
      simp only [List.map_cons, List.cons.injEq] at h
      rw [List.cons_append, splitDigits, h.1, ih h.2]

theorem splitDigits_digits {ds : Text} {vs : List Nat} (h : DigitsOf ds vs) :
    splitDigits ds = (vs, []) := by
  simpa using splitDigits_append [] h (by simp)

theorem digit?_lt {p : Point} {v : Nat} (h : p.digit? = some v) : v < 10 := by
  obtain ⟨z, hz, rfl⟩ := Option.map_eq_some_iff.mp h
  have hin := List.find?_some hz
  simp only [Bool.and_eq_true, decide_eq_true_eq] at hin
  omega

theorem splitDigits_lt (t : Text) : ∀ v ∈ (splitDigits t).1, v < 10 := by
  fun_induction splitDigits t with
  | case1 => simp
  | case2 p rest d hd ds tail hsplit ih =>
    rw [hsplit] at ih
    simp only [List.mem_cons, forall_eq_or_imp]
    exact ⟨digit?_lt hd, ih⟩
  | case3 => simp

theorem onlyDigits?_digits {ds : Text} {vs : List Nat} (hne : ds ≠ []) (h : DigitsOf ds vs) :
    onlyDigits? ds = some (numberOfDigits vs) := by
  have hpos : 0 < vs.length := h.length_eq ▸ List.length_pos_of_ne_nil hne
  obtain ⟨v, vs, rfl⟩ := List.exists_cons_of_length_pos hpos
  unfold onlyDigits?
  rw [splitDigits_digits h]

theorem readExponent?_exponent {t : Text} {e : Int} (h : ExponentOf t e) :
    readExponent? t = some e := by
  cases h with
  | none => rfl
  | @bare mark ds vs hmark hne hds =>
    have honly := onlyDigits?_digits hne hds
    obtain ⟨d, more, rfl⟩ := List.exists_cons_of_ne_nil hne
    have hd : d.isDigit = true := hds.isDigit d List.mem_cons_self
    have hminus : d ≠ '-' := by rintro rfl; simp [not_isDigit_minus] at hd
    have hplus : d ≠ '+' := by rintro rfl; simp [not_isDigit_plus] at hd
    simp [readExponent?, isMark_test hmark, hminus, hplus, honly]
  | @plus mark ds vs hmark hne hds =>
    have hsign : (Point.ofChar '+') ≠ '-' := by decide
    simp [readExponent?, isMark_test hmark, hsign, onlyDigits?_digits hne hds]
  | @minus mark ds vs hmark hne hds =>
    simp [readExponent?, isMark_test hmark, onlyDigits?_digits hne hds]

/-! ## The numerals that the reader takes -/

theorem not_isDigit_exponent {exponent : Text} {e : Int} (h : ExponentOf exponent e) :
    ∀ p ∈ exponent.head?, p.isDigit = false := by
  rcases exponentOf_head h with rfl | ⟨mark, more, rfl, hmark⟩
  · simp
  · simp [not_isDigit_mark hmark]

/-- A text is the digits at its front and a rest that does not start with one. -/
theorem splitDigits_spec (t : Text) :
    ∃ ds, t = ds ++ (splitDigits t).2 ∧ DigitsOf ds (splitDigits t).1
      ∧ ∀ p ∈ (splitDigits t).2.head?, p.isDigit = false := by
  fun_induction splitDigits t with
  | case1 => exact ⟨[], rfl, digitsOf_nil, by simp⟩
  | case2 p rest d hd vs tail hsplit ih =>
    rw [hsplit] at ih
    obtain ⟨ds, hrest, hds, htail⟩ := ih
    refine ⟨p :: ds, ?_, digitsOf_cons hd hds, htail⟩
    rw [hrest]
    rfl
  | case3 p rest hp =>
    refine ⟨[], rfl, digitsOf_nil, ?_⟩
    simp [Point.isDigit, hp]

theorem onlyDigits?_some {t : Text} {n : Nat} (h : onlyDigits? t = some n) :
    ∃ vs, t ≠ [] ∧ DigitsOf t vs ∧ n = numberOfDigits vs := by
  obtain ⟨ds, ht, hds, -⟩ := splitDigits_spec t
  unfold onlyDigits? at h
  split at h
  · rename_i v vs hsplit
    rw [hsplit] at ht hds
    rw [List.append_nil] at ht
    subst ht
    exact ⟨v :: vs, mt hds.eq_nil_iff.mpr (List.cons_ne_nil v vs), hds, (Option.some.inj h).symm⟩
  · cases h

theorem exponentOf_of_readExponent? {t : Text} {e : Int} (h : readExponent? t = some e) :
    ExponentOf t e := by
  rcases t with _ | ⟨mark, rest⟩
  · obtain rfl := Option.some.inj h
    exact .none
  · simp only [readExponent?] at h
    split_ifs at h with hmark
    have hmark' : IsExponentMark mark := by simpa [IsExponentMark] using hmark
    rcases rest with _ | ⟨sign, more⟩
    · cases h
    · simp only at h
      split_ifs at h with hminus hplus
      all_goals
        obtain ⟨n, hn, rfl⟩ := Option.map_eq_some_iff.mp h
        obtain ⟨k, hk, hkn⟩ := Option.bind_eq_some_iff.mp hn
        obtain rfl := Option.some.inj hkn
        obtain ⟨vs, hne, hds, rfl⟩ := onlyDigits?_some hk
      · exact hminus ▸ .minus hmark' hne hds
      · exact hplus ▸ .plus hmark' hne hds
      · exact .bare hmark' hne hds

/-- The reader gives the numeral that it can take the whole text for. -/
theorem read?_readable {t : Text} {n : Numeral} (h : ReadableNumeral t n) :
    Numeral.read? t = some n := by
  cases h with
  | @whole whole fraction exponent ws fs e hne hwhole hfraction hexponent =>
    have hws : ws ≠ [] := mt hwhole.eq_nil_iff.mp hne
    have hread := readExponent?_exponent hexponent
    cases hfraction with
    | none =>
      rcases exponentOf_head hexponent with rfl | ⟨mark, more, rfl, hmark⟩
      · obtain rfl : 0 = e := by simpa [readExponent?] using hread
        simp [Numeral.read?, splitDigits_digits hwhole, hws]
      · have hsplit := splitDigits_append (mark :: more) hwhole
          (by simp [not_isDigit_mark hmark])
        simp [Numeral.read?, hsplit, mark_ne_dot hmark, hws, hread]
    | @point ds vs hvs =>
      have hsplit := splitDigits_append ('.' :: (ds ++ exponent)) hwhole
        (by simp [not_isDigit_dot])
      have hrest := splitDigits_append exponent hvs (not_isDigit_exponent hexponent)
      simp [Numeral.read?, hsplit, hrest, hws, hread]
  | @fraction ds exponent fs e hne hds hexponent =>
    have hfs : fs ≠ [] := mt hds.eq_nil_iff.mp hne
    have hsplit := splitDigits_append ('.' :: (ds ++ exponent)) digitsOf_nil
      (by simp [not_isDigit_dot])
    have hrest := splitDigits_append exponent hds (not_isDigit_exponent hexponent)
    rw [List.nil_append] at hsplit
    simp [Numeral.read?, hsplit, hrest, hfs, readExponent?_exponent hexponent]

/-- What the reader takes for a numeral is one. -/
theorem readable_of_read? {t : Text} {n : Numeral} (h : Numeral.read? t = some n) :
    ReadableNumeral t n := by
  obtain ⟨whole, ht, hwhole, -⟩ := splitDigits_spec t
  unfold Numeral.read? at h
  split at h
  · rename_i ws p after hsplit
    rw [hsplit] at ht hwhole
    have hnonempty : ws ≠ [] → whole ≠ [] := mt hwhole.eq_nil_iff.mpr
    split_ifs at h with hdot hws
    · obtain ⟨ds, hafter, hds, -⟩ := splitDigits_spec after
      dsimp only at h
      split_ifs at h with hempty
      obtain ⟨e, he, rfl⟩ := Option.map_eq_some_iff.mp h
      have hexponent := exponentOf_of_readExponent? he
      by_cases hws : ws = []
      · subst hws
        obtain rfl : whole = [] := hwhole.eq_nil_iff.mp rfl
        have hds' : ds ≠ [] := mt hds.eq_nil_iff.mpr (by simpa using hempty)
        have hnumeral := ReadableNumeral.fraction hds' hds hexponent
        rw [← hafter] at hnumeral
        rw [ht, hdot]
        exact hnumeral
      · have hnumeral := ReadableNumeral.whole (hnonempty hws) hwhole (.point hds) hexponent
        rw [List.cons_append, ← hafter] at hnumeral
        rw [ht, hdot]
        exact hnumeral
    · obtain ⟨e, he, rfl⟩ := Option.map_eq_some_iff.mp h
      have hexponent := exponentOf_of_readExponent? he
      have hnumeral := ReadableNumeral.whole (hnonempty (by simpa using hws)) hwhole .none hexponent
      rw [ht]
      exact hnumeral
  · rename_i ws hsplit
    rw [hsplit] at ht hwhole
    rw [List.append_nil] at ht
    split_ifs at h with hws
    obtain rfl := Option.some.inj h
    have hne : whole ≠ [] := mt hwhole.eq_nil_iff.mpr (by simpa using hws)
    have hnumeral := ReadableNumeral.whole hne hwhole .none .none
    rw [List.append_nil, List.append_nil] at hnumeral
    rw [ht]
    exact hnumeral

theorem NumeralOf.readable {w : Text} {n : Numeral} (h : NumeralOf w n) : ReadableNumeral w n := by
  obtain ⟨hne, hwhole, hfraction, hexponent⟩ := h
  refine .whole hne hwhole ?_ hexponent
  cases hfraction with
  | none => exact .none
  | digits _ hds => exact .point hds

/-- The reader gives the numeral that the whole text is. -/
theorem read?_numeral {w : Text} {n : Numeral} (h : NumeralOf w n) :
    Numeral.read? w = some n :=
  read?_readable h.readable

theorem NumeralOf.unique {w : Text} {m n : Numeral} (hm : NumeralOf w m) (hn : NumeralOf w n) :
    m = n :=
  Option.some.inj ((read?_numeral hm).symm.trans (read?_numeral hn))

end FieldGate
