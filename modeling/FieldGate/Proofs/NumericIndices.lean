-- Numerals as indices: digits alone are read exactly, and any other numeral is rounded to
-- a double, which is an index when it is whole. So a numeral that is no integer may be
-- taken for one, and an integer for another.
import FieldGate.Proofs.CorrectRounding
import FieldGate.Proofs.DecimalEquality
import FieldGate.Proofs.PathConcatenation
import FieldGate.Proofs.Thresholds

namespace FieldGate

/-! ## The index that a numeral stands for -/

/-- A numeral with its text, and the index that it stands for: its exact value when it is
digits alone; otherwise the double nearest to its exact value, if the value is in the range
of the doubles and the double is a whole number. -/
inductive IndexOf (w : Text) (n : Numeral) : Nat → Prop
  | digits {k : Nat} : (∀ p ∈ w, p.isDigit = true) → n.value = k → IndexOf w n k
  | double {m s k : Nat} : (∃ p ∈ w, p.isDigit = false) → n.value < rangeOfDoubles →
      IsNearestDouble n.value m s → doubleSize m s = k → IndexOf w n k

theorem value_digits (vs : List Nat) : Numeral.value ⟨vs, [], 0⟩ = numberOfDigits vs := by
  simp [Numeral.value, Numeral.coefficient, Numeral.scale]

/-- The double of a numeral is an index when the one nearest to its exact value is. -/
theorem isNat_toDouble_iff {n : Numeral} {k : Nat} :
    (n.toDouble false).IsNat k
      ↔ n.value < rangeOfDoubles ∧ ∃ m s, IsNearestDouble n.value m s ∧ doubleSize m s = k := by
  unfold Numeral.toDouble Numeral.value
  rcases ofDecimal_nearest false n.coefficient n.scale with
    ⟨hrange, m, s, fits, hdouble, hnearest⟩ | ⟨hbeyond, hdouble⟩
  · constructor
    · rintro ⟨m', s', fits', hfinite, hsize⟩
      obtain ⟨-, rfl, rfl⟩ := Double.finite.inj (hdouble.symm.trans hfinite)
      exact ⟨hrange, _, _, hnearest, doubleSize_eq_natCast_iff.mpr hsize⟩
    · rintro ⟨-, m', s', hnearest', hsize⟩
      rw [← hnearest.unique hnearest'] at hsize
      exact ⟨m, s, fits, hdouble, doubleSize_eq_natCast_iff.mp hsize⟩
  · constructor
    · rintro ⟨m', s', fits', hfinite, -⟩
      cases hdouble.symm.trans hfinite
    · rintro ⟨hrange, -⟩
      exact absurd hrange hbeyond.not_gt

theorem stepOf_number_iff {w : Text} {n : Numeral} {step : Step} (hn : NumeralOf w n) :
    StepOf (.number, w) step ↔ ∃ k, step = .index k ∧ IndexOf w n k := by
  constructor
  · intro h
    cases h with
    | digits hne hds =>
      obtain rfl := hn.unique (numeralOf_digits hne hds)
      exact ⟨_, rfl, .digits hds.isDigit (value_digits _)⟩
    | double hn' hmark hk =>
      obtain rfl := hn.unique hn'
      obtain ⟨hrange, m, s, hnearest, hsize⟩ := isNat_toDouble_iff.mp hk
      exact ⟨_, rfl, .double hmark hrange hnearest hsize⟩
  · rintro ⟨k, rfl, h⟩
    cases h with
    | digits hall hvalue =>
      obtain ⟨vs, hds⟩ := exists_digitsOf hall
      obtain ⟨p, rest, rfl, -⟩ := numeralOf_head hn
      obtain rfl := hn.unique (numeralOf_digits (List.cons_ne_nil p rest) hds)
      rw [value_digits, Nat.cast_inj] at hvalue
      rw [← hvalue]
      exact .digits (List.cons_ne_nil p rest) hds
    | double hmark hrange hnearest hsize =>
      exact .double hn hmark (isNat_toDouble_iff.mpr ⟨hrange, _, _, hnearest, hsize⟩)

theorem isNat_iff_place {d : Double} {k : Nat} (hd : d.HasSign false) :
    d.IsNat k ↔ d.place? = some (.units (k * unitsPerOne)) := by
  cases d with
  | nan => cases hd
  | infinite negative =>
    obtain rfl : negative = false := hd
    constructor
    · rintro ⟨m, s, fits, hfinite, -⟩
      cases hfinite
    · intro hplace
      cases Option.some.inj hplace
  | finite negative m s fits =>
    obtain rfl : negative = false := hd
    rw [Double.place?, Option.some.injEq, Place.units.injEq, signed, if_neg Bool.false_ne_true]
    constructor
    · rintro ⟨m', s', fits', hfinite, hsize⟩
      obtain ⟨-, rfl, rfl⟩ := Double.finite.inj hfinite
      exact_mod_cast hsize
    · intro hsize
      exact ⟨m, s, fits, rfl, by exact_mod_cast hsize⟩

/-- A numeral that is a whole number stands for that number if it is digits alone, or if
53 bits suffice for the number. -/
theorem indexOf_value_iff {w : Text} {n : Numeral} {k : Nat} (hvalue : n.value = k) :
    IndexOf w n k ↔ (∀ p ∈ w, p.isDigit = true) ∨ k < rangeOfDoubles ∧ HasFewBits k := by
  have hdouble : (n.toDouble false).IsNat k ↔ k < rangeOfDoubles ∧ HasFewBits k := by
    unfold Numeral.toDouble
    rw [ofDecimal_whole false hvalue, isNat_iff_place (ofRatio_hasSign false k 1), place?_ofRatio,
      Option.some.injEq, units_eq_roundedPlace_iff, signed, if_neg Bool.false_ne_true, Nat.cast_inj,
      eq_comm, roundedToBits_eq_self_iff]
  constructor
  · intro h
    cases h with
    | digits hall _ => exact .inl hall
    | double _ hrange hnearest hsize =>
      exact .inr (hdouble.mp (isNat_toDouble_iff.mpr ⟨hrange, _, _, hnearest, hsize⟩))
  · by_cases hall : ∀ p ∈ w, p.isDigit = true
    · exact fun _ => .digits hall hvalue
    · rintro (hdigits | hfew)
      · exact absurd hdigits hall
      · have hmark : ∃ p ∈ w, p.isDigit = false := by simpa using hall
        obtain ⟨hrange, m, s, hnearest, hsize⟩ := isNat_toDouble_iff.mp (hdouble.mpr hfew)
        exact .double hmark hrange hnearest hsize

/-! ## Numerals in brackets -/

/-- The tokens before and behind a literal in brackets, and the steps that they stand for:
before the bracket nothing or a path, and behind it any accesses. A comma may stand behind
the literal that the expression starts with. -/
inductive Brackets : List Lexeme → List Lexeme → List Step → List Step → Prop
  | head {opener closer : Text} {after : List Lexeme} {others : List Step} :
      AccessorsOf after others →
      Brackets [(.openBracket, opener)] ((.closeBracket, closer) :: after) [] others
  | comma {opener mark closer : Text} {after : List Lexeme} {others : List Step} :
      AccessorsOf after others →
      Brackets [(.openBracket, opener)] ((.comma, mark) :: (.closeBracket, closer) :: after) []
        others
  | behind {opener closer : Text} {before after : List Lexeme} {steps others : List Step} :
      PathOf before steps → AccessorsOf after others →
      Brackets (before ++ [(.openBracket, opener)]) ((.closeBracket, closer) :: after) steps others

section Brackets

variable {before after : List Lexeme} {steps others : List Step}

/-- With a literal between them they are a path. -/
theorem Brackets.pathOf {l : Lexeme} {step : Step} (h : Brackets before after steps others)
    (hstep : StepOf l step) : PathOf (before ++ l :: after) (steps ++ step :: others) := by
  cases h with
  | head haccessors => exact .bracket hstep haccessors
  | comma haccessors => exact .comma hstep haccessors
  | behind hpath haccessors =>
    rw [List.append_assoc]
    exact hpath.append (.bracket hstep haccessors)

theorem AccessorsOf.next {ls : List Lexeme} (opener : Text) (h : AccessorsOf ls steps) :
    AccessNext (ls ++ [(.openBracket, opener)]) := by
  induction h with
  | nil => exact .opened
  | dot _ ih => exact .dot ih
  | bracket hstep _ ih => exact .bracket hstep ih

/-- Behind them the compiler reads a literal. -/
theorem Brackets.next (h : Brackets before after steps others) : LiteralNext before := by
  cases h with
  | head _ | comma _ => exact .shorthand .first
  | @behind opener _ _ _ _ _ hpath _ =>
    cases hpath with
    | name haccessors => exact .name (haccessors.next opener)
    | bracket hstep haccessors => exact .bracket hstep (haccessors.next opener)
    | comma hstep haccessors => exact .comma hstep (haccessors.next opener)

end Brackets

/-- Each numeral among accesses stands for a step. -/
theorem AccessorsOf.number {w : Text} {ls : List Lexeme} {steps : List Step}
    (h : AccessorsOf ls steps) (hw : (.number, w) ∈ ls) : ∃ step, StepOf (.number, w) step := by
  induction h with
  | nil => cases hw
  | dot _ ih =>
    simp only [List.mem_cons, Prod.mk.injEq, reduceCtorEq, false_and, false_or] at hw
    exact ih hw
  | bracket hstep _ ih =>
    simp only [List.mem_cons, Prod.mk.injEq, reduceCtorEq, false_and, false_or] at hw
    rcases hw with rfl | hw
    · exact ⟨_, hstep⟩
    · exact ih hw

/-- Each numeral in a path stands for a step. -/
theorem PathOf.number {w : Text} {ls : List Lexeme} {steps : List Step} (h : PathOf ls steps)
    (hw : (.number, w) ∈ ls) : ∃ step, StepOf (.number, w) step := by
  cases h with
  | name haccessors =>
    simp only [List.mem_cons, Prod.mk.injEq, reduceCtorEq, false_and, false_or] at hw
    exact haccessors.number hw
  | bracket hstep haccessors | comma hstep haccessors =>
    simp only [List.mem_cons, Prod.mk.injEq, reduceCtorEq, false_and, false_or] at hw
    rcases hw with rfl | hw
    · exact ⟨_, hstep⟩
    · exact haccessors.number hw

/-! ## The law of numeric indices -/

section Law

variable {w e : Text} {n : Numeral} {before after : List Lexeme} {steps others : List Step}
  (hn : NumeralOf w n) (hbrackets : Brackets before after steps others)
  (hsplits : Splits e (before ++ (.number, w) :: after))
  (hshort : ∀ l ∈ before ++ after, ¬IsLongIndex l)

include hn hbrackets hsplits hshort in
theorem compilePath_index_iff {k : Nat} :
    compilePath (.text e) = .ok ⟨e, steps ++ .index k :: others⟩
      ↔ IndexOf w n k ∧ ¬IsLongIndex (.number, w) := by
  have hmem : (TokenKind.number, w) ∈ before ++ (.number, w) :: after := by simp
  have haccepts {j : Nat} (hj : IndexOf w n j) (hlong : ¬IsLongIndex (.number, w)) :
      compilePath (.text e) = .ok ⟨e, steps ++ .index j :: others⟩ := by
    have hstep := (stepOf_number_iff hn).mpr ⟨j, rfl, hj⟩
    refine compilePath_of_pathOf hsplits ?_ (hbrackets.pathOf hstep)
    rw [List.forall_mem_append] at hshort ⊢
    exact ⟨hshort.1, List.forall_mem_cons.mpr ⟨hlong, hshort.2⟩⟩
  constructor
  · intro h
    obtain ⟨ls, hls, hreads, hpath⟩ := pathOf_of_compilePath h
    obtain rfl := hsplits.unique hls
    have hlong := hreads _ hmem
    obtain ⟨step, hstep⟩ := hpath.number hmem
    obtain ⟨j, rfl, hj⟩ := (stepOf_number_iff hn).mp hstep
    have hsame := Except.ok.inj ((haccepts hj hlong).symm.trans h)
    obtain ⟨hindex, -⟩ := List.cons.inj (List.append_cancel_left (Path.mk.inj hsame).2)
    obtain rfl := Step.index.inj hindex
    exact ⟨hj, hlong⟩
  · exact fun h => haccepts h.1 h.2

include hn hsplits hshort in
theorem compilePath_no_index (hnone : ∀ k, ¬IndexOf w n k) :
    ∃ f, compilePath (.text e) = .error f ∧ f.RefusesPath e := by
  have hmeaningless : ∀ step, ¬StepOf (.number, w) step := by
    intro step hstep
    obtain ⟨k, -, hk⟩ := (stepOf_number_iff hn).mp hstep
    exact hnone k hk
  rcases compilePath_cases (.text e) with ⟨p, hp, -⟩ | hrefused | ⟨m, hm⟩
  · obtain ⟨ls, hls, -, hpath⟩ := pathOf_of_compilePath hp
    obtain rfl := hsplits.unique hls
    obtain ⟨step, hstep⟩ := hpath.number (w := w) (by simp)
    exact absurd hstep (hmeaningless step)
  · exact hrefused
  · -- A long index is digits alone, so it cannot be the numeral.
    obtain ⟨_, ⟨⟩, ls, hls, front, w', back, hfront, -, -, hlong, -⟩ := compilePath_mishap_iff.mp hm
    obtain rfl := hsplits.unique hls
    have hmem : (TokenKind.number, w') ∈ before ++ (.number, w) :: after := by
      rw [hfront]
      simp
    rw [List.mem_append, List.mem_cons, or_left_comm, ← List.mem_append] at hmem
    rcases hmem with hsame | hmem
    · obtain ⟨-, rfl⟩ := Prod.mk.inj hsame
      obtain ⟨-, ⟨vs, hds⟩, hlength⟩ := hlong
      have hne : w' ≠ [] := List.ne_nil_of_length_pos (Nat.zero_lt_of_lt hlength)
      exact absurd (.digits hne hds) (hmeaningless _)
    · exact absurd hlong (hshort _ hmem)

end Law

/-- A numeral in brackets that is digits alone is an index with its exact value, unless it
has more digits than can be read: that is a mishap. Any other numeral is an index when the
double nearest to its exact value is a whole number, and the index is that number; if there
is no such double, the expression is refused. So a whole value comes out as it is when the
numeral is digits alone, or when 53 bits suffice for the value. -/
theorem an_index_is_its_digits_or_the_nearest_double {w e : Text} {n : Numeral}
    {before after : List Lexeme} {steps others : List Step} (hn : NumeralOf w n)
    (hbrackets : Brackets before after steps others)
    (hsplits : Splits e (before ++ (.number, w) :: after))
    (hshort : ∀ l ∈ before ++ after, ¬IsLongIndex l) :
    (∀ k, compilePath (.text e) = .ok ⟨e, steps ++ .index k :: others⟩
        ↔ IndexOf w n k ∧ ¬IsLongIndex (.number, w))
      ∧ ((∀ k, ¬IndexOf w n k) → ∃ f, compilePath (.text e) = .error f ∧ f.RefusesPath e)
      ∧ (IsLongIndex (.number, w) →
        compilePath (.text e) = .error (.mishap (.numeralTooLong w.length)))
      ∧ ∀ k : Nat, n.value = k →
        (IndexOf w n k ↔ (∀ p ∈ w, p.isDigit = true) ∨ k < rangeOfDoubles ∧ HasFewBits k) := by
  refine ⟨fun k => compilePath_index_iff hn hbrackets hsplits hshort,
    compilePath_no_index hn hsplits hshort, ?_, fun k => indexOf_value_iff⟩
  intro hlong
  have hbefore : ∀ l ∈ before, ¬IsLongIndex l := (List.forall_mem_append.mp hshort).1
  exact compilePath_mishap_iff.mpr
    ⟨e, rfl, _, hsplits, before, w, after, rfl, hbrackets.next, hbefore, hlong, rfl⟩

theorem TokenText.numeralOf {w : Text} {n : Numeral} (h : TokenText .number w)
    (hread : Numeral.read? w = some n) : NumeralOf w n := by
  cases h with
  | number hn =>
    obtain rfl := Option.some.inj ((read?_numeral hn).symm.trans hread)
    exact hn

theorem an_exponent_is_an_index_when_it_is_small :
    NumeralOf "10e1" ⟨[1, 0], [], 1⟩
      ∧ Brackets [(.name, "roles"), (.openBracket, "[")] [(.closeBracket, "]")] [.name "roles"] []
      ∧ Splits "roles[10e1]"
        [(.name, "roles"), (.openBracket, "["), (.number, "10e1"), (.closeBracket, "]")]
      ∧ compilePath (.text "roles[10e1]") = .ok ⟨"roles[10e1]", [.name "roles", .index 100]⟩ := by
  have htokens : tokens "roles[10e1]" = .ok [⟨.name, "roles", 0⟩, ⟨.openBracket, "[", 5⟩,
      ⟨.number, "10e1", 6⟩, ⟨.closeBracket, "]", 10⟩] := by decide +kernel
  have hsplits := splits_of_tokens htokens
  have hnumeral : NumeralOf "10e1" ⟨[1, 0], [], 1⟩ :=
    (hsplits.text (.number, "10e1") (by simp [Token.lexeme])).numeralOf (by decide +kernel)
  have hroles : PathOf [(.name, "roles")] [.name "roles"] := .name .nil
  have hbrackets : Brackets [(.name, "roles"), (.openBracket, "[")] [(.closeBracket, "]")]
      [.name "roles"] [] := Brackets.behind hroles .nil
  have hvalue : Numeral.value ⟨[1, 0], [], 1⟩ = (100 : Nat) := by
    norm_num [Numeral.value, Numeral.coefficient, Numeral.scale, numberOfDigits]
  have hfew : HasFewBits 100 := hasFewBits_of_lt (by decide)
  have hlong : ¬IsLongIndex (.number, "10e1") := fun h => absurd h.2.2 (by decide)
  obtain ⟨haccepts, -, -, hexact⟩ :=
    an_index_is_its_digits_or_the_nearest_double hnumeral hbrackets hsplits
      (by simp [not_long_of_kind])
  have hindex := (hexact 100 hvalue).mpr (.inr ⟨by decide +kernel, hfew⟩)
  exact ⟨hnumeral, hbrackets, hsplits, (haccepts 100).mpr ⟨hindex, hlong⟩⟩

/-- An integer beyond 2^53 comes out as its neighbour, and a number below one as one. -/
theorem an_index_may_be_another_number :
    NumeralOf "9007199254740993.0" ⟨[9, 0, 0, 7, 1, 9, 9, 2, 5, 4, 7, 4, 0, 9, 9, 3], [0], 0⟩
      ∧ Numeral.value ⟨[9, 0, 0, 7, 1, 9, 9, 2, 5, 4, 7, 4, 0, 9, 9, 3], [0], 0⟩ = 9007199254740993
      ∧ compilePath (.text "[9007199254740993.0]")
        = .ok ⟨"[9007199254740993.0]", [.index 9007199254740992]⟩
      ∧ NumeralOf "0.99999999999999999999" ⟨[0], List.replicate 20 9, 0⟩
      ∧ (∀ k : Nat, Numeral.value ⟨[0], List.replicate 20 9, 0⟩ ≠ k)
      ∧ compilePath (.text "[0.99999999999999999999]")
        = .ok ⟨"[0.99999999999999999999]", [.index 1]⟩ := by
  have hwhole : tokens "[9007199254740993.0]" = .ok [⟨.openBracket, "[", 0⟩,
      ⟨.number, "9007199254740993.0", 1⟩, ⟨.closeBracket, "]", 19⟩] := by decide +kernel
  have hfraction : tokens "[0.99999999999999999999]" = .ok [⟨.openBracket, "[", 0⟩,
      ⟨.number, "0.99999999999999999999", 1⟩, ⟨.closeBracket, "]", 23⟩] := by decide +kernel
  have htext := (splits_of_tokens hwhole).text (.number, "9007199254740993.0")
    (by simp [Token.lexeme])
  have htext' := (splits_of_tokens hfraction).text (.number, "0.99999999999999999999")
    (by simp [Token.lexeme])
  refine ⟨htext.numeralOf (by decide +kernel), ?value, compilePath_ok_iff.mpr (by decide +kernel),
    htext'.numeralOf (by decide +kernel), ?fraction, compilePath_ok_iff.mpr (by decide +kernel)⟩
  case value => norm_num [Numeral.value, Numeral.coefficient, Numeral.scale, numberOfDigits]
  case fraction =>
    intro k hk
    have hpositive : 0 < Numeral.value ⟨[0], List.replicate 20 9, 0⟩ := by
      norm_num [Numeral.value, Numeral.coefficient, Numeral.scale, numberOfDigits, List.replicate]
    have hbelow : Numeral.value ⟨[0], List.replicate 20 9, 0⟩ < 1 := by
      norm_num [Numeral.value, Numeral.coefficient, Numeral.scale, numberOfDigits, List.replicate]
    rw [hk] at hpositive hbelow
    have hzero : 0 < k := by exact_mod_cast hpositive
    have hone : k < 1 := by exact_mod_cast hbelow
    omega

end FieldGate
