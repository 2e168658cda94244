-- The law of one evaluation: an operator answers for every value and every
-- declared text, but for the integers that the order of numbers or the text of a
-- value refuses.
import FieldGate.Check
import FieldGate.Proofs.Comparisons
import FieldGate.Proofs.DoubleRange
import FieldGate.Proofs.WrittenIntegers

namespace FieldGate

/-! ## What is refused -/

/-- The number is an integer that rounds to no double. -/
def Number.IsTooLarge : Number → Prop
  | .integer n => rangeOfDoubles ≤ n.natAbs
  | .double _ => False

/-- The operators that ask for the order of two values. -/
def OperatorKind.isOrdering : OperatorKind → Bool
  | .lessThan | .lessThanEqual | .greaterThanEqual | .greaterThan => true
  | .equal | .notEqual | .contains | .notContains => false

/-- The order of a numeric value and a text asks for the double of an integer that
has none: of the value, or of the text when the value is not NaN. -/
def OrderIsRefused (value : Value) (declared : Text) : Prop :=
  ∃ m, value.number? = some m
    ∧ (m.IsTooLarge ∨ m ≠ .double .nan ∧ (numberOfText declared).IsTooLarge)

/-- The value meets a text as its own text, and that would write out an integer
that is too long. -/
def TextIsRefused (value : Value) : Prop :=
  value.number? = none ∧ ∃ n ∈ value.textIntegers, IsTooLong n

/-! ## The order of numbers -/

theorem isNaN_tooLarge {m : Number} (h : m.IsTooLarge) :
    m.isNaN = .error .integerTooLarge := by
  cases m with
  | integer n =>
    rcases ofInteger_cases n with ⟨hsmall, _⟩ | ⟨_, herror⟩
    · exact absurd h (Nat.not_le.mpr hsmall)
    · rw [Number.isNaN, herror]
      rfl
  | double d => exact absurd h id

theorem isNaN_inRange {m : Number} (h : ¬m.IsTooLarge) :
    m.isNaN = .ok (m == .double .nan) := by
  cases m with
  | integer n =>
    rcases ofInteger_cases n with ⟨_, d, hd⟩ | ⟨hlarge, _⟩
    · rw [Number.isNaN, hd]
      rfl
    · exact absurd hlarge h
  | double d =>
    rw [Number.isNaN, Except.ok.injEq, Bool.eq_iff_iff]
    simp

/-- Numbers that come from values are ordered, unless one that is looked at is too
large. -/
theorem compareNumbers_cases (m n : Number) :
    (∃ o, Value.compareNumbers m n = .ok o) ∧ ¬m.IsTooLarge ∧ (m = .double .nan ∨ ¬n.IsTooLarge)
      ∨ Value.compareNumbers m n = .error .integerTooLarge
        ∧ (m.IsTooLarge ∨ m ≠ .double .nan ∧ n.IsTooLarge) := by
  unfold Value.compareNumbers
  by_cases hm : m.IsTooLarge
  · rw [isNaN_tooLarge hm]
    exact .inr ⟨rfl, .inl hm⟩
  · rw [isNaN_inRange hm, ok_bind]
    by_cases hnan : m = .double .nan
    · rw [if_pos (by simpa using hnan)]
      exact .inl ⟨⟨none, rfl⟩, hm, .inl hnan⟩
    · rw [if_neg (by simpa using hnan)]
      by_cases hn : n.IsTooLarge
      · rw [isNaN_tooLarge hn]
        exact .inr ⟨rfl, .inr ⟨hnan, hn⟩⟩
      · rw [isNaN_inRange hn, ok_bind]
        refine .inl ⟨?_, hm, .inr hn⟩
        split
        · exact ⟨none, rfl⟩
        · exact ⟨_, rfl⟩

/-! ## One operator on one value -/

theorem passes_ordering {kind : OperatorKind} (strict : Bool) (v : Value) (d : Text)
    (hkind : kind.isOrdering = true) :
    kind.passes strict v (.text d) = (v.compare? (.text d)).map (kind.passesOn strict) := by
  unfold OperatorKind.passes
  cases kind with
  | lessThan | lessThanEqual | greaterThanEqual =>
    cases v.compare? (.text d) with
    | error e => rfl
    | ok o => rfl
  | greaterThan =>
    cases strict <;> cases v.compare? (.text d) with
    | error e => rfl
    | ok o => rfl
  | equal | notEqual | contains | notContains => cases hkind

theorem passes_equality {kind : OperatorKind} (strict : Bool) (v : Value) (d : Text)
    (hkind : kind.isComparison = true) (hequality : kind.isOrdering = false) :
    kind.passes strict v (.text d)
      = (v.looseEquals false (.text d)).map fun same => same == (kind == .equal) := by
  unfold OperatorKind.passes
  cases kind with
  | equal | notEqual =>
    cases v.looseEquals false (.text d) with
    | error e => rfl
    | ok same => cases same <;> rfl
  | contains | notContains => cases hkind
  | lessThan | lessThanEqual | greaterThanEqual | greaterThan => cases hequality

theorem passes_contains {kind : OperatorKind} (strict : Bool) (v : Value) (d : Text)
    (hkind : kind.isComparison = false) : ∃ b, kind.passes strict v (.text d) = .ok b := by
  cases kind with
  | contains => exact ⟨v.holds false (.text d), rfl⟩
  | notContains => exact ⟨!v.holds false (.text d), rfl⟩
  | lessThan | lessThanEqual | equal | notEqual | greaterThanEqual | greaterThan => cases hkind

theorem isComparison_of_isOrdering {kind : OperatorKind} (h : kind.isOrdering = true) :
    kind.isComparison = true := by
  cases kind with
  | lessThan | lessThanEqual | greaterThanEqual | greaterThan => rfl
  | equal | notEqual | contains | notContains => cases h

/-- A comparison with a numeric value answers, unless it asks for an order that is
refused. -/
theorem passes_number {v : Value} {m : Number} (strict : Bool) {kind : OperatorKind} (d : Text)
    (hkind : kind.isComparison = true) (hm : v.number? = some m) :
    (∃ b, kind.passes strict v (.text d) = .ok b)
        ∧ ¬(kind.isOrdering = true ∧ OrderIsRefused v d)
      ∨ kind.passes strict v (.text d) = .error .integerTooLarge
        ∧ kind.isOrdering = true ∧ OrderIsRefused v d := by
  have hrefused : OrderIsRefused v d
      ↔ m.IsTooLarge ∨ m ≠ .double .nan ∧ (numberOfText d).IsTooLarge := by
    simp [OrderIsRefused, hm]
  have horder := compare?_number d hm
  rcases compareNumbers_cases m (numberOfText d) with ⟨⟨o, ho⟩, hsmall, hsecond⟩ | ⟨herror, hlarge⟩
  · left
    refine ⟨⟨_, passes_of_compare? strict hkind (horder.trans ho)⟩, ?_⟩
    rintro ⟨-, h⟩
    rcases hrefused.mp h with hfirst | ⟨hnan, hlarge⟩
    · exact hsmall hfirst
    · exact hsecond.elim hnan fun hfits => hfits hlarge
  · cases hordering : kind.isOrdering with
    | true =>
      rw [passes_ordering strict v d hordering, horder, herror]
      exact .inr ⟨rfl, rfl, hrefused.mpr hlarge⟩
    | false =>
      -- Equality never asks for a double.
      rw [passes_equality strict v d hkind hordering, looseEquals_number false d hm]
      exact .inl ⟨⟨_, rfl⟩, by simp⟩

/-- Any other value passes a comparison by the order of its text. -/
theorem passes_by_text {v : Value} (strict : Bool) {kind : OperatorKind} (d : Text)
    (hkind : kind.isComparison = true) (hnull : v ≠ .null) (hother : v.number? = none) :
    kind.passes strict v (.text d)
      = v.toText.map fun t => kind.passesOn strict (some (t.compare d)) := by
  have horder := compare?_other d hnull hother
  have hequality := looseEquals_other false d hnull hother
  cases htext : v.toText with
  | ok t =>
    rw [htext] at horder
    exact passes_of_compare? strict hkind horder
  | error m =>
    rw [htext] at horder hequality
    cases hordering : kind.isOrdering with
    | true =>
      rw [passes_ordering strict v d hordering, horder]
      rfl
    | false =>
      rw [passes_equality strict v d hkind hordering, hequality]
      rfl

/-- A comparison with any other value answers, unless its text is refused. -/
theorem passes_other {v : Value} (strict : Bool) {kind : OperatorKind} (d : Text)
    (hkind : kind.isComparison = true) (hnull : v ≠ .null) (hother : v.number? = none) :
    (∃ b, kind.passes strict v (.text d) = .ok b) ∧ ¬TextIsRefused v
      ∨ kind.passes strict v (.text d) = .error .integerTooLong ∧ TextIsRefused v := by
  rw [passes_by_text strict d hkind hnull hother]
  rcases writesOut_toText v with ⟨⟨t, ht⟩, hshort⟩ | ⟨herror, n, hn, hlong⟩
  · rw [ht]
    refine .inl ⟨⟨_, rfl⟩, ?_⟩
    rintro ⟨-, n, hn, hlong⟩
    exact hshort n hn hlong
  · rw [herror]
    exact .inr ⟨rfl, hother, n, hn, hlong⟩

/-- What the operator refuses: nothing, an order, or a text. -/
theorem passes_cases (strict : Bool) (kind : OperatorKind) (value : Value) (declared : Text) :
    let outcome := kind.passes strict value (.text declared)
    let OrderRefused := kind.isOrdering = true ∧ OrderIsRefused value declared
    let TextRefused := kind.isComparison = true ∧ TextIsRefused value
    (∃ b, outcome = .ok b) ∧ ¬OrderRefused ∧ ¬TextRefused
      ∨ outcome = .error .integerTooLarge ∧ OrderRefused ∧ ¬TextRefused
      ∨ outcome = .error .integerTooLong ∧ TextRefused ∧ ¬OrderRefused := by
  intro outcome OrderRefused TextRefused
  cases hkind : kind.isComparison with
  | false =>
    refine .inl ⟨passes_contains strict value declared hkind, ?_, by simp [TextRefused, hkind]⟩
    rintro ⟨hordering, -⟩
    rw [isComparison_of_isOrdering hordering] at hkind
    cases hkind
  | true =>
    -- A number is never read as a text, nor anything else as a number here, so that the
    -- two refusals exclude each other.
    rcases missing_or_number_or_other value with rfl | ⟨m, hm⟩ | ⟨hnull, hother⟩
    · have hanswer := passes_of_compare? strict hkind (compare?_null declared)
      refine .inl ⟨⟨_, hanswer⟩, ?_, ?_⟩
      · rintro ⟨-, m, hm, -⟩
        cases hm
      · rintro ⟨-, -, n, hn, -⟩
        cases hn
    · have htext : ¬TextRefused := by
        rintro ⟨-, hother, -⟩
        rw [hm] at hother
        cases hother
      rcases passes_number strict declared hkind hm with ⟨hanswer, hfits⟩ | ⟨herror, hrefused⟩
      · exact .inl ⟨hanswer, hfits, htext⟩
      · exact .inr (.inl ⟨herror, hrefused, htext⟩)
    · have horder : ¬OrderRefused := by
        rintro ⟨-, m, hm, -⟩
        rw [hother] at hm
        cases hm
      rcases passes_other strict declared hkind hnull hother with ⟨hanswer, hfits⟩ |
        ⟨herror, hrefused⟩
      · exact .inl ⟨hanswer, horder, fun h => hfits h.2⟩
      · exact .inr (.inr ⟨herror, ⟨hkind, hrefused⟩, horder⟩)

/-- Every operator answers for every value and every declared text, with two
exceptions. An ordering is refused where it asks for the double of an integer
beyond the doubles, and a comparison where the text of the value would write out
an integer that is too long. Nothing else goes wrong, and what is no operator is
refused as such. -/
theorem an_evaluation_answers_unless_an_integer_is_refused (strict : Bool) (kind : OperatorKind)
    (value : Value) (declared : Text) :
    let outcome := (OperatorSlot.known kind).passes strict value (.text declared)
    let OrderRefused := kind.isOrdering = true ∧ OrderIsRefused value declared
    let TextRefused := kind.isComparison = true ∧ TextIsRefused value
    ((∃ b, outcome = .ok b) ↔ ¬OrderRefused ∧ ¬TextRefused)
      ∧ (outcome = .error (.mishap .integerTooLarge) ↔ OrderRefused)
      ∧ (outcome = .error (.mishap .integerTooLong) ↔ TextRefused)
      ∧ ∀ token, (OperatorSlot.foreign token).passes strict value (.text declared)
        = .error (.invalidOperator token) := by
  intro outcome OrderRefused TextRefused
  have houtcome : outcome = (kind.passes strict value (.text declared)).mapError .mishap := rfl
  rcases passes_cases strict kind value declared with
    ⟨⟨b, hb⟩, horder, htext⟩ | ⟨herror, horder, htext⟩ | ⟨herror, htext, horder⟩
  · rw [hb, mapError_ok] at houtcome
    rw [houtcome]
    refine ⟨⟨fun _ => ⟨horder, htext⟩, fun _ => ⟨b, rfl⟩⟩, ?_, ?_, fun _ => rfl⟩
    · exact ⟨nofun, fun h => absurd h horder⟩
    · exact ⟨nofun, fun h => absurd h htext⟩
  · rw [herror, mapError_error] at houtcome
    rw [houtcome]
    refine ⟨⟨nofun, fun h => absurd horder h.1⟩, ?_, ?_, fun _ => rfl⟩
    · exact ⟨fun _ => horder, fun _ => rfl⟩
    · exact ⟨nofun, fun h => absurd h htext⟩
  · rw [herror, mapError_error] at houtcome
    rw [houtcome]
    refine ⟨⟨nofun, fun h => absurd htext h.2⟩, ?_, ?_, fun _ => rfl⟩
    · exact ⟨nofun, fun h => absurd h horder⟩
    · exact ⟨fun _ => htext, fun _ => rfl⟩

/-- An integer beyond the doubles is compared for equality, but it has no order. -/
theorem a_huge_integer_is_equal_or_not_but_never_greater :
    OperatorKind.equal.passes true (.int (10 ^ 309)) (.text "5") = .ok false
      ∧ OperatorKind.greaterThan.passes true (.int (10 ^ 309)) (.text "5")
        = .error .integerTooLarge := by
  decide +kernel

end FieldGate
