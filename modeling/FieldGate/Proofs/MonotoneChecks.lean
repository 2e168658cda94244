-- The law of raised values: among numbers, and among values that are compared by their
-- texts, a larger value loses no minimum check and a smaller one no maximum check.
import FieldGate.Proofs.ValueOrder

namespace FieldGate

/-! ## Two kinds of checks, two kinds of values -/

namespace OperatorKind

/-- The operators that ask for a least value. -/
def isMinimum : OperatorKind → Bool
  | greaterThan | greaterThanEqual => true
  | lessThan | lessThanEqual | equal | notEqual | contains | notContains => false

/-- The operators that ask for a largest value. -/
def isMaximum : OperatorKind → Bool
  | lessThan | lessThanEqual => true
  | greaterThan | greaterThanEqual | equal | notEqual | contains | notContains => false

end OperatorKind

/-- The two values are compared in one way: both are numbers, or both are compared by
their texts. -/
def ComparedAlike (x y : Value) : Prop :=
  (∃ m n, x.number? = some m ∧ y.number? = some n)
    ∨ (x ≠ .null ∧ x.number? = none) ∧ y ≠ .null ∧ y.number? = none

theorem isOrdering_of_isMinimum {kind : OperatorKind} (h : kind.isMinimum = true) :
    kind.isOrdering = true := by
  cases kind with
  | greaterThan | greaterThanEqual => rfl
  | lessThan | lessThanEqual | equal | notEqual | contains | notContains => cases h

theorem isOrdering_of_isMaximum {kind : OperatorKind} (h : kind.isMaximum = true) :
    kind.isOrdering = true := by
  cases kind with
  | lessThan | lessThanEqual => rfl
  | greaterThan | greaterThanEqual | equal | notEqual | contains | notContains => cases h

/-! ## One transitive order -/

section Order

variable {α : Type} {cmp : α → α → Ordering} [Std.TransCmp cmp] {a b c : α} {strict : Bool}
  {kind : OperatorKind}

/-- What passes a minimum check passes it after a raise. -/
theorem passesOn_raised (hkind : kind.isMinimum = true) (hab : (cmp a b).isLE = true)
    (h : kind.passesOn strict (some (cmp a c)) = true) :
    kind.passesOn strict (some (cmp b c)) = true := by
  have hba : (cmp b a).isGE = true := Std.OrientedCmp.isGE_of_isLE hab
  have hstrict (hgt : cmp a c = .gt) : cmp b c = .gt := Std.TransCmp.gt_of_isGE_of_gt hba hgt
  have hequal (hge : (cmp a c).isGE = true) : (cmp b c).isGE = true :=
    Std.TransCmp.isGE_trans hba hge
  cases kind with
  | greaterThan =>
    cases strict with
    | true => simpa [OperatorKind.passesOn] using hstrict (by simpa [OperatorKind.passesOn] using h)
    | false => exact hequal h
  | greaterThanEqual => exact hequal h
  | lessThan | lessThanEqual | equal | notEqual | contains | notContains => cases hkind

/-- What passes a maximum check passes it after a reduction. -/
theorem passesOn_lowered (hkind : kind.isMaximum = true) (hab : (cmp a b).isLE = true)
    (h : kind.passesOn strict (some (cmp b c)) = true) :
    kind.passesOn strict (some (cmp a c)) = true := by
  cases kind with
  | lessThan =>
    have hlt : cmp b c = .lt := by simpa [OperatorKind.passesOn] using h
    simpa [OperatorKind.passesOn] using Std.TransCmp.lt_of_isLE_of_lt hab hlt
  | lessThanEqual => exact Std.TransCmp.isLE_trans hab h
  | greaterThan | greaterThanEqual | equal | notEqual | contains | notContains => cases hkind

end Order

/-! ## Checks on values -/

section Values

variable {x y : Value} {d : Text} {strict : Bool} {kind : OperatorKind}

/-- An ordering passes where there is an order that it passes on. -/
theorem passes_ordering_iff (hkind : kind.isOrdering = true) :
    kind.passes strict x (.text d) = .ok true
      ↔ ∃ o, x.compare? (.text d) = .ok (some o) ∧ kind.passesOn strict (some o) = true := by
  rw [passes_ordering strict x d hkind, map_eq_ok]
  constructor
  · rintro ⟨o, ho, hpasses⟩
    cases o with
    | none =>
      cases kind with
      | greaterThan => cases strict <;> cases hpasses
      | lessThan | lessThanEqual | greaterThanEqual => cases hpasses
      | equal | notEqual | contains | notContains => cases hkind
    | some o => exact ⟨o, ho, hpasses⟩
  · rintro ⟨o, ho, hpasses⟩
    exact ⟨some o, ho, hpasses⟩

/-- Two numbers with an order share it with each number that one of them has an order
with. -/
theorem numbers_share_order {m n k : Number} {o : Ordering}
    (h : Value.compareNumbers m n = .ok (some o))
    (hk : (∃ o', Value.compareNumbers m k = .ok (some o'))
      ∨ ∃ o', Value.compareNumbers n k = .ok (some o')) :
    ∃ p q r : Place, o = p.compare q ∧ Value.compareNumbers m k = .ok (some (p.compare r))
      ∧ Value.compareNumbers n k = .ok (some (q.compare r)) := by
  obtain ⟨p, q, hm, hn, rfl⟩ := standsAt_of_compareNumbers h
  obtain ⟨r, hr⟩ : ∃ r, k.StandsAt r := by
    rcases hk with ⟨o', ho'⟩ | ⟨o', ho'⟩
    · obtain ⟨-, r, -, hr, -⟩ := standsAt_of_compareNumbers ho'
      exact ⟨r, hr⟩
    · obtain ⟨-, r, -, hr, -⟩ := standsAt_of_compareNumbers ho'
      exact ⟨r, hr⟩
  exact ⟨p, q, r, rfl, compareNumbers_of_standsAt hm hr, compareNumbers_of_standsAt hn hr⟩

/-- Two values that are compared by their texts share the order of texts with every
declared text. -/
theorem texts_share_order {o : Ordering} (d : Text) (hx : x ≠ .null ∧ x.number? = none)
    (hy : y ≠ .null ∧ y.number? = none) (h : x.compare? y = .ok (some o)) :
    ∃ s t : Text, o = s.compare t ∧ x.compare? (.text d) = .ok (some (s.compare d))
      ∧ y.compare? (.text d) = .ok (some (t.compare d)) := by
  rw [compare?_operands hx.1 hy.1, Value.meet, operand_other hx.2, operand_other hy.2] at h
  rw [compare?_other d hx.1 hx.2, compare?_other d hy.1 hy.2]
  obtain ⟨p, hp, h⟩ := bind_eq_ok.mp h
  obtain ⟨q, hq, h⟩ := bind_eq_ok.mp h
  obtain ⟨s, hs, rfl⟩ := map_eq_ok.mp hp
  obtain ⟨t, ht, rfl⟩ := map_eq_ok.mp hq
  refine ⟨s, t, (Option.some.inj (Except.ok.inj h)).symm, ?_, ?_⟩
  · rw [hs, map_ok]
  · rw [ht, map_ok]

/-- Two values that are compared in one way stand in one transitive order with a declared
text, unless neither of them has an order with it. -/
theorem compared_in_one_order {o : Ordering} (halike : ComparedAlike x y)
    (h : x.compare? y = .ok (some o))
    (hd : (∃ o', x.compare? (.text d) = .ok (some o'))
      ∨ ∃ o', y.compare? (.text d) = .ok (some o')) :
    ∃ (α : Type) (cmp : α → α → Ordering) (_ : Std.TransCmp cmp) (a b c : α), o = cmp a b
      ∧ x.compare? (.text d) = .ok (some (cmp a c))
      ∧ y.compare? (.text d) = .ok (some (cmp b c)) := by
  rcases halike with ⟨m, n, hm, hn⟩ | ⟨hx, hy⟩
  · rw [compare?_numbers hm hn] at h
    rw [compare?_number d hm, compare?_number d hn] at hd ⊢
    obtain ⟨p, q, r, hrows⟩ := numbers_share_order h hd
    exact ⟨Place, Place.compare, inferInstance, p, q, r, hrows⟩
  · obtain ⟨s, t, hrows⟩ := texts_share_order d hx hy h
    exact ⟨Text, Text.compare, inferInstance, s, t, d, hrows⟩

/-- Checks are monotone in the value. Of two values that are compared in one way, the
larger one passes every minimum check that the smaller one passes, in the strict reading
as in the legacy one, and the smaller one passes every maximum check that the larger one
passes. -/
theorem ordering_checks_are_monotone_in_the_value {o : Ordering} (halike : ComparedAlike x y)
    (h : x.compare? y = .ok (some o)) (ho : o = .lt ∨ o = .eq) (strict : Bool) (d : Text) :
    (∀ kind : OperatorKind, kind.isMinimum = true →
        kind.passes strict x (.text d) = .ok true → kind.passes strict y (.text d) = .ok true)
      ∧ ∀ kind : OperatorKind, kind.isMaximum = true →
        kind.passes strict y (.text d) = .ok true → kind.passes strict x (.text d) = .ok true := by
  have hle : o.isLE = true := by
    rcases ho with rfl | rfl <;> rfl
  constructor
  · intro kind hkind hpasses
    have hordering := isOrdering_of_isMinimum hkind
    obtain ⟨o', ho', hpasses⟩ := (passes_ordering_iff hordering).mp hpasses
    obtain ⟨α, cmp, _, a, b, c, rfl, hx, hy⟩ := compared_in_one_order halike h (.inl ⟨o', ho'⟩)
    obtain rfl := Option.some.inj (Except.ok.inj (ho'.symm.trans hx))
    exact (passes_ordering_iff hordering).mpr ⟨_, hy, passesOn_raised hkind hle hpasses⟩
  · intro kind hkind hpasses
    have hordering := isOrdering_of_isMaximum hkind
    obtain ⟨o', ho', hpasses⟩ := (passes_ordering_iff hordering).mp hpasses
    obtain ⟨α, cmp, _, a, b, c, rfl, hx, hy⟩ := compared_in_one_order halike h (.inr ⟨o', ho'⟩)
    obtain rfl := Option.some.inj (Except.ok.inj (ho'.symm.trans hy))
    exact (passes_ordering_iff hordering).mpr ⟨_, hx, passesOn_lowered hkind hle hpasses⟩

end Values

/-- Across the two kinds of values the law fails: a text and a number meet as numbers, but
each of them may meet the declared text in its own way. -/
example : (Value.text "9").compare? (.int 10) = .ok (some .lt)
    ∧ OperatorKind.greaterThan.passes true (.text "9") (.text "5a") = .ok true
    ∧ OperatorKind.greaterThan.passes true (.int 10) (.text "5a") = .ok false := by
  decide +kernel

theorem the_older_list_of_versions_stays_below :
    ComparedAlike (.list [.int 1, .int 9]) (.tuple [.int 2])
      ∧ (Value.list [.int 1, .int 9]).compare? (.tuple [.int 2]) = .ok (some .lt)
      ∧ OperatorKind.lessThan.passes true (.tuple [.int 2]) (.text "3") = .ok true
      ∧ OperatorKind.lessThan.passes true (.list [.int 1, .int 9]) (.text "3") = .ok true := by
  have halike : ComparedAlike (.list [.int 1, .int 9]) (.tuple [.int 2]) :=
    .inr ⟨⟨nofun, rfl⟩, nofun, rfl⟩
  have h : (Value.list [.int 1, .int 9]).compare? (.tuple [.int 2]) = .ok (some .lt) := by
    decide +kernel
  have hlarger : OperatorKind.lessThan.passes true (.tuple [.int 2]) (.text "3") = .ok true := by
    decide +kernel
  obtain ⟨-, hlowered⟩ := ordering_checks_are_monotone_in_the_value halike h (.inl rfl) true "3"
  exact ⟨halike, h, hlarger, hlowered .lessThan rfl hlarger⟩

end FieldGate
