-- The laws of the comparisons: equality and order against a declared text are
-- read off one order, in which the missing value and NaN have no place.
import FieldGate.Comparison
import FieldGate.Proofs.Outcomes

namespace FieldGate

/-! ## The order of texts and of numbers -/

theorem compare_eq_eq_iff {s t : Text} : s.compare t = .eq ↔ s = t := by
  unfold Text.compare compareOfLessAndEq
  constructor
  · intro h
    split_ifs at h with hlt heq
    exact heq
  · rintro rfl
    simp

theorem place_compare_eq_iff {p q : Place} : p.compare q = .eq ↔ p = q := by
  cases p <;> cases q <;> simp [Place.compare]

theorem place?_eq_none_iff {m : Number} : m.place? = none ↔ m = .double .nan := by
  cases m with
  | integer n =>
    constructor
    · intro h
      cases h
    · intro h
      cases h
  | double d => cases d <;> simp [Number.place?, Double.place?]

theorem number_compare?_eq_none_iff {m n : Number} :
    m.compare? n = none ↔ m = .double .nan ∨ n = .double .nan := by
  rw [← place?_eq_none_iff, ← place?_eq_none_iff]
  unfold Number.compare?
  cases hm : m.place? with
  | none => simp
  | some p => cases hn : n.place? <;> simp

/-- Numbers that come from values are ordered as numbers, unless that is refused. -/
theorem compareNumbers_ok {m n : Number} {o : Option Ordering}
    (h : Value.compareNumbers m n = .ok o) : o = m.compare? n := by
  have nan_of {k : Number} (hnan : k.isNaN = .ok true) : k = .double .nan := by
    cases k with
    | integer i =>
      obtain ⟨_, _, hfalse⟩ := map_eq_ok.mp hnan
      cases hfalse
    | double d => simpa [Number.isNaN] using hnan
  obtain ⟨left, hleft, h⟩ := bind_eq_ok.mp h
  cases left with
  | true =>
    rw [number_compare?_eq_none_iff.mpr (.inl (nan_of hleft))]
    exact (Except.ok.inj h).symm
  | false =>
    obtain ⟨right, hright, h⟩ := bind_eq_ok.mp h
    cases right with
    | true =>
      rw [number_compare?_eq_none_iff.mpr (.inr (nan_of hright))]
      exact (Except.ok.inj h).symm
    | false => exact (Except.ok.inj h).symm

/-! ## A value against a declared text -/

theorem toPrimitive_text (d : Text) : (Value.text d).toPrimitive = .ok (.text d) := rfl

theorem toNumber_text (d : Text) : (Value.text d).toNumber = .ok (numberOfText d) := rfl

theorem not_missing {v : Value} (d : Text) (hnull : v ≠ .null) :
    ¬(v.isNull || (Value.text d).isNull) = true := by
  cases v with
  | null => exact absurd rfl hnull
  | _ => simp [Value.isNull]

theorem not_two_objects (v : Value) (d : Text) :
    ¬(!v.isPrimitive && !(Value.text d).isPrimitive) = true := by
  simp [Value.isPrimitive]

theorem toPrimitive_number {v : Value} {m : Number} (h : v.number? = some m) :
    v.toPrimitive = .ok v := by
  cases v with
  | bool _ | int _ | float _ => rfl
  | _ => cases h

theorem toNumber_number {v : Value} {m : Number} (h : v.number? = some m) :
    v.toNumber = .ok m := by
  cases v with
  | bool _ | int _ | float _ =>
    unfold Value.toNumber
    simp only [h]
  | _ => cases h

theorem toPrimitive_other {v : Value} (hnull : v ≠ .null) (h : v.number? = none) :
    v.toPrimitive = v.toText.map .text := by
  cases v with
  | null => exact absurd rfl hnull
  | bool _ | int _ | float _ => cases h
  | _ => rfl

theorem looseEquals_null (same : Bool) (d : Text) :
    Value.null.looseEquals same (.text d) = .ok false := rfl

theorem compare?_null (d : Text) : Value.null.compare? (.text d) = .ok none := rfl

/-- A number meets a text as the number that the text stands for. -/
theorem looseEquals_number {v : Value} {m : Number} (same : Bool) (d : Text)
    (h : v.number? = some m) :
    v.looseEquals same (.text d) = .ok (m.equals (numberOfText d)) := by
  have hprimitive := toPrimitive_number h
  have hnumber := toNumber_number h
  unfold Value.looseEquals
  cases v with
  | bool _ | int _ | float _ =>
    rw [if_neg (not_missing d (by simp)), if_neg (not_two_objects _ d), hprimitive,
      toPrimitive_text, ok_bind, ok_bind]
    dsimp only
    rw [hnumber, toNumber_text, ok_bind, ok_bind, pure_ok]
  | _ => cases h

theorem compare?_number {v : Value} {m : Number} (d : Text) (h : v.number? = some m) :
    v.compare? (.text d) = Value.compareNumbers m (numberOfText d) := by
  have hprimitive := toPrimitive_number h
  have hnumber := toNumber_number h
  unfold Value.compare?
  cases v with
  | bool _ | int _ | float _ =>
    rw [if_neg (not_missing d (by simp)), hprimitive, toPrimitive_text, ok_bind, ok_bind]
    dsimp only
    rw [hnumber, toNumber_text, ok_bind, ok_bind]
  | _ => cases h

/-- Anything else meets a text as its own text. -/
theorem looseEquals_other {v : Value} (same : Bool) (d : Text) (hnull : v ≠ .null)
    (h : v.number? = none) : v.looseEquals same (.text d) = v.toText.map (· == d) := by
  unfold Value.looseEquals
  rw [if_neg (not_missing d hnull), if_neg (not_two_objects v d), toPrimitive_other hnull h,
    toPrimitive_text]
  cases v.toText with
  | error m => rfl
  | ok t => rfl

theorem compare?_other {v : Value} (d : Text) (hnull : v ≠ .null) (h : v.number? = none) :
    v.compare? (.text d) = v.toText.map fun s => some (s.compare d) := by
  unfold Value.compare?
  rw [if_neg (not_missing d hnull), toPrimitive_other hnull h, toPrimitive_text]
  cases v.toText with
  | error m => rfl
  | ok t => rfl

/-! ## One order behind six operators -/

/-- NaN is one of the two numbers of a comparison: the value is numeric, and it is
NaN or the declared text stands for no number. -/
def NanOnASide (value : Value) (declared : Text) : Prop :=
  ∃ m, value.number? = some m ∧ (m = .double .nan ∨ numberOfText declared = .double .nan)

/-- Every value is missing, numeric, or one that meets a text as its own text. -/
theorem missing_or_number_or_other (v : Value) :
    v = .null ∨ (∃ m, v.number? = some m) ∨ v ≠ .null ∧ v.number? = none := by
  by_cases hnull : v = .null
  · exact .inl hnull
  · cases h : v.number? with
    | some m => exact .inr (.inl ⟨m, rfl⟩)
    | none => exact .inr (.inr ⟨hnull, rfl⟩)

/-- Equality with coercion is the order, where there is one. -/
theorem looseEquals_of_compare? {v : Value} {d : Text} {o : Option Ordering} (same : Bool)
    (h : v.compare? (.text d) = .ok o) :
    v.looseEquals same (.text d) = .ok (o == some .eq) := by
  rcases missing_or_number_or_other v with rfl | ⟨m, hm⟩ | ⟨hnull, hother⟩
  · rw [compare?_null] at h
    obtain rfl := Except.ok.inj h
    exact looseEquals_null same d
  · rw [compare?_number d hm] at h
    rw [looseEquals_number same d hm, compareNumbers_ok h]
    rfl
  · rw [compare?_other d hnull hother] at h
    obtain ⟨t, ht, rfl⟩ := map_eq_ok.mp h
    have hsame : (t == d) = (some (t.compare d) == some Ordering.eq) := by
      rw [Bool.eq_iff_iff]
      simp [compare_eq_eq_iff]
    rw [looseEquals_other same d hnull hother, ht, ← hsame]
    rfl

theorem compare?_none_iff {v : Value} {d : Text} {o : Option Ordering}
    (h : v.compare? (.text d) = .ok o) : o = none ↔ v = .null ∨ NanOnASide v d := by
  rcases missing_or_number_or_other v with rfl | ⟨m, hm⟩ | ⟨hnull, hother⟩
  · rw [compare?_null] at h
    simp [← Except.ok.inj h]
  · have hnull : v ≠ .null := by
      rintro rfl
      cases hm
    rw [compare?_number d hm] at h
    rw [compareNumbers_ok h, number_compare?_eq_none_iff]
    simp [NanOnASide, hm, hnull]
  · rw [compare?_other d hnull hother] at h
    obtain ⟨t, -, rfl⟩ := map_eq_ok.mp h
    simp [NanOnASide, hother, hnull]

namespace OperatorKind

/-- The operators that compare, by order or by equality. -/
def isComparison : OperatorKind → Bool
  | contains | notContains => false
  | lessThan | lessThanEqual | equal | notEqual | greaterThanEqual | greaterThan => true

/-- Whether a comparison passes for two operands in this order. -/
def passesOn (strict : Bool) (kind : OperatorKind) (o : Option Ordering) : Bool :=
  match kind with
  | lessThan => o == some .lt
  | lessThanEqual => o.any (·.isLE)
  | equal => o == some .eq
  | notEqual => o != some .eq
  | greaterThanEqual => o.any (·.isGE)
  | greaterThan => if strict then o == some .gt else o.any (·.isGE)
  | contains | notContains => false

end OperatorKind

/-- A comparison passes by the order of its operands alone. -/
theorem passes_of_compare? {v : Value} {d : Text} {o : Option Ordering} (strict : Bool)
    {kind : OperatorKind} (hkind : kind.isComparison = true)
    (h : v.compare? (.text d) = .ok o) :
    kind.passes strict v (.text d) = .ok (kind.passesOn strict o) := by
  unfold OperatorKind.passes
  cases kind with
  | contains | notContains => cases hkind
  | lessThan | lessThanEqual | greaterThanEqual => rw [h]; rfl
  | greaterThan => cases strict <;> rw [h] <;> rfl
  | equal => exact looseEquals_of_compare? false h
  | notEqual => rw [looseEquals_of_compare? false h]; rfl

/-- Where the order of a value and a declared text is not refused, all six
comparisons answer, and they answer by one order: each operator is what its name
says of "less", "equal" and "greater", of which at most one holds. None of them
holds exactly for a missing value and for NaN. -/
theorem the_six_comparisons_are_one_order (value : Value) (declared : Text)
    {o : Option Ordering} (h : value.compare? (.text declared) = .ok o) :
    let Holds (strict : Bool) (kind : OperatorKind) : Prop :=
      kind.passes strict value (.text declared) = .ok true
    (∀ (strict : Bool) (kind : OperatorKind), kind.isComparison = true →
        ∃ b, kind.passes strict value (.text declared) = .ok b)
      ∧ ∀ strict : Bool,
        (Holds strict .notEqual ↔ ¬Holds strict .equal)
        ∧ (Holds strict .lessThanEqual ↔ Holds strict .lessThan ∨ Holds strict .equal)
        ∧ (Holds strict .greaterThanEqual ↔ Holds true .greaterThan ∨ Holds strict .equal)
        ∧ (Holds strict .equal ↔ Holds strict .lessThanEqual ∧ Holds strict .greaterThanEqual)
        ∧ ¬(Holds strict .lessThan ∧ Holds strict .equal)
        ∧ ¬(Holds strict .lessThan ∧ Holds true .greaterThan)
        ∧ ¬(Holds strict .equal ∧ Holds true .greaterThan)
        ∧ (¬Holds strict .lessThan ∧ ¬Holds strict .equal ∧ ¬Holds true .greaterThan
          ↔ value = .null ∨ NanOnASide value declared)
        ∧ (Holds false .greaterThan ↔ Holds strict .greaterThanEqual) := by
  intro Holds
  have holds_iff (strict : Bool) (kind : OperatorKind) (hkind : kind.isComparison = true) :
      Holds strict kind ↔ kind.passesOn strict o = true := by
    show kind.passes strict value (.text declared) = .ok true ↔ _
    rw [passes_of_compare? strict hkind h, Except.ok.injEq]
  refine ⟨fun strict kind hkind => ⟨_, passes_of_compare? strict hkind h⟩, ?_⟩
  intro strict
  rw [← compare?_none_iff h, holds_iff strict .notEqual rfl, holds_iff strict .equal rfl,
    holds_iff strict .lessThan rfl, holds_iff strict .lessThanEqual rfl,
    holds_iff strict .greaterThanEqual rfl, holds_iff true .greaterThan rfl,
    holds_iff false .greaterThan rfl]
  rcases o with _ | _ | _ | _ <;> simp [OperatorKind.passesOn]

theorem a_true_flag_equals_a_hexadecimal_one :
    (Value.bool true).compare? (.text "0x1") = .ok (some .eq)
      ∧ OperatorKind.lessThanEqual.passes true (.bool true) (.text "0x1") = .ok true
      ∧ OperatorKind.greaterThanEqual.passes true (.bool true) (.text "0x1") = .ok true := by
  have h : (Value.bool true).compare? (.text "0x1") = .ok (some .eq) := by decide +kernel
  have hequal : OperatorKind.equal.passes true (.bool true) (.text "0x1") = .ok true := by
    decide +kernel
  obtain ⟨-, hlaws⟩ := the_six_comparisons_are_one_order (.bool true) "0x1" h
  obtain ⟨-, -, -, hboth, -⟩ := hlaws true
  exact ⟨h, hboth.mp hequal⟩

end FieldGate
