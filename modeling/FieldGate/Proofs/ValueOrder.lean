-- The order of two values: texts are in order point by point and numbers by their place
-- on the line, and a value meets another one as its number or as its text. Both orders
-- are transitive, and they turn round when the two sides do.
import FieldGate.Proofs.Evaluation

namespace FieldGate

/-! ## The orders of texts and of places -/

instance transCmp_text : Std.TransCmp Text.compare :=
  Std.TransCmp.compareOfLessAndEq_of_irrefl_of_trans_of_antisymm lt_irrefl lt_trans
    fun hlt hgt => le_antisymm (not_lt.mp hgt) (not_lt.mp hlt)

theorem place_compare_swap (p q : Place) : p.compare q = (q.compare p).swap := by
  cases p with
  | bottom | top => cases q <;> rfl
  | units a =>
    cases q with
    | bottom | top => rfl
    | units b => exact Std.OrientedOrd.eq_swap

theorem place_compare_trans {p q r : Place} (hpq : (p.compare q).isLE = true)
    (hqr : (q.compare r).isLE = true) : (p.compare r).isLE = true := by
  cases q with
  | bottom =>
    cases p with
    | bottom => exact hqr
    | units _ | top => cases hpq
  | top =>
    cases r with
    | top => cases p <;> rfl
    | units _ | bottom => cases hqr
  | units b =>
    cases p with
    | top => cases hpq
    | bottom => cases r <;> rfl
    | units a =>
      cases r with
      | bottom => cases hqr
      | top => rfl
      | units c => exact Std.TransOrd.isLE_trans hpq hqr

instance transCmp_place : Std.TransCmp Place.compare where
  eq_swap := place_compare_swap _ _
  isLE_trans := place_compare_trans

/-! ## Numbers that come from values -/

/-- The number has this place in the order of values: it is not NaN, and no integer that
rounds to no double. -/
structure Number.StandsAt (m : Number) (p : Place) : Prop where
  place : m.place? = some p
  small : ¬m.IsTooLarge

theorem compareNumbers_of_standsAt {m n : Number} {p q : Place} (hm : m.StandsAt p)
    (hn : n.StandsAt q) : Value.compareNumbers m n = .ok (some (p.compare q)) := by
  have hnumber {k : Number} {r : Place} (hk : k.StandsAt r) : k.isNaN = .ok false := by
    have hne : k ≠ .double .nan := by
      rintro rfl
      cases hk.place
    rw [isNaN_inRange hk.small, beq_eq_false_iff_ne.mpr hne]
  have horder : m.compare? n = some (p.compare q) := by
    rw [Number.compare?, hm.place, hn.place]
    rfl
  unfold Value.compareNumbers
  rw [hnumber hm, hnumber hn, horder]
  rfl

/-- Two numbers with an order both have a place. -/
theorem standsAt_of_compareNumbers {m n : Number} {o : Ordering}
    (h : Value.compareNumbers m n = .ok (some o)) :
    ∃ p q, m.StandsAt p ∧ n.StandsAt q ∧ o = p.compare q := by
  have horder := compareNumbers_ok h
  obtain ⟨p, hp, horder⟩ := Option.bind_eq_some_iff.mp horder.symm
  obtain ⟨q, hq, horder⟩ := Option.bind_eq_some_iff.mp horder
  have hne : m ≠ .double .nan := by
    rintro rfl
    cases hp
  rcases compareNumbers_cases m n with ⟨-, hm, hn⟩ | ⟨herror, -⟩
  · exact ⟨p, q, ⟨hp, hm⟩, ⟨hq, hn.resolve_left hne⟩, (Option.some.inj horder).symm⟩
  · rw [herror] at h
    cases h

theorem number_compare?_swap (m n : Number) : n.compare? m = (m.compare? n).map Ordering.swap := by
  unfold Number.compare?
  cases m.place? with
  | none => cases n.place? <;> rfl
  | some p =>
    cases n.place? with
    | none => rfl
    | some q =>
      have hswap := place_compare_swap q p
      simp [hswap]

theorem number_equals_iff {m n : Number} :
    m.equals n = true ↔ ∃ p, m.place? = some p ∧ n.place? = some p := by
  unfold Number.equals Number.compare?
  cases m.place? with
  | none => simp
  | some p =>
    cases n.place? with
    | none => simp
    | some q =>
      have hplace : p.compare q = .eq ↔ q = p := place_compare_eq_iff.trans eq_comm
      simp [hplace]

/-! ## Two values -/

/-- What a value that is not missing is compared by: its number, or its text. -/
inductive Operand where
  | number (m : Number)
  | text (t : Text)

/-- The number of an operand when the two sides are not both texts. -/
def Operand.toNumber : Operand → Number
  | number m => m
  | text t => numberOfText t

/-- Two operands meet as texts when both are texts, and else by their numbers. -/
def Operand.meet {α : Type} (texts : Text → Text → Except Mishap α)
    (numbers : Number → Number → Except Mishap α) : Operand → Operand → Except Mishap α
  | text s, text t => texts s t
  | p, q => numbers p.toNumber q.toNumber

/-- The operand that a value is; its text may be refused. -/
def Value.operand (v : Value) : Except Mishap Operand :=
  match v.number? with
  | some m => .ok (.number m)
  | none => v.toText.map .text

/-- Two values that are not missing meet as their operands. -/
def Value.meet {α : Type} (texts : Text → Text → Except Mishap α)
    (numbers : Number → Number → Except Mishap α) (a b : Value) : Except Mishap α := do
  let p ← a.operand
  let q ← b.operand
  p.meet texts numbers q

theorem operand_number {v : Value} {m : Number} (h : v.number? = some m) :
    v.operand = .ok (.number m) := by
  unfold Value.operand
  rw [h]

theorem operand_other {v : Value} (h : v.number? = none) :
    v.operand = v.toText.map .text := by
  unfold Value.operand
  rw [h]

theorem number_or_other (v : Value) : (∃ m, v.number? = some m) ∨ v.number? = none := by
  cases v.number? with
  | some m => exact .inl ⟨m, rfl⟩
  | none => exact .inr rfl

theorem map_ok {ε α β : Type} (f : α → β) (a : α) : (Except.ok a : Except ε α).map f = .ok (f a) :=
  rfl

/-- The primitives of two values meet as the operands that the values are. -/
theorem meet_eq {α : Type} {a b : Value} (texts : Text → Text → Except Mishap α)
    (numbers : Number → Number → Except Mishap α) (ha : a ≠ .null) (hb : b ≠ .null) :
    (do
      match ← a.toPrimitive, ← b.toPrimitive with
      | .text s, .text t => texts s t
      | p, q => numbers (← p.toNumber) (← q.toNumber)) = a.meet texts numbers b := by
  unfold Value.meet
  rcases number_or_other a with ⟨m, hm⟩ | ha'
  · rw [toPrimitive_number hm, operand_number hm, ok_bind, ok_bind]
    rcases number_or_other b with ⟨n, hn⟩ | hb'
    · rw [toPrimitive_number hn, operand_number hn, ok_bind, ok_bind]
      split
      · cases hm
      · rw [toNumber_number hm, toNumber_number hn, ok_bind, ok_bind]
        rfl
    · rw [toPrimitive_other hb hb', operand_other hb']
      cases b.toText with
      | error e => rfl
      | ok t =>
        rw [map_ok, map_ok, ok_bind, ok_bind]
        split
        · cases hm
        · rw [toNumber_number hm, ok_bind]
          rfl
  · rw [toPrimitive_other ha ha', operand_other ha']
    cases a.toText with
    | error e => rfl
    | ok s =>
      rw [map_ok, map_ok, ok_bind, ok_bind]
      rcases number_or_other b with ⟨n, hn⟩ | hb'
      · rw [toPrimitive_number hn, operand_number hn, ok_bind, ok_bind]
        split
        · cases hn
        · rw [toNumber_number hn]
          rfl
      · rw [toPrimitive_other hb hb', operand_other hb']
        cases b.toText with
        | error e => rfl
        | ok t => rfl

theorem isNull_eq_false {v : Value} (h : v ≠ .null) : v.isNull = false := by
  cases v with
  | null => exact absurd rfl h
  | _ => rfl

/-- Two values that are not missing are ordered as their operands. -/
theorem compare?_operands {a b : Value} (ha : a ≠ .null) (hb : b ≠ .null) :
    a.compare? b = a.meet (fun s t => .ok (some (s.compare t))) Value.compareNumbers b := by
  have hnull : ¬(a.isNull || b.isNull) = true := by
    simp [isNull_eq_false ha, isNull_eq_false hb]
  unfold Value.compare?
  rw [if_neg hnull]
  exact meet_eq _ _ ha hb

theorem ne_null_of_number {v : Value} {m : Number} (h : v.number? = some m) : v ≠ .null := by
  rintro rfl
  cases h

theorem compare?_numbers {a b : Value} {m n : Number} (ha : a.number? = some m)
    (hb : b.number? = some n) : a.compare? b = Value.compareNumbers m n := by
  rw [compare?_operands (ne_null_of_number ha) (ne_null_of_number hb), Value.meet,
    operand_number ha, operand_number hb]
  rfl

/-- Of two values that are not missing, one a primitive, equality with coercion is that of
their operands. -/
theorem looseEquals_operands {a b : Value} (same : Bool) (ha : a ≠ .null) (hb : b ≠ .null)
    (hprimitive : a.isPrimitive = true ∨ b.isPrimitive = true) :
    a.looseEquals same b = a.meet (fun s t => .ok (s == t)) (fun m n => .ok (m.equals n)) b := by
  have hnull : ¬(a.isNull || b.isNull) = true := by
    simp [isNull_eq_false ha, isNull_eq_false hb]
  have hobject : ¬(!a.isPrimitive && !b.isPrimitive) = true := by
    rcases hprimitive with h | h <;> simp [h]
  unfold Value.looseEquals
  rw [if_neg hnull, if_neg hobject]
  exact meet_eq _ _ ha hb

end FieldGate
