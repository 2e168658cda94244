-- The laws of the two equalities and of the order, between any values. Equality without
-- coercion is sameness of what a value is known by, and equality with coercion extends it;
-- the order turns round when the two sides do.
import FieldGate.Proofs.ValueOrder

namespace FieldGate

/-! ## What a value is known by -/

/-- What a value is known by when nothing is coerced: a number by its place, an operator by
itself, and any other object by its reference. -/
inductive Face (Ref : Type) where
  | missing
  | flag (b : Bool)
  | place (p : Place)
  | text (t : Text)
  | operator (kind : OperatorKind)
  | undefined
  | object (r : Ref)

/-- What the value at a reference is known by. NaN is known by nothing. -/
def Value.face? {Ref : Type} (r : Ref) : Value → Option (Face Ref)
  | null => some .missing
  | bool b => some (.flag b)
  | int n => (Number.integer n).place?.map .place
  | float d => (Number.double d).place?.map .place
  | text t => some (.text t)
  | operator kind => some (.operator kind)
  | undefined => some .undefined
  | _ => some (.object r)

section Equality

variable {Ref : Type} {r s : Ref} {same : Bool} {a b : Value}

theorem face?_eq_none_iff : a.face? r = none ↔ a = .float .nan := by
  cases a with
  | int n => simp [Value.face?, place?_eq_none_iff]
  | float d => simp [Value.face?, place?_eq_none_iff]
  | _ => simp [Value.face?]

/-! ## Equality without coercion -/

/-- A primitive is equal to what is known by the same, wherever the two are. -/
theorem strictEquals_primitive (ha : a.isPrimitive = true) :
    a.strictEquals same b = true ↔ ∃ f, b.face? s = some f ∧ a.face? r = some f := by
  cases a with
  | null => cases b <;> simp [Value.strictEquals, Value.face?]
  | bool p => cases b <;> simp [Value.strictEquals, Value.face?]
  | int n =>
    cases b <;> simp [Value.strictEquals, Value.face?, Value.number?, Value.isPrimitive,
      number_equals_iff, and_comm]
  | float n =>
    cases b <;> simp [Value.strictEquals, Value.face?, Value.number?, Value.isPrimitive,
      number_equals_iff, and_comm]
  | text t =>
    cases b <;> simp [Value.strictEquals, Value.face?, Value.number?, Value.isPrimitive]
  | _ => cases ha

/-- An object is equal to what is known by the same when the two are apart. -/
theorem strictEquals_apart (ha : a.isPrimitive = false) (hrs : r ≠ s) :
    a.strictEquals false b = true ↔ ∃ f, b.face? s = some f ∧ a.face? r = some f := by
  cases a with
  | null | bool _ | int _ | float _ | text _ => cases ha
  | operator _ | undefined =>
    cases b <;> simp [Value.strictEquals, Value.face?, Value.number?, Value.isPrimitive,
      Value.identical]
  | _ =>
    cases b <;> simp [Value.strictEquals, Value.face?, Value.number?, Value.isPrimitive,
      Value.identical, hrs]

theorem strictEquals_itself (ha : a.isPrimitive = false) : a.strictEquals true a = true := by
  cases a with
  | null | bool _ | int _ | float _ | text _ => cases ha
  | operator _ => simp [Value.strictEquals, Value.number?, Value.isPrimitive, Value.identical]
  | _ => rfl

/-- Two values at references are equal when they are known by the same. One reference holds
one value. -/
theorem strictEquals_iff_face? [DecidableEq Ref] (hone : r = s → a = b) :
    a.strictEquals (decide (r = s)) b = true
      ↔ ∃ f, b.face? s = some f ∧ a.face? r = some f := by
  by_cases hprimitive : a.isPrimitive = true
  · exact strictEquals_primitive hprimitive
  · have ha : a.isPrimitive = false := by simpa using hprimitive
    by_cases hrs : r = s
    · subst hrs
      obtain rfl := hone rfl
      have hne : a ≠ .float .nan := by
        rintro rfl
        cases ha
      obtain ⟨f, hf⟩ := Option.ne_none_iff_exists'.mp (mt (face?_eq_none_iff (r := r)).mp hne)
      rw [decide_eq_true rfl, strictEquals_itself ha]
      exact ⟨fun _ => ⟨f, hf, hf⟩, fun _ => rfl⟩
    · rw [decide_eq_false hrs]
      exact strictEquals_apart ha hrs

/-! ## Equality with coercion -/

theorem looseEquals_objects (ha : a.isPrimitive = false) (hb : b.isPrimitive = false) :
    a.looseEquals same b = .ok (a.strictEquals same b) := by
  cases a with
  | null | bool _ | int _ | float _ | text _ => cases ha
  | _ =>
    cases b with
    | null | bool _ | int _ | float _ | text _ => cases hb
    | _ => rfl

theorem equals_self {m : Number} : m.equals m = true ↔ m.place? ≠ none := by
  rw [number_equals_iff, Option.ne_none_iff_exists']
  simp

/-- Two values that are equal without coercion are equal with it. -/
theorem looseEquals_of_strictEquals (h : a.strictEquals same b = true) :
    a.looseEquals same b = .ok true := by
  cases a with
  | null =>
    cases b with
    | null => rfl
    | _ => cases h
  | bool p =>
    cases b with
    | bool q =>
      obtain rfl : p = q := by simpa [Value.strictEquals] using h
      exact congrArg Except.ok (equals_self.mpr nofun)
    | _ => cases h
  | int n =>
    cases b with
    | int _ | float _ => exact congrArg Except.ok h
    | _ => cases h
  | float d =>
    cases b with
    | int _ | float _ => exact congrArg Except.ok h
    | _ => cases h
  | text t =>
    cases b with
    | text _ => exact congrArg Except.ok h
    | _ => cases h
  | _ =>
    cases b with
    | null | bool _ | int _ | float _ | text _ => cases h
    | _ => exact congrArg Except.ok h

/-- What two operands meet in turns round when their texts and their numbers do. -/
theorem operand_meet_comm {α : Type} {texts : Text → Text → Except Mishap α}
    {numbers : Number → Number → Except Mishap α} (htexts : ∀ s t, texts s t = texts t s)
    (hnumbers : ∀ m n, numbers m n = numbers n m) (p q : Operand) :
    p.meet texts numbers q = q.meet texts numbers p := by
  cases p with
  | number m =>
    cases q with
    | number n => exact hnumbers m n
    | text t => exact hnumbers m (numberOfText t)
  | text s =>
    cases q with
    | number n => exact hnumbers (numberOfText s) n
    | text t => exact htexts s t

theorem operand_primitive (hnull : a ≠ .null) (ha : a.isPrimitive = true) :
    ∃ p, a.operand = .ok p := by
  cases a with
  | null => exact absurd rfl hnull
  | bool _ | int _ | float _ | text _ => exact ⟨_, rfl⟩
  | _ => cases ha

theorem number_equals_comm (m n : Number) : m.equals n = n.equals m := by
  rw [Bool.eq_iff_iff, number_equals_iff, number_equals_iff]
  simp only [and_comm]

/-- Two values, one of them sure to be an operand, meet from either side with one outcome. -/
theorem value_meet_comm {α : Type} {texts : Text → Text → Except Mishap α}
    {numbers : Number → Number → Except Mishap α} (htexts : ∀ s t, texts s t = texts t s)
    (hnumbers : ∀ m n, numbers m n = numbers n m)
    (h : (∃ p, a.operand = .ok p) ∨ ∃ q, b.operand = .ok q) :
    a.meet texts numbers b = b.meet texts numbers a := by
  unfold Value.meet
  rcases h with ⟨p, hp⟩ | ⟨q, hq⟩
  · rw [hp, ok_bind]
    cases b.operand with
    | error e => rfl
    | ok q => exact operand_meet_comm htexts hnumbers p q
  · rw [hq, ok_bind]
    cases a.operand with
    | error e => rfl
    | ok p => exact operand_meet_comm htexts hnumbers p q

/-- Of two values, one a primitive, equality with coercion is symmetric. So is its refusal,
since a primitive is never refused. -/
theorem looseEquals_comm (hprimitive : a.isPrimitive = true ∨ b.isPrimitive = true) :
    a.looseEquals same b = b.looseEquals same a := by
  by_cases ha : a = .null
  · subst ha
    cases b <;> rfl
  · by_cases hb : b = .null
    · subst hb
      cases a <;> rfl
    · rw [looseEquals_operands same ha hb hprimitive,
        looseEquals_operands same hb ha hprimitive.symm]
      apply value_meet_comm
      · exact fun s t => congrArg Except.ok Bool.beq_comm
      · exact fun m n => congrArg Except.ok (number_equals_comm m n)
      · exact hprimitive.imp (operand_primitive ha) (operand_primitive hb)

/-! ## The order -/

theorem compare?_missing (h : a = .null ∨ b = .null) : a.compare? b = .ok none := by
  rcases h with rfl | rfl
  · rfl
  · cases a <;> rfl

theorem compareNumbers_swap {m n : Number} {o o' : Option Ordering}
    (h : Value.compareNumbers m n = .ok o) (h' : Value.compareNumbers n m = .ok o') :
    o' = o.map Ordering.swap := by
  rw [compareNumbers_ok h, compareNumbers_ok h']
  exact number_compare?_swap m n

/-- The two orders of the same operands, one from each side, are each other's reverse. -/
theorem operand_order_swap {p q : Operand} {o o' : Option Ordering}
    (h : p.meet (fun s t => .ok (some (s.compare t))) Value.compareNumbers q = .ok o)
    (h' : q.meet (fun s t => .ok (some (s.compare t))) Value.compareNumbers p = .ok o') :
    o' = o.map Ordering.swap := by
  cases p with
  | number m => cases q <;> exact compareNumbers_swap h h'
  | text s =>
    cases q with
    | number n => exact compareNumbers_swap h h'
    | text t =>
      cases h
      cases h'
      exact congrArg some Std.OrientedCmp.eq_swap

/-- The two orders of the same values, one from each side, are each other's reverse. -/
theorem compare?_swap {o o' : Option Ordering} (h : a.compare? b = .ok o)
    (h' : b.compare? a = .ok o') : o' = o.map Ordering.swap := by
  by_cases hnull : a = .null ∨ b = .null
  · rw [compare?_missing hnull] at h
    rw [compare?_missing hnull.symm] at h'
    cases h
    cases h'
    rfl
  · obtain ⟨ha, hb⟩ := not_or.mp hnull
    rw [compare?_operands ha hb] at h
    rw [compare?_operands hb ha] at h'
    obtain ⟨p, hp, h⟩ := bind_eq_ok.mp h
    obtain ⟨q, hq, h⟩ := bind_eq_ok.mp h
    unfold Value.meet at h'
    rw [hq, hp, ok_bind, ok_bind] at h'
    exact operand_order_swap h h'

end Equality

/-! ## Values at references -/

/-- The relations between the values that references hold; two of the values are one object
when their references are one. Equality without coercion is symmetric and transitive and
holds of every value with itself but NaN; it is contained in equality with coercion, which is
symmetric too; and the order turns round with its two sides. -/
theorem the_equalities_are_nested_and_the_order_turns_round {Ref : Type} [DecidableEq Ref]
    (held : Ref → Value) :
    let strict (i j : Ref) := (held i).strictEquals (decide (i = j)) (held j)
    let loose (i j : Ref) := (held i).looseEquals (decide (i = j)) (held j)
    let order (i j : Ref) := (held i).compare? (held j)
    (∀ i j, strict i j = strict j i)
      ∧ (∀ i j k, strict i j = true → strict j k = true → strict i k = true)
      ∧ (∀ i, strict i i = true ↔ held i ≠ .float .nan)
      ∧ (∀ i j, strict i j = true → loose i j = .ok true)
      ∧ (∀ i j, loose i j = loose j i)
      ∧ ∀ i j o o', order i j = .ok o → order j i = .ok o' → o' = o.map Ordering.swap := by
  intro strict loose order
  have hface (i j : Ref) : strict i j = true
      ↔ ∃ f, (held j).face? j = some f ∧ (held i).face? i = some f :=
    strictEquals_iff_face? (congrArg held)
  have hsymm (i j : Ref) : strict i j = strict j i := by
    rw [Bool.eq_iff_iff, hface, hface]
    simp only [and_comm]
  refine ⟨hsymm, ?_, ?_, ?_, ?_, ?_⟩
  · intro i j k hij hjk
    obtain ⟨f, hj, hi⟩ := (hface i j).mp hij
    obtain ⟨g, hk, hj'⟩ := (hface j k).mp hjk
    obtain rfl := Option.some.inj (hj'.symm.trans hj)
    exact (hface i k).mpr ⟨g, hk, hi⟩
  · intro i
    rw [hface, ne_eq, ← face?_eq_none_iff (r := i), ← ne_eq, Option.ne_none_iff_exists']
    simp only [and_self]
  · exact fun i j h => looseEquals_of_strictEquals h
  · intro i j
    by_cases hprimitive : (held i).isPrimitive = true ∨ (held j).isPrimitive = true
    · have hsame : decide (i = j) = decide (j = i) := decide_eq_decide.mpr eq_comm
      exact (looseEquals_comm hprimitive).trans
        (congrArg (fun same => (held j).looseEquals same (held i)) hsame)
    · -- Two objects are equal with coercion just when they are equal without it.
      obtain ⟨hi, hj⟩ : (held i).isPrimitive = false ∧ (held j).isPrimitive = false := by
        simpa using hprimitive
      calc loose i j
        _ = .ok (strict i j) := looseEquals_objects hi hj
        _ = .ok (strict j i) := congrArg Except.ok (hsymm i j)
        _ = loose j i := (looseEquals_objects hj hi).symm
  · exact fun i j o o' => compare?_swap

/-- The two zeros are equal through the integer between them. -/
theorem the_zeros_are_one_place :
    let held : Fin 4 → Value :=
      ![.float (.zero true), .int 0, .float (.zero false), .list [.int 7]]
    (held 0).strictEquals false (held 1) = true ∧ (held 1).strictEquals false (held 2) = true
      ∧ (held 0).strictEquals false (held 2) = true
      ∧ (held 0).looseEquals false (held 2) = .ok true
      ∧ (held 3).compare? (held 0) = .ok (some .gt)
      ∧ (held 0).compare? (held 3) = .ok (some .lt) := by
  intro held
  obtain ⟨-, htrans, -, hnested, -, hswap⟩ :=
    the_equalities_are_nested_and_the_order_turns_round held
  have hfirst : (held 0).strictEquals false (held 1) = true := by decide +kernel
  have hsecond : (held 1).strictEquals false (held 2) = true := by decide +kernel
  have hthird : (held 0).strictEquals false (held 2) = true := htrans 0 1 2 hfirst hsecond
  have horder : (held 3).compare? (held 0) = .ok (some .gt) := by decide +kernel
  obtain ⟨o, ho⟩ : ∃ o, (held 0).compare? (held 3) = .ok o := ⟨some .lt, by decide +kernel⟩
  obtain rfl : o = some .lt := hswap 3 0 _ _ horder ho
  exact ⟨hfirst, hsecond, hthird, hnested 0 2 hthird, horder, ho⟩

end FieldGate
