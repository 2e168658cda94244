-- The laws of declarations: which directive is in force for a field, which checks
-- it declares, and what these compile to.
import FieldGate.Directive
import FieldGate.Proofs.Outcomes

namespace FieldGate

/-! ## The first of a list -/

section First

variable {α : Type} {P : α → Prop} {xs : List α} {x y : α}

/-- The first item with a property. -/
def IsFirst (P : α → Prop) (xs : List α) (x : α) : Prop :=
  ∃ before after, xs = before ++ x :: after ∧ P x ∧ ∀ y ∈ before, ¬P y

theorem find?_eq_first {p : α → Bool} (hp : ∀ x, p x = true ↔ P x) :
    xs.find? p = some x ↔ IsFirst P xs x := by
  rw [List.find?_eq_some_iff_append]
  simp only [Bool.not_eq_true', ← Bool.not_eq_true, hp, IsFirst]
  constructor
  · rintro ⟨hx, before, after, rfl, hbefore⟩
    exact ⟨before, after, rfl, hx, hbefore⟩
  · rintro ⟨before, after, rfl, hx, hbefore⟩
    exact ⟨hx, before, after, rfl, hbefore⟩

theorem find?_eq_nothing {p : α → Bool} (hp : ∀ x, p x = true ↔ P x) :
    xs.find? p = none ↔ ∀ x ∈ xs, ¬P x := by
  simp only [List.find?_eq_none, hp]

/-- There is a first item with a property, or none has it. -/
theorem exists_first_or_none (P : α → Prop) (xs : List α) :
    (∃ x, IsFirst P xs x) ∨ ∀ x ∈ xs, ¬P x := by
  classical
  cases h : xs.find? fun x => decide (P x) with
  | none => exact .inr ((find?_eq_nothing fun x => decide_eq_true_iff).mp h)
  | some x => exact .inl ⟨x, (find?_eq_first fun x => decide_eq_true_iff).mp h⟩

theorem IsFirst.mem (h : IsFirst P xs x) : x ∈ xs := by
  obtain ⟨before, after, rfl, -⟩ := h
  exact List.mem_append_right before List.mem_cons_self

theorem IsFirst.holds (h : IsFirst P xs x) : P x := by
  obtain ⟨_, _, _, hx, _⟩ := h
  exact hx

theorem IsFirst.singleton (h : P x) : IsFirst P [x] x :=
  ⟨[], [], rfl, h, fun _ hy => absurd hy List.not_mem_nil⟩

theorem IsFirst.unique (h : IsFirst P xs x) (h' : IsFirst P xs y) : x = y := by
  classical
  rw [← find?_eq_first fun x => decide_eq_true_iff] at h h'
  exact Option.some.inj (h.symm.trans h')

end First

/-! ## Declared checks -/

/-- The value of the first argument that holds checks. -/
def ChecksArgument (d : Directive) (v : Value) : Prop :=
  IsFirst (fun a => a.1 = Binder.checksArgument) d.arguments (Binder.checksArgument, v)

/-- What a directive declares: nothing without the argument or with a null, one
check with an object, and the items of a list in order. -/
inductive Declares (d : Directive) : List Value → Prop
  | absent : (∀ a ∈ d.arguments, a.1 ≠ Binder.checksArgument) → Declares d []
  | null : ChecksArgument d .null → Declares d []
  | one {entries : List (Value × Value)} : ChecksArgument d (.map entries) →
      Declares d [.map entries]
  | many {items : List Value} : ChecksArgument d (.list items) → Declares d items

/-- The values that hold checks are the null, the maps and the lists. -/
theorem declarationsOf_eq_ok {b : Binder} {v : Value} {declarations : List Value} :
    b.declarationsOf v = .ok declarations ↔
      v = .null ∧ declarations = []
      ∨ (∃ entries, v = .map entries ∧ declarations = [v])
      ∨ v = .list declarations := by
  constructor
  · intro h
    unfold Binder.declarationsOf at h
    split at h
    · exact .inl ⟨rfl, (Except.ok.inj h).symm⟩
    · exact .inr (.inl ⟨_, rfl, (Except.ok.inj h).symm⟩)
    · exact .inr (.inr (congrArg Value.list (Except.ok.inj h)))
    · obtain ⟨_, _, h⟩ := bind_eq_ok.mp h
      obtain ⟨_, _, h⟩ := bind_eq_ok.mp h
      cases h
  · rintro (⟨rfl, rfl⟩ | ⟨entries, rfl, rfl⟩ | rfl)
    · rfl
    · rfl
    · rfl

theorem readDirective_eq_ok {b : Binder} {d : Directive} {declarations : List Value} :
    b.readDirective d = .ok declarations ↔ Declares d declarations := by
  have hname : ∀ a : Text × Value,
      decide (a.1 = Binder.checksArgument) = true ↔ a.1 = Binder.checksArgument :=
    fun a => decide_eq_true_iff
  unfold Binder.readDirective
  constructor
  · intro h
    cases hfirst : d.arguments.find? (fun a => a.1 = Binder.checksArgument) with
    | none =>
      rw [hfirst] at h
      obtain rfl := Except.ok.inj h
      exact .absent ((find?_eq_nothing hname).mp hfirst)
    | some argument =>
      obtain ⟨name, v⟩ := argument
      have hargument := (find?_eq_first hname).mp hfirst
      obtain rfl : name = Binder.checksArgument := hargument.holds
      rw [hfirst] at h
      rcases declarationsOf_eq_ok.mp h with ⟨rfl, rfl⟩ | ⟨entries, rfl, rfl⟩ | rfl
      · exact .null hargument
      · exact .one hargument
      · exact .many hargument
  · intro h
    cases h with
    | absent hnone => rw [(find?_eq_nothing hname).mpr hnone]
    | null hargument | one hargument | many hargument =>
      rw [(find?_eq_first hname).mpr hargument]
      rfl

theorem Declares.unique {d : Directive} {declarations others : List Value}
    (h : Declares d declarations) (h' : Declares d others) : declarations = others := by
  rw [← readDirective_eq_ok (b := .standard)] at h h'
  exact Except.ok.inj (h.symm.trans h')

/-! ## Compiled declarations -/

/-- Some declarations compile to some checks, one by one and in order. -/
def Compile (declarations : List Value) (checks : List CompiledCheck) : Prop :=
  List.Forall₂ (fun v check => compileCheck v = .ok check) declarations checks

theorem compileChecks_eq_ok {declarations : List Value} {checks : List CompiledCheck} :
    compileChecks declarations = .ok checks ↔ Compile declarations checks := by
  unfold Compile
  induction declarations generalizing checks with
  | nil =>
    rw [List.forall₂_nil_left_iff, compileChecks, Except.ok.injEq, eq_comm]
  | cons v rest ih =>
    rw [List.forall₂_cons_left_iff]
    simp only [← ih]
    constructor
    · intro h
      obtain ⟨check, hcheck, h⟩ := bind_eq_ok.mp h
      obtain ⟨others, hothers, h⟩ := bind_eq_ok.mp h
      exact ⟨check, others, hcheck, hothers, (Except.ok.inj h).symm⟩
    · rintro ⟨check, others, hcheck, hothers, rfl⟩
      exact bind_eq_ok.mpr ⟨check, hcheck, bind_eq_ok.mpr ⟨others, hothers, rfl⟩⟩

theorem Compile.unique {declarations : List Value} {checks others : List CompiledCheck}
    (h : Compile declarations checks) (h' : Compile declarations others) : checks = others := by
  rw [← compileChecks_eq_ok] at h h'
  exact Except.ok.inj (h.symm.trans h')

/-- Declarations compile just when each of them does. -/
theorem exists_compile_iff {declarations : List Value} :
    (∃ checks, Compile declarations checks)
      ↔ ∀ v ∈ declarations, ∃ check, compileCheck v = .ok check := by
  unfold Compile
  induction declarations with
  | nil => simp
  | cons v rest ih =>
    rw [List.forall_mem_cons, ← ih]
    constructor
    · rintro ⟨checks, h⟩
      obtain ⟨check, others, hcheck, hothers, -⟩ := List.forall₂_cons_left_iff.mp h
      exact ⟨⟨check, hcheck⟩, others, hothers⟩
    · rintro ⟨⟨check, hcheck⟩, others, hothers⟩
      exact ⟨check :: others, .cons hcheck hothers⟩

/-- The first declaration that does not compile ends the compiling. -/
theorem compileChecks_error {before : List Value} {v : Value} {e : Fault} (after : List Value)
    (hbefore : ∀ u ∈ before, ∃ c, compileCheck u = .ok c) (hv : compileCheck v = .error e) :
    compileChecks (before ++ v :: after) = .error e := by
  induction before with
  | nil => exact bind_eq_error.mpr (.inl hv)
  | cons u before ih =>
    rw [List.forall_mem_cons] at hbefore
    obtain ⟨c, hc⟩ := hbefore.1
    exact bind_eq_error.mpr
      (.inr ⟨c, hc, bind_eq_error.mpr (.inl (ih hbefore.2))⟩)

/-! ## The directive of some nodes -/

theorem sameKey_text {v : Value} {t : Text} : v.sameKey (.text t) = true ↔ v = .text t := by
  cases v <;> simp [Value.sameKey, Value.number?]

namespace Binder

/-- The directive has the name that is bound. -/
def Names (b : Binder) (d : Directive) : Prop := b.name = .text d.name

theorem matchesName_iff {b : Binder} (d : Directive) : b.matchesName d = true ↔ b.Names d :=
  sameKey_text

theorem declarations?_eq_none {b : Binder} {nodes : List Node} :
    b.declarations? nodes = .ok none ↔ ∀ d ∈ nodes.flatten, ¬b.Names d := by
  rw [← find?_eq_nothing matchesName_iff, declarations?]
  cases hfirst : nodes.flatten.find? b.matchesName with
  | none => simp
  | some d => simp [map_eq_ok]

theorem declarations?_eq_some {b : Binder} {nodes : List Node} {declarations : List Value} :
    b.declarations? nodes = .ok (some declarations) ↔
      ∃ d, IsFirst b.Names nodes.flatten d ∧ Declares d declarations := by
  simp only [← find?_eq_first matchesName_iff, ← readDirective_eq_ok (b := b), declarations?]
  cases hfirst : nodes.flatten.find? b.matchesName with
  | none => simp
  | some d => simp [map_eq_ok]

/-- Nodes can be read just when their directive, if they have one, declares
something. -/
theorem declarations?_ok_iff {b : Binder} {nodes : List Node} :
    (∃ declared, b.declarations? nodes = .ok declared) ↔
      ∀ d, IsFirst b.Names nodes.flatten d → ∃ declarations, Declares d declarations := by
  constructor
  · rintro ⟨declared, h⟩ d hd
    cases declared with
    | none => exact absurd hd.holds (declarations?_eq_none.mp h d hd.mem)
    | some declarations =>
      obtain ⟨d', hd', hdeclares⟩ := declarations?_eq_some.mp h
      obtain rfl := hd.unique hd'
      exact ⟨declarations, hdeclares⟩
  · intro h
    rcases exists_first_or_none b.Names nodes.flatten with ⟨d, hd⟩ | hnone
    · obtain ⟨declarations, hdeclares⟩ := h d hd
      exact ⟨some declarations, declarations?_eq_some.mpr ⟨d, hd, hdeclares⟩⟩
    · exact ⟨none, declarations?_eq_none.mpr hnone⟩

end Binder

end FieldGate
