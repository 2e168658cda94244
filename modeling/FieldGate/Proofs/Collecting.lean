-- The laws of collecting: it only looks, whatever comes of it. When all types are
-- well declared it succeeds, and then it has found a binding for each field with a
-- directive in force, and for no other.
import FieldGate.Proofs.Declarations
import FieldGate.Proofs.Placement

namespace FieldGate

/-! ## Steps on the cells -/

namespace Rewiring

variable {α β : Type} {x : Rewiring α} {resolvers : Resolvers}

theorem liftM_run (x : Logged α) (resolvers : Resolvers) :
    (liftM x : Rewiring α) resolvers = ⟨x.outcome, resolvers, x.log⟩ := rfl

theorem bind_of_ok {a : α} (f : α → Rewiring β) (h : (x resolvers).outcome = .ok a) :
    (x >>= f) resolvers
      = ⟨(f a (x resolvers).resolvers).outcome, (f a (x resolvers).resolvers).resolvers,
          (x resolvers).log ++ (f a (x resolvers).resolvers).log⟩ := by
  change andThen x f resolvers = _
  simp only [andThen, h]

theorem bind_of_error {e : Fault} (f : α → Rewiring β) (h : (x resolvers).outcome = .error e) :
    (x >>= f) resolvers = ⟨.error e, (x resolvers).resolvers, (x resolvers).log⟩ := by
  change andThen x f resolvers = _
  simp only [andThen, h]

theorem bind_eq_ok {f : α → Rewiring β} {b : β} :
    ((x >>= f) resolvers).outcome = .ok b ↔
      ∃ a, (x resolvers).outcome = .ok a ∧ (f a (x resolvers).resolvers).outcome = .ok b := by
  cases h : (x resolvers).outcome with
  | error e => simp [bind_of_error f h]
  | ok a => simp [bind_of_ok f h]

theorem bind_eq_error {f : α → Rewiring β} {e : Fault} :
    ((x >>= f) resolvers).outcome = .error e ↔
      (x resolvers).outcome = .error e
        ∨ ∃ a, (x resolvers).outcome = .ok a
          ∧ (f a (x resolvers).resolvers).outcome = .error e := by
  cases h : (x resolvers).outcome with
  | error e' => simp [bind_of_error f h]
  | ok a => simp [bind_of_ok f h]

end Rewiring

/-- What is logged when "greater than" passes for equal values too. -/
def legacyRecord : LogRecord := ⟨.warning, legacyWarning⟩

/-- Steps that only look: no resolver is replaced, and no field is logged as
protected. -/
structure Looks {α : Type} (x : Rewiring α) : Prop where
  resolvers : ∀ resolvers, (x resolvers).resolvers = resolvers
  log : ∀ resolvers, ∀ r ∈ (x resolvers).log, r = legacyRecord

namespace Looks

variable {α β : Type}

theorem pure (a : α) : Looks (pure a : Rewiring α) where
  resolvers := fun _ => rfl
  log := fun _ _ hr => absurd hr List.not_mem_nil

theorem ofLogged {x : Logged α} (h : ∀ r ∈ x.log, r = legacyRecord) :
    Looks (Rewiring.ofLogged x) where
  resolvers := fun _ => rfl
  log := fun _ => h

theorem bind {x : Rewiring α} {f : α → Rewiring β} (hx : Looks x) (hf : ∀ a, Looks (f a)) :
    Looks (x >>= f) := by
  refine ⟨fun resolvers => ?_, fun resolvers => ?_⟩
  · cases h : (x resolvers).outcome with
    | error e => rw [Rewiring.bind_of_error f h, hx.resolvers]
    | ok a => rw [Rewiring.bind_of_ok f h, (hf a).resolvers, hx.resolvers]
  · cases h : (x resolvers).outcome with
    | error e =>
      rw [Rewiring.bind_of_error f h]
      exact hx.log resolvers
    | ok a =>
      rw [Rewiring.bind_of_ok f h]
      intro r hr
      rcases List.mem_append.mp hr with hr | hr
      · exact hx.log resolvers r hr
      · exact (hf a).log _ r hr

end Looks

/-! ## Collecting only looks -/

namespace Binder

theorem evaluatorFor_ok {b : Binder} {typeName fieldName : Text} {declarations : List Value}
    {checks : List CompiledCheck} (h : compileChecks declarations = .ok checks) :
    b.evaluatorFor typeName fieldName declarations
      = ⟨.ok ⟨b.settings, checks⟩,
          if !b.settings.strictGreaterThan && checks.any Evaluator.asksGreaterThan then
            [legacyRecord]
          else []⟩ := by
  simp only [evaluatorFor, h, Logged.liftM_fault, Logged.ok_bind, Evaluator.ofChecks]
  split <;> rfl

theorem evaluatorFor_error {b : Binder} {typeName fieldName : Text} {declarations : List Value}
    {e : Fault} (h : compileChecks declarations = .error e) :
    b.evaluatorFor typeName fieldName declarations
      = ⟨.error (e.atField (Binding.qualifiedName typeName fieldName)), []⟩ := by
  simp only [evaluatorFor, h, Logged.liftM_fault, Logged.error_bind]
  rfl

theorem evaluatorFor_log (b : Binder) (typeName fieldName : Text) (declarations : List Value) :
    ∀ r ∈ (b.evaluatorFor typeName fieldName declarations).log, r = legacyRecord := by
  cases h : compileChecks declarations with
  | error e => simp [evaluatorFor_error h]
  | ok checks =>
    rw [evaluatorFor_ok h]
    split <;> simp

theorem looks_silently {α : Type} (x : Except Fault α) :
    Looks (Rewiring.ofLogged (Logged.silently x)) :=
  .ofLogged fun _ hr => absurd hr List.not_mem_nil

theorem looks_bindingOf (b : Binder) (t : TypeOf Cell) (f : FieldOf Cell)
    (declared : Option (List Value)) : Looks (b.bindingOf t f declared) := by
  cases declared with
  | none => exact .pure none
  | some declarations =>
    exact .bind (.ofLogged (b.evaluatorFor_log t.name f.name declarations)) fun _ => .pure _

theorem looks_collectField (b : Binder) (t : TypeOf Cell) (ofType : Option (List Value))
    (f : FieldOf Cell) : Looks (b.collectField t ofType f) := by
  cases ofType with
  | none => exact .bind (looks_silently _) (b.looks_bindingOf t f)
  | some declarations => exact b.looks_bindingOf t f (some declarations)

theorem looks_collectFields (b : Binder) (t : TypeOf Cell) (ofType : Option (List Value))
    (fields : List (FieldOf Cell)) : Looks (b.collectFields t ofType fields) := by
  induction fields with
  | nil => exact .pure []
  | cons f rest ih =>
    exact .bind (b.looks_collectField t ofType f) fun _ => .bind ih fun _ => .pure _

theorem looks_collectType (b : Binder) (t : TypeOf Cell) : Looks (b.collectType t) := by
  unfold collectType
  split
  · exact .bind (looks_silently _) fun ofType => b.looks_collectFields t ofType t.fields
  · exact .pure []

/-- Whatever comes of the collecting, it only looks. -/
theorem looks_collectTypes (b : Binder) (types : List (TypeOf Cell)) :
    Looks (b.collectTypes types) := by
  induction types with
  | nil => exact .pure []
  | cons t rest ih =>
    exact .bind (b.looks_collectType t) fun _ => .bind ih fun _ => .pure _

end Binder

/-! ## What is in force -/

/-- Directives are bound on object types, introspection types apart. -/
def Bindable (t : TypeOf Cell) : Prop :=
  t.kind = .object ∧ ¬TypeOf.introspectionStart <+: t.name

theorem isBindable_iff {t : TypeOf Cell} : t.isBindable = true ↔ Bindable t := by
  rw [TypeOf.isBindable, Bindable, Bool.and_eq_true, Bool.not_eq_true', decide_eq_true_iff,
    ← Bool.not_eq_true, List.isPrefixOf_iff_prefix, and_comm]

/-- The checks that a directive declares, compiled. -/
def CompilesTo (d : Directive) (checks : List CompiledCheck) : Prop :=
  ∃ declarations, Declares d declarations ∧ Compile declarations checks

namespace Binder

/-- The directive in force for a field: the first on the nodes of its type, or the
first on its own node when there is none on its type. -/
def InForce (b : Binder) (t : TypeOf Cell) (f : FieldOf Cell) (d : Directive) : Prop :=
  Bindable t ∧ (IsFirst b.Names t.nodes.flatten d
    ∨ (∀ d' ∈ t.nodes.flatten, ¬b.Names d') ∧ IsFirst b.Names f.node.toList.flatten d)

theorem InForce.unique {b : Binder} {t : TypeOf Cell} {f : FieldOf Cell} {d d' : Directive}
    (h : b.InForce t f d) (h' : b.InForce t f d') : d = d' := by
  obtain ⟨_, hd | ⟨hnone, hd⟩⟩ := h
  · obtain ⟨_, hd' | ⟨hnone', _⟩⟩ := h'
    · exact hd.unique hd'
    · exact absurd hd.holds (hnone' d hd.mem)
  · obtain ⟨_, hd' | ⟨_, hd'⟩⟩ := h'
    · exact absurd hd'.holds (hnone d' hd'.mem)
    · exact hd.unique hd'

/-- What is collected of some fields in order: a binding with the checks in force,
or nothing when no directive is in force. -/
inductive Collected (b : Binder) : List (TypeOf Cell × FieldOf Cell) → List Binding → Prop
  | nil : Collected b [] []
  | skipped {t : TypeOf Cell} {f : FieldOf Cell} {places : List (TypeOf Cell × FieldOf Cell)}
      {bindings : List Binding} : (∀ d, ¬b.InForce t f d) → Collected b places bindings →
      Collected b ((t, f) :: places) bindings
  | bound {t : TypeOf Cell} {f : FieldOf Cell} {d : Directive} {checks : List CompiledCheck}
      {places : List (TypeOf Cell × FieldOf Cell)} {bindings : List Binding} :
      b.InForce t f d → CompilesTo d checks → Collected b places bindings →
      Collected b ((t, f) :: places)
        (⟨t.name, f.name, f.resolver, ⟨b.settings, checks⟩⟩ :: bindings)

namespace Collected

variable {b : Binder} {places places' : List (TypeOf Cell × FieldOf Cell)}
  {bindings bindings' : List Binding}

theorem append (h : b.Collected places bindings) (h' : b.Collected places' bindings') :
    b.Collected (places ++ places') (bindings ++ bindings') := by
  induction h with
  | nil => exact h'
  | skipped hnone _ ih => exact .skipped hnone ih
  | bound hforce hchecks _ ih => exact .bound hforce hchecks ih

/-- There is only one way to collect. -/
theorem unique (h : b.Collected places bindings) (h' : b.Collected places bindings') :
    bindings = bindings' := by
  induction h generalizing bindings' with
  | nil =>
    cases h'
    rfl
  | skipped hnone _ ih =>
    cases h' with
    | skipped _ hrest => exact ih hrest
    | bound hforce _ _ => exact absurd hforce (hnone _)
  | bound hforce hchecks _ ih =>
    cases h' with
    | skipped hnone _ => exact absurd hforce (hnone _)
    | bound hforce' hchecks' hrest =>
      obtain rfl := hforce.unique hforce'
      obtain ⟨declarations, hdeclares, hcompiled⟩ := hchecks
      obtain ⟨others, hdeclares', hcompiled'⟩ := hchecks'
      obtain rfl := hdeclares.unique hdeclares'
      obtain rfl := hcompiled.unique hcompiled'
      rw [ih hrest]

/-- Only the fields themselves are bound. -/
theorem cells (h : b.Collected places bindings) :
    ∀ cell ∈ bindings.map Binding.cell, cell ∈ places.map fun p => p.2.resolver := by
  induction h with
  | nil => exact fun _ hcell => hcell
  | skipped _ _ ih => exact fun cell hcell => List.mem_cons_of_mem _ (ih cell hcell)
  | bound _ _ _ ih =>
    intro cell hcell
    rcases List.mem_cons.mp hcell with rfl | hcell
    · exact List.mem_cons_self
    · exact List.mem_cons_of_mem _ (ih cell hcell)

/-- Every directive in force compiled. -/
theorem compiles (h : b.Collected places bindings) {t : TypeOf Cell} {f : FieldOf Cell}
    {d : Directive} (hplace : (t, f) ∈ places) (hforce : b.InForce t f d) :
    ∃ checks, CompilesTo d checks := by
  induction h with
  | nil => exact absurd hplace List.not_mem_nil
  | skipped hnone _ ih =>
    rcases List.mem_cons.mp hplace with heq | hplace
    · obtain ⟨rfl, rfl⟩ := Prod.mk.inj heq
      exact absurd hforce (hnone d)
    · exact ih hplace
  | @bound _ _ _ checks _ _ hforce' hchecks _ ih =>
    rcases List.mem_cons.mp hplace with heq | hplace
    · obtain ⟨rfl, rfl⟩ := Prod.mk.inj heq
      obtain rfl := hforce.unique hforce'
      exact ⟨checks, hchecks⟩
    · exact ih hplace

end Collected

/-! ## What collecting gives -/

theorem bindingOf_ok {b : Binder} {t : TypeOf Cell} {f : FieldOf Cell}
    {declared : Option (List Value)} {resolvers : Resolvers} {found : Option Binding}
    (h : (b.bindingOf t f declared resolvers).outcome = .ok found) :
    declared = none ∧ found = none
    ∨ ∃ declarations checks, declared = some declarations ∧ Compile declarations checks
        ∧ found = some ⟨t.name, f.name, f.resolver, ⟨b.settings, checks⟩⟩ := by
  cases declared with
  | none => exact .inl ⟨rfl, (Except.ok.inj h).symm⟩
  | some declarations =>
    obtain ⟨evaluator, hevaluator, hfound⟩ := Rewiring.bind_eq_ok.mp h
    cases hchecks : compileChecks declarations with
    | error e =>
      rw [Rewiring.liftM_run, evaluatorFor_error hchecks] at hevaluator
      cases hevaluator
    | ok checks =>
      rw [Rewiring.liftM_run, evaluatorFor_ok hchecks] at hevaluator
      obtain rfl := Except.ok.inj hevaluator
      exact .inr ⟨declarations, checks, rfl, compileChecks_eq_ok.mp hchecks,
        (Except.ok.inj hfound).symm⟩

/-- A field that is collected without a binding has no directive in force; any other
is bound with the checks of the one in force. -/
theorem collectField_ok {b : Binder} {t : TypeOf Cell} {ofType : Option (List Value)}
    {f : FieldOf Cell} {resolvers : Resolvers} {found : Option Binding}
    (hbindable : Bindable t) (hofType : b.declarations? t.nodes = .ok ofType)
    (h : (b.collectField t ofType f resolvers).outcome = .ok found) :
    (∀ d, ¬b.InForce t f d) ∧ found = none
    ∨ ∃ d checks, b.InForce t f d ∧ CompilesTo d checks
        ∧ found = some ⟨t.name, f.name, f.resolver, ⟨b.settings, checks⟩⟩ := by
  cases ofType with
  | some declarations =>
    obtain ⟨d, hd, hdeclares⟩ := declarations?_eq_some.mp hofType
    rcases bindingOf_ok h with ⟨hnone, -⟩ | ⟨_, checks, hsome, hchecks, rfl⟩
    · cases hnone
    · obtain rfl := Option.some.inj hsome
      exact .inr ⟨d, checks, ⟨hbindable, .inl hd⟩, ⟨declarations, hdeclares, hchecks⟩, rfl⟩
  | none =>
    have htype := declarations?_eq_none.mp hofType
    obtain ⟨declared, hdeclared, hfound⟩ := Rewiring.bind_eq_ok.mp h
    rcases bindingOf_ok hfound with ⟨rfl, rfl⟩ | ⟨declarations, checks, rfl, hchecks, rfl⟩
    · have hfield := declarations?_eq_none.mp hdeclared
      refine .inl ⟨?_, rfl⟩
      rintro d ⟨-, hd | ⟨-, hd⟩⟩
      · exact htype d hd.mem hd.holds
      · exact hfield d hd.mem hd.holds
    · obtain ⟨d, hd, hdeclares⟩ := declarations?_eq_some.mp hdeclared
      exact .inr ⟨d, checks, ⟨hbindable, .inr ⟨htype, hd⟩⟩, ⟨declarations, hdeclares, hchecks⟩,
        rfl⟩

theorem collectFields_ok {b : Binder} {t : TypeOf Cell} {ofType : Option (List Value)}
    {fields : List (FieldOf Cell)} {resolvers : Resolvers} {bindings : List Binding}
    (hbindable : Bindable t) (hofType : b.declarations? t.nodes = .ok ofType)
    (h : (b.collectFields t ofType fields resolvers).outcome = .ok bindings) :
    b.Collected (fields.map fun f => (t, f)) bindings := by
  induction fields generalizing resolvers bindings with
  | nil =>
    obtain rfl := Except.ok.inj h
    exact .nil
  | cons f rest ih =>
    obtain ⟨found, hfound, h⟩ := Rewiring.bind_eq_ok.mp h
    obtain ⟨others, hothers, h⟩ := Rewiring.bind_eq_ok.mp h
    obtain rfl := Except.ok.inj h
    rcases collectField_ok hbindable hofType hfound with
      ⟨hnone, rfl⟩ | ⟨d, checks, hd, hchecks, rfl⟩
    · exact .skipped hnone (ih hothers)
    · exact .bound hd hchecks (ih hothers)

theorem collected_unbindable {b : Binder} {t : TypeOf Cell} (h : ¬Bindable t)
    (fields : List (FieldOf Cell)) : b.Collected (fields.map fun f => (t, f)) [] := by
  induction fields with
  | nil => exact .nil
  | cons f rest ih => exact .skipped (fun _ hforce => h hforce.1) ih

theorem collectType_ok {b : Binder} {t : TypeOf Cell} {resolvers : Resolvers}
    {bindings : List Binding} (h : (b.collectType t resolvers).outcome = .ok bindings) :
    b.Collected (t.fields.map fun f => (t, f)) bindings := by
  unfold collectType at h
  split at h
  · rename_i hbindable
    obtain ⟨ofType, hofType, h⟩ := Rewiring.bind_eq_ok.mp h
    exact collectFields_ok (isBindable_iff.mp hbindable) hofType h
  · rename_i hbindable
    obtain rfl := Except.ok.inj h
    exact collected_unbindable (mt isBindable_iff.mpr hbindable) t.fields

theorem collectTypes_ok {b : Binder} {types : List (TypeOf Cell)} {resolvers : Resolvers}
    {bindings : List Binding} (h : (b.collectTypes types resolvers).outcome = .ok bindings) :
    b.Collected (placesOf types) bindings := by
  induction types generalizing resolvers bindings with
  | nil =>
    obtain rfl := Except.ok.inj h
    exact .nil
  | cons t rest ih =>
    obtain ⟨ofType, hofType, h⟩ := Rewiring.bind_eq_ok.mp h
    obtain ⟨others, hothers, h⟩ := Rewiring.bind_eq_ok.mp h
    obtain rfl := Except.ok.inj h
    exact (collectType_ok hofType).append (ih hothers)

/-! ## When collecting succeeds -/

/-- The directive of a type can be read, and all that is in force for its fields
compiles. -/
structure WellDeclared (b : Binder) (t : TypeOf Cell) : Prop where
  readable : ∀ d, IsFirst b.Names t.nodes.flatten d → ∃ declarations, Declares d declarations
  compiles : ∀ f ∈ t.fields, ∀ d, b.InForce t f d → ∃ checks, CompilesTo d checks

theorem bindingOf_succeeds {b : Binder} {t : TypeOf Cell} {f : FieldOf Cell}
    {declared : Option (List Value)} (resolvers : Resolvers)
    (h : ∀ declarations, declared = some declarations →
      ∃ checks, Compile declarations checks) :
    ∃ found, (b.bindingOf t f declared resolvers).outcome = .ok found := by
  cases declared with
  | none => exact ⟨none, rfl⟩
  | some declarations =>
    obtain ⟨checks, hchecks⟩ := h declarations rfl
    refine ⟨_, Rewiring.bind_eq_ok.mpr ⟨⟨b.settings, checks⟩, ?_, rfl⟩⟩
    rw [Rewiring.liftM_run, evaluatorFor_ok (compileChecks_eq_ok.mpr hchecks)]

theorem collectField_succeeds {b : Binder} {t : TypeOf Cell} {ofType : Option (List Value)}
    {f : FieldOf Cell} (resolvers : Resolvers) (hbindable : Bindable t)
    (hofType : b.declarations? t.nodes = .ok ofType)
    (h : ∀ d, b.InForce t f d → ∃ checks, CompilesTo d checks) :
    ∃ found, (b.collectField t ofType f resolvers).outcome = .ok found := by
  -- What is read of a directive in force compiles.
  have hcompiles {d : Directive} {declarations : List Value} (hforce : b.InForce t f d)
      (hdeclares : Declares d declarations) : ∃ checks, Compile declarations checks := by
    obtain ⟨checks, _, hdeclares', hchecks⟩ := h d hforce
    obtain rfl := hdeclares.unique hdeclares'
    exact ⟨checks, hchecks⟩
  cases ofType with
  | some declarations =>
    obtain ⟨d, hd, hdeclares⟩ := declarations?_eq_some.mp hofType
    apply bindingOf_succeeds
    intro others hothers
    obtain rfl := Option.some.inj hothers
    exact hcompiles ⟨hbindable, .inl hd⟩ hdeclares
  | none =>
    have htype := declarations?_eq_none.mp hofType
    obtain ⟨declared, hdeclared⟩ : ∃ declared, b.declarations? f.node.toList = .ok declared := by
      rw [declarations?_ok_iff]
      intro d hd
      obtain ⟨_, declarations, hdeclares, _⟩ := h d ⟨hbindable, .inr ⟨htype, hd⟩⟩
      exact ⟨declarations, hdeclares⟩
    have hbinding : ∃ found, (b.bindingOf t f declared resolvers).outcome = .ok found := by
      apply bindingOf_succeeds
      rintro declarations rfl
      obtain ⟨d, hd, hdeclares⟩ := declarations?_eq_some.mp hdeclared
      exact hcompiles ⟨hbindable, .inr ⟨htype, hd⟩⟩ hdeclares
    obtain ⟨found, hfound⟩ := hbinding
    exact ⟨found, Rewiring.bind_eq_ok.mpr ⟨declared, hdeclared, hfound⟩⟩

theorem collectFields_succeeds {b : Binder} {t : TypeOf Cell} {ofType : Option (List Value)}
    {fields : List (FieldOf Cell)} (resolvers : Resolvers) (hbindable : Bindable t)
    (hofType : b.declarations? t.nodes = .ok ofType)
    (h : ∀ f ∈ fields, ∀ d, b.InForce t f d → ∃ checks, CompilesTo d checks) :
    ∃ bindings, (b.collectFields t ofType fields resolvers).outcome = .ok bindings := by
  induction fields generalizing resolvers with
  | nil => exact ⟨[], rfl⟩
  | cons f rest ih =>
    obtain ⟨found, hfound⟩ :=
      collectField_succeeds resolvers hbindable hofType (h f List.mem_cons_self)
    obtain ⟨others, hothers⟩ := ih (b.collectField t ofType f resolvers).resolvers
      fun g hg => h g (List.mem_cons_of_mem f hg)
    exact ⟨found.toList ++ others, Rewiring.bind_eq_ok.mpr
      ⟨found, hfound, Rewiring.bind_eq_ok.mpr ⟨others, hothers, rfl⟩⟩⟩

theorem collectType_succeeds {b : Binder} {t : TypeOf Cell} (resolvers : Resolvers)
    (h : Bindable t → b.WellDeclared t) :
    ∃ bindings, (b.collectType t resolvers).outcome = .ok bindings := by
  unfold collectType
  split
  · rename_i hbindable
    rw [isBindable_iff] at hbindable
    obtain ⟨hreadable, hcompiles⟩ := h hbindable
    obtain ⟨ofType, hofType⟩ := declarations?_ok_iff.mpr hreadable
    obtain ⟨bindings, hbindings⟩ := collectFields_succeeds resolvers hbindable hofType hcompiles
    exact ⟨bindings, Rewiring.bind_eq_ok.mpr ⟨ofType, hofType, hbindings⟩⟩
  · exact ⟨[], rfl⟩

theorem collectTypes_succeeds {b : Binder} {types : List (TypeOf Cell)} (resolvers : Resolvers)
    (h : ∀ t ∈ types, Bindable t → b.WellDeclared t) :
    ∃ bindings, (b.collectTypes types resolvers).outcome = .ok bindings := by
  induction types generalizing resolvers with
  | nil => exact ⟨[], rfl⟩
  | cons t rest ih =>
    obtain ⟨bindings, hbindings⟩ := collectType_succeeds resolvers (h t List.mem_cons_self)
    obtain ⟨others, hothers⟩ := ih (b.collectType t resolvers).resolvers
      fun u hu => h u (List.mem_cons_of_mem t hu)
    exact ⟨bindings ++ others, Rewiring.bind_eq_ok.mpr
      ⟨bindings, hbindings, Rewiring.bind_eq_ok.mpr ⟨others, hothers, rfl⟩⟩⟩

/-- Every type that was collected could be read. -/
theorem readable_of_collectTypes {b : Binder} {types : List (TypeOf Cell)}
    {resolvers : Resolvers} {bindings : List Binding}
    (h : (b.collectTypes types resolvers).outcome = .ok bindings) :
    ∀ t ∈ types, Bindable t → ∃ ofType, b.declarations? t.nodes = .ok ofType := by
  induction types generalizing resolvers bindings with
  | nil => exact fun t ht => absurd ht List.not_mem_nil
  | cons t rest ih =>
    obtain ⟨found, hfound, h⟩ := Rewiring.bind_eq_ok.mp h
    obtain ⟨others, hothers, -⟩ := Rewiring.bind_eq_ok.mp h
    intro u hu hbindable
    rcases List.mem_cons.mp hu with rfl | hu
    · unfold collectType at hfound
      rw [if_pos (isBindable_iff.mpr hbindable)] at hfound
      obtain ⟨ofType, hofType, -⟩ := Rewiring.bind_eq_ok.mp hfound
      exact ⟨ofType, hofType⟩
    · exact ih hothers u hu hbindable

/-- Collecting succeeds just when all types are well declared. -/
theorem collectTypes_ok_iff {b : Binder} {types : List (TypeOf Cell)} (resolvers : Resolvers) :
    (∃ bindings, (b.collectTypes types resolvers).outcome = .ok bindings) ↔
      ∀ t ∈ types, Bindable t → b.WellDeclared t := by
  constructor
  · rintro ⟨bindings, h⟩ t ht hbindable
    refine ⟨declarations?_ok_iff.mp (readable_of_collectTypes h t ht hbindable), ?_⟩
    intro f hf d hforce
    exact (collectTypes_ok h).compiles (mem_placesOf ht hf) hforce
  · exact collectTypes_succeeds resolvers

end Binder

end FieldGate
