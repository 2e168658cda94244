-- The laws of binding: all declarations are compiled before any resolver is
-- replaced. A fault leaves every resolver as it was, and after a success exactly
-- the declared fields are guarded, by exactly the checks in force.
import FieldGate.Proofs.Collecting

namespace FieldGate

/-! ## Protecting -/

namespace Binding

variable {common : Resolver}

/-- The first field is guarded and logged, and the others come after it. -/
theorem protectAll_cons (binding : Binding) (rest : List Binding) (resolvers : Resolvers) :
    let guarded := resolvers.replace binding.cell
      (binding.guard common (resolvers binding.cell))
    protectAll common (binding :: rest) resolvers
      = ⟨(protectAll common rest guarded).outcome, (protectAll common rest guarded).resolvers,
          ⟨.debug, binding.protectedMessage⟩ :: (protectAll common rest guarded).log⟩ :=
  Rewiring.bind_of_ok _ rfl

/-- Protecting succeeds, and logs every binding in order. -/
theorem protectAll_run (common : Resolver) (bindings : List Binding) (resolvers : Resolvers) :
    (protectAll common bindings resolvers).outcome = .ok ()
    ∧ (protectAll common bindings resolvers).log
        = bindings.map fun binding => ⟨.debug, binding.protectedMessage⟩ := by
  induction bindings generalizing resolvers with
  | nil => exact ⟨rfl, rfl⟩
  | cons binding rest ih =>
    obtain ⟨houtcome, hlog⟩ := ih
      (resolvers.replace binding.cell (binding.guard common (resolvers binding.cell)))
    rw [protectAll_cons, List.map_cons]
    exact ⟨houtcome, congrArg _ hlog⟩

/-- Where nothing is bound, the resolver stays. -/
theorem protectAll_other {bindings : List Binding} {cell : Cell} (resolvers : Resolvers)
    (h : cell ∉ bindings.map Binding.cell) :
    (protectAll common bindings resolvers).resolvers cell = resolvers cell := by
  induction bindings generalizing resolvers with
  | nil => rfl
  | cons binding rest ih =>
    rw [List.map_cons, List.mem_cons, not_or] at h
    rw [protectAll_cons, ih _ h.2, Resolvers.replace, if_neg h.1]

end Binding

namespace Binder

/-- Protecting what was collected guards every field with the checks in force around
its own resolver, and no other field. -/
theorem Collected.guards {b : Binder} {common : Resolver}
    {places : List (TypeOf Cell × FieldOf Cell)} {bindings : List Binding}
    (h : b.Collected places bindings) (hcells : (places.map fun p => p.2.resolver).Nodup)
    (resolvers : Resolvers) {t : TypeOf Cell} {f : FieldOf Cell} (hplace : (t, f) ∈ places) :
    (∀ d, b.InForce t f d → ∃ checks, CompilesTo d checks
      ∧ (Binding.protectAll common bindings resolvers).resolvers f.resolver
        = some (.guarded ((resolvers f.resolver).getD common) (.text f.name)
            ⟨b.settings, checks⟩))
    ∧ ((∀ d, ¬b.InForce t f d) →
      (Binding.protectAll common bindings resolvers).resolvers f.resolver
        = resolvers f.resolver) := by
  induction h generalizing resolvers with
  | nil => exact absurd hplace List.not_mem_nil
  | skipped hnone hrest ih =>
    obtain ⟨hfresh, hcells⟩ := List.nodup_cons.mp hcells
    rcases List.mem_cons.mp hplace with heq | hplace
    · obtain ⟨rfl, rfl⟩ := Prod.mk.inj heq
      refine ⟨fun d hforce => absurd hforce (hnone d), fun _ => ?_⟩
      exact Binding.protectAll_other resolvers (mt (hrest.cells _) hfresh)
    · exact ih hcells resolvers hplace
  | @bound _ g _ checks _ _ hforce hchecks hrest ih =>
    obtain ⟨hfresh, hcells⟩ := List.nodup_cons.mp hcells
    rw [Binding.protectAll_cons]
    rcases List.mem_cons.mp hplace with heq | hplace
    · obtain ⟨rfl, rfl⟩ := Prod.mk.inj heq
      refine ⟨fun d hforce' => ⟨checks, hforce.unique hforce' ▸ hchecks, ?_⟩,
        fun hnone => absurd hforce (hnone _)⟩
      rw [Binding.protectAll_other _ (mt (hrest.cells _) hfresh), Resolvers.replace, if_pos rfl]
      rfl
    · -- The cell of a later field is not the one that is replaced first.
      have hother : f.resolver ≠ g.resolver := by
        intro heq
        exact hfresh (List.mem_map.mpr ⟨_, hplace, heq⟩)
      obtain ⟨hguarded, hkept⟩ := ih hcells (resolvers.replace g.resolver
        (Binding.guard common ⟨_, g.name, g.resolver, ⟨b.settings, checks⟩⟩
          (resolvers g.resolver))) hplace
      rw [Resolvers.replace, if_neg hother] at hguarded hkept
      exact ⟨hguarded, hkept⟩

/-! ## Binding a schema -/

section Apply

variable {b : Binder} {common : Resolver}

/-- What binding can do: either the collecting ends in a fault and nothing else
happens, or all that was collected is protected. -/
theorem apply_cases (b : Binder) (common : Resolver) (schema : PlacedSchema) :
    (∃ e log, b.apply common schema = ⟨.error e, schema.resolvers, log⟩
      ∧ ∀ r ∈ log, r = legacyRecord)
    ∨ ∃ bindings log, b.Collected (placesOf schema.types) bindings
        ∧ (∀ r ∈ log, r = legacyRecord)
        ∧ b.apply common schema
          = ⟨.ok (), (Binding.protectAll common bindings schema.resolvers).resolvers,
              log ++ bindings.map fun binding => ⟨.debug, binding.protectedMessage⟩⟩ := by
  have hlooks := b.looks_collectTypes schema.types
  have hlog := hlooks.log schema.resolvers
  unfold apply rewire
  cases h : (b.collectTypes schema.types schema.resolvers).outcome with
  | error e =>
    refine .inl ⟨e, _, ?_, hlog⟩
    rw [Rewiring.bind_of_error _ h, hlooks.resolvers]
  | ok bindings =>
    obtain ⟨houtcome, hrecords⟩ :=
      Binding.protectAll_run common bindings schema.resolvers
    refine .inr ⟨bindings, _, collectTypes_ok h, hlog, ?_⟩
    rw [Rewiring.bind_of_ok _ h, hlooks.resolvers, houtcome, hrecords]

/-- What a fault leaves in memory reads as the schema that was placed there. -/
theorem read_of_error {schema : Schema} {e : Fault}
    (h : (b.apply common schema.place).outcome = .error e) :
    (PlacedSchema.mk schema.place.types (b.apply common schema.place).resolvers).read
      = schema := by
  rcases b.apply_cases common schema.place with ⟨_, _, hrun, _⟩ | ⟨_, _, _, _, hrun⟩
  · rw [hrun]
    exact schema.read_place
  · rw [hrun] at h
    cases h

/-- What the log says of every field that is protected. -/
def protectedStart : Text := "Protected "

/-- Binding succeeds just when collecting does. -/
theorem apply_ok_iff {schema : PlacedSchema} : (b.apply common schema).outcome = .ok ()
    ↔ ∀ t ∈ schema.types, Bindable t → b.WellDeclared t := by
  rw [← collectTypes_ok_iff schema.resolvers]
  unfold apply rewire
  rw [Rewiring.bind_eq_ok]
  constructor
  · rintro ⟨bindings, hbindings, -⟩
    exact ⟨bindings, hbindings⟩
  · rintro ⟨bindings, hbindings⟩
    exact ⟨bindings, hbindings, (Binding.protectAll_run common bindings _).1⟩

theorem legacyRecord_not_protected : ¬protectedStart <+: legacyRecord.message := by decide

end Apply

/-- A fault leaves every resolver as it was, and no field is logged as protected.
There is no fault just when all types are well declared, and then every declaration of a
directive in force compiled. -/
theorem binding_is_all_or_nothing (b : Binder) (common : Resolver) (schema : PlacedSchema) :
    let run := b.apply common schema
    (∀ e, run.outcome = .error e →
      run.resolvers = schema.resolvers ∧ ∀ r ∈ run.log, ¬protectedStart <+: r.message)
    ∧ (run.outcome = .ok () →
      ∀ t ∈ schema.types, ∀ f ∈ t.fields, ∀ d, b.InForce t f d →
        ∃ declarations, Declares d declarations
          ∧ ∀ v ∈ declarations, ∃ check, compileCheck v = .ok check)
    ∧ (run.outcome = .ok () ↔ ∀ t ∈ schema.types, Bindable t → b.WellDeclared t) := by
  intro run
  refine ⟨?fault, ?success, apply_ok_iff⟩
  case fault =>
    intro e herror
    rcases b.apply_cases common schema with ⟨_, log, hrun, hlog⟩ | ⟨_, _, _, _, hrun⟩
    · have hlogged : run.log = log := by simp only [run, hrun]
      refine ⟨by simp only [run, hrun], fun r hr => ?_⟩
      rw [hlog r (hlogged ▸ hr)]
      exact legacyRecord_not_protected
    · simp only [run, hrun] at herror
      cases herror
  case success =>
    intro hok t ht f hf d hforce
    have hdeclared := apply_ok_iff.mp hok t ht hforce.1
    obtain ⟨checks, declarations, hdeclares, hchecks⟩ := hdeclared.compiles f hf d hforce
    exact ⟨declarations, hdeclares, exists_compile_iff.mp ⟨checks, hchecks⟩⟩

def checksDirective (checks : Value) : Directive := ⟨"auth", [("checks", checks)]⟩

theorem checksArgument_checksDirective (checks : Value) :
    ChecksArgument (checksDirective checks) checks := .singleton rfl

/-- Compares the role with a text. -/
def roleDeclaration (operator : Text) : Value :=
  .record [("field", .text "role"), ("op", .text operator), ("value", .text "admin")]

/-- The directive with this one check. -/
def roleDirective (operator : Text) : Directive :=
  checksDirective (.list [roleDeclaration operator])

theorem declares_roleDirective (operator : Text) :
    Declares (roleDirective operator) [roleDeclaration operator] :=
  .many (checksArgument_checksDirective _)

/-- A field without and one with a check, and then one whose check has no such operator. -/
def accountSchema (extensions : List Node) : Schema :=
  [⟨"Query", .object, some [], [],
      [⟨"open", some [], none⟩, ⟨"report", some [roleDirective "EQUAL"], none⟩]⟩,
    ⟨"Account", .object, some [], extensions, [⟨"id", some [roleDirective "ALMOST"], none⟩]⟩]

/-- A common resolver, as far as roots are maps: it gives the entry of the field. -/
def entryReader : Resolver :=
  .declared "default_field_resolver" .function
    ⟨fun request => .silently (.ok (CheckSpec.member (entriesOf request.root) request.fieldName)),
      fun _ => .call⟩
where
  entriesOf : Value → List (Value × Value)
    | .map entries => entries
    | _ => []

theorem an_unknown_operator_binds_nothing :
    let run := standard.apply entryReader (accountSchema []).place
    (∃ e, run.outcome = .error e) ∧ run.resolvers = (accountSchema []).place.resolvers := by
  intro run
  have herror : run.outcome = .error (.atField "Account.id" (.invalidOperator (.text "ALMOST"))) :=
    rfl
  obtain ⟨hfault, -⟩ := binding_is_all_or_nothing standard entryReader (accountSchema []).place
  exact ⟨⟨_, herror⟩, (hfault _ herror).1⟩

/-- After a success, the fields with a directive in force are guarded by its checks, one
for each declaration in order, and all others are as they were; one record is logged for
each guarded field, in order. -/
theorem exactly_the_declared_fields_are_guarded (b : Binder) (common : Resolver)
    (schema : PlacedSchema) (hcells : (cellsOf schema.types).Nodup)
    (hok : (b.apply common schema).outcome = .ok ()) :
    let run := b.apply common schema
    (∀ t ∈ schema.types, ∀ f ∈ t.fields,
      (∀ d, b.InForce t f d → ∃ declarations checks, Declares d declarations
        ∧ List.Forall₂ (fun v check => compileCheck v = .ok check) declarations checks
        ∧ run.resolvers f.resolver
          = some (.guarded ((schema.resolvers f.resolver).getD common) (.text f.name)
              ⟨b.settings, checks⟩))
      ∧ ((∀ d, ¬b.InForce t f d) → run.resolvers f.resolver = schema.resolvers f.resolver))
    ∧ ∃ bindings, b.Collected (placesOf schema.types) bindings
      ∧ (run.log.filter fun r => r.level = .debug)
        = bindings.map fun binding =>
            ⟨.debug, "Protected " ++ binding.typeName ++ "." ++ binding.fieldName ++ " with "
              ++ decimal binding.evaluator.checks.length ++ " check(s)"⟩ := by
  rcases b.apply_cases common schema with
    ⟨e, log, hrun, _⟩ | ⟨bindings, log, hcollected, hlog, hrun⟩
  · rw [hrun] at hok
    cases hok
  · rw [hrun]
    refine ⟨fun t ht f hf => ?_, bindings, hcollected, ?_⟩
    · obtain ⟨hguarded, hkept⟩ :=
        hcollected.guards hcells schema.resolvers (mem_placesOf ht hf)
      refine ⟨fun d hforce => ?_, hkept⟩
      obtain ⟨checks, ⟨declarations, hdeclares, hchecks⟩, hresolver⟩ := hguarded d hforce
      exact ⟨declarations, checks, hdeclares, hchecks, hresolver⟩
    · have hquiet : log.filter (fun r => r.level = .debug) = [] := by
        rw [List.filter_eq_nil_iff]
        intro r hr
        rw [hlog r hr]
        decide
      rw [List.filter_append, hquiet, List.nil_append, List.filter_eq_self.mpr]
      · rfl
      · intro r hr
        obtain ⟨binding, -, rfl⟩ := List.mem_map.mp hr
        rfl

def roleCheck : CompiledCheck := ⟨"role", ⟨"role", [.name "role"]⟩, .known .equal, .text "admin"⟩

/-- The check of an extension takes the place of one that would not even compile. -/
theorem an_extension_takes_the_place_of_a_field :
    let schema := (accountSchema [[roleDirective "EQUAL"]]).place
    let run := standard.apply entryReader schema
    (cellsOf schema.types).Nodup ∧ run.outcome = .ok ()
    ∧ run.resolvers 0 = none
    ∧ run.resolvers 1 = some (.guarded entryReader (.text "report") ⟨.standard, [roleCheck]⟩)
    ∧ run.resolvers 2 = some (.guarded entryReader (.text "id") ⟨.standard, [roleCheck]⟩) := by
  intro schema run
  have hcells : (cellsOf schema.types).Nodup := Schema.place_nodup _
  have hok : run.outcome = .ok () := rfl
  obtain ⟨hfields, -⟩ := exactly_the_declared_fields_are_guarded standard entryReader schema
    hcells hok
  have hopen := hfields _ List.mem_cons_self _ List.mem_cons_self
  have hreport := hfields _ List.mem_cons_self _ (List.mem_cons_of_mem _ List.mem_cons_self)
  have hid := hfields _ (List.mem_cons_of_mem _ List.mem_cons_self) _ List.mem_cons_self
  have hcompile : Compile [roleDeclaration "EQUAL"] [roleCheck] := .cons rfl .nil
  refine ⟨hcells, hok, hopen.2 ?_, ?_, ?_⟩
  · rintro d ⟨-, hd | ⟨-, hd⟩⟩ <;> cases hd.mem
  · obtain ⟨declarations, checks, hdeclares, hchecks, hresolver⟩ := hreport.1
      (roleDirective "EQUAL") ⟨⟨rfl, by decide⟩, .inr ⟨nofun, .singleton rfl⟩⟩
    obtain rfl := hdeclares.unique (declares_roleDirective "EQUAL")
    obtain rfl := Compile.unique hchecks hcompile
    exact hresolver
  · obtain ⟨declarations, checks, hdeclares, hchecks, hresolver⟩ := hid.1
      (roleDirective "EQUAL") ⟨⟨rfl, by decide⟩, .inl (.singleton rfl)⟩
    obtain rfl := hdeclares.unique (declares_roleDirective "EQUAL")
    obtain rfl := Compile.unique hchecks hcompile
    exact hresolver

end Binder

end FieldGate
