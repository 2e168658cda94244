-- Missing data fails closed: where a path comes to the missing value, also before its
-- end, only the two negative operators pass, and no request is allowed past another.
import FieldGate.Proofs.Comparisons
import FieldGate.Proofs.Denials
import FieldGate.Proofs.LegacyOrder
import FieldGate.Proofs.PathConcatenation

namespace FieldGate

/-! ## What is missing -/

/-- The steps, or those up to some point, lead to the missing value. -/
def Value.Lacks (context : Value) (steps : List Step) : Prop :=
  ∃ before after, steps = before ++ after ∧ context.walk (before.map Step.value) = .ok .null

/-- The operator holds of what is absent: it asks for a difference. -/
def OperatorKind.IsNegative (kind : OperatorKind) : Prop := kind = .notEqual ∨ kind = .notContains

instance : DecidablePred OperatorKind.IsNegative := fun kind =>
  inferInstanceAs (Decidable (kind = .notEqual ∨ kind = .notContains))

/-! ## From the walk to the verdict -/

/-- Once something is missing, it stays missing to the end of the path. -/
theorem Value.Lacks.walk {context : Value} {steps : List Step} (h : context.Lacks steps) :
    context.walk (steps.map Step.value) = .ok .null := by
  obtain ⟨before, after, rfl, hbefore⟩ := h
  rw [walk_append, hbefore, ok_bind, walk_null]

/-- The missing value has no order, equals no text and holds none. -/
theorem passes_null (strict : Bool) (kind : OperatorKind) (t : Text) :
    kind.passes strict .null (.text t) = .ok (decide kind.IsNegative) := by
  have hloose := looseEquals_null false t
  have horder := compare?_null t
  have hholds : Value.null.holds false (.text t) = false := rfl
  unfold OperatorKind.passes
  cases kind with
  | lessThan | lessThanEqual | greaterThanEqual =>
    rw [horder]
    rfl
  | greaterThan =>
    rw [horder]
    cases strict <;> rfl
  | equal => exact hloose
  | notEqual =>
    rw [hloose]
    rfl
  | contains | notContains =>
    rw [hholds]
    rfl

/-- A declaration that is read has a text for its value. -/
theorem ofEntries_value {entries : List (Value × Value)} {spec : CheckSpec}
    (h : CheckSpec.ofEntries entries = .ok spec) : ∃ t, spec.value = .text t := by
  unfold CheckSpec.ofEntries at h
  dsimp only at h
  split at h
  · obtain ⟨_, -, h⟩ := bind_eq_ok.mp h
    cases h
  · split at h
    · rename_i t ht
      obtain rfl := Except.ok.inj h
      exact ⟨t, ht⟩
    · obtain ⟨_, -, h⟩ := bind_eq_ok.mp h
      obtain ⟨_, -, h⟩ := bind_eq_ok.mp h
      cases h

/-- A declaration that compiles becomes a check with an operator of the enumeration and
a text to compare with. -/
theorem compileCheck_map_ok {entries : List (Value × Value)} {check : CompiledCheck}
    (h : compileCheck (.map entries) = .ok check) :
    ∃ kind t, check.operator = .known kind ∧ check.declared = .text t := by
  obtain ⟨spec, hspec, h⟩ := bind_eq_ok.mp h
  obtain ⟨t, ht⟩ := ofEntries_value hspec
  obtain ⟨kind, -, h⟩ := bind_eq_ok.mp h
  obtain ⟨path, -, h⟩ := bind_eq_ok.mp h
  obtain rfl := Except.ok.inj h
  exact ⟨kind, t, rfl, ht⟩

theorem verdict_of_lacks {check : CompiledCheck} {context : Value} {kind : OperatorKind} {t : Text}
    (strict : Bool) (hkind : check.operator = .known kind) (ht : check.declared = .text t)
    (h : context.Lacks check.path.steps) :
    check.verdict strict context = .ok (decide kind.IsNegative) := by
  have hvalue : check.path.resolve context = .ok .null := h.walk
  unfold CompiledCheck.verdict
  rw [hvalue, hkind, ht]
  simp only [OperatorSlot.passes, passes_null, liftM_mishap, mapError_ok, ok_bind]

/-! ## From the verdict to the decision -/

theorem firstFailure_eq_none_iff {strict : Bool} {context : Value} {checks : List CompiledCheck} :
    firstFailure strict context checks = .ok none
      ↔ ∀ c ∈ checks, c.verdict strict context = .ok true := by
  refine ⟨?_, firstFailure_none⟩
  intro h
  induction checks with
  | nil => simp
  | cons c rest ih =>
    obtain ⟨found, hfound, h⟩ := bind_eq_ok.mp h
    cases found with
    | some failure => cases h
    | none => exact List.forall_mem_cons.mpr ⟨failure?_none_iff.mp hfound, ih h⟩

/-- A request is allowed only where every check passes. -/
theorem passes_of_allowed {context userField fieldName : Value} {checks : List CompiledCheck}
    {settings : Settings} {d : Decision}
    (h : (authorize context checks userField fieldName settings).outcome = .ok d)
    (hallowed : d.allowed = true) :
    ∀ c ∈ checks, c.verdict settings.strictGreaterThan context = .ok true := by
  rcases authorize_cases h with ⟨-, rfl⟩ | ⟨-, ⟨hnone, -⟩ | ⟨failure, reason, -, -, rfl⟩⟩
  · cases hallowed
  · exact firstFailure_eq_none_iff.mp hnone
  · cases hallowed

/-- A declared check whose path comes to something missing always has an answer, and it
is yes only for the negative operators. With any other, no request is allowed,
whatever else is checked. -/
theorem missing_data_fails_closed {entries : List (Value × Value)} {check : CompiledCheck}
    {context : Value} (hcompiles : compileCheck (.map entries) = .ok check)
    (hlacks : context.Lacks check.path.steps) :
    ∃ kind, check.operator = .known kind
      ∧ (∀ strict, check.verdict strict context = .ok (decide kind.IsNegative))
      ∧ (¬kind.IsNegative → ∀ checks userField fieldName settings d, check ∈ checks →
        (authorize context checks userField fieldName settings).outcome = .ok d →
        d.allowed = false) := by
  obtain ⟨kind, t, hkind, ht⟩ := compileCheck_map_ok hcompiles
  have hverdict (strict : Bool) := verdict_of_lacks strict hkind ht hlacks
  refine ⟨kind, hkind, hverdict, ?_⟩
  intro hpositive checks userField fieldName settings d hcheck hd
  by_contra hallowed
  have hpasses := passes_of_allowed hd (by simpa using hallowed) check hcheck
  rw [hverdict, decide_eq_false hpositive] at hpasses
  cases hpasses

/-- The first role of the caller is to be that of an administrator. -/
def firstRoleIsAdmin : List (Value × Value) :=
  [(.text "field", .text "user.roles[0].name"), (.text "op", .text "EQUAL"),
    (.text "value", .text "admin")]

/-- A caller without roles. -/
def callerWithoutRoles : Value := .record [("user", .record [("roles", .list [])])]

theorem a_caller_without_roles_is_no_admin :
    ∃ check, compileCheck (.map firstRoleIsAdmin) = .ok check
      ∧ callerWithoutRoles.Lacks check.path.steps
      ∧ ∀ d, (authorize callerWithoutRoles [check] (.text "user") .null
          Settings.standard).outcome = .ok d → d.allowed = false := by
  have hcompiles : compileCheck (.map firstRoleIsAdmin) = .ok
      ⟨"user.roles[0].name",
        ⟨"user.roles[0].name", [.name "user", .name "roles", .index 0, .name "name"]⟩,
        .known .equal, .text "admin"⟩ := by
    have hspec : CheckSpec.ofDeclaration (.map firstRoleIsAdmin)
        = .ok ⟨.text "user.roles[0].name", .text "EQUAL", .text "admin"⟩ := rfl
    have hkind : OperatorKind.parse (.text "EQUAL") = .ok .equal := rfl
    have hpath : compilePath (.text "user.roles[0].name") = .ok ⟨"user.roles[0].name",
        [.name "user", .name "roles", .index 0, .name "name"]⟩ :=
      compilePath_ok_iff.mpr (by decide +kernel)
    rw [compileCheck, hspec, ok_bind, CheckSpec.compile, hkind, hpath]
    rfl
  have hlacks : callerWithoutRoles.Lacks [.name "user", .name "roles", .index 0, .name "name"] :=
    ⟨[.name "user", .name "roles", .index 0], [.name "name"], rfl, rfl⟩
  obtain ⟨kind, hkind, -, hdenied⟩ := missing_data_fails_closed hcompiles hlacks
  obtain rfl := OperatorSlot.known.inj hkind
  refine ⟨_, hcompiles, hlacks, fun d hd => ?_⟩
  exact hdenied (by decide) _ _ _ _ d List.mem_cons_self hd

end FieldGate
