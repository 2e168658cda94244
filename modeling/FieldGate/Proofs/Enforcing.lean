-- The laws of enforcing: an evaluator that was built from declarations ends every
-- request in one of three outcomes, and the gate and the checks say in which one.
-- What is wrong with a setup is found while it is built, never while it is enforced.
import FieldGate.Proofs.Denials
import FieldGate.Proofs.GateDecision

namespace FieldGate

/-! ## Passing and failing -/

namespace Evaluator

/-- A check of the evaluator passes on the context. -/
def Passes (e : Evaluator) (context : Value) (c : CompiledCheck) : Prop :=
  c.verdict e.settings.strictGreaterThan context = .ok true

/-- A check of the evaluator fails on the context. -/
def Fails (e : Evaluator) (context : Value) (c : CompiledCheck) : Prop :=
  c.verdict e.settings.strictGreaterThan context = .ok false

/-- The gate of the evaluator is open to the caller of the context. -/
def IsOpen (e : Evaluator) (context : Value) : Prop := GateOpen context e.settings.userField

/-- Nothing that a decision needs ends with a mishap: the caller can be looked up,
each check that is consulted comes to a verdict, and one that fails can be described. -/
structure Undisturbed (e : Evaluator) (context : Value) : Prop where
  lookup : LooksUp context e.settings.userField
  verdict : e.IsOpen context → ∀ c ∈ consulted e.settings.strictGreaterThan context e.checks,
    ∀ m, c.verdict e.settings.strictGreaterThan context ≠ .error (.mishap m)
  reason : e.IsOpen context → ∀ c ∈ consulted e.settings.strictGreaterThan context e.checks,
    ∀ failure, c.failure? e.settings.strictGreaterThan context = .ok (some failure) →
      ∃ reason, failure.describe = .ok reason

/-- Every check of the evaluator has an operator of the enumeration. -/
def KnowsOperators (e : Evaluator) : Prop := ∀ c ∈ e.checks, ∃ kind, c.operator = .known kind

end Evaluator

/-- The decision of a failure, for this reason. -/
def Failure.decision (f : Failure) (reason : Text) (fieldName : Value) : Decision :=
  .deny (.text reason) (.text f.check.field) fieldName (.operator f.kind) f.value f.check.declared

/-! ## The operators of a built evaluator -/

theorem checkOf_known {declaration : Value} {c : CompiledCheck}
    (h : Evaluator.checkOf declaration = .ok c) : ∃ kind, c.operator = .known kind := by
  unfold Evaluator.checkOf at h
  split at h
  · rename_i check hcheck
    obtain rfl := Except.ok.inj h
    cases declaration with
    | check field path kind declared =>
      obtain rfl := Option.some.inj hcheck
      exact ⟨kind, rfl⟩
    | _ => cases hcheck
  · obtain ⟨spec, -, h⟩ := bind_eq_ok.mp h
    obtain ⟨kind, -, h⟩ := bind_eq_ok.mp h
    obtain ⟨path, -, h⟩ := bind_eq_ok.mp h
    obtain rfl := Except.ok.inj h
    exact ⟨kind, rfl⟩

theorem checksOf_known {declarations : List Value} {checks : List CompiledCheck}
    (h : Evaluator.checksOf declarations = .ok checks) :
    ∀ c ∈ checks, ∃ kind, c.operator = .known kind := by
  induction declarations generalizing checks with
  | nil =>
    obtain rfl := Except.ok.inj h
    simp
  | cons declaration rest ih =>
    obtain ⟨c, hc, h⟩ := bind_eq_ok.mp h
    obtain ⟨cs, hcs, h⟩ := bind_eq_ok.mp h
    obtain rfl := Except.ok.inj h
    rw [List.forall_mem_cons]
    exact ⟨checkOf_known hc, ih hcs⟩

/-- Whatever the declarations are, an evaluator that is built from them knows the
operators of its checks. -/
theorem knowsOperators_of_build {settings : Settings} {declarations : List Value} {e : Evaluator}
    (h : (Evaluator.build settings declarations).outcome = .ok e) : e.KnowsOperators := by
  obtain ⟨checks, hchecks, h⟩ := Logged.bind_eq_ok.mp h
  have hknown := checksOf_known hchecks
  unfold Evaluator.ofChecks at h
  split at h
  · obtain rfl := Except.ok.inj h
    exact hknown
  · obtain rfl := Except.ok.inj h
    exact hknown

/-! ## Faults at request time -/

def Fault.IsMishap (f : Fault) : Prop := ∃ m, f = .mishap m

theorem isMishap_lift {α : Type} {x : Except Mishap α} {f : Fault}
    (h : (x.mapError .mishap : Except Fault α) = .error f) : f.IsMishap := by
  cases x with
  | ok a => cases h
  | error m => exact ⟨m, (Except.error.inj h).symm⟩

theorem failure?_isMishap {strict : Bool} {context : Value} {c : CompiledCheck} {f : Fault}
    (hknown : ∃ kind, c.operator = .known kind) (h : c.failure? strict context = .error f) :
    f.IsMishap := by
  obtain ⟨kind, hkind⟩ := hknown
  unfold CompiledCheck.failure? at h
  rcases bind_eq_error.mp h with h | ⟨value, -, h⟩
  · exact isMishap_lift h
  · rw [hkind] at h
    rcases bind_eq_error.mp h with h | ⟨passes, -, h⟩
    · exact isMishap_lift h
    · cases passes <;> cases h

theorem firstFailure_isMishap {strict : Bool} {context : Value} {checks : List CompiledCheck}
    {f : Fault} (hknown : ∀ c ∈ checks, ∃ kind, c.operator = .known kind)
    (h : firstFailure strict context checks = .error f) : f.IsMishap := by
  induction checks with
  | nil => cases h
  | cons c rest ih =>
    rw [List.forall_mem_cons] at hknown
    rcases bind_eq_error.mp h with h | ⟨found, -, h⟩
    · exact failure?_isMishap hknown.1 h
    · cases found with
      | none => exact ih hknown.2 h
      | some failure => cases h

theorem logDenial_isMishap {settings : Settings} {fieldName : Value}
    {reason : Except Mishap Text} {f : Fault}
    (h : (logDenial settings fieldName reason).outcome = .error f) : f.IsMishap := by
  unfold logDenial at h
  split at h
  · rcases Logged.bind_eq_error.mp h with h | ⟨why, -, h⟩
    · exact isMishap_lift h
    · rcases Logged.bind_eq_error.mp h with h | ⟨field, -, h⟩
      · exact isMishap_lift h
      · cases h
  · cases h

/-- An evaluator that knows its operators makes no report while it decides. -/
theorem decide_isMishap {e : Evaluator} {context fieldName : Value} {f : Fault}
    (hknown : e.KnowsOperators) (h : (e.decide context fieldName).outcome = .error f) :
    f.IsMishap := by
  unfold Evaluator.decide authorize at h
  rcases Logged.bind_eq_error.mp h with h | ⟨authenticated, -, h⟩
  · exact isMishap_lift h
  cases authenticated with
  | false =>
    rcases Logged.bind_eq_error.mp h with h | ⟨-, -, h⟩
    · exact logDenial_isMishap h
    · cases h
  | true =>
    rcases Logged.bind_eq_error.mp h with h | ⟨found, -, h⟩
    · exact firstFailure_isMishap hknown h
    cases found with
    | none => cases h
    | some failure =>
      rcases Logged.bind_eq_error.mp h with h | ⟨reason, -, h⟩
      · exact isMishap_lift h
      · rcases Logged.bind_eq_error.mp h with h | ⟨-, -, h⟩
        · exact logDenial_isMishap h
        · cases h

/-! ## Reasons -/

/-- The reason of a failure starts in another way than the reason of a denial for
want of an authenticated caller. -/
theorem describe_ne_unauthenticated {f : Failure} {reason : Text}
    (h : f.describe = .ok reason) : reason ≠ unauthenticatedReason := by
  obtain ⟨value, -, h⟩ := bind_eq_ok.mp h
  obtain ⟨declared, -, h⟩ := bind_eq_ok.mp h
  obtain rfl := Except.ok.inj h
  intro heq
  have hhead := congrArg List.head? heq
  revert hhead
  simp only [List.append_assoc]
  change some (Point.ofChar 'c') ≠ some (Point.ofChar 'U')
  decide

theorem isUnauthenticated_decision {f : Failure} {reason : Text} (fieldName : Value)
    (h : f.describe = .ok reason) : (f.decision reason fieldName).isUnauthenticated = false := by
  have hne := describe_ne_unauthenticated h
  simp only [Decision.isUnauthenticated, Failure.decision, Decision.deny, Value.isText]
  simpa using hne

/-! ## From the decision to the outcome -/

section Enforce

variable {e : Evaluator} {context fieldName : Value} {d : Decision}

theorem enforce_of_allowed (h : (e.decide context fieldName).outcome = .ok d)
    (hallowed : d.allowed = true) : (e.enforce context fieldName).outcome = .ok d := by
  unfold Evaluator.enforce
  rw [Logged.bind_of_ok _ h, if_pos hallowed]
  rfl

theorem enforce_of_unauthenticated (h : (e.decide context fieldName).outcome = .ok d)
    (hdenied : d.isUnauthenticated = true) :
    (e.enforce context fieldName).outcome = .error (.report
      (.authentication (.text Report.authenticationMessage) fieldName none)) := by
  have hallowed : ¬d.allowed = true := by
    intro hallowed
    simp [Decision.isUnauthenticated, hallowed] at hdenied
  unfold Evaluator.enforce
  rw [Logged.bind_of_ok _ h, if_neg hallowed, if_pos hdenied]
  rfl

theorem enforce_of_denied {message : Text} (h : (e.decide context fieldName).outcome = .ok d)
    (hallowed : d.allowed = false) (hdenied : d.isUnauthenticated = false)
    (hmessage : Report.forbiddenMessage d = .ok message) :
    (e.enforce context fieldName).outcome = .error (.report (.forbidden (.text message) d)) := by
  unfold Evaluator.enforce
  rw [Logged.bind_of_ok _ h, if_neg (by simp [hallowed]), if_neg (by simp [hdenied]),
    hmessage]
  rfl

end Enforce

/-! ## The three outcomes -/

theorem not_passes_of_fails {e : Evaluator} {context : Value} {c : CompiledCheck}
    (h : e.Fails context c) : ¬e.Passes context c := by
  intro hpasses
  rw [Evaluator.Passes, h] at hpasses
  cases hpasses

/-- All checks pass, or there is a first one that does not. -/
theorem all_pass_or_first (e : Evaluator) (context : Value) (checks : List CompiledCheck) :
    (∀ c ∈ checks, e.Passes context c)
      ∨ ∃ passed c rest, checks = passed ++ c :: rest ∧ (∀ p ∈ passed, e.Passes context p)
        ∧ ¬e.Passes context c := by
  induction checks with
  | nil => simp
  | cons c rest ih =>
    by_cases hc : e.Passes context c
    · rcases ih with hall | ⟨passed, c', rest', rfl, hpassed, hc'⟩
      · exact .inl (List.forall_mem_cons.mpr ⟨hc, hall⟩)
      · exact .inr ⟨c :: passed, c', rest', rfl, List.forall_mem_cons.mpr ⟨hc, hpassed⟩, hc'⟩
    · exact .inr ⟨[], c, rest, rfl, by simp, hc⟩

theorem consulted_first {strict : Bool} {context : Value} {passed : List CompiledCheck}
    (c : CompiledCheck) (rest : List CompiledCheck)
    (hpassed : ∀ p ∈ passed, p.verdict strict context = .ok true) :
    c ∈ consulted strict context (passed ++ c :: rest) := by
  induction passed with
  | nil =>
    rw [List.nil_append, consulted]
    split <;> exact List.mem_cons_self
  | cons p passed ih =>
    rw [List.forall_mem_cons] at hpassed
    rw [List.cons_append, consulted, hpassed.1]
    exact List.mem_cons_of_mem p (ih hpassed.2)

theorem verdict_of_known {strict : Bool} {context : Value} {c : CompiledCheck}
    (hknown : ∃ kind, c.operator = .known kind) :
    (∃ passes, c.verdict strict context = .ok passes)
      ∨ ∃ m, c.verdict strict context = .error (.mishap m) := by
  cases h : c.verdict strict context with
  | ok passes => exact .inl ⟨passes, rfl⟩
  | error f =>
    obtain ⟨m, rfl⟩ := failure?_isMishap hknown (failure?_raises h)
    exact .inr ⟨m, rfl⟩

/-- Where nothing disturbs the decision, it is one of three: the caller is absent,
every check passes, or the first one that does not pass fails and is described. -/
theorem decide_cases {e : Evaluator} {context : Value} (fieldName : Option Text)
    (hknown : e.KnowsOperators) (hundisturbed : e.Undisturbed context) :
    let field := Value.ofText? fieldName
    (¬e.IsOpen context
        ∧ ∃ userField, (e.decide context field).outcome = .ok (.unauthenticatedFor userField field))
      ∨ (e.IsOpen context ∧ (∀ c ∈ e.checks, e.Passes context c)
        ∧ (e.decide context field).outcome = .ok (.allow field))
      ∨ e.IsOpen context ∧ (∃ c ∈ e.checks, e.Fails context c)
        ∧ ∃ (failure : Failure) (reason : Text), failure.describe = .ok reason
          ∧ (e.decide context field).outcome = .ok (failure.decision reason field) := by
  intro field
  by_cases hopen : e.IsOpen context
  · right
    rcases all_pass_or_first e context e.checks with hall | ⟨passed, c, rest, hsplit, hpassed, hc⟩
    · have hdecide := authorize_allows fieldName hundisturbed.lookup hopen hall
      exact .inl ⟨hopen, hall, congrArg Logged.outcome hdecide⟩
    · have hmem : c ∈ e.checks := by simp [hsplit]
      have hconsulted : c ∈ consulted e.settings.strictGreaterThan context e.checks := by
        rw [hsplit]
        exact consulted_first c rest hpassed
      -- The first check that does not pass is consulted, so it has a verdict: it fails.
      have hfails : e.Fails context c := by
        rcases verdict_of_known (hknown c hmem) with ⟨passes, hverdict⟩ | ⟨m, hverdict⟩
        · cases passes with
          | false => exact hverdict
          | true => exact absurd hverdict hc
        · exact absurd hverdict (hundisturbed.verdict hopen c hconsulted m)
      obtain ⟨kind, value, -, -, hfailure⟩ := failure?_fails hfails
      obtain ⟨reason, hreason⟩ := hundisturbed.reason hopen c hconsulted _ hfailure
      have hfirst : firstFailure e.settings.strictGreaterThan context e.checks
          = .ok (some ⟨c, kind, value⟩) := by
        rw [hsplit, firstFailure_append _ hpassed, firstFailure, hfailure]
        rfl
      have hdecide := authorize_denies fieldName hundisturbed.lookup hopen hfirst hreason
      exact .inr ⟨hopen, ⟨c, hmem, hfails⟩, ⟨c, kind, value⟩, reason, hreason,
        congrArg Logged.outcome hdecide⟩
  · obtain ⟨u, v, hu, hentry, habsent⟩ := absent_of_not_open hopen
    rw [hu] at hentry
    have hdecide := authorize_absent e.checks fieldName e.settings hentry habsent
    rw [← hu] at hdecide
    exact .inl ⟨hopen, .text u, congrArg Logged.outcome hdecide⟩

/-- A report of enforcing is a denial of one of the two kinds, and one for a failed
check carries the decision that it denies for. -/
theorem enforce_report {e : Evaluator} {context fieldName : Value} {r : Report}
    (hknown : e.KnowsOperators)
    (h : (e.enforce context fieldName).outcome = .error (.report r)) :
    r.denialKind? = some .unauthenticated
      ∨ r.denialKind? = some .forbidden ∧ ∃ d, (e.decide context fieldName).outcome = .ok d
        ∧ r.detail = .denial d ∧ d.allowed = false ∧ d.isUnauthenticated = false := by
  have hreport : ¬(Fault.report r).IsMishap := by
    rintro ⟨m, hm⟩
    cases hm
  rcases Logged.bind_eq_error.mp h with hdecide | ⟨d, hdecide, h⟩
  · exact absurd (decide_isMishap hknown hdecide) hreport
  split_ifs at h with hallowed hdenied
  · cases h
  · obtain rfl := Fault.report.inj (Except.error.inj h)
    exact .inl rfl
  · rcases Logged.bind_eq_error.mp h with h | ⟨message, -, h⟩
    · exact absurd (isMishap_lift h) hreport
    · obtain rfl := Fault.report.inj (Except.error.inj h)
      exact .inr ⟨rfl, d, hdecide, rfl, by simpa using hallowed, by simpa using hdenied⟩

/-- What enforcing returns is the decision, and it allows. -/
theorem enforce_ok {e : Evaluator} {context fieldName : Value} {d : Decision}
    (h : (e.enforce context fieldName).outcome = .ok d) :
    (e.decide context fieldName).outcome = .ok d ∧ d.allowed = true := by
  obtain ⟨decision, hdecide, h⟩ := Logged.bind_eq_ok.mp h
  split_ifs at h with hallowed hdenied
  · obtain rfl := Except.ok.inj h
    exact ⟨hdecide, hallowed⟩
  · cases h
  · obtain ⟨message, -, h⟩ := Logged.bind_eq_ok.mp h
    cases h

section Denies

variable {e : Evaluator} {context fieldName : Value} {kind : DenialKind}

theorem denies_iff_of_report {r : Report}
    (h : (e.enforce context fieldName).outcome = .error (.report r)) :
    (∃ r', e.Denies context fieldName kind r') ↔ r.denialKind? = some kind := by
  constructor
  · rintro ⟨r', houtcome, hkind⟩
    rw [h] at houtcome
    obtain rfl := Fault.report.inj (Except.error.inj houtcome)
    exact hkind
  · exact fun hkind => ⟨r, h, hkind⟩

theorem not_denies_of_ok {d : Decision} (h : (e.enforce context fieldName).outcome = .ok d) :
    ¬∃ r, e.Denies context fieldName kind r := by
  rintro ⟨r, houtcome, -⟩
  rw [h] at houtcome
  cases houtcome

end Denies

/-- The three outcomes, and what decides between them. -/
theorem enforce_outcomes {e : Evaluator} {context : Value} (fieldName : Option Text)
    (hknown : e.KnowsOperators) (hundisturbed : e.Undisturbed context) :
    let field := Value.ofText? fieldName
    let outcome := (e.enforce context field).outcome
    ((∃ d, outcome = .ok d) ↔ e.IsOpen context ∧ ∀ c ∈ e.checks, e.Passes context c)
      ∧ ((∃ r, e.Denies context field .unauthenticated r) ↔ ¬e.IsOpen context)
      ∧ ((∃ r, e.Denies context field .forbidden r) ↔
        e.IsOpen context ∧ ∃ c ∈ e.checks, e.Fails context c)
      ∧ ∀ m, outcome ≠ .error (.mishap m) := by
  intro field outcome
  rcases decide_cases fieldName hknown hundisturbed with ⟨hclosed, userField, hdecide⟩ |
    ⟨hopen, hall, hdecide⟩ | ⟨hopen, ⟨c, hc, hfails⟩, failure, reason, hreason, hdecide⟩
  case inl =>
    have houtcome : outcome = _ := enforce_of_unauthenticated hdecide rfl
    have hopen : e.IsOpen context ↔ False := iff_false_intro hclosed
    rw [denies_iff_of_report houtcome, denies_iff_of_report houtcome, houtcome]
    simp [hopen, Report.denialKind?, Report.authentication]
  case inr.inl =>
    have houtcome : outcome = _ := enforce_of_allowed hdecide rfl
    have hnone : ¬∃ c ∈ e.checks, e.Fails context c := by
      rintro ⟨c, hc, hfails⟩
      exact not_passes_of_fails hfails (hall c hc)
    have hopen : e.IsOpen context ↔ True := iff_true_intro hopen
    have hall := iff_true_intro hall
    rw [iff_false_intro (not_denies_of_ok houtcome), iff_false_intro (not_denies_of_ok houtcome),
      iff_false_intro hnone, hopen, hall, houtcome]
    simp
  case inr.inr =>
    have hmessage : Report.forbiddenMessage (failure.decision reason field)
        = .ok ("User not allowed to access \"" ++ shownName fieldName ++ "\"") := by
      have hfield : (failure.decision reason field).fieldName = field := rfl
      rw [Report.forbiddenMessage, hfield, shown_name]
      rfl
    have houtcome : outcome = _ :=
      enforce_of_denied hdecide rfl (isUnauthenticated_decision _ hreason) hmessage
    have hnot : ¬∀ c ∈ e.checks, e.Passes context c :=
      fun hall => not_passes_of_fails hfails (hall c hc)
    have hsome := iff_true_intro (⟨c, hc, hfails⟩ : ∃ c ∈ e.checks, e.Fails context c)
    have hopen : e.IsOpen context ↔ True := iff_true_intro hopen
    rw [denies_iff_of_report houtcome, denies_iff_of_report houtcome, iff_false_intro hnot, hsome,
      hopen, houtcome]
    simp [Report.denialKind?, Report.forbidden]

/-- An evaluator that was built from declarations, whatever they are, answers a
request where nothing disturbs it in one of three ways: it allows just when the gate
is open and all checks pass, it denies for want of an authenticated caller just when
the gate is not open, and for a failed check just when it is open and some check
fails. Whether disturbed or not, it returns no denial and reports nothing else than
denials, so no defect of the setup, and no failure can be described in the words that
mark an absent caller. -/
theorem enforcing_allows_or_denies_and_reports_no_setup_defect {settings : Settings}
    {declarations : List Value} {e : Evaluator}
    (hbuilt : (Evaluator.build settings declarations).outcome = .ok e) (context : Value)
    (fieldName : Option Text) :
    let field := Value.ofText? fieldName
    let outcome := (e.enforce context field).outcome
    (e.Undisturbed context →
      ((∃ d, outcome = .ok d) ↔ e.IsOpen context ∧ ∀ c ∈ e.checks, e.Passes context c)
      ∧ ((∃ r, e.Denies context field .unauthenticated r) ↔ ¬e.IsOpen context)
      ∧ ((∃ r, e.Denies context field .forbidden r) ↔
        e.IsOpen context ∧ ∃ c ∈ e.checks, e.Fails context c)
      ∧ ∀ m, outcome ≠ .error (.mishap m))
    ∧ (∀ d, outcome = .ok d → d.allowed = true)
    ∧ (∀ r, outcome = .error (.report r) → r.denialKind? = some .unauthenticated
      ∨ r.denialKind? = some .forbidden ∧ ∃ d, (e.decide context field).outcome = .ok d
        ∧ r.detail = .denial d ∧ d.allowed = false ∧ d.isUnauthenticated = false)
    ∧ ∀ failure reason, Failure.describe failure = .ok reason →
      (failure.decision reason field).isUnauthenticated = false := by
  intro field outcome
  have hknown := knowsOperators_of_build hbuilt
  exact ⟨enforce_outcomes fieldName hknown, fun _ hd => (enforce_ok hd).2,
    fun _ => enforce_report hknown, fun _ _ => isUnauthenticated_decision field⟩

/-- A map and a declared check: the role is an admin, and the plan is no free one. -/
def roleAndPlan : List Value :=
  [.record [("field", .text "role"), ("op", .text "EQUAL"), ("value", .text "admin")],
    .spec (.text "plan") (.text "NOT_EQUAL") (.text "free")]

def roleAndPlanEvaluator : Evaluator :=
  ⟨Settings.standard,
    [⟨"role", ⟨"role", [.name "role"]⟩, .known .equal, .text "admin"⟩,
      ⟨"plan", ⟨"plan", [.name "plan"]⟩, .known .notEqual, .text "free"⟩]⟩

def freeAdmin : Value :=
  .record [("user", .bool true), ("role", .text "admin"), ("plan", .text "free")]

theorem consulted_subset {strict : Bool} {context : Value} {checks : List CompiledCheck} :
    ∀ c ∈ consulted strict context checks, c ∈ checks := by
  induction checks with
  | nil => simp [consulted]
  | cons check rest ih =>
    intro c hc
    rw [consulted] at hc
    split at hc
    · rcases List.mem_cons.mp hc with rfl | hc
      · exact List.mem_cons_self
      · exact List.mem_cons_of_mem check (ih c hc)
    all_goals
      rw [List.mem_singleton.mp hc]
      exact List.mem_cons_self

theorem an_admin_with_a_free_plan_is_forbidden :
    (Evaluator.build Settings.standard roleAndPlan).outcome = .ok roleAndPlanEvaluator
      ∧ roleAndPlanEvaluator.Undisturbed freeAdmin
      ∧ ∃ r, roleAndPlanEvaluator.Denies freeAdmin (.text "pay") .forbidden r := by
  have hbuilt : (Evaluator.build Settings.standard roleAndPlan).outcome
      = .ok roleAndPlanEvaluator := rfl
  have hopen : roleAndPlanEvaluator.IsOpen freeAdmin := by
    rintro v ⟨u, hu, -, hwalk⟩ habsent
    obtain rfl := Option.some.inj hu
    obtain rfl : Value.bool true = v := Except.ok.inj hwalk
    cases habsent
  have hundisturbed : roleAndPlanEvaluator.Undisturbed freeAdmin := by
    refine ⟨?lookup, ?verdict, ?reason⟩
    case lookup =>
      rintro u hu -
      obtain rfl := Option.some.inj hu
      exact ⟨.bool true, rfl⟩
    case verdict =>
      intro _ c hc m h
      rcases List.mem_pair.mp (consulted_subset c hc) with rfl | rfl
      · cases h
      · cases h
    case reason =>
      intro _ c hc failure h
      rcases List.mem_pair.mp (consulted_subset c hc) with rfl | rfl
      · cases h
      · obtain rfl := Option.some.inj (Except.ok.inj h)
        exact ⟨_, rfl⟩
  obtain ⟨houtcomes, -⟩ := enforcing_allows_or_denies_and_reports_no_setup_defect hbuilt freeAdmin
    (some "pay")
  obtain ⟨-, -, hforbidden, -⟩ := houtcomes hundisturbed
  refine ⟨hbuilt, hundisturbed, hforbidden.mpr ⟨hopen, ?_⟩⟩
  exact ⟨_, List.mem_cons_of_mem _ List.mem_cons_self, rfl⟩

end FieldGate
