-- What a denied caller gets to see: it depends on the protected field and on the
-- kind of the denial alone, whatever the context holds and whichever check failed.
import FieldGate.Gate
import FieldGate.Proofs.Outcomes

namespace FieldGate

/-! ## What leaves the server -/

/-- The two ways in which a request is denied. -/
inductive DenialKind where
  | unauthenticated
  | forbidden
deriving DecidableEq

/-- How a report denies a request, if it does. -/
def Report.denialKind? (r : Report) : Option DenialKind :=
  match r.detail with
  | .authentication => some .unauthenticated
  | .denial _ => some .forbidden
  | .none | .path _ _ | .configuration _ => none

/-- The parts of a report that reach the caller: its text, its message, its
extensions, whether it is an outcome for the caller, and its record. The decision
that a denial carries is none of them. -/
structure CallerView where
  text : Except Mishap Text
  message : Value
  extensions : Value
  forCaller : Bool
  record : Value

def Report.callerView (r : Report) : CallerView :=
  ⟨r.message.shown, r.message, r.extensions, r.source.isForCaller, r.toRecord⟩

/-- The evaluator denies the request with this report. -/
def Evaluator.Denies (e : Evaluator) (context fieldName : Value) (kind : DenialKind)
    (r : Report) : Prop :=
  (e.enforce context fieldName).outcome = .error (.report r) ∧ r.denialKind? = some kind

/-- What the caller of a denied request sees, from the field alone. -/
def denialView (kind : DenialKind) (fieldName : Value) : CallerView :=
  match kind with
  | .unauthenticated =>
    (Report.authentication (.text Report.authenticationMessage) fieldName none).callerView
  | .forbidden =>
    let message := (Report.forbiddenMessage (.allow fieldName)).toOption.getD []
    (Report.forbidden (.text message) (.allow fieldName)).callerView

/-! ## What a decision says, and what can go wrong instead -/

/-- A decision with where it comes from: the gate, a run in which every check passes,
or the first failure. -/
theorem authorize_cases {context userField fieldName : Value} {checks : List CompiledCheck}
    {settings : Settings} {d : Decision}
    (h : (authorize context checks userField fieldName settings).outcome = .ok d) :
    (isAuthenticated context userField = .ok false ∧ d = .unauthenticatedFor userField fieldName)
      ∨ isAuthenticated context userField = .ok true
        ∧ ((firstFailure settings.strictGreaterThan context checks = .ok none
            ∧ d = .allow fieldName)
          ∨ ∃ failure reason,
            firstFailure settings.strictGreaterThan context checks = .ok (some failure)
            ∧ failure.describe = .ok reason
            ∧ d = .deny (.text reason) (.text failure.check.field) fieldName
              (.operator failure.kind) failure.value failure.check.declared) := by
  unfold authorize at h
  obtain ⟨authenticated, hgate, h⟩ := Logged.bind_eq_ok.mp h
  rw [Logged.liftM_mishap, mapError_eq_ok] at hgate
  cases authenticated with
  | true =>
    refine .inr ⟨hgate, ?_⟩
    obtain ⟨found, hfound, h⟩ := Logged.bind_eq_ok.mp h
    cases found with
    | none => exact .inl ⟨hfound, (Except.ok.inj h).symm⟩
    | some failure =>
      obtain ⟨reason, hreason, h⟩ := Logged.bind_eq_ok.mp h
      obtain ⟨-, -, h⟩ := Logged.bind_eq_ok.mp h
      simp only [Logged.liftM_mishap, mapError_eq_ok] at hreason
      exact .inr ⟨failure, reason, hfound, hreason, (Except.ok.inj h).symm⟩
  | false =>
    obtain ⟨-, -, h⟩ := Logged.bind_eq_ok.mp h
    exact .inl ⟨hgate, (Except.ok.inj h).symm⟩

theorem authorize_fieldName {context userField fieldName : Value} {checks : List CompiledCheck}
    {settings : Settings} {d : Decision}
    (h : (authorize context checks userField fieldName settings).outcome = .ok d) :
    d.fieldName = fieldName := by
  rcases authorize_cases h with ⟨-, rfl⟩ | ⟨-, ⟨-, rfl⟩ | ⟨failure, reason, -, -, rfl⟩⟩
  · rfl
  · rfl
  · rfl

/-- A fault that denies nothing: it comes from a conversion, or from a check
without an operator. -/
def Fault.DeniesNothing (f : Fault) : Prop :=
  ∀ r, f = .report r → r.denialKind? = none

theorem deniesNothing_mishap (m : Mishap) : (Fault.mishap m).DeniesNothing := by
  intro r hr
  cases hr

theorem deniesNothing_invalidOperator (token : Value) :
    (Fault.invalidOperator token).DeniesNothing := by
  intro r hr
  unfold Fault.invalidOperator at hr
  split at hr
  · cases hr
  · obtain rfl := Fault.report.inj hr
    rfl

theorem deniesNothing_lift {α : Type} {x : Except Mishap α} {f : Fault}
    (h : (x.mapError .mishap : Except Fault α) = .error f) : f.DeniesNothing := by
  cases x with
  | ok a => cases h
  | error m =>
    obtain rfl := Except.error.inj h
    exact deniesNothing_mishap m

theorem failure?_deniesNothing {strict : Bool} {context : Value} {check : CompiledCheck}
    {f : Fault} (h : check.failure? strict context = .error f) : f.DeniesNothing := by
  unfold CompiledCheck.failure? at h
  rcases bind_eq_error.mp h with h | ⟨value, -, h⟩
  · exact deniesNothing_lift h
  · cases hoperator : check.operator with
    | foreign token =>
      rw [hoperator] at h
      obtain rfl := Except.error.inj h
      exact deniesNothing_invalidOperator token
    | known kind =>
      rw [hoperator] at h
      rcases bind_eq_error.mp h with h | ⟨passes, -, h⟩
      · exact deniesNothing_lift h
      · cases passes <;> cases h

theorem firstFailure_deniesNothing {strict : Bool} {context : Value}
    {checks : List CompiledCheck} {f : Fault}
    (h : firstFailure strict context checks = .error f) : f.DeniesNothing := by
  induction checks with
  | nil => cases h
  | cons check rest ih =>
    rw [firstFailure] at h
    rcases bind_eq_error.mp h with h | ⟨found, -, h⟩
    · exact failure?_deniesNothing h
    · cases found with
      | none => exact ih h
      | some failure => cases h

theorem logDenial_deniesNothing {settings : Settings} {fieldName : Value}
    {reason : Except Mishap Text} {f : Fault}
    (h : (logDenial settings fieldName reason).outcome = .error f) : f.DeniesNothing := by
  unfold logDenial at h
  split at h
  · rcases Logged.bind_eq_error.mp h with h | ⟨why, -, h⟩
    · exact deniesNothing_lift h
    · rcases Logged.bind_eq_error.mp h with h | ⟨field, -, h⟩
      · exact deniesNothing_lift h
      · cases h
  · cases h

/-- Deciding never ends in a denial: it ends in a decision, or for want of one in
a fault of another sort. -/
theorem authorize_deniesNothing {context userField fieldName : Value}
    {checks : List CompiledCheck} {settings : Settings} {f : Fault}
    (h : (authorize context checks userField fieldName settings).outcome = .error f) :
    f.DeniesNothing := by
  unfold authorize at h
  rcases Logged.bind_eq_error.mp h with h | ⟨authenticated, -, h⟩
  · exact deniesNothing_lift h
  cases authenticated with
  | true =>
    rcases Logged.bind_eq_error.mp h with h | ⟨found, -, h⟩
    · exact firstFailure_deniesNothing h
    cases found with
    | none => cases h
    | some failure =>
      rcases Logged.bind_eq_error.mp h with h | ⟨reason, -, h⟩
      · exact deniesNothing_lift h
      · rcases Logged.bind_eq_error.mp h with h | ⟨-, -, h⟩
        · exact logDenial_deniesNothing h
        · cases h
  | false =>
    rcases Logged.bind_eq_error.mp h with h | ⟨-, -, h⟩
    · exact logDenial_deniesNothing h
    · cases h

/-! ## The reports of denials -/

/-- A denial of either kind is the report that enforcing makes of a decision about
this very field. -/
theorem Evaluator.Denies.cases {e : Evaluator} {context fieldName : Value} {kind : DenialKind}
    {r : Report} (h : e.Denies context fieldName kind r) :
    (kind = .unauthenticated
        ∧ r = .authentication (.text Report.authenticationMessage) fieldName none)
      ∨ ∃ decision message, kind = .forbidden ∧ decision.fieldName = fieldName
        ∧ Report.forbiddenMessage decision = .ok message
        ∧ r = .forbidden (.text message) decision := by
  obtain ⟨houtcome, hkind⟩ := h
  unfold Evaluator.enforce at houtcome
  rcases Logged.bind_eq_error.mp houtcome with hdecide | ⟨decision, hdecide, h⟩
  · have hnone := authorize_deniesNothing hdecide r rfl
    rw [hnone] at hkind
    cases hkind
  have hfield : decision.fieldName = fieldName := authorize_fieldName hdecide
  split_ifs at h with hallowed hunauthenticated
  · cases h
  · obtain rfl := Fault.report.inj (Except.error.inj h)
    exact .inl ⟨(Option.some.inj hkind).symm, rfl⟩
  · rcases Logged.bind_eq_error.mp h with h | ⟨message, hmessage, h⟩
    · have hnone := deniesNothing_lift h r rfl
      rw [hnone] at hkind
      cases hkind
    · obtain rfl := Fault.report.inj (Except.error.inj h)
      simp only [Logged.liftM_mishap, mapError_eq_ok] at hmessage
      exact .inr ⟨decision, message, (Option.some.inj hkind).symm, hfield, hmessage, rfl⟩

/-- The caller's view of a failed check leaves its decision out, the field apart. -/
theorem callerView_forbidden (message : Text) {d d' : Decision} (h : d.fieldName = d'.fieldName) :
    (Report.forbidden (.text message) d).callerView
      = (Report.forbidden (.text message) d').callerView := by
  unfold Report.callerView Report.toRecord Report.forbidden
  rw [h]
  rfl

theorem callerView_of_denies {e : Evaluator} {context fieldName : Value} {kind : DenialKind}
    {r : Report} (h : e.Denies context fieldName kind r) :
    r.callerView = denialView kind fieldName := by
  rcases h.cases with ⟨rfl, rfl⟩ | ⟨decision, message, rfl, hfield, hmessage, rfl⟩
  · rfl
  · have hshown : Report.forbiddenMessage (.allow fieldName) = .ok message := by
      rw [← hmessage]
      unfold Report.forbiddenMessage
      rw [hfield]
      rfl
    unfold denialView
    simp only [hshown, Except.toOption, Option.getD_some]
    exact callerView_forbidden message hfield

/-- Two denials of one field and one kind look the same to the caller, whatever
the two contexts hold and whatever the evaluators checked. What is seen is a
function of the kind and the field. -/
theorem a_denial_shows_nothing_but_its_field_and_kind :
    (∀ (e e' : Evaluator) (context other fieldName : Value) (kind : DenialKind) (r r' : Report),
      e.Denies context fieldName kind r → e'.Denies other fieldName kind r' →
        r.callerView = r'.callerView)
      ∧ ∃ view : DenialKind → Value → CallerView,
        ∀ (e : Evaluator) (context fieldName : Value) (kind : DenialKind) (r : Report),
          e.Denies context fieldName kind r → r.callerView = view kind fieldName := by
  constructor
  · intro e e' context other fieldName kind r r' h h'
    rw [callerView_of_denies h, callerView_of_denies h']
  · exact ⟨denialView, fun e context fieldName kind r h => callerView_of_denies h⟩

/-- Pay is for admins with a gold plan. -/
def payEvaluator : Evaluator :=
  ⟨Settings.standard,
    [⟨"role", ⟨"role", [.name "role"]⟩, .known .equal, .text "admin"⟩,
      ⟨"plans", ⟨"plans", [.name "plans"]⟩, .known .contains, .text "gold"⟩]⟩

def guestDecision : Decision :=
  .deny (.text "context.role (\"guest\") is not equal to admin") (.text "role") (.text "pay")
    (.operator .equal) (.text "guest") (.text "admin")

def planDecision : Decision :=
  .deny (.text "context.plans ([\"free\"]) does not contain gold") (.text "plans") (.text "pay")
    (.operator .contains) (.list [.text "free"]) (.text "gold")

theorem a_guest_and_an_admin_are_told_the_same :
    let told : Value := .text "User not allowed to access \"pay\""
    payEvaluator.Denies (Value.record [("user", .bool true), ("role", .text "guest")])
        (.text "pay") .forbidden (.forbidden told guestDecision)
      ∧ payEvaluator.Denies (Value.record
          [("user", .bool true), ("role", .text "admin"), ("plans", .list [.text "free"])])
        (.text "pay") .forbidden (.forbidden told planDecision)
      ∧ (Report.forbidden told guestDecision).callerView
        = (Report.forbidden told planDecision).callerView := by
  intro told
  have hguest : payEvaluator.Denies
      (Value.record [("user", .bool true), ("role", .text "guest")]) (.text "pay") .forbidden
      (.forbidden told guestDecision) := ⟨rfl, rfl⟩
  have hadmin : payEvaluator.Denies (Value.record
      [("user", .bool true), ("role", .text "admin"), ("plans", .list [.text "free"])])
      (.text "pay") .forbidden (.forbidden told planDecision) := ⟨rfl, rfl⟩
  exact ⟨hguest, hadmin,
    a_denial_shows_nothing_but_its_field_and_kind.1 _ _ _ _ _ _ _ _ hguest hadmin⟩

end FieldGate
