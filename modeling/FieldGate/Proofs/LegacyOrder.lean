-- What the legacy reading of "greater than" changes: a check of this kind passes for
-- equal values too, so access only widens, and it widens at such a tie alone. The two
-- runs over one row of checks go the same way up to the first tie.
import FieldGate.Proofs.Enforcing

namespace FieldGate

/-! ## Ties -/

/-- The check asks for "greater than", and the value that it resolves to and the
declared one are equal in the order. -/
structure Ties (context : Value) (check : CompiledCheck) (value : Value) : Prop where
  operator : check.operator = .known .greaterThan
  resolves : check.path.resolve context = .ok value
  equal : value.compare? check.declared = .ok (some .eq)

/-- The check at this place of the row fails, and all before it pass. -/
structure FailsAt (strict : Bool) (context : Value) (checks : List CompiledCheck) (place : Nat)
    (check : CompiledCheck) : Prop where
  here : checks[place]? = some check
  before : ∀ c ∈ checks.take place, c.verdict strict context = .ok true
  fails : check.verdict strict context = .ok false

/-! ## One check in the two readings -/

theorem passes_legacy {kind : OperatorKind} (h : kind ≠ .greaterThan) (value declared : Value) :
    kind.passes true value declared = kind.passes false value declared := by
  cases kind with
  | greaterThan => exact absurd rfl h
  | lessThan | lessThanEqual | equal | notEqual | greaterThanEqual | contains | notContains => rfl

/-- Off a tie, "greater than" and its legacy reading agree. -/
theorem greaterThan_legacy {value declared : Value}
    (h : value.compare? declared ≠ .ok (some .eq)) :
    OperatorKind.greaterThan.passes true value declared
      = OperatorKind.greaterThan.passes false value declared := by
  simp only [OperatorKind.passes, if_true, Bool.false_eq_true, if_false]
  cases hcompare : value.compare? declared with
  | error m => rfl
  | ok order =>
    rcases order with _ | (_ | _ | _)
    · rfl
    · rfl
    · exact absurd hcompare h
    · rfl

section Check

variable {context value : Value} {check : CompiledCheck}

theorem Ties.verdict (h : Ties context check value) (strict : Bool) :
    check.verdict strict context = .ok !strict := by
  unfold CompiledCheck.verdict
  rw [h.resolves, liftM_mishap, mapError_ok, ok_bind, h.operator]
  simp only [OperatorSlot.passes, OperatorKind.passes, h.equal]
  cases strict <;> rfl

/-- A check fails, passes or raises alike in both readings, unless it ties. -/
theorem failure?_legacy (context : Value) (check : CompiledCheck) :
    check.failure? true context = check.failure? false context
      ∨ ∃ value, Ties context check value := by
  cases hvalue : check.path.resolve context with
  | error m =>
    left
    simp only [CompiledCheck.failure?, hvalue, liftM_mishap, mapError_error, error_bind]
  | ok value =>
    cases hoperator : check.operator with
    | foreign token =>
      left
      simp only [CompiledCheck.failure?, hoperator]
    | known kind =>
      have hsame (h : kind.passes true value check.declared
          = kind.passes false value check.declared) :
          check.failure? true context = check.failure? false context := by
        simp only [CompiledCheck.failure?, hvalue, hoperator, liftM_mishap, mapError_ok, ok_bind, h]
      by_cases hkind : kind = .greaterThan
      · subst hkind
        by_cases hequal : value.compare? check.declared = .ok (some .eq)
        · exact .inr ⟨value, hoperator, hvalue, hequal⟩
        · exact .inl (hsame (greaterThan_legacy hequal))
      · exact .inl (hsame (passes_legacy hkind value check.declared))

theorem failure?_none_iff {strict : Bool} :
    check.failure? strict context = .ok none ↔ check.verdict strict context = .ok true := by
  refine ⟨fun h => ?_, failure?_passes⟩
  cases hverdict : check.verdict strict context with
  | error e =>
    rw [failure?_raises hverdict] at h
    cases h
  | ok passes =>
    cases passes with
    | true => rfl
    | false =>
      obtain ⟨_, _, _, _, hfailure⟩ := failure?_fails hverdict
      rw [hfailure] at h
      cases h

/-- What passes strictly passes in the legacy reading too. -/
theorem passes_of_strict (h : check.verdict true context = .ok true) :
    check.verdict false context = .ok true := by
  rcases failure?_legacy context check with hsame | ⟨value, hties⟩
  · rw [← failure?_none_iff] at h ⊢
    rw [← hsame, h]
  · rw [hties.verdict] at h
    cases h

/-- A failed check is reported itself. -/
theorem fails_of_failure? {strict : Bool} {failure : Failure}
    (h : check.failure? strict context = .ok (some failure)) :
    check.verdict strict context = .ok false ∧ failure.check = check := by
  cases hverdict : check.verdict strict context with
  | error e =>
    rw [failure?_raises hverdict] at h
    cases h
  | ok passes =>
    cases passes with
    | true =>
      rw [failure?_passes hverdict] at h
      cases h
    | false =>
      obtain ⟨_, _, _, _, hfailure⟩ := failure?_fails hverdict
      obtain rfl := Option.some.inj (Except.ok.inj (hfailure.symm.trans h))
      exact ⟨rfl, rfl⟩

theorem Ties.failure? (h : Ties context check value) :
    check.failure? true context = .ok (some ⟨check, .greaterThan, value⟩) := by
  obtain ⟨kind, value', hkind, hvalue, hfailure⟩ := failure?_fails (h.verdict true)
  obtain rfl := OperatorSlot.known.inj (h.operator.symm.trans hkind)
  obtain rfl := Except.ok.inj (h.resolves.symm.trans hvalue)
  exact hfailure

end Check

/-! ## The two runs -/

section Runs

variable {strict : Bool} {context : Value} {checks : List CompiledCheck}

theorem FailsAt.cons {place : Nat} {check c : CompiledCheck}
    (hc : c.verdict strict context = .ok true) (h : FailsAt strict context checks place check) :
    FailsAt strict context (c :: checks) (place + 1) check := by
  refine ⟨h.here, ?_, h.fails⟩
  rw [List.take_succ_cons, List.forall_mem_cons]
  exact ⟨hc, h.before⟩

/-- The failure that a run reports is the one at the first place that fails. -/
theorem failsAt_of_firstFailure {failure : Failure}
    (h : firstFailure strict context checks = .ok (some failure)) :
    ∃ place, FailsAt strict context checks place failure.check := by
  induction checks with
  | nil => cases h
  | cons c rest ih =>
    obtain ⟨found, hfound, h⟩ := bind_eq_ok.mp h
    cases found with
    | none =>
      obtain ⟨place, hplace⟩ := ih h
      exact ⟨place + 1, hplace.cons (failure?_none_iff.mp hfound)⟩
    | some f =>
      obtain rfl : f = failure := Option.some.inj (Except.ok.inj h)
      obtain ⟨hfails, hcheck⟩ := fails_of_failure? hfound
      exact ⟨0, by rw [hcheck]; rfl, by simp, by rw [hcheck]; exact hfails⟩

/-- The legacy run fails nowhere before the strict one. -/
theorem FailsAt.le_legacy {i j : Nat} {c c' : CompiledCheck}
    (h : FailsAt true context checks i c) (h' : FailsAt false context checks j c') : i ≤ j := by
  by_contra hlt
  have hmem : c' ∈ checks.take i := by
    rw [List.mem_take_iff_getElem]
    obtain ⟨hj, rfl⟩ := List.getElem?_eq_some_iff.mp h'.here
    exact ⟨j, by omega, rfl⟩
  have hpasses := passes_of_strict (h.before c' hmem)
  rw [h'.fails] at hpasses
  cases hpasses

/-- The runs over a row of checks end alike, or the strict one fails at a check that
ties. The induction is on the row: the two runs part at a tie alone. -/
theorem firstFailure_legacy (context : Value) (checks : List CompiledCheck) :
    firstFailure true context checks = firstFailure false context checks
      ∨ ∃ check value, Ties context check value
        ∧ firstFailure true context checks = .ok (some ⟨check, .greaterThan, value⟩) := by
  induction checks with
  | nil => exact .inl rfl
  | cons c rest ih =>
    rcases failure?_legacy context c with hsame | ⟨value, hties⟩
    · rw [firstFailure, firstFailure, hsame]
      cases hfailure : c.failure? false context with
      | error e => exact .inl rfl
      | ok found =>
        cases found with
        | some failure => exact .inl rfl
        | none => exact ih
    · refine .inr ⟨c, value, hties, ?_⟩
      rw [firstFailure, hties.failure?]
      rfl

end Runs

/-! ## The two decisions -/

/-- The same settings in the strict reading, or in the legacy one. -/
def Settings.reading (settings : Settings) (strict : Bool) : Settings :=
  { settings with strictGreaterThan := strict }

section Decisions

variable {context userField fieldName : Value} {checks : List CompiledCheck}
  {settings : Settings}

/-- The two answers, with their logs, are the same, or the gate is passed and the
strict run fails at a check that ties. -/
theorem authorize_legacy (context userField fieldName : Value) (checks : List CompiledCheck)
    (settings : Settings) :
    authorize context checks userField fieldName (settings.reading true)
        = authorize context checks userField fieldName (settings.reading false)
      ∨ isAuthenticated context userField = .ok true
        ∧ ∃ check value, Ties context check value
          ∧ firstFailure true context checks = .ok (some ⟨check, .greaterThan, value⟩) := by
  rcases firstFailure_legacy context checks with hsame | htie
  · left
    unfold authorize
    simp only [Settings.reading, hsame]
    rfl
  · cases hgate : isAuthenticated context userField with
    | error m =>
      left
      simp only [authorize, hgate, Logged.liftM_mishap, mapError_error, Logged.error_bind]
    | ok authenticated =>
      cases authenticated with
      | true => exact .inr ⟨rfl, htie⟩
      | false =>
        left
        simp only [authorize, hgate, Logged.liftM_mishap, mapError_ok, Logged.ok_bind,
          Bool.false_eq_true, if_false]
        rfl

/-- Past the gate, a run that fails at a check comes to no other decision than its denial. -/
theorem decision_of_firstFailure {failure : Failure} {d : Decision}
    (hgate : isAuthenticated context userField = .ok true)
    (hfailure : firstFailure settings.strictGreaterThan context checks = .ok (some failure))
    (h : (authorize context checks userField fieldName settings).outcome = .ok d) :
    ∃ reason, d = failure.decision reason fieldName := by
  rcases authorize_cases h with ⟨hclosed, -⟩ | ⟨-, ⟨hnone, -⟩ | ⟨f, reason, hf, -, rfl⟩⟩
  · rw [hgate] at hclosed
    cases hclosed
  · rw [hfailure] at hnone
    cases hnone
  · obtain rfl := Option.some.inj (Except.ok.inj (hfailure.symm.trans hf))
    exact ⟨reason, rfl⟩

/-- A denial comes from the gate, or from the first place that fails. -/
theorem denial_cases {d : Decision} (hdenied : d.allowed = false)
    (h : (authorize context checks userField fieldName settings).outcome = .ok d) :
    (isAuthenticated context userField = .ok false ∧ d = .unauthenticatedFor userField fieldName)
      ∨ isAuthenticated context userField = .ok true
        ∧ ∃ (place : Nat) (failure : Failure) (reason : Text),
          FailsAt settings.strictGreaterThan context checks place failure.check
          ∧ d = failure.decision reason fieldName := by
  rcases authorize_cases h with hclosed | ⟨hgate, ⟨-, rfl⟩ | ⟨failure, reason, hfailure, -, rfl⟩⟩
  · exact .inl hclosed
  · cases hdenied
  · obtain ⟨place, hplace⟩ := failsAt_of_firstFailure hfailure
    exact .inr ⟨hgate, place, failure, reason, hplace, rfl⟩

end Decisions

/-- The legacy reading only widens access, and only at ties. Whatever the strict run
allows, the legacy run answers alike. Where both deny, it is for want of an
authenticated caller, or the legacy run fails at the same place as the strict one or at
a later one. If the answers differ at all, be it in the log, then the first check that
fails strictly asks for "greater than" and ties, and it is the one that the strict run
denies for. Without such a check the answers are the same. -/
theorem legacy_order_widens_access_only_at_ties (context userField fieldName : Value)
    (checks : List CompiledCheck) (settings : Settings) :
    let answer := fun strict => authorize context checks userField fieldName
      (settings.reading strict)
    (∀ d, (answer true).outcome = .ok d → d.allowed = true → answer false = answer true)
    ∧ (∀ d d', (answer true).outcome = .ok d → d.allowed = false →
        (answer false).outcome = .ok d' → d'.allowed = false →
        (d = .unauthenticatedFor userField fieldName ∧ d' = d)
        ∨ ∃ (i j : Nat) (failure failure' : Failure) (reason reason' : Text), i ≤ j
          ∧ FailsAt true context checks i failure.check
          ∧ FailsAt false context checks j failure'.check
          ∧ d = failure.decision reason fieldName ∧ d' = failure'.decision reason' fieldName)
    ∧ (answer true ≠ answer false → ∃ i check value, FailsAt true context checks i check
        ∧ Ties context check value
        ∧ ∀ d, (answer true).outcome = .ok d →
          ∃ reason, d = Failure.decision ⟨check, .greaterThan, value⟩ reason fieldName)
    ∧ ((∀ c ∈ checks, c.operator ≠ .known .greaterThan) → answer true = answer false) := by
  intro answer
  have hcases := authorize_legacy context userField fieldName checks settings
  refine ⟨?allows, ?denies, ?differs, ?without⟩
  case allows =>
    intro d hd hallowed
    rcases hcases with hsame | ⟨hgate, check, value, -, hfirst⟩
    · exact hsame.symm
    · obtain ⟨reason, rfl⟩ := decision_of_firstFailure hgate hfirst hd
      cases hallowed
  case denies =>
    intro d d' hd hdenied hd' hdenied'
    rcases denial_cases hdenied hd with ⟨hclosed, rfl⟩ |
      ⟨hgate, i, failure, reason, hi, rfl⟩
    · rcases denial_cases hdenied' hd' with ⟨-, rfl⟩ | ⟨hgate, -⟩
      · exact .inl ⟨rfl, rfl⟩
      · rw [hgate] at hclosed
        cases hclosed
    · rcases denial_cases hdenied' hd' with ⟨hclosed, -⟩ |
        ⟨-, j, failure', reason', hj, rfl⟩
      · rw [hgate] at hclosed
        cases hclosed
      · exact .inr ⟨i, j, failure, failure', reason, reason', hi.le_legacy hj, hi, hj, rfl, rfl⟩
  case differs =>
    intro hne
    obtain ⟨hgate, check, value, hties, hfirst⟩ := hcases.resolve_left hne
    obtain ⟨i, hi⟩ := failsAt_of_firstFailure hfirst
    exact ⟨i, check, value, hi, hties, fun d => decision_of_firstFailure hgate hfirst⟩
  case without =>
    intro hnone
    refine hcases.resolve_right ?_
    rintro ⟨-, check, value, hties, hfirst⟩
    obtain ⟨i, hi⟩ := failsAt_of_firstFailure hfirst
    exact hnone check (List.mem_of_getElem? hi.here) hties.operator

/-- A caller who joined on the first day of the year. -/
def newYearMember : Value := .record [("user", .bool true), ("joined", .text "2024-01-01")]

/-- Only members who joined after that day may pass. -/
def joinedLater : CompiledCheck :=
  ⟨"joined", ⟨"joined", [.name "joined"]⟩, .known .greaterThan, .text "2024-01-01"⟩

theorem the_day_itself_is_late_enough_in_the_legacy_reading_alone :
    let answer := fun strict => authorize newYearMember [joinedLater] (.text "user") .null
      (Settings.standard.reading strict)
    (answer true).outcome = .ok (.deny
        (.text "context.joined (\"2024-01-01\") is not greater than 2024-01-01") (.text "joined")
        .null (.operator .greaterThan) (.text "2024-01-01") (.text "2024-01-01"))
      ∧ (answer false).outcome = .ok (.allow .null)
      ∧ ∃ place check value, FailsAt true newYearMember [joinedLater] place check
        ∧ Ties newYearMember check value := by
  intro answer
  have hstrict : (answer true).outcome = .ok (.deny
      (.text "context.joined (\"2024-01-01\") is not greater than 2024-01-01") (.text "joined")
      .null (.operator .greaterThan) (.text "2024-01-01") (.text "2024-01-01")) := rfl
  have hlegacy : (answer false).outcome = .ok (.allow .null) := rfl
  have hne : answer true ≠ answer false := by
    intro heq
    rw [heq, hlegacy] at hstrict
    cases hstrict
  obtain ⟨-, -, hdiffers, -⟩ := legacy_order_widens_access_only_at_ties newYearMember
    (.text "user") .null [joinedLater] Settings.standard
  obtain ⟨place, check, value, hplace, hties, -⟩ := hdiffers hne
  exact ⟨hstrict, hlegacy, place, check, value, hplace, hties⟩

end FieldGate
