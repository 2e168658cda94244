-- The laws of the decision: the gate comes first, then the checks in order, and
-- the first check that does not pass decides. What comes after it is never
-- consulted.
import FieldGate.Gate
import FieldGate.Proofs.Outcomes

namespace FieldGate

/-! ## The gate -/

/-- The values that do not count as present: the missing value, false, the zeros,
NaN and the empty text. -/
inductive CountsAsAbsent : Value → Prop
  | null : CountsAsAbsent .null
  | no : CountsAsAbsent (.bool false)
  | zero : CountsAsAbsent (.int 0)
  | doubleZero (negative : Bool) : CountsAsAbsent (.float (.zero negative))
  | nan : CountsAsAbsent (.float .nan)
  | empty : CountsAsAbsent (.text [])

theorem isNonzeroNumber_iff {d : Double} :
    d.isNonzeroNumber = false ↔ d = .nan ∨ ∃ negative, d = .zero negative := by
  cases d with
  | nan => simp [Double.isNonzeroNumber]
  | infinite negative => simp [Double.isNonzeroNumber, Double.zero]
  | finite negative m s fits =>
    simp only [Double.isNonzeroNumber, Double.zero, bne_eq_false_iff_eq, reduceCtorEq, false_or,
      Double.finite.injEq]
    constructor
    · rintro rfl
      -- A zero has no shift: a shifted mantissa uses all its bits.
      obtain ⟨_, _, hshift⟩ := fits
      have hpos : 0 < Nat.pow 2 52 := by decide
      exact ⟨negative, rfl, rfl, by omega⟩
    · rintro ⟨_, _, hm, _⟩
      exact hm

theorem isTruthy_iff {v : Value} : v.isTruthy = false ↔ CountsAsAbsent v := by
  constructor
  · intro h
    cases v with
    | null => exact .null
    | bool b =>
      obtain rfl : b = false := h
      exact .no
    | int n =>
      obtain rfl : n = 0 := by simpa [Value.isTruthy] using h
      exact .zero
    | float d =>
      rcases isNonzeroNumber_iff.mp h with rfl | ⟨negative, rfl⟩
      · exact .nan
      · exact .doubleZero negative
    | text t =>
      obtain rfl : t = [] := by simpa [Value.isTruthy] using h
      exact .empty
    | bytes _ | list _ | tuple _ | set _ | frozenSet _ | map _ | object _ _ | operator _
    | spec _ _ _ | path _ | check _ _ _ _ | undefined => cases h
  · intro h
    cases h with
    | null | no | nan | empty => rfl
    | zero => rfl
    | doubleZero negative => rfl

/-- The user field is named, and the context holds this value for it. -/
def UserEntry (context : Value) (userField : Option Text) (v : Value) : Prop :=
  ∃ u, userField = some u ∧ u ≠ [] ∧ context.walk [.text u] = .ok v

/-- The gate can look the caller up, unless it is disabled. -/
def LooksUp (context : Value) (userField : Option Text) : Prop :=
  ∀ u, userField = some u → u ≠ [] → ∃ v, context.walk [.text u] = .ok v

/-- Nothing that the context holds for the user field counts as absent. A user
field that is not named disables the gate. -/
def GateOpen (context : Value) (userField : Option Text) : Prop :=
  ∀ v, UserEntry context userField v → ¬CountsAsAbsent v

theorem isVacuous_ofText? (t : Option Text) :
    (Value.ofText? t).isVacuous = true ↔ ∀ u, t = some u → u = [] := by
  cases t with
  | none => simp [Value.ofText?, Value.isVacuous]
  | some u => simp [Value.ofText?, Value.isVacuous]

theorem isAuthenticated_absent {context v : Value} {userField : Option Text}
    (hentry : UserEntry context userField v) (habsent : CountsAsAbsent v) :
    isAuthenticated context (.ofText? userField) = .ok false := by
  obtain ⟨u, rfl, hne, hwalk⟩ := hentry
  rw [isAuthenticated, if_neg (by simp [isVacuous_ofText?, hne])]
  simp only [Value.ofText?, hwalk, Except.map, isTruthy_iff.mpr habsent]

theorem isAuthenticated_open {context : Value} {userField : Option Text}
    (hlookup : LooksUp context userField) (hopen : GateOpen context userField) :
    isAuthenticated context (.ofText? userField) = .ok true := by
  unfold isAuthenticated
  split
  · rfl
  · rename_i hvacuous
    rw [isVacuous_ofText?] at hvacuous
    push Not at hvacuous
    obtain ⟨u, rfl, hne⟩ := hvacuous
    obtain ⟨v, hwalk⟩ := hlookup u rfl hne
    have hpresent := hopen v ⟨u, rfl, hne, hwalk⟩
    rw [← isTruthy_iff, Bool.not_eq_false] at hpresent
    simp only [Value.ofText?, hwalk, Except.map, hpresent]

/-! ## One check -/

/-- Whether a check passes on a context: its operator is applied to the resolved
value and the declared one. -/
def CompiledCheck.verdict (strict : Bool) (context : Value) (check : CompiledCheck) :
    Except Fault Bool := do
  let value ← check.path.resolve context
  check.operator.passes strict value check.declared

theorem failure?_passes {strict : Bool} {context : Value} {check : CompiledCheck}
    (h : check.verdict strict context = .ok true) : check.failure? strict context = .ok none := by
  obtain ⟨value, hvalue, hpasses⟩ := bind_eq_ok.mp h
  unfold CompiledCheck.failure?
  rw [hvalue]
  cases hoperator : check.operator with
  | foreign token => simp [hoperator, OperatorSlot.passes] at hpasses
  | known kind =>
    rw [hoperator, OperatorSlot.passes] at hpasses
    simp only [ok_bind, liftM_mishap, hpasses, if_true]
    rfl

theorem failure?_raises {strict : Bool} {context : Value} {check : CompiledCheck} {e : Fault}
    (h : check.verdict strict context = .error e) :
    check.failure? strict context = .error e := by
  rcases bind_eq_error.mp h with hvalue | ⟨value, hvalue, hpasses⟩
  · unfold CompiledCheck.failure?
    rw [hvalue, error_bind]
  · unfold CompiledCheck.failure?
    rw [hvalue]
    cases hoperator : check.operator with
    | foreign token => simpa [hoperator, OperatorSlot.passes] using hpasses
    | known kind =>
      rw [hoperator, OperatorSlot.passes] at hpasses
      simp only [ok_bind, liftM_mishap, hpasses, error_bind]

/-- A check that fails has an operator of the enumeration. -/
theorem failure?_fails {strict : Bool} {context : Value} {check : CompiledCheck}
    (h : check.verdict strict context = .ok false) :
    ∃ kind value, check.operator = .known kind ∧ check.path.resolve context = .ok value
      ∧ check.failure? strict context = .ok (some ⟨check, kind, value⟩) := by
  obtain ⟨value, hvalue, hpasses⟩ := bind_eq_ok.mp h
  rw [liftM_mishap, mapError_eq_ok] at hvalue
  cases hoperator : check.operator with
  | foreign token =>
    simp only [hoperator, OperatorSlot.passes] at hpasses
    cases hpasses
  | known kind =>
    refine ⟨kind, value, rfl, hvalue, ?_⟩
    rw [hoperator, OperatorSlot.passes] at hpasses
    unfold CompiledCheck.failure?
    rw [hvalue, hoperator]
    simp only [liftM_mishap, mapError_ok, ok_bind, hpasses]
    rfl

/-! ## The checks in order -/

/-- Checks that pass are passed over. -/
theorem firstFailure_append {strict : Bool} {context : Value} {passed : List CompiledCheck}
    (rest : List CompiledCheck) (h : ∀ c ∈ passed, c.verdict strict context = .ok true) :
    firstFailure strict context (passed ++ rest) = firstFailure strict context rest := by
  induction passed with
  | nil => rfl
  | cons c passed ih =>
    rw [List.cons_append, firstFailure, failure?_passes (h c List.mem_cons_self)]
    exact ih fun c' hc' => h c' (List.mem_cons_of_mem c hc')

theorem firstFailure_none {strict : Bool} {context : Value} {checks : List CompiledCheck}
    (h : ∀ c ∈ checks, c.verdict strict context = .ok true) :
    firstFailure strict context checks = .ok none := by
  have hend := firstFailure_append [] h
  rw [List.append_nil] at hend
  exact hend

theorem firstFailure_raises {strict : Bool} {context : Value} {passed : List CompiledCheck}
    {check : CompiledCheck} {e : Fault} (rest : List CompiledCheck)
    (hpassed : ∀ c ∈ passed, c.verdict strict context = .ok true)
    (h : check.verdict strict context = .error e) :
    firstFailure strict context (passed ++ check :: rest) = .error e := by
  rw [firstFailure_append _ hpassed, firstFailure, failure?_raises h, error_bind]

/-- The first check that does not pass is the one that is reported. -/
theorem firstFailure_fails {strict : Bool} {context : Value} {passed : List CompiledCheck}
    {check : CompiledCheck} (rest : List CompiledCheck)
    (hpassed : ∀ c ∈ passed, c.verdict strict context = .ok true)
    (h : check.verdict strict context = .ok false) :
    ∃ kind value, check.operator = .known kind ∧ check.path.resolve context = .ok value
      ∧ firstFailure strict context (passed ++ check :: rest)
        = .ok (some ⟨check, kind, value⟩) := by
  obtain ⟨kind, value, hoperator, hvalue, hfailure⟩ := failure?_fails h
  refine ⟨kind, value, hoperator, hvalue, ?_⟩
  rw [firstFailure_append _ hpassed, firstFailure, hfailure]
  rfl

/-! ## The decision -/

/-- What a name looks like in a message. -/
def shownName (t : Option Text) : Text := t.getD "None"

theorem shown_name (t : Option Text) : (Value.ofText? t).shown = .ok (shownName t) := by
  cases t with
  | none => rfl
  | some u => rfl

/-- What is logged of a denial: one record, if denials are logged at all. -/
def denialLog (settings : Settings) (fieldName : Option Text) (reason : Text) : List LogRecord :=
  if settings.logDenials then
    [⟨.info, "User invalid because " ++ reason ++ " (field \"" ++ shownName fieldName ++ "\")"⟩]
  else []

theorem logDenial_eq (settings : Settings) (fieldName : Option Text) (reason : Text) :
    logDenial settings (.ofText? fieldName) (.ok reason)
      = ⟨.ok (), denialLog settings fieldName reason⟩ := by
  unfold logDenial denialLog
  split
  · simp only [Logged.liftM_mishap, mapError_ok, Logged.ok_bind, shown_name]
    rfl
  · rfl

/-- A caller who is absent is denied before any check is looked at. -/
theorem authorize_absent {context v : Value} {u : Text} (checks : List CompiledCheck)
    (fieldName : Option Text) (settings : Settings)
    (hentry : UserEntry context (some u) v) (habsent : CountsAsAbsent v) :
    authorize context checks (.ofText? (some u)) (.ofText? fieldName) settings
      = ⟨.ok (.unauthenticatedFor (.text u) (.ofText? fieldName)),
        denialLog settings fieldName ("context." ++ u ++ " is not set")⟩ := by
  have hreason : notSetReason (.ofText? (some u)) = .ok ("context." ++ u ++ " is not set") := rfl
  unfold authorize
  rw [isAuthenticated_absent hentry habsent, hreason, logDenial_eq]
  simp only [Logged.liftM_mishap, mapError_ok, Logged.ok_bind, Bool.false_eq_true, if_false]
  rw [Logged.bind_of_ok _ rfl]
  simp only [Logged.pure_eq, List.append_nil]
  rfl

/-- Past the gate, the first failure decides. -/
theorem authorize_open {context : Value} {userField : Option Text} (checks : List CompiledCheck)
    (fieldName : Option Text) (settings : Settings)
    (hlookup : LooksUp context userField) (hopen : GateOpen context userField) :
    authorize context checks (.ofText? userField) (.ofText? fieldName) settings
      = (do
          match ← Logged.silently (firstFailure settings.strictGreaterThan context checks) with
          | none => return .allow (.ofText? fieldName)
          | some failure =>
            let reason ← failure.describe
            logDenial settings (.ofText? fieldName) (.ok reason)
            return .deny (.text reason) (.text failure.check.field) (.ofText? fieldName)
              (.operator failure.kind) failure.value failure.check.declared) := by
  unfold authorize
  rw [isAuthenticated_open hlookup hopen]
  rfl

theorem authorize_allows {context : Value} {userField : Option Text} {checks : List CompiledCheck}
    (fieldName : Option Text) {settings : Settings}
    (hlookup : LooksUp context userField) (hopen : GateOpen context userField)
    (hchecks : ∀ c ∈ checks, c.verdict settings.strictGreaterThan context = .ok true) :
    authorize context checks (.ofText? userField) (.ofText? fieldName) settings
      = ⟨.ok (.allow (.ofText? fieldName)), []⟩ := by
  rw [authorize_open checks fieldName settings hlookup hopen, firstFailure_none hchecks]
  rfl

theorem authorize_raises {context : Value} {userField : Option Text}
    {checks : List CompiledCheck} (fieldName : Option Text) {settings : Settings} {e : Fault}
    (hlookup : LooksUp context userField) (hopen : GateOpen context userField)
    (hfailure : firstFailure settings.strictGreaterThan context checks = .error e) :
    authorize context checks (.ofText? userField) (.ofText? fieldName) settings
      = ⟨.error e, []⟩ := by
  rw [authorize_open checks fieldName settings hlookup hopen, hfailure]
  rfl

theorem authorize_denies {context : Value} {userField : Option Text}
    {checks : List CompiledCheck} (fieldName : Option Text) {settings : Settings}
    {failure : Failure} {reason : Text}
    (hlookup : LooksUp context userField) (hopen : GateOpen context userField)
    (hfailure : firstFailure settings.strictGreaterThan context checks = .ok (some failure))
    (hreason : failure.describe = .ok reason) :
    authorize context checks (.ofText? userField) (.ofText? fieldName) settings
      = ⟨.ok (.deny (.text reason) (.text failure.check.field) (.ofText? fieldName)
            (.operator failure.kind) failure.value failure.check.declared),
          denialLog settings fieldName reason⟩ := by
  rw [authorize_open checks fieldName settings hlookup hopen, hfailure]
  simp only [Logged.silently_eq, Logged.ok_bind, Logged.liftM_mishap, hreason, mapError_ok,
    logDenial_eq]
  rw [Logged.bind_of_ok _ rfl]
  simp only [Logged.pure_eq, List.append_nil]

/-! ## What is consulted -/

/-- The checks that are looked at: all up to the first that does not pass. -/
def consulted (strict : Bool) (context : Value) : List CompiledCheck → List CompiledCheck
  | [] => []
  | check :: rest =>
    match check.verdict strict context with
    | .ok true => check :: consulted strict context rest
    | .ok false | .error _ => [check]

/-- A check sees a context only through the value that its path resolves to. -/
theorem failure?_agrees {strict : Bool} {context other : Value} {check : CompiledCheck}
    (h : check.path.resolve other = check.path.resolve context) :
    check.failure? strict other = check.failure? strict context := by
  unfold CompiledCheck.failure?
  rw [h]

theorem verdict_agrees {strict : Bool} {context other : Value} {check : CompiledCheck}
    (h : check.path.resolve other = check.path.resolve context) :
    check.verdict strict other = check.verdict strict context := by
  unfold CompiledCheck.verdict
  rw [h]

theorem firstFailure_consulted (strict : Bool) (context : Value) (checks : List CompiledCheck) :
    firstFailure strict context (consulted strict context checks)
      = firstFailure strict context checks := by
  induction checks with
  | nil => rfl
  | cons check rest ih =>
    rw [consulted]
    cases h : check.verdict strict context with
    | error e => simp only [firstFailure, failure?_raises h, error_bind]
    | ok passes =>
      cases passes with
      | true => simp only [firstFailure, ih]
      | false =>
        obtain ⟨kind, value, _, _, hfailure⟩ := failure?_fails h
        simp only [firstFailure, hfailure, ok_bind]

theorem firstFailure_agrees {strict : Bool} {context other : Value} {checks : List CompiledCheck}
    (h : ∀ c ∈ checks, c.path.resolve other = c.path.resolve context) :
    firstFailure strict other checks = firstFailure strict context checks := by
  induction checks with
  | nil => rfl
  | cons check rest ih =>
    rw [firstFailure, firstFailure, failure?_agrees (h check List.mem_cons_self),
      ih fun c hc => h c (List.mem_cons_of_mem check hc)]

theorem consulted_agrees {strict : Bool} {context other : Value} {checks : List CompiledCheck}
    (h : ∀ c ∈ consulted strict context checks, c.path.resolve other = c.path.resolve context) :
    consulted strict other checks = consulted strict context checks := by
  induction checks with
  | nil => rfl
  | cons check rest ih =>
    have hcheck : check ∈ consulted strict context (check :: rest) := by
      rw [consulted]
      split <;> exact List.mem_cons_self
    rw [consulted, consulted, verdict_agrees (h check hcheck)]
    cases hverdict : check.verdict strict context with
    | error e => rfl
    | ok passes =>
      cases passes with
      | false => rfl
      | true =>
        rw [consulted, hverdict] at h
        simp only [ih fun c hc => h c (List.mem_cons_of_mem check hc)]

/-- Contexts that agree on what is consulted have the same first failure, and
the checks that are not consulted do not matter. -/
theorem firstFailure_depends {strict : Bool} {context other : Value}
    {checks checks' : List CompiledCheck}
    (hchecks : consulted strict context checks' = consulted strict context checks)
    (hagree : ∀ c ∈ consulted strict context checks,
      c.path.resolve other = c.path.resolve context) :
    firstFailure strict other checks' = firstFailure strict context checks := by
  calc firstFailure strict other checks'
      = firstFailure strict other (consulted strict other checks') :=
        (firstFailure_consulted strict other checks').symm
    _ = firstFailure strict other (consulted strict context checks) := by
        rw [← hchecks] at hagree ⊢
        rw [consulted_agrees hagree]
    _ = firstFailure strict context (consulted strict context checks) :=
        firstFailure_agrees hagree
    _ = firstFailure strict context checks := firstFailure_consulted strict context checks

/-- A gate that is not open has the entry of an absent caller. -/
theorem absent_of_not_open {context : Value} {userField : Option Text}
    (h : ¬GateOpen context userField) :
    ∃ u v, userField = some u ∧ UserEntry context userField v ∧ CountsAsAbsent v := by
  simp only [GateOpen, not_forall, not_not] at h
  obtain ⟨v, hentry, habsent⟩ := h
  obtain ⟨u, hu, hne, hwalk⟩ := hentry
  exact ⟨u, v, hu, ⟨u, hu, hne, hwalk⟩, habsent⟩

/-- The whole answer, with its log, depends on the gate and on what is consulted. -/
theorem authorize_depends {context other : Value} {userField : Option Text}
    {checks checks' : List CompiledCheck} (fieldName : Option Text) {settings : Settings}
    (hlookup : LooksUp context userField) (hlookup' : LooksUp other userField)
    (hgate : GateOpen other userField ↔ GateOpen context userField)
    (hconsulted : GateOpen context userField →
      consulted settings.strictGreaterThan context checks'
          = consulted settings.strictGreaterThan context checks
        ∧ ∀ c ∈ consulted settings.strictGreaterThan context checks,
            c.path.resolve other = c.path.resolve context) :
    authorize other checks' (.ofText? userField) (.ofText? fieldName) settings
      = authorize context checks (.ofText? userField) (.ofText? fieldName) settings := by
  by_cases hopen : GateOpen context userField
  · obtain ⟨hchecks, hagree⟩ := hconsulted hopen
    rw [authorize_open checks fieldName settings hlookup hopen,
      authorize_open checks' fieldName settings hlookup' (hgate.mpr hopen),
      firstFailure_depends hchecks hagree]
  · obtain ⟨u, v, rfl, hentry, habsent⟩ := absent_of_not_open hopen
    obtain ⟨_, v', hu, hentry', habsent'⟩ := absent_of_not_open (mt hgate.mp hopen)
    rw [authorize_absent checks fieldName settings hentry habsent,
      authorize_absent checks' fieldName settings hentry' habsent']

/-! ## The law of the decision -/

/-- A caller who is absent is denied. Otherwise the first check that does not
pass is denied or raises, and without one the field is allowed; nothing else of
the context and of the checks has a say. -/
theorem the_first_check_that_does_not_pass_decides (context : Value)
    (checks : List CompiledCheck) (userField fieldName : Option Text) (settings : Settings)
    (hlookup : LooksUp context userField) :
    let answer := authorize context checks (.ofText? userField) (.ofText? fieldName) settings
    let verdict := CompiledCheck.verdict settings.strictGreaterThan context
    (∀ u v, userField = some u → UserEntry context userField v → CountsAsAbsent v →
      answer = ⟨.ok (.unauthenticatedFor (.text u) (.ofText? fieldName)),
        denialLog settings fieldName ("context." ++ u ++ " is not set")⟩)
    ∧ (GateOpen context userField →
      ((∀ c ∈ checks, verdict c = .ok true) → answer = ⟨.ok (.allow (.ofText? fieldName)), []⟩)
      ∧ ∀ passed check rest, checks = passed ++ check :: rest →
        (∀ c ∈ passed, verdict c = .ok true) →
        (∀ e, verdict check = .error e → answer = ⟨.error e, []⟩)
        ∧ (verdict check = .ok false →
          ∃ kind value, check.operator = .known kind ∧ check.path.resolve context = .ok value
            ∧ ∀ reason, Failure.describe ⟨check, kind, value⟩ = .ok reason →
              answer = ⟨.ok (.deny (.text reason) (.text check.field) (.ofText? fieldName)
                  (.operator kind) value check.declared),
                denialLog settings fieldName reason⟩))
    ∧ (∀ other checks', LooksUp other userField →
      (GateOpen other userField ↔ GateOpen context userField) →
      (GateOpen context userField →
        consulted settings.strictGreaterThan context checks'
            = consulted settings.strictGreaterThan context checks
          ∧ ∀ c ∈ consulted settings.strictGreaterThan context checks,
              c.path.resolve other = c.path.resolve context) →
      authorize other checks' (.ofText? userField) (.ofText? fieldName) settings = answer) := by
  intro answer verdict
  refine ⟨?absent, ?opened, ?depends⟩
  case absent =>
    rintro u v rfl hentry habsent
    exact authorize_absent checks fieldName settings hentry habsent
  case opened =>
    intro hopen
    refine ⟨authorize_allows fieldName hlookup hopen, ?_⟩
    intro passed check rest hsplit hpassed
    refine ⟨?raises, ?fails⟩
    case raises =>
      intro e hverdict
      refine authorize_raises fieldName hlookup hopen ?_
      rw [hsplit]
      exact firstFailure_raises rest hpassed hverdict
    case fails =>
      intro hverdict
      obtain ⟨kind, value, hoperator, hvalue, hfailure⟩ :=
        firstFailure_fails rest hpassed hverdict
      rw [← hsplit] at hfailure
      exact ⟨kind, value, hoperator, hvalue, fun reason hreason =>
        authorize_denies fieldName hlookup hopen hfailure hreason⟩
  case depends =>
    intro other checks' hlookup' hgate hconsulted
    exact authorize_depends fieldName hlookup hlookup' hgate hconsulted

/-- A guest who asks for what only an admin may see. -/
def guestContext : Value := Value.record [("user", .bool true), ("role", .text "guest")]

/-- The role is compared with a text. -/
def roleCheck (declared : Text) (operator : OperatorSlot) : CompiledCheck :=
  ⟨"role", ⟨"role", [.name "role"]⟩, operator, .text declared⟩

/-- Why the guest may not see it. -/
def guestReason : Text := "context.role (\"guest\") is not equal to admin"

theorem a_guest_is_denied_by_the_second_check :
    LooksUp guestContext (some "user")
    ∧ authorize guestContext
        [roleCheck "nobody" (.known .notEqual), roleCheck "admin" (.known .equal),
          roleCheck "admin" (.foreign .null)]
        (.ofText? (some "user")) (.ofText? (some "pay")) Settings.standard
      = ⟨.ok (.deny (.text guestReason) (.text "role") (.text "pay") (.operator .equal)
            (.text "guest") (.text "admin")),
          [⟨.info, "User invalid because " ++ guestReason ++ " (field \"pay\")"⟩]⟩ := by
  have hlookup : LooksUp guestContext (some "user") := by
    rintro u hu -
    obtain rfl := Option.some.inj hu
    exact ⟨.bool true, rfl⟩
  have hopen : GateOpen guestContext (some "user") := by
    rintro v ⟨u, hu, -, hwalk⟩ habsent
    obtain rfl := Option.some.inj hu
    obtain rfl : Value.bool true = v := Except.ok.inj hwalk
    cases habsent
  obtain ⟨-, hchecks, -⟩ := the_first_check_that_does_not_pass_decides guestContext
    [roleCheck "nobody" (.known .notEqual), roleCheck "admin" (.known .equal),
      roleCheck "admin" (.foreign .null)] (some "user") (some "pay") Settings.standard hlookup
  obtain ⟨-, hfails⟩ := (hchecks hopen).2 [roleCheck "nobody" (.known .notEqual)]
    (roleCheck "admin" (.known .equal)) [roleCheck "admin" (.foreign .null)] rfl
    (List.forall_mem_singleton.mpr rfl)
  obtain ⟨kind, value, hkind, hvalue, hanswer⟩ := hfails rfl
  obtain rfl : OperatorKind.equal = kind := OperatorSlot.known.inj hkind
  obtain rfl : Value.text "guest" = value := Except.ok.inj hvalue
  exact ⟨hlookup, hanswer _ rfl⟩

end FieldGate
