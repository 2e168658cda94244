-- The law of log lines: the reason of a denial and its log record break a line only where
-- what was declared does, so that no data of a request forges a line of the log.
import FieldGate.Proofs.Denials
import FieldGate.Proofs.ShownValues

namespace FieldGate

/-! ## Where a text breaks -/

/-- The points of the text that break a line are all of this sort. -/
def Text.BreaksOnlyAt (t : Text) (sort : Point → Prop) : Prop :=
  ∀ p ∈ t, p.breaks = true → sort p

/-- The point stands in what is shown of the value. -/
def Value.Shows (v : Value) (p : Point) : Prop := ∃ t, v.shown = .ok t ∧ p ∈ t

theorem shows_text {t : Text} {p : Point} : (Value.text t).Shows p ↔ p ∈ t := by
  unfold Value.Shows
  constructor
  · rintro ⟨s, hs, hp⟩
    obtain rfl := Except.ok.inj hs
    exact hp
  · intro hp
    exact ⟨t, rfl, hp⟩

namespace Text

variable {sort : Point → Prop}

@[simp] theorem breaksOnlyAt_append {s t : Text} :
    BreaksOnlyAt (s ++ t) sort ↔ s.BreaksOnlyAt sort ∧ t.BreaksOnlyAt sort := by
  simp [BreaksOnlyAt, or_imp, forall_and]

theorem IsOneLine.breaksOnlyAt {t : Text} (h : t.IsOneLine) : t.BreaksOnlyAt sort := by
  intro p hp hbreaks
  rw [h p hp] at hbreaks
  cases hbreaks

theorem BreaksOnlyAt.isOneLine {t : Text} (h : t.BreaksOnlyAt sort)
    (hsort : ∀ p, sort p → p.breaks = false) : t.IsOneLine := by
  intro p hp
  by_contra hbreaks
  rw [Bool.not_eq_false] at hbreaks
  exact absurd (hsort p (h p hp hbreaks)) (by simp [hbreaks])

theorem BreaksOnlyAt.mono {t : Text} {other : Point → Prop} (h : t.BreaksOnlyAt sort)
    (hmore : ∀ p, sort p → other p) : t.BreaksOnlyAt other :=
  fun p hp hbreaks => hmore p (h p hp hbreaks)

end Text

theorem breaksOnlyAt_shown {v : Value} {t : Text} (h : v.shown = .ok t) :
    t.BreaksOnlyAt v.Shows :=
  fun _ hp _ => ⟨t, h, hp⟩

/-! ## Reasons -/

/-- The point stands in what was declared of a check: in its path or in its value. -/
def CompiledCheck.Declares (check : CompiledCheck) (p : Point) : Prop :=
  p ∈ check.field ∨ check.declared.Shows p

/-- What is said of a failed check breaks only where its declaration does. -/
theorem breaksOnlyAt_describe {failure : Failure} {reason : Text}
    (hvalue : failure.value.HasNoObject) (h : failure.describe = .ok reason) :
    reason.BreaksOnlyAt failure.check.Declares := by
  obtain ⟨value, hrendered, h⟩ := bind_eq_ok.mp h
  obtain ⟨declared, hdeclared, h⟩ := bind_eq_ok.mp h
  obtain rfl := Except.ok.inj h
  have hfield : failure.check.field.BreaksOnlyAt failure.check.Declares := fun _ hp _ => .inl hp
  have hdeclaration : declared.BreaksOnlyAt failure.check.Declares :=
    (breaksOnlyAt_shown hdeclared).mono fun _ => .inr
  have hshown : value.IsOneLine := hvalue.isOneLine_rendered hrendered
  have hphrase : failure.kind.failurePhrase.IsOneLine := by
    cases failure.kind <;> decide
  have hwords {t : Text} (ht : t.IsOneLine) : t.BreaksOnlyAt failure.check.Declares :=
    ht.breaksOnlyAt
  simp only [Text.breaksOnlyAt_append]
  exact ⟨⟨⟨⟨⟨⟨⟨hwords (by decide), hfield⟩, hwords (by decide)⟩, hwords hshown⟩,
    hwords (by decide)⟩, hwords hphrase⟩, hwords (by decide)⟩, hdeclaration⟩

/-- What is said of a caller who is not authenticated breaks only where the name of the user
field does. -/
theorem breaksOnlyAt_notSetReason {userField : Value} {reason : Text}
    (h : notSetReason userField = .ok reason) : reason.BreaksOnlyAt userField.Shows := by
  obtain ⟨name, hname, h⟩ := bind_eq_ok.mp h
  obtain rfl := Except.ok.inj h
  have hwords {t : Text} (ht : t.IsOneLine) : t.BreaksOnlyAt userField.Shows := ht.breaksOnlyAt
  simp only [Text.breaksOnlyAt_append]
  exact ⟨⟨hwords (by decide), breaksOnlyAt_shown hname⟩, hwords (by decide)⟩

/-! ## Failures -/

section Failures

variable {strict : Bool} {context : Value} {failure : Failure}

theorem resolve_of_failure? {check : CompiledCheck}
    (h : check.failure? strict context = .ok (some failure)) :
    failure.check = check ∧ check.path.resolve context = .ok failure.value := by
  obtain ⟨value, hvalue, h⟩ := bind_eq_ok.mp h
  rw [liftM_mishap, mapError_eq_ok] at hvalue
  cases hoperator : check.operator with
  | foreign token =>
    rw [hoperator] at h
    cases h
  | known kind =>
    rw [hoperator] at h
    obtain ⟨passes, -, h⟩ := bind_eq_ok.mp h
    cases passes with
    | true => cases h
    | false =>
      obtain rfl := Option.some.inj (Except.ok.inj h)
      exact ⟨rfl, hvalue⟩

/-- The first failure is that of one of the checks, and shows what its path resolves to. -/
theorem resolve_of_firstFailure {checks : List CompiledCheck}
    (h : firstFailure strict context checks = .ok (some failure)) :
    failure.check ∈ checks ∧ failure.check.path.resolve context = .ok failure.value := by
  induction checks with
  | nil => cases h
  | cons check rest ih =>
    obtain ⟨found, hfound, h⟩ := bind_eq_ok.mp h
    cases found with
    | none =>
      obtain ⟨hmem, hresolve⟩ := ih h
      exact ⟨List.mem_cons_of_mem check hmem, hresolve⟩
    | some other =>
      obtain rfl := Option.some.inj (Except.ok.inj h)
      obtain ⟨rfl, hresolve⟩ := resolve_of_failure? hfound
      exact ⟨List.mem_cons_self, hresolve⟩

end Failures

/-! ## Records -/

section Authorize

variable {context userField fieldName : Value} {checks : List CompiledCheck}
  {settings : Settings} {d : Decision} {r : LogRecord}

/-- The record of a denial breaks only where its reason does, or the name of the field. -/
theorem breaksOnlyAt_logDenial {reason : Except Mishap Text} {sort : Point → Prop}
    (hreason : ∀ why, reason = .ok why → why.BreaksOnlyAt sort)
    (h : r ∈ (logDenial settings fieldName reason).log) :
    r.message.BreaksOnlyAt fun p => sort p ∨ fieldName.Shows p := by
  have hwords {t : Text} (ht : t.IsOneLine) :
      t.BreaksOnlyAt fun p => sort p ∨ fieldName.Shows p := ht.breaksOnlyAt
  unfold logDenial at h
  split at h
  · rcases Logged.mem_log_bind.mp h with h | ⟨why, hwhy, h⟩
    · simp at h
    rcases Logged.mem_log_bind.mp h with h | ⟨field, hfield, h⟩
    · simp at h
    simp only [Logged.liftM_mishap, mapError_eq_ok] at hwhy hfield
    obtain rfl := List.mem_singleton.mp h
    simp only [Text.breaksOnlyAt_append]
    exact ⟨⟨⟨⟨hwords (by decide), (hreason why hwhy).mono fun _ => .inl⟩, hwords (by decide)⟩,
      (breaksOnlyAt_shown hfield).mono fun _ => .inr⟩, hwords (by decide)⟩
  · simp at h

/-- A request logs the record of a denial: that its caller is not authenticated, or what is
said of the first failure. -/
theorem mem_log_authorize
    (h : r ∈ (authorize context checks userField fieldName settings).log) :
    (isAuthenticated context userField = .ok false
        ∧ r ∈ (logDenial settings fieldName (notSetReason userField)).log)
      ∨ ∃ failure reason, isAuthenticated context userField = .ok true
        ∧ firstFailure settings.strictGreaterThan context checks = .ok (some failure)
        ∧ failure.describe = .ok reason ∧ r ∈ (logDenial settings fieldName (.ok reason)).log := by
  unfold authorize at h
  rcases Logged.mem_log_bind.mp h with h | ⟨authenticated, hgate, h⟩
  · simp at h
  rw [Logged.liftM_mishap, mapError_eq_ok] at hgate
  cases authenticated with
  | false =>
    rcases Logged.mem_log_bind.mp h with h | ⟨_, _, h⟩
    · exact .inl ⟨hgate, h⟩
    · simp at h
  | true =>
    rcases Logged.mem_log_bind.mp h with h | ⟨found, hfound, h⟩
    · simp at h
    cases found with
    | none => simp at h
    | some failure =>
      rcases Logged.mem_log_bind.mp h with h | ⟨reason, hreason, h⟩
      · simp at h
      rw [Logged.liftM_mishap, mapError_eq_ok] at hreason
      rcases Logged.mem_log_bind.mp h with h | ⟨_, _, h⟩
      · exact .inr ⟨failure, reason, hgate, hfound, hreason, h⟩
      · simp at h

/-- A denial shows a value that stands in the context. -/
theorem has_value_of_authorize
    (h : (authorize context checks userField fieldName settings).outcome = .ok d) :
    context.Has d.value := by
  rcases authorize_cases h with ⟨-, rfl⟩ | ⟨-, ⟨-, rfl⟩ | ⟨failure, reason, hfailure, -, rfl⟩⟩
  · exact .missing
  · exact .missing
  · exact Value.Has.itself.walk (resolve_of_firstFailure hfailure).2

end Authorize

/-- What is shown of a resolved value without objects takes one line, in JSON and in quotes.
So the reason of a denial breaks only where the path or the value of the failed check does,
and its record where these do or the name of the field; without authentication the reason
takes one line, and its record breaks where the name of the user field does or that of the
field. Every value that a context without objects leads to is such a value. -/
theorem context_data_forges_no_log_line :
    (∀ (v : Value) (t : Text), v.HasNoObject → v.rendered = .ok t → t.IsOneLine)
      ∧ ∀ (context userField fieldName : Value) (checks : List CompiledCheck)
        (settings : Settings) (d : Decision),
        let run := authorize context checks userField fieldName settings
        run.outcome = .ok d → d.allowed = false →
          (context.HasNoObject → d.value.HasNoObject)
          ∧ (d.value.HasNoObject →
            (d.reason = .text unauthenticatedReason ∧ unauthenticatedReason.IsOneLine
              ∧ ∀ r ∈ run.log,
                r.message.BreaksOnlyAt fun p => userField.Shows p ∨ fieldName.Shows p)
            ∨ ∃ check ∈ checks, ∃ reason, d.failingField = .text check.field
              ∧ d.declared = check.declared ∧ d.reason = .text reason
              ∧ reason.BreaksOnlyAt check.Declares
              ∧ ∀ r ∈ run.log,
                r.message.BreaksOnlyAt fun p => check.Declares p ∨ fieldName.Shows p) := by
  refine ⟨fun v t hv => hv.isOneLine_rendered, ?_⟩
  intro context userField fieldName checks settings d run hd hdenied
  refine ⟨fun hcontext => hcontext.of_has (has_value_of_authorize hd), ?_⟩
  intro hvalue
  rcases authorize_cases hd with
    ⟨hgate, rfl⟩ | ⟨hgate, ⟨-, rfl⟩ | ⟨failure, reason, hfailure, hreason, rfl⟩⟩
  · refine .inl ⟨rfl, by decide, ?_⟩
    intro r hr
    rcases mem_log_authorize hr with ⟨-, hr⟩ | ⟨_, _, hopen, -⟩
    · exact breaksOnlyAt_logDenial (fun _ => breaksOnlyAt_notSetReason) hr
    · rw [hgate] at hopen
      cases hopen
  · cases hdenied
  · have hbreaks := breaksOnlyAt_describe hvalue hreason
    have hmem := (resolve_of_firstFailure hfailure).1
    refine .inr ⟨failure.check, hmem, reason, rfl, rfl, rfl, hbreaks, ?_⟩
    intro r hr
    rcases mem_log_authorize hr with ⟨hclosed, -⟩ | ⟨other, why, -, hother, hwhy, hr⟩
    · rw [hgate] at hclosed
      cases hclosed
    · obtain rfl := Option.some.inj (Except.ok.inj (hfailure.symm.trans hother))
      obtain rfl := Except.ok.inj (hreason.symm.trans hwhy)
      refine breaksOnlyAt_logDenial ?_ hr
      rintro _ ⟨⟩
      exact hbreaks

/-- A request of a guest whose role holds a line break and what looks like a record. -/
def forgingContext : Value :=
  .record [("user", .bool true), ("role", .text "guest\nINFO root allowed")]

/-- Only an admin may pass. -/
def adminOnly : CompiledCheck :=
  ⟨"role", ⟨"role", [.name "role"]⟩, .known .equal, .text "admin"⟩

theorem a_role_with_a_line_break_is_logged_on_one_line :
    let run := authorize forgingContext [adminOnly] (.text "user") (.text "pay")
      Settings.standard
    let d : Decision := .deny
      (.text "context.role (\"guest\\nINFO root allowed\") is not equal to admin")
      (.text "role") (.text "pay") (.operator .equal) (.text "guest\nINFO root allowed")
      (.text "admin")
    forgingContext.HasNoObject ∧ run.outcome = .ok d ∧ d.allowed = false
      ∧ run.log.length = 1 ∧ ∀ r ∈ run.log, r.message.IsOneLine := by
  intro run d
  have hobject : forgingContext.HasNoObject := by
    refine .record ?_
    simp only [List.forall_mem_cons, List.not_mem_nil, false_implies, implies_true, and_true]
    exact ⟨.bool true, .text _⟩
  have hd : run.outcome = .ok d := rfl
  obtain ⟨hreach, hdenial⟩ := context_data_forges_no_log_line.2 forgingContext (.text "user")
    (.text "pay") [adminOnly] Settings.standard d hd rfl
  refine ⟨hobject, hd, rfl, rfl, ?_⟩
  rcases hdenial (hreach hobject) with ⟨hreason, -⟩ | ⟨check, hcheck, reason, -, -, -, -, hlog⟩
  · exact absurd (Value.text.inj hreason) (by decide)
  · intro r hr
    apply (hlog r hr).isOneLine
    obtain rfl := List.mem_singleton.mp hcheck
    have hpath : Text.IsOneLine "role" := by decide
    have hdeclared : Text.IsOneLine "admin" := by decide
    have hfield : Text.IsOneLine "pay" := by decide
    rintro p ((hp | hp) | hp)
    · exact hpath p hp
    · exact hdeclared p (shows_text.mp hp)
    · exact hfield p (shows_text.mp hp)

end FieldGate
