-- Steps that may fail, one after another: how the answer of a whole comes
-- about from the answers of its parts.
import Mathlib
import FieldGate.Log

namespace FieldGate

/-! ## An answer or an error -/

section Except

variable {ε ε' α β : Type}

@[simp] theorem pure_ok (a : α) : (pure a : Except ε α) = .ok a := rfl

@[simp] theorem ok_bind (a : α) (f : α → Except ε β) : (Except.ok a >>= f) = f a := rfl

@[simp] theorem error_bind (e : ε) (f : α → Except ε β) :
    (Except.error e >>= f) = .error e := rfl

@[simp] theorem mapError_ok (f : ε → ε') (a : α) : (Except.ok a).mapError f = .ok a := rfl

@[simp] theorem mapError_error (f : ε → ε') (e : ε) :
    (Except.error e : Except ε α).mapError f = .error (f e) := rfl

@[simp] theorem liftM_mishap (x : Except Mishap α) :
    (liftM x : Except Fault α) = x.mapError .mishap := rfl

theorem bind_eq_ok {x : Except ε α} {f : α → Except ε β} {b : β} :
    (x >>= f) = .ok b ↔ ∃ a, x = .ok a ∧ f a = .ok b := by
  cases x with
  | error e => simp
  | ok a => simp

theorem bind_eq_error {x : Except ε α} {f : α → Except ε β} {e : ε} :
    (x >>= f) = .error e ↔ x = .error e ∨ ∃ a, x = .ok a ∧ f a = .error e := by
  cases x with
  | error e' => simp
  | ok a => simp

theorem map_eq_ok {x : Except ε α} {f : α → β} {b : β} :
    x.map f = .ok b ↔ ∃ a, x = .ok a ∧ f a = b := by
  cases x with
  | error e => simp [Except.map]
  | ok a => simp [Except.map]

theorem map_eq_error {x : Except ε α} {f : α → β} {e : ε} :
    x.map f = .error e ↔ x = .error e := by
  cases x with
  | error e' => simp [Except.map]
  | ok a => simp [Except.map]

theorem toOption_eq_some {x : Except ε α} {a : α} : x.toOption = some a ↔ x = .ok a := by
  cases x with
  | error e => simp [Except.toOption]
  | ok a' => simp [Except.toOption]

theorem mapError_eq_ok {x : Except ε α} {f : ε → ε'} {a : α} :
    x.mapError f = .ok a ↔ x = .ok a := by
  cases x with
  | error e => simp [Except.mapError]
  | ok a' => simp [Except.mapError]

end Except

/-! ## An outcome with its log -/

namespace Logged

variable {α β : Type}

@[simp] theorem pure_eq (a : α) : (pure a : Logged α) = ⟨.ok a, []⟩ := rfl

@[simp] theorem silently_eq (x : Except Fault α) : silently x = ⟨x, []⟩ := rfl

@[simp] theorem liftM_fault (x : Except Fault α) : (liftM x : Logged α) = ⟨x, []⟩ := rfl

@[simp] theorem liftM_mishap (x : Except Mishap α) :
    (liftM x : Logged α) = ⟨x.mapError .mishap, []⟩ := rfl

theorem bind_of_ok {x : Logged α} {a : α} (f : α → Logged β) (h : x.outcome = .ok a) :
    x >>= f = ⟨(f a).outcome, x.log ++ (f a).log⟩ := by
  obtain ⟨outcome, log⟩ := x
  obtain rfl : outcome = .ok a := h
  rfl

theorem bind_of_error {x : Logged α} {e : Fault} (f : α → Logged β) (h : x.outcome = .error e) :
    x >>= f = ⟨.error e, x.log⟩ := by
  obtain ⟨outcome, log⟩ := x
  obtain rfl : outcome = .error e := h
  rfl

theorem bind_eq_ok {x : Logged α} {f : α → Logged β} {b : β} :
    (x >>= f).outcome = .ok b ↔ ∃ a, x.outcome = .ok a ∧ (f a).outcome = .ok b := by
  cases h : x.outcome with
  | error e => simp [bind_of_error f h]
  | ok a => simp [bind_of_ok f h]

theorem bind_eq_error {x : Logged α} {f : α → Logged β} {e : Fault} :
    (x >>= f).outcome = .error e
      ↔ x.outcome = .error e ∨ ∃ a, x.outcome = .ok a ∧ (f a).outcome = .error e := by
  cases h : x.outcome with
  | error e' => simp [bind_of_error f h]
  | ok a => simp [bind_of_ok f h]

/-- What is logged on the way comes from the first step, or from what follows its answer. -/
theorem mem_log_bind {x : Logged α} {f : α → Logged β} {r : LogRecord} :
    r ∈ (x >>= f).log ↔ r ∈ x.log ∨ ∃ a, x.outcome = .ok a ∧ r ∈ (f a).log := by
  cases h : x.outcome with
  | error e => simp [bind_of_error f h]
  | ok a => simp [bind_of_ok f h]

@[simp] theorem ok_bind (a : α) (f : α → Logged β) : (⟨.ok a, []⟩ : Logged α) >>= f = f a :=
  bind_of_ok f rfl

@[simp] theorem error_bind (e : Fault) (log : List LogRecord) (f : α → Logged β) :
    (⟨.error e, log⟩ : Logged α) >>= f = ⟨.error e, log⟩ :=
  bind_of_error f rfl

end Logged

end FieldGate
