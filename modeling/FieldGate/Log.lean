-- Answers together with the log records written on the way to them. A fault
-- keeps the records that were written before it.
import FieldGate.Report

namespace FieldGate

/-- How grave a log record is. -/
inductive LogLevel where
  | debug
  | info
  | warning
deriving DecidableEq

def LogLevel.name : LogLevel → Text
  | debug => "DEBUG"
  | info => "INFO"
  | warning => "WARNING"

/-- One record of the log. -/
structure LogRecord where
  level : LogLevel
  message : Text
deriving DecidableEq

/-- An answer or a fault, and the records written before it was there. -/
structure Logged (α : Type) where
  outcome : Except Fault α
  log : List LogRecord

namespace Logged

variable {α β : Type}

/-- An answer or a fault without any record. -/
def silently (outcome : Except Fault α) : Logged α := ⟨outcome, []⟩

/-- One record. -/
def record (level : LogLevel) (message : Text) : Logged Unit := ⟨.ok (), [⟨level, message⟩]⟩

/-- Goes on from an answer and appends the records that come; a fault ends
everything. -/
def andThen (x : Logged α) (f : α → Logged β) : Logged β :=
  match x.outcome with
  | .ok a => ⟨(f a).outcome, x.log ++ (f a).log⟩
  | .error e => ⟨.error e, x.log⟩

instance : Monad Logged where
  pure a := silently (.ok a)
  bind := andThen

instance : MonadLift (Except Fault) Logged := ⟨silently⟩

/-- A fault is turned into another one; the records stay. -/
def mapFault (f : Fault → Fault) (x : Logged α) : Logged α := ⟨x.outcome.mapError f, x.log⟩

end Logged

end FieldGate
