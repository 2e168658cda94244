-- Resolvers, and the guards put around them. A guard enforces its evaluator on
-- the context of a request and only then calls the resolver behind it, with the
-- same request; what the resolver gives goes back unchanged.
import FieldGate.Gate

namespace FieldGate

/-! ## Requests and replies -/

/-- What a resolver is called with: its root and arguments, and of what it is told
besides them the context and the name of the field. -/
structure Request where
  context : Value
  fieldName : Text
  root : Value
  arguments : List (Text × Value)

/-- When the answer to a call was there: with the call itself, or after
awaiting what the call gave. -/
inductive Stage where
  | call
  | await
deriving DecidableEq

/-- What is done for a request: an evaluator is enforced for a field, or a declared
resolver is called with the request. -/
inductive Effect where
  | enforced (field : Value) (evaluator : Evaluator)
  | called (request : Request)

/-- The request that a declared resolver is called with, if one is. -/
def Effect.call? : Effect → Option Request
  | called request => some request
  | enforced _ _ => none

/-- The reply to a request: the answer with its log, what was done for it in order,
and when it was there. -/
structure Reply where
  answer : Logged Value
  effects : List Effect
  stage : Stage

namespace Reply

/-- The requests that declared resolvers were called with, in order. -/
def calls (r : Reply) : List Request := r.effects.filterMap Effect.call?

end Reply

/-! ## Resolvers -/

/-- What a declared resolver is: a function, or a coroutine that runs when it is
awaited. -/
inductive Manner where
  | function
  | coroutine
deriving DecidableEq

/-- What a declared resolver does: the answer that it gives to a request, with what
it logs on the way to it, and whether a function gives it as something to await. -/
structure ResolverBody where
  answer : Request → Logged Value
  stage : Request → Stage

/-- A resolver of a field: a declared one, or a guard around another. -/
inductive Resolver where
  | declared (name : Text) (manner : Manner) (body : ResolverBody)
  | guarded (delegate : Resolver) (field : Value) (evaluator : Evaluator)

namespace Resolver

/-- The name of a resolver; a guard goes by the name of what it guards. -/
def name : Resolver → Text
  | declared name _ _ => name
  | guarded delegate _ _ => delegate.name

/-- The resolver is a coroutine. A guard is one when it guards one. -/
def isCoroutine : Resolver → Bool
  | declared _ manner _ => manner = .coroutine
  | guarded delegate _ _ => delegate.isCoroutine

def evaluator? : Resolver → Option Evaluator
  | guarded _ _ evaluator => some evaluator
  | declared _ _ _ => none

/-- When the answer of a declared resolver is there. -/
def declaredStage (manner : Manner) (body : ResolverBody) (request : Request) : Stage :=
  match manner with
  | .function => body.stage request
  | .coroutine => .await

/-- The stage of a call that a guard denies. -/
def denialStage (delegate : Resolver) : Stage :=
  if delegate.isCoroutine then .await else .call

/-- The names under which a guard itself takes the root of a request and what it is
told besides. -/
def ownNames : List Text := ["root", "info"]

/-- The first argument of a request that has a name which a guard takes itself. -/
def takenName? (request : Request) : Option Text :=
  (request.arguments.find? fun a => ownNames.contains a.1).map (·.1)

/-- Calls a resolver. A guard refuses an argument that has one of its own names before
anything else is done. -/
def call (request : Request) : Resolver → Reply
  | declared _ manner body =>
    ⟨body.answer request, [.called request], declaredStage manner body request⟩
  | guarded delegate field evaluator =>
    match takenName? request with
    | some taken => ⟨.silently (.error (.mishap (.takenOption delegate.name taken))), [], .call⟩
    | none =>
      let enforced := evaluator.enforce request.context field
      let first := Effect.enforced field evaluator
      match enforced.outcome with
      | .error e => ⟨⟨.error e, enforced.log⟩, [first], delegate.denialStage⟩
      | .ok _ =>
        let reply := delegate.call request
        { reply with
          answer := ⟨reply.answer.outcome, enforced.log ++ reply.answer.log⟩,
          effects := first :: reply.effects }

end Resolver

end FieldGate
