-- Schemas in memory. A field is an object there and keeps its resolver in a cell;
-- a resolver that is replaced is replaced wherever the field stands. Steps on the
-- cells may fail, and a fault undoes nothing.
import FieldGate.Schema

namespace FieldGate

/-! ## Cells -/

/-- Where a field keeps its resolver. -/
abbrev Cell := Nat

def Resolvers := Cell → Option Resolver

/-- The resolvers after that of one cell is replaced. -/
def Resolvers.replace (resolvers : Resolvers) (cell : Cell) (r : Resolver) : Resolvers :=
  fun c => if c = cell then some r else resolvers c

/-- A schema in memory. Two fields may share a cell. -/
structure PlacedSchema where
  types : List (TypeOf Cell)
  resolvers : Resolvers

/-! ## Steps on the cells -/

/-- What came of some steps: their outcome, the resolvers as they left them, and
the records that they wrote. -/
structure Rewired (α : Type) where
  outcome : Except Fault α
  resolvers : Resolvers
  log : List LogRecord

/-- Steps that may replace resolvers. -/
def Rewiring (α : Type) := Resolvers → Rewired α

namespace Rewiring

variable {α β : Type}

/-- Steps that look at no resolver and replace none. -/
def ofLogged (x : Logged α) : Rewiring α := fun resolvers => ⟨x.outcome, resolvers, x.log⟩

/-- Goes on from an answer, with the resolvers as they are by then; a fault ends
everything. -/
def andThen (x : Rewiring α) (f : α → Rewiring β) : Rewiring β := fun resolvers =>
  let first := x resolvers
  match first.outcome with
  | .ok a =>
    let next := f a first.resolvers
    ⟨next.outcome, next.resolvers, first.log ++ next.log⟩
  | .error e => ⟨.error e, first.resolvers, first.log⟩

instance : Monad Rewiring where
  pure a := ofLogged (pure a)
  bind := andThen

instance : MonadLift Logged Rewiring := ⟨ofLogged⟩

def resolverAt (cell : Cell) : Rewiring (Option Resolver) :=
  fun resolvers => ⟨.ok (resolvers cell), resolvers, []⟩

def replace (cell : Cell) (r : Resolver) : Rewiring Unit :=
  fun resolvers => ⟨.ok (), resolvers.replace cell r, []⟩

end Rewiring

/-! ## Placing a schema -/

namespace Schema

/-- Some fields with cells of their own, from a first one on. -/
def placeFields (first : Cell) : List Field → List (FieldOf Cell)
  | [] => []
  | f :: rest => ⟨f.name, f.node, first⟩ :: placeFields (first + 1) rest

/-- Some types whose fields have cells of their own, from a first one on. -/
def placeTypes (first : Cell) : Schema → List (TypeOf Cell)
  | [] => []
  | t :: rest =>
    ⟨t.name, t.kind, t.node, t.extensions, placeFields first t.fields⟩
      :: placeTypes (first + t.fields.length) rest

/-- The resolvers of all fields, in order. -/
def resolversOf (schema : Schema) : List (Option Resolver) :=
  schema.flatMap fun t => t.fields.map (·.resolver)

/-- The schema in memory, every field with its own cell. -/
def place (schema : Schema) : PlacedSchema :=
  ⟨placeTypes 0 schema, fun cell => (schema.resolversOf[cell]?).getD none⟩

end Schema

/-- The schema that stands in memory. -/
def PlacedSchema.read (schema : PlacedSchema) : Schema :=
  schema.types.map fun t =>
    ⟨t.name, t.kind, t.node, t.extensions,
      t.fields.map fun f => ⟨f.name, f.node, schema.resolvers f.resolver⟩⟩

end FieldGate
