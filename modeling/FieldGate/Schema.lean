-- Schemas as far as directives go: types, their fields, and the directives that
-- stand on either. The arguments of a directive are given by their values.
import FieldGate.Guard

namespace FieldGate

/-! ## Types and fields -/

/-- A directive with its arguments, each with the value that its literal stands for. -/
structure Directive where
  name : Text
  arguments : List (Text × Value)

/-- A node of the schema's source, as far as directives go. -/
abbrev Node := List Directive

/-- A field of a type, with its resolver or with what stands for it. A definition
without source has no node. -/
structure FieldOf (ρ : Type) where
  name : Text
  node : Option Node
  resolver : ρ

inductive TypeKind where
  | object
  | interface
  | input
  | enum
deriving DecidableEq

/-- A type with its node, the nodes of its extensions, and its fields. -/
structure TypeOf (ρ : Type) where
  name : Text
  kind : TypeKind
  node : Option Node
  extensions : List Node
  fields : List (FieldOf ρ)

/-- A field with a resolver of its own; without one a common resolver stands in. -/
abbrev Field := FieldOf (Option Resolver)

/-- A type whose fields have their own resolvers. -/
abbrev TypeDefinition := TypeOf (Option Resolver)

/-- A schema is its types in order. -/
abbrev Schema := List TypeDefinition

namespace TypeOf

variable {ρ : Type}

/-- What the names of introspection types start with. -/
def introspectionStart : Text := "__"

/-- Directives are bound on object types alone, introspection types apart. -/
def isBindable (t : TypeOf ρ) : Bool :=
  !introspectionStart.isPrefixOf t.name && t.kind = .object

/-- The nodes of a type: its own, and then those of its extensions. -/
def nodes (t : TypeOf ρ) : List Node := t.node.toList ++ t.extensions

end TypeOf

end FieldGate
