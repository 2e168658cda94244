-- The directive that declares checks in a schema, and its binding: every
-- declaration is compiled before any resolver is replaced, so a declaration
-- that is not valid leaves the schema as it was.
import FieldGate.Schema.Memory

namespace FieldGate

/-! ## The source of the directive -/

def enumLine (token : Text) : Text := "        " ++ token

/-- The declaration of the operators, the input and the directive of a name,
as part of a schema's source. -/
def directiveSource (name : Text) : Text :=
  "\n    enum AuthDirectiveOperation \x7b\n"
    ++ Text.joined "\n" (OperatorKind.tokens.map enumLine)
    ++ "\n    \x7d\n\n"
    ++ "    input AuthDirectiveInput \x7b\n"
    ++ "        field: String!\n"
    ++ "        op: AuthDirectiveOperation!\n"
    ++ "        value: String!\n"
    ++ "    \x7d\n\n"
    ++ "    directive @" ++ name ++ "(\n"
    ++ "        checks: [AuthDirectiveInput!]\n"
    ++ "    ) on OBJECT | FIELD_DEFINITION\n"

def defaultDirectiveName : Text := "auth"

/-! ## Binders -/

/-- Binds the directives of one name under common settings. -/
structure Binder where
  name : Value
  settings : Settings

namespace Binder

/-- The binder without any options. -/
def standard : Binder := ⟨.text defaultDirectiveName, .standard⟩

/-- The option that names the directive; all others are settings. -/
def nameOption : Text := "name"

def ofOptions (options : Options) : Except Fault Binder := do
  let name := options.get nameOption (.text defaultDirectiveName)
  let settings ← Settings.ofOptions (options.filter (·.1 ≠ nameOption))
  return ⟨name, settings⟩

def source (b : Binder) : Except Mishap Text := b.name.shown.map directiveSource

/-! ## Reading declarations -/

def checksArgument : Text := "checks"

/-- The directive has the binder's name. -/
def matchesName (b : Binder) (d : Directive) : Bool := b.name.sameKey (.text d.name)

/-- The declarations that the value of the argument holds: none for the missing
value, one for a map, and the items of a list. -/
def declarationsOf (b : Binder) (v : Value) : Except Fault (List Value) :=
  match v with
  | .null => .ok []
  | .map entries => .ok [.map entries]
  | .list items => .ok items
  | _ => do
    let name ← b.name.shown
    let shown ← v.quoted
    .error (.misconfigured ("@" ++ name ++ "(checks:) must be a list, got " ++ shown)
      .invalidCheck)

/-- The declarations of a directive. Without the argument there are none. -/
def readDirective (b : Binder) (d : Directive) : Except Fault (List Value) :=
  match d.arguments.find? (·.1 = checksArgument) with
  | none => .ok []
  | some (_, v) => b.declarationsOf v

/-- The declarations of the first directive of the binder's name on some nodes;
none at all without such a directive. -/
def declarations? (b : Binder) (nodes : List Node) :
    Except Fault (Option (List Value)) :=
  match nodes.flatten.find? b.matchesName with
  | none => .ok none
  | some d => (b.readDirective d).map some

end Binder

/-! ## Bindings -/

/-- A field that is to be guarded, with the evaluator of its checks. -/
structure Binding where
  typeName : Text
  fieldName : Text
  cell : Cell
  evaluator : Evaluator

namespace Binding

def qualifiedName (typeName fieldName : Text) : Text := typeName ++ "." ++ fieldName

/-- The guard of the field: around the resolver that it has, or else around the
common one. -/
def guard (common : Resolver) (binding : Binding) (current : Option Resolver) : Resolver :=
  .guarded (current.getD common) (.text binding.fieldName) binding.evaluator

def protectedMessage (binding : Binding) : Text :=
  "Protected " ++ qualifiedName binding.typeName binding.fieldName ++ " with "
    ++ decimal binding.evaluator.checks.length ++ " check(s)"

/-- Puts the guard in the place of the field's resolver, and logs it. -/
def protect (common : Resolver) (binding : Binding) : Rewiring Unit := do
  let current ← Rewiring.resolverAt binding.cell
  Rewiring.replace binding.cell (binding.guard common current)
  Logged.record .debug binding.protectedMessage

/-- Protects the fields of some bindings, in order. -/
def protectAll (common : Resolver) : List Binding → Rewiring Unit
  | [] => return ()
  | binding :: rest => do
    binding.protect common
    protectAll common rest

end Binding

/-! ## Binding a schema -/

namespace Binder

/-- Builds the evaluator of a field from its declarations. A report about them
is one about the field. -/
def evaluatorFor (b : Binder) (typeName fieldName : Text) (declarations : List Value) :
    Logged Evaluator :=
  Logged.mapFault (Fault.atField (Binding.qualifiedName typeName fieldName)) do
    let checks ← compileChecks declarations
    Evaluator.ofChecks b.settings checks

/-- The binding of a field with some declarations; none without declarations. -/
def bindingOf (b : Binder) (t : TypeOf Cell) (f : FieldOf Cell) :
    Option (List Value) → Rewiring (Option Binding)
  | none => return none
  | some declarations => do
    let evaluator ← b.evaluatorFor t.name f.name declarations
    return some ⟨t.name, f.name, f.resolver, evaluator⟩

/-- The binding of a field, if there is one. The declarations of its type take the
place of its own. -/
def collectField (b : Binder) (t : TypeOf Cell) (ofType : Option (List Value))
    (f : FieldOf Cell) : Rewiring (Option Binding) :=
  match ofType with
  | some declarations => b.bindingOf t f (some declarations)
  | none => do
    let declared ← Logged.silently (b.declarations? f.node.toList)
    b.bindingOf t f declared

/-- The bindings of some fields of a type, in order. -/
def collectFields (b : Binder) (t : TypeOf Cell) (ofType : Option (List Value)) :
    List (FieldOf Cell) → Rewiring (List Binding)
  | [] => return []
  | f :: rest => do
    let binding ← b.collectField t ofType f
    let bindings ← b.collectFields t ofType rest
    return binding.toList ++ bindings

/-- The bindings of the fields of a type. -/
def collectType (b : Binder) (t : TypeOf Cell) : Rewiring (List Binding) := do
  if t.isBindable then
    let ofType ← Logged.silently (b.declarations? t.nodes)
    b.collectFields t ofType t.fields
  else return []

/-- The bindings of all types, in order. The first declaration that is not valid
ends the collecting. -/
def collectTypes (b : Binder) : List (TypeOf Cell) → Rewiring (List Binding)
  | [] => return []
  | t :: rest => do
    let bindings ← b.collectType t
    let others ← b.collectTypes rest
    return bindings ++ others

/-- Binds the directives of some types: collects all bindings, and then protects
their fields. -/
def rewire (b : Binder) (common : Resolver) (types : List (TypeOf Cell)) : Rewiring Unit := do
  let bindings ← b.collectTypes types
  Binding.protectAll common bindings

/-- Binds the directives of a schema in memory. The common resolver stands in for the
fields that have none of their own. -/
def apply (b : Binder) (common : Resolver) (schema : PlacedSchema) : Rewired Unit :=
  b.rewire common schema.types schema.resolvers

def bind (b : Binder) (common : Resolver) (schema : Schema) : Logged Schema :=
  let placed := schema.place
  let applied := b.apply common placed
  ⟨applied.outcome.map fun _ => { placed with resolvers := applied.resolvers }.read,
    applied.log⟩

end Binder

end FieldGate
