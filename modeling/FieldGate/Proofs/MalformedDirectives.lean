-- The laws of malformed directives: which directives are malformed, at which one binding
-- stops, and what it ends with there. That is a report which names the field, but for a
-- directive that cannot be read and for the checks that escape.
import FieldGate.Proofs.Binding
import FieldGate.Proofs.MalformedChecks

namespace FieldGate

/-! ## Arguments -/

/-- The arguments of the directive have the values of literals. -/
def Directive.OfLiterals (d : Directive) : Prop := ∀ a ∈ d.arguments, a.2.OfLiteral

/-- The arguments of all directives on the type and on its fields have the values of
literals. -/
structure OfLiterals (t : TypeOf Cell) : Prop where
  onType : ∀ d ∈ t.nodes.flatten, d.OfLiterals
  onFields : ∀ f ∈ t.fields, ∀ d ∈ f.node.toList.flatten, d.OfLiterals

section Arguments

variable {d : Directive} {v w : Value}

theorem ChecksArgument.ofLiteral (h : ChecksArgument d v) (hd : d.OfLiterals) : v.OfLiteral :=
  hd _ h.mem

theorem ChecksArgument.unique (h : ChecksArgument d v) (h' : ChecksArgument d w) : v = w :=
  congrArg Prod.snd (IsFirst.unique h h')

/-- What is declared are values of literals too. -/
theorem Declares.ofLiteral {declarations : List Value} (h : Declares d declarations)
    (hd : d.OfLiterals) : ∀ v ∈ declarations, v.OfLiteral := by
  cases h with
  | absent _ | null _ => exact fun _ hv => absurd hv List.not_mem_nil
  | one hargument =>
    intro v hv
    obtain rfl := List.mem_singleton.mp hv
    exact hargument.ofLiteral hd
  | many hargument =>
    have hitems := hargument.ofLiteral hd
    cases hitems with
    | list hitems => exact hitems

end Arguments

theorem Binder.InForce.ofLiterals {b : Binder} {t : TypeOf Cell} {f : FieldOf Cell}
    {d : Directive} (h : b.InForce t f d) (ht : OfLiterals t) (hf : f ∈ t.fields) :
    d.OfLiterals := by
  obtain ⟨-, hd | ⟨-, hd⟩⟩ := h
  · exact ht.onType d hd.mem
  · exact ht.onFields f hf d hd.mem

/-! ## Malformed directives -/

/-- The argument of checks is neither a null nor an object nor a list. -/
def Unreadable (d : Directive) : Prop :=
  ∃ v, ChecksArgument d v ∧ v ≠ .null ∧ (∀ entries, v ≠ .map entries) ∧ ∀ items, v ≠ .list items

/-- The directive cannot be read, or one of its checks is malformed. -/
inductive Malformed (d : Directive) : Prop
  | unreadable : Unreadable d → Malformed d
  | check {declarations : List Value} {v : Value} : Declares d declarations →
      v ∈ declarations → MalformedCheck v → Malformed d

theorem Unreadable.not_declares {d : Directive} (h : Unreadable d) (declarations : List Value) :
    ¬Declares d declarations := by
  obtain ⟨v, hargument, hnull, hmap, hlist⟩ := h
  intro hdeclares
  cases hdeclares with
  | absent hnone => exact hnone _ hargument.mem hargument.holds
  | null h => exact hnull (hargument.unique h)
  | one h => exact hmap _ (hargument.unique h)
  | many h => exact hlist _ (hargument.unique h)

theorem declares_or_unreadable (d : Directive) :
    (∃ declarations, Declares d declarations) ∨ Unreadable d := by
  rcases exists_first_or_none (fun a => a.1 = Binder.checksArgument) d.arguments with
    ⟨⟨name, v⟩, hfirst⟩ | hnone
  · obtain rfl : name = Binder.checksArgument := hfirst.holds
    cases v with
    | null => exact .inl ⟨_, .null hfirst⟩
    | map entries => exact .inl ⟨_, .one hfirst⟩
    | list items => exact .inl ⟨_, .many hfirst⟩
    | _ => exact .inr ⟨_, hfirst, nofun, nofun, nofun⟩
  · exact .inl ⟨[], .absent hnone⟩

theorem readDirective_unreadable {b : Binder} {d : Directive} (hname : b.Names d)
    (hd : d.OfLiterals) (h : Unreadable d) :
    ∃ e, b.readDirective d = .error e ∧ e.ReportsAt .null := by
  obtain ⟨v, hargument, hnull, hmap, hlist⟩ := h
  have hfind : d.arguments.find? (fun a => a.1 = Binder.checksArgument)
      = some (Binder.checksArgument, v) :=
    (find?_eq_first fun a => decide_eq_true_iff).mpr hargument
  have hshown : b.name.shown = .ok d.name := by
    rw [hname]
    rfl
  obtain ⟨quoted, hquoted⟩ := (hargument.ofLiteral hd).isWritable.quoted
  unfold Binder.readDirective
  rw [hfind]
  cases v with
  | null => exact absurd rfl hnull
  | map entries => exact absurd rfl (hmap entries)
  | list items => exact absurd rfl (hlist items)
  | _ =>
    simp only [Binder.declarationsOf, hshown, hquoted, liftM_mishap, mapError_ok, ok_bind]
    exact ⟨_, rfl, _, rfl, .inr ⟨.null, rfl⟩, rfl⟩

/-- How a malformed directive that is in force for a field of this name ends the
binding. One that cannot be read is reported at no field, and a check that escapes ends
in its mishap; the first malformed check is reported at the field otherwise. -/
inductive EndsIn (d : Directive) (fieldName : Text) : Fault → Prop
  | unreadable {f : Fault} : Unreadable d → f.ReportsAt .null → EndsIn d fieldName f
  | escaped {declarations : List Value} {v : Value} {m : Mishap} : Declares d declarations →
      IsFirst MalformedCheck declarations v → Escapes v m → EndsIn d fieldName (.mishap m)
  | named {declarations : List Value} {v : Value} {f : Fault} : Declares d declarations →
      IsFirst MalformedCheck declarations v → (∀ m, ¬Escapes v m) →
      f.ReportsAt (.text fieldName) → EndsIn d fieldName f

/-- Declarations without a malformed check compile. -/
theorem Declares.compiles {d : Directive} {declarations : List Value}
    (h : Declares d declarations) (hd : d.OfLiterals)
    (hchecks : ∀ v ∈ declarations, ¬MalformedCheck v) :
    ∃ checks, Compile declarations checks :=
  exists_compile_iff.mpr fun v hv => compileCheck_ok (h.ofLiteral hd v hv) (hchecks v hv)

/-- The first malformed check ends the compiling of what a directive declares. -/
theorem Declares.endsIn {d : Directive} {declarations : List Value} {v : Value}
    (h : Declares d declarations) (hd : d.OfLiterals)
    (hfirst : IsFirst MalformedCheck declarations v) (fieldName : Text) :
    ∃ e, compileChecks declarations = .error e ∧ EndsIn d fieldName (e.atField fieldName) := by
  have hliteral := h.ofLiteral hd
  obtain ⟨before, after, hsplit, hmalformed, hbefore⟩ := id hfirst
  have hcompiled : ∀ u ∈ before, ∃ c, compileCheck u = .ok c := by
    intro u hu
    exact compileCheck_ok (hliteral u (by simp [hsplit, hu])) (hbefore u hu)
  rcases compileCheck_cases (hliteral v hfirst.mem) with
    ⟨-, hwell⟩ | ⟨-, ⟨m, hescapes, hm⟩ | ⟨hstays, e, he, hreports⟩⟩
  · exact absurd hmalformed hwell
  · refine ⟨.mishap m, ?_, .escaped h hfirst hescapes⟩
    rw [hsplit]
    exact compileChecks_error after hcompiled hm
  · refine ⟨e, ?_, .named h hfirst hstays (hreports.atField fieldName)⟩
    rw [hsplit]
    exact compileChecks_error after hcompiled he

/-- A directive compiles just when it is not malformed. -/
theorem compilesTo_iff {d : Directive} (hd : d.OfLiterals) :
    (∃ checks, CompilesTo d checks) ↔ ¬Malformed d := by
  constructor
  · rintro ⟨checks, declarations, hdeclares, hchecks⟩ hmalformed
    cases hmalformed with
    | unreadable h => exact h.not_declares declarations hdeclares
    | @check others v h hv hcheck =>
      obtain rfl := hdeclares.unique h
      rcases exists_first_or_none MalformedCheck declarations with ⟨u, hu⟩ | hnone
      · obtain ⟨e, he, -⟩ := hdeclares.endsIn hd hu []
        rw [compileChecks_eq_ok.mpr hchecks] at he
        cases he
      · exact hnone v hv hcheck
  · intro h
    rcases declares_or_unreadable d with ⟨declarations, hdeclares⟩ | hunreadable
    · obtain ⟨checks, hchecks⟩ := hdeclares.compiles hd fun v hv hcheck =>
        h (.check hdeclares hv hcheck)
      exact ⟨checks, declarations, hdeclares, hchecks⟩
    · exact absurd (.unreadable hunreadable) h

/-- The directive can be read, and its first malformed check does not escape. -/
def NamesItsField (d : Directive) : Prop :=
  ∃ declarations v, Declares d declarations ∧ IsFirst MalformedCheck declarations v
    ∧ ∀ m, ¬Escapes v m

theorem EndsIn.reportsAt_iff {d : Directive} {fieldName : Text} {e : Fault}
    (h : EndsIn d fieldName e) : e.ReportsAt (.text fieldName) ↔ NamesItsField d := by
  cases h with
  | unreadable hunreadable hreports =>
    constructor
    · rintro ⟨r, rfl, -, hfield⟩
      obtain ⟨r', hr, -, hnull⟩ := hreports
      obtain rfl := Fault.report.inj hr
      rw [hnull] at hfield
      cases hfield
    · rintro ⟨declarations, -, hdeclares, -⟩
      exact absurd hdeclares (hunreadable.not_declares declarations)
  | escaped hdeclares hfirst hescapes =>
    constructor
    · rintro ⟨r, hr, -⟩
      cases hr
    · rintro ⟨others, v, hothers, hfirst', hstays⟩
      obtain rfl := hdeclares.unique hothers
      obtain rfl := hfirst.unique hfirst'
      exact absurd hescapes (hstays _)
  | named hdeclares hfirst hstays hreports =>
    exact iff_of_true hreports ⟨_, _, hdeclares, hfirst, hstays⟩

theorem Malformed.cases {d : Directive} (h : Malformed d) :
    Unreadable d
      ∨ ∃ declarations v, Declares d declarations ∧ IsFirst MalformedCheck declarations v := by
  cases h with
  | unreadable h => exact .inl h
  | @check declarations v hdeclares hv hcheck =>
    rcases exists_first_or_none MalformedCheck declarations with ⟨u, hu⟩ | hnone
    · exact .inr ⟨declarations, u, hdeclares, hu⟩
    · exact absurd hcheck (hnone v hv)

/-! ## Where binding stops -/

namespace Binder

def MalformedAt (b : Binder) (t : TypeOf Cell) (f : FieldOf Cell) : Prop :=
  ∃ d, b.InForce t f d ∧ Malformed d

def UnreadableType (b : Binder) (t : TypeOf Cell) : Prop :=
  Bindable t ∧ ∃ d, IsFirst b.Names t.nodes.flatten d ∧ Unreadable d

/-- The directive in force for some field of the type is malformed, or it has no field
and a directive that cannot be read. -/
def StopsAt (b : Binder) (t : TypeOf Cell) : Prop :=
  (∃ f ∈ t.fields, b.MalformedAt t f) ∨ t.fields = [] ∧ b.UnreadableType t

theorem stopsAt_iff {b : Binder} {t : TypeOf Cell} (ht : OfLiterals t) :
    b.StopsAt t ↔ Bindable t ∧ ¬b.WellDeclared t := by
  constructor
  · rintro (⟨f, hf, d, hforce, hmalformed⟩ | ⟨-, hbindable, d, hd, hunreadable⟩)
    · have hd := hforce.ofLiterals ht hf
      exact ⟨hforce.1, fun h => (compilesTo_iff hd).mp (h.compiles f hf d hforce) hmalformed⟩
    · refine ⟨hbindable, fun h => ?_⟩
      obtain ⟨declarations, hdeclares⟩ := h.readable d hd
      exact hunreadable.not_declares declarations hdeclares
  · rintro ⟨hbindable, hnot⟩
    by_contra hstops
    rw [StopsAt, not_or] at hstops
    refine hnot ⟨fun d hd => ?_, fun f hf d hforce => ?_⟩
    · rcases declares_or_unreadable d with hdeclares | hunreadable
      · exact hdeclares
      · exfalso
        -- With a field, the directive of the type is in force for it.
        cases hfields : t.fields with
        | nil => exact hstops.2 ⟨hfields, hbindable, d, hd, hunreadable⟩
        | cons f rest =>
          exact hstops.1 ⟨f, by simp [hfields], d, ⟨hbindable, .inl hd⟩, .unreadable hunreadable⟩
    · rw [compilesTo_iff (hforce.ofLiterals ht hf)]
      exact fun hmalformed => hstops.1 ⟨f, hf, d, hforce, hmalformed⟩

theorem declarations?_unreadable {b : Binder} {nodes : List Node} {d : Directive}
    (hfirst : IsFirst b.Names nodes.flatten d) (hd : d.OfLiterals) (h : Unreadable d) :
    ∃ e, b.declarations? nodes = .error e ∧ e.ReportsAt .null := by
  obtain ⟨e, he, hreports⟩ := readDirective_unreadable hfirst.holds hd h
  refine ⟨e, ?_, hreports⟩
  rw [declarations?, (find?_eq_first matchesName_iff).mpr hfirst]
  exact map_eq_error.mpr he

section Fields

variable {b : Binder} {t : TypeOf Cell} {f : FieldOf Cell} {d : Directive}

theorem bindingOf_ends {declarations : List Value} {v : Value} (resolvers : Resolvers)
    (hd : d.OfLiterals) (hdeclares : Declares d declarations)
    (hfirst : IsFirst MalformedCheck declarations v) :
    ∃ e, (b.bindingOf t f (some declarations) resolvers).outcome = .error e
      ∧ EndsIn d (Binding.qualifiedName t.name f.name) e := by
  obtain ⟨e, he, hends⟩ := hdeclares.endsIn hd hfirst (Binding.qualifiedName t.name f.name)
  refine ⟨_, Rewiring.bind_eq_error.mpr (.inl ?_), hends⟩
  rw [Rewiring.liftM_run, evaluatorFor_error he]

/-- The directive of a type that can be read, or else the one of the field, ends the
collecting of the field when it is malformed. -/
theorem collectField_ends {ofType : Option (List Value)} (resolvers : Resolvers)
    (hofType : b.declarations? t.nodes = .ok ofType) (hforce : b.InForce t f d)
    (hd : d.OfLiterals) (hmalformed : Malformed d) :
    ∃ e, (b.collectField t ofType f resolvers).outcome = .error e
      ∧ EndsIn d (Binding.qualifiedName t.name f.name) e := by
  cases ofType with
  | some declarations =>
    obtain ⟨d', hd', hdeclares⟩ := declarations?_eq_some.mp hofType
    obtain rfl := hforce.unique ⟨hforce.1, .inl hd'⟩
    rcases hmalformed.cases with hunreadable | ⟨others, v, hothers, hfirst⟩
    · exact absurd hdeclares (hunreadable.not_declares declarations)
    · obtain rfl := hothers.unique hdeclares
      exact bindingOf_ends resolvers hd hdeclares hfirst
  | none =>
    have hnone := declarations?_eq_none.mp hofType
    obtain ⟨-, hnamed | ⟨-, hnamed⟩⟩ := hforce
    · exact absurd hnamed.holds (hnone d hnamed.mem)
    · rcases hmalformed.cases with hunreadable | ⟨declarations, v, hdeclares, hfirst⟩
      · obtain ⟨e, he, hreports⟩ := declarations?_unreadable hnamed hd hunreadable
        exact ⟨e, Rewiring.bind_eq_error.mpr (.inl he), .unreadable hunreadable hreports⟩
      · have hdeclared : b.declarations? f.node.toList = .ok (some declarations) :=
          declarations?_eq_some.mpr ⟨d, hnamed, hdeclares⟩
        obtain ⟨e, he, hends⟩ :=
          bindingOf_ends (b := b) (t := t) (f := f) resolvers hd hdeclares hfirst
        exact ⟨e, Rewiring.bind_eq_error.mpr (.inr ⟨_, hdeclared, he⟩), hends⟩

/-- The first field whose directive is malformed ends the collecting of its type. The
induction is on the fields before it. -/
theorem collectFields_ends {ofType : Option (List Value)} {earlier : List (FieldOf Cell)}
    (later : List (FieldOf Cell)) (resolvers : Resolvers)
    (hofType : b.declarations? t.nodes = .ok ofType) (hforce : b.InForce t f d)
    (hmalformed : Malformed d) (hearlier : ∀ g ∈ earlier, ¬b.MalformedAt t g)
    (hliterals : ∀ g ∈ earlier ++ f :: later, ∀ d', b.InForce t g d' → d'.OfLiterals) :
    ∃ e, (b.collectFields t ofType (earlier ++ f :: later) resolvers).outcome = .error e
      ∧ EndsIn d (Binding.qualifiedName t.name f.name) e := by
  induction earlier generalizing resolvers with
  | nil =>
    have hd : d.OfLiterals := hliterals f List.mem_cons_self d hforce
    obtain ⟨e, he, hends⟩ := collectField_ends resolvers hofType hforce hd hmalformed
    exact ⟨e, Rewiring.bind_eq_error.mpr (.inl he), hends⟩
  | cons g earlier ih =>
    rw [List.forall_mem_cons] at hearlier
    rw [List.cons_append, List.forall_mem_cons] at hliterals
    obtain ⟨found, hfound⟩ := collectField_succeeds (f := g) resolvers hforce.1 hofType
      fun d' hforce' => (compilesTo_iff (hliterals.1 d' hforce')).mpr fun h =>
        hearlier.1 ⟨d', hforce', h⟩
    obtain ⟨e, he, hends⟩ :=
      ih (b.collectField t ofType g resolvers).resolvers hearlier.2 hliterals.2
    exact ⟨e, Rewiring.bind_eq_error.mpr (.inr ⟨found, hfound,
      Rewiring.bind_eq_error.mpr (.inl he)⟩), hends⟩

end Fields

theorem collectType_unreadable {b : Binder} {t : TypeOf Cell} (resolvers : Resolvers)
    (ht : OfLiterals t) (h : b.UnreadableType t) :
    ∃ e, (b.collectType t resolvers).outcome = .error e ∧ e.ReportsAt .null := by
  obtain ⟨hbindable, d, hd, hunreadable⟩ := h
  obtain ⟨e, he, hreports⟩ := declarations?_unreadable hd (ht.onType d hd.mem) hunreadable
  refine ⟨e, ?_, hreports⟩
  rw [collectType, if_pos (isBindable_iff.mpr hbindable)]
  exact Rewiring.bind_eq_error.mpr (.inl he)

theorem collectType_ends {b : Binder} {t : TypeOf Cell} {f : FieldOf Cell} {d : Directive}
    (resolvers : Resolvers) (ht : OfLiterals t)
    (hfirst : IsFirst (b.MalformedAt t) t.fields f) (hforce : b.InForce t f d)
    (hmalformed : Malformed d) :
    ∃ e, (b.collectType t resolvers).outcome = .error e
      ∧ EndsIn d (Binding.qualifiedName t.name f.name) e := by
  by_cases hunreadable : b.UnreadableType t
  · obtain ⟨-, d', hd', hd'unreadable⟩ := id hunreadable
    obtain rfl := hforce.unique ⟨hforce.1, .inl hd'⟩
    obtain ⟨e, he, hreports⟩ := collectType_unreadable resolvers ht hunreadable
    exact ⟨e, he, .unreadable hd'unreadable hreports⟩
  · obtain ⟨ofType, hofType⟩ : ∃ ofType, b.declarations? t.nodes = .ok ofType := by
      rw [declarations?_ok_iff]
      intro d' hd'
      exact (declares_or_unreadable d').resolve_right fun h => hunreadable ⟨hforce.1, d', hd', h⟩
    obtain ⟨earlier, later, hfields, -, hearlier⟩ := hfirst
    obtain ⟨e, he, hends⟩ := collectFields_ends later resolvers hofType hforce hmalformed hearlier
      fun g hg d' hforce' => hforce'.ofLiterals ht (hfields ▸ hg)
    refine ⟨e, ?_, hends⟩
    rw [collectType, if_pos (isBindable_iff.mpr hforce.1), hfields]
    exact Rewiring.bind_eq_error.mpr (.inr ⟨ofType, hofType, he⟩)

/-- The first type at which binding stops ends it, by whatever ends the collecting of
that type. -/
theorem collectTypes_ends {b : Binder} {types : List (TypeOf Cell)} {t : TypeOf Cell}
    {P : Fault → Prop} (resolvers : Resolvers) (hliterals : ∀ u ∈ types, OfLiterals u)
    (hfirst : IsFirst b.StopsAt types t)
    (h : ∀ resolvers, ∃ e, (b.collectType t resolvers).outcome = .error e ∧ P e) :
    ∃ e, (b.collectTypes types resolvers).outcome = .error e ∧ P e := by
  obtain ⟨before, after, rfl, -, hbefore⟩ := hfirst
  induction before generalizing resolvers with
  | nil =>
    obtain ⟨e, he, hP⟩ := h resolvers
    exact ⟨e, Rewiring.bind_eq_error.mpr (.inl he), hP⟩
  | cons u before ih =>
    rw [List.cons_append, List.forall_mem_cons] at hliterals
    rw [List.forall_mem_cons, stopsAt_iff hliterals.1, not_and, not_not] at hbefore
    obtain ⟨bindings, hbindings⟩ := collectType_succeeds resolvers hbefore.1
    obtain ⟨e, he, hP⟩ := ih (b.collectType u resolvers).resolvers hliterals.2 hbefore.2
    exact ⟨e, Rewiring.bind_eq_error.mpr (.inr ⟨bindings, hbindings,
      Rewiring.bind_eq_error.mpr (.inl he)⟩), hP⟩

theorem apply_ends {b : Binder} (common : Resolver) {schema : PlacedSchema} {t : TypeOf Cell}
    {P : Fault → Prop} (hliterals : ∀ u ∈ schema.types, OfLiterals u)
    (hfirst : IsFirst b.StopsAt schema.types t)
    (h : ∀ resolvers, ∃ e, (b.collectType t resolvers).outcome = .error e ∧ P e) :
    ∃ e, (b.apply common schema).outcome = .error e ∧ P e := by
  obtain ⟨e, he, hP⟩ := collectTypes_ends schema.resolvers hliterals hfirst h
  exact ⟨e, Rewiring.bind_eq_error.mpr (.inl he), hP⟩

/-- Where all arguments have the values of literals, binding fails just when it stops at some
type, and what it ends with comes from the first such type and from its first field with a
malformed directive in force. That is a report of a defect of the setup which names the type
and the field, just when the directive can be read and its first malformed check does not
escape: it is an object, and no long index is come to in its path. A directive that cannot
be read is reported without any field, and the checks that escape end in their mishaps. -/
theorem a_malformed_directive_is_reported_at_its_field_unless_it_escapes (b : Binder)
    (common : Resolver) (schema : PlacedSchema)
    (hliterals : ∀ t ∈ schema.types, OfLiterals t) :
    let run := b.apply common schema
    (run.outcome = .ok () ↔ ∀ t ∈ schema.types, ¬b.StopsAt t)
    ∧ ∀ t, IsFirst b.StopsAt schema.types t →
      (∀ f d, IsFirst (b.MalformedAt t) t.fields f → b.InForce t f d →
        ∃ e, run.outcome = .error e ∧ EndsIn d (Binding.qualifiedName t.name f.name) e
          ∧ (e.ReportsAt (.text (Binding.qualifiedName t.name f.name)) ↔ NamesItsField d))
      ∧ (t.fields = [] → ∃ e, run.outcome = .error e ∧ e.ReportsAt .null) := by
  intro run
  refine ⟨?succeeds, fun t hfirst => ?_⟩
  case succeeds =>
    refine apply_ok_iff.trans (forall₂_congr fun t ht => ?_)
    rw [stopsAt_iff (hliterals t ht), not_and, not_not]
  have ht := hliterals t hfirst.mem
  constructor
  · intro f d hfield hforce
    have hmalformed : Malformed d := by
      obtain ⟨d', hforce', hmalformed⟩ := hfield.holds
      rwa [hforce.unique hforce']
    obtain ⟨e, he, hends⟩ := apply_ends common hliterals hfirst fun resolvers =>
      collectType_ends resolvers ht hfield hforce hmalformed
    exact ⟨e, he, hends, hends.reportsAt_iff⟩
  · intro hnone
    rcases hfirst.holds with ⟨f, hf, -⟩ | ⟨-, hunreadable⟩
    · rw [hnone] at hf
      cases hf
    · exact apply_ends common hliterals hfirst fun resolvers =>
        collectType_unreadable resolvers ht hunreadable

def paySchema (d : Directive) : Schema :=
  [⟨"Query", .object, some [], [], [⟨"pay", some [d], none⟩]⟩]

theorem ofLiterals_paySchema {checks : Value} (h : checks.OfLiteral) :
    ∀ t ∈ (paySchema (checksDirective checks)).place.types, OfLiterals t := by
  intro t ht
  obtain rfl := List.mem_singleton.mp ht
  refine ⟨nofun, fun f hf d hd a ha => ?_⟩
  obtain rfl := List.mem_singleton.mp hf
  obtain rfl := List.mem_singleton.mp hd
  obtain rfl := List.mem_singleton.mp ha
  exact h

theorem ofLiteral_roleDeclaration (operator : Text) : (roleDeclaration operator).OfLiteral := by
  refine .object ?_
  simp only [List.forall_mem_cons, List.not_mem_nil, false_implies, implies_true, and_true]
  exact ⟨.text _, .text _, .text _⟩

theorem an_unknown_operator_is_reported_at_its_field :
    let schema := (paySchema (roleDirective "ALMOST")).place
    (∀ t ∈ schema.types, OfLiterals t)
      ∧ ∃ e, (standard.apply entryReader schema).outcome = .error e
        ∧ e.ReportsAt (.text "Query.pay") := by
  intro schema
  let f : FieldOf Cell := ⟨"pay", some [roleDirective "ALMOST"], 0⟩
  let t : TypeOf Cell := ⟨"Query", .object, some [], [], [f]⟩
  have hliterals : ∀ t ∈ schema.types, OfLiterals t := by
    apply ofLiterals_paySchema
    refine .list fun v hv => ?_
    obtain rfl := List.mem_singleton.mp hv
    exact ofLiteral_roleDeclaration "ALMOST"
  have hcheck : ∀ kind, OperatorKind.parse (.text "ALMOST") ≠ .ok kind := nofun
  have hdeclares := declares_roleDirective "ALMOST"
  have hforce : standard.InForce t f (roleDirective "ALMOST") :=
    ⟨⟨rfl, by decide⟩, .inr ⟨by simp [t, TypeOf.nodes], .singleton rfl⟩⟩
  have hmalformed : standard.MalformedAt t f :=
    ⟨_, hforce, .check hdeclares List.mem_cons_self (.noOperator hcheck)⟩
  have hnames : NamesItsField (roleDirective "ALMOST") := by
    refine ⟨_, _, hdeclares, .singleton (.noOperator hcheck), fun m hm => ?_⟩
    obtain ⟨-, -, ⟨kind, hkind⟩, -⟩ := escapes_map hm
    exact hcheck kind hkind
  obtain ⟨-, hstops⟩ := a_malformed_directive_is_reported_at_its_field_unless_it_escapes standard
    entryReader schema hliterals
  obtain ⟨hfield, -⟩ := hstops t (.singleton (.inl ⟨f, List.mem_cons_self, hmalformed⟩))
  obtain ⟨e, he, -, hreports⟩ := hfield f _ (.singleton hmalformed) hforce
  exact ⟨hliterals, e, he, hreports.mpr hnames⟩

/-- A text in the place of the checks is malformed, and is reported at no field; a text
among the checks is malformed too, and is not reported at all. -/
theorem a_text_as_check_is_not_reported_at_its_field :
    let binding (checks : Value) :=
      (standard.apply entryReader (paySchema (checksDirective checks)).place).outcome
    (Malformed (checksDirective (.text "admin"))
      ∧ ∃ e, binding (.text "admin") = .error e
        ∧ e.ReportsAt .null ∧ ¬e.ReportsAt (.text "Query.pay"))
    ∧ Malformed (checksDirective (.list [.text "admin"]))
      ∧ binding (.list [.text "admin"]) = .error (.mishap (.noAttribute "str" "get")) := by
  intro binding
  refine ⟨⟨.unreadable ⟨_, checksArgument_checksDirective _, nofun, nofun, nofun⟩, _, rfl,
    ⟨_, rfl, .inr ⟨.null, rfl⟩, rfl⟩, ?_⟩,
    .check (.many (checksArgument_checksDirective _)) List.mem_cons_self (.noObject nofun), rfl⟩
  rintro ⟨r, hr, -, hfield⟩
  obtain rfl := Fault.report.inj hr
  cases hfield

end Binder

end FieldGate
