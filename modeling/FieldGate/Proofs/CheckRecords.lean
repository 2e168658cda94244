-- The law of checks as records: the record of a declared check compiles as the check itself
-- does, errors included, and the record of a compiled check compiles to that check again.
import FieldGate.Proofs.MalformedChecks

namespace FieldGate

/-! ## Tokens of operators -/

/-- The token names the operator: it is the operator itself, its canonical token or a short
one. -/
inductive Value.NamesOperator : Value → OperatorKind → Prop
  | itself (kind : OperatorKind) : NamesOperator (.operator kind) kind
  | canonical (kind : OperatorKind) : NamesOperator (.text kind.name) kind
  | short {t : Text} {kind : OperatorKind} : (t, kind) ∈ OperatorKind.shortTokens →
      NamesOperator (.text t) kind

theorem ofToken?_name (kind : OperatorKind) : OperatorKind.ofToken? kind.name = some kind := by
  cases kind <;> decide +kernel

/-- No short token is the canonical token of another operator, or short for two. -/
theorem ofToken?_short {t : Text} {kind : OperatorKind} (h : (t, kind) ∈ OperatorKind.shortTokens) :
    OperatorKind.ofToken? t = some kind := by
  have hall : ∀ e ∈ OperatorKind.shortTokens, OperatorKind.ofToken? e.1 = some e.2 := by
    decide +kernel
  exact hall (t, kind) h

theorem namesOperator_of_ofToken? {t : Text} {kind : OperatorKind}
    (h : OperatorKind.ofToken? t = some kind) : (Value.text t).NamesOperator kind := by
  unfold OperatorKind.ofToken? at h
  split at h
  · rename_i found hfound
    obtain rfl := Option.some.inj h
    have hname := List.find?_some hfound
    rw [decide_eq_true_eq] at hname
    rw [← hname]
    exact .canonical found
  · obtain ⟨e, he, rfl⟩ := Option.map_eq_some_iff.mp h
    have hname := List.find?_some he
    rw [decide_eq_true_eq] at hname
    rw [← hname]
    exact .short (List.mem_of_find?_eq_some he)

/-- A token is parsed to the one operator that it names. -/
theorem parse_ok_iff {token : Value} {kind : OperatorKind} :
    OperatorKind.parse token = .ok kind ↔ token.NamesOperator kind := by
  constructor
  · intro h
    unfold OperatorKind.parse at h
    split at h
    · obtain rfl := Except.ok.inj h
      exact .itself _
    · split at h
      · rename_i found hfound
        obtain rfl := Except.ok.inj h
        exact namesOperator_of_ofToken? hfound
      · cases h
    · cases h
  · intro h
    cases h with
    | itself kind => rfl
    | canonical kind => simp only [OperatorKind.parse, ofToken?_name]
    | short hmem => simp only [OperatorKind.parse, ofToken?_short hmem]

/-! ## Records of checks -/

theorem compileCheck_spec (field token declared : Value) :
    compileCheck (.spec field token declared) = CheckSpec.compile ⟨field, token, declared⟩ := rfl

/-- A record declares the check of its members; more fields, such as the steps of a compiled
check, are not looked at. -/
theorem compileCheck_record {field token : Value} {declared : Text} (more : List (Text × Value))
    (hfield : field ≠ .null) (htoken : token ≠ .null) :
    compileCheck (.record (("field", field) :: ("op", token) :: ("value", .text declared) :: more))
      = compileCheck (.spec field token (.text declared)) := by
  apply compileCheck_map
  apply ofEntries_ok
  · intro name hname
    simp only [checkMembers, List.mem_cons, List.not_mem_nil, or_false] at hname
    rcases hname with rfl | rfl | rfl
    · exact hfield
    · exact htoken
    · exact Value.noConfusion
  · rfl

/-- Checks with tokens that are parsed alike are compiled alike. -/
theorem compileCheck_spec_congr {field token other declared : Value}
    (h : OperatorKind.parse token = OperatorKind.parse other) :
    compileCheck (.spec field token declared) = compileCheck (.spec field other declared) := by
  rw [compileCheck_spec, compileCheck_spec, CheckSpec.compile, CheckSpec.compile, h]

theorem parse_name (kind : OperatorKind) :
    OperatorKind.parse (.text kind.name) = OperatorKind.parse (.operator kind) :=
  parse_ok_iff.mpr (.canonical kind)

/-- The record of a declared check, with its operator written as a token, compiles as the
check does. -/
theorem compileCheck_toRecord {field token : Value} {declared : Text} (hfield : field ≠ .null)
    (htoken : token ≠ .null) :
    compileCheck (CheckSpec.toRecord ⟨field, token, .text declared⟩)
      = compileCheck (.spec field token (.text declared)) := by
  cases token with
  | operator kind =>
    have hname : Value.text kind.name ≠ .null := Value.noConfusion
    exact (compileCheck_record [] hfield hname).trans (compileCheck_spec_congr (parse_name kind))
  | _ => exact compileCheck_record [] hfield htoken

/-- Only a text is compiled, and it is the expression of the path. -/
theorem eq_expression_of_compilePath {field : Value} {p : Path} (h : compilePath field = .ok p) :
    field = .text p.expression := by
  cases field with
  | text t =>
    obtain ⟨-, -, -, hexpression⟩ := compile_ok_spec (compilePath_ok_iff.mp h)
    rw [hexpression]
  | _ => cases h

/-- A check compiles just when its token names an operator and its field is a path, and it
compiles to these two with the declared value. -/
theorem compileCheck_spec_ok_iff {field token declared : Value} {check : CompiledCheck} :
    compileCheck (.spec field token declared) = .ok check
      ↔ ∃ kind, token.NamesOperator kind ∧ check.operator = .known kind
        ∧ field = .text check.field ∧ check.declared = declared
        ∧ compilePath field = .ok check.path := by
  rw [compileCheck_spec, CheckSpec.compile]
  constructor
  · intro h
    obtain ⟨kind, hkind, h⟩ := bind_eq_ok.mp h
    obtain ⟨p, hp, h⟩ := bind_eq_ok.mp h
    obtain rfl := Except.ok.inj h
    exact ⟨kind, parse_ok_iff.mp hkind, rfl, eq_expression_of_compilePath hp, rfl, hp⟩
  · rintro ⟨kind, hnames, hoperator, hfield, hdeclared, hp⟩
    have hexpression : check.path.expression = check.field :=
      Value.text.inj ((eq_expression_of_compilePath hp).symm.trans hfield)
    rw [parse_ok_iff.mpr hnames, ok_bind, hp, ok_bind, ← hoperator, ← hdeclared, hexpression]
    rfl

/-- A compiled check is compiled again from its record. -/
theorem compileCheck_compiled {field token : Value} {declared : Text} {check : CompiledCheck}
    (h : compileCheck (.spec field token (.text declared)) = .ok check) :
    compileCheck check.toRecord = .ok check := by
  obtain ⟨kind, hnames, hoperator, hfield, hdeclared, -⟩ := compileCheck_spec_ok_iff.mp h
  have hrecord : check.toRecord = .record (("field", .text check.field)
      :: ("op", .text kind.name) :: ("value", .text declared)
      :: [("steps", .list (check.path.steps.map Step.value))]) := by
    rw [CompiledCheck.toRecord, CompiledCheck.operatorName, hoperator, hdeclared]
  have hagain : compileCheck check.toRecord
      = compileCheck (.spec (.text check.field) (.text kind.name) (.text declared)) := by
    rw [hrecord]
    exact compileCheck_record _ Value.noConfusion Value.noConfusion
  have hparse : OperatorKind.parse (.text kind.name) = OperatorKind.parse token := by
    rw [parse_ok_iff.mpr hnames, parse_name]
    rfl
  rw [hagain, compileCheck_spec_congr hparse, ← hfield, h]

/-- A check with a field and an operator, be they right or wrong, and a text for its value
comes to the same as its record. It compiles just when the token names an operator and the
field is a path; the operator is then the one that is named, field and value are the declared
texts, and the path is the one of the field. The record of what it compiles to compiles to
that again. -/
theorem a_check_and_its_record_compile_alike {field token : Value} {declared : Text}
    (hfield : field ≠ .null) (htoken : token ≠ .null) :
    compileCheck (CheckSpec.toRecord ⟨field, token, .text declared⟩)
        = compileCheck (.spec field token (.text declared))
      ∧ ∀ check,
        (compileCheck (.spec field token (.text declared)) = .ok check
          ↔ ∃ kind, token.NamesOperator kind ∧ check.operator = .known kind
            ∧ field = .text check.field ∧ check.declared = .text declared
            ∧ compilePath field = .ok check.path)
        ∧ (compileCheck (.spec field token (.text declared)) = .ok check →
          compileCheck check.toRecord = .ok check) := by
  constructor
  · exact compileCheck_toRecord hfield htoken
  · intro check
    exact ⟨compileCheck_spec_ok_iff, compileCheck_compiled⟩

/-- A check of a role, with a short token. -/
def editorSpec : CheckSpec := ⟨.text "user.roles[0]", .text "EQ", .text "editor"⟩

def editorCheck : CompiledCheck :=
  ⟨"user.roles[0]", ⟨"user.roles[0]", [.name "user", .name "roles", .index 0]⟩, .known .equal,
    .text "editor"⟩

theorem a_check_of_a_role_is_written_and_read_again :
    compileCheck editorSpec.toRecord = .ok editorCheck
      ∧ compileCheck editorCheck.toRecord = .ok editorCheck
      ∧ editorCheck.operatorName = .text "EQUAL" := by
  have hfield : Value.text "user.roles[0]" ≠ .null := Value.noConfusion
  have htoken : Value.text "EQ" ≠ .null := Value.noConfusion
  have hnames : (Value.text "EQ").NamesOperator .equal := .short (by decide)
  have hpath : compilePath (.text "user.roles[0]") = .ok editorCheck.path :=
    compilePath_ok_iff.mpr (by decide +kernel)
  obtain ⟨hsame, hcompiles⟩ :=
    @a_check_and_its_record_compile_alike _ _ "editor" hfield htoken
  obtain ⟨hiff, hagain⟩ := hcompiles editorCheck
  have hcheck := hiff.mpr ⟨.equal, hnames, rfl, rfl, rfl, hpath⟩
  exact ⟨hsame.trans hcheck, hagain hcheck, rfl⟩

end FieldGate
